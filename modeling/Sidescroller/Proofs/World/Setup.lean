import Sidescroller.Proofs.Binary32.Value
import Sidescroller.Proofs.World.Run
import Sidescroller.Rules.Loading

/-!
# Which rules make a world

Rules are looked at twice: `Rules.violation?` asks whether they make sense, and the camera asks
whether its scroll ranges are ordered, since it has to bring a number into each of them whenever it
looks at the player. The two do not ask the same. A bound that is no number compares with nothing,
so that no comparison finds it wrong, and yet there is no range.

* `Rules.Scrolling.offset?` — the offset of the camera, if both of its ranges are ordered;
* `World.setting_run` — the setting of a world, and so its camera, is for good;
* `World.runs_iff_bounds_are_numbers` — accepted rules make a world whose camera has an offset
  whatever happens, if all bounds are numbers, and no world otherwise;
* `World.accepted_but_no_world` — a document with a bound that is no number.
-/

namespace Sidescroller

/-! ### Ordered ranges -/

namespace Binary32

/-- `clamp` where it has a meaning: the ends of the interval have to be numbers and ordered. -/
def clamp? (lo hi x : Float32) : Option Float32 :=
  if lo ≤ hi then some (clamp lo hi x) else none

end Binary32

namespace Rules.Scrolling

variable {rules : Scrolling}

/-- The ends of both scroll ranges. -/
def bounds (rules : Scrolling) : List Float32 := [rules.minX, rules.maxX, rules.minY, rules.maxY]

/-- The upper left corner of the view, if both scroll ranges are ordered. -/
def offset? (rules : Scrolling) (player : Rect) : Option Vec2 := do
  let x ← Binary32.clamp? rules.minX rules.maxX (player.center.x - rules.viewportWidth / 2)
  let y ← Binary32.clamp? rules.minY rules.maxY (player.center.y - rules.viewportHeight / 2)
  return ⟨x, y⟩

theorem forall_mem_bounds_iff {p : Float32 → Prop} :
    (∀ bound ∈ rules.bounds, p bound) ↔
      (p rules.minX ∧ p rules.maxX) ∧ p rules.minY ∧ p rules.maxY := by
  simp only [bounds, List.forall_mem_cons, List.not_mem_nil, false_imp_iff, implies_true, and_true,
    and_assoc]

end Rules.Scrolling

namespace Camera

variable {camera : Camera} {rules : Rules.Scrolling}

theorem rules_of_ofRules? (h : ofRules? rules = some camera) : camera.rules = rules := by
  unfold ofRules? at h
  split_ifs at h
  obtain rfl := Option.some.inj h
  rfl

theorem ofRules?_eq_none_iff :
    ofRules? rules = none ↔ ¬ (rules.minX ≤ rules.maxX ∧ rules.minY ≤ rules.maxY) := by
  unfold ofRules?
  split_ifs with h
  · exact iff_of_false nofun (not_not_intro h)
  · exact iff_of_true rfl h

/-- A camera has an offset wherever the player is. -/
theorem offset?_rules (camera : Camera) (player : Rect) :
    camera.rules.offset? player = some (camera.offset player) := by
  unfold Rules.Scrolling.offset? Binary32.clamp?
  rw [if_pos camera.minX_le_maxX, if_pos camera.minY_le_maxY]
  rfl

theorem offset?_eq_none (h : ofRules? rules = none) (player : Rect) :
    rules.offset? player = none := by
  unfold Rules.Scrolling.offset? Binary32.clamp?
  by_cases hx : rules.minX ≤ rules.maxX
  · have hy : ¬ rules.minY ≤ rules.maxY := fun hy => ofRules?_eq_none_iff.1 h ⟨hx, hy⟩
    rw [if_pos hx, if_neg hy]
    rfl
  · rw [if_neg hx]
    rfl

end Camera

/-! ### Accepted rules -/

namespace Rules

variable {rules : Rules}

theorem violation?_of_accept {datum : Datum} (h : accept datum = .ok rules) :
    rules.violation? = none := by
  unfold accept at h
  cases hread : ofDatum? .skipped datum with
  | none =>
    rw [hread] at h
    cases h
  | some read =>
    rw [hread] at h
    cases hviolation : read.violation? with
    | some violation =>
      simp only [hviolation] at h
      cases h
    | none =>
      simp only [hviolation] at h
      obtain rfl := Except.ok.inj h
      exact hviolation

/-- Rules that can be loaded have been accepted. -/
theorem violation?_of_load {text : String} (h : load text = .ok rules) :
    rules.violation? = none := by
  unfold load at h
  cases hread : Toml.read? text with
  | none =>
    rw [hread] at h
    cases h
  | some datum =>
    rw [hread] at h
    exact violation?_of_accept h

/-- Accepted rules have no reversed scroll range. -/
theorem not_lt_of_violation? (h : rules.violation? = none) :
    ¬ rules.scrolling.maxX < rules.scrolling.minX ∧
      ¬ rules.scrolling.maxY < rules.scrolling.minY := by
  unfold violation? at h
  dsimp only at h
  split_ifs at h with hsize hrate hfall hrange hinteraction
  exact not_or.1 hrange

/-- The scroll ranges of accepted rules are ordered exactly if all of their ends are numbers. -/
theorem ordered_iff_of_violation? (h : rules.violation? = none) :
    rules.scrolling.minX ≤ rules.scrolling.maxX ∧ rules.scrolling.minY ≤ rules.scrolling.maxY ↔
      ∀ bound ∈ rules.scrolling.bounds, bound.isNaN = false := by
  obtain ⟨hx, hy⟩ := not_lt_of_violation? h
  rw [Scrolling.forall_mem_bounds_iff]
  constructor
  · rintro ⟨hminX, hminY⟩
    exact ⟨Binary32.isNaN_of_le hminX, Binary32.isNaN_of_le hminY⟩
  · rintro ⟨⟨hminX, hmaxX⟩, hminY, hmaxY⟩
    exact ⟨(Binary32.le_iff_not_lt hminX hmaxX).2 hx, (Binary32.le_iff_not_lt hminY hmaxY).2 hy⟩

end Rules

/-! ### The setting of a world -/

namespace World

variable {character : Character} {rules : Rules} {level : Level} {script : Story.Script}
  {world : World}

/-- The part of a world that nothing changes. -/
structure Setting where
  character : Character
  level : Level
  /-- The camera, without what it shows. -/
  camera : Camera

/-- The setting of a world. -/
def setting (world : World) : Setting where
  character := world.character
  level := world.level
  camera := world.camera

theorem setting_depart (world : World) (departure : Story.Departure) :
    (world.depart departure).1.setting = world.setting := by
  unfold depart
  cases departure.transition with
  | continued node => rfl
  | ended ending => rfl

theorem setting_converse (world : World) (intent : Intent) :
    (world.converse intent).1.setting = world.setting := by
  unfold converse
  by_cases hcancel : intent.cancel = true
  · rw [if_pos hcancel]
    split
    · rfl
    · rfl
  · rw [if_neg hcancel]
    split
    · exact setting_depart _ _
    · -- no number key that names a choice
      split_ifs
      · split
        · exact setting_depart _ _
        · rfl
      · rfl

theorem setting_openDialogue (world : World) : world.openDialogue.1.setting = world.setting := by
  rcases world.openDialogue_cases with
    ⟨trigger, h⟩ | ⟨trigger, npc, -, -, -, h⟩ | ⟨trigger, npc, -, -, -, h⟩
  · rw [h]
    rfl
  · rw [h]
    rfl
  · rw [h]
    rfl

theorem setting_roam (world : World) (intent : Intent) (dt : Float32) :
    (world.roam intent dt).1.setting = world.setting := by
  unfold roam
  dsimp only
  split_ifs
  · exact setting_openDialogue _
  · rfl

theorem setting_tick (world : World) (intent : Intent) (dt : Float32) :
    (world.tick intent dt).1.setting = world.setting := by
  unfold tick
  dsimp only
  split_ifs
  · exact setting_converse _ intent
  · exact setting_roam _ intent dt

theorem setting_place (world : World) (position : Vec2) :
    (world.place position).setting = world.setting := by
  unfold place
  split_ifs
  · rfl
  · rfl

theorem setting_perform (world : World) (command : Command) :
    (world.perform command).1.setting = world.setting := by
  apply perform_keeps (P := fun last => last.setting = world.setting) ?_ ?_ rfl command
  · intro last intent dt hsetting
    exact (last.setting_tick intent dt).trans hsetting
  · intro last position hsetting
    exact (last.setting_place position).trans hsetting

/-- **The setting is for good**: no commands change it. -/
theorem setting_run (world : World) (commands : List Command) :
    (world.run commands).1.setting = world.setting := by
  induction commands generalizing world with
  | nil => rfl
  | cons command rest ih => exact (ih _).trans (world.setting_perform command)

/-! ### Making a world -/

/-- Once the story has been set up, the camera alone decides. -/
theorem create_of_setUp {story : Story.Graph × Story.Chapters}
    (hstory : script.setUp character.name = .ok story) (rules : Rules) (level : Level) :
    (Camera.ofRules? rules.scrolling = none ∧
        create character rules level script = .error .scrollRange) ∨
      ∃ camera world, Camera.ofRules? rules.scrolling = some camera ∧
        create character rules level script = .ok world ∧
        world.setting = ⟨character, level, camera⟩ := by
  unfold create
  rw [hstory]
  cases hcamera : Camera.ofRules? rules.scrolling with
  | none => exact .inl ⟨rfl, rfl⟩
  | some camera => exact .inr ⟨camera, _, rfl, rfl, rfl⟩

/-- **Accepted rules run exactly if their bounds are numbers.** With a story that can be set up they
make a world then, and after any commands its camera has an offset wherever the player is. If a
bound is no number there is no world, and no player for whom the camera would have an offset. -/
theorem runs_iff_bounds_are_numbers {story : Story.Graph × Story.Chapters}
    (haccepted : rules.violation? = none) (hstory : script.setUp character.name = .ok story)
    (level : Level) :
    ((∀ bound ∈ rules.scrolling.bounds, bound.isNaN = false) ↔
      ∃ world, create character rules level script = .ok world ∧
        ∀ commands player, rules.scrolling.offset? player =
          some ((world.run commands).1.camera.offset player)) ∧
    ((∃ bound ∈ rules.scrolling.bounds, bound.isNaN = true) ↔
      create character rules level script = .error .scrollRange ∧
        ∀ player, rules.scrolling.offset? player = none) := by
  have hordered := Rules.ordered_iff_of_violation? haccepted
  have hnan : (∃ bound ∈ rules.scrolling.bounds, bound.isNaN = true) ↔
      ¬ ∀ bound ∈ rules.scrolling.bounds, bound.isNaN = false := by
    simp only [not_forall, exists_prop, Bool.not_eq_false]
  rw [hnan, ← hordered]
  rcases create_of_setUp hstory rules level with
    ⟨hcamera, hcreate⟩ | ⟨camera, world, hcamera, hcreate, hsetting⟩
  · -- no camera, and so no world: the range is not ordered
    have hrange := Camera.ofRules?_eq_none_iff.1 hcamera
    refine ⟨iff_of_false hrange ?_, iff_of_true hrange ⟨hcreate, Camera.offset?_eq_none hcamera⟩⟩
    rintro ⟨world, hworld, -⟩
    rw [hcreate] at hworld
    cases hworld
  · -- a camera carries the proof that its range is ordered
    have hrange : rules.scrolling.minX ≤ rules.scrolling.maxX ∧
        rules.scrolling.minY ≤ rules.scrolling.maxY := by
      rw [← Camera.rules_of_ofRules? hcamera]
      exact ⟨camera.minX_le_maxX, camera.minY_le_maxY⟩
    refine ⟨iff_of_true hrange ⟨world, hcreate, ?_⟩, iff_of_false (not_not_intro hrange) ?_⟩
    · intro commands player
      -- no command exchanges the camera
      have hlast : (world.run commands).1.camera = camera :=
        congrArg Setting.camera ((world.setting_run commands).trans hsetting)
      rw [hlast, ← Camera.rules_of_ofRules? hcamera]
      exact camera.offset?_rules player
    · rintro ⟨hworld, -⟩
      rw [hcreate] at hworld
      cases hworld

theorem exists_setUp_twoRooms :
    ∃ story, twoRooms.setUp (Character.ofName "Morticia").name = .ok story := by
  change ∃ story, twoRooms.setUp "Morticia" = .ok story
  have hcheck : (twoRooms.setUp "Morticia").isOk = true := by decide +kernel
  cases hstory : twoRooms.setUp "Morticia" with
  | error error =>
    rw [hstory] at hcheck
    cases hcheck
  | ok story => exact ⟨story, rfl⟩

/-- The rules of the campus make a world. -/
theorem runs_iff_bounds_are_numbers_campus :
    ∃ world, create (Character.ofName "Morticia") {} porch twoRooms = .ok world ∧
      ∀ commands player, ({} : Rules).scrolling.offset? player =
        some ((world.run commands).1.camera.offset player) := by
  obtain ⟨story, hstory⟩ := exists_setUp_twoRooms
  have haccepted : ({} : Rules).violation? = none := by decide
  have hnumbers : ∀ bound ∈ ({} : Rules).scrolling.bounds, bound.isNaN = false := by decide
  exact (runs_iff_bounds_are_numbers haccepted hstory porch).1.1 hnumbers

/-- Rules with a bound that is no number. -/
def boundless : Rules where
  scrolling := { minX := Float32.ofBits 0x7FC00000 }

set_option maxRecDepth 10000 in
theorem load_boundless : Rules.load "[camera]\nmin_x = nan\n" = .ok boundless := by
  have hcheck : (Rules.load "[camera]\nmin_x = nan\n").toOption = some boundless := by
    decide +kernel
  cases hload : Rules.load "[camera]\nmin_x = nan\n" with
  | error error =>
    rw [hload] at hcheck
    cases hcheck
  | ok rules =>
    rw [hload] at hcheck
    exact congrArg Except.ok (Option.some.inj hcheck)

/-- A document whose rules are accepted although no world can be made with them. -/
theorem accepted_but_no_world :
    Rules.load "[camera]\nmin_x = nan\n" = .ok boundless ∧ boundless.violation? = none ∧
      (∃ story, twoRooms.setUp (Character.ofName "Morticia").name = .ok story) ∧
      create (Character.ofName "Morticia") boundless porch twoRooms = .error .scrollRange ∧
      ∀ player, boundless.scrolling.offset? player = none := by
  obtain ⟨story, hstory⟩ := exists_setUp_twoRooms
  have hrange : ¬ (boundless.scrolling.minX ≤ boundless.scrolling.maxX ∧
      boundless.scrolling.minY ≤ boundless.scrolling.maxY) := by decide
  have hcamera := Camera.ofRules?_eq_none_iff.2 hrange
  refine ⟨load_boundless, Rules.violation?_of_load load_boundless, ⟨story, hstory⟩, ?_,
    Camera.offset?_eq_none hcamera⟩
  unfold create
  rw [hstory, hcamera]

end World

end Sidescroller
