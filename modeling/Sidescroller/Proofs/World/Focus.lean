import Sidescroller.Proofs.Binary32.Clamp
import Sidescroller.Proofs.Player.Frame
import Sidescroller.Proofs.World.Steering

/-!
# The camera follows the player

A world keeps the offset of its camera beside the body, and whoever moves the body has to bring it
up to date. All do: at any moment of a run the offset is the one that the camera has for the body.
So whatever is known of the camera is known of the offset, however the body got to where it is.

* `Focused`, `focused_run` — the offset is up to date after any commands;
* `build_run` — the size of the player never changes, so that the offset depends on the position
  alone;
* `Follows` — what the offset is on one axis, given where the middle of the view should be;
* `Camera.not_offset_x_lt`, `Camera.not_offset_y_lt` — the view does not go back while the player
  goes on;
* `camera_follows_of_run` — all of it for the runs of a world.
-/

namespace Sidescroller

open Binary32

/-! ### One axis -/

/-- **How the view follows the player** on one axis: `wanted` is where the view would have the
player in its middle, `shown` is where it is, and it may scroll from `lo` to `hi`. -/
structure Follows (lo hi wanted shown : Float32) : Prop where
  /-- Only where there is nothing to follow the view is nowhere. -/
  isNaN_iff : shown.isNaN = true ↔ wanted.isNaN = true
  /-- The view stays in its range. -/
  mem_range : shown.isNaN = false → lo ≤ shown ∧ shown ≤ hi
  /-- In the range the player is in the middle. -/
  eq_wanted : lo ≤ wanted → wanted ≤ hi → shown = wanted

theorem Follows.clamp {lo hi : Float32} (h : lo ≤ hi) (wanted : Float32) :
    Follows lo hi wanted (clamp lo hi wanted) where
  isNaN_iff := isNaN_clamp_iff h
  mem_range := by
    intro hshown
    rw [← Bool.not_eq_true, isNaN_clamp_iff h, Bool.not_eq_true] at hshown
    exact clamp_mem h hshown
  eq_wanted := clamp_of_mem

namespace Camera

variable {camera : Camera} {player player' : Rect}

/-- **The view does not go back** to the left while the player goes to the right. -/
theorem not_offset_x_lt (hwidth : player'.width = player.width) (h : player.x ≤ player'.x) :
    ¬ (camera.offset player').x < (camera.offset player).x := by
  obtain ⟨hx, hx', -⟩ := le_iff.1 h
  have hposition : ¬ player'.x < player.x := (le_iff_not_lt hx hx').1 h
  have hcenter : ¬ player'.center.x < player.center.x := by
    show ¬ player'.x + player'.width / 2 < player.x + player.width / 2
    rw [hwidth]
    exact not_add_lt_add hposition _
  exact not_clamp_lt_clamp camera.minX_le_maxX (not_sub_lt_sub hcenter _)

/-- **The view does not go back** up while the player goes down. -/
theorem not_offset_y_lt (hheight : player'.height = player.height) (h : player.y ≤ player'.y) :
    ¬ (camera.offset player').y < (camera.offset player).y := by
  obtain ⟨hy, hy', -⟩ := le_iff.1 h
  have hposition : ¬ player'.y < player.y := (le_iff_not_lt hy hy').1 h
  have hcenter : ¬ player'.center.y < player.center.y := by
    show ¬ player'.y + player'.height / 2 < player.y + player.height / 2
    rw [hheight]
    exact not_add_lt_add hposition _
  exact not_clamp_lt_clamp camera.minY_le_maxY (not_sub_lt_sub hcenter _)

end Camera

namespace World

variable {world : World}

/-! ### Up to date -/

/-- **The camera is on the player**: its offset is the one for the body as it is now. -/
def Focused (world : World) : Prop := world.cameraOffset = world.camera.offset world.body.rect

theorem focused_focus (world : World) : world.focus.Focused := rfl

theorem focused_tick (world : World) (intent : Intent) (dt : Float32) :
    (world.tick intent dt).1.Focused := focused_focus _

theorem Focused.place (h : world.Focused) (position : Vec2) : (world.place position).Focused := by
  unfold World.place
  split_ifs
  · exact h
  · exact focused_focus _

/-- **A run** leaves the camera on the player, whatever moved the body last. -/
theorem Focused.run (h : world.Focused) (commands : List Command) :
    (world.run commands).1.Focused := by
  apply run_keeps ?_ ?_ h commands
  · intro world intent dt _
    exact world.focused_tick intent dt
  · intro world position hfocused
    exact hfocused.place position

theorem focused_of_create {character : Character} {rules : Rules} {level : Level}
    {script : Story.Script} (h : create character rules level script = .ok world) :
    world.Focused := by
  obtain ⟨graph, chapters, camera, -, -, rfl⟩ := eq_of_create h
  rfl

/-! ### The body of a world -/

theorem body_depart (world : World) (departure : Story.Departure) :
    (world.depart departure).1.body = world.body := by
  unfold depart
  cases departure.transition with
  | continued node => rfl
  | ended ending => rfl

theorem body_takeNote (world : World) (report : Option Report) :
    (world.takeNote report).1.body = world.body := by
  cases report with
  | none => rfl
  | some report =>
    cases report with
    | departed departure => exact world.body_depart departure
    | ended ending => rfl

/-- **In a conversation the body stands still.** -/
theorem body_tick_of_inDialogue (h : world.inDialogue = true) (intent : Intent) (dt : Float32) :
    (world.tick intent dt).1.body = world.body := by
  rw [tick_of_inDialogue h, converse_eq]
  exact body_takeNote { world with session := (world.respond intent).1 } (world.respond intent).2

theorem body_openDialogue (world : World) : world.openDialogue.1.body = world.body := by
  rcases world.openDialogue_cases with
    ⟨trigger, h⟩ | ⟨trigger, npc, -, -, -, h⟩ | ⟨trigger, npc, -, -, -, h⟩
  · rw [h]
  · rw [h]
  · rw [h]

/-- **Otherwise it makes a step**, and nothing that happens after the step moves it. -/
theorem body_tick_of_idle (h : world.inDialogue = false) (intent : Intent) (dt : Float32) :
    (world.tick intent dt).1.body =
      (Collision.step world.level.platforms world.body intent.heading intent.jump dt).1 := by
  rw [tick_of_idle h]
  split_ifs
  · exact body_openDialogue (world.moved intent dt)
  · rfl

theorem build_tick (world : World) (intent : Intent) (dt : Float32) :
    (world.tick intent dt).1.body.build = world.body.build := by
  cases hmode : world.inDialogue with
  | true => rw [body_tick_of_inDialogue hmode]
  | false => rw [body_tick_of_idle hmode, Collision.build_step]

theorem build_place (world : World) (position : Vec2) :
    (world.place position).body.build = world.body.build := by
  unfold place
  split_ifs
  · rfl
  · rfl

/-- **The player is of one build** in a whole run. -/
theorem build_run (world : World) (commands : List Command) :
    (world.run commands).1.body.build = world.body.build := by
  apply run_keeps (P := fun last => last.body.build = world.body.build) ?_ ?_ rfl commands
  · intro last intent dt hbuild
    exact (last.build_tick intent dt).trans hbuild
  · intro last position hbuild
    exact (last.build_place position).trans hbuild

/-! ### Runs -/

/-- **The camera follows the player.** Rules whose scroll ranges are ordered make a world. After any
commands its camera has the offset for the body as it is then. On each axis the offset is no number
exactly if the middle of the player, less half of the view, is none, and otherwise it is in the
range; in the range it is that middle less half of the view. And the offset never goes back as the
player goes on: of two moments, whatever led to them, the one with the player further on does not
have the view further back. -/
theorem camera_follows_of_run {character : Character} {rules : Rules} {script : Story.Script}
    {story : Story.Graph × Story.Chapters}
    (hx : rules.scrolling.minX ≤ rules.scrolling.maxX)
    (hy : rules.scrolling.minY ≤ rules.scrolling.maxY)
    (hstory : script.setUp character.name = .ok story) (level : Level) :
    ∃ world, create character rules level script = .ok world ∧
      ∀ commands,
        let scrolling := rules.scrolling
        let last := (world.run commands).1
        let center := last.body.rect.center
        last.camera.rules = scrolling ∧
        last.cameraOffset = last.camera.offset last.body.rect ∧
        Follows scrolling.minX scrolling.maxX (center.x - scrolling.viewportWidth / 2)
          last.cameraOffset.x ∧
        Follows scrolling.minY scrolling.maxY (center.y - scrolling.viewportHeight / 2)
          last.cameraOffset.y ∧
        ∀ commands',
          let other := (world.run commands').1
          (last.body.position.x ≤ other.body.position.x →
            ¬ other.cameraOffset.x < last.cameraOffset.x) ∧
          (last.body.position.y ≤ other.body.position.y →
            ¬ other.cameraOffset.y < last.cameraOffset.y) := by
  rcases create_of_setUp hstory rules level with
    ⟨hcamera, -⟩ | ⟨camera, world, hcamera, hcreate, hsetting⟩
  · exact absurd ⟨hx, hy⟩ (Camera.ofRules?_eq_none_iff.1 hcamera)
  refine ⟨world, hcreate, ?_⟩
  intro commands scrolling last center
  have hlast : ∀ commands, (world.run commands).1.camera = camera := by
    intro commands
    exact congrArg Setting.camera ((world.setting_run commands).trans hsetting)
  have hrules : camera.rules = scrolling := Camera.rules_of_ofRules? hcamera
  have hoffset : ∀ commands, (world.run commands).1.cameraOffset =
      camera.offset (world.run commands).1.body.rect := by
    intro commands
    rw [← hlast commands]
    exact (focused_of_create hcreate).run commands
  have hsize : ∀ commands, (world.run commands).1.body.size = world.body.size := by
    intro commands
    exact congrArg Build.size (world.build_run commands)
  refine ⟨(congrArg Camera.rules (hlast commands)).trans hrules, ?_, ?_, ?_, ?_⟩
  · rw [hoffset commands, hlast commands]
  · rw [hoffset commands, ← hrules]
    exact Follows.clamp camera.minX_le_maxX _
  · rw [hoffset commands, ← hrules]
    exact Follows.clamp camera.minY_le_maxY _
  · intro commands' other
    -- both moments have the same camera and a player of the same size
    have hsame : other.body.size = last.body.size := (hsize commands').trans (hsize commands).symm
    rw [hoffset commands, hoffset commands']
    constructor
    · intro hle
      exact Camera.not_offset_x_lt (congrArg Vec2.x hsame) hle
    · intro hle
      exact Camera.not_offset_y_lt (congrArg Vec2.y hsame) hle

/-- The player is put far to the right, where the view does not follow, and then walks there. -/
theorem camera_follows_of_run_far :
    ∃ world, create (Character.ofName "Morticia") {} porch twoRooms = .ok world ∧
      let far := (world.run [.place ⟨5000, 340⟩]).1
      let walked := (world.run [.place ⟨5000, 340⟩, .tick { heading := .right } 0.01]).1
      ({} : Rules).scrolling.minX ≤ ({} : Rules).scrolling.maxX ∧
      ({} : Rules).scrolling.minY ≤ ({} : Rules).scrolling.maxY ∧
      far.cameraOffset = ⟨2000, 40⟩ ∧
      Follows (-300) 2000 (far.body.rect.center.x - 960 / 2) far.cameraOffset.x ∧
      far.body.position.x ≤ walked.body.position.x ∧
      ¬ walked.cameraOffset.x < far.cameraOffset.x := by
  have hcheck : (create (Character.ofName "Morticia") {} porch twoRooms).toOption.any
      (fun world =>
        let far := (world.run [.place ⟨5000, 340⟩]).1
        let walked := (world.run [.place ⟨5000, 340⟩, .tick { heading := .right } 0.01]).1
        far.cameraOffset = ⟨2000, 40⟩ ∧ far.body.position.x ≤ walked.body.position.x) = true := by
    decide +kernel
  obtain ⟨world, hworld, hp⟩ := exists_created hcheck
  obtain ⟨hoffset, hwalk⟩ := of_decide_eq_true hp
  obtain ⟨story, hstory⟩ := exists_setUp_twoRooms
  have hx : ({} : Rules).scrolling.minX ≤ ({} : Rules).scrolling.maxX := by decide
  have hy : ({} : Rules).scrolling.minY ≤ ({} : Rules).scrolling.maxY := by decide
  obtain ⟨world', hworld', hrun⟩ := camera_follows_of_run hx hy hstory porch
  obtain rfl := Except.ok.inj (hworld.symm.trans hworld')
  obtain ⟨-, -, hfollows, -, hlater⟩ := hrun [.place ⟨5000, 340⟩]
  obtain ⟨hforward, -⟩ := hlater [.place ⟨5000, 340⟩, .tick { heading := .right } 0.01]
  exact ⟨world, hworld, hx, hy, hoffset, hfollows, hwalk, hforward hwalk⟩

end World

end Sidescroller
