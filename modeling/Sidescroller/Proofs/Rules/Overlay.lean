import Mathlib
import Sidescroller.Proofs.Document.Partial
import Sidescroller.Rules.Loading

/-!
# Partial rules

Every field of the rules has a default, and so has every part of them. A document that names some of
the fields, in any of the parts, is an overlay on the defaults: the fields that it names are as it
gives them, all others are the defaults, and the keys that it has besides do not matter. Only the
result has to make sense, so that a document can be refused for what it gives and what it leaves out
together.

* `overlay` — rules laid over the defaults in the fields of a set; `Names` — the documents that do;
* `Movement.ofDatum?_of_gives`, `Scrolling.ofDatum?_of_gives`, `Interaction.ofDatum?_of_gives` — the
  parts, which `ofDatum?_of_names` is put together from;
* `Repeats`, `ofDatum?_of_repeats` — a default that is given all the same, in any document;
* `HalfSpawn`, `ofDatum?_of_halfSpawn` — a spawn is given whole or not at all;
* `partial_rules_overlay_defaults` — all this for documents and their texts.
-/

namespace Sidescroller

variable {surplus : Surplus} {datum datum' : Datum}

/-- What a number may be given as: itself, or a whole number that is rounded to it. -/
inductive Datum.Denotes (value : Float32) : Datum → Prop
  | float : Denotes value (.float value)
  | integer {n : Int} (h : Float32.ofInt n = value) : Denotes value (.integer n)

theorem Datum.Denotes.float? {value : Float32} (denotes : Datum.Denotes value datum) :
    datum.float? = some value := by
  cases denotes with
  | float => rfl
  | integer h => exact congrArg some h

/-! ### Points -/

namespace Vec2

variable {v : Vec2}

/-- The axes, which a point has a coordinate on. -/
inductive Axis where
  | x
  | y
  deriving DecidableEq

def Axis.name : Axis → String
  | x => "x"
  | y => "y"

def Axis.all : List Axis := [.x, .y]

def Axis.value (v : Vec2) : Axis → Float32
  | x => v.x
  | y => v.y

/-- **A table that gives a point**, with both coordinates. -/
def Given (v : Vec2) : Datum → Prop :=
  Record.Gives Axis.all Axis.name (fun _ => True) fun axis => Datum.Denotes (axis.value v)

/-- A table without one of the coordinates. -/
def Incomplete : Datum → Prop := Record.Incomplete ["x", "y"] fun _ _ => False

theorem given_toDatum (v : Vec2) : v.Given v.toDatum := by
  have hgiven : v.Given (.table
      ((Axis.all.filter fun _ => True).map fun axis => (axis.name, .float (axis.value v)))) :=
    Record.gives_filter (by decide) _ fun _ _ => .float
  exact hgiven

theorem ofDatum?_eq_some_iff :
    ofDatum? surplus datum = some v ↔
      ∃ record, Record.ofDatum? surplus ["x", "y"] datum = some record ∧
        record.need? "x" Datum.float? = some v.x ∧ record.need? "y" Datum.float? = some v.y := by
  simp only [ofDatum?, Option.pure_def, Option.bind_eq_bind, Option.bind_eq_some_iff,
    Option.some.injEq]
  constructor
  · rintro ⟨record, hrecord, _, hx, _, hy, rfl⟩
    exact ⟨record, hrecord, hx, hy⟩
  · rintro ⟨record, hrecord, hx, hy⟩
    exact ⟨record, hrecord, _, hx, _, hy, rfl⟩

theorem ofDatum?_of_given (given : v.Given datum) (surplus : Surplus) :
    ofDatum? surplus datum = some v := by
  obtain ⟨record, hrecord, hfound⟩ := Record.Gives.exists_ofDatum? given surplus
  exact ofDatum?_eq_some_iff.2 ⟨record, hrecord,
    (hfound .x (by decide)).need? trivial fun _ => Datum.Denotes.float?,
    (hfound .y (by decide)).need? trivial fun _ => Datum.Denotes.float?⟩

/-- **A coordinate has no default.** -/
theorem ofDatum?_of_incomplete (h : Incomplete datum) : ofDatum? surplus datum = none := by
  refine Option.eq_none_iff_forall_ne_some.2 fun v hv => ?_
  obtain ⟨record, hrecord, hx, hy⟩ := ofDatum?_eq_some_iff.1 hv
  rcases Record.Incomplete.get? h hrecord (List.Subset.refl _) nofun with
    ⟨name, hname, hmissing⟩ | hflawed
  · have hnone : record.need? name Datum.float? = none := Record.need?_eq_none hmissing
    rcases List.mem_pair.1 hname with rfl | rfl
    · cases hx.symm.trans hnone
    · cases hy.symm.trans hnone
  · obtain ⟨_, _, -, hfalse⟩ := hflawed
    exact hfalse

end Vec2

namespace Rules

/-! ### Fields and parts -/

/-- The fields of the rules, in all parts. -/
inductive Field where
  | width
  | height
  | spawn
  | speed
  | jumpForce
  | gravity
  | terminalVelocity
  | viewportWidth
  | viewportHeight
  | minX
  | maxX
  | minY
  | maxY
  | margin
  | cooldown
  deriving DecidableEq

def Field.name : Field → String
  | width => "width"
  | height => "height"
  | spawn => "spawn"
  | speed => "speed"
  | jumpForce => "jump_force"
  | gravity => "gravity"
  | terminalVelocity => "terminal_velocity"
  | viewportWidth => "viewport_width"
  | viewportHeight => "viewport_height"
  | minX => "min_x"
  | maxX => "max_x"
  | minY => "min_y"
  | maxY => "max_y"
  | margin => "margin"
  | cooldown => "cooldown"

/-- The value of a field, which is a number or, for the spawn, a point. -/
def Field.value (c : Rules) : Field → Float32 ⊕ Vec2
  | width => .inl c.movement.width
  | height => .inl c.movement.height
  | spawn => .inr c.movement.spawn
  | speed => .inl c.movement.speed
  | jumpForce => .inl c.movement.jumpForce
  | gravity => .inl c.movement.gravity
  | terminalVelocity => .inl c.movement.terminalVelocity
  | viewportWidth => .inl c.scrolling.viewportWidth
  | viewportHeight => .inl c.scrolling.viewportHeight
  | minX => .inl c.scrolling.minX
  | maxX => .inl c.scrolling.maxX
  | minY => .inl c.scrolling.minY
  | maxY => .inl c.scrolling.maxY
  | margin => .inl c.interaction.margin
  | cooldown => .inl c.interaction.cooldown

/-- What may be given for a field so that it has the value that it has in `c`. -/
def Field.Means (c : Rules) (field : Field) : Datum → Prop :=
  match field.value c with
  | .inl number => Datum.Denotes number
  | .inr point => point.Given

/-- The value of a field, as a datum. -/
def Field.toDatum (c : Rules) (field : Field) : Datum :=
  match field.value c with
  | .inl number => .float number
  | .inr point => point.toDatum

/-- The parts of the rules, which have tables of their own. -/
inductive Part where
  | movement
  | scrolling
  | interaction
  deriving DecidableEq

def Part.name : Part → String
  | movement => "movement"
  | scrolling => "camera"
  | interaction => "interaction"

def Part.fields : Part → List Field
  | movement => [.width, .height, .spawn, .speed, .jumpForce, .gravity, .terminalVelocity]
  | scrolling => [.viewportWidth, .viewportHeight, .minX, .maxX, .minY, .maxY]
  | interaction => [.margin, .cooldown]

def Part.all : List Part := [.movement, .scrolling, .interaction]

variable {S : Finset Field} {c : Rules} {field : Field} {part : Part}

theorem Field.means_toDatum (c : Rules) (field : Field) : field.Means c (field.toDatum c) := by
  unfold Field.Means Field.toDatum
  cases field.value c with
  | inl number => exact .float
  | inr point => exact point.given_toDatum

/-! ### Overlays -/

/-- Where a field has its value from, if those in `S` have theirs from `c`. -/
def source (S : Finset Field) (c : Rules) (field : Field) : Rules := if field ∈ S then c else {}

/-- **An overlay on the defaults**: the fields in `S` are those of `c`. -/
def overlay (S : Finset Field) (c : Rules) : Rules where
  movement := {
    width := (source S c .width).movement.width
    height := (source S c .height).movement.height
    spawn := (source S c .spawn).movement.spawn
    speed := (source S c .speed).movement.speed
    jumpForce := (source S c .jumpForce).movement.jumpForce
    gravity := (source S c .gravity).movement.gravity
    terminalVelocity := (source S c .terminalVelocity).movement.terminalVelocity }
  scrolling := {
    viewportWidth := (source S c .viewportWidth).scrolling.viewportWidth
    viewportHeight := (source S c .viewportHeight).scrolling.viewportHeight
    minX := (source S c .minX).scrolling.minX
    maxX := (source S c .maxX).scrolling.maxX
    minY := (source S c .minY).scrolling.minY
    maxY := (source S c .maxY).scrolling.maxY }
  interaction := {
    margin := (source S c .margin).interaction.margin
    cooldown := (source S c .cooldown).interaction.cooldown }

theorem overlay_default (S : Finset Field) : overlay S {} = {} := by
  simp [overlay, source]

/-- A table that gives those fields of a part that are in `S`, with the values of `c`. -/
def Part.Gives (part : Part) (S : Finset Field) (c : Rules) : Datum → Prop :=
  Record.Gives part.fields Field.name (· ∈ S) (Field.Means c)

/-- A part of which no field is named may be given as an empty table. -/
theorem Part.gives_nil (part : Part) (h : ∀ field ∈ part.fields, field ∉ S) :
    part.Gives S c (.table []) :=
  .table List.nodup_nil (fun field hfield => iff_of_false List.not_mem_nil (h field hfield)) nofun

/-- **A document that names the fields in `S`**, with the values of `c`. A part of which it names no
field may be missing. -/
def Names (S : Finset Field) (c : Rules) (datum : Datum) : Prop :=
  ∃ parts : Finset Part, (∀ part ∉ parts, ∀ field ∈ part.fields, field ∉ S) ∧
    Record.Gives Part.all Part.name (· ∈ parts) (fun part => part.Gives S c) datum

/-- **Every set of fields can be named**, with any values. -/
theorem exists_names (S : Finset Field) (c : Rules) : ∃ datum, Names S c datum := by
  have hgives (part : Part) : part.Gives S c (.table
      ((part.fields.filter (· ∈ S)).map fun field => (field.name, field.toDatum c))) :=
    Record.gives_filter (by cases part <;> decide) _ fun field _ => field.means_toDatum c
  refine ⟨_, {.movement, .scrolling, .interaction}, fun part hpart => ?_,
    Record.gives_filter (by decide) _ fun part _ => hgives part⟩
  exact absurd (by cases part <;> decide) hpart

/-- A table of a part with one more field, that repeats the default. -/
def Part.Repeats (part : Part) : Datum → Datum → Prop :=
  Record.Repeats part.fields Field.name (Field.Means {}) fun _ _ _ => False

/-- **A document with one more key that repeats a default**: a field of a part, or a part that gives
nothing but defaults. -/
def Repeats : Datum → Datum → Prop :=
  Record.Repeats Part.all Part.name (fun part datum => ∃ S, part.Gives S {} datum) Part.Repeats

/-! ### The parts -/

/-- **What is read is what is built.** The defaults that the fields of a part are read as, one by
one, are those that the part is built with. -/
theorem Movement.ofDatum?_nil : Movement.ofDatum? surplus (.table []) = some {} := rfl

theorem Scrolling.ofDatum?_nil : Scrolling.ofDatum? surplus (.table []) = some {} := rfl

theorem Interaction.ofDatum?_nil : Interaction.ofDatum? surplus (.table []) = some {} := rfl

/-- A field is read from where it has its value from. -/
theorem orElse?_of_found {α : Type} {record : Record} {read : Datum → Option α}
    (hfound : ∀ field ∈ part.fields,
      Record.Found (field ∈ S) (field.Means c) (record.get? field.name))
    (field : Field) (hfield : field ∈ part.fields) (value : Rules → α)
    (hread : ∀ datum, field.Means c datum → read datum = some (value c)) :
    record.orElse? field.name read (value {}) = some (value (source S c field)) := by
  refine (hfound field hfield).orElse? (fun hnamed datum hmeans => ?_) fun hmissing => ?_
  · rw [source, if_pos hnamed]
    exact hread datum hmeans
  · rw [source, if_neg hmissing]

/-- A number is read from where it has its value from. -/
theorem number_of_found {record : Record}
    (hfound : ∀ field ∈ part.fields,
      Record.Found (field ∈ S) (field.Means c) (record.get? field.name))
    (field : Field) (hfield : field ∈ part.fields) (value : Rules → Float32)
    (hvalue : field.Means c = Datum.Denotes (value c)) :
    record.orElse? field.name Datum.float? (value {}) = some (value (source S c field)) :=
  orElse?_of_found hfound field hfield value fun _ h => Datum.Denotes.float? (hvalue ▸ h)

/-- A number is read as before. -/
theorem number_of_repeated {record record' : Record}
    (hrepeated : ∀ field ∈ part.fields, Record.Repeated (field.Means {}) (fun _ _ => False)
      (record.get? field.name) (record'.get? field.name))
    (field : Field) (hfield : field ∈ part.fields) (value : Rules → Float32)
    (hvalue : field.Means {} = Datum.Denotes (value {})) :
    record'.orElse? field.name Datum.float? (value {}) =
      record.orElse? field.name Datum.float? (value {}) :=
  (hrepeated field hfield).orElse? (fun _ h => Datum.Denotes.float? (hvalue ▸ h)) nofun

theorem Movement.ofDatum?_eq_some_iff {movement : Movement} :
    ofDatum? surplus datum = some movement ↔
      ∃ record, Record.ofDatum? surplus (Part.movement.fields.map Field.name) datum = some record ∧
        record.orElse? "width" Datum.float? Default.bodyWidth = some movement.width ∧
        record.orElse? "height" Datum.float? Default.bodyHeight = some movement.height ∧
        record.orElse? "spawn" (Vec2.ofDatum? surplus) Default.spawn = some movement.spawn ∧
        record.orElse? "speed" Datum.float? Default.speed = some movement.speed ∧
        record.orElse? "jump_force" Datum.float? Default.jumpForce = some movement.jumpForce ∧
        record.orElse? "gravity" Datum.float? Default.gravity = some movement.gravity ∧
        record.orElse? "terminal_velocity" Datum.float? Default.terminalVelocity =
          some movement.terminalVelocity := by
  simp only [ofDatum?, Option.pure_def, Option.bind_eq_bind, Option.bind_eq_some_iff,
    Option.some.injEq]
  constructor
  · rintro ⟨record, hrecord, _, hwidth, _, hheight, _, hspawn, _, hspeed, _, hjump, _, hgravity, _,
      hterminal, rfl⟩
    exact ⟨record, hrecord, hwidth, hheight, hspawn, hspeed, hjump, hgravity, hterminal⟩
  · rintro ⟨record, hrecord, hwidth, hheight, hspawn, hspeed, hjump, hgravity, hterminal⟩
    exact ⟨record, hrecord, _, hwidth, _, hheight, _, hspawn, _, hspeed, _, hjump, _, hgravity, _,
      hterminal, rfl⟩

theorem Movement.ofDatum?_of_gives (gives : Part.movement.Gives S c datum) (surplus : Surplus) :
    ofDatum? surplus datum = some (overlay S c).movement := by
  obtain ⟨record, hrecord, hfound⟩ := Record.Gives.exists_ofDatum? gives surplus
  have number := number_of_found hfound
  have hspawn := orElse?_of_found hfound .spawn (by decide) (·.movement.spawn)
    fun _ (h : c.movement.spawn.Given _) => Vec2.ofDatum?_of_given h surplus
  exact ofDatum?_eq_some_iff.2 ⟨record, hrecord,
    number .width (by decide) (·.movement.width) rfl,
    number .height (by decide) (·.movement.height) rfl,
    hspawn,
    number .speed (by decide) (·.movement.speed) rfl,
    number .jumpForce (by decide) (·.movement.jumpForce) rfl,
    number .gravity (by decide) (·.movement.gravity) rfl,
    number .terminalVelocity (by decide) (·.movement.terminalVelocity) rfl⟩

theorem Movement.ofDatum?_of_repeats (repeats : Part.movement.Repeats datum datum') :
    ofDatum? surplus datum' = ofDatum? surplus datum := by
  refine Record.Repeats.ofDatum?_bind repeats (by decide) fun record record' hrepeated => ?_
  have number := number_of_repeated hrepeated
  have hspawn : record'.orElse? "spawn" (Vec2.ofDatum? surplus) Default.spawn =
      record.orElse? "spawn" (Vec2.ofDatum? surplus) Default.spawn :=
    (hrepeated .spawn (by decide)).orElse?
      (fun _ (h : Default.spawn.Given _) => Vec2.ofDatum?_of_given h surplus) nofun
  refine Option.bind_congr' (number .width (by decide) (·.movement.width) rfl) fun _ _ => ?_
  refine Option.bind_congr' (number .height (by decide) (·.movement.height) rfl) fun _ _ => ?_
  refine Option.bind_congr' hspawn fun _ _ => ?_
  refine Option.bind_congr' (number .speed (by decide) (·.movement.speed) rfl) fun _ _ => ?_
  refine Option.bind_congr' (number .jumpForce (by decide) (·.movement.jumpForce) rfl) fun _ _ => ?_
  refine Option.bind_congr' (number .gravity (by decide) (·.movement.gravity) rfl) fun _ _ => ?_
  exact Option.bind_congr' (number .terminalVelocity (by decide) (·.movement.terminalVelocity) rfl)
    fun _ _ => rfl

/-- A movement with a spawn that is not whole. -/
def Movement.HalfSpawn : Datum → Prop :=
  Record.HasFlaw fun name datum => name = Field.spawn.name ∧ Vec2.Incomplete datum

theorem Movement.ofDatum?_of_halfSpawn (half : Movement.HalfSpawn datum) :
    ofDatum? surplus datum = none := by
  refine Option.eq_none_iff_forall_ne_some.2 fun movement hmovement => ?_
  obtain ⟨record, hrecord, -, -, hspawn, -⟩ := ofDatum?_eq_some_iff.1 hmovement
  have hnone : record.orElse? "spawn" (Vec2.ofDatum? surplus) Default.spawn = none :=
    Record.orElse?_eq_none_of_hasFlaw half hrecord (by decide) fun _ => Vec2.ofDatum?_of_incomplete
  cases hspawn.symm.trans hnone

theorem Scrolling.ofDatum?_eq_some_iff {scrolling : Scrolling} :
    ofDatum? surplus datum = some scrolling ↔
      ∃ record, Record.ofDatum? surplus (Part.scrolling.fields.map Field.name) datum = some record ∧
        record.orElse? "viewport_width" Datum.float? Default.viewportWidth =
          some scrolling.viewportWidth ∧
        record.orElse? "viewport_height" Datum.float? Default.viewportHeight =
          some scrolling.viewportHeight ∧
        record.orElse? "min_x" Datum.float? Default.minX = some scrolling.minX ∧
        record.orElse? "max_x" Datum.float? Default.maxX = some scrolling.maxX ∧
        record.orElse? "min_y" Datum.float? Default.minY = some scrolling.minY ∧
        record.orElse? "max_y" Datum.float? Default.maxY = some scrolling.maxY := by
  simp only [ofDatum?, Option.pure_def, Option.bind_eq_bind, Option.bind_eq_some_iff,
    Option.some.injEq]
  constructor
  · rintro ⟨record, hrecord, _, hwidth, _, hheight, _, hminX, _, hmaxX, _, hminY, _, hmaxY, rfl⟩
    exact ⟨record, hrecord, hwidth, hheight, hminX, hmaxX, hminY, hmaxY⟩
  · rintro ⟨record, hrecord, hwidth, hheight, hminX, hmaxX, hminY, hmaxY⟩
    exact ⟨record, hrecord, _, hwidth, _, hheight, _, hminX, _, hmaxX, _, hminY, _, hmaxY, rfl⟩

theorem Scrolling.ofDatum?_of_gives (gives : Part.scrolling.Gives S c datum) (surplus : Surplus) :
    ofDatum? surplus datum = some (overlay S c).scrolling := by
  obtain ⟨record, hrecord, hfound⟩ := Record.Gives.exists_ofDatum? gives surplus
  have number := number_of_found hfound
  exact ofDatum?_eq_some_iff.2 ⟨record, hrecord,
    number .viewportWidth (by decide) (·.scrolling.viewportWidth) rfl,
    number .viewportHeight (by decide) (·.scrolling.viewportHeight) rfl,
    number .minX (by decide) (·.scrolling.minX) rfl,
    number .maxX (by decide) (·.scrolling.maxX) rfl,
    number .minY (by decide) (·.scrolling.minY) rfl,
    number .maxY (by decide) (·.scrolling.maxY) rfl⟩

theorem Scrolling.ofDatum?_of_repeats (repeats : Part.scrolling.Repeats datum datum') :
    ofDatum? surplus datum' = ofDatum? surplus datum := by
  refine Record.Repeats.ofDatum?_bind repeats (by decide) fun record record' hrepeated => ?_
  have number := number_of_repeated hrepeated
  refine Option.bind_congr' (number .viewportWidth (by decide) (·.scrolling.viewportWidth) rfl)
    fun _ _ => ?_
  refine Option.bind_congr' (number .viewportHeight (by decide) (·.scrolling.viewportHeight) rfl)
    fun _ _ => ?_
  refine Option.bind_congr' (number .minX (by decide) (·.scrolling.minX) rfl) fun _ _ => ?_
  refine Option.bind_congr' (number .maxX (by decide) (·.scrolling.maxX) rfl) fun _ _ => ?_
  refine Option.bind_congr' (number .minY (by decide) (·.scrolling.minY) rfl) fun _ _ => ?_
  exact Option.bind_congr' (number .maxY (by decide) (·.scrolling.maxY) rfl) fun _ _ => rfl

theorem Interaction.ofDatum?_eq_some_iff {interaction : Interaction} :
    ofDatum? surplus datum = some interaction ↔
      ∃ record,
        Record.ofDatum? surplus (Part.interaction.fields.map Field.name) datum = some record ∧
        record.orElse? "margin" Datum.float? Default.margin = some interaction.margin ∧
        record.orElse? "cooldown" Datum.float? Default.cooldown = some interaction.cooldown := by
  simp only [ofDatum?, Option.pure_def, Option.bind_eq_bind, Option.bind_eq_some_iff,
    Option.some.injEq]
  constructor
  · rintro ⟨record, hrecord, _, hmargin, _, hcooldown, rfl⟩
    exact ⟨record, hrecord, hmargin, hcooldown⟩
  · rintro ⟨record, hrecord, hmargin, hcooldown⟩
    exact ⟨record, hrecord, _, hmargin, _, hcooldown, rfl⟩

theorem Interaction.ofDatum?_of_gives (gives : Part.interaction.Gives S c datum)
    (surplus : Surplus) : ofDatum? surplus datum = some (overlay S c).interaction := by
  obtain ⟨record, hrecord, hfound⟩ := Record.Gives.exists_ofDatum? gives surplus
  have number := number_of_found hfound
  exact ofDatum?_eq_some_iff.2 ⟨record, hrecord,
    number .margin (by decide) (·.interaction.margin) rfl,
    number .cooldown (by decide) (·.interaction.cooldown) rfl⟩

theorem Interaction.ofDatum?_of_repeats (repeats : Part.interaction.Repeats datum datum') :
    ofDatum? surplus datum' = ofDatum? surplus datum := by
  refine Record.Repeats.ofDatum?_bind repeats (by decide) fun record record' hrepeated => ?_
  have number := number_of_repeated hrepeated
  refine Option.bind_congr' (number .margin (by decide) (·.interaction.margin) rfl) fun _ _ => ?_
  exact Option.bind_congr' (number .cooldown (by decide) (·.interaction.cooldown) rfl)
    fun _ _ => rfl

/-! ### Documents -/

theorem ofDatum?_eq_some_iff {rules : Rules} :
    ofDatum? surplus datum = some rules ↔
      ∃ record, Record.ofDatum? surplus (Part.all.map Part.name) datum = some record ∧
        record.orElse? "movement" (Movement.ofDatum? surplus) {} = some rules.movement ∧
        record.orElse? "camera" (Scrolling.ofDatum? surplus) {} = some rules.scrolling ∧
        record.orElse? "interaction" (Interaction.ofDatum? surplus) {} =
          some rules.interaction := by
  simp only [ofDatum?, Option.pure_def, Option.bind_eq_bind, Option.bind_eq_some_iff,
    Option.some.injEq]
  constructor
  · rintro ⟨record, hrecord, _, hmovement, _, hscrolling, _, hinteraction, rfl⟩
    exact ⟨record, hrecord, hmovement, hscrolling, hinteraction⟩
  · rintro ⟨record, hrecord, hmovement, hscrolling, hinteraction⟩
    exact ⟨record, hrecord, _, hmovement, _, hscrolling, _, hinteraction, rfl⟩

/-- **A document stands for the overlay** of what it names. -/
theorem ofDatum?_of_names (names : Names S c datum) :
    ofDatum? surplus datum = some (overlay S c) := by
  obtain ⟨parts, habsent, gives⟩ := names
  obtain ⟨record, hrecord, hfound⟩ := gives.exists_ofDatum? surplus
  -- a part that is not there is built, which gives the same as reading an empty table
  have hnil (part : Part) (h : part ∉ parts) : part.Gives S c (.table []) :=
    part.gives_nil (habsent part h)
  refine ofDatum?_eq_some_iff.2 ⟨record, hrecord, ?_, ?_, ?_⟩
  · refine (hfound .movement (by decide)).orElse?
      (fun _ _ gives => Movement.ofDatum?_of_gives gives surplus) fun h => Option.some.inj ?_
    rw [← Movement.ofDatum?_nil]
    exact Movement.ofDatum?_of_gives (hnil _ h) surplus
  · refine (hfound .scrolling (by decide)).orElse?
      (fun _ _ gives => Scrolling.ofDatum?_of_gives gives surplus) fun h => Option.some.inj ?_
    rw [← Scrolling.ofDatum?_nil]
    exact Scrolling.ofDatum?_of_gives (hnil _ h) surplus
  · refine (hfound .interaction (by decide)).orElse?
      (fun _ _ gives => Interaction.ofDatum?_of_gives gives surplus) fun h => Option.some.inj ?_
    rw [← Interaction.ofDatum?_nil]
    exact Interaction.ofDatum?_of_gives (hnil _ h) surplus

/-- **A repeated default is not noticed**, whatever else the document says. -/
theorem ofDatum?_of_repeats (repeats : Repeats datum datum') :
    ofDatum? surplus datum' = ofDatum? surplus datum := by
  refine Record.Repeats.ofDatum?_bind repeats (by decide) fun record record' hrepeated => ?_
  -- each part is read as before, be the repeated default in it or all there is of it
  have hmovement : record'.orElse? "movement" (Movement.ofDatum? surplus) {} =
      record.orElse? "movement" (Movement.ofDatum? surplus) {} :=
    (hrepeated .movement (by decide)).orElse?
      (fun _ ⟨_, gives⟩ => by rw [Movement.ofDatum?_of_gives gives, overlay_default])
      fun _ _ => Movement.ofDatum?_of_repeats
  have hscrolling : record'.orElse? "camera" (Scrolling.ofDatum? surplus) {} =
      record.orElse? "camera" (Scrolling.ofDatum? surplus) {} :=
    (hrepeated .scrolling (by decide)).orElse?
      (fun _ ⟨_, gives⟩ => by rw [Scrolling.ofDatum?_of_gives gives, overlay_default])
      fun _ _ => Scrolling.ofDatum?_of_repeats
  have hinteraction : record'.orElse? "interaction" (Interaction.ofDatum? surplus) {} =
      record.orElse? "interaction" (Interaction.ofDatum? surplus) {} :=
    (hrepeated .interaction (by decide)).orElse?
      (fun _ ⟨_, gives⟩ => by rw [Interaction.ofDatum?_of_gives gives, overlay_default])
      fun _ _ => Interaction.ofDatum?_of_repeats
  refine Option.bind_congr' hmovement fun _ _ => ?_
  refine Option.bind_congr' hscrolling fun _ _ => ?_
  exact Option.bind_congr' hinteraction fun _ _ => rfl

/-- **A document with a spawn that is not whole.** -/
def HalfSpawn : Datum → Prop :=
  Record.HasFlaw fun name datum => name = Part.movement.name ∧ Movement.HalfSpawn datum

theorem ofDatum?_of_halfSpawn (half : HalfSpawn datum) : ofDatum? surplus datum = none := by
  refine Option.eq_none_iff_forall_ne_some.2 fun rules hrules => ?_
  obtain ⟨record, hrecord, hmovement, -⟩ := ofDatum?_eq_some_iff.1 hrules
  have hnone : record.orElse? "movement" (Movement.ofDatum? surplus) {} = none :=
    Record.orElse?_eq_none_of_hasFlaw half hrecord (by decide)
      fun _ => Movement.ofDatum?_of_halfSpawn
  cases hmovement.symm.trans hnone

/-! ### Texts -/

theorem load_eq_accept {text : String} (h : Toml.read? text = some datum) :
    load text = accept datum := by
  rw [load, h]

theorem accept_eq_ok_iff {rules : Rules} (h : ofDatum? .skipped datum = some rules) :
    accept datum = .ok rules ↔ rules.violation? = none := by
  unfold accept
  rw [h]
  cases hviolation : rules.violation? <;> simp [hviolation]

theorem accept_eq_invalid_iff {rules : Rules} {violation : Violation}
    (h : ofDatum? .skipped datum = some rules) :
    accept datum = .error (.invalid violation) ↔ rules.violation? = some violation := by
  unfold accept
  rw [h]
  cases hviolation : rules.violation? <;> simp [hviolation]

/-- **A partial document is an overlay on the defaults.** For every set of fields and all values
there are documents that name these fields with these values, and each of them is read as the
overlay. It is loaded exactly if the overlay makes sense, and otherwise refused for the first thing
that is wrong with the overlay. One more key that repeats a default makes no difference to any
document. A spawn that is not whole is refused. -/
theorem partial_rules_overlay_defaults :
    (∀ S c, (∃ datum, Names S c datum) ∧ ∀ datum, Names S c datum →
      ofDatum? .skipped datum = some (overlay S c) ∧
      ∀ text, Toml.read? text = some datum →
        (load text = .ok (overlay S c) ↔ (overlay S c).violation? = none) ∧
        ∀ violation, load text = .error (.invalid violation) ↔
          (overlay S c).violation? = some violation) ∧
    (∀ datum datum', Repeats datum datum' →
      ofDatum? .skipped datum' = ofDatum? .skipped datum ∧
      ∀ text text', Toml.read? text = some datum → Toml.read? text' = some datum' →
        load text' = load text) ∧
    ∀ datum, HalfSpawn datum → ofDatum? .skipped datum = none ∧
      ∀ text, Toml.read? text = some datum → load text = .error .unreadable := by
  refine ⟨fun S c => ⟨exists_names S c, fun datum hnames => ?_⟩, fun datum datum' hrepeats => ?_,
    fun datum hhalf => ?_⟩
  · have hread : ofDatum? .skipped datum = some (overlay S c) := ofDatum?_of_names hnames
    refine ⟨hread, fun text htext => ?_⟩
    rw [load_eq_accept htext]
    exact ⟨accept_eq_ok_iff hread, fun violation => accept_eq_invalid_iff hread⟩
  · have hread : ofDatum? .skipped datum' = ofDatum? .skipped datum := ofDatum?_of_repeats hrepeats
    refine ⟨hread, fun text text' htext htext' => ?_⟩
    rw [load_eq_accept htext, load_eq_accept htext', accept, accept, hread]
  · have hread : ofDatum? .skipped datum = none := ofDatum?_of_halfSpawn hhalf
    refine ⟨hread, fun text htext => ?_⟩
    rw [load_eq_accept htext, accept, hread]

/-- Rules whose scroll range ends beyond where that of the defaults does. -/
def wide : Rules where
  movement := { speed := 300, gravity := 5 }
  scrolling := { minX := 3000, maxX := 5000 }

/-- A document that names where the range begins, but not where it ends. -/
def wideText : String := "[movement]\nspeed = 300\nmood = \"good\"\n[camera]\nmin_x = 3000\n"

def wideDatum : Datum :=
  .table [("movement", .table [("speed", .integer 300), ("mood", .text "good")]),
    ("camera", .table [("min_x", .integer 3000)])]

/-- The same document, with the default for where the range ends. -/
def wideText' : String := wideText ++ "max_x = 2000\n"

def wideDatum' : Datum :=
  .table [("movement", .table [("speed", .integer 300), ("mood", .text "good")]),
    ("camera", .table [("min_x", .integer 3000), ("max_x", .integer 2000)])]

/-- A document with half of a spawn. -/
def halfText : String := "[movement.spawn]\nx = 1\n"

def halfDatum : Datum :=
  .table [("movement", .table [("spawn", .table [("x", .integer 1)])])]

theorem names_wide : Names {.speed, .minX} wide wideDatum := by
  have hmovement : Part.movement.Gives {.speed, .minX} wide
      (.table [("speed", .integer 300), ("mood", .text "good")]) := by
    refine .table (by decide) (by decide) fun field _ datum hmem => ?_
    cases field <;> simp [Field.name] at hmem
    exact hmem ▸ .integer (by decide)
  have hscrolling : Part.scrolling.Gives {.speed, .minX} wide
      (.table [("min_x", .integer 3000)]) := by
    refine .table (by decide) (by decide) fun field _ datum hmem => ?_
    cases field <;> simp [Field.name] at hmem
    exact hmem ▸ .integer (by decide)
  refine ⟨{.movement, .scrolling}, ?_, .table (by decide) (by decide) fun part _ datum hmem => ?_⟩
  · rintro (_ | _ | _) <;> decide
  · cases part <;> simp [Part.name] at hmem
    · exact hmem ▸ hmovement
    · exact hmem ▸ hscrolling

theorem repeats_wide : Repeats wideDatum wideDatum' := by
  have hmeans : Field.maxX.Means {} (.integer 2000) := .integer (by decide)
  have hscrolling : Part.scrolling.Repeats (.table [("min_x", .integer 3000)])
      (.table [("min_x", .integer 3000), ("max_x", .integer 2000)]) := by
    unfold Part.Repeats
    exact .add [("min_x", .integer 3000)] [] (by decide) (by decide) hmeans
  unfold Repeats
  exact .within [("movement", _)] [] (by decide) hscrolling

theorem halfSpawn_halfDatum : HalfSpawn halfDatum := by
  have hlacks : Record.Lacks "y" (.table [("x", .integer 1)]) := by simp [Record.Lacks]
  exact ⟨_, _, .head _, rfl, _, _, .head _, rfl, .inl ⟨"y", by decide, hlacks⟩⟩

set_option maxRecDepth 10000 in
theorem read?_wideText : Toml.read? wideText = some wideDatum := by
  cbv

set_option maxRecDepth 10000 in
theorem read?_wideText' : Toml.read? wideText' = some wideDatum' := by
  cbv

theorem read?_halfText : Toml.read? halfText = some halfDatum := by
  cbv

/-- An empty document stands for the defaults. A range that begins beyond the end of the default
range is refused, also if that end is repeated. -/
theorem partial_rules_overlay_defaults_wide :
    load "" = .ok {} ∧
    (Names {.speed, .minX} wide wideDatum ∧ load wideText = .error (.invalid .scrollRange)) ∧
    (Repeats wideDatum wideDatum' ∧ load wideText' = load wideText) ∧
    HalfSpawn halfDatum ∧ load halfText = .error .unreadable := by
  obtain ⟨hnames, hrepeats, hhalf⟩ := partial_rules_overlay_defaults
  have hempty : Names ∅ wide (.table []) :=
    ⟨∅, fun _ _ _ _ => Finset.notMem_empty _, .table (by decide) (by decide) fun _ _ _ => nofun⟩
  refine ⟨?_, ⟨names_wide, ?_⟩, ⟨repeats_wide, ?_⟩, halfSpawn_halfDatum, ?_⟩
  · exact (((hnames _ _).2 _ hempty).2 "" rfl).1.2 (by decide)
  · exact (((hnames _ _).2 _ names_wide).2 _ read?_wideText).2 _ |>.2 (by decide)
  · exact (hrepeats _ _ repeats_wide).2 _ _ read?_wideText read?_wideText'
  · exact (hhalf _ halfSpawn_halfDatum).2 _ read?_halfText

end Rules

end Sidescroller
