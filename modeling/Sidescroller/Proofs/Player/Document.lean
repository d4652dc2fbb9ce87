import Sidescroller.Player.Document
import Sidescroller.Proofs.Document.Record

/-!
# Reading a player's input back

What was pressed during a tick can be read from its datum, whatever is done to the datum that does
not matter to a record.
-/

namespace Sidescroller

variable {surplus : Surplus} {datum datum' : Datum} {intent : Intent}

theorem Heading.ofDatum?_name (heading : Heading) :
    ofDatum? (.text heading.name) = some heading := by
  cases heading <;> rfl

theorem Datum.byte?_integer (key : UInt8) : (integer key.toNat).byte? = some key := by
  have hlt : (key.toNat : Int) < UInt8.size := Int.ofNat_lt.2 key.toNat_lt_size
  rw [byte?, natBelow?, if_pos ⟨Int.natCast_nonneg _, hlt⟩, Option.map_some, Int.toNat_natCast,
    UInt8.ofNat_toNat]

namespace Intent

/-- The fields of what was pressed. -/
def fieldNames : List String :=
  ["move_axis", "jump_pressed", "interact_pressed", "menu_up", "menu_down", "numeric_choice",
    "confirm_pressed", "cancel_pressed"]

/-- An edit of the datum of what was pressed, of which no more than the number may be left out. -/
def Edit : Datum → Datum → Prop :=
  Record.Edit fieldNames [("numeric_choice", .null)] fun _ _ _ => False

theorem ofDatum?_eq_some_iff :
    ofDatum? surplus datum = some intent ↔
      ∃ record, Record.ofDatum? surplus fieldNames datum = some record ∧
        record.need? "move_axis" Heading.ofDatum? = some intent.heading ∧
        record.need? "jump_pressed" Datum.boolean? = some intent.jump ∧
        record.need? "interact_pressed" Datum.boolean? = some intent.interact ∧
        record.need? "menu_up" Datum.boolean? = some intent.menuUp ∧
        record.need? "menu_down" Datum.boolean? = some intent.menuDown ∧
        record.orElse? "numeric_choice" (Datum.optional? Datum.byte?) none = some intent.numeric ∧
        record.need? "confirm_pressed" Datum.boolean? = some intent.confirm ∧
        record.need? "cancel_pressed" Datum.boolean? = some intent.cancel := by
  simp only [ofDatum?, Option.pure_def, Option.bind_eq_bind, Option.bind_eq_some_iff,
    Option.some.injEq]
  constructor
  · rintro ⟨record, hrecord, _, hheading, _, hjump, _, hinteract, _, hup, _, hdown, _, hnumeric, _,
      hconfirm, _, hcancel, rfl⟩
    exact ⟨record, hrecord, hheading, hjump, hinteract, hup, hdown, hnumeric, hconfirm, hcancel⟩
  · rintro ⟨record, hrecord, hheading, hjump, hinteract, hup, hdown, hnumeric, hconfirm, hcancel⟩
    exact ⟨record, hrecord, _, hheading, _, hjump, _, hinteract, _, hup, _, hdown, _, hnumeric, _,
      hconfirm, _, hcancel, rfl⟩

/-- What was pressed is read as it was written. -/
theorem ofDatum?_toDatum (intent : Intent) : ofDatum? surplus intent.toDatum = some intent := by
  refine ofDatum?_eq_some_iff.2 ⟨_, Record.ofDatum?_table (by decide) rfl,
    Heading.ofDatum?_name _, rfl, rfl, rfl, rfl, ?_, rfl, rfl⟩
  obtain ⟨heading, jump, interact, menuUp, menuDown, numeric, confirm, cancel⟩ := intent
  cases numeric with
  | none => rfl
  | some key =>
    change (Datum.integer key.toNat).optional? Datum.byte? = some (some key)
    rw [Datum.optional?, Datum.byte?_integer, Option.map_some]
    nofun

/-- An edit is not noticed. -/
theorem keeps_edit : Datum.Keeps (ofDatum? surplus) Edit := by
  intro datum datum' intent edit h
  obtain ⟨record, hrecord, hheading, hjump, hinteract, hup, hdown, hnumeric, hconfirm, hcancel⟩ :=
    ofDatum?_eq_some_iff.1 h
  obtain ⟨record', hrecord', hkept⟩ := Record.Edit.exists_ofDatum? edit hrecord
  have need {α : Type} {read : Datum → Option α} {value : α} (name : String)
      (hname : name ∈ fieldNames ∧ name ≠ "numeric_choice") :
      record.need? name read = some value → record'.need? name read = some value :=
    Record.need?_of_kept (hkept name hname.1) (by simpa using hname.2) nofun
  refine ofDatum?_eq_some_iff.2 ⟨record', hrecord', need _ (by decide) hheading,
    need _ (by decide) hjump, need _ (by decide) hinteract, need _ (by decide) hup,
    need _ (by decide) hdown, ?_, need _ (by decide) hconfirm, need _ (by decide) hcancel⟩
  refine Record.orElse?_of_kept (hkept _ (by decide)) ?_ nofun hnumeric
  simp [Datum.optional?]

/-- **What was pressed is read as it was**, whatever edits are made to what was written. -/
theorem ofDatum?_of_edits (edits : Relation.ReflTransGen Edit intent.toDatum datum) :
    ofDatum? surplus datum = some intent :=
  keeps_edit.reflTransGen _ _ _ edits intent.ofDatum?_toDatum

end Intent

end Sidescroller
