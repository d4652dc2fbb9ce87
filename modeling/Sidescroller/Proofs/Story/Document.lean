import Sidescroller.Proofs.Player.Document
import Sidescroller.Story.Document

/-!
# Reading a story back

Nodes and reasons can be read from what was written of them, also after edits that do not matter:
keys in another order, keys that are not fields, and nothing where there was nothing to say. What
has to be said is never made up for. A node has choices in one of its fields, so an edit or a loss
of a node may be one of a choice.

* `Node.keeps_edit`, `Node.ofDatum?_of_edits` — edits are not noticed;
* `Node.Incomplete.edit`, `Node.ofDatum?_of_loss` — losses always are;
* `read_back_of_edits` — these, and what is said of the end of a conversation and of a tick.
-/

namespace Sidescroller.Story

open Relation (ReflTransGen)

variable {surplus : Surplus} {datum datum' lossy : Datum}

/-! ### Choices -/

namespace Choice

variable {choice : Choice}

/-- The fields of a choice. -/
def fieldNames : List String := ["text", "next", "consequence"]

/-- **An edit of a choice**: where it leads to and what it gives may be left out if there is nothing
to say. -/
def Edit : Datum → Datum → Prop :=
  Record.Edit fieldNames [("next", .null), ("consequence", .null)] fun _ _ _ => False

/-- **The loss of the text** of a choice. -/
def Loss : Datum → Datum → Prop := Record.Loss ["text"] fun _ _ _ => False

theorem ofDatum?_eq_some_iff :
    ofDatum? surplus datum = some choice ↔
      ∃ record, Record.ofDatum? surplus fieldNames datum = some record ∧
        record.need? "text" Datum.text? = some choice.text ∧
        record.textOrNone? "next" = some choice.next ∧
        record.textOrNone? "consequence" = some choice.consequence := by
  simp only [ofDatum?, Option.pure_def, Option.bind_eq_bind, Option.bind_eq_some_iff,
    Option.some.injEq]
  constructor
  · rintro ⟨record, hrecord, _, htext, _, hnext, _, hconsequence, rfl⟩
    exact ⟨record, hrecord, htext, hnext, hconsequence⟩
  · rintro ⟨record, hrecord, htext, hnext, hconsequence⟩
    exact ⟨record, hrecord, _, htext, _, hnext, _, hconsequence, rfl⟩

/-- A choice is read as it was written. -/
theorem ofDatum?_toDatum (choice : Choice) : ofDatum? surplus choice.toDatum = some choice :=
  ofDatum?_eq_some_iff.2 ⟨_, Record.ofDatum?_table (by decide) rfl, rfl,
    Datum.optional?_ofOption _, Datum.optional?_ofOption _⟩

/-- An edit of a choice is not noticed. -/
theorem keeps_edit : Datum.Keeps (ofDatum? surplus) Edit := by
  intro datum datum' choice edit h
  obtain ⟨record, hrecord, htext, hnext, hconsequence⟩ := ofDatum?_eq_some_iff.1 h
  obtain ⟨record', hrecord', hkept⟩ := Record.Edit.exists_ofDatum? edit hrecord
  refine ofDatum?_eq_some_iff.2 ⟨record', hrecord', ?_, ?_, ?_⟩
  · exact Record.need?_of_kept (hkept _ (by decide)) (by simp) nofun htext
  · exact Record.orElse?_of_kept (hkept _ (by decide)) (by simp [Datum.optional?]) nofun hnext
  · exact Record.orElse?_of_kept (hkept _ (by decide)) (by simp [Datum.optional?]) nofun
      hconsequence

/-- A choice without a text. -/
def Incomplete : Datum → Prop := Record.Incomplete ["text"] fun _ _ => False

theorem incomplete_of_loss (loss : Loss datum datum') : Incomplete datum' :=
  Record.Loss.incomplete loss nofun

theorem Incomplete.edit (h : Incomplete datum) (edit : Edit datum datum') : Incomplete datum' :=
  Record.Incomplete.edit h edit (by decide) nofun nofun

/-- **A choice without a text is not read.** -/
theorem ofDatum?_of_incomplete (h : Incomplete datum) : ofDatum? surplus datum = none := by
  refine Option.eq_none_iff_forall_ne_some.2 fun choice hchoice => ?_
  obtain ⟨record, hrecord, htext, -⟩ := ofDatum?_eq_some_iff.1 hchoice
  rcases Record.Incomplete.get? h hrecord (by decide) nofun with ⟨name, hname, hmissing⟩ | hflawed
  · cases List.mem_singleton.1 hname
    cases htext.symm.trans (Record.need?_eq_none hmissing)
  · obtain ⟨_, _, -, hfalse⟩ := hflawed
    exact hfalse

end Choice

/-! ### Nodes -/

namespace Node

variable {node : Node}

/-- The fields of a node. -/
def fieldNames : List String := ["id", "speaker", "text", "choices", "grants_item", "emotion"]

/-- What a node need not say. -/
def spareFields : List (String × Datum) :=
  [("choices", .list []), ("grants_item", .null), ("emotion", .null)]

/-- A change of one of the choices of a node. -/
def InChoices (change : Datum → Datum → Prop) (name : String) (datum datum' : Datum) : Prop :=
  name = "choices" ∧ Datum.ItemChange change datum datum'

/-- **An edit of a node**, or of one of its choices. -/
def Edit : Datum → Datum → Prop := Record.Edit fieldNames spareFields (InChoices Choice.Edit)

/-- What every node has to say. -/
def required : List String := ["id", "speaker", "text"]

theorem required_subset : required ⊆ fieldNames := by decide

theorem not_mem_spareFields_of_required {name : String} (hname : name ∈ required) :
    (name, datum) ∉ spareFields := by
  have hapart : ∀ name ∈ required, name ∉ spareFields.map Prod.fst := by decide
  exact fun hspare => hapart name hname (List.mem_map_of_mem hspare)

/-- **A loss of a node**: something that it has to say is left out, or the text of a choice is. -/
def Loss : Datum → Datum → Prop := Record.Loss required (InChoices Choice.Loss)

theorem ofDatum?_eq_some_iff :
    ofDatum? surplus datum = some node ↔
      ∃ record, Record.ofDatum? surplus fieldNames datum = some record ∧
        record.need? "id" Datum.text? = some node.id ∧
        record.need? "speaker" Datum.text? = some node.speaker ∧
        record.need? "text" Datum.text? = some node.text ∧
        record.orElse? "choices" (Datum.list? (Choice.ofDatum? surplus)) [] = some node.choices ∧
        record.textOrNone? "grants_item" = some node.grantsItem ∧
        record.textOrNone? "emotion" = some node.emotion := by
  simp only [ofDatum?, Option.pure_def, Option.bind_eq_bind, Option.bind_eq_some_iff,
    Option.some.injEq]
  constructor
  · rintro ⟨record, hrecord, _, hid, _, hspeaker, _, htext, _, hchoices, _, hitem, _, hemotion, rfl⟩
    exact ⟨record, hrecord, hid, hspeaker, htext, hchoices, hitem, hemotion⟩
  · rintro ⟨record, hrecord, hid, hspeaker, htext, hchoices, hitem, hemotion⟩
    exact ⟨record, hrecord, _, hid, _, hspeaker, _, htext, _, hchoices, _, hitem, _, hemotion, rfl⟩

theorem list?_toDatum (choices : List Choice) :
    (Datum.list (choices.map Choice.toDatum)).list? (Choice.ofDatum? surplus) = some choices := by
  induction choices with
  | nil => rfl
  | cons choice choices ih =>
    simp only [Datum.list?] at ih
    simp [Datum.list?, Choice.ofDatum?_toDatum, ih]

/-- A node is read as it was written. -/
theorem ofDatum?_toDatum (node : Node) : ofDatum? surplus node.toDatum = some node :=
  ofDatum?_eq_some_iff.2 ⟨_, Record.ofDatum?_table (by decide) rfl, rfl, rfl, rfl,
    list?_toDatum _, Datum.optional?_ofOption _, Datum.optional?_ofOption _⟩

theorem keeps_inChoices_of_ne {α : Type} {read : Datum → Option α}
    {change : Datum → Datum → Prop} {name : String} (hne : name ≠ "choices") :
    Datum.Keeps read (InChoices change name) :=
  fun _ _ _ hchange => absurd hchange.1 hne

/-- **An edit of a node is not noticed**, be it of the node or of a choice. -/
theorem keeps_edit : Datum.Keeps (ofDatum? surplus) Edit := by
  intro datum datum' node edit h
  obtain ⟨record, hrecord, hid, hspeaker, htext, hchoices, hitem, hemotion⟩ :=
    ofDatum?_eq_some_iff.1 h
  obtain ⟨record', hrecord', hkept⟩ := Record.Edit.exists_ofDatum? edit hrecord
  -- what is required is never spare, and the choices are elsewhere
  have need (name : String) (hname : name ∈ required) {value : String} :
      record.need? name Datum.text? = some value → record'.need? name Datum.text? = some value :=
    Record.need?_of_kept (hkept name (required_subset hname))
      (fun _ => not_mem_spareFields_of_required hname)
      (keeps_inChoices_of_ne (ne_of_mem_of_not_mem hname (by decide)))
  refine ofDatum?_eq_some_iff.2 ⟨record', hrecord', need _ (by decide) hid,
    need _ (by decide) hspeaker, need _ (by decide) htext, ?_, ?_, ?_⟩
  · refine Record.orElse?_of_kept (hkept _ (by decide)) (by simp [spareFields, Datum.list?]) ?_
      hchoices
    exact fun _ _ _ hchange => Choice.keeps_edit.list? _ _ _ hchange.2
  · exact Record.orElse?_of_kept (hkept _ (by decide)) (by simp [spareFields, Datum.optional?])
      (keeps_inChoices_of_ne (by decide)) hitem
  · exact Record.orElse?_of_kept (hkept _ (by decide)) (by simp [spareFields, Datum.optional?])
      (keeps_inChoices_of_ne (by decide)) hemotion

/-- A node without something that it has to say, or with a choice that does not say it. -/
def Incomplete : Datum → Prop :=
  Record.Incomplete required fun name datum => name = "choices" ∧ datum.HasItem Choice.Incomplete

theorem incomplete_of_loss (loss : Loss datum datum') : Incomplete datum' :=
  Record.Loss.incomplete loss fun _ _ _ hloss =>
    ⟨hloss.1, hloss.2.hasItem_of_forall fun _ _ => Choice.incomplete_of_loss⟩

theorem Incomplete.edit (h : Incomplete datum) (edit : Edit datum datum') : Incomplete datum' := by
  refine Record.Incomplete.edit h edit required_subset ?_ ?_
  · -- a list that may be left out has no choices
    rintro name datum hspare ⟨rfl, hitem⟩
    obtain rfl : datum = .list [] := by simpa [spareFields] using hspare
    obtain ⟨_, hmem, -⟩ := hitem
    cases hmem
  · rintro name datum datum' ⟨rfl, hchange⟩ ⟨-, hitem⟩
    exact ⟨rfl, hchange.hasItem (fun _ _ hedit hchoice => hchoice.edit hedit) hitem⟩

/-- **An incomplete node is not read.** -/
theorem ofDatum?_of_incomplete (h : Incomplete datum) : ofDatum? surplus datum = none := by
  refine Option.eq_none_iff_forall_ne_some.2 fun node hnode => ?_
  obtain ⟨record, hrecord, hid, hspeaker, htext, hchoices, -⟩ := ofDatum?_eq_some_iff.1 hnode
  have hchoice : ∀ name (datum : Datum),
      name = "choices" ∧ datum.HasItem Choice.Incomplete → name ∈ fieldNames := by
    rintro _ _ ⟨rfl, -⟩
    decide
  rcases Record.Incomplete.get? h hrecord required_subset hchoice with
    ⟨name, hname, hmissing⟩ | ⟨name, choices, hgiven, rfl, hitem⟩
  · have hneed : record.need? name Datum.text? = none := Record.need?_eq_none hmissing
    simp only [required, List.mem_cons, List.not_mem_nil, or_false] at hname
    rcases hname with rfl | rfl | rfl
    · cases hid.symm.trans hneed
    · cases hspeaker.symm.trans hneed
    · cases htext.symm.trans hneed
  · have hnone : choices.list? (Choice.ofDatum? surplus) = none :=
      hitem.list?_eq_none fun _ => Choice.ofDatum?_of_incomplete
    rw [Record.orElse?, hgiven] at hchoices
    cases hchoices.symm.trans hnone

/-- **A node is read as it was**, whatever edits are made to what was written. -/
theorem ofDatum?_of_edits (edits : ReflTransGen Edit node.toDatum datum) :
    ofDatum? surplus datum = some node :=
  keeps_edit.reflTransGen _ _ _ edits node.ofDatum?_toDatum

/-- **A loss is never made up for**: nothing is read after it, whatever the edits. -/
theorem ofDatum?_of_loss (loss : Loss datum lossy) (edits : ReflTransGen Edit lossy datum') :
    ofDatum? surplus datum' = none := by
  refine ofDatum?_of_incomplete ?_
  induction edits with
  | refl => exact incomplete_of_loss loss
  | tail _ hlast ih => exact ih.edit hlast

end Node

/-! ### Reasons -/

namespace EndReason

variable {reason : EndReason}

/-- An edit of what is said of the end of a conversation, of which nothing may be left out. -/
inductive Edit : Datum → Datum → Prop
  | brokenReference {given given' : Datum}
      (h : Record.Edit ["missing_node_id"] [] (fun _ _ _ => False) given given') :
      Edit (.table [("BrokenReference", given)]) (.table [("BrokenReference", given')])

theorem ofDatum?_brokenReference {given : Datum} :
    ofDatum? surplus (.table [("BrokenReference", given)]) = some reason ↔
      ∃ record missing, Record.ofDatum? surplus ["missing_node_id"] given = some record ∧
        record.need? "missing_node_id" Datum.text? = some missing ∧
        reason = .brokenReference missing := by
  simp only [ofDatum?, Datum.alternative?, Option.pure_def, Option.bind_eq_bind,
    Option.bind_eq_some_iff, Option.some.injEq]
  constructor
  · rintro ⟨record, hrecord, missing, hmissing, rfl⟩
    exact ⟨record, missing, hrecord, hmissing, rfl⟩
  · rintro ⟨record, missing, hrecord, hmissing, rfl⟩
    exact ⟨record, hrecord, missing, hmissing, rfl⟩

/-- A reason is read as it was written. -/
theorem ofDatum?_toDatum (reason : EndReason) : ofDatum? surplus reason.toDatum = some reason := by
  cases reason with
  | terminal => rfl
  | cancelled => rfl
  | brokenReference missing =>
    exact ofDatum?_brokenReference.2 ⟨_, missing, Record.ofDatum?_table (by decide) rfl, rfl, rfl⟩

theorem keeps_edit : Datum.Keeps (ofDatum? surplus) Edit := by
  rintro _ _ reason ⟨edit⟩ h
  obtain ⟨record, missing, hrecord, hmissing, rfl⟩ := ofDatum?_brokenReference.1 h
  obtain ⟨record', hrecord', hkept⟩ := edit.exists_ofDatum? hrecord
  refine ofDatum?_brokenReference.2 ⟨record', missing, hrecord', ?_, rfl⟩
  exact Record.need?_of_kept (hkept _ (by decide)) (by simp) nofun hmissing

/-- **A reason is read as it was**, whatever edits are made to what was written. -/
theorem ofDatum?_of_edits (edits : ReflTransGen Edit reason.toDatum datum) :
    ofDatum? surplus datum = some reason :=
  keeps_edit.reflTransGen _ _ _ edits reason.ofDatum?_toDatum

end EndReason

/-! ### All of it -/

/-- **What is written can be read back.** Any number of edits to what was written of a node leave it
the same node, and nothing that is lost is made up for, before or after other edits. A reason for
the end of a conversation and what was pressed during a tick are read back in the same way. -/
theorem read_back_of_edits (surplus : Surplus) :
    (∀ node datum, ReflTransGen Node.Edit node.toDatum datum →
      Node.ofDatum? surplus datum = some node) ∧
    (∀ datum lossy datum', Node.Loss datum lossy → ReflTransGen Node.Edit lossy datum' →
      Node.ofDatum? surplus datum' = none) ∧
    (∀ reason datum, ReflTransGen EndReason.Edit reason.toDatum datum →
      EndReason.ofDatum? surplus datum = some reason) ∧
    ∀ intent datum, ReflTransGen Intent.Edit intent.toDatum datum →
      Intent.ofDatum? surplus datum = some intent := by
  refine ⟨fun node datum edits => ?_, fun datum lossy datum' loss edits => ?_,
    fun reason datum edits => ?_, fun intent datum edits => ?_⟩
  · exact Node.ofDatum?_of_edits edits
  · exact Node.ofDatum?_of_loss loss edits
  · exact EndReason.ofDatum?_of_edits edits
  · exact Intent.ofDatum?_of_edits edits

/-- A short node with nothing unnecessary in it and with a mood, the same node with a choice that
says nothing, a reason with a hint, and a tick without a number. -/
theorem read_back_of_edits_hall :
    Node.ofDatum? .skipped
        (.table [("mood", .integer 3), ("choices", .list [.table [("text", .text "Leave.")]]),
          ("text", .text "You again."), ("speaker", .text "Wednesday"), ("id", .text "hall")]) =
      some ⟨"hall", "Wednesday", "You again.", [⟨"Leave.", none, none⟩], none, none⟩ ∧
    Node.ofDatum? .skipped
        (.table [("mood", .integer 3), ("choices", .list [.table []]),
          ("text", .text "You again."), ("speaker", .text "Wednesday"), ("id", .text "hall")]) =
      none ∧
    EndReason.ofDatum? .skipped
        (.table [("BrokenReference",
          .table [("hint", .null), ("missing_node_id", .text "attic")])]) =
      some (.brokenReference "attic") ∧
    Intent.ofDatum? .skipped
        (.table [("move_axis", .text "Idle"), ("jump_pressed", .boolean false),
          ("interact_pressed", .boolean false), ("menu_up", .boolean false),
          ("menu_down", .boolean false), ("confirm_pressed", .boolean false),
          ("cancel_pressed", .boolean false)]) =
      some .idle := by
  obtain ⟨hnode, hlost, hreason, hintent⟩ := read_back_of_edits .skipped
  have loss : Node.Loss
      (.table [("choices", .list [.table [("text", .text "Leave.")]]),
        ("text", .text "You again."), ("speaker", .text "Wednesday"), ("id", .text "hall")])
      (.table [("choices", .list [.table []]),
        ("text", .text "You again."), ("speaker", .text "Wednesday"), ("id", .text "hall")]) :=
    .within [] _ ⟨rfl, .intro [] [] (.drop _ (List.mem_singleton_self "text"))⟩
  refine ⟨hnode _ _ ?_, hlost _ _ _ loss ?_, hreason _ _ ?_, hintent _ _ ?_⟩
  · exact .head (.drop [_, _, _, _] _ (by simp [Node.spareFields, Datum.ofOption])) <|
      .head (.drop [_, _, _, _] _ (by simp [Node.spareFields, Datum.ofOption])) <|
      .head (.within [_, _, _] _ ⟨rfl, .intro [] [] (.drop [_] _ (by simp [Datum.ofOption]))⟩) <|
      .head (.within [_, _, _] _ ⟨rfl, .intro [] [] (.drop [_] _ (by simp [Datum.ofOption]))⟩) <|
      .head (.permute (List.reverse_perm _).symm) <|
      .single (.add [] _ _ (by decide))
  · exact .single (.add [] _ _ (by decide))
  · exact .single (.brokenReference (.add [] _ _ (by decide)))
  · exact .single (.drop [_, _, _, _, _] _ (by simp [Intent.idle]))

end Sidescroller.Story
