import Mathlib.Data.List.Nodup
import Sidescroller.Proofs.Document.Record

/-!
# Records that are given in part

If the fields of a record have defaults, a document may give any of them and leave out the others.
What is read is then what the document says of the fields that it gives, and the defaults of the
others; and to give a field with its default is as good as to leave it out.

* `Record.Gives` — a table that gives some fields and says something of each of them;
* `Gives.exists_ofDatum?` — what is found in it, from which `Found.orElse?` and `Found.need?` read;
* `Record.Repeats` — one more field, given with its default;
* `Repeats.ofDatum?_bind` — whatever is read of a record, it does not depend on such a field.

The fields are those of a type, of which `name` gives the names, so that a record with records in
its fields can say in one condition what is given in all of them.
-/

namespace Sidescroller.Record

variable {Field α : Type} {surplus : Surplus} {fields : List Field} {name : Field → String}
  {named : Field → Prop} {means : Field → Datum → Prop} {inner : Field → Datum → Datum → Prop}
  {entries entries' : List (String × Datum)} {record record' : Record} {datum datum' : Datum}
  {key : String} {read : Datum → Option α} {default value : α}

/-! ### Given fields -/

/-- **A table that gives some of the fields** of a record: it has the keys of those that are named,
and what it gives for them is of the kind that is meant, each once. It may have any other keys. -/
inductive Gives (fields : List Field) (name : Field → String) (named : Field → Prop)
    (means : Field → Datum → Prop) : Datum → Prop
  | table {entries : List (String × Datum)}
      (once : ((entries.map Prod.fst).filter (fields.map name).contains).Nodup)
      (mem_iff : ∀ field ∈ fields, name field ∈ entries.map Prod.fst ↔ named field)
      (hmeans : ∀ field ∈ fields, ∀ datum, (name field, datum) ∈ entries → means field datum) :
      Gives fields name named means (.table entries)

/-- **Every choice of fields can be given**, by a table that has nothing else. -/
theorem gives_filter [DecidablePred named] (hnames : (fields.map name).Nodup)
    (given : Field → Datum) (h : ∀ field ∈ fields, means field (given field)) :
    Gives fields name named means
      (.table ((fields.filter (named ·)).map fun field => (name field, given field))) := by
  have hkeys : ((fields.filter (named ·)).map fun field => (name field, given field)).map Prod.fst =
      (fields.filter (named ·)).map name := by
    rw [List.map_map]
    rfl
  -- no two fields have the same name, so that an entry is the one of a field
  refine .table ?_ (fun field hfield => ?_) fun field hfield datum hmem => ?_
  · rw [hkeys]
    exact (hnames.sublist (List.filter_sublist.map name)).filter _
  · rw [hkeys, List.mem_map]
    constructor
    · rintro ⟨other, hother, heq⟩
      obtain ⟨hother, hnamed⟩ := List.mem_filter.1 hother
      obtain rfl := List.inj_on_of_nodup_map hnames hother hfield heq
      exact of_decide_eq_true hnamed
    · exact fun hnamed => ⟨field, List.mem_filter.2 ⟨hfield, decide_eq_true hnamed⟩, rfl⟩
  · obtain ⟨other, hother, heq⟩ := List.mem_map.1 hmem
    obtain ⟨hname, rfl⟩ := Prod.mk.inj heq
    obtain rfl := List.inj_on_of_nodup_map hnames (List.mem_filter.1 hother).1 hfield hname
    exact h _ hfield

/-- What is found for a field: something of which `means` holds if the field is named, and nothing
if it is not. -/
inductive Found (named : Prop) (means : Datum → Prop) : Option Datum → Prop
  | given (h : named) {datum : Datum} (hmeans : means datum) : Found named means (some datum)
  | missing (h : ¬named) : Found named means none

theorem isSome_ofDatum?_table {names : List String} :
    (ofDatum? surplus names (.table entries)).isSome ↔
      ((entries.map Prod.fst).filter names.contains).Nodup := by
  rw [Option.isSome_iff_exists]
  constructor
  · rintro ⟨record, h⟩
    exact (ofDatum?_table_eq_some_iff.1 h).1
  · exact fun once => ⟨_, ofDatum?_table_eq_some_iff.2 ⟨once, rfl⟩⟩

/-- A table without the name of a field gives nothing for it. -/
theorem get?_eq_none_iff (h : ofDatum? surplus (fields.map name) (.table entries) = some record)
    {field : Field} (hfield : field ∈ fields) :
    record.get? (name field) = none ↔ name field ∉ entries.map Prod.fst := by
  have hget (datum : Datum) : record.get? (name field) = some datum ↔ _ :=
    get?_eq_some_iff h (List.mem_map_of_mem hfield)
  simp [Option.eq_none_iff_forall_ne_some, hget]

/-- **What is given is found**, and nothing else. -/
theorem Gives.exists_ofDatum? (gives : Gives fields name named means datum) (surplus : Surplus) :
    ∃ record, ofDatum? surplus (fields.map name) datum = some record ∧
      ∀ field ∈ fields, Found (named field) (means field) (record.get? (name field)) := by
  obtain ⟨once, mem_iff, hmeans⟩ := gives
  obtain ⟨record, hrecord⟩ := Option.isSome_iff_exists.1 (isSome_ofDatum?_table.2 once)
  refine ⟨record, hrecord, fun field hfield => ?_⟩
  cases hfound : record.get? (name field) with
  | none =>
    have hmissing := (get?_eq_none_iff hrecord hfield).1 hfound
    exact .missing fun hnamed => hmissing ((mem_iff field hfield).2 hnamed)
  | some given =>
    have hmem := (get?_eq_some_iff hrecord (List.mem_map_of_mem hfield)).1 hfound
    exact .given ((mem_iff field hfield).1 (List.mem_map_of_mem hmem)) (hmeans field hfield _ hmem)

/-- **A field with a default** is what is said of it if it is named, and else the default. -/
theorem Found.orElse? {named : Prop} {means : Datum → Prop}
    (found : Found named means (record.get? key))
    (hgiven : named → ∀ datum, means datum → read datum = some value)
    (hmissing : ¬named → default = value) : record.orElse? key read default = some value := by
  unfold Record.orElse?
  generalize record.get? key = given at found ⊢
  cases found with
  | given h hmeans => exact hgiven h _ hmeans
  | missing h => exact congrArg some (hmissing h)

/-- A field that has to be given is what is said of it. -/
theorem Found.need? {named : Prop} {means : Datum → Prop}
    (found : Found named means (record.get? key)) (hnamed : named)
    (hread : ∀ datum, means datum → read datum = some value) :
    record.need? key read = some value := by
  unfold Record.need?
  generalize record.get? key = given at found ⊢
  cases found with
  | given h hmeans => exact hread _ hmeans
  | missing h => exact absurd hnamed h

/-- A field with a default is not read if it is given in a way that cannot be read. -/
theorem orElse?_eq_none_of_hasFlaw {names : List String} {flawed : Datum → Prop}
    (hflaw : HasFlaw (fun name datum => name = key ∧ flawed datum) datum)
    (h : ofDatum? surplus names datum = some record) (hkey : key ∈ names)
    (hread : ∀ datum, flawed datum → read datum = none) :
    record.orElse? key read default = none := by
  have hincomplete : Incomplete [] (fun name datum => name = key ∧ flawed datum) datum := .inr hflaw
  rcases hincomplete.get? h (List.nil_subset _) (fun _ _ hname => hname.1 ▸ hkey) with
    ⟨_, hmem, -⟩ | ⟨name, given, hgiven, rfl, hflawed⟩
  · cases hmem
  · rw [Record.orElse?, hgiven]
    exact hread given hflawed

/-! ### Repeated defaults -/

/-- **A table with one more field**, given with what `means` holds of; or a table in which `inner`
was done to what is given for a field. -/
inductive Repeats (fields : List Field) (name : Field → String) (means : Field → Datum → Prop)
    (inner : Field → Datum → Datum → Prop) : Datum → Datum → Prop
  | add (before after : List (String × Datum)) {field : Field} {datum : Datum}
      (hfield : field ∈ fields) (hnew : name field ∉ (before ++ after).map Prod.fst)
      (hmeans : means field datum) :
      Repeats fields name means inner (.table (before ++ after))
        (.table (before ++ (name field, datum) :: after))
  | within (before after : List (String × Datum)) {field : Field} {datum datum' : Datum}
      (hfield : field ∈ fields) (h : inner field datum datum') :
      Repeats fields name means inner (.table (before ++ (name field, datum) :: after))
        (.table (before ++ (name field, datum') :: after))

/-- What becomes of a field: what is given for it before and after. -/
inductive Repeated (means : Datum → Prop) (inner : Datum → Datum → Prop) :
    Option Datum → Option Datum → Prop
  | same (given : Option Datum) : Repeated means inner given given
  | added {datum : Datum} (h : means datum) : Repeated means inner none (some datum)
  | changed {datum datum' : Datum} (h : inner datum datum') :
      Repeated means inner (some datum) (some datum')

theorem Repeated.of_eq {means : Datum → Prop} {inner : Datum → Datum → Prop}
    {given given' : Option Datum} (h : given = given') : Repeated means inner given given' :=
  h ▸ same given

/-- A table is taken for a record if it was before, and only then. -/
theorem Repeats.isSome_ofDatum? (repeats : Repeats fields name means inner datum datum')
    (surplus : Surplus) :
    (ofDatum? surplus (fields.map name) datum').isSome ↔
      (ofDatum? surplus (fields.map name) datum).isSome := by
  cases repeats with
  | @add before after field datum hfield hnew hmeans =>
    have hperm : ((before ++ (name field, datum) :: after).map Prod.fst).Perm
        (name field :: (before ++ after).map Prod.fst) := by
      simp
    have hknown : (fields.map name).contains (name field) = true :=
      List.contains_iff_mem.2 (List.mem_map_of_mem hfield)
    rw [isSome_ofDatum?_table, isSome_ofDatum?_table, (hperm.filter _).nodup_iff,
      List.filter_cons_of_pos hknown, List.nodup_cons]
    exact and_iff_right fun hmem => hnew (List.mem_filter.1 hmem).1
  | within before after hfield hinner =>
    -- the keys are the same
    rw [isSome_ofDatum?_table, isSome_ofDatum?_table]
    simp

/-- **All fields are given as before**, but for the one that was added or changed. -/
theorem Repeats.repeated (repeats : Repeats fields name means inner datum datum')
    (hnames : (fields.map name).Nodup)
    (h : ofDatum? surplus (fields.map name) datum = some record)
    (h' : ofDatum? surplus (fields.map name) datum' = some record') :
    ∀ field ∈ fields, Repeated (means field) (inner field) (record.get? (name field))
      (record'.get? (name field)) := by
  intro field hfield
  have hname := List.mem_map_of_mem (f := name) hfield
  cases repeats with
  | @add before after other datum hother hnew hmeans =>
    by_cases heq : name field = name other
    · obtain rfl := List.inj_on_of_nodup_map hnames hfield hother heq
      -- nothing was given for the field, since its key is new
      have hbefore := (get?_eq_none_iff h hfield).2 hnew
      have hafter : record'.get? (name field) = some datum :=
        (get?_eq_some_iff h' hname).2 (by simp)
      rw [hbefore, hafter]
      exact .added hmeans
    · exact .of_eq (get?_congr h h' hname fun given => by simp [heq])
  | @within before after other datum datum' hother hinner =>
    by_cases heq : name field = name other
    · obtain rfl := List.inj_on_of_nodup_map hnames hfield hother heq
      have hbefore : record.get? (name field) = some datum :=
        (get?_eq_some_iff h hname).2 (by simp)
      have hafter : record'.get? (name field) = some datum' :=
        (get?_eq_some_iff h' hname).2 (by simp)
      rw [hbefore, hafter]
      exact .changed hinner
    · exact .of_eq (get?_congr h h' hname fun given => by simp [heq])

/-- **Nothing that is read of the record depends on the repeated default**, if what is read is the
same for any two records with fields that are given alike. -/
theorem Repeats.ofDatum?_bind (repeats : Repeats fields name means inner datum datum')
    (hnames : (fields.map name).Nodup) {next : Record → Option α}
    (hnext : ∀ record record', (∀ field ∈ fields, Repeated (means field) (inner field)
      (record.get? (name field)) (record'.get? (name field))) → next record' = next record) :
    (ofDatum? surplus (fields.map name) datum').bind next =
      (ofDatum? surplus (fields.map name) datum).bind next := by
  have hiff := repeats.isSome_ofDatum? surplus
  cases h : ofDatum? surplus (fields.map name) datum with
  | none =>
    rw [h] at hiff
    rw [Option.not_isSome_iff_eq_none.1 fun hsome => nomatch hiff.1 hsome]
  | some record =>
    rw [h] at hiff
    obtain ⟨record', h'⟩ := Option.isSome_iff_exists.1 (hiff.2 rfl)
    rw [h', Option.bind_some, Option.bind_some]
    exact hnext _ _ (repeats.repeated hnames h h')

/-- **A field with a default** is read as before, if what was added means the default. -/
theorem Repeated.orElse? {means : Datum → Prop} {inner : Datum → Datum → Prop}
    (repeated : Repeated means inner (record.get? key) (record'.get? key))
    (hmeans : ∀ datum, means datum → read datum = some default)
    (hinner : ∀ datum datum', inner datum datum' → read datum' = read datum) :
    record'.orElse? key read default = record.orElse? key read default := by
  unfold Record.orElse?
  generalize record.get? key = given at repeated ⊢
  generalize record'.get? key = given' at repeated ⊢
  cases repeated with
  | same => rfl
  | added hadded => exact hmeans _ hadded
  | changed hchanged => exact hinner _ _ hchanged

end Sidescroller.Record
