import Mathlib.Logic.Relation
import Sidescroller.Document.Record

/-!
# Changes to the table of a record

A record is read from the entries of a table that have the name of a field, wherever they stand. So
much of what may happen to a table does not matter to the record, and some of it ends it.

* `Record.Edit` — a change that says nothing else: the entries in another order, an entry with
  another name, an entry left out that says what its absence says;
* `Edit.exists_ofDatum?` — a field is given as before, but for what was done to it;
* `Record.Loss` — a field left out that has to be given;
* `Incomplete.get?` — what is missing after that, also after any further edits.

What happens inside of a field is a parameter of both, so that a record may have records in its
fields. `Datum.ItemChange` takes a change of an item to a list of them.
-/

namespace Sidescroller

/-- What is left is a part, whatever is left out. -/
theorem sublist_middle {α : Type} {item : α} {before after : List α} :
    (before ++ after).Sublist (before ++ item :: after) :=
  (List.sublist_cons_self item after).append_left before

namespace Datum

variable {α : Type} {read : Datum → Option α} {change : Datum → Datum → Prop}
  {kind : Datum → Prop} {datum datum' : Datum}

/-- A text that may be missing is read as it was written. -/
@[simp] theorem optional?_ofOption (given : Option String) :
    (ofOption given).optional? text? = some given := by
  cases given <;> rfl

/-- **What is read survives the change.** -/
def Keeps (read : Datum → Option α) (change : Datum → Datum → Prop) : Prop :=
  ∀ datum datum' value, change datum datum' → read datum = some value → read datum' = some value

/-- What survives one change survives any number of them. -/
theorem Keeps.reflTransGen (keeps : Keeps read change) :
    Keeps read (Relation.ReflTransGen change) := by
  intro datum datum' value hchanges hread
  induction hchanges with
  | refl => exact hread
  | tail _ hlast ih => exact keeps _ _ _ hlast ih

/-! ### Lists -/

/-- A change of one item of a list. -/
inductive ItemChange (change : Datum → Datum → Prop) : Datum → Datum → Prop
  | intro (before : List Datum) {item item' : Datum} (after : List Datum)
      (h : change item item') :
      ItemChange change (list (before ++ item :: after)) (list (before ++ item' :: after))

/-- A list is read as before if the item that was changed is. -/
theorem Keeps.list? (keeps : Keeps read change) :
    Keeps (Datum.list? read) (ItemChange change) := by
  rintro _ _ values ⟨before, after, hitem⟩ hread
  simp only [Datum.list?, List.mapM_append, List.mapM_cons, Option.pure_def, Option.bind_eq_bind,
    Option.bind_eq_some_iff, Option.some.injEq] at hread ⊢
  obtain ⟨front, hfront, _, ⟨value, hvalue, back, hback, rfl⟩, rfl⟩ := hread
  exact ⟨front, hfront, _, ⟨value, keeps _ _ _ hitem hvalue, back, hback, rfl⟩, rfl⟩

/-- A list with an item of a kind. -/
def HasItem (kind : Datum → Prop) : Datum → Prop
  | list items => ∃ item ∈ items, kind item
  | _ => False

theorem ItemChange.hasItem_of_forall (hitem : ItemChange change datum datum')
    (h : ∀ item item', change item item' → kind item') : HasItem kind datum' := by
  obtain ⟨before, after, hchange⟩ := hitem
  exact ⟨_, by simp, h _ _ hchange⟩

theorem ItemChange.hasItem (hitem : ItemChange change datum datum')
    (h : ∀ item item', change item item' → kind item → kind item') (hkind : HasItem kind datum) :
    HasItem kind datum' := by
  obtain ⟨before, after, hchange⟩ := hitem
  obtain ⟨other, hmem, hother⟩ := hkind
  rcases List.mem_cons.1 (List.perm_middle.mem_iff.1 hmem) with rfl | hmem
  · exact ⟨_, by simp, h _ _ hchange hother⟩
  · exact ⟨other, sublist_middle.subset hmem, hother⟩

/-- A list is not read if one of its items is not. -/
theorem HasItem.list?_eq_none (hkind : HasItem kind datum)
    (h : ∀ item, kind item → read item = none) : datum.list? read = none := by
  cases datum with
  | list items =>
    obtain ⟨item, hmem, hitem⟩ := hkind
    obtain ⟨before, after, rfl⟩ := List.append_of_mem hmem
    simp [Datum.list?, h item hitem]
  | _ => exact hkind.elim

end Datum

namespace Record

variable {α : Type} {surplus : Surplus} {names required : List String}
  {spare : List (String × Datum)} {inner : String → Datum → Datum → Prop}
  {flawed : String → Datum → Prop} {entries entries' : List (String × Datum)}
  {record record' : Record} {name : String} {datum datum' : Datum} {read : Datum → Option α}
  {default value : α}

/-! ### The fields of a table -/

theorem ofDatum?_table_eq_some_iff :
    ofDatum? surplus names (.table entries) = some record ↔
      ((entries.map Prod.fst).filter names.contains).Nodup ∧
        record = ⟨entries.filter fun entry => names.contains entry.1⟩ := by
  rw [ofDatum?, List.filter_map, Option.ite_none_right_eq_some, Option.some.injEq, eq_comm]
  rfl

/-- A table with exactly the fields of a record, in their order. -/
theorem ofDatum?_table (hnames : names.Nodup) (hentries : entries.map Prod.fst = names) :
    ofDatum? surplus names (.table entries) = some ⟨entries⟩ := by
  subst hentries
  refine ofDatum?_table_eq_some_iff.2 ⟨hnames.filter _, ?_⟩
  congr 1
  refine (List.filter_eq_self.2 fun entry hentry => ?_).symm
  exact List.contains_iff_mem.2 (List.mem_map_of_mem hentry)

theorem lookup_eq_some_iff_mem (h : (entries.map Prod.fst).Nodup) :
    entries.lookup name = some datum ↔ (name, datum) ∈ entries := by
  rw [List.lookup_eq_some_iff]
  constructor
  · rintro ⟨before, after, rfl, -⟩
    simp
  · intro hmem
    obtain ⟨before, after, rfl⟩ := List.append_of_mem hmem
    refine ⟨before, after, rfl, fun entry hentry => ?_⟩
    -- an earlier entry with the name would give it twice
    rw [List.map_append, List.nodup_append] at h
    simpa using (h.2.2 _ (List.mem_map_of_mem hentry) name (by simp)).symm

/-- **A field is what the table has under its name.** -/
theorem get?_eq_some_iff (h : ofDatum? surplus names (.table entries) = some record)
    (hname : name ∈ names) : record.get? name = some datum ↔ (name, datum) ∈ entries := by
  obtain ⟨hnodup, rfl⟩ := ofDatum?_table_eq_some_iff.1 h
  rw [List.filter_map] at hnodup
  refine (lookup_eq_some_iff_mem hnodup).trans (List.mem_filter.trans ?_)
  exact and_iff_left (List.contains_iff_mem.2 hname)

theorem get?_congr (h : ofDatum? surplus names (.table entries) = some record)
    (h' : ofDatum? surplus names (.table entries') = some record') (hname : name ∈ names)
    (hmem : ∀ datum, (name, datum) ∈ entries ↔ (name, datum) ∈ entries') :
    record.get? name = record'.get? name :=
  Option.ext fun datum => by
    rw [get?_eq_some_iff h hname, get?_eq_some_iff h' hname, hmem]

/-! ### Edits -/

/-- **An edit of a table** that leaves it saying the same of a record. The entries in `spare` say
what is said without them; `inner` is what may be done to what is given for a field. -/
inductive Edit (names : List String) (spare : List (String × Datum))
    (inner : String → Datum → Datum → Prop) : Datum → Datum → Prop
  | permute {entries entries' : List (String × Datum)} (h : entries.Perm entries') :
      Edit names spare inner (.table entries) (.table entries')
  | add (before after : List (String × Datum)) {name : String} (datum : Datum)
      (h : name ∉ names) :
      Edit names spare inner (.table (before ++ after))
        (.table (before ++ (name, datum) :: after))
  | drop (before after : List (String × Datum)) {name : String} {datum : Datum}
      (h : (name, datum) ∈ spare) :
      Edit names spare inner (.table (before ++ (name, datum) :: after))
        (.table (before ++ after))
  | within (before after : List (String × Datum)) {name : String} {datum datum' : Datum}
      (h : inner name datum datum') :
      Edit names spare inner (.table (before ++ (name, datum) :: after))
        (.table (before ++ (name, datum') :: after))

/-- What an edit may do to a field: what is given for it before and after. -/
inductive Kept (spare : List (String × Datum)) (inner : String → Datum → Datum → Prop)
    (name : String) : Option Datum → Option Datum → Prop
  | same (given : Option Datum) : Kept spare inner name given given
  | dropped {datum : Datum} (h : (name, datum) ∈ spare) : Kept spare inner name (some datum) none
  | changed {datum datum' : Datum} (h : inner name datum datum') :
      Kept spare inner name (some datum) (some datum')

theorem Kept.of_eq {given given' : Option Datum} (h : given = given') :
    Kept spare inner name given given' :=
  h ▸ same given

/-- What matters for a table to be taken for a record are its keys. -/
theorem exists_ofDatum?_of_keys (h : ofDatum? surplus names (.table entries) = some record)
    (hkeys : ((entries.map Prod.fst).filter names.contains).Nodup →
      ((entries'.map Prod.fst).filter names.contains).Nodup) :
    ∃ record', ofDatum? surplus names (.table entries') = some record' :=
  ⟨_, ofDatum?_table_eq_some_iff.2 ⟨hkeys (ofDatum?_table_eq_some_iff.1 h).1, rfl⟩⟩

/-- No edit gives a field twice. -/
theorem Edit.exists_table (edit : Edit names spare inner datum datum')
    (h : ofDatum? surplus names datum = some record) :
    ∃ record', ofDatum? surplus names datum' = some record' := by
  cases edit with
  | permute hperm =>
    have hkeys := (hperm.map Prod.fst).filter names.contains
    exact exists_ofDatum?_of_keys h hkeys.nodup_iff.1
  | add before after datum hname =>
    -- the new key is filtered out
    exact exists_ofDatum?_of_keys h fun hnodup => by simpa [hname] using hnodup
  | drop before after hspare =>
    exact exists_ofDatum?_of_keys h fun hnodup => hnodup.sublist ((sublist_middle.map _).filter _)
  | within before after hinner =>
    -- the keys are the same
    exact exists_ofDatum?_of_keys h fun hnodup => by simpa using hnodup

/-- **An edit keeps every field**: it is given as before, or it was left out and said nothing, or
the edit was made inside of it. -/
theorem Edit.exists_ofDatum? (edit : Edit names spare inner datum datum')
    (h : ofDatum? surplus names datum = some record) :
    ∃ record', ofDatum? surplus names datum' = some record' ∧
      ∀ name ∈ names, Kept spare inner name (record.get? name) (record'.get? name) := by
  obtain ⟨record', h'⟩ := edit.exists_table h
  refine ⟨record', h', fun field hfield => ?_⟩
  cases edit with
  | permute hperm => exact .of_eq (get?_congr h h' hfield fun datum => hperm.mem_iff)
  | @add before after name datum hname =>
    have hne := ne_of_mem_of_not_mem hfield hname
    exact .of_eq (get?_congr h h' hfield fun other => by simp [hne])
  | @drop before after name datum hspare =>
    by_cases hne : field = name
    · subst hne
      have hgiven : record.get? field = some datum := (get?_eq_some_iff h hfield).2 (by simp)
      cases hleft : record'.get? field with
      | none => exact hgiven ▸ .dropped hspare
      | some other =>
        -- the field would be given twice
        have hmem := (get?_eq_some_iff h' hfield).1 hleft
        have hother := (get?_eq_some_iff h hfield).2 (sublist_middle.subset hmem)
        exact .of_eq hother
    · exact .of_eq (get?_congr h h' hfield fun other => by simp [hne])
  | @within before after name datum datum' hinner =>
    by_cases hne : field = name
    · subst hne
      have hbefore : record.get? field = some datum := (get?_eq_some_iff h hfield).2 (by simp)
      have hafter : record'.get? field = some datum' := (get?_eq_some_iff h' hfield).2 (by simp)
      rw [hbefore, hafter]
      exact .changed hinner
    · exact .of_eq (get?_congr h h' hfield fun other => by simp [hne])

theorem need?_eq_none (h : record.get? name = none) : record.need? name read = none := by
  rw [need?, h, Option.bind_none]

/-- A field that has to be given, and is never spare, is read as before. -/
theorem need?_of_kept (kept : Kept spare inner name (record.get? name) (record'.get? name))
    (hspare : ∀ datum, (name, datum) ∉ spare) (hinner : Datum.Keeps read (inner name))
    (h : record.need? name read = some value) : record'.need? name read = some value := by
  unfold need? at h ⊢
  generalize record.get? name = given at kept h
  generalize record'.get? name = given' at kept ⊢
  cases kept with
  | same => exact h
  | dropped hdropped => exact absurd hdropped (hspare _)
  | changed hchanged => exact hinner _ _ _ hchanged h

/-- **A field with a default** is read as before, if what is spare says the default. -/
theorem orElse?_of_kept (kept : Kept spare inner name (record.get? name) (record'.get? name))
    (hspare : ∀ datum, (name, datum) ∈ spare → read datum = some default)
    (hinner : Datum.Keeps read (inner name))
    (h : record.orElse? name read default = some value) :
    record'.orElse? name read default = some value := by
  unfold orElse? at h ⊢
  generalize record.get? name = given at kept h
  generalize record'.get? name = given' at kept ⊢
  cases kept with
  | same => exact h
  | dropped hdropped => exact (hspare _ hdropped).symm.trans h
  | changed hchanged => exact hinner _ _ _ hchanged h

/-! ### Losses -/

/-- **A loss**: a field that has to be given is left out, or something is lost inside of a field. -/
inductive Loss (required : List String) (inner : String → Datum → Datum → Prop) :
    Datum → Datum → Prop
  | drop (entries : List (String × Datum)) {name : String} (h : name ∈ required) :
      Loss required inner (.table entries) (.table (entries.filter fun entry => entry.1 ≠ name))
  | within (before after : List (String × Datum)) {name : String} {datum datum' : Datum}
      (h : inner name datum datum') :
      Loss required inner (.table (before ++ (name, datum) :: after))
        (.table (before ++ (name, datum') :: after))

/-- A table in which nothing has this name. -/
def Lacks (name : String) : Datum → Prop
  | .table entries => name ∉ entries.map Prod.fst
  | _ => False

/-- A table in which what is given under some name is flawed. -/
def HasFlaw (flawed : String → Datum → Prop) : Datum → Prop
  | .table entries => ∃ name datum, (name, datum) ∈ entries ∧ flawed name datum
  | _ => False

/-- **What a loss leaves**: a table without a field that has to be given, or with a flaw in it. -/
def Incomplete (required : List String) (flawed : String → Datum → Prop) (datum : Datum) : Prop :=
  (∃ name ∈ required, Lacks name datum) ∨ HasFlaw flawed datum

theorem Loss.incomplete (loss : Loss required inner datum datum')
    (hinner : ∀ name datum datum', inner name datum datum' → flawed name datum') :
    Incomplete required flawed datum' := by
  cases loss with
  | @drop entries name hname => exact Or.inl ⟨name, hname, by simp [Lacks]⟩
  | @within before after name datum datum' hloss =>
    exact Or.inr ⟨name, datum', by simp, hinner _ _ _ hloss⟩

theorem Edit.lacks (edit : Edit names spare inner datum datum') (hname : name ∈ names)
    (h : Lacks name datum) : Lacks name datum' := by
  cases edit with
  | permute hperm => exact fun hmem => h ((hperm.map Prod.fst).mem_iff.2 hmem)
  | add before after other hother =>
    have hne := ne_of_mem_of_not_mem hname hother
    simpa [Lacks, hne] using h
  | drop before after hspare =>
    exact fun hmem => h ((sublist_middle.map _).subset hmem)
  | within before after hinner => simpa [Lacks] using h

theorem Edit.hasFlaw (edit : Edit names spare inner datum datum')
    (hspare : ∀ name datum, (name, datum) ∈ spare → ¬flawed name datum)
    (hinner : ∀ name datum datum', inner name datum datum' → flawed name datum →
      flawed name datum') (h : HasFlaw flawed datum) : HasFlaw flawed datum' := by
  cases edit with
  | permute hperm =>
    obtain ⟨name, datum, hmem, hflawed⟩ := h
    exact ⟨name, datum, hperm.mem_iff.1 hmem, hflawed⟩
  | add before after other hother =>
    obtain ⟨name, datum, hmem, hflawed⟩ := h
    exact ⟨name, datum, sublist_middle.subset hmem, hflawed⟩
  | drop before after hdrop =>
    obtain ⟨name, datum, hmem, hflawed⟩ := h
    rcases List.mem_cons.1 (List.perm_middle.mem_iff.1 hmem) with heq | hmem
    · -- what is dropped is spare, and so not the flaw
      cases heq
      exact absurd hflawed (hspare _ _ hdrop)
    · exact ⟨name, datum, hmem, hflawed⟩
  | @within before after other given given' hchange =>
    obtain ⟨name, datum, hmem, hflawed⟩ := h
    rcases List.mem_cons.1 (List.perm_middle.mem_iff.1 hmem) with heq | hmem
    · cases heq
      exact ⟨other, given', by simp, hinner _ _ _ hchange hflawed⟩
    · exact ⟨name, datum, sublist_middle.subset hmem, hflawed⟩

/-- **No edit makes up for a loss.** -/
theorem Incomplete.edit (h : Incomplete required flawed datum)
    (edit : Edit names spare inner datum datum') (hrequired : required ⊆ names)
    (hspare : ∀ name datum, (name, datum) ∈ spare → ¬flawed name datum)
    (hinner : ∀ name datum datum', inner name datum datum' → flawed name datum →
      flawed name datum') : Incomplete required flawed datum' := by
  rcases h with ⟨name, hname, hlacks⟩ | hflawed
  · exact Or.inl ⟨name, hname, edit.lacks (hrequired hname) hlacks⟩
  · exact Or.inr (edit.hasFlaw hspare hinner hflawed)

/-- **What a loss does to the record**: a field is missing, or what is given for it is flawed. -/
theorem Incomplete.get? (h : Incomplete required flawed datum)
    (hrecord : ofDatum? surplus names datum = some record) (hrequired : required ⊆ names)
    (hflawed : ∀ name datum, flawed name datum → name ∈ names) :
    (∃ name ∈ required, record.get? name = none) ∨
      ∃ name datum, record.get? name = some datum ∧ flawed name datum := by
  cases datum with
  | table entries =>
    rcases h with ⟨name, hname, hlacks⟩ | ⟨name, datum, hmem, hflaw⟩
    · refine Or.inl ⟨name, hname, Option.eq_none_iff_forall_ne_some.2 fun datum hgiven => ?_⟩
      have hmem := (get?_eq_some_iff hrecord (hrequired hname)).1 hgiven
      exact hlacks (List.mem_map_of_mem hmem)
    · exact Or.inr ⟨name, datum, (get?_eq_some_iff hrecord (hflawed _ _ hflaw)).2 hmem, hflaw⟩
  | _ => exact absurd h (by simp [Incomplete, Lacks, HasFlaw])

end Record

end Sidescroller
