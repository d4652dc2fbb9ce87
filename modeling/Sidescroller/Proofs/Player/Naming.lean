import Mathlib.Data.List.DropRight
import Sidescroller.Player.Character

/-!
# Names

A typed name loses the blanks at its ends and is then cut to the permitted length. The cut comes
last, and nothing looks at the end that it leaves. So a name never begins with a blank and is never
too short or too long, but it ends with a blank if the cut falls behind one. Such a name is not kept
when it is typed in again; the one that it becomes is.

* `Text.Trimmed`, `Text.trimmed_trim` — texts without blanks at their ends;
* `Character.NormalName` — names in normal form; `Character.normalName_eq_self_iff` — they are the
  ones that are kept;
* `Character.CutAtBlank` — the cut falls behind a blank;
* `name_normal_iff_not_cutAtBlank` — otherwise, and only then, the name is in normal form.
-/

namespace Sidescroller

/-! ### Texts without blanks at their ends -/

namespace Text

variable {cs : List Char}

/-- **Neither end is blank.** -/
structure Trimmed (cs : List Char) : Prop where
  head : ∀ c ∈ cs.head?, isBlank c = false
  last : ∀ c ∈ cs.getLast?, isBlank c = false

theorem trim_eq_rdropWhile (cs : List Char) :
    trim cs = (cs.dropWhile isBlank).rdropWhile isBlank := rfl

/-- What is left of a text begins and ends where it is not blank. -/
theorem trimmed_trim (cs : List Char) : Trimmed (trim cs) where
  head := by
    intro c hc
    -- the blanks at the end are dropped from a text that does not begin with one
    obtain ⟨rest, hrest⟩ : trim cs <+: cs.dropWhile isBlank := List.rdropWhile_prefix ..
    have hhead : (cs.dropWhile isBlank).head? = some c :=
      hrest ▸ List.mem_head?_append_of_mem_head? hc
    have hnot := List.head?_dropWhile_not isBlank cs
    rwa [hhead] at hnot
  last := by
    intro c hc
    obtain ⟨hne, rfl⟩ := List.mem_getLast?_eq_getLast hc
    exact Bool.eq_false_iff.2 (List.rdropWhile_last_not isBlank _ hne)

theorem trim_of_trimmed (h : Trimmed cs) : trim cs = cs := by
  have hhead : cs.dropWhile isBlank = cs := by
    rw [List.dropWhile_eq_self_iff]
    intro hpos
    refine Bool.eq_false_iff.1 (h.head _ ?_)
    rw [List.head?_eq_getElem?, List.getElem?_eq_getElem hpos]
    rfl
  rw [trim_eq_rdropWhile, hhead, List.rdropWhile_eq_self_iff]
  intro hne
  exact Bool.eq_false_iff.1 (h.last _ (List.getLast?_eq_some_getLast hne))

theorem length_trim_le (cs : List Char) : (trim cs).length ≤ cs.length := by
  have hpart : trim cs <+: cs.dropWhile isBlank := List.rdropWhile_prefix ..
  exact hpart.length_le.trans (List.length_dropWhile_le isBlank cs)

end Text

namespace Character

open Text (isBlank trim Trimmed)

variable {name typed : String} {c : Char}

/-! ### Names in normal form -/

/-- **A name in normal form** has at least one character and not too many, and no blank at either
end. -/
structure NormalName (name : String) : Prop where
  length_pos : 1 ≤ name.length
  length_le : name.length ≤ maxNameLength
  trimmed : Trimmed name.toList

/-- What is left of a typed name. -/
def kept (typed : String) : List Char := (trim typed.toList).take maxNameLength

/-- **The cut falls behind a blank**: the last character that is permitted is one. -/
def CutAtBlank (typed : String) : Prop :=
  ∃ c, (trim typed.toList)[maxNameLength - 1]? = some c ∧ isBlank c = true

/-- A name that was typed in is what is left of it, or the default. -/
theorem normalName_cases (typed : String) :
    kept typed = [] ∧ normalName typed = defaultName ∨
      kept typed ≠ [] ∧ (normalName typed).toList = kept typed := by
  unfold normalName
  rw [← kept]
  cases kept typed with
  | nil => exact Or.inl ⟨rfl, rfl⟩
  | cons c cs => exact Or.inr ⟨List.cons_ne_nil c cs, String.toList_ofList⟩

theorem normalName_defaultName : NormalName defaultName where
  length_pos := by decide
  length_le := by decide
  trimmed := by
    have htrim : trim defaultName.toList = defaultName.toList := by decide
    exact htrim ▸ Text.trimmed_trim defaultName.toList

theorem length_normalName (typed : String) :
    1 ≤ (normalName typed).length ∧ (normalName typed).length ≤ maxNameLength := by
  rcases normalName_cases typed with ⟨-, hname⟩ | ⟨hne, hname⟩
  · rw [hname]
    exact ⟨normalName_defaultName.length_pos, normalName_defaultName.length_le⟩
  · rw [← String.length_toList, hname]
    exact ⟨List.length_pos_iff.2 hne, List.length_take_le _ _⟩

theorem head_normalName (typed : String) :
    ∀ c ∈ (normalName typed).toList.head?, isBlank c = false := by
  rcases normalName_cases typed with ⟨-, hname⟩ | ⟨-, hname⟩
  · rw [hname]
    exact normalName_defaultName.trimmed.head
  · intro c hc
    rw [hname, kept, List.head?_take, if_neg (by decide)] at hc
    exact (Text.trimmed_trim typed.toList).head c hc

/-! ### Where a name ends -/

/-- What is left ends where the cut falls, or with the text. -/
theorem getLast?_kept (typed : String) :
    (kept typed).getLast? =
      (trim typed.toList)[maxNameLength - 1]?.or (trim typed.toList).getLast? := by
  rw [kept, List.getLast?_take, if_neg (by decide)]

/-- **The end of a name** is blank exactly if the cut falls behind a blank. -/
theorem last_normalName_iff (typed : String) :
    (∀ c ∈ (normalName typed).toList.getLast?, isBlank c = false) ↔ ¬ CutAtBlank typed := by
  have htrimmed := Text.trimmed_trim typed.toList
  rcases normalName_cases typed with ⟨hnil, hname⟩ | ⟨-, hname⟩
  · -- nothing is left, so there is nothing to cut
    have htrim : trim typed.toList = [] :=
      (List.take_eq_nil_iff.1 hnil).resolve_left (by decide)
    rw [hname]
    refine iff_of_true normalName_defaultName.trimmed.last ?_
    rintro ⟨c, hc, -⟩
    rw [htrim] at hc
    cases hc
  · rw [hname, getLast?_kept]
    cases hcut : (trim typed.toList)[maxNameLength - 1]? with
    | none =>
      -- the text is short, and ends where it is not blank
      refine iff_of_true htrimmed.last ?_
      rintro ⟨c, hc, -⟩
      cases hcut.symm.trans hc
    | some last =>
      constructor
      · rintro h ⟨c, hc, hblank⟩
        obtain rfl := Option.some.inj (hcut.symm.trans hc)
        cases hblank.symm.trans (h last rfl)
      · intro h c hc
        obtain rfl := Option.some.inj hc
        exact Bool.eq_false_iff.2 fun hblank => h ⟨last, hcut, hblank⟩

theorem normalName_normal_iff (typed : String) :
    NormalName (normalName typed) ↔ ¬ CutAtBlank typed := by
  rw [← last_normalName_iff]
  constructor
  · exact fun h => h.trimmed.last
  · intro hlast
    obtain ⟨hpos, hle⟩ := length_normalName typed
    exact ⟨hpos, hle, head_normalName typed, hlast⟩

/-- The cut does nothing to a text that is not too long. -/
theorem not_cutAtBlank (h : typed.length ≤ maxNameLength) : ¬ CutAtBlank typed := by
  rintro ⟨c, hc, hblank⟩
  have hle := Text.length_trim_le typed.toList
  rw [String.length_toList] at hle
  obtain ⟨hlt, -⟩ := List.getElem?_eq_some_iff.1 hc
  -- so the permitted length is that of the text, which does not end with a blank
  have hlast : (trim typed.toList).getLast? = some c := by
    rw [List.getLast?_eq_getElem?, ← hc]
    congr 1
    have hpos : 0 < maxNameLength := by decide
    omega
  cases hblank.symm.trans ((Text.trimmed_trim typed.toList).last c hlast)

/-! ### Names that are kept -/

theorem normalName_of_normal (h : NormalName name) : normalName name = name := by
  have hkept : kept name = name.toList := by
    rw [kept, Text.trim_of_trimmed h.trimmed]
    apply List.take_of_length_le
    rw [String.length_toList]
    exact h.length_le
  rcases normalName_cases name with ⟨hnil, -⟩ | ⟨-, hname⟩
  · have hpos := h.length_pos
    rw [← String.length_toList, ← hkept, hnil] at hpos
    cases hpos
  · exact String.toList_inj.1 (hname.trans hkept)

/-- **Names in normal form are those that are kept.** -/
theorem normalName_eq_self_iff : normalName name = name ↔ NormalName name := by
  constructor
  · intro h
    have hle := (length_normalName name).2
    rw [h] at hle
    have hnormal := (normalName_normal_iff name).2 (not_cutAtBlank hle)
    rwa [h] at hnormal
  · exact normalName_of_normal

theorem name_rename (character : Character) (typed : String) :
    (character.rename typed).name = normalName typed := rfl

theorem rename_eq_self_iff {character : Character} :
    character.rename typed = character ↔ normalName typed = character.name := by
  constructor
  · exact fun h => congrArg Character.name h
  · intro h
    rw [rename, h]

/-- **What becomes of a typed name.** It has at least one character, no more than are permitted, and
does not begin with a blank. It is in normal form exactly if the cut does not fall behind a blank,
and this decides alone whether it ends with one. Names in normal form are kept when they are typed
in again, and no others are. What a name becomes when it is typed in again is in normal form in any
case. -/
theorem name_normal_iff_not_cutAtBlank (character : Character) (typed : String) :
    let named := character.rename typed
    1 ≤ named.name.length ∧ named.name.length ≤ maxNameLength ∧
    (∀ c ∈ named.name.toList.head?, isBlank c = false) ∧
    ((∀ c ∈ named.name.toList.getLast?, isBlank c = false) ↔ ¬ CutAtBlank typed) ∧
    (NormalName named.name ↔ ¬ CutAtBlank typed) ∧
    (named.rename named.name = named ↔ NormalName named.name) ∧
    (∀ name, normalName name = name ↔ NormalName name) ∧
    NormalName (named.rename named.name).name := by
  intro named
  have hname : named.name = normalName typed := character.name_rename typed
  obtain ⟨hpos, hle⟩ := length_normalName typed
  rw [rename_eq_self_iff, named.name_rename, hname]
  exact ⟨hpos, hle, head_normalName typed, last_normalName_iff typed,
    normalName_normal_iff typed, normalName_eq_self_iff, fun _ => normalName_eq_self_iff,
    (normalName_normal_iff _).2 (not_cutAtBlank hle)⟩

/-- **A name that is not kept.** The cut falls behind the blank before the family name. -/
theorem name_ends_with_blank :
    let named := Character.ofName "Morticia Frump A. Addams"
    named.name.toList.getLast? = some ' ' ∧ isBlank ' ' = true ∧
      (named.rename named.name).name ≠ named.name := by
  decide

end Character

end Sidescroller
