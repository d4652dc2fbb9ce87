import Mathlib.Logic.ExistsUnique
import Sidescroller.Text

/-!
# The pieces of a text

Placeholders cut a text into pieces. There is one way to do this: two placeholders cannot overlap,
since a placeholder begins with a brace and has no other one of that kind, so none can begin within
another. To fill a name in is to join the pieces by the name. The name itself is in no piece, and
what it looks like does not matter.

* `not_prefix_append` — no placeholder begins before the first one;
* `cut` — the pieces, found in one pass; `cut_intercalate` — they are found if they are joined;
* `fillIn_eq_intercalate_cut` — filling in is joining;
* `Pieces`, `existsUnique_pieces`, `address_of_pieces` — the same for texts.
-/

namespace Sidescroller.Text

variable {c : Char} {piece rest name : List Char} {pieces : List (List Char)}

/-! ### Where a placeholder begins -/

/-- A placeholder has one opening brace, its first character. -/
theorem eq_zero_of_placeholder_getElem? {k : Nat} (h : placeholder[k]? = placeholder[0]?) :
    k = 0 := by
  have hk : k < placeholder.length := by
    apply Classical.byContradiction
    intro hle
    rw [List.getElem?_eq_none (by omega)] at h
    cases h
  have hall : ∀ k < placeholder.length, placeholder[k]? = placeholder[0]? → k = 0 := by decide
  exact hall k hk h

/-- **No placeholder begins** within a piece and ends behind it. -/
theorem not_prefix_append (hfree : ¬ placeholder <:+: piece) (hne : piece ≠ []) :
    ¬ placeholder <+: piece ++ (placeholder ++ rest) := by
  intro hprefix
  by_cases hlength : placeholder.length ≤ piece.length
  · have hpiece : placeholder <+: piece :=
      List.prefix_of_prefix_length_le hprefix (List.prefix_append _ _) hlength
    exact hfree hpiece.isInfix
  · -- the placeholder that follows would begin within the first one
    have hbrace := List.prefix_iff_getElem?.1 hprefix piece.length (by omega)
    rw [List.getElem?_append_right (Nat.le_refl _), Nat.sub_self,
      List.getElem?_append_left (by decide)] at hbrace
    have hzero : piece.length = 0 := by
      apply eq_zero_of_placeholder_getElem?
      rw [hbrace, List.getElem?_eq_getElem]
    exact hne (List.length_eq_zero_iff.1 hzero)

/-! ### One pass through a text -/

/-- **Induction along a text**: it is empty, or it begins with a placeholder, which is passed as a
whole, or else with another character. -/
@[elab_as_elim]
theorem pass_induction {motive : List Char → Prop} (nil : motive [])
    (fill : ∀ rest, motive rest → motive (placeholder ++ rest))
    (keep : ∀ c rest, ¬ placeholder <+: c :: rest → motive rest → motive (c :: rest))
    (text : List Char) : motive text := by
  induction text using fillIn.induct with
  | case1 rest ih => exact fill rest ih
  | case2 c rest hne ih =>
    refine keep c rest ?_ ih
    rintro ⟨rest', heq⟩
    obtain ⟨rfl, rfl⟩ := List.cons_eq_cons.1 heq
    exact hne rest' rfl rfl
  | case3 => exact nil

theorem fillIn_fill (name rest : List Char) :
    fillIn name (placeholder ++ rest) = name ++ fillIn name rest := by
  rw [placeholder]
  simp only [List.cons_append, List.nil_append, fillIn]

theorem fillIn_keep (h : ¬ placeholder <+: c :: rest) (name : List Char) :
    fillIn name (c :: rest) = c :: fillIn name rest := by
  rw [fillIn]
  rintro rest' rfl rfl
  exact h ⟨rest', rfl⟩

theorem fillIn_placeholder (text : List Char) : fillIn placeholder text = text := by
  induction text using pass_induction with
  | nil => rfl
  | fill rest ih => rw [fillIn_fill, ih]
  | keep c rest hne ih => rw [fillIn_keep hne, ih]

/-! ### Cutting a text -/

/-- **The pieces** of a text, in order. -/
def cut : List Char → List (List Char)
  | '\x7b' :: 'n' :: 'a' :: 'm' :: 'e' :: '\x7d' :: rest => [] :: cut rest
  | c :: rest => (cut rest).modifyHead (c :: ·)
  | [] => [[]]

theorem cut_fill (rest : List Char) : cut (placeholder ++ rest) = [] :: cut rest := by
  rw [placeholder]
  simp only [List.cons_append, List.nil_append, cut]

theorem cut_keep (h : ¬ placeholder <+: c :: rest) :
    cut (c :: rest) = (cut rest).modifyHead (c :: ·) := by
  rw [cut]
  rintro rest' rfl rfl
  exact h ⟨rest', rfl⟩

/-- There is a first piece, and the text begins with it. -/
theorem exists_cut_eq_cons (text : List Char) :
    ∃ piece pieces, cut text = piece :: pieces ∧ piece <+: text := by
  induction text using pass_induction with
  | nil => exact ⟨[], [], rfl, List.prefix_rfl⟩
  | fill rest ih => exact ⟨[], cut rest, cut_fill rest, List.nil_prefix⟩
  | keep c rest hne ih =>
    obtain ⟨piece, pieces, hcut, hprefix⟩ := ih
    refine ⟨c :: piece, pieces, ?_, List.cons_prefix_cons.2 ⟨rfl, hprefix⟩⟩
    rw [cut_keep hne, hcut]
    rfl

/-- No piece has a placeholder in it. -/
theorem free_of_mem_cut {text : List Char} (h : piece ∈ cut text) : ¬ placeholder <:+: piece := by
  induction text using pass_induction generalizing piece with
  | nil =>
    obtain rfl := List.mem_singleton.1 h
    decide
  | fill rest ih =>
    rw [cut_fill] at h
    rcases List.mem_cons.1 h with rfl | h
    · decide
    · exact ih h
  | keep c rest hne ih =>
    obtain ⟨first, pieces, hcut, hprefix⟩ := exists_cut_eq_cons rest
    rw [cut_keep hne, hcut, List.modifyHead_cons] at h
    rw [hcut] at ih
    rcases List.mem_cons.1 h with rfl | h
    · -- the text would begin with a placeholder in its first piece
      rw [List.infix_cons_iff]
      rintro (hstart | hlater)
      · exact hne (hstart.trans (List.cons_prefix_cons.2 ⟨rfl, hprefix⟩))
      · exact ih List.mem_cons_self hlater
    · exact ih (List.mem_cons_of_mem _ h)

theorem free_of_free_cons (h : ¬ placeholder <:+: c :: piece) : ¬ placeholder <:+: piece :=
  fun hpiece => h (List.infix_cons hpiece)

/-- Up to the first placeholder there is one piece. -/
theorem cut_append (hfree : ¬ placeholder <:+: piece) :
    cut (piece ++ (placeholder ++ rest)) = piece :: cut rest := by
  induction piece with
  | nil => exact cut_fill rest
  | cons c piece ih =>
    have hstart : ¬ placeholder <+: c :: piece ++ (placeholder ++ rest) :=
      not_prefix_append hfree (List.cons_ne_nil c piece)
    rw [List.cons_append] at hstart ⊢
    rw [cut_keep hstart, ih (free_of_free_cons hfree)]
    rfl

theorem cut_of_free (hfree : ¬ placeholder <:+: piece) : cut piece = [piece] := by
  induction piece with
  | nil => rfl
  | cons c piece ih =>
    rw [cut_keep fun h => hfree h.isInfix, ih (free_of_free_cons hfree)]
    rfl

/-- **The pieces are found** if they are joined by placeholders. -/
theorem cut_intercalate (hne : pieces ≠ []) (hfree : ∀ piece ∈ pieces, ¬ placeholder <:+: piece) :
    cut (placeholder.intercalate pieces) = pieces := by
  induction pieces with
  | nil => exact absurd rfl hne
  | cons piece pieces ih =>
    obtain ⟨hpiece, hpieces⟩ := List.forall_mem_cons.1 hfree
    cases pieces with
    | nil => rw [List.intercalate_singleton, cut_of_free hpiece]
    | cons next pieces =>
      rw [List.intercalate_cons_cons, List.append_assoc, cut_append hpiece,
        ih (List.cons_ne_nil _ _) hpieces]

/-- **To fill a name in** is to join the pieces by it. -/
theorem fillIn_eq_intercalate_cut (name text : List Char) :
    fillIn name text = name.intercalate (cut text) := by
  induction text using pass_induction with
  | nil => rfl
  | fill rest ih =>
    obtain ⟨piece, pieces, hcut, -⟩ := exists_cut_eq_cons rest
    rw [fillIn_fill, ih, cut_fill, hcut, List.intercalate_cons_cons, List.nil_append]
  | keep c rest hne ih =>
    obtain ⟨piece, pieces, hcut, -⟩ := exists_cut_eq_cons rest
    rw [fillIn_keep hne, ih, cut_keep hne, hcut, List.modifyHead_cons]
    cases pieces with
    | nil => rw [List.intercalate_singleton, List.intercalate_singleton]
    | cons next pieces => rw [List.intercalate_cons_cons, List.intercalate_cons_cons]; rfl

/-! ### Texts -/

/-- **The pieces of a text**: joined by placeholders they are the text, and no placeholder is in any
of them. -/
structure Pieces (text : String) (pieces : List String) : Prop where
  ne_nil : pieces ≠ []
  free : ∀ piece ∈ pieces, ¬ placeholder <:+: piece.toList
  intercalate_eq : (String.ofList placeholder).intercalate pieces = text

/-- Addressing the placeholder leaves a text as it was written. -/
theorem address_placeholder (text : String) : address (String.ofList placeholder) text = text := by
  rw [address, String.toList_ofList, fillIn_placeholder, String.ofList_toList]

theorem cut_toList_of_pieces {text : String} {pieces : List String} (h : Pieces text pieces) :
    cut text.toList = pieces.map String.toList := by
  rw [← h.intercalate_eq, String.toList_intercalate, String.toList_ofList]
  apply cut_intercalate
  · exact fun hnil => h.ne_nil (List.map_eq_nil_iff.1 hnil)
  · exact List.forall_mem_map.2 h.free

theorem toList_address (name text : String) :
    (address name text).toList = name.toList.intercalate (cut text.toList) := by
  rw [address, String.toList_ofList, fillIn_eq_intercalate_cut]

/-- **A text that addresses somebody** has the name between its pieces. -/
theorem address_of_pieces {text : String} {pieces : List String} (h : Pieces text pieces)
    (name : String) : address name text = name.intercalate pieces := by
  apply String.toList_injective
  rw [toList_address, cut_toList_of_pieces h, String.toList_intercalate]

theorem map_toList_map_ofList (pieces : List (List Char)) :
    (pieces.map String.ofList).map String.toList = pieces := by
  simp [Function.comp_def]

/-- **Every text has its pieces**, and no others. -/
theorem existsUnique_pieces (text : String) : ∃! pieces, Pieces text pieces := by
  have hback := map_toList_map_ofList (cut text.toList)
  refine ⟨(cut text.toList).map String.ofList, ⟨?_, ?_, ?_⟩, ?_⟩
  · obtain ⟨piece, pieces, hcut, -⟩ := exists_cut_eq_cons text.toList
    rw [hcut]
    exact List.cons_ne_nil _ _
  · intro piece hpiece
    refine free_of_mem_cut (?_ : piece.toList ∈ cut text.toList)
    rw [← hback]
    exact List.mem_map_of_mem hpiece
  · apply String.toList_injective
    rw [String.toList_intercalate, hback, String.toList_ofList, ← fillIn_eq_intercalate_cut,
      fillIn_placeholder]
  · intro pieces h
    rw [cut_toList_of_pieces h, List.map_map]
    simp [Function.comp_def]

end Sidescroller.Text
