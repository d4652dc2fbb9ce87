import Mathlib.Data.Nat.Find
import Sidescroller.Proofs.Story.Chapters

/-!
# Milestones and the chapters they are declared for

The tables declare a chapter for each position: a milestone with a label leads to the label, and the
last one to the epilogue. A completed node is looked up by its id, though, and not by a position. So
a milestone that is listed twice leads to the chapter of its first position. The chapter of the
other position is attained only if the tables declare the same one there, or if another milestone
leads to it. Nothing keeps a milestone from being listed twice; where none is, every declaration
holds.

* `Declares` — the chapter of a position; `FirstAt` — the first position of a milestone;
* `Attains` — a milestone leads to a chapter, and nothing else changes;
* `attains_of_firstAt` — it leads to the chapter of its first position;
* `current_record_cases` — so the other chapters are never reached, however a playthrough goes;
* `attains_declared_iff` — which declarations hold.
-/

namespace Sidescroller.Story.Chapters

variable {chapters : Chapters} {n : Nat} {id chapter : String}

/-! ### Positions -/

/-- **The chapter of a position**: its label, and at the last position, which has none, the
epilogue. -/
def Declares (chapters : Chapters) (n : Nat) (chapter : String) : Prop :=
  n + 1 < chapters.milestones.length ∧ chapters.labels[n]? = some chapter ∨
    n + 1 = chapters.milestones.length ∧ chapter = epilogue

/-- **The first position** of a milestone. -/
def FirstAt (chapters : Chapters) (n : Nat) (id : String) : Prop :=
  chapters.milestones[n]? = some id ∧ ∀ m < n, chapters.milestones[m]? ≠ some id

instance (chapters : Chapters) (n : Nat) (chapter : String) :
    Decidable (chapters.Declares n chapter) := inferInstanceAs (Decidable (_ ∨ _))

instance (chapters : Chapters) (n : Nat) (id : String) : Decidable (chapters.FirstAt n id) :=
  inferInstanceAs (Decidable (_ ∧ _))

theorem declares_iff (h : n < chapters.milestones.length) :
    chapters.Declares n chapter ↔ chapters.labels[n]?.getD epilogue = chapter := by
  have hlength := chapters.length_labels
  unfold Declares
  by_cases hlast : n + 1 = chapters.milestones.length
  · -- the labels end before the last position
    have hnone : chapters.labels[n]? = none := List.getElem?_eq_none (by omega)
    simp [hlast, hnone, eq_comm]
  · have hlabel : n < chapters.labels.length := by omega
    have hlt : n + 1 < chapters.milestones.length := by omega
    simp [hlast, hlt, List.getElem?_eq_getElem hlabel]

theorem exists_declares (h : n < chapters.milestones.length) :
    ∃ chapter, chapters.Declares n chapter :=
  ⟨_, (declares_iff h).2 rfl⟩

theorem lt_of_getElem? (h : chapters.milestones[n]? = some id) :
    n < chapters.milestones.length :=
  (List.getElem?_eq_some_iff.1 h).1

/-- A position declares one chapter. -/
theorem Declares.unique {other : String} (h : chapters.Declares n chapter)
    (h' : chapters.Declares n other) : chapter = other := by
  have hn : n < chapters.milestones.length := by
    rcases h with ⟨hlt, -⟩ | ⟨heq, -⟩ <;> omega
  exact ((declares_iff hn).1 h).symm.trans ((declares_iff hn).1 h')

theorem FirstAt.unique {m : Nat} (h : chapters.FirstAt n id) (h' : chapters.FirstAt m id) :
    n = m := by
  rcases Nat.lt_trichotomy n m with hlt | heq | hlt
  · exact absurd h.1 (h'.2 n hlt)
  · exact heq
  · exact absurd h'.1 (h.2 m hlt)

theorem exists_firstAt (h : chapters.milestones[n]? = some id) :
    ∃ m ≤ n, chapters.FirstAt m id := by
  have hlisted : ∃ m, chapters.milestones[m]? = some id := ⟨n, h⟩
  exact ⟨Nat.find hlisted, Nat.find_min' hlisted h, Nat.find_spec hlisted,
    fun _ => Nat.find_min hlisted⟩

/-- A milestone has a first position, and a chapter is declared for it. -/
theorem exists_first (h : id ∈ chapters.milestones) :
    ∃ n chapter, chapters.FirstAt n id ∧ chapters.Declares n chapter := by
  obtain ⟨position, hposition⟩ := List.mem_iff_getElem?.1 h
  obtain ⟨n, -, hfirst⟩ := exists_firstAt hposition
  obtain ⟨chapter, hchapter⟩ := exists_declares (lt_of_getElem? hfirst.1)
  exact ⟨n, chapter, hfirst, hchapter⟩

/-- Where no milestone is listed twice, every position is the first one. -/
theorem firstAt_of_nodup (hnodup : chapters.milestones.Nodup)
    (h : chapters.milestones[n]? = some id) : chapters.FirstAt n id := by
  refine ⟨h, ?_⟩
  intro m hm hid
  have heq : m = n := (List.getElem?_inj (lt_of_getElem? hid) hnodup).1 (hid.trans h.symm)
  omega

/-! ### One milestone -/

/-- **A milestone attains a chapter**: it is returned and becomes the current one, and nothing else
changes. -/
def Attains (chapters : Chapters) (id chapter : String) : Prop :=
  chapters.advance id = ({ chapters with current := chapter }, some chapter)

theorem advance_of_not_mem (h : id ∉ chapters.milestones) :
    chapters.advance id = (chapters, none) := by
  unfold advance
  rw [chapterAfter?_eq_none_iff.2 h]

/-- **A milestone** leads to the chapter of its first position. -/
theorem attains_of_firstAt (h : chapters.FirstAt n id) (hchapter : chapters.Declares n chapter) :
    chapters.Attains id chapter := by
  unfold Attains advance
  rw [chapterAfter?_of_first h.1 h.2, (declares_iff (lt_of_getElem? h.1)).1 hchapter]

theorem Attains.unique {other : String} (h : chapters.Attains id chapter)
    (h' : chapters.Attains id other) : chapter = other :=
  Option.some.inj (congrArg Prod.snd (h.symm.trans h'))

theorem attains_iff :
    chapters.Attains id chapter ↔ ∃ n, chapters.FirstAt n id ∧ chapters.Declares n chapter := by
  constructor
  · intro hattains
    have hmem : id ∈ chapters.milestones := by
      apply Classical.byContradiction
      intro hnot
      have hanswer := congrArg Prod.snd (hattains.symm.trans (advance_of_not_mem hnot))
      cases hanswer
    obtain ⟨n, first, hfirst, hdeclared⟩ := exists_first hmem
    obtain rfl := hattains.unique (attains_of_firstAt hfirst hdeclared)
    exact ⟨n, hfirst, hdeclared⟩
  · rintro ⟨n, hfirst, hdeclared⟩
    exact attains_of_firstAt hfirst hdeclared

/-! ### A playthrough -/

/-- What is recorded moves the chapter, and leaves the tables. -/
theorem record_eq (chapters : Chapters) (ids : List String) :
    chapters.record ids = { chapters with current := (chapters.record ids).current } := by
  induction ids generalizing chapters with
  | nil => rfl
  | cons id ids ih =>
    rw [record_cons, ih, advance_fst]

theorem declares_record (ids : List String) :
    (chapters.record ids).Declares n chapter ↔ chapters.Declares n chapter := by
  rw [record_eq]
  rfl

theorem firstAt_record (ids : List String) :
    (chapters.record ids).FirstAt n id ↔ chapters.FirstAt n id := by
  rw [record_eq]
  rfl

/-- What a milestone leads to is a matter of the tables alone. -/
theorem attains_record {ids : List String} :
    (chapters.record ids).Attains id chapter ↔ chapters.Attains id chapter := by
  simp only [attains_iff, firstAt_record, declares_record]

theorem current_advance_cases (chapters : Chapters) (id : String) :
    (chapters.advance id).1.current = chapters.current ∨
      ∃ n, chapters.FirstAt n id ∧ chapters.Declares n (chapters.advance id).1.current := by
  by_cases hmem : id ∈ chapters.milestones
  · obtain ⟨n, chapter, hfirst, hchapter⟩ := exists_first hmem
    rw [attains_of_firstAt hfirst hchapter]
    exact Or.inr ⟨n, hfirst, hchapter⟩
  · rw [advance_of_not_mem hmem]
    exact Or.inl rfl

/-- **Whatever is recorded**, the chapter is the one of the beginning or one that is declared for
the first position of a milestone. -/
theorem current_record_cases (chapters : Chapters) (ids : List String) :
    (chapters.record ids).current = chapters.current ∨
      ∃ n id, chapters.FirstAt n id ∧ chapters.Declares n (chapters.record ids).current := by
  induction ids generalizing chapters with
  | nil => exact Or.inl rfl
  | cons id ids ih =>
    -- the first record leaves the tables, so that positions are what they were
    have htables (n : Nat) (other chapter : String) :
        ((chapters.advance id).1.FirstAt n other ↔ chapters.FirstAt n other) ∧
          ((chapters.advance id).1.Declares n chapter ↔ chapters.Declares n chapter) :=
      ⟨firstAt_record [id], declares_record [id]⟩
    rw [record_cons]
    rcases ih (chapters.advance id).1 with hsame | ⟨n, other, hfirst, hchapter⟩
    · rw [hsame]
      exact (chapters.current_advance_cases id).imp_right fun ⟨n, h⟩ => ⟨n, id, h⟩
    · exact Or.inr ⟨n, other, (htables n other "").1.1 hfirst, (htables n other _).2.1 hchapter⟩

/-! ### Which declarations hold -/

/-- **The tables agree with themselves**: for a milestone that is listed several times they declare
one chapter. -/
def Consistent (chapters : Chapters) : Prop :=
  ∀ m n id first chapter, chapters.milestones[m]? = some id → chapters.milestones[n]? = some id →
    chapters.Declares m first → chapters.Declares n chapter → first = chapter

theorem consistent_of_nodup (h : chapters.milestones.Nodup) : chapters.Consistent := by
  intro m n id first chapter hm hn hfirst hchapter
  obtain rfl := (firstAt_of_nodup h hm).unique (firstAt_of_nodup h hn)
  exact hfirst.unique hchapter

theorem forall_attains_iff :
    (∀ n id chapter, chapters.milestones[n]? = some id → chapters.Declares n chapter →
      chapters.Attains id chapter) ↔ chapters.Consistent := by
  constructor
  · intro hall m n id first chapter hm hn hfirst hchapter
    exact (hall m id first hm hfirst).unique (hall n id chapter hn hchapter)
  · intro hconsistent n id chapter hn hchapter
    obtain ⟨m, first, hfirst, hdeclared⟩ := exists_first (List.mem_of_getElem? hn)
    obtain rfl := hconsistent m n id first chapter hfirst.1 hn hdeclared hchapter
    exact attains_of_firstAt hfirst hdeclared

/-- **Which declarations hold.** In whatever state recording has brought the chapters of accepted
tables, an id that is no milestone leaves them as they are and nothing is returned. For every
position of a milestone the tables declare a chapter, but it is the chapter declared for its first
position that the milestone returns and sets; so the declaration for the other position holds
exactly if both declare the same chapter. All declarations hold exactly if the tables agree with
themselves, as they do if no milestone is listed twice. A chapter that is not declared for a first
position is never reached, unless it is the one of the beginning. -/
theorem attains_declared_iff {initial : String} {milestones labels : List String}
    (h : ofTables initial milestones labels = .ok chapters) (ids : List String) :
    let reached := chapters.record ids
    (∀ id, id ∉ milestones → reached.advance id = (reached, none)) ∧
    (∀ n id, milestones[n]? = some id →
      ∃ m first chapter, m ≤ n ∧ chapters.FirstAt m id ∧ chapters.Declares m first ∧
        chapters.Declares n chapter ∧ reached.Attains id first ∧
        (reached.Attains id chapter ↔ first = chapter)) ∧
    ((∀ n id chapter, milestones[n]? = some id → chapters.Declares n chapter →
      reached.Attains id chapter) ↔ chapters.Consistent) ∧
    (milestones.Nodup → chapters.Consistent) ∧
    (reached.current = initial ∨
      ∃ n id, chapters.FirstAt n id ∧ chapters.Declares n reached.current) := by
  obtain ⟨rfl, rfl, rfl⟩ := tables_of_ofTables h
  intro reached
  refine ⟨?_, ?_, ?_, consistent_of_nodup, chapters.current_record_cases ids⟩
  · intro id hid
    apply advance_of_not_mem
    rwa [(chapters.tables_record ids).1]
  · intro n id hn
    obtain ⟨m, hle, hfirst⟩ := exists_firstAt hn
    obtain ⟨first, hdeclared⟩ := exists_declares (lt_of_getElem? hfirst.1)
    obtain ⟨chapter, hchapter⟩ := exists_declares (lt_of_getElem? hn)
    have hattains : reached.Attains id first :=
      attains_record.2 (attains_of_firstAt hfirst hdeclared)
    refine ⟨m, first, chapter, hle, hfirst, hdeclared, hchapter, hattains, ?_⟩
    exact ⟨hattains.unique, fun heq => heq ▸ hattains⟩
  · simp only [reached, attains_record, forall_attains_iff]

/-- The gate leads inside, although it is listed again as the last milestone. -/
theorem attains_declared_iff_gate :
    ∃ chapters,
      ofTables "outside" ["gate", "hall", "gate"] ["inside", "upstairs"] = .ok chapters ∧
        chapters.Declares 2 epilogue ∧
        (chapters.record ["gate", "hall"]).Attains "gate" "inside" ∧
        ¬ (chapters.record ["gate", "hall"]).Attains "gate" epilogue ∧
        (chapters.record ["gate", "hall"]).advance "attic" =
          (chapters.record ["gate", "hall"], none) := by
  have h : ∃ chapters, ofTables "outside" ["gate", "hall", "gate"] ["inside", "upstairs"] =
      .ok chapters := ⟨_, rfl⟩
  obtain ⟨chapters, hchapters⟩ := h
  obtain ⟨hothers, hmilestones, -⟩ := attains_declared_iff hchapters ["gate", "hall"]
  obtain ⟨m, first, chapter, -, hfirst, hdeclared, hchapter, hattains, hiff⟩ :=
    hmilestones 2 "gate" rfl
  have hstart : chapters.FirstAt 0 "gate" ∧ chapters.Declares 0 "inside" ∧
      chapters.Declares 2 epilogue := by
    cases hchapters
    decide
  obtain ⟨hgate, hinside, hepilogue⟩ := hstart
  obtain rfl := hfirst.unique hgate
  obtain rfl := hdeclared.unique hinside
  obtain rfl := hchapter.unique hepilogue
  have hmissed : ¬ (chapters.record ["gate", "hall"]).Attains "gate" epilogue :=
    fun hepilogue => absurd (hiff.1 hepilogue) (by decide)
  exact ⟨chapters, hchapters, hepilogue, hattains, hmissed, hothers "attic" (by decide)⟩

/-- **The epilogue is missed.** The gate is the last milestone, and when it is completed it leads
inside. However a playthrough goes, it never gets to the epilogue. -/
theorem epilogue_never_reached :
    ∃ chapters,
      ofTables "outside" ["gate", "hall", "gate"] ["inside", "upstairs"] = .ok chapters ∧
        chapters.milestones[2]? = some "gate" ∧ chapters.Declares 2 epilogue ∧
        ((chapters.record ["gate", "hall"]).advance "gate").2 = some "inside" ∧
        ∀ ids, (chapters.record ids).current ≠ epilogue := by
  refine ⟨⟨["gate", "hall", "gate"], ["inside", "upstairs"], "outside", [], "", rfl⟩, rfl, rfl,
    by decide, by decide, ?_⟩
  generalize hchapters : (Chapters.mk _ _ _ _ _ _) = chapters
  intro ids hcurrent
  rcases chapters.current_record_cases ids with hstart | ⟨n, id, hfirst, hdeclared⟩
  · rw [hcurrent, ← hchapters] at hstart
    exact absurd hstart (by decide)
  · -- the position of the epilogue is not the first one of the gate
    have hearlier : ∀ n < chapters.milestones.length, chapters.Declares n epilogue →
        ∃ m < n, chapters.milestones[m]? = chapters.milestones[n]? := by
      rw [← hchapters]
      decide
    rw [hcurrent] at hdeclared
    obtain ⟨m, hm, hsame⟩ := hearlier n (lt_of_getElem? hfirst.1) hdeclared
    exact hfirst.2 m hm (hsame.trans hfirst.1)

end Sidescroller.Story.Chapters
