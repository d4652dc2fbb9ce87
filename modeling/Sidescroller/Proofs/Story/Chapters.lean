import Mathlib.Tactic.SplitIfs
import Sidescroller.Story.Script

/-!
# Chapters and milestones

Recording completed nodes moves the chapter and nothing else, so the tables of a script are the
tables of a playthrough for good, and the last milestone of a log decides the chapter.

* `Script.tables_of_setUp` — the tables come from the outline of the script;
* `Chapters.chapterAfter?_of_first` — what a milestone leads to, by its first position;
* `Chapters.current_record` — the chapter after a log with a last milestone;
* `Chapters.current_record_of_forall_not_mem` — and after a log with none.
-/

namespace Sidescroller.Story

namespace Chapters

variable {chapters : Chapters} {id : String}

theorem advance_fst (chapters : Chapters) (id : String) :
    (chapters.advance id).1 =
      { chapters with current := (chapters.chapterAfter? id).getD chapters.current } := by
  unfold advance
  cases chapters.chapterAfter? id <;> rfl

theorem record_cons (chapters : Chapters) (id : String) (ids : List String) :
    chapters.record (id :: ids) = (chapters.advance id).1.record ids := rfl

theorem record_append (chapters : Chapters) (ids ids' : List String) :
    chapters.record (ids ++ ids') = (chapters.record ids).record ids' :=
  List.foldl_append

/-- Only the chapter moves. -/
theorem tables_record (chapters : Chapters) (ids : List String) :
    (chapters.record ids).milestones = chapters.milestones ∧
      (chapters.record ids).labels = chapters.labels := by
  induction ids generalizing chapters with
  | nil => exact ⟨rfl, rfl⟩
  | cons id ids ih =>
    rw [record_cons, advance_fst]
    exact ih _

theorem chapterAfter?_eq_none_iff :
    chapters.chapterAfter? id = none ↔ id ∉ chapters.milestones := by
  unfold chapterAfter?
  rw [Option.map_eq_none_iff, List.idxOf?_eq_none_iff]

/-- What a milestone leads to depends on the tables alone. -/
theorem chapterAfter?_record (chapters : Chapters) (ids : List String) (id : String) :
    (chapters.record ids).chapterAfter? id = chapters.chapterAfter? id := by
  obtain ⟨hmilestones, hlabels⟩ := chapters.tables_record ids
  unfold chapterAfter?
  rw [hmilestones, hlabels]

/-- A milestone leads to the label at its first position. The last position has none. -/
theorem chapterAfter?_of_first {p : Nat} (h : chapters.milestones[p]? = some id)
    (hfirst : ∀ q < p, chapters.milestones[q]? ≠ some id) :
    chapters.chapterAfter? id = some (chapters.labels[p]?.getD epilogue) := by
  obtain ⟨hp, hid⟩ := List.getElem?_eq_some_iff.1 h
  have hindex : chapters.milestones.idxOf? id = some p := by
    refine List.idxOf?_eq_some_iff.2 ⟨hp, hid, fun q hq heq => hfirst q hq ?_⟩
    exact List.getElem?_eq_some_iff.2 ⟨_, heq⟩
  rw [chapterAfter?, hindex, Option.map_some]

/-- **A log without milestones** leaves the chapter as it is. -/
theorem current_record_of_forall_not_mem {ids : List String}
    (h : ∀ id ∈ ids, id ∉ chapters.milestones) :
    (chapters.record ids).current = chapters.current := by
  induction ids generalizing chapters with
  | nil => rfl
  | cons id ids ih =>
    have hnone := chapterAfter?_eq_none_iff.2 (h id List.mem_cons_self)
    rw [record_cons, advance_fst, hnone]
    exact ih fun other hother => h other (List.mem_cons_of_mem _ hother)

/-- **The last milestone of a log** decides the chapter. -/
theorem current_record {before after : List String} {next : String}
    (hnext : chapters.chapterAfter? id = some next)
    (hafter : ∀ other ∈ after, other ∉ chapters.milestones) :
    (chapters.record (before ++ id :: after)).current = next := by
  -- nothing after the last milestone counts, and what came before is overwritten
  rw [record_append, record_cons, current_record_of_forall_not_mem]
  · rw [advance_fst, chapterAfter?_record, hnext, Option.getD_some]
  · -- the milestones are still the ones of the beginning
    rw [advance_fst]
    dsimp only
    rw [(chapters.tables_record before).1]
    exact hafter

theorem tables_of_ofTables {initial : String} {milestones labels : List String}
    (h : ofTables initial milestones labels = .ok chapters) :
    chapters.current = initial ∧ chapters.milestones = milestones ∧ chapters.labels = labels := by
  unfold ofTables at h
  split_ifs at h
  obtain rfl := Except.ok.inj h
  exact ⟨rfl, rfl, rfl⟩

end Chapters

namespace Script

variable {script : Script} {student : String} {graph : Graph} {chapters : Chapters}

/-- What is set up is the graph of the nodes, and the chapters. -/
theorem parts_of_setUp (h : script.setUp student = .ok (graph, chapters)) :
    Graph.ofNodes (script.nodesFor student) = .ok graph ∧ script.chapters = .ok chapters := by
  unfold setUp at h
  cases hgraph : Graph.ofNodes (script.nodesFor student) with
  | error error =>
    rw [hgraph] at h
    cases h
  | ok graph' =>
    rw [hgraph] at h
    cases hchapters : script.chapters with
    | error error =>
      rw [hchapters] at h
      cases h
    | ok chapters' =>
      rw [hchapters] at h
      cases h
      exact ⟨rfl, rfl⟩

/-- **A playthrough begins** in the first chapter of the script, with its tables. -/
theorem tables_of_setUp (h : script.setUp student = .ok (graph, chapters)) :
    chapters.current = script.outline.initial ∧
      chapters.milestones = script.outline.milestones ∧
      chapters.labels = script.outline.labels := by
  obtain ⟨-, hchapters⟩ := parts_of_setUp h
  unfold Script.chapters at hchapters
  cases htables : Chapters.ofTables script.outline.initial script.outline.milestones
      script.outline.labels with
  | error error =>
    simp only [htables] at hchapters
    cases hchapters
  | ok plain =>
    simp only [htables] at hchapters
    -- the objectives are put in afterwards
    obtain rfl := Except.ok.inj hchapters
    have hplain := Chapters.tables_of_ofTables htables
    exact hplain

end Script

end Sidescroller.Story
