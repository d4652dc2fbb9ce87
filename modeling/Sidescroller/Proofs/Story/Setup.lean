import Sidescroller.Proofs.Story.Building

/-!
# Setting a story up

A script is set up for one student: the nodes become a graph, with the name put into their texts,
and the tables become chapters. The name goes into the texts and nowhere else. So whether this works
is a matter of the script alone, and so is the reason if it does not.

* `Outline.Fault`, `Script.chapters_cases` — what may be wrong with the tables;
* `Script.setUp_eq_error_iff` — the nodes are looked at first, then the tables;
* `Script.exists_setUp_iff` — what a script must be like;
* `Script.get?_of_setUp` — what becomes of a node;
* `setUp_exact` — all of it.
-/

namespace Sidescroller.Story

variable {script : Script} {student : String} {graph : Graph} {chapters : Chapters}
  {error : SetupError} {node : Node}

/-! ### The tables -/

/-- **What is wrong with the tables** of a script: there is no milestone, or the labels are not one
fewer. -/
def Outline.Fault (outline : Outline) (error : SetupError) : Prop :=
  outline.milestones = [] ∧ error = .noMilestones ∨
    outline.milestones ≠ [] ∧ outline.labels.length + 1 ≠ outline.milestones.length ∧
      error = .labelCount outline.labels.length outline.milestones.length

namespace Script

/-- The tables are accepted as they are, or something is wrong with them. -/
theorem chapters_cases (script : Script) :
    (∃ chapters, script.chapters = .ok chapters ∧ script.outline.milestones ≠ [] ∧
      script.outline.labels.length + 1 = script.outline.milestones.length ∧
      chapters.objectives = script.outline.objectives ∧
      chapters.fallback = script.outline.fallbackObjective) ∨
    ∃ error, script.chapters = .error error ∧ script.outline.Fault error := by
  unfold Script.chapters Chapters.ofTables
  dsimp only
  by_cases hempty : script.outline.milestones = []
  · refine Or.inr ⟨.noMilestones, ?_, Or.inl ⟨hempty, rfl⟩⟩
    rw [if_pos (List.isEmpty_iff.2 hempty)]
    rfl
  · rw [if_neg fun h => hempty (List.isEmpty_iff.1 h)]
    by_cases hlength : script.outline.labels.length + 1 = script.outline.milestones.length
    · rw [dif_pos hlength]
      exact Or.inl ⟨_, rfl, hempty, hlength, rfl, rfl⟩
    · rw [dif_neg hlength]
      exact Or.inr ⟨_, rfl, Or.inr ⟨hempty, hlength, rfl⟩⟩

theorem chapters_eq_error_iff : script.chapters = .error error ↔ script.outline.Fault error := by
  rcases script.chapters_cases with ⟨chapters, hok, hne, hlength, -⟩ | ⟨other, herror, hfault⟩
  · rw [hok]
    refine iff_of_false nofun ?_
    rintro (⟨hempty, -⟩ | ⟨-, hcount, -⟩)
    · exact hne hempty
    · exact hcount hlength
  · rw [herror, Except.error.injEq]
    constructor
    · rintro rfl
      exact hfault
    · -- there is one thing wrong at a time
      rcases hfault with ⟨hempty, rfl⟩ | ⟨hne, -, rfl⟩
      · rintro (⟨-, rfl⟩ | ⟨hne, -⟩)
        · rfl
        · exact absurd hempty hne
      · rintro (⟨hempty, -⟩ | ⟨-, -, rfl⟩)
        · exact absurd hempty hne
        · rfl

theorem exists_chapters_iff :
    (∃ chapters, script.chapters = .ok chapters) ↔
      script.outline.milestones ≠ [] ∧
        script.outline.labels.length + 1 = script.outline.milestones.length := by
  rcases script.chapters_cases with ⟨chapters, hok, hne, hlength, -⟩ | ⟨error, herror, hfault⟩
  · exact iff_of_true ⟨chapters, hok⟩ ⟨hne, hlength⟩
  · refine iff_of_false ?_ ?_
    · rintro ⟨chapters, hok⟩
      cases hok.symm.trans herror
    · rintro ⟨hne, hlength⟩
      rcases hfault with ⟨hempty, -⟩ | ⟨-, hcount, -⟩
      · exact hne hempty
      · exact hcount hlength

/-! ### The nodes -/

theorem map_id_nodesFor (script : Script) (student : String) :
    (script.nodesFor student).map Node.id = script.nodes.map Node.id := by
  rw [nodesFor_eq, Graph.map_id_reword]

/-- The name does not matter to what is wrong with the nodes. -/
theorem ofNodes_nodesFor_eq_error_iff (script : Script) (student : String) :
    Graph.ofNodes (script.nodesFor student) = .error error ↔
      Graph.ofNodes script.nodes = .error error := by
  rw [nodesFor_eq, Graph.ofNodes_map_reword]
  cases Graph.ofNodes script.nodes with
  | error other => rfl
  | ok graph => exact iff_of_false nofun nofun

/-! ### Both -/

theorem setUp_of_error (h : Graph.ofNodes (script.nodesFor student) = .error error) :
    script.setUp student = .error error := by
  unfold setUp
  rw [h]
  rfl

theorem setUp_of_graph (h : Graph.ofNodes (script.nodesFor student) = .ok graph) :
    script.setUp student = script.chapters.map (graph, ·) := by
  unfold setUp
  rw [h]
  cases script.chapters <;> rfl

/-- **The nodes come first**: a fault of the tables is told only if they are in order. -/
theorem setUp_eq_error_iff :
    script.setUp student = .error error ↔
      (∃ node, Graph.FirstRepeat script.nodes node ∧ error = .duplicateNode node.id) ∨
        (script.nodes.map Node.id).Nodup ∧ script.outline.Fault error := by
  rw [← Graph.ofNodes_eq_error_iff, ← ofNodes_nodesFor_eq_error_iff script student,
    ← map_id_nodesFor script student, ← Graph.exists_ofNodes_iff, ← chapters_eq_error_iff]
  cases hgraph : Graph.ofNodes (script.nodesFor student) with
  | error other =>
    rw [setUp_of_error hgraph]
    simp
  | ok graph =>
    rw [setUp_of_graph hgraph]
    cases script.chapters with
    | error other => simp [Except.map]
    | ok chapters => simp [Except.map]

/-- **What a script must be like** to be set up: its nodes have different ids, there is a milestone,
and the labels are one fewer than the milestones. -/
theorem exists_setUp_iff :
    (∃ graph chapters, script.setUp student = .ok (graph, chapters)) ↔
      (script.nodes.map Node.id).Nodup ∧ script.outline.milestones ≠ [] ∧
        script.outline.labels.length + 1 = script.outline.milestones.length := by
  rw [← map_id_nodesFor script student, ← Graph.exists_ofNodes_iff, ← exists_chapters_iff]
  constructor
  · rintro ⟨graph, chapters, h⟩
    obtain ⟨hgraph, hchapters⟩ := parts_of_setUp h
    exact ⟨⟨graph, hgraph⟩, chapters, hchapters⟩
  · rintro ⟨⟨graph, hgraph⟩, chapters, hchapters⟩
    refine ⟨graph, chapters, ?_⟩
    rw [setUp_of_graph hgraph, hchapters]
    rfl

theorem nodes_of_setUp (h : script.setUp student = .ok (graph, chapters)) :
    graph.nodes = script.nodes.map (Node.reword (Text.address student)) :=
  Graph.nodes_of_ofNodes (parts_of_setUp h).1

/-- **A node** is found under its id, with the name in its text and otherwise as it was written. -/
theorem get?_of_setUp (h : script.setUp student = .ok (graph, chapters))
    (hnode : node ∈ script.nodes) :
    graph.get? node.id = some { node with text := Text.address student node.text } := by
  rw [Graph.get?_eq_some_iff, nodes_of_setUp h]
  exact ⟨List.mem_map_of_mem hnode, rfl⟩

/-- What is to do in a chapter comes from the script as well. -/
theorem objectives_of_setUp (h : script.setUp student = .ok (graph, chapters)) :
    chapters.objectives = script.outline.objectives ∧
      chapters.fallback = script.outline.fallbackObjective := by
  obtain ⟨-, hchapters⟩ := parts_of_setUp h
  rcases script.chapters_cases with ⟨other, hok, -, -, htexts⟩ | ⟨error, herror, -⟩
  · obtain rfl := Except.ok.inj (hok.symm.trans hchapters)
    exact htexts
  · cases herror.symm.trans hchapters

/-- **Setting a story up changes the texts and nothing else.** It works exactly if the ids of the
nodes are different, there is a milestone, and the labels are one fewer than the milestones, whoever
the student is. Otherwise the error names the first id that is repeated, and only if there is none
it tells what is wrong with the tables. The graph has the nodes of the script under their ids and no
others, and they are as they were written but for their texts: between the pieces of a text, which
are determined by it, there is the name where a placeholder was. The name is not looked at, so for a
student who is called like the placeholder the nodes are as they were written altogether. The
chapters have the tables and texts of the script. -/
theorem setUp_exact (script : Script) (student : String) :
    ((∃ graph chapters, script.setUp student = .ok (graph, chapters)) ↔
      (script.nodes.map Node.id).Nodup ∧ script.outline.milestones ≠ [] ∧
        script.outline.labels.length + 1 = script.outline.milestones.length) ∧
    (∀ error, script.setUp student = .error error ↔
      (∃ node, Graph.FirstRepeat script.nodes node ∧ error = .duplicateNode node.id) ∨
        (script.nodes.map Node.id).Nodup ∧ script.outline.Fault error) ∧
    (∀ text, ∃! pieces, Text.Pieces text pieces) ∧
    ∀ graph chapters, script.setUp student = .ok (graph, chapters) →
      graph.size = script.nodes.length ∧
      (∀ id, graph.contains id = true ↔ id ∈ script.nodes.map Node.id) ∧
      (∀ node ∈ script.nodes, ∃ told,
        graph.get? node.id = some told ∧ told = { node with text := told.text } ∧
        (∀ pieces, Text.Pieces node.text pieces → told.text = student.intercalate pieces) ∧
        (student = String.ofList Text.placeholder → told = node)) ∧
      chapters.current = script.outline.initial ∧
      chapters.milestones = script.outline.milestones ∧
      chapters.labels = script.outline.labels ∧
      chapters.objectives = script.outline.objectives ∧
      chapters.fallback = script.outline.fallbackObjective := by
  refine ⟨exists_setUp_iff, fun _ => setUp_eq_error_iff, Text.existsUnique_pieces, ?_⟩
  intro graph chapters h
  have hnodes := nodes_of_setUp h
  obtain ⟨hinitial, hmilestones, hlabels⟩ := tables_of_setUp h
  obtain ⟨hobjectives, hfallback⟩ := objectives_of_setUp h
  refine ⟨?_, ?_, ?_, hinitial, hmilestones, hlabels, hobjectives, hfallback⟩
  · rw [Graph.size, hnodes, List.length_map]
  · intro id
    rw [Graph.contains_iff_mem_ids, hnodes, Graph.map_id_reword]
  · intro node hnode
    refine ⟨_, get?_of_setUp h hnode, rfl, ?_, ?_⟩
    · intro pieces hpieces
      exact Text.address_of_pieces hpieces student
    · rintro rfl
      rw [Text.address_placeholder]

/-- A name that is itself full of braces is put in twice, and not looked at. -/
theorem setUp_exact_braces :
    let name := String.ofList Text.placeholder
    let gate : Node := { id := "gate", speaker := "Guard", text := "Hail, " ++ name ++ name ++ "!" }
    let script : Script := { outline := ⟨"outside", ["gate"], [], [], ""⟩, nodes := [gate] }
    ∃ graph chapters, script.setUp ("\x7b" ++ name ++ "\x7d") = .ok (graph, chapters) ∧
      Text.Pieces gate.text ["Hail, ", "", "!"] ∧
      (graph.get? "gate").map Node.text =
        some ("Hail, " ++ ("\x7b" ++ name ++ "\x7d") ++ ("\x7b" ++ name ++ "\x7d") ++ "!") := by
  intro name gate script
  obtain ⟨hworks, -, -, htold⟩ := setUp_exact script ("\x7b" ++ name ++ "\x7d")
  obtain ⟨graph, chapters, h⟩ := hworks.2 (by decide)
  obtain ⟨-, -, hnodes, -⟩ := htold graph chapters h
  obtain ⟨told, hget, -, htext, -⟩ := hnodes gate List.mem_cons_self
  have hpieces : Text.Pieces gate.text ["Hail, ", "", "!"] := ⟨by decide, by decide, by decide⟩
  refine ⟨graph, chapters, h, hpieces, ?_⟩
  have hgate : graph.get? "gate" = some told := hget
  rw [hgate, Option.map_some, htext _ hpieces]
  decide

end Script

end Sidescroller.Story
