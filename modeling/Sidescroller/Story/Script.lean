import Sidescroller.Story.Chapters
import Sidescroller.Story.Graph
import Sidescroller.Text

/-!
# Scripts

A script is a story as it was written: the nodes, with a placeholder where the student is addressed,
and the tables that chapters are made from. `Script.setUp` makes the graph and the chapters of one
student from it.
-/

namespace Sidescroller.Story

/-- The chapter tables of a script. -/
structure Outline where
  initial : String
  /-- The ids that move a playthrough on. -/
  milestones : List String
  /-- The chapters they lead to. -/
  labels : List String
  /-- What to do in a chapter. -/
  objectives : List (String × String) := []
  /-- What to do in a chapter that says nothing about it. -/
  fallbackObjective : String := ""
  deriving DecidableEq, Inhabited

/-- A story as it was written. -/
structure Script where
  outline : Outline
  nodes : List Node := []
  deriving DecidableEq, Inhabited

namespace Script

/-- The nodes for one student: the name is put into the texts, and nowhere else. -/
def nodesFor (script : Script) (student : String) : List Node :=
  script.nodes.map fun node => { node with text := Text.address student node.text }

/-- The chapters of the script. -/
def chapters (script : Script) : Except SetupError Chapters := do
  let outline := script.outline
  let chapters ← Chapters.ofTables outline.initial outline.milestones outline.labels
  return chapters.withObjectives outline.objectives outline.fallbackObjective

/-- The graph and the chapters for one student. A fault of the nodes is reported before one of the
chapter tables. -/
def setUp (script : Script) (student : String) : Except SetupError (Graph × Chapters) := do
  let graph ← Graph.ofNodes (script.nodesFor student)
  let chapters ← script.chapters
  return (graph, chapters)

end Script

end Sidescroller.Story
