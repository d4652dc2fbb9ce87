import Sidescroller.Story.Graph

/-!
# Chapters

A playthrough is in a chapter. It moves on when a milestone, one of a list of node ids, is
completed: the milestone at a position leads to the chapter label at that position, and the last
milestone, which has no label, to the epilogue.

`Chapters.ofTables` accepts the two lists only if there is one milestone more than labels.
-/

namespace Sidescroller.Story

/-- The chapter of a playthrough, and how it moves on. -/
structure Chapters where
  /-- The ids that move the playthrough on. -/
  milestones : List String
  /-- The chapters they lead to. -/
  labels : List String
  current : String
  /-- What to do in a chapter. -/
  objectives : List (String × String)
  /-- What to do in a chapter that says nothing about it. -/
  fallback : String
  /-- Every milestone but the last has a label. -/
  length_labels : labels.length + 1 = milestones.length

namespace Chapters

/-- The chapter after the last milestone. -/
def epilogue : String := "epilogue"

/-- Chapters that start with `initial` and say nothing about what to do. -/
def ofTables (initial : String) (milestones labels : List String) : Except SetupError Chapters :=
  if milestones.isEmpty then .error .noMilestones
  else if h : labels.length + 1 = milestones.length then
    .ok ⟨milestones, labels, initial, [], "", h⟩
  else .error (.labelCount labels.length milestones.length)

/-- The chapters with other objectives. -/
def withObjectives (chapters : Chapters) (objectives : List (String × String))
    (fallback : String) : Chapters :=
  { chapters with objectives, fallback }

/-- What to do now. -/
def objective (chapters : Chapters) : String :=
  (chapters.objectives.lookup chapters.current).getD chapters.fallback

/-- The chapter that completing a node leads to, if the node is a milestone. Of a milestone that is
listed twice, the first position counts. -/
def chapterAfter? (chapters : Chapters) (id : String) : Option String :=
  (chapters.milestones.idxOf? id).map fun position => chapters.labels[position]?.getD epilogue

/-- Records a completed node. Returns the chapter it leads to, if it is a milestone. -/
def advance (chapters : Chapters) (id : String) : Chapters × Option String :=
  match chapters.chapterAfter? id with
  | none => (chapters, none)
  | some next => ({ chapters with current := next }, some next)

/-- Records completed nodes, one after the other. -/
def record (chapters : Chapters) (ids : List String) : Chapters :=
  ids.foldl (fun chapters id => (chapters.advance id).1) chapters

/-- A change of the chapter, and the milestone that made it. -/
structure Turn where
  before : String
  after : String
  /-- The milestone. -/
  milestone : String
  deriving DecidableEq

/-- The changes of the chapter while completed nodes are recorded. -/
def turns (chapters : Chapters) : List String → List Turn
  | [] => []
  | id :: ids =>
    let (next, chapter?) := chapters.advance id
    let rest := next.turns ids
    match chapter? with
    | none => rest
    | some chapter =>
      if chapter = chapters.current then rest else ⟨chapters.current, chapter, id⟩ :: rest

end Chapters

end Sidescroller.Story
