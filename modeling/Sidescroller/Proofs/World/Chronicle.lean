import Sidescroller.Proofs.Story.Chapters
import Sidescroller.Proofs.World.Run

/-!
# The chapter and the closed conversations

The chapter is changed when a conversation ends, by all nodes that were completed in it. So it
always is what the log of completed nodes asks for, up to the conversation that is still open.

* `closedLog` — the log as it was when no conversation was last open;
* `Chronicle` — the invariant: the log is the closed log and the nodes of the open conversation, and
  the chapter is what the closed log leads to;
* `Chronicle.happens`, `Chronicle.run` — every command, and so every run, keeps it;
* `chapter_of_closedLog` — what this says about the chapter.
-/

namespace Sidescroller.World

open Story (Session Chapters)

/-- The log of completed nodes after a command, without those of an open conversation, if it was
`log` before. -/
def Plot.closedLog (plot : Plot) (log : List String) : List String :=
  if plot.session.isActive then log else plot.session.completed

/-- The log of completed nodes after a run, without those of the conversation that is open then, if
it was `log` before. -/
def closedLogFrom (world : World) (log : List String) : List Command → List String
  | [] => log
  | command :: rest =>
    let next := (world.perform command).1
    next.closedLogFrom (next.plot.closedLog log) rest

/-- The log of completed nodes after a run from the beginning, without those of the conversation
that is open then. -/
def closedLog (world : World) (commands : List Command) : List String :=
  world.closedLogFrom world.session.completed commands

/-- The invariant of a plot that began with `start`, and whose closed log is `log`. -/
structure Chronicle (start : Chapters) (plot : Plot) (log : List String) : Prop where
  /-- The nodes of the open conversation are at the end of the log. -/
  completed_eq : plot.session.completed = log ++ plot.session.pending
  /-- Without a conversation there are none. -/
  pending_eq : plot.session.cursor = .idle → plot.session.pending = []
  /-- The closed log has led to the chapter. -/
  chapters_eq : plot.chapters = start.record log

namespace Chronicle

variable {start : Chapters} {plot plot' : Plot} {log : List String} {events : List Event}

theorem initial (graph : Story.Graph) (start : Chapters) :
    Chronicle start ⟨graph, Session.fresh, start, none⟩ [] where
  completed_eq := rfl
  pending_eq := fun _ => rfl
  chapters_eq := rfl

theorem closedLog_of_active {conversation : Story.ConversationId} {node : String}
    (h : plot.session.cursor = .active conversation node) : plot.closedLog log = log := by
  rw [Plot.closedLog, Session.isActive, h]
  rfl

theorem closedLog_of_idle (h : plot.session.cursor = .idle) :
    plot.closedLog log = plot.session.completed := by
  rw [Plot.closedLog, Session.isActive, h]
  rfl

/-- While nothing is open the closed log is the log. -/
theorem completed_of_idle (h : Chronicle start plot log) (hidle : plot.session.cursor = .idle) :
    plot.session.completed = log := by
  rw [h.completed_eq, h.pending_eq hidle, List.append_nil]

theorem closedLog_eq (h : Chronicle start plot log) : plot.closedLog log = log := by
  cases hcursor : plot.session.cursor with
  | idle => rw [closedLog_of_idle hcursor, h.completed_of_idle hcursor]
  | active conversation node => exact closedLog_of_active hcursor

/-- The end of a conversation: its nodes join the closed log, and move the chapter. -/
theorem close (h : Chronicle start plot log) {pending : List String}
    (hidle : plot'.session.cursor = .idle) (hpending : plot'.session.pending = [])
    (hcompleted : plot'.session.completed = log ++ pending)
    (hchapters : plot'.chapters = plot.chapters.record pending) :
    Chronicle start plot' (plot'.closedLog log) := by
  rw [closedLog_of_idle hidle, hcompleted]
  constructor
  · rw [hcompleted, hpending, List.append_nil]
  · intro _
    exact hpending
  · rw [hchapters, h.chapters_eq, Chapters.record_append]

/-- **Whatever happens** keeps the invariant. -/
theorem happens (h : Chronicle start plot log) (hstep : Happens plot plot' events) :
    Chronicle start plot' (plot'.closedLog log) := by
  cases hstep with
  | nothing selected =>
    change Chronicle start _ (plot.closedLog log)
    rw [h.closedLog_eq]
    exact ⟨h.completed_eq, h.pending_eq, h.chapters_eq⟩
  | unavailable npc node hidle =>
    rw [h.closedLog_eq]
    exact h
  | opened npc node hidle hnode =>
    rw [closedLog_of_active rfl]
    -- nothing was pending before, and nothing is yet
    refine ⟨?_, nofun, h.chapters_eq⟩
    rw [List.append_nil]
    exact h.completed_of_idle hidle
  | advanced hleaves hnext =>
    -- the node that was left joins those of the open conversation
    obtain ⟨-, -, hcursor, hpending⟩ := hleaves.of_continued hnext
    rw [closedLog_of_active hcursor]
    refine ⟨?_, fun hidle => ?_, h.chapters_eq⟩
    · rw [hleaves.completed_eq, hpending, h.completed_eq, List.append_assoc]
    · rw [hcursor] at hidle
      cases hidle
  | ended hleaves hending =>
    obtain ⟨reason, rfl, -, hcursor, hpending⟩ := hleaves.of_ended hending
    -- the node that was left is the last one of the conversation
    refine h.close hcursor hpending ?_ rfl
    rw [hleaves.completed_eq, h.completed_eq, List.append_assoc]
  | cancelled hactive =>
    -- the current node is not completed, but those before it count
    exact h.close rfl rfl h.completed_eq rfl

/-- **A run of commands** keeps the invariant. -/
theorem run {world : World} (h : Chronicle start world.plot log) (commands : List Command) :
    Chronicle start (world.run commands).1.plot (world.closedLogFrom log commands) := by
  induction commands generalizing world log with
  | nil => exact h
  | cons command rest ih => exact ih (h.happens (world.perform_happens command))

end Chronicle

/-- **The chapter is a function of the closed conversations.** After any commands, the log of
completed nodes is the closed log and the nodes of the open conversation. The chapter is the initial
one if the closed log has no milestone. Otherwise the last milestone in it decides, by its first
position in the list of milestones: it is the label at that position, and after the last position,
which has no label, the epilogue. -/
theorem chapter_of_closedLog {character : Character} {rules : Rules} {level : Level}
    {script : Story.Script} {world : World}
    (h : create character rules level script = .ok world) (commands : List Command) :
    let last := (world.run commands).1
    let log := world.closedLog commands
    last.session.completed = log ++ last.session.pending ∧
    (last.inDialogue = false → last.session.pending = []) ∧
    ((∀ id ∈ log, id ∉ script.outline.milestones) →
      last.chapters.current = script.outline.initial) ∧
    ∀ before id after p, log = before ++ id :: after →
      (∀ other ∈ after, other ∉ script.outline.milestones) →
      script.outline.milestones[p]? = some id →
      (∀ q < p, script.outline.milestones[q]? ≠ some id) →
      (p + 1 < script.outline.milestones.length →
        script.outline.labels[p]? = some last.chapters.current) ∧
      (p + 1 = script.outline.milestones.length →
        last.chapters.current = Chapters.epilogue) := by
  intro last log
  obtain ⟨graph, start, hsetUp, hplot⟩ := plot_of_create h
  obtain ⟨hcurrent, hmilestones, hlabels⟩ := Story.Script.tables_of_setUp hsetUp
  have hlength := start.length_labels
  -- the run starts with empty books, on which the invariant holds
  have hinv : Chronicle start last.plot log := by
    refine Chronicle.run ?_ commands
    have hcompleted : world.session.completed = [] :=
      congrArg (fun plot => plot.session.completed) hplot
    rw [hplot, hcompleted]
    exact Chronicle.initial graph start
  have hchapter : last.chapters.current = (start.record log).current :=
    congrArg Chapters.current hinv.chapters_eq
  rw [hmilestones, hlabels] at hlength
  refine ⟨hinv.completed_eq, ?_, ?_, ?_⟩
  · intro hmode
    exact hinv.pending_eq (inDialogue_eq_false_iff.1 hmode)
  · intro hnone
    rw [hchapter, ← hcurrent]
    exact Chapters.current_record_of_forall_not_mem (hmilestones ▸ hnone)
  · intro before id after p hlog hafter hid hfirst
    have hnext : start.chapterAfter? id = some (start.labels[p]?.getD Chapters.epilogue) :=
      Chapters.chapterAfter?_of_first (hmilestones ▸ hid) (hmilestones ▸ hfirst)
    rw [hchapter, hlog, Chapters.current_record hnext (hmilestones ▸ hafter), hlabels]
    constructor
    · intro hp
      have hlt : p < script.outline.labels.length := by omega
      rw [List.getElem?_eq_getElem hlt, Option.getD_some]
    · -- there is one label less than there are milestones
      intro hp
      rw [List.getElem?_eq_none (by omega), Option.getD_none]

/-- A visit to the porch: the gate has been completed when the player leaves, the hall has not. -/
theorem chapter_of_closedLog_visit :
    ∃ world, create (Character.ofName "Morticia") {} porch twoRooms = .ok world ∧
      world.closedLog visit = ["gate"] ∧ (world.run visit).1.chapters.current = "courtyard" := by
  have hcheck : (create (Character.ofName "Morticia") {} porch twoRooms).toOption.any
      (fun world => world.closedLog visit == ["gate"]) = true := by decide +kernel
  obtain ⟨world, hworld, hlog⟩ := exists_created hcheck
  have hlog := beq_iff_eq.1 hlog
  obtain ⟨-, -, -, hlast⟩ := chapter_of_closedLog hworld visit
  have hchapter := (hlast [] "gate" [] 0 hlog nofun rfl nofun).1 (by decide)
  exact ⟨world, hworld, hlog, (Option.some.inj hchapter).symm⟩

end Sidescroller.World
