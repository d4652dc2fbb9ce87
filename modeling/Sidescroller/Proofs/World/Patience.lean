import Sidescroller.Proofs.Story.Acyclic
import Sidescroller.Proofs.World.Coherence
import Sidescroller.Proofs.World.Keys
import Sidescroller.World.Tour

/-!
# How long a conversation can last

Where no cycle can be reached, a conversation ends by itself, if only it is confirmed. A tick in
which confirming is pressed leaves the node, whatever else is pressed: it may leave the conversation
instead, or take another choice by its number, but it never only moves the highlight. So after as
many ticks as there are nodes to be reached the conversation has ended, and a tour that is patient
for so long need not give it up.

* `tick_of_confirm` — a tick of confirming ends the conversation or counts as a departure;
* `run_of_confirms` — and so many ticks count as many departures;
* `closes_of_confirms` — so a conversation ends after a bounded number of them;
* `underway_of_started` — what is known of a conversation that a tick has opened;
* `Tour.Progress.closed_talk` — a tour talks until the conversation has ended;
* `conversations_end` — what this means for sessions, worlds and tours.
-/

namespace Sidescroller

namespace World

open Story (Session ConversationId Node Choice Graph Departure Operation Paced Underway)

variable {world : World} {graph : Graph} {conversation : ConversationId} {node : Node}
  {intent : Intent} {session : Session} {report : Option Report} {start id : String} {count : Nat}

/-! ### Ticks of confirming -/

/-- Where confirming is pressed, the conversation is left, or else its node is. -/
theorem Responds.leaves_of_confirm (h : Responds world conversation node intent session report)
    (hconfirm : intent.confirm = true) :
    session.cursor = .idle ∨
      ∃ choice departure, (∀ taken, choice = some taken → taken ∈ node.choices) ∧
        Session.Leaves world.graph world.session conversation node choice session departure := by
  cases h with
  | cancels hcancel => exact Or.inl rfl
  | @picks choice session departure hcancel hnumber hleaves =>
    refine Or.inr ⟨some choice, departure, ?_, hleaves⟩
    intro taken htaken
    obtain rfl := Option.some.inj htaken
    exact Node.mem_of_numbered? hnumber
  | @confirms choice session departure hcancel hnumber hconfirm hchoice hleaf hleaves =>
    refine Or.inr ⟨choice, departure, ?_, hleaves⟩
    rintro taken rfl
    exact List.mem_of_getElem? hchoice
  | highlights selected hcancel hnumber hconfirm' => cases hconfirm.symm.trans hconfirm'

/-- **A tick of confirming** ends the conversation, or counts as a departure. -/
theorem tick_of_confirm (hgraph : world.graph = graph) (hplaced : world.session.Placed graph)
    (hpaced : Paced graph start conversation world.session count)
    (hactive : world.session.cursor = .active conversation id) (hconfirm : intent.confirm = true)
    (dt : Float32) :
    (world.tick intent dt).1.inDialogue = false ∨
      ∃ next, (world.tick intent dt).1.session.cursor = .active conversation next ∧
        Paced graph start conversation (world.tick intent dt).1.session (count + 1) := by
  subst hgraph
  obtain ⟨node, hget, -⟩ := hplaced.active conversation id hactive
  obtain rfl := Graph.id_of_get? hget
  rw [inDialogue_eq_false_iff, session_tick_of_inDialogue (inDialogue_of_active hactive)]
  rcases (responds hplaced hactive hget intent).leaves_of_confirm hconfirm with
    hidle | ⟨choice, departure, hchoice, hleaves⟩
  · exact Or.inl hidle
  · rcases hleaves.goes with ⟨next, -, -, hnext, hcursor, -⟩ | ⟨reason, -, -, hcursor, -⟩
    · have hlog : (world.respond intent).1.completed.length = world.session.completed.length + 1 :=
        by rw [hleaves.completed_eq, List.length_append, List.length_singleton]
      exact Or.inr ⟨next, hcursor, hpaced.moves (.continues hleaves hchoice hnext) hlog⟩
    · exact Or.inl hcursor

/-- **A run of confirming** ends the conversation, or counts as a departure for each tick. -/
theorem run_of_confirms (hgraph : world.graph = graph) (hplaced : world.session.Placed graph)
    (hpaced : Paced graph start conversation world.session count)
    (hactive : world.session.cursor = .active conversation id) {presses : List (Intent × Float32)}
    (hconfirm : ∀ press ∈ presses, press.1.confirm = true) :
    let ticks := presses.map fun press => Command.tick press.1 press.2
    (∃ n ≤ presses.length, (world.run (ticks.take n)).1.inDialogue = false) ∨
      ∃ last, (world.run ticks).1.session.cursor = .active conversation last ∧
        Paced graph start conversation (world.run ticks).1.session (count + presses.length) := by
  induction presses generalizing world id count with
  | nil => exact Or.inr ⟨id, hactive, hpaced⟩
  | cons press rest ih =>
    rw [List.forall_mem_cons] at hconfirm
    rcases tick_of_confirm hgraph hplaced hpaced hactive hconfirm.1 press.2 with
      hclosed | ⟨next, hnext, hpaced'⟩
    · exact Or.inl ⟨1, Nat.le_add_left 1 rest.length, hclosed⟩
    · have hgraph' : (world.tick press.1 press.2).1.graph = graph :=
        (world.graph_perform (.tick press.1 press.2)).trans hgraph
      have hplaced' : (world.tick press.1 press.2).1.session.Placed graph :=
        (hgraph ▸ world.leads_tick press.1 press.2).placed hplaced
      rcases ih hgraph' hplaced' hpaced' hnext hconfirm.2 with
        ⟨n, hle, hclosed⟩ | ⟨last, hlast, hpaced''⟩
      · exact Or.inl ⟨n + 1, Nat.succ_le_succ hle, hclosed⟩
      · rw [Nat.add_assoc, Nat.add_comm 1] at hpaced''
        exact Or.inr ⟨last, hlast, hpaced''⟩

/-- **A conversation ends** after as many ticks of confirming as there are nodes to be reached, at
the latest. -/
theorem closes_of_confirms (hgraph : world.graph = graph) (hacyclic : graph.AcyclicFrom start)
    (hplaced : world.session.Placed graph)
    (hunderway : Underway graph start conversation world.session)
    (hactive : world.session.cursor = .active conversation id) {presses : List (Intent × Float32)}
    (hconfirm : ∀ press ∈ presses, press.1.confirm = true)
    (hle : (graph.reachable start).length ≤ presses.length) :
    ∃ n ≤ (graph.reachable start).length,
      (world.run ((presses.take n).map fun press => .tick press.1 press.2)).1.inDialogue =
        false := by
  have hpaced : Paced graph start conversation world.session world.session.pending.length :=
    ⟨hunderway, fun _ _ => rfl⟩
  -- later presses do not matter
  have hfirst : ∀ press ∈ presses.take (graph.reachable start).length, press.1.confirm = true :=
    fun press hpress => hconfirm press (List.mem_of_mem_take hpress)
  rcases run_of_confirms hgraph hplaced hpaced hactive hfirst with
    ⟨n, hn, hclosed⟩ | ⟨last, hlast, hpaced'⟩
  · rw [List.length_take_of_le hle] at hn
    rw [← List.map_take, List.take_take, Nat.min_eq_left hn] at hclosed
    exact ⟨n, hn, hclosed⟩
  · -- a conversation that is still open has been left too often
    have hlt := hpaced'.count_lt hacyclic hlast
    rw [List.length_take_of_le hle] at hlt
    omega

/-- A conversation that a tick opens is on a trail from its start, whatever comes after it. -/
theorem underway_of_started {dt : Float32} {npc : String}
    (hstarted : .dialogueStarted conversation npc start ∈ (world.tick intent dt).2)
    (commands : List Command) :
    let last := ((world.tick intent dt).1.run commands).1
    last.graph = world.graph ∧ last.session.Placed world.graph ∧
      Underway world.graph start conversation last.session := by
  intro last
  obtain ⟨hidle, hnode, hstart⟩ := (world.tick_happens intent dt).of_started hstarted
  change world.session.start world.graph start =
    ((world.tick intent dt).1.session, .ok conversation) at hstart
  have hgraph : (world.tick intent dt).1.graph = world.graph :=
    world.graph_perform (.tick intent dt)
  have hplaced : (world.session.start world.graph start).1.Placed world.graph :=
    .of_started hidle hnode
  have hunderway := Underway.opened (congrArg Prod.snd hstart)
  rw [hstart] at hplaced hunderway
  -- from there the session is led by operations on the same graph
  obtain ⟨operations, hon, hplay⟩ := hgraph ▸ leads_run (world.tick intent dt).1 commands
  exact ⟨(graph_run _ commands).trans hgraph, hplay ▸ hplaced.play hon,
    hplay ▸ (hunderway.play hon).1⟩

end World

/-! ### Tours -/

/-- **A tour talks until the conversation has ended**, if it is patient for so long. -/
theorem Tour.Progress.closed_talk (progress : Progress) {n k : Nat} (hle : n ≤ k)
    (hclosed : (progress.world.run
      (List.replicate n (.tick { confirm := true } frame))).1.inDialogue = false) :
    (talk k progress).world.inDialogue = false := by
  induction k generalizing progress n with
  | zero =>
    obtain rfl := Nat.le_zero.1 hle
    exact hclosed
  | succ k ih =>
    rw [talk]
    split_ifs with hmode
    · cases n with
      | zero => cases hmode.symm.trans hclosed
      | succ n => exact ih _ (Nat.le_of_succ_le_succ hle) hclosed
    · exact Bool.eq_false_of_not_eq_true hmode

/-! ### All conversations -/

namespace World

open Story (Session Graph Operation Paced Underway)

/-- **Conversations end.** For every graph and every node of it to start on, from which no cycle can
be reached: let `bound` be the number of nodes that can be reached.

A conversation that an idle session opens there is left less than `bound` times as long as it is
open, whatever operations go on with it: all of them on the graph, but that the highlight may even
be moved on other ones. If it is not, the conversation can be confirmed, and confirming again and
again ends it, at the latest when it has been left `bound` times.

A conversation that a tick of a world opens there, and that is still open after any commands, can be
confirmed as well. With confirming pressed in every tick, whatever else is pressed, it is over after
at most `bound` ticks; and a tour that talks for so many ticks comes to its end. -/
theorem conversations_end (graph : Graph) (start : String) (hstart : graph.contains start = true)
    (hacyclic : graph.AcyclicFrom start) :
    let bound := (graph.reachable start).length
    (∀ session : Session, session.cursor = .idle →
      ∃ conversation, (session.start graph start).2 = .ok conversation ∧
      (∀ operations, (∀ operation ∈ operations, operation.LeavesOn graph) →
        let played := Operation.play (session.start graph start).1 operations
        ∀ id, played.1.cursor = .active conversation id → played.2.length < bound) ∧
      ∀ operations, (∀ operation ∈ operations, operation.On graph) →
        let played := Operation.play (session.start graph start).1 operations
        ∀ id, played.1.cursor = .active conversation id →
          (∃ session' departure, played.1.confirm graph = (session', .ok departure)) ∧
          ∀ n, bound ≤ played.2.length + n →
            (Operation.play played.1 (List.replicate n (.confirm graph))).1.cursor = .idle) ∧
    ∀ (world : World) (intent : Intent) (dt : Float32) conversation npc, world.graph = graph →
      .dialogueStarted conversation npc start ∈ (world.tick intent dt).2 →
      ∀ commands id,
        let last := ((world.tick intent dt).1.run commands).1
        last.session.cursor = .active conversation id →
          (∃ session' departure, last.session.confirm graph = (session', .ok departure)) ∧
          (∀ presses : List (Intent × Float32), (∀ press ∈ presses, press.1.confirm = true) →
            bound ≤ presses.length → ∃ n ≤ bound,
              (last.run ((presses.take n).map fun press => .tick press.1 press.2)).1.inDialogue =
                false) ∧
          ∀ (progress : Tour.Progress) n, progress.world = last → bound ≤ n →
            (Tour.talk n progress).world.inDialogue = false := by
  intro bound
  constructor
  · intro session hidle
    obtain ⟨conversation, hopened, hcursor⟩ := Session.start_of_idle hidle hstart
    -- departures are counted from the opening on, which is none
    have hpaced : ∀ operations, (∀ operation ∈ operations, operation.LeavesOn graph) →
        let played := Operation.play (session.start graph start).1 operations
        Paced graph start conversation played.1 played.2.length := by
      intro operations hon
      have hplayed := (Paced.opened hopened).play hon
      rwa [Nat.zero_add] at hplayed
    refine ⟨conversation, hopened, ?_, ?_⟩
    · intro operations hon played id hactive
      exact (hpaced operations hon).count_lt hacyclic hactive
    · intro operations hon played id hactive
      have hplaced : played.1.Placed graph := (Session.Placed.of_started hidle hstart).play hon
      have hplayed := hpaced operations fun operation hmem => Or.inl (hon operation hmem)
      obtain ⟨session', departure, hok, -, -⟩ := hplaced.confirm hactive
      exact ⟨⟨session', departure, hok⟩,
        fun n hle => hplayed.idle_of_confirms hacyclic hplaced hactive hle⟩
  · -- in a world the conversation is underway in the session of the world
    rintro world intent dt conversation npc rfl hstarted commands id last hactive
    obtain ⟨hgraph, hplaced, hunderway⟩ := underway_of_started hstarted commands
    have hcloses : ∀ presses : List (Intent × Float32),
        (∀ press ∈ presses, press.1.confirm = true) → bound ≤ presses.length → ∃ n ≤ bound,
          (last.run ((presses.take n).map fun press => .tick press.1 press.2)).1.inDialogue =
            false :=
      fun presses => closes_of_confirms hgraph hacyclic hplaced hunderway hactive
    obtain ⟨session', departure, hok, -, -⟩ := hplaced.confirm hactive
    refine ⟨⟨session', departure, hok⟩, hcloses, ?_⟩
    rintro progress n hprogress hle
    -- the tour presses nothing else
    let press : Intent × Float32 := ⟨{ confirm := true }, Tour.frame⟩
    have hconfirm : ∀ other ∈ List.replicate bound press, other.1.confirm = true :=
      fun other hother => List.eq_of_mem_replicate hother ▸ rfl
    obtain ⟨k, hk, hclosed⟩ := hcloses _ hconfirm List.length_replicate.ge
    rw [List.take_replicate, Nat.min_eq_left hk, List.map_replicate, ← hprogress] at hclosed
    exact progress.closed_talk (hk.trans hle) hclosed

/-- A talk on the porch takes two ticks of confirming, whatever else is pressed. -/
theorem conversations_end_porch :
    ∃ world, create (Character.ofName "Morticia") {} porch twoRooms = .ok world ∧
      let opened := (world.tick { interact := true } 0.01).1
      let press : Intent × Float32 := ⟨{ confirm := true, menuDown := true }, 0.01⟩
      world.graph.AcyclicFrom "gate" ∧ (world.graph.reachable "gate").length = 2 ∧
      (Operation.play (Session.fresh.start world.graph "gate").1
        (List.replicate 2 (.confirm world.graph))).1.cursor = .idle ∧
      (∃ n ≤ 2, (opened.run (((List.replicate 2 press).take n).map
        fun press => .tick press.1 press.2)).1.inDialogue = false) ∧
      (Tour.talk 2 ⟨opened, [], []⟩).world.inDialogue = false := by
  let rank : String → Nat := fun id => if id = "gate" then 1 else 0
  have hcheck : (create (Character.ofName "Morticia") {} porch twoRooms).toOption.any
      (fun world =>
        let opened := world.tick { interact := true } 0.01
        world.graph.contains "gate" = true ∧
          (Graph.Search.rounds world.graph (1 + world.graph.linkCount)
            ⟨[], ["gate"]⟩).listed.length = 2 ∧
          (∀ node ∈ world.graph.nodes, ∀ target ∈ node.targets,
            world.graph.contains target = true → rank target < rank node.id) ∧
          .dialogueStarted ⟨1⟩ "Guard" "gate" ∈ opened.2 ∧
          opened.1.session.cursor = .active ⟨1⟩ "gate") = true := by
    decide +kernel
  obtain ⟨world, hworld, hp⟩ := exists_created hcheck
  obtain ⟨hgate, hlength, hrank, hstarted, hactive⟩ := of_decide_eq_true hp
  -- the search is done after so many rounds
  rw [Graph.rounds_start] at hlength
  have hacyclic := Graph.acyclicFrom_of_rank rank hrank "gate"
  obtain ⟨hsessions, hworlds⟩ := conversations_end world.graph "gate" hgate hacyclic
  rw [hlength] at hsessions hworlds
  obtain ⟨conversation, hopened, -, hplayed⟩ := hsessions Session.fresh rfl
  have hcursor :
      (Session.fresh.start world.graph "gate").1.cursor = .active conversation "gate" := by
    rw [Session.start_of_contains rfl hgate] at hopened ⊢
    rw [Except.ok.inj hopened]
  obtain ⟨-, hconfirms⟩ := hplayed [] nofun "gate" hcursor
  obtain ⟨-, hcloses, htalks⟩ := hworlds world _ _ _ _ rfl hstarted [] "gate" hactive
  exact ⟨world, hworld, hacyclic, hlength, hconfirms 2 le_rfl,
    hcloses _ (fun press hpress => List.eq_of_mem_replicate hpress ▸ rfl) le_rfl,
    htalks _ 2 rfl le_rfl⟩

end World

end Sidescroller
