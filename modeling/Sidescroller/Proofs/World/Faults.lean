import Sidescroller.Proofs.Story.Dangling
import Sidescroller.Proofs.World.Coherence
import Sidescroller.Proofs.World.Keys

/-!
# Faults of the story in a run

Two faults of a story are left for a run to find: a choice that leads to an id that no node has, and
a character of the level whose conversations would begin on such an id. Neither stops the run. The
first one ends a conversation, the second one keeps it from being opened, and an event tells of it.
Both can be found out beforehand, and then no run tells of them.

* `missing_of_unavailable`, `Happens.of_unavailable` — a character has nothing to say only if the
  node is missing, and then the plot stays as it is;
* `dangling_of_ended` — a conversation breaks off only at a dangling link;
* `faults_found_beforehand` — all of it, for sessions and for worlds.
-/

namespace Sidescroller.World

open Story (Session Graph Operation)

variable {world : World} {plot plot' : Plot} {events : List Event} {name id : String}

/-! ### Nothing to say -/

/-- **Nothing to say** is told of a character only if nothing is open, and the plot stays as it
is. -/
theorem Happens.of_unavailable (h : Happens plot plot' events)
    (hmem : .dialogueUnavailable name id ∈ events) :
    plot.session.cursor = .idle ∧ plot' = plot := by
  cases hcursor : plot.session.cursor with
  | active conversation current => cases h.offer?_eq_none hcursor _ hmem
  | idle =>
    rcases h.of_idle hcursor with rfl | ⟨npc, node, rfl, hplot⟩ | ⟨npc, node, rfl, -⟩
    · cases hmem
    · exact ⟨rfl, hplot⟩
    · cases List.mem_singleton.1 hmem

theorem missing_of_openDialogue (h : .dialogueUnavailable name id ∈ world.openDialogue.2) :
    world.graph.contains id = false := by
  rcases world.openDialogue_cases with
    ⟨trigger, hopen⟩ | ⟨trigger, npc, -, -, hmissing, hopen⟩ | ⟨trigger, npc, -, -, -, hopen⟩
  · rw [hopen] at h
    cases h
  · rw [hopen] at h
    cases List.mem_singleton.1 h
    exact hmissing
  · rw [hopen] at h
    cases List.mem_singleton.1 h

/-- **Nothing to say** is told of a character only if the graph has no node for it. -/
theorem missing_of_unavailable {intent : Intent} {dt : Float32}
    (h : .dialogueUnavailable name id ∈ (world.tick intent dt).2) :
    world.graph.contains id = false := by
  obtain ⟨hidle, -⟩ := (world.tick_happens intent dt).of_unavailable h
  rw [tick_of_idle (inDialogue_eq_false_iff.2 hidle)] at h
  split_ifs at h
  · -- the step of the body comes before, and leaves the graph alone
    have hopen : .dialogueUnavailable name id ∈ (world.moved intent dt).openDialogue.2 := h
    have hmissing := missing_of_openDialogue hopen
    exact hmissing
  · cases h

/-! ### Broken off -/

variable {conversation : Story.ConversationId} {lastNode missing : String}
  {reason : Story.EndReason}

/-- A conversation that ends was open before. -/
theorem Happens.not_idle_of_ended (h : Happens plot plot' events)
    (hmem : .dialogueEnded conversation lastNode reason ∈ events) :
    plot.session.cursor ≠ .idle := by
  intro hidle
  rcases h.of_idle hidle with rfl | ⟨npc, node, rfl, -⟩ | ⟨npc, node, rfl, -⟩
  · cases hmem
  · cases List.mem_singleton.1 hmem
  · cases List.mem_singleton.1 hmem

theorem Responds.dangling_of_ended {node : Story.Node} {intent : Intent} {session : Session}
    {report : Option Report} {ending : Story.Ending}
    (h : Responds world conversation node intent session report)
    (hending : report.bind Report.ending? = some ending)
    (hreason : ending.reason = .brokenReference missing) :
    (ending.lastNode, missing) ∈ world.graph.danglingLinks := by
  cases h with
  | cancels hcancel =>
    obtain rfl := Option.some.inj hending
    cases hreason
  | picks hcancel hnumber hleaves =>
    refine hleaves.dangling_of_ended ?_ (Report.ending?_departed.1 hending) hreason
    intro taken htaken
    obtain rfl := Option.some.inj htaken
    exact Story.Node.mem_of_numbered? hnumber
  | confirms hcancel hnumber hconfirm hchoice hleaf hleaves =>
    refine hleaves.dangling_of_ended ?_ (Report.ending?_departed.1 hending) hreason
    rintro taken rfl
    exact List.mem_of_getElem? hchoice
  | highlights selected hcancel hnumber hconfirm => cases hending

/-- **A conversation of a world breaks off** only at a dangling link. -/
theorem dangling_of_ended (hplaced : world.session.Placed world.graph) {intent : Intent}
    {dt : Float32}
    (h : .dialogueEnded conversation lastNode (.brokenReference missing) ∈
      (world.tick intent dt).2) :
    (lastNode, missing) ∈ world.graph.danglingLinks := by
  cases hcursor : world.session.cursor with
  | idle => exact absurd hcursor ((world.tick_happens intent dt).not_idle_of_ended h)
  | active other id =>
    obtain ⟨node, hget, -⟩ := hplaced.active other id hcursor
    obtain rfl := Graph.id_of_get? hget
    obtain ⟨ending, hending, -, rfl, hreason⟩ :=
      (dialogueEnded_mem_tick (inDialogue_of_active hcursor)).1 h
    exact (responds hplaced hcursor hget intent).dangling_of_ended hending hreason

/-! ### Runs -/

/-- The event tells of a fault of the story. -/
def Event.faulty : Event → Bool
  | dialogueUnavailable _ _ => true
  | dialogueEnded _ _ (.brokenReference _) => true
  | _ => false

/-- **Faults are found beforehand.**

In every run of a session on a graph, a conversation breaks off only at a link that the graph lists
as dangling, and for each of these links there is a choice that breaks off every conversation that
comes to it.

In every run of a world, a character has nothing to say only if it is one of the level and the
graph does not have the node that it has for the purpose, and then neither the session nor the
chapter nor the partner changes; and conversations break off only at dangling links of the graph. So
if all characters have their nodes and no link is dangling, no run tells of a fault. -/
theorem faults_found_beforehand :
    (∀ (graph : Graph) (session : Session) (operations : List Operation),
      (∀ operation ∈ operations, operation.On graph) →
      ∀ ending missing, .ended ending ∈ Operation.notices session operations →
        ending.reason = .brokenReference missing →
        (ending.lastNode, missing) ∈ graph.danglingLinks) ∧
    (∀ (graph : Graph) (source missing : String),
      (source, missing) ∈ graph.danglingLinks → graph.Breaks source missing) ∧
    ∀ (character : Character) (rules : Rules) (level : Level) (script : Story.Script)
      (world : World), create character rules level script = .ok world →
      (∀ commands intent dt name id,
        let last := (world.run commands).1
        let next := last.tick intent dt
        .dialogueUnavailable name id ∈ next.2 →
          (∃ npc ∈ level.npcs, npc.name = name ∧ npc.entry = id) ∧
          world.graph.contains id = false ∧
          next.1.session = last.session ∧ next.1.chapters = last.chapters ∧
          next.1.partner = last.partner) ∧
      (∀ commands conversation lastNode missing,
        .dialogueEnded conversation lastNode (.brokenReference missing) ∈
            (world.run commands).2.flatten →
          (lastNode, missing) ∈ world.graph.danglingLinks) ∧
      ((∀ npc ∈ level.npcs, world.graph.contains npc.entry = true) →
        world.graph.danglingLinks = [] →
        ∀ commands, ∀ event ∈ (world.run commands).2.flatten, event.faulty = false) := by
  refine ⟨?_, fun _ _ _ => Graph.breaks_of_mem_danglingLinks, ?_⟩
  · intro graph session operations hon ending missing hended hreason
    exact Operation.dangling_of_mem_notices hon hended hreason
  intro character rules level script world h
  -- what holds of every tick that may come after some commands
  have hunavailable : ∀ commands intent dt name id,
      .dialogueUnavailable name id ∈ ((world.run commands).1.tick intent dt).2 →
        (∃ npc ∈ level.npcs, npc.name = name ∧ npc.entry = id) ∧
        world.graph.contains id = false := by
    intro commands intent dt name id hmem
    have hlevel : (world.run commands).1.level = level :=
      (congrArg Setting.level (world.setting_run commands)).trans (level_of_create h)
    have hoffers := tick_offers _ intent dt _ hmem name id rfl
    have hmissing := missing_of_unavailable hmem
    rw [hlevel] at hoffers
    rw [graph_run] at hmissing
    exact ⟨hoffers, hmissing⟩
  have hended : ∀ commands conversation lastNode missing,
      .dialogueEnded conversation lastNode (.brokenReference missing) ∈
          (world.run commands).2.flatten →
        (lastNode, missing) ∈ world.graph.danglingLinks := by
    intro commands conversation lastNode missing hmem
    obtain ⟨before, intent, dt, htick⟩ := exists_tick_of_mem_run hmem
    have hdangling := dangling_of_ended (placed_run (placed_of_create h) before) htick
    rwa [graph_run] at hdangling
  refine ⟨?_, hended, ?_⟩
  · intro commands intent dt name id last next hmem
    obtain ⟨hnpc, hmissing⟩ := hunavailable commands intent dt name id hmem
    obtain ⟨-, hplot⟩ := (last.tick_happens intent dt).of_unavailable hmem
    exact ⟨hnpc, hmissing, congrArg Plot.session hplot, congrArg Plot.chapters hplot,
      congrArg Plot.partner hplot⟩
  · intro hentries hlinks commands event hmem
    -- only two kinds of events tell of a fault, and each of them would need one
    cases event with
    | dialogueUnavailable name id =>
      obtain ⟨before, intent, dt, htick⟩ := exists_tick_of_mem_run hmem
      obtain ⟨⟨npc, hnpc, -, rfl⟩, hmissing⟩ := hunavailable before intent dt name id htick
      cases hmissing.symm.trans (hentries npc hnpc)
    | dialogueEnded conversation lastNode reason =>
      cases reason with
      | brokenReference missing =>
        have hdangling := hended commands conversation lastNode missing hmem
        rw [hlinks] at hdangling
        cases hdangling
      | _ => rfl
    | _ => rfl

/-- Somebody stands at the gate, and somebody else at a crypt that is not there. -/
def ruins : Level where
  platforms := []
  npcs :=
    [{ name := "Guard", bounds := ⟨100, 340, 40, 60⟩, entry := "gate", color := ⟨0, 0, 0⟩ },
      { name := "Ghost", bounds := ⟨400, 340, 40, 60⟩, entry := "crypt", color := ⟨0, 0, 0⟩ }]

/-- A gate with nothing behind it. -/
def fallenHall : Story.Script where
  outline := { initial := "arrival", milestones := ["gate"], labels := [] }
  nodes :=
    [{ id := "gate"
       speaker := "Guard"
       text := "Come in."
       choices := [{ text := "Thanks.", next := some "hall" }] }]

/-- In the ruins the ghost is said to be unavailable when the player tries to talk to it, and a
conversation with the guard breaks off on the way to the hall; both are found beforehand. The porch
has no such faults. -/
theorem faults_found_beforehand_ruins :
    (∃ world, create (Character.ofName "Morticia") {} ruins fallenHall = .ok world ∧
      (.dialogueUnavailable "Ghost" "crypt" ∈
          ((world.run [.place ⟨400, 340⟩]).1.tick { interact := true } 0.01).2 ∧
        (∃ npc ∈ ruins.npcs, npc.name = "Ghost" ∧ npc.entry = "crypt") ∧
        world.graph.contains "crypt" = false) ∧
      .dialogueEnded ⟨1⟩ "gate" (.brokenReference "hall") ∈ (world.run (visit.take 2)).2.flatten ∧
      .ended ⟨⟨1⟩, "gate", ["gate"], .brokenReference "hall"⟩ ∈
        Operation.notices Session.fresh [.start world.graph "gate", .confirm world.graph] ∧
      ("gate", "hall") ∈ world.graph.danglingLinks ∧ world.graph.Breaks "gate" "hall") ∧
    ∃ world, create (Character.ofName "Morticia") {} porch twoRooms = .ok world ∧
      ∀ commands, ∀ event ∈ (world.run commands).2.flatten, event.faulty = false := by
  obtain ⟨hsession, hbreaks, hworld⟩ := faults_found_beforehand
  -- what happens in the ruins, and what a check of the porch finds
  have hruins : (create (Character.ofName "Morticia") {} ruins fallenHall).toOption.any
      (fun world =>
        .dialogueUnavailable "Ghost" "crypt" ∈
            ((world.run [.place ⟨400, 340⟩]).1.tick { interact := true } 0.01).2 ∧
          .dialogueEnded ⟨1⟩ "gate" (.brokenReference "hall") ∈
            (world.run (visit.take 2)).2.flatten ∧
          .ended ⟨⟨1⟩, "gate", ["gate"], .brokenReference "hall"⟩ ∈
            Operation.notices Session.fresh
              [.start world.graph "gate", .confirm world.graph]) = true := by
    decide +kernel
  have hporch : (create (Character.ofName "Morticia") {} porch twoRooms).toOption.any
      (fun world =>
        (∀ npc ∈ porch.npcs, world.graph.contains npc.entry = true) ∧
          world.graph.danglingLinks = []) = true := by
    decide +kernel
  constructor
  · -- every fault that has happened was to be found in the graph
    obtain ⟨world, hcreate, hp⟩ := exists_created hruins
    obtain ⟨hghost, hvisit, hgate⟩ := of_decide_eq_true hp
    have hon : ∀ operation ∈ [.start world.graph "gate", .confirm world.graph],
        Operation.On world.graph operation := by
      simp [Operation.On, Operation.graph?]
    have hlink := hsession world.graph Session.fresh _ hon _ "hall" hgate rfl
    obtain ⟨hunavailable, hended, -⟩ := hworld _ _ _ _ world hcreate
    obtain ⟨hnpc, hmissing, -⟩ :=
      hunavailable [.place ⟨400, 340⟩] { interact := true } 0.01 "Ghost" "crypt" hghost
    have hdangling := hended _ _ _ _ hvisit
    exact ⟨world, hcreate, ⟨hghost, hnpc, hmissing⟩, hvisit, hgate, hdangling,
      hbreaks _ _ _ hlink⟩
  · obtain ⟨world, hcreate, hp⟩ := exists_created hporch
    obtain ⟨hentries, hlinks⟩ := of_decide_eq_true hp
    obtain ⟨-, -, hfaultless⟩ := hworld _ _ _ _ world hcreate
    exact ⟨world, hcreate, hfaultless hentries hlinks⟩

end Sidescroller.World
