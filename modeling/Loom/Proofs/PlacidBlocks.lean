import Loom.Proofs.RoundRobin
import Loom.Proofs.OrderlyBlocks

/-! Programs of blocks as serene hosts. The blocks of a placid program assign variables, link blocks and
make strands that begin at an instruction; none of it can fail. -/
namespace Loom.Block

/-- The commands that a block of a placid program may give. -/
def Command.IsPlacid (p : Program) : Command → Prop
  | spawn entry _ => ∃ i, p.resolve entry = some i ∧ (p.node? i).any (·.isInstruction) = true
  | link .. => True
  | _ => False

/-- The actions that a block of a placid program may take. -/
def Action.IsPlacid (p : Program) : Action → Prop
  | set .. | link .. => True
  | call c => c.IsPlacid p
  | _ => False

/-- Every block acts placidly, and asking for a successor does not fail. -/
def Program.IsPlacid (p : Program) : Prop :=
  ∀ n ∈ p.nodes, (∀ a ∈ n.actions, a.IsPlacid p) ∧ n.successorFault = none

section Run

variable {p : Program} {s : Scope} {c : Core dialect}

/-- A script returns, and breakpoints stay a matter of looking. -/
def Returns (p : Program) (s : Scope) (c : Core dialect) (code : Code α) : Prop :=
  ∃ a d, c.run (host p s) code = some (a, d) ∧ d.memory.Calm

lemma Returns.bind {code : Code α} {k : α → Code β} (hcode : Returns p s c code)
    (hk : ∀ a d, d.memory.Calm → Returns p s d (k a)) : Returns p s c (code >>= k) := by
  obtain ⟨a, d, hrun, hd⟩ := hcode
  obtain ⟨b, e, hrun', he⟩ := hk a d hd
  refine ⟨b, e, ?_, he⟩
  rw [Core.run_bind, hrun]
  exact hrun'

lemma Returns.modify {f : Memory → Memory} (hf : (f c.memory).Calm) :
    Returns p s c (Script.modify f) := ⟨(), { c with memory := f c.memory }, rfl, hf⟩

lemma Returns.pure (hc : c.memory.Calm) (a : α) : Returns p s c (Script.done a : Code α) :=
  ⟨a, c, rfl, hc⟩

/-- A strand that begins at an instruction is made. -/
lemma Returns.spawn (hc : c.memory.Calm) {i : Nat} (hi : (p.node? i).any (·.isInstruction) = true)
    (scope : ScopeChoice dialect) :
    Returns p s c (Script.request (.spawn (some i) scope) : Code Reply) := by
  have hentry : World.derivedEntry (host p s) (some i) = .ok i := by
    have hwell : (host p s).wellFormed i = true := hi
    simp only [World.derivedEntry, World.checkEntry, hwell, if_true]
    rfl
  have hanswer : c.answer (host p s) (some i) scope =
      (.ok (.strand { sid := c.strands.size, steps := 0, instruction := some ((host p s).label i) }),
        c.spawned (host p s) i scope) := by
    unfold Core.answer
    rw [hentry]
  refine ⟨.strand { sid := c.strands.size, steps := 0, instruction := some ((host p s).label i) },
    c.spawned (host p s) i scope, ?_, ?_⟩
  · simp only [Script.request, Core.run, hanswer]
  · cases scope with
    | fresh => exact hc.of_eq (Memory.install_framed c.memory c.strands.size (.made [])).predicate
    | given contents => exact hc.of_eq (Memory.install_framed _ _ _).predicate
    | shared other => exact hc

lemma returns_command {command : Command} (hcommand : command.IsPlacid p) (hc : c.memory.Calm) :
    Returns p s c (command.script p) := by
  cases command with
  | spawn entry scope =>
    obtain ⟨i, hresolve, hi⟩ := hcommand
    simp only [Command.script, hresolve]
    refine (Returns.spawn hc hi scope.choice).bind fun reply d hd => ?_
    refine Returns.bind ?_ fun _ e he => .pure he reply
    unfold showStrand
    split
    · exact .modify hd
    · exact .pure hd ()
  | link node target => exact Returns.bind (.modify hc) fun _ d hd => .pure hd _
  | _ => exact hcommand.elim

lemma returns_action (self scope : Nat) {a : Action} (ha : a.IsPlacid p) (hc : c.memory.Calm) :
    Returns p s c (a.script p self scope) := by
  have hdiscard {command : Command} (hcommand : command.IsPlacid p) :
      Returns p s c (discard (command.script p)) :=
    (returns_command hcommand hc).bind fun _ d hd => .pure hd _
  cases a with
  | set name v => exact .modify (hc.of_eq (by simp))
  | link node target => exact hdiscard (show Command.IsPlacid p (.link node target) from trivial)
  | call command => exact hdiscard ha
  | _ => exact ha.elim

theorem returns_actions (self scope : Nat) {actions : List Action}
    (ha : ∀ a ∈ actions, a.IsPlacid p) (hc : c.memory.Calm) :
    Returns p s c (actionsScript p self scope actions) := by
  induction actions generalizing c with
  | nil => exact .pure hc ()
  | cons a rest ih =>
    refine (returns_action self scope (ha a List.mem_cons_self) hc).bind fun _ d hd => ?_
    exact ih (fun b hb => ha b (List.mem_cons_of_mem a hb)) hd

end Run

/-- A placid program is a serene host. -/
theorem host_serene {p : Program} (hp : p.IsPlacid) (scope : Scope) :
    Core.Serene (host p scope) Memory.Calm where
  code i n c hc := by
    have hreturns : Returns p scope c (actionsScript p i n (((p.node? i).map (·.actions)).getD [])) := by
      rcases hn : p.node? i with _ | node
      · exact .pure hc ()
      · exact returns_actions i n (hp node (Array.mem_of_getElem? hn)).1 hc
    obtain ⟨_, d, hrun, hd⟩ := hreturns
    exact ⟨d, hrun, hd⟩
  next {m} i _ := by
    change ∃ next, successor p m i = .ok next
    unfold successor
    rcases hn : p.node? i with _ | node
    · exact ⟨_, rfl⟩
    · simp only [Option.bind_some, (hp node (Array.mem_of_getElem? hn)).2]
      exact ⟨_, rfl⟩
  breaks {m} i hm := by
    change ∃ b, (stops p i).ponder m = some b
    unfold stops Script.ponder
    rcases hq : m.predicate with _ | q <;> beta_reduce <;> rw [hq]
    · exact ⟨_, rfl⟩
    · have hcalm := hm q hq
      cases q with
      | labels names => exact ⟨_, rfl⟩
      | constant v => exact ⟨_, rfl⟩
      | raise f => exact hcalm.elim
      | after c v => exact hcalm.elim
  install n contents hm := hm.of_eq (Memory.install_framed _ n contents).predicate

section Straight

variable {p : Program}

/-- A memory in which the blocks are linked as in the program. -/
def Memory.LinkedAs (p : Program) (m : Memory) : Prop := m.links = p.links

/-- Actions that assign variables. -/
def Assigns (actions : List Action) : Prop := ∀ a ∈ actions, ∃ name v, a = .set name v

lemma install_linked {m : Memory} (n : Nat) (contents : Contents) (hm : m.LinkedAs p) :
    (m.install n contents).LinkedAs p := (Memory.install_framed m n contents).links.trans hm

lemma quiet_actions (self scope : Nat) {actions : List Action} (ha : Assigns actions) :
    (actionsScript p self scope actions).Quiet (Memory.LinkedAs p) := by
  induction actions with
  | nil => exact .done ()
  | cons a rest ih =>
    obtain ⟨name, v, rfl⟩ := ha a List.mem_cons_self
    exact .bind (.modify fun m hm => (Memory.put_links m scope name v).trans hm) fun _ =>
      ih fun b hb => ha b (List.mem_cons_of_mem _ hb)

/-- A block that assigns variables passes to the one it is linked to. -/
lemma host_passes {i : Nat} {n : Node} (hn : p.node? i = some n) (hkind : n.isInstruction = true)
    (ha : Assigns n.actions) (hf : n.successorFault = none) (s : Scope) :
    (host p s).Passes (Memory.LinkedAs p) i (p.resolve (p.links[i]?.getD none)) where
  wellFormed := by
    change (p.node? i).any (·.isInstruction) = true
    rw [hn]
    exact hkind
  code scope := by
    change (actionsScript p i scope (((p.node? i).map (·.actions)).getD [])).Quiet _
    rw [hn]
    exact quiet_actions i scope ha
  next {m} hm := by
    change successor p m i = _
    unfold Memory.LinkedAs at hm
    unfold successor
    rw [hn, hm, Option.bind_some, hf]

end Straight

/-- A block that makes a strand and is to be stopped before, and two plain ones. -/
def branching : Program where
  nodes := #[
    { id := "fork", name := .str "fork", breakpoint := .bool true,
      actions := [.call (.spawn (some 1) .fresh), .set "n" (.int 1)] },
    { id := "leaf", name := .str "leaf", actions := [.set "m" (.int 2)] },
    { id := "tail", name := .str "tail" }]
  links := #[some 2, none, none]
  entry := .program (some 0) []

lemma branching_placid : branching.IsPlacid := by
  intro n hn
  simp only [branching, List.mem_toArray, List.mem_cons, List.not_mem_nil, or_false] at hn
  rcases hn with rfl | rfl | rfl
  · refine ⟨?_, rfl⟩
    intro a ha
    simp only [List.mem_cons, List.not_mem_nil, or_false] at ha
    rcases ha with rfl | rfl
    · exact ⟨1, rfl, rfl⟩
    · trivial
  · exact ⟨by simp [Action.IsPlacid], rfl⟩
  · exact ⟨nofun, rfl⟩

def branchingRun : Run where
  program := branching
  scope := []
  world := {
    engine := { breaking := false, rate := .zero, timeSlice := 1, historySize := 1024 }
    clock := { kind := .keeping }
    memory := { links := branching.links, firstLinks := branching.links } }

lemma branchingRun_prepared :
    Run.prepare branching {} .keeping none none .zero = .ok branchingRun := rfl

lemma branchingRun_fresh {fit : Clockwork → Prop} (hfit : fit { kind := .keeping }) :
    World.Fresh fit Memory.Calm branchingRun.world :=
  Run.prepare_fresh branchingRun_prepared nofun hfit

/-- Six blocks that assign variables, in three rows. -/
def relay : Program where
  nodes := #[
    { id := "a", name := .str "a", actions := [.set "x" (.int 1)] },
    { id := "b", name := .str "b", actions := [.set "x" (.int 2)] },
    { id := "c", name := .str "c" },
    { id := "d", name := .str "d", actions := [.set "y" (.int 3)] },
    { id := "e", name := .str "e" },
    { id := "f", name := .str "f", actions := [.set "z" (.int 4)] }]
  links := #[some 1, some 2, none, none, some 5, none]
  entry := .program (some 0) []

lemma relay_assigns : ∀ n ∈ relay.nodes, n.isInstruction = true ∧ Assigns n.actions ∧
    n.successorFault = none := by
  intro n hn
  simp only [relay, List.mem_toArray, List.mem_cons, List.not_mem_nil, or_false] at hn
  rcases hn with rfl | rfl | rfl | rfl | rfl | rfl <;> exact ⟨rfl, by simp [Assigns], rfl⟩

lemma relay_passes {i : Nat} (hi : i < 6) (s : Scope) : (host relay s).Passes (Memory.LinkedAs relay) i
    (relay.resolve (relay.links[i]?.getD none)) := by
  obtain ⟨n, hn⟩ : ∃ n, relay.node? i = some n := ⟨relay.nodes[i], Array.getElem?_eq_getElem hi⟩
  obtain ⟨hkind, hassigns, hfault⟩ := relay_assigns n (Array.mem_of_getElem? hn)
  exact host_passes hn hkind hassigns hfault s

lemma relay_straight (s : Scope) : (host relay s).Straight (Memory.LinkedAs relay) [0, 1, 2] ∧
    (host relay s).Straight (Memory.LinkedAs relay) [3] ∧
    (host relay s).Straight (Memory.LinkedAs relay) [4, 5] :=
  ⟨⟨relay_passes (by decide) s, relay_passes (by decide) s, relay_passes (by decide) s, trivial⟩,
    ⟨relay_passes (by decide) s, trivial⟩,
    ⟨relay_passes (by decide) s, relay_passes (by decide) s, trivial⟩⟩

/-- A delay of five milliseconds. -/
def relayRate : Binary64 := .finite false (5 * Binary64.unit)

def relayRun : Run where
  program := relay
  scope := []
  world := {
    engine := { breaking := false, rate := relayRate, timeSlice := 2, historySize := 1024 }
    clock := { kind := .manual }
    memory := { links := relay.links, firstLinks := relay.links } }

end Loom.Block
