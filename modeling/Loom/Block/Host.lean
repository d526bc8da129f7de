import Loom.Block.Memory

/-! Programs of blocks as an engine's host: actions and operations become scripts. -/
namespace Loom.Block

/-- The dialect of blocks: instructions are node numbers. -/
abbrev dialect : Dialect where
  Instr := Nat
  Memory := Memory
  Scope := Contents
  Farewell := Parting
  Clock := Clockwork

/-- Code of blocks. -/
abbrev Code := Script dialect

namespace ScopeSpec

def choice : ScopeSpec → ScopeChoice dialect
  | fresh => .fresh
  | given t => .given (.made t)
  | shared sid => .shared sid

end ScopeSpec

/-- Note the strands that are in play. -/
def showLive : Code Unit := .ask .info fun
  | .ok (.info i) => .modify fun m => m.present (i.strands.map (·.sid.toNat))
  | _ => .done ()

/-- Note the strand of a reply. -/
def showStrand : Reply → Code Unit
  | .strand s => .modify fun m => m.present [s.sid.toNat]
  | _ => .done ()

/-- An operation on a run as a script. -/
def Command.script (p : Program) : Command → Code Reply
  | .start entry => do
    let reply ← Script.request (.start (p.resolve entry))
    showLive
    pure reply
  | .pause => .request .pause
  | .resume => .request .resume
  | .rate given => .request (.rate given)
  | .terminate parting => .request (.terminate parting)
  | .breakpoints on => .request (.breakpoints on)
  | .spawn entry scope => do
    let reply ← Script.request (.spawn (p.resolve entry) scope.choice)
    showStrand reply
    pure reply
  | .step => .request .step
  | .events limit => .request (.events limit)
  | .emit type strand data => .request (.emit type strand data)
  | .fire n => .request (.fireIssued n)
  | .runNext => .request .runNext
  | .runAll limit => .request (.runAll limit)
  | .refuse on => .request (.refuse on)
  | .pump => .request .pump
  | .current => .request .current
  | .timeSlice n => .request (.timeSlice n)
  | .drop position => .request (.forget position)
  | .cut sid => .request (.blank sid)
  | .link node target => do
    Script.modify fun m => { m with links := (({ p with links := m.links }).setLink node target).links }
    pure .nothing
  | .predicate q => do
    Script.modify fun m => { m with predicate := q }
    pure .nothing

/-- Log how an operation went. -/
def logOutcome (scope : Nat) (outcome : Except Fault Reply) : Code Unit :=
  .update fun m => m.log scope (.str (match outcome with
    | .ok _ => "ok"
    | .error f => f.kind.name))

/-- Run a script and keep its outcome; an exit or an interrupt passes on. -/
def attempt : Code α → Code (Except Fault α)
  | .done a => .done (.ok a)
  | .fail f => if f.isOrdinary then .done (.error f) else .fail f
  | .look next => .look fun m => attempt (next m)
  | .store m next => .store m (attempt next)
  | .ask r next => .ask r fun o => attempt (next o)

mutual

/-- What an action of node `self` does on a scope. -/
def Action.script (p : Program) (self scope : Nat) : Action → Code Unit
  | .log v => .update fun m => m.log scope v
  | .logVariable name => .update fun m =>
    match m.get? scope name with
    | some v => m.log scope v
    | none => .error (.missingKey (.str name))
  | .set name v => .modify fun m => m.put scope name v
  | .increase name amount => .update fun m => m.increase scope name amount
  | .delete name => .update fun m => m.delete scope name
  | .raise f => .fail f
  | .link node target => do discard (Command.script p (.link node target))
  | .loop name bound target => .update fun m => do
    let m ← m.countUp scope name
    let goes ← m.isBelow scope name bound
    let link := if goes then target else m.firstLinks[self]?.getD none
    .ok { m with links := m.links.setIfInBounds self link }
  | .whenBelow name bound actions => .look fun m =>
    match m.isBelow scope name bound with
    | .error f => .fail f
    | .ok false => .done ()
    | .ok true => do
      Script.update fun m => m.countUp scope name
      actionsScript p self scope actions
  | .call c => do discard (c.script p)
  | .attempt c => do
    let outcome ← attempt (c.script p)
    logOutcome scope outcome

def actionsScript (p : Program) (self scope : Nat) : List Action → Code Unit
  | [] => .done ()
  | a :: rest => do
    Action.script p self scope a
    actionsScript p self scope rest

end

/-- Whether to stop before a node: the predicate decides where there is one, else the node's mark. -/
def stops (p : Program) (i : Nat) : Code Bool := .look fun m =>
  match m.predicate with
  | none => .done ((p.node? i).any (·.hasBreakpoint))
  | some (.labels names) => .done ((p.node? i).any fun n => names.contains n.label)
  | some (.constant v) => .done v.truthy
  | some (.raise f) => .fail f
  | some (.after c v) => do
    discard (c.script p)
    pure v.truthy

/-- Record the end of a run, then fail or ask for another end as told. -/
def partingScript (parting : Parting) : Code Unit := .ask .info fun
  | .ok (.info i) => do
    Script.modify fun m =>
      { m with endings := m.endings ++ [⟨i.totalSteps, i.phase, i.strands.length⟩] }
    match parting with
    | .record => pure ()
    | .raise => .fail (.raised .runtime "done failed")
    | .again => do discard (Script.request (D := dialect) (.terminate none))
  | .ok _ => .done ()
  | .error f => .fail f

/-- The successor of a node. -/
def successor (p : Program) (m : Memory) (i : Nat) : Except Fault (Option Nat) :=
  match (p.node? i).bind (·.successorFault) with
  | some f => .error f
  | none => .ok (p.resolve (m.links[i]?.getD none))

/-- Where a program starts; `scope` is its scope to start with. -/
def Program.source (p : Program) (scope : Scope) : Option (Source dialect) :=
  match p.entry with
  | .program entry _ => some ⟨fun _ => .ok (p.resolve entry), fun _ => .ok (.copied scope)⟩
  | .source entry => some ⟨fun _ => entry.map p.resolve, fun _ => .ok (.made [])⟩
  | .absent => none

/-- A program, with its scope to start with, as a host. -/
def host (p : Program) (scope : Scope) : Host dialect where
  wellFormed i := (p.node? i).any (·.isInstruction)
  label i := ((p.node? i).map (·.label)).getD ""
  depict i := (p.node? i).bind fun n => n.display.toOption
  code i scope := actionsScript p i scope (((p.node? i).map (·.actions)).getD [])
  next := successor p
  breaks := stops p
  source := p.source scope
  install := Memory.install
  empty := .made []
  farewell := partingScript
  scheduler := Scheduler.clockwork

/-- The memory at the start, and the program's scope to start with. -/
def Program.load (p : Program) : Scope × Memory :=
  let m : Memory := { links := p.links, firstLinks := p.links }
  match p.entry with
  | .program _ t => m.make t
  | _ => ([], m)

end Loom.Block
