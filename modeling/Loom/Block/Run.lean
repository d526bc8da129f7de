import Loom.Block.Host

/-! Runs of block programs: a world with one engine, and the operations on it. -/
namespace Loom.Block

/-- How deep requests may nest, and how many steps are fired in one go. -/
def maxDepth : Nat := 900

def maxRounds : Nat := 1000000

/-- A mailbox for a run's events, by its settings. -/
structure MailboxSpec where
  categories : Value := .none
  strand : Value := .none
  size : Value := .int 256

def openMailboxes (specs : List MailboxSpec) : Except Fault Bus :=
  specs.foldlM (fun bus s => do
    let m ← Mailbox.make s.categories s.strand s.size
    .ok (bus.subscribe m).2) {}

/-- A program ready to run. -/
structure Run where
  program : Program
  scope : Scope
  world : World dialect

namespace Run

/-- Set up a run. -/
def prepare (program : Program) (settings : Settings) (kind : ClockKind)
    (mailboxes : Option (List MailboxSpec)) (predicate : Option Predicate) (wall : Binary64) :
    Except Fault Run := do
  let (scope, memory) := program.load
  let bus ← mailboxes.mapM openMailboxes
  let engine ← Engine.make 0 settings
  .ok { program, scope, world := { engine, clock := { kind }, memory := { memory with predicate }, bus, wall } }

def host (r : Run) : Host dialect := Block.host r.program r.scope

def serve (r : Run) : Request dialect → Act (World dialect) Reply :=
  World.serve r.host maxRounds maxDepth

/-- What becomes of a fault that leaves a step fired by the scheduler itself. -/
def report (f : Fault) : Act (World dialect) Unit := do
  match (← get).clock.kind with
  | .timers => if f.isOrdinary then modify fun w => { w with journal := w.journal ++ (LogEntry.ofFault? f).toArray }
  | _ =>
    if f.isOrdinary then modify fun w => { w with clock.faults := w.clock.faults ++ [f] } else throw f

/-- Let the scheduler work on its own until nothing is deferred. -/
def settle (r : Run) : Nat → Act (World dialect) Unit
  | 0 => pure ()
  | fuel + 1 => do
    match ← Act.attempt (r.serve .runNext) with
    | .ok (.flag false) => pure ()
    | .ok _ => r.settle fuel
    | .error f => do
      report f
      r.settle fuel

/-- Whether the scheduler fires steps without being asked. -/
def firesItself (w : World dialect) : Bool := w.clock.kind = .timers || w.clock.kind = .loop

/-- Carry out an operation from outside. -/
def carryOut (r : Run) (c : Command) : Act (World dialect) Reply := do
  let w ← get
  match c, firesItself w with
  | .runNext, true | .runAll _, true => do
    r.settle maxRounds
    pure .nothing
  | c, _ => World.runScript r.serve (c.script r.program)

end Run

end Loom.Block
