import Loom.Event.Basic

/-! The language between an engine and the programs it runs. A program's code is a script: it reads
and writes the program's memory, fails, or asks the engine for an operation and goes on with the
outcome. Scripts are finite trees, so running one is structural recursion; that an operation may in
turn run scripts is a matter of the engine. -/
namespace Loom

/-- The types that a program brings along: instructions, the memory that its code works on, contents
of a new scope, callbacks for the end of a run, and the state of the scheduler it is run by. -/
structure Dialect : Type 1 where
  Instr : Type
  Memory : Type
  Scope : Type
  Farewell : Type
  Clock : Type
  [instrEq : DecidableEq Instr]

attribute [instance] Dialect.instrEq

/-- Stands for one deferred step: the run it belongs to and the token current when it was deferred. -/
structure Ticket where
  run : Nat
  token : Nat
  deriving DecidableEq, Repr

/-- Where a new strand's scope comes from: a new one with given contents, or another strand's own. -/
inductive ScopeChoice (D : Dialect) where
  | fresh
  | given (contents : D.Scope)
  | shared (sid : Nat)

/-- What can be asked of an engine. -/
inductive Request (D : Dialect) where
  | start (entry : Option D.Instr)
  | pause
  | resume
  /-- Set the delay between instructions; none means no delay. -/
  | rate (given : Option Value)
  | terminate (farewell : Option D.Farewell)
  | breakpoints (on : Bool)
  | spawn (entry : Option D.Instr) (scope : ScopeChoice D)
  | step
  /-- Read the state. -/
  | info
  | current
  | events (limit : Option Int)
  /-- Announce an event of the host's own. -/
  | emit (type strand : Value) (data : Table)
  /-- Fire a deferred step. -/
  | fire (ticket : Ticket)
  | fireIssued (number : Nat)
  /-- Let the scheduler fire the next deferred step, or all of them. -/
  | runNext
  | runAll (limit : Option Int)
  /-- Tell the scheduler to refuse, or to accept again. -/
  | refuse (on : Bool)
  /-- Hand out what the mailboxes hold. -/
  | pump
  /-- Reach into the engine: set the time slice, forget a live strand, blank a cursor. -/
  | timeSlice (n : Int)
  | forget (position : Int)
  | blank (sid : Nat)

/-- The state of a strand as shown. -/
structure Snapshot where
  sid : Int
  steps : Nat
  instruction : Option String
  deriving Repr

def Snapshot.halted (s : Snapshot) : Bool := s.instruction.isNone

def Snapshot.table (s : Snapshot) : Table :=
  Table.ofNamed [("sid", .int s.sid), ("steps", .int s.steps),
    ("instruction", .ofOption .str s.instruction), ("halted", .bool s.halted)]

/-- What one step did. -/
structure StepResult where
  executed : Nat
  strand : Option Nat
  hasNext : Bool
  phase : Phase
  events : List Event

/-- The state of an engine as shown. -/
structure Info where
  phase : Phase
  started : Bool
  rate : Binary64
  breakpoints : Bool
  timeSlice : Int
  totalSteps : Nat
  pending : Bool
  current : Option Nat
  strands : List Snapshot

def Info.table (i : Info) : Table :=
  Table.ofNamed [
    ("state", .str i.phase.name),
    ("started", .bool i.started),
    ("paused", .bool (i.phase = .paused)),
    ("terminated", .bool (i.phase = .terminated)),
    ("rate_ms", .float i.rate),
    ("breakpoints", .bool i.breakpoints),
    ("time_slice", .int i.timeSlice),
    ("total_steps", .int i.totalSteps),
    ("pending", .bool i.pending),
    ("current_strand", .ofOption (fun n : Nat => .int n) i.current),
    ("strands", .list (i.strands.map fun s => .dict s.table))]

/-- The outcomes of requests. -/
inductive Reply where
  | self
  | nothing
  | flag (b : Bool)
  | count (n : Nat)
  | strand (s : Snapshot)
  | stepped (r : StepResult)
  | info (i : Info)
  | text (s : Option String)
  | event (e : Event)
  | events (es : List Event)

/-- A program's code. -/
inductive Script (D : Dialect) (α : Type) where
  | done (a : α)
  | fail (f : Fault)
  | look (next : D.Memory → Script D α)
  | store (memory : D.Memory) (next : Script D α)
  | ask (request : Request D) (next : Except Fault Reply → Script D α)

namespace Script

def bind : Script D α → (α → Script D β) → Script D β
  | done a, k => k a
  | fail f, _ => fail f
  | look next, k => look fun m => bind (next m) k
  | store m next, k => store m (bind next k)
  | ask r next, k => ask r fun o => bind (next o) k

instance : Monad (Script D) where
  pure := done
  bind := bind

/-- Change the memory. -/
def modify (f : D.Memory → D.Memory) : Script D Unit := look fun m => store (f m) (done ())

/-- Change the memory or fail. -/
def update (f : D.Memory → Except Fault D.Memory) : Script D Unit := look fun m =>
  match f m with
  | .ok m => store m (done ())
  | .error e => fail e

/-- Ask for an operation and pass its fault on. -/
def request (r : Request D) : Script D Reply := ask r fun
  | .ok reply => done reply
  | .error f => fail f

end Script

end Loom
