import Loom.Agenda
import Loom.Script

/-! Schedulers: whatever can defer a step and fire it later. Those that a run can be driven by work over one agenda
of deferred steps. And where a call goes on an event loop. -/
namespace Loom

/-- The outcome of deferring a step. An immediate scheduler fires the step before it returns. -/
structure Arming where
  handle : Nat
  immediate : Bool := false

/-- A scheduler with state `κ`. -/
structure Scheduler (κ : Type) where
  /-- Defer a step by a delay in milliseconds. -/
  arm : κ → Binary64 → Ticket → Except Fault Arming × κ
  cancel : κ → Nat → κ
  /-- Take the step to fire next. -/
  next : κ → Option (Ticket × κ)
  /-- The steps deferred so far, by number. -/
  issued : κ → Nat → Option Ticket
  /-- Refuse or accept further steps. -/
  refuse : κ → Bool → κ

/-- What kind of scheduler drives a run. -/
inductive ClockKind where
  /-- Virtual time, driven by its owner. -/
  | manual
  /-- Virtual time, refusing steps when told to. -/
  | refusing
  /-- Timers that fire on their own; what leaves a step is noted in the journal. -/
  | timers
  /-- An event loop that fires on its own; what leaves a step is collected. -/
  | loop
  /-- An event loop that is not running. -/
  | idleLoop
  /-- Keeps every step and never forgets a cancelled one. -/
  | keeping
  /-- Keeps every step and fires it at once. -/
  | eager
  deriving DecidableEq, Repr

structure Clockwork where
  kind : ClockKind
  agenda : Agenda Ticket := {}
  refusing : Bool := false
  /-- The faults that left a step on an event loop. -/
  faults : List Fault := []

namespace Clockwork

/-- The fault with which a step is refused. -/
def refusal (c : Clockwork) : Option Fault :=
  match c.kind with
  | .refusing => if c.refusing then some .schedulerUnavailable else none
  | .idleLoop => some .noLoop
  | _ => none

def arm (c : Clockwork) (delay : Binary64) (ticket : Ticket) : Except Fault Arming × Clockwork :=
  match c.refusal with
  | some f => (.error f, c)
  | none =>
    let (n, agenda) := c.agenda.push delay ticket
    (.ok { handle := n, immediate := c.kind = .eager }, { c with agenda })

/-- The keeping kinds take no notice of a cancellation. -/
def keeps (c : Clockwork) : Bool := c.kind = .keeping || c.kind = .eager

def cancel (c : Clockwork) (n : Nat) : Clockwork :=
  if c.keeps then c else { c with agenda := c.agenda.cancel n }

def next (c : Clockwork) : Option (Ticket × Clockwork) :=
  if c.keeps then none
  else c.agenda.pop.map fun (ticket, agenda) => (ticket, { c with agenda })

end Clockwork

def Scheduler.clockwork : Scheduler Clockwork where
  arm := Clockwork.arm
  cancel := Clockwork.cancel
  next := Clockwork.next
  issued c n := (c.agenda.calls[n]?).map (·.payload)
  refuse c on := { c with refusing := on }

/-- Where a call goes on an event loop: behind the calls that are ready, or at a time. -/
inductive LoopPlacement where
  | soon
  | later (seconds : Binary64)

/-- Place a call by its delay in milliseconds. A delay that is not above zero means soon. -/
def LoopPlacement.ofDelay (delay : Value) : Except Fault LoopPlacement := do
  if ← delay.leInt 0 then .ok .soon
  else do
    let ms ← delay.toFloat
    .ok (.later (ms.divNat 1000))

end Loom
