import Loom.Act
import Loom.Value.Convert

/-! An agenda of deferred calls in virtual time. Calls are made with a delay, may be cancelled, and
are fired one at a time, the earliest first and calls due together in the order of their making.
Firing moves the clock to the time the call was due. -/
namespace Loom

/-- A deferred call. Its number counts the calls made before it. -/
structure Call (α : Type) where
  due : Binary64
  delay : Binary64
  payload : α
  cancelled : Bool := false

/-- The calls made so far and, by number, those still waiting, in the order in which they are due. -/
structure Agenda (α : Type) where
  now : Binary64 := .zero
  calls : Array (Call α) := #[]
  queue : List Nat := []

namespace Agenda

/-- Negative delays count as none. -/
def clamp (delay : Binary64) : Binary64 := Binary64.zero.max delay

/-- Put a new call behind every call that is not due after it. -/
def insert (calls : Array (Call α)) (due : Binary64) (n : Nat) : List Nat → List Nat
  | [] => [n]
  | i :: rest =>
    match calls[i]? with
    | some c => if due.lt c.due then n :: i :: rest else i :: insert calls due n rest
    | none => i :: insert calls due n rest

/-- Make a call; the result is its number. -/
def push (a : Agenda α) (delay : Binary64) (payload : α) : Nat × Agenda α :=
  let delay := clamp delay
  let due := a.now.add delay
  let n := a.calls.size
  (n, { a with calls := a.calls.push { due, delay, payload }, queue := insert a.calls due n a.queue })

/-- Make a call after a delay given as a value. -/
def schedule (a : Agenda α) (delay : Value) (payload : α) : Except Fault (Nat × Agenda α) :=
  delay.toFloat.map fun d => a.push d payload

def cancel (a : Agenda α) (n : Nat) : Agenda α :=
  { a with calls := a.calls.modify n fun c => { c with cancelled := true } }

def isLive (a : Agenda α) (n : Nat) : Bool :=
  match a.calls[n]? with
  | some c => !c.cancelled
  | none => false

/-- The number of calls that wait and are not cancelled. -/
def pending (a : Agenda α) : Nat := (a.queue.filter a.isLive).length

def delays (a : Agenda α) : List Binary64 := a.calls.toList.map (·.delay)

/-- Take the next call that is not cancelled and move the clock. -/
def pop (a : Agenda α) : Option (α × Agenda α) :=
  match a.queue.dropWhile (!a.isLive ·) with
  | [] => none
  | n :: rest => (a.calls[n]?).map fun c => (c.payload, { a with now := a.now.max c.due, queue := rest })

end Agenda

/-- What a deferred call does when it is fired. It may look at the outcome of each of its own
operations before it goes on. -/
inductive Errand where
  | done
  | fail (f : Fault)
  | note (label : String) (next : Errand)
  | later (delay : Value) (body : Errand) (next : Except Fault Nat → Errand)
  | cancel (call : Nat) (next : Except Fault Unit → Errand)
  | fireNext (next : Except Fault Bool → Errand)
  | fireAll (limit : Option Int) (next : Except Fault Nat → Errand)
  deriving Inhabited

/-- An agenda of errands and the labels noted so far. -/
structure Timeline where
  agenda : Agenda Errand := {}
  noted : List String := []

namespace Timeline

def later (delay : Value) (body : Errand) : Act Timeline Nat := do
  let t ← get
  let (n, agenda) ← Act.ofExcept (t.agenda.schedule delay body)
  set { t with agenda }
  pure n

def cancel (n : Nat) : Act Timeline Unit := do
  let t ← get
  if n < t.agenda.calls.size then set { t with agenda := t.agenda.cancel n } else throw .outOfRange

/-- Carry out an errand; `fire` fires the next call, and at most `rounds` calls are fired in one go. -/
def carryOut (fire : Act Timeline Bool) (rounds : Nat) : Errand → Act Timeline Unit
  | .done => pure ()
  | .fail f => throw f
  | .note label next => do
    modify fun t => { t with noted := t.noted ++ [label] }
    carryOut fire rounds next
  | .later delay body next => do
    let r ← Act.attempt (later delay body)
    carryOut fire rounds (next r)
  | .cancel n next => do
    let r ← Act.attempt (cancel n)
    carryOut fire rounds (next r)
  | .fireNext next => do
    let r ← Act.attempt fire
    carryOut fire rounds (next r)
  | .fireAll limit next => do
    let r ← Act.attempt (Act.repeatWhile fire limit rounds 0)
    carryOut fire rounds (next r)

/-- Fire the next call; false when none is waiting. The depth bounds how far errands may nest. -/
def fireNext (rounds : Nat) : Nat → Act Timeline Bool
  | 0 => throw .tooDeep
  | depth + 1 => do
    let t ← get
    match t.agenda.pop with
    | none => pure false
    | some (errand, agenda) =>
      set { t with agenda }
      carryOut (fireNext rounds depth) rounds errand
      pure true

end Timeline

end Loom
