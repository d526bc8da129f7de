import Loom.Act
import Loom.Event.Typed

/-! Mailboxes and the bus that feeds them. A mailbox queues the events that pass its filter and gives
up the oldest one when it is full; draining hands the queued events to the owner's handler, which may
fail, publish further events or close mailboxes. -/
namespace Loom

structure Mailbox where
  /-- The event types to accept; none accepts every type. -/
  categories : Option (List Value)
  /-- The strand to accept; nothing accepts every strand. -/
  strand : Value
  capacity : Nat
  queue : List TypedEvent := []
  dropped : Nat := 0
  /-- Every event ever offered and every event handed out, in order. -/
  offered : List TypedEvent := []
  handed : List TypedEvent := []

namespace Mailbox

/-- The largest capacity. -/
def maxCapacity : Int := 9223372036854775807

def checkCapacity : Value → Except Fault Nat
  | .bool b => .ok (if b then 1 else 0)
  | .int n => if n ≤ maxCapacity then .ok n.toNat else .error .sizeTooLarge
  | _ => .error .wholeRequired

def checkCategories (given : Value) : Except Fault (Option (List Value)) :=
  if given.truthy then do
    let items ← given.items
    match items.find? (!·.isHashable) with
    | some v => .error (.unhashable v.kind)
    | none => .ok (some items)
  else .ok none

/-- A mailbox from its settings, checked in the order size, categories, capacity. -/
def make (categories strand size : Value) : Except Fault Mailbox := do
  if ← size.ltInt 1 then .error (size.refusal .queueRejected)
  let categories ← checkCategories categories
  let capacity ← checkCapacity size
  .ok { categories, strand, capacity }

def acceptsType (m : Mailbox) (type : String) : Bool :=
  m.categories.all fun cs => cs.any (·.same (.str type))

def acceptsStrand (m : Mailbox) (strand : Option Int) : Bool :=
  match m.strand with
  | .none => true
  | v => (Value.ofOption .int strand).same v

def accepts (m : Mailbox) (e : TypedEvent) : Bool :=
  m.acceptsType e.header.type && m.acceptsStrand e.header.strand

/-- Queue an event; a full mailbox gives up its oldest one. -/
def offer (m : Mailbox) (e : TypedEvent) : Mailbox :=
  let full := m.queue.length == m.capacity
  { m with
    queue := (if full then m.queue.tail else m.queue) ++ [e]
    dropped := if full then m.dropped + 1 else m.dropped
    offered := m.offered ++ [e] }

/-- Hand out the oldest event. -/
def take (m : Mailbox) : Option (TypedEvent × Mailbox) :=
  match m.queue with
  | [] => none
  | e :: rest => some (e, { m with queue := rest, handed := m.handed ++ [e] })

end Mailbox

/-- All mailboxes ever opened, the numbers of those still open, and whether a dispatcher is at work. -/
structure Bus where
  boxes : Array Mailbox := #[]
  listeners : List Nat := []
  running : Bool := false

namespace Bus

/-- Open a mailbox; the result is its number. -/
def subscribe (b : Bus) (m : Mailbox) : Nat × Bus :=
  (b.boxes.size,
    { b with boxes := b.boxes.push m, listeners := b.listeners ++ [b.boxes.size] })

/-- Close a mailbox. What it has queued can still be drained. -/
def close (b : Bus) (i : Nat) : Bus := { b with listeners := b.listeners.filter (· != i) }

/-- Queue an event with one mailbox. -/
def offer (b : Bus) (i : Nat) (e : TypedEvent) : Bus := { b with boxes := b.boxes.modify i (·.offer e) }

def accepts (b : Bus) (i : Nat) (e : TypedEvent) : Bool :=
  match b.boxes[i]? with
  | some m => m.accepts e
  | none => false

/-- Queue an event with every open mailbox that accepts it. -/
def deliver (b : Bus) (e : TypedEvent) : Bus :=
  (b.listeners.filter (b.accepts · e)).foldl (fun b i => b.offer i e) b

/-- Read an event and queue it. -/
def publish (b : Bus) (event : Table) : Except Fault (TypedEvent × Bus) := do
  let e ← TypedEvent.read event
  .ok (e, b.deliver e)

/-- Take the oldest event out of a mailbox. -/
def take (b : Bus) (i : Nat) : Option (TypedEvent × Bus) := do
  let m ← b.boxes[i]?
  let (e, m) ← m.take
  some (e, { b with boxes := b.boxes.setIfInBounds i m })

end Bus

/-- What a handler does with an event it was handed. -/
inductive Reaction where
  | done
  | fail (f : Fault)
  | publish (event : Table) (next : Except Fault TypedEvent → Reaction)
  | close (box : Nat) (next : Reaction)

/-- Handlers share a memory `μ`; each sees the number of its mailbox and the event. -/
abbrev Handlers (μ : Type) := Nat → TypedEvent → μ → Reaction × μ

/-- The bus together with its handlers' memory. -/
structure PostOffice (μ : Type) where
  bus : Bus := {}
  memory : μ

namespace PostOffice

def publish (event : Table) : Act (PostOffice μ) TypedEvent := do
  let p ← get
  let (e, bus) ← Act.ofExcept (p.bus.publish event)
  set { p with bus }
  pure e

def react : Reaction → Act (PostOffice μ) Unit
  | .done => pure ()
  | .fail f => throw f
  | .publish event next => do
    let r ← Act.attempt (publish event)
    react (next r)
  | .close i next => do
    modify fun p => { p with bus := p.bus.close i }
    react next

/-- Hand out one event of a mailbox; false when it is empty. -/
def handOne (handlers : Handlers μ) (i : Nat) : Act (PostOffice μ) Bool := do
  let p ← get
  match p.bus.take i with
  | none => pure false
  | some (e, bus) =>
    let (reaction, memory) := handlers i e p.memory
    set { p with bus, memory }
    react reaction
    pure true

/-- Hand out the events of a mailbox until it is empty. -/
def drain (handlers : Handlers μ) (rounds i : Nat) : Act (PostOffice μ) Nat :=
  Act.repeatWhile (handOne handlers i) none rounds 0

/-- Drain mailboxes in turn; a failing handler ends the round. -/
def drainAll (handlers : Handlers μ) (rounds : Nat) : List Nat → Act (PostOffice μ) Nat
  | [] => pure 0
  | i :: rest => do
    let n ← drain handlers rounds i
    let m ← drainAll handlers rounds rest
    pure (n + m)

/-- Drain the mailboxes that are open now. -/
def pump (handlers : Handlers μ) (rounds : Nat) : Act (PostOffice μ) Nat := do
  drainAll handlers rounds (← get).bus.listeners

/-- Put a dispatcher to work. -/
def start : Act (PostOffice μ) Unit := modify fun p => { p with bus.running := true }

/-- The dispatcher pumps; a handler's fault ends it. -/
def wake (handlers : Handlers μ) (rounds : Nat) : Act (PostOffice μ) Unit := do
  if (← get).bus.running then
    match ← Act.attempt (pump handlers rounds) with
    | .ok _ => pure ()
    | .error _ => modify fun p => { p with bus.running := false }

/-- The dispatcher pumps a last time and ends. -/
def stop (handlers : Handlers μ) (rounds : Nat) : Act (PostOffice μ) Unit := do
  wake handlers rounds
  modify fun p => { p with bus.running := false }

end PostOffice

end Loom
