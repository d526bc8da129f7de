import Loom.Mailbox

/-! Simple handlers: each does one fixed thing with the events it is handed. -/
namespace Loom

/-- What a handler does besides taking the event. -/
inductive Habit where
  | quiet
  /-- Fail on events of one type. -/
  | failOn (type : String)
  /-- Publish an event on each of the first deliveries. -/
  | echo (event : Table) (times : Nat)
  /-- Close a mailbox. -/
  | closing (box : Nat)

namespace Habit

/-- Pass on the fault of an operation. -/
def orFail (r : Except Fault α) : Reaction :=
  match r with
  | .ok _ => .done
  | .error f => .fail f

/-- The reaction to an event, and the habit from then on. -/
def react (total : Nat) (e : TypedEvent) : Habit → Reaction × Habit
  | quiet => (.done, quiet)
  | failOn type =>
    (if e.header.type == type then .fail (.raised .value s!"handler {e.header.seq}") else .done,
      failOn type)
  | echo event 0 => (.done, echo event 0)
  | echo event (n + 1) => (.publish event orFail, echo event n)
  | closing i => (if i < total then .close i .done else .fail .outOfRange, closing i)

/-- Handlers that follow one habit each, by mailbox number. -/
def handlers : Handlers (Array Habit) := fun i e habits =>
  match habits[i]? with
  | some h =>
    let (reaction, h) := h.react habits.size e
    (reaction, habits.setIfInBounds i h)
  | none => (.done, habits)

/-- A post office whose handlers have habits. -/
abbrev Office := PostOffice (Array Habit)

/-- Open a mailbox with a habit; the result is its number. -/
def subscribe (categories strand size : Value) (habit : Habit) : Act Office Nat := do
  let m ← Act.ofExcept (Mailbox.make categories strand size)
  let p ← get
  let (n, bus) := p.bus.subscribe m
  set { p with bus, memory := p.memory.push habit }
  pure n

/-- Queue an event with one mailbox, whatever its filter. -/
def offer (i : Nat) (event : Table) : Act Office Unit := do
  let e ← Act.ofExcept (TypedEvent.read event)
  modify fun p => { p with bus := p.bus.offer i e }

/-- Whether a mailbox would accept an event. -/
def accepts (i : Nat) (event : Table) : Act Office Bool := do
  let e ← Act.ofExcept (TypedEvent.read event)
  pure ((← get).bus.accepts i e)

/-- Publish events while a dispatcher delivers them. -/
def inBackground (rounds : Nat) (events : List Table) : Act Office Unit := do
  PostOffice.start
  events.forM fun e => discard (PostOffice.publish e)
  PostOffice.wake handlers rounds
  PostOffice.stop handlers rounds

end Habit

end Loom
