import Loom.Journal
import Loom.Mailbox
import Loom.Scheduler.Clockwork
import Loom.Settings

/-! An engine runs the strands of a program in turns, one instruction at a time. This module holds its
state, the world it works in, and the two ways it speaks: notes in the journal and events. -/
namespace Loom

/-- A cursor in a program, the scope its instructions work on, and the count of those completed. A
strand without a current instruction has halted. -/
structure Strand (D : Dialect) where
  cursor : Option D.Instr
  scope : Nat
  steps : Nat := 0

/-- The state of an engine. Strands are numbered in the order of their making; `live` lists those in
play, in turn order. -/
structure Engine (D : Dialect) where
  run : Nat := 0
  strands : Array (Strand D) := #[]
  live : List Nat := []
  /-- The position of the turn in `live`, and the steps taken since it got there. -/
  index : Nat := 0
  sliceUsed : Nat := 0
  phase : Phase := .idle
  started : Bool := false
  breaking : Bool
  rate : Binary64
  timeSlice : Int
  /-- The scheduler's handle of the deferred step. -/
  pending : Option Nat := none
  /-- Only a ticket with this token is honoured. -/
  token : Nat := 0
  stepping : Bool := false
  /-- The stop that the next step may pass. -/
  skip : Option (Nat × D.Instr) := none
  totalSteps : Nat := 0
  historySize : Nat
  history : List Event := []
  nextSeq : Nat := 1

/-- A fresh engine with the given settings. -/
def Engine.make (run : Nat) (s : Settings) : Except Fault (Engine D) :=
  if (s.historySize : Int) ≤ Mailbox.maxCapacity then
    .ok { run, breaking := s.breakpoints.truthy, rate := s.rate, timeSlice := s.timeSlice,
          historySize := s.historySize }
  else .error .sizeTooLarge

/-- Where a program starts: its first instruction and the contents of the first scope. Both are asked of the
program's memory when a run starts, and may fail. -/
structure Source (D : Dialect) where
  first : D.Memory → Except Fault (Option D.Instr)
  scope : D.Memory → Except Fault D.Scope

/-- A program as the engine sees it. -/
structure Host (D : Dialect) where
  /-- Whether something can be executed and knows its successor. -/
  wellFormed : D.Instr → Bool
  label : D.Instr → String
  /-- The text that shows in a refusal what is no instruction; none when a whole number in it is too long to be
  written. -/
  depict : D.Instr → Option String
  /-- What an instruction does on a scope. -/
  code : D.Instr → Nat → Script D Unit
  next : D.Memory → D.Instr → Except Fault (Option D.Instr)
  /-- Whether to stop before an instruction. -/
  breaks : D.Instr → Script D Bool
  source : Option (Source D)
  /-- Give a scope its contents. -/
  install : D.Memory → Nat → D.Scope → D.Memory
  empty : D.Scope
  farewell : D.Farewell → Script D Unit
  scheduler : Scheduler D.Clock

/-- What refuses something that is no instruction. -/
def Host.refusal (h : Host D) (role : Role) (i : D.Instr) : Fault :=
  match h.depict i with
  | some shown => .notInstruction role shown
  | none => .unwritable

/-- What an engine has done, for those who reason about runs. -/
inductive Deed (D : Dialect) where
  | emitted (e : Event)
  | began (sid : Nat) (i : D.Instr) (phase : Phase) (manual : Bool)
  | returned (sid : Nat) (i : D.Instr)
  /-- A step was put to the scheduler, which took it or refused. -/
  | deferred (ticket : Ticket) (taken : Bool)

/-- An engine together with what it acts on. -/
structure World (D : Dialect) where
  engine : Engine D
  clock : D.Clock
  memory : D.Memory
  bus : Option Bus := none
  /-- The reading of the wall clock. -/
  wall : Binary64 := .zero
  journal : Array LogEntry := #[]
  deeds : Array (Deed D) := #[]

namespace Engine

variable {D : Dialect}

def strand? (e : Engine D) (sid : Nat) : Option (Strand D) := e.strands[sid]?

def cursor (e : Engine D) (sid : Nat) : Option D.Instr := (e.strand? sid).bind (·.cursor)

def steps (e : Engine D) (sid : Nat) : Nat := ((e.strand? sid).map (·.steps)).getD 0

def updateStrand (e : Engine D) (sid : Nat) (f : Strand D → Strand D) : Engine D :=
  { e with strands := e.strands.modify sid f }

/-- The strand whose turn it is. -/
def current (e : Engine D) : Option Nat :=
  match e.live with
  | [] => none
  | live => live[e.index % live.length]?

/-- Remember an event, forgetting the oldest beyond the size of the history. -/
def remember (e : Engine D) (event : Event) : Engine D :=
  let h := e.history ++ [event]
  { e with history := h.drop (h.length - e.historySize) }

/-- The remembered events from a number on. -/
def since (e : Engine D) (mark : Nat) : List Event := e.history.filter (mark ≤ ·.seq)

/-- The last remembered events; a limit that is not above zero is none. -/
def recent (e : Engine D) (limit : Option Int) : List Event :=
  match limit with
  | none => e.history
  | some n => if n ≤ 0 then e.history else e.history.drop (e.history.length - n.toNat)

end Engine

namespace World

variable {D : Dialect}

def modifyEngine (f : Engine D → Engine D) : Act (World D) Unit :=
  modify fun w => { w with engine := f w.engine }

def note (level : LogLevel) (source : LogSource) (text : String) : Act (World D) Unit :=
  modify fun w => { w with journal := w.journal.push ⟨level, source, text⟩ }

def record (deed : Deed D) : Act (World D) Unit :=
  modify fun w => { w with deeds := w.deeds.push deed }

/-- Number an event and remember it. -/
def enter (what : Happening) : Act (World D) Event := do
  let w ← get
  let event : Event := ⟨w.engine.nextSeq, w.wall, what⟩
  set { w with
    engine := { w.engine with nextSeq := w.engine.nextSeq + 1 }.remember event
    deeds := w.deeds.push (.emitted event) }
  pure event

/-- Publish an event on the bus, if there is one. -/
def publish (event : Event) : Act (World D) Unit := do
  let w ← get
  match w.bus with
  | none => pure ()
  | some bus =>
    let (_, bus) ← Act.ofExcept (bus.publish event.table)
    set { w with bus := some bus }

/-- Announce what happened. -/
def emit (what : Happening) : Act (World D) Event := do
  let event ← enter what
  publish event
  pure event

end World

end Loom
