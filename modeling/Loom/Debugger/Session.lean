import Loom.Debugger.Report
import Loom.Engine.Operation

/-! A debugger session: the program under debugging, the settings for new engines, the current engine,
and what has been printed. -/
namespace Loom

/-- What a debugger can load, how many rounds it lets anything go on for, and how deep requests may
nest. -/
structure Bench (D : Dialect) where
  load : String → Except Fault (Host D)
  rounds : Nat
  depth : Nat

structure Session (D : Dialect) where
  reference : String
  settings : Settings := {}
  json : Bool := false
  /-- The program, once it has been loaded. -/
  program : Option (Host D) := none
  engine : Option (Engine D) := none
  /-- The engines before the current one, the latest first. -/
  past : List (Engine D) := []
  clock : D.Clock
  memory : D.Memory
  bus : Bus := {}
  wall : Binary64 := .zero
  journal : Array LogEntry := #[]
  deeds : Array (Deed D) := #[]
  /-- What has been printed, and what has been printed as errors. -/
  out : String := ""
  err : String := ""

namespace Session

variable {D : Dialect}

/-- The world of an engine of this session. -/
def world (s : Session D) (engine : Engine D) : World D :=
  { engine, clock := s.clock, memory := s.memory, bus := some s.bus, wall := s.wall,
    journal := s.journal, deeds := s.deeds }

/-- Take over a world. -/
def absorb (w : World D) (s : Session D) : Session D :=
  { s with
    engine := some w.engine, clock := w.clock, memory := w.memory, bus := w.bus.getD s.bus
    journal := w.journal, deeds := w.deeds }

/-- How many engines there have been. -/
def engineCount (s : Session D) : Nat := s.past.length + s.engine.toList.length

/-- Print. -/
def say (text : String) : Act (Session D) Unit := modify fun s => { s with out := s.out ++ text }

def sayError (text : String) : Act (Session D) Unit := modify fun s => { s with err := s.err ++ text }

/-- Report the outcome of a command. -/
def announce (message : String) (data : Table) : Act (Session D) Unit := do
  say (← Act.ofExcept (Report.result (← get).json message (some data)))

/-- Report a failure. -/
def complain (message : String) (details : Table) : Act (Session D) Unit := do
  say (← Act.ofExcept (Report.error (← get).json message (some details)))

/-- Work on the current engine. -/
def onEngine (act : Host D → Act (World D) α) : Act (Session D) α := do
  let s ← get
  match s.program, s.engine with
  | some h, some e => Act.focus (fun s => s.world e) absorb (act h)
  | _, _ => throw .noProcess

/-- Ask the current engine for an operation. -/
def ask (b : Bench D) (r : Request D) : Act (Session D) Reply :=
  onEngine fun h => World.serve h b.rounds b.depth r

/-- The program, loaded at the first need. -/
def loadProgram (b : Bench D) : Act (Session D) Unit := do
  let s ← get
  match s.program with
  | some _ => pure ()
  | none => do
    let h ← Act.ofExcept (b.load s.reference)
    set { s with program := some h }

/-- End an engine that is under way. -/
def endEngine (b : Bench D) (e : Engine D) : Act (Session D) Unit :=
  if e.started && e.phase ≠ .terminated then discard (ask b (.terminate none)) else pure ()

/-- Put a new engine in place of the current one. -/
def renew (b : Bench D) : Act (Session D) Unit := do
  match (← get).engine with
  | some e => endEngine b e
  | none => pure ()
  loadProgram b
  let s ← get
  let engine ← Act.ofExcept (Engine.make s.engineCount s.settings)
  set { s with engine := some engine, past := s.engine.toList ++ s.past }

/-- Have an engine that can still be used. -/
def ensure (b : Bench D) : Act (Session D) Unit := do
  match (← get).engine with
  | some e => if e.phase = .terminated ∨ e.phase = .halted then renew b else pure ()
  | none => renew b

/-- The current engine, which must have been started. -/
def require : Act (Session D) (Engine D) := do
  match (← get).engine with
  | some e => if e.started then pure e else throw .noProcess
  | none => throw .noProcess

/-- Let go of the current engine. -/
def disconnect (b : Bench D) : Act (Session D) Unit := do
  match (← get).engine with
  | some e => do
    endEngine b e
    modify fun s => { s with engine := none, past := s.engine.toList ++ s.past }
  | none => pure ()

/-- The state of the current engine. -/
def info? (s : Session D) : Option Info := do
  let h ← s.program
  let e ← s.engine
  some (World.info h e)

/-- Let the scheduler fire the next deferred step. -/
def fireNext (b : Bench D) : Act (Session D) Bool := do
  match (← get).engine with
  | none => pure false
  | some _ =>
    match ← ask b .runNext with
    | .flag fired => pure fired
    | _ => pure false

/-- Let the scheduler fire deferred steps. -/
def fireAll (b : Bench D) (limit : Option Int) : Act (Session D) Nat := do
  match (← get).engine with
  | none => pure 0
  | some _ =>
    match ← ask b (.runAll limit) with
    | .count n => pure n
    | _ => pure 0

/-- The events to give notice of. -/
def noticeCategories : Value := .list [.str "debug_break", .str "error", .str "process_state"]

/-- Print notices; there are none in JSON. -/
def notices (json : Bool) : Handlers String := fun _ e out =>
  match Report.notice e with
  | .error f => (.fail f, out)
  | .ok (some text) => (.done, if json then out else out ++ Report.line text)
  | .ok none => (.done, out)

/-- Work on the bus, with what has been printed as the handlers' memory. -/
def onBus (act : Act (PostOffice String) α) : Act (Session D) α :=
  Act.focus (fun s => { bus := s.bus, memory := s.out })
    (fun p s => { s with bus := p.bus, out := p.memory }) act

/-- Open the mailbox for notices; the result is its number. -/
def attachNotices : Act (Session D) Nat := do
  let m ← Act.ofExcept (Mailbox.make noticeCategories .none (.int 256))
  let s ← get
  let (n, bus) := s.bus.subscribe m
  set { s with bus }
  pure n

def closeNotices (box : Nat) : Act (Session D) Unit :=
  modify fun s => { s with bus := s.bus.close box }

/-- Hand out what the mailboxes hold. -/
def pump (b : Bench D) : Act (Session D) Nat := do
  onBus (PostOffice.pump (notices (← get).json) b.rounds)

def startDispatcher : Act (Session D) Unit := onBus PostOffice.start

def stopDispatcher (b : Bench D) : Act (Session D) Unit := do
  onBus (PostOffice.stop (notices (← get).json) b.rounds)

end Session

end Loom
