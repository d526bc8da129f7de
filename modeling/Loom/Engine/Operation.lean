import Loom.Engine.Step

/-! The operations of an engine. `serve` answers a request; the scripts that an operation runs ask
further requests, which are served one level deeper. The number of levels is an argument, and a
request beyond the last level is refused like any other fault. -/
namespace Loom.World

variable {D : Dialect}

/-- Started and not terminated. -/
def requireLive (operation : String) : Act (World D) Unit := do
  let e := (← get).engine
  if !e.started then throw (.notStarted operation)
  if e.phase = .terminated then throw (.isTerminated operation)

/-- An entry must be an instruction. -/
def checkEntry (h : Host D) (i : D.Instr) : Except Fault Unit :=
  if h.wellFormed i then .ok () else .error (h.refusal .entry i)

/-- A derived strand begins at an instruction. -/
def derivedEntry (h : Host D) : Option D.Instr → Except Fault D.Instr
  | none => .error .noEntry
  | some i => do checkEntry h i; .ok i

/-- Where the root strand begins and what its scope holds. A program may be empty. -/
def rootEntry (h : Host D) (entry : Option D.Instr) : Act (World D) (Option D.Instr × D.Scope) := do
  match entry with
  | some i => do
    Act.ofExcept (checkEntry h i)
    pure (some i, h.empty)
  | none =>
    match h.source with
    | none => throw .noProgram
    | some source => do
      let memory := (← get).memory
      let first ← Act.ofExcept (source.first memory)
      let contents ← Act.ofExcept (source.scope memory)
      let sid := (← get).engine.strands.size
      let label := (first.map h.label).getD "None"
      note .debug .strand s!"root strand {sid} entry={label}"
      match first with
      | none => pure ()
      | some i => Act.ofExcept (checkEntry h i)
      pure (first, contents)

/-- Add a strand to the table; the result is its number. -/
def addStrand (h : Host D) (cursor : Option D.Instr) (scope : ScopeChoice D) : Act (World D) Nat := do
  let w ← get
  let sid := w.engine.strands.size
  let (place, memory) := match scope with
    | .fresh => (sid, h.install w.memory sid h.empty)
    | .given contents => (sid, h.install w.memory sid contents)
    | .shared other => (((w.engine.strand? other).map (·.scope)).getD sid, w.memory)
  set { w with
    memory
    engine := { w.engine with strands := w.engine.strands.push { cursor, scope := place } } }
  pure sid

def start (h : Host D) (fire : Ticket → Act (World D) Unit) (entry : Option D.Instr) :
    Act (World D) Unit := do
  if (← get).engine.started then throw .alreadyStarted
  let (cursor, contents) ← rootEntry h entry
  arm h.scheduler fire .zero
  let sid ← addStrand h cursor (.given contents)
  modifyEngine fun e =>
    { e with started := true, live := if cursor.isSome then [sid] else [], index := 0, sliceUsed := 0 }
  transition .running "start"
  match cursor with
  | none => pure ()
  | some i => discard (emit (.spawned sid (h.label i)))

def resume (h : Host D) (fire : Ticket → Act (World D) Unit) : Act (World D) Unit := do
  requireLive "resume"
  if (← get).engine.phase = .halted then note .debug .process "resume ignored: process halted"
  else do
    arm h.scheduler fire .zero
    if (← get).engine.phase = .paused then transition .running "resume"

def pause (h : Host D) : Act (World D) Unit := do
  requireLive "pause"
  disarm h.scheduler
  if (← get).engine.phase = .running then transition .paused "pause"

def setRate (given : Option Value) : Act (World D) Unit := do
  if (← get).engine.phase = .terminated then throw .rateAfterTermination
  let rate ← match given with
    | none => pure Binary64.zero
    | some v => Act.ofExcept (Rate.check v)
  modifyEngine fun e => { e with rate }
  note .debug .process s!"rate set to {rate.text}ms"

/-- Release every strand and end for good. -/
def terminate (h : Host D) : Act (World D) Unit := do
  let e := (← get).engine
  if !e.started then throw (.notStarted "terminate")
  if e.phase = .terminated then throw .alreadyTerminated
  disarm h.scheduler
  let released := e.live.length
  modifyEngine fun e => { e with live := [], index := 0, skip := none }
  transition .terminated "terminate"
  let steps := (← get).engine.totalSteps
  note .info .process s!"process terminated after {steps} steps ({released} strand(s) released)"

def snapshot (h : Host D) (e : Engine D) (sid : Nat) : Snapshot :=
  { sid, steps := e.steps sid, instruction := (e.cursor sid).map h.label }

/-- Add a strand to those in play. -/
def spawn (h : Host D) (fire : Ticket → Act (World D) Unit) (entry : Option D.Instr)
    (scope : ScopeChoice D) : Act (World D) Nat := do
  requireLive "spawn"
  if (← get).engine.phase = .halted then throw .isHalted
  let i ← Act.ofExcept (derivedEntry h entry)
  let sid ← addStrand h (some i) scope
  modifyEngine fun e => { e with live := e.live ++ [sid] }
  discard (emit (.spawned sid (h.label i)))
  let e := (← get).engine
  if e.phase = .running ∧ e.pending.isNone ∧ !e.stepping then arm h.scheduler fire .zero
  pure sid

/-- One instruction of a paused engine. -/
def step (h : Host D) (run : {α : Type} → Script D α → Act (World D) α)
    (fire : Ticket → Act (World D) Unit) : Act (World D) StepResult := do
  requireLive "step"
  let e := (← get).engine
  if e.phase = .running then throw .stepWhileRunning
  if e.phase = .halted then result e.nextSeq 0 none false else executeStep h run fire true

def info (h : Host D) (e : Engine D) : Info where
  phase := e.phase
  started := e.started
  rate := e.rate
  breakpoints := e.breaking
  timeSlice := e.timeSlice
  totalSteps := e.totalSteps
  pending := e.pending.isSome
  current := e.current
  strands := e.live.map (snapshot h e)

/-- Take out the strand at a position of `live`; negative positions count from the end. -/
def forget (position : Int) : Act (World D) Unit :=
  modifyEngine fun e =>
    let p := if position < 0 then position + e.live.length else position
    if p < 0 then e else { e with live := e.live.eraseIdx p.toNat }

/-- Hand out everything that the open mailboxes hold. -/
def pump (rounds : Nat) : Act (World D) Nat := do
  let w ← get
  match w.bus with
  | none => pure 0
  | some bus =>
    let quiet : Handlers Unit := fun _ _ m => (.done, m)
    let (r, p) := (PostOffice.pump quiet rounds).outcome { bus, memory := () }
    set { w with bus := some p.bus }
    Act.ofExcept r

/-- Run a script; its requests are put to `serve`. -/
def runScript (serve : Request D → Act (World D) Reply) : Script D α → Act (World D) α
  | .done a => pure a
  | .fail f => throw f
  | .look next => do runScript serve (next (← get).memory)
  | .store memory next => do
    modify fun w => { w with memory }
    runScript serve next
  | .ask r next => do
    let outcome ← Act.attempt (serve r)
    runScript serve (next outcome)

/-- Take the scheduler's next step and fire it; false when there is none. -/
def runNext (s : Scheduler D.Clock) (fire : Ticket → Act (World D) Unit) : Act (World D) Bool := do
  let w ← get
  match s.next w.clock with
  | none => pure false
  | some (ticket, clock) =>
    set { w with clock }
    fire ticket
    pure true

/-- Carry out a request, putting the requests of scripts to `serve`. -/
def perform (h : Host D) (rounds : Nat) (serve : Request D → Act (World D) Reply) :
    Request D → Act (World D) Reply := fun request =>
  let run : {α : Type} → Script D α → Act (World D) α := fun s => runScript serve s
  let fire : Ticket → Act (World D) Unit := fun t => discard (serve (.fire t))
  match request with
  | .start entry => do start h fire entry; pure .self
  | .pause => do pause h; pure .self
  | .resume => do resume h fire; pure .self
  | .rate given => do setRate given; pure .self
  | .terminate farewell => do
    terminate h
    match farewell with
    | none => pure .self
    | some f => do run (h.farewell f); pure .self
  | .breakpoints on => do modifyEngine fun e => { e with breaking := on }; pure .self
  | .spawn entry scope => do
    let sid ← spawn h fire entry scope
    pure (.strand (snapshot h (← get).engine sid))
  | .step => do return .stepped (← step h run fire)
  | .info => do return .info (info h (← get).engine)
  | .current => do
    let e := (← get).engine
    pure (.text (e.current.bind fun sid => (e.strand? sid).map (describeStrand h sid)))
  | .events limit => do return .events ((← get).engine.recent limit)
  | .emit type strand data => do
    let what ← Act.ofExcept (Happening.announce type strand data)
    return .event (← emit what)
  | .fire ticket => do honour h run fire ticket; pure .nothing
  | .fireIssued n => do
    match h.scheduler.issued (← get).clock n with
    | none => throw .outOfRange
    | some ticket => do honour h run fire ticket; pure .nothing
  | .runNext => do return .flag (← runNext h.scheduler fire)
  | .runAll limit => do return .count (← Act.repeatWhile (runNext h.scheduler fire) limit rounds 0)
  | .refuse on => do
    modify fun w => { w with clock := h.scheduler.refuse w.clock on }
    pure .nothing
  | .pump => do return .count (← pump rounds)
  | .timeSlice n => do modifyEngine fun e => { e with timeSlice := n }; pure .nothing
  | .forget position => do forget position; pure .nothing
  | .blank sid => do
    modifyEngine fun e => e.updateStrand sid fun s => { s with cursor := none }
    pure .nothing

/-- Answer a request, with a bound on the levels of requests within requests. -/
def serve (h : Host D) (rounds : Nat) : Nat → Request D → Act (World D) Reply
  | 0, _ => throw .tooDeep
  | depth + 1, r => perform h rounds (serve h rounds depth) r

end Loom.World
