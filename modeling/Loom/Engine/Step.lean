import Loom.Engine.Basic

/-! One step of an engine: choose the strand whose turn it is, stop before its instruction or execute
it, retire the strand when it has ended, and defer the next step. Everything here takes the runner of
scripts, `run`, and the way to fire a deferred step at once, `fire`, as arguments. -/
namespace Loom.World

variable {D : Dialect}

/-- The changes of phase that are possible. -/
def mayFollow : Phase → Phase → Bool
  | .idle, .running => true
  | .running, .paused | .running, .halted | .running, .terminated => true
  | .paused, .running | .paused, .halted | .paused, .terminated => true
  | .halted, .terminated => true
  | _, _ => false

/-- Change the phase and announce it. Staying in a phase is no change. -/
def transition (new : Phase) (reason : String) : Act (World D) Unit := do
  let old := (← get).engine.phase
  if new = old then pure ()
  else if mayFollow old new then do
    modifyEngine fun e => { e with phase := new }
    note .info .process s!"process {old.name} -> {new.name} ({reason})"
    discard (emit (.phase old new reason))
  else throw (.illegalTransition old new)

/-- Call off the deferred step. The token moves on, so that a ticket already on its way is stale. -/
def disarm (s : Scheduler D.Clock) : Act (World D) Unit :=
  modify fun w =>
    let e := { w.engine with token := w.engine.token + 1, pending := none }
    match w.engine.pending with
    | some handle => { w with engine := e, clock := s.cancel w.clock handle }
    | none => { w with engine := e }

/-- Defer the next step, calling off the one before. -/
def arm (s : Scheduler D.Clock) (fire : Ticket → Act (World D) Unit) (delay : Binary64) :
    Act (World D) Unit := do
  disarm s
  let w ← get
  let ticket : Ticket := ⟨w.engine.run, w.engine.token⟩
  let (r, clock) := s.arm w.clock delay ticket
  set { w with clock, deeds := w.deeds.push (.deferred ticket r.isOk) }
  let arming ← Act.ofExcept r
  if arming.immediate then fire ticket
  modifyEngine fun e => { e with pending := some arming.handle }

/-- Come to rest for want of strands. -/
def halt (s : Scheduler D.Clock) : Act (World D) Unit := do
  disarm s
  transition .halted "no live strands"

/-- A strand in one line. -/
def describeStrand (h : Host D) (sid : Int) (strand : Strand D) : String :=
  let place := (Value.ofOption .str (strand.cursor.map h.label)).spelling
  s!"Strand(sid={sid}, at={place}, steps={strand.steps})"

/-- Take a strand out of play. The strand behind it moves up, so the turn is already there. -/
def retire (h : Host D) (sid : Nat) : Act (World D) Unit := do
  let e := (← get).engine
  if sid ∈ e.live then do
    let live := e.live.erase sid
    modifyEngine fun e =>
      { e with live, sliceUsed := 0, index := if live.length ≤ e.index then 0 else e.index }
    let steps := e.steps sid
    note .info .process s!"strand {sid} halted after {steps} steps"
    discard (emit (.retired sid steps))
  else
    throw (.strandNotListed (((e.strand? sid).map (describeStrand h sid)).getD ""))

/-- Execute the instruction under a strand's cursor and move the cursor to its successor; true while
there is one. `sid` names the strand in a fault. -/
def advance (h : Host D) (run : Script D Unit → Act (World D) Unit) (slot : Nat) (sid : Int)
    (manual : Bool) : Act (World D) Bool := do
  let e := (← get).engine
  match e.strand? slot with
  | none => throw (.strandHalted sid)
  | some strand =>
    match strand.cursor with
    | none => throw (.strandHalted sid)
    | some i => do
      record (.began slot i e.phase manual)
      run (h.code i strand.scope)
      modifyEngine fun e => e.updateStrand slot fun s => { s with steps := s.steps + 1 }
      record (.returned slot i)
      match ← Act.ofExcept (h.next (← get).memory i) with
      | none =>
        modifyEngine fun e => e.updateStrand slot fun s => { s with cursor := none }
        pure false
      | some j =>
        if h.wellFormed j then do
          modifyEngine fun e => e.updateStrand slot fun s => { s with cursor := some j }
          pure true
        else do
          modifyEngine fun e => e.updateStrand slot fun s => { s with cursor := none }
          throw (h.refusal .successor j)

/-- The strand at the turn, after moving the turn on when its slice is used up. -/
def select : Act (World D) Nat := do
  modifyEngine fun e => { e with index := if e.live.length ≤ e.index then 0 else e.index }
  let e := (← get).engine
  if e.timeSlice ≤ (e.sliceUsed : Int) then do
    modifyEngine fun e => { e with sliceUsed := 0 }
    if 1 < e.live.length then do
      let upcoming := (e.index + 1) % e.live.length
      modifyEngine fun e => { e with index := upcoming }
      discard (emit (.rotated (e.live.getD e.index 0) (e.live.getD upcoming 0)))
  let e := (← get).engine
  pure (e.live.getD e.index 0)

/-- Whether to stop before an instruction. The stop that was made last is not made again. -/
def stopsAt (h : Host D) (run : Script D Bool → Act (World D) Bool) (sid : Nat)
    (cursor : Option D.Instr) : Act (World D) Bool := do
  match cursor with
  | none => pure false
  | some i => if (← get).engine.skip = some (sid, i) then pure false else run (h.breaks i)

/-- Whether a step is stopped before its instruction. A manual step consults no breakpoints. -/
def consult (h : Host D) (run : Script D Bool → Act (World D) Bool) (sid : Nat)
    (cursor : Option D.Instr) (manual : Bool) : Act (World D) Bool := do
  if !manual && (← get).engine.breaking then stopsAt h run sid cursor else pure false

/-- The result of a step that began at event number `mark`. -/
def result (mark executed : Nat) (strand : Option Nat) (hasNext : Bool) :
    Act (World D) StepResult := do
  let e := (← get).engine
  pure { executed, strand, hasNext, phase := e.phase, events := e.since mark }

/-- Stop before an instruction. -/
def stop (h : Host D) (mark sid : Nat) (i : D.Instr) : Act (World D) StepResult := do
  modifyEngine fun e => { e with skip := some (sid, i) }
  disarm h.scheduler
  transition .paused "breakpoint"
  let label := h.label i
  note .info .process s!"breakpoint hit: strand {sid} at {label}"
  discard (emit (.stopped sid label))
  result mark 0 (some sid) true

/-- Halt for want of strands, or else pause. -/
def stumble (h : Host D) : Act (World D) Unit := do
  let e := (← get).engine
  if e.live.isEmpty then halt h.scheduler
  else if e.phase = .running then transition .paused "error"

/-- Clean up after a failing instruction. A strand whose successor is broken is dead and retires. A fault that
cannot be worded puts an end to the cleaning up before it is announced. -/
def recover (h : Host D) (sid before : Nat) (cursor : Option D.Instr) (f : Fault) :
    Act (World D) Unit := do
  let label := (cursor.map h.label).getD "None"
  note .error .process s!"strand {sid} failed at {label}"
  disarm h.scheduler
  modifyEngine fun e =>
    { e with totalSteps := if before < e.steps sid then e.totalSteps + 1 else e.totalSteps }
  let text ← Act.ofExcept f.message
  discard (emit (.failed sid text f.kind.name))
  if (← get).engine.phase ≠ .terminated then do
    if ((← get).engine.cursor sid).isNone then retire h sid
    stumble h

/-- Halt for want of strands, or else defer the next step. -/
def windUp (h : Host D) (fire : Ticket → Act (World D) Unit) (manual : Bool) :
    Act (World D) Unit := do
  let e := (← get).engine
  if (e.phase = .running ∨ e.phase = .paused) ∧ e.live.isEmpty then halt h.scheduler
  else if e.phase = .running ∧ !manual then arm h.scheduler fire e.rate

/-- What follows an instruction that was executed. -/
def conclude (h : Host D) (fire : Ticket → Act (World D) Unit) (mark sid : Nat)
    (cursor : Option D.Instr) (hasNext manual : Bool) : Act (World D) StepResult := do
  modifyEngine fun e => { e with totalSteps := e.totalSteps + 1, sliceUsed := e.sliceUsed + 1 }
  let label := (cursor.map h.label).getD "None"
  note .debug .process s!"strand {sid} executed {label}"
  let e := (← get).engine
  discard (emit (.stepped sid label ((e.cursor sid).map h.label) hasNext (e.steps sid)))
  if (← get).engine.phase ≠ .terminated then do
    if !hasNext then retire h sid
    windUp h fire manual
  result mark 1 (some sid) hasNext

/-- Execute the instruction of a strand. An ordinary fault of the instruction is cleaned up after and
passed on. -/
def proceed (h : Host D) (run : {α : Type} → Script D α → Act (World D) α)
    (fire : Ticket → Act (World D) Unit) (mark sid : Nat) (cursor : Option D.Instr) (manual : Bool) :
    Act (World D) StepResult := do
  modifyEngine fun e => { e with skip := none }
  let before := (← get).engine.steps sid
  modifyEngine fun e => { e with stepping := true }
  match ← Act.attempt (advance h run sid sid manual) with
  | .ok hasNext => do
    modifyEngine fun e => { e with stepping := false }
    conclude h fire mark sid cursor hasNext manual
  | .error f => do
    let cleaned ← if f.isOrdinary then Act.attempt (recover h sid before cursor f) else pure (.ok ())
    modifyEngine fun e => { e with stepping := false }
    Act.ofExcept cleaned
    throw f

/-- Stop before the instruction of the strand at the turn, or execute it. A manual step defers no further
step. -/
def executeStep (h : Host D) (run : {α : Type} → Script D α → Act (World D) α)
    (fire : Ticket → Act (World D) Unit) (manual : Bool) : Act (World D) StepResult := do
  let mark := (← get).engine.nextSeq
  if (← get).engine.live.isEmpty then do
    halt h.scheduler
    result mark 0 none false
  else do
    let sid ← select
    let cursor := (← get).engine.cursor sid
    match ← consult h run sid cursor manual, cursor with
    | true, some i => stop h mark sid i
    | _, _ => proceed h run fire mark sid cursor manual

/-- A deferred step comes due. Only the ticket deferred last is honoured, and only while running. -/
def honour (h : Host D) (run : {α : Type} → Script D α → Act (World D) α)
    (fire : Ticket → Act (World D) Unit) (ticket : Ticket) : Act (World D) Unit := do
  let e := (← get).engine
  if ticket = ⟨e.run, e.token⟩ then do
    modifyEngine fun e => { e with pending := none }
    if e.phase = .running then discard (executeStep h run fire false)
  else note .debug .process "stale step callback ignored"

end Loom.World
