import Mathlib.Tactic.Simps.Basic
import Loom.Engine.Operation
import Loom.Proofs.Announcement

/-! The outcomes of an engine's operations in closed form. Each elementary change of a world has a name
here and says what it does to the world's parts; each operation is then a sequence of such changes,
chosen by what can be seen of the world it starts from. -/
namespace Loom

/-- Cancel the deferred step with a scheduler, if there is one. -/
def Scheduler.recall (s : Scheduler κ) (c : κ) : Option Nat → κ
  | some handle => s.cancel c handle
  | none => c

namespace Deed

variable {D : Dialect}

/-- The ticket that a deed put to the scheduler, and whether it was taken. -/
def ticket? : Deed D → Option (Ticket × Bool)
  | deferred ticket taken => some (ticket, taken)
  | _ => none

/-- The instruction that a deed began to execute, and on which strand. -/
def attempt? : Deed D → Option (Nat × D.Instr)
  | began sid i _ _ => some (sid, i)
  | _ => none

/-- The instruction that a deed completed, and on which strand. -/
def completion? : Deed D → Option (Nat × D.Instr)
  | returned sid i => some (sid, i)
  | _ => none

/-- What some of the deeds tell, in order. -/
def tell (f : Deed D → Option β) (ds : Array (Deed D)) : List β := ds.toList.filterMap f

@[simp] lemma tell_empty (f : Deed D → Option β) : tell f #[] = [] := rfl

@[simp] lemma tell_push (f : Deed D → Option β) (ds : Array (Deed D)) (d : Deed D) :
    tell f (ds.push d) = tell f ds ++ (f d).toList := by
  unfold tell
  rcases hd : f d with _ | b <;> simp [hd]

end Deed

namespace Engine

variable {D : Dialect}

/-- An engine that numbered and remembered an event. -/
@[simps] def heard (e : Engine D) (event : Event) : Engine D :=
  { e with nextSeq := e.nextSeq + 1, history := (e.remember event).history }

/-- An engine that numbered and remembered an event, if there was one. -/
@[simps] def heardIf (e : Engine D) (c : Bool) (event : Event) : Engine D :=
  { e with
    nextSeq := if c then e.nextSeq + 1 else e.nextSeq
    history := if c then (e.remember event).history else e.history }

@[simps] def inPhase (e : Engine D) (phase : Phase) : Engine D := { e with phase }

/-- An engine without a deferred step, all earlier tickets being stale. -/
@[simps] def disarmed (e : Engine D) : Engine D := { e with token := e.token + 1, pending := none }

/-- An engine whose deferred step has come due. -/
@[simps] def unarmed (e : Engine D) : Engine D := { e with pending := none }

@[simps] def waiting (e : Engine D) (handle : Nat) : Engine D := { e with pending := some handle }

/-- An engine with a further strand in the table. -/
@[simps] def withStrand (e : Engine D) (strand : Strand D) : Engine D :=
  { e with strands := e.strands.push strand }

/-- An engine with a further strand in play. -/
@[simps] def joined (e : Engine D) (sid : Nat) : Engine D := { e with live := e.live ++ [sid] }

/-- An engine with a strand taken out of play. -/
@[simps] def without (e : Engine D) (sid : Nat) : Engine D :=
  { e with
    live := e.live.erase sid
    sliceUsed := 0
    index := if (e.live.erase sid).length ≤ e.index then 0 else e.index }

/-- An engine with every strand released. -/
@[simps] def emptied (e : Engine D) : Engine D := { e with live := [], index := 0, skip := none }

/-- An engine set going with a root strand, which has halted already when the program is empty. -/
@[simps] def launched (e : Engine D) (root : Option Nat) : Engine D :=
  { e with started := true, live := root.toList, index := 0, sliceUsed := 0 }

@[simps] def atRate (e : Engine D) (rate : Binary64) : Engine D := { e with rate }

@[simps] def passing (e : Engine D) (skip : Option (Nat × D.Instr)) : Engine D := { e with skip }

/-- The position of the turn; one beyond the last strand goes back to the first. -/
def seat (e : Engine D) : Nat := if e.live.length ≤ e.index then 0 else e.index

/-- An engine whose turn has moved on if its slice was used up. -/
@[simps] def turned (e : Engine D) : Engine D :=
  { e with
    index := if e.timeSlice ≤ e.sliceUsed ∧ 1 < e.live.length then (e.seat + 1) % e.live.length
      else e.seat
    sliceUsed := if e.timeSlice ≤ e.sliceUsed then 0 else e.sliceUsed }

/-- The strand at the turn. -/
def atTurn (e : Engine D) : Nat := e.live.getD e.index 0

/-- Started and not terminated; else the fault with which an operation is refused. -/
def refusal (e : Engine D) (operation : String) : Option Fault :=
  if e.started then if e.phase = .terminated then some (.isTerminated operation) else none
  else some (.notStarted operation)

/-- Started, not terminated and not running; else the fault with which a step by hand is refused. -/
def stepRefusal (e : Engine D) : Option Fault :=
  (e.refusal "step").or (if e.phase = .running then some .stepWhileRunning else none)

end Engine

namespace World

variable {D : Dialect}

/-- The tickets ever put to the scheduler, in order, and which of them it took. -/
@[simp] def tickets (w : World D) : List (Ticket × Bool) := Deed.tell Deed.ticket? w.deeds

/-- The instructions ever begun, in order, each with its strand. -/
@[simp] def attempts (w : World D) : List (Nat × D.Instr) := Deed.tell Deed.attempt? w.deeds

/-- The instructions ever completed, in order, each with its strand. -/
@[simp] def completions (w : World D) : List (Nat × D.Instr) := Deed.tell Deed.completion? w.deeds

/-- The ticket that is honoured now, if it was ever put to the scheduler. -/
def ticket (w : World D) : Ticket := ⟨w.engine.run, w.engine.token⟩

@[simp] lemma emitted_engine (w : World D) (what : Happening) :
    (w.emitted what).engine = w.engine.heard (w.event what) := rfl

@[simp] lemma emitted_clock (w : World D) (what : Happening) : (w.emitted what).clock = w.clock := rfl

@[simp] lemma emitted_memory (w : World D) (what : Happening) :
    (w.emitted what).memory = w.memory := rfl

@[simp] lemma emitted_deeds (w : World D) (what : Happening) :
    (w.emitted what).deeds = w.deeds.push (.emitted (w.event what)) := rfl

/-- The world after an announcement that is made only sometimes. -/
def emittedIf (w : World D) (c : Bool) (what : Happening) : World D := if c then w.emitted what else w

@[simp] lemma emittedIf_engine (w : World D) (c : Bool) (what : Happening) :
    (w.emittedIf c what).engine = w.engine.heardIf c (w.event what) := by
  cases c <;> rfl

@[simp] lemma emittedIf_clock (w : World D) (c : Bool) (what : Happening) :
    (w.emittedIf c what).clock = w.clock := by
  cases c <;> rfl

@[simp] lemma emittedIf_memory (w : World D) (c : Bool) (what : Happening) :
    (w.emittedIf c what).memory = w.memory := by
  cases c <;> rfl

@[simp] lemma tell_emittedIf (f : Deed D → Option β) (hf : ∀ e, f (.emitted e) = none) (w : World D)
    (c : Bool) (what : Happening) : Deed.tell f (w.emittedIf c what).deeds = Deed.tell f w.deeds := by
  cases c <;> simp [emittedIf, hf]

/-- The world after a change of the engine. -/
@[simps engine clock memory deeds] def altered (w : World D) (f : Engine D → Engine D) : World D :=
  { w with engine := f w.engine }

lemma altered_unarmed {w : World D} (hp : w.engine.pending = none) : w.altered (·.unarmed) = w := by
  unfold altered Engine.unarmed
  rw [← hp]

/-- The world after a note. -/
@[simps engine clock memory deeds] def noted (w : World D) (level : LogLevel) (source : LogSource)
    (text : String) : World D :=
  { w with journal := w.journal.push ⟨level, source, text⟩ }

/-- The world after a deed. -/
@[simps engine clock memory deeds] def recorded (w : World D) (deed : Deed D) : World D :=
  { w with deeds := w.deeds.push deed }

/-- The world after a change of phase. -/
def entered (w : World D) (new : Phase) (reason : String) : World D :=
  ((w.altered (·.inPhase new)).noted .info .process
    s!"process {w.engine.phase.name} -> {new.name} ({reason})").emitted
      (.phase w.engine.phase new reason)

/-- The event of a change of phase. -/
def phaseEvent (w : World D) (new : Phase) (reason : String) : Event :=
  w.event (.phase w.engine.phase new reason)

@[simp] lemma entered_engine (w : World D) (new : Phase) (reason : String) :
    (w.entered new reason).engine = (w.engine.inPhase new).heard (w.phaseEvent new reason) := rfl

@[simp] lemma entered_clock (w : World D) (new : Phase) (reason : String) :
    (w.entered new reason).clock = w.clock := rfl

@[simp] lemma entered_memory (w : World D) (new : Phase) (reason : String) :
    (w.entered new reason).memory = w.memory := rfl

@[simp] lemma entered_deeds (w : World D) (new : Phase) (reason : String) :
    (w.entered new reason).deeds = w.deeds.push (.emitted (w.phaseEvent new reason)) := rfl

/-- The world after calling off the deferred step. -/
@[simps engine clock memory deeds] def disarmed (w : World D) (s : Scheduler D.Clock) : World D :=
  { w with
    engine := w.engine.disarmed
    clock := s.recall w.clock w.engine.pending }

/-- The world after a step was put to the scheduler, which took it. -/
@[simps engine clock memory deeds] def armed (w : World D) (s : Scheduler D.Clock) (handle : Nat)
    (clock : D.Clock) : World D :=
  { w with
    engine := w.engine.disarmed.waiting handle
    clock
    deeds := w.deeds.push (.deferred (w.disarmed s).ticket true) }

/-- The world after a step was put to the scheduler, which refused. -/
@[simps engine clock memory deeds] def refused (w : World D) (s : Scheduler D.Clock)
    (clock : D.Clock) : World D :=
  { w with
    engine := w.engine.disarmed
    clock
    deeds := w.deeds.push (.deferred (w.disarmed s).ticket false) }

/-- The world after deferring a step, and how the scheduler took it. -/
def deferred (w : World D) (s : Scheduler D.Clock) (delay : Binary64) : Except Fault Unit × World D :=
  match s.arm (w.disarmed s).clock delay (w.disarmed s).ticket with
  | (.ok arming, clock) => (.ok (), w.armed s arming.handle clock)
  | (.error f, clock) => (.error f, w.refused s clock)

/-- The world after taking a strand out of play. -/
def retired (w : World D) (sid : Nat) : World D :=
  ((w.altered (·.without sid)).noted .info .process
    s!"strand {sid} halted after {w.engine.steps sid} steps").emitted
      (.retired sid (w.engine.steps sid))

@[simp] lemma retired_engine (w : World D) (sid : Nat) :
    (w.retired sid).engine =
      (w.engine.without sid).heard (w.event (.retired sid (w.engine.steps sid))) := rfl

@[simp] lemma retired_clock (w : World D) (sid : Nat) : (w.retired sid).clock = w.clock := rfl

@[simp] lemma retired_memory (w : World D) (sid : Nat) : (w.retired sid).memory = w.memory := rfl

@[simp] lemma retired_deeds (w : World D) (sid : Nat) :
    (w.retired sid).deeds =
      w.deeds.push (.emitted (w.event (.retired sid (w.engine.steps sid)))) := rfl

/-! The elementary computations. -/

@[simp] lemma modifyEngine_outcome (f : Engine D → Engine D) (w : World D) :
    (modifyEngine f).outcome w = (.ok (), w.altered f) := rfl

@[simp] lemma note_outcome (level : LogLevel) (source : LogSource) (text : String) (w : World D) :
    (note level source text).outcome w = (.ok (), w.noted level source text) := rfl

@[simp] lemma record_outcome (deed : Deed D) (w : World D) :
    (record deed).outcome w = (.ok (), w.recorded deed) := rfl

@[simp] lemma disarm_outcome (s : Scheduler D.Clock) (w : World D) :
    (disarm s).outcome w = (.ok (), w.disarmed s) := by
  unfold disarm disarmed
  rw [Act.outcome_modify]
  rcases w.engine.pending with _ | handle <;> rfl

/-- An engine that has not been started is idle. -/
lemma idle_of_unstarted {started : Bool} {phase : Phase} (h : started = true ↔ phase ≠ .idle)
    (hs : started = false) : phase = .idle := by
  by_contra hp
  simp [hs] at h
  exact hp h

lemma ne_of_mayFollow {old new : Phase} (h : mayFollow old new = true) : new ≠ old := by
  rintro rfl
  cases new <;> cases h

/-- No change of phase leads back to the beginning. -/
lemma ne_idle_of_mayFollow {old new : Phase} (h : mayFollow old new = true) : new ≠ .idle := by
  rintro rfl
  cases old <;> cases h

lemma mayFollow_halted {phase : Phase} (h : phase = .running ∨ phase = .paused) :
    mayFollow phase .halted = true := by
  rcases h with rfl | rfl <;> rfl

lemma mayFollow_terminated {phase : Phase} (hbegun : phase ≠ .idle) (hlasts : phase ≠ .terminated) :
    mayFollow phase .terminated = true := by
  cases phase with
  | idle => exact absurd rfl hbegun
  | terminated => exact absurd rfl hlasts
  | _ => rfl

/-- The only way out of the beginning is the start. -/
lemma eq_running_of_mayFollow {new : Phase} (h : mayFollow .idle new = true) : new = .running := by
  cases new with
  | running => rfl
  | _ => cases h

lemma transition_outcome (w : World D) (new : Phase) (reason : String)
    (h : mayFollow w.engine.phase new = true) :
    (transition new reason).outcome w = (.ok (), w.entered new reason) := by
  simp [transition, ne_of_mayFollow h, h, emit_own _ (.phase ..) trivial]
  rfl

/-- A change of phase is made, is none, or is out of order. -/
lemma transition_cases (w : World D) (new : Phase) (reason : String) :
    mayFollow w.engine.phase new = true ∧ (transition new reason).outcome w = (.ok (), w.entered new reason) ∨
      new = w.engine.phase ∧ (transition new reason).outcome w = (.ok (), w) ∨
      mayFollow w.engine.phase new ≠ true ∧ new ≠ w.engine.phase ∧
        (transition new reason).outcome w = (.error (.illegalTransition w.engine.phase new), w) := by
  by_cases hmay : mayFollow w.engine.phase new = true
  · exact .inl ⟨hmay, transition_outcome w new reason hmay⟩
  · by_cases hsame : new = w.engine.phase
    · exact .inr (.inl ⟨hsame, by simp [transition, hsame]⟩)
    · exact .inr (.inr ⟨hmay, hsame, by simp [transition, hsame, hmay]⟩)

/-- In a world like this one the scheduler defers a step and does not fire it at once. -/
def Postpones (w : World D) (h : Host D) (fire : Ticket → Act (World D) Unit) : Prop :=
  ∀ v : World D, v.clock = w.clock → v.engine.pending = w.engine.pending → ∀ delay,
    (arm h.scheduler fire delay).outcome v = v.deferred h.scheduler delay

lemma postpones_of_later (w : World D) (h : Host D) (fire : Ticket → Act (World D) Unit)
    (hl : ∀ delay t a c, h.scheduler.arm (w.disarmed h.scheduler).clock delay t = (.ok a, c) →
      a.immediate = false) : w.Postpones h fire := by
  intro v hc hp delay
  have hd : (v.disarmed h.scheduler).clock = (w.disarmed h.scheduler).clock := by
    rw [disarmed_clock, disarmed_clock, hc, hp]
  unfold arm deferred
  rw [hd]
  rcases ha : h.scheduler.arm (w.disarmed h.scheduler).clock delay (v.disarmed h.scheduler).ticket
    with ⟨f | a, c⟩
  · simp [ticket] at ha hd
    simp [ha, hd]
    rfl
  · have hi := hl delay _ a c ha
    simp [ticket] at ha hd
    simp [ha, hi, hd]
    rfl

lemma requireLive_outcome (operation : String) (w : World D) :
    (requireLive operation).outcome w = (match w.engine.refusal operation with
      | some f => .error f
      | none => .ok (), w) := by
  unfold requireLive Engine.refusal
  cases hs : w.engine.started <;> by_cases hp : w.engine.phase = .terminated <;> simp [hs, hp]

lemma requireLive_bind (operation : String) (f : Unit → Act (World D) α) (w : World D) :
    (requireLive operation >>= f).outcome w = match w.engine.refusal operation with
      | some e => (.error e, w)
      | none => (f ()).outcome w := by
  rw [Act.outcome_bind, requireLive_outcome]
  cases w.engine.refusal operation <;> rfl

lemma refusal_plain {e : Engine D} {operation : String} {f : Fault}
    (h : e.refusal operation = some f) : f.IsPlain := by
  unfold Engine.refusal at h
  split_ifs at h <;> cases h <;> exact ⟨rfl, rfl, _, rfl⟩

lemma started_of_refusal {e : Engine D} {operation : String} (h : e.refusal operation = none) :
    e.started = true ∧ e.phase ≠ .terminated := by
  unfold Engine.refusal at h
  split_ifs at h with hs hp
  exact ⟨hs, hp⟩

lemma halt_outcome (s : Scheduler D.Clock) (w : World D)
    (h : mayFollow w.engine.phase .halted = true) :
    (halt s).outcome w = (.ok (), (w.disarmed s).entered .halted "no live strands") := by
  unfold halt
  rw [Act.outcome_bind, disarm_outcome]
  exact transition_outcome (w.disarmed s) .halted "no live strands" h

lemma retire_outcome (h : Host D) (w : World D) {sid : Nat} (hs : sid ∈ w.engine.live) :
    (retire h sid).outcome w = (.ok (), w.retired sid) := by
  unfold retire
  simp only [Act.outcome_bind, Act.outcome_get, if_pos hs, modifyEngine_outcome, note_outcome,
    Act.outcome_discard, emit_own _ (.retired ..) trivial]
  rfl

lemma pause_outcome (h : Host D) (w : World D) :
    (pause h).outcome w = match w.engine.refusal "pause" with
      | some f => (.error f, w)
      | none =>
        if w.engine.phase = .running then
          (.ok (), (w.disarmed h.scheduler).entered .paused "pause")
        else (.ok (), w.disarmed h.scheduler) := by
  unfold pause
  rw [requireLive_bind]
  rcases w.engine.refusal "pause" with _ | f
  · by_cases hp : w.engine.phase = .running
    · have ht := transition_outcome (w.disarmed h.scheduler) .paused "pause" (by simp [hp]; rfl)
      simp [hp, ht]
    · simp [hp]
  · rfl

lemma setRate_outcome (given : Option Value) (w : World D) :
    (setRate given).outcome w =
      if w.engine.phase = .terminated then (.error .rateAfterTermination, w)
      else match (given.map Rate.check).getD (.ok .zero) with
        | .ok rate =>
          (.ok (), (w.altered (·.atRate rate)).noted .debug .process s!"rate set to {rate.text}ms")
        | .error f => (.error f, w) := by
  unfold setRate
  by_cases hp : w.engine.phase = .terminated
  · simp [hp]
  · rcases given with _ | v
    · simp [hp]
      rfl
    · rcases hr : Rate.check v with f | rate <;> simp [hp, hr]
      rfl

lemma rateCheck_plain (given : Value) : FailsPlainly (Rate.check given) := by
  have hrefuse : FailsPlainly (.error (given.refusal .rateRejected) : Except Fault Binary64) :=
    .error (given.refusal_isPlain fun _ => ⟨rfl, rfl, _, rfl⟩)
  unfold Rate.check
  split
  · exact hrefuse
  · split
    · split_ifs
      · exact .ok _
      · exact hrefuse
    · exact .error ⟨rfl, rfl, _, rfl⟩
    · exact hrefuse

/-- What holds after a pause: it is refused, or calls off what is deferred and pauses an engine that runs. -/
theorem pause_ensures {h : Host D} {w : World D} {Q : Except Fault Unit → World D → Prop}
    (hrefused : ∀ f, w.engine.refusal "pause" = some f → Q (.error f) w)
    (hpauses : w.engine.refusal "pause" = none → w.engine.phase = .running →
      Q (.ok ()) ((w.disarmed h.scheduler).entered .paused "pause"))
    (hrests : w.engine.refusal "pause" = none → w.engine.phase ≠ .running → Q (.ok ()) (w.disarmed h.scheduler)) :
    (pause h).Ensures w Q := by
  unfold Act.Ensures
  rw [pause_outcome]
  rcases hr : w.engine.refusal "pause" with _ | f
  · dsimp only
    split_ifs with hrun
    · exact hpauses hr hrun
    · exact hrests hr hrun
  · exact hrefused f hr

/-- What holds after a rate was given: it is refused with a plain fault, or set. -/
theorem setRate_ensures {given : Option Value} {w : World D} {Q : Except Fault Unit → World D → Prop}
    (hrefused : ∀ f : Fault, f.IsPlain → Q (.error f) w)
    (hset : ∀ rate, Q (.ok ()) ((w.altered (·.atRate rate)).noted .debug .process
      s!"rate set to {rate.text}ms")) : (setRate given).Ensures w Q := by
  unfold Act.Ensures
  rw [setRate_outcome]
  split_ifs
  · exact hrefused _ ⟨rfl, rfl, _, rfl⟩
  · rcases hr : (given.map Rate.check).getD (.ok .zero) with f | rate
    · cases given with
      | none => cases hr
      | some v => exact hrefused f (rateCheck_plain v f hr)
    · exact hset rate

/-- The world after the end for good. -/
def ended (w : World D) (s : Scheduler D.Clock) : World D :=
  (((w.disarmed s).altered (·.emptied)).entered .terminated "terminate").noted .info .process
    s!"process terminated after {w.engine.totalSteps} steps ({w.engine.live.length} strand(s) released)"

@[simp] lemma ended_engine (w : World D) (s : Scheduler D.Clock) :
    (w.ended s).engine = (w.engine.disarmed.emptied.inPhase .terminated).heard
      (w.phaseEvent .terminated "terminate") := rfl

@[simp] lemma ended_clock (w : World D) (s : Scheduler D.Clock) :
    (w.ended s).clock = (w.disarmed s).clock := rfl

@[simp] lemma ended_memory (w : World D) (s : Scheduler D.Clock) : (w.ended s).memory = w.memory := rfl

@[simp] lemma ended_deeds (w : World D) (s : Scheduler D.Clock) :
    (w.ended s).deeds = w.deeds.push (.emitted (w.phaseEvent .terminated "terminate")) := rfl

lemma terminate_outcome (h : Host D) (w : World D) (hs : w.engine.started = true)
    (hp : mayFollow w.engine.phase .terminated = true) :
    (terminate h).outcome w = (.ok (), w.ended h.scheduler) := by
  have hne : w.engine.phase ≠ .terminated := (ne_of_mayFollow hp).symm
  have hrelease : ((w.disarmed h.scheduler).altered fun e =>
      { e with live := [], index := 0, skip := none }) =
        (w.disarmed h.scheduler).altered (·.emptied) := rfl
  have ht := transition_outcome ((w.disarmed h.scheduler).altered (·.emptied)) .terminated
    "terminate" hp
  unfold terminate
  simp only [Act.outcome_bind, Act.outcome_get, hs, hne, disarm_outcome, modifyEngine_outcome,
    Bool.not_true, Bool.false_eq_true, if_false, hrelease, ht]
  rfl

/-- A run ends for good once, and not before its start. -/
lemma terminate_cases (h : Host D) (w : World D)
    (hi : w.engine.started = true → w.engine.phase ≠ .idle) :
    (∃ f : Fault, f.IsPlain ∧ (terminate h).outcome w = (.error f, w)) ∨
      w.engine.started = true ∧ mayFollow w.engine.phase .terminated = true ∧
        (terminate h).outcome w = (.ok (), w.ended h.scheduler) := by
  rcases hs : w.engine.started with _ | _
  · exact .inl ⟨.notStarted "terminate", ⟨rfl, rfl, _, rfl⟩, by simp [terminate, hs]⟩
  · by_cases hp : w.engine.phase = .terminated
    · exact .inl ⟨.alreadyTerminated, ⟨rfl, rfl, _, rfl⟩, by simp [terminate, hs, hp]⟩
    · have hmay : mayFollow w.engine.phase .terminated = true := mayFollow_terminated (hi hs) hp
      exact .inr ⟨rfl, hmay, terminate_outcome h w hs hmay⟩

lemma resume_outcome (h : Host D) (w : World D) (fire : Ticket → Act (World D) Unit)
    (ha : w.Postpones h fire) :
    (resume h fire).outcome w = match w.engine.refusal "resume" with
      | some f => (.error f, w)
      | none =>
        if w.engine.phase = .halted then
          (.ok (), w.noted .debug .process "resume ignored: process halted")
        else match w.deferred h.scheduler .zero with
          | (.error f, v) => (.error f, v)
          | (.ok (), v) =>
            if v.engine.phase = .paused then (.ok (), v.entered .running "resume") else (.ok (), v) := by
  unfold resume
  rw [requireLive_bind]
  rcases w.engine.refusal "resume" with _ | f
  · by_cases hp : w.engine.phase = .halted
    · simp [hp]
    · rcases hd : w.deferred h.scheduler .zero with ⟨f | _, v⟩
      · simp [hp, ha w rfl rfl, hd]
      · by_cases hv : v.engine.phase = .paused
        · have ht := transition_outcome v .running "resume" (by simp [hv]; rfl)
          simp [hp, ha w rfl rfl, hd, hv, ht]
        · simp [hp, ha w rfl rfl, hd, hv]
  · rfl

/-- What holds after a resume: it is refused, finds the engine at rest, or wakes it once a step is deferred. -/
theorem resume_ensures {h : Host D} {w : World D} {fire : Ticket → Act (World D) Unit} (ha : w.Postpones h fire)
    {A Q : Except Fault Unit → World D → Prop}
    (hrefused : ∀ f, w.engine.refusal "resume" = some f → Q (.error f) w)
    (hrest : w.engine.phase = .halted → Q (.ok ()) (w.noted .debug .process "resume ignored: process halted"))
    (hdeferred : A (w.deferred h.scheduler .zero).1 (w.deferred h.scheduler .zero).2)
    (hfailed : ∀ f v, A (.error f) v → Q (.error f) v)
    (hwakes : ∀ v, A (.ok ()) v → v.engine.phase = .paused → Q (.ok ()) (v.entered .running "resume"))
    (hgoes : ∀ v, A (.ok ()) v → Q (.ok ()) v) : (resume h fire).Ensures w Q := by
  unfold Act.Ensures
  rw [resume_outcome h w fire ha]
  rcases hr : w.engine.refusal "resume" with _ | f
  · dsimp only
    split_ifs with hhalt
    · exact hrest hhalt
    · rcases hd : w.deferred h.scheduler .zero with ⟨f | _, v⟩ <;> rw [hd] at hdeferred
      · exact hfailed f v hdeferred
      · dsimp only
        split_ifs with hpaused
        · exact hwakes v hdeferred hpaused
        · exact hgoes v hdeferred
  · exact hrefused f hr

/-- The strand that `addStrand` adds. -/
def newStrand (w : World D) (cursor : Option D.Instr) (scope : ScopeChoice D) : Strand D where
  cursor
  scope := match scope with
    | .fresh => w.engine.strands.size
    | .given _ => w.engine.strands.size
    | .shared other => ((w.engine.strand? other).map (·.scope)).getD w.engine.strands.size

/-- The memory in which a new strand's scope has been made. -/
def newMemory (h : Host D) (w : World D) : ScopeChoice D → D.Memory
  | .fresh => h.install w.memory w.engine.strands.size h.empty
  | .given contents => h.install w.memory w.engine.strands.size contents
  | .shared _ => w.memory

/-- The world after a strand was added to the table. -/
@[simps engine clock memory deeds] def peopled (w : World D) (h : Host D) (cursor : Option D.Instr)
    (scope : ScopeChoice D) : World D :=
  { w with
    engine := w.engine.withStrand (w.newStrand cursor scope)
    memory := w.newMemory h scope }

@[simp] lemma addStrand_outcome (h : Host D) (w : World D) (cursor : Option D.Instr)
    (scope : ScopeChoice D) :
    (addStrand h cursor scope).outcome w = (.ok w.engine.strands.size, w.peopled h cursor scope) := by
  cases scope <;> rfl

/-- The world after a strand joined those in play. -/
def spawned (w : World D) (h : Host D) (i : D.Instr) (scope : ScopeChoice D) : World D :=
  ((w.peopled h (some i) scope).altered (·.joined w.engine.strands.size)).emitted
    (.spawned w.engine.strands.size (h.label i))

@[simp] lemma spawned_engine (w : World D) (h : Host D) (i : D.Instr) (scope : ScopeChoice D) :
    (w.spawned h i scope).engine =
      ((w.engine.withStrand (w.newStrand (some i) scope)).joined w.engine.strands.size).heard
        (w.event (.spawned w.engine.strands.size (h.label i))) := rfl

@[simp] lemma spawned_clock (w : World D) (h : Host D) (i : D.Instr) (scope : ScopeChoice D) :
    (w.spawned h i scope).clock = w.clock := rfl

@[simp] lemma spawned_memory (w : World D) (h : Host D) (i : D.Instr) (scope : ScopeChoice D) :
    (w.spawned h i scope).memory = w.newMemory h scope := rfl

@[simp] lemma spawned_deeds (w : World D) (h : Host D) (i : D.Instr) (scope : ScopeChoice D) :
    (w.spawned h i scope).deeds =
      w.deeds.push (.emitted (w.event (.spawned w.engine.strands.size (h.label i)))) := rfl

lemma spawn_outcome (h : Host D) (w : World D) (fire : Ticket → Act (World D) Unit)
    (entry : Option D.Instr) (scope : ScopeChoice D)
    (ha : w.Postpones h fire) :
    (spawn h fire entry scope).outcome w = match w.engine.refusal "spawn" with
      | some f => (.error f, w)
      | none =>
        if w.engine.phase = .halted then (.error .isHalted, w)
        else match derivedEntry h entry with
          | .error f => (.error f, w)
          | .ok i =>
            if w.engine.phase = .running ∧ w.engine.pending = none ∧ w.engine.stepping = false then
              ((w.spawned h i scope).deferred h.scheduler .zero).map
                (·.map fun _ => w.engine.strands.size) id
            else (.ok w.engine.strands.size, w.spawned h i scope) := by
  unfold spawn
  rw [requireLive_bind]
  rcases w.engine.refusal "spawn" with _ | f
  · by_cases hp : w.engine.phase = .halted
    · simp [hp]
    · rcases hi : derivedEntry h entry with f | i
      · simp [hp]
      · have hd := ha (w.spawned h i scope) rfl rfl .zero
        have hjoin : ((w.peopled h (some i) scope).altered fun e =>
            { e with live := e.live ++ [w.engine.strands.size] }).emitted
              (.spawned w.engine.strands.size (h.label i)) = w.spawned h i scope := rfl
        have hseen : (w.spawned h i scope).engine.phase = w.engine.phase ∧
            (w.spawned h i scope).engine.pending = w.engine.pending ∧
            (w.spawned h i scope).engine.stepping = w.engine.stepping := ⟨rfl, rfl, rfl⟩
        simp only [hp, Act.outcome_bind, Act.outcome_get, Act.outcome_ofExcept, addStrand_outcome,
          modifyEngine_outcome, Act.outcome_discard, emit_own _ (.spawned ..) trivial,
          Act.except_map_ok, if_false, hjoin, hseen, Option.isNone_iff_eq_none, Bool.not_eq_true']
        split_ifs
        · rw [Act.outcome_bind, hd]
          rcases (w.spawned h i scope).deferred h.scheduler .zero with ⟨f | _, v⟩ <;> rfl
        · rfl
  · rfl

/-- What refuses something that is no instruction can always be worded. -/
lemma refusal_isPlain (h : Host D) (role : Role) (i : D.Instr) : (h.refusal role i).IsPlain := by
  unfold Host.refusal
  rcases h.depict i with _ | shown
  · exact ⟨rfl, rfl, _, rfl⟩
  · exact ⟨rfl, rfl, _, rfl⟩

lemma checkEntry_plain (h : Host D) (i : D.Instr) : FailsPlainly (checkEntry h i) := by
  unfold checkEntry
  split_ifs
  · exact .ok _
  · exact .error (refusal_isPlain h .entry i)

lemma derivedEntry_plain (h : Host D) (entry : Option D.Instr) :
    FailsPlainly (derivedEntry h entry) := by
  rcases entry with _ | i
  · exact .error ⟨rfl, rfl, _, rfl⟩
  · exact FailsPlainly.bind (checkEntry_plain h i) fun _ => .ok i

/-- What holds after a spawn: it is refused with a plain fault, or the strand joins those in play and, if nothing
is deferred while the engine runs, a step is. -/
theorem spawn_ensures {h : Host D} {w : World D} {fire : Ticket → Act (World D) Unit} {entry : Option D.Instr}
    {scope : ScopeChoice D} (ha : w.Postpones h fire) {Q : Except Fault Nat → World D → Prop}
    (hrefused : ∀ f : Fault, f.IsPlain → Q (.error f) w)
    (hspawned : ∀ i, derivedEntry h entry = .ok i → w.engine.started = true → w.engine.phase ≠ .terminated →
      w.engine.phase ≠ .halted →
      (w.engine.phase = .running → Q (((w.spawned h i scope).deferred h.scheduler .zero).1.map
        fun _ => w.engine.strands.size) ((w.spawned h i scope).deferred h.scheduler .zero).2) ∧
      Q (.ok w.engine.strands.size) (w.spawned h i scope)) :
    (spawn h fire entry scope).Ensures w Q := by
  unfold Act.Ensures
  rw [spawn_outcome h w fire entry scope ha]
  rcases hr : w.engine.refusal "spawn" with _ | f
  · obtain ⟨hstarted, hlasts⟩ := started_of_refusal hr
    dsimp only
    by_cases hhalt : w.engine.phase = .halted
    · rw [if_pos hhalt]
      exact hrefused _ ⟨rfl, rfl, _, rfl⟩
    · rw [if_neg hhalt]
      rcases hi : derivedEntry h entry with f | i
      · exact hrefused f (derivedEntry_plain h entry f hi)
      · obtain ⟨hdeferred, hrest⟩ := hspawned i hi hstarted hlasts hhalt
        dsimp only
        split_ifs with hawaits
        · exact hdeferred hawaits.1
        · exact hrest
  · exact hrefused f (refusal_plain hr)

/-- Where the root strand begins and what its scope holds. -/
def root (w : World D) (h : Host D) : Option D.Instr → Except Fault (Option D.Instr × D.Scope)
  | some i => (checkEntry h i).map fun _ => (some i, h.empty)
  | none =>
    match h.source with
    | none => .error .noProgram
    | some source =>
      source.first w.memory >>= fun first =>
        source.scope w.memory >>= fun contents =>
          match first with
          | none => .ok (none, contents)
          | some i => (checkEntry h i).map fun _ => (some i, contents)

/-- An entry that is checked is an instruction. -/
lemma wellFormed_of_checkEntry {h : Host D} {i : D.Instr} (hi : checkEntry h i = .ok ()) :
    h.wellFormed i = true := by
  unfold checkEntry at hi
  split_ifs at hi with hwell
  exact hwell

/-- Where a root strand is found: at the entry given, or at the program's own. -/
lemma root_ok {w : World D} {h : Host D} {entry cursor : Option D.Instr} {contents : D.Scope}
    (hr : w.root h entry = .ok (cursor, contents)) :
    (∀ i, cursor = some i → h.wellFormed i = true) ∧
      (cursor = none → ∃ source, h.source = some source ∧ source.first w.memory = .ok none) := by
  unfold root at hr
  rcases entry with _ | i
  · rcases hsource : h.source with _ | source <;> simp only [hsource] at hr
    · cases hr
    · rcases hfirst : source.first w.memory with f | first <;> rw [hfirst] at hr
      · cases hr
      · rcases hscope : source.scope w.memory with f | found <;> rw [hscope] at hr
        · cases hr
        · rcases first with _ | i
          · cases hr
            exact ⟨nofun, fun _ => ⟨source, rfl, hfirst⟩⟩
          · rcases hi : checkEntry h i with f | _ <;> simp [hi] at hr
            obtain ⟨rfl, rfl⟩ := hr
            refine ⟨?_, nofun⟩
            rintro _ ⟨⟩
            exact wellFormed_of_checkEntry hi
  · rcases hi : checkEntry h i with f | _ <;> simp [hi] at hr
    obtain ⟨rfl, rfl⟩ := hr
    refine ⟨?_, nofun⟩
    rintro _ ⟨⟩
    exact wellFormed_of_checkEntry hi

/-- What goes wrong on the way is a plain fault or one of the program's own. -/
lemma root_error {w : World D} {h : Host D} {entry : Option D.Instr} {f : Fault}
    (hr : w.root h entry = .error f) : f.IsPlain ∨ ∃ source, h.source = some source ∧
      (source.first w.memory = .error f ∨ source.scope w.memory = .error f) := by
  have hcheck (i : D.Instr) (contents : D.Scope)
      (hi : ((checkEntry h i).map fun _ => (some i, contents)) = .error f) : f.IsPlain := by
    rcases hplain : checkEntry h i with g | _ <;> rw [hplain] at hi <;> cases hi
    exact checkEntry_plain h i f hplain
  unfold root at hr
  rcases entry with _ | i
  · rcases hsource : h.source with _ | source <;> simp only [hsource] at hr
    · cases hr
      exact .inl ⟨rfl, rfl, _, rfl⟩
    · rcases hfirst : source.first w.memory with g | first <;> rw [hfirst] at hr
      · cases hr
        exact .inr ⟨source, rfl, .inl hfirst⟩
      · rcases hscope : source.scope w.memory with g | contents <;> rw [hscope] at hr
        · cases hr
          exact .inr ⟨source, rfl, .inr hscope⟩
        · rcases first with _ | i
          · cases hr
          · exact .inl (hcheck i contents hr)
  · exact .inl (hcheck i h.empty hr)

/-- The world after looking for the root strand's entry. -/
def sought (w : World D) (h : Host D) : Option D.Instr → World D
  | some _ => w
  | none =>
    match h.source with
    | none => w
    | some source =>
      match source.first w.memory, source.scope w.memory with
      | .ok first, .ok _ =>
        let label := (first.map h.label).getD "None"
        w.noted .debug .strand s!"root strand {w.engine.strands.size} entry={label}"
      | _, _ => w

/-- Looking for the entry leaves a note at most. -/
lemma sought_cases (w : World D) (h : Host D) (entry : Option D.Instr) :
    w.sought h entry = w ∨ ∃ text, w.sought h entry = w.noted .debug .strand text := by
  unfold sought
  rcases entry with _ | i
  · rcases h.source with _ | source
    · exact .inl rfl
    · dsimp only
      split
      · exact .inr ⟨_, rfl⟩
      · exact .inl rfl
  · exact .inl rfl

section Sought

variable (w : World D) (h : Host D) (entry : Option D.Instr)

@[simp] lemma sought_engine : (w.sought h entry).engine = w.engine := by
  obtain heq | ⟨text, heq⟩ := w.sought_cases h entry <;> simp [heq]

@[simp] lemma sought_clock : (w.sought h entry).clock = w.clock := by
  obtain heq | ⟨text, heq⟩ := w.sought_cases h entry <;> simp [heq]

@[simp] lemma sought_memory : (w.sought h entry).memory = w.memory := by
  obtain heq | ⟨text, heq⟩ := w.sought_cases h entry <;> simp [heq]

@[simp] lemma sought_deeds : (w.sought h entry).deeds = w.deeds := by
  obtain heq | ⟨text, heq⟩ := w.sought_cases h entry <;> simp [heq]

end Sought

lemma rootEntry_outcome (h : Host D) (w : World D) (entry : Option D.Instr) :
    (rootEntry h entry).outcome w = (w.root h entry, w.sought h entry) := by
  unfold rootEntry root sought
  rcases entry with _ | i
  · rcases hsource : h.source with _ | source
    · rfl
    · dsimp only
      rcases hfirst : source.first w.memory with f | first
      · simp [hfirst]
      · rcases hscope : source.scope w.memory with f | contents
        · simp [hfirst, hscope]
        · rcases first with _ | i
          · simp [hfirst, hscope]
          · rcases hc : checkEntry h i <;> simp [hfirst, hscope, hc]
  · rcases hc : checkEntry h i <;> simp [hc]

/-- Deferring a step leaves the phase alone. -/
@[simp] lemma deferred_phase (w : World D) (s : Scheduler D.Clock) (delay : Binary64) :
    (w.deferred s delay).2.engine.phase = w.engine.phase := by
  unfold deferred
  split <;> rfl

/-- The world after the start, from one in which the first step is deferred. -/
def begun (w : World D) (h : Host D) (cursor : Option D.Instr) (contents : D.Scope) : World D :=
  let v := ((w.peopled h cursor (.given contents)).altered
    (·.launched (cursor.map fun _ => w.engine.strands.size))).entered .running "start"
  match cursor with
  | none => v
  | some i => v.emitted (.spawned w.engine.strands.size (h.label i))

/-- What a start does once its first step is deferred. -/
lemma launch_outcome (h : Host D) (w : World D) (cursor : Option D.Instr) (contents : D.Scope)
    (hp : w.engine.phase = .idle) :
    (do
      let sid ← addStrand h cursor (.given contents)
      modifyEngine fun e =>
        { e with started := true, live := if cursor.isSome then [sid] else [], index := 0, sliceUsed := 0 }
      transition .running "start"
      match cursor with
      | none => pure ()
      | some i => discard (emit (.spawned sid (h.label i))) : Act (World D) Unit).outcome w =
      (.ok (), w.begun h cursor contents) := by
  have ht := transition_outcome ((w.peopled h cursor (.given contents)).altered
    (·.launched (cursor.map fun _ => w.engine.strands.size))) .running "start" (by simp [hp]; rfl)
  have hlaunch : ((w.peopled h cursor (.given contents)).altered fun e =>
      { e with
        started := true
        live := if cursor.isSome then [w.engine.strands.size] else []
        index := 0
        sliceUsed := 0 }) = (w.peopled h cursor (.given contents)).altered
          (·.launched (cursor.map fun _ => w.engine.strands.size)) := by
    cases cursor <;> rfl
  simp only [Act.outcome_bind, addStrand_outcome, modifyEngine_outcome, hlaunch, ht]
  cases cursor with
  | none => rfl
  | some i =>
    simp only [Act.outcome_discard, emit_own _ (.spawned ..) trivial]
    rfl

lemma start_outcome (h : Host D) (w : World D) (fire : Ticket → Act (World D) Unit)
    (entry : Option D.Instr) (hp : w.engine.phase = .idle)
    (ha : w.Postpones h fire) :
    (start h fire entry).outcome w =
      if w.engine.started then (.error .alreadyStarted, w)
      else match w.root h entry with
        | .error f => (.error f, w.sought h entry)
        | .ok (cursor, contents) =>
          match (w.sought h entry).deferred h.scheduler .zero with
          | (.error f, v) => (.error f, v)
          | (.ok (), v) => (.ok (), v.begun h cursor contents) := by
  unfold start
  rcases hs : w.engine.started with _ | _
  · rw [Act.outcome_bind, Act.outcome_get]
    simp only [hs, Bool.false_eq_true, if_false]
    rw [Act.outcome_bind, rootEntry_outcome]
    rcases hr : w.root h entry with f | ⟨cursor, contents⟩
    · rfl
    · dsimp only
      rw [Act.outcome_bind, ha (w.sought h entry) (sought_clock w h entry) (by rw [sought_engine]) .zero]
      rcases hd : (w.sought h entry).deferred h.scheduler .zero with ⟨f | _, v⟩
      · rfl
      · have hv : v.engine.phase = .idle := by
          rw [← hp, ← congrArg Engine.phase (sought_engine w h entry),
            ← deferred_phase (w.sought h entry) h.scheduler .zero, hd]
        exact launch_outcome h v cursor contents hv
  · simp [hs]

/-- An engine is started once. -/
lemma start_again (h : Host D) (fire : Ticket → Act (World D) Unit) (entry : Option D.Instr) {w : World D}
    (hs : w.engine.started = true) : (start h fire entry).outcome w = (.error .alreadyStarted, w) := by
  simp [start, hs]

/-- What holds after a start: an entry that is none is refused, and what arming the first step left behind is
launched, if it left the engine idle. -/
theorem start_ensures {h : Host D} {fire : Ticket → Act (World D) Unit} {entry : Option D.Instr} {w : World D}
    (hs : w.engine.started = false) {A Q : Except Fault Unit → World D → Prop}
    (hunfit : ∀ f, w.root h entry = .error f → Q (.error f) (w.sought h entry))
    (harm : (arm h.scheduler fire .zero).Ensures (w.sought h entry) A)
    (hfailed : ∀ f v, A (.error f) v → Q (.error f) v)
    (hlaunched : ∀ cursor contents v, w.root h entry = .ok (cursor, contents) → A (.ok ()) v →
      v.engine.phase = .idle ∧ Q (.ok ()) (v.begun h cursor contents)) :
    (start h fire entry).Ensures w Q := by
  unfold Act.Ensures at *
  unfold start
  rw [Act.outcome_bind, Act.outcome_get]
  simp only [hs, Bool.false_eq_true, if_false]
  rw [Act.outcome_bind, rootEntry_outcome]
  rcases hr : w.root h entry with f | ⟨cursor, contents⟩
  · exact hunfit f hr
  · dsimp only
    rw [Act.outcome_bind]
    rcases hout : (arm h.scheduler fire .zero).outcome (w.sought h entry) with ⟨f | _, v⟩ <;> rw [hout] at harm
    · exact hfailed f v harm
    · obtain ⟨hidle, hbegun⟩ := hlaunched cursor contents v hr harm
      exact Act.ensures_of_outcome (launch_outcome h v cursor contents hidle) hbegun

/-- The same where the scheduler defers the first step and does not fire it at once. -/
theorem start_ensures_of_postpones {h : Host D} {fire : Ticket → Act (World D) Unit} {entry : Option D.Instr}
    {w : World D} (hs : w.engine.started = false) (hidle : w.engine.phase = .idle) (ha : w.Postpones h fire)
    {A Q : Except Fault Unit → World D → Prop}
    (hunfit : ∀ f, w.root h entry = .error f → Q (.error f) (w.sought h entry))
    (hdeferred : A ((w.sought h entry).deferred h.scheduler .zero).1
      ((w.sought h entry).deferred h.scheduler .zero).2)
    (hfailed : ∀ f v, A (.error f) v → Q (.error f) v)
    (hlaunched : ∀ cursor contents v, w.root h entry = .ok (cursor, contents) → v.engine.phase = .idle →
      A (.ok ()) v → Q (.ok ()) (v.begun h cursor contents)) :
    (start h fire entry).Ensures w Q := by
  have hphase : ((w.sought h entry).deferred h.scheduler .zero).2.engine.phase = .idle := by
    rw [deferred_phase, sought_engine]
    exact hidle
  refine start_ensures (A := fun o v => A o v ∧ v.engine.phase = .idle) hs hunfit ?_ (fun f v hv => hfailed f v hv.1)
    fun cursor contents v hr hv => ⟨hv.2, hlaunched cursor contents v hr hv.2 hv.1⟩
  unfold Act.Ensures
  rw [ha (w.sought h entry) (sought_clock w h entry) (by rw [sought_engine]) .zero]
  exact ⟨hdeferred, hphase⟩

/-- The world after the choice of the strand at the turn. -/
def turned (w : World D) : World D :=
  (w.altered (·.turned)).emittedIf
    (w.engine.timeSlice ≤ w.engine.sliceUsed ∧ 1 < w.engine.live.length)
    (.rotated (w.engine.live.getD w.engine.seat 0) w.engine.turned.atTurn)

@[simp] lemma turned_engine (w : World D) : w.turned.engine =
    w.engine.turned.heardIf (w.engine.timeSlice ≤ w.engine.sliceUsed ∧ 1 < w.engine.live.length)
      (w.event (.rotated (w.engine.live.getD w.engine.seat 0) w.engine.turned.atTurn)) :=
  emittedIf_engine _ _ _

@[simp] lemma turned_clock (w : World D) : w.turned.clock = w.clock := emittedIf_clock _ _ _

@[simp] lemma turned_memory (w : World D) : w.turned.memory = w.memory := emittedIf_memory _ _ _

@[simp] lemma tell_turned (f : Deed D → Option β) (hf : ∀ e, f (.emitted e) = none) (w : World D) :
    Deed.tell f w.turned.deeds = Deed.tell f w.deeds := tell_emittedIf f hf _ _ _

lemma select_outcome (w : World D) : select.outcome w = (.ok w.engine.turned.atTurn, w.turned) := by
  unfold select turned emittedIf
  by_cases hs : w.engine.timeSlice ≤ w.engine.sliceUsed
  · by_cases hl : 1 < w.engine.live.length
    · have ht : w.engine.turned = { w.engine with
          index := (w.engine.seat + 1) % w.engine.live.length, sliceUsed := 0 } := by
        simp [Engine.turned, hs, hl]
      simp only [Act.outcome_bind, Act.outcome_get, modifyEngine_outcome, altered, hs, hl, ht, if_true,
        and_self, decide_true, Act.outcome_discard, emit_own _ (.rotated ..) trivial, Act.except_map_ok]
      rfl
    · have ht : w.engine.turned = { w.engine with index := w.engine.seat, sliceUsed := 0 } := by
        simp [Engine.turned, hs, hl]
      simp only [Act.outcome_bind, Act.outcome_get, modifyEngine_outcome, altered, hs, hl, ht, if_true,
        if_false, and_false, decide_false, Bool.false_eq_true]
      rfl
  · have ht : w.engine.turned = { w.engine with index := w.engine.seat } := by
      simp [Engine.turned, hs]
    simp only [Act.outcome_bind, Act.outcome_get, modifyEngine_outcome, altered, hs, ht, if_false,
      false_and, decide_false, Bool.false_eq_true]
    rfl

/-- What a step reports of the world it leaves behind. -/
def report (w : World D) (mark executed : Nat) (strand : Option Nat) (hasNext : Bool) : StepResult :=
  { executed, strand, hasNext, phase := w.engine.phase, events := w.engine.since mark }

@[simp] lemma result_outcome (w : World D) (mark executed : Nat) (strand : Option Nat)
    (hasNext : Bool) : (result mark executed strand hasNext).outcome w =
      (.ok (w.report mark executed strand hasNext), w) := rfl

/-- The world after a stop before an instruction. -/
def stopped (w : World D) (h : Host D) (sid : Nat) (i : D.Instr) : World D :=
  ((((w.altered (·.passing (some (sid, i)))).disarmed h.scheduler).entered .paused "breakpoint").noted
    .info .process s!"breakpoint hit: strand {sid} at {h.label i}").emitted (.stopped sid (h.label i))

lemma stop_outcome (h : Host D) (w : World D) (mark sid : Nat) (i : D.Instr)
    (hp : w.engine.phase = .running) :
    (stop h mark sid i).outcome w =
      (.ok ((w.stopped h sid i).report mark 0 (some sid) true), w.stopped h sid i) := by
  have ht := transition_outcome ((w.altered (·.passing (some (sid, i)))).disarmed h.scheduler)
    .paused "breakpoint" (by simp [hp]; rfl)
  have hskip : (w.altered fun e => { e with skip := some (sid, i) }) =
      w.altered (·.passing (some (sid, i))) := rfl
  unfold stop
  simp only [Act.outcome_bind, modifyEngine_outcome, disarm_outcome, hskip, ht, note_outcome,
    Act.outcome_discard, emit_own _ (.stopped ..) trivial, Act.except_map_ok]
  rfl

/-- The world with the scheduler in another state. -/
@[simps engine clock memory deeds] def atClock (w : World D) (clock : D.Clock) : World D :=
  { w with clock }

/-- Firing what the scheduler has next, if there is anything. -/
lemma runNext_outcome (s : Scheduler D.Clock) (fire : Ticket → Act (World D) Unit) (w : World D) :
    (runNext s fire).outcome w = match s.next w.clock with
      | none => (.ok false, w)
      | some (t, clock) => ((fire t).outcome (w.atClock clock)).map (·.map fun _ => true) id := by
  unfold runNext
  simp only [Act.outcome_bind, Act.outcome_get]
  rcases s.next w.clock with _ | ⟨t, clock⟩
  · rfl
  · have hset : { w with clock } = w.atClock clock := rfl
    simp only [Act.outcome_bind, Act.outcome_set, hset]
    rcases (fire t).outcome (w.atClock clock) with ⟨f | x, v⟩ <;> rfl

end World
end Loom
