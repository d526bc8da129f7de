import Loom.Proofs.Core
import Loom.Proofs.Interleaving

/-! What the operations of an engine do to the core of its run: all of them leave it alone, save that a
stop chooses the strand at the turn, and a step takes the core to the next one. -/
namespace Loom.World

variable {D : Dialect}

/-- The part of a world that the next instruction depends on. -/
@[simps] def core (w : World D) : Core D where
  strands := w.engine.strands
  live := w.engine.live
  index := w.engine.index
  sliceUsed := w.engine.sliceUsed
  timeSlice := w.engine.timeSlice
  memory := w.memory

section Parts

variable (w : World D)

@[simp] lemma core_emitted (what : Happening) : (w.emitted what).core = w.core := rfl

@[simp] lemma core_disarmed (s : Scheduler D.Clock) : (w.disarmed s).core = w.core := rfl

@[simp] lemma core_entered (phase : Phase) (reason : String) : (w.entered phase reason).core = w.core :=
  rfl

@[simp] lemma core_deferred (s : Scheduler D.Clock) (delay : Binary64) :
    (w.deferred s delay).2.core = w.core := by
  unfold deferred
  split <;> rfl

@[simp] lemma core_sought (h : Host D) (entry : Option D.Instr) :
    (w.sought h entry).core = w.core := by
  unfold core
  rw [sought_engine, sought_memory]

lemma core_begun (h : Host D) (cursor : Option D.Instr) (contents : D.Scope) :
    (w.begun h cursor contents).core =
      { strands := w.engine.strands.push { cursor, scope := w.engine.strands.size }
        live := (cursor.map fun _ => w.engine.strands.size).toList
        index := 0
        sliceUsed := 0
        timeSlice := w.engine.timeSlice
        memory := h.install w.memory w.engine.strands.size contents } := by
  cases cursor <;> rfl

@[simp] lemma core_turned : w.turned.core = w.core.turned := by
  unfold core
  rw [turned_engine, turned_memory]
  rfl

@[simp] lemma core_spawned (h : Host D) (i : D.Instr) (scope : ScopeChoice D) :
    (w.spawned h i scope).core = w.core.spawned h i scope := by
  cases scope <;> rfl

@[simp] lemma core_completed (sid : Nat) (i : D.Instr) : (w.completed sid i).core =
    w.core.updated sid fun s => { s with steps := s.steps + 1 } := rfl

@[simp] lemma core_movedTo (sid : Nat) (cursor : Option D.Instr) :
    (w.altered (·.movedTo sid cursor)).core = w.core.updated sid fun s => { s with cursor } := rfl

@[simp] lemma core_kept_announced (h : Host D) (sid : Nat) (cursor : Option D.Instr) (hasNext : Bool) :
    ((w.announced h sid cursor hasNext).kept sid hasNext).core =
      if hasNext then w.core.counted else w.core.without sid := by
  cases hasNext <;> rfl

@[simp] lemma core_kept_lamented (h : Host D) (sid before : Nat) (cursor : Option D.Instr) (f : Fault)
    (text : String) (goesOn : Bool) : ((w.lamented h sid before cursor f text).kept sid goesOn).core =
      if goesOn then w.core else w.core.without sid := by
  cases goesOn <;> rfl

@[simp] lemma core_wound (h : Host D) (manual : Bool) : (w.wound h manual).2.core = w.core := by
  unfold wound
  split_ifs
  · rfl
  · exact core_deferred w _ _
  · rfl

@[simp] lemma core_stumbled (h : Host D) : (w.stumbled h).core = w.core := by
  unfold stumbled
  split_ifs <;> rfl

end Parts

/-- What an engine counts and what it is set to. -/
@[ext] structure Dials where
  totalSteps : Nat
  rate : Binary64
  breaking : Bool

@[simps] def dials (w : World D) : Dials where
  totalSteps := w.engine.totalSteps
  rate := w.engine.rate
  breaking := w.engine.breaking

@[simps] def Dials.counted (d : Dials) : Dials := { d with totalSteps := d.totalSteps + 1 }

/-- Nothing but events, notes and the core may differ. -/
structure Framed (w v : World D) : Prop where
  control : v.control = w.control
  dials : v.dials = w.dials
  stepping : v.engine.stepping = w.engine.stepping
  completions : v.completions = w.completions

lemma Framed.refl (w : World D) : Framed w w := ⟨rfl, rfl, rfl, rfl⟩

lemma Framed.trans {w v u : World D} (h : Framed w v) (h' : Framed v u) : Framed w u :=
  ⟨h'.control.trans h.control, h'.dials.trans h.dials, h'.stepping.trans h.stepping,
    h'.completions.trans h.completions⟩

lemma framed_spawned (w : World D) (h : Host D) (i : D.Instr) (scope : ScopeChoice D) :
    Framed w (w.spawned h i scope) :=
  ⟨control_spawned w h i scope, rfl, rfl, by simp [Deed.completion?]⟩

variable {h : Host D} {fit : D.Clock → Prop} {P : D.Memory → Prop} {w v : World D}

lemma postpones_of_fit (hs : h.scheduler.Defers fit) (hc : fit w.clock)
    (fire : Ticket → Act (World D) Unit) : w.Postpones h fire := by
  refine postpones_of_later w h fire fun delay t a c ha => hs.later ?_ ha
  rw [disarmed_clock]
  cases w.engine.pending with
  | none => exact hc
  | some handle => exact hs.cancel handle hc

/-- Inside a step a further strand is added to the core and nothing is deferred. -/
lemma serve_spawn (hs : h.scheduler.Defers fit) (rounds depth : Nat) (hc : fit w.clock)
    (hlive : w.engine.refusal "spawn" = none) (hhalt : w.engine.phase ≠ .halted)
    (hstep : w.engine.stepping = true) (entry : Option D.Instr) (scope : ScopeChoice D) :
    ∃ v, (serve h rounds (depth + 1) (.spawn entry scope)).outcome w =
      ((w.core.answer h entry scope).1, v) ∧ v.core = (w.core.answer h entry scope).2 ∧ Framed w v := by
  have hspawn := spawn_outcome h w (fun t => discard (serve h rounds depth (.fire t))) entry scope
    (postpones_of_fit hs hc _)
  simp only [hlive, hhalt, hstep, if_false, and_false, reduceCtorEq] at hspawn
  unfold serve perform Core.answer
  simp only [Act.outcome_bind, hspawn, Act.outcome_get, Act.outcome_pure]
  rcases derivedEntry h entry with f | i
  · exact ⟨w, rfl, rfl, .refl w⟩
  · refine ⟨w.spawned h i scope, ?_, core_spawned w h i scope, framed_spawned w h i scope⟩
    simp [snapshot, Engine.steps, Engine.cursor, Engine.strand?, newStrand]

/-- A script that asks for nothing but further strands acts on the core and on nothing else. -/
theorem runScript_core (hs : h.scheduler.Defers fit) (rounds depth : Nat) (hc : fit w.clock)
    (hlive : w.engine.refusal "spawn" = none) (hhalt : w.engine.phase ≠ .halted)
    (hstep : w.engine.stepping = true) {s : Script D α} {a : α} {d : Core D}
    (hrun : w.core.run h s = some (a, d)) :
    ∃ v, (runScript (serve h rounds (depth + 1)) s).outcome w = (.ok a, v) ∧ v.core = d ∧ Framed w v := by
  induction s generalizing w with
  | done b =>
    cases hrun
    exact ⟨w, rfl, rfl, .refl w⟩
  | fail f => cases hrun
  | look next ih => exact ih w.memory hc hlive hhalt hstep hrun
  | store memory next ih =>
    obtain ⟨v, hv, hcore, hframe⟩ := ih (w := w.withMemory memory) hc hlive hhalt hstep hrun
    exact ⟨v, hv, hcore, hframe.control, hframe.dials, hframe.stepping, hframe.completions⟩
  | ask r next ih =>
    cases r with
    | spawn entry scope =>
      obtain ⟨u, hu, hcore, hframe⟩ := serve_spawn hs rounds depth hc hlive hhalt hstep entry scope
      have hclock : u.clock = w.clock := congrArg Control.clock hframe.control
      have hphase : u.engine.phase = w.engine.phase := congrArg Control.phase hframe.control
      have hstarted : u.engine.started = w.engine.started := congrArg Control.started hframe.control
      obtain ⟨v, hv, hd, hframe'⟩ := ih (w.core.answer h entry scope).1 (w := u) (hclock ▸ hc)
        (by rw [← hlive]; unfold Engine.refusal; rw [hphase, hstarted]) (hphase ▸ hhalt)
        (hframe.stepping.trans hstep) (hcore ▸ hrun)
      refine ⟨v, ?_, hd, hframe.trans hframe'⟩
      unfold runScript
      rw [Act.outcome_bind, Act.outcome_attempt, hu]
      exact hv
    | _ => cases hrun

/-- Set going, not ended for good, and ready for the next instruction. -/
structure Underway (fit : D.Clock → Prop) (P : D.Memory → Prop) (w : World D) : Prop where
  started : w.engine.started = true
  idle : w.engine.phase ≠ .idle
  final : w.engine.phase ≠ .terminated
  clock : fit w.clock
  ready : w.core.Ready P

/-- Only the phase, what is deferred, events and notes may differ. -/
structure Trails (fit : D.Clock → Prop) (w v : World D) : Prop where
  core : v.core = w.core
  completions : v.completions = w.completions
  started : v.engine.started = w.engine.started
  idle : w.engine.phase ≠ .idle → v.engine.phase ≠ .idle
  final : w.engine.phase ≠ .terminated → v.engine.phase ≠ .terminated
  clock : fit w.clock → fit v.clock

namespace Trails

lemma refl (w : World D) : Trails fit w w := ⟨rfl, rfl, rfl, id, id, id⟩

lemma trans {w v u : World D} (h : Trails fit w v) (h' : Trails fit v u) : Trails fit w u where
  core := h'.core.trans h.core
  completions := h'.completions.trans h.completions
  started := h'.started.trans h.started
  idle hi := h'.idle (h.idle hi)
  final hf := h'.final (h.final hf)
  clock hc := h'.clock (h.clock hc)

lemma disarmed (hs : h.scheduler.Defers fit) (w : World D) :
    Trails fit w (w.disarmed h.scheduler) where
  core := rfl
  completions := rfl
  started := rfl
  idle := id
  final := id
  clock hc := by
    rw [disarmed_clock]
    cases w.engine.pending with
    | none => exact hc
    | some handle => exact hs.cancel handle hc

lemma entered (w : World D) {phase : Phase} (reason : String) (hi : phase ≠ .idle)
    (hf : phase ≠ .terminated) : Trails fit w (w.entered phase reason) :=
  ⟨rfl, by simp [Deed.completion?], rfl, fun _ => hi, fun _ => hf, id⟩

lemma deferred (hs : h.scheduler.Defers fit) (w : World D) (delay : Binary64) :
    Trails fit w (w.deferred h.scheduler delay).2 := by
  have hclock := (disarmed hs w).clock
  have harm := fun hc => hs.arm delay (w.disarmed h.scheduler).ticket (hclock hc)
  unfold World.deferred
  rcases ha : h.scheduler.arm (w.disarmed h.scheduler).clock delay (w.disarmed h.scheduler).ticket
    with ⟨f | a, clock⟩ <;> rw [ha] at harm
  · exact ⟨rfl, by simp [Deed.completion?], rfl, id, id, harm⟩
  · exact ⟨rfl, by simp [Deed.completion?], rfl, id, id, harm⟩

lemma halted (hs : h.scheduler.Defers fit) (w : World D) :
    Trails fit w ((w.disarmed h.scheduler).entered .halted "no live strands") :=
  (disarmed hs w).trans (entered _ _ (by simp) (by simp))

lemma noted (w : World D) (level : LogLevel) (source : LogSource) (text : String) :
    Trails fit w (w.noted level source text) := ⟨rfl, rfl, rfl, id, id, id⟩

lemma emitted (w : World D) (what : Happening) : Trails fit w (w.emitted what) :=
  ⟨rfl, by simp [Deed.completion?], rfl, id, id, id⟩

lemma passing (w : World D) (skip : Option (Nat × D.Instr)) :
    Trails fit w (w.altered (·.passing skip)) := ⟨rfl, rfl, rfl, id, id, id⟩

lemma stopped (hs : h.scheduler.Defers fit) (w : World D) (sid : Nat) (i : D.Instr) :
    Trails fit w (w.stopped h sid i) := by
  unfold World.stopped
  exact (passing w _).trans ((disarmed hs _).trans
    ((entered _ _ (by simp) (by simp)).trans ((noted _ _ _ _).trans (emitted _ _))))

lemma wound (hs : h.scheduler.Defers fit) (w : World D) (manual : Bool) :
    Trails fit w (w.wound h manual).2 := by
  unfold World.wound
  split_ifs
  · exact halted hs w
  · exact deferred hs w w.engine.rate
  · exact refl w

lemma stumbled (hs : h.scheduler.Defers fit) (w : World D) : Trails fit w (w.stumbled h) := by
  unfold World.stumbled
  split_ifs
  · exact halted hs w
  · exact entered w _ (by simp) (by simp)
  · exact refl w

end Trails

lemma Underway.trails (hw : Underway fit P w) (hv : Trails fit w v) : Underway fit P v where
  started := hv.started.trans hw.started
  idle := hv.idle hw.idle
  final := hv.final hw.final
  clock := hv.clock hw.clock
  ready := hv.core ▸ hw.ready

/-- Either no instruction was completed and at most the strand at the turn was chosen, or one was. -/
def Advances (h : Host D) (w v : World D) : Prop :=
  (v.completions = w.completions ∧ (v.core = w.core ∨ v.core = w.core.turned)) ∨
    ∃ x, w.core.step h = some (x, v.core) ∧ v.completions = w.completions ++ [x]

lemma Trails.advances (hv : Trails fit w v) : Advances h w v := .inl ⟨hv.completions, .inl hv.core⟩

section Step

variable (hs : h.scheduler.Defers fit) (rounds depth : Nat) {c d : Core D} {sid : Nat}
  {strand : Strand D} {i : D.Instr} {successor : Option D.Instr}

include hs

/-- The instruction of the strand at the turn is executed. The cursor moves to its successor, or to
nothing, with an ordinary fault, where the successor is not sound. -/
lemma advance_core (hcourse : Core.Course h c sid strand i d successor) (hcore : w.core = c.turned)
    (hc : fit w.clock) (hlive : w.engine.refusal "spawn" = none) (hhalt : w.engine.phase ≠ .halted)
    (hstep : w.engine.stepping = true) (manual : Bool) :
    ∃ o v, (advance h (runScript (serve h rounds (depth + 1))) sid sid manual).outcome w = (o, v) ∧
      v.control = w.control ∧ v.dials = w.dials ∧ v.completions = w.completions ++ [(sid, i)] ∧
      v.core = (d.updated sid fun s => { s with steps := s.steps + 1 }).updated sid
        (fun s => { s with cursor := successor.filter h.wellFormed }) ∧
      (successor.filter h.wellFormed = successor ∧ o = .ok successor.isSome ∨
        successor.isSome ∧ successor.filter h.wellFormed = none ∧
          ∃ f, o = .error f ∧ f.isOrdinary = true ∧ f.IsTold) := by
  have hfound : w.engine.strand? sid = some strand := by
    have hstrands : w.engine.strands = c.strands := congrArg Core.strands hcore
    unfold Engine.strand?
    rw [hstrands]
    exact hcourse.found
  generalize hbegun : w.recorded (.began sid i w.engine.phase manual) = u
  have hucore : u.core = c.turned := by rw [← hbegun]; exact hcore
  have hucontrol : u.control = w.control := by rw [← hbegun]; simp [control, Deed.ticket?]
  have hudials : u.dials = w.dials := by rw [← hbegun]; rfl
  have hucompletions : u.completions = w.completions := by rw [← hbegun]; simp [Deed.completion?]
  obtain ⟨v, hv, hd, hframe⟩ := runScript_core (w := u) hs rounds depth (by rw [← hbegun]; exact hc)
    (by rw [← hbegun]; exact hlive) (by rw [← hbegun]; exact hhalt) (by rw [← hbegun]; exact hstep)
    (hucore ▸ hcourse.ran)
  have hdone : (v.completed sid i).core = d.updated sid fun s => { s with steps := s.steps + 1 } := by
    rw [core_completed, hd]
  have hcontrol : (v.completed sid i).control = w.control := by
    rw [← hucontrol, ← hframe.control]
    simp [control, Deed.ticket?]
  have hdials : (v.completed sid i).dials = w.dials := hframe.dials.trans hudials
  have hcompletions : (v.completed sid i).completions = w.completions ++ [(sid, i)] := by
    rw [← hucompletions, ← hframe.completions]
    simp [Deed.completion?]
  have hnext : h.next (v.completed sid i).memory i = .ok successor := by
    have hmemory : v.memory = d.memory := congrArg Core.memory hd
    rw [completed_memory, hmemory]
    exact hcourse.next
  rw [advance_outcome]
  simp only [hfound, hcourse.cursor, hbegun, hv, followed, hnext]
  rcases successor with _ | j
  · refine ⟨_, _, rfl, hcontrol, hdials, hcompletions, ?_, .inl ⟨rfl, rfl⟩⟩
    rw [core_movedTo, hdone]
    rfl
  · by_cases hj : h.wellFormed j = true
    · have hfilter : (some j).filter h.wellFormed = some j := by simp [Option.filter, hj]
      simp only [hj, if_true, hfilter]
      refine ⟨_, _, rfl, hcontrol, hdials, hcompletions, ?_, .inl ⟨trivial, rfl⟩⟩
      rw [core_movedTo, hdone]
    · have hfilter : (some j).filter h.wellFormed = none := by simp [Option.filter, hj]
      simp only [hj, hfilter]
      have hplain := refusal_isPlain h .successor j
      refine ⟨_, _, rfl, hcontrol, hdials, hcompletions, ?_,
        .inr ⟨rfl, trivial, _, rfl, hplain.ordinary, hplain.told⟩⟩
      rw [core_movedTo, hdone]

omit hs in
lemma phases_of_active (hp : w.engine.phase = .running ∨ w.engine.phase = .paused) :
    w.engine.phase ≠ .idle ∧ w.engine.phase ≠ .terminated ∧ w.engine.phase ≠ .halted := by
  rcases hp with hp | hp <;> simp [hp]

omit hs in
lemma completed_of_sound (hsound : successor.filter h.wellFormed = successor) :
    d.completed h sid successor =
      if successor.isSome then ((d.updated sid fun s => { s with steps := s.steps + 1 }).updated sid
        fun s => { s with cursor := successor }).counted
      else ((d.updated sid fun s => { s with steps := s.steps + 1 }).updated sid
        fun s => { s with cursor := successor }).without sid := by
  unfold Core.completed Core.followed
  rw [hsound]
  cases successor <;> rfl

/-- An instruction with a sound successor, or at the end of its strand, is completed and counted; what
is left is the end of the step. -/
lemma proceed_course (hcourse : Core.Course h c sid strand i d successor) (hmem : sid ∈ d.live)
    (hsound : successor.filter h.wellFormed = successor) (hcore : w.core = c.turned) (hc : fit w.clock)
    (hstarted : w.engine.started = true)
    (hp : w.engine.phase = .running ∨ w.engine.phase = .paused)
    (fire : Ticket → Act (World D) Unit) (mark : Nat) (cursor : Option D.Instr) (manual : Bool) :
    ∃ u : World D, u.core = d.completed h sid successor ∧ u.control = w.control ∧
      u.dials = w.dials.counted ∧ u.completions = w.completions ++ [(sid, i)] ∧
      (proceed h (runScript (serve h rounds (depth + 1))) fire mark sid cursor manual).outcome w =
        match u.wound h manual with
        | (.error f, v) => (.error f, v)
        | (.ok (), v) => (.ok (v.report mark 1 (some sid) successor.isSome), v) := by
  obtain ⟨-, hfinal, hhalt⟩ := phases_of_active hp
  obtain ⟨o, v, hadvance, hcontrol, hdials, hcompletions, hvcore, hcases⟩ := advance_core
    (w := (w.altered (·.passing none)).altered (·.inStep true)) hs rounds depth hcourse hcore hc
    (by simp [Engine.refusal, hstarted, hfinal]) hhalt rfl manual
  have ho : o = .ok successor.isSome := by
    rcases hcases with ⟨-, ho⟩ | ⟨hsome, hnone, -⟩
    · exact ho
    · rw [← hsound, hnone] at hsome
      cases hsome
  have hvp : v.engine.phase = .running ∨ v.engine.phase = .paused := by
    have hphase : v.engine.phase = w.engine.phase := congrArg Control.phase hcontrol
    exact hphase ▸ hp
  have hvmem : sid ∈ v.engine.live := by
    have hlive : v.engine.live = d.live := congrArg Core.live hvcore
    exact hlive ▸ hmem
  have hvclock : fit v.clock := by
    have hclock : v.clock = w.clock := congrArg Control.clock hcontrol
    exact hclock ▸ hc
  refine ⟨((v.altered (·.inStep false)).announced h sid cursor successor.isSome).kept sid successor.isSome,
    ?_, ?_, ?_, ?_, ?_⟩
  · rw [core_kept_announced, completed_of_sound hsound]
    have hcore : (v.altered (·.inStep false)).core = _ := hvcore.trans (by rw [hsound])
    rw [hcore]
  · rw [control_kept, control_announced]
    exact hcontrol
  · have hannounced : (((v.altered (·.inStep false)).announced h sid cursor successor.isSome).kept sid
        successor.isSome).dials = v.dials.counted := by
      cases successor.isSome <;> rfl
    rw [hannounced, hdials]
    rfl
  · refine Eq.trans ?_ hcompletions
    cases successor.isSome <;> simp [kept, Deed.completion?]
  · rw [proceed_outcome, hadvance, ho]
    have hend := conclude_outcome h fire (v.altered (·.inStep false)) mark sid cursor successor.isSome
      manual (.inr hvmem) (postpones_of_fit hs hvclock fire)
    have hvfinal : (v.altered (·.inStep false)).engine.phase ≠ .terminated := (phases_of_active hvp).2.1
    rw [if_neg hvfinal] at hend
    exact hend

/-- After an instruction without a sound successor. -/
lemma recovered_core (hstarted : w.engine.started = true)
    (hp : w.engine.phase = .running ∨ w.engine.phase = .paused) (hc : fit w.clock)
    (hcursor : w.engine.cursor sid = none) (hready : (w.core.without sid).Ready P) (before : Nat)
    (cursor : Option D.Instr) (f : Fault) (text : String) :
    Underway fit P (w.recovered h sid before cursor f text) ∧
      (w.recovered h sid before cursor f text).core = w.core.without sid ∧
      (w.recovered h sid before cursor f text).completions = w.completions := by
  obtain ⟨hidle, hfinal, -⟩ := phases_of_active hp
  unfold recovered
  rw [hcursor]
  simp only [hfinal, if_false, Option.isSome_none]
  generalize hu : (w.lamented h sid before cursor f text).kept sid false = u
  have hcore : u.core = w.core.without sid := by
    rw [← hu, core_kept_lamented]
    rfl
  have hcompletions : u.completions = w.completions := by
    rw [← hu]
    simp [kept, Deed.completion?]
  have hunder : Underway fit P u := by
    rw [← hu] at hcore ⊢
    exact ⟨hstarted, hidle, hfinal, (Trails.disarmed hs w).clock hc, hcore ▸ hready⟩
  have htrails := Trails.stumbled hs u
  exact ⟨hunder.trails htrails, htrails.core.trans hcore, htrails.completions.trans hcompletions⟩

omit hs in
lemma cursor_of_core {e : Core D} (hcore : w.core = e.updated sid fun s => { s with cursor := none }) :
    w.engine.cursor sid = none := by
  have hstrands : w.engine.strands = e.strands.modify sid fun s => { s with cursor := none } :=
    congrArg Core.strands hcore
  unfold Engine.cursor Engine.strand?
  rw [hstrands, Array.getElem?_modify, if_pos rfl]
  cases e.strands[sid]? <;> rfl

/-- Executing the instruction of the strand at the turn takes the core to the next one. -/
lemma proceed_core (hcourse : Core.Course h c sid strand i d successor) (hd : d.Ready P)
    (hmem : sid ∈ d.live) (hcore : w.core = c.turned) (hc : fit w.clock)
    (hstarted : w.engine.started = true)
    (hp : w.engine.phase = .running ∨ w.engine.phase = .paused)
    (fire : Ticket → Act (World D) Unit) (mark : Nat) (cursor : Option D.Instr) (manual : Bool) :
    (proceed h (runScript (serve h rounds (depth + 1))) fire mark sid cursor manual).Ensures w fun _ v =>
      Underway fit P v ∧ v.core = d.completed h sid successor ∧
        v.completions = w.completions ++ [(sid, i)] := by
  obtain ⟨hidle, hfinal, hhalt⟩ := phases_of_active hp
  have hready := hd.completed (h := h) sid successor
  unfold Act.Ensures
  by_cases hsound : successor.filter h.wellFormed = successor
  · obtain ⟨u, hucore, hucontrol, -, hucompletions, hproceed⟩ := proceed_course hs rounds depth hcourse
      hmem hsound hcore hc hstarted hp fire mark cursor manual
    have hunder : Underway fit P u := by
      have hphase : u.engine.phase = w.engine.phase := congrArg Control.phase hucontrol
      have hclock : u.clock = w.clock := congrArg Control.clock hucontrol
      exact ⟨(congrArg Control.started hucontrol).trans hstarted, hphase ▸ hidle, hphase ▸ hfinal,
        hclock ▸ hc, hucore ▸ hready⟩
    have htrails := Trails.wound hs u manual
    have hworld : ((proceed h (runScript (serve h rounds (depth + 1))) fire mark sid cursor
        manual).outcome w).2 = (u.wound h manual).2 := by
      rw [hproceed]
      rcases u.wound h manual with ⟨f | _, v⟩ <;> rfl
    rw [hworld]
    exact ⟨hunder.trails htrails, htrails.core.trans hucore, htrails.completions.trans hucompletions⟩
  · obtain ⟨o, v, hadvance, hcontrol, -, hcompletions, hvcore, hcases⟩ := advance_core
      (w := (w.altered (·.passing none)).altered (·.inStep true)) hs rounds depth hcourse hcore hc
      (by simp [Engine.refusal, hstarted, hfinal]) hhalt rfl manual
    obtain ⟨-, hnone, f, rfl, hf, text, htext⟩ := hcases.resolve_left fun hok => hsound hok.1
    rw [hnone] at hvcore
    have hvp : v.engine.phase = .running ∨ v.engine.phase = .paused := by
      have hphase : v.engine.phase = w.engine.phase := congrArg Control.phase hcontrol
      exact hphase ▸ hp
    have hvclock : fit v.clock := by
      have hclock : v.clock = w.clock := congrArg Control.clock hcontrol
      exact hclock ▸ hc
    have hvmem : sid ∈ v.engine.live := by
      have hlive : v.engine.live = d.live := congrArg Core.live hvcore
      exact hlive ▸ hmem
    have htarget : v.core.without sid = d.completed h sid successor := by
      unfold Core.completed Core.followed
      rw [hnone, hvcore]
    obtain ⟨hunder, hcore, hdone⟩ := recovered_core (P := P) hs
      ((congrArg Control.started hcontrol).trans hstarted) hvp hvclock (cursor_of_core hvcore)
      (htarget ▸ hready) (w.engine.steps sid) cursor f text
    rw [proceed_outcome, hadvance]
    simp only [hf, if_true, htext,
      recover_outcome h v sid (w.engine.steps sid) cursor f (.inr ⟨hvp, hvmem⟩)]
    exact ⟨⟨hunder.started, hunder.idle, hunder.final, hunder.clock, hunder.ready⟩,
      hcore.trans htarget, hdone.trans hcompletions⟩

omit hs in
lemma cursor_of_course (hcourse : Core.Course h w.core sid strand i d successor) :
    w.engine.cursor sid = some i := by
  have hfound : w.engine.strands[sid]? = some strand := hcourse.found
  unfold Engine.cursor Engine.strand?
  rw [hfound]
  exact hcourse.cursor

omit hs in
/-- The test for a stop changes nothing, and a manual step or one without breakpoints is not stopped. -/
lemma consult_core (hh : Core.Serene h P) (serve : Request D → Act (World D) Reply) (hm : P w.memory)
    (sid : Nat) (cursor : Option D.Instr) (manual : Bool) :
    ∃ stops, (consult h (runScript serve) sid cursor manual).outcome w = (.ok stops, w) ∧
      (stops = true → manual = false ∧ w.engine.breaking = true) := by
  refine consult_ensures (Q := fun o v => ∃ stops, (o, v) = (.ok stops, w) ∧
    (stops = true → manual = false ∧ w.engine.breaking = true)) ⟨false, rfl, nofun⟩
    fun hmanual hbreaks i _ _ => ?_
  obtain ⟨stops, hstops⟩ := hh.breaks i hm
  exact ⟨stops, runScript_ponder serve hstops, fun _ => ⟨hmanual, hbreaks⟩⟩

/-- A step executes the next instruction of the core; it does so unless no strand is in play or it is
stopped before. -/
theorem executeStep_core (hh : Core.Serene h P) (hw : Underway fit P w)
    (fire : Ticket → Act (World D) Unit) (manual : Bool)
    (hp : w.engine.phase = if manual then .paused else .running) :
    (executeStep h (runScript (serve h rounds (depth + 1))) fire manual).Ensures w fun _ v =>
      Underway fit P v ∧ Advances h w v ∧
        (w.engine.live ≠ [] → manual = true ∨ w.engine.breaking = false →
          ∃ x, w.core.step h = some (x, v.core) ∧ v.completions = w.completions ++ [x]) := by
  have hactive : w.engine.phase = .running ∨ w.engine.phase = .paused := by
    rw [hp]
    cases manual <;> simp
  unfold Act.Ensures
  by_cases hl : w.engine.live = []
  · rw [executeStep_empty h _ fire w manual hl hactive]
    have htrails := Trails.halted hs w
    exact ⟨hw.trails htrails, htrails.advances, fun h => absurd hl h⟩
  · obtain ⟨sid, strand, i, d, successor, hcourse, hd⟩ := hw.ready.course hh hl
    have hmem : sid ∈ d.live := (hw.ready.turned.alive.run hcourse.ran).2.1.subset hcourse.mem
    obtain ⟨stops, hconsult, hstops⟩ := consult_core (w := w.turned) hh (serve h rounds (depth + 1))
      (by simpa using hw.ready.memory) sid (some i) manual
    have hcompletions : w.turned.completions = w.completions :=
      tell_turned Deed.completion? (fun _ => rfl) w
    rw [executeStep_outcome h _ fire w manual hl hcourse.chosen (cursor_of_course hcourse), hconsult]
    rcases stops with _ | _
    · obtain ⟨hunder, hcore, hdone⟩ := proceed_core (w := w.turned) hs rounds depth hcourse hd hmem
        (core_turned w) (by simpa using hw.clock) (by simpa using hw.started) (by simpa using hactive)
        fire w.engine.nextSeq (some i) manual
      have hstep : ∃ x, w.core.step h = some (x, _) ∧ _ = w.completions ++ [x] :=
        ⟨(sid, i), hcore ▸ hcourse.step, hcompletions ▸ hdone⟩
      exact ⟨hunder, .inr hstep, fun _ _ => hstep⟩
    · obtain ⟨hmanual, hbreaking⟩ := hstops rfl
      have hrun : w.turned.engine.phase = .running := by simp [hp, hmanual]
      simp only [stop_outcome h w.turned w.engine.nextSeq sid i hrun]
      have htrails := Trails.stopped hs w.turned sid i
      have hturned : Underway fit P w.turned :=
        ⟨by simpa using hw.started, by simpa using hw.idle, by simpa using hw.final,
          by simpa using hw.clock, core_turned w ▸ hw.ready.turned⟩
      refine ⟨hturned.trails htrails, .inl ⟨?_, .inr ?_⟩, fun _ hgo => ?_⟩
      · exact htrails.completions.trans hcompletions
      · exact htrails.core.trans (core_turned w)
      · have hno : w.engine.breaking = true := by simpa using hbreaking
        simp [hmanual, hno] at hgo

end Step

end Loom.World
