import Loom.Proofs.Bystander

/-! What a failing instruction leaves behind. What it raised is passed on and told of once; the run is paused
unless the instruction ended it, with nothing deferred and the turn still at the strand that failed. A strand
whose successor is no instruction is taken out, and it alone. -/
namespace Loom

/-- The instruction that a mark tells was begun. -/
def Mark.attempt? : Mark D → Option (Nat × D.Instr)
  | start sid i => some (sid, i)
  | stop .. => none

namespace World

variable {D : Dialect}

open Act (Abides Kept)

lemma attempts_eq_marks (w : World D) : w.attempts = w.marks.filterMap Mark.attempt? := by
  unfold World.attempts World.marks Deed.tell
  rw [List.filterMap_filterMap]
  refine congrFun (congrArg _ (funext fun d => ?_)) _
  rcases d with ⟨e⟩ | _ | _ | _
  · rcases e with ⟨seq, ts, what⟩
    cases what <;> rfl
  all_goals rfl

/-- What was attempted is read off the marks that were left. -/
lemma attempts_of_marks {v w : World D} {more : List (Mark D)} (hv : v.marks = w.marks ++ more) :
    v.attempts = w.attempts ++ more.filterMap Mark.attempt? := by
  rw [attempts_eq_marks, hv, List.filterMap_append, ← attempts_eq_marks]

/-- The step that a move comes to: one of the scheduler's, or one by hand. -/
inductive Comes (w : World D) : Move D → Bool → World D → Prop
  | fired (hrun : w.engine.phase = .running) : Comes w (.fire w.ticket) false (w.altered (·.unarmed))
  | byHand (hstarted : w.engine.started = true) (hpaused : w.engine.phase = .paused) :
      Comes w (.operate .step) true w

variable {h : Host D} {fit : D.Clock → Prop} {P : D.Memory → Prop} {x : Option (Nat × D.Instr)}
  {marks : List (Mark D)} {w v b : World D} {m : Move D} {manual : Bool} {sid : Nat} {i : D.Instr}

namespace Comes

/-- What a step does, the move does. -/
lemma outcome (hm : w.Comes m manual b) (rounds depth : Nat) {o : Except Fault StepResult} {v : World D}
    (hstep : (executeStep h (runScript (serve h rounds depth))
      (fun t => discard (serve h rounds depth (.fire t))) manual).outcome b = (o, v)) :
    w.after h rounds depth m = v ∧ w.verdict h rounds depth m = Act.fault? o := by
  unfold World.after verdict
  cases hm with
  | fired hrun =>
    have hfire := fire_running (w := w) h rounds depth hrun
    change _ = Prod.map _ id ((executeStep h (runScript (serve h rounds depth))
      (fun t => discard (serve h rounds depth (.fire t))) false).outcome (w.altered (·.unarmed))) at hfire
    rw [hstep] at hfire
    dsimp only
    rw [hfire]
    cases o <;> exact ⟨rfl, rfl⟩
  | byHand hstarted hpaused =>
    have hserve : (serve h rounds (depth + 1) .step).outcome w = (o.map Reply.stepped, v) := by
      change (step h (runScript (serve h rounds depth)) (fun t => discard (serve h rounds depth (.fire t))) >>=
        fun r => pure (Reply.stepped r)).outcome w = _
      rw [Act.outcome_bind, step_paused _ _ _ hstarted hpaused, hstep]
      cases o <;> rfl
    dsimp only
    rw [hserve]
    cases o <;> exact ⟨rfl, rfl⟩

lemma of_fire {t : Ticket} (hm : w.Comes (.fire t) manual b) : b = w.altered (·.unarmed) ∧ manual = false := by
  cases hm
  exact ⟨rfl, rfl⟩

lemma of_operate {r : Request D} (hm : w.Comes (.operate r) manual b) : b = w ∧ manual = true := by
  cases hm
  exact ⟨rfl, rfl⟩

end Comes

/-- A step by hand is refused unless the run is paused or has come to rest. -/
lemma step_unless_paused (rounds depth : Nat) (hw : w.Mortal) (hnot : ∀ b, ¬ w.Comes (.operate .step) true b) :
    w.after h rounds depth (.operate .step) = w := by
  have hpaused : w.engine.started = true → w.engine.phase ≠ .paused := fun hstarted hpaused =>
    hnot w (.byHand hstarted hpaused)
  refine Act.Ensures.reply (I := fun v => v = w) ?_
  refine step_ensures (fun _ _ => rfl) (fun _ => rfl) fun hstarted hphase => ?_
  exact absurd (hphase.resolve_left (hw.started_iff.1 hstarted)) (hpaused hstarted)

/-- Only a step executes anything. -/
lemma comes_of_attempts (hs : h.scheduler.Defers fit) (hh : h.Mannered P) (rounds depth : Nat)
    (hw : w.Guarded fit P x marks) (hm : w.Admits fit m)
    (hgrew : (w.after h rounds depth m).attempts ≠ w.attempts) : ∃ manual b, w.Comes m manual b := by
  by_contra hnot
  rw [not_exists] at hnot
  refine hgrew ?_
  cases m with
  | operate r =>
    rcases hm.step_or_inner with rfl | hr
    · rw [step_unless_paused rounds depth hw.mortal fun b hb => hnot true ⟨b, hb⟩]
    · have hkept := ((Guarded.practice hs hh x marks).serve rounds (depth + 1)).1 r hr w hw
      have hmarks : (w.after h rounds depth (.operate r)).marks = w.marks := hw.marks ▸ hkept.state.marks
      rw [attempts_eq_marks, hmarks, ← attempts_eq_marks]
  | fire t =>
    by_cases ht : t = w.ticket
    · subst ht
      by_cases hrun : w.engine.phase = .running
      · exact absurd ⟨_, .fired hrun⟩ (hnot false)
      · unfold World.after
        dsimp only
        rw [fire_not_running h rounds depth hrun]
        rfl
    · rw [after_stale rounds depth ht]
      rfl
  | drift clock => rfl

lemma Comes.awake (hm : w.Comes m manual b) :
    b.engine.phase.IsAwake ∧ (manual = false → b.engine.phase = .running) := by
  cases hm with
  | fired hrun => exact ⟨.inl hrun, fun _ => hrun⟩
  | byHand hstarted hpaused => exact ⟨.inr hpaused, nofun⟩

lemma Comes.guarded (hm : w.Comes m manual b) (hw : w.Guarded fit P x marks) : b.Guarded fit P x marks := by
  cases hm with
  | fired hrun => exact hw.of_same rfl hw.memory rfl (.of_eq rfl) fun _ => id
  | byHand hstarted hpaused => exact hw

lemma Guarded.lively (hw : w.Guarded fit P x marks) (hawake : w.engine.phase.IsAwake) : w.Lively :=
  ⟨hw.mortal.started_iff.2 (by rcases hawake with hp | hp <;> simp [hp]), fun _ => hawake⟩

section Step

variable (hs : h.scheduler.Defers fit) (hh : h.Mannered P) (rounds depth : Nat)

include hs hh

/-- A step that begins an instruction begins the one at the turn, and has only looked before. -/
lemma Guarded.executes_of_attempts (hw : w.Guarded fit P x marks) (hawake : w.engine.phase.IsAwake)
    (hrun : manual = false → w.engine.phase = .running) {fire : Ticket → Act (World D) Unit}
    (hgrew : ((executeStep h (runScript (serve h rounds depth)) fire manual).outcome w).2.attempts =
      w.attempts ++ [(sid, i)]) :
    ∃ scope m, P m ∧ w.Executes h rounds depth manual sid i scope (w.turned.withMemory m) := by
  have hlive : w.engine.live ≠ [] := by
    intro hl
    rw [executeStep_empty h (runScript (serve h rounds depth)) fire w manual hl hawake] at hgrew
    simp [Deed.attempt?] at hgrew
  have hturned : w.turned.Guarded fit P x marks := hw.turned
  obtain ⟨stops, m, hconsult, hmanual, hm⟩ := consult_quiet (w := w.turned) hh.breaks (serve h rounds depth)
    w.engine.turned.atTurn (w.engine.cursor w.engine.turned.atTurn) manual hturned.memory
  have hcursor : (w.turned.withMemory m).engine.cursor w.engine.turned.atTurn =
      w.engine.cursor w.engine.turned.atTurn := by
    rw [withMemory_engine, turned_engine]
    rfl
  have hattempts : (w.turned.withMemory m).attempts = w.attempts := tell_turned Deed.attempt? (fun _ => rfl) w
  cases stops with
  | true =>
    -- A stop begins nothing.
    rcases hi : w.engine.cursor w.engine.turned.atTurn with _ | j
    · rw [hi] at hconsult
      cases (consult_outcome h _ w.turned _ none manual).symm.trans hconsult
    · rw [hi] at hconsult
      have hrunning : (w.turned.withMemory m).engine.phase = .running := by simpa using hrun (hmanual rfl)
      rw [executeStep_stops h (runScript (serve h rounds depth)) fire hlive rfl hi hconsult,
        stop_outcome h _ _ _ j hrunning] at hgrew
      have hstopped : ((w.turned.withMemory m).stopped h w.engine.turned.atTurn j).attempts = w.attempts := by
        rw [← hattempts]
        simp [World.stopped, Deed.attempt?]
      exact absurd (hstopped.symm.trans hgrew) (by simp)
  | false =>
    have hkept : (w.turned.withMemory m).Guarded fit P x marks :=
      hturned.of_same rfl hm rfl (.of_eq rfl) fun _ => id
    have hproceeds := hkept.proceeds hs hh rounds depth fire w.engine.nextSeq w.engine.turned.atTurn
      (w.engine.cursor w.engine.turned.atTurn) manual
    rw [executeStep_goes h (runScript (serve h rounds depth)) fire hlive rfl rfl hconsult] at hgrew
    rw [attempts_of_marks (hw.marks.symm ▸ hproceeds.marks), starting, hcursor] at hgrew
    rcases hi : w.engine.cursor w.engine.turned.atTurn with _ | j <;> rw [hi] at hgrew
    · simp at hgrew
    · obtain ⟨rfl, rfl⟩ : w.engine.turned.atTurn = sid ∧ j = i := by simpa [Mark.attempt?] using hgrew
      rw [hi] at hcursor
      obtain ⟨strand, hstrand, hat⟩ := Option.bind_eq_some_iff.1 hcursor
      refine ⟨strand.scope, m, hm, hlive, rfl, hconsult, ?_⟩
      rw [hstrand, Option.map_some, hat]

end Step

/-- What an instruction that raised leaves behind: `text` is what it raised in words, `w` the run before the step,
`x` the run when the instruction raised, `v` the run after the step. -/
structure Contained (sid : Nat) (f : Fault) (text : String) (w x v : World D) : Prop where
  log : v.log = x.log ++ .failed sid text f.kind.name ::
    if x.engine.phase = .running then [.phase .running .paused "error"] else []
  failures : v.failures = w.failures ++ [(sid, text, f.kind.name)]
  totalSteps : v.engine.totalSteps = w.engine.totalSteps
  pending : v.engine.pending = none
  phase : v.engine.phase = if x.engine.phase = .terminated then .terminated else .paused
  strands : v.engine.phase = .paused → w.engine.strands.toList <+: v.engine.strands.toList
  live : v.engine.phase = .paused → ∃ more, v.engine.live = w.engine.live ++ more ∧
    ∀ n ∈ more, w.engine.strands.size ≤ n

/-- The clean-up behind an instruction that raised: its strand still stands at it. -/
lemma Spared.recovered {y z : World D} (hz : y.Spared z) (hsid : sid ∈ y.engine.live)
    (hcursor : y.engine.cursor sid = some i) (h : Host D) (cursor : Option D.Instr) (f : Fault) (text : String) :
    z.recovered h sid (y.engine.steps sid) cursor f text =
      if z.engine.phase = .running then (z.lamented h sid (y.engine.steps sid) cursor f text).entered .paused "error"
      else z.lamented h sid (y.engine.steps sid) cursor f text := by
  unfold World.recovered
  by_cases hend : z.engine.phase = .terminated
  · simp [hend]
  · have hwide := hz.widened hend
    have hstands : z.engine.cursor sid = some i :=
      (hwide.cursor (Engine.lt_size_of_cursor hcursor)).trans hcursor
    have hlive : z.engine.live ≠ [] := by
      obtain ⟨more, hmore, -⟩ := hwide.live
      rw [hmore]
      exact List.ne_nil_of_mem (List.mem_append_left more hsid)
    simp [hend, hstands, kept, stumbled, hlive]

lemma Spared.contained {y z : World D} (hz : y.Spared z) (hsid : sid ∈ y.engine.live)
    (hcursor : y.engine.cursor sid = some i) (h : Host D) (cursor : Option D.Instr) (f : Fault) (text : String) :
    Contained sid f text y z ((z.recovered h sid (y.engine.steps sid) cursor f text).altered (·.inStep false)) := by
  have hfailures : Deed.tell Deed.failure? z.deeds = Deed.tell Deed.failure? y.deeds := hz.failures
  have hsteps : z.engine.disarmed.steps sid = y.engine.steps sid := hz.steps sid (Engine.lt_size_of_cursor hcursor)
  have htotal : (z.lamented h sid (y.engine.steps sid) cursor f text).engine.totalSteps = y.engine.totalSteps := by
    simp [hsteps, hz.totalSteps]
  rw [hz.recovered hsid hcursor h cursor f text]
  by_cases hrun : z.engine.phase = .running
  · have hwide := hz.widened (by simp [hrun])
    rw [if_pos hrun]
    refine ⟨?_, ?_, by simpa using htotal, by simp, by simp [hrun], fun _ => by simpa using hwide.strands,
      fun _ => by simpa using hwide.live⟩
    · simp [hrun, Deed.happening?, event, phaseEvent]
    · simp [Deed.failure?, Happening.failure?, event, phaseEvent, hfailures]
  · rw [if_neg hrun]
    refine ⟨?_, ?_, by simpa using htotal, by simp, ?_, fun hpaused => ?_, fun hpaused => ?_⟩
    · simp [hrun, Deed.happening?, event]
    · simp [Deed.failure?, Happening.failure?, event, hfailures]
    · split_ifs with hend
      · simpa using hend
      · simpa using (hz.lively.awake hend).resolve_left hrun
    · have hphase : z.engine.phase = .paused := by simpa using hpaused
      simpa using (hz.widened (by simp [hphase])).strands
    · have hphase : z.engine.phase = .paused := by simpa using hpaused
      simpa using (hz.widened (by simp [hphase])).live

/-- What an instruction that returned leaves behind if its successor is none: `text` is the refusal in words, `w` the
run before the step, `x` the run when the instruction returned, `v` the run after the step. -/
structure Dropped (sid : Nat) (f : Fault) (text : String) (w x v : World D) : Prop where
  log : v.log = x.log ++ .failed sid text f.kind.name :: .retired sid (w.engine.steps sid + 1) ::
    if v.engine.live = [] then [.phase x.engine.phase .halted "no live strands"]
    else if x.engine.phase = .running then [.phase .running .paused "error"] else []
  failures : v.failures = w.failures ++ [(sid, text, f.kind.name)]
  totalSteps : v.engine.totalSteps = w.engine.totalSteps + 1
  pending : v.engine.pending = none
  phase : v.engine.phase = if v.engine.live = [] then .halted else .paused
  gone : sid ∉ v.engine.live
  live : ∃ more, v.engine.live = w.engine.live.erase sid ++ more ∧ ∀ n ∈ more, w.engine.strands.size ≤ n
  others : ∀ n < w.engine.strands.size, n ≠ sid → v.engine.strand? n = w.engine.strand? n
  steps : v.engine.steps sid = w.engine.steps sid + 1
  cursor : v.engine.cursor sid = none

/-- A strand that has completed an instruction and stands nowhere. -/
lemma strand?_lost (e : Engine D) (sid n : Nat) : ((e.stepped sid).movedTo sid none).strand? n =
    if n = sid then (e.strand? n).map fun s => { s with steps := s.steps + 1, cursor := none }
    else e.strand? n := by
  simp only [Engine.strand?, Engine.stepped, Engine.movedTo, Engine.updateStrand, Array.getElem?_modify]
  split_ifs <;> simp_all [Function.comp_def]

/-- What becomes of a run with nothing deferred at the end of a step that failed. -/
lemma stumbled_parts (h : Host D) (hawake : w.engine.phase.IsAwake) (hpending : w.engine.pending = none) :
    let v := w.stumbled h
    (v.engine.live, v.engine.strands, v.engine.totalSteps, v.engine.pending) =
        (w.engine.live, w.engine.strands, w.engine.totalSteps, none) ∧
      v.failures = w.failures ∧
      v.engine.phase = (if w.engine.live = [] then .halted else .paused) ∧
      v.log = w.log ++ if w.engine.live = [] then [.phase w.engine.phase .halted "no live strands"]
        else if w.engine.phase = .running then [.phase .running .paused "error"] else [] := by
  intro v
  change _ = _ ∧ Deed.tell Deed.failure? _ = _ ∧ _ ∧ Deed.tell Deed.happening? _ = _
  unfold v stumbled
  by_cases hlive : w.engine.live = []
  · simp [hlive, Deed.failure?, Happening.failure?, Deed.happening?, phaseEvent, event]
  · by_cases hrun : w.engine.phase = .running
    · simp [hlive, hrun, hpending, Deed.failure?, Happening.failure?, Deed.happening?, phaseEvent, event]
    · simp [hlive, hpending, hawake.resolve_left hrun]

/-- The strand has one step more and stands nowhere; the others are as they were. -/
lemma Spared.lost {y z : World D} (hz : y.Spared z) (hwide : y.engine.Widened z.engine)
    (hcursor : y.engine.cursor sid = some i) :
    let e := (z.engine.stepped sid).movedTo sid none
    e.cursor sid = none ∧ e.steps sid = y.engine.steps sid + 1 ∧
      ∀ n < y.engine.strands.size, n ≠ sid → e.strand? n = y.engine.strand? n := by
  intro e
  have hsize := Engine.lt_size_of_cursor hcursor
  obtain ⟨strand, hstrand⟩ : ∃ strand, z.engine.strand? sid = some strand := by
    obtain ⟨strand, hstrand, -⟩ := Option.bind_eq_some_iff.1 hcursor
    exact ⟨strand, (hwide.strand? hsize).trans hstrand⟩
  have hlost : e.strand? sid = some { strand with steps := strand.steps + 1, cursor := none } := by
    rw [strand?_lost, if_pos rfl, hstrand]
    rfl
  have hbefore : y.engine.steps sid = strand.steps := by
    rw [← hz.steps sid hsize, Engine.steps, hstrand]
    rfl
  refine ⟨?_, ?_, fun n hn hne => ?_⟩
  · rw [Engine.cursor, hlost]
    rfl
  · rw [hbefore, Engine.steps, hlost]
    rfl
  · rw [strand?_lost, if_neg hne, hwide.strand? hn]

/-- It retires, and what went wrong is told before. -/
lemma Spared.retires {y z : World D} (hz : y.Spared z) (h : Host D) (cursor : Option D.Instr) (f : Fault)
    (text : String) :
    let lost := (z.completed sid i).altered (·.movedTo sid none)
    let r := (lost.lamented h sid (y.engine.steps sid) cursor f text).retired sid
    lost.engine.steps sid = y.engine.steps sid + 1 →
    r.log = z.log ++ [.failed sid text f.kind.name, .retired sid (y.engine.steps sid + 1)] ∧
      r.failures = y.failures ++ [(sid, text, f.kind.name)] ∧
      r.engine.totalSteps = y.engine.totalSteps + 1 := by
  intro lost r hafter
  refine ⟨?_, ?_, ?_⟩
  · have hsteps : (lost.lamented h sid (y.engine.steps sid) cursor f text).engine.steps sid =
        y.engine.steps sid + 1 := hafter
    have hretired := congrArg Roster.log (roster_retired (lost.lamented h sid (y.engine.steps sid) cursor f text) sid)
    rw [hsteps] at hretired
    refine hretired.trans ?_
    simp [lost, Deed.happening?, event]
  · rw [← hz.failures]
    simp [r, lost, Deed.failure?, Happening.failure?, event]
  · have hcounts : y.engine.steps sid < lost.engine.disarmed.steps sid := by
      change _ < lost.engine.steps sid
      omega
    have hsame : lost.engine.totalSteps = z.engine.totalSteps := rfl
    simp [r, hcounts, hsame, hz.totalSteps]

/-- The clean-up behind an instruction without a proper successor: its strand retires. -/
lemma Spared.dropped {y z : World D} (hz : y.Spared z) (hlasts : z.engine.phase ≠ .terminated)
    (hsid : sid ∈ y.engine.live) (hnodup : y.engine.live.Nodup) (hcursor : y.engine.cursor sid = some i)
    (h : Host D) (cursor : Option D.Instr) {f : Fault} {text : String} (htext : f.message = .ok text) :
    let lost := (z.completed sid i).altered (·.movedTo sid none)
    (recover h sid (y.engine.steps sid) cursor f).outcome lost =
        (.ok (), lost.recovered h sid (y.engine.steps sid) cursor f text) ∧
      Dropped sid f text y z ((lost.recovered h sid (y.engine.steps sid) cursor f text).altered (·.inStep false)) := by
  intro lost
  have hwide := hz.widened hlasts
  have hawake := hz.lively.awake hlasts
  obtain ⟨hmem, more, herase, hnew, hgone⟩ := hwide.erase hsid hnodup (Engine.lt_size_of_cursor hcursor)
  obtain ⟨hnone, hafter, hothers⟩ := hz.lost hwide hcursor
  obtain ⟨hlog, hfailures, htotal⟩ := hz.retires h cursor f text hafter
  have hrecover := recover_outcome h lost sid (y.engine.steps sid) cursor f (.inr ⟨hawake, hmem⟩)
  rw [htext] at hrecover
  refine ⟨hrecover, ?_⟩
  generalize hr : (lost.lamented h sid (y.engine.steps sid) cursor f text).retired sid = r at hlog hfailures htotal
  have hphase : r.engine.phase = z.engine.phase := by simp [← hr, lost]
  have hlive : r.engine.live = y.engine.live.erase sid ++ more := by simp [← hr, lost, herase]
  have hstrands : r.engine.strands = ((z.engine.stepped sid).movedTo sid none).strands := by simp [← hr, lost]
  have hrecovered : lost.recovered h sid (y.engine.steps sid) cursor f text = r.stumbled h := by
    have hend : lost.engine.phase ≠ .terminated := hlasts
    have hnone' : lost.engine.cursor sid = none := hnone
    unfold World.recovered
    simp [hend, hnone', kept, hr]
  have hpending : r.engine.pending = none := by simp [← hr]
  obtain ⟨hparts, hfailed, hend, htold⟩ := stumbled_parts h (hphase ▸ hawake) hpending
  simp only [Prod.mk.injEq] at hparts
  obtain ⟨hlive', hstrands', htotal', hpending'⟩ := hparts
  rw [hphase, hlog] at htold
  rw [hrecovered]
  exact {
    log := by
      rw [altered_engine, Engine.inStep_live, hlive']
      exact htold.trans (by simp)
    failures := hfailed.trans hfailures
    totalSteps := htotal'.trans htotal
    pending := hpending'
    phase := by
      rw [altered_engine, Engine.inStep_live, hlive']
      exact hend
    gone := by
      rw [altered_engine, Engine.inStep_live, hlive', hlive]
      exact hgone
    live := ⟨more, hlive'.trans hlive, hnew⟩
    others := fun n hn hne => by
      unfold Engine.strand?
      rw [altered_engine, Engine.inStep_strands, hstrands', hstrands]
      exact hothers n hn hne
    steps := by
      unfold Engine.steps Engine.strand?
      rw [altered_engine, Engine.inStep_strands, hstrands', hstrands]
      exact hafter
    cursor := by
      unfold Engine.cursor Engine.strand?
      rw [altered_engine, Engine.inStep_strands, hstrands', hstrands]
      exact hnone }

/-- The clean-up does not take the turn on. -/
lemma Spared.keepsTurn {y z : World D} (hz : y.Spared z) (hsid : sid ∈ y.engine.live)
    (hcursor : y.engine.cursor sid = some i) (h : Host D) (cursor : Option D.Instr) (f : Fault) (text : String)
    (hlasts : z.engine.phase ≠ .terminated) :
    y.engine.KeepsTurn ((z.recovered h sid (y.engine.steps sid) cursor f text).altered (·.inStep false)).engine := by
  rw [hz.recovered hsid hcursor h cursor f text]
  split_ifs
  · exact ((hz.widened hlasts).trans (.of_eq (by simp))).keepsTurn
  · exact ((hz.widened hlasts).trans (.of_eq (by simp))).keepsTurn

lemma failures_turned (w : World D) : w.turned.failures = w.failures := by
  simp only [World.failures, turned, emittedIf]
  split_ifs <;> simp [Deed.failure?, Happening.failure?, event]

lemma Guarded.executing (hw : w.Guarded fit P x marks) (sid : Nat) (i : D.Instr) (manual : Bool) :
    (w.executing sid i manual).Guarded fit P none (marks ++ [.start sid i]) where
  mortal := hw.mortal.executing sid i manual
  memory := hw.memory
  marks := by simp [World.executing, Deed.mark?, ← hw.marks]
  heading hp := ⟨(hw.heading hp).fit, (hw.heading hp).slice, rfl, nofun⟩

lemma executing_engine (w : World D) (sid : Nat) (i : D.Instr) (manual : Bool) :
    (w.executing sid i manual).engine = (w.engine.passing none).inStep true := rfl

/-- The strand whose instruction is executed has the turn, and time left. -/
lemma Guarded.parked (hw : w.Guarded fit P x marks) (hawake : w.engine.phase.IsAwake) {scope : Nat} {m : D.Memory}
    {rounds depth : Nat} (he : w.Executes h rounds depth manual sid i scope (w.turned.withMemory m)) :
    ((w.turned.withMemory m).executing sid i manual).engine.Parked sid i := by
  have halive : w.engine.phase ≠ .terminated := by rcases hawake with hp | hp <;> simp [hp]
  have hidle : w.engine.phase ≠ .idle := by rcases hawake with hp | hp <;> simp [hp]
  have hslice := (hw.heading halive).slice
  obtain ⟨n, hstrand⟩ := he.found
  have hparked : w.turned.engine.Parked sid i := by
    refine ⟨by simpa using hidle, ?_, ?_, ?_⟩
    · simp only [turned_engine, Engine.heardIf_sliceUsed, Engine.turned_sliceUsed, Engine.heardIf_timeSlice,
        Engine.turned_timeSlice]
      split_ifs <;> omega
    · have hturn := turned_turn he.live
      rw [he.turn] at hturn
      simpa using hturn
    · exact congrArg (Option.bind · Strand.cursor) hstrand
  rw [executing_engine, withMemory_engine]
  exact ⟨hparked.begun, hparked.slice, hparked.turn, hparked.cursor⟩

namespace Executes

variable {rounds depth scope : Nat} {z x : World D} {f : Fault} {text : String} {fire : Ticket → Act (World D) Unit}

/-- Where no test is made, an instruction is executed right after the choice of its strand. -/
lemma eq_turned (he : w.Executes h rounds depth manual sid i scope z)
    (hbreaking : w.engine.breaking = false) : z = w.turned := by
  have hasked : (consult h (fun s => runScript (serve h rounds depth) s) sid (w.engine.cursor sid)
      manual).Ensures w.turned fun _ v => v = w.turned :=
    consult_ensures rfl fun _ hasks => by simp [hbreaking] at hasks
  rw [Act.Ensures, he.passes] at hasked
  exact hasked

/-- A step whose instruction raises passes the fault on, if it can be worded. -/
lemma raises (he : w.Executes h rounds depth manual sid i scope z)
    (hcode : (runScript (serve h rounds depth) (h.code i scope)).outcome (z.executing sid i manual) =
      (.error f, x))
    (hf : f.isOrdinary = true) (htext : f.message = .ok text) (hsid : sid ∈ z.engine.live)
    (hx : (z.executing sid i manual).Spared x) :
    (executeStep h (runScript (serve h rounds depth)) fire manual).outcome w =
      (.error f, (x.recovered h sid ((z.executing sid i manual).engine.steps sid)
        (w.engine.cursor sid) f text).altered (·.inStep false)) := by
  have hsteps : (z.executing sid i manual).engine.steps sid = z.engine.steps sid := rfl
  have hclean : x.engine.phase = .terminated ∨ x.engine.phase.IsAwake ∧ sid ∈ x.engine.live := by
    by_cases hend : x.engine.phase = .terminated
    · exact .inl hend
    · obtain ⟨more, hmore, -⟩ := (hx.widened hend).live
      refine .inr ⟨hx.lively.awake hend, ?_⟩
      rw [hmore]
      exact List.mem_append_left more hsid
  rw [hsteps, he.outcome fire, proceed_outcome, advance_executing h _ he.found, hcode]
  dsimp only
  rw [if_pos hf, recover_outcome h x sid _ _ f hclean, htext]

/-- A step whose instruction is followed by something malformed raises that. -/
lemma derails (he : w.Executes h rounds depth manual sid i scope z)
    (hcode : (runScript (serve h rounds depth) (h.code i scope)).outcome (z.executing sid i manual) = (.ok (), x))
    {j : D.Instr} (hnext : h.next x.memory i = .ok (some j)) (hbad : h.wellFormed j = false)
    {u : World D}
    (hclean : (recover h sid ((z.executing sid i manual).engine.steps sid) (w.engine.cursor sid)
      (h.refusal .successor j)).outcome ((x.completed sid i).altered (·.movedTo sid none)) =
        (.ok (), u)) :
    (executeStep h (runScript (serve h rounds depth)) fire manual).outcome w =
      (.error (h.refusal .successor j), u.altered (·.inStep false)) := by
  have hsteps : (z.executing sid i manual).engine.steps sid = z.engine.steps sid := rfl
  rw [hsteps] at hclean
  have hfollowed : (x.completed sid i).followed h sid i =
      (.error (h.refusal .successor j), (x.completed sid i).altered (·.movedTo sid none)) := by
    unfold World.followed
    simp [hnext, hbad]
  rw [he.outcome fire, proceed_outcome, advance_executing h _ he.found, hcode]
  dsimp only
  rw [hfollowed]
  have hordinary : (h.refusal .successor j).isOrdinary = true := (refusal_isPlain h .successor j).ordinary
  simp only [hordinary, if_true, hclean]

end Executes

lemma Comes.same (hm : w.Comes m manual b) :
    (b.failures, b.engine.totalSteps, b.engine.strands, b.engine.live) =
      (w.failures, w.engine.totalSteps, w.engine.strands, w.engine.live) := by
  cases hm <;> rfl

lemma Contained.of_same {f : Fault} {text : String} {y : World D} (hy : Contained sid f text y b v)
    (hsame : (y.failures, y.engine.totalSteps, y.engine.strands, y.engine.live) =
      (w.failures, w.engine.totalSteps, w.engine.strands, w.engine.live)) : Contained sid f text w b v := by
  simp only [Prod.mk.injEq] at hsame
  obtain ⟨hfailures, htotal, hstrands, hlive⟩ := hsame
  obtain ⟨hlog, hfailures', htotal', hpending, hphase, hstrands', hlive'⟩ := hy
  rw [hfailures] at hfailures'
  rw [htotal] at htotal'
  rw [hstrands] at hstrands' hlive'
  rw [hlive] at hlive'
  exact ⟨hlog, hfailures', htotal', hpending, hphase, hstrands', hlive'⟩

lemma Dropped.of_same {f : Fault} {text : String} {y : World D} (hy : Dropped sid f text y b v)
    (hsame : (y.failures, y.engine.totalSteps, y.engine.strands, y.engine.live) =
      (w.failures, w.engine.totalSteps, w.engine.strands, w.engine.live)) : Dropped sid f text w b v := by
  simp only [Prod.mk.injEq] at hsame
  obtain ⟨hfailures, htotal, hstrands, hlive⟩ := hsame
  have hstrand (n : Nat) : y.engine.strand? n = w.engine.strand? n := by
    unfold Engine.strand?
    rw [hstrands]
  have hsteps : y.engine.steps sid = w.engine.steps sid := by
    unfold Engine.steps
    rw [hstrand]
  exact {
    log := hsteps ▸ hy.log
    failures := hfailures ▸ hy.failures
    totalSteps := htotal ▸ hy.totalSteps
    pending := hy.pending
    phase := hy.phase
    gone := hy.gone
    live := hlive ▸ hstrands ▸ hy.live
    others := fun n hn hne => (hy.others n (hstrands.symm ▸ hn) hne).trans (hstrand n)
    steps := hsteps ▸ hy.steps
    cursor := hy.cursor }

section Launch

variable {rounds depth scope : Nat} {n : D.Memory} {f : Fault} {text : String}

/-- The world in which an instruction is executed is as before the step but for the turn. -/
lemma Guarded.launches (hb : b.Guarded fit P x marks) (hawake : b.engine.phase.IsAwake) (hn : P n)
    (he : b.Executes h rounds depth manual sid i scope (b.turned.withMemory n)) :
    let y := (b.turned.withMemory n).executing sid i manual
    y.Guarded fit P none (marks ++ [.start sid i]) ∧ y.Lively ∧ sid ∈ y.engine.live ∧
      (y.failures, y.engine.totalSteps, y.engine.strands, y.engine.live) =
        (b.failures, b.engine.totalSteps, b.engine.strands, b.engine.live) := by
  intro y
  have hread : (b.turned.withMemory n).Guarded fit P x marks :=
    hb.turned.of_same rfl hn rfl (.of_eq rfl) fun _ => id
  have hengine : y.engine.started = b.engine.started ∧ y.engine.phase = b.engine.phase ∧
      y.engine.live = b.engine.live := by simp [y, World.executing]
  have hfailures : y.failures = b.failures := by
    have hsame : y.failures = b.turned.failures := by simp [y, World.executing, Deed.failure?]
    rw [hsame, failures_turned]
  refine ⟨hread.executing sid i manual, ⟨?_, fun _ => ?_⟩, ?_, ?_⟩
  · rw [hengine.1]
    exact (hb.lively hawake).started
  · rw [hengine.2.1]
    exact hawake
  · rw [hengine.2.2, ← he.turn]
    exact atTurn_mem he.live
  · rw [hfailures]
    simp [y, World.executing]

variable (hs : h.scheduler.Defers fit) (hh : h.Mannered P)

include hs hh

lemma Guarded.fails (hb : b.Guarded fit P x marks) (hawake : b.engine.phase.IsAwake) (hn : P n)
    (he : b.Executes h rounds depth manual sid i scope (b.turned.withMemory n))
    (hcode : (runScript (serve h rounds depth) (h.code i scope)).outcome
      ((b.turned.withMemory n).executing sid i manual) = (.error f, v))
    (hf : f.isOrdinary = true) (htext : f.message = .ok text) (fire : Ticket → Act (World D) Unit) :
    (executeStep h (runScript (serve h rounds depth)) fire manual).Ensures b fun o u =>
      o = .error f ∧ Contained sid f text b v u ∧ (u.engine.phase = .paused → u.engine.Parked sid i) := by
  obtain ⟨hy, hlively, hsid, hsame⟩ := hb.launches hawake hn he
  have hparked := hb.parked hawake he
  have hspared := code_spared hs hh rounds depth hy hlively i scope
  unfold Act.Ensures at hspared ⊢
  rw [hcode] at hspared
  rw [he.raises hcode hf htext hsid hspared.2]
  have hcontained := hspared.2.contained hsid hparked.cursor h (b.engine.cursor sid) f text
  refine ⟨rfl, hcontained.of_same hsame, fun hpaused => ?_⟩
  have hlasts : v.engine.phase ≠ .terminated := by
    intro hend
    have hphase := hcontained.phase
    rw [if_pos hend] at hphase
    cases hphase.symm.trans hpaused
  refine hparked.keeps (hspared.2.keepsTurn hsid hparked.cursor h (b.engine.cursor sid) f text hlasts) fun hidle => ?_
  cases hidle.symm.trans hpaused

lemma Guarded.derails (hb : b.Guarded fit P x marks) (hawake : b.engine.phase.IsAwake) (hn : P n)
    (hlined : b.roster.Lined)
    (he : b.Executes h rounds depth manual sid i scope (b.turned.withMemory n))
    (hcode : (runScript (serve h rounds depth) (h.code i scope)).outcome
      ((b.turned.withMemory n).executing sid i manual) = (.ok (), v))
    {j : D.Instr} (hnext : h.next v.memory i = .ok (some j)) (hbad : h.wellFormed j = false)
    (htext : (h.refusal .successor j).message = .ok text) (hlasts : v.engine.phase ≠ .terminated)
    (fire : Ticket → Act (World D) Unit) :
    (executeStep h (runScript (serve h rounds depth)) fire manual).Ensures b fun o u =>
      o = .error (h.refusal .successor j) ∧ Dropped sid (h.refusal .successor j) text b v u := by
  obtain ⟨hy, hlively, hsid, hsame⟩ := hb.launches hawake hn he
  have hparked := hb.parked hawake he
  have hspared := code_spared hs hh rounds depth hy hlively i scope
  have hnodup : ((b.turned.withMemory n).executing sid i manual).engine.live.Nodup := by
    have hlive : ((b.turned.withMemory n).executing sid i manual).engine.live = b.roster.live := by
      simp [World.executing]
    rw [hlive]
    exact hlined.ascending.imp Nat.ne_of_lt
  unfold Act.Ensures at hspared ⊢
  rw [hcode] at hspared
  obtain ⟨hclean, hdropped⟩ := hspared.2.dropped hlasts hsid hnodup hparked.cursor h (b.engine.cursor sid) htext
  rw [he.derails hcode hnext hbad hclean]
  exact ⟨rfl, hdropped.of_same hsame⟩

end Launch

end World
end Loom
