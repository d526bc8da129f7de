import Loom.Proofs.Integrity
import Loom.Proofs.Practice

/-! Steps of the scheduler are for a running engine. If the test for a stop leaves a running engine running,
then whatever the instructions do, no step of the scheduler's executes an instruction in any other phase, and
the engine is never asked for an impossible change of phase. -/
namespace Loom

/-- The phase in which a step of the scheduler's began an instruction. -/
def Deed.scheduled? : Deed D → Option Phase
  | began _ _ phase false => some phase
  | _ => none

/-- Requests that leave a running engine running, given that a step which is deferred is not fired at once. -/
def Request.Spares (eager : Prop) : Request D → Prop
  | pause | terminate _ | step | fire _ | fireIssued _ | runNext | runAll _ => False
  | resume | spawn .. => ¬ eager
  | _ => True

/-- A host whose scripts may ask for anything, but leave the fault of an impossible change of phase to the
engine. `eager` says that its scheduler may fire steps while taking them. -/
structure Host.Lawful {D : Dialect} (h : Host D) (eager : Prop) (fit : D.Clock → Prop)
    (P : D.Memory → Prop) : Prop where
  code : ∀ i scope, (h.code i scope).Heeds P (fun _ => True) fun f => ¬ f.IsIllegal
  breaks : ∀ i, (h.breaks i).Heeds P (fun _ => True) fun f => ¬ f.IsIllegal
  farewell : ∀ f, (h.farewell f).Heeds P (fun _ => True) fun f => ¬ f.IsIllegal
  next : ∀ {m} i f, P m → h.next m i = .error f → ¬ f.IsIllegal
  first : ∀ {m} source f, h.source = some source → P m → source.first m = .error f → ¬ f.IsIllegal
  scope : ∀ {m} source f, h.source = some source → P m → source.scope m = .error f → ¬ f.IsIllegal
  install : ∀ {m} n contents, P m → P (h.install m n contents)
  arm : ∀ {c delay t f c'}, h.scheduler.arm c delay t = (.error f, c') → ¬ f.IsIllegal
  stays : ¬ eager → h.scheduler.Stays fit

namespace World

variable {D : Dialect}

open Act (Abides Kept)

/-- The phases in which steps of the scheduler's began instructions. -/
@[simp] def hours (w : World D) : List Phase := Deed.tell Deed.scheduled? w.deeds

/-- A run that is idle until it is started, and in which steps of the scheduler's have begun instructions
only while it was running. -/
structure Upright (eager : Prop) (fit : D.Clock → Prop) (P : D.Memory → Prop) (w : World D) : Prop where
  awake : w.engine.started = true ↔ w.engine.phase ≠ .idle
  begun : w.attempts ≠ [] → w.engine.started = true
  timely : ∀ phase ∈ w.hours, phase = .running
  memory : P w.memory
  fit : ¬ eager → fit w.clock

variable {h : Host D} {eager : Prop} {fit : D.Clock → Prop} {P : D.Memory → Prop} {w v : World D}

namespace Upright

lemma of_same (hw : w.Upright eager fit P)
    (hengine : (v.engine.started, v.engine.phase) = (w.engine.started, w.engine.phase))
    (hattempts : v.attempts = w.attempts) (hhours : v.hours = w.hours) (hmemory : P v.memory)
    (hfit : ¬ eager → fit v.clock) : v.Upright eager fit P := by
  obtain ⟨hstarted, hphase⟩ := Prod.mk.inj hengine
  refine ⟨?_, ?_, hhours ▸ hw.timely, hmemory, hfit⟩
  · rw [hstarted, hphase]
    exact hw.awake
  · rw [hattempts, hstarted]
    exact hw.begun

lemma told (hw : w.Upright eager fit P) (what : Happening) : (w.emitted what).Upright eager fit P :=
  hw.of_same rfl (by simp [Deed.attempt?]) (by simp [Deed.scheduled?]) hw.memory hw.fit

lemma entered (hw : w.Upright eager fit P) {new : Phase} (reason : String) (hidle : w.engine.phase ≠ .idle)
    (hmay : mayFollow w.engine.phase new = true) : (w.entered new reason).Upright eager fit P := by
  have hnew : new ≠ .idle := ne_idle_of_mayFollow hmay
  have hstarted : w.engine.started = true := hw.awake.2 hidle
  exact ⟨by simp [hstarted, hnew], fun _ => by simp [hstarted],
    by simpa [Deed.scheduled?] using hw.timely, hw.memory, hw.fit⟩

lemma disarmed (hh : h.Lawful eager fit P) (hw : w.Upright eager fit P) :
    (w.disarmed h.scheduler).Upright eager fit P := by
  refine hw.of_same rfl rfl rfl hw.memory fun heager => ?_
  rw [disarmed_clock]
  cases w.engine.pending with
  | none => exact hw.fit heager
  | some handle => exact (hh.stays heager).defers.cancel handle (hw.fit heager)

lemma peopled (hh : h.Lawful eager fit P) (hw : w.Upright eager fit P) (cursor : Option D.Instr)
    (scope : ScopeChoice D) : (w.peopled h cursor scope).Upright eager fit P :=
  hw.of_same rfl rfl rfl (newMemory_kept w hh.install scope hw.memory) hw.fit

/-- The small changes have no part in this. -/
lemma shifted (hw : w.Upright eager fit P) {p : Request D → Prop} {steps : Prop} {f : Engine D → Engine D}
    (hf : w.engine.Shift p steps (f w.engine)) : (w.altered f).Upright eager fit P := by
  refine hw.of_same ?_ rfl rfl hw.memory hw.fit
  rw [altered_engine]
  generalize f w.engine = e at hf
  cases hf with
  | winding _ hf => cases hf <;> rfl
  | _ => rfl

lemma launched (hh : h.Lawful eager fit P) (hw : w.Upright eager fit P) (cursor : Option D.Instr)
    (contents : D.Scope) : (w.begun h cursor contents).Upright eager fit P := by
  have hmemory : P (w.begun h cursor contents).memory := by
    rw [begun_memory]
    exact newMemory_kept _ hh.install _ hw.memory
  have htimely := hw.timely
  cases cursor with
  | none =>
    exact ⟨by simp [World.begun], by simp [World.begun], by simpa [World.begun, Deed.scheduled?] using htimely,
      hmemory, hw.fit⟩
  | some i =>
    exact ⟨by simp [World.begun], by simp [World.begun], by simpa [World.begun, Deed.scheduled?] using htimely,
      hmemory, hw.fit⟩

/-- An instruction is begun in a phase that fits. -/
lemma began (hw : w.Upright eager fit P) {slot : Nat} {i : D.Instr} {manual : Bool}
    (hready : w.Ready manual) : (w.recorded (.began slot i w.engine.phase manual)).Upright eager fit P := by
  refine ⟨hw.awake, fun _ => hw.awake.2 hready.begun, ?_, hw.memory, hw.fit⟩
  cases manual with
  | true => simpa [Deed.scheduled?] using hw.timely
  | false =>
    have hrun : w.engine.phase = .running := hready.runs rfl
    simpa [Deed.scheduled?, hrun, or_imp, forall_and] using hw.timely

lemma completed (hw : w.Upright eager fit P) (slot : Nat) (i : D.Instr) :
    (w.completed slot i).Upright eager fit P :=
  hw.of_same rfl (by simp [Deed.attempt?]) (by simp [Deed.scheduled?]) hw.memory hw.fit

/-- What follows an instruction that returned. -/
lemma followed (hh : h.Lawful eager fit P) (hw : w.Upright eager fit P) (slot : Nat) (i : D.Instr) :
    Kept (Upright eager fit P) (Fault.Passes True) (w.followed h slot i).1 (w.followed h slot i).2 := by
  have hmoved (cursor : Option D.Instr) : (w.altered (·.movedTo slot cursor)).Upright eager fit P :=
    hw.of_same rfl rfl rfl hw.memory hw.fit
  unfold World.followed
  rcases hnext : h.next w.memory i with f | _ | j
  · exact .error hw fun _ => hh.next i f hw.memory hnext
  · exact .ok false (hmoved none)
  · dsimp only
    split_ifs
    · exact .ok true (hmoved (some j))
    · exact .error (hmoved none) fun _ => (refusal_isPlain h .successor j).not_illegal

end Upright

section Engine

variable (hh : h.Lawful eager fit P)

include hh

lemma arm_upright {J : World D → Prop} {fire : Ticket → Act (World D) Unit}
    (hJ : ∀ {w v : World D}, J w → v.Upright eager fit P →
      (v.engine.started, v.engine.phase) = (w.engine.started, w.engine.phase) → J v)
    (hupright : ∀ {w}, J w → w.Upright eager fit P)
    (hfire : ∀ t, Abides J (Fault.Passes True) (fire t)) (delay : Binary64) :
    Abides J (Fault.Passes True) (arm h.scheduler fire delay) := by
  refine arm_abides (fun hw => hJ hw ((hupright hw).disarmed hh) rfl) (fun {w} delay t hw => ?_)
    (fun _ hw => hJ hw ((hupright hw).of_same rfl rfl rfl (hupright hw).memory (hupright hw).fit) rfl)
    (fun {w delay t f} _ harm _ => ?_) (fun _ _ _ => hfire _) delay
  · refine hJ hw ((hupright hw).of_same rfl (by simp [Deed.attempt?]) (by simp [Deed.scheduled?])
      (hupright hw).memory fun heager => ?_) rfl
    exact (hh.stays heager).defers.arm delay t ((hupright hw).fit heager)
  · have hout : h.scheduler.arm w.clock delay t = (.error f, (h.scheduler.arm w.clock delay t).2) :=
      Prod.ext harm rfl
    exact hh.arm hout

omit hh in
/-- A script of the host's keeps the run upright if what it asks for does. -/
lemma runScript_upright {p : Request D → Prop} {serve : Request D → Act (World D) Reply}
    (hserve : ∀ r, p r → Abides (Upright eager fit P) (Fault.Passes True) (serve r)) {s : Script D α}
    (hs : s.Heeds P p fun f => ¬ f.IsIllegal) :
    Abides (Upright eager fit P) (Fault.Passes True) (runScript serve s) :=
  runScript_abides (·.memory) (fun hw hm => hw.of_same rfl rfl rfl hm hw.fit) hserve
    (hs.mono fun _ hf _ => hf)

/-- Executing an instruction in a phase that fits. -/
lemma advance_upright {rounds depth : Nat} (sid : Nat) (manual : Bool)
    (hserve : ∀ r, Abides (Upright eager fit P) (Fault.Passes True) (serve h rounds depth r))
    (hready : w.Ready manual) (hw : w.Upright eager fit P) :
    (advance h (runScript (serve h rounds depth)) sid sid manual).Ensures w fun o v =>
      Kept (Upright eager fit P) (Fault.Passes True) o v ∧ (True → v.engine.phase ≠ .idle) := by
  -- The run cannot have fallen back to idle, for the instruction is on record.
  have hstays {v : World D} {i : D.Instr} (hbegun : (sid, i) ∈ v.attempts) (hv : v.Upright eager fit P) :
      v.engine.phase ≠ .idle := hv.awake.1 (hv.begun (List.ne_nil_of_mem hbegun))
  have hkept : (advance h (runScript (serve h rounds depth)) sid sid manual).Ensures w
      (Kept (fun v => v.Upright eager fit P ∧ v.engine.phase ≠ .idle) (Fault.Passes True)) :=
    advance_ensures (J := fun _ v => v.Upright eager fit P) ⟨hw, hready.begun⟩ (fun _ => hw.began hready)
      (fun i scope => runScript_upright (fun r _ => hserve r) (hh.code i scope))
      (fun hbegun hv => ⟨hv, hstays hbegun hv⟩) (fun {v i} hbegun hv => ?_) fun _ => id
  · exact hkept.mono fun o v hv => ⟨⟨hv.state.1, hv.fault⟩, fun _ => hv.state.2⟩
  · have hnext := (hv.completed sid i).followed hh sid i
    have hphase : ((v.completed sid i).followed h sid i).2.engine.phase = v.engine.phase :=
      congrArg Roster.phase ((roster_followed _ h sid i).trans (roster_completed v sid i))
    exact ⟨⟨hnext.state, hphase ▸ hstays hbegun hv⟩, hnext.fault⟩

lemma root_legal (hmemory : P w.memory) {entry : Option D.Instr} {f : Fault}
    (hroot : w.root h entry = .error f) : ¬ f.IsIllegal := by
  rcases root_error hroot with hplain | ⟨source, hsource, hf | hf⟩
  · exact hplain.not_illegal
  · exact hh.first source f hsource hmemory hf
  · exact hh.scope source f hsource hmemory hf

omit hh in
/-- A step that is fired while the engine is idle does nothing. -/
lemma fire_upright (rounds depth : Nat) (t : Ticket) :
    Abides (fun v => v.Upright eager fit P ∧ v.engine.phase = .idle) (Fault.Passes True)
      (serve h rounds depth (.fire t)) := by
  rintro v ⟨hv, hphase⟩
  cases depth with
  | zero => exact .error ⟨hv, hphase⟩ fun _ => id
  | succ depth =>
    exact fire_ensures (fun _ hrun => absurd hrun (by simp [hphase]))
      (fun _ _ => .ok _ ⟨hv.of_same rfl rfl rfl hv.memory hv.fit, hphase⟩)
      fun _ => .ok _ ⟨hv.of_same rfl rfl rfl hv.memory hv.fit, hphase⟩

/-- A start finds the engine idle, even if a step is fired in the middle of it. -/
lemma start_upright (rounds depth : Nat) (entry : Option D.Instr) :
    Abides (Upright eager fit P) (Fault.Passes True)
      (start h (fun t => discard (serve h rounds depth (.fire t))) entry) := by
  intro w hw
  rcases hs : w.engine.started with _ | _
  · have hidle : w.engine.phase = .idle := idle_of_unstarted hw.awake hs
    have hsought : (w.sought h entry).Upright eager fit P :=
      hw.of_same (by simp) (by simp) (by simp) (by simpa using hw.memory) (by simpa using hw.fit)
    have harm : (arm h.scheduler (fun t => discard (serve h rounds depth (.fire t))) .zero).Ensures
        (w.sought h entry)
        (Kept (fun v => v.Upright eager fit P ∧ v.engine.phase = .idle) (Fault.Passes True)) :=
      arm_upright hh (fun hv hu hsame => ⟨hu, (Prod.mk.inj hsame).2.trans hv.2⟩) (·.1)
        (fun t => .discard (fire_upright rounds depth t)) .zero _ ⟨hsought, by simpa using hidle⟩
    refine start_ensures hs (fun _ hroot => .error hsought fun _ => root_legal hh hw.memory hroot) harm
      (fun f _ hv => .error hv.state.1 (hv.fault f rfl)) fun cursor contents v _ hkept => ?_
    obtain ⟨hv, hphase⟩ := hkept.state
    exact ⟨hphase, .ok () (hv.launched hh cursor contents)⟩
  · exact Act.ensures_of_outcome (start_again h _ entry hs) (.error hw fun _ => id)

/-- What spares a running engine leaves it running. -/
theorem serve_spares (rounds depth : Nat) {r : Request D} (hr : r.Spares eager) (hw : w.Upright eager fit P)
    (hrun : w.engine.phase = .running) :
    (serve h rounds depth r).Ensures w fun _ v => v.engine.phase = .running := by
  cases depth with
  | zero => exact hrun
  | succ depth =>
    have hlater (heager : ¬ eager) :
        w.Postpones h fun t => discard (serve h rounds depth (.fire t)) :=
      postpones_of_later w h _ fun _ _ _ _ ha => (hh.stays heager).defers.later ((hw.disarmed hh).fit heager) ha
    cases r with
    | pause | terminate | step | fire | fireIssued | runNext | runAll => exact hr.elim
    | start entry =>
      have hstarted : w.engine.started = true := hw.awake.2 (by simp [hrun])
      exact Act.Ensures.reply (Act.ensures_of_outcome (start_again h _ entry hstarted) hrun)
    | resume =>
      exact Act.Ensures.reply (resume_ensures (A := fun _ v => v.engine.phase = .running) (hlater hr)
        (fun _ _ => hrun) (fun _ => hrun) ((deferred_phase w h.scheduler .zero).trans hrun) (fun _ _ => id)
        (fun _ _ _ => rfl) fun _ => id)
    | spawn entry scope =>
      suffices hspawn : (spawn h (fun t => discard (serve h rounds depth (.fire t))) entry scope).Ensures w
          fun _ v => v.engine.phase = .running from hspawn.bind (fun _ _ hv => hv) fun _ _ hv => hv
      exact spawn_ensures (hlater hr) (fun _ _ => hrun) fun i _ _ _ _ =>
        ⟨fun _ => (deferred_phase (w.spawned h i scope) h.scheduler .zero).trans hrun, hrun⟩
    | rate given =>
      exact Act.Ensures.reply (setRate_ensures (fun _ _ => hrun) fun _ => hrun)
    | emit type strand data => exact announce_ensures (fun _ _ => hrun) fun _ _ => hrun
    | refuse on => exact hrun
    | pump =>
      exact Act.Ensures.reply
        ((pump_abides (G := fun _ => True) (fun _ hv => hv) rounds w hrun).mono fun _ _ hv => hv.state)
    | forget position =>
      refine Act.Ensures.reply ?_
      change (if _ then w.engine else _).phase = .running
      split_ifs <;> exact hrun
    | blank sid => exact hrun
    | breakpoints | info | current | events | timeSlice => exact hrun

end Engine

/-- Where requests keep runs upright, the test for a stop leaves a running engine running if it returns. -/
def LeavesRunning (h : Host D) (eager : Prop) (fit : D.Clock → Prop) (P : D.Memory → Prop) : Prop :=
  ∀ {rounds depth} i, (∀ r, Abides (Upright eager fit P) (Fault.Passes True) (serve h rounds depth r)) →
    ∀ w : World D, w.Upright eager fit P → w.engine.phase = .running →
      (runScript (serve h rounds depth) (h.breaks i)).Ensures w fun o v =>
        ∀ stops, o = .ok stops → v.engine.phase = .running

/-- A test that asks for nothing but what spares a running engine is one. -/
lemma leavesRunning_of_spares (hh : h.Lawful eager fit P)
    (hbreaks : ∀ i, (h.breaks i).Heeds P (Request.Spares eager) fun f => ¬ f.IsIllegal) :
    LeavesRunning h eager fit P := by
  intro rounds depth i hserve w hw hrun
  have hspared (r : Request D) (hr : r.Spares eager) :
      Abides (fun v => v.Upright eager fit P ∧ v.engine.phase = .running) (Fault.Passes True)
        (serve h rounds depth r) := by
    rintro v ⟨hv, hphase⟩
    have hrest := serve_spares hh rounds depth hr hv hphase
    exact ((hserve r v hv).and hrest).mono fun _ _ hu => ⟨⟨hu.1.state, hu.2⟩, hu.1.fault⟩
  have hkept := runScript_abides (·.1.memory) (fun hv hm => ⟨hv.1.of_same rfl rfl rfl hm hv.1.fit, hv.2⟩)
    hspared ((hbreaks i).mono fun _ hf _ => hf) w ⟨hw, hrun⟩
  exact hkept.mono fun _ _ hv _ _ => hv.state.2

section Run

variable (hh : h.Lawful eager fit P) (hbreaks : LeavesRunning h eager fit P)

include hh

lemma terminate_upright : Abides (Upright eager fit P) (Fault.Passes True) (terminate h) := by
  intro w hw
  rcases terminate_cases h w hw.awake.1 with ⟨f, hf, hout⟩ | ⟨hstarted, hmay, hout⟩
  · exact Act.ensures_of_outcome hout (.error hw fun _ => hf.not_illegal)
  · refine Act.ensures_of_outcome hout (.ok () ?_)
    have hemptied : ((w.disarmed h.scheduler).altered (·.emptied)).Upright eager fit P :=
      (hw.disarmed hh).of_same rfl rfl rfl hw.memory (hw.disarmed hh).fit
    have hended : (((w.disarmed h.scheduler).altered (·.emptied)).entered .terminated "terminate").Upright
        eager fit P := hemptied.entered "terminate" (hw.awake.1 hstarted) hmay
    exact hended.of_same rfl rfl rfl hended.memory hended.fit

include hbreaks

/-- Each change that an engine makes keeps the run upright. -/
lemma upright_practice : Practice h (fun _ => True) True True True (Upright eager fit P) where
  noted _ _ _ hw := hw.of_same rfl rfl rfl hw.memory hw.fit
  told _ hw := hw.told _
  stopped _ _ _ hw := hw.told _
  announced _ _ _ _ hw := hw.told _
  shifted hf hw := hw.shifted hf
  entered reason _ hidle _ hmay hw := hw.entered reason hidle hmay
  peopled i scope hw := hw.peopled hh (some i) scope
  disarmed hw := hw.disarmed hh
  arm {w fire} delay hfire _ _ hw :=
    arm_upright hh (J := Upright eager fit P) (fun _ hu _ => hu) id (hfire trivial) delay w hw
  start _ _ := start_upright hh _ _ _
  terminate _ := terminate_upright hh
  advance sid manual _ hserve hready hw :=
    advance_upright hh sid manual (fun r => hserve r trivial) (hready trivial) hw
  breaks {w rounds depth} i _ hserve hw := by
    refine ⟨runScript_upright hserve (hh.breaks i) w hw, fun stops hstops _ hrun => ?_⟩
    exact hbreaks i (fun r => hserve r trivial) w hw hrun stops hstops
  farewell {w rounds depth f} _ _ hserve hw := runScript_upright hserve (hh.farewell f) w hw
  awake _ hw := hw.awake.1
  stepping _ _ := trivial
  freely _ _ := trivial
  eagerly _ := trivial
  lapsed _ hw := hw.of_same rfl rfl rfl hw.memory hw.fit
  popped _ hnext hw :=
    have hfit (heager : ¬ eager) := (hh.stays heager).next (hw.fit heager) hnext
    ⟨hw.of_same rfl rfl rfl hw.memory hfit, hw.of_same rfl rfl rfl hw.memory hfit⟩
  refused on _ hw := hw.of_same rfl rfl rfl hw.memory fun heager => (hh.stays heager).refuse on (hw.fit heager)
  pumped := pump_abides fun _ hw => hw.of_same rfl rfl rfl hw.memory hw.fit

omit hh hbreaks in
lemma Fresh.upright (hw : Fresh (fun c => ¬ eager → fit c) P w) : w.Upright eager fit P := by
  obtain ⟨run, settings, hmake⟩ := hw.engine
  have hengine := Engine.eq_of_make hmake
  refine ⟨by simp [hengine], by simp [hw.deeds], by simp [hw.deeds], hw.memory, hw.clock⟩

/-- If the test for a stop leaves a running engine running, then no step of the scheduler's begins an
instruction in any other phase, and no move ends with the fault of an impossible change of phase. -/
theorem scheduled_steps_run (hw : Fresh (fun c => ¬ eager → fit c) P w) (rounds depth : Nat)
    {moves : List (Move D)} (hdrift : ∀ clock, .drift clock ∈ moves → ¬ eager → fit clock) :
    let v := w.replay h rounds depth moves
    (∀ sid i phase, .began sid i phase false ∈ v.deeds.toList → phase = .running) ∧
      ∀ m f, v.verdict h rounds depth m = some f → ¬ f.IsIllegal := by
  intro v
  have hserve (r : Request D) : Abides (Upright eager fit P) (Fault.Passes True) (serve h rounds (depth + 1) r) :=
    ((upright_practice hh hbreaks).serve rounds (depth + 1)).1 r trivial
  have hv : v.Upright eager fit P := replay_keeps rounds depth hserve
    (fun clock hclock u hu => hu.of_same rfl rfl rfl hu.memory (hdrift clock hclock)) hw.upright
  refine ⟨fun sid i phase hbegan => hv.timely phase (List.mem_filterMap.2 ⟨_, hbegan, rfl⟩), fun m f hf => ?_⟩
  have hlegal (r : Request D) (hr : Act.fault? ((serve h rounds (depth + 1) r).outcome v).1 = some f) :
      ¬ f.IsIllegal := by
    rcases hout : (serve h rounds (depth + 1) r).outcome v with ⟨g | reply, u⟩ <;> rw [hout] at hr <;> cases hr
    have hkept := hserve r v hv
    unfold Act.Ensures at hkept
    rw [hout] at hkept
    exact hkept.fault f rfl trivial
  cases m with
  | operate r => exact hlegal r hf
  | fire t => exact hlegal (.fire t) hf
  | drift clock => cases hf

end Run

end World

namespace Block

/-- The restless blocks with breakpoints, and a test for a stop. -/
def testedRun (test : Predicate) : Run where
  program := restless
  scope := []
  world := {
    engine := { breaking := true, rate := .zero, timeSlice := 1, historySize := 1024 }
    clock := { kind := .manual }
    memory := { links := restless.links, firstLinks := restless.links, predicate := some test } }

lemma testedRun_prepared (test : Predicate) :
    Run.prepare restless { breakpoints := .bool true } .manual none (some test) .zero = .ok (testedRun test) := rfl

/-- Sends a further strand to the second block and lets the step go on. -/
def forking : Predicate := .after (.spawn (some 1) .fresh) (.bool false)

lemma forking_spares (i : Nat) : ((testedRun forking).host.breaks i).Heeds
    (fun m : Memory => m.predicate = some forking) (Request.Spares False) fun f => ¬ f.IsIllegal := by
  refine .look fun m hm => ?_
  rw [hm]
  refine .bind (.discard (.bind (.request id) fun reply => .bind ?_ fun _ => .done reply)) fun _ => .done _
  unfold showStrand
  split
  · exact .modify fun m hm => hm
  · exact .done ()

lemma forking_lawful :
    (testedRun forking).host.Lawful False (·.kind ≠ .eager) fun m => m.predicate = some forking where
  code := by
    refine heeds_code (fun n hn self scope => ?_) _
    simp only [testedRun, restless, List.mem_toArray, List.mem_cons, List.not_mem_nil, or_false] at hn
    rcases hn with rfl | rfl
    · exact .bind (Script.Heeds.request trivial).discard fun _ =>
        .bind (Script.Heeds.request trivial).discard fun _ => .done ()
    · exact .bind (.fail id) fun _ => .done ()
  breaks i := (forking_spares i).weaken (fun _ _ => trivial) fun _ => id
  farewell := heeds_parting (fun _ hm => hm) trivial trivial id
  next _ _ _ hf := successor_error (restless_orderly Fault.IsPlain.not_illegal) hf
  first source f hsource _ hf := by
    cases hsource
    cases hf
  scope source f hsource _ hf := by
    cases hsource
    cases hf
  install {m} n contents hm := (Memory.install_framed m n contents).predicate.trans hm
  arm ha := (clockwork_refuses ha).not_illegal
  stays _ := clockwork_stays

end Block

namespace World

/-- A test that brings a further strand into play: both blocks of the first strand and the other one are begun
while the engine runs. -/
theorem forking_test_steps_run :
    let r := Block.testedRun Block.forking
    let moves : List (Move Block.dialect) := [.operate (.start none), .fire ⟨0, 1⟩, .fire ⟨0, 5⟩]
    (r.world.replay r.host 1 5 moves).hours = [.running, .running] ∧
      (r.world.replay r.host 1 5 moves).attempts = [(0, 0), (1, 1)] ∧
      (∀ sid i phase, .began sid i phase false ∈ (r.world.replay r.host 1 5 moves).deeds.toList →
        phase = .running) ∧
      ∀ m f, (r.world.replay r.host 1 5 moves).verdict r.host 1 5 m = some f → ¬ f.IsIllegal := by
  intro r moves
  have hfresh : Fresh (fun c : Clockwork => ¬ False → c.kind ≠ .eager)
      (fun m : Block.Memory => m.predicate = some Block.forking) r.world :=
    ⟨⟨0, { breakpoints := .bool true }, rfl⟩, rfl, nofun, rfl⟩
  have hdrift : ∀ clock : Clockwork, .drift clock ∈ moves → ¬ False → clock.kind ≠ .eager := by simp [moves]
  obtain ⟨hbegan, hlegal⟩ := scheduled_steps_run (h := r.host) Block.forking_lawful
    (leavesRunning_of_spares Block.forking_lawful Block.forking_spares) hfresh 1 5 hdrift
  exact ⟨by decide +kernel, by decide +kernel, hbegan, hlegal⟩

/-- A test that pauses the engine and lets the step go on has the instruction begun while the engine is
paused; and one that ends the run and stops the step has the engine asked for an impossible change of phase. -/
theorem meddling_tests_break_in :
    (let test : Block.Predicate := .after .pause (.bool false)
      let r := Block.testedRun test
      let v := r.world.replay r.host 1 5 [.operate (.start none)]
      Block.Run.prepare Block.restless { breakpoints := .bool true } .manual none (some test) .zero = .ok r ∧
        v.engine.phase = .running ∧ (v.after r.host 1 5 (.fire ⟨0, 1⟩)).attempts = [(0, 0)] ∧
        (v.after r.host 1 5 (.fire ⟨0, 1⟩)).hours = [.paused]) ∧
    (let test : Block.Predicate := .after (.terminate none) (.bool true)
      let r := Block.testedRun test
      let v := r.world.replay r.host 1 5 [.operate (.start none)]
      Block.Run.prepare Block.restless { breakpoints := .bool true } .manual none (some test) .zero = .ok r ∧
        v.engine.phase = .running ∧ (v.verdict r.host 1 5 (.fire ⟨0, 1⟩)).map (·.message.toOption) =
        some (some "illegal state transition terminated -> paused")) := by
  refine ⟨⟨Block.testedRun_prepared _, ?_, ?_, ?_⟩, Block.testedRun_prepared _, ?_, ?_⟩ <;> decide +kernel

end World
end Loom
