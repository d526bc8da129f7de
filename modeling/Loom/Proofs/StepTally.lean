import Loom.Proofs.Conduct
import Loom.Proofs.Ledger

/-! What a step taken by hand reports, and what the engine counted. An instruction that has returned counts when
it is announced, or with the failure of its step over its successor; and it is reported in the first case only.
So a step never reports more than was counted, and the two agree where no step is taken within a step, unless an
instruction leads astray. -/
namespace Loom

namespace Engine

variable {D : Dialect} {e e' : Engine D} {p : Request D → Prop}

/-- Where no steps are taken, none is counted. -/
lemma Shift.totalSteps (h : e.Shift p False e') : e'.totalSteps = e.totalSteps := by
  cases h with
  | winding hsteps => exact hsteps.elim
  | _ => rfl

/-- Nor is any counted for a strand. -/
lemma Shift.steps_eq (h : e.Shift p False e') :
    (∀ sid, e'.steps sid = e.steps sid) ∧ e'.strands.size = e.strands.size := by
  cases h with
  | winding hsteps => exact hsteps.elim
  | stopping _ _ hsteps => exact hsteps.elim
  | blanked => exact (counts_eq (World.steps_movedTo e _ none)).2
  | _ => exact ⟨fun _ => rfl, rfl⟩

/-- What is counted stays counted. -/
lemma Shift.total_le {steps : Prop} (h : e.Shift p steps e') : e.totalSteps ≤ e'.totalSteps := by
  cases h with
  | winding _ h =>
    cases h with
    | counted => exact Nat.le_succ _
    | recounted sid before =>
      rw [recounted_totalSteps]
      split_ifs
      · exact Nat.le_succ _
      · exact le_rfl
    | _ => exact le_rfl
  | _ => exact le_rfl

end Engine

/-- What commands report is ordinary. -/
lemma Fault.isOrdinary_of_isRuntime {f : Fault} (hf : f.isRuntime = true) : f.isOrdinary = true := by
  unfold Fault.isRuntime at hf
  unfold Fault.isOrdinary
  generalize f.kind = kind at hf ⊢
  cases kind <;> revert hf <;> decide

/-- Instructions that bring about no step: they ask for none and fire none, whatever is told them, and the
scheduler fires none while taking one. -/
structure Host.Patient {D : Dialect} (h : Host D) (fit : D.Clock → Prop) (P : D.Memory → Prop) : Prop where
  scheduler : h.scheduler.Stays fit
  code : ∀ i scope, (h.code i scope).Asks P fun r => ¬ r.Steps
  farewell : ∀ f, (h.farewell f).Asks P fun r => ¬ r.Steps
  breaks : ∀ i, (h.breaks i).Asks P fun _ => True
  install : ∀ {m} n contents, P m → P (h.install m n contents)

lemma Host.Patient.asks {D : Dialect} {h : Host D} {fit : D.Clock → Prop} {P : D.Memory → Prop}
    (hh : h.Patient fit P) : h.Asks P fun _ => True where
  code i scope := (hh.code i scope).weaken (fun _ _ => trivial) fun _ => id
  breaks := hh.breaks
  farewell f := (hh.farewell f).weaken (fun _ _ => trivial) fun _ => id
  install := hh.install

/-- Some instruction leads astray: it cannot tell its successor, or names one that is no instruction. -/
def Host.Misleads {D : Dialect} (h : Host D) (P : D.Memory → Prop) : Prop :=
  ∃ m i, P m ∧ ((∃ f, h.next m i = .error f) ∨ ∃ j, h.next m i = .ok (some j) ∧ ¬ h.wellFormed j)

namespace World

variable {D : Dialect} {h : Host D} {fit : D.Clock → Prop} {P : D.Memory → Prop} {w v u : World D}

open Act (Abides Kept)

/-- No instruction was completed or counted. Strands may have been added. -/
structure Uncounted (w v : World D) : Prop where
  total : v.engine.totalSteps = w.engine.totalSteps
  completions : v.completions = w.completions
  steps : ∀ sid, v.engine.steps sid = w.engine.steps sid
  size : w.engine.strands.size ≤ v.engine.strands.size

/-- Some instructions were completed, and the engine has counted all of them. -/
structure Counted (w : World D) (n : Nat) (v : World D) : Prop where
  total : v.engine.totalSteps = w.engine.totalSteps + n
  completions : v.completions.length = w.completions.length + n

namespace Uncounted

lemma refl (w : World D) : Uncounted w w := ⟨rfl, rfl, fun _ => rfl, le_rfl⟩

lemma trans (h : Uncounted w v) (h' : Uncounted v u) : Uncounted w u where
  total := h'.total.trans h.total
  completions := h'.completions.trans h.completions
  steps sid := (h'.steps sid).trans (h.steps sid)
  size := h.size.trans h'.size

lemma of_strands (htotal : v.engine.totalSteps = w.engine.totalSteps)
    (hcompletions : v.completions = w.completions) (hstrands : v.engine.strands = w.engine.strands) :
    Uncounted w v where
  total := htotal
  completions := hcompletions
  steps sid := by simp only [Engine.steps, Engine.strand?, hstrands]
  size := by rw [hstrands]

lemma movedTo (w : World D) (sid : Nat) (cursor : Option D.Instr) :
    Uncounted w (w.altered (·.movedTo sid cursor)) := by
  obtain ⟨-, hsteps, hsize⟩ := Engine.counts_eq (steps_movedTo w.engine sid cursor)
  exact ⟨rfl, rfl, hsteps, hsize.ge⟩

lemma recorded (w : World D) {d : Deed D} (hd : d.completion? = none) : Uncounted w (w.recorded d) :=
  .of_strands rfl (by simp [hd]) rfl

lemma emitted (w : World D) (what : Happening) : Uncounted w (w.emitted what) :=
  .of_strands rfl (by simp [Deed.completion?]) rfl

lemma shifted {p : Request D → Prop} {f : Engine D → Engine D}
    (hf : w.engine.Shift p False (f w.engine)) : Uncounted w (w.altered f) :=
  ⟨hf.totalSteps, rfl, hf.steps_eq.1, hf.steps_eq.2.ge⟩

/-- A property of worlds that depends only on the counts and the memory is kept wherever no instruction is
executed. -/
lemma easy {Q : World D → Prop} (hQ : ∀ {w v}, Q w → Uncounted w v → P v.memory → Q v)
    (hmemory : ∀ {w}, Q w → P w.memory) (hinstall : ∀ {m} n contents, P m → P (h.install m n contents)) :
    Easy h P Q := by
  have hsame {w v : World D} (hw : Q w) (hv : Uncounted w v) (hm : v.memory = w.memory) : Q v :=
    hQ hw hv (hm ▸ hmemory hw)
  exact {
    noted := fun _ _ _ hv => hsame hv (.of_strands rfl rfl rfl) rfl
    told := fun _ hv => hsame hv (.emitted _ _) rfl
    disarmed := fun hv => hsame hv (.of_strands rfl rfl rfl) rfl
    deferred := fun _ _ hv => hsame hv (.trans (.recorded _ rfl) (.of_strands rfl rfl rfl)) rfl
    aside := fun hf hv => hsame hv (.of_strands hf.totalSteps rfl hf.strands) rfl
    peopled := fun {v} cursor scope hv =>
      hQ hv ⟨rfl, rfl, v.engine.steps_withStrand rfl, by simp⟩ (newMemory_kept v hinstall scope (hmemory hv))
    memory := hmemory
    stored := fun hv hm => hQ hv (.of_strands rfl rfl rfl) hm
    announced := fun _ _ _ hv => hsame hv (.emitted _ _) rfl
    popped := fun _ hv => hsame hv (.of_strands rfl rfl rfl) rfl
    refused := fun _ hv => hsame hv (.of_strands rfl rfl rfl) rfl
    delivered := fun _ hv => hsame hv (.of_strands rfl rfl rfl) rfl }

end Uncounted

lemma Counted.uncounted {n : Nat} (hv : Counted w n v) (hu : Uncounted v u) : Counted w n u where
  total := hu.total.trans hv.total
  completions := (congrArg List.length hu.completions).trans hv.completions

lemma Counted.trans {n k : Nat} (hv : Counted w n v) (hu : Counted v k u) : Counted w (n + k) u where
  total := by rw [hu.total, hv.total, Nat.add_assoc]
  completions := by rw [hu.completions, hv.completions, Nat.add_assoc]

/-! ### What surrounds the instruction of a step -/

namespace Loose

variable {I : World D → Prop} (hI : Loose h I)

include hI

lemma retire (sid : Nat) : Abides I (·.isRuntime = false) (retire h sid) := by
  intro w hw
  rcases retire_cases h w sid with hout | ⟨shown, hout⟩
  · refine Act.ensures_of_outcome hout (.ok () ?_)
    have haside : I (w.altered (·.without sid)) := hI.aside ⟨rfl, rfl, rfl, rfl, rfl, rfl, rfl⟩ hw
    exact hI.told (show Happening.IsOwn (.retired ..) from trivial) (hI.noted _ _ _ haside)
  · exact Act.ensures_of_outcome hout (.error hw rfl)

lemma halt : Abides I (Fault.Passes False) (halt h.scheduler) :=
  .bind (fun w hw => Act.ensures_of_outcome (disarm_outcome _ w) (.ok () (hI.disarmed hw)))
    fun _ => hI.transition _ _

lemma stumble : Abides I (Fault.Passes False) (stumble h) := by
  refine .get_bind fun w hw => ?_
  dsimp only
  split_ifs
  · exact hI.halt w hw
  · exact hI.transition _ _ w hw
  · exact .ok () hw

/-- A manual step defers no other one, so that nothing can fail at its end. -/
lemma windUp_manual (fire : Ticket → Act (World D) Unit) :
    Abides I (·.isRuntime = false) (windUp h fire true) := by
  refine .get_bind fun w hw => ?_
  dsimp only
  split_ifs with hhalt hrun
  · exact Act.ensures_of_outcome (halt_outcome _ w (mayFollow_halted hhalt.1))
      (.ok () (hI.entered _ _ (hI.disarmed hw)))
  · simp at hrun
  · exact .ok () hw

lemma turned (hw : I w) : I w.turned := by
  have hturned : I (w.altered (·.turned)) := hI.aside ⟨rfl, rfl, rfl, rfl, rfl, rfl, rfl⟩ hw
  unfold World.turned emittedIf
  split_ifs
  · exact hI.told trivial hturned
  · exact hturned

lemma pause : Abides I (Fault.Passes False) (pause h) := by
  intro w hw
  exact pause_ensures (fun _ _ => .error hw (Fault.passes_any _))
    (fun _ _ => .ok () (hI.entered _ _ (hI.disarmed hw))) fun _ _ => .ok () (hI.disarmed hw)

/-- An instruction that was executed is reported as one; a failure at that point is an error of the engine. -/
lemma conclude (fire : Ticket → Act (World D) Unit) (mark sid : Nat) (cursor : Option D.Instr)
    (hasNext : Bool) (hw : I (w.announced h sid cursor hasNext)) :
    (conclude h fire mark sid cursor hasNext true).Ensures w fun o v =>
      Kept I (·.isRuntime = false) o v ∧ ∀ r, o = .ok r → r.executed = 1 := by
  have hreport (v : World D) (hv : I v) : (result mark 1 (some sid) hasNext).Ensures v fun o u =>
      Kept I (·.isRuntime = false) o u ∧ ∀ r, o = .ok r → r.executed = 1 := by
    refine ⟨.ok _ hv, ?_⟩
    rintro _ ⟨⟩
    rfl
  have hwind (v : World D) (hv : I v) : (do
      windUp h fire true
      result mark 1 (some sid) hasNext : Act (World D) StepResult).Ensures v fun o u =>
        Kept I (·.isRuntime = false) o u ∧ ∀ r, o = .ok r → r.executed = 1 :=
    (hI.windUp_manual fire v hv).bind (fun _ u hu => hreport u hu.state)
      fun f u hu => ⟨.error hu.state (hu.fault f rfl), nofun⟩
  unfold Act.Ensures
  rw [conclude_announced]
  split_ifs
  · exact (hI.retire sid _ hw).bind (fun _ v hv => hwind v hv.state)
      fun f v hv => ⟨.error hv.state (hv.fault f rfl), nofun⟩
  · exact hwind _ hw
  · exact hreport _ hw

/-- Once its failure is reckoned, an instruction may be told of or not. -/
lemma recover (sid before : Nat) (cursor : Option D.Instr) (f : Fault)
    (hw : I (w.reckoned h sid before cursor)) :
    (recover h sid before cursor f).Ensures w (Kept I (Fault.Passes False)) := by
  unfold Act.Ensures
  rw [recover_lamented]
  rcases f.message with g | text
  · exact .error hw g.passes_any
  · have hlamented : I (w.lamented h sid before cursor f text) :=
      hI.told (show Happening.IsOwn (.failed ..) from trivial) hw
    dsimp only
    split_ifs
    · exact Abides.bind (hI.retire sid).upholds.abides (fun _ => hI.stumble) _ hlamented
    · exact hI.stumble _ hlamented
    · exact .ok () hlamented

end Loose

/-! ### One step -/

/-- The instruction of a step counts once: when it is announced, or else when its failure is reckoned, if it had
returned. The latter happens only where `slips` says that it can. -/
structure Tallies (h : Host D) (rounds depth : Nat) (slips : Prop) (C : Nat → World D → Prop) : Prop where
  loose : ∀ n, Loose h (C n)
  advance : ∀ {w} sid, C 0 w →
    (advance h (runScript (serve h rounds depth)) sid sid true).Ensures w fun o v =>
      (∀ hasNext cursor, o = .ok hasNext →
        C 1 ((v.altered (·.inStep false)).announced h sid cursor hasNext)) ∧
      ∀ f cursor, o = .error f →
        ∃ n ≤ 1, C n (v.reckoned h sid (w.engine.steps sid) cursor) ∧ (0 < n → slips)

/-- A step reports what it counted: one instruction, or none when the engine has come to rest. A step that
fails may have counted one all the same. -/
def Reckons (slips : Prop) (C : Nat → World D → Prop) : Except Fault StepResult → World D → Prop
  | .ok r, v => C r.executed v ∧ (r.executed = 1 ∨ r.executed = 0 ∧ v.engine.phase = .halted)
  | .error f, v => f.isRuntime = true → ∃ n ≤ 1, C n v ∧ (0 < n → slips)

namespace Tallies

variable {rounds depth : Nat} {slips : Prop} {C : Nat → World D → Prop}
  (hC : Tallies h rounds depth slips C)

include hC

lemma proceed (hw : C 0 w) (fire : Ticket → Act (World D) Unit) (mark sid : Nat)
    (cursor : Option D.Instr) :
    (proceed h (runScript (serve h rounds depth)) fire mark sid cursor true).Ensures w (Reckons slips C) := by
  have hin : C 0 ((w.altered (·.passing none)).altered (·.inStep true)) :=
    (hC.loose 0).aside ⟨rfl, rfl, rfl, rfl, rfl, rfl, rfl⟩
      ((hC.loose 0).aside ⟨rfl, rfl, rfl, rfl, rfl, rfl, rfl⟩ hw)
  have hleft {v : World D} {n : Nat} (hv : C n v) : C n (v.altered (·.inStep false)) :=
    (hC.loose n).aside ⟨rfl, rfl, rfl, rfl, rfl, rfl, rfl⟩ hv
  have hadvance := hC.advance sid hin
  refine proceed_ensures hadvance ?_ ?_ ?_
  · rintro hasNext v ⟨hreturned, -⟩
    refine ((hC.loose 1).conclude fire mark sid cursor hasNext (hreturned hasNext cursor rfl)).mono ?_
    rintro (f | r) z ⟨hz, hone⟩
    · have hinternal : f.isRuntime = false := hz.fault f rfl
      exact fun hruntime => by simp [hinternal] at hruntime
    · have hone : r.executed = 1 := hone r rfl
      exact ⟨hone.symm ▸ hz.state, .inl hone⟩
  · rintro f v - ⟨-, hraised⟩
    obtain ⟨n, hn, hv, hslips⟩ := hraised f cursor rfl
    have hrecover := (hC.loose n).recover sid (w.engine.steps sid) cursor f hv
    exact hrecover.bind (fun _ _ hz _ => ⟨n, hn, hleft hz.state, hslips⟩)
      fun _ _ hz _ => ⟨n, hn, hleft hz.state, hslips⟩
  · intro f v hf _ hruntime
    simp [Fault.isOrdinary_of_isRuntime hruntime] at hf

lemma executeStep (hw : C 0 w) (fire : Ticket → Act (World D) Unit) :
    (executeStep h (runScript (serve h rounds depth)) fire true).Ensures w (Reckons slips C) := by
  -- A manual step consults nothing.
  refine executeStep_asks (A := fun o v => o = .ok false ∧ v = w.turned) (fun _ => ?_) ⟨rfl, rfl⟩ ?_ ?_ ?_
  · have hhalt := (hC.loose 0).halt w hw
    unfold Act.Ensures at *
    rw [Act.outcome_bind]
    rcases hout : (World.halt h.scheduler).outcome w with ⟨f | _, v⟩ <;> rw [hout] at hhalt
    · exact fun _ => ⟨0, Nat.zero_le 1, hhalt.state, nofun⟩
    · have hphase : v.engine.phase = .halted := by
        unfold World.halt at hout
        rw [Act.outcome_bind, disarm_outcome] at hout
        exact phase_of_transition hout
      exact ⟨hhalt.state, .inr ⟨rfl, hphase⟩⟩
  · rintro f v ⟨hnone, -⟩
    cases hnone
  · rintro i v hmanual
    cases hmanual
  · rintro stops v - ⟨-, rfl⟩
    exact hC.proceed ((hC.loose 0).turned hw) fire _ _ _

lemma step (hw : C 0 w) (fire : Ticket → Act (World D) Unit) :
    (step h (runScript (serve h rounds depth)) fire).Ensures w (Reckons slips C) := by
  have hrefused (f : Fault) : Reckons slips C (.error f) w := fun _ => ⟨0, Nat.zero_le 1, hw, nofun⟩
  exact step_ensures (fun f _ => hrefused f) (fun hhalt => ⟨hw, .inr ⟨rfl, hhalt⟩⟩) fun _ _ =>
    hC.executeStep hw fire

end Tallies

/-- What is reported to whoever asked for the step. -/
def Answers (slips : Prop) (C : Nat → World D → Prop) : Except Fault Reply → World D → Prop
  | .ok (.stepped r), v => Reckons slips C (.ok r) v
  | .ok _, _ => False
  | .error f, v => Reckons slips C (.error f) v

lemma serve_answers {rounds : Nat} {slips : Prop} {C : Nat → World D → Prop}
    (hC : ∀ depth, Tallies h rounds depth slips C) (hw : C 0 w) (depth : Nat) :
    (serve h rounds depth .step).Ensures w (Answers slips C) := by
  cases depth with
  | zero => exact fun _ => ⟨0, Nat.zero_le 1, hw, nofun⟩
  | succ depth =>
    exact ((hC depth).step hw _).bind (fun _ _ hr => hr) fun _ _ hf => hf

/-! ### All programs, and those that are patient -/

lemma total_easy (h : Host D) (n : Nat) : Easy h (fun _ => True) fun v => n ≤ v.engine.totalSteps :=
  Uncounted.easy (fun hw hv _ => hw.trans hv.total.ge) (fun _ => trivial) fun _ _ => id

lemma total_practice (h : Host D) (n : Nat) : Practice h (fun _ => True) True True False fun v =>
    n ≤ v.engine.totalSteps :=
  (total_easy h n).practice (fun hf hw => hw.trans hf.total_le) h.asks_anything trivial
    fun sid manual hserve => advance_abides (J := fun _ _ v => n ≤ v.engine.totalSteps) (fun _ _ hw => hw)
      (fun _ i scope => (total_easy h n).runScript hserve (h.asks_anything.code i scope)) id
      (fun _ hw => followed_keeps (I := fun v => n ≤ v.engine.totalSteps) h _ _ (fun _ => hw) hw) sid sid manual

/-- Whatever a program does, a step counts no less than it reports. -/
lemma counts_rise (h : Host D) (rounds depth : Nat) (w : World D) :
    Tallies h rounds depth False fun n v => w.engine.totalSteps + n ≤ v.engine.totalSteps where
  loose n := (total_easy h (w.engine.totalSteps + n)).toLoose
  advance {u} sid hu := by
    have hpractice := total_practice h (w.engine.totalSteps + 0)
    refine (hpractice.advance sid true trivial (hpractice.serve rounds depth).1 False.elim hu).mono ?_
    rintro o v ⟨⟨hv, -⟩, -⟩
    refine ⟨fun _ _ _ => Nat.succ_le_succ hv, fun f cursor _ => ⟨0, Nat.zero_le 1, ?_, nofun⟩⟩
    have hshift : v.engine.disarmed.Shift (fun _ => True) True
      (v.engine.disarmed.recounted sid (u.engine.steps sid)) := .winding trivial (.recounted sid _)
    exact hv.trans hshift.total_le

/-- The code of a strand's instruction was run, and the instruction returned or not. The engine has not counted
it yet. -/
structure Tried (sid n : Nat) (w v : World D) : Prop where
  total : v.engine.totalSteps = w.engine.totalSteps
  completions : v.completions.length = w.completions.length + n
  steps : v.engine.steps sid = w.engine.steps sid + n

namespace Tried

variable {sid n : Nat}

lemma uncounted {u : World D} (hv : Tried sid n w v) (hu : Uncounted v u) : Tried sid n w u where
  total := hu.total.trans hv.total
  completions := (congrArg List.length hu.completions).trans hv.completions
  steps := (hu.steps sid).trans hv.steps

lemma completed (hv : Uncounted w v) (hslot : sid < w.engine.strands.size) (i : D.Instr) :
    Tried sid 1 w (v.completed sid i) where
  total := hv.total
  completions := by
    have hcompletions := congrArg List.length hv.completions
    simpa [Deed.completion?] using hcompletions
  steps := by
    have hstrand : (v.engine.strand? sid).isSome := by
      simpa [Engine.strand?] using hslot.trans_le hv.size
    rw [completed_engine, v.engine.steps_stepped hstrand, if_pos rfl, hv.steps]

lemma announced (hv : Tried sid 1 w v) (cursor : Option D.Instr) (hasNext : Bool) :
    Counted w 1 (v.announced h sid cursor hasNext) where
  total := congrArg (· + 1) hv.total
  completions := by simpa [Deed.completion?] using hv.completions

lemma reckoned (hv : Tried sid n w v) (hn : n ≤ 1) (cursor : Option D.Instr) :
    Counted w n (v.reckoned h sid (w.engine.steps sid) cursor) where
  total := by
    have hsteps : v.engine.disarmed.steps sid = w.engine.steps sid + n := hv.steps
    have htotal := hv.total
    simp only [reckoned_engine, Engine.recounted_totalSteps, hsteps, Engine.disarmed_totalSteps, htotal]
    split_ifs <;> omega
  completions := hv.completions

end Tried

section Patient

variable (hh : h.Patient fit P)

include hh

lemma uncounted_easy (w : World D) : Easy h P fun v => (Uncounted w v ∧ P v.memory) ∧ fit v.clock :=
  (Uncounted.easy (fun hv hu hm => ⟨hv.1.trans hu, hm⟩) (·.2) hh.install).fitting hh.scheduler

lemma uncounted_practice (w : World D) : Practice h (fun r => ¬ r.Steps) False False False fun v =>
    (Uncounted w v ∧ P v.memory) ∧ fit v.clock :=
  (uncounted_easy hh w).calm (fun hf hv => ⟨⟨hv.1.1.trans (.shifted hf), hv.1.2⟩, hv.2⟩)
    hh.scheduler.defers (·.2) hh.farewell id id

lemma counted_easy (w : World D) (n : Nat) : Easy h P fun v => (Counted w n v ∧ P v.memory) ∧ fit v.clock :=
  (Uncounted.easy (fun hv hu hm => ⟨hv.1.uncounted hu, hm⟩) (·.2) hh.install).fitting hh.scheduler

/-- While the code of an instruction runs nothing is completed, so what is completed in the end is the
instruction itself; it is if nothing fails, and a failure after that is one of its successor. -/
lemma advance_tried (rounds depth sid : Nat) (slot : Int) (manual : Bool) (hm : P w.memory)
    (hc : fit w.clock) :
    (advance h (runScript (serve h rounds depth)) sid slot manual).Ensures w fun o v =>
      (P v.memory ∧ fit v.clock) ∧ ∃ n ≤ 1, Tried sid n w v ∧ (∀ hasNext, o = .ok hasNext → n = 1) ∧
        ∀ f, o = .error f → 0 < n → h.Misleads P := by
  have hnone {v : World D} (hv : Uncounted w v) : Tried sid 0 w v :=
    ⟨hv.total, congrArg List.length hv.completions, hv.steps sid⟩
  unfold Act.Ensures
  rw [advance_outcome]
  rcases hstrand : w.engine.strand? sid with _ | strand
  · exact ⟨⟨hm, hc⟩, 0, Nat.zero_le 1, hnone (.refl w), nofun, fun _ _ => nofun⟩
  · dsimp only
    rcases hcursor : strand.cursor with _ | i
    · exact ⟨⟨hm, hc⟩, 0, Nat.zero_le 1, hnone (.refl w), nofun, fun _ _ => nofun⟩
    · have hslot : sid < w.engine.strands.size := (Array.getElem?_eq_some_iff.mp hstrand).1
      have hbegan : Uncounted w (w.recorded (.began sid i w.engine.phase manual)) := .recorded w rfl
      have hcode := (uncounted_easy hh w).runScript ((uncounted_practice hh w).serve rounds depth).1
        (hh.code i strand.scope) (w.recorded (.began sid i w.engine.phase manual)) ⟨⟨hbegan, hm⟩, hc⟩
      unfold Act.Ensures at hcode
      dsimp only
      rcases hrun : (runScript (serve h rounds depth) (h.code i strand.scope)).outcome
        (w.recorded (.began sid i w.engine.phase manual)) with ⟨f | _, v⟩ <;> rw [hrun] at hcode
      · obtain ⟨⟨hran, hmemory⟩, hclock⟩ := hcode.state
        exact ⟨⟨hmemory, hclock⟩, 0, Nat.zero_le 1, hnone hran, nofun, fun _ _ => nofun⟩
      · obtain ⟨⟨hran, hmemory⟩, hclock⟩ := hcode.state
        have hone : Tried sid 1 w (v.completed sid i) := .completed hran hslot i
        have hmoved (cursor : Option D.Instr) :
            Tried sid 1 w ((v.completed sid i).altered (·.movedTo sid cursor)) :=
          hone.uncounted (.movedTo _ _ _)
        dsimp only
        unfold followed
        rcases hnext : h.next (v.completed sid i).memory i with f | _ | j
        · have hmisleads : h.Misleads P := ⟨_, i, hmemory, .inl ⟨f, hnext⟩⟩
          exact ⟨⟨hmemory, hclock⟩, 1, le_rfl, hone, nofun, fun _ _ _ => hmisleads⟩
        · exact ⟨⟨hmemory, hclock⟩, 1, le_rfl, hmoved none, fun _ _ => rfl, nofun⟩
        · dsimp only
          split_ifs with hwell
          · exact ⟨⟨hmemory, hclock⟩, 1, le_rfl, hmoved (some j), fun _ _ => rfl, nofun⟩
          · exact ⟨⟨hmemory, hclock⟩, 1, le_rfl, hmoved none, nofun,
              fun _ _ _ => ⟨_, i, hmemory, .inr ⟨j, hnext, hwell⟩⟩⟩

/-- A step of a patient program counts what it reports. -/
lemma counts_exactly (rounds depth : Nat) (w : World D) :
    Tallies h rounds depth (h.Misleads P) fun n v => (Counted w n v ∧ P v.memory) ∧ fit v.clock where
  loose n := (counted_easy hh w n).toLoose
  advance {u} sid hu := by
    refine (advance_tried hh rounds depth sid sid true hu.1.2 hu.2).mono ?_
    rintro o v ⟨⟨hm, hc⟩, n, hn, hv, hone, hmisleads⟩
    have hcount {k : Nat} {z : World D} (hz : Counted u k z) : Counted w k z := by
      simpa using hu.1.1.trans hz
    refine ⟨fun hasNext cursor ho => ?_, fun f cursor hf => ⟨n, hn, ⟨⟨?_, hm⟩, ?_⟩, hmisleads f hf⟩⟩
    · obtain rfl := hone hasNext ho
      have hleft : Tried sid 1 u (v.altered (·.inStep false)) := hv.uncounted (.of_strands rfl rfl rfl)
      exact ⟨⟨hcount (hleft.announced cursor hasNext), hm⟩, hc⟩
    · exact hcount (hv.reckoned hn cursor)
    · exact (((easy_memory hh.install).fitting hh.scheduler).disarmed ⟨hm, hc⟩).2

end Patient

end World

end Loom
