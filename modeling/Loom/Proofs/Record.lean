import Mathlib.Data.List.Infix
import Loom.Proofs.StepOutcome

/-! The record of deeds only grows. Whatever is asked of an engine, at whatever depth, and whatever the
program and the scheduler do, no deed is taken back, also when the request fails. So an operation that
leaves the record as it was has announced nothing, begun nothing and deferred nothing on its way. -/
namespace Loom.World

variable {D : Dialect} {α β : Type}

/-- Every deed on record is still on record, in the same place. -/
def Continues (w v : World D) : Prop := w.deeds.toList <+: v.deeds.toList

lemma continues_refl (w : World D) : w.Continues w := List.prefix_rfl

lemma Continues.trans {u v w : World D} (h : u.Continues v) (h' : v.Continues w) : u.Continues w :=
  List.IsPrefix.trans h h'

lemma continues_of_deeds {w v : World D} (h : v.deeds = w.deeds) : w.Continues v := by
  rw [Continues, h]

lemma continues_of_push {w v : World D} {d : Deed D} (h : v.deeds = w.deeds.push d) :
    w.Continues v := by
  rw [Continues, h, Array.toList_push]
  exact List.prefix_append _ _

lemma Continues.size_le {w v : World D} (h : w.Continues v) : w.deeds.size ≤ v.deeds.size := by
  simpa using List.IsPrefix.length_le h

/-- A computation that only adds to the record, however it ends. -/
def Adds (a : Act (World D) α) : Prop := ∀ w : World D, w.Continues (a.outcome w).2

namespace Adds

variable {a : Act (World D) α} {f : α → Act (World D) β}

lemma pure (x : α) : Adds (Pure.pure x : Act (World D) α) := fun w => w.continues_refl

lemma throw (f : Fault) : Adds (MonadExcept.throw f : Act (World D) α) := fun w => w.continues_refl

lemma ofExcept (r : Except Fault α) : Adds (Act.ofExcept r : Act (World D) α) :=
  fun w => w.continues_refl

lemma modify {g : World D → World D} (hg : ∀ w, (g w).deeds = w.deeds) :
    Adds (modify g : Act (World D) Unit) := fun w => continues_of_deeds (hg w)

lemma modifyEngine (g : Engine D → Engine D) : Adds (modifyEngine g) := modify fun _ => rfl

lemma record (d : Deed D) : Adds (record d) := fun _ => continues_of_push rfl

lemma bind_at {w : World D} (ha : w.Continues (a.outcome w).2) (hf : ∀ x, Adds (f x)) :
    w.Continues ((a >>= f).outcome w).2 := by
  rw [Act.outcome_bind]
  rcases hout : a.outcome w with ⟨e | x, v⟩ <;> rw [hout] at ha
  · exact ha
  · exact ha.trans (hf x v)

lemma bind (ha : Adds a) (hf : ∀ x, Adds (f x)) : Adds (a >>= f) := fun w => bind_at (ha w) hf

lemma read_bind {f : World D → Act (World D) β}
    (hf : ∀ w : World D, w.Continues ((f w).outcome w).2) : Adds (get >>= f) := hf

lemma get_bind {f : World D → Act (World D) β} (hf : ∀ w, Adds (f w)) : Adds (get >>= f) :=
  read_bind fun w => hf w w

lemma attempt (ha : Adds a) : Adds a.attempt := fun w => ha w

lemma discard (ha : Adds a) : Adds (discard a) := by
  intro w
  rw [Act.outcome_discard]
  exact ha w

end Adds

/-- A computation that, from a world, only adds to the record, and at least one deed. -/
structure Records (a : Act (World D) α) (w : World D) : Prop where
  continues : w.Continues (a.outcome w).2
  grows : w.deeds.size < (a.outcome w).2.deeds.size

namespace Records

variable {a : Act (World D) α} {f : α → Act (World D) β} {w v : World D}

lemma of_push {d : Deed D} (h : (a.outcome w).2.deeds = w.deeds.push d) : Records a w :=
  ⟨continues_of_push h, by simp [h]⟩

/-- What follows takes nothing back. -/
lemma bind (ha : Records a w) (hf : ∀ x, Adds (f x)) : Records (a >>= f) w := by
  obtain ⟨hcontinues, hgrows⟩ := ha
  refine ⟨Adds.bind_at hcontinues hf, ?_⟩
  rw [Act.outcome_bind]
  rcases hout : a.outcome w with ⟨e | x, v⟩ <;> rw [hout] at hgrows
  · exact hgrows
  · exact hgrows.trans_le (hf x v).size_le

/-- What went before took nothing back. -/
lemma bind_ok {x : α} (ha : a.outcome w = (.ok x, v)) (hv : w.Continues v) (hf : Records (f x) v) :
    Records (a >>= f) w := by
  have hout : (a >>= f).outcome w = (f x).outcome v := by rw [Act.outcome_bind, ha]
  refine ⟨?_, ?_⟩ <;> rw [hout]
  · exact hv.trans hf.continues
  · exact hv.size_le.trans_lt hf.grows

lemma discard (ha : Records a w) : Records (discard a) w := by
  refine ⟨?_, ?_⟩ <;> rw [Act.outcome_discard]
  · exact ha.continues
  · exact ha.grows

end Records

lemma note_adds (level : LogLevel) (source : LogSource) (text : String) :
    Adds (D := D) (note level source text) := .modify fun _ => rfl

lemma emit_records (what : Happening) (w : World D) : Records (emit what) w := by
  refine .of_push (d := .emitted (w.event what)) ?_
  rw [emit_outcome, emitted_deeds]

lemma emit_adds (what : Happening) : Adds (D := D) (emit what) := fun w => (emit_records what w).continues

lemma disarm_adds (s : Scheduler D.Clock) : Adds (disarm s) := by
  intro w
  rw [disarm_outcome]
  exact continues_of_deeds (disarmed_deeds w s)

lemma requireLive_adds (operation : String) : Adds (D := D) (requireLive operation) := by
  intro w
  rw [requireLive_outcome]
  exact w.continues_refl

lemma result_adds (mark executed : Nat) (strand : Option Nat) (hasNext : Bool) :
    Adds (D := D) (result mark executed strand hasNext) := fun w => w.continues_refl

lemma transition_adds (new : Phase) (reason : String) : Adds (D := D) (transition new reason) := by
  refine Adds.get_bind fun w => ?_
  dsimp only
  split_ifs
  · exact .pure _
  · exact .bind (.modifyEngine _) fun _ => .bind (note_adds _ _ _) fun _ => .discard (emit_adds _)
  · exact .throw _

lemma halt_adds (s : Scheduler D.Clock) : Adds (halt s) :=
  .bind (disarm_adds s) fun _ => transition_adds _ _

lemma retire_adds (h : Host D) (sid : Nat) : Adds (retire h sid) := by
  refine Adds.get_bind fun w => ?_
  dsimp only
  split_ifs
  · exact .bind (.modifyEngine _) fun _ => .bind (note_adds _ _ _) fun _ => .discard (emit_adds _)
  · exact .throw _

lemma select_adds : Adds (D := D) select := by
  intro w
  rw [select_outcome, turned]
  unfold emittedIf
  split_ifs
  · exact continues_of_push (emitted_deeds _ _)
  · exact continues_of_deeds rfl

lemma stop_adds (h : Host D) (mark sid : Nat) (i : D.Instr) : Adds (stop h mark sid i) :=
  .bind (.modifyEngine _) fun _ => .bind (disarm_adds _) fun _ => .bind (transition_adds _ _) fun _ =>
    .bind (note_adds _ _ _) fun _ => .bind (.discard (emit_adds _)) fun _ => result_adds _ _ _ _

lemma stumble_adds (h : Host D) : Adds (stumble h) := by
  refine Adds.get_bind fun w => ?_
  dsimp only
  split_ifs
  · exact halt_adds _
  · exact transition_adds _ _
  · exact .pure _

/-- What is left of the cleaning up after a fault once it is announced. -/
lemma remainder_adds (h : Host D) (sid : Nat) : Adds (do
    if (← get).engine.phase ≠ .terminated then do
      if ((← get).engine.cursor sid).isNone then retire h sid
      stumble h : Act (World D) Unit) := by
  refine Adds.get_bind fun v => ?_
  split_ifs
  · refine Adds.get_bind fun u => ?_
    dsimp only
    split_ifs
    · exact .bind (retire_adds h sid) fun _ => stumble_adds h
    · exact stumble_adds h
  · exact .pure _

lemma recover_adds (h : Host D) (sid before : Nat) (cursor : Option D.Instr) (f : Fault) :
    Adds (recover h sid before cursor f) :=
  .bind (note_adds _ _ _) fun _ => .bind (disarm_adds _) fun _ => .bind (.modifyEngine _) fun _ =>
    .bind (.ofExcept _) fun _ => .bind (.discard (emit_adds _)) fun _ => remainder_adds h sid

/-- A fault that can be worded is announced when it is cleaned up after. -/
lemma recover_records (h : Host D) (sid before : Nat) (cursor : Option D.Instr) {f : Fault} (hf : f.IsTold)
    (w : World D) : Records (recover h sid before cursor f) w := by
  obtain ⟨text, htext⟩ := hf
  refine .bind_ok (note_outcome _ _ _ w) (continues_of_deeds rfl) ?_
  refine .bind_ok (disarm_outcome _ _) (continues_of_deeds rfl) ?_
  refine .bind_ok (modifyEngine_outcome _ _) (continues_of_deeds rfl) ?_
  refine .bind_ok (x := text) (by rw [htext]; rfl) (continues_refl _) ?_
  exact .bind (emit_records _ _).discard fun _ => remainder_adds h sid

lemma addStrand_adds (h : Host D) (cursor : Option D.Instr) (scope : ScopeChoice D) :
    Adds (addStrand h cursor scope) := by
  intro w
  rw [addStrand_outcome]
  exact continues_of_deeds (peopled_deeds w h cursor scope)

/-- What a start does once its first step is deferred. -/
lemma launch_adds (h : Host D) (cursor : Option D.Instr) (contents : D.Scope) : Adds (do
    let sid ← addStrand h cursor (.given contents)
    World.modifyEngine fun e =>
      { e with started := true, live := if cursor.isSome then [sid] else [], index := 0, sliceUsed := 0 }
    transition .running "start"
    match cursor with
    | none => pure ()
    | some i => discard (emit (.spawned sid (h.label i))) : Act (World D) Unit) := by
  refine .bind (addStrand_adds _ _ _) fun sid => .bind (.modifyEngine _) fun _ => ?_
  refine .bind (transition_adds _ _) fun _ => ?_
  split
  · exact .pure _
  · exact .discard (emit_adds _)

lemma rootEntry_adds (h : Host D) (entry : Option D.Instr) : Adds (rootEntry h entry) := by
  intro w
  rw [rootEntry_outcome]
  exact continues_of_deeds (sought_deeds w h entry)

lemma pause_adds (h : Host D) : Adds (pause h) := by
  refine Adds.bind (requireLive_adds _) fun _ => Adds.bind (disarm_adds _) fun _ => ?_
  refine Adds.get_bind fun w => ?_
  split_ifs
  · exact transition_adds _ _
  · exact .pure _

lemma setRate_adds (given : Option Value) : Adds (D := D) (setRate given) := by
  intro w
  rw [setRate_outcome]
  split_ifs
  · exact w.continues_refl
  · split <;> exact continues_of_deeds rfl

lemma terminate_adds (h : Host D) : Adds (terminate h) := by
  refine Adds.get_bind fun w => ?_
  dsimp only
  split_ifs
  · exact .throw _
  · exact .throw _
  · exact .throw _
  · refine Adds.bind (disarm_adds _) fun _ => Adds.bind (.modifyEngine _) fun _ => ?_
    exact .bind (transition_adds _ _) fun _ => .get_bind fun _ => note_adds _ _ _

lemma pump_adds (rounds : Nat) : Adds (D := D) (pump rounds) := by
  intro w
  unfold pump
  rcases hb : w.bus with _ | bus <;> simp only [Act.outcome_bind, Act.outcome_get, hb]
  · exact w.continues_refl
  · exact continues_of_deeds rfl

/-- What follows once the scheduler has answered to a step that was put to it. -/
def answered (fire : Ticket → Act (World D) Unit) (t : Ticket) (r : Except Fault Arming) :
    Act (World D) Unit := do
  let arming ← Act.ofExcept r
  if arming.immediate then fire t
  modifyEngine fun e => { e with pending := some arming.handle }

lemma arm_outcome (s : Scheduler D.Clock) (fire : Ticket → Act (World D) Unit) (delay : Binary64)
    (w : World D) : (arm s fire delay).outcome w =
      let t := (w.disarmed s).ticket
      let answer := s.arm (w.disarmed s).clock delay t
      (answered fire t answer.1).outcome
        (((w.disarmed s).recorded (.deferred t answer.1.isOk)).atClock answer.2) := by
  unfold arm
  rw [Act.outcome_bind, disarm_outcome]
  rfl

section Step

variable {h : Host D} {run : {α : Type} → Script D α → Act (World D) α}
  {fire : Ticket → Act (World D) Unit} (hrun : ∀ {α : Type} (s : Script D α), Adds (run s))
  (hfire : ∀ t, Adds (fire t))

include hfire in
lemma answered_adds (t : Ticket) (r : Except Fault Arming) : Adds (answered fire t r) := by
  refine Adds.bind (.ofExcept r) fun arming => ?_
  dsimp only
  split_ifs
  · exact .bind (hfire t) fun _ => .modifyEngine _
  · exact .modifyEngine _

include hfire in
/-- Deferring a step is put on record, whatever the scheduler makes of it. -/
lemma arm_records (s : Scheduler D.Clock) (delay : Binary64) (w : World D) :
    Records (arm s fire delay) w := by
  have hout := arm_outcome s fire delay w
  dsimp only at hout
  generalize (w.disarmed s).ticket = t at hout
  generalize s.arm (w.disarmed s).clock delay t = answer at hout
  have hrest := answered_adds hfire t answer.1
    (((w.disarmed s).recorded (.deferred t answer.1.isOk)).atClock answer.2)
  rw [← hout] at hrest
  have hput : w.Continues (((w.disarmed s).recorded (.deferred t answer.1.isOk)).atClock answer.2) :=
    continues_of_push rfl
  have hle := hrest.size_le
  rw [atClock_deeds, recorded_deeds, Array.size_push] at hle
  exact ⟨hput.trans hrest, hle⟩

include hfire in
lemma arm_adds (s : Scheduler D.Clock) (delay : Binary64) : Adds (arm s fire delay) :=
  fun w => (arm_records hfire s delay w).continues

include hrun in
lemma advance_adds (slot : Nat) (sid : Int) (manual : Bool) : Adds (advance h run slot sid manual) := by
  refine Adds.get_bind fun w => ?_
  dsimp only
  split
  · exact .throw _
  · split
    · exact .throw _
    · refine Adds.bind (.record _) fun _ => Adds.bind (hrun _) fun _ => ?_
      refine Adds.bind (.modifyEngine _) fun _ => Adds.bind (.record _) fun _ => ?_
      refine Adds.get_bind fun v => Adds.bind (.ofExcept _) fun next => ?_
      split
      · exact .bind (.modifyEngine _) fun _ => .pure _
      · split_ifs
        · exact .bind (.modifyEngine _) fun _ => .pure _
        · exact .bind (.modifyEngine _) fun _ => .throw _

include hrun in
lemma consult_adds (sid : Nat) (cursor : Option D.Instr) (manual : Bool) :
    Adds (consult h run sid cursor manual) := by
  refine Adds.get_bind fun w => ?_
  split_ifs
  · cases cursor with
    | none => exact .pure _
    | some i =>
      refine Adds.get_bind fun v => ?_
      split_ifs
      · exact .pure _
      · exact hrun _
  · exact .pure _

include hfire in
lemma windUp_adds (manual : Bool) : Adds (windUp h fire manual) := by
  refine Adds.get_bind fun w => ?_
  dsimp only
  split_ifs
  · exact halt_adds _
  · exact arm_adds hfire _ _
  · exact .pure _

include hfire in
/-- An instruction that was executed is announced. -/
lemma conclude_records (mark sid : Nat) (cursor : Option D.Instr) (hasNext manual : Bool) (w : World D) :
    Records (conclude h fire mark sid cursor hasNext manual) w := by
  refine .bind_ok (modifyEngine_outcome _ w) (continues_of_deeds rfl) ?_
  refine .bind_ok (note_outcome _ _ _ _) (continues_of_deeds rfl) ?_
  refine .bind_ok (Act.outcome_get _) (continues_refl _) ?_
  refine .bind (emit_records _ _).discard fun _ => Adds.get_bind fun v => ?_
  have hend : Adds (windUp h fire manual >>= fun _ => result mark 1 (some sid) hasNext) :=
    .bind (windUp_adds hfire manual) fun _ => result_adds _ _ _ _
  dsimp only
  split_ifs
  · exact .bind (retire_adds h sid) fun _ => hend
  · exact hend
  · exact result_adds _ _ _ _

include hrun in
/-- An instruction that ends in a fault was begun, unless there was none. -/
lemma advance_grows {slot : Nat} {sid : Int} {manual : Bool} {w v : World D} {f : Fault}
    (hf : f ≠ .strandHalted sid)
    (hout : (advance h run slot sid manual).outcome w = (.error f, v)) :
    w.deeds.size < v.deeds.size := by
  rw [advance_outcome] at hout
  rcases hstrand : w.engine.strand? slot with _ | strand <;> rw [hstrand] at hout
  · cases hout
    exact absurd rfl hf
  · rcases hcursor : strand.cursor with _ | i <;> simp only [hcursor] at hout
    · cases hout
      exact absurd rfl hf
    · have hran := (hrun (h.code i strand.scope) (w.recorded (.began slot i w.engine.phase manual))).size_le
      rcases hcode : (run (h.code i strand.scope)).outcome
        (w.recorded (.began slot i w.engine.phase manual)) with ⟨g | _, u⟩ <;>
        rw [hcode] at hout hran <;> simp only [recorded_deeds, Array.size_push] at hran
      · cases hout
        exact hran
      · have hfollowed : ((u.completed slot i).followed h slot i).2.deeds = (u.completed slot i).deeds := by
          unfold followed
          split
          · rfl
          · rfl
          · split_ifs <;> rfl
        have hv : ((u.completed slot i).followed h slot i).2 = v := congrArg Prod.snd hout
        rw [← hv, hfollowed, completed_deeds, Array.size_push]
        omega

include hrun hfire in
/-- A step that goes to its instruction begins it or announces what is wrong. -/
lemma proceed_records (mark sid : Nat) (cursor : Option D.Instr) (manual : Bool) (w : World D) :
    Records (proceed h run fire mark sid cursor manual) w := by
  have hadvance := advance_adds hrun (h := h) sid sid manual
    ((w.altered (·.passing none)).altered (·.inStep true))
  have hout := proceed_outcome h run fire w mark sid cursor manual
  rcases hrun' : (advance h run sid sid manual).outcome
    ((w.altered (·.passing none)).altered (·.inStep true)) with ⟨f | hasNext, v⟩ <;>
    rw [hrun'] at hadvance hout
  · have hv : w.Continues v := hadvance
    by_cases hf : f.isOrdinary
    · have hcontinues := recover_adds h sid (w.engine.steps sid) cursor f v
      have hgrows : w.deeds.size < ((recover h sid (w.engine.steps sid) cursor f).outcome v).2.deeds.size := by
        by_cases hbegun : f = .strandHalted sid
        · have htold : f.IsTold := by rw [hbegun]; exact ⟨_, rfl⟩
          exact hv.size_le.trans_lt (recover_records h sid (w.engine.steps sid) cursor htold v).grows
        · exact (advance_grows hrun hbegun hrun').trans_le hcontinues.size_le
      rcases hrec : (recover h sid (w.engine.steps sid) cursor f).outcome v with ⟨g | _, u⟩ <;>
        simp only [hf, if_true, hrec] at hout hcontinues hgrows <;>
        refine ⟨?_, ?_⟩ <;> rw [hout]
      · exact hv.trans hcontinues
      · exact hgrows
      · exact hv.trans hcontinues
      · exact hgrows
    · have hbegun : f ≠ .strandHalted sid := by
        rintro rfl
        exact hf rfl
      have hgrows := advance_grows hrun hbegun hrun'
      simp only [hf, Bool.false_eq_true, if_false] at hout
      refine ⟨?_, ?_⟩ <;> rw [hout]
      · exact hv
      · exact hgrows
  · have hv : w.Continues (v.altered (·.inStep false)) := hadvance
    obtain ⟨hcontinues, hgrows⟩ :=
      conclude_records hfire (h := h) mark sid cursor hasNext manual (v.altered (·.inStep false))
    refine ⟨?_, ?_⟩ <;> rw [hout]
    · exact hv.trans hcontinues
    · exact hv.size_le.trans_lt hgrows

include hrun hfire in
lemma proceed_adds (mark sid : Nat) (cursor : Option D.Instr) (manual : Bool) :
    Adds (proceed h run fire mark sid cursor manual) :=
  fun w => (proceed_records hrun hfire mark sid cursor manual w).continues

include hrun hfire in
lemma executeStep_adds (manual : Bool) : Adds (executeStep h run fire manual) := by
  refine Adds.get_bind fun w => Adds.get_bind fun v => ?_
  dsimp only
  split_ifs
  · exact .bind (halt_adds _) fun _ => result_adds _ _ _ _
  · refine Adds.bind select_adds fun sid => Adds.get_bind fun u => ?_
    refine Adds.bind (consult_adds hrun _ _ _) fun stops => ?_
    split
    · exact stop_adds _ _ _ _
    · exact proceed_adds hrun hfire _ _ _ _

include hrun hfire in
lemma honour_adds (t : Ticket) : Adds (honour h run fire t) := by
  refine Adds.get_bind fun w => ?_
  dsimp only
  split_ifs
  · exact .bind (.modifyEngine _) fun _ => .discard (executeStep_adds hrun hfire _)
  · exact .bind (.modifyEngine _) fun _ => .pure _
  · exact note_adds _ _ _

include hfire in
lemma start_adds (entry : Option D.Instr) : Adds (start h fire entry) := by
  refine Adds.get_bind fun w => ?_
  dsimp only
  split_ifs
  · exact .throw _
  · exact .bind (rootEntry_adds h entry) fun root => .bind (arm_adds hfire _ _) fun _ => launch_adds _ _ _

include hfire in
lemma resume_adds : Adds (resume h fire) := by
  refine Adds.bind (requireLive_adds _) fun _ => Adds.get_bind fun w => ?_
  split_ifs
  · exact note_adds _ _ _
  · refine Adds.bind (arm_adds hfire _ _) fun _ => Adds.get_bind fun v => ?_
    split_ifs
    · exact transition_adds _ _
    · exact .pure _

include hfire in
lemma spawn_adds (entry : Option D.Instr) (scope : ScopeChoice D) :
    Adds (spawn h fire entry scope) := by
  refine Adds.bind (requireLive_adds _) fun _ => Adds.get_bind fun w => ?_
  split_ifs
  · exact .throw _
  · refine Adds.bind (.ofExcept _) fun i => Adds.bind (addStrand_adds _ _ _) fun sid => ?_
    refine Adds.bind (.modifyEngine _) fun _ => Adds.bind (.discard (emit_adds _)) fun _ => ?_
    refine Adds.get_bind fun v => ?_
    dsimp only
    split_ifs
    · exact .bind (arm_adds hfire _ _) fun _ => .pure _
    · exact .pure _

include hrun hfire in
lemma step_adds : Adds (step h run fire) := by
  refine Adds.bind (requireLive_adds _) fun _ => Adds.get_bind fun w => ?_
  dsimp only
  split_ifs
  · exact .throw _
  · exact .throw _
  · exact result_adds _ _ _ _
  · exact executeStep_adds hrun hfire _

include hfire in
lemma runNext_adds (s : Scheduler D.Clock) : Adds (runNext s fire) := by
  intro w
  rw [runNext_outcome]
  rcases s.next w.clock with _ | ⟨t, clock⟩
  · exact w.continues_refl
  · exact hfire t (w.atClock clock)

end Step

lemma runScript_adds {serve : Request D → Act (World D) Reply} (hserve : ∀ r, Adds (serve r))
    (s : Script D α) : Adds (runScript serve s) := by
  induction s with
  | done a => exact .pure a
  | fail f => exact .throw f
  | look next ih => exact .get_bind fun w => ih w.memory
  | store m next ih => exact .bind (.modify fun _ => rfl) fun _ => ih
  | ask r next ih => exact .bind (.attempt (hserve r)) ih

lemma repeatWhile_adds {round : Act (World D) Bool} (hround : Adds round) (limit : Option Int)
    (rounds count : Nat) : Adds (Act.repeatWhile round limit rounds count) := fun w =>
  Act.repeatWhile_ensures (fun v (hv : w.Continues v) => hv.trans (hround v)) limit rounds count
    w.continues_refl

lemma perform_adds (h : Host D) (rounds : Nat) {serve : Request D → Act (World D) Reply}
    (hserve : ∀ r, Adds (serve r)) (r : Request D) : Adds (perform h rounds serve r) := by
  have hrun {α : Type} (s : Script D α) : Adds (runScript serve s) := runScript_adds hserve s
  have hfire (t : Ticket) : Adds (discard (serve (.fire t))) := .discard (hserve _)
  cases r with
  | start entry => exact .bind (start_adds hfire entry) fun _ => .pure _
  | pause => exact .bind (pause_adds h) fun _ => .pure _
  | resume => exact .bind (resume_adds hfire) fun _ => .pure _
  | rate given => exact .bind (setRate_adds given) fun _ => .pure _
  | terminate farewell =>
    refine Adds.bind (terminate_adds h) fun _ => ?_
    cases farewell with
    | none => exact .pure _
    | some f => exact .bind (hrun _) fun _ => .pure _
  | breakpoints on => exact .bind (.modifyEngine _) fun _ => .pure _
  | spawn entry scope =>
    exact .bind (spawn_adds hfire entry scope) fun _ => .get_bind fun _ => .pure _
  | step => exact .bind (step_adds hrun hfire) fun _ => .pure _
  | info => exact .get_bind fun _ => .pure _
  | current => exact .get_bind fun _ => .pure _
  | events limit => exact .get_bind fun _ => .pure _
  | emit type strand data =>
    exact .bind (.ofExcept _) fun _ => .bind (emit_adds _) fun _ => .pure _
  | fire t => exact .bind (honour_adds hrun hfire t) fun _ => .pure _
  | fireIssued n =>
    refine Adds.get_bind fun w => ?_
    split
    · exact .throw _
    · exact .bind (honour_adds hrun hfire _) fun _ => .pure _
  | runNext => exact .bind (runNext_adds hfire _) fun _ => .pure _
  | runAll limit => exact .bind (repeatWhile_adds (runNext_adds hfire _) _ _ _) fun _ => .pure _
  | refuse on => exact .bind (.modify fun _ => rfl) fun _ => .pure _
  | pump => exact .bind (pump_adds rounds) fun _ => .pure _
  | timeSlice n => exact .bind (.modifyEngine _) fun _ => .pure _
  | forget position => exact .bind (.modifyEngine _) fun _ => .pure _
  | blank sid => exact .bind (.modifyEngine _) fun _ => .pure _

/-- Whatever is asked for at whatever depth, the record only grows. -/
theorem serve_adds (h : Host D) (rounds depth : Nat) (r : Request D) :
    Adds (serve h rounds depth r) := by
  induction depth generalizing r with
  | zero => exact .throw _
  | succ depth ih => exact perform_adds h rounds ih r

end Loom.World
