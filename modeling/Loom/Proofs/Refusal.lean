import Loom.Proofs.Lifetime
import Loom.Proofs.OrderlyBlocks
import Loom.Proofs.Record

/-! Which lifecycle operations are refused, with which fault, and that a refusal changes nothing. Every
operation looks at the engine before it does anything; `objection` says what it objects to. An operation
that is not objected to succeeds, or fails after it has done something that is on record. -/
namespace Loom

/-- The lifecycle operations. -/
def Request.IsLifecycle : Request D → Prop
  | start _ | pause | resume | rate _ | terminate _ | breakpoints _ | spawn .. | step => True
  | _ => False

/-- The operations that need a run which was started and has not ended. -/
def Request.NeedsLife : Request D → Prop
  | pause | resume | step | spawn .. | terminate _ => True
  | _ => False

lemma Request.NeedsLife.isLifecycle {r : Request D} (h : r.NeedsLife) : r.IsLifecycle := by
  cases r <;> first | exact trivial | exact h.elim

/-- What a computation fails with. -/
def Fault.of : Except Fault α → Option Fault
  | .error f => some f
  | .ok _ => none

@[simp] lemma Fault.of_eq_some {r : Except Fault α} {f : Fault} : Fault.of r = some f ↔ r = .error f := by
  cases r <;> simp [Fault.of]

namespace World

variable {D : Dialect}

/-- The faults of something that is no instruction, said to be one: it is malformed, and where no text can show
it the refusal itself fails for that. -/
inductive Unfit (h : Host D) (i : D.Instr) : Fault → Prop
  | shown {shown : String} (hi : h.wellFormed i = false) (hshown : h.depict i = some shown) :
      Unfit h i (.notInstruction .entry shown)
  | unshown (hi : h.wellFormed i = false) (hshown : h.depict i = none) : Unfit h i .unwritable

/-- What is wrong with the place where a run is to start. A program may itself fail to name its first
instruction or to make a scope. -/
inductive BadRoot (h : Host D) (m : D.Memory) : Option D.Instr → Fault → Prop
  | entry {i : D.Instr} {f : Fault} (hi : Unfit h i f) : BadRoot h m (some i) f
  | noProgram (hs : h.source = none) : BadRoot h m none .noProgram
  | unnamed {source : Source D} {f : Fault} (hs : h.source = some source) (hf : source.first m = .error f) :
      BadRoot h m none f
  | unscoped {source : Source D} {first : Option D.Instr} {f : Fault} (hs : h.source = some source)
      (hf : source.first m = .ok first) (hc : source.scope m = .error f) : BadRoot h m none f
  | first {source : Source D} {i : D.Instr} {contents : D.Scope} {f : Fault} (hs : h.source = some source)
      (hf : source.first m = .ok (some i)) (hc : source.scope m = .ok contents) (hi : Unfit h i f) :
      BadRoot h m none f

/-- What is wrong with the place where a further strand is to start. -/
inductive BadEntry (h : Host D) : Option D.Instr → Fault → Prop
  | missing : BadEntry h none .noEntry
  | entry {i : D.Instr} {f : Fault} (hi : Unfit h i f) : BadEntry h (some i) f

lemma BadEntry.kind {h : Host D} {entry : Option D.Instr} {f : Fault} (hf : BadEntry h entry f) :
    f.kind = .malformed ∨ f.kind = .value := by
  rcases hf with _ | (_ | _)
  · exact .inl rfl
  · exact .inl rfl
  · exact .inr rfl

lemma checkEntry_error_iff {h : Host D} {i : D.Instr} {f : Fault} :
    checkEntry h i = .error f ↔ Unfit h i f := by
  unfold checkEntry Host.refusal
  constructor
  · intro hf
    split_ifs at hf with hi
    rw [Bool.not_eq_true] at hi
    rcases hshown : h.depict i with _ | shown <;> rw [hshown] at hf <;> cases hf
    · exact .unshown hi hshown
    · exact .shown hi hshown
  · rintro (⟨hi, hshown⟩ | ⟨hi, hshown⟩) <;> simp [hi, hshown]

lemma root_error_iff {w : World D} {h : Host D} {entry : Option D.Instr} {f : Fault} :
    w.root h entry = .error f ↔ BadRoot h w.memory entry f := by
  constructor
  · intro hr
    cases entry with
    | some i =>
      rcases hi : checkEntry h i with g | _ <;> simp only [root, hi] at hr <;> cases hr
      exact .entry (checkEntry_error_iff.mp hi)
    | none =>
      rcases hs : h.source with _ | source <;> simp only [root, hs] at hr
      · cases hr
        exact .noProgram hs
      · rcases hf : source.first w.memory with g | first <;> rw [hf] at hr
        · cases hr
          exact .unnamed hs hf
        · rcases hc : source.scope w.memory with g | contents <;> rw [hc] at hr
          · cases hr
            exact .unscoped hs hf hc
          · rcases first with _ | i
            · cases hr
            · rcases hi : checkEntry h i with g | _ <;> simp [hi] at hr
              exact hr ▸ .first hs hf hc (checkEntry_error_iff.mp hi)
  · intro hr
    cases hr with
    | entry hi => simp [root, checkEntry_error_iff.mpr hi]
    | noProgram hs => simp [root, hs]
    | unnamed hs hf => simp [root, hs, hf]
    | unscoped hs hf hc => simp [root, hs, hf, hc]
    | first hs hf hc hi => simp [root, hs, hf, hc, checkEntry_error_iff.mpr hi]

lemma derivedEntry_error_iff {h : Host D} {entry : Option D.Instr} {f : Fault} :
    derivedEntry h entry = .error f ↔ BadEntry h entry f := by
  constructor
  · intro hr
    cases entry with
    | none =>
      cases hr
      exact .missing
    | some i =>
      rcases hi : checkEntry h i with g | _ <;> simp [derivedEntry, hi] at hr
      exact hr ▸ .entry (checkEntry_error_iff.mp hi)
  · intro hr
    cases hr with
    | missing => rfl
    | entry hi => simp [derivedEntry, checkEntry_error_iff.mpr hi]

/-- What a lifecycle operation objects to before it does anything. -/
def objection (h : Host D) (w : World D) : Request D → Option Fault
  | .start entry => if w.engine.started then some .alreadyStarted else Fault.of (w.root h entry)
  | .pause => w.engine.refusal "pause"
  | .resume => w.engine.refusal "resume"
  | .rate given =>
    if w.engine.phase = .terminated then some .rateAfterTermination
    else given.bind fun v => Fault.of (Rate.check v)
  | .terminate _ =>
    if !w.engine.started then some (.notStarted "terminate")
    else if w.engine.phase = .terminated then some .alreadyTerminated else none
  | .spawn entry _ =>
    (w.engine.refusal "spawn").or
      (if w.engine.phase = .halted then some .isHalted else Fault.of (derivedEntry h entry))
  | .step =>
    (w.engine.refusal "step").or (if w.engine.phase = .running then some .stepWhileRunning else none)
  | _ => none

/-- What becomes of an operation: it fails with what is objected to and leaves at most a note, or it
succeeds, or it fails having done something. -/
def Judged (h : Host D) (r : Request D) (w : World D) (o : Except Fault α) (v : World D) : Prop :=
  (∃ f, objection h w r = some f ∧ o = .error f ∧ Quietly w v) ∨
    objection h w r = none ∧ ((∃ x, o = .ok x) ∨ w.deeds.size < v.deeds.size)

lemma Judged.quiet {h : Host D} {r : Request D} {w : World D} {f : Fault}
    (hf : objection h w r = some f) : Judged h r w (.error f : Except Fault α) w :=
  .inl ⟨f, hf, rfl, rfl⟩

lemma Judged.ok {h : Host D} {r : Request D} {w v : World D} (hr : objection h w r = none) (x : α) :
    Judged h r w (.ok x) v := .inr ⟨hr, .inl ⟨x, rfl⟩⟩

lemma Judged.records {h : Host D} {r : Request D} {w : World D} {a : Act (World D) α}
    (hr : objection h w r = none) (ha : Records a w) : a.Ensures w (Judged h r w) :=
  .inr ⟨hr, .inr ha.grows⟩

/-- Making a reply of a result does not change what became of the operation. -/
lemma judged_reply {h : Host D} {r : Request D} {w : World D} {a : Act (World D) α}
    {k : α → Act (World D) Reply} (ha : a.Ensures w (Judged h r w))
    (hk : ∀ x v, ∃ y, (k x).outcome v = (.ok y, v)) : (a >>= k).Ensures w (Judged h r w) := by
  refine ha.bind (fun x v hv => ?_) fun f v hv => ?_
  · obtain ⟨y, hy⟩ := hk x v
    refine Act.ensures_of_outcome hy ?_
    rcases hv with ⟨f, -, hf, -⟩ | ⟨hnone, -⟩
    · cases hf
    · exact .ok hnone y
  · rcases hv with ⟨g, hg, hf, hquiet⟩ | ⟨hnone, ⟨x, hx⟩ | hgrows⟩
    · cases hf
      exact .inl ⟨_, hg, rfl, hquiet⟩
    · cases hx
    · exact .inr ⟨hnone, .inr hgrows⟩

lemma sought_quietly (w : World D) (h : Host D) (entry : Option D.Instr) :
    Quietly w (w.sought h entry) := by
  unfold Quietly
  obtain heq | ⟨text, heq⟩ := sought_cases w h entry <;> rw [heq]
  rfl

section

variable {h : Host D} {run : {α : Type} → Script D α → Act (World D) α}
  {fire : Ticket → Act (World D) Unit} (hrun : ∀ {α : Type} (s : Script D α), Adds (run s))
  (hfire : ∀ t, Adds (fire t)) {w : World D}

include hfire in
lemma start_judged (entry : Option D.Instr) :
    (start h fire entry).Ensures w (Judged h (.start entry) w) := by
  unfold Act.Ensures start
  rw [Act.outcome_bind, Act.outcome_get]
  rcases hs : w.engine.started with _ | _ <;> simp only [hs, Bool.false_eq_true, if_false, if_true]
  · have hobjection : objection h w (.start entry) = Fault.of (w.root h entry) := by
      simp [objection, hs]
    rw [Act.outcome_bind, rootEntry_outcome]
    rcases hr : w.root h entry with f | ⟨cursor, contents⟩
    · exact .inl ⟨f, by rw [hobjection, hr]; rfl, rfl, sought_quietly w h entry⟩
    · have hrest := (arm_records hfire h.scheduler .zero (w.sought h entry)).bind fun _ =>
        launch_adds h cursor contents
      refine .inr ⟨by rw [hobjection, hr]; rfl, .inr ?_⟩
      have hgrows := hrest.grows
      rwa [sought_deeds] at hgrows
  · exact .quiet (by simp [objection, hs])

lemma pause_judged : (pause h).Ensures w (Judged h .pause w) := by
  have hobjection (hr : w.engine.refusal "pause" = none) : objection h w .pause = none := hr
  exact pause_ensures (fun _ hr => .quiet hr) (fun hr _ => .ok (hobjection hr) ()) fun hr _ => .ok (hobjection hr) ()

include hfire in
lemma resume_judged : (resume h fire).Ensures w (Judged h .resume w) := by
  unfold Act.Ensures resume
  rw [requireLive_bind]
  rcases hr : w.engine.refusal "resume" with _ | f
  · have hobjection : objection h w .resume = none := hr
    dsimp only
    rw [Act.outcome_bind, Act.outcome_get]
    dsimp only
    split_ifs
    · exact .ok hobjection ()
    · refine Judged.records hobjection ((arm_records hfire _ _ _).bind fun _ => Adds.get_bind fun v => ?_)
      split_ifs
      · exact transition_adds _ _
      · exact .pure _
  · exact .quiet hr

lemma setRate_judged (given : Option Value) :
    (setRate given).Ensures w (Judged h (.rate given) w) := by
  unfold Act.Ensures
  rw [setRate_outcome]
  split_ifs with hp
  · exact .quiet (by simp [objection, hp])
  · have hobjection : objection h w (.rate given) = given.bind fun v => Fault.of (Rate.check v) := by
      simp [objection, hp]
    rcases given with _ | v
    · exact .ok hobjection ()
    · rcases hr : Rate.check v with f | rate <;> simp only [Option.map_some, Option.getD_some, hr]
      · exact .quiet (by rw [hobjection, Option.bind_some, hr]; rfl)
      · exact .ok (by rw [hobjection, Option.bind_some, hr]; rfl) ()

/-- Once it is not objected to, the end is announced. -/
lemma terminate_judged (hw : w.Mortal) (farewell : Option D.Farewell) :
    (∃ f, objection h w (.terminate farewell) = some f ∧ (terminate h).outcome w = (.error f, w)) ∨
      objection h w (.terminate farewell) = none ∧
        (terminate h).outcome w = (.ok (), w.ended h.scheduler) := by
  rcases hs : w.engine.started with _ | _
  · exact .inl ⟨.notStarted "terminate", by simp [objection, hs], by simp [terminate, hs]⟩
  · by_cases hp : w.engine.phase = .terminated
    · exact .inl ⟨.alreadyTerminated, by simp [objection, hs, hp], by simp [terminate, hs, hp]⟩
    · have hmay : mayFollow w.engine.phase .terminated = true := mayFollow_terminated (hw.started_iff.mp hs) hp
      exact .inr ⟨by simp [objection, hs, hp], terminate_outcome h w hs hmay⟩

include hfire in
lemma spawn_judged (entry : Option D.Instr) (scope : ScopeChoice D) :
    (spawn h fire entry scope).Ensures w (Judged h (.spawn entry scope) w) := by
  unfold Act.Ensures spawn
  rw [requireLive_bind]
  rcases hr : w.engine.refusal "spawn" with _ | f
  · have hobjection : objection h w (.spawn entry scope) =
        if w.engine.phase = .halted then some .isHalted else Fault.of (derivedEntry h entry) := by
      simp [objection, hr]
    dsimp only
    rw [Act.outcome_bind, Act.outcome_get]
    dsimp only
    split_ifs with hp
    · exact .quiet (by simp [hobjection, hp])
    · rw [if_neg hp] at hobjection
      rcases hi : derivedEntry h entry with f | i <;> rw [hi] at hobjection
      · exact .quiet hobjection
      · refine Judged.records hobjection (.bind_ok (Act.outcome_ofExcept _ w) (continues_refl w) ?_)
        refine .bind_ok (addStrand_outcome h w _ _) (continues_of_deeds rfl) ?_
        refine .bind_ok (modifyEngine_outcome _ _) (continues_of_deeds rfl) ?_
        refine (emit_records _ _).discard.bind fun _ => Adds.get_bind fun v => ?_
        split_ifs
        · exact .bind (arm_adds hfire _ _) fun _ => .pure _
        · exact .pure _
  · exact .quiet (by simp [objection, hr])

include hrun hfire in
/-- A manual step halts the engine, or goes to an instruction. -/
lemma manualStep_judged (hobjection : objection h w .step = none) (hp : w.engine.phase = .paused) :
    (executeStep h run fire true).Ensures w (Judged h .step w) := by
  by_cases hl : w.engine.live = []
  · exact Act.ensures_of_outcome (executeStep_empty h run fire w true hl (.inr hp)) (.ok hobjection _)
  · have hproceed := proceed_records hrun hfire (h := h) w.engine.nextSeq w.engine.turned.atTurn
      (w.engine.cursor w.engine.turned.atTurn) true w.turned
    have hout : (executeStep h run fire true).outcome w =
        (proceed h run fire w.engine.nextSeq w.engine.turned.atTurn
          (w.engine.cursor w.engine.turned.atTurn) true).outcome w.turned := by
      rw [executeStep_outcome h run fire w true hl rfl rfl]
      rfl
    have hturned : w.Continues w.turned := by
      have hselect := select_adds w
      rwa [select_outcome] at hselect
    refine .inr ⟨hobjection, .inr ?_⟩
    rw [hout]
    exact hturned.size_le.trans_lt hproceed.grows

include hrun hfire in
lemma step_judged (hw : w.Mortal) : (step h run fire).Ensures w (Judged h .step w) := by
  have hobjection (hs : w.engine.started = true) (hp : w.engine.phase = .halted ∨ w.engine.phase = .paused) :
      objection h w .step = none := by
    rcases hp with hp | hp <;> simp [objection, Engine.refusal, hs, hp]
  refine step_ensures (fun f hf => .quiet hf) (fun hhalted => ?_) fun hs hphase => ?_
  · exact .ok (hobjection (hw.started_iff.mpr (by simp [hhalted])) (.inl hhalted)) _
  · have hpaused := hphase.resolve_left (hw.started_iff.mp hs)
    exact manualStep_judged hrun hfire (hobjection hs (.inr hpaused)) hpaused

end

/-- Every lifecycle operation is refused without effect, succeeds, or does something. -/
theorem serve_judged (h : Host D) (rounds depth : Nat) {w : World D} (hw : w.Mortal) {r : Request D}
    (hr : r.IsLifecycle) : (serve h rounds (depth + 1) r).Ensures w (Judged h r w) := by
  have hrun {α : Type} (s : Script D α) : Adds (runScript (serve h rounds depth) s) :=
    runScript_adds (serve_adds h rounds depth) s
  have hfire (t : Ticket) : Adds (discard (serve h rounds depth (.fire t))) :=
    .discard (serve_adds h rounds depth _)
  cases r with
  | start entry => exact judged_reply (start_judged hfire entry) fun _ _ => ⟨_, rfl⟩
  | pause => exact judged_reply pause_judged fun _ _ => ⟨_, rfl⟩
  | resume => exact judged_reply (resume_judged hfire) fun _ _ => ⟨_, rfl⟩
  | rate given => exact judged_reply (setRate_judged given) fun _ _ => ⟨_, rfl⟩
  | breakpoints on => exact .ok rfl _
  | spawn entry scope => exact judged_reply (spawn_judged hfire entry scope) fun _ _ => ⟨_, rfl⟩
  | step => exact judged_reply (step_judged hrun hfire hw) fun _ _ => ⟨_, rfl⟩
  | terminate farewell =>
    unfold Act.Ensures serve perform
    dsimp only
    rw [Act.outcome_bind]
    rcases terminate_judged (h := h) hw farewell with ⟨f, hf, hout⟩ | ⟨hnone, hout⟩ <;> rw [hout]
    · exact .quiet hf
    · cases farewell with
      | none => exact .ok hnone _
      | some f =>
        have hadds := Adds.bind (hrun (h.farewell f)) (fun _ => .pure Reply.self) (w.ended h.scheduler)
        have hgrows := hadds.size_le
        rw [ended_deeds, Array.size_push] at hgrows
        exact .inr ⟨hnone, .inr hgrows⟩
  | _ => exact hr.elim

/-- A request is declined: it fails, and nothing was announced, begun or deferred on the way. -/
def Declines (h : Host D) (rounds depth : Nat) (w : World D) (r : Request D) (f : Fault) : Prop :=
  ∃ v, (serve h rounds (depth + 1) r).outcome w = (.error f, v) ∧ v.deeds = w.deeds

section

variable {h : Host D} {rounds depth : Nat} {w : World D} {r : Request D} {f : Fault}

/-- What is objected to is declined, and nothing changes but the journal. -/
lemma declined (rounds depth : Nat) (hw : w.Mortal) (hr : r.IsLifecycle) (hf : objection h w r = some f) :
    ∃ v, (serve h rounds (depth + 1) r).outcome w = (.error f, v) ∧ Quietly w v := by
  rcases hout : (serve h rounds (depth + 1) r).outcome w with ⟨o, v⟩
  have hjudged := serve_judged h rounds depth hw hr
  rw [Act.Ensures, hout] at hjudged
  rcases hjudged with ⟨g, hg, rfl, hquiet⟩ | ⟨hnone, -⟩
  · cases hg.symm.trans hf
    exact ⟨v, rfl, hquiet⟩
  · cases hnone.symm.trans hf

/-- Declining is objecting. -/
lemma declines_iff (hw : w.Mortal) (hr : r.IsLifecycle) :
    Declines h rounds depth w r f ↔ objection h w r = some f := by
  constructor
  · rintro ⟨v, hout, hdeeds⟩
    have hjudged := serve_judged h rounds depth hw hr
    rw [Act.Ensures, hout] at hjudged
    rcases hjudged with ⟨g, hg, hfg, -⟩ | ⟨-, ⟨x, hx⟩ | hgrows⟩
    · cases hfg
      exact hg
    · cases hx
    · change w.deeds.size < v.deeds.size at hgrows
      rw [hdeeds] at hgrows
      exact absurd hgrows (lt_irrefl _)
  · intro hf
    obtain ⟨v, hout, hquiet⟩ := declined rounds depth hw hr hf
    unfold Quietly at hquiet
    refine ⟨v, hout, ?_⟩
    rw [hquiet]

end

/-- While a run is alive, no operation is refused for want of it. -/
lemma Mortal.refusal_eq_none {w : World D} (hw : w.Mortal) (hidle : w.engine.phase ≠ .idle)
    (hp : w.engine.phase ≠ .terminated) (operation : String) : w.engine.refusal operation = none := by
  have hs : w.engine.started = true := hw.started_iff.mpr hidle
  simp [Engine.refusal, hs, hp]

lemma refusal_kind {e : Engine D} {operation : String} {f : Fault}
    (hf : e.refusal operation = some f) : f.kind ≠ .halted ∧ f.kind ≠ .lifecycle := by
  unfold Engine.refusal at hf
  split_ifs at hf <;> cases hf <;> exact ⟨nofun, nofun⟩

/-- What the operations that need a run object to when there is none, or none any more; otherwise they
object to something else. -/
lemma objection_life (h : Host D) {w : World D} {r : Request D} (hr : r.NeedsLife) :
    (w.engine.started = false → ∃ f, objection h w r = some f ∧ f.kind = .notStarted) ∧
      (w.engine.started = true → w.engine.phase = .terminated →
        ∃ f, objection h w r = some f ∧ f.kind = .terminated) ∧
      (w.engine.started = true → w.engine.phase ≠ .terminated →
        ∀ f, objection h w r = some f → f.kind ≠ .notStarted ∧ f.kind ≠ .terminated) := by
  have hrefusal (operation : String) :
      (w.engine.started = false → w.engine.refusal operation = some (.notStarted operation)) ∧
      (w.engine.started = true → w.engine.phase = .terminated →
        w.engine.refusal operation = some (.isTerminated operation)) ∧
      (w.engine.started = true → w.engine.phase ≠ .terminated →
        w.engine.refusal operation = none) := by
    unfold Engine.refusal
    refine ⟨fun hs => by simp [hs], fun hs hp => by simp [hs, hp], fun hs hp => by simp [hs, hp]⟩
  refine ⟨fun hs => ?_, fun hs hp => ?_, fun hs hp f hf => ?_⟩
  · cases r with
    | pause => exact ⟨_, (hrefusal _).1 hs, rfl⟩
    | resume => exact ⟨_, (hrefusal _).1 hs, rfl⟩
    | terminate farewell => exact ⟨_, if_pos (by simp [hs]), rfl⟩
    | spawn entry scope => exact ⟨_, by rw [objection, (hrefusal _).1 hs]; rfl, rfl⟩
    | step => exact ⟨_, by rw [objection, (hrefusal _).1 hs]; rfl, rfl⟩
    | _ => exact hr.elim
  · cases r with
    | pause => exact ⟨_, (hrefusal _).2.1 hs hp, rfl⟩
    | resume => exact ⟨_, (hrefusal _).2.1 hs hp, rfl⟩
    | terminate farewell => exact ⟨.alreadyTerminated, by simp [objection, hs, hp], rfl⟩
    | spawn entry scope => exact ⟨_, by rw [objection, (hrefusal _).2.1 hs hp]; rfl, rfl⟩
    | step => exact ⟨_, by rw [objection, (hrefusal _).2.1 hs hp]; rfl, rfl⟩
    | _ => exact hr.elim
  · cases r with
    | pause => cases ((hrefusal _).2.2 hs hp).symm.trans hf
    | resume => cases ((hrefusal _).2.2 hs hp).symm.trans hf
    | terminate farewell => simp [objection, hs, hp] at hf
    | spawn entry scope =>
      rw [objection, (hrefusal _).2.2 hs hp, Option.none_or] at hf
      split_ifs at hf
      · cases hf
        exact ⟨nofun, nofun⟩
      · rcases (derivedEntry_error_iff.mp (Fault.of_eq_some.mp hf)).kind with hkind | hkind <;> simp [hkind]
    | step =>
      rw [objection, (hrefusal _).2.2 hs hp, Option.none_or] at hf
      split_ifs at hf
      cases hf
      exact ⟨nofun, nofun⟩
    | _ => exact hr.elim

/-- Rates are turned down for what they are, never for the state of the engine. -/
lemma rateCheck_kind {given : Value} {f : Fault} (hf : Rate.check given = .error f) :
    f.kind ≠ .terminated := by
  have hrefusal : (given.refusal .rateRejected).kind ≠ .terminated := by
    rcases hgiven : given.isWritable with _ | _
    · simp [given.refusal_of_unwritable _ hgiven, Fault.kind]
    · simp [given.refusal_of_writable _ hgiven, Fault.kind]
  unfold Rate.check at hf
  split at hf
  · cases hf
    exact hrefusal
  · split at hf
    · split_ifs at hf
      cases hf
      exact hrefusal
    · cases hf
      simp [Fault.kind]
    · cases hf
      exact hrefusal

/-- The refusals of a world: which lifecycle operations it declines, and with which faults. -/
structure Refuses (h : Host D) (rounds depth : Nat) (w : World D) : Prop where
  /-- A start is declined once the run was started. -/
  again : w.engine.started = true → ∀ entry f,
    (Declines h rounds depth w (.start entry) f ↔ f = .alreadyStarted)
  /-- Before that, it is declined only for the place where the run is to start. -/
  root : w.engine.started = false → ∀ entry f,
    (Declines h rounds depth w (.start entry) f ↔ BadRoot h w.memory entry f)
  unstarted : ∀ r : Request D, r.NeedsLife →
    ((∃ f, f.kind = .notStarted ∧ Declines h rounds depth w r f) ↔ w.engine.started = false)
  terminated : ∀ r : Request D, r.NeedsLife ∨ (∃ given, r = .rate given) →
    ((∃ f, f.kind = .terminated ∧ Declines h rounds depth w r f) ↔ w.engine.phase = .terminated)
  halted : ∀ entry scope,
    ((∃ f, f.kind = .halted ∧ Declines h rounds depth w (.spawn entry scope) f) ↔
      w.engine.phase = .halted)
  running : (∃ f, f.kind = .lifecycle ∧ Declines h rounds depth w .step f) ↔ w.engine.phase = .running
  entry : w.engine.phase = .running ∨ w.engine.phase = .paused → ∀ entry scope f,
    (Declines h rounds depth w (.spawn entry scope) f ↔ BadEntry h entry f)
  rate : w.engine.phase ≠ .terminated → ∀ given f,
    (Declines h rounds depth w (.rate given) f ↔ ∃ v, given = some v ∧ Rate.check v = .error f)
  /-- Whatever is declined leaves a note at most. -/
  atomic : ∀ r : Request D, r.IsLifecycle → ∀ f, Declines h rounds depth w r f →
    ∃ v, (serve h rounds (depth + 1) r).outcome w = (.error f, v) ∧ Quietly w v

/-- A kind of fault is declined with just where it is objected. -/
lemma declines_kind_iff {h : Host D} {rounds depth : Nat} {w : World D} {r : Request D} {kind : FaultKind} {c : Prop}
    (hw : w.Mortal) (hr : r.IsLifecycle) (hyes : c → ∃ f, objection h w r = some f ∧ f.kind = kind)
    (hno : ∀ f, objection h w r = some f → f.kind = kind → c) :
    (∃ f, f.kind = kind ∧ Declines h rounds depth w r f) ↔ c := by
  constructor
  · rintro ⟨f, hkind, hf⟩
    exact hno f ((declines_iff hw hr).mp hf) hkind
  · intro hc
    obtain ⟨f, hf, hkind⟩ := hyes hc
    exact ⟨f, hkind, (declines_iff hw hr).mpr hf⟩

lemma Mortal.refuses (h : Host D) (rounds depth : Nat) {w : World D} (hw : w.Mortal) :
    Refuses h rounds depth w where
  again hs entry f := by
    rw [declines_iff (r := .start entry) hw trivial]
    simp [objection, hs, eq_comm]
  root hs entry f := by
    rw [declines_iff (r := .start entry) hw trivial, ← root_error_iff]
    simp [objection, hs]
  unstarted r hr := by
    obtain ⟨hfalse, hend, hlive⟩ := objection_life h (w := w) hr
    refine declines_kind_iff hw hr.isLifecycle hfalse fun f hf hkind => ?_
    by_contra hs
    rw [Bool.not_eq_false] at hs
    by_cases hp : w.engine.phase = .terminated
    · obtain ⟨g, hg, hgkind⟩ := hend hs hp
      cases hg.symm.trans hf
      cases hgkind.symm.trans hkind
    · exact (hlive hs hp f hf).1 hkind
  terminated r hr := by
    rcases hr with hr | ⟨given, rfl⟩
    · obtain ⟨hfalse, hend, hlive⟩ := objection_life h (w := w) hr
      refine declines_kind_iff hw hr.isLifecycle (fun hp => ?_) fun f hf hkind => ?_
      · exact hend (hw.started_iff.mpr (by simp [hp])) hp
      · by_contra hp
        cases hs : w.engine.started
        · obtain ⟨g, hg, hgkind⟩ := hfalse hs
          cases hg.symm.trans hf
          cases hgkind.symm.trans hkind
        · exact (hlive hs hp f hf).2 hkind
    · refine declines_kind_iff (r := .rate given) hw trivial (fun hp => ?_) fun f hf hkind => ?_
      · exact ⟨.rateAfterTermination, by simp [objection, hp], rfl⟩
      · by_contra hp
        simp only [objection, hp, if_false, Option.bind_eq_some_iff, Fault.of_eq_some] at hf
        obtain ⟨v, -, hv⟩ := hf
        exact rateCheck_kind hv hkind
  halted entry scope := by
    refine declines_kind_iff (r := .spawn entry scope) hw trivial (fun hp => ?_) fun f hf hkind => ?_
    · have hr := hw.refusal_eq_none (by simp [hp]) (by simp [hp]) "spawn"
      exact ⟨.isHalted, by simp [objection, hr, hp], rfl⟩
    · by_contra hp
      rw [objection] at hf
      rcases hr : w.engine.refusal "spawn" with _ | g <;> simp only [hr, hp, if_false] at hf
      · rw [Option.none_or, Fault.of_eq_some, derivedEntry_error_iff] at hf
        rcases hf.kind with hmalformed | hvalue
        · cases hmalformed.symm.trans hkind
        · cases hvalue.symm.trans hkind
      · cases hf
        exact absurd hkind (refusal_kind hr).1
  running := by
    refine declines_kind_iff (r := .step) hw trivial (fun hp => ?_) fun f hf hkind => ?_
    · have hr := hw.refusal_eq_none (by simp [hp]) (by simp [hp]) "step"
      exact ⟨.stepWhileRunning, by simp [objection, hr, hp], rfl⟩
    · by_contra hp
      rw [objection] at hf
      rcases hr : w.engine.refusal "step" with _ | g <;> simp only [hr, hp, if_false] at hf
      · cases hf
      · cases hf
        exact absurd hkind (refusal_kind hr).2
  entry hp entry scope f := by
    have hphase : w.engine.phase ≠ .idle ∧ w.engine.phase ≠ .terminated ∧ w.engine.phase ≠ .halted := by
      rcases hp with hp | hp <;> simp [hp]
    have hr := hw.refusal_eq_none hphase.1 hphase.2.1 "spawn"
    rw [declines_iff (r := .spawn entry scope) hw trivial, ← derivedEntry_error_iff]
    simp [objection, hr, hphase.2.2]
  rate hp given f := by
    rw [declines_iff (r := .rate given) hw trivial]
    simp [objection, hp, Option.bind_eq_some_iff]
  atomic r hr f hf := declined rounds depth hw hr ((declines_iff hw hr).mp hf)

/-- Lifecycle faults are exact and a refusal changes nothing, in every world that a run reaches between
two moves and at every moment of an instruction that it executes. -/
theorem refusals_exact_and_atomic (h : Host D) (rounds depth : Nat) :
    (∀ w : World D, w.Mortal → Refuses h rounds depth w) ∧
    (∀ (fit : D.Clock → Prop) (P : D.Memory → Prop) (w : World D), Fresh fit P w →
      ∀ moves, (w.replay h rounds depth moves).Mortal) ∧
    ∀ (w v : World D) (sid : Nat) (i : D.Instr) (scope : Nat) (manual : Bool) (rest : Script D Unit),
      w.Mortal →
      Reaches (serve h rounds depth) (h.code i scope) (w.executing sid i manual) rest v → v.Mortal :=
  ⟨fun _ hw => hw.refuses h rounds depth, fun _ _ _ hw moves => replay_mortal moves hw.mortal,
    fun _ _ sid i _ manual _ hw hs => hs.mortal (hw.executing sid i manual)⟩

/-- A run that was just started declines a further start, and a step because it is running. -/
theorem unruly_refuses :
    let r := Block.unrulyRun .manual
    let w := r.world.replay r.host 1 5 [.operate (.start none)]
    Declines r.host 1 5 w (.start none) .alreadyStarted ∧
      ∃ f, f.kind = .lifecycle ∧ Declines r.host 1 5 w .step f := by
  intro r w
  have hfresh : Fresh (fun _ => True) Block.Memory.Calm r.world := Block.unrulyRun_fresh .manual trivial
  obtain ⟨hrefuses, hmortal, -⟩ := refusals_exact_and_atomic r.host 1 5
  have hw : Refuses r.host 1 5 w := hrefuses w (hmortal _ _ r.world hfresh _)
  have hstarted : w.engine.started = true := by decide +kernel
  have hrunning : w.engine.phase = .running := by decide +kernel
  exact ⟨(hw.again hstarted none _).mpr rfl, hw.running.mpr hrunning⟩

end World

/-- A block, an instruction that cannot be executed and a number too long to be written. -/
def Block.misfit : Block.Program where
  nodes := #[{ id := "rest", name := .str "rest" },
    { id := "gap", kind := .noExecute, name := .str "gap" },
    { id := "bulk", kind := .plain (.int (Nat.pow 10 5000)), name := .str "bulk" }]
  links := #[none, none, none]
  entry := .program (some 0) []

def Block.misfitRun : Block.Run where
  program := Block.misfit
  scope := []
  world := {
    engine := { breaking := false, rate := .zero, timeSlice := 1, historySize := 1024 }
    clock := { kind := .manual }
    memory := { links := Block.misfit.links, firstLinks := Block.misfit.links } }

lemma Block.misfitRun_prepared :
    Block.Run.prepare Block.misfit {} .manual none none .zero = .ok Block.misfitRun := rfl

/-- What is no instruction is not always refused as malformed: a run that was started declines a further start
first, and what no text can show is refused for that. -/
theorem World.misfits_not_malformed :
    let r := Block.misfitRun
    let w := r.world.replay r.host 1 5 [.operate (.start none)]
    Block.Run.prepare Block.misfit {} .manual none none .zero = .ok r ∧
      r.host.wellFormed 1 = false ∧ Declines r.host 1 5 w (.start (some 1)) .alreadyStarted ∧
      r.host.wellFormed 2 = false ∧ Declines r.host 1 5 r.world (.start (some 2)) .unwritable ∧
      Declines r.host 1 5 w (.spawn (some 2) .fresh) .unwritable ∧ Fault.unwritable.kind = .value := by
  intro r w
  have hprepared : Block.Run.prepare Block.misfit {} .manual none none .zero = .ok r := Block.misfitRun_prepared
  have hfresh : r.world.Fresh (fun _ => True) Block.Memory.Calm :=
    Block.Run.prepare_fresh hprepared nofun trivial
  have hmortal : r.world.Mortal := hfresh.mortal
  have hfirst : Refuses r.host 1 5 r.world := hmortal.refuses r.host 1 5
  have hlater : Refuses r.host 1 5 w := (replay_mortal _ hmortal).refuses r.host 1 5
  have hrunning : w.engine.phase = .running := by decide +kernel
  have hbulk : Unfit r.host (2 : Nat) .unwritable := .unshown rfl (by decide +kernel)
  exact ⟨hprepared, rfl, (hlater.again (by decide +kernel) _ _).mpr rfl, rfl,
    (hfirst.root rfl _ _).mpr (.entry hbulk), (hlater.entry (.inl hrunning) _ _ _).mpr (.entry hbulk), rfl⟩

end Loom
