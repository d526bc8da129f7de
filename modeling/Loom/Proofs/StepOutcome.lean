import Loom.Proofs.Outcome

/-! One step of an engine in closed form: how an instruction is executed, and what follows its return or
its fault. -/
namespace Loom

namespace Engine

variable {D : Dialect}

/-- An engine whose strand has completed an instruction. -/
@[simps! run live index sliceUsed phase started breaking rate timeSlice pending token stepping skip
  totalSteps historySize history nextSeq]
def stepped (e : Engine D) (sid : Nat) : Engine D :=
  e.updateStrand sid fun s => { s with steps := s.steps + 1 }

/-- An engine whose strand has moved to another instruction, or to none. -/
@[simps! run live index sliceUsed phase started breaking rate timeSlice pending token stepping skip
  totalSteps historySize history nextSeq]
def movedTo (e : Engine D) (sid : Nat)
    (cursor : Option D.Instr) : Engine D :=
  e.updateStrand sid fun s => { s with cursor }

/-- An engine that has counted a step. -/
@[simps] def counted (e : Engine D) : Engine D :=
  { e with totalSteps := e.totalSteps + 1, sliceUsed := e.sliceUsed + 1 }

/-- An engine that has counted a step which failed after the instruction was completed. -/
@[simps] def recounted (e : Engine D) (sid before : Nat) : Engine D :=
  { e with totalSteps := if before < e.steps sid then e.totalSteps + 1 else e.totalSteps }

@[simps] def inStep (e : Engine D) (stepping : Bool) : Engine D := { e with stepping }

section Cursor

variable (e : Engine D)

lemma cursor_stepped (sid n : Nat) : (e.stepped sid).cursor n = e.cursor n := by
  simp only [cursor, strand?, stepped, updateStrand, Array.getElem?_modify]
  split_ifs with heq
  · subst heq
    cases e.strands[sid]? <;> rfl
  · rfl

lemma cursor_movedTo (sid n : Nat) (cursor : Option D.Instr) :
    (e.movedTo sid cursor).cursor n = if sid = n then (e.strand? n).bind fun _ => cursor else e.cursor n := by
  simp only [Engine.cursor, strand?, movedTo, updateStrand, Array.getElem?_modify]
  split_ifs with heq
  · subst heq
    cases e.strands[sid]? <;> rfl
  · rfl

lemma cursor_withStrand (strand : Strand D) (n : Nat) :
    (e.withStrand strand).cursor n = if n = e.strands.size then strand.cursor else e.cursor n := by
  simp only [cursor, strand?, withStrand_strands, Array.getElem?_push]
  split_ifs <;> rfl

lemma lt_size_of_cursor {e : Engine D} {n : Nat} {i : D.Instr} (h : e.cursor n = some i) :
    n < e.strands.size := by
  by_contra hn
  have hnone : e.strands[n]? = none := Array.getElem?_eq_none (by omega)
  simp [cursor, strand?, hnone] at h

end Cursor

end Engine

namespace World

variable {D : Dialect}

/-- The world after an instruction was completed. -/
def completed (w : World D) (sid : Nat) (i : D.Instr) : World D :=
  (w.altered (·.stepped sid)).recorded (.returned sid i)

@[simp] lemma completed_engine (w : World D) (sid : Nat) (i : D.Instr) :
    (w.completed sid i).engine = w.engine.stepped sid := rfl

@[simp] lemma completed_clock (w : World D) (sid : Nat) (i : D.Instr) :
    (w.completed sid i).clock = w.clock := rfl

@[simp] lemma completed_memory (w : World D) (sid : Nat) (i : D.Instr) :
    (w.completed sid i).memory = w.memory := rfl

@[simp] lemma completed_deeds (w : World D) (sid : Nat) (i : D.Instr) :
    (w.completed sid i).deeds = w.deeds.push (.returned sid i) := rfl

/-- What becomes of a strand whose instruction was completed. -/
def followed (h : Host D) (w : World D) (sid : Nat) (i : D.Instr) : Except Fault Bool × World D :=
  match h.next w.memory i with
  | .error f => (.error f, w)
  | .ok none => (.ok false, w.altered (·.movedTo sid none))
  | .ok (some j) =>
    if h.wellFormed j then (.ok true, w.altered (·.movedTo sid (some j)))
    else (.error (h.refusal .successor j), w.altered (·.movedTo sid none))

lemma advance_outcome (h : Host D) (run : Script D Unit → Act (World D) Unit) (w : World D)
    (slot : Nat) (sid : Int) (manual : Bool) :
    (advance h run slot sid manual).outcome w = match w.engine.strand? slot with
      | none => (.error (.strandHalted sid), w)
      | some strand =>
        match strand.cursor with
        | none => (.error (.strandHalted sid), w)
        | some i =>
          match (run (h.code i strand.scope)).outcome
              (w.recorded (.began slot i w.engine.phase manual)) with
          | (.error f, v) => (.error f, v)
          | (.ok (), v) => (v.completed slot i).followed h slot i := by
  unfold advance
  rcases hs : w.engine.strand? slot with _ | strand
  · simp [hs]
  · rcases hc : strand.cursor with _ | i
    · simp [hs, hc]
    · simp only [Act.outcome_bind, Act.outcome_get, hs, hc, record_outcome]
      rcases (run (h.code i strand.scope)).outcome
        (w.recorded (.began slot i w.engine.phase manual)) with ⟨f | _, v⟩
      · rfl
      · have hv : (v.altered fun e => e.updateStrand slot fun s => { s with steps := s.steps + 1 }).recorded
            (.returned slot i) = v.completed slot i := rfl
        simp only [modifyEngine_outcome, hv, Act.outcome_ofExcept]
        unfold followed
        rcases hn : h.next (v.completed slot i).memory i with f | _ | j
        · rfl
        · rfl
        · by_cases hj : h.wellFormed j = true
          · simp only [hj, if_true]
            rfl
          · simp only [hj]
            rfl

/-- The world after counting and announcing a step. -/
def announced (w : World D) (h : Host D) (sid : Nat) (cursor : Option D.Instr) (hasNext : Bool) :
    World D :=
  let label := (cursor.map h.label).getD "None"
  ((w.altered (·.counted)).noted .debug .process s!"strand {sid} executed {label}").emitted
    (.stepped sid label ((w.engine.cursor sid).map h.label) hasNext (w.engine.steps sid))

@[simp] lemma announced_engine (w : World D) (h : Host D) (sid : Nat) (cursor : Option D.Instr)
    (hasNext : Bool) : (w.announced h sid cursor hasNext).engine = w.engine.counted.heard
      (w.event (.stepped sid ((cursor.map h.label).getD "None") ((w.engine.cursor sid).map h.label)
        hasNext (w.engine.steps sid))) := rfl

@[simp] lemma announced_clock (w : World D) (h : Host D) (sid : Nat) (cursor : Option D.Instr)
    (hasNext : Bool) : (w.announced h sid cursor hasNext).clock = w.clock := rfl

@[simp] lemma announced_memory (w : World D) (h : Host D) (sid : Nat) (cursor : Option D.Instr)
    (hasNext : Bool) : (w.announced h sid cursor hasNext).memory = w.memory := rfl

@[simp] lemma announced_deeds (w : World D) (h : Host D) (sid : Nat) (cursor : Option D.Instr)
    (hasNext : Bool) : (w.announced h sid cursor hasNext).deeds = w.deeds.push (.emitted
      (w.event (.stepped sid ((cursor.map h.label).getD "None") ((w.engine.cursor sid).map h.label)
        hasNext (w.engine.steps sid)))) := rfl

/-- The end of a step: halt for want of strands, or defer the next step, or leave it at that. -/
def wound (w : World D) (h : Host D) (manual : Bool) : Except Fault Unit × World D :=
  if (w.engine.phase = .running ∨ w.engine.phase = .paused) ∧ w.engine.live = [] then
    (.ok (), (w.disarmed h.scheduler).entered .halted "no live strands")
  else if w.engine.phase = .running ∧ manual = false then w.deferred h.scheduler w.engine.rate
  else (.ok (), w)

lemma windUp_outcome (h : Host D) (fire : Ticket → Act (World D) Unit) (w : World D) (manual : Bool)
    (ha : w.Postpones h fire) :
    (windUp h fire manual).outcome w = w.wound h manual := by
  unfold windUp wound
  simp only [Act.outcome_bind, Act.outcome_get, List.isEmpty_iff, Bool.not_eq_true']
  split_ifs with hl
  · exact halt_outcome h.scheduler w (mayFollow_halted hl.1)
  · exact ha w rfl rfl w.engine.rate
  · rfl

/-- The strands that remain in play after a step. -/
def kept (w : World D) (sid : Nat) (hasNext : Bool) : World D := if hasNext then w else w.retired sid

/-- An instruction that was executed is counted and announced; a run that has ended leaves it at that. -/
lemma conclude_announced (h : Host D) (fire : Ticket → Act (World D) Unit) (w : World D)
    (mark sid : Nat) (cursor : Option D.Instr) (hasNext manual : Bool) :
    (conclude h fire mark sid cursor hasNext manual).outcome w =
      (do
        if w.engine.phase ≠ .terminated then do
          if !hasNext then retire h sid
          windUp h fire manual
        result mark 1 (some sid) hasNext : Act (World D) StepResult).outcome
        (w.announced h sid cursor hasNext) := by
  have hcount : (w.altered fun e =>
      { e with totalSteps := e.totalSteps + 1, sliceUsed := e.sliceUsed + 1 }) =
      w.altered (·.counted) := rfl
  have hfirst (label : String) (hl : label = (cursor.map h.label).getD "None") :
      (((w.altered (·.counted)).noted .debug .process s!"strand {sid} executed {label}").emitted
        (.stepped sid label (((((w.altered (·.counted)).noted .debug .process
          s!"strand {sid} executed {label}").engine.cursor sid).map h.label)) hasNext
          (((w.altered (·.counted)).noted .debug .process
            s!"strand {sid} executed {label}").engine.steps sid))) =
        w.announced h sid cursor hasNext := by
    subst hl
    rfl
  have hphase : (w.announced h sid cursor hasNext).engine.phase = w.engine.phase := rfl
  unfold conclude
  simp only [Act.outcome_bind, Act.outcome_get, modifyEngine_outcome, hcount, note_outcome,
    Act.outcome_discard, emit_own _ (.stepped ..) trivial, Act.except_map_ok, hfirst _ rfl, hphase]

lemma conclude_outcome (h : Host D) (fire : Ticket → Act (World D) Unit) (w : World D)
    (mark sid : Nat) (cursor : Option D.Instr) (hasNext manual : Bool)
    (hs : w.engine.phase = .terminated ∨ sid ∈ w.engine.live)
    (ha : w.Postpones h fire) :
    (conclude h fire mark sid cursor hasNext manual).outcome w =
      if w.engine.phase = .terminated then
        (.ok ((w.announced h sid cursor hasNext).report mark 1 (some sid) hasNext),
          w.announced h sid cursor hasNext)
      else match ((w.announced h sid cursor hasNext).kept sid hasNext).wound h manual with
        | (.error f, v) => (.error f, v)
        | (.ok (), v) => (.ok (v.report mark 1 (some sid) hasNext), v) := by
  rw [conclude_announced]
  by_cases ht : w.engine.phase = .terminated
  · simp [ht]
  · have hr : sid ∈ (w.announced h sid cursor hasNext).engine.live := hs.resolve_left ht
    have hk : ((w.announced h sid cursor hasNext).kept sid hasNext).Postpones h fire := by
      unfold kept
      cases hasNext <;> exact ha
    have hw := windUp_outcome h fire _ manual hk
    simp only [ne_eq, ht, not_false_eq_true, if_true, if_false]
    cases hasNext
    · simp only [Bool.not_false, if_true, Act.outcome_bind, retire_outcome h _ hr]
      change (windUp h fire manual).outcome ((w.announced h sid cursor false).retired sid) = _ at hw
      rw [hw]
      rcases ((w.announced h sid cursor false).kept sid false).wound h manual with ⟨f | _, v⟩ <;> rfl
    · simp only [Bool.not_true, Bool.false_eq_true, if_false, Act.outcome_bind]
      change (windUp h fire manual).outcome (w.announced h sid cursor true) = _ at hw
      rw [hw]
      rcases ((w.announced h sid cursor true).kept sid true).wound h manual with ⟨f | _, v⟩ <;> rfl

/-- The end of a step that failed: halt for want of strands, or pause. -/
def stumbled (w : World D) (h : Host D) : World D :=
  if w.engine.live = [] then (w.disarmed h.scheduler).entered .halted "no live strands"
  else if w.engine.phase = .running then w.entered .paused "error"
  else w

lemma stumble_outcome (h : Host D) (w : World D)
    (hp : w.engine.phase = .running ∨ w.engine.phase = .paused) :
    (stumble h).outcome w = (.ok (), w.stumbled h) := by
  unfold stumble stumbled
  simp only [Act.outcome_bind, Act.outcome_get, List.isEmpty_iff]
  split_ifs with hl hr
  · exact halt_outcome h.scheduler w (mayFollow_halted hp)
  · exact transition_outcome w .paused "error" (by rw [hr]; rfl)
  · rfl

/-- The world after a fault was noted, the deferred step called off and the step counted. -/
def reckoned (w : World D) (h : Host D) (sid before : Nat) (cursor : Option D.Instr) : World D :=
  let label := (cursor.map h.label).getD "None"
  ((w.noted .error .process s!"strand {sid} failed at {label}").disarmed h.scheduler).altered
    (·.recounted sid before)

section Reckoned

variable (w : World D) (h : Host D) (sid before : Nat) (cursor : Option D.Instr)

@[simp] lemma reckoned_engine : (w.reckoned h sid before cursor).engine =
    w.engine.disarmed.recounted sid before := rfl

@[simp] lemma reckoned_clock : (w.reckoned h sid before cursor).clock = (w.disarmed h.scheduler).clock := rfl

@[simp] lemma reckoned_memory : (w.reckoned h sid before cursor).memory = w.memory := rfl

@[simp] lemma reckoned_deeds : (w.reckoned h sid before cursor).deeds = w.deeds := rfl

end Reckoned

/-- The world after a fault was counted and announced in words. -/
def lamented (w : World D) (h : Host D) (sid before : Nat) (cursor : Option D.Instr) (f : Fault)
    (text : String) : World D :=
  (w.reckoned h sid before cursor).emitted (.failed sid text f.kind.name)

section Lamented

variable (w : World D) (h : Host D) (sid before : Nat) (cursor : Option D.Instr) (f : Fault) (text : String)

@[simp] lemma lamented_engine : (w.lamented h sid before cursor f text).engine =
    (w.engine.disarmed.recounted sid before).heard (w.event (.failed sid text f.kind.name)) := rfl

@[simp] lemma lamented_clock :
    (w.lamented h sid before cursor f text).clock = (w.disarmed h.scheduler).clock := rfl

@[simp] lemma lamented_memory : (w.lamented h sid before cursor f text).memory = w.memory := rfl

@[simp] lemma lamented_deeds : (w.lamented h sid before cursor f text).deeds =
    w.deeds.push (.emitted (w.event (.failed sid text f.kind.name))) := rfl

end Lamented

/-- The world after cleaning up behind a failing instruction. -/
def recovered (w : World D) (h : Host D) (sid before : Nat) (cursor : Option D.Instr) (f : Fault)
    (text : String) : World D :=
  let v := w.lamented h sid before cursor f text
  if w.engine.phase = .terminated then v
  else (v.kept sid (w.engine.cursor sid).isSome).stumbled h

/-- A fault is counted and announced; a run that has ended leaves it at that. A fault that cannot be worded is
not announced, and then nothing else is done. -/
lemma recover_lamented (h : Host D) (w : World D) (sid before : Nat) (cursor : Option D.Instr)
    (f : Fault) :
    (recover h sid before cursor f).outcome w = match f.message with
      | .error g => (.error g, w.reckoned h sid before cursor)
      | .ok text =>
        (do
          if w.engine.phase ≠ .terminated then do
            if (w.engine.cursor sid).isNone then retire h sid
            stumble h : Act (World D) Unit).outcome (w.lamented h sid before cursor f text) := by
  have hfirst (label : String) (hl : label = (cursor.map h.label).getD "None") :
      ((w.noted .error .process s!"strand {sid} failed at {label}").disarmed h.scheduler).altered
        (fun e => { e with
          totalSteps := if before < e.steps sid then e.totalSteps + 1 else e.totalSteps }) =
        w.reckoned h sid before cursor := by
    subst hl
    rfl
  unfold recover
  simp only [Act.outcome_bind, modifyEngine_outcome, note_outcome, disarm_outcome, hfirst _ rfl,
    Act.outcome_ofExcept]
  rcases f.message with g | text
  · rfl
  · have htold : (w.reckoned h sid before cursor).emitted (.failed sid text f.kind.name) =
        w.lamented h sid before cursor f text := rfl
    have hphase : (w.lamented h sid before cursor f text).engine.phase = w.engine.phase := rfl
    have hcursor : (w.lamented h sid before cursor f text).engine.cursor sid = w.engine.cursor sid := rfl
    simp only [Act.outcome_discard, emit_own _ (.failed ..) trivial, Act.except_map_ok, htold,
      Act.outcome_get, hphase]
    by_cases ht : w.engine.phase = .terminated
    · simp [ht]
    · simp only [ne_eq, ht, not_false_eq_true, if_true, Act.outcome_bind, Act.outcome_get, hcursor]

lemma recover_outcome (h : Host D) (w : World D) (sid before : Nat) (cursor : Option D.Instr)
    (f : Fault)
    (hs : w.engine.phase = .terminated ∨
      (w.engine.phase = .running ∨ w.engine.phase = .paused) ∧ sid ∈ w.engine.live) :
    (recover h sid before cursor f).outcome w = match f.message with
      | .error g => (.error g, w.reckoned h sid before cursor)
      | .ok text => (.ok (), w.recovered h sid before cursor f text) := by
  rw [recover_lamented]
  rcases f.message with g | text
  · rfl
  · unfold recovered
    by_cases ht : w.engine.phase = .terminated
    · simp [ht]
    · obtain ⟨hp, hl⟩ := hs.resolve_left ht
      simp only [ne_eq, ht, not_false_eq_true, if_true, if_false]
      rcases w.engine.cursor sid with _ | i
      · simp only [Option.isNone_none, if_true, Act.outcome_bind,
          retire_outcome h (w.lamented h sid before cursor f text) hl]
        exact stumble_outcome h ((w.lamented h sid before cursor f text).retired sid) hp
      · exact stumble_outcome h (w.lamented h sid before cursor f text) hp

lemma proceed_outcome (h : Host D) (run : {α : Type} → Script D α → Act (World D) α)
    (fire : Ticket → Act (World D) Unit) (w : World D) (mark sid : Nat) (cursor : Option D.Instr)
    (manual : Bool) :
    (proceed h run fire mark sid cursor manual).outcome w =
      match (advance h run sid sid manual).outcome ((w.altered (·.passing none)).altered (·.inStep true)) with
      | (.ok hasNext, v) =>
        (conclude h fire mark sid cursor hasNext manual).outcome (v.altered (·.inStep false))
      | (.error f, v) =>
        if f.isOrdinary then
          match (recover h sid (w.engine.steps sid) cursor f).outcome v with
          | (.ok (), u) => (.error f, u.altered (·.inStep false))
          | (.error g, u) => (.error g, u.altered (·.inStep false))
        else (.error f, v.altered (·.inStep false)) := by
  have hfirst : ((w.altered fun e => { e with skip := none }).altered fun e =>
      { e with stepping := true }) = (w.altered (·.passing none)).altered (·.inStep true) := rfl
  unfold proceed
  simp only [Act.outcome_bind, Act.outcome_get, modifyEngine_outcome, hfirst, Act.outcome_attempt]
  rcases (advance h run sid sid manual).outcome
    ((w.altered (·.passing none)).altered (·.inStep true)) with ⟨f | hasNext, v⟩
  · have hbefore : (w.altered fun e => { e with skip := none }).engine.steps sid = w.engine.steps sid :=
      rfl
    cases hf : f.isOrdinary
    · simp [hf]
      rfl
    · simp only [hf, if_true, Act.outcome_bind, Act.outcome_attempt, hbefore]
      rcases (recover h sid (w.engine.steps sid) cursor f).outcome v with ⟨g | _, u⟩ <;> rfl
  · rfl

/-- What holds after a step that was not stopped: an instruction that returned is followed by the end of the step,
and a fault goes on to the caller, an ordinary one after it was cleaned up behind. -/
theorem proceed_ensures {h : Host D} {run : {α : Type} → Script D α → Act (World D) α}
    {fire : Ticket → Act (World D) Unit} {w : World D} {mark sid : Nat} {cursor : Option D.Instr} {manual : Bool}
    {A : Except Fault Bool → World D → Prop} {Q : Except Fault StepResult → World D → Prop}
    (hadvance : (advance h run sid sid manual).Ensures ((w.altered (·.passing none)).altered (·.inStep true)) A)
    (hreturned : ∀ hasNext v, A (.ok hasNext) v →
      (conclude h fire mark sid cursor hasNext manual).Ensures (v.altered (·.inStep false)) Q)
    (hfailed : ∀ f v, f.isOrdinary = true → A (.error f) v →
      (do
        recover h sid (w.engine.steps sid) cursor f
        throw f : Act (World D) StepResult).Ensures v fun o u => Q o (u.altered (·.inStep false)))
    (hbroken : ∀ f v, f.isOrdinary = false → A (.error f) v → Q (.error f) (v.altered (·.inStep false))) :
    (proceed h run fire mark sid cursor manual).Ensures w Q := by
  unfold Act.Ensures at *
  rw [proceed_outcome]
  rcases hout : (advance h run sid sid manual).outcome
    ((w.altered (·.passing none)).altered (·.inStep true)) with ⟨f | hasNext, v⟩ <;> rw [hout] at hadvance
  · dsimp only
    split_ifs with hf
    · have hclean := hfailed f v hf hadvance
      rw [Act.outcome_bind] at hclean
      rcases hrecovered : (recover h sid (w.engine.steps sid) cursor f).outcome v with ⟨g | _, u⟩ <;>
        rw [hrecovered] at hclean
      · exact hclean
      · exact hclean
    · exact hbroken f v (by simpa using hf) hadvance
  · exact hreturned hasNext v hadvance

/-- The turn is at one of the strands in play. -/
lemma turned_turn {e : Engine D} (hl : e.live ≠ []) : e.live[e.turned.index]? = some e.turned.atTurn := by
  have hpos : 0 < e.live.length := List.length_pos_iff.2 hl
  have hlt : e.turned.index < e.live.length := by
    simp only [Engine.turned_index, Engine.seat]
    split_ifs
    · exact Nat.mod_lt _ hpos
    · exact Nat.mod_lt _ hpos
    · exact hpos
    · omega
  simp only [Engine.atTurn, Engine.turned_live, List.getD_eq_getElem?_getD,
    List.getElem?_eq_getElem hlt, Option.getD_some]

lemma atTurn_mem {e : Engine D} (hl : e.live ≠ []) : e.turned.atTurn ∈ e.live :=
  List.mem_of_getElem? (turned_turn hl)

/-- An instruction is tested for a stop that a step of the scheduler's comes to while breakpoints are on, unless
the run has just been stopped there. -/
lemma consult_outcome (h : Host D) (run : Script D Bool → Act (World D) Bool) (w : World D) (sid : Nat)
    (cursor : Option D.Instr) (manual : Bool) :
    (consult h run sid cursor manual).outcome w = match cursor with
      | none => (.ok false, w)
      | some i =>
        if manual = false ∧ w.engine.breaking = true ∧ w.engine.skip ≠ some (sid, i) then
          (run (h.breaks i)).outcome w
        else (.ok false, w) := by
  unfold consult stopsAt
  rw [Act.outcome_bind, Act.outcome_get]
  cases cursor with
  | none =>
    dsimp only
    split_ifs <;> rfl
  | some i =>
    cases manual <;> cases hb : w.engine.breaking <;> by_cases hskip : w.engine.skip = some (sid, i) <;>
      simp [hb, hskip]

/-- What holds where nothing is asked, and after every test, holds after the question whether to stop. -/
lemma consult_ensures {h : Host D} {run : Script D Bool → Act (World D) Bool} {w : World D} {sid : Nat}
    {cursor : Option D.Instr} {manual : Bool} {Q : Except Fault Bool → World D → Prop}
    (hpass : Q (.ok false) w)
    (htest : manual = false → w.engine.breaking = true → ∀ i, cursor = some i →
      w.engine.skip ≠ some (sid, i) → (run (h.breaks i)).Ensures w Q) :
    (consult h run sid cursor manual).Ensures w Q := by
  unfold Act.Ensures at *
  rw [consult_outcome]
  rcases cursor with _ | i
  · exact hpass
  · dsimp only
    split_ifs with hasks
    · exact htest hasks.1 hasks.2.1 i rfl hasks.2.2
    · exact hpass

/-- What a step does once the strand at the turn is chosen. -/
lemma executeStep_outcome (h : Host D) (run : {α : Type} → Script D α → Act (World D) α)
    (fire : Ticket → Act (World D) Unit) (w : World D) (manual : Bool) {sid : Nat}
    {cursor : Option D.Instr} (hl : w.engine.live ≠ []) (hsid : w.engine.turned.atTurn = sid) :
    w.engine.cursor sid = cursor → (executeStep h run fire manual).outcome w =
      match (consult h run sid cursor manual).outcome w.turned with
      | (.error f, v) => (.error f, v)
      | (.ok stops, v) =>
        match stops, cursor with
        | true, some i => (stop h w.engine.nextSeq sid i).outcome v
        | _, _ => (proceed h run fire w.engine.nextSeq sid cursor manual).outcome v := by
  intro hcursor
  have hturned : w.turned.engine.cursor sid = cursor := by
    rw [← hcursor, turned_engine]
    rfl
  unfold executeStep
  simp only [Act.outcome_bind, Act.outcome_get, List.isEmpty_iff, hl, if_false, select_outcome, hsid,
    hturned]
  rcases (consult h run sid cursor manual).outcome w.turned with ⟨f | _ | _, v⟩
  · rfl
  · rfl
  · rcases cursor with _ | i <;> rfl

/-- A step that is not stopped. -/
lemma executeStep_goes (h : Host D) (run : {α : Type} → Script D α → Act (World D) α)
    (fire : Ticket → Act (World D) Unit) {w v : World D} {manual : Bool} {sid : Nat} {cursor : Option D.Instr}
    (hl : w.engine.live ≠ []) (hsid : w.engine.turned.atTurn = sid) (hcursor : w.engine.cursor sid = cursor)
    (hconsult : (consult h run sid cursor manual).outcome w.turned = (.ok false, v)) :
    (executeStep h run fire manual).outcome w =
      (proceed h run fire w.engine.nextSeq sid cursor manual).outcome v := by
  rw [executeStep_outcome h run fire w manual hl hsid hcursor, hconsult]

/-- A step that is stopped before its instruction. -/
lemma executeStep_stops (h : Host D) (run : {α : Type} → Script D α → Act (World D) α)
    (fire : Ticket → Act (World D) Unit) {w v : World D} {manual : Bool} {sid : Nat} {i : D.Instr}
    (hl : w.engine.live ≠ []) (hsid : w.engine.turned.atTurn = sid) (hcursor : w.engine.cursor sid = some i)
    (hconsult : (consult h run sid (some i) manual).outcome w.turned = (.ok true, v)) :
    (executeStep h run fire manual).outcome w = (stop h w.engine.nextSeq sid i).outcome v := by
  rw [executeStep_outcome h run fire w manual hl hsid hcursor, hconsult]

/-- Without strands in play a step only halts the engine. -/
lemma executeStep_nobody (h : Host D) (run : {α : Type} → Script D α → Act (World D) α)
    (fire : Ticket → Act (World D) Unit) {w : World D} (manual : Bool) (hl : w.engine.live = []) :
    (executeStep h run fire manual).outcome w =
      (do
        halt h.scheduler
        result w.engine.nextSeq 0 none false : Act (World D) StepResult).outcome w := by
  unfold executeStep
  simp only [Act.outcome_bind, Act.outcome_get, hl, List.isEmpty_nil, if_true]

/-- The halt for want of strands, while the run is under way. -/
lemma executeStep_empty (h : Host D) (run : {α : Type} → Script D α → Act (World D) α)
    (fire : Ticket → Act (World D) Unit) (w : World D) (manual : Bool) (hl : w.engine.live = [])
    (hp : w.engine.phase = .running ∨ w.engine.phase = .paused) :
    (executeStep h run fire manual).outcome w =
      (.ok (((w.disarmed h.scheduler).entered .halted "no live strands").report w.engine.nextSeq 0 none
        false), (w.disarmed h.scheduler).entered .halted "no live strands") := by
  rw [executeStep_nobody h run fire manual hl]
  simp only [Act.outcome_bind, halt_outcome h.scheduler w (mayFollow_halted hp), result_outcome]

/-- A step halts the engine for want of strands. Otherwise it asks whether to stop at the instruction at the turn,
and stops there or goes on; a manual step does not stop. -/
theorem executeStep_asks {h : Host D} {run : {α : Type} → Script D α → Act (World D) α}
    {fire : Ticket → Act (World D) Unit} {w : World D} {manual : Bool} {A : Except Fault Bool → World D → Prop}
    {Q : Except Fault StepResult → World D → Prop}
    (hempty : w.engine.live = [] → (do
      halt h.scheduler
      result w.engine.nextSeq 0 none false : Act (World D) StepResult).Ensures w Q)
    (hasks : (consult h run w.engine.turned.atTurn (w.engine.cursor w.engine.turned.atTurn) manual).Ensures
      w.turned A)
    (hraises : ∀ f v, A (.error f) v → Q (.error f) v)
    (hstops : ∀ i v, manual = false → A (.ok true) v →
      (stop h w.engine.nextSeq w.engine.turned.atTurn i).Ensures v Q)
    (hgoes : ∀ stops v, w.engine.live ≠ [] → A (.ok stops) v →
      (proceed h run fire w.engine.nextSeq w.engine.turned.atTurn
        (w.engine.cursor w.engine.turned.atTurn) manual).Ensures v Q) :
    (executeStep h run fire manual).Ensures w Q := by
  unfold Act.Ensures at *
  by_cases hlive : w.engine.live = []
  · rw [executeStep_nobody h run fire manual hlive]
    exact hempty hlive
  · rw [executeStep_outcome h run fire w manual hlive rfl rfl]
    rcases hout : (consult h run w.engine.turned.atTurn (w.engine.cursor w.engine.turned.atTurn) manual).outcome
      w.turned with ⟨f | stops, v⟩ <;> rw [hout] at hasks
    · exact hraises f v hasks
    · cases stops with
      | false => exact hgoes false v hlive hasks
      | true =>
        rcases hcursor : w.engine.cursor w.engine.turned.atTurn with _ | i <;> rw [hcursor] at hout hgoes
        · exact hgoes true v hlive hasks
        · -- A manual step consults nothing.
          have hmanual : manual = false := by
            cases manual
            · rfl
            · cases hout
          exact hstops i v hmanual hasks

/-- What comes of a ticket that comes due. -/
lemma honour_outcome (h : Host D) (run : {α : Type} → Script D α → Act (World D) α)
    (fire : Ticket → Act (World D) Unit) (w : World D) (t : Ticket) :
    (honour h run fire t).outcome w =
      if t = w.ticket then
        if w.engine.phase = .running then
          (discard (executeStep h run fire false)).outcome (w.altered (·.unarmed))
        else (.ok (), w.altered (·.unarmed))
      else (.ok (), w.noted .debug .process "stale step callback ignored") := by
  unfold honour ticket
  rw [Act.outcome_bind, Act.outcome_get]
  dsimp only
  split_ifs <;> rfl

lemma stepRefusal_plain {e : Engine D} {f : Fault} (h : e.stepRefusal = some f) : f.IsPlain := by
  unfold Engine.stepRefusal at h
  rcases hr : e.refusal "step" with _ | g
  · rw [hr, Option.none_or] at h
    split_ifs at h
    cases h
    exact ⟨rfl, rfl, _, rfl⟩
  · rw [hr, Option.some_or] at h
    cases h
    exact refusal_plain hr

/-- A step by hand, in closed form. -/
lemma step_outcome (h : Host D) (run : {α : Type} → Script D α → Act (World D) α)
    (fire : Ticket → Act (World D) Unit) (w : World D) :
    (step h run fire).outcome w = match w.engine.stepRefusal with
      | some f => (.error f, w)
      | none =>
        if w.engine.phase = .halted then (.ok (w.report w.engine.nextSeq 0 none false), w)
        else (executeStep h run fire true).outcome w := by
  unfold step Engine.stepRefusal
  rw [requireLive_bind]
  rcases w.engine.refusal "step" with _ | f
  · by_cases hrun : w.engine.phase = .running
    · simp [hrun]
    · by_cases hhalt : w.engine.phase = .halted
      · simp [hhalt]
      · simp [hrun, hhalt]
  · rfl

/-- A step by hand is refused, or finds the engine at rest, or is taken. -/
theorem step_ensures {h : Host D} {run : {α : Type} → Script D α → Act (World D) α}
    {fire : Ticket → Act (World D) Unit} {w : World D} {Q : Except Fault StepResult → World D → Prop}
    (hrefused : ∀ f, w.engine.stepRefusal = some f → Q (.error f) w)
    (hrest : w.engine.phase = .halted → Q (.ok (w.report w.engine.nextSeq 0 none false)) w)
    (htaken : w.engine.started = true → w.engine.phase = .idle ∨ w.engine.phase = .paused →
      (executeStep h run fire true).Ensures w Q) :
    (step h run fire).Ensures w Q := by
  unfold Act.Ensures at *
  rw [step_outcome]
  rcases hr : w.engine.stepRefusal with _ | f
  · obtain ⟨hlive, hrun⟩ := Option.or_eq_none_iff.1 hr
    obtain ⟨hstarted, hlasts⟩ := started_of_refusal hlive
    dsimp only
    split_ifs with hhalt
    · exact hrest hhalt
    · refine htaken hstarted ?_
      cases hp : w.engine.phase <;> simp_all
  · exact hrefused f hr

/-- A paused engine is stepped. -/
lemma step_paused (h : Host D) (run : {α : Type} → Script D α → Act (World D) α)
    (fire : Ticket → Act (World D) Unit) {w : World D} (hs : w.engine.started = true)
    (hp : w.engine.phase = .paused) :
    (step h run fire).outcome w = (executeStep h run fire true).outcome w := by
  rw [step_outcome]
  simp [Engine.stepRefusal, Engine.refusal, hs, hp]

section Fire

variable {w : World D}

/-- Firing the ticket that counts while running is one step. -/
lemma fire_running (h : Host D) (rounds depth : Nat) (hp : w.engine.phase = .running) :
    (serve h rounds (depth + 1) (.fire w.ticket)).outcome w =
      ((executeStep h (runScript (serve h rounds depth))
        (fun t => discard (serve h rounds depth (.fire t))) false).outcome
          (w.altered (·.unarmed))).map (·.map fun _ => .nothing) id := by
  change (honour h (runScript (serve h rounds depth))
    (fun t => discard (serve h rounds depth (.fire t))) w.ticket >>= fun _ =>
      pure Reply.nothing).outcome w = _
  rw [Act.outcome_bind, honour_outcome, if_pos rfl, if_pos hp, Act.outcome_discard]
  rcases (executeStep h (runScript (serve h rounds depth))
    (fun t => discard (serve h rounds depth (.fire t))) false).outcome
      (w.altered (·.unarmed)) with ⟨f | r, v⟩ <;> rfl

/-- Firing any other ticket leaves a note and nothing else. -/
lemma fire_stale (h : Host D) (rounds depth : Nat) {t : Ticket} (ht : t ≠ w.ticket) :
    (serve h rounds (depth + 1) (.fire t)).outcome w =
      (.ok .nothing, w.noted .debug .process "stale step callback ignored") := by
  unfold serve perform
  rw [Act.outcome_bind, honour_outcome, if_neg ht]
  rfl

lemma fire_not_running (h : Host D) (rounds depth : Nat) (hp : w.engine.phase ≠ .running) :
    (serve h rounds (depth + 1) (.fire w.ticket)).outcome w =
      (.ok .nothing, w.altered (·.unarmed)) := by
  unfold serve perform
  rw [Act.outcome_bind, honour_outcome, if_pos rfl, if_neg hp]
  rfl

/-- A ticket that is fired and counts is a step of an engine that runs and is forgotten otherwise; any other
leaves a note. -/
theorem fire_ensures {h : Host D} {rounds depth : Nat} {t : Ticket} {Q : Except Fault Reply → World D → Prop}
    (hsteps : t = w.ticket → w.engine.phase = .running →
      (executeStep h (runScript (serve h rounds depth))
        (fun t => discard (serve h rounds depth (.fire t))) false).Ensures (w.altered (·.unarmed))
          fun o v => Q (o.map fun _ => .nothing) v)
    (hidle : t = w.ticket → w.engine.phase ≠ .running → Q (.ok .nothing) (w.altered (·.unarmed)))
    (hstale : t ≠ w.ticket → Q (.ok .nothing) (w.noted .debug .process "stale step callback ignored")) :
    (serve h rounds (depth + 1) (.fire t)).Ensures w Q := by
  by_cases ht : t = w.ticket
  · subst ht
    by_cases hp : w.engine.phase = .running
    · exact Act.ensures_of_outcome (fire_running h rounds depth hp) (hsteps rfl hp)
    · exact Act.ensures_of_outcome (fire_not_running h rounds depth hp) (hidle rfl hp)
  · exact Act.ensures_of_outcome (fire_stale h rounds depth ht) (hstale ht)

end Fire

end World
end Loom
