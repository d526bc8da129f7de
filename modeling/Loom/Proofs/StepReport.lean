import Loom.Proofs.Accord
import Loom.Proofs.Chronicle

/-! What the step command says it did, and what the engine counted. The command adds up what each of its steps
reports, so it never claims more than was counted, and where no step is taken within a step it misses at most
the instruction of the step that failed. -/
namespace Loom

namespace Value

lemma isWritten_int {n : Int} (hn : (int n).isWritable = true) : (int n).IsWritten := fun fuel level =>
  ⟨toString n, by simp [documentTo, display, hn, spelling]⟩

/-- Three entries under texts are put in order and written. -/
lemma documentTo_triple {s t u : String} {v w x : Value} {fuel : Nat} (level : Nat)
    (hv : ∀ level, ∃ text, v.documentTo fuel level = .ok text)
    (hw : ∀ level, ∃ text, w.documentTo fuel level = .ok text)
    (hx : ∀ level, ∃ text, x.documentTo fuel level = .ok text) :
    ∃ text, documentTo (fuel + 1) level (.dict (Table.ofNamed [(s, v), (t, w), (u, x)])) = .ok text := by
  obtain ⟨a, ha⟩ := hv (level + 1)
  obtain ⟨b, hb⟩ := hw (level + 1)
  obtain ⟨c, hc⟩ := hx (level + 1)
  by_cases hts : t < s <;> by_cases hut : u < t <;> by_cases hus : u < s <;>
    simp [Table.ofNamed, documentTo, sortEntries, leadingRun, insertSorted, bisect, lt, hts, hut, hus,
      entriesTo, jsonKey, ha, hb, hc]

/-- If the last of three entries cannot be written, then they cannot. -/
lemma documentTo_triple_error {s t u : String} {v w x : Value} {fuel : Nat} {f : Fault} (level : Nat)
    (hv : ∀ level, ∃ text, v.documentTo fuel level = .ok text)
    (hw : ∀ level, ∃ text, w.documentTo fuel level = .ok text)
    (hx : ∀ level, x.documentTo fuel level = .error f) :
    documentTo (fuel + 1) level (.dict (Table.ofNamed [(s, v), (t, w), (u, x)])) = .error f := by
  obtain ⟨a, ha⟩ := hv (level + 1)
  obtain ⟨b, hb⟩ := hw (level + 1)
  by_cases hts : t < s <;> by_cases hut : u < t <;> by_cases hus : u < s <;>
    simp [Table.ofNamed, documentTo, sortEntries, leadingRun, insertSorted, bisect, lt, hts, hut, hus,
      entriesTo, jsonKey, ha, hb, hx]

end Value

/-- How many instructions were executed can be reported, unless the number is too long to be written. -/
lemma Report.stepped_written (json : Bool) (message state : String) {n : Nat}
    (hn : (Value.int n).isWritable = true) :
    ∃ text, Report.result json message (some (Table.ofNamed
      [("result", .str "stepped"), ("executed", .int n), ("state", .str state)])) = .ok text :=
  result_writes json message fun fuel level =>
    Value.documentTo_triple level (Value.isWritten_str _ fuel) (Value.isWritten_int hn fuel)
      (Value.isWritten_str state fuel)

section Details

variable (message : String) {entry : Value × Value} {entries : Table}

/-- A failure with details has three entries, the details last. -/
lemma Report.error_json {r : Except Fault String} (hr : Value.document (.dict (Table.ofNamed
      [("status", .str "error"), ("error", .str message), ("details", .dict (entry :: entries))])) = r) :
    Report.error true message (some (entry :: entries)) = r >>= fun text => .ok (line text) :=
  congrArg (fun r : Except Fault String => r >>= fun text => .ok (line text)) hr

lemma Report.error_written (json : Bool)
    (hitems : ∀ fuel level, ∃ text, (Value.dict (entry :: entries)).documentTo (fuel + 1) level = .ok text) :
    ∃ text, Report.error json message (some (entry :: entries)) = .ok text := by
  cases json with
  | false => exact ⟨_, rfl⟩
  | true =>
    have hreport (fuel : Nat) : ∃ text, Value.documentTo (fuel + 2) 0 (.dict (Table.ofNamed
        [("status", .str "error"), ("error", .str message), ("details", .dict (entry :: entries))])) = .ok text :=
      Value.documentTo_triple 0 (Value.isWritten_str _ (fuel + 1)) (Value.isWritten_str message (fuel + 1))
        (hitems fuel)
    obtain ⟨text, htext⟩ := hreport _
    exact ⟨line text, error_json message htext⟩

lemma Report.error_unwritten {f : Fault}
    (hitems : ∀ fuel level, (Value.dict (entry :: entries)).documentTo (fuel + 1) level = .error f) :
    Report.error true message (some (entry :: entries)) = .error f := by
  have hreport (fuel : Nat) : Value.documentTo (fuel + 2) 0 (.dict (Table.ofNamed
      [("status", .str "error"), ("error", .str message), ("details", .dict (entry :: entries))])) = .error f :=
    Value.documentTo_triple_error 0 (Value.isWritten_str _ (fuel + 1)) (Value.isWritten_str message (fuel + 1))
      (hitems fuel)
  exact error_json message (hreport _)

end Details

/-- How many instructions were executed before a failure can be reported, unless the report is in JSON and the
number too long to be written. -/
lemma Report.executed_written (json : Bool) (message : String) {n : Nat}
    (hn : json = true → (Value.int n).isWritable = true) :
    ∃ text, Report.error json message (some (Table.ofNamed [("executed", .int n)])) = .ok text := by
  cases json with
  | false => exact ⟨_, rfl⟩
  | true =>
    refine error_written message true fun fuel level => ?_
    simp [Value.documentTo, Value.sortEntries, Value.entriesTo, Value.jsonKey, Value.display, hn]

lemma Report.executed_unwritten (message : String) {n : Nat} (hn : (Value.int n).isWritable = false) :
    Report.error true message (some (Table.ofNamed [("executed", .int n)])) = .error .unwritable := by
  refine error_unwritten message fun fuel level => ?_
  simp [Value.documentTo, Value.sortEntries, Value.entriesTo, Value.jsonKey, Value.display, hn]

namespace Session

variable {D : Dialect} {b : Bench D} {h : Host D} {s t v : Session D} {e : Engine D} {n k slack : Nat}

/-- From one session to another the engine of a program has counted at least `n` instructions more. If the
program is patient, then at most `slack` instructions besides, and none unless it leads astray, and all that it
counted were completed. -/
structure Strides (h : Host D) (s : Session D) (e : Engine D) (n slack : Nat) (v : Session D) : Prop where
  program : v.program = some h
  engine : ∃ e', v.engine = some e' ∧ e.totalSteps + n ≤ e'.totalSteps ∧
    ∀ fit P, h.Patient fit P → P s.memory → fit s.clock →
      (∃ late ≤ slack, (s.world e).Counted (n + late) (v.world e') ∧ (0 < late → h.Misleads P)) ∧
        P v.memory ∧ fit v.clock

namespace Strides

lemma of_world (hp : s.program = some h) {w : World D} (hrise : e.totalSteps + n ≤ w.engine.totalSteps)
    (hexact : ∀ fit P, h.Patient fit P → P s.memory → fit s.clock →
      ∃ late ≤ slack, (((s.world e).Counted (n + late) w ∧ P w.memory) ∧ fit w.clock) ∧
        (0 < late → h.Misleads P)) :
    Strides h s e n slack (absorb w s) where
  program := hp
  engine := by
    refine ⟨w.engine, rfl, hrise, fun fit P hh hm hc => ?_⟩
    obtain ⟨late, hlate, ⟨⟨hcounted, hmemory⟩, hclock⟩, hmisleads⟩ := hexact fit P hh hm hc
    exact ⟨⟨late, hlate, ⟨hcounted.total, hcounted.completions⟩, hmisleads⟩, hmemory, hclock⟩

lemma refl (hp : s.program = some h) (he : s.engine = some e) : Strides h s e 0 0 s where
  program := hp
  engine := ⟨e, he, le_rfl, fun _ _ _ hm hc => ⟨⟨0, le_rfl, ⟨rfl, rfl⟩, nofun⟩, hm, hc⟩⟩

lemma trans (hs : Strides h s e n 0 t) (ht : ∀ e', t.engine = some e' → Strides h t e' k slack v) :
    Strides h s e (n + k) slack v := by
  obtain ⟨e', he', hrise, hexact⟩ := hs.engine
  obtain ⟨hprogram, e'', he'', hrise', hexact'⟩ := ht e' he'
  refine ⟨hprogram, e'', he'', by omega, fun fit P hh hm hc => ?_⟩
  obtain ⟨⟨none, hnone, hcounted, -⟩, hm', hc'⟩ := hexact fit P hh hm hc
  obtain ⟨⟨late, hlate, hcounted', hmisleads⟩, hm'', hc''⟩ := hexact' fit P hh hm' hc'
  obtain rfl := Nat.le_zero.mp hnone
  exact ⟨⟨late, hlate, by simpa [Nat.add_assoc] using hcounted.trans hcounted', hmisleads⟩, hm'', hc''⟩

lemma weaken (hs : Strides h s e n 0 v) (slack : Nat) : Strides h s e n slack v where
  program := hs.program
  engine := by
    obtain ⟨e', he', hrise, hexact⟩ := hs.engine
    refine ⟨e', he', hrise, fun fit P hh hm hc => ?_⟩
    obtain ⟨⟨late, hlate, hlater⟩, hkept⟩ := hexact fit P hh hm hc
    exact ⟨⟨late, hlate.trans (Nat.zero_le slack), hlater⟩, hkept⟩

end Strides

/-- The engine has come to rest. -/
def AtRest (s : Session D) : Prop := s.engine.any (·.phase = .halted) = true

/-- One step reports what the engine counts. -/
lemma stepOnce_strides (hp : s.program = some h) (he : s.engine = some e) :
    (stepOnce b).Ensures s fun o v =>
      (∀ n, o = .ok n → Strides h s e n 0 v ∧ (n = 1 ∨ n = 0 ∧ v.AtRest)) ∧
      ∀ f, o = .error f → f.isRuntime = true → Strides h s e 0 1 v := by
  have hrise := World.serve_answers (fun depth => World.counts_rise h b.rounds depth (s.world e)) le_rfl
    b.depth
  have hexact (fit : D.Clock → Prop) (P : D.Memory → Prop) (hh : h.Patient fit P) (hm : P s.memory)
      (hc : fit s.clock) := World.serve_answers
    (fun depth => World.counts_exactly hh b.rounds depth (s.world e)) ⟨⟨⟨rfl, rfl⟩, hm⟩, hc⟩ b.depth
  unfold Act.Ensures at hrise hexact ⊢
  unfold stepOnce
  rw [Act.outcome_bind, ask_outcome b .step hp he]
  generalize (World.serve h b.rounds b.depth .step).outcome (s.world e) = answer at hrise hexact ⊢
  obtain ⟨f | reply, w⟩ := answer
  · refine ⟨nofun, ?_⟩
    rintro _ ⟨⟩ hf
    obtain ⟨n, -, hn, -⟩ := hrise hf
    refine .of_world hp ((Nat.le_add_right _ n).trans hn) fun fit P hh hm hc => ?_
    obtain ⟨late, hlate, hcounted, hmisleads⟩ := hexact fit P hh hm hc hf
    exact ⟨late, hlate, by simpa using hcounted, hmisleads⟩
  · cases reply with
    | stepped r =>
      refine ⟨?_, nofun⟩
      rintro _ ⟨⟩
      refine ⟨.of_world hp hrise.1 fun fit P hh hm hc =>
        ⟨0, le_rfl, (hexact fit P hh hm hc).1, nofun⟩, ?_⟩
      refine hrise.2.imp_right fun hrest => ⟨hrest.1, ?_⟩
      have hphase : w.engine.phase = .halted := hrest.2
      simp [AtRest, absorb, hphase]
    | _ => exact hrise.elim

/-- However many steps are to be taken, and however the last one ends: they are fewer only if the engine has
come to rest or a step has failed. -/
lemma stepMany_strides (hp : s.program = some h) (he : s.engine = some e) (limit executed : Nat) :
    (stepMany b limit executed).Ensures s fun o v =>
      ∃ n failure, o = .ok (executed + n, failure) ∧ n ≤ limit ∧
        (failure = none → Strides h s e n 0 v ∧ (n < limit → v.AtRest)) ∧
        ∀ f, failure = some f → n < limit ∧ (f.isRuntime = true → Strides h s e n 1 v) := by
  induction limit generalizing s e executed with
  | zero => exact ⟨0, none, rfl, le_rfl, fun _ => ⟨.refl hp he, nofun⟩, nofun⟩
  | succ limit ih =>
    have honce := stepOnce_strides (b := b) hp he
    unfold Act.Ensures at honce ih ⊢
    unfold stepMany
    rw [Act.outcome_bind, Act.outcome_attempt]
    rcases hout : (stepOnce b).outcome s with ⟨f | more, t⟩ <;> rw [hout] at honce
    · refine ⟨0, some f, rfl, Nat.zero_le _, nofun, ?_⟩
      rintro _ ⟨⟩
      exact ⟨Nat.succ_pos limit, honce.2 f rfl⟩
    · obtain ⟨hstride, hmore⟩ := honce.1 more rfl
      dsimp only
      rw [Act.outcome_get_bind]
      split_ifs with hrest
      · refine ⟨more, none, rfl, by omega, fun _ => ⟨hstride, fun _ => hrest⟩, nofun⟩
      · -- The engine goes on, so the step has executed an instruction.
        obtain rfl : more = 1 := hmore.resolve_right fun hnone => hrest hnone.2
        obtain ⟨e', he', -⟩ := hstride.engine
        obtain ⟨n, failure, ho, hn, hwell, hfailed⟩ := ih hstride.program he' (executed + 1)
        have hjoin {slack : Nat} {v : Session D} (hv : Strides h t e' n slack v) :
            Strides h s e (1 + n) slack v := hstride.trans fun e'' he'' => by
          obtain rfl := Option.some.inj (he'.symm.trans he'')
          exact hv
        refine ⟨1 + n, failure, by rw [ho, Nat.add_assoc], by omega, fun hnone => ?_, fun f hf => ?_⟩
        · exact ⟨hjoin (hwell hnone).1, fun hlt => (hwell hnone).2 (by omega)⟩
        · exact ⟨by have := (hfailed f hf).1; omega, fun hruntime => hjoin ((hfailed f hf).2 hruntime)⟩

/-- Stopping a running engine counts nothing. -/
lemma holdStill_strides (hp : s.program = some h) (he : s.engine = some e) (hstarted : e.started = true) :
    (holdStill b).Ensures s fun _ v => Strides h s e 0 0 v := by
  have hpause {I : World D → Prop} (hI : World.Loose h I) (hw : I (s.world e)) :
      (World.serve h b.rounds b.depth .pause).Ensures (s.world e) fun _ v => I v := by
    rcases b.depth with _ | depth
    · exact hw
    · exact (hI.pause _ hw).bind (fun _ _ hv => hv.state) fun _ _ hv => hv.state
  have hrise := hpause ((World.counts_rise h b.rounds 0 (s.world e)).loose 0) le_rfl
  have hexact (fit : D.Clock → Prop) (P : D.Memory → Prop) (hh : h.Patient fit P) (hm : P s.memory)
      (hc : fit s.clock) := hpause ((World.counts_exactly hh b.rounds 0 (s.world e)).loose 0)
    ⟨⟨⟨rfl, rfl⟩, hm⟩, hc⟩
  have hask : (ask b .pause).Ensures s fun _ v => Strides h s e 0 0 v :=
    Act.ensures_of_outcome (ask_outcome b .pause hp he)
      (.of_world hp hrise fun fit P hh hm hc => ⟨0, le_rfl, hexact fit P hh hm hc, nofun⟩)
  have hrequire : require.outcome s = (.ok e, s) := by
    unfold require
    rw [Act.outcome_get_bind, he]
    simp [hstarted]
  unfold Act.Ensures holdStill
  rw [Act.outcome_bind, hrequire]
  dsimp only
  split_ifs
  · exact .refl hp he
  · rw [Act.outcome_discard]
    exact hask

lemma announce_printed {message text : String} {data : Table}
    (htext : Report.result s.json message (some data) = .ok text) :
    (announce message data).outcome s = (.ok (), { s with out := s.out ++ text }) := by
  unfold announce
  rw [Act.outcome_get_bind, Act.outcome_bind, Act.outcome_ofExcept, htext]
  rfl

lemma complain_printed {message text : String} {details : Table}
    (htext : Report.error s.json message (some details) = .ok text) :
    (complain message details).outcome s = (.ok (), { s with out := s.out ++ text }) := by
  unfold complain
  rw [Act.outcome_get_bind, Act.outcome_bind, Act.outcome_ofExcept, htext]
  rfl

lemma complain_unwritable {message : String} {details : Table} {f : Fault}
    (hf : Report.error s.json message (some details) = .error f) :
    (complain message details).outcome s = (.error f, s) := by
  unfold complain
  rw [Act.outcome_get_bind, Act.outcome_bind, Act.outcome_ofExcept, hf]

/-- How the step command ends when it was to execute up to `limit` instructions. It prints a result or a
failure, unless the failure is of a kind that commands pass on or cannot be worded. The engine counted no fewer
instructions than are printed. If the program is patient, it counted exactly as many, each of them completed, or
with a failure possibly one more: an instruction that led astray, and so returned in a step that failed. -/
inductive StepReport (h : Host D) (s : Session D) (e : Engine D) (limit : Nat) :
    Except Fault Int → Session D → Prop
  | stepped {u : Session D} {e' : Engine D} {executed : Nat} {text : String} (engine : u.engine = some e')
      (bound : executed ≤ limit) (rest : executed < limit → e'.phase = .halted)
      (rise : e.totalSteps + executed ≤ e'.totalSteps)
      (counted : ∀ fit P, h.Patient fit P → P s.memory → fit s.clock →
        (s.world e).Counted executed (u.world e'))
      (printed : Report.result u.json
        ("Stepped " ++ toString executed ++ " instruction(s) (" ++ e'.phase.name ++ ")")
        (some (Table.ofNamed [("result", .str "stepped"), ("executed", .int executed),
          ("state", .str e'.phase.name)])) = .ok text) :
      StepReport h s e limit (.ok 0) { u with out := u.out ++ text }
  | failed {u : Session D} {e' : Engine D} {executed : Nat} {f : Fault} {what text : String}
      (worded : f.message = .ok what) (engine : u.engine = some e') (bound : executed ≤ limit)
      (rise : e.totalSteps + executed ≤ e'.totalSteps)
      (counted : ∀ fit P, h.Patient fit P → P s.memory → fit s.clock →
        ∃ late ≤ 1, (s.world e).Counted (executed + late) (u.world e') ∧ (0 < late → h.Misleads P))
      (printed : Report.error u.json ("step failed: " ++ what)
        (some (Table.ofNamed [("executed", .int executed)])) = .ok text) :
      StepReport h s e limit (.ok 1) { u with out := u.out ++ text }
  | passed {u : Session D} {f : Fault} (kind : f.isRuntime = false) : StepReport h s e limit (.error f) u
  | unworded {u : Session D} {f g : Fault} (kind : f.isRuntime = true) (wordless : f.message = .error g) :
      StepReport h s e limit (.error g) u

lemma Strides.stepped (hs : Strides h s e n 0 v) {limit : Nat} (hn : n ≤ limit)
    (hrest : n < limit → v.AtRest) :
    (do
      let state ← phaseName
      let shown ← Act.ofExcept (Value.int n).plain
      announce ("Stepped " ++ shown ++ " instruction(s) (" ++ state ++ ")")
        (Table.ofNamed [("result", .str "stepped"), ("executed", .int n), ("state", .str state)])
      pure 0 : Act (Session D) Int).Ensures v (StepReport h s e limit) := by
  obtain ⟨e', he', hrise, hexact⟩ := hs.engine
  have hname : phaseName.outcome v = (.ok e'.phase.name, v) := by
    unfold phaseName
    rw [Act.outcome_get_bind, he']
    rfl
  unfold Act.Ensures
  rw [Act.outcome_bind, hname]
  dsimp only
  rw [Act.outcome_bind, Act.outcome_ofExcept]
  rcases hlong : (Value.int n).isWritable with _ | _
  · rw [Value.plain_of_unwritable hlong]
    exact .passed rfl
  · obtain ⟨text, htext⟩ := Report.stepped_written v.json
      ("Stepped " ++ toString n ++ " instruction(s) (" ++ e'.phase.name ++ ")") e'.phase.name hlong
    have hshown : (Value.int n).plain = .ok (toString n) := Value.plain_of_writable hlong
    rw [hshown]
    dsimp only
    rw [Act.outcome_bind, announce_printed htext]
    refine .stepped he' hn (fun hlt => ?_) hrise (fun fit P hh hm hc => ?_) htext
    · have hat := hrest hlt
      simpa [AtRest, he'] using hat
    · obtain ⟨⟨none, hnone, hcounted, -⟩, -⟩ := hexact fit P hh hm hc
      obtain rfl := Nat.le_zero.mp hnone
      exact hcounted

lemma Strides.failed {f : Fault} (hs : f.isRuntime = true → Strides h s e n 1 v) {limit : Nat}
    (hn : n ≤ limit) :
    (if f.isRuntime then do
        let what ← Act.ofExcept f.message
        complain ("step failed: " ++ what) (Table.ofNamed [("executed", .int n)])
        pure 1
      else throw f : Act (Session D) Int).Ensures v (StepReport h s e limit) := by
  split_ifs with hruntime
  · obtain ⟨e', he', hrise, hexact⟩ := (hs hruntime).engine
    unfold Act.Ensures
    rw [Act.outcome_bind, Act.outcome_ofExcept]
    rcases hwhat : f.message with g | what
    · exact .unworded hruntime hwhat
    · dsimp only
      rw [Act.outcome_bind]
      by_cases hshown : v.json = true → (Value.int n).isWritable = true
      · obtain ⟨text, htext⟩ := Report.executed_written v.json ("step failed: " ++ what) hshown
        rw [complain_printed htext]
        exact .failed hwhat he' hn hrise (fun fit P hh hm hc => (hexact fit P hh hm hc).1) htext
      · obtain ⟨hjson, hlong⟩ := Classical.not_imp.1 hshown
        have hunwritten := Report.executed_unwritten ("step failed: " ++ what) (Bool.eq_false_iff.mpr hlong)
        rw [complain_unwritable (hjson ▸ hunwritten)]
        exact .passed rfl
  · exact .passed (Bool.eq_false_iff.mpr hruntime)

/-- What the step command prints is what the engine counted, as far as programs allow. In every session with an
engine that was started it prints a result or a failure, unless the failure is of a kind that commands pass on
or cannot be worded. It executed at most the number of instructions asked for, and fewer with success only if the
engine has come to rest; and the engine counted no fewer than printed. If neither instructions nor farewells ask
for a step and the scheduler fires none while taking one, then it counted exactly as many, each of them
completed, in the case of a failure too if every instruction leads to another or to none; otherwise a failure may
leave one more. -/
theorem step_command_reports (b : Bench D) {s : Session D} {h : Host D} {e : Engine D} (hp : s.program = some h)
    (he : s.engine = some e) (hstarted : e.started = true) (count : Int) :
    (performStep b count).Ensures s (StepReport h s e (max 1 count).toNat) := by
  refine (holdStill_strides hp he hstarted).attempt_bind fun r t hstill => ?_
  rcases r with f | _
  · exact Strides.failed (fun _ => hstill.weaken 1) (Nat.zero_le _)
  · obtain ⟨e', he', -⟩ := hstill.engine
    refine (stepMany_strides hstill.program he' (max 1 count).toNat 0).bind (fun outcome u hu => ?_)
      fun f u hu => ?_
    · obtain ⟨n, failure, houtcome, hn, hwell, hfailed⟩ := hu
      obtain rfl : outcome = (0 + n, failure) := Except.ok.inj houtcome
      have hjoin {slack : Nat} (hu : Strides h t e' n slack u) : Strides h s e (0 + n) slack u :=
        hstill.trans fun e'' he'' => by
          obtain rfl := Option.some.inj (he'.symm.trans he'')
          exact hu
      rw [Nat.zero_add] at hjoin ⊢
      rcases failure with _ | f
      · obtain ⟨hstrides, hrest⟩ := hwell rfl
        exact (hjoin hstrides).stepped hn hrest
      · exact Strides.failed (fun hf => hjoin ((hfailed f rfl).2 hf)) hn
    · obtain ⟨_, _, houtcome, -⟩ := hu
      cases houtcome

/-- A run of blocks, ready to be debugged. -/
def benchOf (r : Block.Run) : Bench Block.dialect where
  load _ := .ok r.host
  rounds := 5
  depth := 5

/-- A session whose engine was started and paused. -/
def pausedOf (r : Block.Run) (json : Bool) : Session Block.dialect :=
  absorb (r.world.replay r.host 1 5 [.operate (.start none), .operate .pause])
    { reference := "blocks", json, program := some r.host, clock := r.world.clock, memory := r.world.memory }

/-- A patient program with a block that resumes its run in the middle of a step. -/
theorem restless_step_reported :
    let r := Block.restlessRun .manual
    let s := pausedOf r false
    let (o, v) := (performStep (benchOf r) 1).outcome s
    r.host.Patient (fun c => c.kind ≠ .eager) Block.Memory.Calm ∧
      (Block.Memory.Calm s.memory ∧ s.clock.kind ≠ .eager) ∧
    ∃ e, s.engine = some e ∧ e.started = true ∧ StepReport r.host s e 1 o v ∧
      v.out = "Stepped 1 instruction(s) (running)\n" ∧
      e.totalSteps = 0 ∧ v.engine.map (·.totalSteps) = some 1 := by
  intro r s
  have hengine : s.engine.map (fun e => (e.started, e.totalSteps)) = some (true, 0) := by decide +kernel
  have hshown : ((performStep (benchOf r) 1).outcome s).2.out = "Stepped 1 instruction(s) (running)\n" := by
    decide +kernel
  have hafter : ((performStep (benchOf r) 1).outcome s).2.engine.map (·.totalSteps) = some 1 := by
    decide +kernel
  have hprogram : s.program = some r.host := rfl
  have hpatient : r.host.Patient (fun c => c.kind ≠ .eager) Block.Memory.Calm := Block.forgetful_patient
  have hfits : Block.Memory.Calm s.memory ∧ s.clock.kind ≠ .eager :=
    World.replay_fits hpatient 1 5 (by simp) ⟨nofun, nofun⟩
  clear_value s r
  rcases he : s.engine with _ | e
  · simp [he] at hengine
  · obtain ⟨hstarted, hbefore⟩ : e.started = true ∧ e.totalSteps = 0 := by simpa [he] using hengine
    have hreport := step_command_reports (benchOf r) hprogram he hstarted 1
    unfold Act.Ensures at hreport
    rcases hout : (performStep (benchOf r) 1).outcome s with ⟨o, v⟩
    rw [hout] at hshown hafter hreport
    exact ⟨hpatient, hfits, e, rfl, hstarted, hreport, hshown, hbefore, hafter⟩

/-- What is printed when a step has failed. -/
lemma performStep_failed (count : Int) {f : Fault} {what text : String} (hwhat : f.message = .ok what)
    (htext : Report.error v.json ("step failed: " ++ what) (some (Table.ofNamed [("executed", .int n)])) = .ok text)
    (hstill : (holdStill b).outcome s = (.ok (), t))
    (hmany : (stepMany b (max 1 count).toNat 0).outcome t = (.ok (n, some f), v))
    (hf : f.isRuntime = true) :
    (performStep b count).outcome s = (.ok 1, { v with out := v.out ++ text }) := by
  unfold performStep
  rw [Act.outcome_bind, Act.outcome_attempt, hstill]
  dsimp only
  rw [Act.outcome_bind, hmany]
  dsimp only
  rw [if_pos hf, Act.outcome_bind, Act.outcome_ofExcept, hwhat]
  dsimp only
  rw [Act.outcome_bind, complain_printed htext]
  rfl

/-- Two instructions are executed and counted; the second one cannot tell its successor, and one is reported. -/
theorem derailing_step_misreported :
    let r := Block.derailingRun (.raised .runtime "derailed")
    let s := pausedOf r true
    let (o, v) := (performStep (benchOf r) 2).outcome s
    s.engine.map (fun e => (e.started, e.phase, e.totalSteps)) = some (true, .paused, 0) ∧ s.out = "" ∧
      v.engine.map (·.totalSteps) = some 2 ∧ o = .ok 1 ∧
      Report.error true "step failed: derailed" (some (Table.ofNamed [("executed", .int 1)])) = .ok v.out := by
  intro r s
  have hbefore : s.engine.map (fun e => (e.started, e.phase, e.totalSteps)) = some (true, .paused, 0) := by
    decide +kernel
  have hsilent : s.out = "" := rfl
  have hstill : ((holdStill (benchOf r)).outcome s).1.toOption = some () := by decide +kernel
  have hmany : ((stepMany (benchOf r) 2 0).outcome ((holdStill (benchOf r)).outcome s).2).1.toOption.map
      (fun p => (p.1, p.2.map fun f => (f.isRuntime, f.message.toOption))) =
      some (1, some (true, some "derailed")) := by
    decide +kernel
  have hafter : (fun u : Session Block.dialect => (u.engine.map (·.totalSteps), u.out, u.json))
      ((stepMany (benchOf r) 2 0).outcome ((holdStill (benchOf r)).outcome s).2).2 = (some 2, "", true) := by
    decide +kernel
  clear_value s r
  rcases hfirst : (holdStill (benchOf r)).outcome s with ⟨g | _, t⟩
  · rw [hfirst] at hstill
    cases hstill
  · rw [hfirst] at hmany hafter
    rcases hsecond : (stepMany (benchOf r) 2 0).outcome t with ⟨g | ⟨n, _ | f⟩, u⟩ <;>
      rw [hsecond] at hmany hafter
    · cases hmany
    · cases hmany
    · obtain ⟨rfl, hfault, hmessage⟩ : n = 1 ∧ f.isRuntime = true ∧ f.message.toOption = some "derailed" := by
        simpa [Except.toOption] using hmany
      have hwhat : f.message = .ok "derailed" := Act.except_toOption_eq_some.mp hmessage
      obtain ⟨hcounted, hblank, hjson⟩ : u.engine.map (·.totalSteps) = some 2 ∧ u.out = "" ∧
        u.json = true := by simpa using hafter
      obtain ⟨text, htext⟩ := Report.executed_written u.json "step failed: derailed" (n := 1)
        fun _ => by decide +kernel
      rw [performStep_failed 2 hwhat htext hfirst hsecond hfault]
      rw [hjson] at htext
      refine ⟨hbefore, hsilent, hcounted, rfl, ?_⟩
      rw [hblank, String.empty_append]
      exact htext

end Session

end Loom
