import Loom.Proofs.Coherence

/-! A step of an engine leaves the control coherent. While it is under way the ticket that was fired has
lapsed; whichever way the step ends (the strand goes on, the last strand retires, a stop, a fault, or
the instruction itself having paused, resumed or terminated the run), the token has moved on by then. -/
namespace Loom.World

variable {D : Dialect} {h : Host D} {P : D.Memory → Prop}
  {books : D.Clock → Option (Nat × Ticket) → Prop} {reliable : Prop} {lapsed : Option Nat}
  {w v : World D}

/-- The world at the moment an instruction was begun, if one was. -/
def Begins (w u : World D) (sid : Nat) (manual : Bool) : Prop :=
  u = w ∨ ∃ i, u = w.recorded (.began sid i w.engine.phase manual)

lemma Meddled.withMemory (hv : Meddled P w v) {m : D.Memory} (hm : P m) :
    Meddled P w (v.withMemory m) :=
  ⟨hv.token, hv.started, hv.live, hv.final, hv.halted, hv.attempts, fun _ => hm⟩

lemma code_sound (hs : h.scheduler.Keeps books reliable) (hh : h.Tame P) (rounds depth : Nat)
    (hw : w.control.Coherent books reliable (h.Tells P) lapsed) (hm : P w.memory)
    (hstarted : w.engine.started = true) (i : D.Instr) (scope : Nat) :
    (runScript (serve h rounds depth) (h.code i scope)).Ensures w
      (Sound P books reliable (h.Tells P) lapsed w) := by
  have hrun := runScript_ensures (serve h rounds depth)
    (I := fun v => v.control.Coherent books reliable (h.Tells P) lapsed ∧ Meddled P w v)
    (F := fun f v => (f.isOrdinary = true ∨ w.engine.token < v.engine.token) ∧
      (h.Tells P → f.IsTold ∨ v.engine.phase = .terminated))
    (fun v hv => hv.2.memory hm) (fun v m hm hv => ⟨⟨hv.1, hv.2.withMemory hm⟩, fun f hf => hf⟩) ?_
    (hh.code_fitly i scope) ⟨hw, Meddled.refl w⟩ fun f hf => ⟨.inl hf.1, fun ht => .inl (hf.2 ht)⟩
  · exact hrun.mono fun o v hv =>
      ⟨hv.1.1, hv.1.2, fun f hf _ => (hv.2 f hf).1, fun ht f hf _ => (hv.2 f hf).2 ht⟩
  · intro r v hr ⟨hv, hmeddled⟩
    refine (serve_sound hs hh rounds depth hv (hmeddled.memory hm) hr).mono fun o u hu => ?_
    have htoken := hmeddled.token
    have htoken' := hu.meddled.token
    have hvstarted := hmeddled.started hstarted
    refine ⟨⟨hu.coherent, hmeddled.trans hu.meddled⟩, fun f hf => ⟨?_, fun ht => hu.worded ht f hf hvstarted⟩,
      fun f hf => ⟨?_, fun ht => (hf.2 ht).imp_right hu.meddled.final⟩⟩
    · exact (hu.blame f hf hvstarted).imp_right fun ht => by omega
    · exact hf.1.imp_right fun ht => by omega

theorem advance_sound (hs : h.scheduler.Keeps books reliable) (hh : h.Tame P) (rounds depth : Nat)
    (hw : w.control.Coherent books reliable (h.Tells P) lapsed) (hm : P w.memory)
    (hstarted : w.engine.started = true) (slot : Nat) (sid : Int) (manual : Bool) :
    (advance h (runScript (serve h rounds depth)) slot sid manual).Ensures w fun o v =>
      ∃ u, Begins w u slot manual ∧ Sound P books reliable (h.Tells P) lapsed u o v := by
  unfold Act.Ensures
  rw [advance_outcome]
  rcases hslot : w.engine.strand? slot with _ | strand
  · exact ⟨w, .inl rfl, .unchanged hw (.error rfl fun _ => ⟨_, rfl⟩) rfl rfl rfl id⟩
  · rcases hc : strand.cursor with _ | i
    · simp only [hc]
      exact ⟨w, .inl rfl, .unchanged hw (.error rfl fun _ => ⟨_, rfl⟩) rfl rfl rfl id⟩
    · have hu : (w.recorded (.began slot i w.engine.phase manual)).control.Coherent books reliable
          (h.Tells P) lapsed := by
        simpa [control, Deed.ticket?] using hw
      have hcode := code_sound hs hh rounds depth hu hm hstarted i strand.scope
      refine ⟨_, .inr ⟨i, rfl⟩, ?_⟩
      unfold Act.Ensures at hcode
      simp only [hc]
      rcases hrun : (runScript (serve h rounds depth) (h.code i strand.scope)).outcome
        (w.recorded (.began slot i w.engine.phase manual)) with ⟨f | _, v⟩ <;> rw [hrun] at hcode
      · exact hcode.error
      · have hdone : Stays P v (v.completed slot i) := by
          simp [Stays, control, Deed.ticket?, Deed.attempt?]
        have hmoved (cursor : Option D.Instr) :
            Stays P v ((v.completed slot i).altered (·.movedTo slot cursor)) := hdone.trans ⟨rfl, rfl, rfl, id⟩
        have hvm : P v.memory := hcode.meddled.memory hm
        simp only [followed]
        rcases hn : h.next (v.completed slot i).memory i with f | _ | j
        · exact hcode.stays hdone (.error (hh.next i hvm f hn) fun ht => ht.next i f hvm hn)
        · exact hcode.stays (hmoved none) (.ok _)
        · by_cases hj : h.wellFormed j = true
          · simp only [hj, if_true]
            exact hcode.stays (hmoved (some j)) (.ok _)
          · simp only [hj]
            exact hcode.stays (hmoved none) (.plain (refusal_isPlain h .successor j))

/-- A way out of a step: the control is coherent and the ticket that was fired is overtaken. -/
structure Settled (books : D.Clock → Option (Nat × Ticket) → Prop) (reliable told : Prop)
    (lapsed : Option Nat) (w v : World D) : Prop where
  coherent : v.control.Coherent books reliable told lapsed
  overtaken : Control.Overtaken lapsed v.engine.token
  token : w.engine.token ≤ v.engine.token
  attempts : v.attempts = w.attempts
  memory : v.memory = w.memory

lemma halted_settled (hs : h.scheduler.Keeps books reliable)
    (hw : w.control.Coherent books reliable (h.Tells P) lapsed) (hi : w.engine.phase ≠ .idle) :
    Settled books reliable (h.Tells P) lapsed w ((w.disarmed h.scheduler).entered .halted "no live strands") where
  coherent := by
    simpa using hw.disarm hs .halted (by simp) (by simp [hi])
  overtaken := hw.overtaken_next
  token := Nat.le_succ _
  attempts := by simp [Deed.attempt?]
  memory := rfl

lemma wound_settled (hs : h.scheduler.Keeps books reliable)
    (hw : w.control.Coherent books reliable (h.Tells P) lapsed) (hstarted : w.engine.started = true) {manual : Bool}
    (hm : manual = true → lapsed = none) : Settled books reliable (h.Tells P) lapsed w (w.wound h manual).2 := by
  have hi : w.engine.phase ≠ .idle := hw.started_iff.1 hstarted
  unfold wound
  split_ifs with hempty hrun
  · exact halted_settled hs hw hi
  · rcases deferred_sound hs hw w.engine.rate with ⟨handle, clock, hd, hc⟩ | ⟨f, clock, hd, hc⟩
    · rw [hd]
      refine ⟨?_, hw.overtaken_next, Nat.le_succ _, by simp [Deed.attempt?], rfl⟩
      convert hc using 1
      ext1 <;> simp [hstarted, hrun.1]
    · rw [hd]
      exact ⟨by simpa using hc.1, hw.overtaken_next, Nat.le_succ _, by simp [Deed.attempt?],
        rfl⟩
  · refine ⟨hw, ?_, Nat.le_refl _, rfl, rfl⟩
    cases hmanual : manual
    · exact hw.overtaken_of_phase fun hp => hrun ⟨hp, hmanual⟩
    · rw [hm hmanual]
      intro t ht
      cases ht

/-- After an instruction that returned. -/
lemma conclude_settled (hs : h.scheduler.Keeps books reliable)
    (hw : w.control.Coherent books reliable (h.Tells P) lapsed) (hstarted : w.engine.started = true)
    (fire : Ticket → Act (World D) Unit) (mark sid : Nat) (cursor : Option D.Instr) (hasNext : Bool)
    {manual : Bool} (hm : manual = true → lapsed = none)
    (hl : w.engine.phase = .terminated ∨ sid ∈ w.engine.live) :
    (conclude h fire mark sid cursor hasNext manual).Ensures w fun _ v =>
      Settled books reliable (h.Tells P) lapsed w v := by
  have hannounced : (w.announced h sid cursor hasNext).attempts = w.attempts := by
    simp [Deed.attempt?]
  unfold Act.Ensures
  rw [conclude_outcome h fire w mark sid cursor hasNext manual hl (postpones_of_keeps hs hw fire)]
  split_ifs with ht
  · refine ⟨?_, ?_, Nat.le_refl _, hannounced, rfl⟩
    · rw [control_announced]
      exact hw
    · exact hw.overtaken_of_phase (by simp [ht])
  · have hkept : ((w.announced h sid cursor hasNext).kept sid hasNext).attempts = w.attempts := by
      rw [← hannounced]
      cases hasNext <;> simp [kept, Deed.attempt?]
    have htoken : ((w.announced h sid cursor hasNext).kept sid hasNext).engine.token =
        w.engine.token := by
      cases hasNext <;> rfl
    have hwound := wound_settled (w := (w.announced h sid cursor hasNext).kept sid hasNext) hs
      (by simpa using hw) (by cases hasNext <;> exact hstarted) hm
    have hmemory : ((w.announced h sid cursor hasNext).kept sid hasNext).memory = w.memory := by
      cases hasNext <;> rfl
    rcases hv : ((w.announced h sid cursor hasNext).kept sid hasNext).wound h manual with ⟨f | _, v⟩ <;>
      rw [hv] at hwound
    · exact ⟨hwound.coherent, hwound.overtaken, htoken ▸ hwound.token, hwound.attempts.trans hkept,
        hwound.memory.trans hmemory⟩
    · exact ⟨hwound.coherent, hwound.overtaken, htoken ▸ hwound.token, hwound.attempts.trans hkept,
        hwound.memory.trans hmemory⟩

/-- After an instruction that failed. -/
lemma recovered_settled (hs : h.scheduler.Keeps books reliable)
    (hw : w.control.Coherent books reliable (h.Tells P) lapsed) (hstarted : w.engine.started = true)
    (sid before : Nat) (cursor : Option D.Instr) (f : Fault) (text : String) :
    Settled books reliable (h.Tells P) lapsed w (w.recovered h sid before cursor f text) := by
  have hi : w.engine.phase ≠ .idle := hw.started_iff.1 hstarted
  have hlamented : (w.lamented h sid before cursor f text).attempts = w.attempts := by
    simp [Deed.attempt?]
  unfold recovered
  simp only
  split_ifs with ht
  · refine ⟨?_, hw.overtaken_next, Nat.le_succ _, hlamented, rfl⟩
    rw [control_lamented]
    exact hw.disarm hs w.engine.phase (by simp [ht]) Iff.rfl
  · generalize hu : (w.lamented h sid before cursor f text).kept sid (w.engine.cursor sid).isSome = u
    have hcontrol : u.control = w.control.disarmed h.scheduler := by
      rw [← hu, control_kept, control_lamented]
    have hattempts : u.attempts = w.attempts := by
      rw [← hu, ← hlamented]
      cases (w.engine.cursor sid).isSome <;> simp [kept, Deed.attempt?]
    have hmemory : u.memory = w.memory := by
      rw [← hu]
      cases (w.engine.cursor sid).isSome <;> rfl
    have htoken : u.engine.token = w.engine.token + 1 := congrArg Control.token hcontrol
    have hphase : u.engine.phase = w.engine.phase := congrArg Control.phase hcontrol
    -- Paused and without a deferred step, whatever the phase that the instruction left behind.
    have hpaused := hw.disarm hs .paused (by simp) (by simp [hi])
    unfold stumbled
    split_ifs with hl hp
    · have htwice := hpaused.disarm hs .halted (by simp) (by simp)
      refine ⟨?_, ?_, ?_, ?_, hmemory⟩
      · rw [control_entered, control_disarmed, hcontrol]
        exact htwice
      · exact hw.overtaken_next.mono (by simp [htoken])
      · simp [htoken]
        omega
      · rw [← hattempts]
        simp [Deed.attempt?]
    · refine ⟨?_, ?_, ?_, ?_, hmemory⟩
      · rw [control_entered, hcontrol]
        exact hpaused
      · exact hw.overtaken_next.mono (by simp [htoken])
      · simp [htoken]
      · rw [← hattempts]
        simp [Deed.attempt?]
    · refine ⟨?_, ?_, by omega, hattempts, hmemory⟩
      · rw [hcontrol]
        exact hw.disarm hs w.engine.phase (fun _ => hphase ▸ hp) Iff.rfl
      · exact hw.overtaken_next.mono (by simp [htoken])

/-- After a failing instruction for whose fault there are no words. -/
lemma reckoned_settled (hs : h.scheduler.Keeps books reliable)
    (hw : w.control.Coherent books reliable (h.Tells P) lapsed) (sid before : Nat) (cursor : Option D.Instr)
    (hp : h.Tells P → w.engine.phase = .terminated) :
    Settled books reliable (h.Tells P) lapsed w (w.reckoned h sid before cursor) where
  coherent := by
    rw [control_reckoned]
    exact hw.disarm hs w.engine.phase (fun ht => by simp [hp ht]) Iff.rfl
  overtaken := hw.overtaken_next
  token := Nat.le_succ _
  attempts := by simp
  memory := rfl

/-- What a whole step brings about: the control is coherent, the ticket that was fired is overtaken, and
at most one instruction was begun. -/
structure Stepped (P : D.Memory → Prop) (books : D.Clock → Option (Nat × Ticket) → Prop)
    (reliable told : Prop) (lapsed : Option Nat) (w v : World D) : Prop where
  coherent : v.control.Coherent books reliable told lapsed
  overtaken : Control.Overtaken lapsed v.engine.token
  token : w.engine.token ≤ v.engine.token
  attempts : ∃ begun, v.attempts = w.attempts ++ begun ∧ begun.length ≤ 1
  memory : P v.memory

lemma Settled.stepped {u : World D} (hv : Settled books reliable (h.Tells P) lapsed u v)
    (ht : w.engine.token ≤ u.engine.token)
    (ha : ∃ begun, u.attempts = w.attempts ++ begun ∧ begun.length ≤ 1) (hm : P u.memory) :
    Stepped P books reliable (h.Tells P) lapsed w v := by
  obtain ⟨begun, hbegun, hle⟩ := ha
  exact ⟨hv.coherent, hv.overtaken, Nat.le_trans ht hv.token,
    ⟨begun, hv.attempts.trans hbegun, hle⟩, hv.memory ▸ hm⟩

lemma Begins.attempts {u : World D} {sid : Nat} {manual : Bool} (hu : Begins w u sid manual) :
    ∃ begun, u.attempts = w.attempts ++ begun ∧ begun.length ≤ 1 := by
  rcases hu with rfl | ⟨i, rfl⟩
  · exact ⟨[], by simp, by simp⟩
  · exact ⟨[(sid, i)], by simp [Deed.attempt?], by simp⟩

lemma Begins.parts {u : World D} {sid : Nat} {manual : Bool} (hu : Begins w u sid manual) :
    u.engine = w.engine ∧ u.memory = w.memory := by
  rcases hu with rfl | ⟨i, rfl⟩ <;> exact ⟨rfl, rfl⟩

/-- An instruction may end the run for good; otherwise its strand is still in play afterwards. -/
lemma Sound.whereabouts {o : Except Fault α} (hv : Sound P books reliable (h.Tells P) lapsed w o v)
    (hstarted : w.engine.started = true) (hphase : w.engine.phase ≠ .halted) {sid : Nat}
    (hsid : sid ∈ w.engine.live) : v.engine.phase = .terminated ∨
      (v.engine.phase = .running ∨ v.engine.phase = .paused) ∧ sid ∈ v.engine.live := by
  have hi : v.engine.phase ≠ .idle := hv.coherent.started_iff.1 (hv.meddled.started hstarted)
  have hh : v.engine.phase ≠ .halted := fun hh => hphase (hv.meddled.halted hh)
  rcases hv.meddled.live hstarted with ht | hp
  · exact .inl ht
  · have hmem : sid ∈ v.engine.live := hp.subset hsid
    cases hp : v.engine.phase <;> simp_all

theorem proceed_stepped (hs : h.scheduler.Keeps books reliable) (hh : h.Tame P) (rounds depth : Nat)
    (hw : w.control.Coherent books reliable (h.Tells P) lapsed) (hm : P w.memory)
    (hstarted : w.engine.started = true) (hphase : w.engine.phase ≠ .halted)
    (fire : Ticket → Act (World D) Unit) (mark : Nat) {sid : Nat}
    (hsid : sid ∈ w.engine.live) (cursor : Option D.Instr) {manual : Bool}
    (hmanual : manual = true → lapsed = none) (hlapsed : ∀ t, lapsed = some t → t = w.engine.token) :
    (proceed h (runScript (serve h rounds depth)) fire mark sid cursor manual).Ensures w fun _ v =>
      Stepped P books reliable (h.Tells P) lapsed w v := by
  generalize hin : (w.altered (·.passing none)).altered (·.inStep true) = w'
  have hengine : w'.engine = (w.engine.passing none).inStep true := by rw [← hin]; rfl
  have hattempts : w'.attempts = w.attempts := by rw [← hin]; rfl
  have hw' : w'.control.Coherent books reliable (h.Tells P) lapsed := by rw [← hin]; exact hw
  have hm' : P w'.memory := by rw [← hin]; exact hm
  have hadvance := advance_sound hs hh rounds depth hw' hm' (by rw [hengine]; exact hstarted) sid sid
    manual
  unfold Act.Ensures at hadvance ⊢
  rw [proceed_outcome, hin]
  rcases hrun : (advance h (runScript (serve h rounds depth)) sid sid manual).outcome w' with ⟨o, v⟩
  rw [hrun] at hadvance
  obtain ⟨u, hu, hv⟩ := hadvance
  have huw : u.engine = (w.engine.passing none).inStep true := hu.parts.1.trans hengine
  have hvm : P v.memory := hv.meddled.memory (hu.parts.2 ▸ hm')
  have hbegun : ∃ begun, v.attempts = w.attempts ++ begun ∧ begun.length ≤ 1 := by
    rw [hv.meddled.attempts, ← hattempts]
    exact hu.attempts
  have htoken : w.engine.token ≤ v.engine.token := by
    have := hv.meddled.token
    rwa [huw] at this
  have hvstarted : v.engine.started = true := hv.meddled.started (by rw [huw]; exact hstarted)
  have hvphase : v.engine.phase = .terminated ∨
      (v.engine.phase = .running ∨ v.engine.phase = .paused) ∧ sid ∈ v.engine.live := by
    apply hv.whereabouts <;> rw [huw]
    · exact hstarted
    · exact hphase
    · exact hsid
  cases o with
  | ok hasNext =>
    have hend := conclude_settled (w := v.altered (·.inStep false)) hs hv.coherent hvstarted fire mark
      sid cursor hasNext hmanual (hvphase.imp_right And.right)
    exact hend.stepped htoken hbegun hvm
  | error f =>
    dsimp only
    split_ifs with hf
    · have hleaves {u : World D} (hu : Settled books reliable (h.Tells P) lapsed v u) :
          Stepped P books reliable (h.Tells P) lapsed w (u.altered (·.inStep false)) := by
        have hstep : Settled books reliable (h.Tells P) lapsed v (u.altered (·.inStep false)) :=
          ⟨hu.coherent, hu.overtaken, hu.token, hu.attempts, hu.memory⟩
        exact hstep.stepped htoken hbegun hvm
      rw [recover_outcome h v sid (w.engine.steps sid) cursor f hvphase]
      rcases hm : f.message with g | text
      · refine hleaves (reckoned_settled hs hv.coherent sid (w.engine.steps sid) cursor fun ht => ?_)
        refine (hv.worded ht f rfl (by rw [huw]; exact hstarted)).resolve_left fun ⟨text, htext⟩ => ?_
        rw [hm] at htext
        cases htext
      · exact hleaves (recovered_settled hs hv.coherent hvstarted sid (w.engine.steps sid) cursor f text)
    · have hmoved := (hv.blame f rfl (by rw [huw]; exact hstarted)).resolve_left hf
      rw [huw] at hmoved
      exact ⟨hv.coherent, fun t ht => hlapsed t ht ▸ hmoved, htoken, hbegun, hvm⟩

/-- The test for a stop returns and changes nothing but the memory. -/
lemma consult_quiet (hbreaks : ∀ i, (h.breaks i).Quiet P) (serve : Request D → Act (World D) Reply) (sid : Nat)
    (cursor : Option D.Instr) (manual : Bool) (hm : P w.memory) :
    ∃ stops m, (consult h (runScript serve) sid cursor manual).outcome w =
      (.ok stops, w.withMemory m) ∧ (stops = true → manual = false) ∧ P m := by
  refine consult_ensures (Q := fun o v => ∃ stops m, (o, v) = (.ok stops, w.withMemory m) ∧
    (stops = true → manual = false) ∧ P m) ⟨false, w.memory, rfl, nofun, hm⟩ fun hmanual _ i _ _ => ?_
  obtain ⟨stops, m, hm, hrun⟩ := runScript_quiet serve (hbreaks i) hm
  exact ⟨stops, m, hrun, fun _ => hmanual, hm⟩

/-- What a step starts from: a manual one from a pause, any other from its ticket having lapsed. -/
structure Poised (lapsed : Option Nat) (manual : Bool) (w : World D) : Prop where
  started : w.engine.started = true
  phase : w.engine.phase = if manual then .paused else .running
  manual : manual = true → lapsed = none
  lapsed : ∀ t, lapsed = some t → t = w.engine.token

/-- A step starts while the run is under way. -/
lemma Poised.awake {manual : Bool} (hp : Poised lapsed manual w) :
    w.engine.phase = .running ∨ w.engine.phase = .paused := by
  rw [hp.phase]
  cases manual
  · exact .inl rfl
  · exact .inr rfl

/-- The strand at the turn is chosen and the test for a stop has been made. -/
structure Consulted (P : D.Memory → Prop) (w v : World D) : Prop where
  busy : w.engine.live ≠ []
  turned : ∃ m, v = w.turned.withMemory m ∧ P m

namespace Consulted

variable (hv : w.Consulted P v)

include hv

lemma memory : P v.memory := by
  obtain ⟨m, rfl, hm⟩ := hv.turned
  exact hm

lemma control : v.control = w.control := by
  obtain ⟨m, rfl, -⟩ := hv.turned
  rw [control_withMemory, control_turned]

lemma phase : v.engine.phase = w.engine.phase := congrArg Control.phase hv.control

lemma started : v.engine.started = w.engine.started := congrArg Control.started hv.control

lemma token : v.engine.token = w.engine.token := congrArg Control.token hv.control

lemma live : v.engine.live = w.engine.live := by
  obtain ⟨m, rfl, -⟩ := hv.turned
  simp

lemma tell_eq {f : Deed D → Option β} (hf : ∀ e, f (.emitted e) = none) :
    Deed.tell f v.deeds = Deed.tell f w.deeds := by
  obtain ⟨m, rfl, -⟩ := hv.turned
  exact tell_turned f hf w

lemma attempts : v.attempts = w.attempts := hv.tell_eq fun _ => rfl

end Consulted

/-- The rule of a step: it finds no strand in play, it stops before an instruction, or it goes on with the
strand at the turn. What each of these ensures, the step ensures. -/
theorem executeStep_ensures (hh : h.Tame P) (serve : Request D → Act (World D) Reply) (hm : P w.memory)
    (fire : Ticket → Act (World D) Unit) {manual : Bool} (hp : Poised lapsed manual w)
    {post : Except Fault StepResult → World D → Prop}
    (hempty : w.engine.live = [] → ∀ r,
      post (.ok r) ((w.disarmed h.scheduler).entered .halted "no live strands"))
    (hstop : ∀ v, w.Consulted P v → v.engine.phase = .running → ∀ r sid i, post (.ok r) (v.stopped h sid i))
    (hproceed : ∀ v, w.Consulted P v → ∀ sid ∈ v.engine.live, ∀ cursor,
      (proceed h (runScript serve) fire w.engine.nextSeq sid cursor manual).Ensures v post) :
    (executeStep h (runScript serve) fire manual).Ensures w post := by
  by_cases hl : w.engine.live = []
  · exact Act.ensures_of_outcome (executeStep_empty h _ fire w manual hl hp.awake) (hempty hl _)
  · have hsid : w.engine.turned.atTurn ∈ w.engine.live := atTurn_mem hl
    generalize hturn : w.engine.turned.atTurn = sid at hsid
    generalize hcursor : w.engine.cursor sid = cursor
    obtain ⟨stops, m, hconsult, hstops, hm⟩ :=
      consult_quiet (w := w.turned) hh.breaks serve sid cursor manual (by simpa using hm)
    have hv : w.Consulted P (w.turned.withMemory m) := ⟨hl, m, rfl, hm⟩
    have hgoes := hproceed _ hv sid (hv.live ▸ hsid) cursor
    unfold Act.Ensures
    rw [executeStep_outcome h _ fire w manual hl hturn hcursor, hconsult]
    rcases stops with _ | _
    · exact hgoes
    · rcases cursor with _ | i
      · exact hgoes
      · have hrun : (w.turned.withMemory m).engine.phase = .running := by
          rw [hv.phase, hp.phase, hstops rfl]
          rfl
        simp only [stop_outcome h _ w.engine.nextSeq sid i hrun]
        exact hstop _ hv hrun _ sid i

theorem executeStep_stepped (hs : h.scheduler.Keeps books reliable) (hh : h.Tame P) (rounds depth : Nat)
    (hw : w.control.Coherent books reliable (h.Tells P) lapsed) (hm : P w.memory)
    (fire : Ticket → Act (World D) Unit) {manual : Bool} (hp : Poised lapsed manual w) :
    (executeStep h (runScript (serve h rounds depth)) fire manual).Ensures w fun _ v =>
      Stepped P books reliable (h.Tells P) lapsed w v := by
  refine executeStep_ensures hh (serve h rounds depth) hm fire hp (fun _ _ => ?_)
    (fun v hv hrun _ sid i => ?_) fun v hv sid hsid cursor => ?_
  · have hend : Settled books reliable (h.Tells P) lapsed w _ := halted_settled hs hw (hw.started_iff.1 hp.started)
    exact hend.stepped (Nat.le_refl _) ⟨[], by simp, by simp⟩ hm
  · have hstop := hw.disarm hs .paused (by simp) (by simp [← hv.phase, hrun])
    refine ⟨?_, ?_, ?_, ⟨[], ?_, by simp⟩, ?_⟩
    · rw [control_stopped, hv.control]
      exact hstop
    · exact hw.overtaken_next.mono (by simp [stopped, hv.token])
    · simp [stopped, hv.token]
    · rw [← hv.attempts]
      simp [stopped, Deed.attempt?]
    · simpa [stopped] using hv.memory
  · have hstarted : v.engine.started = true := hv.started.trans hp.started
    have hphase : v.engine.phase ≠ .halted := by
      rcases hp.awake with hr | hr <;> simp [hv.phase, hr]
    refine (proceed_stepped hs hh rounds depth (hv.control ▸ hw) hv.memory hstarted hphase fire
      w.engine.nextSeq hsid cursor hp.manual (hv.token ▸ hp.lapsed)).mono fun _ u hu => ?_
    obtain ⟨begun, hbegun, hle⟩ := hu.attempts
    exact ⟨hu.coherent, hu.overtaken, hv.token ▸ hu.token, ⟨begun, hv.attempts ▸ hbegun, hle⟩, hu.memory⟩

lemma Stepped.refl (hw : w.control.Coherent books reliable (h.Tells P) none) (hm : P w.memory) :
    Stepped P books reliable (h.Tells P) none w w :=
  ⟨hw, nofun, Nat.le_refl _, ⟨[], by simp, by simp⟩, hm⟩

lemma Sound.stepped {o : Except Fault α} (hv : Sound P books reliable (h.Tells P) none w o v) (hm : P w.memory) :
    Stepped P books reliable (h.Tells P) none w v :=
  ⟨hv.coherent, nofun, hv.meddled.token, ⟨[], by rw [hv.meddled.attempts, List.append_nil], by simp⟩,
    hv.meddled.memory hm⟩

/-- A manual step. -/
theorem step_stepped (hs : h.scheduler.Keeps books reliable) (hh : h.Tame P) (rounds depth : Nat)
    (hw : w.control.Coherent books reliable (h.Tells P) none) (hm : P w.memory) :
    (serve h rounds depth .step).Ensures w fun _ v => Stepped P books reliable (h.Tells P) none w v := by
  cases depth with
  | zero => exact .refl hw hm
  | succ depth =>
    refine Act.Ensures.reply (I := fun v => Stepped P books reliable (h.Tells P) none w v) ?_
    refine step_ensures (fun _ _ => .refl hw hm) (fun _ => .refl hw hm) fun hstarted hphase => ?_
    have hpaused := hphase.resolve_left (hw.started_iff.1 hstarted)
    exact executeStep_stepped hs hh rounds depth hw hm _ ⟨hstarted, hpaused, fun _ => rfl, nofun⟩

/-- Every operation keeps the control coherent. -/
theorem operation_stepped (hs : h.scheduler.Keeps books reliable) (hh : h.Tame P) (rounds depth : Nat)
    (hw : w.control.Coherent books reliable (h.Tells P) none) (hm : P w.memory) {r : Request D}
    (hr : r.IsOperation) :
    (serve h rounds depth r).Ensures w fun _ v => Stepped P books reliable (h.Tells P) none w v := by
  rcases hr.step_or_inner with rfl | hinner
  · exact step_stepped hs hh rounds depth hw hm
  · exact (serve_sound hs hh rounds depth hw hm hinner).mono fun _ _ hv => hv.stepped hm

/-- The ticket that counts has come due while the engine runs. -/
lemma poised_fired {clock : D.Clock} (hw : w.control.Coherent books reliable (h.Tells P) none)
    (hp : w.engine.phase = .running) :
    Poised (some w.engine.token) false ((w.atClock clock).altered (·.unarmed)) :=
  ⟨hw.started_iff.2 (by simp [hp]), hp, nofun, fun _ ht => (Option.some.inj ht).symm⟩

/-- The control is coherent again after that step. The scheduler may have struck the ticket off its books
first. -/
theorem fire_current (hs : h.scheduler.Keeps books reliable) (hh : h.Tame P) (rounds depth : Nat)
    (hw : w.control.Coherent books reliable (h.Tells P) none) (hm : P w.memory)
    (hp : w.engine.phase = .running) {clock : D.Clock} (hk : books clock none) :
    (serve h rounds (depth + 1) (.fire w.ticket)).Ensures (w.atClock clock) fun _ v =>
      Stepped P books reliable (h.Tells P) (some w.engine.token) w v := by
  have hstep := executeStep_stepped (w := (w.atClock clock).altered (·.unarmed))
    hs hh rounds depth (hw.lapse hp hk) hm (fun t => discard (serve h rounds depth (.fire t)))
    (poised_fired hw hp)
  refine Act.ensures_of_outcome (fire_running (w := w.atClock clock) h rounds depth hp) ?_
  exact ⟨hstep.coherent, hstep.overtaken, hstep.token, hstep.attempts, hstep.memory⟩

/-- An engine that does not run has nothing to let go of. -/
lemma unarmed_idle (hw : w.control.Coherent books reliable (h.Tells P) none) (hp : w.engine.phase ≠ .running) :
    w.altered (·.unarmed) = w := by
  refine altered_unarmed ?_
  rcases hq : w.engine.pending with _ | handle
  · rfl
  · exact absurd (hw.armed (by simp [hq])).1 hp

/-- Firing the ticket that counts while not running changes nothing. -/
lemma fire_idle (h : Host D) (rounds depth : Nat) (hw : w.control.Coherent books reliable (h.Tells P) none)
    (hp : w.engine.phase ≠ .running) :
    (serve h rounds (depth + 1) (.fire w.ticket)).outcome w = (.ok .nothing, w) := by
  rw [fire_not_running h rounds depth hp, unarmed_idle hw hp]

end Loom.World
