import Loom.Proofs.Control
import Loom.Proofs.Script
import Loom.Proofs.StepOutcome

/-! Every operation and every step of an engine keeps its control coherent. An operation does so at any
time; an instruction, which may ask for operations while the ticket that brought it about has lapsed,
leaves the control coherent up to that ticket; and every way out of a step replaces the ticket. -/
namespace Loom

/-- What the code of a program may do on memories with `P`: instructions ask for operations other than a
step and fail with ordinary faults of their own, the test for a stop returns and asks for nothing, a
farewell asks for operations, and `P` is kept throughout. -/
structure Host.Tame (h : Host D) (P : D.Memory → Prop) : Prop where
  code : ∀ i scope, (h.code i scope).Heeds P Request.IsInner fun f => f.isOrdinary = true
  next : ∀ {m} i, P m → FailsOrdinarily (h.next m i)
  breaks : ∀ i, (h.breaks i).Quiet P
  farewell : ∀ f, (h.farewell f).Heeds P Request.IsOperation fun _ => True
  install : ∀ {m} n contents, P m → P (h.install m n contents)

/-- The faults of a program's own code on memories with `P`, and those of its scheduler, can be worded. -/
structure Host.Tells (h : Host D) (P : D.Memory → Prop) : Prop where
  code : ∀ i scope, (h.code i scope).Heeds P Request.IsInner Fault.IsTold
  next : ∀ {m} i f, P m → h.next m i = .error f → f.IsTold
  arm : ∀ {c delay t f c'}, h.scheduler.arm c delay t = (.error f, c') → f.IsTold

/-- A computation that gives a result or fails with an ordinary fault, which can be worded if faults are `told`. -/
def FailsFitly (told : Prop) (r : Except Fault α) : Prop :=
  ∀ f, r = .error f → f.isOrdinary = true ∧ (told → f.IsTold)

namespace FailsFitly

variable {told : Prop}

lemma ok (a : α) : FailsFitly told (.ok a) := nofun

lemma error {f : Fault} (ho : f.isOrdinary = true) (ht : told → f.IsTold) :
    FailsFitly told (.error f : Except Fault α) := by
  rintro _ ⟨⟩
  exact ⟨ho, ht⟩

lemma plain {f : Fault} (hf : f.IsPlain) : FailsFitly told (.error f : Except Fault α) :=
  .error hf.ordinary fun _ => hf.told

end FailsFitly

lemma FailsPlainly.fitly {told : Prop} {r : Except Fault α} (hr : FailsPlainly r) : FailsFitly told r :=
  fun f hf => ⟨(hr f hf).ordinary, fun _ => (hr f hf).told⟩

/-- A tame program's instructions fail with ordinary faults, which can be worded if all of its faults can. -/
lemma Host.Tame.code_fitly {h : Host D} {P : D.Memory → Prop} (hh : h.Tame P) (i : D.Instr) (scope : Nat) :
    (h.code i scope).Heeds P Request.IsInner fun f => f.isOrdinary = true ∧ (h.Tells P → f.IsTold) := by
  by_cases ht : h.Tells P
  · exact ((hh.code i scope).and (ht.code i scope)).mono fun f hf => ⟨hf.1, fun _ => hf.2⟩
  · exact (hh.code i scope).mono fun f hf => ⟨hf, fun h => absurd h ht⟩

namespace World

variable {D : Dialect}

/-- The part of a world that decides which deferred step counts. -/
@[simps] def control (w : World D) : Control D.Clock where
  run := w.engine.run
  token := w.engine.token
  pending := w.engine.pending
  phase := w.engine.phase
  started := w.engine.started
  tickets := w.tickets
  clock := w.clock

section Parts

variable (w : World D)

@[simp] lemma control_emitted (what : Happening) : (w.emitted what).control = w.control := by
  simp [control, Deed.ticket?]

@[simp] lemma control_noted (level : LogLevel) (source : LogSource) (text : String) :
    (w.noted level source text).control = w.control := rfl

@[simp] lemma control_withMemory (memory : D.Memory) : (w.withMemory memory).control = w.control := rfl

@[simp] lemma control_entered (phase : Phase) (reason : String) :
    (w.entered phase reason).control = w.control.inPhase phase := by
  simp [control, Control.inPhase, Deed.ticket?]

@[simp] lemma control_disarmed (s : Scheduler D.Clock) :
    (w.disarmed s).control = w.control.disarmed s := rfl

@[simp] lemma control_armed (s : Scheduler D.Clock) (handle : Nat) (clock : D.Clock) :
    (w.armed s handle clock).control = w.control.armed s handle clock := by
  simp [control, Control.armed, Deed.ticket?, ticket, Control.ticket]

@[simp] lemma control_refused (s : Scheduler D.Clock) (clock : D.Clock) :
    (w.refused s clock).control = w.control.refused s clock := by
  simp [control, Control.refused, Deed.ticket?, ticket, Control.ticket, Control.disarmed]

@[simp] lemma control_retired (sid : Nat) : (w.retired sid).control = w.control := by
  simp [control, Deed.ticket?]

@[simp] lemma control_spawned (h : Host D) (i : D.Instr) (scope : ScopeChoice D) :
    (w.spawned h i scope).control = w.control := by
  simp [control, Deed.ticket?]

@[simp] lemma control_ended (s : Scheduler D.Clock) :
    (w.ended s).control = (w.control.disarmed s).inPhase .terminated := by
  simp [control, Control.disarmed, Control.inPhase, Deed.ticket?]

@[simp] lemma control_sought (h : Host D) (entry : Option D.Instr) :
    (w.sought h entry).control = w.control := by
  simp [control]

@[simp] lemma control_begun (h : Host D) (cursor : Option D.Instr) (contents : D.Scope) :
    (w.begun h cursor contents).control = w.control.going := by
  cases cursor <;> simp [begun, control, Control.going, Deed.ticket?]

@[simp] lemma control_turned : w.turned.control = w.control := by
  simp [control, tell_turned Deed.ticket? fun _ => rfl]

@[simp] lemma control_stopped (h : Host D) (sid : Nat) (i : D.Instr) :
    (w.stopped h sid i).control = (w.control.disarmed h.scheduler).inPhase .paused := by
  simp [stopped]
  rfl

@[simp] lemma control_announced (h : Host D) (sid : Nat) (cursor : Option D.Instr) (hasNext : Bool) :
    (w.announced h sid cursor hasNext).control = w.control := by
  simp [control, Deed.ticket?]

@[simp] lemma control_kept (sid : Nat) (hasNext : Bool) : (w.kept sid hasNext).control = w.control := by
  cases hasNext <;> simp [kept]

@[simp] lemma control_reckoned (h : Host D) (sid before : Nat) (cursor : Option D.Instr) :
    (w.reckoned h sid before cursor).control = w.control.disarmed h.scheduler := rfl

@[simp] lemma control_lamented (h : Host D) (sid before : Nat) (cursor : Option D.Instr) (f : Fault)
    (text : String) : (w.lamented h sid before cursor f text).control = w.control.disarmed h.scheduler := by
  simp [control, Control.disarmed, Deed.ticket?]

end Parts

/-- What operations may bring about, as far as a step under way depends on it. -/
structure Meddled (P : D.Memory → Prop) (w v : World D) : Prop where
  token : w.engine.token ≤ v.engine.token
  started : w.engine.started = true → v.engine.started = true
  live : w.engine.started = true → v.engine.phase = .terminated ∨ w.engine.live <+: v.engine.live
  final : w.engine.phase = .terminated → v.engine.phase = .terminated
  halted : v.engine.phase = .halted → w.engine.phase = .halted
  attempts : v.attempts = w.attempts
  memory : P w.memory → P v.memory

lemma Meddled.refl {P : D.Memory → Prop} (w : World D) : Meddled P w w :=
  ⟨Nat.le_refl _, id, fun _ => .inr (List.prefix_refl _), id, id, rfl, id⟩

lemma Meddled.trans {P : D.Memory → Prop} {w v u : World D} (h : Meddled P w v) (h' : Meddled P v u) :
    Meddled P w u where
  token := Nat.le_trans h.token h'.token
  started hs := h'.started (h.started hs)
  live hs := by
    rcases h.live hs with ht | hp
    · exact .inl (h'.final ht)
    · exact (h'.live (h.started hs)).imp_right hp.trans
  final ht := h'.final (h.final ht)
  halted hh := h.halted (h'.halted hh)
  attempts := h'.attempts.trans h.attempts
  memory hm := h'.memory (h.memory hm)

section Meddling

variable {P : D.Memory → Prop} (w : World D)

/-- A new strand's scope is made without harm. -/
lemma newMemory_kept {h : Host D} (hinstall : ∀ {m} n contents, P m → P (h.install m n contents))
    (scope : ScopeChoice D) (hm : P w.memory) : P (w.newMemory h scope) := by
  cases scope with
  | fresh => exact hinstall _ _ hm
  | given contents => exact hinstall _ _ hm
  | shared sid => exact hm

lemma meddled_disarmed (s : Scheduler D.Clock) : Meddled P w (w.disarmed s) :=
  ⟨Nat.le_succ _, id, fun _ => .inr (List.prefix_refl _), id, id, rfl, id⟩

lemma meddled_armed (s : Scheduler D.Clock) (handle : Nat) (clock : D.Clock) :
    Meddled P w (w.armed s handle clock) :=
  ⟨Nat.le_succ _, id, fun _ => .inr (List.prefix_refl _), id, id, by simp [Deed.attempt?], id⟩

lemma meddled_refused (s : Scheduler D.Clock) (clock : D.Clock) : Meddled P w (w.refused s clock) :=
  ⟨Nat.le_succ _, id, fun _ => .inr (List.prefix_refl _), id, id, by simp [Deed.attempt?], id⟩

lemma meddled_entered {phase : Phase} (reason : String) (hh : phase ≠ .halted)
    (ht : w.engine.phase ≠ .terminated) : Meddled P w (w.entered phase reason) :=
  ⟨Nat.le_refl _, id, fun _ => .inr (List.prefix_refl _), fun h => absurd h ht, fun h => absurd h hh,
    by simp [Deed.attempt?], id⟩

lemma meddled_spawned {h : Host D} (hh : h.Tame P) (i : D.Instr) (scope : ScopeChoice D) :
    Meddled P w (w.spawned h i scope) :=
  ⟨Nat.le_refl _, id, fun _ => .inr (List.prefix_append _ _), id, id, by simp [Deed.attempt?],
    w.newMemory_kept hh.install scope⟩

lemma meddled_ended (s : Scheduler D.Clock) : Meddled P w (w.ended s) :=
  ⟨Nat.le_succ _, id, fun _ => .inl rfl, fun _ => rfl, fun h => by simp at h, by simp [Deed.attempt?], id⟩

end Meddling

/-- The control stays coherent. A fault that is not ordinary comes only with a moved token, and where faults are
`told` one that cannot be worded comes only with the end of the run. -/
structure Sound (P : D.Memory → Prop) (books : D.Clock → Option (Nat × Ticket) → Prop) (reliable told : Prop)
    (lapsed : Option Nat) (w : World D) (o : Except Fault α) (v : World D) : Prop where
  coherent : v.control.Coherent books reliable told lapsed
  meddled : Meddled P w v
  blame : ∀ f, o = .error f → w.engine.started = true →
    f.isOrdinary = true ∨ w.engine.token < v.engine.token
  worded : told → ∀ f, o = .error f → w.engine.started = true → f.IsTold ∨ v.engine.phase = .terminated

section Operations

variable {h : Host D} {P : D.Memory → Prop} {books : D.Clock → Option (Nat × Ticket) → Prop}
  {reliable told : Prop} {lapsed : Option Nat} {w v : World D}

namespace Sound

/-- An outcome other than a new fault does not matter. -/
lemma ok {o : Except Fault α} (hv : Sound P books reliable told lapsed w o v) (b : β) :
    Sound P books reliable told lapsed w (.ok b : Except Fault β) v :=
  ⟨hv.coherent, hv.meddled, nofun, fun _ => nofun⟩

lemma error {f : Fault} (hv : Sound P books reliable told lapsed w (.error f : Except Fault α) v) :
    Sound P books reliable told lapsed w (.error f : Except Fault β) v :=
  ⟨hv.coherent, hv.meddled, fun g hg => by cases hg; exact hv.blame f rfl,
    fun ht g hg => by cases hg; exact hv.worded ht f rfl⟩

/-- Nothing went wrong. -/
lemma returned {x : α} (hc : v.control.Coherent books reliable told lapsed) (hm : Meddled P w v) :
    Sound P books reliable told lapsed w (.ok x : Except Fault α) v :=
  ⟨hc, hm, nofun, fun _ => nofun⟩

/-- Whatever goes wrong after the token has moved is no matter, if there are words for it. -/
lemma moved {f : Fault} (hc : v.control.Coherent books reliable told lapsed) (hm : Meddled P w v)
    (ht : w.engine.token < v.engine.token) (hf : told → f.IsTold ∨ v.engine.phase = .terminated) :
    Sound P books reliable told lapsed w (.error f : Except Fault α) v :=
  ⟨hc, hm, fun _ _ _ => .inr ht, fun htold g hg _ => by cases hg; exact hf htold⟩

/-- Nothing happened but a fault that is fit. -/
lemma unchanged (hw : w.control.Coherent books reliable told lapsed) {o : Except Fault α}
    (ho : FailsFitly told o) (hc : v.control = w.control) (hl : v.engine.live = w.engine.live)
    (ha : v.attempts = w.attempts) (hm : P w.memory → P v.memory) :
    Sound P books reliable told lapsed w o v where
  coherent := hc ▸ hw
  meddled := by
    simp only [Control.ext_iff, control] at hc
    obtain ⟨-, ht, -, hp, hs, -⟩ := hc
    refine ⟨Nat.le_of_eq ht.symm, fun h => hs ▸ h, fun _ => .inr (hl ▸ List.prefix_refl _), fun h => hp ▸ h,
      fun h => hp ▸ h, ha, hm⟩
  blame f hf _ := .inl (ho f hf).1
  worded ht f hf _ := .inl ((ho f hf).2 ht)

end Sound

lemma postpones_of_keeps (hs : h.scheduler.Keeps books reliable)
    (hw : w.control.Coherent books reliable (h.Tells P) lapsed) (fire : Ticket → Act (World D) Unit) :
    w.Postpones h fire :=
  postpones_of_later w h fire fun _ _ _ _ ha => (hs.taken (hw.books_disarmed hs) ha).1

theorem pause_sound (hs : h.scheduler.Keeps books reliable)
    (hw : w.control.Coherent books reliable (h.Tells P) lapsed) :
    (pause h).Ensures w (Sound P books reliable (h.Tells P) lapsed w) := by
  refine pause_ensures (fun f hr => .unchanged hw (.plain (refusal_plain hr)) rfl rfl rfl id)
    (fun hr _ => ?_) fun _ hp => ?_
  · obtain ⟨hstarted, hlive⟩ := started_of_refusal hr
    have hidle : w.engine.phase ≠ .idle := hw.started_iff.1 hstarted
    have hc := hw.disarm hs .paused (by simp) (by simp [hidle])
    refine .returned (by simpa using hc) ?_
    exact (meddled_disarmed w h.scheduler).trans (meddled_entered _ "pause" (by simp) hlive)
  · exact .returned (hw.disarm hs w.engine.phase (fun _ => hp) Iff.rfl) (meddled_disarmed w h.scheduler)

/-- Deferring a step from a world that is live, or about to be set going. -/
lemma deferred_sound (hs : h.scheduler.Keeps books reliable)
    (hw : w.control.Coherent books reliable (h.Tells P) lapsed) (delay : Binary64) :
    (∃ handle clock, w.deferred h.scheduler delay = (.ok (), w.armed h.scheduler handle clock) ∧
      (w.control.armed h.scheduler handle clock).going.Coherent books reliable (h.Tells P) lapsed) ∨
    (∃ f clock, w.deferred h.scheduler delay = (.error f, w.refused h.scheduler clock) ∧
      (w.control.refused h.scheduler clock).Coherent books reliable (h.Tells P) lapsed ∧
      (h.Tells P → f.IsTold)) := by
  unfold deferred
  rcases ha : h.scheduler.arm (w.disarmed h.scheduler).clock delay (w.disarmed h.scheduler).ticket
    with ⟨f | a, clock⟩
  · exact .inr ⟨f, clock, rfl, hw.refuse hs ha, fun ht => ht.arm ha⟩
  · exact .inl ⟨a.handle, clock, rfl, hw.arm hs ha⟩

theorem resume_sound (hs : h.scheduler.Keeps books reliable)
    (hw : w.control.Coherent books reliable (h.Tells P) lapsed) (fire : Ticket → Act (World D) Unit) :
    (resume h fire).Ensures w (Sound P books reliable (h.Tells P) lapsed w) := by
  unfold Act.Ensures
  rw [resume_outcome h w fire (postpones_of_keeps hs hw fire)]
  rcases hr : w.engine.refusal "resume" with _ | f
  · obtain ⟨hstarted, hlive⟩ := started_of_refusal hr
    have hidle : w.engine.phase ≠ .idle := hw.started_iff.1 hstarted
    dsimp only
    split_ifs with hp
    · exact .unchanged hw (.ok _) rfl rfl rfl id
    · rcases deferred_sound hs hw .zero with ⟨handle, clock, hd, hc⟩ | ⟨f, clock, hd, hc, hf⟩
      · rw [hd]
        have hm : Meddled P w _ := meddled_armed w h.scheduler handle clock
        dsimp only
        split_ifs with hq
        · refine .returned ?_ (hm.trans (meddled_entered _ "resume" (by simp) hlive))
          convert hc using 1
          ext1 <;> simp [hstarted]
        · refine .returned ?_ hm
          have hrun : w.engine.phase = .running := by
            simp at hq
            cases hw : w.engine.phase <;> simp_all
          convert hc using 1
          ext1 <;> simp [hstarted, hrun]
      · rw [hd]
        exact .moved (by simpa using hc) (meddled_refused w h.scheduler clock) (Nat.lt_succ_self _)
          fun ht => .inl (hf ht)
  · exact .unchanged hw (.plain (refusal_plain hr)) rfl rfl rfl id

theorem spawn_sound (hs : h.scheduler.Keeps books reliable) (hh : h.Tame P)
    (hw : w.control.Coherent books reliable (h.Tells P) lapsed) (fire : Ticket → Act (World D) Unit)
    (entry : Option D.Instr) (scope : ScopeChoice D) :
    (spawn h fire entry scope).Ensures w (Sound P books reliable (h.Tells P) lapsed w) := by
  refine spawn_ensures (postpones_of_keeps hs hw fire)
    (fun _ hf => .unchanged hw (.plain hf) rfl rfl rfl id) fun i _ hstarted _ _ => ?_
  have hm := meddled_spawned w hh i scope
  have hc : (w.spawned h i scope).control.Coherent books reliable (h.Tells P) lapsed := by
    rw [control_spawned]
    exact hw
  refine ⟨fun hrun => ?_, ⟨hc, hm, nofun, fun _ => nofun⟩⟩
  rcases deferred_sound hs hc .zero with ⟨handle, clock, hd, hc⟩ | ⟨f, clock, hd, hc, hf⟩
  · rw [hd]
    refine .returned ?_ (hm.trans (meddled_armed _ _ _ _))
    convert hc using 1
    ext1 <;> simp [hstarted, hrun]
  · rw [hd]
    exact .moved (by simpa using hc) (hm.trans (meddled_refused _ _ _)) (Nat.lt_succ_self _)
      fun ht => .inl (hf ht)

@[simp] lemma begun_phase (w : World D) (h : Host D) (cursor : Option D.Instr) (contents : D.Scope) :
    (w.begun h cursor contents).engine.phase = .running := by
  cases cursor <;> rfl

@[simp] lemma begun_token (w : World D) (h : Host D) (cursor : Option D.Instr) (contents : D.Scope) :
    (w.begun h cursor contents).engine.token = w.engine.token := by
  cases cursor <;> rfl

@[simp] lemma begun_attempts (w : World D) (h : Host D) (cursor : Option D.Instr)
    (contents : D.Scope) : (w.begun h cursor contents).attempts = w.attempts := by
  cases cursor <;> simp [begun, Deed.attempt?]

@[simp] lemma begun_memory (w : World D) (h : Host D) (cursor : Option D.Instr)
    (contents : D.Scope) : (w.begun h cursor contents).memory = w.newMemory h (.given contents) := by
  cases cursor <;> rfl

theorem start_sound (hs : h.scheduler.Keeps books reliable) (hh : h.Tame P)
    (hw : w.control.Coherent books reliable (h.Tells P) lapsed) (fire : Ticket → Act (World D) Unit)
    (entry : Option D.Instr) : (start h fire entry).Ensures w (Sound P books reliable (h.Tells P) lapsed w) := by
  unfold Act.Ensures
  rcases hstarted : w.engine.started with _ | _
  · have hidle : w.engine.phase = .idle := idle_of_unstarted hw.started_iff hstarted
    have hc : (w.sought h entry).control.Coherent books reliable (h.Tells P) lapsed := by
      rw [control_sought]
      exact hw
    rw [start_outcome h w fire entry hidle (postpones_of_keeps hs hw fire)]
    simp only [hstarted, Bool.false_eq_true, if_false]
    rcases w.root h entry with f | ⟨cursor, contents⟩
    · have hu : Sound P _ _ _ _ _ _ _ :=
        .unchanged (v := w.sought h entry) hw (.ok ()) (by simp) (by simp) (by simp) (by simp)
      exact ⟨hu.coherent, hu.meddled, fun _ _ ht => by simp [hstarted] at ht,
        fun _ _ _ ht => by simp [hstarted] at ht⟩
    · rcases deferred_sound hs hc .zero with ⟨handle, clock, hd, hc⟩ | ⟨f, clock, hd, hc, hf⟩
      · rw [hd]
        refine .returned ?_ ⟨?_, ?_, ?_, ?_, ?_, ?_, ?_⟩
        · simpa using hc
        · simp
        · simp [hstarted]
        · simp [hstarted]
        · simp [hidle]
        · simp
        · rw [begun_attempts]
          simp [Deed.attempt?]
        · intro hm
          rw [begun_memory]
          exact newMemory_kept _ hh.install (.given contents) (by simpa using hm)
      · rw [hd]
        refine .moved ?_ ⟨?_, ?_, ?_, ?_, ?_, ?_, ?_⟩ ?_ fun ht => .inl (hf ht)
        · simpa using hc
        · simp
        · simp [hstarted]
        · simp [hstarted]
        · simp [hidle]
        · simp
        · simp [Deed.attempt?]
        · simp
        · simp
  · rw [start_again h fire entry hstarted]
    exact .unchanged hw (.plain ⟨rfl, rfl, _, rfl⟩) rfl rfl rfl id

theorem setRate_sound (hw : w.control.Coherent books reliable (h.Tells P) lapsed) (given : Option Value) :
    (setRate given).Ensures w (Sound P books reliable (h.Tells P) lapsed w) :=
  setRate_ensures (fun _ hf => .unchanged hw (.plain hf) rfl rfl rfl id)
    fun _ => .unchanged hw (.ok _) rfl rfl rfl id

/-- A world that has ended for good stays as it is, whatever is asked of it. -/
def Stays (P : D.Memory → Prop) (w v : World D) : Prop :=
  v.control = w.control ∧ v.engine.live = w.engine.live ∧ v.attempts = w.attempts ∧
    (P w.memory → P v.memory)

lemma Stays.refl (w : World D) : Stays P w w := ⟨rfl, rfl, rfl, id⟩

lemma Stays.trans {w v u : World D} (h : Stays P w v) (h' : Stays P v u) : Stays P w u :=
  ⟨h'.1.trans h.1, h'.2.1.trans h.2.1, h'.2.2.1.trans h.2.2.1, fun hm => h'.2.2.2 (h.2.2.2 hm)⟩

/-- Harmless changes after the fact. -/
lemma Sound.stays {o : Except Fault α} {o' : Except Fault β} {u : World D}
    (hv : Sound P books reliable told lapsed w o v) (hu : Stays P v u) (ho : FailsFitly told o') :
    Sound P books reliable told lapsed w o' u := by
  have hsame := Sound.unchanged hv.coherent (.ok ()) hu.1 hu.2.1 hu.2.2.1 hu.2.2.2
  exact ⟨hsame.coherent, hv.meddled.trans hsame.meddled, fun f hf _ => .inl (ho f hf).1,
    fun ht f hf _ => .inl ((ho f hf).2 ht)⟩

/-- Once terminated, every operation leaves the control, the strands and the deeds alone, so that no
script is ever run again. -/
theorem serve_terminated (h : Host D) (rounds depth : Nat) {r : Request D} (hr : r.IsOperation)
    (hs : w.engine.started = true) (hp : w.engine.phase = .terminated) :
    (serve h rounds depth r).Ensures w fun _ v => Stays P w v := by
  have hrefuse (operation : String) : w.engine.refusal operation = some (.isTerminated operation) := by
    simp [Engine.refusal, hs, hp]
  cases depth with
  | zero => exact .refl w
  | succ depth =>
    unfold serve perform Act.Ensures
    cases r with
    | start entry => simp [start, hs, Stays.refl]
    | pause => simp [pause_outcome, hrefuse, Stays.refl]
    | resume => simp [resume, requireLive_outcome, hrefuse, Stays.refl]
    | rate given => simp [setRate_outcome, hp, Stays.refl]
    | terminate farewell => simp [terminate, hs, hp, Stays.refl]
    | breakpoints on => exact ⟨rfl, rfl, rfl, id⟩
    | spawn entry scope => simp [spawn, requireLive_outcome, hrefuse, Stays.refl]
    | step => simp [step, requireLive_outcome, hrefuse, Stays.refl]
    | info => exact .refl w
    | current => exact .refl w
    | events limit => exact .refl w
    | emit type strand data =>
      exact announce_ensures (Q := fun _ v => Stays P w v) (fun _ _ => .refl w) fun _ _ =>
        by simp [Stays, Deed.attempt?]
    | _ => exact hr.elim

/-- A script run in a world that has ended for good leaves it as it is. -/
lemma runScript_terminated (h : Host D) (rounds depth : Nat) {s : Script D α} {q : Fault → Prop}
    (hs : s.Heeds P Request.IsOperation q) (hstarted : w.engine.started = true)
    (hp : w.engine.phase = .terminated) (hm : P w.memory) :
    (runScript (serve h rounds depth) s).Ensures w fun _ v => Stays P w v := by
  have hrun := runScript_ensures (serve h rounds depth) (I := Stays P w)
    (F := fun _ _ => True) (fun v hv => hv.2.2.2 hm)
    (fun v m hm hv => ⟨⟨hv.1, hv.2.1, hv.2.2.1, fun _ => hm⟩, fun _ _ => trivial⟩) ?_ hs
    (Stays.refl w) fun _ _ => trivial
  · exact hrun.mono fun _ _ hv => hv.1
  · intro r v hr hv
    have hstarted' : v.engine.started = true := (congrArg Control.started hv.1).trans hstarted
    have hp' : v.engine.phase = .terminated := (congrArg Control.phase hv.1).trans hp
    exact (serve_terminated h rounds depth hr hstarted' hp').mono fun _ _ hu =>
      ⟨hv.trans hu, fun _ _ => trivial, fun _ _ => trivial⟩

lemma terminate_sound (hs : h.scheduler.Keeps books reliable)
    (hw : w.control.Coherent books reliable (h.Tells P) lapsed) :
    (terminate h).Ensures w fun o v => Sound P books reliable (h.Tells P) lapsed w o v ∧
      (o = .ok () → v.engine.started = true ∧ v.engine.phase = .terminated ∧
        w.engine.token < v.engine.token) := by
  rcases terminate_cases h w hw.started_iff.1 with ⟨f, hf, hout⟩ | ⟨hstarted, -, hout⟩
  · exact Act.ensures_of_outcome hout
      ⟨.unchanged hw (.plain hf) rfl rfl rfl id, fun h => by cases h⟩
  · have hidle : w.engine.phase ≠ .idle := hw.started_iff.1 hstarted
    refine Act.ensures_of_outcome hout ⟨.returned ?_ (meddled_ended w h.scheduler),
      fun _ => ⟨hstarted, rfl, Nat.lt_succ_self _⟩⟩
    rw [control_ended]
    exact hw.disarm hs .terminated (by simp) (by simp [hidle])

/-- Answering from the state changes nothing. -/
lemma ensures_reply {a : Act (World D) α} {k : α → Act (World D) Reply}
    (ha : a.Ensures w (Sound P books reliable (h.Tells P) lapsed w))
    (hk : ∀ x v, ∃ y, (k x).outcome v = (.ok y, v)) :
    (a >>= k).Ensures w (Sound P books reliable (h.Tells P) lapsed w) := by
  refine ha.bind (fun x v hv => ?_) fun e v hv => hv.error
  obtain ⟨y, hy⟩ := hk x v
  exact Act.ensures_of_outcome hy (hv.ok y)

/-- Saying farewell changes nothing, since the world has ended for good. -/
lemma farewell_sound (hs : h.scheduler.Keeps books reliable) (hh : h.Tame P) (rounds depth : Nat)
    (hw : w.control.Coherent books reliable (h.Tells P) lapsed) (hm : P w.memory) (farewell : Option D.Farewell) :
    (serve h rounds (depth + 1) (.terminate farewell)).Ensures w (Sound P books reliable (h.Tells P) lapsed w) := by
  cases farewell with
  | none => exact ensures_reply ((terminate_sound hs hw).mono fun _ _ h => h.1) fun _ v => ⟨_, rfl⟩
  | some f =>
    refine (terminate_sound hs hw).bind ?_ fun e v hv => hv.1.error
    rintro ⟨⟩ v ⟨hv, hend⟩
    obtain ⟨hstarted, hp, ht⟩ := hend rfl
    have hstay {o : Except Fault Reply} {u : World D} (hu : Stays P v u) :
        Sound P books reliable (h.Tells P) lapsed w o u := by
      have hsame := Sound.unchanged hv.coherent (.ok ()) hu.1 hu.2.1 hu.2.2.1 hu.2.2.2
      exact ⟨hsame.coherent, hv.meddled.trans hsame.meddled,
        fun _ _ _ => .inr (Nat.lt_of_lt_of_le ht hsame.meddled.token), fun _ _ _ _ => .inr (hsame.meddled.final hp)⟩
    exact (runScript_terminated h rounds depth (hh.farewell f) hstarted hp
      (hv.meddled.memory hm)).bind
      (fun x u hu => hstay hu) fun e u hu => hstay hu

/-- Every operation but a step keeps the control coherent, whether or not a ticket has lapsed. -/
theorem serve_sound (hs : h.scheduler.Keeps books reliable) (hh : h.Tame P) (rounds depth : Nat)
    (hw : w.control.Coherent books reliable (h.Tells P) lapsed) (hm : P w.memory) {r : Request D}
    (hr : r.IsInner) : (serve h rounds depth r).Ensures w (Sound P books reliable (h.Tells P) lapsed w) := by
  have hsame {o : Except Fault Reply} (ho : FailsFitly (h.Tells P) o) :
      Sound P books reliable (h.Tells P) lapsed w o w := .unchanged hw ho rfl rfl rfl id
  cases depth with
  | zero => exact hsame (.plain ⟨rfl, rfl, _, rfl⟩)
  | succ depth =>
    cases r with
    | start entry => exact ensures_reply (start_sound hs hh hw _ entry) fun _ v => ⟨_, rfl⟩
    | pause => exact ensures_reply (pause_sound hs hw) fun _ v => ⟨_, rfl⟩
    | resume => exact ensures_reply (resume_sound hs hw _) fun _ v => ⟨_, rfl⟩
    | rate given => exact ensures_reply (setRate_sound hw given) fun _ v => ⟨_, rfl⟩
    | terminate farewell => exact farewell_sound hs hh rounds depth hw hm farewell
    | breakpoints on => exact .unchanged hw (.ok _) rfl rfl rfl id
    | spawn entry scope => exact ensures_reply (spawn_sound hs hh hw _ entry scope) fun _ v => ⟨_, rfl⟩
    | info => exact hsame (.ok _)
    | current => exact hsame (.ok _)
    | events limit => exact hsame (.ok _)
    | emit type strand data =>
      refine announce_ensures (fun _ hf => hsame (.plain hf)) fun _ hr =>
        .unchanged hw hr.fitly (by simp) (by simp) ?_ (by simp)
      simp [Deed.attempt?]
    | _ => exact hr.elim

end Operations

end World
end Loom
