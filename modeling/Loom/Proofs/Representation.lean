import Loom.Proofs.CoreStep
import Loom.Proofs.Roster

/-! The books of an engine. The strands in play are in ascending order and each stands at an instruction;
the turn is at one of them, and its slice is not overdrawn; an engine that is neither running nor paused has
none in play. No operation disturbs this, not even in the middle of a step, and none finds it disturbed: the
faults that would tell of it never come up. -/
namespace Loom

/-- A fault that tells of a broken engine is one of `q`. -/
def Blameless (q : Fault → Prop) (r : Except Fault α) : Prop :=
  ∀ f, r = .error f → f.isInternal = true → q f

namespace Blameless

variable {q : Fault → Prop}

lemma ok (a : α) : Blameless q (.ok a) := by
  intro f h
  cases h

lemma error {f : Fault} (h : f.isInternal = true → q f) : Blameless q (.error f : Except Fault α) := by
  intro g hg
  cases hg
  exact h

lemma plain {f : Fault} (h : f.isInternal = false) : Blameless q (.error f : Except Fault α) := by
  apply error
  simp [h]

lemma own {f : Fault} (h : q f) : Blameless q (.error f : Except Fault α) := error fun _ => h

lemma rethrow {f : Fault} (h : Blameless q (.error f : Except Fault α)) :
    Blameless q (.error f : Except Fault β) := error (h f rfl)

lemma map {r : Except Fault α} (h : Blameless q r) (k : α → β) : Blameless q (r.map k) := by
  cases r with
  | error f => exact h.rethrow
  | ok a => exact ok _

end Blameless

lemma FailsPlainly.blameless {q : Fault → Prop} {r : Except Fault α} (h : FailsPlainly r) :
    Blameless q r := by
  intro f hf hi
  have hsound := (h f hf).sound
  simp [hi] at hsound

/-- The faults that a program on memories with `P`, or its scheduler, brings up of itself are all of `q`. -/
structure Host.Raises (h : Host D) (P : D.Memory → Prop) (q : Fault → Prop) : Prop where
  code : ∀ i scope, (h.code i scope).Heeds P Request.IsInner q
  next : ∀ {m} i f, P m → h.next m i = .error f → q f
  first : ∀ {m} source f, h.source = some source → source.first m = .error f → q f
  scope : ∀ {m} source f, h.source = some source → source.scope m = .error f → q f
  farewell : ∀ f, (h.farewell f).Heeds P Request.IsOperation q
  arm : ∀ {c delay t f c'}, h.scheduler.arm c delay t = (.error f, c') → q f
  /-- What keeps a fault from being worded is of `q` along with it. -/
  cause : ∀ {kind f}, q (.untold kind f) → q f

namespace Core

variable {D : Dialect} {h : Host D} {spare : Nat} {c : Core D}

/-- Nothing but one strand and the memory differs. -/
structure Apart (sid : Nat) (c d : Core D) : Prop where
  live : d.live = c.live
  index : d.index = c.index
  sliceUsed : d.sliceUsed = c.sliceUsed
  timeSlice : d.timeSlice = c.timeSlice
  strands : ∀ sid', sid' ≠ sid → d.strands[sid']? = c.strands[sid']?

lemma Apart.refl (sid : Nat) (c : Core D) : Apart sid c c := ⟨rfl, rfl, rfl, rfl, fun _ _ => rfl⟩

lemma Apart.updated {sid : Nat} {d : Core D} (hd : Apart sid c d) (f : Strand D → Strand D) :
    Apart sid c (d.updated sid f) where
  live := hd.live
  index := hd.index
  sliceUsed := hd.sliceUsed
  timeSlice := hd.timeSlice
  strands sid' hne := by
    rw [updated_strands, Array.getElem?_modify, if_neg hne.symm]
    exact hd.strands sid' hne

/-- A core in order, with `spare` steps to go in the slice at least. -/
structure Ordered (h : Host D) (spare : Nat) (c : Core D) : Prop where
  ascending : c.live.Pairwise (· < ·)
  listed : ∀ sid ∈ c.live, ∃ i, c.strands[sid]?.bind (·.cursor) = some i ∧ h.wellFormed i = true
  index : c.index < c.live.length ∨ c.live = [] ∧ c.index = 0
  slice : (c.sliceUsed : Int) + spare ≤ c.timeSlice
  positive : 1 ≤ c.timeSlice

namespace Ordered

lemma lt_size (hc : c.Ordered h spare) {sid : Nat} (hs : sid ∈ c.live) : sid < c.strands.size := by
  obtain ⟨i, hi, -⟩ := hc.listed sid hs
  obtain ⟨s, hs, -⟩ := Option.bind_eq_some_iff.1 hi
  exact (Array.getElem?_eq_some_iff.1 hs).1

lemma withMemory (hc : c.Ordered h spare) (memory : D.Memory) : (c.withMemory memory).Ordered h spare :=
  ⟨hc.ascending, hc.listed, hc.index, hc.slice, hc.positive⟩

lemma unspared (hc : c.Ordered h spare) : c.Ordered h 0 := by
  have hslice := hc.slice
  exact ⟨hc.ascending, hc.listed, hc.index, by omega, hc.positive⟩

/-- Whose slice is used up makes way for the next, so the strand at the turn has a step to go. -/
lemma turned (hc : c.Ordered h spare) (hl : c.live ≠ []) : c.turned.Ordered h 1 where
  ascending := hc.ascending
  listed := hc.listed
  index := .inl (turned_index_lt hl)
  slice := by
    have hpositive := hc.positive
    rw [turned_sliceUsed, turned_timeSlice]
    split_ifs <;> omega
  positive := hc.positive

lemma spawned (hc : c.Ordered h spare) {i : D.Instr} (hi : h.wellFormed i = true)
    (scope : ScopeChoice D) : (c.spawned h i scope).Ordered h spare where
  ascending := by
    refine List.pairwise_append.2 ⟨hc.ascending, by simp, ?_⟩
    intro sid hs size hsize
    rw [List.mem_singleton.1 hsize]
    exact hc.lt_size hs
  listed sid hs := by
    rw [spawned_strands, Array.getElem?_push]
    rcases List.mem_append.1 hs with hs | hs
    · rw [if_neg (Nat.ne_of_lt (hc.lt_size hs))]
      exact hc.listed sid hs
    · rw [if_pos (List.mem_singleton.1 hs)]
      exact ⟨i, rfl, hi⟩
  index := by
    left
    rcases hc.index with hlt | ⟨hl, hi⟩
    · simp
      omega
    · simp [hl, hi]
  slice := hc.slice
  positive := hc.positive

/-- Changing a strand so that it still stands at an instruction. -/
lemma updated (hc : c.Ordered h spare) (sid : Nat) {f : Strand D → Strand D}
    (hf : ∀ s i, s.cursor = some i → h.wellFormed i = true →
      ∃ j, (f s).cursor = some j ∧ h.wellFormed j = true) : (c.updated sid f).Ordered h spare where
  ascending := hc.ascending
  listed sid' hs := by
    obtain ⟨i, hcursor, hi⟩ := hc.listed sid' hs
    obtain ⟨s, hs, hcursor⟩ := Option.bind_eq_some_iff.1 hcursor
    rw [updated_strands, Array.getElem?_modify, hs]
    split_ifs
    · exact hf s i hcursor hi
    · exact ⟨i, hcursor, hi⟩
  index := hc.index
  slice := hc.slice
  positive := hc.positive

/-- Whatever became of a strand, taking it out of play puts the core in order. -/
lemma parted {d : Core D} {sid : Nat} (hc : c.Ordered h spare) (hd : Apart sid c d) :
    (d.without sid).Ordered h 0 where
  ascending := by
    rw [without_live, hd.live]
    exact hc.ascending.sublist List.erase_sublist
  listed sid' hs := by
    have hnodup : c.live.Nodup := hc.ascending.imp Nat.ne_of_lt
    rw [without_live, hd.live] at hs
    obtain ⟨hne, hmem⟩ := hnodup.mem_erase_iff.1 hs
    rw [without_strands, hd.strands sid' hne]
    exact hc.listed sid' hmem
  index := by
    rw [without_index, without_live]
    split_ifs with hle
    · rcases d.live.erase sid with _ | ⟨sid', rest⟩
      · exact .inr ⟨rfl, rfl⟩
      · exact .inl (by simp)
    · exact .inl (by omega)
  slice := by
    have hpositive := hc.positive
    rw [without_timeSlice, hd.timeSlice]
    simp
    omega
  positive := by
    rw [without_timeSlice, hd.timeSlice]
    exact hc.positive

lemma counted (hc : c.Ordered h 1) : c.counted.Ordered h 0 := by
  have hslice := hc.slice
  refine ⟨hc.ascending, hc.listed, hc.index, ?_, hc.positive⟩
  simp
  omega

/-- Without strands in play there is little to keep in order. -/
lemma emptied {d : Core D} (hc : c.Ordered h spare) (hl : d.live = []) (hi : d.index = 0)
    (hs : d.sliceUsed = c.sliceUsed) (ht : d.timeSlice = c.timeSlice) : d.Ordered h spare := by
  refine ⟨by simp [hl], by simp [hl], .inr ⟨hl, hi⟩, ?_, ht ▸ hc.positive⟩
  rw [hs, ht]
  exact hc.slice

lemma bare {d : Core D} {sid : Nat} (hc : c.Ordered h spare) (hd : Apart sid c d) (hl : d.live = []) :
    d.Ordered h spare := by
  refine hc.emptied hl ?_ hd.sliceUsed hd.timeSlice
  rcases hc.index with hlt | ⟨-, hi⟩
  · simp [← hd.live, hl] at hlt
  · exact hd.index.trans hi

end Ordered

end Core

/-- A stage of an instruction's execution. -/
inductive Stage (D : Dialect) where
  | begun (sid : Nat) (i : D.Instr)
  | returned (sid : Nat) (i : D.Instr)

/-- The stage of an execution that a deed marks. -/
def Deed.stage? : Deed D → Option (Stage D)
  | began sid i _ _ => some (.begun sid i)
  | returned sid i => some (.returned sid i)
  | _ => none

/-- Running or paused. -/
def Phase.IsAwake (p : Phase) : Prop := p = .running ∨ p = .paused

namespace World

variable {D : Dialect}

/-- The instructions ever begun and completed, in order. -/
@[simp] def executions (w : World D) : List (Stage D) := Deed.tell Deed.stage? w.deeds

/-- A world whose books are in order, in which `past` is what was executed. Nothing is in play before the
start and after the end; and with nothing in play the engine is awake only for an empty program that has not
taken a step. -/
structure Intact (h : Host D) (spare : Nat) (past : List (Stage D)) (w : World D) : Prop where
  ordered : w.core.Ordered h spare
  asleep : ¬ w.engine.phase.IsAwake → w.engine.live = []
  bare : w.engine.phase.IsAwake → w.engine.live = [] →
    h.IsEmpty ∧ w.engine.totalSteps = 0 ∧ past = []
  idle : w.engine.phase = .idle → w.engine.totalSteps = 0 ∧ past = []
  executions : w.executions = past

/-- What every operation leaves behind: books in order, and no fault of the engine's own making that tells
otherwise. -/
structure Tidy (h : Host D) (q : Fault → Prop) (spare : Nat) (past : List (Stage D))
    (o : Except Fault α) (v : World D) : Prop where
  intact : v.Intact h spare past
  blameless : Blameless q o

variable {h : Host D} {P : D.Memory → Prop} {q : Fault → Prop}
  {books : D.Clock → Option (Nat × Ticket) → Prop} {reliable : Prop} {lapsed : Option Nat} {spare : Nat}
  {past : List (Stage D)} {w v : World D}

namespace Intact

/-- Strands are in play. -/
lemma busy (hcore : w.core.Ordered h spare) (hp : w.engine.phase.IsAwake) (hl : w.engine.live ≠ [])
    (hpast : w.executions = past) : w.Intact h spare past := by
  refine ⟨hcore, fun h => absurd hp h, fun _ h => absurd h hl, fun h => ?_, hpast⟩
  rcases hp with hp | hp <;> simp [h] at hp

/-- The run is over. -/
lemma atEnd (hcore : w.core.Ordered h spare) (hp : w.engine.phase = .halted ∨ w.engine.phase = .terminated)
    (hl : w.engine.live = []) (hpast : w.executions = past) : w.Intact h spare past := by
  refine ⟨hcore, fun _ => hl, fun h => ?_, fun h => ?_, hpast⟩
  · rcases hp with hp | hp <;> simp [hp, Phase.IsAwake] at h
  · rcases hp with hp | hp <;> simp [hp] at h

/-- A change of nothing but the memory, or of the phase between running and paused. -/
lemma carry (hw : w.Intact h spare past) (hcore : v.core.withMemory w.memory = w.core)
    (hphase : v.engine.phase = w.engine.phase ∨ v.engine.phase.IsAwake ∧ w.engine.phase.IsAwake)
    (htotal : v.engine.totalSteps = w.engine.totalSteps) (hpast : v.executions = w.executions) :
    v.Intact h spare past := by
  have hlive : v.engine.live = w.engine.live := congrArg Core.live hcore
  have hawake : v.engine.phase.IsAwake ↔ w.engine.phase.IsAwake := by
    rcases hphase with heq | ⟨hv, hw⟩
    · rw [heq]
    · exact ⟨fun _ => hw, fun _ => hv⟩
  refine ⟨?_, ?_, ?_, ?_, hpast.trans hw.executions⟩
  · have hordered := (hcore ▸ hw.ordered).withMemory v.memory
    exact hordered
  · rw [hawake, hlive]
    exact hw.asleep
  · rw [hawake, hlive, htotal]
    exact hw.bare
  · intro hidle
    rw [htotal]
    rcases hphase with heq | ⟨hv, -⟩
    · exact hw.idle (heq ▸ hidle)
    · rcases hv with hv | hv <;> simp [hidle] at hv

lemma unspared (hw : w.Intact h spare past) : w.Intact h 0 past :=
  ⟨hw.ordered.unspared, hw.asleep, hw.bare, hw.idle, hw.executions⟩

lemma withMemory (hw : w.Intact h spare past) (m : D.Memory) : (w.withMemory m).Intact h spare past :=
  hw.carry rfl (.inl rfl) rfl rfl

lemma noted (hw : w.Intact h spare past) (level : LogLevel) (source : LogSource) (text : String) :
    (w.noted level source text).Intact h spare past := hw.carry rfl (.inl rfl) rfl rfl

lemma disarmed (hw : w.Intact h spare past) (s : Scheduler D.Clock) :
    (w.disarmed s).Intact h spare past := hw.carry rfl (.inl rfl) rfl rfl

lemma emitted (hw : w.Intact h spare past) (what : Happening) : (w.emitted what).Intact h spare past :=
  hw.carry rfl (.inl rfl) rfl (by simp [Deed.stage?])

lemma entered (hw : w.Intact h spare past) {phase : Phase} (reason : String) (hp : phase.IsAwake)
    (hawake : w.engine.phase.IsAwake) : (w.entered phase reason).Intact h spare past :=
  hw.carry rfl (.inr ⟨hp, hawake⟩) rfl (by simp [Deed.stage?])

lemma stopped (hw : w.Intact h spare past) (hawake : w.engine.phase.IsAwake) (sid : Nat)
    (i : D.Instr) : (w.stopped h sid i).Intact h spare past := by
  have hpassing : (w.altered (·.passing (some (sid, i)))).Intact h spare past :=
    hw.carry rfl (.inl rfl) rfl rfl
  have hpaused : (((w.altered (·.passing (some (sid, i)))).disarmed h.scheduler).entered .paused
      "breakpoint").Intact h spare past :=
    (hpassing.disarmed h.scheduler).entered "breakpoint" (.inr rfl) hawake
  exact (hpaused.noted _ _ _).emitted _

lemma sought (hw : w.Intact h spare past) (entry : Option D.Instr) :
    (w.sought h entry).Intact h spare past :=
  hw.carry (by rw [core_sought]; rfl) (.inl (by simp)) (by simp) (by simp)

lemma deferred (hw : w.Intact h spare past) (s : Scheduler D.Clock) (delay : Binary64) :
    (w.deferred s delay).2.Intact h spare past := by
  unfold World.deferred
  split
  · exact hw.carry rfl (.inl rfl) rfl (by simp [Deed.stage?])
  · exact hw.carry rfl (.inl rfl) rfl (by simp [Deed.stage?])

lemma spawned (hw : w.Intact h spare past) (hp : w.engine.phase.IsAwake) {i : D.Instr}
    (hi : h.wellFormed i = true) (scope : ScopeChoice D) : (w.spawned h i scope).Intact h spare past := by
  refine busy ?_ hp (by simp) ?_
  · rw [core_spawned]
    exact hw.ordered.spawned hi scope
  · rw [← hw.executions]
    simp [Deed.stage?]

lemma ended (hw : w.Intact h spare past) (s : Scheduler D.Clock) :
    (w.ended s).Intact h spare past := by
  refine atEnd (hw.ordered.emptied rfl rfl rfl rfl) (.inr rfl) rfl ?_
  rw [← hw.executions]
  simp [Deed.stage?]

/-- Setting an engine going. Only an empty program leaves it without a strand. -/
lemma begun (hw : w.Intact h spare past) (hp : w.engine.phase = .idle) {cursor : Option D.Instr}
    (contents : D.Scope) (hsome : ∀ i, cursor = some i → h.wellFormed i = true)
    (hnone : cursor = none → h.IsEmpty) : (w.begun h cursor contents).Intact h spare past := by
  have hslice := hw.ordered.slice
  have hzero : ((0 : Nat) : Int) + spare ≤ w.core.timeSlice := by omega
  have hpast : (w.begun h cursor contents).executions = past := by
    rw [← hw.executions]
    cases cursor <;> simp [World.begun, Deed.stage?]
  cases cursor with
  | none =>
    obtain ⟨htotal, hnil⟩ := hw.idle hp
    refine ⟨?_, fun h => (h (.inl rfl)).elim, fun _ _ => ⟨hnone rfl, htotal, hnil⟩, fun h => ?_, hpast⟩
    · rw [core_begun]
      exact ⟨by simp, by simp, .inr ⟨rfl, rfl⟩, hzero, hw.ordered.positive⟩
    · cases h
  | some i =>
    refine busy ?_ (.inl rfl) (by simp [World.begun]) hpast
    rw [core_begun]
    exact ⟨by simp, by simpa using hsome i rfl, .inl (by simp), hzero, hw.ordered.positive⟩

end Intact

namespace Tidy

lemma refused (hw : w.Intact h spare past) {f : Fault} (hf : f.isInternal = false) :
    Tidy h q spare past (.error f : Except Fault α) w := ⟨hw, .plain hf⟩

lemma ok {o : Except Fault α} (hv : Tidy h q spare past o v) (b : β) :
    Tidy h q spare past (.ok b : Except Fault β) v := ⟨hv.intact, .ok b⟩

lemma error {f : Fault} (hv : Tidy h q spare past (.error f : Except Fault α) v) :
    Tidy h q spare past (.error f : Except Fault β) v := ⟨hv.intact, hv.blameless.rethrow⟩

/-- Answering from the state changes nothing. -/
lemma answer {a : Act (World D) α} {k : α → Act (World D) Reply} (ha : a.Ensures w (Tidy h q spare past))
    (hk : ∀ x v, ∃ y, (k x).outcome v = (.ok y, v)) : (a >>= k).Ensures w (Tidy h q spare past) := by
  refine ha.bind (fun x v hv => ?_) fun e v hv => hv.error
  obtain ⟨y, hy⟩ := hk x v
  exact Act.ensures_of_outcome hy (hv.ok y)

end Tidy

lemma awake_of_live (hw : w.control.Coherent books reliable (h.Tells P) lapsed) (hs : w.engine.started = true)
    (ht : w.engine.phase ≠ .terminated) (hh : w.engine.phase ≠ .halted) : w.engine.phase.IsAwake := by
  have hi : w.engine.phase ≠ .idle := hw.started_iff.1 hs
  unfold Phase.IsAwake
  cases hp : w.engine.phase <;> simp_all

lemma wellFormed_of_derivedEntry {entry : Option D.Instr} {i : D.Instr}
    (hi : derivedEntry h entry = .ok i) : h.wellFormed i = true := by
  unfold derivedEntry at hi
  rcases entry with _ | j
  · cases hi
  · rcases hj : checkEntry h j with f | u <;> simp only [hj] at hi <;> cases hi
    exact wellFormed_of_checkEntry hj

/-- It is not the engine that fails to find where the root strand begins. -/
lemma root_blameless (hq : h.Raises P q) (entry : Option D.Instr) : Blameless q (w.root h entry) := by
  rintro f hr hinternal
  rcases root_error hr with hplain | ⟨source, hsource, hfirst | hscope⟩
  · simp [hplain.sound] at hinternal
  · exact hq.first source f hsource hfirst
  · exact hq.scope source f hsource hscope

/-- Nor is it the engine that fails to word a fault of the program's. -/
lemma cause_blameless (hq : h.Raises P q) {f g : Fault} (hb : Blameless q (.error f : Except Fault α))
    (hg : f.message = .error g) : Blameless q (.error g : Except Fault β) := by
  rcases Fault.of_message_error hg with rfl | ⟨kind, rfl⟩
  · exact .plain rfl
  · exact .error fun hinternal => hq.cause (hb _ rfl hinternal)

lemma deferred_tidy (hq : h.Raises P q) (hw : w.Intact h spare past) (delay : Binary64) :
    Tidy h q spare past (w.deferred h.scheduler delay).1 (w.deferred h.scheduler delay).2 := by
  refine ⟨hw.deferred h.scheduler delay, ?_⟩
  unfold deferred
  rcases ha : h.scheduler.arm (w.disarmed h.scheduler).clock delay (w.disarmed h.scheduler).ticket
    with ⟨f | a, clock⟩
  · exact .own (hq.arm ha)
  · exact .ok ()

lemma pause_tidy (hw : w.Intact h spare past) : (pause h).Ensures w (Tidy h q spare past) :=
  pause_ensures (fun _ hr => .refused hw (refusal_plain hr).sound)
    (fun _ hp => ⟨(hw.disarmed h.scheduler).entered "pause" (.inr rfl) (.inl hp), .ok ()⟩)
    fun _ _ => ⟨hw.disarmed h.scheduler, .ok ()⟩

lemma setRate_tidy (hw : w.Intact h spare past) (given : Option Value) :
    (setRate given).Ensures w (Tidy h q spare past) :=
  setRate_ensures (fun _ hf => .refused hw hf.sound) fun _ => ⟨hw.carry rfl (.inl rfl) rfl rfl, .ok ()⟩

section Operations

variable (hs : h.scheduler.Keeps books reliable) (hq : h.Raises P q)
  (hc : w.control.Coherent books reliable (h.Tells P) lapsed) (hw : w.Intact h spare past)

include hs hq hc hw

lemma resume_tidy (fire : Ticket → Act (World D) Unit) :
    (resume h fire).Ensures w (Tidy h q spare past) := by
  exact resume_ensures (postpones_of_keeps hs hc fire) (fun _ hr => .refused hw (refusal_plain hr).sound)
    (fun _ => ⟨hw.noted _ _ _, .ok ()⟩) (deferred_tidy hq hw .zero) (fun _ _ => id)
    (fun _ hv hp => ⟨hv.intact.entered "resume" (.inl rfl) (.inr hp), .ok ()⟩) fun _ => id

lemma spawn_tidy (fire : Ticket → Act (World D) Unit) (entry : Option D.Instr) (scope : ScopeChoice D) :
    (spawn h fire entry scope).Ensures w (Tidy h q spare past) := by
  refine spawn_ensures (postpones_of_keeps hs hc fire) (fun _ hf => .refused hw hf.sound)
    fun i hi hstarted hlasts hp => ?_
  have hv := hw.spawned (awake_of_live hc hstarted hlasts hp) (wellFormed_of_derivedEntry hi) scope
  have hd := deferred_tidy hq hv .zero
  exact ⟨fun _ => ⟨hd.intact, hd.blameless.map _⟩, ⟨hv, .ok _⟩⟩

lemma start_tidy (fire : Ticket → Act (World D) Unit) (entry : Option D.Instr) :
    (start h fire entry).Ensures w (Tidy h q spare past) := by
  rcases hstarted : w.engine.started with _ | _
  · refine start_ensures_of_postpones hstarted (idle_of_unstarted hc.started_iff hstarted)
      (postpones_of_keeps hs hc fire) (fun f hr => ⟨hw.sought entry, .error (root_blameless hq entry f hr)⟩)
      (deferred_tidy hq (hw.sought entry) .zero) (fun _ _ => id) fun cursor contents v hr hidle hv => ?_
    refine ⟨hv.intact.begun hidle contents ?_ ?_, .ok ()⟩
    · exact (root_ok hr).1
    · rintro rfl
      exact root_isEmpty hr
  · exact Act.ensures_of_outcome (start_again h fire entry hstarted) (.refused hw rfl)

end Operations

lemma terminate_tidy (hc : w.control.Coherent books reliable (h.Tells P) lapsed) (hw : w.Intact h spare past) :
    (terminate h).Ensures w (Tidy h q spare past) := by
  rcases terminate_cases h w hc.started_iff.1 with ⟨f, hf, hout⟩ | ⟨-, -, hout⟩
  · exact Act.ensures_of_outcome hout (.refused hw hf.sound)
  · exact Act.ensures_of_outcome hout ⟨hw.ended h.scheduler, .ok ()⟩

/-- Once terminated, no step is taken. -/
lemma step_terminated (h : Host D) (rounds depth : Nat) (hs : w.engine.started = true)
    (hp : w.engine.phase = .terminated) :
    ∃ f : Fault, f.IsPlain ∧ (serve h rounds depth .step).outcome w = (.error f, w) := by
  cases depth with
  | zero => exact ⟨.tooDeep, ⟨rfl, rfl, _, rfl⟩, rfl⟩
  | succ depth =>
    refine ⟨.isTerminated "step", ⟨rfl, rfl, _, rfl⟩, ?_⟩
    unfold serve perform
    simp [step, requireLive_outcome, Engine.refusal, hs, hp]

/-- A farewell is said in a world that has ended for good, where even a step is refused. -/
lemma farewell_tidy (hq : h.Raises P q) (rounds depth : Nat)
    (hserve : ∀ {v : World D} {r : Request D}, v.control.Coherent books reliable (h.Tells P) lapsed → P v.memory →
      v.Intact h spare past → r.IsInner → (serve h rounds depth r).Ensures v (Tidy h q spare past))
    (hc : w.control.Coherent books reliable (h.Tells P) lapsed) (hm : P w.memory) (hw : w.Intact h spare past)
    (hstarted : w.engine.started = true) (hp : w.engine.phase = .terminated) (f : D.Farewell) :
    (runScript (serve h rounds depth) (h.farewell f)).Ensures w (Tidy h q spare past) := by
  have hrun := runScript_ensures (serve h rounds depth)
    (I := fun v => Stays P w v ∧ v.Intact h spare past) (F := fun f _ => f.isInternal = true → q f)
    (fun v hv => hv.1.2.2.2 hm)
    (fun v m hm hv => ⟨⟨⟨hv.1.1, hv.1.2.1, hv.1.2.2.1, fun _ => hm⟩, hv.2.withMemory m⟩, fun _ hf => hf⟩)
    ?_ (hq.farewell f) ⟨.refl w, hw⟩ fun _ hf _ => hf
  · exact hrun.mono fun _ _ hv => ⟨hv.1.2, hv.2⟩
  · rintro r v hr ⟨hstays, hv⟩
    have hstarted' : v.engine.started = true := (congrArg Control.started hstays.1).trans hstarted
    have hp' : v.engine.phase = .terminated := (congrArg Control.phase hstays.1).trans hp
    rcases hr.step_or_inner with rfl | hinner
    · obtain ⟨g, hg, hout⟩ := step_terminated h rounds depth hstarted' hp'
      refine Act.ensures_of_outcome hout ⟨⟨hstays, hv⟩, ?_, fun _ hf => hf⟩
      exact Blameless.plain hg.sound
    · have htidy := hserve (hstays.1 ▸ hc) (hstays.2.2.2 hm) hv hinner
      refine ((serve_terminated (P := P) h rounds depth hr hstarted' hp').and htidy).mono ?_
      exact fun _ _ hu => ⟨⟨hstays.trans hu.1, hu.2.intact⟩, hu.2.blameless, fun _ hf => hf⟩

section Requests

variable (hs : h.scheduler.Keeps books reliable) (hq : h.Raises P q)

include hs hq

/-- Every operation but a step keeps the books in order, whether or not a step is under way. -/
theorem serve_tidy (rounds depth : Nat) (hc : w.control.Coherent books reliable (h.Tells P) lapsed)
    (hm : P w.memory) (hw : w.Intact h spare past) {r : Request D} (hr : r.IsInner) :
    (serve h rounds depth r).Ensures w (Tidy h q spare past) := by
  induction depth generalizing w r with
  | zero => exact .refused hw rfl
  | succ depth ih =>
    cases r with
    | start entry => exact .answer (start_tidy hs hq hc hw _ entry) fun _ v => ⟨_, rfl⟩
    | pause => exact .answer (pause_tidy hw) fun _ v => ⟨_, rfl⟩
    | resume => exact .answer (resume_tidy hs hq hc hw _) fun _ v => ⟨_, rfl⟩
    | rate given => exact .answer (setRate_tidy hw given) fun _ v => ⟨_, rfl⟩
    | terminate farewell =>
      cases farewell with
      | none => exact .answer (terminate_tidy hc hw) fun _ v => ⟨_, rfl⟩
      | some f =>
        refine ((terminate_sound (P := P) hs hc).and (terminate_tidy hc hw)).bind ?_ fun e v hv => hv.2.error
        rintro ⟨⟩ v ⟨⟨hsound, hend⟩, hv⟩
        obtain ⟨hstarted, hp, -⟩ := hend rfl
        have htidy := farewell_tidy hq rounds depth (fun hc hm hw hr => ih hc hm hw hr) hsound.coherent
          (hsound.meddled.memory hm) hv.intact hstarted hp f
        exact .answer htidy fun _ v => ⟨_, rfl⟩
    | breakpoints on => exact ⟨hw.carry rfl (.inl rfl) rfl rfl, .ok _⟩
    | spawn entry scope => exact .answer (spawn_tidy hs hq hc hw _ entry scope) fun _ v => ⟨_, rfl⟩
    | info => exact ⟨hw, .ok _⟩
    | current => exact ⟨hw, .ok _⟩
    | events limit => exact ⟨hw, .ok _⟩
    | emit type strand data =>
      exact announce_ensures (fun _ hf => .refused hw hf.sound) fun _ hr => ⟨hw.emitted _, hr.blameless⟩
    | _ => exact hr.elim

/-- An instruction keeps the books in order while it is executed. -/
lemma code_tidy (hh : h.Tame P) (rounds depth : Nat) (hc : w.control.Coherent books reliable (h.Tells P) lapsed)
    (hm : P w.memory) (hw : w.Intact h spare past) (i : D.Instr) (scope : Nat) :
    (runScript (serve h rounds depth) (h.code i scope)).Ensures w (Tidy h q spare past) := by
  have hrun := runScript_ensures (serve h rounds depth)
    (I := fun v => v.control.Coherent books reliable (h.Tells P) lapsed ∧ P v.memory ∧ v.Intact h spare past)
    (F := fun f _ => f.isInternal = true → q f) (fun v hv => hv.2.1)
    (fun v m hm hv => ⟨⟨hv.1, hm, hv.2.2.withMemory m⟩, fun _ hf => hf⟩) ?_ (hq.code i scope)
    ⟨hc, hm, hw⟩ fun _ hf _ => hf
  · exact hrun.mono fun _ _ hv => ⟨hv.1.2.2, hv.2⟩
  · rintro r v hr ⟨hc, hm, hv⟩
    have hsound := serve_sound hs hh rounds depth hc hm hr
    have htidy := serve_tidy hs hq rounds depth hc hm hv hr
    refine (hsound.and htidy).mono fun o u hu => ?_
    exact ⟨⟨hu.1.coherent, hu.1.meddled.memory hm, hu.2.intact⟩, hu.2.blameless, fun _ hf => hf⟩

end Requests

end World
end Loom
