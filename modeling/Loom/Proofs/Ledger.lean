import Mathlib.Algebra.GroupWithZero.Nat
import Loom.Proofs.EventLog
import Loom.Proofs.Finality
import Loom.Proofs.Practice
import Loom.Proofs.StepRepresentation

/-! The books of an engine on the instructions it has completed. It keeps two counts, one in each strand and
one of its own, and announces what became of each instruction. The counts agree with one another, with the
instructions that returned and with what was announced, on every way out of a step: the strand goes on or
retires, the instruction fails, its successor is broken, or the instruction has ended the run. Only what has no
words is not announced. -/
namespace Loom

/-- An entry in the books: an instruction of a strand was begun, returned, was announced as executed with a
count, or was announced as failed. -/
inductive Entry where
  | begun (sid : Nat)
  | returned (sid : Nat)
  | stepped (sid steps : Nat)
  | failed (sid : Nat)
  deriving DecidableEq, Repr

namespace Entry

def isReturned : Entry → Bool
  | returned _ => true
  | _ => false

def isStepped : Entry → Bool
  | stepped .. => true
  | _ => false

/-- How many failures came after their instruction had returned: right after its return, in the same
strand. -/
def late : List Entry → Nat
  | returned sid :: failed sid' :: rest => late rest + if sid = sid' then 1 else 0
  | _ :: rest => late rest
  | [] => 0

end Entry

/-- The entry that an event makes. -/
def Happening.entry? : Happening → Option Entry
  | stepped sid _ _ _ steps => some (.stepped sid steps)
  | failed sid _ _ => some (.failed sid)
  | _ => none

/-- The entry that a deed makes. -/
def Deed.entry? : Deed D → Option Entry
  | began sid .. => some (.begun sid)
  | returned sid _ => some (.returned sid)
  | emitted e => e.what.entry?
  | deferred .. => none

/-- What one step adds to the books. -/
inductive Booking where
  /-- There was no instruction to begin. -/
  | stray (sid : Nat)
  /-- The instruction ended in an exit or an interrupt, or in a fault that cannot be worded. -/
  | cut (sid : Nat)
  | failed (sid : Nat)
  /-- The instruction returned, and its successor is broken. -/
  | late (sid : Nat)
  /-- It returned, and what is wrong with its successor cannot be worded. -/
  | mute (sid : Nat)
  | stepped (sid steps : Nat)

namespace Booking

def entries : Booking → List Entry
  | stray sid => [.failed sid]
  | cut sid => [.begun sid]
  | failed sid => [.begun sid, .failed sid]
  | late sid => [.begun sid, .returned sid, .failed sid]
  | mute sid => [.begun sid, .returned sid]
  | stepped sid steps => [.begun sid, .returned sid, .stepped sid steps]

/-- The strand of which an instruction returned. -/
def counted? : Booking → Option Nat
  | late sid | mute sid | stepped sid _ => some sid
  | _ => none

/-- Each step is announced with the count of its strand. -/
def Numbered (bs : List Booking) : Prop :=
  ∀ pre sid n post, bs = pre ++ stepped sid n :: post →
    n = pre.countP (·.counted? = some sid) + 1

lemma Numbered.concat {bs : List Booking} {b : Booking} (h : Numbered bs)
    (hb : ∀ sid n, b = stepped sid n → n = bs.countP (·.counted? = some sid) + 1) :
    Numbered (bs ++ [b]) := by
  intro pre sid n post heq
  rcases List.eq_nil_or_concat post with rfl | ⟨post, c, rfl⟩
  · obtain ⟨rfl, rfl⟩ : bs = pre ∧ b = stepped sid n := by simpa using List.append_inj' heq rfl
    exact hb sid n rfl
  · rw [List.concat_eq_append, ← List.cons_append, ← List.append_assoc] at heq
    exact h pre sid n post (List.append_inj' heq rfl).1

/-- A booking holds the entries that a step has made, counts its instruction if the step did, and tells the
count that its strand has come to from `steps`. What is wrong with a successor is told if it can be `explained`. -/
structure Fits (explained : Prop) (sid : Nat) (steps : Nat → Nat) (es : List Entry) (done : Bool) (b : Booking) :
    Prop where
  entries : b.entries = es
  counted : b.counted? = if done then some sid else none
  numbered : ∀ sid' n, b = .stepped sid' n → n = steps sid' + 1 := by nofun
  voiced : explained → ∀ sid', b ≠ .mute sid' := by nofun

section Totals

variable (bs : List Booking)

lemma returned_entries : (bs.flatMap entries).countP Entry.isReturned = bs.countP (·.counted?.isSome) := by
  induction bs with
  | nil => rfl
  | cons b bs ih =>
    rw [List.flatMap_cons, List.countP_append, ih, List.countP_cons, Nat.add_comm]
    cases b <;> rfl

lemma count_entries (sid : Nat) :
    (bs.flatMap entries).count (.returned sid) = bs.countP (·.counted? = some sid) := by
  induction bs with
  | nil => rfl
  | cons b bs ih =>
    have hb : b.entries.count (.returned sid) = if b.counted? = some sid then 1 else 0 := by
      cases b <;> simp [entries, counted?, List.count_cons]
    rw [List.flatMap_cons, List.count_append, ih, hb, List.countP_cons, Nat.add_comm]
    simp

/-- No step leaves a return for the next one to tell of, unless it had no words for it. -/
lemma late_entries {b : Booking} (hb : ∀ sid, b ≠ mute sid) (rest : List Entry) :
    Entry.late (b.entries ++ rest) = Entry.late rest + Entry.late b.entries := by
  cases b with
  | mute sid => exact absurd rfl (hb sid)
  | _ => simp [entries, Entry.late]

/-- Where there are words, what returned was announced as executed, or failed afterwards. -/
lemma stepped_entries (hbs : ∀ sid, mute sid ∉ bs) :
    (bs.flatMap entries).countP Entry.isStepped + Entry.late (bs.flatMap entries) =
      bs.countP (·.counted?.isSome) := by
  induction bs with
  | nil => rfl
  | cons b bs ih =>
    have hhead (sid : Nat) : b ≠ mute sid := by
      rintro rfl
      exact hbs sid List.mem_cons_self
    have hrest := ih fun sid hsid => hbs sid (List.mem_cons_of_mem b hsid)
    have hb : b.entries.countP Entry.isStepped + Entry.late b.entries =
        if b.counted?.isSome then 1 else 0 := by
      cases b with
      | mute sid => exact absurd rfl (hhead sid)
      | _ => simp [entries, counted?, Entry.late, Entry.isStepped]
    rw [List.flatMap_cons, List.countP_append, late_entries hhead, List.countP_cons]
    omega

/-- A step that was announced as executed is booked as such. -/
lemma eq_stepped_of_entries {b : Booking} {before after : List Entry} {sid n : Nat}
    (h : b.entries = before ++ .stepped sid n :: after) :
    b = stepped sid n ∧ before = [.begun sid, .returned sid] := by
  cases b with
  | stepped sid' m =>
    rcases before with _ | ⟨x, _ | ⟨y, _ | ⟨z, before⟩⟩⟩ <;> simp [entries] at h
    obtain ⟨rfl, rfl, ⟨rfl, rfl⟩, -⟩ := h
    exact ⟨rfl, rfl⟩
  | _ => rcases before with _ | ⟨x, _ | ⟨y, _ | ⟨z, before⟩⟩⟩ <;> simp [entries] at h

/-- The bookings up to an entry of a step. -/
lemma split_entries {before after : List Entry} {sid n : Nat}
    (h : bs.flatMap entries = before ++ .stepped sid n :: after) :
    ∃ pre post, bs = pre ++ stepped sid n :: post ∧
      before = pre.flatMap entries ++ [.begun sid, .returned sid] := by
  induction bs generalizing before with
  | nil => simp at h
  | cons b bs ih =>
    rw [List.flatMap_cons, List.append_eq_append_iff] at h
    rcases h with ⟨rest, rfl, hrest⟩ | ⟨_ | ⟨y, rest⟩, hb, hrest⟩
    · obtain ⟨pre, post, rfl, rfl⟩ := ih hrest
      exact ⟨b :: pre, post, rfl, by simp⟩
    · have hhead : bs.flatMap entries = [] ++ .stepped sid n :: after := hrest.symm
      obtain ⟨pre, post, -, hnil⟩ := ih hhead
      simp at hnil
    · cases hrest
      obtain ⟨rfl, rfl⟩ := eq_stepped_of_entries hb
      exact ⟨[], bs, rfl, rfl⟩

end Totals

end Booking

/-- Adding one to a member adds one to the sum. -/
lemma sum_map_modify {f : α → α} {g : α → Nat} (hf : ∀ a, g (f a) = g a + 1) {l : List α} {n : Nat}
    (hn : n < l.length) : ((l.modify n f).map g).sum = (l.map g).sum + 1 := by
  induction l generalizing n with
  | nil => simp at hn
  | cons a l ih =>
    cases n with
    | zero =>
      simp [hf]
      omega
    | succ n =>
      have hrest := ih (Nat.lt_of_succ_lt_succ hn)
      simp [hrest]
      omega

namespace Engine

variable {D : Dialect}

/-- The instructions that all strands ever made have completed, in sum. -/
def tally (e : Engine D) : Nat := (e.strands.toList.map (·.steps)).sum

lemma steps_withStrand (e : Engine D) {s : Strand D} (hs : s.steps = 0) (sid : Nat) :
    (e.withStrand s).steps sid = e.steps sid := by
  simp only [steps, strand?, withStrand_strands, Array.getElem?_push]
  split_ifs with hsid
  · subst hsid
    simp [hs]
  · rfl

lemma tally_withStrand (e : Engine D) {s : Strand D} (hs : s.steps = 0) :
    (e.withStrand s).tally = e.tally := by
  simp [tally, hs]

lemma steps_stepped (e : Engine D) {sid : Nat} (hs : (e.strand? sid).isSome) (sid' : Nat) :
    (e.stepped sid).steps sid' = e.steps sid' + if sid = sid' then 1 else 0 := by
  simp only [steps, strand?, stepped, updateStrand, Array.getElem?_modify] at hs ⊢
  split_ifs with hsid
  · subst hsid
    obtain ⟨s, hs⟩ := Option.isSome_iff_exists.mp hs
    simp [hs]
  · simp

lemma tally_stepped (e : Engine D) {sid : Nat} (hs : (e.strand? sid).isSome) :
    (e.stepped sid).tally = e.tally + 1 := by
  have hlt : sid < e.strands.toList.length := by
    simpa [strand?] using hs
  have hstep (s : Strand D) : ({ s with steps := s.steps + 1 } : Strand D).steps = s.steps + 1 := rfl
  simp only [tally, stepped, updateStrand, Array.toList_modify]
  exact sum_map_modify hstep hlt

/-- The sum and each count are read off the counts of the table. -/
lemma counts_eq {e e' : Engine D} (h : e'.strands.map (·.steps) = e.strands.map (·.steps)) :
    e'.tally = e.tally ∧ (∀ sid, e'.steps sid = e.steps sid) ∧ e'.strands.size = e.strands.size := by
  refine ⟨?_, fun sid => ?_, by simpa using congrArg Array.size h⟩
  · have hlist := congrArg Array.toList h
    rw [Array.toList_map, Array.toList_map] at hlist
    exact congrArg List.sum hlist
  · have hget := congrArg (fun counts : Array Nat => counts[sid]?) h
    simp only [Array.getElem?_map] at hget
    exact congrArg (Option.getD · 0) hget

end Engine

/-- Neither instructions nor the test for a stop bring about a step, whatever is told them, and the scheduler
fires none while taking one. What goes wrong over a successor is ordinary; how instructions and the test fail is up
to them. -/
structure Host.Accountable {D : Dialect} (h : Host D) (fit : D.Clock → Prop) (P : D.Memory → Prop) : Prop where
  scheduler : h.scheduler.Stays fit
  code : ∀ i scope, (h.code i scope).Asks P fun r => ¬ r.Steps
  next : ∀ {m} i, P m → FailsOrdinarily (h.next m i)
  breaks : ∀ i, (h.breaks i).Asks P fun r => ¬ r.Steps
  farewell : ∀ f, (h.farewell f).Asks P fun _ => True
  install : ∀ {m} n contents, P m → P (h.install m n contents)

/-- There are words for whatever goes wrong over a successor. -/
def Host.Explains {D : Dialect} (h : Host D) (P : D.Memory → Prop) : Prop :=
  ∀ m i f, P m → h.next m i = .error f → f.IsTold

lemma Request.IsInner.not_steps {D : Dialect} {r : Request D} (hr : r.IsInner) : ¬ r.Steps := by
  cases r <;> first | exact id | exact fun _ => hr

lemma Host.Accountable.asks {D : Dialect} {h : Host D} {fit : D.Clock → Prop} {P : D.Memory → Prop}
    (hh : h.Accountable fit P) : h.Asks P fun _ => True where
  code i scope := (hh.code i scope).weaken (fun _ _ => trivial) fun _ => id
  breaks i := (hh.breaks i).weaken (fun _ _ => trivial) fun _ => id
  farewell := hh.farewell
  install := hh.install

/-- Tame programs are. -/
lemma Host.Tame.accountable {D : Dialect} {h : Host D} {fit : D.Clock → Prop} {P : D.Memory → Prop}
    (hh : h.Tame P) (hs : h.scheduler.Stays fit) : h.Accountable fit P where
  scheduler := hs
  code i scope := (hh.code i scope).weaken (fun _ => Request.IsInner.not_steps) fun _ _ => trivial
  next := hh.next
  breaks i := (hh.breaks i).weaken (fun _ => False.elim) fun _ => False.elim
  farewell f := (hh.farewell f).weaken (fun _ _ => trivial) fun _ => id
  install := hh.install

namespace World

variable {D : Dialect} {h : Host D} {fit : D.Clock → Prop} {P : D.Memory → Prop} {w v u : World D}

open Act (Abides Kept)

/-- The books on the instructions that the engine has executed. -/
@[simp] def ledger (w : World D) : List Entry := Deed.tell Deed.entry? w.deeds

/-- Nothing was booked or counted. Strands may have been added. -/
structure Undisturbed (w v : World D) : Prop where
  ledger : v.ledger = w.ledger
  total : v.engine.totalSteps = w.engine.totalSteps
  tally : v.engine.tally = w.engine.tally
  steps : ∀ sid, v.engine.steps sid = w.engine.steps sid
  size : w.engine.strands.size ≤ v.engine.strands.size

namespace Undisturbed

lemma of_strands (hledger : v.ledger = w.ledger) (htotal : v.engine.totalSteps = w.engine.totalSteps)
    (hstrands : v.engine.strands = w.engine.strands) : Undisturbed w v where
  ledger := hledger
  total := htotal
  tally := by simp only [Engine.tally, hstrands]
  steps sid := by simp only [Engine.steps, Engine.strand?, hstrands]
  size := by rw [hstrands]

lemma refl (w : World D) : Undisturbed w w := ⟨rfl, rfl, rfl, fun _ => rfl, Nat.le_refl _⟩

lemma trans (h : Undisturbed w v) (h' : Undisturbed v u) : Undisturbed w u where
  ledger := h'.ledger.trans h.ledger
  total := h'.total.trans h.total
  tally := h'.tally.trans h.tally
  steps sid := (h'.steps sid).trans (h.steps sid)
  size := h.size.trans h'.size

lemma withMemory (w : World D) (m : D.Memory) : Undisturbed w (w.withMemory m) :=
  .of_strands rfl rfl rfl

lemma noted (w : World D) (level : LogLevel) (source : LogSource) (text : String) :
    Undisturbed w (w.noted level source text) := .of_strands rfl rfl rfl

lemma disarmed (w : World D) (s : Scheduler D.Clock) : Undisturbed w (w.disarmed s) :=
  .of_strands rfl rfl rfl

lemma emitted (w : World D) {what : Happening} (hwhat : what.entry? = none) :
    Undisturbed w (w.emitted what) :=
  .of_strands (by simp [Deed.entry?, event, hwhat]) rfl rfl

lemma entered (w : World D) (phase : Phase) (reason : String) :
    Undisturbed w (w.entered phase reason) :=
  .of_strands (by simp [Deed.entry?, phaseEvent, event, Happening.entry?]) rfl rfl

lemma retired (w : World D) (sid : Nat) : Undisturbed w (w.retired sid) :=
  .of_strands (by simp [Deed.entry?, event, Happening.entry?]) rfl rfl

lemma deferred (w : World D) (s : Scheduler D.Clock) (delay : Binary64) :
    Undisturbed w (w.deferred s delay).2 := by
  unfold World.deferred
  split <;> exact .of_strands (by simp [Deed.entry?]) rfl rfl

lemma turned (w : World D) : Undisturbed w w.turned := by
  have hstrands : w.turned.engine.strands = w.engine.strands := by simp
  have htotal : w.turned.engine.totalSteps = w.engine.totalSteps := by simp
  refine .of_strands ?_ htotal hstrands
  unfold World.turned emittedIf
  split_ifs <;> simp [Deed.entry?, event, Happening.entry?]

lemma wound (w : World D) (h : Host D) (manual : Bool) : Undisturbed w (w.wound h manual).2 := by
  unfold World.wound
  split_ifs
  · exact (Undisturbed.disarmed w _).trans (.entered _ _ _)
  · exact .deferred w _ _
  · exact .refl w

lemma sought (w : World D) (h : Host D) (entry : Option D.Instr) : Undisturbed w (w.sought h entry) :=
  .of_strands (by simp) (by simp) (by simp)

/-- A strand that was just made has completed nothing. -/
lemma spawned (w : World D) (h : Host D) (i : D.Instr) (scope : ScopeChoice D) :
    Undisturbed w (w.spawned h i scope) where
  ledger := by simp [Deed.entry?, event, Happening.entry?]
  total := rfl
  tally := w.engine.tally_withStrand rfl
  steps := w.engine.steps_withStrand rfl
  size := by simp

lemma begun (w : World D) (h : Host D) (cursor : Option D.Instr) (contents : D.Scope) :
    Undisturbed w (w.begun h cursor contents) where
  ledger := by cases cursor <;> simp [World.begun, Deed.entry?, phaseEvent, event, Happening.entry?]
  total := by cases cursor <;> rfl
  tally := by cases cursor <;> exact w.engine.tally_withStrand rfl
  steps sid := by cases cursor <;> exact w.engine.steps_withStrand rfl sid
  size := by cases cursor <;> simp [World.begun]

lemma ended (w : World D) (s : Scheduler D.Clock) : Undisturbed w (w.ended s) :=
  .of_strands (by simp [Deed.entry?, phaseEvent, event, Happening.entry?]) rfl rfl

lemma movedTo (w : World D) (sid : Nat) (cursor : Option D.Instr) :
    Undisturbed w (w.altered (·.movedTo sid cursor)) := by
  obtain ⟨htally, hsteps, hsize⟩ := Engine.counts_eq (steps_movedTo w.engine sid cursor)
  exact ⟨rfl, rfl, htally, hsteps, hsize.ge⟩

end Undisturbed

/-- After the end nothing is booked any more. -/
lemma Lingers.undisturbed {tells : Prop} (h : Lingers tells w v) : Undisturbed w v := by
  obtain ⟨htally, hsteps, hsize⟩ := Engine.counts_eq h.counts
  obtain ⟨told, hdeeds, hown, -⟩ := h.deeds
  have hnone : (told.map (Deed.emitted (D := D))).filterMap Deed.entry? = [] := by
    rw [List.filterMap_map, List.filterMap_eq_nil_iff]
    intro e he
    have hforeign := hown e he
    change e.what.entry? = none
    cases hwhat : e.what <;> rw [hwhat] at hforeign <;> first | rfl | exact absurd trivial hforeign
  refine ⟨?_, h.totalSteps, htally, hsteps, hsize.ge⟩
  simp only [ledger, Deed.tell]
  rw [hdeeds, List.filterMap_append, hnone, List.append_nil]

/-! ### Operations -/

lemma terminate_undisturbed (hw : w.Mortal) (rounds depth : Nat) (farewell : Option D.Farewell) :
    (serve h rounds (depth + 1) (.terminate farewell)).Ensures w fun _ v => Undisturbed w v := by
  have honce : EndsOnce h rounds depth farewell w := hw.endsOnce farewell
  by_cases hlive : w.engine.started = true ∧ w.engine.phase ≠ .terminated
  · have hlingers := honce.lingers hlive.1 hlive.2 True
      ((Script.asks_anything _).weaken (fun _ _ _ => trivial) fun _ => id)
    exact (Undisturbed.ended w h.scheduler).trans hlingers.undisturbed
  · have hover : w.engine.started = false ∨ w.engine.phase = .terminated := by
      rcases hs : w.engine.started with _ | _
      · exact .inl rfl
      · exact .inr (by_contra fun hp => hlive ⟨hs, hp⟩)
    obtain ⟨f, hout⟩ := honce.refused hover
    exact Act.ensures_of_outcome hout (.refl w)

lemma pause_undisturbed (w : World D) : (pause h).Ensures w fun _ v => Undisturbed w v :=
  pause_ensures (fun _ _ => .refl w) (fun _ _ => (Undisturbed.disarmed w _).trans (.entered _ _ _))
    fun _ _ => .disarmed w _

lemma setRate_undisturbed (w : World D) (given : Option Value) :
    (setRate given).Ensures w fun _ v => Undisturbed w v :=
  setRate_ensures (fun _ _ => .refl w) fun _ => .of_strands rfl rfl rfl

lemma forget_undisturbed (w : World D) (position : Int) :
    (forget (D := D) position).Ensures w fun _ v => Undisturbed w v := by
  unfold Act.Ensures forget
  rw [modifyEngine_outcome]
  dsimp only [altered]
  split_ifs
  all_goals exact .of_strands rfl rfl rfl

section Operations

variable (hs : h.scheduler.Defers fit) (hc : fit w.clock)

include hs hc

lemma resume_undisturbed (fire : Ticket → Act (World D) Unit) :
    (resume h fire).Ensures w fun _ v => Undisturbed w v :=
  resume_ensures (A := fun _ v => Undisturbed w v) (postpones_of_fit hs hc fire) (fun _ _ => .refl w)
    (fun _ => .noted w _ _ _) (.deferred w h.scheduler .zero) (fun _ _ => id)
    (fun _ hv _ => hv.trans (.entered _ _ _)) fun _ => id

lemma spawn_undisturbed (fire : Ticket → Act (World D) Unit) (entry : Option D.Instr)
    (scope : ScopeChoice D) : (spawn h fire entry scope).Ensures w fun _ v => Undisturbed w v :=
  spawn_ensures (postpones_of_fit hs hc fire) (fun _ _ => .refl w) fun i _ _ _ _ =>
    ⟨fun _ => (Undisturbed.spawned w h i scope).trans (.deferred _ h.scheduler .zero), .spawned w h i scope⟩

lemma start_undisturbed (hw : w.Mortal) (fire : Ticket → Act (World D) Unit) (entry : Option D.Instr) :
    (start h fire entry).Ensures w fun _ v => Undisturbed w v := by
  rcases hstarted : w.engine.started with _ | _
  · have hdeferred := (Undisturbed.sought w h entry).trans
      (.deferred (w.sought h entry) h.scheduler .zero)
    exact start_ensures_of_postpones (A := fun _ v => Undisturbed w v) hstarted
      (idle_of_unstarted hw.started_iff hstarted) (postpones_of_fit hs hc fire) (fun _ _ => .sought w h entry)
      hdeferred (fun _ _ => id) fun cursor contents v _ _ hv => hv.trans (.begun v h cursor contents)
  · exact Act.ensures_of_outcome (start_again h fire entry hstarted) (.refl w)

/-- Nothing that is asked for has anything to book, unless it brings about a step. -/
theorem serve_undisturbed (hw : w.Mortal) (rounds depth : Nat) {r : Request D} (hr : ¬ r.Steps) :
    (serve h rounds depth r).Ensures w fun _ v => Undisturbed w v := by
  cases depth with
  | zero => exact .refl w
  | succ depth =>
    cases r with
    | start entry => exact (start_undisturbed hs hc hw _ entry).reply
    | pause => exact (pause_undisturbed w).reply
    | resume => exact (resume_undisturbed hs hc _).reply
    | rate given => exact (setRate_undisturbed w given).reply
    | terminate farewell => exact terminate_undisturbed hw rounds depth farewell
    | breakpoints on => exact .of_strands rfl rfl rfl
    | spawn entry scope =>
      exact (spawn_undisturbed hs hc _ entry scope).bind (fun _ _ hv => hv) fun _ _ hv => hv
    | info | current | events => exact .refl w
    | emit type strand data =>
      exact announce_ensures (fun _ _ => .refl w) fun _ _ => (Lingers.announced w type strand data).undisturbed
    | refuse | timeSlice => exact .of_strands rfl rfl rfl
    | pump =>
      have hpump := pump_abides (I := Undisturbed w) (G := fun _ => True)
        (fun _ hv => hv.trans (.of_strands rfl rfl rfl)) rounds w (.refl w)
      exact (hpump.mono fun _ _ hv => hv.state).reply
    | forget position => exact (forget_undisturbed w position).reply
    | blank sid => exact .movedTo w sid none
    | step | fire | fireIssued | runNext | runAll => exact absurd trivial hr

end Operations

/-- What the accounts of a run rest on between any two requests. -/
structure Regular (fit : D.Clock → Prop) (P : D.Memory → Prop) (w : World D) : Prop where
  mortal : w.Mortal
  memory : P w.memory
  clock : fit w.clock

lemma serve_regular (hh : h.Accountable fit P) (rounds depth : Nat) (r : Request D) (hw : w.Regular fit P) :
    (serve h rounds depth r).Ensures w fun _ v => v.Regular fit P :=
  ((serve_mortal h rounds depth r hw.mortal).and
    (serve_fits hh.scheduler hh.asks rounds depth r w ⟨hw.memory, hw.clock⟩)).mono fun _ _ hv =>
      ⟨hv.1, hv.2.state.1, hv.2.state.2⟩

/-- So code that brings about no step books nothing. -/
lemma script_undisturbed (hh : h.Accountable fit P) (rounds depth : Nat) {s : Script D α}
    (hs : s.Asks P fun r => ¬ r.Steps) (hw : w.Regular fit P) :
    (runScript (serve h rounds depth) s).Ensures w fun _ v => v.Regular fit P ∧ Undisturbed w v := by
  have hrun : (runScript (serve h rounds depth) s).Ensures w
      (Kept (fun v => v.Regular fit P ∧ Undisturbed w v) fun _ => True) :=
    runScript_abides (·.1.memory)
      (fun hv hm => ⟨⟨hv.1.mortal, hm, hv.1.clock⟩, hv.2.trans (.withMemory _ _)⟩) (fun r hr v hv => ?_) hs w
      ⟨hw, .refl w⟩
  · exact hrun.mono fun _ _ hv => hv.state
  · have hundisturbed := serve_undisturbed hh.scheduler.defers hv.1.clock hv.1.mortal rounds depth hr
    exact ((serve_regular hh rounds depth r hv.1).and hundisturbed).mono fun _ _ hu =>
      ⟨⟨hu.1, hv.2.trans hu.2⟩, fun _ _ => trivial⟩

/-! ### What surrounds the instruction of a step -/

lemma transition_undisturbed (new : Phase) (reason : String) :
    Abides (Undisturbed w) (fun _ => True) (transition (D := D) new reason) := by
  intro v hv
  rcases transition_cases v new reason with ⟨-, hout⟩ | ⟨-, hout⟩ | ⟨-, -, hout⟩
  · exact Act.ensures_of_outcome hout (.ok () (hv.trans (.entered v new reason)))
  · exact Act.ensures_of_outcome hout (.ok () hv)
  · exact Act.ensures_of_outcome hout (.error hv trivial)

lemma disarm_undisturbed (s : Scheduler D.Clock) : Abides (Undisturbed w) (fun _ => True) (disarm s) :=
  fun v hv => Act.ensures_of_outcome (disarm_outcome s v) (.ok () (hv.trans (.disarmed v s)))

lemma halt_undisturbed (s : Scheduler D.Clock) : Abides (Undisturbed w) (fun _ => True) (halt s) :=
  .bind (disarm_undisturbed s) fun _ => transition_undisturbed _ _

lemma retire_undisturbed (sid : Nat) : Abides (Undisturbed w) (fun _ => True) (retire h sid) := by
  intro v hv
  rcases retire_cases h v sid with hout | ⟨shown, hout⟩
  · exact Act.ensures_of_outcome hout (.ok () (hv.trans (.retired v sid)))
  · exact Act.ensures_of_outcome hout (.error hv trivial)

lemma stumble_undisturbed : Abides (Undisturbed w) (fun _ => True) (stumble h) := by
  refine .get_bind fun v hv => ?_
  dsimp only
  split_ifs
  · exact halt_undisturbed _ v hv
  · exact transition_undisturbed _ _ v hv
  · exact .ok () hv

lemma stop_undisturbed (mark sid : Nat) (i : D.Instr) :
    Abides (Undisturbed w) (fun _ => True) (stop h mark sid i) := by
  refine .bind (fun v hv => .ok () (hv.trans (.of_strands rfl rfl rfl))) fun _ => ?_
  refine .bind (disarm_undisturbed _) fun _ => .bind (transition_undisturbed _ _) fun _ => ?_
  refine .bind (fun v hv => .ok () (hv.trans (.noted v _ _ _))) fun _ => ?_
  refine .bind (.discard fun v hv => ?_) fun _ v hv => .ok _ hv
  exact Act.ensures_of_outcome (emit_own v _ trivial) (.ok _ (hv.trans (.emitted v rfl)))

lemma windUp_undisturbed (hs : h.scheduler.Defers fit) (hc : fit w.clock) (fire : Ticket → Act (World D) Unit)
    (manual : Bool) : (windUp h fire manual).Ensures w fun _ v => Undisturbed w v :=
  Act.ensures_of_outcome (windUp_outcome h fire w manual (postpones_of_fit hs hc fire)) (.wound w h manual)

/-- How far a step has come with the books: what it has entered, whether its strand has counted the
instruction and whether the engine has. -/
structure Progress (sid : Nat) (es : List Entry) (done counted : Bool) (w v : World D) : Prop where
  ledger : v.ledger = w.ledger ++ es
  total : v.engine.totalSteps = w.engine.totalSteps + counted.toNat
  tally : v.engine.tally = w.engine.tally + done.toNat
  steps : ∀ sid', v.engine.steps sid' = w.engine.steps sid' + if sid = sid' then done.toNat else 0

namespace Progress

variable {sid : Nat} {es : List Entry} {done counted : Bool}

lemma undisturbed (hv : Progress sid es done counted w v) (hu : Undisturbed v u) :
    Progress sid es done counted w u where
  ledger := hu.ledger.trans hv.ledger
  total := hu.total.trans hv.total
  tally := hu.tally.trans hv.tally
  steps sid' := (hu.steps sid').trans (hv.steps sid')

lemma of_undisturbed (hv : Undisturbed w v) (sid : Nat) : Progress sid [] false false w v where
  ledger := by simpa using hv.ledger
  total := hv.total
  tally := hv.tally
  steps sid' := by simpa using hv.steps sid'

lemma began (hv : Progress sid [] false false w v) (i : D.Instr) (phase : Phase) (manual : Bool) :
    Progress sid [.begun sid] false false w (v.recorded (.began sid i phase manual)) where
  ledger := by
    have hledger := hv.ledger
    simp at hledger
    simp [Deed.entry?, hledger]
  total := hv.total
  tally := hv.tally
  steps := hv.steps

/-- The strand counts an instruction that returned. -/
lemma completed (hv : Progress sid es false counted w v) (hstrand : (v.engine.strand? sid).isSome)
    (i : D.Instr) : Progress sid (es ++ [.returned sid]) true counted w (v.completed sid i) where
  ledger := by
    have hledger := hv.ledger
    simp at hledger
    simp [Deed.entry?, hledger]
  total := hv.total
  tally := (v.engine.tally_stepped hstrand).trans (congrArg (· + 1) hv.tally)
  steps sid' := by
    have hsteps := hv.steps sid'
    rw [completed_engine, v.engine.steps_stepped hstrand sid', hsteps]
    simp

/-- The engine counts it once it is announced. -/
lemma announced (hv : Progress sid es true false w v) (h : Host D) (cursor : Option D.Instr)
    (hasNext : Bool) : Progress sid (es ++ [.stepped sid (w.engine.steps sid + 1)]) true true w
      (v.announced h sid cursor hasNext) where
  ledger := by
    have hledger := hv.ledger
    have hsteps : v.engine.steps sid = w.engine.steps sid + 1 := by simpa using hv.steps sid
    simp at hledger
    simp [Deed.entry?, Happening.entry?, event, hledger, hsteps]
  total := congrArg (· + 1) hv.total
  tally := hv.tally
  steps := hv.steps

/-- Or once the step has failed, if its strand has counted it. -/
lemma reckoned (hv : Progress sid es done false w v) (h : Host D) (cursor : Option D.Instr) :
    Progress sid es done done w (v.reckoned h sid (w.engine.steps sid) cursor) where
  ledger := hv.ledger
  total := by
    have hcount : v.engine.steps sid = w.engine.steps sid + done.toNat := by simpa using hv.steps sid
    have hsteps : v.engine.disarmed.steps sid = w.engine.steps sid + done.toNat := hcount
    have htotal := hv.total
    simp only [reckoned_engine, Engine.recounted_totalSteps, hsteps, Engine.disarmed_totalSteps, htotal]
    cases done <;> simp
  tally := hv.tally
  steps := hv.steps

/-- Its failure is announced if there are words for it. -/
lemma failed (hv : Progress sid es done counted w v) (text kind : String) :
    Progress sid (es ++ [.failed sid]) done counted w (v.emitted (.failed sid text kind)) where
  ledger := by
    have hledger := hv.ledger
    simp at hledger
    simp [Deed.entry?, Happening.entry?, event, hledger]
  total := hv.total
  tally := hv.tally
  steps := hv.steps

end Progress

/-- What the attempt at an instruction of a strand has entered in the books, by its outcome. -/
inductive Attempted (explained : Prop) (sid : Nat) (w v : World D) : Except Fault Bool → Prop
  | stray {f : Fault} (hf : f.isOrdinary = true) (htold : f.IsTold) (hv : Progress sid [] false false w v) :
      Attempted explained sid w v (.error f)
  | failed {f : Fault} (hv : Progress sid [.begun sid] false false w v) : Attempted explained sid w v (.error f)
  | late {f : Fault} (hf : f.isOrdinary = true) (htold : explained → f.IsTold)
      (hv : Progress sid [.begun sid, .returned sid] true false w v) : Attempted explained sid w v (.error f)
  | returned (hasNext : Bool) (hv : Progress sid [.begun sid, .returned sid] true false w v) :
      Attempted explained sid w v (.ok hasNext)

lemma followed_attempted (hh : h.Accountable fit P) (hm : P v.memory) {sid : Nat} {i : D.Instr}
    (hv : Progress sid [.begun sid, .returned sid] true false w v) :
    Attempted (h.Explains P) sid w (v.followed h sid i).2 (v.followed h sid i).1 := by
  unfold followed
  rcases hn : h.next v.memory i with f | _ | j
  · exact .late (hh.next i hm f hn) (fun htold => htold _ i f hm hn) hv
  · exact .returned false (hv.undisturbed (.movedTo v sid none))
  · dsimp only
    split_ifs
    · exact .returned true (hv.undisturbed (.movedTo v sid (some j)))
    · have hplain := refusal_isPlain h .successor j
      exact .late hplain.ordinary (fun _ => hplain.told) (hv.undisturbed (.movedTo v sid none))

theorem advance_attempted (hh : h.Accountable fit P) (rounds depth : Nat) (hw : w.Regular fit P) (sid : Nat)
    (slot : Int) (manual : Bool) :
    (advance h (runScript (serve h rounds depth)) sid slot manual).Ensures w fun o v =>
      Attempted (h.Explains P) sid w v o ∧ v.Regular fit P := by
  have hnothing : Progress sid [] false false w w := .of_undisturbed (.refl w) sid
  have htold : (Fault.strandHalted slot).IsTold := ⟨_, rfl⟩
  unfold Act.Ensures
  rw [advance_outcome]
  rcases hslot : w.engine.strand? sid with _ | strand
  · exact ⟨.stray rfl htold hnothing, hw⟩
  · rcases hcursor : strand.cursor with _ | i
    · simp only [hcursor]
      exact ⟨.stray rfl htold hnothing, hw⟩
    · have hbegan := hnothing.began i w.engine.phase manual
      have hmortal : (w.recorded (.began sid i w.engine.phase manual)).Mortal := by
        rw [Mortal, roster_recorded w rfl]
        exact hw.mortal
      have hcode := script_undisturbed (w := w.recorded (.began sid i w.engine.phase manual)) hh rounds depth
        (hh.code i strand.scope) ⟨hmortal, hw.memory, hw.clock⟩
      unfold Act.Ensures at hcode
      simp only [hcursor]
      rcases hrun : (runScript (serve h rounds depth) (h.code i strand.scope)).outcome
        (w.recorded (.began sid i w.engine.phase manual)) with ⟨f | _, v⟩ <;> rw [hrun] at hcode
      · exact ⟨.failed (hbegan.undisturbed hcode.2), hcode.1⟩
      · obtain ⟨hregular, hv⟩ := hcode
        have hstrand : (v.engine.strand? sid).isSome := by
          have hlt : sid < w.engine.strands.size := (Array.getElem?_eq_some_iff.mp hslot).1
          simpa [Engine.strand?] using hlt.trans_le hv.size
        have hdone : (v.completed sid i).Regular fit P := by
          refine ⟨?_, hregular.memory, hregular.clock⟩
          rw [Mortal, roster_completed]
          exact hregular.mortal
        refine ⟨followed_attempted hh hdone.memory ((hbegan.undisturbed hv).completed hstrand i), ?_⟩
        exact followed_keeps (I := fun u => u.Regular fit P) h sid i
          (fun cursor => ⟨hdone.mortal.altered rfl rfl, hdone.memory, hdone.clock⟩) hdone

/-- The counts agree with the books, into which the steps `bs` were entered one after the other. -/
structure Balanced (explained : Prop) (bs : List Booking) (w : World D) : Prop where
  ledger : w.ledger = bs.flatMap Booking.entries
  total : w.engine.totalSteps = bs.countP (·.counted?.isSome)
  tally : w.engine.tally = bs.countP (·.counted?.isSome)
  steps : ∀ sid, w.engine.steps sid = bs.countP (·.counted? = some sid)
  numbered : Booking.Numbered bs
  voiced : explained → ∀ sid, Booking.mute sid ∉ bs

namespace Balanced

variable {explained : Prop} {bs : List Booking} {sid : Nat}

lemma undisturbed (hw : Balanced explained bs w) (hv : Undisturbed w v) : Balanced explained bs v where
  ledger := hv.ledger.trans hw.ledger
  total := hv.total.trans hw.total
  tally := hv.tally.trans hw.tally
  steps sid := (hv.steps sid).trans (hw.steps sid)
  numbered := hw.numbered
  voiced := hw.voiced

/-- A step is booked once its strand and the engine have both counted its instruction, or neither has. -/
lemma book {b : Booking} {es : List Entry} {done : Bool} (hw : Balanced explained bs w)
    (hv : Progress sid es done done w v) (hb : b.Fits explained sid w.engine.steps es done) :
    Balanced explained (bs ++ [b]) v where
  ledger := by
    rw [hv.ledger, hw.ledger, ← hb.entries]
    simp
  total := by
    rw [hv.total, hw.total, List.countP_append, List.countP_singleton, hb.counted]
    cases done <;> rfl
  tally := by
    rw [hv.tally, hw.tally, List.countP_append, List.countP_singleton, hb.counted]
    cases done <;> rfl
  steps sid' := by
    rw [hv.steps, hw.steps, List.countP_append, List.countP_singleton, hb.counted]
    cases done <;> simp
  numbered := hw.numbered.concat fun sid' n heq => by rw [hb.numbered sid' n heq, hw.steps]
  voiced hexplained sid hmem := by
    rcases List.mem_append.1 hmem with hold | hnew
    · exact hw.voiced hexplained sid hold
    · exact hb.voiced hexplained sid (List.mem_singleton.1 hnew).symm

end Balanced

section Step

variable {bs : List Booking} {sid : Nat}

/-- An instruction that failed is booked as failed if there are words for it, whatever becomes of its strand. -/
lemma recover_progress {es : List Entry} {done : Bool} (hv : Progress sid es done false w v)
    (cursor : Option D.Instr) (f : Fault) :
    (recover h sid (w.engine.steps sid) cursor f).Ensures v fun _ u =>
      f.IsTold ∧ Progress sid (es ++ [.failed sid]) done done w u ∨
        ¬ f.IsTold ∧ Progress sid es done done w u := by
  have hreckoned := hv.reckoned h cursor
  unfold Act.Ensures
  rw [recover_lamented]
  rcases hm : f.message with g | text
  · refine .inr ⟨fun ⟨text, htext⟩ => ?_, hreckoned⟩
    rw [hm] at htext
    cases htext
  · have hlamented : Progress sid (es ++ [.failed sid]) done done w
        (v.lamented h sid (w.engine.steps sid) cursor f text) := hreckoned.failed text f.kind.name
    have hrest : Abides (Undisturbed (v.lamented h sid (w.engine.steps sid) cursor f text)) (fun _ => True) (do
        if v.engine.phase ≠ .terminated then do
          if (v.engine.cursor sid).isNone then retire h sid
          stumble h : Act (World D) Unit) := by
      split_ifs
      · exact .bind (retire_undisturbed sid) fun _ => stumble_undisturbed
      · exact stumble_undisturbed
      · exact .pure _
    exact .inl ⟨⟨text, hm⟩, hlamented.undisturbed (hrest _ (.refl _)).state⟩

/-- An instruction that returned is booked as executed. -/
lemma conclude_progress (hs : h.scheduler.Defers fit) (hc : fit v.clock) {es : List Entry}
    (hv : Progress sid es true false w v) (fire : Ticket → Act (World D) Unit) (mark : Nat)
    (cursor : Option D.Instr) (hasNext manual : Bool) :
    (conclude h fire mark sid cursor hasNext manual).Ensures v fun _ u =>
      Progress sid (es ++ [.stepped sid (w.engine.steps sid + 1)]) true true w u := by
  have hannounced := hv.announced h cursor hasNext
  unfold Act.Ensures
  rw [conclude_announced]
  have hclock : fit (v.announced h sid cursor hasNext).clock := hc
  generalize v.announced h sid cursor hasNext = a at hannounced hclock
  have hwind (b : World D) (hb : Undisturbed a b) (hfit : fit b.clock) : (do
      windUp h fire manual
      result mark 1 (some sid) hasNext : Act (World D) StepResult).Ensures b fun _ u => Undisturbed a u :=
    (windUp_undisturbed hs hfit fire manual).bind (fun _ _ hu => hb.trans hu) fun _ _ hu => hb.trans hu
  refine Act.Ensures.mono (P := fun _ u => Undisturbed a u) ?_ fun _ _ hu => hannounced.undisturbed hu
  split_ifs
  · rcases retire_cases h a sid with hout | ⟨shown, hout⟩
    · exact Act.Ensures.bind (Act.ensures_of_outcome (Q := fun _ u => u = a.retired sid) hout rfl)
        (fun _ _ hu => hu ▸ hwind _ (.retired a sid) hclock) fun _ _ hu => hu ▸ .retired a sid
    · exact Act.Ensures.bind (Act.ensures_of_outcome (Q := fun o u => u = a ∧ o ≠ .ok ()) hout ⟨rfl, nofun⟩)
        (fun _ _ hu => absurd rfl hu.2) fun _ _ hu => hu.1 ▸ .refl a
  · exact hwind a (.refl a) hclock
  · exact .refl a

/-- After a failed attempt the step is booked with its failure, or as it stands for want of words. -/
lemma recover_balanced {explained : Prop} {es : List Entry} {done : Bool} {f : Fault}
    (hw : Balanced explained bs w) (hv : Progress sid es done false w v) (cursor : Option D.Instr)
    (htold : f.IsTold → ∃ b : Booking, b.Fits explained sid w.engine.steps (es ++ [.failed sid]) done)
    (hmute : ¬ f.IsTold → ∃ b : Booking, b.Fits explained sid w.engine.steps es done) : (do
      recover h sid (w.engine.steps sid) cursor f
      throw f : Act (World D) StepResult).Ensures v fun _ u =>
        ∃ now, Balanced explained (bs ++ now) (u.altered (·.inStep false)) := by
  have hout (u : World D) : Undisturbed u (u.altered (·.inStep false)) := .of_strands rfl rfl rfl
  have hbook {u : World D} (hu : f.IsTold ∧ Progress sid (es ++ [.failed sid]) done done w u ∨
      ¬ f.IsTold ∧ Progress sid es done done w u) :
      ∃ now, Balanced explained (bs ++ now) (u.altered (·.inStep false)) := by
    rcases hu with ⟨hf, hu⟩ | ⟨hf, hu⟩
    · obtain ⟨b, hb⟩ := htold hf
      exact ⟨[b], hw.book (hu.undisturbed (hout u)) hb⟩
    · obtain ⟨b, hb⟩ := hmute hf
      exact ⟨[b], hw.book (hu.undisturbed (hout u)) hb⟩
  exact (recover_progress hv cursor f).bind (fun _ _ hu => hbook hu) fun _ _ hu => hbook hu

variable (hh : h.Accountable fit P) (rounds depth : Nat)

include hh

/-- A step books its instruction. -/
theorem proceed_balanced (hw : w.Regular fit P) (hb : Balanced (h.Explains P) bs w)
    (fire : Ticket → Act (World D) Unit) (mark : Nat) (cursor : Option D.Instr) (manual : Bool) :
    (proceed h (runScript (serve h rounds depth)) fire mark sid cursor manual).Ensures w fun _ v =>
      ∃ now, Balanced (h.Explains P) (bs ++ now) v := by
  generalize hin : (w.altered (·.passing none)).altered (·.inStep true) = u
  have hu : u.Regular fit P := by
    rw [← hin]
    exact ⟨(hw.mortal.altered rfl rfl).altered rfl rfl, hw.memory, hw.clock⟩
  have hub : Balanced (h.Explains P) bs u := hb.undisturbed (by rw [← hin]; exact .of_strands rfl rfl rfl)
  have hbefore : w.engine.steps sid = u.engine.steps sid := by rw [← hin]; rfl
  have hout (v : World D) : Undisturbed v (v.altered (·.inStep false)) := .of_strands rfl rfl rfl
  refine proceed_ensures (A := fun o v => Attempted (h.Explains P) sid u v o ∧ v.Regular fit P)
    (by rw [hin]; exact advance_attempted hh rounds depth hu sid sid manual) ?_ ?_ ?_
  · rintro hasNext v ⟨⟨⟩ | ⟨⟩ | ⟨⟩ | ⟨-, hprogress⟩, hv⟩
    have hclock : fit (v.altered (·.inStep false)).clock := hv.clock
    refine (conclude_progress hh.scheduler.defers hclock (hprogress.undisturbed (hout v)) fire mark cursor hasNext
      manual).mono fun _ z hz => ⟨[.stepped sid (u.engine.steps sid + 1)], hub.book hz ⟨rfl, rfl, ?_, nofun⟩⟩
    rintro sid' n heq
    cases heq
    rfl
  · rintro f v - ⟨hattempted, -⟩
    rw [hbefore]
    cases hattempted with
    | stray _ htold hprogress =>
      exact recover_balanced hub hprogress cursor (fun _ => ⟨.stray sid, rfl, rfl, nofun, nofun⟩)
        fun hf => absurd htold hf
    | failed hprogress =>
      exact recover_balanced hub hprogress cursor (fun _ => ⟨.failed sid, rfl, rfl, nofun, nofun⟩)
        fun _ => ⟨.cut sid, rfl, rfl, nofun, nofun⟩
    | late _ htold hprogress =>
      exact recover_balanced hub hprogress cursor (fun _ => ⟨.late sid, rfl, rfl, nofun, nofun⟩)
        fun hf => ⟨.mute sid, rfl, rfl, nofun, fun hexplained => absurd (htold hexplained) hf⟩
  · rintro f v hf ⟨hattempted, -⟩
    cases hattempted with
    | stray hordinary => simp [hf] at hordinary
    | failed hprogress =>
      exact ⟨[.cut sid], hub.book (hprogress.undisturbed (hout v)) ⟨rfl, rfl, nofun, nofun⟩⟩
    | late hordinary => simp [hf] at hordinary

/-- Up to its instruction a step books nothing, and then one booking. -/
theorem executeStep_balanced (hw : w.Regular fit P) (hb : Balanced (h.Explains P) bs w)
    (fire : Ticket → Act (World D) Unit) (manual : Bool) :
    (executeStep h (runScript (serve h rounds depth)) fire manual).Ensures w fun _ v =>
      ∃ now, Balanced (h.Explains P) (bs ++ now) v := by
  have hnothing {v : World D} (hv : Undisturbed w v) : ∃ now, Balanced (h.Explains P) (bs ++ now) v :=
    ⟨[], by simpa using hb.undisturbed hv⟩
  have hturned : w.turned.Regular fit P := by
    refine ⟨?_, by simpa using hw.memory, by simpa using hw.clock⟩
    exact hw.mortal.turned
  refine executeStep_asks (A := fun _ v => v.Regular fit P ∧ Undisturbed w v) (fun _ => ?_) ?_
    (fun _ _ hv => hnothing hv.2) (fun i v _ hv => ?_) fun _ v _ hv => ?_
  · have hhalt : Abides (Undisturbed w) (fun _ => True) (do
        halt h.scheduler
        result w.engine.nextSeq 0 none false : Act (World D) StepResult) :=
      .bind (halt_undisturbed _) fun _ v hv => .ok _ hv
    exact (hhalt w (.refl w)).mono fun _ _ hv => hnothing hv.state
  · refine consult_ensures ⟨hturned, .turned w⟩ fun _ _ i _ _ => ?_
    exact (script_undisturbed hh rounds depth (hh.breaks i) hturned).mono fun _ _ hv =>
      ⟨hv.1, (Undisturbed.turned w).trans hv.2⟩
  · exact (stop_undisturbed _ _ i v hv.2).mono fun _ _ hu => hnothing hu.state
  · exact proceed_balanced hh rounds depth hv.1 (hb.undisturbed hv.2) fire _ _ manual

end Step

section Runs

variable {bs : List Booking} (hh : h.Accountable fit P) (rounds depth : Nat)

include hh

/-- What one move adds to the books. -/
theorem after_balanced (hw : w.Regular fit P) (hb : Balanced (h.Explains P) bs w) {m : Move D}
    (hm : w.Admits fit m) : ∃ now, Balanced (h.Explains P) (bs ++ now) (w.after h rounds depth m) := by
  have hnothing {v : World D} (hv : Undisturbed w v) : ∃ now, Balanced (h.Explains P) (bs ++ now) v :=
    ⟨[], by simpa using hb.undisturbed hv⟩
  cases m with
  | operate r =>
    rcases hm.step_or_inner with rfl | hinner
    · refine Act.Ensures.reply (I := fun v => ∃ now, Balanced (h.Explains P) (bs ++ now) v) ?_
      exact step_ensures (fun _ _ => hnothing (.refl w)) (fun _ => hnothing (.refl w)) fun _ _ =>
        executeStep_balanced hh rounds depth hw hb _ true
    · exact (serve_undisturbed hh.scheduler.defers hw.clock hw.mortal rounds (depth + 1) hinner.not_steps).mono
        fun _ _ hv => hnothing hv
  | fire t =>
    have hlapsed : Undisturbed w (w.altered (·.unarmed)) := .of_strands rfl rfl rfl
    refine fire_ensures (Q := fun _ v => ∃ now, Balanced (h.Explains P) (bs ++ now) v) (fun _ _ => ?_)
      (fun _ _ => hnothing hlapsed) fun _ => hnothing (.noted w _ _ _)
    exact executeStep_balanced (w := w.altered (·.unarmed)) hh rounds depth
      ⟨hw.mortal.altered rfl rfl, hw.memory, hw.clock⟩ (hb.undisturbed hlapsed) _ false
  | drift clock => exact hnothing (.of_strands rfl rfl rfl)

lemma after_regular (hw : w.Regular fit P) {m : Move D} (hm : w.Admits fit m) :
    (w.after h rounds depth m).Regular fit P := by
  cases m with
  | operate r => exact serve_regular hh rounds (depth + 1) r hw
  | fire t => exact serve_regular hh rounds (depth + 1) (.fire t) hw
  | drift clock => exact ⟨hw.mortal, hw.memory, hm⟩

/-- The counts agree with the books all along a run. -/
theorem replay_balanced (hw : w.Regular fit P) (hb : Balanced (h.Explains P) bs w) {moves : List (Move D)}
    (hm : Plays h rounds depth fit w moves) :
    ∃ now, Balanced (h.Explains P) (bs ++ now) (w.replay h rounds depth moves) := by
  induction moves generalizing w bs with
  | nil =>
    refine ⟨[], ?_⟩
    rw [List.append_nil]
    exact hb
  | cons m moves ih =>
    obtain ⟨hmove, hrest⟩ := hm
    obtain ⟨now, hnext⟩ := after_balanced hh rounds depth hw hb hmove
    obtain ⟨later, hend⟩ := ih (after_regular hh rounds depth hw hmove) hnext hrest
    refine ⟨now ++ later, ?_⟩
    rw [← List.append_assoc]
    exact hend

end Runs

lemma Fresh.balanced (hw : Fresh fit P w) (explained : Prop) : Balanced explained [] w := by
  obtain ⟨run, settings, hmake⟩ := hw.engine
  have hengine := Engine.eq_of_make hmake
  refine ⟨by simp [hw.deeds], by simp [hengine], by simp [hengine, Engine.tally], fun sid => ?_, ?_, by simp⟩
  · simp [hengine, Engine.steps, Engine.strand?]
  · intro pre sid n post heq
    simp at heq

section Views

variable (w : World D)

lemma completions_length : w.completions.length = w.ledger.countP Entry.isReturned := by
  simp only [completions, ledger, Deed.tell, List.length_filterMap_eq_countP, List.countP_filterMap]
  refine List.countP_congr fun d _ => ?_
  cases d with
  | emitted e =>
    cases hwhat : e.what <;>
      simp [Deed.completion?, Deed.entry?, Happening.entry?, Entry.isReturned, hwhat]
  | _ => simp [Deed.completion?, Deed.entry?, Entry.isReturned]

lemma countP_completions (sid : Nat) :
    w.completions.countP (·.1 = sid) = w.ledger.count (.returned sid) := by
  simp only [completions, ledger, Deed.tell, List.countP_filterMap, List.count_filterMap]
  refine List.countP_congr fun d _ => ?_
  cases d with
  | emitted e => cases hwhat : e.what <;> simp [Deed.completion?, Deed.entry?, Happening.entry?, hwhat]
  | _ => simp [Deed.completion?, Deed.entry?]

lemma steps_length : (Log.steps w.log).length = w.ledger.countP Entry.isStepped := by
  simp only [Log.steps, log, ledger, Deed.tell, List.filterMap_filterMap, List.length_filterMap_eq_countP,
    List.countP_filterMap]
  refine List.countP_congr fun d _ => ?_
  cases d with
  | emitted e =>
    cases hwhat : e.what <;>
      simp [Deed.happening?, Deed.entry?, Happening.entry?, Entry.isStepped, hwhat]
  | _ => simp [Deed.happening?, Deed.entry?, Entry.isStepped]

end Views

/-- Between any two moves of a run the engine's own count of steps is the sum of the counts of all strands
ever made, the number of instructions that returned, and, if what goes wrong over a successor can be explained, the
number of steps announced as executed together with the failures announced after their instruction had returned;
each strand's count is the number of its instructions that returned, and so is the count announced with each of its
steps, at that time. -/
theorem step_counts_agree (hh : h.Accountable fit P) (hw : Fresh fit P w) (rounds depth : Nat)
    (moves : List (Move D)) (hm : Plays h rounds depth fit w moves) :
    let v := w.replay h rounds depth moves
    v.engine.totalSteps = v.engine.tally ∧
    v.engine.totalSteps = v.completions.length ∧
    (h.Explains P → v.engine.totalSteps = (Log.steps v.log).length + Entry.late v.ledger) ∧
    (∀ sid, v.engine.steps sid = v.completions.countP (·.1 = sid)) ∧
    ∀ before sid n after, v.ledger = before ++ .stepped sid n :: after →
      n = before.count (.returned sid) := by
  intro v
  obtain ⟨bs, hv⟩ := replay_balanced hh rounds depth ⟨hw.mortal, hw.memory, hw.clock⟩ (hw.balanced _) hm
  rw [List.nil_append] at hv
  change Balanced _ bs v at hv
  refine ⟨hv.total.trans hv.tally.symm, ?_, fun hexplained => ?_, fun sid => ?_, ?_⟩
  · rw [completions_length, hv.ledger, Booking.returned_entries, hv.total]
  · rw [steps_length, hv.ledger, Booking.stepped_entries bs (hv.voiced hexplained), hv.total]
  · rw [countP_completions, hv.ledger, Booking.count_entries, hv.steps]
  · rintro before sid n after hledger
    rw [hv.ledger] at hledger
    obtain ⟨pre, post, hbs, rfl⟩ := Booking.split_entries bs hledger
    rw [hv.numbered pre sid n post hbs, List.count_append, Booking.count_entries]
    simp

end World

namespace Block

/-- A block, and an instruction of another make that fails to name its successor. -/
def derailing (f : Fault) : Program where
  nodes := #[{ id := "go", name := .str "go" },
    { id := "derail", kind := .custom, name := .str "derail", successorFault := some f }]
  links := #[some 1, none]
  entry := .program (some 0) []

lemma derailing_orderly {q : Fault → Prop} {f : Fault} (hf : q f) : (derailing f).IsOrderly q := by
  intro n hn
  simp only [derailing, List.mem_toArray, List.mem_cons, List.not_mem_nil, or_false] at hn
  rcases hn with rfl | rfl
  · exact ⟨trivial, nofun⟩
  · refine ⟨trivial, ?_⟩
    rintro _ ⟨⟩
    exact hf

def derailingRun (f : Fault) : Run where
  program := derailing f
  scope := []
  world := {
    engine := { breaking := false, rate := .zero, timeSlice := 1, historySize := 1024 }
    clock := { kind := .manual }
    memory := { links := (derailing f).links, firstLinks := (derailing f).links } }

lemma derailingRun_prepared (f : Fault) :
    Run.prepare (derailing f) {} .manual none none .zero = .ok (derailingRun f) := rfl

lemma derailingRun_fresh (f : Fault) {fit : Clockwork → Prop} (hfit : fit { kind := .manual }) :
    World.Fresh fit Memory.Calm (derailingRun f).world :=
  Run.prepare_fresh (derailingRun_prepared f) nofun hfit

lemma derailingRun_accountable {f : Fault} (hf : f.isOrdinary = true) :
    (derailingRun f).host.Accountable (fun c => c.kind ≠ .eager) Memory.Calm :=
  (host_tame (derailing_orderly hf) _).accountable clockwork_stays

end Block

namespace World

/-- Both instructions return and are counted, but only the first is announced as executed. -/
theorem derailing_counts_agree :
    let r := Block.derailingRun (.raised .runtime "derailed")
    let fit : Clockwork → Prop := fun c => c.kind ≠ .eager
    let moves : List (Move Block.dialect) := [.operate (.start none), .operate .pause, .operate .step,
      .operate .step]
    let v := r.world.replay r.host 1 5 moves
    r.host.Accountable fit Block.Memory.Calm ∧ r.host.Explains Block.Memory.Calm ∧
      Plays r.host 1 5 fit r.world moves ∧ v.engine.totalSteps = 2 ∧ v.engine.tally = 2 ∧
      v.completions.length = 2 ∧ (Log.steps v.log).length + Entry.late v.ledger = 2 ∧
      Entry.late v.ledger = 1 := by
  intro r fit moves v
  have haccountable : r.host.Accountable fit Block.Memory.Calm := Block.derailingRun_accountable rfl
  have hexplains : r.host.Explains Block.Memory.Calm := fun _ _ _ _ hf =>
    Block.successor_error (Block.derailing_orderly (q := Fault.IsTold) ⟨_, rfl⟩) hf
  have hplays : Plays r.host 1 5 fit r.world moves := ⟨trivial, trivial, trivial, trivial, trivial⟩
  have hfresh : Fresh fit Block.Memory.Calm r.world := Block.derailingRun_fresh _ nofun
  have htotal : v.engine.totalSteps = 2 := by decide +kernel
  obtain ⟨htally, hreturned, htold, -⟩ := step_counts_agree (h := r.host) haccountable hfresh 1 5 moves hplays
  refine ⟨haccountable, hexplains, hplays, htotal, ?_, ?_, ?_, by decide +kernel⟩
  · rw [← htally, htotal]
  · rw [← hreturned, htotal]
  · rw [← htold hexplains, htotal]

/-- Two faults over which the counts come apart: one of a successor that cannot be worded, so that an instruction
which returned is not announced, and one of an instruction in whose middle another step was fired, so that the other
one is counted twice. -/
theorem fault_can_upset_counts :
    (let r := Block.derailingRun (.missingKey (.int (Nat.pow 10 5000)))
      let fit : Clockwork → Prop := fun c => c.kind ≠ .eager
      let moves : List (Move Block.dialect) := [.operate (.start none), .operate .pause, .operate .step,
        .operate .step]
      let v := r.world.replay r.host 1 5 moves
      r.host.Accountable fit Block.Memory.Calm ∧ Fresh fit Block.Memory.Calm r.world ∧
        Plays r.host 1 5 fit r.world moves ∧ v.engine.totalSteps = 2 ∧
        (Log.steps v.log).length + Entry.late v.ledger = 1) ∧
    (let r := Block.overlappingRun
      let v := r.world.replay r.host 1 5 [.operate (.start none), .operate .runNext]
      Block.Run.prepare Block.overlapping {} .manual none none .zero = .ok r ∧ v.engine.totalSteps = 2 ∧
        v.engine.tally = 1 ∧ v.completions.length = 1) :=
  ⟨⟨Block.derailingRun_accountable rfl, Block.derailingRun_fresh _ nofun,
      ⟨trivial, trivial, trivial, trivial, trivial⟩, by decide +kernel, by decide +kernel⟩,
    Block.overlappingRun_prepared, by decide +kernel, by decide +kernel, by decide +kernel⟩

end World

end Loom
