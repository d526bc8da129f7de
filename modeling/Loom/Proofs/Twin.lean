import Loom.Proofs.Practice
import Loom.Proofs.Refusal

/-! Two runs that go alike. Where the scheduler answers both alike, whichever ticket it is given, two worlds that
differ in their tokens only meet every request alike and differ in their tokens only afterwards. So they go on,
move by move, if a ticket that comes due in the one comes due in the other with its number recounted. -/
namespace Loom

namespace Act

variable {σ α β : Type} {S U : σ → σ → Prop} {a b : Act σ α} {s t : σ}

/-- Two computations from two states come out alike and leave states that are related. -/
def Agree (S : σ → σ → Prop) (a b : Act σ α) (s t : σ) : Prop :=
  (a.outcome s).1 = (b.outcome t).1 ∧ S (a.outcome s).2 (b.outcome t).2

namespace Agree

lemma of_outcome {r : Except Fault α} {s' t' : σ} (ha : a.outcome s = (r, s')) (hb : b.outcome t = (r, t'))
    (h : S s' t') : Agree S a b s t := by
  unfold Agree
  rw [ha, hb]
  exact ⟨rfl, h⟩

lemma mono (h : Agree S a b s t) (hSU : ∀ s t, S s t → U s t) : Agree U a b s t := ⟨h.1, hSU _ _ h.2⟩

lemma pure (x : α) (h : S s t) : Agree S (Pure.pure x) (Pure.pure x) s t := ⟨rfl, h⟩

lemma throw (f : Fault) (h : S s t) :
    Agree S (MonadExcept.throw f : Act σ α) (MonadExcept.throw f) s t := ⟨rfl, h⟩

lemma throw_bind {f : Fault} {g g' : α → Act σ β} (h : S s t) :
    Agree S (MonadExcept.throw f >>= g) (MonadExcept.throw f >>= g') s t := ⟨rfl, h⟩

lemma ofExcept (r : Except Fault α) (h : S s t) : Agree S (Act.ofExcept r) (Act.ofExcept r) s t := ⟨rfl, h⟩

/-- Where the first part fails, what it leaves must do. -/
lemma bind {f g : α → Act σ β} (h : Agree S a b s t) (hSU : ∀ s t, S s t → U s t)
    (hfg : ∀ x s t, S s t → Agree U (f x) (g x) s t) : Agree U (a >>= f) (b >>= g) s t := by
  obtain ⟨hout, hleft⟩ := h
  unfold Agree
  rw [outcome_bind, outcome_bind]
  rcases ha : a.outcome s with ⟨r, s'⟩
  rcases hb : b.outcome t with ⟨r', t'⟩
  rw [ha, hb] at hout hleft
  obtain rfl : r = r' := hout
  rcases r with f | x
  · exact ⟨rfl, hSU _ _ hleft⟩
  · exact hfg x s' t' hleft

lemma next {f g : α → Act σ β} (h : Agree S a b s t) (hfg : ∀ x s t, S s t → Agree S (f x) (g x) s t) :
    Agree S (a >>= f) (b >>= g) s t := h.bind (fun _ _ => id) hfg

lemma get_bind {f g : σ → Act σ α} (h : Agree S (f s) (g t) s t) : Agree S (get >>= f) (get >>= g) s t := by
  unfold Agree at h ⊢
  rwa [outcome_bind, outcome_bind, outcome_get, outcome_get]

lemma attempt (h : Agree S a b s t) : Agree S a.attempt b.attempt s t := ⟨congrArg Except.ok h.1, h.2⟩

lemma discard (h : Agree S a b s t) : Agree S (Functor.discard a) (Functor.discard b) s t := by
  unfold Agree at h ⊢
  rw [outcome_discard, outcome_discard, h.1]
  exact ⟨rfl, h.2⟩

end Agree

end Act

/-- A scheduler that answers alike whichever ticket it is given, in states that are related, and never fires a
step while taking it. -/
structure Scheduler.Indifferent (s : Scheduler κ) (R : κ → κ → Prop) : Prop where
  answer : ∀ {c c'} delay t t', R c c' → (s.arm c delay t).1 = (s.arm c' delay t').1
  arm : ∀ {c c'} delay t t', R c c' → R (s.arm c delay t).2 (s.arm c' delay t').2
  cancel : ∀ {c c'} n, R c c' → R (s.cancel c n) (s.cancel c' n)
  later : ∀ {c c'} delay t a, R c c' → (s.arm c delay t).1 = .ok a → a.immediate = false

/-- What a deed shows outside the dealings with the scheduler. -/
def Deed.outward? : Deed D → Option (Deed D)
  | deferred .. => none
  | d => some d

/-- What an engine keeps about its deferred step, with the phase it is in. -/
structure Vitals where
  token : Nat
  pending : Option Nat
  phase : Phase
  started : Bool

namespace Engine

variable {D : Dialect}

@[simps] def vitals (e : Engine D) : Vitals := ⟨e.token, e.pending, e.phase, e.started⟩

/-- The same engine with a token that is further on. -/
@[simps] def ahead (e : Engine D) (k : Nat) : Engine D := { e with token := e.token + k }

section Ahead

variable (e : Engine D) (k sid : Nat)

@[simp] lemma strand?_ahead : (e.ahead k).strand? sid = e.strand? sid := rfl

@[simp] lemma cursor_ahead : (e.ahead k).cursor sid = e.cursor sid := rfl

@[simp] lemma steps_ahead : (e.ahead k).steps sid = e.steps sid := rfl

@[simp] lemma since_ahead (mark : Nat) : (e.ahead k).since mark = e.since mark := rfl

@[simp] lemma recent_ahead (limit : Option Int) : (e.ahead k).recent limit = e.recent limit := rfl

@[simp] lemma current_ahead : (e.ahead k).current = e.current := rfl

end Ahead

end Engine

namespace Vitals

/-- A step is only deferred while running, and a token that has not moved on is worth nothing. -/
structure Sound (T : Nat) (p : Vitals) : Prop where
  late : T ≤ p.token
  settled : p.pending.isSome → p.phase = .running
  still : p.token = T → p.phase ≠ .running ∧ p.pending = none
  started_iff : p.started = true ↔ p.phase ≠ .idle

/-- Nothing is deferred, and nothing that was deferred counts any more. -/
structure Quiet (T : Nat) (p : Vitals) : Prop where
  late : T < p.token
  pending : p.pending = none
  started_iff : p.started = true ↔ p.phase ≠ .idle

variable {T : Nat} {p : Vitals}

lemma Quiet.sound (h : p.Quiet T) : p.Sound T :=
  ⟨h.late.le, fun hp => by simp [h.pending] at hp, fun ht => absurd ht h.late.ne', h.started_iff⟩

end Vitals

/-- The number of a ticket in a run in which `k` tickets less are made, those that follow the `T`-th. -/
def Ticket.recount (T k : Nat) (t : Ticket) : Ticket := { t with token := max (min t.token T) (t.token - k) }

/-- A move of one run and the move of the other that answers to it. -/
inductive Move.Echoes {D : Dialect} (R : D.Clock → D.Clock → Prop) (T k : Nat) : Move D → Move D → Prop
  | operate {r} (hr : r.IsOperation) : Echoes R T k (.operate r) (.operate r)
  | fire (t : Ticket) : Echoes R T k (.fire t) (.fire (t.recount T k))
  | drift {c c'} (hc : R c c') : Echoes R T k (.drift c) (.drift c')

namespace World

variable {D : Dialect}

/-- Two worlds that differ in how far the token is and in what is between engine and scheduler; `P` holds of their
memory, and `I` of what the one that is behind keeps about its deferred step. -/
structure Twin (R : D.Clock → D.Clock → Prop) (P : D.Memory → Prop) (k : Nat) (I : Vitals → Prop)
    (w v : World D) : Prop where
  engine : w.engine = v.engine.ahead k
  clock : R w.clock v.clock
  memory : w.memory = v.memory
  room : P v.memory
  bus : w.bus = v.bus
  wall : w.wall = v.wall
  deeds : Deed.tell Deed.outward? w.deeds = Deed.tell Deed.outward? v.deeds
  vitals : I v.engine.vitals

variable {h : Host D} {R : D.Clock → D.Clock → Prop} {P : D.Memory → Prop} {T k : Nat}
  {I J : Vitals → Prop} {w v : World D}

open Act (Agree)

namespace Twin

lemma mono (hw : Twin R P k I w v) (hIJ : ∀ p, I p → J p) : Twin R P k J w v :=
  { hw with vitals := hIJ _ hw.vitals }

/-- Past the first `T`, the tickets that count have each other's number. -/
lemma ticket_iff (hw : Twin R P k I w v) (hT : T < v.engine.token) (t : Ticket) :
    t = w.ticket ↔ t.recount T k = v.ticket := by
  have hticket : w.ticket = ⟨v.engine.run, v.engine.token + k⟩ := by
    unfold World.ticket
    rw [hw.engine]
    rfl
  rw [hticket]
  obtain ⟨run, token⟩ := t
  simp only [Ticket.recount, World.ticket, Ticket.mk.injEq]
  refine and_congr_right fun _ => ?_
  omega

lemma altered (hw : Twin R P k I w v) {f : Engine D → Engine D}
    (hf : f (v.engine.ahead k) = (f v.engine).ahead k)
    (hI : J (f v.engine).vitals) : Twin R P k J (w.altered f) (v.altered f) :=
  { hw with engine := (congrArg f hw.engine).trans hf, vitals := hI }

lemma noted (hw : Twin R P k I w v) (level : LogLevel) (source : LogSource) (text text' : String) :
    Twin R P k I (w.noted level source text) (v.noted level source text') := { hw with }

lemma withMemory (hw : Twin R P k I w v) {m : D.Memory} (hm : P m) :
    Twin R P k I (w.withMemory m) (v.withMemory m) := { hw with memory := rfl, room := hm }

lemma recorded (hw : Twin R P k I w v) (d : Deed D) : Twin R P k I (w.recorded d) (v.recorded d) :=
  { hw with deeds := by rw [recorded_deeds, recorded_deeds, Deed.tell_push, Deed.tell_push, hw.deeds] }

lemma modify (hw : Twin R P k I w v) {f : Engine D → Engine D}
    (hf : ∀ e : Engine D, f (e.ahead k) = (f e).ahead k) (hsame : ∀ e : Engine D, (f e).vitals = e.vitals) :
    Agree (Twin R P k I) (modifyEngine f) (modifyEngine f) w v :=
  .of_outcome rfl rfl (hw.altered (hf _) ((hsame _).symm ▸ hw.vitals))

lemma note (hw : Twin R P k I w v) (level : LogLevel) (source : LogSource) (text text' : String) :
    Agree (Twin R P k I) (note level source text) (World.note level source text') w v :=
  .of_outcome rfl rfl (hw.noted ..)

lemma enter (hw : Twin R P k I w v) (what : Happening) : Agree (Twin R P k I) (enter what) (enter what) w v := by
  have hseq : w.engine.nextSeq = v.engine.nextSeq := by rw [hw.engine]; rfl
  have hevent : (⟨w.engine.nextSeq, w.wall, what⟩ : Event) = ⟨v.engine.nextSeq, v.wall, what⟩ := by
    rw [hseq, hw.wall]
  refine ⟨congrArg Except.ok hevent, { hw with engine := ?_, deeds := ?_ }⟩
  · change ({ w.engine with nextSeq := w.engine.nextSeq + 1 } : Engine D).remember
      ⟨w.engine.nextSeq, w.wall, what⟩ = _
    rw [hevent, hw.engine]
    rfl
  · change Deed.tell Deed.outward? (w.deeds.push (.emitted ⟨w.engine.nextSeq, w.wall, what⟩)) =
      Deed.tell Deed.outward? (v.deeds.push (.emitted ⟨v.engine.nextSeq, v.wall, what⟩))
    rw [hevent, Deed.tell_push, Deed.tell_push, hw.deeds]

lemma publish (hw : Twin R P k I w v) (event : Event) :
    Agree (Twin R P k I) (publish event) (publish event) w v := by
  refine Agree.get_bind ?_
  dsimp only
  rw [hw.bus]
  cases v.bus with
  | none => exact .pure _ hw
  | some bus => exact .next (.ofExcept _ hw) fun x s t hst => ⟨rfl, { hw with bus := rfl }⟩

lemma emit (hw : Twin R P k I w v) (what : Happening) : Agree (Twin R P k I) (emit what) (emit what) w v :=
  (hw.enter what).next fun e _ _ hw => (hw.publish e).next fun _ _ _ hw => .pure e hw

lemma emitted (hw : Twin R P k I w v) (what : Happening) : Twin R P k I (w.emitted what) (v.emitted what) := by
  obtain ⟨r, hr, -⟩ := emit_plain w what
  obtain ⟨r', hr', -⟩ := emit_plain v what
  have htold := (hw.emit what).2
  rwa [hr, hr'] at htold

lemma entered (hw : Twin R P k I w v) (new : Phase) (reason : String)
    (hI : ∀ p, I p → J { p with phase := new }) :
    Twin R P k J (w.entered new reason) (v.entered new reason) := by
  have hphase : w.engine.phase = v.engine.phase := by rw [hw.engine]; rfl
  have hin : Twin R P k J (w.altered (·.inPhase new)) (v.altered (·.inPhase new)) :=
    hw.altered rfl (hI _ hw.vitals)
  unfold World.entered
  rw [hphase]
  exact (hin.noted ..).emitted _

section Scheduler

variable (hs : h.scheduler.Indifferent R)

include hs

lemma disarmed (hw : Twin R P k (·.Sound T) w v) :
    Twin R P k (·.Quiet T) (w.disarmed h.scheduler) (v.disarmed h.scheduler) := by
  refine { hw with engine := ?_, clock := ?_, vitals := ⟨?_, rfl, hw.vitals.started_iff⟩ }
  · rw [disarmed_engine, disarmed_engine, hw.engine]
    simp [Engine.disarmed, Engine.ahead, Nat.add_right_comm]
  · rw [disarmed_clock, disarmed_clock, hw.engine]
    change R (h.scheduler.recall w.clock v.engine.pending) (h.scheduler.recall v.clock v.engine.pending)
    cases v.engine.pending with
    | none => exact hw.clock
    | some n => exact hs.cancel n hw.clock
  · exact Nat.lt_succ_of_le hw.vitals.late

lemma disarm (hw : Twin R P k (·.Sound T) w v) :
    Agree (Twin R P k (·.Quiet T)) (disarm h.scheduler) (World.disarm h.scheduler) w v :=
  .of_outcome (disarm_outcome h.scheduler w) (disarm_outcome h.scheduler v) (hw.disarmed hs)

omit hs in
lemma sound (hw : Twin R P k (·.Quiet T) w v) : Twin R P k (·.Sound T) w v := hw.mono fun _ => Vitals.Quiet.sound

/-- What is done once nothing is deferred any more. -/
lemma disarm_bind {f : Unit → Act (World D) α} (hw : Twin R P k (·.Sound T) w v)
    (hf : ∀ {w v}, Twin R P k (·.Quiet T) w v → Agree (Twin R P k (·.Quiet T)) (f ()) (f ()) w v) :
    Agree (Twin R P k (·.Sound T)) (World.disarm h.scheduler >>= f) (World.disarm h.scheduler >>= f) w v :=
  (hw.disarm hs).bind (fun _ _ hu => hu.sound) fun _ _ _ hu => (hf hu).mono fun _ _ hu => hu.sound

/-- The scheduler takes a step of both, or of none. -/
lemma deferred (hw : Twin R P k (·.Sound T) w v) (delay : Binary64) :
    (∃ f s t, w.deferred h.scheduler delay = (.error f, s) ∧ v.deferred h.scheduler delay = (.error f, t) ∧
      Twin R P k (·.Quiet T) s t) ∨
    ∃ s t, w.deferred h.scheduler delay = (.ok (), s) ∧ v.deferred h.scheduler delay = (.ok (), t) ∧
      Twin R P k (fun p => T < p.token ∧ p.phase = v.engine.phase ∧ p.started = v.engine.started) s t := by
  have hd := hw.disarmed hs
  have hanswer := hs.answer delay (w.disarmed h.scheduler).ticket (v.disarmed h.scheduler).ticket hd.clock
  have hclock := hs.arm delay (w.disarmed h.scheduler).ticket (v.disarmed h.scheduler).ticket hd.clock
  have hdeeds (t t' : Ticket) (b : Bool) : Deed.tell Deed.outward? (w.deeds.push (.deferred t b)) =
      Deed.tell Deed.outward? (v.deeds.push (.deferred t' b)) := by
    simpa [Deed.outward?] using hw.deeds
  unfold World.deferred
  rcases ha : h.scheduler.arm (w.disarmed h.scheduler).clock delay (w.disarmed h.scheduler).ticket with ⟨r, c⟩
  rcases ha' : h.scheduler.arm (v.disarmed h.scheduler).clock delay (v.disarmed h.scheduler).ticket with
    ⟨r', c'⟩
  rw [ha, ha'] at hanswer hclock
  obtain rfl : r = r' := hanswer
  rcases r with f | a
  · exact .inl ⟨f, _, _, rfl, rfl, { hd with clock := hclock, deeds := hdeeds .. }⟩
  · refine .inr ⟨_, _, rfl, rfl, { hd with engine := ?_, clock := hclock, deeds := hdeeds .., vitals := ?_ }⟩
    · exact congrArg (·.waiting a.handle) hd.engine
    · exact ⟨hd.vitals.late, rfl, rfl⟩

lemma postpones (hw : Twin R P k (·.Sound T) w v) (fire fire' : Ticket → Act (World D) Unit) :
    w.Postpones h fire ∧ v.Postpones h fire' := by
  have hclock := (hw.disarmed hs).clock
  refine ⟨postpones_of_later w h fire fun delay t a c ha => ?_,
    postpones_of_later v h fire' fun delay t a c ha => ?_⟩
  · exact hs.later delay t a hclock (congrArg Prod.fst ha)
  · exact hs.later delay t a hclock ((hs.answer delay t t hclock).trans (congrArg Prod.fst ha))

lemma arm (hw : Twin R P k (·.Sound T) w v) (hrun : v.engine.phase = .running)
    (fire fire' : Ticket → Act (World D) Unit) (delay : Binary64) :
    Agree (Twin R P k (·.Sound T)) (arm h.scheduler fire delay) (World.arm h.scheduler fire' delay) w v := by
  obtain ⟨hl, hr⟩ := hw.postpones hs fire fire'
  unfold Agree
  rw [hl w rfl rfl delay, hr v rfl rfl delay]
  rcases hw.deferred hs delay with ⟨f, s, t, hd, hd', hu⟩ | ⟨s, t, hd, hd', hu⟩ <;> rw [hd, hd']
  · exact ⟨rfl, hu.sound⟩
  · refine ⟨rfl, hu.mono fun p hp => ?_⟩
    have hphase : p.phase = .running := hp.2.1.trans hrun
    refine ⟨hp.1.le, fun _ => hphase, fun ht => absurd ht hp.1.ne', ?_⟩
    rw [hp.2.1, hp.2.2]
    exact hw.vitals.started_iff

omit hs in
/-- A change of phase while no step is deferred. -/
lemma transition (hw : Twin R P k (·.Quiet T) w v) {new : Phase} (hrun : new ≠ .running) (reason : String) :
    Agree (Twin R P k (·.Quiet T)) (transition new reason) (World.transition new reason) w v := by
  unfold World.transition
  refine .get_bind ?_
  simp only [hw.engine, Engine.ahead_phase]
  split_ifs with _ hmay
  · exact .pure _ hw
  · have hstarted : v.engine.started = true := by
      refine hw.vitals.started_iff.2 fun hidle => hrun ?_
      change v.engine.phase = .idle at hidle
      rw [hidle] at hmay
      cases new <;> first | rfl | cases hmay
    have hin : Twin R P k (·.Quiet T) (w.altered (·.inPhase new)) (v.altered (·.inPhase new)) :=
      hw.altered rfl ⟨hw.vitals.late, hw.vitals.pending, iff_of_true hstarted (ne_idle_of_mayFollow hmay)⟩
    exact Agree.next (.of_outcome rfl rfl hin) fun _ _ _ h => (h.note ..).next fun _ _ _ h => (h.emit _).discard
  · exact .throw _ hw

lemma halt (hw : Twin R P k (·.Sound T) w v) :
    Agree (Twin R P k (·.Quiet T)) (halt h.scheduler) (World.halt h.scheduler) w v :=
  (hw.disarm hs).next fun _ _ _ hu => hu.transition (by decide) _

omit hs in
lemma result (hw : Twin R P k I w v) (mark executed : Nat) (strand : Option Nat) (hasNext : Bool) :
    Agree (Twin R P k I) (result mark executed strand hasNext) (World.result mark executed strand hasNext) w v := by
  unfold World.result
  refine .get_bind ?_
  simp only [hw.engine, Engine.ahead_phase, Engine.since_ahead]
  exact .pure _ hw

omit hs in
lemma retire (hw : Twin R P k I w v) (h : Host D) (sid : Nat) :
    Agree (Twin R P k I) (retire h sid) (World.retire h sid) w v := by
  unfold World.retire
  refine .get_bind ?_
  simp only [hw.engine, Engine.ahead_live]
  split_ifs
  · refine (hw.modify (fun _ => by rfl) fun _ => by rfl).next fun _ _ _ hu => ?_
    exact (hu.note ..).next fun _ _ _ hu => (hu.emit _).discard
  · exact .throw _ hw

lemma stumble (hw : Twin R P k (·.Quiet T) w v) :
    Agree (Twin R P k (·.Quiet T)) (stumble h) (World.stumble h) w v := by
  unfold World.stumble
  refine .get_bind ?_
  simp only [hw.engine, Engine.ahead_live, Engine.ahead_phase]
  split_ifs
  · exact hw.sound.halt hs
  · exact hw.transition (by decide) _
  · exact .pure _ hw

lemma recover (hw : Twin R P k (·.Sound T) w v) (sid before : Nat) (cursor : Option D.Instr) (f : Fault) :
    Agree (Twin R P k (·.Sound T)) (recover h sid before cursor f) (World.recover h sid before cursor f) w v := by
  unfold World.recover
  refine (hw.note ..).next fun _ _ _ hu => ?_
  refine hu.disarm_bind hs fun hu => ?_
  refine (hu.modify (fun _ => by rfl) fun _ => by rfl).next fun _ _ _ hu => ?_
  refine (Agree.ofExcept f.message hu).next fun text _ _ hu => ?_
  refine (hu.emit _).discard.next fun _ s t hu => ?_
  refine .get_bind ?_
  have hphase : s.engine.phase = t.engine.phase := by rw [hu.engine]; rfl
  rw [hphase]
  split_ifs
  · refine .get_bind ?_
    have hcursor : s.engine.cursor sid = t.engine.cursor sid := by rw [hu.engine]; rfl
    rw [hcursor]
    split_ifs
    · exact (hu.retire h sid).next fun _ _ _ hu => hu.stumble hs
    · exact hu.stumble hs
  · exact .pure _ hu

lemma windUp (hw : Twin R P k (·.Sound T) w v) (fire fire' : Ticket → Act (World D) Unit) (manual : Bool) :
    Agree (Twin R P k (·.Sound T)) (windUp h fire manual) (World.windUp h fire' manual) w v := by
  unfold World.windUp
  refine .get_bind ?_
  simp only [hw.engine, Engine.ahead_live, Engine.ahead_phase, Engine.ahead_rate]
  split_ifs with _ hrun
  · exact (hw.halt hs).mono fun _ _ hu => hu.sound
  · exact hw.arm hs hrun.1 fire fire' _
  · exact .pure _ hw

lemma conclude (hw : Twin R P k (·.Sound T) w v) (fire fire' : Ticket → Act (World D) Unit) (mark sid : Nat)
    (cursor : Option D.Instr) (hasNext manual : Bool) :
    Agree (Twin R P k (·.Sound T)) (conclude h fire mark sid cursor hasNext manual)
      (World.conclude h fire' mark sid cursor hasNext manual) w v := by
  unfold World.conclude
  refine (hw.modify (fun _ => by rfl) fun _ => by rfl).next fun _ _ _ hu => (hu.note ..).next fun _ _ _ hu => ?_
  refine .get_bind ?_
  simp only [hu.engine, Engine.cursor_ahead, Engine.steps_ahead]
  refine (hu.emit _).discard.next fun _ _ _ hu => .get_bind ?_
  simp only [hu.engine, Engine.ahead_phase]
  have hrest {s t : World D} (hst : Twin R P k (·.Sound T) s t) : Agree (Twin R P k (·.Sound T))
      (World.windUp h fire manual >>= fun _ => World.result mark 1 (some sid) hasNext)
      (World.windUp h fire' manual >>= fun _ => World.result mark 1 (some sid) hasNext) s t :=
    (hst.windUp hs fire fire' manual).next fun _ _ _ hu => hu.result ..
  split_ifs
  · exact (hu.retire h sid).next fun _ _ _ hu => hrest hu
  · exact hrest hu
  · exact hu.result ..

omit hs in
lemma select (hw : Twin R P k I w v) : Agree (Twin R P k I) select select w v := by
  unfold World.select
  refine (hw.modify (fun _ => by rfl) fun _ => by rfl).next fun _ _ _ hu => .get_bind ?_
  have hturn {s t : World D} (hst : Twin R P k I s t) : Agree (Twin R P k I)
      (get >>= fun w : World D => pure (w.engine.live.getD w.engine.index 0))
      (get >>= fun w : World D => pure (w.engine.live.getD w.engine.index 0)) s t := by
    refine .get_bind ?_
    rw [hst.engine]
    exact .pure _ hst
  simp only [hu.engine, Engine.ahead_timeSlice, Engine.ahead_sliceUsed, Engine.ahead_live, Engine.ahead_index]
  split_ifs
  · refine (hu.modify (fun _ => by rfl) fun _ => by rfl).next fun _ _ _ hu => ?_
    refine (hu.modify (fun _ => by rfl) fun _ => by rfl).next fun _ _ _ hu => ?_
    exact (hu.emit _).discard.next fun _ _ _ hu => hturn hu
  · exact (hu.modify (fun _ => by rfl) fun _ => by rfl).next fun _ _ _ hu => hturn hu
  · exact hturn hu

lemma stop (hw : Twin R P k (·.Sound T) w v) (mark sid : Nat) (i : D.Instr) :
    Agree (Twin R P k (·.Sound T)) (stop h mark sid i) (World.stop h mark sid i) w v := by
  unfold World.stop
  refine (hw.modify (fun _ => by rfl) fun _ => by rfl).next fun _ _ _ hu => ?_
  refine hu.disarm_bind hs fun hu => ?_
  refine (hu.transition (by decide) _).next fun _ _ _ hu => (hu.note ..).next fun _ _ _ hu => ?_
  exact (hu.emit _).discard.next fun _ _ _ hu => hu.result ..

omit hs in
lemma requireLive (hw : Twin R P k I w v) (operation : String) :
    Agree (Twin R P k I) (requireLive operation) (World.requireLive operation) w v := by
  have hrefusal : w.engine.refusal operation = v.engine.refusal operation := by rw [hw.engine]; rfl
  unfold Agree
  rw [requireLive_outcome, requireLive_outcome, hrefusal]
  exact ⟨rfl, hw⟩

section Run

variable {run run' : {α : Type} → Script D α → Act (World D) α} {fire fire' : Ticket → Act (World D) Unit}

omit hs in
lemma advance {run run' : Script D Unit → Act (World D) Unit} (hw : Twin R P k (·.Sound T) w v) (slot : Nat)
    (sid : Int) (manual : Bool)
    (hcode : ∀ i scope {w v}, Twin R P k (·.Sound T) w v →
      Agree (Twin R P k (·.Sound T)) (run (h.code i scope)) (run' (h.code i scope)) w v) :
    Agree (Twin R P k (·.Sound T)) (advance h run slot sid manual) (World.advance h run' slot sid manual) w v := by
  unfold World.advance
  refine .get_bind ?_
  simp only [hw.engine, Engine.strand?_ahead, Engine.ahead_phase]
  split
  · exact .throw _ hw
  · split
    · exact .throw _ hw
    · refine Agree.next (.of_outcome rfl rfl (hw.recorded _)) fun _ _ _ hu => ?_
      refine (hcode _ _ hu).next fun _ _ _ hu => ?_
      refine (hu.modify (fun _ => by rfl) fun _ => by rfl).next fun _ _ _ hu => ?_
      refine Agree.next (.of_outcome rfl rfl (hu.recorded _)) fun _ _ _ hu => .get_bind ?_
      rw [hu.memory]
      refine (Agree.ofExcept _ hu).next fun j _ _ hu => ?_
      split
      · exact (hu.modify (fun _ => by rfl) fun _ => by rfl).next fun _ _ _ hu => .pure _ hu
      · split_ifs
        · exact (hu.modify (fun _ => by rfl) fun _ => by rfl).next fun _ _ _ hu => .pure _ hu
        · exact (hu.modify (fun _ => by rfl) fun _ => by rfl).next fun _ _ _ hu => .throw _ hu

omit hs in
lemma consult {run run' : Script D Bool → Act (World D) Bool} (hw : Twin R P k (·.Sound T) w v) (sid : Nat)
    (cursor : Option D.Instr) (manual : Bool)
    (hbreaks : ∀ i {w v}, Twin R P k (·.Sound T) w v →
      Agree (Twin R P k (·.Sound T)) (run (h.breaks i)) (run' (h.breaks i)) w v) :
    Agree (Twin R P k (·.Sound T)) (consult h run sid cursor manual)
      (World.consult h run' sid cursor manual) w v := by
  unfold World.consult stopsAt
  refine .get_bind ?_
  simp only [hw.engine, Engine.ahead_breaking]
  split_ifs
  · split
    · exact .pure _ hw
    · refine .get_bind ?_
      simp only [hw.engine, Engine.ahead_skip]
      split_ifs
      · exact .pure _ hw
      · exact hbreaks _ hw
  · exact .pure _ hw

section Step

variable
  (hcode : ∀ i scope {w v}, Twin R P k (·.Sound T) w v →
    Agree (Twin R P k (·.Sound T)) (run (h.code i scope)) (run' (h.code i scope)) w v)
  (hbreaks : ∀ i {w v}, Twin R P k (·.Sound T) w v →
    Agree (Twin R P k (·.Sound T)) (run (h.breaks i)) (run' (h.breaks i)) w v)

include hcode in
lemma proceed (hw : Twin R P k (·.Sound T) w v) (mark sid : Nat) (cursor : Option D.Instr) (manual : Bool) :
    Agree (Twin R P k (·.Sound T)) (proceed h run fire mark sid cursor manual)
      (World.proceed h run' fire' mark sid cursor manual) w v := by
  unfold World.proceed
  refine (hw.modify (fun _ => by rfl) fun _ => by rfl).next fun _ _ _ hu => .get_bind ?_
  simp only [hu.engine, Engine.steps_ahead]
  refine (hu.modify (fun _ => by rfl) fun _ => by rfl).next fun _ _ _ hu => ?_
  refine (hu.advance sid sid manual hcode).attempt.next fun o _ _ hu => ?_
  rcases o with f | hasNext
  · have hrest (cleaned : Except Fault Unit) {s t : World D} (hst : Twin R P k (·.Sound T) s t) :
        Agree (Twin R P k (·.Sound T))
          (modifyEngine (fun e => { e with stepping := false }) >>= fun _ =>
            Act.ofExcept cleaned >>= fun _ => (throw f : Act (World D) StepResult))
          (modifyEngine (fun e => { e with stepping := false }) >>= fun _ =>
            Act.ofExcept cleaned >>= fun _ => throw f) s t := by
      refine (hst.modify (fun _ => by rfl) fun _ => by rfl).next fun _ _ _ hu => ?_
      exact (Agree.ofExcept cleaned hu).next fun _ _ _ hu => .throw f hu
    dsimp only
    split_ifs
    · exact (hu.recover hs ..).attempt.next fun cleaned _ _ hu => hrest cleaned hu
    · exact (Agree.pure _ hu).next fun cleaned _ _ hu => hrest cleaned hu
  · exact (hu.modify (fun _ => by rfl) fun _ => by rfl).next fun _ _ _ hu => hu.conclude hs ..

include hcode hbreaks in
lemma executeStep (hw : Twin R P k (·.Sound T) w v) (manual : Bool) :
    Agree (Twin R P k (·.Sound T)) (executeStep h run fire manual) (World.executeStep h run' fire' manual) w v := by
  unfold World.executeStep
  refine .get_bind (.get_bind ?_)
  simp only [hw.engine, Engine.ahead_live, Engine.ahead_nextSeq]
  split_ifs
  · exact ((hw.halt hs).mono fun _ _ hu => hu.sound).next fun _ _ _ hu => hu.result ..
  · refine hw.select.next fun sid _ _ hu => .get_bind ?_
    simp only [hu.engine, Engine.cursor_ahead]
    refine (hu.consult sid _ manual hbreaks).next fun stops _ _ hu => ?_
    split
    · exact hu.stop hs ..
    · exact hu.proceed hs hcode ..

include hcode hbreaks in
/-- A ticket comes due in both, unless the token has not moved on and neither matters. -/
lemma honour (hw : Twin R P k (·.Sound T) w v) {t t' : Ticket}
    (ht : T < v.engine.token → (t = w.ticket ↔ t' = v.ticket)) :
    Agree (Twin R P k (·.Sound T)) (honour h run fire t) (World.honour h run' fire' t') w v := by
  have hlapsed : Twin R P k (·.Sound T) (w.altered (·.unarmed)) (v.altered (·.unarmed)) := by
    refine hw.altered rfl ⟨hw.vitals.late, nofun, fun ht => ?_, hw.vitals.started_iff⟩
    exact ⟨(hw.vitals.still ht).1, rfl⟩
  have hphase : w.engine.phase = v.engine.phase := by rw [hw.engine]; rfl
  unfold Agree
  rw [honour_outcome, honour_outcome, hphase]
  rcases hw.vitals.late.lt_or_eq with hlt | heq
  · simp only [ht hlt]
    split_ifs
    · exact (hlapsed.executeStep hs hcode hbreaks false).discard
    · exact ⟨rfl, hlapsed⟩
    · exact ⟨rfl, hw.noted ..⟩
  · obtain ⟨hrun, hpending⟩ := hw.vitals.still heq.symm
    have hpending' : w.engine.pending = none := by rw [hw.engine]; exact hpending
    have hrun' : v.engine.phase ≠ .running := hrun
    simp only [hrun', if_false, altered_unarmed hpending, altered_unarmed hpending']
    split_ifs <;> exact ⟨rfl, { hw with }⟩

include hcode hbreaks in
lemma step (hw : Twin R P k (·.Sound T) w v) :
    Agree (Twin R P k (·.Sound T)) (step h run fire) (World.step h run' fire') w v := by
  unfold World.step
  refine (hw.requireLive _).next fun _ _ _ hu => .get_bind ?_
  simp only [hu.engine, Engine.ahead_phase, Engine.ahead_nextSeq]
  split_ifs
  · exact .throw_bind hu
  · exact .throw_bind hu
  · exact hu.result ..
  · exact hu.executeStep hs hcode hbreaks true

end Step
end Run

section Operations

variable {fire fire' : Ticket → Act (World D) Unit}

omit hs in
lemma sought (hw : Twin R P k I w v) (h : Host D) (entry : Option D.Instr) :
    Twin R P k I (w.sought h entry) (v.sought h entry) := by
  unfold World.sought
  rw [hw.memory]
  rcases entry with _ | i
  · rcases h.source with _ | source
    · exact hw
    · dsimp only
      split
      · exact hw.noted ..
      · exact hw
  · exact hw

lemma resume (hw : Twin R P k (·.Sound T) w v) :
    Agree (Twin R P k (·.Sound T)) (resume h fire) (World.resume h fire') w v := by
  have hrefusal : w.engine.refusal "resume" = v.engine.refusal "resume" := by rw [hw.engine]; rfl
  have hphase : w.engine.phase = v.engine.phase := by rw [hw.engine]; rfl
  obtain ⟨hl, hr⟩ := hw.postpones hs fire fire'
  unfold Agree
  rw [resume_outcome h w fire hl, resume_outcome h v fire' hr, hrefusal, hphase]
  rcases hlive : v.engine.refusal "resume" with _ | f
  · obtain ⟨hstarted, hlasts⟩ := started_of_refusal hlive
    dsimp only
    split_ifs with hhalt
    · exact ⟨rfl, hw.noted ..⟩
    · rcases hw.deferred hs .zero with ⟨f, s, t, hd, hd', hu⟩ | ⟨s, t, hd, hd', hu⟩ <;> rw [hd, hd']
      · exact ⟨rfl, hu.sound⟩
      · have hsame : s.engine.phase = t.engine.phase := by rw [hu.engine]; rfl
        have hstays : t.engine.phase = v.engine.phase := hu.vitals.2.1
        have hgoes : t.engine.started = true := hu.vitals.2.2.trans hstarted
        dsimp only
        rw [hsame]
        split_ifs with hpaused
        · refine ⟨rfl, hu.entered .running "resume" fun p hp => ?_⟩
          exact ⟨hp.1.le, fun _ => rfl, fun ht => absurd ht hp.1.ne', by simp [hp.2.2, hstarted]⟩
        · have hrunning : t.engine.phase = .running := by
            have hidle : v.engine.phase ≠ .idle := hw.vitals.started_iff.1 hstarted
            rw [hstays] at hpaused ⊢
            cases hp : v.engine.phase <;> simp_all
          refine ⟨rfl, { hu with vitals := ⟨hu.vitals.1.le, fun _ => hrunning, ?_, ?_⟩ }⟩
          · exact fun ht => absurd ht hu.vitals.1.ne'
          · exact iff_of_true hgoes (by simp [hrunning])
  · exact ⟨rfl, hw⟩

lemma pause (hw : Twin R P k (·.Sound T) w v) :
    Agree (Twin R P k (·.Sound T)) (pause h) (World.pause h) w v := by
  unfold World.pause
  refine (hw.requireLive _).next fun _ _ _ hu => ?_
  refine hu.disarm_bind hs fun hu => .get_bind ?_
  simp only [hu.engine, Engine.ahead_phase]
  split_ifs
  · exact hu.transition (by decide) _
  · exact .pure _ hu

omit hs in
lemma setRate (hw : Twin R P k I w v) (given : Option Value) :
    Agree (Twin R P k I) (setRate given) (World.setRate given) w v := by
  have hphase : w.engine.phase = v.engine.phase := by rw [hw.engine]; rfl
  unfold Agree
  rw [setRate_outcome, setRate_outcome, hphase]
  split_ifs
  · exact ⟨rfl, hw⟩
  · rcases (given.map Rate.check).getD (.ok .zero) with f | rate
    · exact ⟨rfl, hw⟩
    · exact ⟨rfl, Twin.noted (hw.altered rfl hw.vitals) ..⟩

lemma terminate (hw : Twin R P k (·.Sound T) w v) :
    Agree (Twin R P k (·.Sound T)) (terminate h) (World.terminate h) w v := by
  unfold World.terminate
  refine .get_bind ?_
  simp only [hw.engine, Engine.ahead_started, Engine.ahead_phase, Engine.ahead_live]
  split_ifs
  · exact .throw_bind hw
  · exact .throw_bind hw
  · exact .throw_bind hw
  · refine hw.disarm_bind hs fun hu => ?_
    refine (hu.modify (fun _ => by rfl) fun _ => by rfl).next fun _ _ _ hu => ?_
    refine (hu.transition (by decide) _).next fun _ _ _ hu => .get_bind ?_
    exact hu.note ..

section Install

variable (hinstall : ∀ {m} n contents, P m → P (h.install m n contents))

include hinstall

omit hs in
lemma peopled (hw : Twin R P k I w v) (cursor : Option D.Instr) (scope : ScopeChoice D) :
    Twin R P k I (w.peopled h cursor scope) (v.peopled h cursor scope) := by
  have hstrand : w.newStrand cursor scope = v.newStrand cursor scope := by
    unfold newStrand
    rw [hw.engine]
    rfl
  have hmemory : w.newMemory h scope = v.newMemory h scope := by
    unfold newMemory
    rw [hw.engine, hw.memory]
    rfl
  refine { hw with engine := ?_, memory := hmemory, room := ?_ }
  · rw [peopled_engine, peopled_engine, hstrand, hw.engine]
    rfl
  · rw [peopled_memory]
    cases scope with
    | fresh => exact hinstall _ _ hw.room
    | given contents => exact hinstall _ _ hw.room
    | shared other => exact hw.room

omit hs in
lemma addStrand (hw : Twin R P k I w v) (cursor : Option D.Instr) (scope : ScopeChoice D) :
    Agree (Twin R P k I) (addStrand h cursor scope) (World.addStrand h cursor scope) w v := by
  have hsize : w.engine.strands.size = v.engine.strands.size := by rw [hw.engine]; rfl
  unfold Agree
  rw [addStrand_outcome, addStrand_outcome, hsize]
  exact ⟨rfl, hw.peopled hinstall cursor scope⟩

omit hs in
/-- A run is set going once its first step is deferred. -/
lemma begun (hw : Twin R P k (fun p => T < p.token) w v) (cursor : Option D.Instr)
    (contents : D.Scope) :
    Twin R P k (·.Sound T) (w.begun h cursor contents) (v.begun h cursor contents) := by
  have hsize : w.engine.strands.size = v.engine.strands.size := by rw [hw.engine]; rfl
  have hset : Twin R P k (fun p => T < p.token ∧ p.started = true)
      ((w.peopled h cursor (.given contents)).altered (·.launched (cursor.map fun _ => w.engine.strands.size)))
      ((v.peopled h cursor (.given contents)).altered
        (·.launched (cursor.map fun _ => v.engine.strands.size))) := by
    rw [hsize]
    exact (hw.peopled hinstall cursor (.given contents)).altered rfl ⟨hw.vitals, rfl⟩
  have hrunning := hset.entered (J := (·.Sound T)) .running "start" fun p hp =>
    ⟨hp.1.le, fun _ => rfl, fun ht => absurd ht hp.1.ne', by simp [hp.2]⟩
  unfold World.begun
  rw [hsize] at hrunning ⊢
  cases cursor with
  | none => exact hrunning
  | some i => exact hrunning.emitted _

lemma start (hw : Twin R P k (·.Sound T) w v) (entry : Option D.Instr) :
    Agree (Twin R P k (·.Sound T)) (start h fire entry) (World.start h fire' entry) w v := by
  have hstarted : w.engine.started = v.engine.started := by rw [hw.engine]; rfl
  have hphase : w.engine.phase = v.engine.phase := by rw [hw.engine]; rfl
  rcases hyet : v.engine.started with _ | _
  · have hidle : v.engine.phase = .idle := idle_of_unstarted hw.vitals.started_iff hyet
    obtain ⟨hl, hr⟩ := hw.postpones hs fire fire'
    have hsought := hw.sought h entry
    have hidle' : (v.sought h entry).engine.started = false := by rw [sought_engine]; exact hyet
    unfold Agree
    rw [start_outcome h w fire entry (hphase.trans hidle) hl, start_outcome h v fire' entry hidle hr, hstarted]
    simp only [hyet]
    have hroot : w.root h entry = v.root h entry := by
      unfold root
      rw [hw.memory]
    rw [hroot]
    rcases v.root h entry with f | ⟨cursor, contents⟩
    · exact ⟨rfl, hsought⟩
    · dsimp only
      rcases hsought.deferred hs .zero with ⟨f, s, t, hd, hd', hu⟩ | ⟨s, t, hd, hd', hu⟩ <;> rw [hd, hd']
      · exact ⟨rfl, hu.sound⟩
      · exact ⟨rfl, (hu.mono fun _ hp => hp.1).begun hinstall cursor contents⟩
  · exact .of_outcome (start_again h fire entry (hstarted.trans hyet)) (start_again h fire' entry hyet) hw

lemma spawn (hw : Twin R P k (·.Sound T) w v) (entry : Option D.Instr) (scope : ScopeChoice D) :
    Agree (Twin R P k (·.Sound T)) (spawn h fire entry scope) (World.spawn h fire' entry scope) w v := by
  unfold World.spawn
  refine (hw.requireLive _).next fun _ _ _ hu => .get_bind ?_
  simp only [hu.engine, Engine.ahead_phase]
  split_ifs
  · exact .throw _ hu
  · refine (Agree.ofExcept _ hu).next fun i _ _ hu => (hu.addStrand hinstall _ _).next fun sid _ _ hu => ?_
    refine (hu.modify (fun _ => by rfl) fun _ => by rfl).next fun _ _ _ hu => ?_
    refine (hu.emit _).discard.next fun _ _ _ hu => .get_bind ?_
    simp only [hu.engine, Engine.ahead_phase, Engine.ahead_pending, Engine.ahead_stepping]
    split_ifs with hrun
    · exact (hu.arm hs hrun.1 fire fire' _).next fun _ _ _ hu => .pure sid hu
    · exact .pure sid hu

end Install
end Operations

section Requests

variable {serve serve' : Request D → Act (World D) Reply}

omit hs in
/-- A script that asks for operations looks at nothing but the memory and the answers. -/
lemma runScript (hserve : ∀ {r w v}, r.IsOperation → Twin R P k (·.Sound T) w v →
      Agree (Twin R P k (·.Sound T)) (serve r) (serve' r) w v)
    {s : Script D α} {q : Fault → Prop} (hasks : s.Heeds P Request.IsOperation q)
    (hw : Twin R P k (·.Sound T) w v) :
    Agree (Twin R P k (·.Sound T)) (runScript serve s) (World.runScript serve' s) w v := by
  induction hasks generalizing w v with
  | done a => exact .pure a hw
  | fail => exact .throw _ hw
  | look _ ih =>
    unfold World.runScript
    refine .get_bind ?_
    rw [hw.memory]
    exact ih _ hw.room hw
  | store hm _ ih =>
    unfold World.runScript
    exact Agree.next (.of_outcome rfl rfl (hw.withMemory hm)) fun _ _ _ hu => ih hu
  | ask hr _ ih => exact (hserve hr hw).attempt.next fun o _ _ hu => ih o hu

end Requests

section Serve

variable (hh : h.Asks P Request.IsOperation)

include hh

/-- One request to both is met alike. -/
theorem serve (rounds depth : Nat) {r : Request D} (hr : r.IsOperation) (hw : Twin R P k (·.Sound T) w v) :
    Agree (Twin R P k (·.Sound T)) (serve h rounds depth r) (World.serve h rounds depth r) w v := by
  induction depth generalizing r w v with
  | zero => exact .throw _ hw
  | succ depth ih =>
    have hrun {α : Type} {s : Script D α} {q : Fault → Prop}
        (hasks : s.Heeds P Request.IsOperation q) {w v} (hw : Twin R P k (·.Sound T) w v) :
        Agree (Twin R P k (·.Sound T)) (World.runScript (World.serve h rounds depth) s)
          (World.runScript (World.serve h rounds depth) s) w v := hw.runScript ih hasks
    cases r with
    | start entry => exact (hw.start hs hh.install entry).next fun _ _ _ hu => .pure _ hu
    | pause => exact (hw.pause hs).next fun _ _ _ hu => .pure _ hu
    | resume => exact (hw.resume hs).next fun _ _ _ hu => .pure _ hu
    | rate given => exact (hw.setRate given).next fun _ _ _ hu => .pure _ hu
    | terminate farewell =>
      refine (hw.terminate hs).next fun _ _ _ hu => ?_
      cases farewell with
      | none => exact .pure _ hu
      | some f => exact (hrun (hh.farewell f) hu).next fun _ _ _ hu => .pure _ hu
    | breakpoints on => exact (hw.modify (fun _ => by rfl) fun _ => by rfl).next fun _ _ _ hu => .pure _ hu
    | spawn entry scope =>
      refine (hw.spawn hs hh.install entry scope).next fun sid _ _ hu => .get_bind ?_
      rw [hu.engine]
      exact .pure _ hu
    | step =>
      have hcode (i scope) {w v} (hw : Twin R P k (·.Sound T) w v) := hrun (hh.code i scope) hw
      have hbreaks (i) {w v} (hw : Twin R P k (·.Sound T) w v) := hrun (hh.breaks i) hw
      exact (hw.step hs hcode hbreaks).next fun _ _ _ hu => .pure _ hu
    | info =>
      refine .get_bind ?_
      rw [hw.engine]
      exact .pure _ hw
    | current =>
      refine .get_bind ?_
      rw [hw.engine]
      exact .pure _ hw
    | events limit =>
      refine .get_bind ?_
      rw [hw.engine]
      exact .pure _ hw
    | emit type strand data =>
      exact (Agree.ofExcept _ hw).next fun what _ _ hu => (hu.emit what).next fun _ _ _ hu => .pure _ hu
    | _ => exact hr.elim

/-- A ticket comes due in the one, and the ticket that answers to it in the other. -/
theorem fire (rounds depth : Nat) (hw : Twin R P k (·.Sound T) w v) (t : Ticket) :
    Agree (Twin R P k (·.Sound T)) (World.serve h rounds (depth + 1) (.fire t))
      (World.serve h rounds (depth + 1) (.fire (t.recount T k))) w v := by
  have hserve {r : Request D} {w v} (hr : r.IsOperation) (hw : Twin R P k (·.Sound T) w v) :
      Agree (Twin R P k (·.Sound T)) (World.serve h rounds depth r) (World.serve h rounds depth r) w v :=
    hw.serve hs hh rounds depth hr
  have hcode (i scope) {w v} (hw : Twin R P k (·.Sound T) w v) := hw.runScript hserve (hh.code i scope)
  have hbreaks (i) {w v} (hw : Twin R P k (·.Sound T) w v) := hw.runScript hserve (hh.breaks i)
  exact (hw.honour hs hcode hbreaks fun hT => hw.ticket_iff hT t).next fun _ _ _ hu => .pure Reply.nothing hu

/-- A move of one run and the move of the other that answers to it leave them alike. -/
lemma after (rounds depth : Nat) {m m' : Move D} (hm : m.Echoes R T k m') (hw : Twin R P k (·.Sound T) w v) :
    Twin R P k (·.Sound T) (w.after h rounds depth m) (v.after h rounds depth m') := by
  cases hm with
  | operate hr => exact (hw.serve hs hh rounds (depth + 1) hr).2
  | fire t => exact (hw.fire hs hh rounds depth t).2
  | drift hc => exact { hw with clock := hc }

/-- Runs that are alike go on alike. -/
theorem replay (rounds depth : Nat) {moves moves' : List (Move D)}
    (hm : List.Forall₂ (Move.Echoes R T k) moves moves') (hw : Twin R P k (·.Sound T) w v) :
    Twin R P k (·.Sound T) (w.replay h rounds depth moves) (v.replay h rounds depth moves') := by
  induction hm generalizing w v with
  | nil => exact hw
  | cons hm _ ih => exact ih (hw.after hs hh rounds depth hm)

end Serve

end Scheduler
end Twin
end World
end Loom
