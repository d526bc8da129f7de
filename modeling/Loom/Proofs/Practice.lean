import Loom.Proofs.Lifetime
import Loom.Proofs.Mailbox
import Loom.Proofs.Record

/-! The practice of an engine, change by change. Everything that an engine does to its world is made of a few
changes: a note, an event, a step put to the scheduler, an instruction executed, and small shifts of the
engine itself, each under a condition that is checked before. A property of worlds that each of them keeps
holds after every request, however deep requests nest; and along the way it is seen which faults can come up. -/
namespace Loom

/-- The fault of an impossible change of phase, or one that gives it as the cause why it cannot be worded. -/
def Fault.IsIllegal : Fault → Prop
  | illegalTransition .. => True
  | untold _ cause => cause.IsIllegal
  | _ => False

lemma Fault.not_illegal {f : Fault} (hf : f.isInternal = false) : ¬ f.IsIllegal := by
  induction f with
  | illegalTransition => cases hf
  | untold kind cause ih => exact ih hf
  | _ => exact id

lemma Fault.IsPlain.not_illegal {f : Fault} (hf : f.IsPlain) : ¬ f.IsIllegal := Fault.not_illegal hf.sound

/-- Any fault will do, unless it is `strict` that the phase is never asked for the impossible. -/
def Fault.Passes (strict : Prop) (f : Fault) : Prop := strict → ¬ f.IsIllegal

lemma Fault.passes_any (f : Fault) : f.Passes False := False.elim

/-- What keeps a fault from being worded will do if the fault does. -/
lemma Fault.Passes.cause {strict : Prop} {f g : Fault} (hf : f.Passes strict) (hg : f.message = .error g) :
    g.Passes strict := by
  rcases Fault.of_message_error hg with rfl | ⟨kind, rfl⟩
  · exact fun _ => id
  · exact hf

lemma FailsPlainly.passes {strict : Prop} {r : Except Fault α} (hr : FailsPlainly r) :
    ∀ f, r = .error f → f.Passes strict := fun f hf _ => (hr f hf).not_illegal

namespace Act

variable {σ : Type} {I : σ → Prop} {G : Fault → Prop}

/-- A property of the state is kept, and a fault, if there is one, is among those of `G`. -/
structure Kept (I : σ → Prop) (G : Fault → Prop) (o : Except Fault α) (s : σ) : Prop where
  state : I s
  fault : ∀ f, o = .error f → G f

lemma Kept.ok {s : σ} (x : α) (hs : I s) : Kept I G (.ok x : Except Fault α) s := ⟨hs, nofun⟩

lemma Kept.error {s : σ} {f : Fault} (hs : I s) (hf : G f) : Kept I G (.error f : Except Fault α) s where
  state := hs
  fault := by
    rintro _ ⟨⟩
    exact hf

/-- A computation that keeps a property of the state and fails, if it does, with faults of `G`. -/
def Abides (I : σ → Prop) (G : Fault → Prop) (a : Act σ α) : Prop := ∀ s, I s → a.Ensures s (Kept I G)

/-- What comes after a computation takes over the state and passes on the fault. -/
lemma Ensures.kept_bind {a : Act σ α} {f : α → Act σ β} {s : σ} (ha : a.Ensures s (Kept I G))
    (hf : ∀ x t, I t → (f x).Ensures t (Kept I G)) : (a >>= f).Ensures s (Kept I G) :=
  ha.bind (fun x t ht => hf x t ht.state) fun e _ ht => .error ht.state (ht.fault e rfl)

lemma Ensures.kept_discard {a : Act σ α} {s : σ} (ha : a.Ensures s (Kept I G)) :
    (discard a).Ensures s (Kept I G) := by
  unfold Ensures at ha ⊢
  rw [outcome_discard]
  rcases hout : a.outcome s with ⟨f | x, t⟩ <;> rw [hout] at ha
  · exact .error ha.state (ha.fault f rfl)
  · exact .ok _ ha.state

namespace Abides

variable {a : Act σ α} {f : α → Act σ β}

lemma bind (ha : Abides I G a) (hf : ∀ x, Abides I G (f x)) : Abides I G (a >>= f) := fun s hs =>
  (ha s hs).kept_bind fun x t ht => hf x t ht

lemma get_bind {f : σ → Act σ β} (hf : ∀ s, I s → (f s).Ensures s (Kept I G)) :
    Abides I G (get >>= f) := fun s hs => hf s hs

lemma pure (x : α) : Abides I G (Pure.pure x : Act σ α) := fun _ hs => .ok x hs

lemma throw {e : Fault} (he : G e) : Abides I G (MonadExcept.throw e : Act σ α) := fun _ hs => .error hs he

lemma ofExcept {r : Except Fault α} (hr : ∀ e, r = .error e → G e) :
    Abides I G (Act.ofExcept r : Act σ α) := fun _ hs => ⟨hs, hr⟩

lemma modify {g : σ → σ} (hg : ∀ s, I s → I (g s)) : Abides I G (modify g : Act σ Unit) := fun s hs =>
  .ok () (hg s hs)

lemma discard (ha : Abides I G a) : Abides I G (discard a) := fun s hs => (ha s hs).kept_discard

lemma reply (ha : Abides I G a) {k : α → β} : Abides I G (a >>= fun x => Pure.pure (k x)) :=
  bind ha fun _ => pure _

lemma repeatWhile {round : Act σ Bool} (hround : Abides I G round) (limit : Option Int)
    (rounds count : Nat) : Abides I G (repeatWhile round limit rounds count) := by
  induction rounds generalizing count with
  | zero => exact pure _
  | succ rounds ih =>
    unfold Act.repeatWhile
    split_ifs
    · exact pure _
    · refine bind hround fun again => ?_
      cases again
      · exact pure _
      · exact ih (count + 1)

end Abides

end Act

/-- What an engine announces besides its changes of phase and its stops. -/
def Happening.IsRemark : Happening → Prop
  | spawned .. | retired .. | rotated .. | stepped .. | failed .. => True
  | _ => False

lemma Happening.IsRemark.isOwn {what : Happening} (h : what.IsRemark) : what.IsOwn := by
  cases what <;> simp_all [IsRemark, IsOwn]

/-- The requests that may bring about a step. -/
def Request.Steps : Request D → Prop
  | step | fire _ | fireIssued _ | runNext | runAll _ => True
  | _ => False

/-- Firing a step by its ticket, out of the scheduler's turn. -/
def Request.Fires : Request D → Prop
  | fire _ | fireIssued _ => True
  | _ => False

lemma Request.Fires.steps {r : Request D} (hr : r.Fires) : r.Steps := by
  cases r <;> trivial

/-- The small changes of an engine in the course of a step. -/
inductive Engine.Winding : Engine D → Engine D → Prop
  | without {e} (sid : Nat) : Winding e (e.without sid)
  | turned {e} : Winding e e.turned
  | counted {e} : Winding e e.counted
  | recounted {e} (sid before : Nat) : Winding e (e.recounted sid before)
  | inStep {e} (stepping : Bool) : Winding e (e.inStep stepping)
  | passed {e} : Winding e (e.passing none)

/-- The small changes of an engine that have no part in its phase or in deferring steps. Some come of
requests with `p` only, and some only while `steps` are taken. -/
inductive Engine.Shift (p : Request D → Prop) (steps : Prop) : Engine D → Engine D → Prop
  | winding {e e'} (hsteps : steps) (h : e.Winding e') : Shift p steps e e'
  | stopping {e} (sid : Nat) (i : D.Instr) (hsteps : steps) : Shift p steps e (e.passing (some (sid, i)))
  | joined {e} (sid : Nat) : Shift p steps e (e.joined sid)
  | rate {e} {given : Option Value} (rate : Binary64) (hp : p (.rate given)) : Shift p steps e (e.atRate rate)
  | breaking {e} {on : Bool} (hp : p (.breakpoints on)) : Shift p steps e { e with breaking := on }
  | sliced {e} {n : Int} (hp : p (.timeSlice n)) : Shift p steps e { e with timeSlice := n }
  | forgotten {e} {position : Int} (live : List Nat) (hp : p (.forget position)) :
      Shift p steps e { e with live }
  | blanked {e} {sid : Nat} (hp : p (.blank sid)) : Shift p steps e (e.movedTo sid none)

/-- What asks for less asks for no more. -/
lemma Host.Asks.weaken {D : Dialect} {h : Host D} {P : D.Memory → Prop} {p q : Request D → Prop}
    (hh : h.Asks P p) (hpq : ∀ r, p r → q r) : h.Asks P q where
  code i scope := (hh.code i scope).weaken hpq fun _ => id
  breaks i := (hh.breaks i).weaken hpq fun _ => id
  farewell f := (hh.farewell f).weaken hpq fun _ => id
  install := hh.install

/-- Changes of an engine that leave its strands, its settings and its record alone. -/
structure Engine.Aside (e e' : Engine D) : Prop where
  strands : e'.strands = e.strands
  rate : e'.rate = e.rate
  breaking : e'.breaking = e.breaking
  totalSteps : e'.totalSteps = e.totalSteps
  historySize : e'.historySize = e.historySize
  history : e'.history = e.history
  nextSeq : e'.nextSeq = e.nextSeq

namespace World

variable {D : Dialect}

open Act (Abides Kept)

/-- What every request of a script keeps, the script keeps; and it fails with the faults of its requests or
with its own. -/
lemma runScript_abides {serve : Request D → Act (World D) Reply} {P : D.Memory → Prop}
    {p : Request D → Prop} {I : World D → Prop} {G : Fault → Prop} (hmemory : ∀ {w}, I w → P w.memory)
    (hstored : ∀ {w m}, I w → P m → I (w.withMemory m)) (hserve : ∀ r, p r → Abides I G (serve r))
    {s : Script D α} (hs : s.Heeds P p G) : Abides I G (runScript serve s) := by
  intro w hw
  have hrun := runScript_ensures serve (I := I) (F := fun f _ => G f) (fun _ hv => hmemory hv)
    (fun _ _ hm hv => ⟨hstored hv hm, fun _ => id⟩)
    (fun r v hr hv => (hserve r hr v hv).mono fun _ _ hu => ⟨hu.state, hu.fault, fun _ => id⟩) hs hw fun _ => id
  exact hrun.mono fun _ _ hv => ⟨hv.1, hv.2⟩

/-- Nothing that is told is taken back. -/
lemma Continues.mem_tell {w v : World D} (hv : w.Continues v) {f : Deed D → Option β} {x : β}
    (hx : x ∈ Deed.tell f w.deeds) : x ∈ Deed.tell f v.deeds := (hv.filterMap f).subset hx

/-- Executing an instruction comes down to its begin, its code and its return. While the code runs another
property may hold. -/
lemma advance_ensures {h : Host D} {I : World D → Prop} {J : D.Instr → World D → Prop} {G : Fault → Prop}
    {rounds depth slot : Nat} {sid : Int} {manual : Bool} {w : World D} (hw : I w)
    (hbegan : ∀ {i}, w.engine.cursor slot = some i → J i (w.recorded (.began slot i w.engine.phase manual)))
    (hcode : ∀ i scope, Abides (J i) G (runScript (serve h rounds depth) (h.code i scope)))
    (hfailed : ∀ {v i}, (slot, i) ∈ v.attempts → J i v → I v)
    (hfollowed : ∀ {v i}, (slot, i) ∈ v.attempts → J i v →
      Kept I G ((v.completed slot i).followed h slot i).1 ((v.completed slot i).followed h slot i).2)
    (hhalted : G (.strandHalted sid)) :
    (advance h (runScript (serve h rounds depth)) slot sid manual).Ensures w (Kept I G) := by
  unfold Act.Ensures
  rw [advance_outcome]
  rcases hstrand : w.engine.strand? slot with _ | strand
  · exact .error hw hhalted
  · dsimp only
    rcases hcursor : strand.cursor with _ | i
    · exact .error hw hhalted
    · have hat : w.engine.cursor slot = some i := by rw [Engine.cursor, hstrand, Option.bind_some, hcursor]
      have hrun := hcode i strand.scope _ (hbegan hat)
      have hadds := runScript_adds (serve_adds h rounds depth) (h.code i strand.scope)
        (w.recorded (.began slot i w.engine.phase manual))
      unfold Act.Ensures at hrun
      dsimp only
      rcases hout : (runScript (serve h rounds depth) (h.code i strand.scope)).outcome
        (w.recorded (.began slot i w.engine.phase manual)) with ⟨f | _, v⟩ <;> rw [hout] at hrun hadds
      · have hbegun : (slot, i) ∈ v.attempts := hadds.mem_tell (by simp [Deed.attempt?])
        exact .error (hfailed hbegun hrun.state) (hrun.fault f rfl)
      · have hbegun : (slot, i) ∈ v.attempts := hadds.mem_tell (by simp [Deed.attempt?])
        exact hfollowed hbegun hrun.state

lemma advance_abides {h : Host D} {I : World D → Prop} {J : Nat → D.Instr → World D → Prop} {rounds depth : Nat}
    (hbegan : ∀ {w slot i} manual, w.engine.cursor slot = some i → I w →
      J slot i (w.recorded (.began slot i w.engine.phase manual)))
    (hcode : ∀ slot i scope,
      Abides (J slot i) (Fault.Passes False) (runScript (serve h rounds depth) (h.code i scope)))
    (hfailed : ∀ {w slot i}, J slot i w → I w)
    (hfollowed : ∀ {w slot i}, (slot, i) ∈ w.attempts → J slot i w →
      I ((w.completed slot i).followed h slot i).2)
    (slot : Nat) (sid : Int) (manual : Bool) :
    Abides I (Fault.Passes False) (advance h (runScript (serve h rounds depth)) slot sid manual) :=
  fun _ hw => advance_ensures (J := J slot) hw (fun hcursor => hbegan manual hcursor hw) (hcode slot)
    (fun _ => hfailed) (fun hbegun hv => ⟨hfollowed hbegun hv, fun f _ => f.passes_any⟩) (Fault.passes_any _)

/-- A strand that is not in play cannot be taken out. -/
lemma retire_cases (h : Host D) (w : World D) (sid : Nat) :
    (retire h sid).outcome w = (.ok (), w.retired sid) ∨
      ∃ shown, (retire h sid).outcome w = (.error (.strandNotListed shown), w) := by
  by_cases hlive : sid ∈ w.engine.live
  · exact .inl (retire_outcome h w hlive)
  · refine .inr ⟨((w.engine.strand? sid).map (describeStrand h sid)).getD "", ?_⟩
    unfold retire
    simp [hlive]

lemma phase_of_transition {w v : World D} {new : Phase} {reason : String}
    (hout : (transition new reason).outcome w = (.ok (), v)) : v.engine.phase = new := by
  rcases transition_cases w new reason with ⟨-, h⟩ | ⟨hsame, h⟩ | ⟨-, -, h⟩ <;> cases h.symm.trans hout
  · rfl
  · exact hsame.symm

lemma phase_of_terminate {h : Host D} {w v : World D} (hout : (terminate h).outcome w = (.ok (), v)) :
    v.engine.phase = .terminated := by
  unfold terminate at hout
  rw [Act.outcome_bind, Act.outcome_get] at hout
  dsimp only at hout
  split_ifs at hout
  · cases hout
  · cases hout
  · cases hout
  · rw [Act.outcome_bind, disarm_outcome] at hout
    dsimp only at hout
    rw [Act.outcome_bind, modifyEngine_outcome] at hout
    dsimp only at hout
    rw [Act.outcome_bind] at hout
    rcases ht : (transition .terminated "terminate").outcome ((w.disarmed h.scheduler).altered fun e =>
      { e with live := [], index := 0, skip := none }) with ⟨f | _, u⟩ <;> rw [ht] at hout <;> cases hout
    have hphase : u.engine.phase = .terminated := phase_of_transition ht
    exact hphase

/-- Handing out what the mailboxes hold succeeds, and changes only the bus. -/
lemma pump_abides {I : World D → Prop} {G : Fault → Prop}
    (hbus : ∀ {w : World D} bus, I w → I { w with bus := some bus }) (rounds : Nat) :
    Abides I G (pump (D := D) rounds) := by
  refine .get_bind fun w hw => ?_
  rcases hb : w.bus with _ | bus
  · exact .ok 0 hw
  · have hquiet : (PostOffice.pump (fun _ _ (m : Unit) => (.done, m)) rounds).Ensures
        { bus, memory := () } fun o _ => ∀ f, o ≠ .error f :=
      PostOffice.pump_quiet (fun _ _ _ => rfl) rounds _
    exact ⟨hbus _ hw, fun f hf => absurd hf (hquiet f)⟩

/-- Putting a step to the scheduler keeps what each part of it keeps, and a firing on the spot, if there is
one. -/
lemma arm_abides {J : World D → Prop} {G : Fault → Prop} {s : Scheduler D.Clock}
    {fire : Ticket → Act (World D) Unit} (hdisarmed : ∀ {w}, J w → J (w.disarmed s))
    (hdeferred : ∀ {w} delay t, J w →
      J ((w.recorded (.deferred t (s.arm w.clock delay t).1.isOk)).atClock (s.arm w.clock delay t).2))
    (hawaits : ∀ {w} handle, J w → J (w.altered fun e => { e with pending := some handle }))
    (hrefused : ∀ {w delay t f}, J w → (s.arm w.clock delay t).1 = .error f → G f)
    (hfire : ∀ {w delay t a c}, J w → s.arm w.clock delay t = (.ok a, c) → a.immediate = true →
      Abides J G (fire t)) (delay : Binary64) : Abides J G (arm s fire delay) := by
  intro w hw
  have hdisarm := hdisarmed hw
  have hput := hdeferred delay (w.disarmed s).ticket hdisarm
  unfold Act.Ensures
  rw [arm_outcome]
  dsimp only
  rcases ha : s.arm (w.disarmed s).clock delay (w.disarmed s).ticket with ⟨f | a, clock⟩ <;> rw [ha] at hput
  · exact .error hput (hrefused hdisarm (congrArg Prod.fst ha))
  · have hawait : Abides J G (modifyEngine fun e : Engine D => { e with pending := some a.handle }) :=
      fun _ hv => .ok () (hawaits a.handle hv)
    have hanswer : Abides J G (do
        if a.immediate then fire (w.disarmed s).ticket
        modifyEngine fun e => { e with pending := some a.handle } : Act (World D) Unit) := by
      split_ifs with himmediate
      · exact .bind (hfire hdisarm ha himmediate) fun _ => hawait
      · exact hawait
    exact hanswer _ hput

/-- What a step relies on: the engine is under way, and runs unless the step is manual. -/
structure Ready (w : World D) (manual : Bool) : Prop where
  begun : w.engine.phase ≠ .idle
  lasts : w.engine.phase ≠ .terminated
  runs : manual = false → w.engine.phase = .running

lemma Ready.of_running {w : World D} (hw : w.engine.phase = .running) (manual : Bool) : w.Ready manual :=
  ⟨by simp [hw], by simp [hw], fun _ => hw⟩

/-- A property of worlds that every change keeps which an engine makes, as long as only requests with `p` are
made. Deferring a step, starting, ending and executing an instruction are each one change: half way through
the property need not hold. Instructions are executed only while `steps` are taken, tickets are fired out of
turn only if that is `free`, and where the practice is `strict` no impossible change of phase is asked for. -/
structure Practice (h : Host D) (p : Request D → Prop) (steps free strict : Prop) (I : World D → Prop) :
    Prop where
  noted : ∀ {w} level source text, I w → I (w.noted level source text)
  told : ∀ {w} {what : Happening}, what.IsRemark → I w → I (w.emitted what)
  stopped : ∀ {w} sid label, steps → I w → I (w.emitted (.stopped sid label))
  announced : ∀ {w} type strand data, p (.emit type strand data) → I w →
    I (w.emitted (.announced type strand data))
  shifted : ∀ {w} {f : Engine D → Engine D}, w.engine.Shift p steps (f w.engine) → I w → I (w.altered f)
  entered : ∀ {w} {new : Phase} reason, steps ∨ p .pause ∨ p .resume → w.engine.phase ≠ .idle →
    new ≠ .terminated → mayFollow w.engine.phase new = true → I w → I (w.entered new reason)
  peopled : ∀ {w} i scope, I w → I (w.peopled h (some i) scope)
  disarmed : ∀ {w}, I w → I (w.disarmed h.scheduler)
  arm : ∀ {w fire} delay, (free → ∀ t, Abides I (Fault.Passes strict) (fire t)) →
    w.engine.started = true ∨ w.engine.phase = .running → w.engine.phase ≠ .terminated → I w →
    (arm h.scheduler fire delay).Ensures w (Kept I (Fault.Passes strict))
  start : ∀ {rounds depth entry}, p (.start entry) →
    (free → ∀ t, Abides I (Fault.Passes strict) (serve h rounds depth (.fire t))) →
    Abides I (Fault.Passes strict) (start h (fun t => discard (serve h rounds depth (.fire t))) entry)
  terminate : ∀ {farewell}, p (.terminate farewell) → Abides I (Fault.Passes strict) (terminate h)
  advance : ∀ {w rounds depth} sid manual, steps →
    (∀ r, p r → Abides I (Fault.Passes strict) (serve h rounds depth r)) → (strict → w.Ready manual) → I w →
    (advance h (runScript (serve h rounds depth)) sid sid manual).Ensures w fun o v =>
      Kept I (Fault.Passes strict) o v ∧ (strict → v.engine.phase ≠ .idle)
  breaks : ∀ {w rounds depth} i, steps →
    (∀ r, p r → Abides I (Fault.Passes strict) (serve h rounds depth r)) → I w →
    (runScript (serve h rounds depth) (h.breaks i)).Ensures w fun o v =>
      Kept I (Fault.Passes strict) o v ∧
        ∀ stops, o = .ok stops → strict → w.engine.phase = .running → v.engine.phase = .running
  farewell : ∀ {w rounds depth f}, p (.terminate (some f)) → w.engine.phase = .terminated →
    (∀ r, p r → Abides I (Fault.Passes strict) (serve h rounds depth r)) → I w →
    (runScript (serve h rounds depth) (h.farewell f)).Ensures w (Kept I (Fault.Passes strict))
  awake : ∀ {w}, strict → I w → w.engine.started = true → w.engine.phase ≠ .idle
  stepping : ∀ {r}, p r → r.Steps → steps
  freely : ∀ {r}, p r → r.Fires → free
  eagerly : free → steps
  lapsed : ∀ {w}, free → I w → I (w.altered (·.unarmed))
  popped : ∀ {w t clock}, steps → h.scheduler.next w.clock = some (t, clock) → I w →
    I (w.atClock clock) ∧ I ((w.atClock clock).altered (·.unarmed))
  refused : ∀ {w} on, p (.refuse on) → I w → I (w.atClock (h.scheduler.refuse w.clock on))
  pumped : ∀ rounds, Abides I (Fault.Passes strict) (pump (D := D) rounds)

namespace Practice

variable {h : Host D} {p : Request D → Prop} {steps free strict : Prop} {I : World D → Prop}
  (hI : Practice h p steps free strict I)

include hI

lemma alter {f : Engine D → Engine D} (hf : ∀ e : Engine D, e.Shift p steps (f e)) :
    Abides I (Fault.Passes strict) (modifyEngine f) := fun w hw => .ok () (hI.shifted (hf w.engine) hw)

lemma note (level : LogLevel) (source : LogSource) (text : String) :
    Abides I (Fault.Passes strict) (note level source text) := fun _ hw => .ok () (hI.noted _ _ _ hw)

lemma tell {what : Happening} (hwhat : what.IsRemark) :
    Abides I (Fault.Passes strict) (discard (emit (D := D) what)) := .discard fun w hw =>
  Act.ensures_of_outcome (emit_own w what hwhat.isOwn) (.ok _ (hI.told hwhat hw))

lemma disarm : Abides I (Fault.Passes strict) (disarm h.scheduler) := fun w hw =>
  Act.ensures_of_outcome (disarm_outcome _ w) (.ok () (hI.disarmed hw))

omit hI in
lemma requireLive (operation : String) :
    Abides I (Fault.Passes strict) (requireLive (D := D) operation) := by
  intro w hw
  refine Act.ensures_of_outcome (requireLive_outcome operation w) ⟨hw, fun f hf _ => ?_⟩
  rcases hr : w.engine.refusal operation with _ | g <;> rw [hr] at hf <;> cases hf
  exact (refusal_plain hr).not_illegal

/-- A change of phase other than the start and the end. -/
lemma transition {w : World D} {new : Phase} (reason : String) (hmoves : steps ∨ p .pause ∨ p .resume)
    (hlegal : strict → mayFollow w.engine.phase new = true ∨ new = w.engine.phase)
    (hidle : w.engine.phase ≠ .idle ∨ new ≠ .running) (hnew : new ≠ .terminated) (hw : I w) :
    (transition new reason).Ensures w (Kept I (Fault.Passes strict)) := by
  rcases transition_cases w new reason with ⟨hmay, hout⟩ | ⟨-, hout⟩ | ⟨hmay, hsame, hout⟩
  · have hphase : w.engine.phase ≠ .idle := hidle.elim id fun hrun hp =>
      hrun (eq_running_of_mayFollow (hp ▸ hmay))
    exact Act.ensures_of_outcome hout (.ok () (hI.entered reason hmoves hphase hnew hmay hw))
  · exact Act.ensures_of_outcome hout (.ok () hw)
  · exact Act.ensures_of_outcome hout (.error hw fun hs => absurd (hlegal hs) (not_or_intro hmay hsame))

omit hI in
lemma result (mark executed : Nat) (strand : Option Nat) (hasNext : Bool) :
    Abides I (Fault.Passes strict) (result (D := D) mark executed strand hasNext) := fun _ hw => .ok _ hw

omit hI in
/-- An engine that is under way can come to rest. -/
lemma mayHalt {w : World D} (hbegun : w.engine.phase ≠ .idle) (hlasts : w.engine.phase ≠ .terminated) :
    mayFollow w.engine.phase .halted = true ∨ .halted = w.engine.phase := by
  cases hp : w.engine.phase <;> simp_all [mayFollow]

lemma halt {w : World D} (hmoves : steps ∨ p .pause ∨ p .resume)
    (hp : strict → w.engine.phase ≠ .idle ∧ w.engine.phase ≠ .terminated) (hw : I w) :
    (halt h.scheduler).Ensures w (Kept I (Fault.Passes strict)) := by
  unfold Act.Ensures World.halt
  rw [Act.outcome_bind, disarm_outcome]
  exact hI.transition _ hmoves (fun hs => mayHalt (w := w) (hp hs).1 (hp hs).2) (.inr (by simp)) (by simp)
    (hI.disarmed hw)

lemma stop {w : World D} (mark sid : Nat) (i : D.Instr) (hsteps : steps)
    (hp : strict → w.engine.phase = .running) (hw : I w) :
    (stop h mark sid i).Ensures w (Kept I (Fault.Passes strict)) := by
  have hskip : I (w.altered (·.passing (some (sid, i)))) := hI.shifted (.stopping sid i hsteps) hw
  have hpause (v : World D) (hv : I v) (hphase : v.engine.phase = w.engine.phase) :
      (World.transition .paused "breakpoint").Ensures v (Kept I (Fault.Passes strict)) :=
    hI.transition _ (.inl hsteps) (fun hs => .inl (by rw [hphase, hp hs]; rfl)) (.inr (by simp)) (by simp) hv
  have hstop (label : String) : Abides I (Fault.Passes strict) (discard (emit (D := D) (.stopped sid label))) :=
    .discard fun v hv =>
      Act.ensures_of_outcome (emit_own v (.stopped sid label) trivial) (.ok _ (hI.stopped sid label hsteps hv))
  unfold Act.Ensures World.stop
  rw [Act.outcome_bind, modifyEngine_outcome]
  dsimp only
  rw [Act.outcome_bind, disarm_outcome]
  refine (hpause _ (hI.disarmed hskip) rfl).kept_bind fun _ v hv => ?_
  refine (hI.note _ _ _ v hv).kept_bind fun _ u hu => (hstop _ u hu).kept_bind fun _ t ht => ?_
  exact result _ _ _ _ t ht

lemma stumble {w : World D} (hmoves : steps ∨ p .pause ∨ p .resume)
    (hp : strict → w.engine.phase ≠ .idle ∧ w.engine.phase ≠ .terminated) (hw : I w) :
    (stumble h).Ensures w (Kept I (Fault.Passes strict)) := by
  unfold Act.Ensures World.stumble
  rw [Act.outcome_bind, Act.outcome_get]
  dsimp only
  split_ifs with hempty hrun
  · exact hI.halt hmoves hp hw
  · exact hI.transition _ hmoves (fun _ => .inl (by rw [hrun]; rfl)) (.inr (by simp)) (by simp) hw
  · exact .ok () hw

lemma windUp {fire : Ticket → Act (World D) Unit} (hmoves : steps ∨ p .pause ∨ p .resume)
    (hfire : free → ∀ t, Abides I (Fault.Passes strict) (fire t))
    (manual : Bool) : Abides I (Fault.Passes strict) (windUp h fire manual) := by
  refine .get_bind fun w hw => ?_
  dsimp only
  split_ifs with hhalt hrun
  · refine hI.halt hmoves (fun _ => ?_) hw
    rcases hhalt.1 with hp | hp <;> simp [hp]
  · exact hI.arm _ hfire (.inr hrun.1) (by simp [hrun.1]) hw
  · exact .ok () hw

section Winding

variable (hwind : ∀ {w} {f : Engine D → Engine D}, w.engine.Winding (f w.engine) → I w → I (w.altered f))

include hwind

lemma retired {w : World D} (sid : Nat) (hw : I w) : I (w.retired sid) :=
  hI.told trivial (hI.noted _ _ _ (hwind (f := (·.without sid)) (.without sid) hw))

lemma retire (sid : Nat) : Abides I (Fault.Passes strict) (retire h sid) := by
  intro w hw
  rcases retire_cases h w sid with hout | ⟨shown, hout⟩
  · exact Act.ensures_of_outcome hout (.ok () (hI.retired hwind sid hw))
  · exact Act.ensures_of_outcome hout (.error hw fun _ => id)

lemma turned {w : World D} (hw : I w) : I w.turned := by
  have hturned : I (w.altered (·.turned)) := hwind .turned hw
  unfold World.turned emittedIf
  split_ifs
  · exact hI.told trivial hturned
  · exact hturned

lemma reckoned {w : World D} (sid before : Nat) (cursor : Option D.Instr) (hw : I w) :
    I (w.reckoned h sid before cursor) := by
  have hdisarmed (text : String) : I ((w.noted .error .process text).disarmed h.scheduler) :=
    hI.disarmed (hI.noted _ _ _ hw)
  exact hwind (f := (·.recounted sid before)) (.recounted sid before) (hdisarmed _)

lemma recover {w : World D} (hmoves : steps ∨ p .pause ∨ p .resume) (sid before : Nat)
    (cursor : Option D.Instr) {f : Fault} (hf : f.Passes strict) (hp : strict → w.engine.phase ≠ .idle)
    (hw : I w) :
    (recover h sid before cursor f).Ensures w (Kept I (Fault.Passes strict)) := by
  have hreckoned := hI.reckoned hwind sid before cursor hw
  unfold Act.Ensures
  rw [recover_lamented]
  rcases hm : f.message with g | text
  · exact .error hreckoned (hf.cause hm)
  · have hlament : I (w.lamented h sid before cursor f text) := hI.told trivial hreckoned
    dsimp only
    split_ifs with hend hdead
    · rw [Act.outcome_bind]
      rcases retire_cases h (w.lamented h sid before cursor f text) sid with hout | ⟨shown, hout⟩ <;> rw [hout]
      · exact hI.stumble hmoves (fun hs => ⟨hp hs, hend⟩) (hI.retired hwind sid hlament)
      · exact .error hlament fun _ => id
    · exact hI.stumble hmoves (fun hs => ⟨hp hs, hend⟩) hlament
    · exact .ok () hlament

lemma announcing {w : World D} (sid : Nat) (cursor : Option D.Instr) (hasNext : Bool) (hw : I w) :
    I (w.announced h sid cursor hasNext) :=
  hI.told trivial (hI.noted _ _ _ (hwind (f := (·.counted)) .counted hw))

lemma conclude {fire : Ticket → Act (World D) Unit} (hmoves : steps ∨ p .pause ∨ p .resume)
    (hfire : free → ∀ t, Abides I (Fault.Passes strict) (fire t)) (mark sid : Nat)
    (cursor : Option D.Instr) (hasNext manual : Bool) :
    Abides I (Fault.Passes strict) (conclude h fire mark sid cursor hasNext manual) := by
  intro w hw
  have hannounced := hI.announcing hwind sid cursor hasNext hw
  have hend : Abides I (Fault.Passes strict) (do
      World.windUp h fire manual
      World.result mark 1 (some sid) hasNext : Act (World D) StepResult) :=
    .bind (hI.windUp hmoves hfire manual) fun _ => result _ _ _ _
  unfold Act.Ensures
  rw [conclude_announced]
  split_ifs
  · exact Abides.bind (hI.retire hwind sid) (fun _ => hend) _ hannounced
  · exact hend _ hannounced
  · exact .ok _ hannounced

end Winding

section Step

variable {rounds depth : Nat} {fire : Ticket → Act (World D) Unit}
  (hserve : ∀ r, p r → Abides I (Fault.Passes strict) (serve h rounds depth r))
  (hfire : free → ∀ t, Abides I (Fault.Passes strict) (fire t))

include hserve hfire in
lemma proceed {w : World D} (mark sid : Nat) (cursor : Option D.Instr) (manual : Bool) (hsteps : steps)
    (hready : strict → w.Ready manual) (hw : I w) :
    (proceed h (runScript (serve h rounds depth)) fire mark sid cursor manual).Ensures w
      (Kept I (Fault.Passes strict)) := by
  have hwind {v : World D} {f : Engine D → Engine D} (hf : v.engine.Winding (f v.engine)) (hv : I v) :
      I (v.altered f) := hI.shifted (.winding hsteps hf) hv
  have hout (v : World D) (hv : I v) : I (v.altered (·.inStep false)) := hwind (.inStep false) hv
  have hin : I ((w.altered (·.passing none)).altered (·.inStep true)) :=
    hwind (.inStep true) (hwind .passed hw)
  have hadvance := hI.advance (w := (w.altered (·.passing none)).altered (·.inStep true)) sid manual hsteps
    hserve (fun hs => ⟨(hready hs).begun, (hready hs).lasts, (hready hs).runs⟩) hin
  refine proceed_ensures hadvance ?_ ?_ ?_
  · rintro hasNext v ⟨hv, -⟩
    exact hI.conclude hwind (.inl hsteps) hfire mark sid cursor hasNext manual _ (hout v hv.state)
  · rintro f v - ⟨hv, hbegun⟩
    have hrecover := hI.recover hwind (.inl hsteps) sid (w.engine.steps sid) cursor (hv.fault f rfl) hbegun hv.state
    exact hrecover.bind (fun _ u hu => .error (hout u hu.state) (hv.fault f rfl))
      fun g u hu => .error (hout u hu.state) (hu.fault g rfl)
  · rintro f v - ⟨hv, -⟩
    exact .error (hout v hv.state) (hv.fault f rfl)

include hserve in
/-- A manual step consults nothing; before any other the engine runs, and it still does afterwards. -/
lemma consult {w : World D} (sid : Nat) (cursor : Option D.Instr) (manual : Bool) (hsteps : steps)
    (hready : strict → w.Ready manual) (hw : I w) :
    (consult h (runScript (serve h rounds depth)) sid cursor manual).Ensures w fun o v =>
      Kept I (Fault.Passes strict) o v ∧ ∀ stops, o = .ok stops → strict → v.Ready manual := by
  refine consult_ensures ⟨.ok _ hw, fun _ _ => hready⟩ fun hmanual _ i _ _ => ?_
  obtain ⟨hkept, hphase⟩ := hI.breaks i hsteps hserve hw
  exact ⟨hkept, fun stops hstops hs =>
    .of_running (hphase stops hstops hs ((hready hs).runs hmanual)) manual⟩

include hserve hfire in
lemma executeStep {w : World D} (manual : Bool) (hsteps : steps) (hready : strict → w.Ready manual)
    (hw : I w) :
    (executeStep h (runScript (serve h rounds depth)) fire manual).Ensures w
      (Kept I (Fault.Passes strict)) := by
  have hturned : strict → w.turned.Ready manual := fun hs => by
    have hphase : w.turned.engine.phase = w.engine.phase := by simp
    exact ⟨hphase ▸ (hready hs).begun, hphase ▸ (hready hs).lasts, hphase ▸ (hready hs).runs⟩
  refine executeStep_asks (fun _ => ?_)
    (hI.consult hserve _ _ manual hsteps hturned (hI.turned (fun hf => hI.shifted (.winding hsteps hf)) hw))
    ?_ ?_ ?_
  · exact (hI.halt (.inl hsteps) (fun hs => ⟨(hready hs).begun, (hready hs).lasts⟩) hw).kept_bind fun _ v hv =>
      result _ _ _ _ v hv
  · rintro f v ⟨hkept, -⟩
    exact .error hkept.state (hkept.fault f rfl)
  · rintro i v hmanual ⟨hkept, hvready⟩
    exact hI.stop _ _ i hsteps (fun hs => (hvready true rfl hs).runs hmanual) hkept.state
  · rintro stops v - ⟨hkept, hvready⟩
    exact hI.proceed hserve hfire _ _ _ manual hsteps (hvready stops rfl) hkept.state

include hserve hfire in
/-- A ticket that comes due keeps the property if letting go of the deferred step does. -/
lemma honour {w : World D} (hsteps : steps) (hw : I w) (hlapse : I (w.altered (·.unarmed))) (t : Ticket) :
    (honour h (runScript (serve h rounds depth)) fire t).Ensures w (Kept I (Fault.Passes strict)) := by
  unfold Act.Ensures
  rw [honour_outcome]
  split_ifs with ht hrun
  · exact (hI.executeStep hserve hfire (w := w.altered (·.unarmed)) false hsteps
      (fun _ => Ready.of_running (w := w.altered (·.unarmed)) hrun false) hlapse).kept_discard
  · exact .ok () hlapse
  · exact hI.note _ _ _ w hw

include hserve hfire in
lemma step (hsteps : steps) :
    Abides I (Fault.Passes strict) (step h (runScript (serve h rounds depth)) fire) := by
  intro w hw
  refine step_ensures (fun f hf => .error hw fun _ => (stepRefusal_plain hf).not_illegal)
    (fun _ => .ok _ hw) fun hstarted hphase => ?_
  have hlasts : w.engine.phase ≠ .terminated := by
    rcases hphase with hphase | hphase <;> simp [hphase]
  exact hI.executeStep hserve hfire true hsteps (fun hs => ⟨hI.awake hs hw hstarted, hlasts, nofun⟩) hw

end Step

section Operations

variable {fire : Ticket → Act (World D) Unit}
  (hfire : free → ∀ t, Abides I (Fault.Passes strict) (fire t))

lemma pause (hp : p .pause) : Abides I (Fault.Passes strict) (pause h) := by
  intro w hw
  refine pause_ensures (fun f hr => .error hw fun _ => (refusal_plain hr).not_illegal) (fun _ hrun => ?_)
    fun _ _ => .ok () (hI.disarmed hw)
  refine .ok () (hI.entered (w := w.disarmed h.scheduler) "pause" (.inr (.inl hp)) ?_ (by simp) ?_
    (hI.disarmed hw))
  · simp [hrun]
  · simp only [disarmed_engine, Engine.disarmed_phase, hrun]
    rfl

include hfire in
lemma resume (hp : p .resume) : Abides I (Fault.Passes strict) (resume h fire) := by
  intro w hw
  unfold Act.Ensures World.resume
  rw [requireLive_bind]
  rcases hr : w.engine.refusal "resume" with _ | f
  · obtain ⟨hs, hlasts⟩ := started_of_refusal hr
    have hrest : Abides I (Fault.Passes strict) (do
        if (← get).engine.phase = .paused then World.transition .running "resume" : Act (World D) Unit) := by
      refine .get_bind fun v hv => ?_
      split_ifs with hpaused
      · exact hI.transition _ (.inr (.inr hp)) (fun _ => .inl (by rw [hpaused]; rfl)) (.inl (by simp [hpaused]))
          (by simp) hv
      · exact .ok () hv
    rw [Act.outcome_bind, Act.outcome_get]
    dsimp only
    split_ifs
    · exact hI.note _ _ _ w hw
    · exact (hI.arm .zero hfire (.inl hs) hlasts hw).kept_bind fun _ v hv => hrest v hv
  · exact .error hw fun _ => (refusal_plain hr).not_illegal

lemma setRate {given : Option Value} (hp : p (.rate given)) :
    Abides I (Fault.Passes strict) (setRate (D := D) given) := by
  intro w hw
  exact setRate_ensures (fun _ hf => .error hw fun _ => hf.not_illegal)
    fun rate => .ok () (hI.noted _ _ _ (hI.shifted (f := (·.atRate rate)) (.rate rate hp) hw))

include hfire in
lemma spawn (entry : Option D.Instr) (scope : ScopeChoice D) :
    Abides I (Fault.Passes strict) (spawn h fire entry scope) := by
  refine .bind (requireLive _) fun _ => .get_bind fun w hw => ?_
  split_ifs
  · exact .error hw fun _ => id
  · refine Abides.bind (.ofExcept (derivedEntry_plain h entry).passes) (fun i => ?_) w hw
    refine .bind (fun v hv => ?_) fun sid => ?_
    · exact Act.ensures_of_outcome (addStrand_outcome h v (some i) scope) (.ok _ (hI.peopled i scope hv))
    · refine .bind (hI.alter fun _ => .joined sid) fun _ => .bind (hI.tell trivial) fun _ => ?_
      refine .get_bind fun v hv => ?_
      dsimp only
      split_ifs with hrun
      · exact (hI.arm .zero hfire (.inr hrun.1) (by simp [hrun.1]) hv).kept_bind fun _ u hu => .ok sid hu
      · exact .ok sid hv

end Operations

section Requests

/-- Firing what the scheduler has next. -/
lemma runNext (hsteps : steps) {fire : Ticket → Act (World D) Unit}
    (hfire : ∀ t w, I w → I (w.altered (·.unarmed)) → (fire t).Ensures w (Kept I (Fault.Passes strict))) :
    Abides I (Fault.Passes strict) (runNext h.scheduler fire) := by
  refine .get_bind fun w hw => ?_
  split
  · exact .ok _ hw
  next t clock hnext =>
    obtain ⟨hclock, hlapse⟩ := hI.popped hsteps hnext hw
    exact (hfire t (w.atClock clock) hclock hlapse).kept_bind fun _ v hv => .ok true hv

/-- The host's own events. -/
lemma announce {type strand : Value} {data : Table} (hp : p (.emit type strand data)) :
    Abides I (Fault.Passes strict) (Act.ofExcept (Happening.announce type strand data) >>= fun what =>
      emit (D := D) what >>= fun e => pure (Reply.event e)) :=
  fun _ hw => announce_ensures (fun _ hf => .error hw fun _ => hf.not_illegal)
    fun _ hr => ⟨hI.announced type strand data hp hw, hr.passes⟩

/-- A request keeps the property if the requests that scripts may make do, and if firing a step does
that has come due. -/
lemma perform (rounds depth : Nat)
    (hserve : ∀ r, p r → Abides I (Fault.Passes strict) (World.serve h rounds depth r))
    (hdue : steps → ∀ t w, I w → I (w.altered (·.unarmed)) →
      (World.serve h rounds depth (.fire t)).Ensures w (Kept I (Fault.Passes strict)))
    {r : Request D} (hr : p r) :
    Abides I (Fault.Passes strict) (perform h rounds (World.serve h rounds depth) r) := by
  have hfree : free → ∀ t, Abides I (Fault.Passes strict) (World.serve h rounds depth (.fire t)) :=
    fun hfree t w hw => hdue (hI.eagerly hfree) t w hw (hI.lapsed hfree hw)
  have hfire : free → ∀ t, Abides I (Fault.Passes strict) (discard (World.serve h rounds depth (.fire t))) :=
    fun hf t => .discard (hfree hf t)
  have hnext (hsteps : steps) : Abides I (Fault.Passes strict)
      (World.runNext h.scheduler fun t => discard (World.serve h rounds depth (.fire t))) :=
    hI.runNext hsteps fun t w hw hlapse => (hdue hsteps t w hw hlapse).kept_discard
  have hhonour (hs : r.Steps) (hf : r.Fires) {w : World D} (hw : I w) (t : Ticket) :
      (World.honour h (runScript (World.serve h rounds depth))
        (fun t => discard (World.serve h rounds depth (.fire t))) t).Ensures w
          (Kept I (Fault.Passes strict)) :=
    hI.honour hserve hfire (hI.stepping hr hs) hw (hI.lapsed (hI.freely hr hf) hw) t
  cases r with
  | start entry => exact .reply (hI.start hr hfree)
  | pause => exact .reply (hI.pause hr)
  | resume => exact .reply (hI.resume hfire hr)
  | rate given => exact .reply (hI.setRate hr)
  | terminate farewell =>
    intro w hw
    have hend := hI.terminate hr w hw
    unfold Act.Ensures at hend
    unfold Act.Ensures World.perform
    dsimp only
    rw [Act.outcome_bind]
    rcases hout : (World.terminate h).outcome w with ⟨f | _, v⟩ <;> rw [hout] at hend
    · exact .error hend.state (hend.fault f rfl)
    · cases farewell with
      | none => exact .ok _ hend.state
      | some f =>
        exact (hI.farewell hr (phase_of_terminate hout) hserve hend.state).kept_bind fun _ u hu => .ok _ hu
  | breakpoints on => exact .reply (hI.alter fun _ => .breaking hr)
  | spawn entry scope => exact .bind (hI.spawn hfire entry scope) fun _ => .get_bind fun _ hw => .ok _ hw
  | step => exact .reply (hI.step hserve hfire (hI.stepping hr trivial))
  | info => exact .get_bind fun _ hw => .ok _ hw
  | current => exact .get_bind fun _ hw => .ok _ hw
  | events limit => exact .get_bind fun _ hw => .ok _ hw
  | emit type strand data => exact hI.announce hr
  | fire t => exact .reply fun w hw => hhonour trivial trivial hw t
  | fireIssued n =>
    refine .get_bind fun w hw => ?_
    split
    · exact .error hw fun _ => id
    · exact (hhonour trivial trivial hw _).kept_bind fun _ u hu => .ok _ hu
  | runNext => exact .reply (hnext (hI.stepping hr trivial))
  | runAll limit => exact .reply ((hnext (hI.stepping hr trivial)).repeatWhile limit rounds 0)
  | refuse on => exact .reply (.modify fun w hw => hI.refused on hr hw)
  | pump => exact .reply (hI.pumped rounds)
  | timeSlice n => exact .reply (hI.alter fun _ => .sliced hr)
  | forget position =>
    refine .reply (hI.alter fun e => ?_)
    dsimp only
    generalize (if position < 0 then position + e.live.length else position) = place
    split_ifs
    · exact .forgotten e.live hr
    · exact .forgotten _ hr
  | blank sid => exact .reply (hI.alter fun _ => .blanked hr)

/-- Whatever is asked for at whatever depth, an engine keeps the property; so does a step that comes
due, if letting go of it does. -/
theorem serve (rounds depth : Nat) :
    (∀ r, p r → Abides I (Fault.Passes strict) (serve h rounds depth r)) ∧
    (steps → ∀ t w, I w → I (w.altered (·.unarmed)) →
      (World.serve h rounds depth (.fire t)).Ensures w (Kept I (Fault.Passes strict))) := by
  induction depth with
  | zero => exact ⟨fun _ _ => .throw fun _ => id, fun _ _ _ hw _ => .error hw fun _ => id⟩
  | succ depth ih =>
    refine ⟨fun r hr => hI.perform rounds depth ih.1 ih.2 hr, fun hsteps t w hw hlapse => ?_⟩
    refine Act.Ensures.kept_bind ?_ fun _ v hv => .ok _ hv
    exact hI.honour ih.1 (fun hfree t => .discard fun v hv => ih.2 hsteps t v hv (hI.lapsed hfree hv)) hsteps hw
      hlapse t

end Requests

end Practice

/-- A property of worlds that does not depend on the phase, on what is deferred or on what is in play. Then
also deferring a step, starting and ending keep it, half way through as well. -/
structure Loose (h : Host D) (I : World D → Prop) : Prop where
  noted : ∀ {w} level source text, I w → I (w.noted level source text)
  told : ∀ {w} {what : Happening}, what.IsOwn → I w → I (w.emitted what)
  disarmed : ∀ {w}, I w → I (w.disarmed h.scheduler)
  deferred : ∀ {w} delay t, I w → I ((w.recorded (.deferred t (h.scheduler.arm w.clock delay t).1.isOk)).atClock
    (h.scheduler.arm w.clock delay t).2)
  aside : ∀ {w} {f : Engine D → Engine D}, w.engine.Aside (f w.engine) → I w → I (w.altered f)
  peopled : ∀ {w} cursor scope, I w → I (w.peopled h cursor scope)

namespace Loose

variable {h : Host D} {I : World D → Prop} (hI : Loose h I)

include hI

lemma alter {f : Engine D → Engine D} (hf : ∀ e : Engine D, e.Aside (f e)) :
    Abides I (Fault.Passes False) (modifyEngine f) := fun w hw => .ok () (hI.aside (hf w.engine) hw)

lemma tell {what : Happening} (hwhat : what.IsOwn) :
    Abides I (Fault.Passes False) (discard (emit (D := D) what)) := .discard fun w hw =>
  Act.ensures_of_outcome (emit_own w what hwhat) (.ok _ (hI.told hwhat hw))

lemma entered {w : World D} (new : Phase) (reason : String) (hw : I w) : I (w.entered new reason) := by
  have hphase : I (w.altered (·.inPhase new)) := hI.aside ⟨rfl, rfl, rfl, rfl, rfl, rfl, rfl⟩ hw
  exact hI.told (show Happening.IsOwn (.phase ..) from trivial) (hI.noted _ _ _ hphase)

lemma transition (new : Phase) (reason : String) :
    Abides I (Fault.Passes False) (transition (D := D) new reason) := by
  intro w hw
  rcases transition_cases w new reason with ⟨-, hout⟩ | ⟨-, hout⟩ | ⟨-, -, hout⟩
  · exact Act.ensures_of_outcome hout (.ok () (hI.entered new reason hw))
  · exact Act.ensures_of_outcome hout (.ok () hw)
  · exact Act.ensures_of_outcome hout (.error hw (Fault.passes_any _))

/-- Deferring a step keeps the property if firing one does. -/
lemma arm {fire : Ticket → Act (World D) Unit} (hfire : ∀ t, Abides I (Fault.Passes False) (fire t))
    (delay : Binary64) : Abides I (Fault.Passes False) (arm h.scheduler fire delay) :=
  arm_abides hI.disarmed hI.deferred
    (fun _ hw => hI.aside ⟨rfl, rfl, rfl, rfl, rfl, rfl, rfl⟩ hw) (fun _ _ => Fault.passes_any _)
    (fun _ _ _ => hfire _) delay

/-- A scheduler that fires nothing while taking a step need not be asked about firing. -/
lemma arm_later {fit : D.Clock → Prop} (hs : h.scheduler.Defers fit) (hfit : ∀ {w}, I w → fit w.clock)
    (fire : Ticket → Act (World D) Unit) (delay : Binary64) :
    Abides I (Fault.Passes False) (World.arm h.scheduler fire delay) :=
  arm_abides hI.disarmed hI.deferred
    (fun _ hw => hI.aside ⟨rfl, rfl, rfl, rfl, rfl, rfl, rfl⟩ hw) (fun _ _ => Fault.passes_any _)
    (fun hw ha himmediate => absurd himmediate (by simp [hs.later (hfit hw) ha])) delay

lemma sought {w : World D} (entry : Option D.Instr) (hw : I w) : I (w.sought h entry) := by
  unfold World.sought
  split
  · exact hw
  · split
    · exact hw
    · split
      · exact hI.noted _ _ _ hw
      · exact hw

lemma start {fire : Ticket → Act (World D) Unit}
    (harm : ∀ delay, Abides I (Fault.Passes False) (World.arm h.scheduler fire delay))
    (entry : Option D.Instr) : Abides I (Fault.Passes False) (start h fire entry) := by
  refine .get_bind fun w hw => ?_
  dsimp only
  split_ifs
  · exact .error hw (Fault.passes_any _)
  · refine Abides.bind (fun v hv => ?_) (fun root => ?_) w hw
    · exact Act.ensures_of_outcome (rootEntry_outcome h v entry)
        ⟨hI.sought entry hv, fun f _ => f.passes_any⟩
    · refine .bind (harm _) fun _ => .bind (fun v hv => ?_) fun sid => ?_
      · exact Act.ensures_of_outcome (addStrand_outcome h v root.1 _) (.ok _ (hI.peopled _ _ hv))
      · refine .bind (hI.alter fun _ => ⟨rfl, rfl, rfl, rfl, rfl, rfl, rfl⟩) fun _ => ?_
        refine .bind (hI.transition _ _) fun _ => ?_
        split
        · exact .pure _
        · exact hI.tell trivial

lemma terminate : Abides I (Fault.Passes False) (terminate h) := by
  refine .get_bind fun w hw => ?_
  dsimp only
  split_ifs
  · exact .error hw (Fault.passes_any _)
  · exact .error hw (Fault.passes_any _)
  · exact .error hw (Fault.passes_any _)
  · refine Abides.bind (fun v hv => ?_) (fun _ => ?_) w hw
    · exact Act.ensures_of_outcome (disarm_outcome _ v) (.ok () (hI.disarmed hv))
    · refine .bind (hI.alter fun _ => ⟨rfl, rfl, rfl, rfl, rfl, rfl, rfl⟩) fun _ => ?_
      refine .bind (hI.transition _ _) fun _ => ?_
      exact .get_bind fun v hv => .ok () (hI.noted _ _ _ hv)

end Loose

/-- Such a property which besides is kept by what scripts do without the engine and by what befalls the
scheduler. -/
structure Easy (h : Host D) (P : D.Memory → Prop) (I : World D → Prop) : Prop extends Loose h I where
  memory : ∀ {w}, I w → P w.memory
  stored : ∀ {w m}, I w → P m → I (w.withMemory m)
  announced : ∀ {w} type strand data, I w → I (w.emitted (.announced type strand data))
  popped : ∀ {w t clock}, h.scheduler.next w.clock = some (t, clock) → I w → I (w.atClock clock)
  refused : ∀ {w} on, I w → I (w.atClock (h.scheduler.refuse w.clock on))
  delivered : ∀ {w : World D} bus, I w → I { w with bus := some bus }

namespace Easy

variable {h : Host D} {P : D.Memory → Prop} {p : Request D → Prop} {I : World D → Prop} (hI : Easy h P I)
  {steps : Prop} (hshifted : ∀ {w} {f : Engine D → Engine D}, w.engine.Shift p steps (f w.engine) → I w →
    I (w.altered f))

include hI

lemma runScript {serve : Request D → Act (World D) Reply}
    (hserve : ∀ r, p r → Abides I (Fault.Passes False) (serve r)) {s : Script D α} (hs : s.Asks P p) :
    Abides I (Fault.Passes False) (runScript serve s) :=
  runScript_abides hI.memory hI.stored hserve (hs.mono fun f _ => f.passes_any)

omit hshifted in
/-- Nothing of all this completes an instruction. -/
lemma throughout (Q : List (Nat × D.Instr) → Prop) : Easy h P fun w => I w ∧ Q w.completions where
  noted level source text hw := ⟨hI.noted level source text hw.1, hw.2⟩
  told hwhat hw := ⟨hI.told hwhat hw.1, by simpa [Deed.completion?] using hw.2⟩
  disarmed hw := ⟨hI.disarmed hw.1, hw.2⟩
  deferred delay t hw := ⟨hI.deferred delay t hw.1, by simpa [Deed.completion?] using hw.2⟩
  aside hf hw := ⟨hI.aside hf hw.1, hw.2⟩
  peopled cursor scope hw := ⟨hI.peopled cursor scope hw.1, hw.2⟩
  memory hw := hI.memory hw.1
  stored hw hm := ⟨hI.stored hw.1 hm, hw.2⟩
  announced type strand data hw := ⟨hI.announced type strand data hw.1, by simpa [Deed.completion?] using hw.2⟩
  popped hnext hw := ⟨hI.popped hnext hw.1, hw.2⟩
  refused on hw := ⟨hI.refused on hw.1, hw.2⟩
  delivered bus hw := ⟨hI.delivered bus hw.1, hw.2⟩

omit hshifted in
/-- A fit scheduler stays fit besides. -/
lemma fitting {fit : D.Clock → Prop} (hs : h.scheduler.Stays fit) : Easy h P fun w => I w ∧ fit w.clock where
  noted level source text hw := ⟨hI.noted level source text hw.1, hw.2⟩
  told hwhat hw := ⟨hI.told hwhat hw.1, hw.2⟩
  disarmed {w} hw := by
    refine ⟨hI.disarmed hw.1, ?_⟩
    rw [disarmed_clock]
    cases w.engine.pending with
    | none => exact hw.2
    | some handle => exact hs.defers.cancel handle hw.2
  deferred delay t hw := ⟨hI.deferred delay t hw.1, hs.defers.arm delay t hw.2⟩
  aside hf hw := ⟨hI.aside hf hw.1, hw.2⟩
  peopled cursor scope hw := ⟨hI.peopled cursor scope hw.1, hw.2⟩
  memory hw := hI.memory hw.1
  stored hw hm := ⟨hI.stored hw.1 hm, hw.2⟩
  announced type strand data hw := ⟨hI.announced type strand data hw.1, hw.2⟩
  popped hnext hw := ⟨hI.popped hnext hw.1, hs.next hw.2 hnext⟩
  refused on hw := ⟨hI.refused on hw.1, hs.refuse on hw.2⟩
  delivered bus hw := ⟨hI.delivered bus hw.1, hw.2⟩

include hshifted

/-- What else it takes on a scheduler that may do what it likes. -/
lemma practice (hh : h.Asks P p) (hsteps : steps)
    (hadvance : ∀ {rounds depth} sid manual,
      (∀ r, p r → Abides I (Fault.Passes False) (serve h rounds depth r)) →
      Abides I (Fault.Passes False) (advance h (World.runScript (serve h rounds depth)) sid sid manual)) :
    Practice h p steps True False I where
  noted := hI.noted
  told hwhat := hI.told hwhat.isOwn
  stopped _ _ _ := hI.told trivial
  announced type strand data _ := hI.announced type strand data
  shifted := hshifted
  entered reason _ _ _ _ := hI.entered _ reason
  peopled i := hI.peopled (some i)
  disarmed := hI.disarmed
  arm delay hfire _ _ hw := hI.arm (hfire trivial) delay _ hw
  start _ hfire := hI.start (hI.arm fun t => .discard (hfire trivial t)) _
  terminate _ := hI.terminate
  advance sid manual _ hserve _ hw := ⟨hadvance sid manual hserve _ hw, False.elim⟩
  breaks i _ hserve hw := ⟨hI.runScript hserve (hh.breaks i) _ hw, fun _ _ => False.elim⟩
  farewell _ _ hserve hw := hI.runScript hserve (hh.farewell _) _ hw
  awake := False.elim
  stepping _ _ := hsteps
  freely _ _ := trivial
  eagerly _ := hsteps
  lapsed _ hw := hI.aside ⟨rfl, rfl, rfl, rfl, rfl, rfl, rfl⟩ hw
  popped _ hnext hw :=
    ⟨hI.popped hnext hw, hI.aside ⟨rfl, rfl, rfl, rfl, rfl, rfl, rfl⟩ (hI.popped hnext hw)⟩
  refused on _ := hI.refused on
  pumped := pump_abides hI.delivered

/-- Where nobody asks for a step and the scheduler fires none while taking one, nothing is executed. -/
lemma calm {fit : D.Clock → Prop} (hs : h.scheduler.Defers fit) (hfit : ∀ {w}, I w → fit w.clock)
    (hfarewell : ∀ f, (h.farewell f).Asks P p) (hp : ∀ {r}, p r → ¬ r.Steps) (hsteps : ¬ steps) :
    Practice h p steps False False I where
  noted := hI.noted
  told hwhat := hI.told hwhat.isOwn
  stopped _ _ hstep := absurd hstep hsteps
  announced type strand data _ := hI.announced type strand data
  shifted := hshifted
  entered reason _ _ _ _ := hI.entered _ reason
  peopled i := hI.peopled (some i)
  disarmed := hI.disarmed
  arm delay _ _ _ hw := hI.arm_later hs hfit _ delay _ hw
  start _ _ := hI.start (hI.arm_later hs hfit _) _
  terminate _ := hI.terminate
  advance _ _ hstep := absurd hstep hsteps
  breaks _ hstep := absurd hstep hsteps
  farewell _ _ hserve hw := hI.runScript hserve (hfarewell _) _ hw
  awake := False.elim
  stepping hr hstep := absurd hstep (hp hr)
  freely hr hfires := absurd hfires.steps (hp hr)
  eagerly := False.elim
  lapsed := False.elim
  popped hstep := absurd hstep hsteps
  refused on _ := hI.refused on
  pumped := pump_abides hI.delivered

end Easy

lemma easy_memory {P : D.Memory → Prop} {h : Host D}
    (hinstall : ∀ {m} n contents, P m → P (h.install m n contents)) : Easy h P fun w => P w.memory where
  noted _ _ _ hw := hw
  told _ hw := hw
  disarmed hw := hw
  deferred _ _ hw := hw
  aside _ hw := hw
  peopled {w} _ scope hw := newMemory_kept w hinstall scope hw
  memory hw := hw
  stored _ hm := hm
  announced _ _ _ hw := hw
  popped _ hw := hw
  refused _ hw := hw
  delivered _ hw := hw

/-- What moving a strand keeps is kept when an instruction is followed by its successor. -/
lemma followed_keeps {I : World D → Prop} (h : Host D) {w : World D} (sid : Nat) (i : D.Instr)
    (hmoved : ∀ cursor, I (w.altered (·.movedTo sid cursor))) (hw : I w) : I (w.followed h sid i).2 := by
  unfold followed
  split
  · exact hw
  · exact hmoved none
  · split_ifs <;> exact hmoved _

/-- Such a property that depends on nothing but the memory and the scheduler's state is kept by every request. -/
lemma Easy.serve {P : D.Memory → Prop} {Q : D.Memory → D.Clock → Prop} {h : Host D}
    (hQ : Easy h P fun w => Q w.memory w.clock) (hh : h.Asks P fun _ => True) (rounds depth : Nat)
    (r : Request D) : Abides (fun w => Q w.memory w.clock) (Fault.Passes False) (serve h rounds depth r) := by
  have hpractice : Practice h (fun _ => True) True True False fun w => Q w.memory w.clock :=
    hQ.practice (fun _ hw => hw) hh trivial fun sid manual hserve =>
      advance_abides (J := fun _ _ w => Q w.memory w.clock) (fun _ _ hw => hw)
        (fun _ i scope => hQ.runScript hserve (hh.code i scope)) id
        (fun _ hw => followed_keeps (I := fun w => Q w.memory w.clock) h _ _ (fun _ => hw) hw) sid sid manual
  exact (hpractice.serve rounds depth).1 r trivial

/-- Memories with `P` stay so. -/
lemma serve_memory {P : D.Memory → Prop} {h : Host D} (hh : h.Asks P fun _ => True) (rounds depth : Nat)
    (r : Request D) : Abides (fun w => P w.memory) (Fault.Passes False) (serve h rounds depth r) :=
  Easy.serve (Q := fun m _ => P m) (easy_memory hh.install) hh rounds depth r

/-- So do fit schedulers. -/
lemma serve_fits {P : D.Memory → Prop} {fit : D.Clock → Prop} {h : Host D} (hs : h.scheduler.Stays fit)
    (hh : h.Asks P fun _ => True) (rounds depth : Nat) (r : Request D) :
    Abides (fun w => P w.memory ∧ fit w.clock) (Fault.Passes False) (serve h rounds depth r) :=
  Easy.serve (Q := fun m c => P m ∧ fit c) ((easy_memory hh.install).fitting hs) hh rounds depth r

/-- What every request keeps, and the scheduler by itself, a run keeps. -/
lemma replay_keeps {h : Host D} {I : World D → Prop} {G : Fault → Prop} {w : World D} (rounds depth : Nat)
    (hserve : ∀ r, Abides I G (serve h rounds (depth + 1) r)) {moves : List (Move D)}
    (hdrift : ∀ clock, .drift clock ∈ moves → ∀ v, I v → I (v.atClock clock)) (hw : I w) :
    I (w.replay h rounds depth moves) := by
  induction moves generalizing w with
  | nil => exact hw
  | cons m moves ih =>
    refine ih (fun clock hclock => hdrift clock (List.mem_cons_of_mem m hclock)) ?_
    cases m with
    | operate r => exact (hserve r w hw).state
    | fire t => exact (hserve (.fire t) w hw).state
    | drift clock => exact hdrift clock List.mem_cons_self w hw

/-- Nothing is taken back in the course of a run. -/
lemma replay_continues (h : Host D) (rounds depth : Nat) (w : World D) (moves : List (Move D)) :
    w.Continues (w.replay h rounds depth moves) :=
  replay_keeps (G := Fault.Passes False) rounds depth
    (fun r _ hv => ⟨hv.trans (serve_adds h rounds (depth + 1) r _), fun f _ => f.passes_any⟩) (fun _ _ _ => id)
    (continues_refl w)

end World

end Loom
