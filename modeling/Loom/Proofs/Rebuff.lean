import Loom.Proofs.Containment
import Loom.Proofs.Delivery
import Loom.Proofs.Setback
import Loom.Proofs.Twin

/-! A start or a resumption that the scheduler refuses is as if it had never been asked for. What it leaves behind
is a token that has moved on and a ticket that will never count; nothing that is done later depends on either. -/
namespace Loom

/-- Two clockworks that answer alike: neither is eager, and both have made as many calls. -/
structure Clockwork.Level (c c' : Clockwork) : Prop where
  kind : c'.kind = c.kind
  patient : c.kind ≠ .eager
  refusing : c'.refusing = c.refusing
  made : c'.agenda.calls.size = c.agenda.calls.size

lemma Clockwork.level_indifferent : Scheduler.clockwork.Indifferent Level where
  answer {c c'} delay t t' hc := by
    have hrefusal : c'.refusal = c.refusal := by
      unfold refusal
      rw [hc.kind, hc.refusing]
    simp only [Scheduler.clockwork, arm, hrefusal]
    split
    · rfl
    · simp only [Agenda.push, hc.kind, hc.made]
  arm {c c'} delay t t' hc := by
    have hrefusal : c'.refusal = c.refusal := by
      unfold refusal
      rw [hc.kind, hc.refusing]
    simp only [Scheduler.clockwork, arm, hrefusal]
    split
    · exact hc
    · exact ⟨hc.kind, hc.patient, hc.refusing, by simp [Agenda.push, hc.made]⟩
  cancel {c c'} n hc := by
    have hkeeps : c'.keeps = c.keeps := by
      unfold keeps
      rw [hc.kind]
    simp only [Scheduler.clockwork, cancel, hkeeps]
    split_ifs
    · exact hc
    · exact ⟨hc.kind, hc.patient, hc.refusing, by simp [Agenda.cancel, hc.made]⟩
  later {c c'} delay t a hc ha := by
    simp only [Scheduler.clockwork, arm] at ha
    split at ha
    · cases ha
    · cases ha
      simp [hc.patient]

namespace World

variable {D : Dialect} {h : Host D} {R : D.Clock → D.Clock → Prop} {P : D.Memory → Prop} {T k : Nat}
  {I : Vitals → Prop} {w v u b : World D} {m : Move D}

open Act (Agree)

/-- The scheduler answers for itself, and a step is deferred only while the engine runs. -/
structure Composed (R : D.Clock → D.Clock → Prop) (P : D.Memory → Prop) (w : World D) : Prop where
  clock : R w.clock w.clock
  memory : P w.memory
  vitals : w.engine.vitals.Sound 0

/-- A run that a request would set going. -/
def Awaits (w : World D) : Request D → Prop
  | .start _ => w.engine.phase = .idle
  | .resume => w.engine.phase = .paused
  | _ => False

/-- A run that waits to be set going. -/
def AtRest (w : World D) : Prop := w.engine.phase = .idle ∨ w.engine.phase = .paused

/-- Two worlds that show no difference: the engine is the same but for its token, and the same was told and
executed, in the same order. -/
structure Resembles (w v : World D) : Prop where
  engine : w.engine = { v.engine with token := w.engine.token }
  memory : w.memory = v.memory
  bus : w.bus = v.bus
  wall : w.wall = v.wall
  deeds : Deed.tell Deed.outward? w.deeds = Deed.tell Deed.outward? v.deeds

/-- What happens to a run that cannot be set going: a call fails, a ticket comes due, or the scheduler's state
changes of itself. -/
inductive Fruitless (h : Host D) (rounds depth : Nat) (R : D.Clock → D.Clock → Prop) (w : World D) :
    Move D → Prop
  | call {r f} (hr : w.Awaits r) (hf : w.verdict h rounds depth (.operate r) = some f) :
      Fruitless h rounds depth R w (.operate r)
  | stray (t : Ticket) : Fruitless h rounds depth R w (.fire t)
  | drift {c} (hc : R c c) : Fruitless h rounds depth R w (.drift c)

/-- How a move is answered. -/
def reply (h : Host D) (rounds depth : Nat) (w : World D) : Move D → Except Fault Reply
  | .operate r => ((serve h rounds (depth + 1) r).outcome w).1
  | .fire t => ((serve h rounds (depth + 1) (.fire t)).outcome w).1
  | .drift _ => .ok .nothing

/-- A world that shows no difference to one before it, with a token that is further on. -/
abbrev Shifted (R : D.Clock → D.Clock → Prop) (P : D.Memory → Prop) (k : Nat) (v w : World D) : Prop :=
  Twin (fun c _ => R c c) P k (fun _ => True) v w

/-- Calls that fail one after the other. -/
def TurnedAway (h : Host D) (rounds depth : Nat) (R : D.Clock → D.Clock → Prop) :
    World D → List (Move D) → Prop
  | _, [] => True
  | w, m :: calls => w.Fruitless h rounds depth R m ∧ TurnedAway h rounds depth R (w.after h rounds depth m) calls

/-- What is told of a world's deeds outside the dealings with the scheduler. -/
lemma Resembles.tell (hw : w.Resembles v) {f : Deed D → Option β} (hf : ∀ t b, f (.deferred t b) = none) :
    Deed.tell f w.deeds = Deed.tell f v.deeds := by
  have hsplit (u : World D) : Deed.tell f u.deeds = (Deed.tell Deed.outward? u.deeds).filterMap f := by
    unfold Deed.tell
    rw [List.filterMap_filterMap]
    refine congrArg (List.filterMap · _) (funext fun d => ?_)
    cases d with
    | deferred t b => exact hf t b
    | _ => rfl
  rw [hsplit, hsplit, hw.deeds]

lemma Twin.resembles (hw : Twin R P k I w v) : w.Resembles v :=
  ⟨by rw [hw.engine]; rfl, hw.memory, hw.bus, hw.wall, hw.deeds⟩

lemma Twin.composed (hw : Twin R P k (·.Sound 0) v v) : v.Composed R P := ⟨hw.clock, hw.room, hw.vitals⟩

lemma Composed.twin (hw : w.Composed R P) : Twin R P 0 (·.Sound 0) w w :=
  ⟨rfl, hw.clock, rfl, hw.memory, rfl, rfl, rfl, hw.vitals⟩

/-- Alike as they are, they answer alike. -/
lemma Twin.reply (hs : h.scheduler.Indifferent R) (hh : h.Asks P Request.IsOperation)
    (rounds depth : Nat) {m' : Move D} (hm : m.Echoes R T k m') (hw : Twin R P k (·.Sound T) w v) :
    w.reply h rounds depth m = v.reply h rounds depth m' := by
  cases hm with
  | operate hr => exact (hw.serve hs hh rounds (depth + 1) hr).1
  | fire t => exact (hw.fire hs hh rounds depth t).1
  | drift => rfl

lemma Composed.shifted (hw : w.Composed R P) : Shifted R P 0 w w :=
  { hw.twin with clock := hw.clock, vitals := trivial }

lemma Fresh.composed (hw : Fresh (fun c => R c c) P w) : w.Composed R P := by
  obtain ⟨run, settings, hmake⟩ := hw.engine
  refine ⟨hw.clock, hw.memory, ?_⟩
  rw [Engine.eq_of_make hmake]
  exact ⟨Nat.le_refl 0, nofun, fun _ => ⟨nofun, rfl⟩, by simp⟩

section

variable (hs : h.scheduler.Indifferent R) (hh : h.Asks P Request.IsOperation) (rounds depth : Nat)

include hs hh

lemma Composed.after (hw : w.Composed R P) (hm : w.Admits (fun c => R c c) m) :
    (w.after h rounds depth m).Composed R P := by
  have hecho : m.Echoes R 0 0 m := by
    cases m with
    | operate r => exact .operate hm
    | fire t =>
      have hsame : t.recount 0 0 = t := by simp [Ticket.recount]
      simpa [hsame] using Move.Echoes.fire (R := R) (T := 0) (k := 0) t
    | drift c => exact .drift hm
  exact (hw.twin.after hs hh rounds depth hecho).composed

lemma Composed.replay (hw : w.Composed R P) {moves : List (Move D)}
    (hm : Plays h rounds depth (fun c => R c c) w moves) : (w.replay h rounds depth moves).Composed R P := by
  induction moves generalizing w with
  | nil => exact hw
  | cons m moves ih => exact ih (hw.after hs hh rounds depth hm.1) hm.2

lemma Reaches.composed {s rest : Script D α} {q : Fault → Prop}
    (hreach : Reaches (serve h rounds depth) s w rest v)
    (hasks : s.Heeds P Request.IsOperation q) (hw : w.Composed R P) : v.Composed R P := by
  induction hreach generalizing q with
  | here => exact hw
  | look _ ih =>
    cases hasks with
    | look hnext => exact ih (hnext _ hw.memory) hw
  | store _ ih =>
    cases hasks with
    | store hm hnext => exact ih hnext ⟨hw.clock, hm, hw.vitals⟩
  | ask hr _ ih =>
    cases hasks with
    | ask hop hnext =>
      have hserved := (hw.twin.serve hs hh rounds depth hop).2
      rw [hr] at hserved
      exact ih (hnext _) hserved.composed

/-- The moment at which an instruction is executed is no different. -/
lemma Executes.composed {manual : Bool} {sid scope : Nat} {i : D.Instr} (hw : w.Composed R P)
    (he : w.Executes h rounds depth manual sid i scope v) : (v.executing sid i manual).Composed R P := by
  have hturned : w.turned.Composed R P := by
    have hvitals : w.turned.engine.vitals = w.engine.vitals := by simp [Engine.vitals]
    exact ⟨by simpa using hw.clock, by simpa using hw.memory, hvitals ▸ hw.vitals⟩
  have hserve {r : Request D} {w v} (hr : r.IsOperation) (hw : Twin R P 0 (·.Sound 0) w v) :=
    hw.serve hs hh rounds depth hr
  have hbreaks (i : D.Instr) {w v} (hw : Twin R P 0 (·.Sound 0) w v) := hw.runScript hserve (hh.breaks i)
  have hconsulted : Agree (Twin R P 0 (·.Sound 0))
      (consult h (fun s => runScript (serve h rounds depth) s) sid (w.engine.cursor sid) manual)
      (consult h (fun s => runScript (serve h rounds depth) s) sid (w.engine.cursor sid) manual)
      w.turned w.turned := by
    refine Twin.consult hturned.twin sid _ manual fun i _ _ hw => ?_
    exact hbreaks i hw
  have hleft := hconsulted.2
  rw [he.passes] at hleft
  exact ⟨hleft.clock, hleft.room, hleft.vitals⟩

omit hs hh in
lemma Comes.composed {manual : Bool} (hm : w.Comes m manual b) (hw : w.Composed R P) : b.Composed R P := by
  cases hm with
  | fired =>
    refine ⟨hw.clock, hw.memory, hw.vitals.late, nofun, fun ht => ?_, hw.vitals.started_iff⟩
    exact ⟨(hw.vitals.still ht).1, rfl⟩
  | byHand => exact hw

end

/-- Nothing is deferred while a run waits to be set going. -/
lemma Composed.pending (hw : w.Composed R P) (hrest : w.AtRest) : w.engine.pending = none := by
  rcases hp : w.engine.pending with _ | n
  · rfl
  · have hrun : w.engine.phase = .running := hw.vitals.settled (by simp [hp])
    rcases hrest with hrest | hrest <;> simp [hrun] at hrest

/-- What has happened since does not count against the tickets made by then. -/
lemma Composed.sound (hw : w.Composed R P) (hrest : w.AtRest) : w.engine.vitals.Sound w.engine.token where
  late := Nat.le_refl _
  settled := hw.vitals.settled
  still _ := ⟨by rcases hrest with hp | hp <;> simp [hp], hw.pending hrest⟩
  started_iff := hw.vitals.started_iff

lemma Awaits.atRest {r : Request D} (hr : w.Awaits r) : w.AtRest := by
  cases r with
  | start entry => exact .inl hr
  | resume => exact .inr hr
  | _ => exact hr.elim

lemma quietly_sought (w : World D) (h : Host D) (entry : Option D.Instr) : Quietly w (w.sought h entry) := by
  rcases sought_cases w h entry with hsought | ⟨text, hsought⟩ <;> rw [hsought]
  · rfl
  · rfl

section

variable (hs : h.scheduler.Indifferent R) (rounds depth : Nat)

include hs

/-- Whether a request sets the run going is up to the scheduler, unless there is nothing to run. -/
lemma Awaits.outcome (hw : w.Composed R P) {r : Request D} (hr : w.Awaits r) :
    (∃ entry f, r = .start entry ∧ w.root h entry = .error f ∧
      (serve h rounds (depth + 1) r).outcome w = (.error f, w.sought h entry)) ∨
    ∃ u x, Quietly w u ∧ (serve h rounds (depth + 1) r).outcome w = match u.deferred h.scheduler .zero with
      | (.error f, v) => (.error f, v)
      | (.ok (), _) => (.ok .self, x) := by
  have hlater := (hw.twin.postpones hs (fun t => discard (serve h rounds depth (.fire t)))
    fun t => discard (serve h rounds depth (.fire t))).1
  cases r with
  | start entry =>
    have hidle : w.engine.phase = .idle := hr
    have hfirst : w.engine.started = false := by
      rcases hyet : w.engine.started with _ | _
      · rfl
      · exact absurd hidle (hw.vitals.started_iff.1 hyet)
    have hserved : (serve h rounds (depth + 1) (.start entry)).outcome w =
        (start h (fun t => discard (serve h rounds depth (.fire t))) entry >>= fun _ =>
          pure Reply.self).outcome w := rfl
    rw [Act.outcome_bind, start_outcome h w _ entry hidle hlater, hfirst] at hserved
    rcases hroot : w.root h entry with f | ⟨cursor, contents⟩ <;> rw [hroot] at hserved
    · exact .inl ⟨entry, f, rfl, hroot, hserved⟩
    · refine .inr ⟨w.sought h entry, ((w.sought h entry).deferred h.scheduler .zero).2.begun h cursor contents,
        quietly_sought w h entry, ?_⟩
      rw [hserved]
      rcases (w.sought h entry).deferred h.scheduler .zero with ⟨f | _, v⟩ <;> rfl
  | resume =>
    have hpaused : w.engine.phase = .paused := hr
    have hstarted : w.engine.started = true := hw.vitals.started_iff.2 (by simp [hpaused])
    have hlive : w.engine.refusal "resume" = none := by simp [Engine.refusal, hstarted, hpaused]
    refine .inr ⟨w, (w.deferred h.scheduler .zero).2.entered .running "resume", rfl, ?_⟩
    change (resume h _ >>= fun _ => pure Reply.self).outcome w = _
    rw [Act.outcome_bind, resume_outcome h w _ hlater, hlive]
    simp only [hpaused, reduceCtorEq, if_false]
    rcases hd : w.deferred h.scheduler .zero with ⟨f | _, v⟩
    · rfl
    · have hstays : v.engine.phase = .paused := by
        rw [← hpaused, ← deferred_phase w h.scheduler .zero, hd]
      simp only [hstays, if_true]
      rfl
  | _ => exact hr.elim

/-- The scheduler's refusal leaves a token that has moved on, if nothing was deferred before. -/
lemma Composed.refused (hw : w.Composed R P) (hnone : w.engine.pending = none) (hu : Quietly w u) {f : Fault}
    (hd : u.deferred h.scheduler .zero = (.error f, v)) : Shifted R P 1 v w := by
  have hcomposed : u.Composed R P := by
    rw [hu]
    exact ⟨hw.clock, hw.memory, hw.vitals⟩
  have hclock : R v.clock v.clock := by
    rcases hcomposed.twin.deferred hs .zero with ⟨g, s, t, hs', ht, hst⟩ | ⟨s, t, hs', -, -⟩
    · cases hd.symm.trans hs'
      cases hd.symm.trans ht
      exact hst.clock
    · cases hd.symm.trans hs'
  obtain ⟨clock, rfl⟩ := refused_of_deferred hd
  have hengine : u.engine = w.engine := by rw [hu]
  refine ⟨?_, hclock, ?_, hw.memory, ?_, ?_, ?_, trivial⟩
  · rw [refused_engine, hengine]
    unfold Engine.disarmed Engine.ahead
    rw [← hnone]
  · rw [refused_memory, hu]
  · rw [hu]
    rfl
  · rw [hu]
    rfl
  · rw [refused_deeds, Deed.tell_push, hu]
    simp [Deed.outward?]

/-- A call that fails leaves no more than that. -/
lemma Awaits.fails (hw : w.Composed R P) {r : Request D} (hr : w.Awaits r) :
    (serve h rounds (depth + 1) r).OnFault w fun _ u => ∃ k, Shifted R P k u w := by
  unfold Act.OnFault Act.Ensures
  rcases hr.outcome hs rounds depth hw with ⟨entry, f, rfl, -, hout⟩ | ⟨u, x, hu, hout⟩ <;> rw [hout]
  · rintro _ ⟨⟩
    refine ⟨0, ?_⟩
    rw [quietly_sought w h entry]
    exact { hw.shifted with }
  · rcases hd : u.deferred h.scheduler .zero with ⟨f | _, v⟩
    · rintro _ ⟨⟩
      exact ⟨1, hw.refused hs (hw.pending hr.atRest) hu hd⟩
    · exact nofun

/-- When the scheduler refuses, the call fails. -/
lemma Awaits.refused (hw : w.Composed R P) {r : Request D} (hr : w.Awaits r) {t : Ticket} {f : Fault}
    (harm : (h.scheduler.arm w.clock .zero t).1 = .error f) :
    ∃ g, w.verdict h rounds depth (.operate r) = some g ∧
      (g = f ∨ ∃ entry, r = .start entry ∧ w.root h entry = .error g) := by
  have hverdict : w.verdict h rounds depth (.operate r) =
      Act.fault? ((serve h rounds (depth + 1) r).outcome w).1 := rfl
  rcases hr.outcome hs rounds depth hw with ⟨entry, g, rfl, hroot, hout⟩ | ⟨u, x, hu, hout⟩ <;>
    rw [hverdict, hout]
  · exact ⟨g, rfl, .inr ⟨entry, rfl, hroot⟩⟩
  · refine ⟨f, ?_, .inl rfl⟩
    have hclock : (u.disarmed h.scheduler).clock = w.clock := by
      rw [hu, disarmed_clock]
      change h.scheduler.recall w.clock w.engine.pending = w.clock
      rw [hw.pending hr.atRest]
      rfl
    have hanswer : (h.scheduler.arm w.clock .zero (u.disarmed h.scheduler).ticket).1 = .error f :=
      (hs.answer .zero _ t hw.clock).trans harm
    unfold World.deferred
    rw [hclock]
    rcases ha : h.scheduler.arm w.clock .zero (u.disarmed h.scheduler).ticket with ⟨r', c⟩
    rw [ha] at hanswer
    obtain rfl : r' = .error f := hanswer
    rfl

/-- Whatever happens to a run that is not set going, it shows no difference. -/
lemma Fruitless.leaves (hw : w.Composed R P) (hrest : w.AtRest) (hm : w.Fruitless h rounds depth R m) :
    ∃ k, Shifted R P k (w.after h rounds depth m) w := by
  have hsame : Shifted R P 0 w w := hw.shifted
  cases hm with
  | @call r f hr hf =>
    have hfails := hr.fails hs rounds depth hw
    have hverdict : Act.fault? ((serve h rounds (depth + 1) r).outcome w).1 = some f := hf
    unfold Act.OnFault Act.Ensures at hfails
    rcases hout : (serve h rounds (depth + 1) r).outcome w with ⟨g | _, u⟩ <;> rw [hout] at hfails hverdict
    · have hafter : w.after h rounds depth (.operate r) = u := congrArg Prod.snd hout
      rw [hafter]
      exact hfails g rfl
    · cases hverdict
  | stray t =>
    have hstill : w.engine.phase ≠ .running := by rcases hrest with hp | hp <;> simp [hp]
    have hdue : w.after h rounds depth (.fire t) = ((honour h (fun s => runScript (serve h rounds depth) s)
        (fun t => discard (serve h rounds depth (.fire t))) t >>= fun _ => pure Reply.nothing).outcome w).2 := rfl
    rw [hdue, Act.outcome_bind, honour_outcome]
    refine ⟨0, ?_⟩
    split_ifs with ht
    · rw [altered_unarmed (hw.pending hrest)]
      exact hsame
    · exact { hsame with }
  | drift hc => exact ⟨0, { hsame with clock := hc }⟩

omit hs in
lemma Shifted.trans {k' : Nat} (hu : Shifted R P k v u) (hw : Shifted R P k' u w) : Shifted R P (k' + k) v w where
  engine := by
    rw [hu.engine, hw.engine]
    simp [Engine.ahead, Nat.add_assoc]
  clock := hu.clock
  memory := hu.memory.trans hw.memory
  room := hw.room
  bus := hu.bus.trans hw.bus
  wall := hu.wall.trans hw.wall
  deeds := hu.deeds.trans hw.deeds
  vitals := trivial

omit hs in
/-- A run that shows no difference still waits to be set going. -/
lemma Shifted.waits (hu : Shifted R P k u w) (hw : w.Composed R P) (hrest : w.AtRest) :
    u.Composed R P ∧ u.AtRest := by
  have hphase : u.engine.phase = w.engine.phase := by rw [hu.engine]; rfl
  have hpending : u.engine.pending = none := by rw [hu.engine]; exact hw.pending hrest
  have hstarted : u.engine.started = w.engine.started := by rw [hu.engine]; rfl
  have hrest' : u.AtRest := by
    unfold AtRest
    rw [hphase]
    exact hrest
  refine ⟨⟨hu.clock, hu.memory ▸ hw.memory, Nat.zero_le _, fun hp => ?_, fun _ => ⟨?_, hpending⟩, ?_⟩,
    hrest'⟩
  · simp [hpending] at hp
  · rcases hrest' with hp | hp <;> simp [hp]
  · rw [Engine.vitals_started, Engine.vitals_phase, hstarted, hphase]
    exact hw.vitals.started_iff

lemma TurnedAway.leaves {calls : List (Move D)} (hw : w.Composed R P) (hrest : w.AtRest)
    (hcalls : w.TurnedAway h rounds depth R calls) :
    ∃ k, Shifted R P k (w.replay h rounds depth calls) w := by
  induction calls generalizing w with
  | nil => exact ⟨0, hw.shifted⟩
  | cons m calls ih =>
    obtain ⟨k, hk⟩ := hcalls.1.leaves hs rounds depth hw hrest
    obtain ⟨hcomposed, hwaits⟩ := Shifted.waits hk hw hrest
    obtain ⟨k', hk'⟩ := ih hcomposed hwaits hcalls.2
    exact ⟨k + k', Shifted.trans hk' hk⟩

end

/-- A start or a resumption that the scheduler refuses fails, and one that fails leaves no trace. If the scheduler
is none the wiser for having refused, what is done after any number of such calls comes out as if they had never been
asked for: the same is executed and told, event by event, and the engine ends up the same. -/
theorem refused_calls_leave_no_trace (hs : h.scheduler.Indifferent R)
    (hh : h.Asks P Request.IsOperation) (rounds depth : Nat) :
    (∀ w : World D, Fresh (fun c => R c c) P w → ∀ moves,
      Plays h rounds depth (fun c => R c c) w moves → (w.replay h rounds depth moves).Composed R P) ∧
    (∀ (w b v u : World D) (m : Move D) (manual : Bool) (sid : Nat) (i : D.Instr) (scope : Nat)
      (rest : Script D Unit), w.Composed R P → w.Comes m manual b →
      b.Executes h rounds depth manual sid i scope v →
      Reaches (serve h rounds depth) (h.code i scope) (v.executing sid i manual) rest u → u.Composed R P) ∧
    (∀ (w : World D) (r : Request D), w.Composed R P → w.Awaits r →
      (∀ t f, (h.scheduler.arm w.clock .zero t).1 = .error f →
        ∃ g, w.verdict h rounds depth (.operate r) = some g ∧
          (g = f ∨ ∃ entry, r = .start entry ∧ w.root h entry = .error g)) ∧
      ∀ g, w.verdict h rounds depth (.operate r) = some g →
        (w.after h rounds depth (.operate r)).Resembles w) ∧
    ∀ (w : World D) (calls rest rest' : List (Move D)), w.Composed R P → w.AtRest →
      w.TurnedAway h rounds depth R calls →
      let u := w.replay h rounds depth calls
      u.Resembles w ∧
      (R u.clock w.clock →
        List.Forall₂ (Move.Echoes R w.engine.token (u.engine.token - w.engine.token)) rest rest' →
        let x := u.replay h rounds depth rest
        let y := w.replay h rounds depth rest'
        x.Resembles y ∧ ∀ m m', m.Echoes R w.engine.token (u.engine.token - w.engine.token) m' →
          x.reply h rounds depth m = y.reply h rounds depth m') := by
  refine ⟨fun w hw moves hm => hw.composed.replay hs hh rounds depth hm, ?_, ?_, ?_⟩
  · intro w b v u m manual sid i scope rest hw hcomes he hreach
    have hmoment := he.composed hs hh rounds depth (hcomes.composed hw)
    exact hreach.composed hs hh rounds depth (hh.code i scope) hmoment
  · intro w r hw hr
    refine ⟨fun t f harm => hr.refused hs rounds depth hw harm, fun g hg => ?_⟩
    obtain ⟨k, hk⟩ := (Fruitless.call hr hg).leaves hs rounds depth hw hr.atRest
    exact hk.resembles
  · intro w calls rest rest' hw hrest hcalls u
    obtain ⟨k, hk⟩ := hcalls.leaves hs rounds depth hw hrest
    refine ⟨hk.resembles, fun hclock hechoes => ?_⟩
    have htoken : u.engine.token - w.engine.token = k := by
      have hahead : u.engine.token = w.engine.token + k := by
        rw [hk.engine]
        rfl
      omega
    have htwin : Twin R P k (·.Sound w.engine.token) u w := { hk with clock := hclock, vitals := hw.sound hrest }
    rw [htoken] at hechoes ⊢
    have hlater := htwin.replay hs hh rounds depth hechoes
    exact ⟨hlater.resembles, fun m m' hm => hlater.reply hs hh rounds depth hm⟩

/-- A run whose start is refused twice goes on, once it is taken, as if it had been taken at once. -/
theorem restless_refused_in_vain :
    let r := Block.restlessRun .refusing
    let w := r.world.replay r.host 1 5 [.drift { kind := .refusing, refusing := true }]
    let u := w.replay r.host 1 5 [.operate (.start none), .operate (.start none)]
    let x := u.replay r.host 1 5 [.drift { kind := .refusing }, .operate (.start none), .fire ⟨0, 3⟩]
    let y := w.replay r.host 1 5 [.drift { kind := .refusing }, .operate (.start none), .fire ⟨0, 1⟩]
    u.engine.token = 2 ∧ u.Resembles w ∧ x.Resembles y ∧ x.events = y.events ∧ x.attempts = [(0, 0)] := by
  intro r
  have hlevel (refusing : Bool) : Clockwork.Level { kind := .refusing, refusing } { kind := .refusing, refusing } :=
    ⟨rfl, nofun, rfl, rfl⟩
  have hfresh : Fresh (fun c => Clockwork.Level c c) Block.Memory.Calm r.world :=
    Block.restlessRun_fresh .refusing (hlevel false)
  have hasks : r.host.Asks Block.Memory.Calm Request.IsOperation :=
    Block.restless_asks .refusing trivial trivial trivial trivial
  obtain ⟨hcomposed, -, hcalls, hlater⟩ :=
    refused_calls_leave_no_trace (h := r.host) Clockwork.level_indifferent hasks 1 5
  have hfruitless {v : World Block.dialect} (hv : v.Composed Clockwork.Level Block.Memory.Calm)
      (hbarred : v.engine.phase = .idle ∧ v.clock.kind = .refusing ∧ v.clock.refusing = true) :
      v.Fruitless r.host 1 5 Clockwork.Level (.operate (.start none)) := by
    have harm : (r.host.scheduler.arm v.clock .zero v.ticket).1 = .error .schedulerUnavailable := by
      change (v.clock.arm .zero v.ticket).1 = _
      simp [Clockwork.arm, Clockwork.refusal, hbarred]
    obtain ⟨f, hf, -⟩ := (hcalls v (.start none) hv hbarred.1).1 _ _ harm
    exact .call hbarred.1 hf
  have hw := hcomposed r.world hfresh [.drift { kind := .refusing, refusing := true }] ⟨hlevel true, trivial⟩
  -- The worlds are named: what is to be computed of them is computed of the runs that lead there.
  dsimp only
  generalize hv : r.world.replay r.host 1 5 [.drift { kind := .refusing, refusing := true }] = w at hw ⊢
  generalize hu : w.replay r.host 1 5 [.operate (.start none), .operate (.start none)] = u
  have hidle : w.engine.token = 0 ∧ w.engine.phase = .idle ∧ w.clock.kind = .refusing ∧
      w.clock.refusing = true := by
    rw [← hv]
    decide +kernel
  obtain ⟨htoken, hbarred⟩ := hidle
  have hagain : (w.after r.host 1 5 (.operate (.start none))).engine.phase = .idle ∧
      (w.after r.host 1 5 (.operate (.start none))).clock.kind = .refusing ∧
      (w.after r.host 1 5 (.operate (.start none))).clock.refusing = true := by
    rw [← hv]
    decide +kernel
  have hcalled : w.TurnedAway r.host 1 5 Clockwork.Level [.operate (.start none), .operate (.start none)] := by
    have hafter := hw.after Clockwork.level_indifferent hasks 1 5 (m := .operate (.start none)) trivial
    exact ⟨hfruitless hw hbarred, hfruitless hafter hagain, trivial⟩
  obtain ⟨hsame, hgoes⟩ := hlater w _ [.drift { kind := .refusing }, .operate (.start none), .fire ⟨0, 3⟩]
    [.drift { kind := .refusing }, .operate (.start none), .fire ⟨0, 1⟩] hw (.inl hbarred.1) hcalled
  have hmoved : u.engine.token = 2 := by
    rw [← hu, ← hv]
    decide +kernel
  have hclock : Clockwork.Level u.clock w.clock := by
    have hclocks : w.clock.kind = u.clock.kind ∧ u.clock.kind ≠ .eager ∧
        w.clock.refusing = u.clock.refusing ∧ w.clock.agenda.calls.size = u.clock.agenda.calls.size := by
      rw [← hu, ← hv]
      decide +kernel
    exact ⟨hclocks.1, hclocks.2.1, hclocks.2.2.1, hclocks.2.2.2⟩
  rw [hu] at hsame hgoes
  rw [hmoved, htoken] at hgoes
  obtain ⟨halike, -⟩ := hgoes hclock
    (.cons (.drift (hlevel false)) (.cons (.operate trivial) (.cons (.fire _) .nil)))
  refine ⟨hmoved, hsame, halike, halike.tell fun _ _ => rfl, ?_⟩
  rw [← hu, ← hv]
  decide +kernel

end World
end Loom
