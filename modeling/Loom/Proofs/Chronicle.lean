import Mathlib.Data.List.DropRight
import Loom.Proofs.Delivery
import Loom.Proofs.StepTally

/-! The record of a run. Events are numbered in the order in which they are told, the history holds the last
of them, as many as it has room for, and the result of a step holds those that were told since the step
began. If instructions bring about no steps, the result also counts what the step added to the total. -/
namespace Loom

namespace Event

/-- Events numbered one after the other. -/
def Numbered (first : Nat) (es : List Event) : Prop := es.map (·.seq) = List.range' first es.length

lemma Numbered.concat {first : Nat} {es : List Event} {e : Event} (h : Numbered first es)
    (he : e.seq = first + es.length) : Numbered first (es ++ [e]) := by
  unfold Numbered at h ⊢
  rw [List.map_append, h, List.length_append, List.length_singleton, List.range'_concat]
  simp [he]

lemma Numbered.drop {first : Nat} {es : List Event} (h : Numbered first es) (n : Nat) :
    Numbered (first + n) (es.drop n) := by
  unfold Numbered at h ⊢
  rw [List.map_drop, h, List.length_drop, List.drop_range', Nat.mul_one]

/-- The events from a number on are those that remain after the ones before it. -/
lemma Numbered.from {first : Nat} {es : List Event} (h : Numbered first es) (mark : Nat) :
    es.filter (mark ≤ ·.seq) = es.drop (mark - first) := by
  induction es generalizing first with
  | nil => simp
  | cons e es ih =>
    have hseq : e.seq = first := congrArg (·.headI) h
    have hnumbered : Numbered (first + 1) es := h.drop 1
    have hrest := ih hnumbered
    by_cases hmark : mark ≤ first
    · have hzero : mark - first = 0 := by omega
      have hzero' : mark - (first + 1) = 0 := by omega
      rw [hzero', List.drop_zero] at hrest
      rw [hzero, List.drop_zero, List.filter_cons_of_pos (by simpa [hseq] using hmark), hrest]
    · have hsucc : mark - first = mark - (first + 1) + 1 := by omega
      rw [hsucc, List.drop_succ_cons, List.filter_cons_of_neg (by simpa [hseq] using hmark), hrest]

/-- Of the last events, those from a number on are the last of those from that number on. -/
lemma Numbered.rtake_from {es : List Event} (h : Numbered 1 es) (size k : Nat) :
    (es.rtake size).filter (k + 1 ≤ ·.seq) = (es.drop k).rtake size := by
  unfold List.rtake
  rw [(h.drop (es.length - size)).from (k + 1), List.drop_drop, List.drop_drop, List.length_drop]
  congr 1
  omega

end Event

namespace Engine

variable {D : Dialect}

/-- Remembering one more of the last events leaves the last events. -/
lemma remember_rtake {e : Engine D} {es : List Event} (h : e.history = es.rtake e.historySize)
    (event : Event) : (e.remember event).history = (es ++ [event]).rtake e.historySize := by
  unfold remember
  dsimp only
  rw [h]
  unfold List.rtake
  rw [← List.drop_append_of_le_length (Nat.sub_le _ _), List.drop_drop, List.length_drop]
  congr 1
  simp only [List.length_append, List.length_singleton]
  omega

lemma Shift.record {p : Request D → Prop} {steps : Prop} {e e' : Engine D} (h : e.Shift p steps e') :
    e'.nextSeq = e.nextSeq ∧ e'.history = e.history ∧ e'.historySize = e.historySize := by
  cases h with
  | winding _ h => cases h <;> exact ⟨rfl, rfl, rfl⟩
  | _ => exact ⟨rfl, rfl, rfl⟩

end Engine

/-- The result of a step, if that is the answer. -/
def Reply.stepped? : Reply → Option StepResult
  | stepped r => some r
  | _ => none

lemma Reply.eq_stepped {out : Except Fault Reply × σ} {f : StepResult → α} {x : α}
    (h : (out.1.toOption.bind stepped?).map f = some x) :
    ∃ r s, out = (.ok (.stepped r), s) ∧ f r = x := by
  rcases out with ⟨f | reply, s⟩
  · cases h
  · cases reply with
    | stepped r => exact ⟨r, s, rfl, Option.some.inj h⟩
    | _ => cases h

namespace World

variable {D : Dialect}

open Act (Abides Kept)

/-- The events are numbered from one on, and the history has kept the last of them. -/
structure Chronicled (size : Nat) (w : World D) : Prop where
  numbered : Event.Numbered 1 w.events
  next : w.engine.nextSeq = w.events.length + 1
  room : w.engine.historySize = size
  history : w.engine.history = w.events.rtake size

variable {size : Nat} {w v : World D}

lemma Chronicled.of_same (hw : w.Chronicled size) (hevents : v.events = w.events)
    (hrecord : v.engine.nextSeq = w.engine.nextSeq ∧ v.engine.history = w.engine.history ∧
      v.engine.historySize = w.engine.historySize) : v.Chronicled size := by
  obtain ⟨hnext, hhistory, hroom⟩ := hrecord
  constructor
  · rw [hevents]
    exact hw.numbered
  · rw [hnext, hevents, hw.next]
  · rw [hroom, hw.room]
  · rw [hhistory, hevents, hw.history]

lemma Chronicled.recorded (hw : w.Chronicled size) {d : Deed D} (hd : d.happening? = none) :
    (w.recorded d).Chronicled size :=
  hw.of_same (events_recorded w hd) ⟨rfl, rfl, rfl⟩

lemma Chronicled.emitted (hw : w.Chronicled size) (what : Happening) :
    (w.emitted what).Chronicled size := by
  have hevents : (w.emitted what).events = w.events ++ [w.event what] := by simp [Deed.event?]
  have hseq : (w.event what).seq = 1 + w.events.length := by
    rw [Nat.add_comm]
    exact hw.next
  constructor
  · rw [hevents]
    exact hw.numbered.concat hseq
  · rw [hevents, List.length_append, List.length_singleton, ← hw.next]
    rfl
  · exact hw.room
  · have hhistory := hw.history
    rw [← hw.room] at hhistory ⊢
    rw [hevents]
    exact Engine.remember_rtake hhistory (w.event what)

lemma Chronicled.completed (hw : w.Chronicled size) (sid : Nat) (i : D.Instr) :
    (w.completed sid i).Chronicled size := by
  have hstepped : (w.altered (·.stepped sid)).Chronicled size := hw.of_same rfl ⟨rfl, rfl, rfl⟩
  exact hstepped.recorded rfl

lemma Chronicled.followed (hw : w.Chronicled size) (h : Host D) (sid : Nat) (i : D.Instr) :
    (w.followed h sid i).2.Chronicled size :=
  followed_keeps h sid i (fun _ => hw.of_same rfl ⟨rfl, rfl, rfl⟩) hw

lemma chronicled_easy (h : Host D) (size : Nat) : Easy h (fun _ => True) (Chronicled size) where
  noted _ _ _ hw := hw.of_same rfl ⟨rfl, rfl, rfl⟩
  told _ hw := hw.emitted _
  disarmed hw := hw.of_same (by simp only [events, disarmed_deeds]) ⟨rfl, rfl, rfl⟩
  deferred delay t hw := (hw.recorded (d := .deferred t _) rfl).of_same rfl ⟨rfl, rfl, rfl⟩
  aside hf hw := hw.of_same rfl ⟨hf.nextSeq, hf.history, hf.historySize⟩
  peopled _ _ hw := hw.of_same rfl ⟨rfl, rfl, rfl⟩
  memory _ := trivial
  stored hw _ := hw.of_same rfl ⟨rfl, rfl, rfl⟩
  announced _ _ _ hw := hw.emitted _
  popped _ hw := hw.of_same rfl ⟨rfl, rfl, rfl⟩
  refused _ hw := hw.of_same rfl ⟨rfl, rfl, rfl⟩
  delivered _ hw := hw.of_same rfl ⟨rfl, rfl, rfl⟩

/-- Whatever is asked for, by whom and how deep, the record is kept. -/
lemma serve_chronicled (h : Host D) (rounds depth : Nat) (r : Request D) :
    Abides (Chronicled size) (Fault.Passes False) (serve h rounds depth r) := by
  have heasy : Easy h (fun _ => True) (Chronicled size) := chronicled_easy h size
  have hpractice : Practice h (fun _ => True) True True False (Chronicled size) :=
    heasy.practice (fun hf hw => hw.of_same rfl hf.record) h.asks_anything trivial fun sid manual hserve =>
      advance_abides (J := fun _ _ => Chronicled size) (fun _ _ hw => hw.recorded rfl)
        (fun _ i scope => heasy.runScript hserve (h.asks_anything.code i scope)) id
        (fun _ hw => (hw.completed _ _).followed h _ _) sid sid manual
  exact (hpractice.serve rounds depth).1 r trivial

lemma chronicled_of_make {run : Nat} {s : Settings} (hmake : Engine.make run s = .ok w.engine)
    (hw : w.deeds = #[]) : w.Chronicled s.historySize := by
  constructor <;> simp [hw, Engine.eq_of_make hmake, Event.Numbered, List.rtake]

lemma replay_chronicled (h : Host D) (rounds depth : Nat) (hw : w.Chronicled size) (moves : List (Move D)) :
    (w.replay h rounds depth moves).Chronicled size :=
  replay_keeps rounds depth (serve_chronicled h rounds (depth + 1))
    (fun _ _ _ hv => hv.of_same rfl ⟨rfl, rfl, rfl⟩) hw

/-- The record is kept also at every moment of a script. -/
lemma Reaches.chronicled {h : Host D} {rounds depth : Nat} {s s' : Script D α}
    (hs : Reaches (serve h rounds depth) s w s' v) (hw : w.Chronicled size) : v.Chronicled size :=
  hs.keeps (fun _ _ hu => hu.of_same rfl ⟨rfl, rfl, rfl⟩)
    (fun r u hu => (serve_chronicled h rounds depth r u hu).mono fun _ _ ht => ht.state) hw

section Results

/-- A computation whose result shows the state that it leaves and the events from `mark` on. -/
def Reports (mark : Nat) (a : Act (World D) StepResult) : Prop :=
  ∀ w, a.Ensures w fun o v => ∀ r, o = .ok r →
    r.phase = v.engine.phase ∧ r.events = v.engine.since mark

lemma Reports.bind {mark : Nat} {a : Act (World D) α} {f : α → Act (World D) StepResult}
    (hf : ∀ x, Reports mark (f x)) : Reports mark (a >>= f) := fun _ =>
  Act.Ensures.bind (P := fun _ _ => True) trivial (fun x t _ => hf x t) fun _ _ _ => nofun

lemma Reports.get_bind {mark : Nat} {f : World D → Act (World D) StepResult}
    (hf : ∀ w, Reports mark (f w)) : Reports mark (get >>= f) := .bind hf

lemma Reports.throw (mark : Nat) (f : Fault) : Reports (D := D) mark (MonadExcept.throw f) := fun _ => nofun

lemma reports_result (mark executed : Nat) (strand : Option Nat) (hasNext : Bool) :
    Reports (D := D) mark (result mark executed strand hasNext) := by
  rintro w r ⟨⟩
  exact ⟨rfl, rfl⟩

variable (h : Host D) (run : {α : Type} → Script D α → Act (World D) α) (fire : Ticket → Act (World D) Unit)

lemma reports_stop (mark sid : Nat) (i : D.Instr) : Reports mark (stop h mark sid i) :=
  .bind fun _ => .bind fun _ => .bind fun _ => .bind fun _ => .bind fun _ => reports_result mark 0 _ _

lemma reports_conclude (mark sid : Nat) (cursor : Option D.Instr) (hasNext manual : Bool) :
    Reports mark (conclude h fire mark sid cursor hasNext manual) := by
  intro w
  unfold Act.Ensures
  rw [conclude_announced]
  have hend : Reports (D := D) mark (result mark 1 (some sid) hasNext) := reports_result mark 1 _ _
  split_ifs
  · exact Reports.bind (fun _ => .bind fun _ => hend) _
  · exact Reports.bind (fun _ => hend) _
  · exact hend _

lemma reports_proceed (mark sid : Nat) (cursor : Option D.Instr) (manual : Bool) :
    Reports mark (proceed h run fire mark sid cursor manual) := by
  refine .bind fun _ => .bind fun _ => .bind fun _ => .bind fun o => ?_
  cases o with
  | ok hasNext => exact .bind fun _ => reports_conclude h fire mark sid cursor hasNext manual
  | error f =>
    have hend (cleaned : Except Fault Unit) : Reports (D := D) mark (do
        modifyEngine fun e => { e with stepping := false }
        Act.ofExcept cleaned
        throw f) := .bind fun _ => .bind fun _ => .throw mark f
    dsimp only
    split_ifs
    · exact .bind hend
    · exact .bind hend

/-- The result of a step shows the state after it and the events from its beginning on. -/
lemma executeStep_reports (manual : Bool) (w : World D) :
    (executeStep h run fire manual).Ensures w fun o v => ∀ r, o = .ok r →
      r.phase = v.engine.phase ∧ r.events = v.engine.since w.engine.nextSeq := by
  have hend : Reports w.engine.nextSeq (do
      halt h.scheduler
      result w.engine.nextSeq 0 none false) := .bind fun _ => reports_result _ 0 _ _
  exact executeStep_asks (A := fun _ _ => True) (fun _ => hend w) trivial (fun _ _ _ => nofun)
    (fun i v _ _ => reports_stop h _ _ i v) fun _ v _ _ => reports_proceed h run fire _ _ _ manual v

/-- The result of a step taken by hand shows the state after it and the last of the events since it began. -/
lemma step_reports (hw : w.Chronicled size) {r : StepResult}
    (hout : (step h run fire).outcome w = (.ok r, v)) (hv : v.Chronicled size) :
    r.phase = v.engine.phase ∧ r.events = (v.events.drop w.events.length).rtake size := by
  have hshown : r.phase = v.engine.phase ∧ r.events = v.engine.since w.engine.nextSeq := by
    have hstep : (step h run fire).Ensures w fun o x =>
        ∀ r, o = .ok r → r.phase = x.engine.phase ∧ r.events = x.engine.since w.engine.nextSeq := by
      refine step_ensures (fun _ _ => nofun) (fun _ r hr => ?_) fun _ _ =>
        executeStep_reports h run fire true w
      cases hr
      exact ⟨rfl, rfl⟩
    rw [Act.Ensures, hout] at hstep
    exact hstep r rfl
  refine ⟨hshown.1, ?_⟩
  rw [hshown.2, hw.next, Engine.since, hv.history]
  exact hv.numbered.rtake_from size _

end Results

section Counting

/-- A world with a given count of steps, a fit scheduler and a memory with `P`. -/
def Counts (fit : D.Clock → Prop) (P : D.Memory → Prop) (n : Nat) (w : World D) : Prop :=
  (w.engine.totalSteps = n ∧ P w.memory) ∧ fit w.clock

/-- The result of a step tells what was added to a count of `n`. -/
def Accounts (n : Nat) (o : Except Fault StepResult) (v : World D) : Prop :=
  ∀ r, o = .ok r → v.engine.totalSteps = n + r.executed

variable {h : Host D} {fit : D.Clock → Prop} {P : D.Memory → Prop} {n : Nat} (hh : h.Patient fit P)

include hh

/-- A step taken by hand adds to the total what its result says. -/
lemma step_counted (rounds depth : Nat) (fire : Ticket → Act (World D) Unit) (hw : w.Counts fit P n) :
    (step h (runScript (serve h rounds depth)) fire).Ensures w (Accounts n) := by
  obtain ⟨⟨rfl, hm⟩, hc⟩ := hw
  refine ((counts_exactly hh rounds depth w).step ⟨⟨⟨rfl, rfl⟩, hm⟩, hc⟩ fire).mono ?_
  rintro _ v hv r rfl
  exact hv.1.1.1.total

/-- A fit scheduler and a memory with `P` stay so in the course of a run. -/
lemma replay_fits (rounds depth : Nat) {moves : List (Move D)}
    (hdrift : ∀ clock, .drift clock ∈ moves → fit clock) (hw : P w.memory ∧ fit w.clock) :
    P (w.replay h rounds depth moves).memory ∧ fit (w.replay h rounds depth moves).clock := by
  exact replay_keeps rounds depth (serve_fits hh.scheduler hh.asks rounds (depth + 1))
    (fun clock hclock v hv => ⟨hv.1, hdrift clock hclock⟩) hw

end Counting

/-- The record of a run, between requests and at every moment of a script: the events are numbered from one
on, and the history holds the last of them, as many as fit. What is shown of it on request is its last part,
and the result of a step shows the state after the step and the last of the events that were told since it
began. On top of that it counts what was added to the total, if instructions bring about no steps. -/
theorem record_is_kept (h : Host D) (rounds depth : Nat) :
    (∀ (run : Nat) (s : Settings) (w : World D), Engine.make run s = .ok w.engine → w.deeds = #[] →
      ∀ moves, (w.replay h rounds depth moves).Chronicled s.historySize) ∧
    (∀ (α : Type) (s rest : Script D α) (size : Nat) (w v : World D), w.Chronicled size →
      Reaches (serve h rounds depth) s w rest v → v.Chronicled size) ∧
    (∀ (w : World D) (limit : Option Int), (serve h rounds (depth + 1) (.events limit)).outcome w =
      (.ok (.events (match limit with
        | some n => if 0 < n then w.engine.history.rtake n.toNat else w.engine.history
        | none => w.engine.history)), w)) ∧
    (∀ (size : Nat) (w v : World D) (r : StepResult), w.Chronicled size →
      (serve h rounds (depth + 1) .step).outcome w = (.ok (.stepped r), v) →
      w.events <+: v.events ∧ r.events = (v.events.drop w.events.length).rtake size ∧
        r.phase = v.engine.phase) ∧
    ∀ (fit : D.Clock → Prop) (P : D.Memory → Prop) (w : World D),
      h.Patient fit P → P w.memory → fit w.clock →
      ∀ moves, (∀ clock, .drift clock ∈ moves → fit clock) → ∀ (u : World D) (r : StepResult),
      (serve h rounds (depth + 1) .step).outcome (w.replay h rounds depth moves) = (.ok (.stepped r), u) →
      u.engine.totalSteps = (w.replay h rounds depth moves).engine.totalSteps + r.executed := by
  -- The answer to the request for a step is the result of the step.
  have hanswer {w v : World D} {r : StepResult}
      (hout : (serve h rounds (depth + 1) .step).outcome w = (.ok (.stepped r), v)) :
      (step h (runScript (serve h rounds depth)) fun t => discard (serve h rounds depth (.fire t))).outcome w =
        (.ok r, v) := by
    unfold serve perform at hout
    dsimp only at hout
    rw [Act.outcome_bind] at hout
    rcases hstep : (step h (runScript (serve h rounds depth)) fun t =>
      discard (serve h rounds depth (.fire t))).outcome w with ⟨f | r', v'⟩ <;> rw [hstep] at hout <;> cases hout
    rfl
  refine ⟨fun _ _ w hmake hdeeds moves => replay_chronicled h rounds depth (chronicled_of_make hmake hdeeds) moves,
    fun _ _ _ _ _ _ hw hs => hs.chronicled hw, fun w limit => ?_, fun size w v r hw hout => ?_, ?_⟩
  · cases limit with
    | none => rfl
    | some n =>
      have hrecent : w.engine.recent (some n) =
          if 0 < n then w.engine.history.rtake n.toNat else w.engine.history := by
        unfold Engine.recent List.rtake
        by_cases hn : 0 < n
        · rw [if_pos hn]
          exact if_neg (by omega)
        · rw [if_neg hn]
          exact if_pos (by omega)
      exact congrArg (fun es => (Except.ok (Reply.events es), w)) hrecent
  · have hserved := serve_chronicled h rounds (depth + 1) .step w hw
    rw [Act.Ensures, hout] at hserved
    have hgrows : w.Continues v := by
      have hadds := serve_adds h rounds (depth + 1) .step w
      rwa [hout] at hadds
    obtain ⟨hphase, hevents⟩ := step_reports h _ _ hw (hanswer hout) hserved.state
    exact ⟨hgrows.filterMap _, hevents, hphase⟩
  · intro fit P w hh hmemory hclock moves hdrift u r hout
    have hfits := replay_fits hh rounds depth hdrift ⟨hmemory, hclock⟩
    have hstep := step_counted hh rounds depth (fun t => discard (serve h rounds depth (.fire t)))
      (w := w.replay h rounds depth moves) ⟨⟨rfl, hfits.1⟩, hfits.2⟩
    rw [Act.Ensures, hanswer hout] at hstep
    exact hstep r rfl

end World

namespace Block

/-- The restless blocks with room for two events. -/
def forgetfulRun : Run :=
  { restlessRun .keeping with world.engine.historySize := 2 }

lemma forgetful_patient : forgetfulRun.host.Patient (fun c => c.kind ≠ .eager) Memory.Calm where
  scheduler := clockwork_stays
  code := (restless_asks .keeping id id id id).code
  farewell := (restless_asks .keeping id id id id).farewell
  breaks := (restless_asks .keeping trivial trivial trivial trivial).breaks
  install := install_calm

/-- Two blocks in a row; the first one, the first time, resumes its run and lets the scheduler go on in the
middle of itself. -/
def meddling : Program where
  nodes := #[{
      id := "meddle"
      name := .str "meddle"
      actions := [.whenBelow "k" 1 [.call .resume, .call .runNext]] },
    { id := "rest", name := .str "rest" }]
  links := #[some 1, none]
  entry := .program (some 0) []

def meddlingRun : Run where
  program := meddling
  scope := []
  world := {
    engine := { breaking := false, rate := .zero, timeSlice := 1, historySize := 1024 }
    clock := { kind := .manual }
    memory := { links := meddling.links, firstLinks := meddling.links } }

lemma meddlingRun_prepared : Run.prepare meddling {} .manual none none .zero = .ok meddlingRun := rfl

end Block

namespace World

/-- A block that resumes its run in the middle of a step: three events were told before the step and two
in the course of it, and there is room for just those. -/
theorem forgetful_record :
    let r := Block.forgetfulRun
    let v := r.world.replay r.host 1 5 [.operate (.start none), .operate .pause]
    v.Chronicled 2 ∧ v.events.length = 3 ∧
      ∃ u s, (serve r.host 1 6 .step).outcome v = (.ok (.stepped s), u) ∧ s.executed = 1 ∧
        s.events = (u.events.drop 3).rtake 2 ∧ s.events.map (·.seq) = [4, 5] ∧
        s.phase = u.engine.phase ∧ u.engine.totalSteps = v.engine.totalSteps + 1 := by
  intro r v
  obtain ⟨hkept, -, -, hresult, hcount⟩ := record_is_kept r.host 1 5
  have hv : v.Chronicled 2 := hkept 0 { historySize := 2 } r.world rfl rfl _
  have hlength : v.events.length = 3 := by decide +kernel
  have hstep : (((serve r.host 1 6 .step).outcome v).1.toOption.bind Reply.stepped?).map
      (fun s => (s.executed, s.events.map (·.seq))) = some (1, [4, 5]) := by decide +kernel
  obtain ⟨s, u, hout, hshown⟩ := Reply.eq_stepped hstep
  obtain ⟨hexecuted, hseqs⟩ := Prod.mk.inj hshown
  obtain ⟨-, hevents, hphase⟩ := hresult 2 v u s hv hout
  have htotal := hcount (fun c => c.kind ≠ .eager) Block.Memory.Calm r.world Block.forgetful_patient
    nofun nofun [.operate (.start none), .operate .pause] (by simp) u s hout
  rw [hexecuted] at htotal
  exact ⟨hv, hlength, u, s, hout, hexecuted, hlength ▸ hevents, hseqs, hphase, htotal⟩

/-- A step in the middle of which the scheduler goes on: the instruction is executed twice, the total grows by
two, and the result tells of one. -/
theorem meddling_counts_short :
    let r := Block.meddlingRun
    let v := r.world.replay r.host 1 5 [.operate (.start none), .operate .pause]
    let o := (serve r.host 1 6 .step).outcome v
    Block.Run.prepare Block.meddling {} .manual none none .zero = .ok r ∧
      (o.1.toOption.bind Reply.stepped?).map (·.executed) = some 1 ∧
      v.engine.totalSteps = 0 ∧ o.2.engine.totalSteps = 2 ∧ o.2.attempts = [(0, 0), (0, 0)] := by
  refine ⟨Block.meddlingRun_prepared, ?_⟩
  decide +kernel

end World
end Loom
