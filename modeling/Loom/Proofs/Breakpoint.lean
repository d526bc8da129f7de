import Loom.Proofs.Finality
import Loom.Proofs.Integrity
import Loom.Proofs.Practice

/-! Breakpoints. A stop before an instruction is made once: what is executed next, whoever goes on and in
whichever way, is that instruction on that strand, and no second stop comes before. And no step of the
scheduler's executes an instruction that is marked without having stopped before it. -/
namespace Loom

/-- What is seen of a run through its breakpoints: the stops before instructions, which tell their labels,
and the instructions that begin. -/
inductive Mark (D : Dialect) where
  | stop (sid : Nat) (label : String)
  | start (sid : Nat) (i : D.Instr)
  deriving DecidableEq

/-- The stop that an event tells of. -/
def Happening.mark? : Happening → Option (Mark D)
  | stopped sid label => some (.stop sid label)
  | _ => none

def Deed.mark? : Deed D → Option (Mark D)
  | emitted e => e.what.mark?
  | began sid i _ _ => some (.start sid i)
  | _ => none

/-- The answer of a script that asks for nothing, and the memory it leaves. -/
def Script.answer : Script D α → D.Memory → Option (α × D.Memory)
  | done a, m => some (a, m)
  | look next, m => (next m).answer m
  | store m next, _ => next.answer m
  | _, _ => none

/-- The test for a stop before an instruction says yes. -/
def Host.Flags (h : Host D) (m : D.Memory) (i : D.Instr) : Prop :=
  ∃ m', (h.breaks i).answer m = some (true, m')

/-- What the code of a program may do on memories with `P`: instructions ask for operations other than a
step, the test for a stop returns and asks for nothing, a farewell asks for operations, and `P` is kept
throughout. How they fail is up to them. -/
structure Host.Mannered (h : Host D) (P : D.Memory → Prop) : Prop where
  code : ∀ i scope, (h.code i scope).Asks P Request.IsInner
  breaks : ∀ i, (h.breaks i).Quiet P
  farewell : ∀ f, (h.farewell f).Asks P Request.IsOperation
  install : ∀ {m} n contents, P m → P (h.install m n contents)

lemma Host.Tame.mannered {h : Host D} {P : D.Memory → Prop} (hh : h.Tame P) : h.Mannered P where
  code i scope := (hh.code i scope).mono fun _ _ => trivial
  breaks := hh.breaks
  farewell := hh.farewell
  install := hh.install

lemma Host.Mannered.asks {h : Host D} {P : D.Memory → Prop} (hh : h.Mannered P) :
    h.Asks P fun _ => True where
  code i scope := (hh.code i scope).weaken (fun _ _ => trivial) fun _ => id
  breaks i := (hh.breaks i).weaken (fun _ => False.elim) fun _ => False.elim
  farewell f := (hh.farewell f).weaken (fun _ _ => trivial) fun _ => id
  install := hh.install

lemma Script.Quiet.answers {P : D.Memory → Prop} {s : Script D α} (hs : s.Quiet P) {m : D.Memory}
    (hm : P m) : ∃ a m', P m' ∧ s.answer m = some (a, m') := by
  unfold Quiet at hs
  generalize hq : (fun _ : Fault => False) = q at hs
  induction hs generalizing m with
  | done a => exact ⟨a, m, hm, rfl⟩
  | fail hf =>
    subst hq
    exact hf.elim
  | look _ ih => exact ih m hm hm hq
  | store hm' _ ih => exact ih hm' hq
  | ask hp => exact hp.elim

lemma Happening.IsRemark.mark? {what : Happening} (h : what.IsRemark) : (what.mark? : Option (Mark D)) = none := by
  cases what <;> first | rfl | exact h.elim

lemma Happening.IsRemark.isEnding {what : Happening} (h : what.IsRemark) : what.isEnding = false := by
  cases what <;> first | rfl | exact h.elim

/-- The strand at the turn stands at an instruction and has its turn still before it. -/
structure Engine.Parked (e : Engine D) (sid : Nat) (i : D.Instr) : Prop where
  begun : e.phase ≠ .idle
  slice : (e.sliceUsed : Int) < e.timeSlice
  turn : e.live[e.index]? = some sid
  cursor : e.cursor sid = some i

/-- The turn is not taken on: more strands may come into play behind it. -/
structure Engine.KeepsTurn (e e' : Engine D) : Prop where
  timeSlice : e'.timeSlice = e.timeSlice
  sliceUsed : e'.sliceUsed = e.sliceUsed
  skip : e'.skip = e.skip
  index : e'.index = e.index
  live : e.live <+: e'.live
  cursor : ∀ sid i, e.cursor sid = some i → e'.cursor sid = some i

namespace Engine

variable {D : Dialect} {e e' : Engine D}

lemma KeepsTurn.of_eq (h : (e'.timeSlice, e'.sliceUsed, e'.skip, e'.index, e'.live, e'.strands) =
    (e.timeSlice, e.sliceUsed, e.skip, e.index, e.live, e.strands)) : e.KeepsTurn e' := by
  simp only [Prod.mk.injEq] at h
  obtain ⟨htime, hused, hskip, hindex, hlive, hstrands⟩ := h
  refine ⟨htime, hused, hskip, hindex, hlive ▸ List.prefix_refl _, fun sid i => ?_⟩
  unfold Engine.cursor strand?
  rw [hstrands]
  exact id

lemma Parked.keeps {sid : Nat} {i : D.Instr} (he : e.Parked sid i) (h : e.KeepsTurn e')
    (hphase : e'.phase ≠ .idle) : e'.Parked sid i := by
  obtain ⟨more, hmore⟩ := h.live
  obtain ⟨hlt, -⟩ := List.getElem?_eq_some_iff.1 he.turn
  refine ⟨hphase, by rw [h.timeSlice, h.sliceUsed]; exact he.slice, ?_, h.cursor sid i he.cursor⟩
  rw [h.index, ← hmore, List.getElem?_append_left hlt]
  exact he.turn

/-- While its turn lasts, a strand keeps it. -/
lemma Parked.turned {sid : Nat} {i : D.Instr} (he : e.Parked sid i) :
    e.KeepsTurn e.turned ∧ e.turned.atTurn = sid := by
  obtain ⟨hlt, -⟩ := List.getElem?_eq_some_iff.1 he.turn
  have hslice : ¬ e.timeSlice ≤ e.sliceUsed := Int.not_le.2 he.slice
  have hindex : e.turned.index = e.index := by
    simp [Engine.turned, hslice, Engine.seat, Nat.not_le.2 hlt]
  refine ⟨⟨rfl, by simp [hslice], rfl, hindex, List.prefix_refl _, fun _ _ => id⟩, ?_⟩
  have hturn := World.turned_turn (List.ne_nil_of_mem (List.mem_of_getElem? he.turn))
  rw [hindex, he.turn] at hturn
  exact (Option.some.inj hturn).symm

end Engine

/-! A block that is marked and leads back to itself while a count is below a bound. -/
namespace Block

def looping : Program where
  nodes := #[{
    id := "spin"
    name := .str "spin"
    breakpoint := .bool true
    actions := [.loop "round" 2 (some 0)] }]
  links := #[none]
  entry := .program (some 0) []

lemma looping_orderly {q : Fault → Prop} : looping.IsOrderly q := by
  intro n hn
  simp only [looping, List.mem_toArray, List.mem_singleton] at hn
  subst hn
  exact ⟨⟨trivial, trivial⟩, nofun⟩

def loopingRun : Run where
  program := looping
  scope := []
  world := {
    engine := { breaking := true, rate := .zero, timeSlice := 1, historySize := 1024 }
    clock := { kind := .keeping }
    memory := { links := looping.links, firstLinks := looping.links } }

lemma loopingRun_prepared :
    Run.prepare looping { breakpoints := .bool true } .keeping none none .zero = .ok loopingRun := rfl

end Block

namespace World

variable {D : Dialect}

open Act (Abides Kept)

@[simp] def marks (w : World D) : List (Mark D) := Deed.tell Deed.mark? w.deeds

lemma marks_emitted (w : World D) (what : Happening) :
    (w.emitted what).marks = w.marks ++ what.mark?.toList := by
  simp [Deed.mark?, event]

/-- What a script answers that asks for nothing, it answers in every world with this memory. -/
lemma runScript_answer (serve : Request D → Act (World D) Reply) {s : Script D α} {a : α} {m : D.Memory}
    {w : World D} (hs : s.answer w.memory = some (a, m)) :
    (runScript serve s).outcome w = (.ok a, w.withMemory m) := by
  induction s generalizing w with
  | done b =>
    cases hs
    rfl
  | look next ih => exact ih w.memory hs
  | store m' next ih => exact ih (w := w.withMemory m') hs
  | fail f => cases hs
  | ask r next => cases hs

@[simp] lemma roster_deferred (w : World D) (s : Scheduler D.Clock) (delay : Binary64) :
    (w.deferred s delay).2.roster = w.roster := by
  unfold deferred
  split <;> simp [roster, Deed.happening?]

/-- What the host announces leaves no mark. -/
lemma Lingers.marks {tells : Prop} {w v : World D} (hv : Lingers tells w v) : v.marks = w.marks := by
  obtain ⟨told, hdeeds, hown, -⟩ := hv.deeds
  have hnone : (told.map Deed.emitted).filterMap (Deed.mark? (D := D)) = [] := by
    refine List.filterMap_eq_nil_iff.2 fun d hd => ?_
    obtain ⟨e, he, rfl⟩ := List.mem_map.1 hd
    have hnot := hown e he
    change e.what.mark? = none
    revert hnot
    cases e.what <;> simp [Happening.mark?, Happening.IsOwn]
  simp only [World.marks, Deed.tell, hdeeds, List.filterMap_append, hnone, List.append_nil]

/-- A run that goes on in order, with the stop `x` to be passed, if there is one. -/
structure Heading (fit : D.Clock → Prop) (x : Option (Nat × D.Instr)) (w : World D) : Prop where
  fit : fit w.clock
  slice : 1 ≤ w.engine.timeSlice
  skip : w.engine.skip = x
  parked : ∀ sid i, x = some (sid, i) → w.engine.Parked sid i

/-- A run with certain marks that heads for the stop `x`, unless it has ended. -/
structure Guarded (fit : D.Clock → Prop) (P : D.Memory → Prop) (x : Option (Nat × D.Instr))
    (marks : List (Mark D)) (w : World D) : Prop where
  mortal : w.Mortal
  memory : P w.memory
  marks : w.marks = marks
  heading : w.engine.phase ≠ .terminated → w.Heading fit x

variable {h : Host D} {fit : D.Clock → Prop} {P : D.Memory → Prop} {x : Option (Nat × D.Instr)}
  {marks : List (Mark D)} {w v : World D}

lemma Heading.keeps (hw : w.Heading fit x) (hfit : fit v.clock) (h : w.engine.KeepsTurn v.engine)
    (hphase : w.engine.phase ≠ .idle → v.engine.phase ≠ .idle) : v.Heading fit x where
  fit := hfit
  slice := h.timeSlice ▸ hw.slice
  skip := h.skip.trans hw.skip
  parked sid i hx := (hw.parked sid i hx).keeps h (hphase (hw.parked sid i hx).begun)

namespace Guarded

/-- The roster is as before, and the turn is not taken on. -/
lemma of_same (hw : w.Guarded fit P x marks) (hroster : v.roster = w.roster) (hm : P v.memory)
    (hmarks : v.marks = w.marks) (hturn : w.engine.KeepsTurn v.engine)
    (hfit : w.engine.phase ≠ .terminated → fit w.clock → fit v.clock) : v.Guarded fit P x marks := by
  have hphase : v.engine.phase = w.engine.phase := congrArg Roster.phase hroster
  refine ⟨?_, hm, hmarks.trans hw.marks, fun hp => ?_⟩
  · unfold Mortal
    rw [hroster]
    exact hw.mortal
  · rw [hphase] at hp
    have hhead := hw.heading hp
    exact hhead.keeps (hfit hp hhead.fit) hturn (hphase ▸ id)

/-- Whatever becomes of the roster, no mark is left. -/
lemma of_change (hw : w.Guarded fit P x marks) (hroster : Roster.Change True (fun _ => False) w.roster v.roster)
    (hm : P v.memory) (hmarks : v.marks = w.marks) (hv : v.engine.phase ≠ .terminated → v.Heading fit x) :
    v.Guarded fit P x marks := ⟨hw.mortal.change hroster, hm, hmarks.trans hw.marks, hv⟩

lemma told (hw : w.Guarded fit P x marks) {what : Happening} (hend : what.isEnding = false)
    (hmark : (what.mark? : Option (Mark D)) = none) : (w.emitted what).Guarded fit P x marks where
  mortal := by
    unfold Mortal
    rw [roster_emitted]
    exact hw.mortal.tell hend
  memory := hw.memory
  marks := by
    rw [marks_emitted, hmark, Option.toList_none, List.append_nil]
    exact hw.marks
  heading hp := (hw.heading hp).keeps (hw.heading hp).fit (.of_eq rfl) id

lemma disarmed (hs : h.scheduler.Defers fit) (hw : w.Guarded fit P x marks) :
    (w.disarmed h.scheduler).Guarded fit P x marks := by
  refine hw.of_same rfl hw.memory rfl (.of_eq rfl) fun _ hfit => ?_
  rw [disarmed_clock]
  cases w.engine.pending with
  | none => exact hfit
  | some handle => exact hs.cancel handle hfit

/-- A step is deferred, or refused. -/
lemma deferred (hs : h.scheduler.Defers fit) (hw : w.Guarded fit P x marks) (delay : Binary64) :
    (w.deferred h.scheduler delay).2.Guarded fit P x marks := by
  have hdisarmed := hw.disarmed hs
  have hput (hp : w.engine.phase ≠ .terminated) :=
    hs.arm delay (w.disarmed h.scheduler).ticket (hdisarmed.heading hp).fit
  have hroster := roster_deferred w h.scheduler delay
  unfold World.deferred at hroster ⊢
  rcases ha : h.scheduler.arm (w.disarmed h.scheduler).clock delay (w.disarmed h.scheduler).ticket
    with ⟨f | a, clock⟩ <;> rw [ha] at hput hroster
  · exact hw.of_same hroster hw.memory (by simp [Deed.mark?]) (.of_eq rfl) fun hp _ => hput hp
  · exact hw.of_same hroster hw.memory (by simp [Deed.mark?]) (.of_eq rfl) fun hp _ => hput hp

lemma postpones (hs : h.scheduler.Defers fit) (hw : w.Guarded fit P x marks)
    (hp : w.engine.phase ≠ .terminated) (fire : Ticket → Act (World D) Unit) : w.Postpones h fire :=
  postpones_of_later w h fire fun _ _ _ _ => hs.later ((hw.disarmed hs).heading hp).fit

lemma entered (hw : w.Guarded fit P x marks) {new : Phase} (reason : String)
    (hidle : w.engine.phase ≠ .idle) (hnew : new ≠ .terminated)
    (hmay : mayFollow w.engine.phase new = true) : (w.entered new reason).Guarded fit P x marks := by
  have hbegun : new ≠ .idle := ne_idle_of_mayFollow hmay
  have halive : w.engine.phase ≠ .terminated := by
    intro hp
    rw [hp] at hmay
    cases new <;> cases hmay
  refine hw.of_change ?_ hw.memory ?_ fun _ => (hw.heading halive).keeps (hw.heading halive).fit (.of_eq rfl)
    fun _ => hbegun
  · rw [roster_entered]
    exact .enter new reason hidle hnew hmay
  · simp [Deed.mark?, phaseEvent, event, Happening.mark?]

lemma peopled (hw : w.Guarded fit P x marks) (hinstall : ∀ {m} n contents, P m → P (h.install m n contents))
    (cursor : Option D.Instr) (scope : ScopeChoice D) : (w.peopled h cursor scope).Guarded fit P x marks where
  mortal := ⟨hw.mortal.started_iff, hw.mortal.endings⟩
  memory := newMemory_kept w hinstall scope hw.memory
  marks := hw.marks
  heading hp := by
    refine (hw.heading hp).keeps (hw.heading hp).fit ⟨rfl, rfl, rfl, rfl, List.prefix_refl _, ?_⟩ id
    intro sid i hi
    rw [peopled_engine, Engine.cursor_withStrand, if_neg (Engine.lt_size_of_cursor hi).ne]
    exact hi

/-- The small changes between steps. -/
lemma shifted (hw : w.Guarded fit P x marks) {f : Engine D → Engine D}
    (hf : w.engine.Shift Request.IsInner False (f w.engine)) : (w.altered f).Guarded fit P x marks := by
  generalize hv : f w.engine = e at hf
  have hkeeps : w.engine.KeepsTurn e ∧ e.phase = w.engine.phase ∧ e.started = w.engine.started := by
    cases hf with
    | winding hsteps => exact hsteps.elim
    | stopping _ _ hsteps => exact hsteps.elim
    | sliced hp => exact hp.elim
    | forgotten _ hp => exact hp.elim
    | blanked hp => exact hp.elim
    | joined sid => exact ⟨⟨rfl, rfl, rfl, rfl, List.prefix_append _ _, fun _ _ => id⟩, rfl, rfl⟩
    | rate => exact ⟨.of_eq rfl, rfl, rfl⟩
    | breaking => exact ⟨.of_eq rfl, rfl, rfl⟩
  obtain ⟨hturn, hphase, hstarted⟩ := hkeeps
  subst hv
  refine ⟨hw.mortal.altered hstarted hphase, hw.memory, hw.marks, fun hp => ?_⟩
  rw [altered_engine, hphase] at hp
  exact (hw.heading hp).keeps (hw.heading hp).fit hturn (hphase ▸ id)

lemma sought (hw : w.Guarded fit P x marks) (entry : Option D.Instr) :
    (w.sought h entry).Guarded fit P x marks := by
  refine hw.of_same (roster_sought w h entry) ?_ (by simp) (.of_eq (by simp)) fun _ => ?_
  · rw [sought_memory]
    exact hw.memory
  · rw [sought_clock]
    exact id

lemma begun (hw : w.Guarded fit P x marks) (hinstall : ∀ {m} n contents, P m → P (h.install m n contents))
    (hs : w.engine.started = false) (cursor : Option D.Instr) (contents : D.Scope) :
    (w.begun h cursor contents).Guarded fit P x marks := by
  have hidle : w.engine.phase = .idle := idle_of_unstarted hw.mortal.started_iff hs
  have halive : w.engine.phase ≠ .terminated := by simp [hidle]
  have hhead := hw.heading halive
  refine hw.of_change ?_ ?_ ?_ fun _ => ⟨?_, ?_, ?_, fun sid i hx => ?_⟩
  · rw [roster_begun]
    cases cursor with
    | none => exact .startEmpty _ hs trivial
    | some i => exact .start _ _ hs
  · rw [begun_memory]
    exact newMemory_kept _ hinstall _ hw.memory
  · cases cursor <;> simp [World.begun, Deed.mark?, phaseEvent, event, Happening.mark?]
  · cases cursor <;> exact hhead.fit
  · cases cursor <;> exact hhead.slice
  · cases cursor <;> exact hhead.skip
  · exact absurd hidle (hhead.parked sid i hx).begun

lemma start (hs : h.scheduler.Defers fit) (hinstall : ∀ {m} n contents, P m → P (h.install m n contents))
    (hw : w.Guarded fit P x marks) (fire : Ticket → Act (World D) Unit) (entry : Option D.Instr) :
    (start h fire entry).Ensures w fun _ v => v.Guarded fit P x marks := by
  rcases hstarted : w.engine.started with _ | _
  · have hidle : w.engine.phase = .idle := idle_of_unstarted hw.mortal.started_iff hstarted
    have hsought : (w.sought h entry).Guarded fit P x marks := hw.sought entry
    refine start_ensures_of_postpones (A := fun _ v => v.Guarded fit P x marks) hstarted hidle
      (hw.postpones hs (by simp [hidle]) fire) (fun _ _ => hsought) (hsought.deferred hs .zero) (fun _ _ => id)
      fun cursor contents v _ hphase hv => ?_
    refine hv.begun hinstall ?_ cursor contents
    exact Bool.eq_false_iff.2 fun hyes => hv.mortal.started_iff.1 hyes hphase
  · exact Act.ensures_of_outcome (start_again h fire entry hstarted) hw

lemma terminate (hw : w.Guarded fit P x marks) :
    (terminate h).Ensures w fun o v => v.Guarded fit P x marks ∧ (o = .ok () → v.engine.phase = .terminated) := by
  rcases terminate_cases h w hw.mortal.started_iff.1 with ⟨f, -, hout⟩ | ⟨hstarted, hmay, hout⟩
  · exact Act.ensures_of_outcome hout ⟨hw, nofun⟩
  · refine Act.ensures_of_outcome hout ⟨hw.of_change ?_ hw.memory ?_ fun hp => absurd rfl hp, fun _ => rfl⟩
    · rw [roster_ended]
      exact .finish _ hstarted hmay
    · simp [Deed.mark?, phaseEvent, event, Happening.mark?]

/-- Nothing that is asked for after the end leaves a mark. -/
lemma farewell (hh : h.Mannered P) (rounds depth : Nat) (hw : w.Guarded fit P x marks)
    (hp : w.engine.phase = .terminated) (f : D.Farewell) :
    (runScript (serve h rounds depth) (h.farewell f)).Ensures w fun _ v => v.Guarded fit P x marks := by
  have hended : w.Ended := ⟨hw.mortal, hp⟩
  have hrun := runScript_ensures (serve h rounds depth) (I := fun v => Lingers True w v ∧ P v.memory)
    (F := fun _ _ => True) (fun _ hv => hv.2)
    (fun v m hm hv => ⟨⟨hv.1.trans (.withMemory v m), hm⟩, fun _ _ => trivial⟩)
    (fun r v hr hv => ?_) (hh.farewell f) ⟨.refl w, hw.memory⟩ fun _ _ => trivial
  · refine hrun.mono fun _ v hv => ?_
    obtain ⟨⟨hlingers, hm⟩, -⟩ := hv
    exact ⟨(hlingers.ended hended).mortal, hm, hlingers.marks.trans hw.marks, fun hv =>
      absurd (hlingers.ended hended).phase hv⟩
  · have hlingers := serve_lingers h rounds depth (hv.1.ended hended) (r := r) (.inr ?_)
    · refine (hlingers.and (serve_memory hh.asks rounds depth r v hv.2)).mono fun _ u hu => ?_
      exact ⟨⟨hv.1.trans (hu.1.mono fun _ => trivial), hu.2.state⟩, fun _ _ => trivial, fun _ _ => trivial⟩
    · rintro position rfl
      exact hr.elim

/-- Whatever is asked for between steps leaves no mark, and the stop stays to be passed unless the run
ends. -/
lemma practice (hs : h.scheduler.Defers fit) (hh : h.Mannered P) (x : Option (Nat × D.Instr))
    (marks : List (Mark D)) :
    Practice h Request.IsInner False False False (Guarded fit P x marks) where
  noted _ _ _ hw := hw.of_same rfl hw.memory rfl (.of_eq rfl) fun _ => id
  told hwhat hw := hw.told hwhat.isEnding hwhat.mark?
  stopped _ _ := False.elim
  announced _ _ _ _ hw := hw.told rfl rfl
  shifted hf hw := hw.shifted hf
  entered reason _ hidle hnew hmay hw := hw.entered reason hidle hnew hmay
  peopled i scope hw := hw.peopled hh.install (some i) scope
  disarmed hw := hw.disarmed hs
  arm {w fire} delay _ _ hp hw := by
    unfold Act.Ensures
    rw [hw.postpones hs hp fire w rfl rfl delay]
    exact ⟨hw.deferred hs delay, fun f _ => f.passes_any⟩
  start _ _ _ hw := (hw.start hs hh.install _ _).mono fun _ _ hv => ⟨hv, fun f _ => f.passes_any⟩
  terminate _ _ hw := hw.terminate.mono fun _ _ hv => ⟨hv.1, fun f _ => f.passes_any⟩
  advance _ _ := False.elim
  breaks _ := False.elim
  farewell _ hp _ hw := (hw.farewell hh _ _ hp _).mono fun _ _ hv => ⟨hv, fun f _ => f.passes_any⟩
  awake := False.elim
  stepping {r} hr hsteps := by
    cases r <;> first | exact hr | exact hsteps
  freely {r} hr hfires := by
    cases r <;> first | exact hr | exact hfires
  eagerly := False.elim
  lapsed := False.elim
  popped := False.elim
  refused _ := False.elim
  pumped := pump_abides fun _ hw => hw.of_same rfl hw.memory rfl (.of_eq rfl) fun _ => id

/-- Where no stop is to be passed, the turn may go where it likes. -/
lemma unstopped (hw : w.Guarded fit P none marks) (hroster : v.roster = w.roster) (hm : P v.memory)
    (hmarks : v.marks = w.marks) (hclock : v.clock = w.clock)
    (htime : v.engine.timeSlice = w.engine.timeSlice) (hskip : v.engine.skip = w.engine.skip) :
    v.Guarded fit P none marks := by
  have hphase : v.engine.phase = w.engine.phase := congrArg Roster.phase hroster
  refine ⟨?_, hm, hmarks.trans hw.marks, fun hp => ?_⟩
  · unfold Mortal
    rw [hroster]
    exact hw.mortal
  · have hhead := hw.heading (hphase ▸ hp)
    exact ⟨hclock ▸ hhead.fit, htime ▸ hhead.slice, hskip.trans hhead.skip, nofun⟩

lemma winding (hw : w.Guarded fit P none marks) {f : Engine D → Engine D}
    (hf : w.engine.Winding (f w.engine)) : (w.altered f).Guarded fit P none marks := by
  generalize hv : f w.engine = e at hf
  have hparts : e.started = w.engine.started ∧ e.phase = w.engine.phase ∧
      e.timeSlice = w.engine.timeSlice ∧ (e.skip = w.engine.skip ∨ e.skip = none) := by
    cases hf <;> exact ⟨rfl, rfl, rfl, by simp⟩
  obtain ⟨hstarted, hphase, htime, hskip⟩ := hparts
  subst hv
  refine ⟨hw.mortal.altered hstarted hphase, hw.memory, hw.marks, fun hp => ?_⟩
  rw [altered_engine, hphase] at hp
  have hhead := hw.heading hp
  exact ⟨hhead.fit, htime ▸ hhead.slice, hskip.elim (·.trans hhead.skip) id, nofun⟩

/-- The choice of the strand at the turn keeps the stop to be passed. -/
lemma turned (hw : w.Guarded fit P x marks) : w.turned.Guarded fit P x marks := by
  have hturned : (w.altered (·.turned)).Guarded fit P x marks := by
    refine ⟨hw.mortal.altered rfl rfl, hw.memory, hw.marks, fun hp => ?_⟩
    have hhead := hw.heading hp
    exact ⟨hhead.fit, hhead.slice, hhead.skip, fun sid i hx =>
      (hhead.parked sid i hx).keeps (hhead.parked sid i hx).turned.1 (hhead.parked sid i hx).begun⟩
  unfold World.turned emittedIf
  split_ifs
  · exact hturned.told rfl rfl
  · exact hturned

lemma followed (hw : w.Guarded fit P none marks) (slot : Nat) (i : D.Instr) :
    ((w.completed slot i).followed h slot i).2.Guarded fit P none marks := by
  have hdone : (w.completed slot i).Guarded fit P none marks :=
    hw.unstopped (roster_completed w slot i) hw.memory (by simp [Deed.mark?]) rfl rfl rfl
  have hmoved (cursor : Option D.Instr) :
      ((w.completed slot i).altered (·.movedTo slot cursor)).Guarded fit P none marks :=
    hdone.unstopped (roster_movedTo _ slot cursor) hdone.memory rfl rfl rfl rfl
  unfold World.followed
  split
  · exact hdone
  · exact hmoved none
  · split_ifs
    · exact hmoved _
    · exact hmoved none

end Guarded

/-- A stop that is made is to be passed. -/
lemma Guarded.stopped (hs : h.scheduler.Defers fit) (hw : w.Guarded fit P none marks) {sid : Nat} {i : D.Instr}
    (hrun : w.engine.phase = .running) (hslice : (w.engine.sliceUsed : Int) < w.engine.timeSlice)
    (hturn : w.engine.live[w.engine.index]? = some sid) (hcursor : w.engine.cursor sid = some i) :
    (w.stopped h sid i).Guarded fit P (some (sid, i)) (marks ++ [.stop sid (h.label i)]) := by
  have halive : w.engine.phase ≠ .terminated := by simp [hrun]
  have hroster : (w.stopped h sid i).roster =
      ((w.roster.inPhase .paused).told (.phase w.engine.phase .paused "breakpoint")).told
        (.stopped sid (h.label i)) := by
    simp [World.stopped, roster, Roster.inPhase, Roster.told, Deed.happening?, phaseEvent, event]
  have hpause : Roster.Change True (fun _ => False) w.roster
      ((w.roster.inPhase .paused).told (.phase w.engine.phase .paused "breakpoint")) :=
    .enter .paused "breakpoint" (by simp [hrun]) (by simp) (by simp [hrun]; rfl)
  have hmortal : ((w.roster.inPhase .paused).told (.phase w.engine.phase .paused "breakpoint")).Mortal :=
    hw.mortal.change hpause
  have hmarks : (w.stopped h sid i).marks = w.marks ++ [.stop sid (h.label i)] := by
    simp [World.stopped, Deed.mark?, Happening.mark?, phaseEvent, event]
  have hclock : (w.stopped h sid i).clock = (w.disarmed h.scheduler).clock := by simp [World.stopped]
  have hpassing : (w.engine.passing (some (sid, i))).Parked sid i → (w.stopped h sid i).engine.Parked sid i :=
    fun hp => hp.keeps (.of_eq (by simp [World.stopped])) (by simp [World.stopped])
  refine ⟨?_, by simpa [World.stopped] using hw.memory, hw.marks ▸ hmarks, fun _ => ⟨?_, ?_, ?_, ?_⟩⟩
  · unfold Mortal
    rw [hroster]
    exact hmortal.tell rfl
  · rw [hclock]
    exact ((hw.disarmed hs).heading halive).fit
  · simpa [World.stopped] using (hw.heading halive).slice
  · simp [World.stopped]
  · rintro _ _ ⟨⟩
    exact hpassing ⟨by simp [hrun], hslice, hturn, hcursor⟩

/-- What a step does about stops: it leaves no mark, or makes a stop where none was to be passed and the
instruction is marked, or begins the instruction that it may begin. -/
inductive Passage (h : Host D) (fit : D.Clock → Prop) (P : D.Memory → Prop) (x : Option (Nat × D.Instr))
    (marks : List (Mark D)) (manual : Bool) (w v : World D) : Prop
  | rest (hv : v.Guarded fit P x marks)
  | stop {sid : Nat} {i : D.Instr} (hx : x = none) (hmanual : manual = false)
      (hbreaking : w.engine.breaking = true) (hflags : h.Flags w.memory i)
      (hcursor : w.engine.cursor sid = some i)
      (hv : v.Guarded fit P (some (sid, i)) (marks ++ [.stop sid (h.label i)]))
  | start {sid : Nat} {i : D.Instr} (hcursor : w.engine.cursor sid = some i)
      (hx : ∀ y, x = some y → y = (sid, i))
      (hfree : x = none → manual = false → w.engine.breaking = true → ¬ h.Flags w.memory i)
      (hv : v.Guarded fit P none (marks ++ [.start sid i]))

/-- The mark of an instruction that begins on a strand, if the strand stands at one. -/
def starting (w : World D) (sid : Nat) : List (Mark D) := ((w.engine.cursor sid).map (Mark.start sid)).toList

/-- The stop that is to be passed is not made again. -/
lemma consult_passing (run : Script D Bool → Act (World D) Bool) {sid : Nat} {i : D.Instr} (manual : Bool)
    (hskip : w.engine.skip = some (sid, i)) :
    (consult h run sid (some i) manual).outcome w = (.ok false, w) := by
  rw [consult_outcome]
  simp [hskip]

/-- Where no stop is to be passed, an instruction is tested that a step of the scheduler's comes to while
breakpoints are on. -/
lemma consult_unstopped (run : Script D Bool → Act (World D) Bool) (sid : Nat) (cursor : Option D.Instr)
    (manual : Bool) (hskip : w.engine.skip = none) :
    (consult h run sid cursor manual).outcome w =
      if manual = false ∧ w.engine.breaking = true then
        match cursor with
        | none => (.ok false, w)
        | some i => (run (h.breaks i)).outcome w
      else (.ok false, w) := by
  rw [consult_outcome]
  cases cursor <;> simp [hskip]

/-- Where no stop is to be passed, the test tells of the instruction at the turn, if it is asked at all. -/
lemma Guarded.consults (hh : h.Mannered P) (rounds depth : Nat) (hw : w.Guarded fit P none marks)
    (halive : w.engine.phase ≠ .terminated) (sid : Nat) (manual : Bool) :
    ∃ stops m, P m ∧ (consult h (runScript (serve h rounds depth)) sid (w.engine.cursor sid) manual).outcome w =
        (.ok stops, w.withMemory m) ∧
      (stops = true → manual = false ∧ w.engine.breaking = true ∧
        ∃ i, w.engine.cursor sid = some i ∧ h.Flags w.memory i) ∧
      (stops = false → ∀ i, w.engine.cursor sid = some i → manual = false → w.engine.breaking = true →
        ¬ h.Flags w.memory i) := by
  rw [consult_unstopped _ _ _ manual (hw.heading halive).skip]
  by_cases hasks : manual = false ∧ w.engine.breaking = true
  · rw [if_pos hasks]
    rcases hi : w.engine.cursor sid with _ | i
    · exact ⟨false, w.memory, hw.memory, rfl, nofun, fun _ _ => nofun⟩
    · obtain ⟨stops, m, hm, hanswer⟩ := (hh.breaks i).answers hw.memory
      refine ⟨stops, m, hm, runScript_answer _ hanswer, ?_, ?_⟩
      · rintro rfl
        exact ⟨hasks.1, hasks.2, i, rfl, m, hanswer⟩
      · rintro rfl j ⟨⟩ - - ⟨m', hm'⟩
        cases hanswer.symm.trans hm'
  · rw [if_neg hasks]
    exact ⟨false, w.memory, hw.memory, rfl, nofun, fun _ _ _ hmanual hbreaking =>
      absurd ⟨hmanual, hbreaking⟩ hasks⟩

section Step

variable (hs : h.scheduler.Defers fit) (hh : h.Mannered P) (rounds depth : Nat)

include hs hh

/-- Executing the instruction of a strand leaves its begin as the only mark. -/
lemma Guarded.advanced (hw : w.Guarded fit P none marks) (slot : Nat) (sid : Int) (manual : Bool) :
    (advance h (runScript (serve h rounds depth)) slot sid manual).Ensures w fun _ v =>
      v.Guarded fit P none (marks ++ w.starting slot) := by
  unfold Act.Ensures
  rw [advance_outcome]
  rcases hstrand : w.engine.strand? slot with _ | strand
  · simpa [starting, Engine.cursor, hstrand] using hw
  · dsimp only
    rcases hcursor : strand.cursor with _ | i
    · simpa [starting, Engine.cursor, hstrand, hcursor] using hw
    · have hstart : w.starting slot = [.start slot i] := by simp [starting, Engine.cursor, hstrand, hcursor]
      have hbegan : (w.recorded (.began slot i w.engine.phase manual)).Guarded fit P none
          (marks ++ [.start slot i]) := by
        refine ⟨?_, hw.memory, by simp [Deed.mark?, ← hw.marks], fun hp =>
          ⟨(hw.heading hp).fit, (hw.heading hp).slice, (hw.heading hp).skip, by simp⟩⟩
        unfold Mortal
        rw [roster_recorded w rfl]
        exact hw.mortal
      have hserve := (Guarded.practice hs hh none (marks ++ [.start slot i])).serve rounds depth
      have hrun := runScript_abides (·.memory) (fun hv hm => hv.unstopped rfl hm rfl rfl rfl rfl) hserve.1
        ((hh.code i strand.scope).mono fun f _ => f.passes_any) _ hbegan
      rw [hstart]
      dsimp only
      unfold Act.Ensures at hrun
      rcases hout : (runScript (serve h rounds depth) (h.code i strand.scope)).outcome
        (w.recorded (.began slot i w.engine.phase manual)) with ⟨f | _, v⟩ <;> rw [hout] at hrun
      · exact hrun.state
      · exact hrun.state.followed slot i

/-- Whether the instruction fails or returns, the step leaves no other mark. -/
lemma Guarded.proceeds (hw : w.Guarded fit P x marks) (fire : Ticket → Act (World D) Unit) (mark sid : Nat)
    (cursor : Option D.Instr) (manual : Bool) :
    (proceed h (runScript (serve h rounds depth)) fire mark sid cursor manual).Ensures w fun _ v =>
      v.Guarded fit P none (marks ++ w.starting sid) := by
  have hin : ((w.altered (·.passing none)).altered (·.inStep true)).Guarded fit P none marks :=
    ⟨hw.mortal, hw.memory, hw.marks, fun hp => ⟨(hw.heading hp).fit, (hw.heading hp).slice, rfl, nofun⟩⟩
  have hadvance := hin.advanced hs hh rounds depth sid sid manual
  have hpractice := Guarded.practice hs hh none (marks ++ w.starting sid)
  have hout {v : World D} (hv : v.Guarded fit P none (marks ++ w.starting sid)) :
      (v.altered (·.inStep false)).Guarded fit P none (marks ++ w.starting sid) := hv.winding (.inStep false)
  refine proceed_ensures hadvance (fun hasNext v hv => ?_) (fun f v _ hv => ?_) fun _ _ _ hv => hout hv
  · exact (hpractice.conclude (fun hf hv => hv.winding hf) (.inr (.inl trivial)) False.elim mark sid cursor
      hasNext manual _ (hout hv)).state
  · have hrecover := hpractice.recover (fun hf hv => hv.winding hf) (.inr (.inl trivial)) sid
      (w.engine.steps sid) cursor f.passes_any False.elim hv
    exact hrecover.bind (fun _ _ hu => hout hu.state) fun _ _ hu => hout hu.state

/-- A step that is not stopped begins the instruction at the turn, if there is one. -/
lemma Guarded.begins {u : World D} (hu : u.Guarded fit P none marks) (fire : Ticket → Act (World D) Unit)
    (mark sid : Nat) (manual : Bool) (hcursor : u.engine.cursor sid = w.engine.cursor sid)
    (hfree : ∀ i, w.engine.cursor sid = some i → manual = false → w.engine.breaking = true →
      ¬ h.Flags w.memory i) :
    (proceed h (runScript (serve h rounds depth)) fire mark sid (w.engine.cursor sid) manual).Ensures u
      fun _ v => Passage h fit P none marks manual w v := by
  refine (hu.proceeds hs hh rounds depth fire mark sid _ manual).mono fun _ v hv => ?_
  rw [starting, hcursor] at hv
  rcases hi : w.engine.cursor sid with _ | i <;> rw [hi] at hv
  · exact .rest (by simpa using hv)
  · exact .start hi nofun (fun _ => hfree i hi) hv

/-- A step that comes to the stop which is to be passed begins the instruction there. -/
lemma Guarded.passes {sid : Nat} {i : D.Instr} (hw : w.Guarded fit P (some (sid, i)) marks)
    (halive : w.engine.phase ≠ .terminated) (fire : Ticket → Act (World D) Unit) (manual : Bool) :
    (executeStep h (runScript (serve h rounds depth)) fire manual).Ensures w fun _ v =>
      v.Guarded fit P none (marks ++ [.start sid i]) := by
  have hhead := hw.heading halive
  have hparked := hhead.parked sid i rfl
  have hlive : w.engine.live ≠ [] := List.ne_nil_of_mem (List.mem_of_getElem? hparked.turn)
  have hcursor : w.turned.engine.cursor sid = some i := by
    rw [← hparked.cursor, turned_engine]
    rfl
  have hskip : w.turned.engine.skip = some (sid, i) := by simpa using hhead.skip
  have hgoes := hw.turned.proceeds hs hh rounds depth fire w.engine.nextSeq sid (some i) manual
  rw [starting, hcursor] at hgoes
  unfold Act.Ensures
  rw [executeStep_goes h (runScript (serve h rounds depth)) fire hlive hparked.turned.2 hparked.cursor
    (consult_passing _ manual hskip)]
  exact hgoes

/-- A step where no stop is to be passed. -/
lemma Guarded.tries (hw : w.Guarded fit P none marks) (halive : w.engine.phase ≠ .terminated) (manual : Bool)
    (hrun : manual = false → w.engine.phase = .running) (fire : Ticket → Act (World D) Unit) :
    (executeStep h (runScript (serve h rounds depth)) fire manual).Ensures w fun _ v =>
      Passage h fit P none marks manual w v := by
  have hhead := hw.heading halive
  by_cases hlive : w.engine.live = []
  · have hhalt := (Guarded.practice hs hh none marks).halt (.inr (.inl trivial)) False.elim hw
    have hrest := hhalt.kept_bind fun _ => Practice.result w.engine.nextSeq 0 none false
    unfold Act.Ensures
    rw [executeStep_nobody _ _ _ _ hlive]
    exact .rest hrest.state
  · have hturned : w.turned.Guarded fit P none marks := hw.turned
    have hcursor (sid : Nat) : w.turned.engine.cursor sid = w.engine.cursor sid := by
      rw [turned_engine]
      rfl
    have hbreaking : w.turned.engine.breaking = w.engine.breaking := by simp
    obtain ⟨stops, m, hm, hconsult, hstops, hgoes⟩ :=
      Guarded.consults hh rounds depth hturned (by simpa using halive) w.engine.turned.atTurn manual
    have hkept : (w.turned.withMemory m).Guarded fit P none marks := hturned.unstopped rfl hm rfl rfl rfl rfl
    simp only [hcursor, hbreaking, turned_memory] at hconsult hstops hgoes
    unfold Act.Ensures
    cases stops with
    | false =>
      rw [executeStep_goes h (runScript (serve h rounds depth)) fire hlive rfl rfl hconsult]
      exact hkept.begins hs hh rounds depth fire w.engine.nextSeq _ manual (hcursor _) (hgoes rfl)
    | true =>
      obtain ⟨hmanual, hbreaks, i, hi, hflags⟩ := hstops rfl
      have hrunning : (w.turned.withMemory m).engine.phase = .running := by simpa using hrun hmanual
      rw [executeStep_stops h (runScript (serve h rounds depth)) fire hlive rfl hi (hi ▸ hconsult),
        stop_outcome h _ _ _ i hrunning]
      refine .stop rfl hmanual hbreaks hflags hi (hkept.stopped hs hrunning ?_ ?_ ((hcursor _).trans hi))
      · have hpos := hhead.slice
        simp only [withMemory_engine, turned_engine, Engine.heardIf_sliceUsed, Engine.turned_sliceUsed,
          Engine.heardIf_timeSlice, Engine.turned_timeSlice]
        split_ifs <;> omega
      · simpa using turned_turn hlive

lemma Guarded.executes (hw : w.Guarded fit P x marks) (halive : w.engine.phase ≠ .terminated) (manual : Bool)
    (hrun : manual = false → w.engine.phase = .running) (fire : Ticket → Act (World D) Unit) :
    (executeStep h (runScript (serve h rounds depth)) fire manual).Ensures w fun _ v =>
      Passage h fit P x marks manual w v := by
  rcases x with _ | ⟨sid, i⟩
  · exact hw.tries hs hh rounds depth halive manual hrun fire
  · have hpasses := hw.passes hs hh rounds depth halive fire manual
    refine hpasses.mono fun _ v hv => .start ((hw.heading halive).parked sid i rfl).cursor ?_ nofun hv
    rintro _ ⟨⟩
    rfl

/-- The ticket that counts comes to the stop that is to be passed. -/
lemma Guarded.fire_passes {sid : Nat} {i : D.Instr} (hw : w.Guarded fit P (some (sid, i)) marks)
    (hrun : w.engine.phase = .running) :
    (w.after h rounds depth (.fire w.ticket)).Guarded fit P none (marks ++ [.start sid i]) := by
  have hlapsed : (w.altered (·.unarmed)).Guarded fit P (some (sid, i)) marks :=
    hw.of_same rfl hw.memory rfl (.of_eq rfl) fun _ => id
  unfold World.after
  dsimp only
  rw [fire_running h rounds depth hrun]
  exact hlapsed.passes hs hh rounds depth (by simp [hrun]) _ false

/-- So does a step by hand. -/
lemma Guarded.step_passes {sid : Nat} {i : D.Instr} (hw : w.Guarded fit P (some (sid, i)) marks)
    (hpaused : w.engine.phase = .paused) :
    (w.after h rounds depth (.operate .step)).Guarded fit P none (marks ++ [.start sid i]) := by
  have hpasses := hw.passes hs hh rounds depth (by simp [hpaused])
    (fun t => discard (serve h rounds depth (.fire t))) true
  have hstarted : w.engine.started = true := hw.mortal.started_iff.2 (by simp [hpaused])
  refine Act.Ensures.reply (I := Guarded fit P none (marks ++ [.start sid i])) ?_
  unfold Act.Ensures
  rw [step_paused _ _ _ hstarted hpaused]
  exact hpasses

lemma Guarded.fire (hw : w.Guarded fit P x marks) (t : Ticket) :
    Passage h fit P x marks false w (w.after h rounds depth (.fire t)) := by
  have hlapsed : (w.altered (·.unarmed)).Guarded fit P x marks :=
    hw.of_same rfl hw.memory rfl (.of_eq rfl) fun _ => id
  refine fire_ensures (Q := fun _ v => Passage h fit P x marks false w v) (fun _ hrun => ?_)
    (fun _ _ => .rest hlapsed) fun _ => .rest (hw.of_same rfl hw.memory rfl (.of_eq rfl) fun _ => id)
  refine (hlapsed.executes hs hh rounds depth (by simp [hrun]) false (fun _ => hrun) _).mono fun _ v hstep => ?_
  cases hstep with
  | rest hv => exact .rest hv
  | stop hx hmanual hbreaking hflags hcursor hv => exact .stop hx hmanual hbreaking hflags hcursor hv
  | start hcursor hx hfree hv => exact .start hcursor hx hfree hv

lemma Guarded.step (hw : w.Guarded fit P x marks) :
    Passage h fit P x marks true w (w.after h rounds depth (.operate .step)) := by
  refine Act.Ensures.reply (I := fun v => Passage h fit P x marks true w v) ?_
  refine step_ensures (fun _ _ => .rest hw) (fun _ => .rest hw) fun _ hphase => ?_
  have hlasts : w.engine.phase ≠ .terminated := by
    rcases hphase with hphase | hphase <;> simp [hphase]
  exact hw.executes hs hh rounds depth hlasts true nofun _

/-- What a move does about stops. -/
theorem Guarded.after (hw : w.Guarded fit P x marks) {m : Move D} (hm : w.Admits fit m) :
    ∃ manual, Passage h fit P x marks manual w (w.after h rounds depth m) ∧
      ∀ t, m = .fire t → manual = false := by
  cases m with
  | operate r =>
    refine ⟨true, ?_, nofun⟩
    rcases hm.step_or_inner with rfl | hr
    · exact hw.step hs hh rounds depth
    · exact .rest (((Guarded.practice hs hh x marks).serve rounds (depth + 1)).1 r hr w hw).state
  | fire t => exact ⟨false, hw.fire hs hh rounds depth t, fun _ _ => rfl⟩
  | drift clock => exact ⟨true, .rest (hw.of_same rfl hw.memory rfl (.of_eq rfl) fun _ _ => hm), nofun⟩

/-- A stop that is to be passed stays so until its instruction begins. -/
lemma Guarded.replay {sid : Nat} {i : D.Instr} (hw : w.Guarded fit P (some (sid, i)) marks)
    {moves : List (Move D)} (hm : Plays h rounds depth fit w moves) :
    (w.replay h rounds depth moves).Guarded fit P (some (sid, i)) marks ∨
      ∃ rest, (w.replay h rounds depth moves).marks = marks ++ .start sid i :: rest := by
  induction moves generalizing w with
  | nil => exact .inl hw
  | cons m moves ih =>
    obtain ⟨hmove, hrest⟩ := hm
    obtain ⟨manual, hpassage, -⟩ := hw.after hs hh rounds depth hmove
    cases hpassage with
    | rest hv => exact ih hv hrest
    | stop hx => cases hx
    | start _ hx _ hv =>
      -- From here on the marks only grow.
      cases hx _ rfl
      obtain ⟨rest, hmarks⟩ :=
        (replay_continues h rounds depth (w.after h rounds depth m) moves).filterMap Deed.mark?
      refine .inr ⟨rest, ?_⟩
      have hstart : (w.after h rounds depth m).marks = marks ++ [.start sid i] := hv.marks
      rw [List.append_cons, ← hstart]
      exact hmarks.symm

/-- In every run, a stop that is to be passed was the last mark. -/
lemma Guarded.reaches (hw : w.Guarded fit P x marks)
    (hx : ∀ sid i, x = some (sid, i) → marks.getLast? = some (.stop sid (h.label i))) {moves : List (Move D)}
    (hm : Plays h rounds depth fit w moves) :
    ∃ y, (w.replay h rounds depth moves).Guarded fit P y (w.replay h rounds depth moves).marks ∧
      ∀ sid i, y = some (sid, i) →
        (w.replay h rounds depth moves).marks.getLast? = some (.stop sid (h.label i)) := by
  induction moves generalizing w x marks with
  | nil => exact ⟨x, hw.marks ▸ hw, hw.marks ▸ hx⟩
  | cons m moves ih =>
    obtain ⟨hmove, hrest⟩ := hm
    obtain ⟨manual, hpassage, -⟩ := hw.after hs hh rounds depth hmove
    cases hpassage with
    | rest hv => exact ih hv hx hrest
    | @stop sid i _ _ _ _ _ hv =>
      refine ih hv ?_ hrest
      rintro _ _ ⟨⟩
      simp
    | start _ _ _ hv => exact ih hv nofun hrest

end Step

/-- A new run is under way without a stop to be passed. -/
lemma Fresh.guarded (hcheck : Settings.check rate breakpoints timeSlice history = .ok s)
    (hmake : Engine.make run s = .ok w.engine) (hw : Fresh fit P w) : w.Guarded fit P none w.marks := by
  have hskip : w.engine.skip = none := by rw [Engine.eq_of_make hmake]
  exact ⟨hw.mortal, hw.memory, rfl, fun _ => ⟨hw.clock, timeSlice_of_make hcheck hmake, hskip, nofun⟩⟩

/-- A breakpoint stops once. A firing of the scheduler's leaves no mark on a run, or it stops before an
instruction which is marked while breakpoints are on, or it begins an instruction; and if that one is marked
while breakpoints are on, the last thing before was the stop there. After a stop nothing else begins and no
stop is made until its instruction begins on its strand; and that is what the next step brings about, be it the
scheduler's or one by hand. -/
theorem breakpoints_stop_once (hs : h.scheduler.Defers fit) (hh : h.Mannered P)
    (hcheck : Settings.check rate breakpoints timeSlice history = .ok s)
    (hmake : Engine.make run s = .ok w.engine) (hw : Fresh fit P w) (rounds depth : Nat)
    (moves : List (Move D)) (hm : Plays h rounds depth fit w moves) :
    let v := w.replay h rounds depth moves
    (∀ t,
      let u := v.after h rounds depth (.fire t)
      u.marks = v.marks ∨
      ∃ sid i, v.engine.cursor sid = some i ∧
        (v.engine.breaking = true ∧ h.Flags v.memory i ∧ u.marks = v.marks ++ [.stop sid (h.label i)] ∨
        u.marks = v.marks ++ [.start sid i] ∧
          (v.engine.breaking = true → h.Flags v.memory i →
            v.marks.getLast? = some (.stop sid (h.label i))))) ∧
    ∀ m sid label, v.Admits fit m →
      (v.after h rounds depth m).marks = v.marks ++ [.stop sid label] →
      ∃ i, v.engine.cursor sid = some i ∧ h.label i = label ∧
        ∀ later, Plays h rounds depth fit (v.after h rounds depth m) later →
          let u := (v.after h rounds depth m).replay h rounds depth later
          (∃ rest, u.marks = v.marks ++ .stop sid label :: .start sid i :: rest) ∨
          u.marks = v.marks ++ [.stop sid label] ∧
            (u.engine.phase = .running →
              (u.after h rounds depth (.fire u.ticket)).marks = u.marks ++ [.start sid i]) ∧
            (u.engine.phase = .paused →
              (u.after h rounds depth (.operate .step)).marks = u.marks ++ [.start sid i]) := by
  intro v
  obtain ⟨x, hv, hx⟩ := (hw.guarded hcheck hmake).reaches hs hh rounds depth nofun hm
  change v.Guarded fit P x v.marks at hv
  constructor
  · intro t u
    cases hv.fire hs hh rounds depth t with
    | rest hu => exact .inl hu.marks
    | @stop sid i _ _ hbreaking hflags hcursor hu =>
      exact .inr ⟨sid, i, hcursor, .inl ⟨hbreaking, hflags, hu.marks⟩⟩
    | @start sid i hcursor hpasses hfree hu =>
      refine .inr ⟨sid, i, hcursor, .inr ⟨hu.marks, fun hbreaking hflags => ?_⟩⟩
      rcases x with _ | y
      · exact absurd hflags (hfree rfl rfl hbreaking)
      · exact hx sid i (congrArg some (hpasses y rfl))
  · intro m sid label hadmits hstop
    obtain ⟨manual, hpassage, -⟩ := hv.after hs hh rounds depth hadmits
    cases hpassage with
    | rest hu => exact absurd (hu.marks.symm.trans hstop) (by simp)
    | start _ _ _ hu => exact absurd (hu.marks.symm.trans hstop) (by simp)
    | @stop sid' i _ _ _ _ hcursor hu =>
      rw [hu.marks] at hstop
      obtain ⟨rfl, rfl⟩ : sid' = sid ∧ h.label i = label := by simpa using hstop
      refine ⟨i, hcursor, rfl, fun later hlater => ?_⟩
      rcases hu.replay hs hh rounds depth hlater with hparked | ⟨rest, hmarks⟩
      · refine .inr ⟨hparked.marks, fun hrun => ?_, fun hpaused => ?_⟩
        · rw [(hparked.fire_passes hs hh rounds depth hrun).marks, hparked.marks]
        · rw [(hparked.step_passes hs hh rounds depth hpaused).marks, hparked.marks]
      · exact .inl ⟨rest, by rw [hmarks]; simp⟩

/-- The block that leads back to itself stops again in the second round; whatever is done then, a further
strand sent to the same block included, it begins next on the strand that was stopped. -/
theorem looping_stops_every_round :
    let r := Block.loopingRun
    let fit : Clockwork → Prop := fun c => c.kind ≠ .eager
    let moves : List (Move Block.dialect) :=
      [.operate (.start none), .fire ⟨0, 1⟩, .operate .resume, .fire ⟨0, 3⟩]
    let v := r.world.replay r.host 1 5 moves
    let u := v.after r.host 1 5 (.fire ⟨0, 4⟩)
    let later : List (Move Block.dialect) := [.operate (.spawn (some 0) .fresh), .operate .resume]
    Plays r.host 1 5 fit r.world moves ∧ v.marks = [.stop 0 "spin", .start 0 0] ∧
      u.marks = [.stop 0 "spin", .start 0 0, .stop 0 "spin"] ∧
      Plays r.host 1 5 fit u later ∧ (u.replay r.host 1 5 later).engine.live = [0, 1] ∧
      ((u.replay r.host 1 5 later).after r.host 1 5 (.fire (u.replay r.host 1 5 later).ticket)).marks =
        [.stop 0 "spin", .start 0 0, .stop 0 "spin", .start 0 0] := by
  intro r fit moves v u later
  have hplays : Plays r.host 1 5 fit r.world moves :=
    ⟨trivial, admits_fire (by decide +kernel), trivial, admits_fire (by decide +kernel), trivial⟩
  have hlater : Plays r.host 1 5 fit u later := ⟨trivial, trivial, trivial⟩
  have hv : v.marks = [.stop 0 "spin", .start 0 0] := by decide +kernel
  have hu : u.marks = v.marks ++ [.stop 0 "spin"] := by decide +kernel
  have hfresh : Fresh fit Block.Memory.Calm r.world :=
    Block.Run.prepare_fresh Block.loopingRun_prepared nofun nofun
  obtain ⟨-, hstops⟩ := breakpoints_stop_once (h := r.host) Block.clockwork_defers
    (Block.host_tame Block.looping_orderly r.scope).mannered
    (Settings.check_breakpoints (.bool true)) rfl hfresh 1 5 moves hplays
  obtain ⟨i, hcursor, -, hnext⟩ := hstops (.fire ⟨0, 4⟩) 0 "spin" (admits_fire (by decide +kernel)) hu
  have hhere : v.engine.cursor 0 = some 0 := by decide +kernel
  obtain rfl : i = 0 := Option.some.inj (hcursor.symm.trans hhere)
  refine ⟨hplays, hv, by rw [hu, hv]; rfl, hlater, by decide +kernel, ?_⟩
  rcases hnext later hlater with ⟨rest, hmarks⟩ | ⟨hmarks, hfire, -⟩
  · have hlength : (u.replay r.host 1 5 later).marks.length = 3 := by decide +kernel
    rw [hmarks, hv] at hlength
    simp at hlength
  · rw [hfire (by decide +kernel), hmarks, hv]
    rfl

end World

end Loom
