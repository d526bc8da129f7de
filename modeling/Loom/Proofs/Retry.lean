import Loom.Proofs.Containment

/-! A failing instruction is tried again. Whatever is done after it failed, nothing but that instruction is
attempted next on the run, and on its own strand. -/
namespace Loom

namespace Block

/-- A block that pauses its run, sends out a further strand and fails, and a block that is followed by
something that is no instruction. -/
def blundering : Program where
  nodes := #[{
      id := "trip"
      name := .str "trip"
      actions := [.call .pause, .call (.spawn (some 1) .fresh), .raise (.raised .runtime "tripped")] },
    { id := "drop", name := .str "drop" },
    { id := "gap", kind := .noExecute, name := .str "gap" }]
  links := #[none, some 2, none]
  entry := .program (some 0) []

lemma blundering_orderly : blundering.IsOrderly fun f => f.isOrdinary = true := by
  intro n hn
  simp only [blundering, List.mem_toArray, List.mem_cons, List.not_mem_nil, or_false] at hn
  rcases hn with rfl | rfl | rfl
  · exact ⟨⟨trivial, trivial, rfl, trivial⟩, nofun⟩
  · exact ⟨trivial, nofun⟩
  · exact ⟨trivial, nofun⟩

def blunderingRun : Run where
  program := blundering
  scope := []
  world := {
    engine := { breaking := false, rate := .zero, timeSlice := 1, historySize := 1024 }
    clock := { kind := .keeping }
    memory := { links := blundering.links, firstLinks := blundering.links } }

lemma blunderingRun_prepared :
    Run.prepare blundering {} .keeping none none .zero = .ok blunderingRun := rfl

end Block

namespace World

variable {D : Dialect} {h : Host D} {fit : D.Clock → Prop} {P : D.Memory → Prop} {w v b : World D} {m : Move D}
  {manual : Bool} {sid : Nat} {i : D.Instr}

/-- What is attempted next is a certain instruction of a certain strand, which may have been stopped at. -/
structure Faces (fit : D.Clock → Prop) (P : D.Memory → Prop) (sid : Nat) (i : D.Instr) (w : World D) :
    Prop where
  guarded : ∃ x, w.Guarded fit P x w.marks ∧ ∀ y, x = some y → y = (sid, i)
  lively : w.Lively
  parked : w.engine.phase ≠ .terminated → w.engine.Parked sid i

namespace Faces

/-- It stays so when the turn is left alone. -/
lemma keeps (hw : w.Faces fit P sid i) (hspared : w.Spared v) (hmarks : v.marks = w.marks)
    (hguarded : ∀ x, w.Guarded fit P x w.marks → v.Guarded fit P x w.marks) : v.Faces fit P sid i := by
  obtain ⟨x, hbefore, hx⟩ := hw.guarded
  refine ⟨⟨x, hmarks.symm ▸ hguarded x hbefore, hx⟩, hspared.lively, fun hlasts => ?_⟩
  have hidle : v.engine.phase ≠ .idle := by rcases hspared.lively.awake hlasts with hp | hp <;> simp [hp]
  exact (hw.parked fun hend => hlasts (hspared.final hend)).keeps (hspared.widened hlasts).keepsTurn hidle

/-- So it does when nothing but the books changes. -/
lemma of_same (hw : w.Faces fit P sid i) (hv : v.engine.phase = w.engine.phase)
    (hsame : (v.deeds, v.memory, v.engine.started, v.engine.totalSteps) =
      (w.deeds, w.memory, w.engine.started, w.engine.totalSteps))
    (hroster : v.roster = w.roster) (hwide : w.engine.Widened v.engine) (hfit : fit w.clock → fit v.clock) :
    v.Faces fit P sid i := by
  simp only [Prod.mk.injEq] at hsame
  obtain ⟨hdeeds, hmemory, hstarted, htotal⟩ := hsame
  have hmarks : v.marks = w.marks := congrArg (Deed.tell Deed.mark?) hdeeds
  have hdone : (v.attempts, v.completions, v.failures) = (w.attempts, w.completions, w.failures) := by
    unfold World.attempts World.completions World.failures
    rw [hdeeds]
  refine hw.keeps (.of_widened hw.lively hstarted hdone htotal hwide (.inl hv)) hmarks fun x hguarded => ?_
  exact hguarded.of_same hroster (hmemory ▸ hguarded.memory) hmarks hwide.keepsTurn fun _ => hfit

variable (hs : h.scheduler.Defers fit) (hh : h.Mannered P) (rounds depth : Nat)

include hs hh

/-- Whatever is asked for between steps, the same instruction is to be attempted next. -/
lemma serve (hw : w.Faces fit P sid i) {r : Request D} (hr : r.IsInner) :
    (serve h rounds depth r).Ensures w fun _ v => v.Faces fit P sid i ∧ v.attempts = w.attempts := by
  have hguarded (x) (hx : w.Guarded fit P x w.marks) :=
    ((Guarded.practice hs hh x w.marks).serve rounds depth).1 r hr w hx
  obtain ⟨x, hx, -⟩ := hw.guarded
  have hspared := serve_spared hs rounds depth hr hx hw.lively
  exact ⟨hw.keeps hspared (hguarded x hx).state.marks fun y hy => (hguarded y hy).state, hspared.attempts⟩

/-- A step attempts it, or stops before it, which only the scheduler's do and only at a marked one. -/
lemma executes (hw : w.Faces fit P sid i) (hlasts : w.engine.phase ≠ .terminated)
    (hrun : manual = false → w.engine.phase = .running) (fire : Ticket → Act (World D) Unit) :
    (executeStep h (runScript (World.serve h rounds depth)) fire manual).Ensures w fun _ v =>
      v.marks = w.marks ++ [.start sid i] ∨
      v.Faces fit P sid i ∧ manual = false ∧ w.engine.breaking = true ∧ h.Flags w.memory i ∧
        v.marks = w.marks ++ [.stop sid (h.label i)] := by
  obtain ⟨x, hguarded, hx⟩ := hw.guarded
  have hparked := hw.parked hlasts
  rcases x with _ | y
  · have hlive : w.engine.live ≠ [] := List.ne_nil_of_mem (List.mem_of_getElem? hparked.turn)
    have hturned : w.turned.Guarded fit P none w.marks := hguarded.turned
    have hcursor : w.turned.engine.cursor sid = some i := by
      rw [← hparked.cursor, turned_engine]
      rfl
    have hbreaking : w.turned.engine.breaking = w.engine.breaking := by simp
    obtain ⟨stops, m, hm, hconsult, hstops, -⟩ :=
      hturned.consults hh rounds depth (by simpa using hlasts) sid manual
    rw [hcursor] at hconsult
    have hkept : (w.turned.withMemory m).Guarded fit P none w.marks := hturned.unstopped rfl hm rfl rfl rfl rfl
    unfold Act.Ensures
    cases stops with
    | false =>
      have hproceeds := hkept.proceeds hs hh rounds depth fire w.engine.nextSeq sid (some i) manual
      rw [starting, withMemory_engine, hcursor] at hproceeds
      rw [executeStep_goes h (runScript (World.serve h rounds depth)) fire hlive hparked.turned.2 hparked.cursor
        hconsult]
      exact .inl hproceeds.marks
    | true =>
      obtain ⟨hmanual, hbreaks, j, hj, hflags⟩ := hstops rfl
      obtain rfl : i = j := Option.some.inj (hcursor.symm.trans hj)
      rw [turned_memory] at hflags
      have hrunning : (w.turned.withMemory m).engine.phase = .running := by simpa using hrun hmanual
      have hstays : w.turned.engine.Parked sid i :=
        (hparked.keeps hparked.turned.1 hparked.begun).keeps (.of_eq (by simp)) (by simpa using hparked.begun)
      have hstopped := hkept.stopped hs hrunning hstays.slice hstays.turn hstays.cursor
      rw [executeStep_stops h (runScript (World.serve h rounds depth)) fire hlive hparked.turned.2 hparked.cursor
        hconsult, stop_outcome h _ _ _ i hrunning]
      refine .inr ⟨⟨⟨_, hstopped.marks.symm ▸ hstopped, ?_⟩, ⟨?_, ?_⟩, fun hl => ?_⟩, hmanual, ?_, hflags,
        hstopped.marks⟩
      · rintro _ ⟨⟩
        rfl
      · simpa [World.stopped] using hw.lively.started
      · exact fun _ => .inr (by simp [World.stopped])
      · exact (hstopped.heading hl).parked sid i rfl
      · rwa [hbreaking] at hbreaks
  · obtain rfl := hx y rfl
    exact (hguarded.passes hs hh rounds depth hlasts fire manual).mono fun _ v hv => .inl hv.marks

/-- A step of the scheduler's or by hand attempts it, or stops before it. -/
lemma comes (hw : w.Faces fit P sid i) (hm : w.Comes m manual b) :
    let v := w.after h rounds depth m
    v.marks = w.marks ++ [.start sid i] ∨
    v.Faces fit P sid i ∧ manual = false ∧ w.engine.breaking = true ∧ h.Flags w.memory i ∧
      v.marks = w.marks ++ [.stop sid (h.label i)] := by
  have hb : b.Faces fit P sid i ∧ b.engine.breaking = w.engine.breaking ∧ b.memory = w.memory ∧
      b.marks = w.marks := by
    refine ⟨?_, ?_⟩
    · cases hm with
      | fired hrun => exact hw.of_same rfl rfl rfl (.of_eq rfl) id
      | byHand hstarted hpaused => exact hw
    · cases hm <;> exact ⟨rfl, rfl, rfl⟩
  obtain ⟨hfaces, hbreaking, hmemory, hmarks⟩ := hb
  obtain ⟨hawake, hrun⟩ := hm.awake
  have hlasts : b.engine.phase ≠ .terminated := by rcases hawake with hp | hp <;> simp [hp]
  have hstep := hfaces.executes hs hh rounds depth hlasts hrun
    (fun t => discard (World.serve h rounds depth (.fire t)))
  unfold Act.Ensures at hstep
  intro v
  rw [show v = _ from (hm.outcome rounds depth rfl).1, ← hbreaking, ← hmemory, ← hmarks]
  exact hstep

/-- No move attempts anything else. -/
lemma after (hw : w.Faces fit P sid i) (hm : w.Admits fit m) :
    let v := w.after h rounds depth m
    v.attempts = w.attempts ++ [(sid, i)] ∨ v.Faces fit P sid i ∧ v.attempts = w.attempts := by
  intro v
  by_cases hcomes : ∃ manual b, w.Comes m manual b
  · obtain ⟨manual, b, hcomes⟩ := hcomes
    rcases hw.comes hs hh rounds depth hcomes with hmarks | ⟨hfaces, -, -, -, hmarks⟩
    · exact .inl (attempts_of_marks hmarks)
    · exact .inr ⟨hfaces, (attempts_of_marks hmarks).trans (List.append_nil _)⟩
  · simp only [not_exists] at hcomes
    refine .inr ?_
    cases m with
    | operate r =>
      rcases hm.step_or_inner with rfl | hr
      · obtain ⟨x, hguarded, -⟩ := hw.guarded
        rw [show v = w from step_unless_paused rounds depth hguarded.mortal (hcomes true)]
        exact ⟨hw, rfl⟩
      · exact hw.serve hs hh rounds (depth + 1) hr
    | fire t =>
      by_cases ht : t = w.ticket
      · subst ht
        have hidle : w.engine.phase ≠ .running := fun hrun => hcomes false _ (.fired hrun)
        have hv : v = w.altered (·.unarmed) := congrArg Prod.snd (fire_not_running h rounds depth hidle)
        rw [hv]
        exact ⟨hw.of_same rfl rfl rfl (.of_eq rfl) id, rfl⟩
      · rw [show v = _ from after_stale rounds depth ht]
        exact ⟨hw.of_same rfl rfl rfl (.of_eq rfl) id, rfl⟩
    | drift clock => exact ⟨hw.of_same rfl rfl rfl (.of_eq rfl) fun _ => hm, rfl⟩

/-- Whatever happens later, the first instruction that is attempted is that one. -/
lemma replay (hw : w.Faces fit P sid i) {moves : List (Move D)} (hm : Plays h rounds depth fit w moves) :
    let v := w.replay h rounds depth moves
    (∃ rest, v.attempts = w.attempts ++ (sid, i) :: rest) ∨
    v.Faces fit P sid i ∧ v.attempts = w.attempts := by
  induction moves generalizing w with
  | nil => exact .inr ⟨hw, rfl⟩
  | cons m moves ih =>
    obtain ⟨hmove, hrest⟩ := hm
    rcases hw.after hs hh rounds depth hmove with hnow | ⟨hfaces, hsame⟩
    · obtain ⟨rest, hattempts⟩ :=
        (replay_continues h rounds depth (w.after h rounds depth m) moves).filterMap Deed.attempt?
      have hgrown : (w.replay h rounds depth (m :: moves)).attempts =
          (w.after h rounds depth m).attempts ++ rest := hattempts.symm
      exact .inl ⟨rest, by rw [hgrown, hnow, ← List.append_cons]⟩
    · exact hsame ▸ ih hfaces hrest

end Faces

/-- What becomes of a run whose instruction raised: it goes on with that instruction on that strand, unless a
step of the scheduler's stops before it once more. -/
def Retries (h : Host D) (rounds depth : Nat) (fit : D.Clock → Prop) (sid : Nat) (i : D.Instr) (w : World D) :
    Prop :=
  ∀ later, Plays h rounds depth fit w later →
    let v := w.replay h rounds depth later
    (∃ rest, v.attempts = w.attempts ++ (sid, i) :: rest) ∨
    v.attempts = w.attempts ∧
      (v.engine.phase = .paused →
        (v.after h rounds depth (.operate .step)).attempts = w.attempts ++ [(sid, i)]) ∧
      (v.engine.phase = .running →
        (v.after h rounds depth (.fire v.ticket)).attempts = w.attempts ++ [(sid, i)] ∨
        v.engine.breaking = true ∧ h.Flags v.memory i ∧
          (v.after h rounds depth (.fire v.ticket)).marks = v.marks ++ [.stop sid (h.label i)])

lemma Faces.retries (hs : h.scheduler.Defers fit) (hh : h.Mannered P) (rounds depth : Nat)
    (hw : w.Faces fit P sid i) : w.Retries h rounds depth fit sid i := by
  intro later hlater v
  rcases hw.replay hs hh rounds depth hlater with hgrown | ⟨hfaces, hsame⟩
  · exact .inl hgrown
  · change v.Faces fit P sid i at hfaces
    change v.attempts = w.attempts at hsame
    have hbegun {u : World D} (hu : u.marks = v.marks ++ [.start sid i]) :
        u.attempts = w.attempts ++ [(sid, i)] := by
      rw [attempts_of_marks hu, hsame]
      rfl
    refine .inr ⟨hsame, fun hpaused => ?_, fun hrun => ?_⟩
    · have hstep := hfaces.comes hs hh rounds depth (.byHand hfaces.lively.started hpaused)
      rcases hstep with hmarks | ⟨-, hmanual, -⟩
      · exact hbegun hmarks
      · cases hmanual
    · rcases hfaces.comes hs hh rounds depth (.fired hrun) with hmarks | ⟨-, -, hbreaking, hflags, hmarks⟩
      · exact .inl (hbegun hmarks)
      · exact .inr ⟨hbreaking, hflags, hmarks⟩

/-- Once an instruction began, there is no stop that is to be passed. -/
lemma Guarded.after_begun {x : Option (Nat × D.Instr)} (hs : h.scheduler.Defers fit) (hh : h.Mannered P)
    (rounds depth : Nat) (hw : w.Guarded fit P x w.marks) (hm : w.Admits fit m)
    (hbegins : (w.after h rounds depth m).attempts = w.attempts ++ [(sid, i)]) :
    (w.after h rounds depth m).Guarded fit P none (w.after h rounds depth m).marks := by
  -- A move that leaves no mark, or a stop, begins nothing.
  have hsame (more : List (Mark D)) (hmore : more.filterMap Mark.attempt? = [])
      (hmarks : (w.after h rounds depth m).marks = w.marks ++ more) : False := by
    rw [attempts_of_marks hmarks, hmore] at hbegins
    simp at hbegins
  obtain ⟨_, hpassage, -⟩ := hw.after hs hh rounds depth hm
  cases hpassage with
  | rest hv => exact (hsame [] rfl (hv.marks.trans (List.append_nil _).symm)).elim
  | stop _ _ _ _ _ hv => exact (hsame _ rfl hv.marks).elim
  | start _ _ _ hv => exact hv.marks ▸ hv

/-- A failing instruction is contained and tried again. A move that begins an instruction is a step that runs
its code. If the code raises something ordinary that can be worded, the move ends with that; it is told of once,
under its strand, and no step is counted; nothing is deferred; the run has ended if the instruction ended it and
is paused otherwise. Paused, it has the strands that it had, each where it was, in the same order, with those
behind them that the instruction sent out; and what is attempted next, whatever is done in between, is the same
instruction on the same strand. If the code returns, and what is to come after it is no instruction, the run goes
on without that strand and with every other. -/
theorem failing_instruction_contained (hs : h.scheduler.Defers fit) (hh : h.Mannered P)
    (hcheck : Settings.check rate breakpoints timeSlice history = .ok s)
    (hmake : Engine.make run s = .ok w.engine) (hw : Fresh fit P w) (rounds depth : Nat)
    (moves : List (Move D)) (hm : Plays h rounds depth fit w moves) :
    let v := w.replay h rounds depth moves
    ∀ m sid i, v.Admits fit m →
      let u := v.after h rounds depth m
      u.attempts = v.attempts ++ [(sid, i)] →
      ∃ manual b scope z o x, v.Comes m manual b ∧ b.Executes h rounds depth manual sid i scope z ∧
        (runScript (serve h rounds depth) (h.code i scope)).outcome (z.executing sid i manual) = (o, x) ∧
        (∀ f text, o = .error f → f.isOrdinary = true → f.message = .ok text →
          v.verdict h rounds depth m = some f ∧ Contained sid f text v x u ∧
          (u.engine.phase = .paused → u.Retries h rounds depth fit sid i)) ∧
        ∀ j, o = .ok () → h.next x.memory i = .ok (some j) → h.wellFormed j = false →
          x.engine.phase ≠ .terminated →
          v.verdict h rounds depth m = some (h.refusal .successor j) ∧
          ∃ text, (h.refusal .successor j).message = .ok text ∧ Dropped sid (h.refusal .successor j) text v x u := by
  intro v m sid i hadmits u hbegins
  obtain ⟨y, hv, -⟩ := (hw.guarded hcheck hmake).reaches hs hh rounds depth nofun hm
  change v.Guarded fit P y v.marks at hv
  obtain ⟨manual, b, hcomes⟩ := comes_of_attempts hs hh rounds depth hv hadmits
    (fun hsame => by simpa using hbegins.symm.trans hsame)
  obtain ⟨hawake, hrun⟩ := hcomes.awake
  have hb : b.Guarded fit P y v.marks := hcomes.guarded hv
  rcases hstep : (executeStep h (runScript (serve h rounds depth))
    (fun t => discard (serve h rounds depth (.fire t))) manual).outcome b with ⟨o, u'⟩
  obtain ⟨hu, hverdict⟩ := hcomes.outcome rounds depth hstep
  obtain rfl : u = u' := hu
  have hgrew : ((executeStep h (runScript (serve h rounds depth))
      (fun t => discard (serve h rounds depth (.fire t))) manual).outcome b).2.attempts =
        b.attempts ++ [(sid, i)] := by
    have hattempts : b.attempts = v.attempts := by cases hcomes <;> rfl
    rw [hstep, hattempts]
    exact hbegins
  obtain ⟨scope, n, hn, he⟩ := hb.executes_of_attempts hs hh rounds depth hawake hrun hgrew
  rcases hcode : (runScript (serve h rounds depth) (h.code i scope)).outcome
    ((b.turned.withMemory n).executing sid i manual) with ⟨o', x⟩
  refine ⟨manual, b, scope, _, o', x, hcomes, he, hcode, ?_, ?_⟩
  · rintro f text rfl hf htext
    have hfails := hb.fails hs hh hawake hn he hcode hf htext fun t => discard (serve h rounds depth (.fire t))
    unfold Act.Ensures at hfails
    rw [hstep] at hfails
    obtain ⟨rfl, hcontained, hparked⟩ := hfails
    refine ⟨hverdict, hcontained.of_same hcomes.same, fun hpaused => ?_⟩
    have hguarded : u.Guarded fit P none u.marks := hv.after_begun hs hh rounds depth hadmits hbegins
    have hstarted : u.engine.started = true := hguarded.mortal.started_iff.2 (by simp [hpaused])
    exact Faces.retries hs hh rounds depth
      ⟨⟨none, hguarded, nofun⟩, ⟨hstarted, fun _ => .inr hpaused⟩, fun _ => hparked hpaused⟩
  · rintro j rfl hnext hbad hlasts
    have hlined : b.roster.Lined := by
      have hroster : b.roster = v.roster := by cases hcomes <;> rfl
      rw [hroster]
      exact replay_lined h rounds depth moves hw.lined
    obtain ⟨text, htext⟩ := (refusal_isPlain h .successor j).told
    have hderails := hb.derails hs hh hawake hn hlined he hcode hnext hbad htext hlasts
      fun t => discard (serve h rounds depth (.fire t))
    unfold Act.Ensures at hderails
    rw [hstep] at hderails
    obtain ⟨rfl, hdropped⟩ := hderails
    exact ⟨hverdict, text, htext, hdropped.of_same hcomes.same⟩

/-- The first block fails: its run stays paused with both strands, and once it is resumed the same block of the
same strand is begun again. The second block, executed by hand, costs its run the strand. -/
theorem blundering_contained :
    let r := Block.blunderingRun
    let fit : Clockwork → Prop := fun c => c.kind ≠ .eager
    let v := r.world.replay r.host 1 5 [.operate (.start none)]
    let u := v.after r.host 1 5 (.fire ⟨0, 1⟩)
    let later : List (Move Block.dialect) := [.operate .resume, .operate (.spawn (some 1) .fresh)]
    let y := u.replay r.host 1 5 later
    let v' := r.world.replay r.host 1 5 [.operate (.start (some 1)), .operate .pause]
    let u' := v'.after r.host 1 5 (.operate .step)
    u.attempts = v.attempts ++ [(0, 0)] ∧ u.engine.phase = .paused ∧ u.engine.live = [0, 1] ∧
      (∃ f x, v.verdict r.host 1 5 (.fire ⟨0, 1⟩) = some f ∧ Contained 0 f "tripped" v x u) ∧
      Plays r.host 1 5 fit u later ∧
      (y.after r.host 1 5 (.fire y.ticket)).attempts = u.attempts ++ [(0, 0)] ∧
      u'.attempts = v'.attempts ++ [(0, 1)] ∧
      (∃ text x, Dropped 0 (r.host.refusal .successor (2 : Nat)) text v' x u') ∧ u'.engine.phase = .halted := by
  intro r fit
  have hfresh : Fresh fit Block.Memory.Calm r.world :=
    Block.Run.prepare_fresh Block.blunderingRun_prepared nofun nofun
  have hcontained (moves : List (Move Block.dialect)) (hplays : Plays r.host 1 5 fit r.world moves) :=
    failing_instruction_contained (h := r.host) Block.clockwork_defers
      (Block.host_tame Block.blundering_orderly r.scope).mannered Settings.check_defaults rfl hfresh 1 5 moves
      hplays
  have hfirst := hcontained [.operate (.start none)] ⟨trivial, trivial⟩ (.fire ⟨0, 1⟩) 0 0
  have hsecond := hcontained [.operate (.start (some 1)), .operate .pause] ⟨trivial, trivial, trivial⟩
    (.operate .step) 0 1
  -- The worlds are named: what is to be computed of them is computed of the runs that lead there.
  dsimp only at hfirst hsecond ⊢
  generalize hv : r.world.replay r.host 1 5 [.operate (.start none)] = v at hfirst ⊢
  generalize hv' : r.world.replay r.host 1 5 [.operate (.start (some 1)), .operate .pause] = v' at hsecond ⊢
  generalize hu : v.after r.host 1 5 (.fire ⟨0, 1⟩) = u at hfirst ⊢
  generalize hu' : v'.after r.host 1 5 (.operate .step) = u' at hsecond ⊢
  generalize hlater : ([.operate .resume, .operate (.spawn (some 1) .fresh)] : List (Move Block.dialect)) = later
  generalize hy : u.replay r.host 1 5 later = y
  have hadmits : v.Admits fit (.fire ⟨0, 1⟩) := by
    rw [← hv]
    exact admits_fire (by decide +kernel)
  have hbegins : u.attempts = v.attempts ++ [(0, 0)] := by
    rw [← hu, ← hv]
    decide +kernel
  have hbegins' : u'.attempts = v'.attempts ++ [(0, 1)] := by
    rw [← hu', ← hv']
    decide +kernel
  have hpaused : u.engine.phase = .paused ∧ u.engine.live = [0, 1] := by
    rw [← hu, ← hv]
    decide +kernel
  have hplays : Plays r.host 1 5 fit u later := hlater ▸ ⟨trivial, trivial, trivial⟩
  have hfailing : ∃ f x, v.verdict r.host 1 5 (.fire ⟨0, 1⟩) = some f ∧ Contained 0 f "tripped" v x u ∧
      u.Retries r.host 1 5 fit 0 0 := by
    obtain ⟨manual, b, scope, z, o, x, hcomes, he, hcode, hfails, -⟩ := hfirst hadmits hbegins
    obtain ⟨rfl, rfl⟩ := hcomes.of_fire
    obtain rfl := he.eq_turned (by rw [← hv]; decide +kernel)
    have hscope : ((v.altered (·.unarmed)).turned.engine.strand? 0).map (fun s => (s.cursor, s.scope)) =
        some (some 0, 0) := by
      rw [← hv]
      decide +kernel
    obtain rfl : 0 = scope := by simpa using hscope.symm.trans he.strand
    have ho : (Act.fault? o).map (fun f => (f.isOrdinary, f.message.toOption)) = some (true, some "tripped") := by
      rw [show o = _ from (congrArg Prod.fst hcode).symm, ← hv]
      decide +kernel
    rcases o with f | _
    · obtain ⟨hf, hmessage⟩ : f.isOrdinary = true ∧ f.message.toOption = some "tripped" := by
        simpa [Act.fault?] using ho
      have htext : f.message = .ok "tripped" := Act.except_toOption_eq_some.mp hmessage
      obtain ⟨hverdict, hwhole, hretries⟩ := hfails f "tripped" rfl hf htext
      exact ⟨f, x, hverdict, hwhole, hretries hpaused.1⟩
    · cases ho
  have hdropping : ∃ text x, Dropped 0 (r.host.refusal .successor (2 : Nat)) text v' x u' := by
    obtain ⟨manual, b, scope, z, o, x, hcomes, he, hcode, -, hdrops⟩ := hsecond trivial hbegins'
    obtain ⟨rfl, rfl⟩ := hcomes.of_operate
    obtain rfl := he.eq_turned (by rw [← hv']; decide +kernel)
    have hdone (w : World Block.dialect) :
        (runScript (serve r.host 1 5) (r.host.code 1 scope)).outcome w = (.ok (), w) := rfl
    rw [hdone] at hcode
    obtain ⟨ho, rfl⟩ := Prod.mk.inj hcode
    have hlinks : (b.turned.executing 0 1 true).memory.links[1]? = some (some 2) := by
      rw [← hv']
      decide +kernel
    have hnext : r.host.next (b.turned.executing 0 1 true).memory 1 = .ok (some 2) := by
      change Block.successor Block.blundering _ 1 = _
      unfold Block.successor
      rw [hlinks]
      rfl
    obtain ⟨-, text, -, hdropped⟩ := hdrops 2 ho.symm hnext rfl (by rw [← hv']; decide +kernel)
    exact ⟨text, _, hdropped⟩
  obtain ⟨f, x, hverdict, hwhole, hretries⟩ := hfailing
  refine ⟨hbegins, hpaused.1, hpaused.2, ⟨f, x, hverdict, hwhole⟩, hplays, ?_, hbegins', hdropping, ?_⟩
  · have hsame : y.attempts = u.attempts := by
      rw [← hy, ← hlater, ← hu, ← hv]
      decide +kernel
    have hrunning : y.engine.phase = .running ∧ y.engine.breaking = false := by
      rw [← hy, ← hlater, ← hu, ← hv]
      decide +kernel
    have hnext := hretries later hplays
    rw [hy] at hnext
    rcases hnext with ⟨rest, hgrown⟩ | ⟨-, -, hfires⟩
    · rw [hsame] at hgrown
      simp at hgrown
    · rcases hfires hrunning.1 with hfired | ⟨hbreaking, -⟩
      · exact hfired
      · cases hbreaking.symm.trans hrunning.2
  · rw [← hu', ← hv']
    decide +kernel

/-- Two failing instructions that are not contained. One raises what cannot be worded: another fault leaves the
step, and nothing is told. The other had the next step fired in the middle of itself: two steps are counted, and
another fault leaves the step. Both runs go on running with nothing deferred. -/
theorem fault_can_break_out :
    (let r := Block.speechlessRun
      let fit : Clockwork → Prop := fun c => c.kind ≠ .eager
      let v := r.world.replay r.host 1 5 [.operate (.start none)]
      let u := v.after r.host 1 5 (.fire ⟨0, 1⟩)
      Block.Run.prepare Block.speechless {} .manual none none .zero = .ok r ∧ r.host.scheduler.Defers fit ∧
        r.host.Mannered Block.Memory.Calm ∧ Fresh fit Block.Memory.Calm r.world ∧
        Plays r.host 1 5 fit r.world [.operate (.start none), .fire ⟨0, 1⟩] ∧
        u.attempts = v.attempts ++ [(0, 0)] ∧
        (v.verdict r.host 1 5 (.fire ⟨0, 1⟩)).map Fault.kind = some .value ∧ u.failures = v.failures ∧
        u.engine.phase = .running ∧ u.engine.pending = none) ∧
    (let r := Block.overlappingRun
      let v := r.world.replay r.host 1 5 [.operate (.start none), .operate (.spawn (some 0) .fresh)]
      let u := v.after r.host 1 5 (.operate .runNext)
      Block.Run.prepare Block.overlapping {} .manual none none .zero = .ok r ∧
        u.failures = v.failures ++ [(0, "boom", "ValueError")] ∧
        (v.verdict r.host 1 5 (.operate .runNext)).map (·.message.toOption) =
          some (some "Strand(sid=0, at=None, steps=1) is not in list") ∧
        u.engine.totalSteps = v.engine.totalSteps + 2 ∧ u.engine.phase = .running ∧ u.engine.pending = none) := by
  refine ⟨⟨Block.speechlessRun_prepared, Block.clockwork_defers,
    (Block.host_tame Block.speechless_orderly _).mannered,
    Block.Run.prepare_fresh Block.speechlessRun_prepared nofun nofun,
    ⟨trivial, admits_fire (by decide +kernel), trivial⟩, ?_, ?_, ?_, ?_, ?_⟩,
    Block.overlappingRun_prepared, ?_, ?_, ?_, ?_, ?_⟩ <;> decide +kernel

end World
end Loom
