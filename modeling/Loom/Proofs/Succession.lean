import Loom.Proofs.Regime
import Loom.Proofs.SoleStep

/-! The succession of engines in a session. Whatever is typed, whatever the programs do and whenever deferred
steps fire, only the current engine of a session can still do something: every engine before it was never
started or has ended, and waits for nothing. However a session is left, that goes for all its engines. -/
namespace Loom

/-- The debugger does not go behind the scheduler's back. -/
lemma Request.IsDebugging.not_meddles {r : Request D} (hr : r.IsDebugging) : ¬ r.Meddles := by
  cases r <;> simp_all [IsDebugging, Meddles]

/-- A program that runs on a scheduler with books, and goes behind its back only if that is `free`. -/
structure Host.Behaves (h : Host D) (books : D.Clock → Option (Nat × Ticket) → Prop) (P : D.Memory → Prop)
    (free : Prop) : Prop where
  scheduler : h.scheduler.Tends books free
  asks : h.Asks P fun r => r.Meddles → free

/-- Whatever a program does, it leaves a fit scheduler fit. -/
lemma Host.behaves_of_stays {h : Host D} {fit : D.Clock → Prop} (hs : h.scheduler.Stays fit) :
    h.Behaves (fun c _ => fit c) (fun _ => True) True :=
  ⟨hs.tends, h.asks_anything.weaken fun _ _ _ => trivial⟩

/-- Ending a run that is under way, without a callback. -/
lemma World.serve_terminate {D : Dialect} (h : Host D) (rounds depth : Nat) {w : World D}
    (hs : w.engine.started = true) (hidle : w.engine.phase ≠ .idle) (hp : w.engine.phase ≠ .terminated) :
    (serve h rounds (depth + 1) (.terminate none)).outcome w = (.ok .self, w.ended h.scheduler) := by
  unfold serve perform
  dsimp only
  rw [Act.outcome_bind, terminate_outcome h w hs (mayFollow_terminated hidle hp)]
  rfl

namespace Session

variable {D : Dialect}

open Act (Upholds)

/-- Only the current engine may wait for a step. -/
structure Sound (books : D.Clock → Option (Nat × Ticket) → Prop) (P : D.Memory → Prop) (free : Prop)
    (s : Session D) : Prop where
  program : ∀ h, s.program = some h → h.Behaves books P free
  past : ∀ e ∈ s.past, e.Over
  engine : ∀ e, s.engine = some e → s.program.isSome ∧ (s.world e).Sole books P
  vacant : s.engine = none → books s.clock none
  memory : P s.memory

/-- No engine is at work, the current one included. -/
structure Settled (books : D.Clock → Option (Nat × Ticket) → Prop) (P : D.Memory → Prop) (free : Prop)
    (s : Session D) : Prop where
  sound : s.Sound books P free
  current : ∀ e ∈ s.engine, e.Over
  books : books s.clock none

/-- A session that was left: without an engine, with nothing left behind by those before. -/
structure Closed (rest : D.Clock → Prop) (s : Session D) : Prop where
  engine : s.engine = none
  past : ∀ e ∈ s.past, e.Over
  clock : rest s.clock

lemma Closed.mono {rest rest' : D.Clock → Prop} {s : Session D} (hs : s.Closed rest)
    (hrest : ∀ c, rest c → rest' c) : s.Closed rest' := ⟨hs.engine, hs.past, hrest _ hs.clock⟩

lemma mute_closed (rest : D.Clock → Prop) : Mute (Closed (D := D) rest) where
  printed _ _ hs := ⟨hs.engine, hs.past, hs.clock⟩

section

variable {b : Bench D} {books : D.Clock → Option (Nat × Ticket) → Prop} {P : D.Memory → Prop} {free : Prop}
  {s v : Session D}

lemma Sound.of_same (hs : s.Sound books P free) (hprogram : v.program = s.program)
    (hengine : v.engine = s.engine) (hpast : v.past = s.past) (hclock : v.clock = s.clock)
    (hmemory : v.memory = s.memory) : v.Sound books P free where
  program := hprogram ▸ hs.program
  past := hpast ▸ hs.past
  engine e he := by
    obtain ⟨hsome, hsole⟩ := hs.engine e (hengine ▸ he)
    have hmemory' : P v.memory := hmemory ▸ hs.memory
    exact ⟨hprogram ▸ hsome, hsole.of_alike (v := v.world e) ⟨rfl, rfl, rfl, rfl, rfl⟩ hclock hmemory'⟩
  vacant hv := hclock ▸ hs.vacant (hengine ▸ hv)
  memory := hmemory ▸ hs.memory

lemma mute_sound : Mute (Sound (D := D) books P free) where
  printed _ _ hs := hs.of_same rfl rfl rfl rfl rfl

/-- The books are right about any scheduler of which they say nothing. -/
lemma Sound.drifted (hs : s.Sound books P free) {clock : D.Clock} (hbooks : ∀ waiting, books clock waiting) :
    Sound books P free { s with clock } where
  program := hs.program
  past := hs.past
  engine e he := by
    obtain ⟨hsome, hsole⟩ := hs.engine e he
    exact ⟨hsome, .inl (hbooks none), hsole.armed, hsole.started_iff, hsole.memory⟩
  vacant _ := hbooks none
  memory := hs.memory

lemma ask_vacant (b : Bench D) (r : Request D) (hs : s.engine = none) :
    (ask b r).outcome s = (.error .noProcess, s) := by
  unfold ask onEngine
  rw [Act.outcome_bind, Act.outcome_get]
  rcases s.program with _ | h <;> simp [hs]

lemma ask_outcome (b : Bench D) (r : Request D) {h : Host D} {e : Engine D} (hp : s.program = some h)
    (he : s.engine = some e) : (ask b r).outcome s =
      (((World.serve h b.rounds b.depth r).outcome (s.world e)).1,
        absorb ((World.serve h b.rounds b.depth r).outcome (s.world e)).2 s) := by
  unfold ask onEngine
  rw [Act.outcome_bind, Act.outcome_get]
  simp [hp, he]

/-- Taking over the world of the current engine. -/
lemma Sound.absorb (hs : s.Sound books P free) (hsome : s.program.isSome) {w : World D}
    (hw : w.Sole books P) : (Session.absorb w s).Sound books P free where
  program := hs.program
  past := hs.past
  engine e he := by
    cases he
    exact ⟨hsome, hw.of_alike ⟨rfl, rfl, rfl, rfl, rfl⟩ rfl hw.memory⟩
  vacant := nofun
  memory := hw.memory

/-- The current engine may be asked for anything that programs may ask for. -/
lemma ask_sound (b : Bench D) {r : Request D} (hr : r.Meddles → free) :
    Upholds (Sound books P free) (ask b r) := by
  intro s hs
  rcases he : s.engine with _ | e
  · exact Act.ensures_of_outcome (ask_vacant b r he) hs
  · obtain ⟨hsome, hsole⟩ := hs.engine e he
    obtain ⟨h, hp⟩ := Option.isSome_iff_exists.1 hsome
    obtain ⟨htends, hasks⟩ := hs.program h hp
    have hserve := (World.Sole.conduct htends hasks.install).serve hasks b.rounds b.depth r hr _ hsole
    exact Act.ensures_of_outcome (ask_outcome b r hp he) (hs.absorb hsome hserve)

/-- An engine that is under way is ended; any other is left alone. -/
lemma endEngine_cases (hdepth : 0 < b.depth) (hs : s.Sound books P free) {e : Engine D}
    (he : s.engine = some e) :
    (∃ h, s.program = some h ∧ e.started = true ∧
        (endEngine b e).outcome s = (.ok (), Session.absorb ((s.world e).ended h.scheduler) s)) ∨
      (e.started = false ∨ e.phase = .terminated) ∧ (endEngine b e).outcome s = (.ok (), s) := by
  obtain ⟨hsome, hsole⟩ := hs.engine e he
  obtain ⟨h, hp⟩ := Option.isSome_iff_exists.1 hsome
  unfold endEngine
  by_cases hlive : (e.started && decide (e.phase ≠ .terminated)) = true
  · obtain ⟨hstarted, hphase⟩ : e.started = true ∧ e.phase ≠ .terminated := by simpa using hlive
    obtain ⟨depth, hdepth⟩ := Nat.exists_eq_succ_of_ne_zero hdepth.ne'
    have hout : (World.serve h b.rounds b.depth (.terminate none)).outcome (s.world e) =
        (.ok .self, (s.world e).ended h.scheduler) := by
      rw [hdepth]
      exact World.serve_terminate h b.rounds depth hstarted (hsole.started_iff.1 hstarted) hphase
    rw [if_pos hlive, Act.outcome_discard, ask_outcome b _ hp he, hout]
    exact .inl ⟨h, hp, hstarted, rfl⟩
  · have hstill : e.started = false ∨ e.phase = .terminated := by
      rcases hstarted : e.started with _ | _
      · exact .inl rfl
      · exact .inr (by simpa [hstarted] using hlive)
    rw [if_neg hlive]
    exact .inr ⟨hstill, rfl⟩

/-- Ending an engine that is under way succeeds, and then no engine is at work. -/
lemma endEngine_settles (hdepth : 0 < b.depth) (hs : s.Sound books P free) {e : Engine D}
    (he : s.engine = some e) :
    (endEngine b e).Ensures s fun r v => r = .ok () ∧ v.Settled books P free := by
  obtain ⟨hsome, hsole⟩ := hs.engine e he
  rcases endEngine_cases hdepth hs he with ⟨h, hp, hstarted, hout⟩ | ⟨hstill, hout⟩
  · have hended := hsole.ended (hs.program h hp).scheduler hstarted
    obtain ⟨hover, hbooks⟩ := hended.leaves_nothing (.inr rfl)
    refine Act.ensures_of_outcome hout ⟨rfl, hs.absorb hsome hended, ?_, hbooks⟩
    rintro e' ⟨⟩
    exact hover
  · obtain ⟨hover, hbooks⟩ := hsole.leaves_nothing hstill
    refine Act.ensures_of_outcome hout ⟨rfl, hs, ?_, hbooks⟩
    intro e' he'
    cases he.symm.trans he'
    exact hover

lemma loadProgram_cases (b : Bench D) (s : Session D) :
    (∃ h, s.program = some h ∧ (loadProgram b).outcome s = (.ok (), s)) ∨
      s.program = none ∧ ((∃ f, (loadProgram b).outcome s = (.error f, s)) ∨
        ∃ h, b.load s.reference = .ok h ∧
          (loadProgram b).outcome s = (.ok (), { s with program := some h })) := by
  unfold loadProgram
  rw [Act.outcome_get_bind]
  rcases hp : s.program with _ | h
  · rcases hl : b.load s.reference with f | h
    · exact .inr ⟨rfl, .inl ⟨f, by simp⟩⟩
    · exact .inr ⟨rfl, .inr ⟨h, rfl, by simp⟩⟩
  · exact .inl ⟨h, rfl, rfl⟩

/-- A new engine for a session: its program is loaded if it is not yet, and the engine made of the settings. -/
def makeEngine (b : Bench D) : Act (Session D) Unit := do
  loadProgram b
  let s ← get
  let engine ← Act.ofExcept (Engine.make s.engineCount s.settings)
  set { s with engine := some engine, past := s.engine.toList ++ s.past }

/-- What holds after a new engine was sought: the program could not be loaded, or the settings do not make an
engine, or it is in place. -/
theorem makeEngine_ensures {L Q : Except Fault Unit → Session D → Prop} (hload : (loadProgram b).Ensures s L)
    (hunloaded : ∀ f t, L (.error f) t → Q (.error f) t)
    (hunmade : ∀ f t, L (.ok ()) t → (Engine.make t.engineCount t.settings : Except Fault (Engine D)) = .error f →
      Q (.error f) t)
    (hmade : ∀ e t, L (.ok ()) t → Engine.make t.engineCount t.settings = .ok e →
      Q (.ok ()) { t with engine := some e, past := t.engine.toList ++ t.past }) :
    (makeEngine b).Ensures s Q := by
  refine hload.bind (fun _ t ht => ?_) hunloaded
  unfold Act.Ensures
  rw [Act.outcome_get_bind, Act.outcome_bind, Act.outcome_ofExcept]
  rcases he : (Engine.make t.engineCount t.settings : Except Fault (Engine D)) with f | e
  · exact hunmade f t ht he
  · exact hmade e t ht he

variable (hload : ∀ reference h, b.load reference = .ok h → h.Behaves books P free)
  (hdepth : 0 < b.depth)

include hload in
/-- Loading the program puts no engine to work. -/
lemma loadProgram_settles (hs : s.Settled books P free) :
    (loadProgram b).Ensures s fun r v => v.Settled books P free ∧ (r = .ok () → v.program.isSome) := by
  rcases loadProgram_cases b s with ⟨h, hp, hout⟩ | ⟨hp, ⟨f, hout⟩ | ⟨h, hl, hout⟩⟩
  · exact Act.ensures_of_outcome hout ⟨hs, fun _ => by simp [hp]⟩
  · exact Act.ensures_of_outcome hout ⟨hs, nofun⟩
  · refine Act.ensures_of_outcome hout ⟨⟨⟨?_, hs.sound.past, ?_, hs.sound.vacant, hs.sound.memory⟩, hs.current,
      hs.books⟩, fun _ => rfl⟩
    · rintro h' ⟨⟩
      exact hload _ h hl
    · intro e he
      exact ⟨rfl, (hs.sound.engine e he).2⟩

/-- A new engine takes the place of one that is not at work any more. -/
lemma Settled.succeeded (hs : s.Settled books P free) (hp : s.program.isSome) {run : Nat}
    {settings : Settings} {e : Engine D} (he : Engine.make run settings = .ok e) :
    Sound books P free { s with engine := some e, past := s.engine.toList ++ s.past } where
  program := hs.sound.program
  past e' he' := by
    rcases List.mem_append.1 he' with he' | he'
    · exact hs.current e' (Option.mem_toList.1 he')
    · exact hs.sound.past e' he'
  engine e' he' := by
    cases he'
    rw [Engine.eq_of_make he]
    exact ⟨hp, .inl hs.books, by simp [world], by simp [world], hs.sound.memory⟩
  vacant := nofun
  memory := hs.sound.memory

include hload in
/-- A new engine is made once no other is at work. -/
lemma make_sound (hs : s.Settled books P free) :
    (makeEngine b).Ensures s fun _ v => v.Sound books P free := by
  exact makeEngine_ensures (loadProgram_settles hload hs) (fun _ _ ht => ht.1.sound)
    (fun _ _ ht _ => ht.1.sound) fun _ _ ht he => ht.1.succeeded (ht.2 rfl) he

include hload hdepth in
lemma renew_sound : Upholds (Sound books P free) (renew b) := by
  refine Upholds.get_bind fun s hs => ?_
  rcases he : s.engine with _ | e
  · exact make_sound hload ⟨hs, by simp [he], hs.vacant he⟩
  · exact (endEngine_settles hdepth hs he).bind (fun _ u hu => make_sound hload hu.2)
      fun _ _ hu => hu.2.sound

include hdepth in
/-- Letting go of the current engine succeeds, and leaves nothing behind. -/
lemma disconnect_closes (hs : s.Sound books P free) :
    (disconnect b).Ensures s fun r v => r = .ok () ∧ v.Sound books P free ∧ v.Closed (books · none) := by
  rcases he : s.engine with _ | e
  · have hout : (disconnect b).outcome s = (.ok (), s) := by
      unfold disconnect
      rw [Act.outcome_get_bind, he]
      rfl
    exact Act.ensures_of_outcome hout ⟨rfl, hs, he, hs.past, hs.vacant he⟩
  · have hout : (disconnect b).outcome s = (endEngine b e >>= fun _ => modify fun s =>
        { s with engine := none, past := s.engine.toList ++ s.past } : Act (Session D) Unit).outcome s := by
      unfold disconnect
      rw [Act.outcome_get_bind, he]
    refine Act.Ensures.of_same ?_ hout
    refine (endEngine_settles hdepth hs he).bind (fun _ u hu => ?_) fun _ _ hu => absurd hu.1 nofun
    have hpast : ∀ e ∈ u.engine.toList ++ u.past, e.Over := by
      intro e' he'
      rcases List.mem_append.1 he' with he' | he'
      · exact hu.2.current e' (Option.mem_toList.1 he')
      · exact hu.2.sound.past e' he'
    have hsound : Sound books P free { u with engine := none, past := u.engine.toList ++ u.past } :=
      ⟨hu.2.sound.program, hpast, by simp, fun _ => hu.2.books, hu.2.sound.memory⟩
    exact ⟨rfl, hsound, rfl, hpast, hu.2.books⟩

include hload hdepth in
/-- Everything that a debugger does leaves only the current engine at work. -/
lemma regime_sound : Regime b (Sound books P free) where
  mute := mute_sound
  posted _ _ hs := hs.of_same rfl rfl rfl rfl rfl
  asked hr := ask_sound b fun hmeddles => absurd hmeddles hr.not_meddles
  renew := renew_sound hload hdepth
  disconnect s hs := (disconnect_closes hdepth hs).mono fun _ _ hv => hv.2.1
  rate ms := by
    refine mute_sound.guarded (.bind (upholds_ensure (renew_sound hload hdepth)) fun _ =>
      .discard (ask_sound b nofun)) fun _ => .get_then fun s => ?_
    refine .bind (.modify fun _ hs => hs.of_same rfl rfl rfl rfl rfl) fun _ => ?_
    exact mute_sound.announce _ _
  breakpoints on := by
    refine .bind (.modify fun _ hs => hs.of_same rfl rfl rfl rfl rfl) fun _ => .get_then fun s => ?_
    split_ifs
    · exact .discard (ask_sound b nofun)
    · exact .pure _

/-- How a session can be left. However that ends, nothing is left behind; `rest` says what that means for
the scheduler. -/
structure Leaves (b : Bench D) (r : Registry) (rest : D.Clock → Prop) (s : Session D) : Prop where
  disconnect : (disconnect b).Ensures s fun o v => o = .ok () ∧ v.Closed rest
  exit : ∀ registry c args, c.verb = some .exit →
    (runCommand b registry c args).Ensures s fun _ v => v.Closed rest
  batch : ∀ lines, (batch b r lines).Ensures s fun _ v => v.Closed rest
  console : ∀ inputs, (console b r inputs).Ensures s fun _ v => v.Closed rest

lemma Leaves.mono {r : Registry} {rest rest' : D.Clock → Prop} (hs : s.Leaves b r rest)
    (hrest : ∀ c, rest c → rest' c) : s.Leaves b r rest' where
  disconnect := hs.disconnect.mono fun _ _ hv => ⟨hv.1, hv.2.mono hrest⟩
  exit registry c args hc := (hs.exit registry c args hc).mono fun _ _ hv => hv.mono hrest
  batch lines := (hs.batch lines).mono fun _ _ hv => hv.mono hrest
  console inputs := (hs.console inputs).mono fun _ _ hv => hv.mono hrest

include hdepth in
/-- What follows a disconnection leaves it at that. -/
lemma disconnect_then (hs : s.Sound books P free) {k : Unit → Act (Session D) α}
    (hk : ∀ x, Upholds (Closed (books · none)) (k x)) :
    (disconnect b >>= k).Ensures s fun _ v => v.Closed (books · none) :=
  Act.Ensures.bind (disconnect_closes hdepth hs) (fun x v hv => hk x v hv.2.2) fun _ _ hv => hv.2.2

include hdepth in
lemma performExit_closes (hs : s.Sound books P free) :
    (performExit b).Ensures s fun _ v => v.Closed (books · none) := by
  unfold Act.Ensures performExit
  rw [Act.outcome_get_bind]
  refine disconnect_then hdepth hs fun _ => ?_
  split
  · exact .bind (.ofExcept _) fun _ => .bind ((mute_closed _).announce _ _) fun _ => .throw _
  · exact .throw _

/-- Opening a mailbox for notices succeeds. -/
lemma attachNotices_then (hs : s.Sound books P free) {k : Nat → Act (Session D) α}
    {Q : Except Fault α → Session D → Prop} (hk : ∀ box v, v.Sound books P free → (k box).Ensures v Q) :
    (attachNotices >>= k).Ensures s Q :=
  hk s.bus.boxes.size _ (hs.of_same rfl rfl rfl rfl rfl)

lemma closeNotices_then (hs : s.Sound books P free) (box : Nat) {k : Unit → Act (Session D) α}
    {Q : Except Fault α → Session D → Prop} (hk : ∀ v, v.Sound books P free → (k ()).Ensures v Q) :
    (closeNotices box >>= k).Ensures s Q :=
  hk _ (hs.of_same rfl rfl rfl rfl rfl)

include hload hdepth in
lemma batch_closes (hs : s.Sound books P free) (r : Registry) (lines : List String) :
    (batch b r lines).Ensures s fun _ v => v.Closed (books · none) := by
  have hregime := regime_sound hload hdepth
  refine attachNotices_then hs fun box u hu => ?_
  refine (hregime.runLines r lines u hu).attempt_bind fun result t ht => ?_
  refine closeNotices_then ht box fun v hv => ?_
  exact disconnect_then hdepth hv fun _ => .ofExcept result

/-- So does putting a dispatcher to work on it. -/
lemma openConsole_then (hs : s.Sound books P free) {k : Nat → Act (Session D) α}
    {Q : Except Fault α → Session D → Prop} (hk : ∀ box v, v.Sound books P free → (k box).Ensures v Q) :
    (openConsole >>= k).Ensures s Q :=
  hk s.bus.boxes.size _ (hs.of_same rfl rfl rfl rfl rfl)

lemma closed_posted (rest : D.Clock → Prop) {v : Session D} (bus : Bus) (out : String)
    (hv : v.Closed rest) : Closed rest { v with bus, out } := ⟨hv.engine, hv.past, hv.clock⟩

include hload hdepth in
lemma console_closes (hs : s.Sound books P free) (r : Registry) (inputs : List Input) :
    (console b r inputs).Ensures s fun _ v => v.Closed (books · none) := by
  have hregime := regime_sound hload hdepth
  refine openConsole_then hs fun box u hu => ?_
  refine (hregime.converse r [] inputs u hu).attempt_bind fun result t ht => ?_
  unfold closeConsole
  rw [bind_assoc]
  refine disconnect_then hdepth ht fun _ => .bind (.bind ?_ fun _ => ?_) fun _ => .ofExcept result
  · exact .get_then fun _ => fun v hv => closed_posted _ _ _ hv
  · exact fun v hv => closed_posted _ _ v.out hv

include hload hdepth in
lemma leaves_of_sound (hs : s.Sound books P free) (r : Registry) : s.Leaves b r (books · none) where
  disconnect := (disconnect_closes hdepth hs).mono fun _ _ hv => ⟨hv.1, hv.2.2⟩
  exit registry c args hc := by
    unfold runCommand
    rw [hc]
    exact performExit_closes hdepth hs
  batch lines := batch_closes hload hdepth hs r lines
  console inputs := console_closes hload hdepth hs r inputs

/-- Reading the options makes no engine. -/
lemma plan_idle (b : Bench D) (env : Settings.Environment) (args : List String) :
    Upholds (fun s => s.Sound books P free ∧ s.engine = none) (plan b env args) := by
  have hmute : Mute (D := D) fun s => s.Sound books P free ∧ s.engine = none :=
    ⟨fun _ _ hs => ⟨hs.1.of_same rfl rfl rfl rfl rfl, hs.2⟩⟩
  have hconfigure (given : Arguments.Given) :
      Upholds (fun s => s.Sound books P free ∧ s.engine = none) (configure b env given) := by
    refine .bind (.ofExcept _) fun _ => .bind (.discard (.ofExcept _)) fun _ => .modify fun _ hs => ?_
    exact ⟨hs.1.of_same rfl rfl rfl rfl rfl, hs.2⟩
  unfold plan
  rcases launchForm.read args with stop | given
  · cases stop with
    | help => exact .bind (hmute.say _) fun _ => .throw _
    | complaint why => exact .bind (hmute.sayError _) fun _ => .throw _
  · refine .attempt_bind (hconfigure given) fun result => ?_
    rcases result with f | _
    · dsimp only
      split_ifs
      · exact .bind (.ofExcept _) fun _ => .bind (hmute.sayError _) fun _ => .pure _
      · exact .throw f
    · dsimp only
      split <;> exact .pure _

include hload hdepth in
/-- A whole run of the debugger leaves nothing behind. -/
lemma launch_closes (hs : s.Sound books P free) (hnone : s.engine = none) (env : Settings.Environment)
    (args : List String) (inputs : List Input) :
    (launch b env args inputs).Ensures s fun _ v => v.Closed (books · none) := by
  have hidle {v : Session D} (hv : v.Sound books P free ∧ v.engine = none) : v.Closed (books · none) :=
    ⟨hv.2, hv.1.past, hv.1.vacant hv.2⟩
  refine Act.Ensures.bind (plan_idle b env args s ⟨hs, hnone⟩) (fun p v hv => ?_) fun _ _ hv => hidle hv
  cases p with
  | finished code => exact hidle hv
  | lines texts => exact batch_closes hload hdepth hv.1 .standard texts
  | console =>
    refine (console_closes hload hdepth hv.1 .standard inputs).attempt_bind fun result u hu => ?_
    unfold settleConsole
    split
    · exact hu
    · split_ifs
      · exact (mute_closed _).leavePrompt u hu
      · exact hu

end

/-- What can happen to a session: a line is typed, deferred steps fire, notices are handed out, and engines
are asked for and let go of. -/
inductive Doing (D : Dialect) where
  | line (text : String)
  | fireNext
  | fireAll (limit : Option Int)
  /-- The scheduler fires a ticket out of turn. -/
  | fire (t : Ticket)
  /-- The scheduler changes by itself. -/
  | drift (clock : D.Clock)
  | pump
  | ensure
  | renew
  | disconnect

namespace Doing

/-- The scheduler does something of its own accord. -/
def Meddles : Doing D → Prop
  | fire _ | drift _ => True
  | _ => False

/-- What may happen while books are kept: a ticket is fired out of turn only if that is `free`, and the
scheduler changes only so that the books stay right. -/
def Allowed (books : D.Clock → Option (Nat × Ticket) → Prop) (free : Prop) : Doing D → Prop
  | fire _ => free
  | drift clock => ∀ waiting, books clock waiting
  | _ => True

lemma allowed_of_not_meddles {books : D.Clock → Option (Nat × Ticket) → Prop} {free : Prop} {d : Doing D}
    (hd : ¬ d.Meddles) : d.Allowed books free := by
  cases d <;> simp_all [Meddles, Allowed]

lemma allowed_of_fit {fit : D.Clock → Prop} {doings : List (Doing D)}
    (hfit : ∀ clock, .drift clock ∈ doings → fit clock) :
    ∀ d ∈ doings, d.Allowed (fun c _ => fit c) True := by
  intro d hd
  cases d with
  | drift clock => exact fun _ => hfit clock hd
  | _ => exact trivial

/-- Carry it out, whatever comes of it. -/
def act (b : Bench D) (r : Registry) : Doing D → Act (Session D) Unit
  | line text => discard (dispatch b r text)
  | fireNext => discard (Session.fireNext b)
  | fireAll limit => discard (Session.fireAll b limit)
  | fire t => discard (ask b (.fire t))
  | drift clock => modify fun s => { s with clock }
  | pump => discard (Session.pump b)
  | ensure => Session.ensure b
  | renew => Session.renew b
  | disconnect => Session.disconnect b

end Doing

/-- The session after a sequence of doings. -/
def after (b : Bench D) (r : Registry) (s : Session D) (doings : List (Doing D)) : Session D :=
  doings.foldl (fun s d => ((d.act b r).outcome s).2) s

/-- A session in which nothing has happened yet. -/
structure Unused (rest : D.Clock → Prop) (s : Session D) : Prop where
  program : s.program = none
  engine : s.engine = none
  past : s.past = []
  clock : rest s.clock

section

variable {b : Bench D} {books : D.Clock → Option (Nat × Ticket) → Prop} {P : D.Memory → Prop} {free : Prop}
  {s : Session D}

lemma Unused.sound (hs : s.Unused (books · none)) (hm : P s.memory) : s.Sound books P free where
  program h hp := by simp [hs.program] at hp
  past e he := by simp [hs.past] at he
  engine e he := by simp [hs.engine] at he
  vacant _ := hs.clock
  memory := hm

variable (hload : ∀ reference h, b.load reference = .ok h → h.Behaves books P free) (hdepth : 0 < b.depth)

include hload hdepth

lemma act_sound (r : Registry) {d : Doing D} (hd : d.Allowed books free) :
    Upholds (Sound books P free) (d.act b r) := by
  have hregime := regime_sound hload hdepth
  cases d with
  | line text => exact .discard (hregime.dispatch r text)
  | fireNext => exact .discard hregime.fireNext
  | fireAll limit => exact .discard (hregime.fireAll limit)
  | fire t => exact .discard (ask_sound b fun _ => hd)
  | drift clock => exact .modify fun s hs => hs.drifted hd
  | pump => exact .discard hregime.pump
  | ensure => exact upholds_ensure hregime.renew
  | renew => exact hregime.renew
  | disconnect => exact hregime.disconnect

lemma after_sound (r : Registry) (hs : s.Sound books P free) {doings : List (Doing D)}
    (hd : ∀ d ∈ doings, d.Allowed books free) : (s.after b r doings).Sound books P free := by
  induction doings generalizing s with
  | nil => exact hs
  | cons d rest ih =>
    obtain ⟨hfirst, hrest⟩ := List.forall_mem_cons.1 hd
    exact ih (act_sound hload hdepth r hfirst s hs) hrest

end

/-- Only one engine of a session is ever at work. Whatever was typed and fired, every engine before the
current one was never started or has ended, and waits for nothing; and however the session is left, that
goes for all of them. This holds for every scheduler that fires no step while taking it, however it changes
meanwhile, and for programs that do what they like. On one agenda that nobody meddles with at most one call
waits, and none once the session was left. -/
theorem one_engine_at_work (b : Bench D) (r : Registry) (hdepth : 0 < b.depth) :
    (∀ fit : D.Clock → Prop, (∀ reference h, b.load reference = .ok h → h.scheduler.Stays fit) →
      ∀ s : Session D, s.Unused fit →
        ∀ doings : List (Doing D), (∀ clock, .drift clock ∈ doings → fit clock) →
        let v := s.after b r doings
        (∀ e ∈ v.past, e.Over) ∧ v.Leaves b r (fun _ => True) ∧
          ∀ env args inputs, (launch b env args inputs).Ensures s fun _ u => u.Closed fun _ => True) ∧
    ∀ (agenda : D.Clock → Agenda Ticket) (fit : D.Clock → Prop) (P : D.Memory → Prop),
      (∀ reference h, b.load reference = .ok h →
        h.scheduler.OnAgenda agenda fit ∧ h.Asks P fun r => ¬ r.Meddles) →
      ∀ s : Session D, s.Unused (fun c => fit c ∧ (agenda c).Holds none) → P s.memory →
        ∀ doings : List (Doing D), (∀ d ∈ doings, ¬ d.Meddles) →
        let v := s.after b r doings
        (∀ e ∈ v.past, e.Over) ∧ (agenda v.clock).pending ≤ 1 ∧
          v.Leaves b r (fun c => (agenda c).pending = 0) ∧
          ∀ env args inputs, (launch b env args inputs).Ensures s fun _ u =>
            u.Closed fun c => (agenda c).pending = 0 := by
  constructor
  · intro fit hload s hs doings hfit v
    have hbehaves : ∀ reference h, b.load reference = .ok h →
        h.Behaves (fun c _ => fit c) (fun _ => True) True := fun reference h hl =>
      Host.behaves_of_stays (hload reference h hl)
    have hsound : s.Sound (fun c _ => fit c) (fun _ => True) True := hs.sound trivial
    have hv : v.Sound (fun c _ => fit c) (fun _ => True) True :=
      after_sound hbehaves hdepth r hsound (Doing.allowed_of_fit hfit)
    refine ⟨hv.past, (leaves_of_sound hbehaves hdepth hv r).mono fun _ _ => trivial, fun env args inputs => ?_⟩
    exact (launch_closes hbehaves hdepth hsound hs.engine env args inputs).mono fun _ _ hu =>
      hu.mono fun _ _ => trivial
  · intro agenda fit P hload s hs hm doings hd v
    have hbehaves : ∀ reference h, b.load reference = .ok h →
        h.Behaves (Scheduler.Books agenda fit) P False := fun reference h hl =>
      ⟨(hload reference h hl).1.tends, (hload reference h hl).2⟩
    have hsound : s.Sound (Scheduler.Books agenda fit) P False := Unused.sound hs hm
    have hv : v.Sound (Scheduler.Books agenda fit) P False :=
      after_sound hbehaves hdepth r hsound fun d hm => Doing.allowed_of_not_meddles (hd d hm)
    have hnone (c : D.Clock) (hc : Scheduler.Books agenda fit c none) : (agenda c).pending = 0 := hc.2.pending
    refine ⟨hv.past, ?_, (leaves_of_sound hbehaves hdepth hv r).mono hnone, fun env args inputs => ?_⟩
    · obtain ⟨waiting, hwaiting⟩ : ∃ waiting, Scheduler.Books agenda fit v.clock waiting := by
        rcases he : v.engine with _ | e
        · exact ⟨_, hv.vacant he⟩
        · exact (hv.engine e he).2.books.elim (fun h => ⟨_, h⟩) fun h => ⟨_, h⟩
      rw [hwaiting.2.pending]
      cases waiting <;> simp
    · exact (launch_closes hbehaves hdepth hsound hs.engine env args inputs).mono fun _ _ hu => hu.mono hnone

end Session

/-- A tame program asks for operations only. -/
lemma Host.Tame.asks {D : Dialect} {h : Host D} {P : D.Memory → Prop} (hh : h.Tame P) :
    h.Asks P Request.IsOperation where
  code i scope := (hh.code i scope).weaken (fun r hr => by cases r <;> trivial) fun _ _ => trivial
  breaks i := (hh.breaks i).weaken (fun _ => False.elim) fun _ _ => trivial
  farewell f := hh.farewell f
  install := hh.install

namespace Session

/-- A program that pauses and resumes its own run, started twice: the first run has ended when the second
begins, and the agenda has one call while a run is under way. -/
theorem restless_succession :
    let b : Bench Block.dialect :=
      { load := fun _ => .ok (Block.restlessRun .manual).host, rounds := 5, depth := 5 }
    let s : Session Block.dialect :=
      { reference := "restless"
        clock := { kind := .manual }
        memory := (Block.restlessRun .manual).world.memory }
    let v := s.after b .standard [.line "start", .fireNext, .line "start --paused; rate 5", .line "cont"]
    v.past.length = 1 ∧ (∀ e ∈ v.past, e.Over) ∧ v.clock.agenda.pending = 1 ∧ v.clock.agenda.pending ≤ 1 ∧
      v.Leaves b .standard fun c => c.agenda.pending = 0 := by
  intro b s v
  have hload : ∀ reference h, b.load reference = .ok h →
      h.scheduler.OnAgenda (fun c : Clockwork => c.agenda) (fun c => c.refusal = none ∧ c.keeps = false) ∧
        h.Asks Block.Memory.Calm fun r => ¬ r.Meddles := by
    rintro reference h ⟨⟩
    exact ⟨Scheduler.clockwork_onAgenda, (Block.host_tame
      (Block.restless_orderly Fault.IsPlain.ordinary) (Block.restlessRun .manual).scope).asks.weaken
        fun _ hr => hr.not_meddles⟩
  obtain ⟨-, hagenda⟩ := one_engine_at_work b .standard (by decide)
  obtain ⟨hpast, hpending, hleaves, -⟩ := hagenda _ _ _ hload s
    ⟨rfl, rfl, rfl, ⟨rfl, rfl⟩, Agenda.holds_empty⟩ nofun
    [.line "start", .fireNext, .line "start --paused; rate 5", .line "cont"] (by simp [Doing.Meddles])
  with_reducible exact ⟨by decide +kernel, hpast, by decide +kernel, hpending, hleaves⟩

end Session

end Loom
