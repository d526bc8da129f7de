import Loom.Proofs.Succession

/-! What a failed command leaves behind. A request is met or changes nothing, and a command looks before it
asks for anything; so a command that fails leaves the session as it was but for what it printed. There are two
exceptions: `rate` puts a fresh engine in place of a spent one before it looks at the rate, and `continue`
calls off the step that waits before the scheduler has taken another. -/
namespace Loom

namespace Act

variable {σ α β : Type} {s : σ} {a : Act σ α} {Q : Fault → σ → Prop}

/-- What holds of the fault and of the state left behind, if a computation fails. -/
def OnFault (a : Act σ α) (s : σ) (Q : Fault → σ → Prop) : Prop :=
  a.Ensures s fun o v => ∀ f, o = .error f → Q f v

namespace OnFault

lemma of_outcome {r : Except Fault α} {v : σ} (ha : a.outcome s = (r, v)) (hQ : ∀ f, r = .error f → Q f v) :
    a.OnFault s Q := ensures_of_outcome ha hQ

lemma bind {k : α → Act σ β} (ha : a.OnFault s Q) (hk : ∀ x v, (k x).OnFault v Q) :
    (a >>= k).OnFault s Q := by
  refine Ensures.bind ha (fun x v _ => hk x v) fun f v hv g hg => ?_
  cases hg
  exact hv f rfl

lemma pure (x : α) : (Pure.pure x : Act σ α).OnFault s Q := fun _ => nofun

lemma discard (ha : a.OnFault s Q) : (discard a).OnFault s Q := by
  unfold OnFault Ensures at ha ⊢
  rw [outcome_discard]
  rcases ho : a.outcome s with ⟨f | x, v⟩ <;> rw [ho] at ha
  · rintro _ ⟨⟩
    exact ha f rfl
  · exact nofun

end OnFault

lemma Upholds.onFault {I : σ → Prop} (ha : Upholds I a) (hs : I s) : a.OnFault s fun _ => I :=
  (ha s hs).mono fun _ _ hv _ _ => hv

end Act

/-- Requests that are met or change nothing. -/
def Request.IsAtomic : Request D → Prop
  | pause | rate _ | terminate none => True
  | _ => False

/-- The verb of a line that is one command. -/
def Registry.verb? (r : Registry) (line : String) : Option Verb :=
  match CommandLine.commands line with
  | .ok [name :: _] => (r.find? name).bind (·.verb)
  | _ => none

/-- A line that is one command, as far as it can be read; it may be `start` or `step` only with arguments that
do not fit. -/
def Registry.Single (r : Registry) (line : String) : Prop :=
  ∀ commands, CommandLine.commands line = .ok commands → ∃ name args, commands = [name :: args] ∧
    ∀ c ∈ r.find? name, c.verb = some .start ∨ c.verb = some .step → ∃ stop, c.form.read args = .error stop

namespace World

variable {D : Dialect} {w : World D}

lemma pause_atomic (h : Host D) : (pause h).OnFault w fun _ v => v = w :=
  pause_ensures (fun _ _ _ _ => rfl) (fun _ _ _ => nofun) fun _ _ _ => nofun

lemma setRate_atomic (given : Option Value) : (setRate given).OnFault w fun _ v => v = w :=
  setRate_ensures (fun _ _ _ _ => rfl) fun _ _ => nofun

lemma terminate_atomic (h : Host D) (hlife : w.engine.started = true → w.engine.phase ≠ .idle) :
    (terminate h).OnFault w fun _ v => v = w := by
  rcases terminate_cases h w hlife with ⟨f, -, hout⟩ | ⟨-, -, hout⟩
  · exact .of_outcome hout fun _ _ => rfl
  · exact .of_outcome hout fun _ => nofun

lemma serve_atomic (h : Host D) (rounds depth : Nat) {r : Request D} (hr : r.IsAtomic)
    (hlife : w.engine.started = true → w.engine.phase ≠ .idle) :
    (serve h rounds depth r).OnFault w fun _ v => v = w := by
  cases depth with
  | zero => exact fun _ _ => rfl
  | succ depth =>
    cases r with
    | pause => exact (pause_atomic h).bind fun _ _ => .pure _
    | rate given => exact (setRate_atomic given).bind fun _ _ => .pure _
    | terminate farewell =>
      cases farewell with
      | none => exact (terminate_atomic h hlife).bind fun _ _ => .pure _
      | some f => exact hr.elim
    | _ => exact hr.elim

lemma refused_of_deferred {s : Scheduler D.Clock} {delay : Binary64} {f : Fault} {v : World D}
    (hd : w.deferred s delay = (.error f, v)) : ∃ clock, v = w.refused s clock := by
  unfold deferred at hd
  split at hd
  · cases hd
  · cases hd
    exact ⟨_, rfl⟩

/-- Resuming fails without effect, or because the scheduler refuses. -/
lemma serve_resume_onFault (h : Host D) (rounds depth : Nat)
    (hlater : ∀ fire, w.Postpones h fire) :
    (serve h rounds depth .resume).OnFault w fun f v =>
      v = w ∨ w.deferred h.scheduler .zero = (.error f, v) := by
  cases depth with
  | zero => exact fun _ _ => .inl rfl
  | succ depth =>
    refine Act.OnFault.bind ?_ fun _ _ => .pure _
    refine resume_ensures (A := fun o v => w.deferred h.scheduler .zero = (o, v)) (hlater _)
      (fun _ _ _ _ => .inl rfl) (fun _ _ => nofun) rfl (fun f v hd g hg => ?_) (fun _ _ _ _ => nofun)
      fun _ _ _ => nofun
    cases hg
    exact .inr hd

end World

namespace Session

variable {D : Dialect}

open Act (Upholds)

/-- The same session, up to what has been printed. -/
def Reworded (s v : Session D) : Prop := ∃ out err, v = { s with out, err }

/-- A fresh engine stands in place of a spent one, or where there was none. -/
structure Supplanted (s v : Session D) : Prop where
  spent : ∀ e ∈ s.engine, e.phase = .halted ∨ e.phase = .terminated
  engine : ∃ e, Engine.make s.engineCount s.settings = .ok e ∧ v.engine = some e
  past : ∃ old : Option (Engine D), old.isSome = s.engine.isSome ∧ (∀ e ∈ old, e.phase = .terminated) ∧
    v.past = old.toList ++ s.past
  memory : v.memory = s.memory
  settings : v.settings = s.settings

/-- The scheduler refused a step, and the one that waited has been called off. -/
structure Rebuffed (s v : Session D) : Prop where
  refusal : ∃ h ∈ s.program, ∃ e ∈ s.engine, ∃ f w, (s.world e).deferred h.scheduler .zero = (.error f, w)
  engine : v.engine = s.engine.map (·.disarmed)
  past : v.past = s.past
  memory : v.memory = s.memory
  settings : v.settings = s.settings

/-- What a failed command may leave behind, by the verb of the command. -/
inductive Setback (s : Session D) : Option Verb → Session D → Prop
  | reworded {verb : Option Verb} {v : Session D} (h : s.Reworded v) : Setback s verb v
  | supplanted {v : Session D} (h : s.Supplanted v) : Setback s (some .rate) v
  | rebuffed {v : Session D} (h : s.Rebuffed v) : Setback s (some .resume) v

lemma Reworded.refl (s : Session D) : s.Reworded s := ⟨s.out, s.err, rfl⟩

lemma mute_reworded (s : Session D) : Mute s.Reworded where
  printed := by
    rintro _ out err ⟨-, -, rfl⟩
    exact ⟨out, err, rfl⟩

lemma mute_setback (s : Session D) (verb : Option Verb) : Mute (s.Setback verb) where
  printed out err hv := by
    cases hv with
    | reworded h => exact .reworded ((mute_reworded s).printed out err h)
    | supplanted h => exact .supplanted ⟨h.spent, h.engine, h.past, h.memory, h.settings⟩
    | rebuffed h => exact .rebuffed ⟨h.refusal, h.engine, h.past, h.memory, h.settings⟩

lemma Setback.settings {s v : Session D} {verb : Option Verb} (hv : s.Setback verb v) :
    v.settings = s.settings := by
  cases hv with
  | reworded h =>
    obtain ⟨_, _, rfl⟩ := h
    rfl
  | supplanted h => exact h.settings
  | rebuffed h => exact h.settings

/-- What holds of a session when a command fails on it. -/
def OnFailure (a : Act (Session D) Int) (s : Session D) (Q : Session D → Prop) : Prop :=
  a.Ensures s fun o v => ∀ code, o = .ok code → code ≠ 0 → Q v

lemma OnFailure.of_upholds {a : Act (Session D) Int} {s : Session D} {Q : Session D → Prop}
    (ha : Upholds Q a) (hs : Q s) : OnFailure a s Q := (ha s hs).mono fun _ _ hv _ _ _ => hv

/-- A fault on the way is passed on, and no failure of the command. -/
lemma OnFailure.next {a : Act (Session D) α} {k : α → Act (Session D) Int} {s : Session D}
    {Q : Session D → Prop} (hk : ∀ x v, OnFailure (k x) v Q) : OnFailure (a >>= k) s Q :=
  Act.Ensures.bind (P := fun _ _ => True) trivial (fun x v _ => hk x v) fun _ _ _ _ => nofun

lemma OnFailure.well {s : Session D} {Q : Session D → Prop} : OnFailure (pure 0) s Q := by
  rintro _ ⟨⟩ hne
  exact absurd rfl hne

lemma OnFailure.throw {s : Session D} {Q : Session D → Prop} (f : Fault) :
    OnFailure (MonadExcept.throw f) s Q := fun _ => nofun

/-- A command fails when its work fails with a fault that is reported. -/
lemma Mute.guarded_onFailure {s : Session D} {Q : Session D → Prop} (hQ : Mute Q) {name : String}
    {work : Act (Session D) α} {report : α → Act (Session D) Unit}
    (hwork : work.OnFault s fun f v => f.isRuntime = true → Q v) :
    OnFailure (Session.guarded name work report) s Q := by
  refine Act.Ensures.attempt_bind hwork fun o v hv => ?_
  rcases o with f | a
  · dsimp only
    split_ifs with hf
    · exact OnFailure.of_upholds (.bind (.ofExcept _) fun _ => .bind (hQ.complain _ _) fun _ => .pure _)
        (hv f rfl hf)
    · exact fun _ => nofun
  · exact OnFailure.next fun _ _ => .well

section

variable {b : Bench D} {books : D.Clock → Option (Nat × Ticket) → Prop} {P : D.Memory → Prop} {free : Prop}
  {s v : Session D}

lemma absorb_world {e : Engine D} (he : s.engine = some e) : absorb (s.world e) s = s := by
  rw [← show { s with engine := some e } = s by rw [← he]]
  rfl

/-- Without an engine to ask, nothing is asked. -/
lemma ask_onFault (b : Bench D) (r : Request D) {Q : Fault → Session D → Prop} (hnone : Q .noProcess s)
    (hserve : ∀ h e, s.program = some h → s.engine = some e →
      (World.serve h b.rounds b.depth r).OnFault (s.world e) fun f w => Q f (absorb w s)) :
    (ask b r).OnFault s Q := by
  rcases he : s.engine with _ | e
  · refine .of_outcome (ask_vacant b r he) ?_
    rintro _ ⟨⟩
    exact hnone
  · rcases hp : s.program with _ | h
    · refine Act.OnFault.of_outcome (r := .error .noProcess) (v := s) ?_ ?_
      · unfold ask onEngine
        rw [Act.outcome_get_bind, hp]
        rfl
      · rintro _ ⟨⟩
        exact hnone
    · exact .of_outcome (ask_outcome b r hp he) (hserve h e hp he)

/-- An engine that cannot do what it is asked for leaves the session as it was. -/
lemma ask_atomic (hs : s.Sound books P free) {r : Request D} (hr : r.IsAtomic) :
    (ask b r).OnFault s fun _ v => v = s := by
  refine ask_onFault b r rfl fun h e _ he => ?_
  refine (World.serve_atomic h b.rounds b.depth hr (hs.engine e he).2.started_iff.1).mono ?_
  intro o w hw f hf
  rw [hw f hf, absorb_world he]

lemma ask_resume (hs : s.Sound books P free) :
    (ask b .resume).OnFault s fun _ v => v = s ∨ s.Rebuffed v := by
  refine ask_onFault b .resume (.inl rfl) fun h e hp he => ?_
  have hlater := (hs.engine e he).2.postpones (hs.program h hp).scheduler
  refine (World.serve_resume_onFault h b.rounds b.depth hlater).mono ?_
  intro o w hw f hf
  rcases hw f hf with hw | hw
  · rw [hw]
    exact .inl (absorb_world he)
  · obtain ⟨clock, rfl⟩ := World.refused_of_deferred hw
    exact .inr ⟨⟨h, hp, e, he, f, _, hw⟩, by rw [he]; rfl, rfl, rfl, rfl⟩

/-- The engine, if there is one, has ended; the rest is as it was but for the program, which may have been
loaded. -/
structure Retired (s u : Session D) : Prop where
  engine : u.engine.isSome = s.engine.isSome
  finished : ∀ e ∈ u.engine, e.phase = .terminated
  past : u.past = s.past
  memory : u.memory = s.memory
  settings : u.settings = s.settings

lemma Retired.engineCount {u : Session D} (hu : s.Retired u) : u.engineCount = s.engineCount := by
  have hlength : u.engine.toList.length = s.engine.toList.length := by
    have hsome := hu.engine
    cases hs : s.engine <;> cases hu : u.engine <;> simp_all
  unfold Session.engineCount
  rw [hu.past, hlength]

lemma Retired.supplanted {u : Session D} (hu : s.Retired u)
    (hspent : ∀ e ∈ s.engine, e.phase = .halted ∨ e.phase = .terminated) {e : Engine D}
    (he : Engine.make u.engineCount u.settings = .ok e) :
    s.Supplanted { u with engine := some e, past := u.engine.toList ++ u.past } where
  spent := hspent
  engine := ⟨e, by rw [← hu.engineCount, ← hu.settings, he], rfl⟩
  past := ⟨u.engine, hu.engine, hu.finished, by rw [hu.past]⟩
  memory := hu.memory
  settings := hu.settings

/-- What becomes of a session when an engine is sought that can be used. -/
def Seeks (s : Session D) (Q : Session D → Prop) (o : Except Fault Unit) (v : Session D) : Prop :=
  (∀ f, o = .error f → f.isRuntime = true → v = s) ∧ (o = .ok () → Q v)

/-- A fresh engine is made from the settings at hand. That a history is too large to keep is not reported. -/
lemma make_seeks {t u : Session D} (hl : (loadProgram b).outcome t = (.ok (), u)) (hu : s.Retired u)
    (hspent : ∀ e ∈ s.engine, e.phase = .halted ∨ e.phase = .terminated) :
    (makeEngine b).Ensures t (Seeks s s.Supplanted) := by
  refine makeEngine_ensures (L := fun o v => o = .ok () ∧ v = u) (Act.ensures_of_outcome hl ⟨rfl, rfl⟩)
    (fun _ _ => nofun) ?_ ?_
  · rintro f v ⟨-, rfl⟩ he
    have hf : f = .sizeTooLarge := by
      unfold Engine.make at he
      split_ifs at he
      cases he
      rfl
    subst hf
    refine ⟨?_, nofun⟩
    rintro _ ⟨⟩ hrun
    cases hrun
  · rintro e v ⟨-, rfl⟩ he
    exact ⟨fun _ => nofun, fun _ => hu.supplanted hspent he⟩

/-- A fresh engine takes the place of a spent one, unless the program cannot be loaded. -/
lemma renew_seeks (hdepth : 0 < b.depth) (hs : s.Sound books P free)
    (hspent : ∀ e ∈ s.engine, e.phase = .halted ∨ e.phase = .terminated) :
    (renew b).Ensures s (Seeks s s.Supplanted) := by
  unfold Act.Ensures renew
  rw [Act.outcome_get_bind]
  rcases he : s.engine with _ | e
  · rcases loadProgram_cases b s with ⟨h, -, hl⟩ | ⟨-, ⟨f, hl⟩ | ⟨h, -, hl⟩⟩
    · exact make_seeks hl ⟨rfl, by simp [he], rfl, rfl, rfl⟩ hspent
    · change Seeks s s.Supplanted ((loadProgram b >>= _).outcome s).1 ((loadProgram b >>= _).outcome s).2
      rw [Act.outcome_bind, hl]
      exact ⟨fun _ _ _ => rfl, nofun⟩
    · exact make_seeks hl ⟨rfl, by simp [he], rfl, rfl, rfl⟩ hspent
  · -- A session with an engine has loaded its program, so nothing is in the way of a fresh one.
    have hloaded {u : Session D} {h : Host D} (hp : u.program = some h) :
        (loadProgram b).outcome u = (.ok (), u) := by
      unfold loadProgram
      rw [Act.outcome_get_bind, hp]
      rfl
    dsimp only
    rw [Act.outcome_bind]
    rcases endEngine_cases hdepth hs he with ⟨h, hp, -, hout⟩ | ⟨hstill, hout⟩ <;> rw [hout]
    · exact make_seeks (hloaded hp) ⟨by rw [he]; rfl, by rintro _ ⟨⟩; rfl, rfl, rfl, rfl⟩ hspent
    · obtain ⟨hsome, hsole⟩ := hs.engine e he
      obtain ⟨h, hp⟩ := Option.isSome_iff_exists.1 hsome
      refine make_seeks (hloaded hp) ⟨rfl, ?_, rfl, rfl, rfl⟩ hspent
      intro e' he'
      cases he.symm.trans he'
      have hstarted : e.started = true := hsole.started_iff.2 fun hidle => by
        rcases hspent e he with hp | hp <;> cases hidle.symm.trans hp
      exact hstill.resolve_left (by simp [hstarted])

/-- Having an engine that can be used. -/
lemma ensure_seeks (hdepth : 0 < b.depth) (hs : s.Sound books P free) :
    (ensure b).Ensures s (Seeks s fun v => v = s ∨ s.Supplanted v) := by
  have hrenew (hspent : ∀ e ∈ s.engine, e.phase = .halted ∨ e.phase = .terminated) :
      (renew b).Ensures s (Seeks s fun v => v = s ∨ s.Supplanted v) :=
    (renew_seeks hdepth hs hspent).mono fun _ _ hv => ⟨hv.1, fun ho => .inr (hv.2 ho)⟩
  unfold Act.Ensures ensure
  rw [Act.outcome_get_bind]
  rcases he : s.engine with _ | e
  · exact hrenew (by simp [he])
  · dsimp only
    split_ifs with hspent
    · refine hrenew ?_
      intro e' he'
      cases he.symm.trans he'
      exact hspent.symm
    · exact ⟨fun _ => nofun, fun _ => .inl rfl⟩

/-- Requiring an engine before asking it for something. -/
lemma required_onFault {r : Request D} {Q : Session D → Prop} (hs : Q s)
    (hask : (ask b r).OnFault s fun _ => Q) :
    (do
      discard require
      discard (ask b r) : Act (Session D) Unit).OnFault s fun _ => Q := by
  refine Act.Ensures.bind (Upholds.discard (upholds_require (· = s)) s rfl) (fun _ v hv => ?_) ?_
  · subst hv
    exact hask.discard
  · rintro _ _ rfl _ -
    exact hs

/-- A command fails with the setback of its work. -/
lemma guarded_setback {name : String} {verb : Option Verb} {work : Act (Session D) α}
    {report : α → Act (Session D) Unit} (hwork : work.OnFault s fun _ => s.Setback verb) :
    OnFailure (Session.guarded name work report) s (s.Setback verb) :=
  (mute_setback s verb).guarded_onFailure (hwork.mono fun _ _ hv f hf _ => hv f hf)

/-- A command whose work is only looking. -/
lemma looking_setback {name : String} {verb : Option Verb} {work : Act (Session D) α}
    {report : α → Act (Session D) Unit} (hwork : Upholds (· = s) work) :
    OnFailure (Session.guarded name work report) s (s.Setback verb) := by
  refine guarded_setback ((hwork.onFault rfl).mono fun _ _ hv f hf => ?_)
  rw [hv f hf]
  exact .reworded (.refl s)

/-- Switching breakpoints succeeds or throws. -/
lemma performBreakpoints_well {Q : Session D → Prop} (mode : Option Value) :
    OnFailure (performBreakpoints b mode) s Q := by
  have hshow (u : Session D) : OnFailure (performBreakpoints b none) u Q :=
    .next fun _ _ => .next fun _ _ => .well
  cases mode with
  | none => exact hshow s
  | some m => exact .next fun _ u => hshow u

/-- Leaving throws. -/
lemma performExit_well {Q : Session D → Prop} : OnFailure (performExit b) s Q := by
  refine OnFailure.next fun u _ => OnFailure.next fun _ _ => ?_
  split
  · exact .next fun _ _ => .next fun _ _ => .throw _
  · exact .throw _

/-- Arguments that do not fit are complained of. -/
lemma readArguments_misfit {c : DebugCommand} {args : List String} {stop : Arguments.Stop}
    (hread : c.form.read args = .error stop) :
    (readArguments c args).Ensures s fun o v => s.Reworded v ∧ ∀ given, o ≠ .ok (some given) := by
  refine ⟨(mute_reworded s).readArguments c args s (.refl s), ?_⟩
  have hend (u : Session D) : (do
      complain ("usage: " ++ c.form.usage) []
      pure none : Act (Session D) (Option Arguments.Given)).Ensures u
        fun o _ => ∀ given, o ≠ .ok (some given) :=
    Act.Ensures.bind (P := fun _ _ => True) trivial (fun _ _ _ _ => nofun) fun _ _ _ _ => nofun
  change (readArguments c args).Ensures s fun o _ => ∀ given, o ≠ .ok (some given)
  unfold readArguments
  rw [hread]
  cases stop with
  | help => exact hend _
  | complaint why => exact hend _

lemma readArguments_fit {c : DebugCommand} {args : List String} {given : Arguments.Given}
    (hread : c.form.read args = .ok given) :
    (readArguments c args).outcome s = (.ok (some given), s) := by
  unfold readArguments
  rw [hread]
  rfl

variable (hload : ∀ reference h, b.load reference = .ok h → h.Behaves books P free)
  (hdepth : 0 < b.depth) (hs : s.Sound books P free)

include hload hdepth hs

/-- `rate` may have put a fresh engine in place by the time that it finds the rate wanting. -/
lemma performRate_setback (ms : Option Value) :
    OnFailure (performRate b ms) s (s.Setback (some .rate)) := by
  refine (mute_setback s _).guarded_onFailure ?_
  have hensure := (upholds_ensure (renew_sound hload hdepth) s hs).and (ensure_seeks hdepth hs)
  refine Act.Ensures.bind hensure (fun _ u hu => ?_) fun f u hu _ hf hrun => ?_
  · refine (ask_atomic (r := .rate ms) hu.1 trivial).discard.mono fun o v hv f hf hrun => ?_
    rw [hv f hf]
    rcases hu.2.2 rfl with rfl | hsupplanted
    · exact .reworded (.refl _)
    · exact .supplanted hsupplanted
  · cases hf
    rw [hu.2.1 f rfl hrun]
    exact .reworded (.refl _)

/-- What a verb other than `start` and `step` leaves behind when it fails. -/
theorem perform_setback (r : Option Registry) (given : Arguments.Given) {verb : Verb}
    (hverb : verb ≠ .start ∧ verb ≠ .step) :
    OnFailure (perform b r given verb) s (s.Setback (some verb)) := by
  have hself (verb : Option Verb) : s.Setback verb s := .reworded (.refl s)
  have hatomic {r : Request D} (hr : r.IsAtomic) (verb : Option Verb) :
      (ask b r).OnFault s fun _ => s.Setback verb := (ask_atomic hs hr).mono fun _ _ hv f hf => by
    rw [hv f hf]
    exact hself verb
  cases verb with
  | help => exact .of_upholds ((mute_setback s _).performHelp r _) (hself _)
  | start => exact absurd rfl hverb.1
  | pause => exact guarded_setback (required_onFault (hself _) (hatomic (r := .pause) trivial _))
  | resume =>
    refine guarded_setback (required_onFault (hself _) ((ask_resume hs).mono fun _ v hv f hf => ?_))
    rcases hv f hf with rfl | hrebuffed
    · exact hself _
    · exact .rebuffed hrebuffed
  | step => exact absurd rfl hverb.2
  | rate => exact performRate_setback hload hdepth hs _
  | breakpoints => exact performBreakpoints_well _
  | info => exact looking_setback (upholds_requireInfo _)
  | strands => exact looking_setback (upholds_requireInfo _)
  | events => exact looking_setback (.bind (upholds_require _) fun _ => .pure _)
  | terminate =>
    exact guarded_setback (required_onFault (hself _) (hatomic (r := .terminate none) trivial _))
  | exit => exact performExit_well

lemma runCommand_setback (r : Option Registry) (c : DebugCommand) (args : List String)
    (hc : c.verb = some .start ∨ c.verb = some .step → ∃ stop, c.form.read args = .error stop) :
    OnFailure (runCommand b r c args) s (s.Setback c.verb) := by
  unfold runCommand
  split
  · exact .throw _
  · exact performExit_well
  · rename_i verb _ hverb
    rw [hverb]
    rcases hread : c.form.read args with stop | given
    · refine Act.Ensures.bind (readArguments_misfit hread) (fun given v hv => ?_) fun _ _ _ _ => nofun
      cases given with
      | none => exact fun _ _ _ => .reworded hv.1
      | some given => exact absurd rfl (hv.2 given)
    · have hother : verb ≠ .start ∧ verb ≠ .step := by
        constructor <;> rintro rfl <;> simp [hverb, hread] at hc
      have hperform := perform_setback hload hdepth hs r given hother
      unfold OnFailure Act.Ensures
      rw [Act.outcome_bind, readArguments_fit hread]
      exact hperform

lemma dispatch_setback {r : Registry} {line : String} (hline : r.Single line) :
    OnFailure (dispatch b r line) s (s.Setback (r.verb? line)) := by
  have hcomplain (verb : Option Verb) (message : String) :
      OnFailure (do complain message []; pure 1) s (s.Setback verb) :=
    .of_upholds (.bind ((mute_setback s verb).complain _ _) fun _ => .pure _) (.reworded (.refl s))
  unfold dispatch
  split
  · exact .of_upholds (.bind (.ofExcept _) fun _ => .bind ((mute_setback s _).complain _ _) fun _ => .pure _)
      (.reworded (.refl s))
  · rename_i commands hcommands
    obtain ⟨name, args, rfl, hc⟩ := hline commands hcommands
    have hverb : r.verb? line = (r.find? name).bind (·.verb) := by
      unfold Registry.verb?
      rw [hcommands]
    rw [hverb]
    unfold runCommands
    split
    · exact hcomplain _ _
    · rename_i c hfind
      rw [hfind]
      refine Act.Ensures.bind (runCommand_setback hload hdepth hs (some r) c args (hc c hfind))
        (fun code v hv => ?_) fun _ _ _ _ => nofun
      split_ifs with hzero
      · exact OnFailure.well
      · rintro _ ⟨⟩ hne
        exact hv _ rfl hne

end

/-- A command that fails leaves the session as it was, up to what it printed: the engine with its events and
the step that waits, the engines before it, the settings and the memory. This holds in every session that can
be reached, for every scheduler that fires no step while taking it, and for every line of one command but
`start` and `step`; for these two, for unknown commands and for lines that cannot be read it holds when nothing
is carried out. Two failures do leave a trace. Where no engine can be used, `rate` has put a fresh one in its
place before it finds the rate wanting; and `continue` has called off the step that waits when the scheduler
refuses another. The settings are the same even then. -/
theorem failed_command_setback (b : Bench D) (r : Registry) (hdepth : 0 < b.depth) (fit : D.Clock → Prop)
    (hload : ∀ reference h, b.load reference = .ok h → h.scheduler.Stays fit) (s : Session D)
    (hs : s.Unused fit) (doings : List (Doing D)) (hfit : ∀ clock, .drift clock ∈ doings → fit clock)
    (line : String) (hline : r.Single line) :
    let u := s.after b r doings
    (dispatch b r line).Ensures u fun o v => ∀ code, o = .ok code → code ≠ 0 →
      v.settings = u.settings ∧ u.Setback (r.verb? line) v := by
  intro u
  have hbehaves : ∀ reference h, b.load reference = .ok h →
      h.Behaves (fun c _ => fit c) (fun _ => True) True := fun reference h hl =>
    Host.behaves_of_stays (hload reference h hl)
  have hu : u.Sound (fun c _ => fit c) (fun _ => True) True :=
    after_sound hbehaves hdepth r (hs.sound trivial) (Doing.allowed_of_fit hfit)
  refine (dispatch_setback hbehaves hdepth hu hline).mono fun o v hv code ho hne => ?_
  exact ⟨(hv code ho hne).settings, hv code ho hne⟩

end Session

namespace Session

/-- The restless blocks, ready to be debugged. -/
def restlessBench : Bench Block.dialect where
  load _ := .ok (Block.restlessRun .refusing).host
  rounds := 5
  depth := 5

def restlessSession : Session Block.dialect where
  reference := "restless"
  clock := { kind := .refusing }
  memory := (Block.restlessRun .refusing).world.memory

/-- A rate that is none, given to a run whose scheduler has begun to refuse. -/
theorem restless_setback :
    let u := restlessSession.after restlessBench .standard
      [.line "start", .drift { kind := .refusing, refusing := true }]
    let (o, v) := (dispatch restlessBench .standard "rate abc").outcome u
    o.toOption = some 1 ∧ u.engine.isSome ∧
      v.settings = u.settings ∧ u.Setback (Registry.standard.verb? "rate abc") v := by
  intro u
  have hload : ∀ reference h, restlessBench.load reference = .ok h →
      h.scheduler.Stays fun c => c.kind ≠ .eager := by
    rintro reference h ⟨⟩
    exact Block.clockwork_stays
  have hline : Registry.standard.Single "rate abc" := by
    intro commands hcommands
    have hread : (CommandLine.commands "rate abc").toOption = some [["rate", "abc"]] := by decide +kernel
    have hverb : (Registry.standard.find? "rate").map (·.verb) = some (some .rate) := by decide +kernel
    rw [hcommands] at hread
    refine ⟨"rate", ["abc"], Option.some.inj hread, fun c hc => ?_⟩
    rw [hc] at hverb
    have hc' : c.verb = some .rate := Option.some.inj hverb
    simp [hc']
  have hcode : ((dispatch restlessBench .standard "rate abc").outcome u).1.toOption = some 1 := by
    decide +kernel
  have hengine : u.engine.isSome := by decide +kernel
  have hfailed : (dispatch restlessBench .standard "rate abc").Ensures u fun o v =>
      ∀ code, o = .ok code → code ≠ 0 →
        v.settings = u.settings ∧ u.Setback (Registry.standard.verb? "rate abc") v :=
    failed_command_setback restlessBench .standard (by decide) _ hload restlessSession
      ⟨rfl, rfl, rfl, nofun⟩ [.line "start", .drift { kind := .refusing, refusing := true }] (by simp)
      "rate abc" hline
  unfold Act.Ensures at hfailed
  rcases hout : (dispatch restlessBench .standard "rate abc").outcome u with ⟨f | code, v⟩
  · rw [hout] at hcode
    cases hcode
  · rw [hout] at hcode hfailed
    cases hcode
    exact ⟨rfl, hengine, hfailed 1 rfl (by decide)⟩

/-- The failures that leave a trace: `rate` makes an engine where there was none, `rate` puts a fresh engine in
place of one that has ended, with its events, and `continue` calls off the step that waits. -/
theorem failures_leave_traces :
    let s := restlessSession
    let rate (u : Session Block.dialect) := (dispatch restlessBench .standard "rate abc").outcome u
    let resume (u : Session Block.dialect) := (dispatch restlessBench .standard "continue").outcome u
    let ended := s.after restlessBench .standard [.line "start", .line "terminate"]
    let running := s.after restlessBench .standard
      [.line "start", .drift { kind := .refusing, refusing := true }]
    ((rate s).1.toOption = some 1 ∧ s.engine.isNone ∧ (rate s).2.engine.isSome) ∧
    ((rate ended).1.toOption = some 1 ∧
      ended.engine.map (fun e => (e.phase, e.history.length)) = some (.terminated, 3) ∧
      (rate ended).2.engine.map (fun e => (e.phase, e.history.length)) = some (.idle, 0)) ∧
    ((resume running).1.toOption = some 1 ∧
      running.engine.map (fun e => (e.phase, e.pending.isSome)) = some (.running, true) ∧
      (resume running).2.engine.map (fun e => (e.phase, e.pending.isSome)) = some (.running, false)) := by
  decide +kernel

end Session
end Loom
