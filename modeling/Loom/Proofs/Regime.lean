import Loom.Debugger.Launch
import Loom.Proofs.Conduct

/-! What the debugger does to a session comes down to a few things: it prints, it works on the bus, it asks
the current engine for an operation, it puts a new engine in its place or lets go of it, and it changes
settings. A property of sessions that each of these keeps holds after every command, every line and every
conversation, however they end. -/
namespace Loom

namespace Act

variable {σ τ : Type}

@[simp] lemma outcome_focus (get : σ → τ) (set : τ → σ → σ) (a : Act τ α) (s : σ) :
    (focus get set a).outcome s = ((a.outcome (get s)).1, set (a.outcome (get s)).2 s) := rfl

lemma outcome_get_bind (f : σ → Act σ α) (s : σ) :
    (MonadState.get >>= f).outcome s = (f s).outcome s := rfl

/-- What holds of the outcome of one computation holds of another with the same outcome. -/
lemma Ensures.of_same {a a' : Act σ α} {s s' : σ} {Q : Except Fault α → σ → Prop} (h : a'.Ensures s' Q)
    (ha : a.outcome s = a'.outcome s') : a.Ensures s Q := by
  rw [Ensures, ha]
  exact h

namespace Upholds

variable {I : σ → Prop}

/-- Looking at the state changes nothing. -/
lemma get_then {f : σ → Act σ β} (hf : ∀ s, Upholds I (f s)) : Upholds I (MonadState.get >>= f) :=
  get_bind fun s hs => hf s s hs

lemma forM {f : α → Act σ PUnit} (hf : ∀ x, Upholds I (f x)) (xs : List α) : Upholds I (xs.forM f) := by
  induction xs with
  | nil => exact .pure _
  | cons x xs ih => exact bind (hf x) fun _ => ih

end Upholds

end Act

/-- What the debugger asks an engine for, besides its settings. -/
def Request.IsDebugging : Request D → Prop
  | start none | pause | resume | step | terminate none | runNext | runAll _ => True
  | _ => False

namespace Session

variable {D : Dialect}

open Act (Upholds)

/-- A property of sessions that does not look at what has been printed. -/
structure Mute (I : Session D → Prop) : Prop where
  printed : ∀ {s} out err, I s → I { s with out, err }

namespace Mute

variable {I : Session D → Prop} (hI : Mute I)

include hI

lemma say (text : String) : Upholds I (say (D := D) text) := fun s hs => hI.printed _ s.err hs

lemma sayError (text : String) : Upholds I (sayError (D := D) text) := fun s hs =>
  hI.printed s.out _ hs

lemma announce (message : String) (data : Table) : Upholds I (announce (D := D) message data) :=
  .get_then fun _ => .bind (.ofExcept _) fun _ => hI.say _

lemma complain (message : String) (details : Table) : Upholds I (complain (D := D) message details) :=
  .get_then fun _ => .bind (.ofExcept _) fun _ => hI.say _

lemma readArguments (c : DebugCommand) (args : List String) :
    Upholds I (readArguments (D := D) c args) := by
  have hend : Upholds I (do
      Session.complain ("usage: " ++ c.form.usage) []
      pure none : Act (Session D) (Option Arguments.Given)) := .bind (hI.complain _ _) fun _ => .pure _
  unfold Session.readArguments
  rcases c.form.read args with stop | given
  · cases stop with
    | complaint why => exact .bind (hI.sayError _) fun _ => hend
    | help => exact .bind (hI.say _) fun _ => hend
  · exact .pure _

lemma guarded {name : String} {work : Act (Session D) α} {report : α → Act (Session D) Unit}
    (hwork : Upholds I work) (hreport : ∀ a, Upholds I (report a)) :
    Upholds I (guarded name work report) := by
  refine .attempt_bind hwork fun r => ?_
  rcases r with f | a
  · dsimp only
    split_ifs
    · exact .bind (.ofExcept _) fun _ => .bind (hI.complain _ _) fun _ => .pure _
    · exact .throw f
  · exact .bind (hreport a) fun _ => .pure _

lemma listCommands (r : Registry) : Upholds I (listCommands (D := D) r) := by
  refine .get_then fun s => ?_
  split_ifs
  · exact hI.announce _ _
  · exact .bind (hI.say _) fun _ => hI.say _

lemma explain (c : DebugCommand) : Upholds I (explain (D := D) c) := by
  refine .get_then fun s => ?_
  split_ifs
  · exact hI.announce _ _
  · exact .bind (hI.say _) fun _ => hI.say _
  · exact .bind (hI.say _) fun _ => .pure _

lemma performHelp (r : Option Registry) (topic : Option Value) :
    Upholds I (performHelp (D := D) r topic) := by
  unfold Session.performHelp
  split
  · exact .pure _
  · exact .bind (hI.listCommands _) fun _ => .pure _
  · split
    · exact .bind (hI.complain _ _) fun _ => .pure _
    · exact .bind (hI.explain _) fun _ => .pure _

lemma leavePrompt : Upholds I (leavePrompt (D := D)) := .bind (hI.say _) fun _ => .pure _

end Mute

lemma upholds_phaseName (I : Session D → Prop) : Upholds I (phaseName (D := D)) :=
  .get_then fun _ => .pure _

/-- Requiring an engine is only looking for it. -/
lemma upholds_require (I : Session D → Prop) : Upholds I (require (D := D)) := by
  refine .get_then fun s => ?_
  split
  · split_ifs
    · exact .pure _
    · exact .throw _
  · exact .throw _

lemma upholds_requireInfo (I : Session D → Prop) : Upholds I (requireInfo (D := D)) := by
  refine .bind (.discard (upholds_require I)) fun _ => .get_then fun s => ?_
  split
  · exact .pure _
  · exact .throw _

/-- A new engine is made only where there is none that can still be used. -/
lemma upholds_ensure {b : Bench D} {I : Session D → Prop} (hrenew : Upholds I (renew b)) :
    Upholds I (ensure b) := by
  refine .get_then fun s => ?_
  split
  · split_ifs
    · exact hrenew
    · exact .pure _
  · exact hrenew

/-- A property of sessions that everything keeps which a debugger does apart from changing settings. Replacing
the engine is one change: half way through the property need not hold. -/
structure Routine (b : Bench D) (I : Session D → Prop) : Prop where
  mute : Mute I
  posted : ∀ {s} bus out, I s → I { s with bus, out }
  asked : ∀ {r}, r.IsDebugging → Upholds I (ask b r)
  renew : Upholds I (renew b)
  disconnect : Upholds I (disconnect b)

/-- A property of sessions that everything keeps which a debugger does. Changing a setting is one change, too. -/
structure Regime (b : Bench D) (I : Session D → Prop) : Prop extends Routine b I where
  rate : ∀ ms, Upholds I (performRate b ms)
  breakpoints : ∀ on, Upholds I (setBreakpoints b on)

namespace Routine

variable {b : Bench D} {I : Session D → Prop} (hI : Routine b I)

include hI

section Control

lemma performStart (paused : Bool) : Upholds I (performStart b paused) := by
  refine hI.mute.guarded ?_ fun _ => .bind (upholds_phaseName I) fun _ => hI.mute.announce _ _
  refine .bind (upholds_ensure hI.renew) fun _ => .get_then fun s => ?_
  have hstart : Upholds I (discard (ask b (.start none))) := .discard (hI.asked trivial)
  have hpause : Upholds I (discard (ask b .pause)) := .discard (hI.asked trivial)
  split_ifs
  · exact .bind hI.renew fun _ => .bind hstart fun _ => hpause
  · exact .bind hstart fun _ => hpause
  · exact .bind hI.renew fun _ => .bind hstart fun _ => .pure _
  · exact .bind hstart fun _ => .pure _

lemma performPause : Upholds I (performPause b) :=
  hI.mute.guarded (.bind (.discard (upholds_require I)) fun _ => .discard (hI.asked trivial)) fun _ =>
    .get_then fun _ => .bind (.ofExcept _) fun _ => hI.mute.announce _ _

lemma performResume : Upholds I (performResume b) :=
  hI.mute.guarded (.bind (.discard (upholds_require I)) fun _ => .discard (hI.asked trivial)) fun _ =>
    .bind (upholds_phaseName I) fun _ => hI.mute.announce _ _

lemma stepOnce : Upholds I (stepOnce b) := by
  refine .bind (hI.asked trivial) fun reply => ?_
  split <;> exact .pure _

/-- However many instructions are executed, and however the last one ends. -/
lemma stepMany (n executed : Nat) : Upholds I (stepMany b n executed) := by
  induction n generalizing executed with
  | zero => exact .pure _
  | succ n ih =>
    refine .attempt_bind hI.stepOnce fun r => ?_
    rcases r with f | more
    · exact .pure _
    · refine .get_then fun s => ?_
      split_ifs
      · exact .pure _
      · exact ih _

lemma holdStill : Upholds I (holdStill b) := by
  refine .bind (upholds_require I) fun e => ?_
  split_ifs
  · exact .pure _
  · exact .discard (hI.asked trivial)

lemma performStep (count : Int) : Upholds I (performStep b count) := by
  have hfailed (executed : Nat) (f : Fault) : Upholds I (if f.isRuntime then do
      let text ← Act.ofExcept f.message
      Session.complain ("step failed: " ++ text) (Table.ofNamed [("executed", .int executed)])
      pure 1
      else throw f : Act (Session D) Int) := by
    split_ifs
    · exact .bind (.ofExcept _) fun _ => .bind (hI.mute.complain _ _) fun _ => .pure _
    · exact .throw f
  refine .attempt_bind hI.holdStill fun r => ?_
  rcases r with f | _
  · exact hfailed 0 f
  · refine .bind (hI.stepMany _ _) fun outcome => ?_
    obtain ⟨executed, _ | f⟩ := outcome
    · exact .bind (upholds_phaseName I) fun _ => .bind (.ofExcept _) fun _ =>
        .bind (hI.mute.announce _ _) fun _ => .pure _
    · exact hfailed executed f

lemma performInfo : Upholds I (performInfo (D := D)) := by
  refine hI.mute.guarded (upholds_requireInfo I) fun i => .get_then fun s => ?_
  split_ifs
  · exact hI.mute.announce _ _
  · exact .bind (.ofExcept _) fun _ => hI.mute.say _

lemma performStrands : Upholds I (performStrands (D := D)) := by
  refine hI.mute.guarded (upholds_requireInfo I) fun i => .get_then fun s => ?_
  split_ifs
  · exact hI.mute.announce _ _
  · exact .bind (.ofExcept _) fun _ => hI.mute.say _

lemma performEvents (limit : Int) : Upholds I (performEvents (D := D) limit) := by
  refine hI.mute.guarded (.bind (upholds_require I) fun _ => .pure _) fun events => .get_then fun s => ?_
  split_ifs
  · exact hI.mute.announce _ _
  · exact .forM (fun _ => .bind (.ofExcept _) fun _ => hI.mute.say _) events

lemma performTerminate : Upholds I (performTerminate b) :=
  hI.mute.guarded (.bind (.discard (upholds_require I)) fun _ => .discard (hI.asked trivial)) fun _ =>
    .get_then fun _ => .bind (.ofExcept _) fun _ => hI.mute.announce _ _

lemma performExit : Upholds I (performExit b) := by
  refine .get_then fun s => .bind hI.disconnect fun _ => ?_
  split
  · exact .bind (.ofExcept _) fun _ => .bind (hI.mute.announce _ _) fun _ => .throw _
  · exact .throw _

end Control

section Firing

lemma fireNext : Upholds I (fireNext b) := by
  refine .get_then fun s => ?_
  split
  · exact .pure _
  · refine .bind (hI.asked trivial) fun reply => ?_
    split <;> exact .pure _

lemma fireAll (limit : Option Int) : Upholds I (fireAll b limit) := by
  refine .get_then fun s => ?_
  split
  · exact .pure _
  · refine .bind (hI.asked trivial) fun reply => ?_
    split <;> exact .pure _

/-- Working on the bus and printing. -/
lemma onBus (act : Act (PostOffice String) α) : Upholds I (onBus (D := D) act) := fun _ hs =>
  hI.posted _ _ hs

lemma pump : Upholds I (pump b) := .get_then fun _ => hI.onBus _

end Firing

/-- Every verb that changes no setting is routine. -/
lemma perform (r : Option Registry) (given : Arguments.Given) {v : Verb} (hrate : v ≠ .rate)
    (hbreakpoints : v ≠ .breakpoints) : Upholds I (perform b r given v) := by
  cases v with
  | help => exact hI.mute.performHelp _ _
  | start => exact hI.performStart _
  | pause => exact hI.performPause
  | resume => exact hI.performResume
  | step => exact hI.performStep _
  | rate => exact absurd rfl hrate
  | breakpoints => exact absurd rfl hbreakpoints
  | info => exact hI.performInfo
  | strands => exact hI.performStrands
  | events => exact hI.performEvents _
  | terminate => exact hI.performTerminate
  | exit => exact hI.performExit

end Routine

namespace Regime

variable {b : Bench D} {I : Session D → Prop} (hI : Regime b I)

include hI

section Lines

lemma performBreakpoints (mode : Option Value) : Upholds I (performBreakpoints b mode) := by
  have hshow : Upholds I (Session.performBreakpoints b none) :=
    .get_then fun _ => .bind (hI.mute.announce _ _) fun _ => .pure _
  cases mode with
  | none => exact hshow
  | some m => exact .bind (hI.breakpoints _) fun _ => hshow

lemma perform (r : Option Registry) (given : Arguments.Given) (v : Verb) :
    Upholds I (perform b r given v) := by
  cases v with
  | rate => exact hI.rate _
  | breakpoints => exact hI.performBreakpoints _
  | _ => exact hI.toRoutine.perform r given nofun nofun

lemma runCommand (r : Option Registry) (c : DebugCommand) (args : List String) :
    Upholds I (runCommand b r c args) := by
  unfold Session.runCommand
  split
  · exact .throw _
  · exact hI.performExit
  · refine .bind (hI.mute.readArguments c args) fun given => ?_
    cases given with
    | none => exact .pure _
    | some given => exact hI.perform r given _

lemma runCommands (r : Registry) (commands : List (List String)) :
    Upholds I (runCommands b r commands) := by
  fun_induction Session.runCommands b r commands with
  | case1 => exact .pure _
  | case2 rest ih => exact ih
  | case3 name args rest hnone => exact .bind (hI.mute.complain _ _) fun _ => .pure _
  | case4 name args rest c hsome ih =>
    refine .bind (hI.runCommand _ c args) fun code => ?_
    split_ifs
    · exact ih
    · exact .pure _

/-- A line keeps what is kept by everything it can do. -/
theorem dispatch (r : Registry) (line : String) : Upholds I (dispatch b r line) := by
  unfold Session.dispatch
  split
  · exact .bind (.ofExcept _) fun _ => .bind (hI.mute.complain _ _) fun _ => .pure _
  · exact hI.runCommands r _

lemma runLine (r : Registry) (line : String) : Upholds I (runLine b r line) := by
  refine .attempt_bind (hI.dispatch r line) fun result => ?_
  rcases result with f | code
  · dsimp only
    split_ifs
    · exact .bind (.ofExcept _) fun _ => .bind (hI.mute.say _) fun _ => .pure _
    · exact .throw f
  · exact .pure _

end Lines

section Conversation

lemma fireAtPrompt (limit : Int) : Upholds I (fireAtPrompt b limit) := by
  refine .attempt_bind (hI.fireAll _) fun r => ?_
  rcases r with f | n
  · dsimp only
    split_ifs
    · exact .pure _
    · exact .pure _
    · exact .throw f
  · exact .pure _

lemma react (r : Registry) (parts : List String) (i : Input) : Upholds I (react b r parts i) := by
  cases i with
  | close => exact .reply hI.mute.leavePrompt
  | fire limit =>
    refine .bind (hI.fireAtPrompt limit) fun fired => ?_
    split_ifs
    · exact .pure _
    · exact .reply hI.mute.leavePrompt
  | line text =>
    unfold Session.react
    dsimp only
    split_ifs
    · exact .pure _
    · exact .pure _
    · exact .bind (.discard (hI.runLine r _)) fun _ => .pure _

lemma attachNotices : Upholds I (attachNotices (D := D)) :=
  .bind (.ofExcept _) fun _ => .get_bind fun s hs => hI.posted _ s.out hs

lemma closeNotices (box : Nat) : Upholds I (closeNotices (D := D) box) := fun s hs =>
  hI.posted _ s.out hs

lemma converse (r : Registry) (parts : List String) (inputs : List Input) :
    Upholds I (converse b r parts inputs) := by
  induction inputs generalizing parts with
  | nil => exact .bind (.discard hI.pump) fun _ => hI.mute.leavePrompt
  | cons i rest ih =>
    refine .bind (.discard hI.pump) fun _ => .bind (hI.mute.say _) fun _ => ?_
    refine .bind (hI.react r parts i) fun turn => ?_
    rcases turn with code | parts
    · exact .pure _
    · exact ih parts

lemma openConsole : Upholds I (openConsole (D := D)) :=
  .bind hI.attachNotices fun _ => .bind (hI.onBus _) fun _ => .pure _

lemma runLines (r : Registry) (lines : List String) : Upholds I (runLines b r lines) := by
  induction lines with
  | nil => exact .pure _
  | cons line rest ih =>
    refine .attempt_bind (hI.runLine r line) fun result => ?_
    rcases result with f | code
    · exact .bind (.discard hI.pump) fun _ => .ofExcept _
    · refine .bind (.discard hI.pump) fun _ => ?_
      split_ifs
      · exact ih
      · exact .pure _

end Conversation

end Regime

end Session

end Loom
