import Loom.Proofs.Interleaving
import Loom.Proofs.Roster

/-! A run lives once. It is started before it does anything else and it ends for good at most once, and
the end is announced when it comes. This holds in every world in which a request can come to an engine:
between the requests of its owner, and at every request that a script makes while the engine runs it,
whatever the program and the scheduler do. -/
namespace Loom

/-- The event that tells of the end of a run. -/
def Happening.isEnding : Happening → Bool
  | phase _ .terminated _ => true
  | _ => false

/-- How often events tell of the end of a run. -/
def Log.endings (log : List Happening) : Nat := log.countP Happening.isEnding

@[simp] lemma Log.endings_concat (log : List Happening) (what : Happening) :
    Log.endings (log ++ [what]) = Log.endings log + if what.isEnding then 1 else 0 := by
  simp [Log.endings, List.countP_append, List.countP_singleton]

namespace Roster

/-- A roster whose run was started unless it is idle, and whose end was told when it came. -/
structure Mortal (r : Roster) : Prop where
  started_iff : r.started = true ↔ r.phase ≠ .idle
  endings : Log.endings r.log = if r.phase = .terminated then 1 else 0

/-- Only a run that has not ended can end. -/
lemma Mortal.alive {r : Roster} (h : r.Mortal) {new : Phase}
    (hmay : World.mayFollow r.phase new = true) : Log.endings r.log = 0 := by
  rw [h.endings, if_neg]
  rintro hp
  rw [hp] at hmay
  cases new <;> cases hmay

/-- An event that does not tell of the end is told while the phase stays. -/
lemma Mortal.tell {r : Roster} (h : r.Mortal) {what : Happening} (hw : what.isEnding = false) :
    (r.told what).Mortal := by
  refine ⟨h.started_iff, ?_⟩
  rw [told_log, Log.endings_concat, hw, h.endings]
  simp

/-- A run that is not started is told nothing of its end. -/
lemma Mortal.begin {r : Roster} (h : r.Mortal) (hs : r.started = false) (root : Option Nat)
    (reason : String) :
    (((r.launched root).inPhase .running).told (.phase r.phase .running reason)).Mortal := by
  have hidle : r.phase = .idle := World.idle_of_unstarted h.started_iff hs
  refine ⟨by simp, ?_⟩
  simp [Happening.isEnding, h.endings, hidle]

lemma Mortal.change {empty : Prop} {late : Nat → Prop} {r r' : Roster} (h : r.Mortal)
    (hc : Change empty late r r') : r'.Mortal := by
  cases hc with
  | enter new reason hidle hnew hmay =>
    have hnew' : new ≠ .idle := World.ne_idle_of_mayFollow hmay
    refine ⟨by simp [hnew', h.started_iff.2 hidle], ?_⟩
    have hquiet : (Happening.phase r.phase new reason).isEnding = false := by
      cases new <;> first | rfl | exact absurd rfl hnew
    simp [hquiet, hnew, h.alive hmay]
  | startEmpty reason hs _ => exact h.begin hs none reason
  | start reason label hs => exact (h.begin hs (some r.made) reason).tell rfl
  | spawn label _ =>
    have hjoined : r.joined.Mortal := ⟨h.started_iff, h.endings⟩
    exact hjoined.tell rfl
  | @retire sid steps _ =>
    have hwithout : (r.without sid).Mortal := ⟨h.started_iff, h.endings⟩
    exact hwithout.tell rfl
  | finish reason hs hmay =>
    refine ⟨by simp [hs], ?_⟩
    simp [Happening.isEnding, h.alive hmay]
  | pass what hw => exact h.tell (by cases what <;> first | rfl | cases hw)
  | step => exact h.tell rfl

lemma closed_mortal (empty : Prop) : Closed empty (fun _ => False) Mortal where
  change := Mortal.change
  started_iff h := h.started_iff
  timely _ _ := id

end Roster

/-- A script may ask for anything. -/
lemma Script.asks_anything {D : Dialect} (s : Script D α) : s.Asks (fun _ => True) fun _ => True := by
  suffices ∀ q : Fault → Prop, (∀ f, q f) → s.Heeds (fun _ => True) (fun _ => True) q from
    this _ fun _ => trivial
  induction s with
  | done a => exact fun q _ => .done a
  | fail f => exact fun q hq => .fail (hq f)
  | look next ih => exact fun q hq => .look fun m _ => ih m q hq
  | store m next ih => exact fun q hq => .store trivial (ih q hq)
  | ask r next ih => exact fun q hq => .ask trivial fun o => ih o _ fun f => .inl (hq f)

lemma Host.asks_anything {D : Dialect} (h : Host D) : h.Asks (fun _ => True) fun _ => True :=
  ⟨fun _ _ => Script.asks_anything _, fun _ => Script.asks_anything _,
    fun _ => Script.asks_anything _, fun _ _ _ => trivial⟩

namespace World

variable {D : Dialect}

/-- A world in which a run lives once. -/
def Mortal (w : World D) : Prop := w.roster.Mortal

/-- The world in which a step runs the code of an instruction. -/
def executing (w : World D) (sid : Nat) (i : D.Instr) (manual : Bool) : World D :=
  ((w.altered (·.passing none)).altered (·.inStep true)).recorded (.began sid i w.engine.phase manual)

@[simp] lemma roster_executing (w : World D) (sid : Nat) (i : D.Instr) (manual : Bool) :
    (w.executing sid i manual).roster = w.roster := roster_recorded _ rfl

/-- While a script runs in a world, there comes a moment when a script remains to be run in a world. -/
inductive Reaches (serve : Request D → Act (World D) Reply) :
    Script D α → World D → Script D α → World D → Prop
  | here (s : Script D α) (w : World D) : Reaches serve s w s w
  | look {next w s' w'} (h : Reaches serve (next w.memory) w s' w') :
      Reaches serve (.look next) w s' w'
  | store {memory next w s' w'} (h : Reaches serve next (w.withMemory memory) s' w') :
      Reaches serve (.store memory next) w s' w'
  | ask {r next w o v s' w'} (hr : (serve r).outcome w = (o, v))
      (h : Reaches serve (next o) v s' w') : Reaches serve (.ask r next) w s' w'

section

variable {serve : Request D → Act (World D) Reply} {s s' : Script D α} {w w' : World D}

/-- Running the rest of a script is running the script. -/
lemma Reaches.outcome (h : Reaches serve s w s' w') :
    (runScript serve s).outcome w = (runScript serve s').outcome w' := by
  induction h with
  | here => rfl
  | look _ ih => exact ih
  | store _ ih => exact ih
  | ask hr _ ih =>
    rw [runScript, Act.outcome_bind, Act.outcome_attempt, hr]
    exact ih

/-- What every request keeps holds at every moment of a script. -/
lemma Reaches.keeps {I : World D → Prop} (h : Reaches serve s w s' w')
    (hstore : ∀ v m, I v → I (v.withMemory m))
    (hserve : ∀ r v, I v → (serve r).Ensures v fun _ u => I u) (hw : I w) : I w' := by
  induction h with
  | here => exact hw
  | look _ ih => exact ih hw
  | store _ ih => exact ih (hstore _ _ hw)
  | @ask r _ v _ _ _ _ hr _ ih =>
    have hv := hserve r v hw
    rw [Act.Ensures, hr] at hv
    exact ih hv

end

variable (h : Host D) (rounds depth : Nat)

/-- Whatever is asked for, by whom and how deep, a run lives once. -/
theorem serve_mortal (r : Request D) {w : World D} (hw : w.Mortal) :
    (serve h rounds depth r).Ensures w fun _ v => v.Mortal := by
  have hkeeps : Keeps (fun _ => True) Roster.Mortal (serve h rounds depth r) := by
    refine serve_keeps_of (Roster.closed_mortal h.IsEmpty) h.asks_anything rounds depth
      (fun _ => trivial) (fun serve r _ hr => ?_) trivial
    cases r with
    | emit type strand data =>
      -- The host's own events do not tell of the end.
      refine fun w hw => announce_ensures (fun _ _ => hw) fun _ _ => ⟨?_, trivial⟩
      rw [roster_emitted]
      exact hw.roster.tell rfl
    | forget position =>
      refine Keeps.bind (fun w hw => ⟨?_, trivial⟩) fun _ => Keeps.pure _
      have hlife := hw.roster
      unfold forget
      rw [modifyEngine_outcome]
      dsimp only [altered]
      split_ifs <;> exact ⟨hlife.started_iff, hlife.endings⟩
    | _ => exact absurd trivial hr
  exact (hkeeps w ⟨hw, trivial⟩).mono fun _ _ hv => hv.roster

variable {h rounds depth}

lemma after_mortal (m : Move D) {w : World D} (hw : w.Mortal) : (w.after h rounds depth m).Mortal := by
  cases m with
  | operate r => exact serve_mortal h rounds (depth + 1) r hw
  | fire t => exact serve_mortal h rounds (depth + 1) (.fire t) hw
  | drift clock => exact hw

theorem replay_mortal (moves : List (Move D)) {w : World D} (hw : w.Mortal) :
    (w.replay h rounds depth moves).Mortal := by
  induction moves generalizing w with
  | nil => exact hw
  | cons m moves ih => exact ih (after_mortal m hw)

lemma Fresh.mortal {fit : D.Clock → Prop} {P : D.Memory → Prop} {w : World D} (hw : Fresh fit P w) :
    w.Mortal := by
  obtain ⟨run, settings, hmake⟩ := hw.engine
  unfold Mortal roster log
  rw [hw.deeds, Engine.eq_of_make hmake]
  exact ⟨by simp, by simp [Log.endings]⟩

/-- A run lives once also at every moment of a script that is run in it. -/
lemma Reaches.mortal {s s' : Script D α} {w w' : World D}
    (hs : Reaches (serve h rounds depth) s w s' w') (hw : w.Mortal) : w'.Mortal :=
  hs.keeps (fun _ _ hv => hv) (fun r _ hv => serve_mortal h rounds depth r hv) hw

/-- That the turn passes on says nothing of the end. -/
lemma Mortal.altered {w : World D} (hw : w.Mortal) {f : Engine D → Engine D}
    (hstarted : (f w.engine).started = w.engine.started) (hphase : (f w.engine).phase = w.engine.phase) :
    (w.altered f).Mortal := by
  have hiff := hw.started_iff
  have hend := hw.endings
  rw [roster_started, roster_phase] at hiff
  rw [roster_phase] at hend
  refine ⟨?_, ?_⟩
  · rw [roster_started, roster_phase, altered_engine, hstarted, hphase]
    exact hiff
  · rw [roster_phase, altered_engine, hphase]
    exact hend

lemma Mortal.turned {w : World D} (hw : w.Mortal) : w.turned.Mortal := by
  rw [Mortal, roster_turned]
  split_ifs
  · exact hw.tell rfl
  · exact hw

lemma Mortal.executing {w : World D} (hw : w.Mortal) (sid : Nat) (i : D.Instr) (manual : Bool) :
    (w.executing sid i manual).Mortal := by
  rw [Mortal, roster_executing]
  exact hw

end World
end Loom
