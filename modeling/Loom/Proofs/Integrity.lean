import Loom.Proofs.OrderlyBlocks
import Loom.Proofs.StepRepresentation
import Loom.Proofs.StraightRun

/-! The integrity of an engine whose instructions take no steps of their own. Between any two moves its books
are in order; one move executes one instruction at most, from its beginning to its end; and no fault that
tells of a broken engine ever leaves a move, save one that the program raised itself. -/
namespace Loom

/-- The fault of an outcome, if it is one. -/
def Act.fault? : Except Fault α → Option Fault
  | .error f => some f
  | .ok _ => none

namespace Block

lemma unruly_raises (s : Scope) :
    (host unruly s).Raises Memory.Calm fun f => f.isInternal = false where
  code := heeds_code (fun n hn self scope => heedful_actions Fault.IsPlain.sound unruly self scope n.actions
    (unruly_orderly Fault.IsPlain.sound n hn).1) s
  next _ _ _ hf := successor_error (unruly_orderly Fault.IsPlain.sound) hf
  first source f hsource hf := by
    cases hsource
    cases hf
  scope source f hsource hf := by
    cases hsource
    cases hf
  farewell := heeds_parting (fun _ hm => hm) trivial trivial rfl
  arm ha := (clockwork_refuses ha).sound
  cause := id

end Block

namespace World

variable {D : Dialect}

/-- The fault with which a move ends, if it does. -/
def verdict (h : Host D) (rounds depth : Nat) (w : World D) : Move D → Option Fault
  | .operate r => Act.fault? ((serve h rounds (depth + 1) r).outcome w).1
  | .fire t => Act.fault? ((serve h rounds (depth + 1) (.fire t)).outcome w).1
  | .drift _ => none

variable {h : Host D} {fit : D.Clock → Prop} {P : D.Memory → Prop} {q : Fault → Prop}
  {past : List (Stage D)} {w : World D}

lemma Tidy.fault {o : Except Fault α} {spare : Nat} (hw : Tidy h q spare past o w) {f : Fault}
    (hf : Act.fault? o = some f) (hi : f.isInternal = true) : q f := by
  cases o with
  | ok a => cases hf
  | error g =>
    cases hf
    exact hw.blameless f rfl hi

section

variable (hs : h.scheduler.Defers fit) (hh : h.Tame P) (hq : h.Raises P q) (rounds depth : Nat)

include hs hh hq

/-- What one move does to the books. -/
theorem after_intact (hw : Steady h fit P w) (hi : w.Intact h 0 past) {m : Move D} (hm : w.Admits fit m) :
    ∃ now, Stage.Single now ∧ (w.after h rounds depth m).Intact h 0 (past ++ now) ∧
      ∀ f, w.verdict h rounds depth m = some f → f.isInternal = true → q f := by
  cases m with
  | operate r =>
    obtain ⟨now, hsingle, hv⟩ := operation_tidy hs.keeps hh hq rounds (depth + 1) hw.coherent hw.memory hi hm
    exact ⟨now, hsingle, hv.intact, fun f => hv.fault⟩
  | fire t =>
    obtain ⟨now, hsingle, hv⟩ :=
      fire_tidy hs.keeps hh hq rounds depth hw.coherent hw.memory hi t hw.coherent.books
    exact ⟨now, hsingle, hv.intact, fun f => hv.fault⟩
  | drift clock =>
    refine ⟨[], .nothing, ?_, nofun⟩
    rw [List.append_nil]
    exact hi.carry rfl (.inl rfl) rfl rfl

/-- What a whole run does to the books: move by move it executes single instructions. -/
theorem replay_intact (hw : Steady h fit P w) (hi : w.Intact h 0 past) {moves : List (Move D)}
    (hm : Plays h rounds depth fit w moves) :
    ∃ steps : List (List (Stage D)), steps.length = moves.length ∧ (∀ now ∈ steps, Stage.Single now) ∧
      (w.replay h rounds depth moves).Intact h 0 (past ++ steps.flatten) := by
  induction moves generalizing w past with
  | nil =>
    refine ⟨[], rfl, nofun, ?_⟩
    rw [List.flatten_nil, List.append_nil]
    exact hi
  | cons m moves ih =>
    obtain ⟨hmove, hrest⟩ := hm
    obtain ⟨now, hsingle, hnext, -⟩ := after_intact hs hh hq rounds depth hw hi hmove
    obtain ⟨steps, hlength, hsteps, hend⟩ := ih (after_steady hs hh rounds depth hw hmove) hnext hrest
    refine ⟨now :: steps, by simp [hlength], List.forall_mem_cons.2 ⟨hsingle, hsteps⟩, ?_⟩
    rw [List.flatten_cons, ← List.append_assoc]
    exact hend

end

/-- The books of an engine in which nothing has happened yet. -/
lemma Fresh.intact (hw : Fresh fit P w) (hslice : 1 ≤ w.engine.timeSlice) : w.Intact h 0 [] := by
  obtain ⟨run, settings, hmake⟩ := hw.engine
  have hengine := Engine.eq_of_make hmake
  have hlive : w.engine.live = [] := by rw [hengine]
  have hcore : w.core.Ordered h 0 := by
    refine ⟨by simp [hlive], by simp [hlive], .inr ⟨hlive, by simp [hengine]⟩, ?_, hslice⟩
    have hused : w.engine.sliceUsed = 0 := by rw [hengine]
    simp [hused]
    omega
  refine ⟨hcore, fun _ => hlive, fun hp _ => ?_, fun _ => ⟨by rw [hengine], rfl⟩, by simp [hw.deeds]⟩
  simp [hengine, Phase.IsAwake] at hp

section

variable {rate breakpoints timeSlice history : Value} {s : Settings} {run : Nat}

lemma timeSlice_of_make (hcheck : Settings.check rate breakpoints timeSlice history = .ok s)
    (hmake : Engine.make run s = .ok w.engine) : 1 ≤ w.engine.timeSlice := by
  rw [Engine.eq_of_make hmake]
  exact Int.ofNat_le.2 (Settings.timeSlice_pos hcheck)

/-- Between any two moves the strands in play are in ascending order of their numbers, and each stands at an
instruction; the turn is at one of them and the slice is not overdrawn; before the start and after the end
none is in play, and otherwise none only for an empty program that has not taken a step. So no move ends
with a fault that tells of a broken engine, unless the program raised it itself. -/
theorem books_stay_in_order (hs : h.scheduler.Defers fit) (hh : h.Tame P) (hq : h.Raises P q)
    (hcheck : Settings.check rate breakpoints timeSlice history = .ok s)
    (hmake : Engine.make run s = .ok w.engine) (hw : Fresh fit P w) (rounds depth : Nat)
    (moves : List (Move D)) (hm : Plays h rounds depth fit w moves) :
    let v := w.replay h rounds depth moves
    v.engine.live.Pairwise (· < ·) ∧
    (∀ sid ∈ v.engine.live, sid < v.engine.strands.size ∧
      ∃ i, v.engine.cursor sid = some i ∧ h.wellFormed i = true) ∧
    (v.engine.index < v.engine.live.length ∨ v.engine.live = [] ∧ v.engine.index = 0) ∧
    (v.engine.live ≠ [] → v.engine.turned.index < v.engine.live.length) ∧
    (v.engine.sliceUsed : Int) ≤ v.engine.timeSlice ∧
    (v.engine.phase = .idle ∨ v.engine.phase = .halted ∨ v.engine.phase = .terminated →
      v.engine.live = []) ∧
    (v.engine.phase = .running ∨ v.engine.phase = .paused → v.engine.live = [] →
      h.IsEmpty ∧ v.engine.totalSteps = 0 ∧ v.executions = []) ∧
    ∀ m f, v.Admits fit m → v.verdict h rounds depth m = some f → f.isInternal = true → q f := by
  intro v
  have hv : Steady h fit P v := (replay_steady hs hh rounds depth hw.steady hm).1
  obtain ⟨steps, -, -, hi⟩ := replay_intact hs hh hq rounds depth hw.steady
    (hw.intact (timeSlice_of_make hcheck hmake)) hm
  change v.Intact h 0 _ at hi
  refine ⟨hi.ordered.ascending, ?_, hi.ordered.index, ?_, ?_, ?_, ?_, ?_⟩
  · intro sid hsid
    exact ⟨hi.ordered.lt_size hsid, hi.ordered.listed sid hsid⟩
  · exact Core.turned_index_lt (c := v.core)
  · simpa using hi.ordered.slice
  · intro hp
    apply hi.asleep
    rcases hp with hp | hp | hp <;> simp [hp, Phase.IsAwake]
  · intro hp hl
    obtain ⟨hempty, htotal, hnil⟩ := hi.bare hp hl
    exact ⟨hempty, htotal, hi.executions.trans hnil⟩
  · intro m f hadmits
    obtain ⟨-, -, -, hfault⟩ := after_intact hs hh hq rounds depth hv hi hadmits
    exact hfault f

/-- A block that pauses its run in the middle of itself, brings a further strand into play and resumes; then
that strand fails. -/
theorem unruly_books_in_order :
    let r := Block.unrulyRun .keeping
    let fit : Clockwork → Prop := fun c => c.kind ≠ .eager
    let moves : List (Move Block.dialect) := [.operate (.start none), .fire ⟨0, 1⟩, .fire ⟨0, 4⟩]
    Plays r.host 1 5 fit r.world moves ∧ (r.world.replay r.host 1 5 moves).engine.live = [0, 1] ∧
      (r.world.replay r.host 1 5 moves).engine.live.Pairwise (· < ·) ∧
      (∃ i, (r.world.replay r.host 1 5 moves).engine.cursor 1 = some i ∧ r.host.wellFormed i = true) ∧
      ((r.world.replay r.host 1 5 moves).verdict r.host 1 5 (.operate .step)).isSome ∧
      ∀ f, (r.world.replay r.host 1 5 moves).verdict r.host 1 5 (.operate .step) = some f →
        f.isInternal = false := by
  intro r fit moves
  have hplays : Plays r.host 1 5 fit r.world moves :=
    ⟨trivial, admits_fire (by decide +kernel), admits_fire (by decide +kernel), trivial⟩
  have hlive : (r.world.replay r.host 1 5 moves).engine.live = [0, 1] := by decide +kernel
  have hfresh : Fresh fit Block.Memory.Calm r.world := Block.unrulyRun_fresh .keeping nofun
  obtain ⟨hascending, hlisted, -, -, -, -, -, hfault⟩ := books_stay_in_order (h := r.host)
    Block.clockwork_defers (Block.host_tame (Block.unruly_orderly Fault.IsPlain.ordinary) r.scope)
    (Block.unruly_raises r.scope)
    Settings.check_defaults rfl hfresh 1 5 moves hplays
  refine ⟨hplays, hlive, hascending, (hlisted 1 (by simp [hlive])).2, by decide +kernel, ?_⟩
  intro f hf
  have hinternal := hfault (.operate .step) f trivial hf
  cases hi : f.isInternal
  · rfl
  · rw [hi] at hinternal
    exact hinternal rfl

/-- One step in flight: move by move, an engine whose instructions take no steps of their own executes
nothing, or one instruction that fails, or one that returns before any other begins; and no move ends with a
fault that tells of a strand lost in between. -/
theorem one_execution_per_move (hs : h.scheduler.Defers fit) (hh : h.Tame P) (hq : h.Raises P q)
    (hcheck : Settings.check rate breakpoints timeSlice history = .ok s)
    (hmake : Engine.make run s = .ok w.engine) (hw : Fresh fit P w) (rounds depth : Nat)
    (moves : List (Move D)) (hm : Plays h rounds depth fit w moves) :
    let v := w.replay h rounds depth moves
    (∃ steps : List (List (Stage D)), steps.length = moves.length ∧
      (∀ now ∈ steps, Stage.Single now) ∧ v.executions = steps.flatten) ∧
    ∀ m, v.Admits fit m → v.begins h rounds depth m ≤ 1 ∧
      ∀ f, v.verdict h rounds depth m = some f → f.isInternal = true → q f := by
  intro v
  have hv : Steady h fit P v := (replay_steady hs hh rounds depth hw.steady hm).1
  obtain ⟨steps, hlength, hsteps, hi⟩ := replay_intact hs hh hq rounds depth hw.steady
    (hw.intact (timeSlice_of_make hcheck hmake)) hm
  change v.Intact h 0 _ at hi
  refine ⟨⟨steps, hlength, hsteps, hi.executions⟩, ?_⟩
  intro m hadmits
  obtain ⟨-, -, -, hfault⟩ := after_intact hs hh hq rounds depth hv hi hadmits
  exact ⟨begins_le_one hs hh rounds depth hv hadmits, hfault⟩

/-- The same run: the block that pauses and resumes in the middle of itself is executed once, and then the
strand that fails is attempted. -/
theorem unruly_executes_once :
    let r := Block.unrulyRun .keeping
    let fit : Clockwork → Prop := fun c => c.kind ≠ .eager
    let moves : List (Move Block.dialect) := [.operate (.start none), .fire ⟨0, 1⟩, .fire ⟨0, 4⟩]
    Plays r.host 1 5 fit r.world moves ∧
      (r.world.replay r.host 1 5 moves).attempts = [(0, 0), (1, 1)] ∧
      (∃ steps : List (List (Stage Block.dialect)), steps.length = 3 ∧ (∀ now ∈ steps, Stage.Single now) ∧
        (r.world.replay r.host 1 5 moves).executions = steps.flatten) ∧
      (r.world.replay r.host 1 5 moves).begins r.host 1 5 (.operate .step) ≤ 1 := by
  intro r fit moves
  have hplays : Plays r.host 1 5 fit r.world moves :=
    ⟨trivial, admits_fire (by decide +kernel), admits_fire (by decide +kernel), trivial⟩
  have hfresh : Fresh fit Block.Memory.Calm r.world := Block.unrulyRun_fresh .keeping nofun
  obtain ⟨hsteps, hmove⟩ := one_execution_per_move (h := r.host) Block.clockwork_defers
    (Block.host_tame (Block.unruly_orderly Fault.IsPlain.ordinary) r.scope) (Block.unruly_raises r.scope)
    Settings.check_defaults rfl
    hfresh 1 5 moves hplays
  exact ⟨hplays, by decide +kernel, hsteps, (hmove (.operate .step) trivial).1⟩

/-- An instruction that takes a step of its own once it has paused its run is begun again in the middle of
itself, and the outer step loses the strand that the inner one retired. -/
theorem nesting_executes_twice :
    let r := Block.nestingRun
    let v := r.world.replay r.host 1 5 [.operate (.start none)]
    v.Admits (fun c : Clockwork => c.kind ≠ .eager) (.fire ⟨0, 1⟩) ∧
    v.begins r.host 1 5 (.fire ⟨0, 1⟩) = 2 ∧
      (v.after r.host 1 5 (.fire ⟨0, 1⟩)).attempts = [(0, 0), (0, 0)] ∧
      (v.verdict r.host 1 5 (.fire ⟨0, 1⟩)).map (fun f => (f.isInternal, f.kind, f.message.toOption)) =
        some (true, .value, some "Strand(sid=0, at=None, steps=2) is not in list") := by
  refine ⟨admits_fire ?_, ?_⟩ <;> decide +kernel

end

end World
end Loom
