import Loom.Proofs.CoreStep
import Loom.Proofs.PlacidBlocks

/-! Driving does not change the computation. However a run is paused, resumed, stepped by hand, slowed
down or stopped before instructions, and whatever stale tickets are fired, the instructions it executes
are those of its core, in order. -/
namespace Loom

/-- The requests that steer a run without adding to it. -/
def Request.IsControl : Request D → Prop
  | pause | resume | step | rate _ | breakpoints _ => True
  | _ => False

/-- The moves of a driver. -/
def Move.Steers : Move D → Prop
  | operate r => r.IsControl
  | fire _ | drift _ => True

namespace World

variable {D : Dialect} {h : Host D} {fit : D.Clock → Prop} {P : D.Memory → Prop} {w v : World D}

section

variable (hs : h.scheduler.Defers fit)

include hs

lemma pause_trails (w : World D) : (pause h).Ensures w fun _ v => Trails fit w v :=
  pause_ensures (fun _ _ => .refl w) (fun _ _ => (Trails.disarmed hs w).trans (.entered _ _ (by simp) (by simp)))
    fun _ _ => .disarmed hs w

lemma resume_trails (hw : Underway fit P w) (fire : Ticket → Act (World D) Unit) :
    (resume h fire).Ensures w fun _ v => Trails fit w v :=
  resume_ensures (A := fun _ v => Trails fit w v) (postpones_of_fit hs hw.clock fire) (fun _ _ => .refl w)
    (fun _ => .noted _ _ _ _) (.deferred hs w .zero) (fun _ _ => id)
    (fun _ hv _ => hv.trans (.entered _ _ (by simp) (by simp))) fun _ => id

omit hs in
lemma setRate_trails (given : Option Value) : (setRate given).Ensures w fun _ v => Trails fit w v :=
  setRate_ensures (fun _ _ => .refl w) fun _ => ⟨rfl, rfl, rfl, id, id, id⟩

variable (hh : Core.Serene h P) (rounds depth : Nat)

include hh

/-- A manual step executes the next instruction of the core if it executes one, and from a pause it does
while strands are in play. -/
lemma step_advances (hw : Underway fit P w) :
    (serve h rounds (depth + 2) .step).Ensures w fun _ v =>
      Underway fit P v ∧ Advances h w v ∧
        (w.engine.phase = .paused → w.engine.live ≠ [] →
          ∃ x, w.core.step h = some (x, v.core) ∧ v.completions = w.completions ++ [x]) := by
  have hsame (hp : w.engine.phase ≠ .paused) : Underway fit P w ∧ Advances h w w ∧
      (w.engine.phase = .paused → w.engine.live ≠ [] →
        ∃ x, w.core.step h = some (x, w.core) ∧ w.completions = w.completions ++ [x]) :=
    ⟨hw, (Trails.refl w : Trails fit w w).advances, fun h => absurd h hp⟩
  refine Act.Ensures.reply (I := fun v => Underway fit P v ∧ Advances h w v ∧ (_ → _ →
    ∃ x, w.core.step h = some (x, v.core) ∧ v.completions = w.completions ++ [x])) ?_
  refine step_ensures (fun f hf => hsame fun hp => ?_) (fun hp => hsame (by simp [hp])) fun _ hphase => ?_
  · simp [Engine.stepRefusal, Engine.refusal, hw.started, hp] at hf
  · obtain ⟨hunder, hadvance, hsure⟩ := executeStep_core hs rounds depth hh hw
      (fun t => discard (serve h rounds (depth + 1) (.fire t))) true (hphase.resolve_left hw.idle)
    exact ⟨hunder, hadvance, fun _ hl => hsure hl (.inl rfl)⟩

/-- So does firing a ticket. Without breakpoints the one that counts executes one while strands are in
play. -/
lemma fire_advances (hw : Underway fit P w) (t : Ticket) :
    (serve h rounds (depth + 2) (.fire t)).Ensures w fun _ v =>
      Underway fit P v ∧ Advances h w v ∧
        (t = w.ticket → w.engine.phase = .running → w.engine.live ≠ [] → w.engine.breaking = false →
          ∃ x, w.core.step h = some (x, v.core) ∧ v.completions = w.completions ++ [x]) := by
  have hlapsed : Trails fit w (w.altered (·.unarmed)) := ⟨rfl, rfl, rfl, id, id, id⟩
  have hnoted : Trails fit w _ := .noted w .debug .process "stale step callback ignored"
  refine fire_ensures (fun _ hp => ?_)
    (fun _ hp => ⟨hw.trails hlapsed, hlapsed.advances, fun _ hrun => absurd hrun hp⟩)
    fun ht => ⟨hw.trails hnoted, hnoted.advances, fun heq => absurd heq ht⟩
  obtain ⟨hunder, hadvance, hsure⟩ := executeStep_core hs rounds depth hh (hw.trails hlapsed)
    (fun t => discard (serve h rounds (depth + 1) (.fire t))) false hp
  exact ⟨hunder, hadvance, fun _ _ hl hb => hsure hl (.inr hb)⟩

/-- What one move of a driver does to the computation. -/
theorem after_advances (hw : Underway fit P w) {m : Move D} (hm : w.Admits fit m) (hd : m.Steers) :
    Underway fit P (w.after h rounds (depth + 1) m) ∧ Advances h w (w.after h rounds (depth + 1) m) := by
  have htrails {v : World D} (hv : Trails fit w v) : Underway fit P v ∧ Advances h w v :=
    ⟨hw.trails hv, hv.advances⟩
  have hanswer {a : Act (World D) Unit} (ha : a.Ensures w fun _ v => Trails fit w v) :
      Trails fit w ((do a; pure Reply.self : Act (World D) Reply).outcome w).2 := ha.reply
  cases m with
  | fire t =>
    obtain ⟨hunder, hadvance, -⟩ := fire_advances hs hh rounds depth hw t
    exact ⟨hunder, hadvance⟩
  | drift clock => exact htrails ⟨rfl, rfl, rfl, id, id, fun _ => hm⟩
  | operate r =>
    cases r with
    | pause => exact htrails (hanswer (pause_trails hs w))
    | resume => exact htrails (hanswer (resume_trails hs hw _))
    | rate given => exact htrails (hanswer (setRate_trails given))
    | breakpoints on => exact htrails ⟨rfl, rfl, rfl, id, id, id⟩
    | step =>
      obtain ⟨hunder, hadvance, -⟩ := step_advances hs hh rounds depth hw
      exact ⟨hunder, hadvance⟩
    | _ => exact hd.elim

/-- The core of a run is one that its completed instructions lead to, up to the choice of the strand at
the turn. -/
structure Follows (h : Host D) (w v : World D) (xs : List (Nat × D.Instr)) (d : Core D) : Prop where
  leads : Core.Leads h w.core xs d
  core : v.core = d ∨ v.core = d.turned
  completions : v.completions = w.completions ++ xs

omit hs hh in
lemma Follows.refl (w : World D) : Follows h w w [] w.core := ⟨.nil _, .inl rfl, by simp⟩

omit hs hh in
lemma Follows.advances {u : World D} {xs : List (Nat × D.Instr)} {d : Core D} (hv : Follows h w v xs d)
    (hunder : Underway fit P v) (hu : Advances h v u) : ∃ ys e, Follows h w u ys e := by
  have hslice : 1 ≤ d.timeSlice := by
    have hready := hunder.ready.slice
    rcases hv.core with hcore | hcore <;> rw [hcore] at hready <;> exact hready
  rcases hu with ⟨hcompletions, hcore⟩ | ⟨x, hstep, hcompletions⟩
  · refine ⟨xs, d, hv.leads, ?_, hcompletions.trans hv.completions⟩
    rcases hv.core with hd | hd <;> rw [hd] at hcore
    · exact hcore
    · rw [Core.turned_turned hslice, or_self] at hcore
      exact .inr hcore
  · refine ⟨xs ++ [x], u.core, hv.leads.snoc ?_, .inl rfl, ?_⟩
    · rcases hv.core with hd | hd <;> rw [hd] at hstep
      · exact hstep
      · rwa [Core.step_turned h hslice] at hstep
    · rw [hcompletions, hv.completions, List.append_assoc]

/-- A whole drive executes instructions of the core, in order. -/
theorem replay_follows {xs : List (Nat × D.Instr)} {d : Core D} (hv : Follows h w v xs d)
    (hunder : Underway fit P v) {moves : List (Move D)} (hm : Plays h rounds (depth + 1) fit v moves)
    (hd : ∀ m ∈ moves, m.Steers) :
    (∃ ys e, Follows h w (v.replay h rounds (depth + 1) moves) ys e) ∧
      Underway fit P (v.replay h rounds (depth + 1) moves) := by
  induction moves generalizing v xs d with
  | nil => exact ⟨⟨xs, d, hv⟩, hunder⟩
  | cons m moves ih =>
    obtain ⟨hmove, hrest⟩ := hm
    obtain ⟨hunder', hadvance⟩ := after_advances hs hh rounds depth hunder hmove
      (hd m List.mem_cons_self)
    obtain ⟨ys, e, hv'⟩ := hv.advances hunder hadvance
    exact ih hv' hunder' hrest fun m hm => hd m (List.mem_cons_of_mem _ hm)

end

section

variable (h : Host D) (rounds depth : Nat)

/-- The world after the start and the making of further strands. -/
def setUp (w : World D) (entry : Option D.Instr) (others : List (Option D.Instr × ScopeChoice D)) :
    World D :=
  others.foldl (fun w x => w.after h rounds depth (.operate (.spawn x.1 x.2)))
    (w.after h rounds depth (.operate (.start entry)))

/-- The plain driver: breakpoints are off, and a ticket is fired only while it is pending. -/
def plain (w : World D) : Nat → World D
  | 0 => w.after h rounds depth (.operate (.breakpoints false))
  | n + 1 =>
    let v := plain w n
    if v.engine.pending.isSome then v.after h rounds depth (.fire v.ticket) else v

end

/-- The root strand is alive, or there is none. -/
lemma alive_begun (w : World D) (h : Host D) (cursor : Option D.Instr) (contents : D.Scope) :
    (w.begun h cursor contents).core.Alive := by
  rw [core_begun]
  cases cursor with
  | none => exact ⟨by simp, by simp⟩
  | some i => exact ⟨by simp, by simp⟩

/-- A start that succeeds sets the run under way. -/
lemma start_underway (hs : h.scheduler.Defers fit) (hh : Core.Serene h P) (hw : Fresh fit P w)
    (hq : 1 ≤ w.engine.timeSlice) (fire : Ticket → Act (World D) Unit) (entry : Option D.Instr) :
    (start h fire entry).Ensures w fun _ v => v.engine.started = true → Underway fit P v := by
  have hfresh : w.engine.started = false ∧ w.engine.phase = .idle := by
    obtain ⟨run, settings, hmake⟩ := hw.engine
    rw [Engine.eq_of_make hmake]
    exact ⟨rfl, rfl⟩
  obtain ⟨hstarted, hidle⟩ := hfresh
  unfold Act.Ensures
  rw [start_outcome h w fire entry hidle (postpones_of_fit hs hw.clock fire), hstarted]
  simp only [Bool.false_eq_true, if_false]
  rcases w.root h entry with f | ⟨cursor, contents⟩
  · simp [hstarted]
  · have hdeferred : Trails fit (w.sought h entry) _ := .deferred hs (w.sought h entry) .zero
    rcases hd : (w.sought h entry).deferred h.scheduler .zero with ⟨f | _, v⟩ <;> rw [hd] at hdeferred
    · intro hv
      rw [hdeferred.started] at hv
      simp [hstarted] at hv
    · intro _
      have hcore : v.core = w.core := hdeferred.core.trans (core_sought w h entry)
      have hmemory : P v.memory := by
        have hsame : v.memory = w.memory := congrArg Core.memory hcore
        exact hsame ▸ hw.memory
      have hslice : v.engine.timeSlice = w.engine.timeSlice := congrArg Core.timeSlice hcore
      have hclock : fit (v.begun h cursor contents).clock := by
        have hsame : (v.begun h cursor contents).clock = v.clock := by
          cases cursor <;> rfl
        exact hsame ▸ hdeferred.clock (by simpa using hw.clock)
      refine ⟨by cases cursor <;> rfl, by simp, by simp, hclock, alive_begun v h cursor contents, ?_, ?_⟩
      · rw [core_begun]
        exact hh.install _ _ hmemory
      · rw [core_begun]
        exact hslice ▸ hq

/-- So does a further strand. -/
lemma spawn_underway (hs : h.scheduler.Defers fit) (hh : Core.Serene h P) (hw : Underway fit P w)
    (fire : Ticket → Act (World D) Unit) (entry : Option D.Instr) (scope : ScopeChoice D) :
    (spawn h fire entry scope).Ensures w fun _ v => Underway fit P v := by
  refine spawn_ensures (postpones_of_fit hs hw.clock fire) (fun _ _ => hw) fun i _ _ _ _ => ?_
  have hmemory : P (w.spawned h i scope).core.memory := by
    cases scope with
    | fresh => exact hh.install _ _ hw.ready.memory
    | given contents => exact hh.install _ _ hw.ready.memory
    | shared other => exact hw.ready.memory
  have hspawned : Underway fit P (w.spawned h i scope) :=
    ⟨hw.started, hw.idle, hw.final, hw.clock,
      core_spawned w h i scope ▸ hw.ready.alive.spawned i scope, hmemory, hw.ready.slice⟩
  exact ⟨fun _ => hspawned.trails (.deferred hs _ .zero), hspawned⟩

lemma setUp_underway (hs : h.scheduler.Defers fit) (hh : Core.Serene h P) (hw : Fresh fit P w)
    (hq : 1 ≤ w.engine.timeSlice) (rounds depth : Nat) (entry : Option D.Instr)
    (hstart : (w.after h rounds depth (.operate (.start entry))).engine.started = true)
    (others : List (Option D.Instr × ScopeChoice D)) :
    Underway fit P (w.setUp h rounds depth entry others) := by
  have hfirst : Underway fit P (w.after h rounds depth (.operate (.start entry))) :=
    (start_underway hs hh hw hq _ entry).reply hstart
  unfold setUp
  generalize w.after h rounds depth (.operate (.start entry)) = v at hfirst
  induction others generalizing v with
  | nil => exact hfirst
  | cons x others ih =>
    refine ih _ ?_
    change (serve h rounds (depth + 1) (.spawn x.1 x.2)).Ensures v fun _ u => Underway fit P u
    exact (spawn_underway hs hh hfirst _ x.1 x.2).bind (fun _ _ hv => hv) fun _ _ hv => hv

lemma plain_follows (hs : h.scheduler.Defers fit) (hh : Core.Serene h P) (rounds depth : Nat)
    (hw : Underway fit P w) (n : Nat) :
    (∃ xs d, Follows h w (w.plain h rounds (depth + 1) n) xs d) ∧
      Underway fit P (w.plain h rounds (depth + 1) n) := by
  induction n with
  | zero =>
    have hoff : Trails fit w (w.plain h rounds (depth + 1) 0) := ⟨rfl, rfl, rfl, id, id, id⟩
    exact ⟨(Follows.refl w).advances hw hoff.advances, hw.trails hoff⟩
  | succ n ih =>
    obtain ⟨⟨xs, d, hfollow⟩, hunder⟩ := ih
    unfold plain
    dsimp only
    split_ifs
    · obtain ⟨hunder', hadvance, -⟩ := fire_advances hs hh rounds depth hunder _
      exact ⟨hfollow.advances hunder hadvance, hunder'⟩
    · exact ⟨⟨xs, d, hfollow⟩, hunder⟩

namespace Follows

variable {u : World D} {xs ys : List (Nat × D.Instr)} {d e : Core D}

/-- Of two runs that follow one core the one that got farther goes on where the other is. -/
lemma completions_prefix (hv : Follows h w v xs d) (hu : Follows h w u ys e)
    (hle : xs.length ≤ ys.length) : v.completions <+: u.completions := by
  obtain ⟨zs, rfl, -⟩ := hv.leads.extends hu.leads hle
  rw [hv.completions, hu.completions, ← List.append_assoc]
  exact List.prefix_append _ _

/-- Where both have executed as many instructions they differ at most in the choice at the turn. -/
lemma same_state (hv : Follows h w v xs d) (hu : Follows h w u ys e)
    (hlength : xs.length = ys.length) :
    v.engine.live = u.engine.live ∧ v.engine.strands = u.engine.strands ∧ v.memory = u.memory := by
  obtain ⟨zs, rfl, hrest⟩ := hv.leads.extends hu.leads (Nat.le_of_eq hlength)
  have hzs : zs = [] := by simpa using hlength
  subst hzs
  cases hrest
  have hpart {β : Type} (f : Core D → β) (hf : f d.turned = f d) : f v.core = f u.core := by
    rcases hv.core with hv | hv <;> rcases hu.core with hu | hu <;> simp [hv, hu, hf]
  exact ⟨hpart Core.live rfl, hpart Core.strands rfl, hpart Core.memory rfl⟩

end Follows

/-- However a run is driven, and the plain driver: as far as both have got they have executed the same
instructions of the same strands, and after as many instructions the strands in play, their cursors and
counts of steps, and the memory are the same. Nor is a run held up: while strands are in play a step from
a pause executes one more instruction, and so does the ticket that counts where no breakpoint can stop
it. -/
theorem driving_keeps_computation (hs : h.scheduler.Defers fit) (hh : Core.Serene h P)
    (hw : Fresh fit P w) (hq : 1 ≤ w.engine.timeSlice) (rounds depth : Nat) (entry : Option D.Instr)
    (hstart : (w.after h rounds (depth + 1) (.operate (.start entry))).engine.started = true)
    (others : List (Option D.Instr × ScopeChoice D)) (moves : List (Move D))
    (hm : Plays h rounds (depth + 1) fit (w.setUp h rounds (depth + 1) entry others) moves)
    (hd : ∀ m ∈ moves, m.Steers) (n : Nat) :
    let v := (w.setUp h rounds (depth + 1) entry others).replay h rounds (depth + 1) moves
    let u := (w.setUp h rounds (depth + 1) entry others).plain h rounds (depth + 1) n
    (∀ k, k < v.completions.length → k < u.completions.length →
      v.completions[k]? = u.completions[k]?) ∧
    (v.completions.length = u.completions.length →
      v.engine.live = u.engine.live ∧ v.engine.strands = u.engine.strands ∧ v.memory = u.memory) ∧
    (v.engine.live ≠ [] →
      (v.engine.phase = .paused →
        (v.after h rounds (depth + 1) (.operate .step)).completions.length = v.completions.length + 1) ∧
      (v.engine.phase = .running → v.engine.breaking = false →
        (v.after h rounds (depth + 1) (.fire v.ticket)).completions.length = v.completions.length + 1)) := by
  intro v u
  have hunder := setUp_underway hs hh hw hq rounds (depth + 1) entry hstart others
  obtain ⟨⟨xs, d, hv⟩, hvunder⟩ := replay_follows hs hh rounds depth (.refl _) hunder hm hd
  obtain ⟨⟨ys, e, hu⟩, -⟩ := plain_follows hs hh rounds depth hunder n
  refine ⟨?_, ?_, ?_⟩
  · intro k hkv hku
    rcases Nat.le_total xs.length ys.length with hle | hle
    · rw [List.prefix_iff_getElem?.1 (hv.completions_prefix hu hle) k hkv]
      exact List.getElem?_eq_getElem hkv
    · rw [List.prefix_iff_getElem?.1 (hu.completions_prefix hv hle) k hku]
      exact (List.getElem?_eq_getElem hku).symm
  · intro hlength
    rw [hv.completions, hu.completions] at hlength
    exact hv.same_state hu (by simpa using hlength)
  · intro hl
    have hone {v' : World D} {x : Nat × D.Instr} (hv' : v'.completions = v.completions ++ [x]) :
        v'.completions.length = v.completions.length + 1 := by
      rw [hv', List.length_append, List.length_singleton]
    constructor
    · intro hp
      obtain ⟨-, -, hsure⟩ := step_advances hs hh rounds depth hvunder
      obtain ⟨x, -, hx⟩ := hsure hp hl
      exact hone hx
    · intro hp hb
      obtain ⟨-, -, hsure⟩ := fire_advances hs hh rounds depth hvunder v.ticket
      obtain ⟨x, -, hx⟩ := hsure rfl hp hl hb
      exact hone hx

/-- A run that is stopped before a block, stepped, paused and fired with a stale ticket, and the plain
one, three instructions on. -/
theorem branching_driven_as_plain :
    let r := Block.branchingRun
    let fit : Clockwork → Prop := fun c => c.kind ≠ .eager
    let others : List (Option Nat × ScopeChoice Block.dialect) := [(some 1, .fresh)]
    let moves : List (Move Block.dialect) := [.operate (.breakpoints true), .fire ⟨0, 1⟩,
      .operate .step, .operate .resume, .operate .resume, .fire ⟨0, 3⟩, .fire ⟨0, 4⟩, .operate .pause,
      .operate .step]
    let depth := 2
    Plays r.host 1 (depth + 1) fit (r.world.setUp r.host 1 (depth + 1) none others) moves ∧
      (∀ m ∈ moves, m.Steers) ∧
      ((r.world.setUp r.host 1 (depth + 1) none others).replay r.host 1 (depth + 1) moves).completions.length
        = 3 ∧
      ((r.world.setUp r.host 1 (depth + 1) none others).plain r.host 1 (depth + 1) 3).completions.length
        = 3 ∧
      ((r.world.setUp r.host 1 (depth + 1) none others).replay r.host 1 (depth + 1) moves).engine.live =
        ((r.world.setUp r.host 1 (depth + 1) none others).plain r.host 1 (depth + 1) 3).engine.live ∧
      ∀ k < 3,
        ((r.world.setUp r.host 1 (depth + 1) none others).replay r.host 1 (depth + 1) moves).completions[k]? =
          ((r.world.setUp r.host 1 (depth + 1) none others).plain r.host 1 (depth + 1) 3).completions[k]? := by
  intro r fit others moves depth
  have hplays : Plays r.host 1 (depth + 1) fit (r.world.setUp r.host 1 (depth + 1) none others) moves :=
    ⟨trivial, admits_fire (by decide +kernel), trivial, trivial, trivial,
      admits_fire (by decide +kernel), admits_fire (by decide +kernel), trivial, trivial, trivial⟩
  have hsteers : ∀ m ∈ moves, m.Steers := by
    intro m hm
    simp only [moves, List.mem_cons, List.not_mem_nil, or_false] at hm
    rcases hm with rfl | rfl | rfl | rfl | rfl | rfl | rfl | rfl | rfl <;> trivial
  have hv : ((r.world.setUp r.host 1 (depth + 1) none others).replay r.host 1 (depth + 1)
      moves).completions.length = 3 := by decide +kernel
  have hu : ((r.world.setUp r.host 1 (depth + 1) none others).plain r.host 1 (depth + 1)
      3).completions.length = 3 := by decide +kernel
  have hfresh : Fresh fit Block.Memory.Calm r.world := Block.branchingRun_fresh nofun
  obtain ⟨hsame, hstate, -⟩ := driving_keeps_computation (h := r.host) Block.clockwork_defers
    (Block.host_serene Block.branching_placid r.scope) hfresh (by decide) 1 depth none (by decide +kernel)
    others moves hplays hsteers 3
  obtain ⟨hlive, -⟩ := hstate (hv.trans hu.symm)
  exact ⟨hplays, hsteers, hv, hu, hlive,
    fun k hk => hsame k (Nat.lt_of_lt_of_eq hk hv.symm) (Nat.lt_of_lt_of_eq hk hu.symm)⟩

end World
end Loom
