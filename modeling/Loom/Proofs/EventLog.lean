import Loom.Proofs.OrderlyBlocks
import Loom.Proofs.Roster

/-! The events of an engine are a faithful log of its run. Who reads them in order, without ever looking at
the engine, knows its phase and its strands in play; the changes of phase follow one another as they may,
strands are numbered in the order in which they come to life, and each retires at most once. -/
namespace Loom

namespace Happening

/-- The change of phase that an event tells of. -/
@[simp] def change? : Happening → Option (Phase × Phase)
  | phase old new _ => some (old, new)
  | _ => none

/-- The strand that an event brings to life. -/
@[simp] def spawning? : Happening → Option Nat
  | spawned sid _ => some sid
  | _ => none

/-- The strand that an event tells the end of. -/
@[simp] def retirement? : Happening → Option Nat
  | retired sid _ => some sid
  | _ => none

/-- The strand that an event tells a step of. -/
@[simp] def step? : Happening → Option Nat
  | stepped sid .. => some sid
  | _ => none

end Happening

namespace Log

/-- The changes of phase that events tell of, in order. -/
def changes (log : List Happening) : List (Phase × Phase) := log.filterMap Happening.change?

/-- The strands that events bring to life, in order. -/
def spawnings (log : List Happening) : List Nat := log.filterMap Happening.spawning?

/-- The strands whose end events tell of, in order. -/
def retirements (log : List Happening) : List Nat := log.filterMap Happening.retirement?

/-- The strands that events tell steps of, in order. -/
def steps (log : List Happening) : List Nat := log.filterMap Happening.step?

lemma filterMap_concat (f : Happening → Option β) (log : List Happening) (what : Happening) :
    (log ++ [what]).filterMap f = log.filterMap f ++ (f what).toList := by
  rw [List.filterMap_append]
  cases hf : f what <;> simp [hf]

@[simp] lemma changes_concat (log : List Happening) (what : Happening) :
    changes (log ++ [what]) = changes log ++ what.change?.toList := filterMap_concat _ log what

@[simp] lemma spawnings_concat (log : List Happening) (what : Happening) :
    spawnings (log ++ [what]) = spawnings log ++ what.spawning?.toList := filterMap_concat _ log what

@[simp] lemma retirements_concat (log : List Happening) (what : Happening) :
    retirements (log ++ [what]) = retirements log ++ what.retirement?.toList :=
  filterMap_concat _ log what

@[simp] lemma steps_concat (log : List Happening) (what : Happening) :
    steps (log ++ [what]) = steps log ++ what.step?.toList := filterMap_concat _ log what

end Log

/-- What a reader of events knows. -/
@[ext] structure Reading where
  phase : Phase := .idle
  live : List Nat := []
  deriving DecidableEq

namespace Reading

/-- Hearing of one more event. -/
def hear (r : Reading) : Happening → Reading
  | .phase _ new _ => ⟨new, if new = .terminated then [] else r.live⟩
  | .spawned sid _ => { r with live := r.live ++ [sid] }
  | .retired sid _ => { r with live := r.live.erase sid }
  | _ => r

/-- What is known from events in order. -/
def ofLog (log : List Happening) : Reading := log.foldl hear {}

@[simp] lemma ofLog_append (log : List Happening) (what : Happening) :
    ofLog (log ++ [what]) = (ofLog log).hear what := by
  simp [ofLog]

end Reading

/-- Changes of phase that lead from one phase to another, each from where the one before led and each
allowed. -/
def Linked : Phase → List (Phase × Phase) → Phase → Prop
  | p, [], q => p = q
  | p, (old, new) :: rest, q => old = p ∧ World.mayFollow old new = true ∧ Linked new rest q

lemma Linked.append {p q new : Phase} {changes : List (Phase × Phase)} (h : Linked p changes q)
    (hmay : World.mayFollow q new = true) : Linked p (changes ++ [(q, new)]) new := by
  induction changes generalizing p with
  | nil =>
    cases h
    exact ⟨rfl, hmay, rfl⟩
  | cons change rest ih =>
    obtain ⟨hold, hchange, hrest⟩ := h
    exact ⟨hold, hchange, ih hrest⟩

namespace Roster

/-- A roster whose events tell all of it. The first strand that is told of is the root strand, or the one
after it when the root strand had no instruction. -/
structure Faithful (empty : Prop) (r : Roster) : Prop where
  reading : Reading.ofLog r.log = ⟨r.phase, r.live⟩
  linked : Linked .idle (Log.changes r.log) r.phase
  numbered : ∃ first, first ≤ r.made ∧ (first = 0 ∨ first = 1 ∧ empty) ∧
    Log.spawnings r.log = List.range' first (r.made - first)
  once : (Log.retirements r.log).Nodup
  nodup : r.live.Nodup
  live_lt : ∀ sid ∈ r.live, sid < r.made
  retired_lt : ∀ sid ∈ Log.retirements r.log, sid < r.made
  apart : ∀ sid ∈ r.live, sid ∉ Log.retirements r.log
  started_iff : r.started = true ↔ r.phase ≠ .idle
  unstarted : r.started = false → r.live = [] ∧ r.made = 0

namespace Faithful

variable {empty : Prop} {r : Roster}

lemma idle_of_unstarted (hr : Faithful empty r) (hs : r.started = false) : r.phase = .idle :=
  World.idle_of_unstarted hr.started_iff hs

/-- Telling of what a reader takes no notice of. -/
lemma pass (hr : Faithful empty r) {what : Happening}
    (hread : ∀ reading : Reading, reading.hear what = reading) (hchange : what.change? = none)
    (hspawning : what.spawning? = none) (hretirement : what.retirement? = none) :
    Faithful empty (r.told what) where
  reading := by simpa [hread] using hr.reading
  linked := by simpa [hchange, -Happening.change?] using hr.linked
  numbered := by simpa [hspawning, -Happening.spawning?] using hr.numbered
  once := by simpa [hretirement, -Happening.retirement?] using hr.once
  nodup := hr.nodup
  live_lt := hr.live_lt
  retired_lt := by simpa [hretirement, -Happening.retirement?] using hr.retired_lt
  apart := by simpa [hretirement, -Happening.retirement?] using hr.apart
  started_iff := hr.started_iff
  unstarted := hr.unstarted

lemma enter (hr : Faithful empty r) {new : Phase} (reason : String) (hidle : r.phase ≠ .idle)
    (hnew : new ≠ .terminated) (hmay : World.mayFollow r.phase new = true) :
    Faithful empty ((r.inPhase new).told (.phase r.phase new reason)) where
  reading := by simp [hr.reading, Reading.hear, hnew]
  linked := by simpa using hr.linked.append hmay
  numbered := by simpa using hr.numbered
  once := by simpa using hr.once
  nodup := hr.nodup
  live_lt := hr.live_lt
  retired_lt := by simpa using hr.retired_lt
  apart := by simpa using hr.apart
  started_iff := by
    have hne : new ≠ .idle := World.ne_idle_of_mayFollow hmay
    simpa [hne] using hr.started_iff.2 hidle
  unstarted := hr.unstarted

lemma spawn (hr : Faithful empty r) (label : String) (hs : r.started = true) :
    Faithful empty (r.joined.told (.spawned r.made label)) where
  reading := by simp [hr.reading, Reading.hear]
  linked := by simpa using hr.linked
  numbered := by
    obtain ⟨first, hle, hfirst, hrange⟩ := hr.numbered
    refine ⟨first, Nat.le_succ_of_le hle, hfirst, ?_⟩
    have hsize : r.made + 1 - first = r.made - first + 1 := by omega
    have hlast : first + (r.made - first) = r.made := by omega
    simp [hrange, hsize, List.range'_1_concat, hlast]
  once := by simpa using hr.once
  nodup := by
    refine List.nodup_append.2 ⟨hr.nodup, by simp, ?_⟩
    intro sid hsid made hmade
    rw [List.mem_singleton.1 hmade]
    exact Nat.ne_of_lt (hr.live_lt sid hsid)
  live_lt := by
    intro sid hsid
    rcases List.mem_append.1 hsid with hsid | hsid
    · exact Nat.lt_succ_of_lt (hr.live_lt sid hsid)
    · rw [List.mem_singleton.1 hsid]
      exact Nat.lt_succ_self _
  retired_lt := by
    intro sid hsid
    exact Nat.lt_succ_of_lt (hr.retired_lt sid (by simpa using hsid))
  apart := by
    intro sid hsid hret
    have hold : sid ∈ Log.retirements r.log := by simpa using hret
    rcases List.mem_append.1 hsid with hsid | hsid
    · exact hr.apart sid hsid hold
    · rw [List.mem_singleton.1 hsid] at hold
      exact Nat.lt_irrefl _ (hr.retired_lt _ hold)
  started_iff := hr.started_iff
  unstarted h := by simp [hs] at h

lemma retire (hr : Faithful empty r) {sid : Nat} (steps : Nat) (hs : sid ∈ r.live) :
    Faithful empty ((r.without sid).told (.retired sid steps)) where
  reading := by simp [hr.reading, Reading.hear]
  linked := by simpa using hr.linked
  numbered := by simpa using hr.numbered
  once := by
    have hnew : sid ∉ Log.retirements r.log := hr.apart sid hs
    simpa [List.nodup_append, hr.once] using fun sid' hsid => ne_of_mem_of_not_mem hsid hnew
  nodup := hr.nodup.erase sid
  live_lt sid' hsid := hr.live_lt sid' (List.mem_of_mem_erase hsid)
  retired_lt := by
    intro sid' hsid
    have hmem : sid' ∈ Log.retirements r.log ∨ sid' = sid := by simpa using hsid
    rcases hmem with hold | rfl
    · exact hr.retired_lt sid' hold
    · exact hr.live_lt sid' hs
  apart := by
    intro sid' hsid hret
    obtain ⟨hne, hlive⟩ := hr.nodup.mem_erase_iff.1 hsid
    have hmem : sid' ∈ Log.retirements r.log ∨ sid' = sid := by simpa using hret
    exact hmem.elim (hr.apart sid' hlive) hne
  started_iff := hr.started_iff
  unstarted h := by
    obtain ⟨hlive, -⟩ := hr.unstarted h
    simp [hlive] at hs

lemma finish (hr : Faithful empty r) (reason : String) (hs : r.started = true)
    (hmay : World.mayFollow r.phase .terminated = true) :
    Faithful empty ((r.emptied.inPhase .terminated).told (.phase r.phase .terminated reason)) where
  reading := by simp [Reading.hear]
  linked := by simpa using hr.linked.append hmay
  numbered := by simpa using hr.numbered
  once := by simpa using hr.once
  nodup := List.nodup_nil
  live_lt := by simp
  retired_lt := by simpa using hr.retired_lt
  apart := by simp
  started_iff := by simp [hs]
  unstarted h := by simp [hs] at h

/-- Before the start no strand is told of. -/
lemma spawnings_of_unstarted (hr : Faithful empty r) (hs : r.started = false) :
    Log.spawnings r.log = [] ∧ Log.retirements r.log = [] := by
  obtain ⟨-, hmade⟩ := hr.unstarted hs
  obtain ⟨first, -, -, hrange⟩ := hr.numbered
  refine ⟨by simp [hrange, hmade], ?_⟩
  apply List.eq_nil_iff_forall_not_mem.2
  intro sid hsid
  have hlt := hr.retired_lt sid hsid
  omega

lemma linked_start (hr : Faithful empty r) (hs : r.started = false) :
    Linked .idle (Log.changes r.log ++ [(r.phase, .running)]) .running := by
  apply hr.linked.append
  rw [hr.idle_of_unstarted hs]
  rfl

/-- A start without an instruction: nothing but the phase is told, and the number 0 is used up. -/
lemma startEmpty (hr : Faithful empty r) (reason : String) (hs : r.started = false) (he : empty) :
    Faithful empty (((r.launched none).inPhase .running).told (.phase r.phase .running reason)) := by
  obtain ⟨hlive, hmade⟩ := hr.unstarted hs
  obtain ⟨hspawnings, hretirements⟩ := hr.spawnings_of_unstarted hs
  constructor
  · simp [hr.reading, Reading.hear, hlive]
  · simpa using hr.linked_start hs
  · exact ⟨1, by simp, .inr ⟨rfl, he⟩, by simp [hspawnings, hmade]⟩
  all_goals simp [hretirements]

/-- A start with an instruction: the strand 0 comes to life. -/
lemma start (hr : Faithful empty r) (reason label : String) (hs : r.started = false) :
    Faithful empty ((((r.launched (some r.made)).inPhase .running).told
      (.phase r.phase .running reason)).told (.spawned r.made label)) := by
  obtain ⟨hlive, hmade⟩ := hr.unstarted hs
  obtain ⟨hspawnings, hretirements⟩ := hr.spawnings_of_unstarted hs
  constructor
  · simp [hr.reading, Reading.hear, hlive, -List.append_assoc]
  · simpa [-List.append_assoc] using hr.linked_start hs
  · exact ⟨0, by simp, .inl rfl, by simp [hspawnings, hmade, -List.append_assoc]⟩
  all_goals simp [hretirements, -List.append_assoc]

/-- Every change of a roster leaves it faithful. -/
theorem change {late : Nat → Prop} {r' : Roster} (hr : Faithful empty r)
    (hc : Change empty late r r') : Faithful empty r' := by
  cases hc with
  | enter new reason hidle hnew hmay => exact hr.enter reason hidle hnew hmay
  | startEmpty reason hs he => exact hr.startEmpty reason hs he
  | start reason label hs => exact hr.start reason label hs
  | spawn label hs => exact hr.spawn label hs
  | retire steps hs => exact hr.retire steps hs
  | finish reason hs hmay => exact hr.finish reason hs hmay
  | pass what hwhat =>
    cases what with
    | rotated | stopped | failed => exact hr.pass (fun _ => rfl) rfl rfl rfl
    | _ => exact hwhat.elim
  | step label next hasNext steps hs => exact hr.pass (fun _ => rfl) rfl rfl rfl

end Faithful

/-- Since `log` was all that was told, no step was told of the strands that had retired by then. -/
def Since (log : List Happening) (r : Roster) : Prop :=
  ∃ told, r.log = log ++ told ∧ ∀ sid ∈ Log.retirements log, sid ∉ Log.steps told

namespace Since

variable {log : List Happening} {r : Roster}

lemma refl (r : Roster) : Since r.log r := ⟨[], by simp, by simp [Log.steps]⟩

lemma tell (hr : Since log r) {r' : Roster} {what : Happening} (hlog : r'.log = r.log ++ [what])
    (hwhat : ∀ sid, what.step? = some sid → sid ∉ Log.retirements log) : Since log r' := by
  obtain ⟨told, htold, hsteps⟩ := hr
  refine ⟨told ++ [what], by rw [hlog, htold, List.append_assoc], ?_⟩
  intro sid hsid hstep
  rw [Log.steps_concat] at hstep
  rcases List.mem_append.1 hstep with hstep | hstep
  · exact hsteps sid hsid hstep
  · exact hwhat sid (Option.mem_toList.1 hstep) hsid

lemma change (hr : Since log r) {empty : Prop} {r' : Roster}
    (hc : Change empty (· ∈ Log.retirements log) r r') : Since log r' := by
  cases hc with
  | start reason label hs =>
    have hphase : Since log (((r.launched (some r.made)).inPhase .running).told
        (.phase r.phase .running reason)) := hr.tell rfl (by simp)
    exact hphase.tell rfl (by simp)
  | step label next hasNext steps hs =>
    refine hr.tell rfl ?_
    intro sid hsid
    cases hsid
    exact hs
  | pass what hwhat =>
    refine hr.tell rfl ?_
    cases what with
    | rotated | stopped | failed => simp
    | _ => exact hwhat.elim
  | _ => exact hr.tell rfl (by simp)

end Since

/-- What a log tells stays true of it, and is added to without going back to strands that had retired. -/
theorem closed_faithful (empty : Prop) (log : List Happening) :
    Closed empty (· ∈ Log.retirements log) fun r => Faithful empty r ∧ Since log r where
  change hr hc := ⟨hr.1.change hc, hr.2.change hc⟩
  started_iff hr := hr.1.started_iff
  timely := by
    rintro r sid ⟨hr, told, htold, -⟩ hsid hlate
    apply hr.apart sid hsid
    rw [htold, Log.retirements, List.filterMap_append]
    exact List.mem_append_left _ hlate

end Roster

/-- The moves that leave a trace. -/
def Move.IsLogged : Move D → Prop
  | operate r => r.IsLogged
  | fire _ | drift _ => True

namespace World

variable {D : Dialect} {h : Host D} {P : D.Memory → Prop} {w : World D}

/-- A world whose events tell its phase and its strands in play, and how they came about. -/
def Faithful (h : Host D) (w : World D) : Prop := w.roster.Faithful h.IsEmpty

/-- Whatever is asked for, and at whatever depth, the log stays faithful; and it is added to without going
back to strands that had retired when it was asked. -/
theorem serve_faithful (hh : h.Asks P Request.IsLogged) (rounds depth : Nat) {r : Request D}
    (hr : r.IsLogged) (hw : w.Faithful h) (hm : P w.memory) :
    (serve h rounds depth r).Ensures w fun _ v =>
      (v.Faithful h ∧ Roster.Since w.log v.roster) ∧ P v.memory := by
  have hkeeps := serve_keeps (Roster.closed_faithful h.IsEmpty w.log) hh rounds depth hr w
    ⟨⟨hw, Roster.Since.refl w.roster⟩, hm⟩
  exact hkeeps.mono fun _ _ hv => ⟨hv.roster, hv.memory⟩

lemma after_faithful (hh : h.Asks P Request.IsLogged) (rounds depth : Nat) {m : Move D}
    (hm : m.IsLogged) (hw : w.Faithful h ∧ P w.memory) :
    (w.after h rounds depth m).Faithful h ∧ P (w.after h rounds depth m).memory := by
  have hserve {r : Request D} (hr : r.IsLogged) :
      ((serve h rounds (depth + 1) r).outcome w).2.Faithful h ∧
        P ((serve h rounds (depth + 1) r).outcome w).2.memory := by
    have hv := serve_faithful hh rounds (depth + 1) hr hw.1 hw.2
    exact ⟨hv.1.1, hv.2⟩
  cases m with
  | operate r => exact hserve hm
  | fire t => exact hserve trivial
  | drift clock => exact hw

lemma replay_faithful (hh : h.Asks P Request.IsLogged) (rounds depth : Nat) {moves : List (Move D)}
    (hm : ∀ m ∈ moves, m.IsLogged) (hw : w.Faithful h ∧ P w.memory) :
    (w.replay h rounds depth moves).Faithful h ∧ P (w.replay h rounds depth moves).memory := by
  induction moves generalizing w with
  | nil => exact hw
  | cons m moves ih =>
    apply ih
    · intro m' hm'
      exact hm m' (List.mem_cons_of_mem _ hm')
    · exact after_faithful hh rounds depth (hm m List.mem_cons_self) hw

/-- Nothing has happened and nothing was told. -/
lemma Fresh.faithful {fit : D.Clock → Prop} (hw : Fresh fit P w) : w.Faithful h := by
  obtain ⟨run, settings, hmake⟩ := hw.engine
  have hlog : w.roster.log = [] := by simp [hw.deeds]
  have hroster : w.roster = { started := false, phase := .idle, live := [], made := 0, log := [] } := by
    ext1
    · simp [Engine.eq_of_make hmake]
    · simp [Engine.eq_of_make hmake]
    · simp [Engine.eq_of_make hmake]
    · simp [Engine.eq_of_make hmake]
    · exact hlog
  unfold Faithful
  rw [hroster]
  exact {
    reading := rfl
    linked := rfl
    numbered := ⟨0, by simp, .inl rfl, rfl⟩
    once := List.nodup_nil
    nodup := List.nodup_nil
    live_lt := nofun
    retired_lt := nofun
    apart := nofun
    started_iff := by simp
    unstarted := by simp }

end World

lemma Block.nesting_asks (s : Block.Scope) :
    (Block.host Block.nesting s).Asks Block.Memory.Calm Request.IsLogged where
  code := by
    refine Block.heeds_code (fun n hn self scope => ?_) s
    simp only [Block.nesting, List.mem_toArray, List.mem_singleton] at hn
    subst hn
    have hcall {r : Request Block.dialect} (hr : r.IsLogged) :
        (discard (Script.request r)).Asks Block.Memory.Calm Request.IsLogged :=
      (Script.Heeds.request hr).discard
    refine .bind (.look fun m hm => ?_) fun _ => .done ()
    rcases m.isBelow scope "k" 1 with f | _ | _
    · exact .fail trivial
    · exact .done ()
    · refine .bind (Block.Mild.heeds (fun m => Block.mild_countUp m scope "k") fun _ => trivial) fun _ => ?_
      exact .bind (hcall trivial) fun _ => .bind (hcall trivial) fun _ => .done ()
  breaks i := (Block.quiet_stops Block.nesting i).weaken (fun _ => False.elim) fun _ => False.elim
  farewell := Block.heeds_parting (fun _ hm => hm) trivial trivial trivial
  install := Block.install_calm

/-- Two blocks in a row: the first sends a strand to the second and strikes it off those in play. -/
def Block.culling : Block.Program where
  nodes := #[{
      id := "cull"
      name := .str "cull"
      actions := [.call (.spawn (some 1) .fresh), .call (.drop (-1))] },
    { id := "rest", name := .str "rest" }]
  links := #[some 1, none]
  entry := .program (some 0) []

def Block.cullingRun : Block.Run where
  program := Block.culling
  scope := []
  world := {
    engine := { breaking := false, rate := .zero, timeSlice := 1, historySize := 1024 }
    clock := { kind := .manual }
    memory := { links := Block.culling.links, firstLinks := Block.culling.links } }

lemma Block.cullingRun_prepared :
    Block.Run.prepare Block.culling {} .manual none none .zero = .ok Block.cullingRun := rfl

end Loom
