import Loom.Proofs.Agenda
import Loom.Proofs.OrderlyBlocks

/-! No wake-up is lost. With a scheduler that takes every step and a program whose faults can be worded, an
engine has a deferred step exactly while it runs; and on an agenda of its own that is the one call that
waits. -/
namespace Loom

lemma Scheduler.OnAgenda.defers {s : Scheduler κ} {agenda : κ → Agenda Ticket} {fit : κ → Prop}
    (hs : s.OnAgenda agenda fit) : s.Defers fit where
  later {c delay t a c'} hc ha := by
    obtain ⟨c'', harm, -⟩ := hs.arm delay t hc
    rw [harm] at ha
    cases ha
    rfl
  arm {c} delay t hc := by
    obtain ⟨c', harm, hfit, -⟩ := hs.arm delay t hc
    rw [harm]
    exact hfit
  cancel {c} n hc := (hs.cancel n hc).1

lemma Scheduler.OnAgenda.accepts {s : Scheduler κ} {agenda : κ → Agenda Ticket} {fit : κ → Prop}
    (hs : s.OnAgenda agenda fit) : s.Accepts fit := by
  intro c delay t hc
  obtain ⟨c', harm, -⟩ := hs.arm delay t hc
  rw [harm]
  rfl

/-- What the owner of a run and of its scheduler may ask for: operations, and to fire what waits. -/
def Request.IsDriving : Request D → Prop
  | runNext | runAll _ => True
  | r => r.IsOperation

namespace World

variable {D : Dialect} {h : Host D} {P : D.Memory → Prop} {w v : World D}

/-- The world after a sequence of requests. -/
def driven (h : Host D) (rounds depth : Nat) (w : World D) (requests : List (Request D)) : World D :=
  requests.foldl (fun w r => ((serve h rounds (depth + 2) r).outcome w).2) w

/-- With every step taken and every fault told, a deferred step there is exactly while the engine runs. -/
lemma running_iff_of_coherent {books : D.Clock → Option (Nat × Ticket) → Prop} {reliable told : Prop}
    (hr : reliable) (ht : told) (hw : w.control.Coherent books reliable told none) :
    w.engine.phase = .running ↔ w.engine.pending.isSome := by
  constructor
  · intro hp
    exact (hw.prompt hr ht hp).resolve_right nofun
  · intro hp
    exact (hw.armed hp).1

section

variable {agenda : D.Clock → Agenda Ticket} {fit : D.Clock → Prop}

/-- What holds between any two requests on an agenda. -/
structure Attended (h : Host D) (agenda : D.Clock → Agenda Ticket) (fit : D.Clock → Prop)
    (P : D.Memory → Prop) (w : World D) : Prop where
  coherent : w.control.Coherent (Scheduler.Books agenda fit) True (h.Tells P) none
  memory : P w.memory

variable (hs : h.scheduler.OnAgenda agenda fit) (hh : h.Tame P) (rounds depth : Nat)

include hs hh

/-- Firing what waits is one step. -/
lemma runNext_attended (hw : Attended h agenda fit P w) :
    (runNext h.scheduler fun t => discard (serve h rounds (depth + 1) (.fire t))).Ensures w
      fun _ v => Attended h agenda fit P v := by
  have hbooks := hw.coherent.books
  simp only [control_clock, control_pending] at hbooks
  unfold Act.Ensures
  rw [runNext_outcome]
  rcases hp : w.engine.pending with _ | n <;> rw [hp] at hbooks
  · rw [hs.next_none hbooks]
    exact hw
  · obtain ⟨clock, hnext, hclock, -⟩ := hs.next_some hbooks
    have hrun : w.engine.phase = .running := (hw.coherent.armed (by simp [hp])).1
    have hfire := fire_current hs.keeps hh rounds depth hw.coherent hw.memory hrun hclock
    rw [hnext]
    simp only [Prod.map_snd, Act.outcome_discard, id]
    exact ⟨hfire.coherent.settle hfire.overtaken, hfire.memory⟩

/-- Whatever the owner asks for. -/
theorem driven_attended (hw : Attended h agenda fit P w) {requests : List (Request D)}
    (hr : ∀ r ∈ requests, r.IsDriving) : Attended h agenda fit P (w.driven h rounds depth requests) := by
  induction requests generalizing w with
  | nil => exact hw
  | cons r requests ih =>
    refine ih ?_ fun r hr' => hr r (List.mem_cons_of_mem _ hr')
    have hnext {w : World D} (hw : Attended h agenda fit P w) := runNext_attended hs hh rounds depth hw
    have hop (hr : r.IsOperation) : Attended h agenda fit P
        ((serve h rounds (depth + 2) r).outcome w).2 := by
      have hstep := operation_stepped hs.keeps hh rounds (depth + 2) hw.coherent hw.memory hr
      exact ⟨hstep.coherent, hstep.memory⟩
    have hr := hr r List.mem_cons_self
    cases r with
    | runNext =>
      change (serve h rounds (depth + 2) .runNext).Ensures w fun _ v => Attended h agenda fit P v
      exact (hnext hw).reply
    | runAll limit =>
      change (serve h rounds (depth + 2) (.runAll limit)).Ensures w fun _ v => Attended h agenda fit P v
      exact (Act.repeatWhile_ensures (fun _ hw => hnext hw) limit rounds 0 hw).reply
    | _ => exact hop hr

end

/-- With a scheduler that takes every step and a program whose faults can be worded, an engine that runs has a
deferred step and one that does not run has none, whatever was asked, fired or raised before. On an agenda of
its own that step is all that waits. -/
theorem running_iff_step_pending {fit : D.Clock → Prop} (hs : h.scheduler.Defers fit)
    (ha : h.scheduler.Accepts fit) (hh : h.Tame P) (ht : h.Tells P) (hw : Fresh fit P w) (rounds depth : Nat) :
    (∀ moves, Plays h rounds depth fit w moves →
      ((w.replay h rounds depth moves).engine.phase = .running ↔
        (w.replay h rounds depth moves).engine.pending.isSome)) ∧
    ∀ agenda : D.Clock → Agenda Ticket, h.scheduler.OnAgenda agenda fit →
      (agenda w.clock).Holds none → ∀ requests : List (Request D), (∀ r ∈ requests, r.IsDriving) →
        let v := w.driven h rounds depth requests
        (v.engine.phase = .running ↔ v.engine.pending.isSome) ∧
          (agenda v.clock).pending = if v.engine.phase = .running then 1 else 0 := by
  constructor
  · intro moves hm
    exact running_iff_of_coherent ha ht (replay_steady hs hh rounds depth hw.steady hm).1.coherent
  · intro agenda hagenda hempty requests hr v
    have hstart : Attended h agenda fit P w := ⟨hw.coherent ⟨hw.clock, hempty⟩, hw.memory⟩
    have hv : Attended h agenda fit P v := driven_attended hagenda hh rounds depth hstart hr
    have hiff := running_iff_of_coherent trivial ht hv.coherent
    refine ⟨hiff, ?_⟩
    have hpending : (agenda v.clock).pending = _ := hv.coherent.books.2.pending
    rw [hpending]
    rcases hp : v.engine.pending with _ | n
    · have hstill : v.engine.phase ≠ .running := fun hrun => absurd (hiff.1 hrun) (by simp [hp])
      simp [hp, hstill]
    · have hrun : v.engine.phase = .running := hiff.2 (by simp [hp])
      simp [hp, hrun]

/-- The same block on an agenda of its own, and with the ticket fired by hand. -/
theorem restless_step_pending :
    let r := Block.restlessRun .manual
    let fit : Clockwork → Prop := fun c => c.refusal = none ∧ c.keeps = false
    let moves : List (Move Block.dialect) := [.operate (.start none), .fire ⟨0, 1⟩, .operate .pause]
    let requests : List (Request Block.dialect) := [.start none, .runNext, .runAll none]
    Plays r.host 5 5 fit r.world moves ∧
      ((r.world.replay r.host 5 5 moves).engine.phase = .running ↔
        (r.world.replay r.host 5 5 moves).engine.pending.isSome) ∧
      (∀ r ∈ requests, r.IsDriving) ∧
      ((r.world.driven r.host 5 5 requests).engine.phase = .running ↔
        (r.world.driven r.host 5 5 requests).engine.pending.isSome) ∧
      (r.world.driven r.host 5 5 requests).clock.agenda.pending =
        if (r.world.driven r.host 5 5 requests).engine.phase = .running then 1 else 0 := by
  intro r fit moves requests
  have hplays : Plays r.host 5 5 fit r.world moves :=
    ⟨trivial, admits_fire (by decide +kernel), trivial, trivial⟩
  have hdriving : ∀ r ∈ requests, r.IsDriving := by
    intro r hr
    simp only [requests, List.mem_cons, List.not_mem_nil, or_false] at hr
    rcases hr with rfl | rfl | rfl <;> trivial
  have hfresh : Fresh fit Block.Memory.Calm r.world := Block.restlessRun_fresh .manual ⟨rfl, rfl⟩
  obtain ⟨hmoves, hagenda⟩ := running_iff_step_pending (h := r.host)
    Scheduler.clockwork_onAgenda.defers Scheduler.clockwork_onAgenda.accepts
    (Block.host_tame (Block.restless_orderly Fault.IsPlain.ordinary) r.scope)
    (Block.host_tells (Block.restless_orderly Fault.IsPlain.told) r.scope) hfresh 5 5
  exact ⟨hplays, hmoves moves hplays, hdriving,
    hagenda _ Scheduler.clockwork_onAgenda Agenda.holds_empty requests hdriving⟩

/-- Two faults after which an engine runs with nothing deferred: one that cannot be worded, so that the cleaning
up after it ends before the run is paused, and one of an instruction in whose middle another step was fired, so
that there is no strand left to be taken out of play. -/
theorem fault_can_lose_wake_up :
    (let r := Block.speechlessRun
      let fit : Clockwork → Prop := fun c => c.refusal = none ∧ c.keeps = false
      let moves : List (Move Block.dialect) := [.operate (.start none), .fire ⟨0, 1⟩]
      Block.Run.prepare Block.speechless {} .manual none none .zero = .ok r ∧
        r.host.scheduler.Defers fit ∧ r.host.scheduler.Accepts fit ∧ r.host.Tame Block.Memory.Calm ∧
        Fresh fit Block.Memory.Calm r.world ∧ Plays r.host 1 5 fit r.world moves ∧
        ¬ ((r.world.replay r.host 1 5 moves).engine.phase = .running ↔
          (r.world.replay r.host 1 5 moves).engine.pending.isSome)) ∧
    (let r := Block.overlappingRun
      let v := r.world.driven r.host 1 5 [.start none, .spawn (some 0) .fresh, .runNext]
      Block.Run.prepare Block.overlapping {} .manual none none .zero = .ok r ∧
        ¬ (v.engine.phase = .running ↔ v.engine.pending.isSome) ∧
        v.clock.agenda.pending ≠ if v.engine.phase = .running then 1 else 0) := by
  refine ⟨⟨Block.speechlessRun_prepared, Scheduler.clockwork_onAgenda.defers,
    Scheduler.clockwork_onAgenda.accepts, Block.host_tame Block.speechless_orderly _,
    Block.Run.prepare_fresh Block.speechlessRun_prepared nofun ⟨rfl, rfl⟩,
    ⟨trivial, admits_fire (by decide +kernel), trivial⟩, by decide +kernel⟩,
    Block.overlappingRun_prepared, by decide +kernel, by decide +kernel⟩

end World
end Loom
