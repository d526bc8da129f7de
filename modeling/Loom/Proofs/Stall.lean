import Loom.Proofs.Integrity

/-! When an engine stalls: it runs, and no step is deferred that could take it further. With a test for a stop
that returns, nothing an instruction does or raises brings this about as long as its faults can be worded; it
takes a scheduler that refuses, and then the step it refused last is the one the engine is waiting for. -/
namespace Loom

namespace Block

/-- The restless blocks under a test for a stop that fails. -/
def doubtfulRun : Run where
  program := restless
  scope := []
  world := {
    engine := { breaking := true, rate := .zero, timeSlice := 1, historySize := 1024 }
    clock := { kind := .manual }
    memory := {
      links := restless.links
      firstLinks := restless.links
      predicate := some (.raise (.raised .value "boom")) } }

end Block

namespace World

variable {D : Dialect} {h : Host D} {fit : D.Clock → Prop} {P : D.Memory → Prop} {w : World D}

/-- Running, with nothing deferred. -/
def Stalled (w : World D) : Prop := w.engine.phase = .running ∧ w.engine.pending = none

/-- The last step put to the scheduler carries the current ticket, and was refused. -/
def Rebuffed (w : World D) : Prop := w.tickets.getLast? = some (w.ticket, false)

instance (w : World D) : Decidable w.Stalled := inferInstanceAs (Decidable (_ ∧ _))

instance (w : World D) : Decidable w.Rebuffed := inferInstanceAs (Decidable (_ = _))

lemma stalled_iff (ht : h.Tells P) (hw : Steady h fit P w) : w.Stalled ↔ w.engine.phase = .running ∧ w.Rebuffed := by
  constructor
  · rintro ⟨hp, hpending⟩
    refine ⟨hp, ?_⟩
    rcases hw.coherent.answered ht hp with hsome | hlapsed | hrefused
    · simp [hpending] at hsome
    · cases hlapsed
    · exact hw.getLast?_ticket hrefused
  · rintro ⟨hp, hrefused⟩
    refine ⟨hp, ?_⟩
    by_contra hpending
    -- A step that is deferred was taken, so the last ticket would be both taken and refused.
    have hsome : w.engine.pending.isSome := Option.isSome_iff_ne_none.2 hpending
    have htaken := hw.getLast?_ticket (hw.coherent.armed hsome).2
    rw [hrefused] at htaken
    cases htaken

/-- A step that the scheduler takes wakes a stalled engine. -/
lemma resume_wakes (hs : h.scheduler.Defers fit) (rounds depth : Nat) (hw : Steady h fit P w)
    (hstall : w.Stalled)
    (ha : (h.scheduler.arm w.clock .zero ⟨w.engine.run, w.engine.token + 1⟩).1.isOk = true) :
    (w.after h rounds depth (.operate .resume)).engine.phase = .running ∧
      (w.after h rounds depth (.operate .resume)).engine.pending.isSome := by
  obtain ⟨hp, hpending⟩ := hstall
  have hstarted : w.engine.started = true := hw.coherent.started_iff.2 (by simp [hp])
  have hlive : w.engine.refusal "resume" = none := by simp [Engine.refusal, hstarted, hp]
  have hclock : (w.disarmed h.scheduler).clock = w.clock := by simp [hpending, Scheduler.recall]
  have hticket : (w.disarmed h.scheduler).ticket = ⟨w.engine.run, w.engine.token + 1⟩ := rfl
  have hresume := resume_outcome h w (fun t => discard (serve h rounds depth (.fire t)))
    (postpones_of_keeps hs.keeps hw.coherent _)
  unfold deferred at hresume
  rw [hclock, hticket, hlive] at hresume
  rcases harm : h.scheduler.arm w.clock .zero ⟨w.engine.run, w.engine.token + 1⟩ with ⟨f | a, clock⟩
  · simp [harm, Except.isOk, Except.toBool] at ha
  · simp only [harm, hp, reduceCtorEq, if_false, armed_engine, Engine.waiting_phase,
      Engine.disarmed_phase] at hresume
    unfold after serve perform
    simp only [Act.outcome_bind, hresume]
    exact ⟨hp, rfl⟩

/-- An engine whose test for a stop returns, and whose program's faults can be worded, stalls only when its
scheduler refuses: whatever was asked, fired or raised before, it runs with nothing deferred exactly when the
last step put to the scheduler was refused and none was asked for since. From there it is woken by the first
`resume` whose step is taken. -/
theorem stalls_only_when_refused (hs : h.scheduler.Defers fit) (hh : h.Tame P) (ht : h.Tells P) (hw : Fresh fit P w)
    (rounds depth : Nat) (moves : List (Move D)) (hm : Plays h rounds depth fit w moves) :
    let v := w.replay h rounds depth moves
    (v.Stalled ↔ v.engine.phase = .running ∧ v.Rebuffed) ∧
    (∀ m f, v.Admits fit m → v.verdict h rounds depth m = some f →
      (v.after h rounds depth m).engine.phase ≠ .running ∨
        (v.after h rounds depth m).engine.pending.isSome ∨ (v.after h rounds depth m).Rebuffed) ∧
    (v.Stalled → (h.scheduler.arm v.clock .zero ⟨v.engine.run, v.engine.token + 1⟩).1.isOk = true →
      (v.after h rounds depth (.operate .resume)).engine.phase = .running ∧
        (v.after h rounds depth (.operate .resume)).engine.pending.isSome) := by
  intro v
  have hv : Steady h fit P v := (replay_steady hs hh rounds depth hw.steady hm).1
  refine ⟨stalled_iff ht hv, ?_, resume_wakes hs rounds depth hv⟩
  intro m f hadmits _
  have hnext := stalled_iff ht (after_steady hs hh rounds depth hv hadmits)
  by_cases hp : (v.after h rounds depth m).engine.phase = .running
  · rcases hpending : (v.after h rounds depth m).engine.pending with _ | handle
    · exact .inr (.inr (hnext.1 ⟨hp, hpending⟩).2)
    · exact .inr (.inl rfl)
  · exact .inl hp

/-- A run that is stalled by a refused `resume`, with a scheduler that takes steps again. -/
theorem restless_stalls_and_wakes :
    let r := Block.restlessRun .refusing
    let fit : Clockwork → Prop := fun c => c.kind ≠ .eager
    let moves : List (Move Block.dialect) := [.operate (.start none),
      .drift { kind := .refusing, refusing := true }, .operate .resume, .drift { kind := .refusing }]
    Plays r.host 1 5 fit r.world moves ∧ (r.world.replay r.host 1 5 moves).Stalled ∧
      (r.world.replay r.host 1 5 moves).Rebuffed ∧
      ((r.world.replay r.host 1 5 moves).after r.host 1 5 (.operate .resume)).engine.pending.isSome := by
  intro r fit moves
  have hplays : Plays r.host 1 5 fit r.world moves := ⟨trivial, nofun, trivial, nofun, trivial⟩
  have hstalled : (r.world.replay r.host 1 5 moves).Stalled := by decide +kernel
  have hfresh : Fresh fit Block.Memory.Calm r.world := Block.restlessRun_fresh .refusing nofun
  obtain ⟨hiff, -, hwakes⟩ := stalls_only_when_refused (h := r.host) Block.clockwork_defers
    (Block.host_tame (Block.restless_orderly Fault.IsPlain.ordinary) r.scope)
    (Block.host_tells (Block.restless_orderly Fault.IsPlain.told) r.scope) hfresh 1 5 moves hplays
  exact ⟨hplays, hstalled, (hiff.1 hstalled).2, (hwakes hstalled (by decide +kernel)).2⟩

/-- Three faults that leave an engine stalled: that of a test for a stop, a scheduler's refusal to replace the
step that waits, and that of an instruction when it cannot be worded. -/
theorem faults_can_stall :
    (let r := Block.doubtfulRun
      let v := r.world.replay r.host 1 5 [.operate (.start none)]
      Block.Run.prepare Block.restless { breakpoints := .bool true } .manual none
          (some (.raise (.raised .value "boom"))) .zero = .ok r ∧
        (v.verdict r.host 1 5 (.fire ⟨0, 1⟩)).map (·.message.toOption) = some (some "boom") ∧
        (v.after r.host 1 5 (.fire ⟨0, 1⟩)).Stalled) ∧
    (let r := Block.restlessRun .refusing
      let v := r.world.driven r.host 1 4 [.start none, .refuse true]
      v.engine.pending.isSome ∧
        (v.verdict r.host 1 5 (.operate .resume)).map (·.message.toOption) = some (some "scheduler unavailable") ∧
        (v.after r.host 1 5 (.operate .resume)).Stalled) ∧
    (let r := Block.speechlessRun
      let v := r.world.replay r.host 1 5 [.operate (.start none)]
      Block.Run.prepare Block.speechless {} .manual none none .zero = .ok r ∧
        (v.verdict r.host 1 5 (.fire ⟨0, 1⟩)).map (·.kind) = some .value ∧
        (v.after r.host 1 5 (.fire ⟨0, 1⟩)).Stalled) :=
  ⟨⟨rfl, by decide +kernel⟩, by decide +kernel, Block.speechlessRun_prepared, by decide +kernel⟩

end World
end Loom
