import Loom.Proofs.OrderlyBlocks

/-! At most one deferred step counts. -/
namespace Loom.World

variable {D : Dialect} {h : Host D} {fit : D.Clock → Prop} {P : D.Memory → Prop} {w : World D}

/-- Against a scheduler that fires any ticket it has ever seen, whenever and as often as it likes: at most
one ticket can still do more than leave a note, it is the one put to the scheduler last, and a step is pending
exactly if that one was taken; of those taken it is the last, and there is one exactly while a step is pending;
one ticket begins at most one instruction in its whole life; and a firing begins an instruction only if the
ticket is current and the engine runs, while a stale one leaves a note and nothing else. -/
theorem at_most_one_ticket_counts (hs : h.scheduler.Defers fit) (hh : h.Tame P) (hw : Fresh fit P w)
    (rounds depth : Nat) (moves : List (Move D)) (hm : Plays h rounds depth fit w moves) :
    let v := w.replay h rounds depth moves
    (∀ t ∈ v.tickets.map (·.1), ∀ t' ∈ v.tickets.map (·.1), CanMatter h rounds depth fit v t →
      CanMatter h rounds depth fit v t' → t = t') ∧
    (∀ t ∈ v.tickets.map (·.1), CanMatter h rounds depth fit v t →
      v.tickets.getLast? = some (t, v.engine.pending.isSome)) ∧
    (∀ t ∈ v.taken, CanMatter h rounds depth fit v t ↔
      v.engine.pending.isSome ∧ v.taken.getLast? = some t) ∧
    (v.engine.pending.isSome ↔ ∃ t ∈ v.taken, CanMatter h rounds depth fit v t) ∧
    (∀ t, beginsBy h rounds depth t w moves ≤ 1) ∧
    ∀ t ∈ v.tickets.map (·.1),
      (t ≠ v.ticket → v.after h rounds depth (.fire t) =
        v.noted .debug .process "stale step callback ignored") ∧
      (t = v.ticket → v.engine.phase ≠ .running → v.after h rounds depth (.fire t) = v) ∧
      (t = v.ticket → v.engine.phase = .running → ∃ begun,
        (v.after h rounds depth (.fire t)).attempts = v.attempts ++ begun ∧ begun.length ≤ 1) := by
  intro v
  have hv : Steady h fit P v := (replay_steady hs hh rounds depth hw.steady hm).1
  have hreceived {t : Ticket} (ht : t ∈ v.taken) : t ∈ v.tickets.map (·.1) :=
    List.mem_map.2 ⟨(t, true), mem_taken.1 ht, rfl⟩
  have hcurrent {t : Ticket} (ht : t ∈ v.tickets.map (·.1)) (hc : CanMatter h rounds depth fit v t) :
      t = v.ticket := eq_ticket_of_canMatter hs hh rounds depth hv ht hc
  have harmed (hp : v.engine.pending.isSome) :
      v.ticket ∈ v.taken ∧ CanMatter h rounds depth fit v v.ticket := by
    obtain ⟨hrun, hmem⟩ := hv.coherent.armed hp
    exact ⟨mem_taken.2 hmem, canMatter_ticket hs hh rounds depth hv hrun⟩
  have hpending {t : Ticket} (ht : t ∈ v.taken) (hc : CanMatter h rounds depth fit v t) :
      v.engine.pending.isSome := by
    have hmem : (v.ticket, true) ∈ v.tickets := mem_taken.1 (hcurrent (hreceived ht) hc ▸ ht)
    exact (hv.coherent.unarmed hmem).resolve_right nofun
  refine ⟨?_, ?_, ?_, ?_, ?_, ?_⟩
  · intro t ht t' ht' hc hc'
    rw [hcurrent ht hc, hcurrent ht' hc']
  · intro t ht hc
    obtain ⟨⟨_, b⟩, hmem, rfl⟩ := List.mem_map.1 ht
    obtain rfl := hcurrent ht hc
    have hlast := hv.getLast?_ticket hmem
    cases b with
    | true =>
      have hsome : v.engine.pending.isSome = true := (hv.coherent.unarmed hmem).resolve_right nofun
      rw [hlast, hsome]
    | false =>
      rcases hp : v.engine.pending with _ | handle
      · exact hlast
      · have hmatch := hv.getLast?_ticket (hv.coherent.armed (Option.isSome_iff_exists.2 ⟨handle, hp⟩)).2
        rw [hlast] at hmatch
        cases hmatch
  · intro t ht
    constructor
    · intro hc
      have heq := hcurrent (hreceived ht) hc
      exact ⟨hpending ht hc, heq ▸ taken_getLast? hv (heq ▸ ht)⟩
    · rintro ⟨hp, hlast⟩
      obtain ⟨hmem, hc⟩ := harmed hp
      rw [taken_getLast? hv hmem] at hlast
      exact Option.some.inj hlast ▸ hc
  · constructor
    · intro hp
      exact ⟨v.ticket, harmed hp⟩
    · rintro ⟨t, ht, hc⟩
      exact hpending ht hc
  · intro t
    exact beginsBy_le_one hs hh rounds depth hw.steady t hm
  · intro t ht
    refine ⟨after_stale rounds depth, ?_, ?_⟩
    · rintro rfl hp
      exact after_idle rounds depth hv hp
    · rintro rfl hp
      exact (fire_overtakes hs hh rounds depth hv hp).attempts

/-- A ticket fired twice, of a block that pauses and resumes its own run. -/
theorem restless_ticket_counts :
    let r := Block.restlessRun .keeping
    let fit : Clockwork → Prop := fun c => c.kind ≠ .eager
    let moves : List (Move Block.dialect) :=
      [.operate (.start none), .fire ⟨0, 1⟩, .fire ⟨0, 1⟩, .operate .resume]
    Plays r.host 1 5 fit r.world moves ∧ (r.world.replay r.host 1 5 moves).engine.pending.isSome ∧
      (∃ t ∈ (r.world.replay r.host 1 5 moves).taken,
        CanMatter r.host 1 5 fit (r.world.replay r.host 1 5 moves) t) ∧
      ∀ t, beginsBy r.host 1 5 t r.world moves ≤ 1 := by
  intro r fit moves
  have hplays : Plays r.host 1 5 fit r.world moves :=
    ⟨trivial, admits_fire (by decide +kernel), admits_fire (by decide +kernel), trivial, trivial⟩
  have hpending : (r.world.replay r.host 1 5 moves).engine.pending.isSome := by decide +kernel
  have hfresh : Fresh fit Block.Memory.Calm r.world := Block.restlessRun_fresh .keeping nofun
  obtain ⟨-, -, -, hexists, hlife, -⟩ := at_most_one_ticket_counts (h := r.host) Block.clockwork_defers
    (Block.host_tame (Block.restless_orderly Fault.IsPlain.ordinary) r.scope) hfresh 1 5 moves hplays
  exact ⟨hplays, hpending, hexists.1 hpending, hlife⟩

/-- A scheduler that refuses a step and fires it all the same executes an instruction while nothing is pending;
and a ticket that was called off still has an effect, the note that it leaves. -/
theorem refused_ticket_can_count :
    (let r := Block.restlessRun .refusing
      let fit : Clockwork → Prop := fun c => c.kind ≠ .eager
      let moves : List (Move Block.dialect) :=
        [.operate (.start none), .drift { kind := .refusing, refusing := true }, .operate .resume]
      let v := r.world.replay r.host 1 5 moves
      Plays r.host 1 5 fit r.world moves ∧ v.engine.pending = none ∧ v.taken.getLast? = some ⟨0, 1⟩ ∧
        ⟨0, 2⟩ ∈ v.tickets.map (·.1) ∧ CanMatter r.host 1 5 fit v ⟨0, 2⟩ ∧
        (v.after r.host 1 5 (.fire ⟨0, 2⟩)).attempts = v.attempts ++ [(0, 0)]) ∧
    (let r := Block.restlessRun .keeping
      let v := r.world.replay r.host 1 5 [.operate (.start none), .operate .pause]
      v.engine.pending = none ∧
        (v.after r.host 1 5 (.fire ⟨0, 1⟩)).journal.size = v.journal.size + 1) := by
  refine ⟨?_, by decide +kernel⟩
  intro r fit moves v
  have hplays : Plays r.host 1 5 fit r.world moves := ⟨trivial, nofun, trivial, trivial⟩
  have hbegun : (v.after r.host 1 5 (.fire ⟨0, 2⟩)).attempts = v.attempts ++ [(0, 0)] := by decide +kernel
  refine ⟨hplays, by decide +kernel, by decide +kernel, by decide +kernel, canMatter_of_attempts 1 5 ?_, hbegun⟩
  rw [hbegun]
  simp

end Loom.World
