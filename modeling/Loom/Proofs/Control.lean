import Loom.Proofs.Outcome

/-! Which deferred step an engine is waiting for. The control of a world is the part of it that decides
this: the token and the handle, the phase, the tickets ever put to the scheduler and the scheduler's own
state. A control is coherent when at most one ticket counts, the one taken last, and exactly while a
step is pending. Inside a step the ticket that was fired has lapsed without being replaced yet; every
way out of the step replaces it. -/
namespace Loom

/-- A scheduler never fires a step while taking it, and its books tell what is deferred with it: nothing,
or one step by its handle and ticket. A reliable one takes every step. -/
structure Scheduler.Keeps (s : Scheduler κ) (books : κ → Option (Nat × Ticket) → Prop)
    (reliable : Prop) : Prop where
  taken : ∀ {c delay t a c'}, books c none → s.arm c delay t = (.ok a, c') →
    a.immediate = false ∧ books c' (some (a.handle, t))
  refused : ∀ {c delay t f c'}, books c none → s.arm c delay t = (.error f, c') →
    books c' none ∧ ¬ reliable
  cancelled : ∀ {c n t}, books c (some (n, t)) → books (s.cancel c n) none

/-- The part of a world that decides which deferred step counts. -/
@[ext] structure Control (κ : Type) where
  run : Nat
  token : Nat
  pending : Option Nat
  phase : Phase
  started : Bool
  tickets : List (Ticket × Bool)
  clock : κ

namespace Control

variable {κ : Type}

def ticket (c : Control κ) : Ticket := ⟨c.run, c.token⟩

@[simps] def inPhase (c : Control κ) (phase : Phase) : Control κ := { c with phase }

/-- A control that is set going. -/
@[simps] def going (c : Control κ) : Control κ := { c with phase := .running, started := true }

/-- A control whose ticket has been fired. -/
@[simps] def fired (c : Control κ) (clock : κ) : Control κ := { c with pending := none, clock }

@[simps] def disarmed (c : Control κ) (s : Scheduler κ) : Control κ :=
  { c with
    token := c.token + 1
    pending := none
    clock := s.recall c.clock c.pending }

@[simps] def armed (c : Control κ) (s : Scheduler κ) (handle : Nat) (clock : κ) : Control κ :=
  { c.disarmed s with
    pending := some handle, clock, tickets := c.tickets ++ [((c.disarmed s).ticket, true)] }

@[simps] def refused (c : Control κ) (s : Scheduler κ) (clock : κ) : Control κ :=
  { c.disarmed s with clock, tickets := c.tickets ++ [((c.disarmed s).ticket, false)] }

/-- The token has moved on since a ticket lapsed. -/
def Overtaken (lapsed : Option Nat) (token : Nat) : Prop := ∀ t, lapsed = some t → t < token

lemma Overtaken.mono {lapsed : Option Nat} {n m : Nat} (h : Overtaken lapsed n) (hle : n ≤ m) :
    Overtaken lapsed m := fun t ht => Nat.lt_of_lt_of_le (h t ht) hle

/-- At most one ticket counts, the one taken last, and exactly while a step is pending. Only a ticket
that has lapsed in the step under way is without a successor; and where every fault is `told`, an engine that
runs with nothing deferred asked for a step last, and was refused. -/
structure Coherent (books : κ → Option (Nat × Ticket) → Prop) (reliable told : Prop)
    (lapsed : Option Nat) (c : Control κ) : Prop where
  books : books c.clock (c.pending.map (·, c.ticket))
  own : ∀ x ∈ c.tickets, x.1.run = c.run ∧ x.1.token ≤ c.token
  sorted : c.tickets.Pairwise fun x y => x.1.token < y.1.token
  armed : c.pending.isSome → c.phase = .running ∧ (c.ticket, true) ∈ c.tickets
  unarmed : (c.ticket, true) ∈ c.tickets → c.pending.isSome ∨ lapsed = some c.token
  started_iff : c.started = true ↔ c.phase ≠ .idle
  granted : reliable → ∀ x ∈ c.tickets, x.2 = true
  answered : told → c.phase = .running →
    c.pending.isSome ∨ lapsed = some c.token ∨ (c.ticket, false) ∈ c.tickets
  past : ∀ t, lapsed = some t → t ≤ c.token ∧ (t = c.token → c.phase = .running)

namespace Coherent

variable {books : κ → Option (Nat × Ticket) → Prop} {reliable told : Prop} {lapsed : Option Nat}
  {c : Control κ} {s : Scheduler κ}

/-- The next ticket is new. -/
lemma next_not_mem (hc : Coherent books reliable told lapsed c) (b : Bool) :
    ((⟨c.run, c.token + 1⟩ : Ticket), b) ∉ c.tickets := by
  intro h
  have hle : c.token + 1 ≤ c.token := (hc.own _ h).2
  omega

lemma own_next (hc : Coherent books reliable told lapsed c) (b : Bool) :
    ∀ x ∈ c.tickets ++ [((c.disarmed s).ticket, b)], x.1.run = c.run ∧ x.1.token ≤ c.token + 1 := by
  intro x hx
  rcases List.mem_append.1 hx with hx | hx
  · exact ⟨(hc.own x hx).1, Nat.le_succ_of_le (hc.own x hx).2⟩
  · rw [List.mem_singleton.1 hx]
    exact ⟨rfl, Nat.le_refl _⟩

lemma sorted_next (hc : Coherent books reliable told lapsed c) (b : Bool) :
    (c.tickets ++ [((c.disarmed s).ticket, b)]).Pairwise fun x y => x.1.token < y.1.token := by
  refine List.pairwise_append.2 ⟨hc.sorted, by simp, ?_⟩
  intro x hx y hy
  rw [List.mem_singleton.1 hy]
  exact Nat.lt_succ_of_le (hc.own x hx).2

lemma past_next (hc : Coherent books reliable told lapsed c) (t : Nat) (ht : lapsed = some t)
    (p : Prop) : t ≤ c.token + 1 ∧ (t = c.token + 1 → p) := by
  have hle := (hc.past t ht).1
  exact ⟨by omega, fun h => by omega⟩

/-- The books are clean once the deferred step is called off. -/
lemma books_disarmed (hc : Coherent books reliable told lapsed c) (hs : s.Keeps books reliable) :
    books (c.disarmed s).clock none := by
  have hb := hc.books
  rw [disarmed_clock]
  rcases hp : c.pending with _ | handle <;> rw [hp] at hb
  · exact hb
  · exact hs.cancelled hb

/-- With a scheduler that takes every step, an engine that runs has a step deferred, unless a ticket has lapsed in
the step under way or a fault was left untold. -/
lemma prompt (hc : Coherent books reliable told lapsed c) (hr : reliable) (ht : told)
    (hp : c.phase = .running) : c.pending.isSome ∨ lapsed = some c.token := by
  rcases hc.answered ht hp with hsome | hlapsed | hrefused
  · exact .inl hsome
  · exact .inr hlapsed
  · exact absurd (hc.granted hr _ hrefused) (by simp)

/-- Calling off the deferred step on the way to a phase other than running; to no other phase where a fault is
left untold. -/
theorem disarm (hc : Coherent books reliable told lapsed c) (hs : s.Keeps books reliable) (phase : Phase)
    (hr : told → phase ≠ .running) (hi : phase = .idle ↔ c.phase = .idle) :
    Coherent books reliable told lapsed ((c.disarmed s).inPhase phase) where
  books := hc.books_disarmed hs
  own x hx := ⟨(hc.own x hx).1, Nat.le_succ_of_le (hc.own x hx).2⟩
  sorted := hc.sorted
  armed h := by simp at h
  unarmed h := absurd h (hc.next_not_mem true)
  started_iff := by
    have := hc.started_iff
    simp_all
  granted := hc.granted
  answered ht h := absurd h (hr ht)
  past t ht := hc.past_next t ht _

/-- A refused step leaves the phase as it is and nothing deferred. -/
theorem refuse (hc : Coherent books reliable told lapsed c) (hs : s.Keeps books reliable) {delay : Binary64}
    {f : Fault} {k : κ}
    (ha : s.arm (c.disarmed s).clock delay (c.disarmed s).ticket = (.error f, k)) :
    Coherent books reliable told lapsed (c.refused s k) where
  books := (hs.refused (hc.books_disarmed hs) ha).1
  own := hc.own_next _
  sorted := hc.sorted_next _
  armed h := by simp at h
  unarmed h := by
    rcases List.mem_append.1 h with h | h
    · exact absurd h (hc.next_not_mem true)
    · simp at h
  started_iff := hc.started_iff
  granted h := absurd h (hs.refused (hc.books_disarmed hs) ha).2
  answered _ _ := .inr (.inr (List.mem_append_right _ (by simp [ticket])))
  past t ht := hc.past_next t ht _

/-- A step that was taken replaces whatever was deferred before; from then on the engine runs. -/
theorem arm (hc : Coherent books reliable told lapsed c) (hs : s.Keeps books reliable) {delay : Binary64}
    {a : Arming} {k : κ}
    (ha : s.arm (c.disarmed s).clock delay (c.disarmed s).ticket = (.ok a, k)) :
    Coherent books reliable told lapsed (c.armed s a.handle k).going where
  books := (hs.taken (hc.books_disarmed hs) ha).2
  own := hc.own_next _
  sorted := hc.sorted_next _
  armed _ := ⟨rfl, List.mem_append_right _ (by simp [ticket])⟩
  unarmed _ := .inl rfl
  started_iff := by simp
  granted hr := List.forall_mem_append.2 ⟨hc.granted hr, by simp⟩
  answered _ _ := .inl rfl
  past t ht := hc.past_next t ht _

/-- Firing the ticket that counts lets it lapse. -/
theorem lapse (hc : Coherent books reliable told none c) (hp : c.phase = .running) {k : κ}
    (hk : books k none) : Coherent books reliable told (some c.token) (c.fired k) where
  books := hk
  own := hc.own
  sorted := hc.sorted
  armed h := by simp at h
  unarmed _ := .inr rfl
  started_iff := hc.started_iff
  granted := hc.granted
  answered _ _ := .inr (.inl rfl)
  past t ht := by
    cases ht
    exact ⟨Nat.le_refl _, fun _ => hp⟩

/-- Once the token has moved on, a lapsed ticket no longer matters. -/
theorem settle (hc : Coherent books reliable told lapsed c) (ht : Overtaken lapsed c.token) :
    Coherent books reliable told none c where
  books := hc.books
  own := hc.own
  sorted := hc.sorted
  armed := hc.armed
  unarmed h := (hc.unarmed h).imp_right fun h => absurd (ht _ h) (Nat.lt_irrefl _)
  started_iff := hc.started_iff
  granted := hc.granted
  answered htold h := by
    rcases hc.answered htold h with hp | hl | hr
    · exact .inl hp
    · exact absurd (ht _ hl) (Nat.lt_irrefl _)
    · exact .inr (.inr hr)
  past := by simp

lemma overtaken_next (hc : Coherent books reliable told lapsed c) : Overtaken lapsed (c.token + 1) := by
  intro t ht
  have hle := (hc.past t ht).1
  omega

/-- The token has moved on as soon as the engine no longer runs. -/
lemma overtaken_of_phase (hc : Coherent books reliable told lapsed c) (hp : c.phase ≠ .running) :
    Overtaken lapsed c.token := by
  intro t ht
  obtain ⟨hle, heq⟩ := hc.past t ht
  have hne : t ≠ c.token := fun h => hp (heq h)
  omega

end Coherent

end Control
end Loom
