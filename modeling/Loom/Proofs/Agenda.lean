import Mathlib.Data.List.TakeWhile
import Loom.Agenda
import Loom.Scheduler.Clockwork
import Loom.Proofs.Control

/-! What an agenda holds. A scheduler that works on an agenda keeps books in the sense of an engine: with
one engine on it, nothing waits or one step does, and the next step to fire is that one. -/
namespace Loom

namespace Agenda

variable {α : Type}

/-- Nothing waits on an agenda, or one call does, with its number and payload. -/
structure Holds (a : Agenda α) (waiting : Option (Nat × α)) : Prop where
  made : ∀ n ∈ a.queue, n < a.calls.size
  live : a.queue.filter a.isLive = (waiting.map (·.1)).toList
  payload : ∀ n x, waiting = some (n, x) → (a.calls[n]?).map (·.payload) = some x

lemma holds_empty : ({} : Agenda α).Holds none := ⟨by simp, rfl, nofun⟩

lemma Holds.pending {a : Agenda α} {waiting : Option (Nat × α)} (h : a.Holds waiting) :
    a.pending = waiting.toList.length := by
  unfold Agenda.pending
  rw [h.live]
  cases waiting <;> rfl

lemma mem_insert (calls : Array (Call α)) (due : Binary64) (n : Nat) (queue : List Nat) {i : Nat} :
    i ∈ insert calls due n queue ↔ i = n ∨ i ∈ queue := by
  fun_induction insert calls due n queue with
  | case1 => simp
  | case2 => simp
  | case3 j rest c _ _ ih => rw [List.mem_cons, ih, List.mem_cons, or_left_comm]
  | case4 j rest _ ih => rw [List.mem_cons, ih, List.mem_cons, or_left_comm]

/-- Among calls that are not live a live one stands out, wherever it is put. -/
lemma filter_insert (calls : Array (Call α)) (due : Binary64) (n : Nat) (queue : List Nat)
    {live : Nat → Bool} (hqueue : queue.filter live = []) (hn : live n = true) :
    (insert calls due n queue).filter live = [n] := by
  fun_induction insert calls due n queue with
  | case1 => simp [hn]
  | case2 j rest c _ _ => rw [List.filter_cons_of_pos hn, hqueue]
  | case3 j rest c _ _ ih =>
    have hj : ¬ live j = true := fun hj => by simp [hj] at hqueue
    rw [List.filter_cons_of_neg hj] at hqueue ⊢
    exact ih hqueue
  | case4 j rest _ ih =>
    have hj : ¬ live j = true := fun hj => by simp [hj] at hqueue
    rw [List.filter_cons_of_neg hj] at hqueue ⊢
    exact ih hqueue

lemma isLive_push (a : Agenda α) (delay : Binary64) (x : α) {n : Nat} (hn : n < a.calls.size) :
    (a.push delay x).2.isLive n = a.isLive n := by
  unfold isLive push
  simp [Array.getElem?_push, Nat.ne_of_lt hn]

@[simp] lemma delays_push (a : Agenda α) (delay : Binary64) (x : α) :
    (a.push delay x).2.delays = a.delays ++ [clamp delay] := by
  simp [delays, push]

/-- Making a call on an agenda where nothing waits. -/
theorem Holds.push {a : Agenda α} (h : a.Holds none) (delay : Binary64) (x : α) :
    (a.push delay x).2.Holds (some (a.calls.size, x)) := by
  have hnew : (a.push delay x).2.isLive a.calls.size = true := by
    simp [isLive, Agenda.push]
  have hold : a.queue.filter (a.push delay x).2.isLive = [] := by
    rw [List.filter_congr fun n hn => isLive_push a delay x (h.made n hn)]
    exact h.live
  refine ⟨?_, filter_insert _ _ _ _ hold hnew, ?_⟩
  · intro n hn
    have hsize : (a.push delay x).2.calls.size = a.calls.size + 1 := by simp [Agenda.push]
    rcases (mem_insert _ _ _ _).1 hn with rfl | hmem
    · omega
    · have hlt := h.made n hmem
      omega
  · rintro n y ⟨⟩
    simp [Agenda.push]

/-- Cancelling the only call that waits. -/
theorem Holds.cancel {a : Agenda α} {n : Nat} {x : α} (h : a.Holds (some (n, x))) :
    (a.cancel n).Holds none := by
  refine ⟨?_, ?_, nofun⟩
  · simpa [Agenda.cancel] using h.made
  · change a.queue.filter (a.cancel n).isLive = []
    rw [List.filter_eq_nil_iff]
    intro i hi hlive
    have hsame : i ≠ n → (a.cancel n).isLive i = a.isLive i := by
      intro hne
      simp [isLive, Agenda.cancel, Array.getElem?_modify, Ne.symm hne]
    have hdead : (a.cancel n).isLive n = false := by
      unfold isLive Agenda.cancel
      rcases hc : a.calls[n]? with _ | c <;> simp [Array.getElem?_modify, hc]
    by_cases hin : i = n
    · rw [hin, hdead] at hlive
      cases hlive
    · rw [hsame hin] at hlive
      have hmem : i ∈ a.queue.filter a.isLive := List.mem_filter.2 ⟨hi, hlive⟩
      rw [h.live] at hmem
      exact hin (by simpa using hmem)

/-- What is left of a list from its only live element on. -/
lemma dropWhile_of_filter {live : Nat → Bool} {queue : List Nat} {n : Nat}
    (h : queue.filter live = [n]) :
    ∃ rest, queue.dropWhile (!live ·) = n :: rest ∧ rest.filter live = [] := by
  induction queue with
  | nil => cases h
  | cons i queue ih =>
    by_cases hi : live i = true
    · rw [List.filter_cons_of_pos hi] at h
      obtain ⟨rfl, hrest⟩ := List.cons.inj h
      exact ⟨queue, by simp [hi], hrest⟩
    · rw [List.filter_cons_of_neg hi] at h
      obtain ⟨rest, hdrop, hrest⟩ := ih h
      exact ⟨rest, by simpa [hi] using hdrop, hrest⟩

/-- Nothing comes off an agenda on which nothing waits. -/
theorem Holds.pop_none {a : Agenda α} (h : a.Holds none) : a.pop = none := by
  have hdrop : a.queue.dropWhile (!a.isLive ·) = [] := by
    rw [List.dropWhile_eq_nil_iff]
    intro n hn
    simpa using List.filter_eq_nil_iff.1 h.live n hn
  unfold pop
  rw [hdrop]

/-- The call that waits comes off first. -/
theorem Holds.pop {a : Agenda α} {n : Nat} {x : α} (h : a.Holds (some (n, x))) :
    ∃ a', a.pop = some (x, a') ∧ a'.Holds none ∧ a'.delays = a.delays := by
  obtain ⟨rest, hdrop, hrest⟩ := dropWhile_of_filter h.live
  obtain ⟨c, hc, hx⟩ := Option.map_eq_some_iff.1 (h.payload n x rfl)
  have hmem : ∀ i ∈ rest, i ∈ a.queue := by
    intro i hi
    have hsub := (List.dropWhile_sublist (l := a.queue) (p := (!a.isLive ·))).subset
    exact hsub (hdrop ▸ List.mem_cons_of_mem n hi)
  refine ⟨{ a with now := a.now.max c.due, queue := rest }, ?_, ?_⟩
  · unfold Agenda.pop
    rw [hdrop]
    simp [hc, hx]
  · exact ⟨⟨fun i hi => h.made i (hmem i hi), hrest, nofun⟩, rfl⟩

end Agenda

/-- A scheduler that takes every step and works on an agenda as long as it is fit. -/
structure Scheduler.OnAgenda (s : Scheduler κ) (agenda : κ → Agenda Ticket) (fit : κ → Prop) :
    Prop where
  arm : ∀ {c} delay t, fit c → ∃ c', s.arm c delay t = (.ok { handle := (agenda c).calls.size }, c') ∧
    fit c' ∧ agenda c' = ((agenda c).push delay t).2
  cancel : ∀ {c} n, fit c → fit (s.cancel c n) ∧ agenda (s.cancel c n) = (agenda c).cancel n
  next : ∀ {c}, fit c → (s.next c).map (fun x => (x.1, agenda x.2)) = (agenda c).pop ∧
    ∀ x, s.next c = some x → fit x.2

/-- The books of a scheduler that works on an agenda. -/
def Scheduler.Books (agenda : κ → Agenda Ticket) (fit : κ → Prop) (c : κ)
    (waiting : Option (Nat × Ticket)) : Prop := fit c ∧ (agenda c).Holds waiting

lemma Scheduler.OnAgenda.keeps {s : Scheduler κ} {agenda : κ → Agenda Ticket} {fit : κ → Prop}
    (hs : s.OnAgenda agenda fit) : s.Keeps (Scheduler.Books agenda fit) True where
  taken {c delay t a c'} hc ha := by
    obtain ⟨c'', harm, hfit, hagenda⟩ := hs.arm delay t hc.1
    rw [harm] at ha
    cases ha
    exact ⟨rfl, hfit, hagenda ▸ hc.2.push delay t⟩
  refused {c delay t f c'} hc ha := by
    obtain ⟨c'', harm, -⟩ := hs.arm delay t hc.1
    rw [harm] at ha
    cases ha
  cancelled {c n t} hc := by
    obtain ⟨hfit, hagenda⟩ := hs.cancel n hc.1
    exact ⟨hfit, hagenda ▸ hc.2.cancel⟩

lemma Scheduler.OnAgenda.next_none {s : Scheduler κ} {agenda : κ → Agenda Ticket} {fit : κ → Prop}
    (hs : s.OnAgenda agenda fit) {c : κ} (hc : Scheduler.Books agenda fit c none) : s.next c = none := by
  have hpop := (hs.next hc.1).1
  rw [hc.2.pop_none] at hpop
  exact Option.map_eq_none_iff.1 hpop

lemma Scheduler.OnAgenda.next_some {s : Scheduler κ} {agenda : κ → Agenda Ticket} {fit : κ → Prop}
    (hs : s.OnAgenda agenda fit) {c : κ} {n : Nat} {t : Ticket}
    (hc : Scheduler.Books agenda fit c (some (n, t))) :
    ∃ c', s.next c = some (t, c') ∧ Scheduler.Books agenda fit c' none ∧
      (agenda c').delays = (agenda c).delays := by
  obtain ⟨hpop, hfit⟩ := hs.next hc.1
  obtain ⟨a', ha', hholds, hdelays⟩ := hc.2.pop
  rw [ha'] at hpop
  obtain ⟨⟨t', c'⟩, hnext, heq⟩ := Option.map_eq_some_iff.1 hpop
  cases heq
  exact ⟨c', hnext, ⟨hfit _ hnext, hholds⟩, hdelays⟩

/-- A clockwork that neither refuses nor keeps works on its agenda. -/
lemma Scheduler.clockwork_onAgenda : Scheduler.clockwork.OnAgenda (·.agenda) fun c =>
    c.refusal = none ∧ c.keeps = false where
  arm {c} delay t hc := by
    refine ⟨{ c with agenda := (c.agenda.push delay t).2 }, ?_, hc, rfl⟩
    have heager : (c.kind = .eager) = False := by
      simpa [Clockwork.keeps] using (Bool.or_eq_false_iff.1 hc.2).2
    simp [Scheduler.clockwork, Clockwork.arm, hc.1, heager]
    rfl
  cancel {c} n hc := by
    have hcancel : Scheduler.clockwork.cancel c n = { c with agenda := c.agenda.cancel n } := by
      simp [Scheduler.clockwork, Clockwork.cancel, hc.2]
    rw [hcancel]
    exact ⟨hc, rfl⟩
  next {c} hc := by
    have hnext : Scheduler.clockwork.next c = c.agenda.pop.map fun x => (x.1, { c with agenda := x.2 }) := by
      simp [Scheduler.clockwork, Clockwork.next, hc.2]
    rw [hnext]
    rcases c.agenda.pop with _ | ⟨t, a⟩
    · exact ⟨rfl, nofun⟩
    · exact ⟨rfl, fun x hx => by cases hx; exact hc⟩

end Loom
