import Mathlib.Data.Finset.Card
import Mathlib.Data.Finset.Range
import Mathlib.Data.List.TakeWhile
import Loom.Proofs.Act
import Loom.Proofs.Agenda
import Loom.Proofs.Instant

/-! The agenda as a queue in virtual time. Whatever is made, cancelled and fired, in whatever order and
however deeply errands nest, each call that fires is the earliest of those that wait, every call made has
exactly one fate, and the clock only moves on. -/
namespace Loom

namespace Agenda

variable {α : Type}

def due? (a : Agenda α) (n : Nat) : Option Binary64 := (a.calls[n]?).map (·.due)

/-- One call comes before another: it is due earlier, or at the same time and was made earlier. -/
def Precedes (a : Agenda α) (n m : Nat) : Prop :=
  ∃ x y, a.due? n = some x ∧ a.due? m = some y ∧ (x.lt y = true ∨ x = y ∧ n < m)

/-- A call that is on the queue and not cancelled. -/
def Waits (a : Agenda α) (n : Nat) : Prop := n ∈ a.queue ∧ a.isLive n = true

instance (a : Agenda α) : DecidablePred a.Waits := fun _ => inferInstanceAs (Decidable (_ ∧ _))

/-- The call that comes off next. -/
def next? (a : Agenda α) : Option Nat := a.queue.find? a.isLive

/-- What happens to a call. -/
inductive Change where
  | made (n : Nat)
  | cancelled (n : Nat)
  | fired (n : Nat)
  deriving DecidableEq

namespace Change

def made? : Change → Option Nat
  | made n => some n
  | _ => none

def fired? : Change → Option Nat
  | fired n => some n
  | _ => none

end Change

/-- One change of an agenda. A call may be cancelled whether it waits or not. -/
inductive Step : Agenda α → Change → Agenda α → Prop
  | made (a : Agenda α) (delay : Binary64) (x : α) :
    Step a (.made a.calls.size) (a.push delay x).2
  | cancelled {a : Agenda α} {n : Nat} (hn : n < a.calls.size) : Step a (.cancelled n) (a.cancel n)
  | fired {a b : Agenda α} {n : Nat} {x : α} (hn : a.next? = some n) (hpop : a.pop = some (x, b)) :
    Step a (.fired n) b

/-- Changes one after the other, the latest last. -/
inductive Run (a : Agenda α) : List Change → Agenda α → Prop
  | start : Run a [] a
  | step {past : List Change} {b c : Agenda α} {change : Change} (h : Run a past b)
    (hstep : Step b change c) : Run a (past ++ [change]) c

variable {a b : Agenda α}

lemma Step.run {change : Change} (h : Step a change b) : Run a [change] b := Run.start.step h

lemma Run.trans {past more : List Change} {c : Agenda α} (h : Run a past b) (h' : Run b more c) :
    Run a (past ++ more) c := by
  induction h' with
  | start => simpa using h
  | step _ hstep ih =>
    rw [← List.append_assoc]
    exact ih.step hstep

section Parts

@[simp] lemma size_push (delay : Binary64) (x : α) :
    (a.push delay x).2.calls.size = a.calls.size + 1 := by simp [push]

@[simp] lemma queue_push (delay : Binary64) (x : α) : (a.push delay x).2.queue =
    insert a.calls (a.now.add (clamp delay)) a.calls.size a.queue := rfl

@[simp] lemma now_push (delay : Binary64) (x : α) : (a.push delay x).2.now = a.now := rfl

lemma due?_push (delay : Binary64) (x : α) (n : Nat) : (a.push delay x).2.due? n =
    if n = a.calls.size then some (a.now.add (clamp delay)) else a.due? n := by
  unfold due? push
  rw [Array.getElem?_push]
  split_ifs <;> simp_all

lemma lt_of_due? {n : Nat} {x : Binary64} (h : a.due? n = some x) : n < a.calls.size := by
  obtain ⟨c, hc, -⟩ := Option.map_eq_some_iff.1 h
  exact (Array.getElem?_eq_some_iff.1 hc).1

lemma exists_due? {n : Nat} (hn : n < a.calls.size) : ∃ x, a.due? n = some x :=
  ⟨_, by rw [due?, Array.getElem?_eq_getElem hn]; rfl⟩

@[simp] lemma size_cancel (n : Nat) : (a.cancel n).calls.size = a.calls.size := by simp [cancel]

@[simp] lemma queue_cancel (n : Nat) : (a.cancel n).queue = a.queue := rfl

@[simp] lemma now_cancel (n : Nat) : (a.cancel n).now = a.now := rfl

@[simp] lemma due?_cancel (n m : Nat) : (a.cancel n).due? m = a.due? m := by
  unfold due? cancel
  rw [Array.getElem?_modify]
  split_ifs <;> cases a.calls[m]? <;> rfl

lemma isLive_cancel (n m : Nat) : (a.cancel n).isLive m = (a.isLive m && m != n) := by
  unfold isLive cancel
  rw [Array.getElem?_modify]
  split_ifs with h
  · subst h
    cases a.calls[n]? <;> simp
  · cases a.calls[m]? <;> simp [Ne.symm h]

lemma lt_of_isLive {n : Nat} (h : a.isLive n = true) : n < a.calls.size := by
  unfold isLive at h
  by_contra hn
  rw [Array.getElem?_eq_none (Nat.not_lt.1 hn)] at h
  cases h

/-- What comes off the queue: the calls before it are all cancelled, and the clock moves to its time. -/
lemma pop_eq_some {x : α} (h : a.pop = some (x, b)) : ∃ n c skipped, a.next? = some n ∧
    a.queue = skipped ++ n :: b.queue ∧ (∀ m ∈ skipped, a.isLive m = false) ∧
    a.isLive n = true ∧ a.calls[n]? = some c ∧ b.calls = a.calls ∧ b.now = a.now.max c.due := by
  unfold pop at h
  rcases hdrop : a.queue.dropWhile (!a.isLive ·) with _ | ⟨n, rest⟩ <;> rw [hdrop] at h
  · cases h
  obtain ⟨c, hc, heq⟩ := Option.map_eq_some_iff.1 h
  cases heq
  have hsplit := List.takeWhile_append_dropWhile (p := (!a.isLive ·)) (l := a.queue)
  have hskipped : ∀ m ∈ a.queue.takeWhile (!a.isLive ·), a.isLive m = false := by
    intro m hm
    simpa using List.mem_takeWhile_imp hm
  have hlive : a.isLive n = true := by
    have hhead := List.head_dropWhile_not (!a.isLive ·) (l := a.queue) (by simp [hdrop])
    simpa [hdrop] using hhead
  refine ⟨n, c, a.queue.takeWhile (!a.isLive ·), ?_, by rw [← hdrop, hsplit], hskipped, hlive, hc, rfl, rfl⟩
  rw [next?, List.find?_eq_some_iff_append]
  exact ⟨hlive, _, rest, by rw [← hdrop, hsplit], by simpa using hskipped⟩

/-- Nothing comes off the queue exactly when nothing on it is live. -/
lemma pop_eq_none_iff : a.pop = none ↔ a.pending = 0 := by
  have hpending : a.pending = 0 ↔ a.queue.dropWhile (!a.isLive ·) = [] := by
    simp [pending, List.dropWhile_eq_nil_iff, List.filter_eq_nil_iff]
  rw [hpending]
  unfold pop
  rcases hdrop : a.queue.dropWhile (!a.isLive ·) with _ | ⟨n, rest⟩
  · simp
  · have hlive : a.isLive n = true := by
      have hhead := List.head_dropWhile_not (!a.isLive ·) (l := a.queue) (by simp [hdrop])
      simpa [hdrop] using hhead
    simp [lt_of_isLive hlive]

end Parts

/-- The times of an agenda are points of virtual time, none of those on the queue before now, and the
queue is in order. -/
structure Timely (a : Agenda α) : Prop where
  now : a.now.IsInstant
  due : ∀ {n x}, a.due? n = some x → x.IsInstant
  ahead : ∀ {n x}, n ∈ a.queue → a.due? n = some x → a.now.reach ≤ x.reach
  made : ∀ {n}, n ∈ a.queue → n < a.calls.size
  ordered : a.queue.Pairwise a.Precedes

lemma timely_empty : ({} : Agenda α).Timely :=
  ⟨Binary64.isInstant_zero, by simp [due?], by simp, by simp, List.Pairwise.nil⟩

lemma Timely.nodup (h : a.Timely) : a.queue.Nodup :=
  h.ordered.imp fun {n m} hnm heq => by
    subst heq
    obtain ⟨x, y, hx, hy, hxy⟩ := hnm
    cases hx.symm.trans hy
    rcases hxy with hlt | ⟨-, hlt⟩
    · exact lt_irrefl _ ((Binary64.lt_iff_reach (h.due hx) (h.due hx)).1 hlt)
    · exact Nat.lt_irrefl n hlt

/-- A call that precedes another is not due after it. -/
lemma Precedes.reach_le {n m : Nat} {x y : Binary64} (h : a.Precedes n m) (hx : a.due? n = some x)
    (hy : a.due? m = some y) (hx' : x.IsInstant) (hy' : y.IsInstant) : x.reach ≤ y.reach := by
  obtain ⟨x, y, hx, hy, hxy⟩ := h
  simp_all only [Option.some.injEq]
  rcases hxy with hlt | ⟨rfl, -⟩
  · exact ((Binary64.lt_iff_reach hx' hy').1 hlt).le
  · exact le_refl _

/-- A new call goes behind those that are not due after it and before the others, so the order stays. -/
lemma pairwise_insert (calls : Array (Call α)) {due : Binary64} {n : Nat} {queue : List Nat}
    {R : Nat → Nat → Prop} (hsorted : queue.Pairwise R)
    (hafter : ∀ i ∈ queue, ∀ c, calls[i]? = some c → due.lt c.due = false → R i n)
    (hknown : ∀ i ∈ queue, (calls[i]?).isSome)
    (hbefore : ∀ i j c, calls[i]? = some c → due.lt c.due = true → R i j ∨ i = j → j ∈ queue → R n j) :
    (insert calls due n queue).Pairwise R := by
  fun_induction insert calls due n queue with
  | case1 => exact List.pairwise_singleton _ _
  | case2 i rest c hc hlt =>
    refine List.pairwise_cons.2 ⟨?_, hsorted⟩
    intro j hj
    rcases List.mem_cons.1 hj with rfl | hmem
    · exact hbefore j j c hc hlt (.inr rfl) hj
    · exact hbefore i j c hc hlt (.inl (List.rel_of_pairwise_cons hsorted hmem)) hj
  | case3 i rest c hc hlt ih =>
    obtain ⟨hhead, htail⟩ := List.pairwise_cons.1 hsorted
    refine List.pairwise_cons.2 ⟨?_, ih htail (fun j hj => hafter j (.tail i hj))
      (fun j hj => hknown j (.tail i hj)) fun j k d hd hl hr hk => hbefore j k d hd hl hr (.tail i hk)⟩
    intro j hj
    rcases (mem_insert calls due n rest).1 hj with rfl | hmem
    · exact hafter i (.head rest) c hc (by simpa using hlt)
    · exact hhead j hmem
  | case4 i rest hnone ih =>
    have hsome := hknown i (.head rest)
    simp [hnone] at hsome

section Steps

lemma due?_push_new (delay : Binary64) (x : α) :
    (a.push delay x).2.due? a.calls.size = some (a.now.add (clamp delay)) := by
  rw [due?_push, if_pos rfl]

lemma due?_push_old {n : Nat} (hn : n < a.calls.size) (delay : Binary64) (x : α) :
    (a.push delay x).2.due? n = a.due? n := by
  rw [due?_push, if_neg (Nat.ne_of_lt hn)]

lemma Precedes.push {n m : Nat} (h : a.Precedes n m) (hn : n < a.calls.size) (hm : m < a.calls.size)
    (delay : Binary64) (x : α) : (a.push delay x).2.Precedes n m := by
  obtain ⟨y, z, hy, hz, hyz⟩ := h
  exact ⟨y, z, (due?_push_old hn delay x).trans hy, (due?_push_old hm delay x).trans hz, hyz⟩

/-- A new call finds its place among those that are listed. -/
lemma Timely.ordered_push (h : a.Timely) (delay : Binary64) (x : α) :
    (a.push delay x).2.queue.Pairwise (a.push delay x).2.Precedes := by
  obtain ⟨hinstant, -⟩ := isInstant_due h.now delay
  have hnew := due?_push_new (a := a) delay x
  rw [queue_push]
  refine pairwise_insert a.calls
    (h.ordered.imp_of_mem fun hn hm hnm => hnm.push (h.made hn) (h.made hm) delay x) ?_ ?_ ?_
  · intro i hi c hc hlt
    have hdue : a.due? i = some c.due := by simp [due?, hc]
    refine ⟨c.due, _, (due?_push_old (h.made hi) delay x).trans hdue, hnew, ?_⟩
    have hle : c.due.reach ≤ (a.now.add (clamp delay)).reach :=
      not_lt.1 fun hlt' => by simp [(Binary64.lt_iff_reach hinstant (h.due hdue)).2 hlt'] at hlt
    rcases hle.lt_or_eq with hlt' | heq
    · exact .inl ((Binary64.lt_iff_reach (h.due hdue) hinstant).2 hlt')
    · exact .inr ⟨Binary64.eq_of_reach (h.due hdue) hinstant heq, h.made hi⟩
  · intro i hi
    simp [h.made hi]
  · intro i j c hc hlt hij hj
    obtain ⟨y, hy⟩ := exists_due? (h.made hj)
    have hdue : a.due? i = some c.due := by simp [due?, hc]
    have hthen : (a.push delay x).2.due? j = some y := (due?_push_old (h.made hj) delay x).trans hy
    refine ⟨_, y, hnew, hthen, .inl ?_⟩
    have hle : c.due.reach ≤ y.reach := by
      rcases hij with hprec | rfl
      · exact hprec.reach_le ((due?_push_old (lt_of_due? hdue) delay x).trans hdue) hthen (h.due hdue) (h.due hy)
      · cases hdue.symm.trans hy
        exact le_refl _
    rw [Binary64.lt_iff_reach hinstant (h.due hy)]
    exact ((Binary64.lt_iff_reach hinstant (h.due hdue)).1 hlt).trans_le hle

lemma Timely.push (h : a.Timely) (delay : Binary64) (x : α) : (a.push delay x).2.Timely := by
  obtain ⟨hinstant, hahead⟩ := isInstant_due h.now delay
  refine ⟨h.now, ?_, ?_, ?_, h.ordered_push delay x⟩
  · intro n y hy
    rw [due?_push] at hy
    split_ifs at hy
    · cases hy
      exact hinstant
    · exact h.due hy
  · intro n y hn hy
    rw [queue_push, mem_insert] at hn
    rw [now_push]
    rcases hn with rfl | hmem
    · cases (due?_push_new (a := a) delay x).symm.trans hy
      exact hahead
    · exact h.ahead hmem (due?_push_old (h.made hmem) delay x ▸ hy)
  · intro n hn
    rw [queue_push, mem_insert] at hn
    rw [size_push]
    rcases hn with rfl | hmem
    · omega
    · have hlt := h.made hmem
      omega

lemma Timely.cancel (h : a.Timely) (n : Nat) : (a.cancel n).Timely := by
  refine ⟨h.now, ?_, ?_, ?_, h.ordered.imp ?_⟩
  · simpa using fun {m x} => h.due (n := m) (x := x)
  · simpa using fun {m x} => h.ahead (n := m) (x := x)
  · simpa using fun {m} => h.made (n := m)
  · simp [Precedes]

/-- Firing the next call: it was the first of those that wait, and the clock stands at its time. -/
lemma Timely.fired (h : a.Timely) {n : Nat} {x : α} (hn : a.next? = some n)
    (hpop : a.pop = some (x, b)) : b.Timely ∧ a.Waits n ∧ a.due? n = some b.now ∧
      a.now.reach ≤ b.now.reach ∧ b.calls = a.calls ∧
      (∀ m, a.Waits m → m ≠ n → a.Precedes n m) ∧ ∀ m, b.Waits m ↔ a.Waits m ∧ m ≠ n := by
  obtain ⟨n', c, skipped, hn', hqueue, hskipped, hlive, hc, hcalls, hnow⟩ := pop_eq_some hpop
  cases hn.symm.trans hn'
  have hdue : a.due? n = some c.due := by simp [due?, hc]
  have hmem : n ∈ a.queue := by simp [hqueue]
  have hsub : ∀ {m}, m ∈ b.queue → m ∈ a.queue := fun hm => by simp [hqueue, hm]
  have hdues : ∀ m, b.due? m = a.due? m := fun m => by simp [due?, hcalls]
  have hlives : ∀ m, b.isLive m = a.isLive m := fun m => by simp [isLive, hcalls]
  have hnow' : b.now = c.due := hnow.trans (Binary64.max_of_reach h.now (h.due hdue) (h.ahead hmem hdue))
  have hordered := h.ordered
  rw [hqueue, List.pairwise_append, List.pairwise_cons] at hordered
  obtain ⟨-, ⟨hfirst, hrest⟩, -⟩ := hordered
  have hnodup := h.nodup
  rw [hqueue, List.nodup_append, List.nodup_cons] at hnodup
  have hwaits : ∀ m, a.Waits m ↔ m = n ∨ b.Waits m := by
    intro m
    unfold Waits
    rw [hlives, hqueue, List.mem_append, List.mem_cons]
    constructor
    · rintro ⟨hm | rfl | hm, hm'⟩
      · simp [hskipped m hm] at hm'
      · exact .inl rfl
      · exact .inr ⟨hm, hm'⟩
    · rintro (rfl | ⟨hm, hm'⟩)
      · exact ⟨.inr (.inl rfl), hlive⟩
      · exact ⟨.inr (.inr hm), hm'⟩
  refine ⟨⟨?_, ?_, ?_, ?_, ?_⟩, ⟨hmem, hlive⟩, hnow' ▸ hdue, hnow' ▸ h.ahead hmem hdue, hcalls, ?_, ?_⟩
  · rw [hnow']
    exact h.due hdue
  · intro m y hy
    exact h.due (hdues m ▸ hy)
  · intro m y hm hy
    rw [hdues] at hy
    rw [hnow']
    exact (hfirst m hm).reach_le hdue hy (h.due hdue) (h.due hy)
  · intro m hm
    rw [hcalls]
    exact h.made (hsub hm)
  · refine hrest.imp fun {i j} hij => ?_
    simpa [Precedes, hdues] using hij
  · intro m hm hne
    exact hfirst m (((hwaits m).1 hm).resolve_left hne).1
  · intro m
    rw [hwaits]
    constructor
    · rintro hm
      refine ⟨.inr hm, ?_⟩
      rintro rfl
      exact hnodup.2.1.1 hm.1
    · rintro ⟨hm, hne⟩
      exact hm.resolve_left hne

end Steps

/-- The call was cancelled at a time when it had not been fired. -/
def CalledOff (past : List Change) (n : Nat) : Prop :=
  ∃ before after, past = before ++ .cancelled n :: after ∧ .fired n ∉ before

lemma calledOff_append {past : List Change} {change : Change} {n : Nat} :
    CalledOff (past ++ [change]) n ↔
      CalledOff past n ∨ change = .cancelled n ∧ .fired n ∉ past := by
  constructor
  · rintro ⟨before, after, heq, hbefore⟩
    rcases after.eq_nil_or_concat with rfl | ⟨after, last, rfl⟩
    · obtain ⟨rfl, hlast⟩ := List.append_inj' heq rfl
      cases hlast
      exact .inr ⟨rfl, hbefore⟩
    · rw [List.concat_eq_append, ← List.cons_append, ← List.append_assoc] at heq
      exact .inl ⟨before, after, (List.append_inj' heq rfl).1, hbefore⟩
  · rintro (⟨before, after, rfl, hbefore⟩ | ⟨rfl, hpast⟩)
    · exact ⟨before, after ++ [change], by simp, hbefore⟩
    · exact ⟨past, [], rfl, hpast⟩

/-- What is known of an agenda after everything that happened to it. -/
structure Accounted (past : List Change) (a : Agenda α) : Prop where
  /-- The calls made are numbered in the order of their making. -/
  numbered : past.filterMap Change.made? = List.range a.calls.size
  /-- No call fires twice. -/
  once : (past.filterMap Change.fired?).Nodup
  /-- Every call made was fired, was called off or waits, and only one of these. -/
  fate : ∀ n, .made n ∈ past →
    .fired n ∈ past ∧ ¬ CalledOff past n ∧ ¬ a.Waits n ∨
    .fired n ∉ past ∧ CalledOff past n ∧ ¬ a.Waits n ∨
    .fired n ∉ past ∧ ¬ CalledOff past n ∧ a.Waits n
  /-- Nothing happens to a call that was not made. -/
  known : ∀ n, .fired n ∈ past ∨ CalledOff past n ∨ a.Waits n → .made n ∈ past

lemma Accounted.made_iff {past : List Change} (h : Accounted past a) {n : Nat} :
    .made n ∈ past ↔ n < a.calls.size := by
  rw [← List.mem_range, ← h.numbered, List.mem_filterMap]
  constructor
  · intro hn
    exact ⟨_, hn, rfl⟩
  · rintro ⟨change, hmem, hchange⟩
    cases change with
    | made m =>
      cases hchange
      exact hmem
    | cancelled | fired => cases hchange

lemma accounted_empty : Accounted [] ({} : Agenda α) where
  numbered := rfl
  once := List.nodup_nil
  fate := nofun
  known n h := by simp [CalledOff, Waits] at h

section Accounts

variable {past : List Change}

lemma waits_push (ha : a.Timely) (delay : Binary64) (x : α) (n : Nat) :
    (a.push delay x).2.Waits n ↔ a.Waits n ∨ n = a.calls.size := by
  unfold Waits
  rw [queue_push, mem_insert]
  by_cases hn : n = a.calls.size
  · simp [hn, isLive, push]
  · have hlive : n ∈ a.queue → (a.push delay x).2.isLive n = a.isLive n :=
      fun hmem => isLive_push a delay x (ha.made hmem)
    constructor
    · rintro ⟨heq | hmem, h⟩
      · exact absurd heq hn
      · exact .inl ⟨hmem, hlive hmem ▸ h⟩
    · rintro (⟨hmem, h⟩ | heq)
      · exact ⟨.inr hmem, (hlive hmem).trans h⟩
      · exact absurd heq hn

lemma Accounted.push (h : Accounted past a) (ha : a.Timely) (delay : Binary64) (x : α) :
    Accounted (past ++ [.made a.calls.size]) (a.push delay x).2 := by
  have hnew : .made a.calls.size ∉ past := fun hmem => Nat.lt_irrefl _ (h.made_iff.1 hmem)
  refine ⟨?_, ?_, ?_, ?_⟩
  · rw [size_push, List.range_succ, List.filterMap_append, h.numbered]
    rfl
  · simpa [List.filterMap_cons, Change.fired?] using h.once
  · intro n hn
    simp only [List.mem_append, List.mem_singleton, Change.made.injEq] at hn
    have hfired : Change.fired n ∈ past ++ [.made a.calls.size] ↔ .fired n ∈ past := by simp
    have hoff : CalledOff (past ++ [.made a.calls.size]) n ↔ CalledOff past n := by
      simp [calledOff_append]
    rw [hfired, hoff, waits_push ha]
    by_cases heq : n = a.calls.size
    · -- Nothing has happened yet to the new call.
      subst heq
      refine .inr (.inr ⟨?_, ?_, .inr rfl⟩)
      · exact fun hmem => hnew (h.known _ (.inl hmem))
      · exact fun hmem => hnew (h.known _ (.inr (.inl hmem)))
    · simpa [heq] using h.fate n (hn.resolve_right heq)
  · intro n hn
    rw [calledOff_append, waits_push ha] at hn
    simp only [List.mem_append, List.mem_singleton, Change.made.injEq] at hn ⊢
    rcases hn with (hmem | hmem) | (hmem | ⟨hmem, -⟩) | (hmem | rfl)
    · exact .inl (h.known n (.inl hmem))
    · cases hmem
    · exact .inl (h.known n (.inr (.inl hmem)))
    · cases hmem
    · exact .inl (h.known n (.inr (.inr hmem)))
    · exact .inr rfl

lemma waits_cancel (n m : Nat) : (a.cancel n).Waits m ↔ a.Waits m ∧ m ≠ n := by
  simp [Waits, isLive_cancel, and_assoc]

lemma Accounted.cancel (h : Accounted past a) {n : Nat} (hn : n < a.calls.size) :
    Accounted (past ++ [.cancelled n]) (a.cancel n) := by
  have hmade : .made n ∈ past := h.made_iff.2 hn
  refine ⟨?_, ?_, ?_, ?_⟩
  · simpa [List.filterMap_cons, Change.made?] using h.numbered
  · simpa [List.filterMap_cons, Change.fired?] using h.once
  · intro m hm
    have hfate := h.fate m (by simpa using hm)
    rw [waits_cancel, calledOff_append]
    simp only [List.mem_append, List.mem_singleton, reduceCtorEq, or_false, Change.cancelled.injEq]
    by_cases heq : m = n
    · -- Whether it was fired decides what the cancelling counts for.
      subst heq
      rcases hfate with ⟨hfired, hoff, -⟩ | ⟨hfired, hoff, -⟩ | ⟨hfired, -, -⟩
      · exact .inl ⟨hfired, by simp [hoff, hfired], by simp⟩
      · exact .inr (.inl ⟨hfired, .inl hoff, by simp⟩)
      · exact .inr (.inl ⟨hfired, .inr ⟨rfl, hfired⟩, by simp⟩)
    · have heq' : n ≠ m := Ne.symm heq
      simpa [heq, heq'] using hfate
  · intro m hm
    rw [waits_cancel, calledOff_append] at hm
    simp only [List.mem_append, List.mem_singleton, reduceCtorEq, or_false, Change.cancelled.injEq] at hm ⊢
    rcases hm with hmem | (hmem | ⟨rfl, -⟩) | ⟨hmem, -⟩
    · exact h.known m (.inl hmem)
    · exact h.known m (.inr (.inl hmem))
    · exact hmade
    · exact h.known m (.inr (.inr hmem))

lemma Accounted.fired (h : Accounted past a) {n : Nat} (hn : a.Waits n) (hcalls : b.calls = a.calls)
    (hwaits : ∀ m, b.Waits m ↔ a.Waits m ∧ m ≠ n) : Accounted (past ++ [.fired n]) b := by
  have hfate : .fired n ∉ past ∧ ¬ CalledOff past n := by
    rcases h.fate n (h.known n (.inr (.inr hn))) with ⟨-, -, hwaits⟩ | ⟨-, -, hwaits⟩ | ⟨hfired, hoff, -⟩
    · exact absurd hn hwaits
    · exact absurd hn hwaits
    · exact ⟨hfired, hoff⟩
  refine ⟨?_, ?_, ?_, ?_⟩
  · simpa [List.filterMap_cons, Change.made?, hcalls] using h.numbered
  · rw [List.filterMap_append, List.nodup_append]
    refine ⟨h.once, by simp [Change.fired?], ?_⟩
    rintro m hm k hk rfl
    obtain ⟨change, hmem, hchange⟩ := List.mem_filterMap.1 hm
    obtain rfl : m = n := by simpa [List.filterMap_cons, Change.fired?] using hk
    cases change with
    | fired k =>
      cases hchange
      exact hfate.1 hmem
    | made | cancelled => cases hchange
  · intro m hm
    have hfate' := h.fate m (by simpa using hm)
    rw [hwaits, calledOff_append]
    simp only [List.mem_append, List.mem_singleton, Change.fired.injEq, reduceCtorEq, false_and, or_false]
    by_cases heq : m = n
    · subst heq
      exact .inl ⟨.inr rfl, hfate.2, by simp⟩
    · simpa [heq] using hfate'
  · intro m hm
    rw [hwaits, calledOff_append] at hm
    simp only [List.mem_append, List.mem_singleton, Change.fired.injEq, reduceCtorEq, false_and, or_false]
      at hm ⊢
    rcases hm with (hmem | rfl) | hmem | ⟨hmem, -⟩
    · exact h.known m (.inl hmem)
    · exact h.known m (.inr (.inr hn))
    · exact h.known m (.inr (.inl hmem))
    · exact h.known m (.inr (.inr hmem))

/-- What every change keeps. -/
lemma Step.accounted {change : Change} (h : Step a change b) (ha : a.Timely) (hpast : Accounted past a) :
    b.Timely ∧ Accounted (past ++ [change]) b := by
  cases h with
  | made delay x => exact ⟨ha.push delay x, hpast.push ha delay x⟩
  | cancelled hn => exact ⟨ha.cancel _, hpast.cancel hn⟩
  | fired hn hpop =>
    obtain ⟨hb, hwait, -, -, hcalls, -, hwaits⟩ := ha.fired hn hpop
    exact ⟨hb, hpast.fired hwait hcalls hwaits⟩

lemma Run.accounted (h : Run ({} : Agenda α) past a) : a.Timely ∧ Accounted past a := by
  induction h with
  | start => exact ⟨timely_empty, accounted_empty⟩
  | step _ hstep ih => exact hstep.accounted ih.1 ih.2

/-- The clock only moves on. -/
lemma Step.now_le {change : Change} (h : Step a change b) (ha : a.Timely) : a.now.le b.now = true := by
  cases h with
  | made | cancelled => exact (Binary64.le_iff_reach ha.now ha.now).2 (le_refl _)
  | fired hn hpop =>
    obtain ⟨hb, -, -, hle, -⟩ := ha.fired hn hpop
    exact (Binary64.le_iff_reach ha.now hb.now).2 hle

lemma Timely.pending_eq (h : a.Timely) :
    a.pending = ((Finset.range a.calls.size).filter a.Waits).card := by
  rw [pending, ← List.toFinset_card_of_nodup (h.nodup.filter _)]
  congr 1
  ext n
  simp only [List.mem_toFinset, List.mem_filter, Finset.mem_filter, Finset.mem_range, Waits]
  constructor
  · intro hn
    exact ⟨h.made hn.1, hn⟩
  · exact fun hn => hn.2

end Accounts

end Agenda

namespace Timeline

open Agenda (Change Run Step)

/-- The changes that repeated rounds make to an agenda, given those of one round. -/
def burst (fire : Act Timeline Bool) (changes : Timeline → List Change) (limit : Option Int) :
    Nat → Nat → Timeline → List Change
  | 0, _, _ => []
  | fuel + 1, count, t =>
    if limit.any (· ≤ (count : Int)) then []
    else changes t ++ match fire.outcome t with
      | (.ok true, u) => burst fire changes limit fuel (count + 1) u
      | _ => []

/-- The changes that an errand makes to an agenda, one after the other, given those of firing a call. -/
def history (fire : Act Timeline Bool) (changes : Timeline → List Change) (rounds : Nat) :
    Errand → Timeline → List Change
  | .done, _ => []
  | .fail _, _ => []
  | .note label next, t => history fire changes rounds next { t with noted := t.noted ++ [label] }
  | .later delay body next, t =>
    let (r, u) := (later delay body).outcome t
    r.toOption.toList.map .made ++ history fire changes rounds (next r) u
  | .cancel n next, t =>
    let (r, u) := (cancel n).outcome t
    (r.toOption.toList.map fun _ => .cancelled n) ++ history fire changes rounds (next r) u
  | .fireNext next, t =>
    let (r, u) := fire.outcome t
    changes t ++ history fire changes rounds (next r) u
  | .fireAll limit next, t =>
    let (r, u) := (Act.repeatWhile fire limit rounds 0).outcome t
    burst fire changes limit rounds 0 t ++ history fire changes rounds (next r) u

/-- The changes that firing the next call makes: it is fired, and then come those of its errand. -/
def firing (rounds : Nat) : Nat → Timeline → List Change
  | 0, _ => []
  | depth + 1, t =>
    match t.agenda.next?, t.agenda.pop with
    | some n, some (errand, agenda) =>
      .fired n :: history (fireNext rounds depth) (firing rounds depth) rounds errand { t with agenda }
    | _, _ => []

section Histories

variable {fire : Act Timeline Bool} {changes : Timeline → List Change} {rounds : Nat}

lemma later_run (delay : Value) (body : Errand) (t : Timeline) :
    Run t.agenda (((later delay body).outcome t).1.toOption.toList.map .made)
      ((later delay body).outcome t).2.agenda := by
  rcases hd : delay.toFloat with f | d
  · have hlater : (later delay body).outcome t = (.error f, t) := by
      simp [later, Agenda.schedule, hd]
    rw [hlater]
    exact .start
  · have hlater : (later delay body).outcome t =
        (.ok t.agenda.calls.size, { t with agenda := (t.agenda.push d body).2 }) := by
      simp [later, Agenda.schedule, hd]
      rfl
    rw [hlater]
    exact (Step.made t.agenda d body).run

lemma cancel_run (n : Nat) (t : Timeline) :
    Run t.agenda (((cancel n).outcome t).1.toOption.toList.map fun _ => .cancelled n)
      ((cancel n).outcome t).2.agenda := by
  by_cases hn : n < t.agenda.calls.size
  · have hcancel : (cancel n).outcome t = (.ok (), { t with agenda := t.agenda.cancel n }) := by
      simp [cancel, hn]
    rw [hcancel]
    exact (Step.cancelled hn).run
  · have hcancel : (cancel n).outcome t = (.error .outOfRange, t) := by
      simp [cancel, hn]
    rw [hcancel]
    exact .start

lemma burst_run (hfire : ∀ t, Run t.agenda (changes t) (fire.outcome t).2.agenda) (limit : Option Int)
    (fuel count : Nat) (t : Timeline) :
    Run t.agenda (burst fire changes limit fuel count t)
      ((Act.repeatWhile fire limit fuel count).outcome t).2.agenda := by
  induction fuel generalizing count t with
  | zero => exact .start
  | succ fuel ih =>
    unfold burst Act.repeatWhile
    split_ifs
    · exact .start
    · have hrun := hfire t
      rw [Act.outcome_bind]
      rcases hout : fire.outcome t with ⟨_ | (_ | _), u⟩ <;> rw [hout] at hrun
      · simpa using hrun
      · simpa using hrun
      · exact hrun.trans (ih (count + 1) u)

/-- The history of an errand is how the agenda came from what it was to what it is. -/
lemma history_run (hfire : ∀ t, Run t.agenda (changes t) (fire.outcome t).2.agenda) (errand : Errand)
    (t : Timeline) : Run t.agenda (history fire changes rounds errand t)
      ((carryOut fire rounds errand).outcome t).2.agenda := by
  induction errand generalizing t with
  | done => exact .start
  | fail => exact .start
  | note label next ih => exact ih { t with noted := t.noted ++ [label] }
  | later delay body next _ ih => exact (later_run delay body t).trans (ih _ _)
  | cancel n next ih => exact (cancel_run n t).trans (ih _ _)
  | fireNext next ih => exact (hfire t).trans (ih _ _)
  | fireAll limit next ih => exact (burst_run hfire limit rounds 0 t).trans (ih _ _)

/-- Nothing is fired when nothing waits; else the clock moves on and the errand is carried out. -/
lemma fireNext_outcome (rounds depth : Nat) (t : Timeline) :
    (fireNext rounds (depth + 1)).outcome t = match t.agenda.pop with
      | none => (.ok false, t)
      | some (errand, agenda) =>
        let (r, u) := (carryOut (fireNext rounds depth) rounds errand).outcome { t with agenda }
        (r.map fun _ => true, u) := by
  rw [fireNext, Act.outcome_bind, Act.outcome_get]
  dsimp only
  rcases t.agenda.pop with _ | ⟨errand, agenda⟩
  · rfl
  · simp only [Act.outcome_bind, Act.outcome_set]
    rcases (carryOut (fireNext rounds depth) rounds errand).outcome { t with agenda } with ⟨_ | _, u⟩ <;>
      rfl

lemma firing_run (depth : Nat) (t : Timeline) :
    Run t.agenda (firing rounds depth t) ((fireNext rounds depth).outcome t).2.agenda := by
  induction depth generalizing t with
  | zero => exact .start
  | succ depth ih =>
    rw [fireNext_outcome]
    rcases hpop : t.agenda.pop with _ | ⟨errand, agenda⟩
    · have hfiring : firing rounds (depth + 1) t = [] := by
        unfold firing
        split <;> simp_all
      rw [hfiring]
      exact .start
    · obtain ⟨n, -, -, hn, -⟩ := Agenda.pop_eq_some hpop
      have hfiring : firing rounds (depth + 1) t =
          .fired n :: history (fireNext rounds depth) (firing rounds depth) rounds errand
            { t with agenda } := by
        unfold firing
        simp only [hn, hpop]
      rw [hfiring]
      exact (Step.fired hn hpop).run.trans (history_run ih errand { t with agenda })

end Histories

/-- So many calls fired one after the other, each the next one due at its time, and the errand of each
carried out to its end. -/
inductive Volley (rounds depth : Nat) : Nat → Timeline → Timeline → Prop
  | hold (t : Timeline) : Volley rounds depth 0 t t
  | fire {n : Nat} {t u v : Timeline} {errand : Errand} {agenda : Agenda Errand}
    (hpop : t.agenda.pop = some (errand, agenda))
    (hout : (carryOut (fireNext rounds depth) rounds errand).outcome { t with agenda } = (.ok (), u))
    (hrest : Volley rounds depth n u v) : Volley rounds depth (n + 1) t v

section Bursts

variable {rounds depth fuel count : Nat} {limit : Option Int} {t u : Timeline}

lemma limit_reached (h : limit.any (· ≤ (count : Int)) = true) : ∃ l, limit = some l ∧ l ≤ (count : Int) := by
  cases limit with
  | none => cases h
  | some l => exact ⟨l, rfl, by simpa using h⟩

lemma limit_ahead (h : ¬ limit.any (· ≤ (count : Int)) = true) {l : Int} (hl : limit = some l) :
    (count : Int) < l := by
  subst hl
  simpa using h

/-- Firing all calls counts those it fires itself, and stops short of the limit only when none waits. -/
lemma repeatWhile_ok {n : Nat}
    (h : (Act.repeatWhile (fireNext rounds (depth + 1)) limit fuel count).outcome t = (.ok n, u)) :
    ∃ k, n = count + k ∧ k ≤ fuel ∧ Volley rounds depth k t u ∧
      (∀ l, limit = some l → 0 < k → (n : Int) ≤ l) ∧
      (k < fuel → (∀ l, limit = some l → (n : Int) < l) → u.agenda.pending = 0) := by
  induction fuel generalizing count t with
  | zero =>
    cases h
    exact ⟨0, rfl, le_refl 0, .hold _, by simp, by simp⟩
  | succ fuel ih =>
    unfold Act.repeatWhile at h
    split_ifs at h with hlimit
    · cases h
      obtain ⟨l, rfl, hl⟩ := limit_reached hlimit
      refine ⟨0, rfl, Nat.zero_le _, .hold _, by simp, fun _ hlt => ?_⟩
      have := hlt l rfl
      omega
    · rw [Act.outcome_bind, fireNext_outcome] at h
      rcases hpop : t.agenda.pop with _ | ⟨errand, agenda⟩ <;> rw [hpop] at h
      · cases h
        exact ⟨0, rfl, Nat.zero_le _, .hold _, by simp, fun _ _ => Agenda.pop_eq_none_iff.1 hpop⟩
      · rcases hout : (carryOut (fireNext rounds depth) rounds errand).outcome { t with agenda } with
          ⟨f | ⟨⟩, v⟩ <;> simp only [hout] at h
        · cases h
        · obtain ⟨k, hn, hk, hvolley, hbelow, hidle⟩ := ih h
          refine ⟨k + 1, by omega, by omega, .fire hpop hout hvolley, ?_, fun hlt => hidle (by omega)⟩
          intro l hl _
          have hahead := limit_ahead hlimit hl
          rcases Nat.eq_zero_or_pos k with rfl | hpos
          · omega
          · exact hbelow l hl hpos

/-- Firing all calls fails only with the fault of an errand it fires. -/
lemma repeatWhile_error {f : Fault}
    (h : (Act.repeatWhile (fireNext rounds (depth + 1)) limit fuel count).outcome t = (.error f, u)) :
    ∃ k s errand agenda, Volley rounds depth k t s ∧ s.agenda.pop = some (errand, agenda) ∧
      (carryOut (fireNext rounds depth) rounds errand).outcome { s with agenda } = (.error f, u) := by
  induction fuel generalizing count t with
  | zero => cases h
  | succ fuel ih =>
    unfold Act.repeatWhile at h
    split_ifs at h with hlimit
    · cases h
    · rw [Act.outcome_bind, fireNext_outcome] at h
      rcases hpop : t.agenda.pop with _ | ⟨errand, agenda⟩ <;> rw [hpop] at h
      · cases h
      · rcases hout : (carryOut (fireNext rounds depth) rounds errand).outcome { t with agenda } with
          ⟨f | ⟨⟩, v⟩ <;> simp only [hout] at h
        · cases h
          exact ⟨0, t, errand, agenda, .hold t, hpop, hout⟩
        · obtain ⟨k, s, errand', agenda', hvolley, hrest⟩ := ih h
          exact ⟨k + 1, s, errand', agenda', .fire hpop hout hvolley, hrest⟩

end Bursts

end Timeline

open Agenda Timeline

/-- A queue in virtual time. At every moment of every sequence of changes the calls made are accounted
for, those that wait are counted, none of them is due before now, and the one that fires is the earliest
of them, the clock moving on to its time. What an errand does to an agenda, however it nests and wherever
it fails, is such a sequence. Firing all calls counts the calls it fires itself; short of the fuel and
of the limit it stops only when none waits, and it fails only with the fault of an errand it fired. -/
theorem virtual_time_kept :
    (∀ {α : Type} {past : List Change} {a : Agenda α}, Run {} past a →
      Accounted past a ∧ a.pending = ((Finset.range a.calls.size).filter a.Waits).card ∧
      (∀ n, a.Waits n → ∃ due, a.due? n = some due ∧ a.now.le due = true) ∧
      ∀ {change b}, Step a change b → a.now.le b.now = true ∧ ∀ n, change = .fired n →
        a.Waits n ∧ (∀ m, a.Waits m → m ≠ n → a.Precedes n m) ∧ a.due? n = some b.now) ∧
    (∀ rounds depth errand,
      Run {} (history (fireNext rounds depth) (firing rounds depth) rounds errand {})
        ((carryOut (fireNext rounds depth) rounds errand).outcome {}).2.agenda) ∧
    ∀ rounds depth limit fuel t u,
      (∀ n, (Act.repeatWhile (fireNext rounds (depth + 1)) limit fuel 0).outcome t = (.ok n, u) →
        Volley rounds depth n t u ∧ n ≤ fuel ∧ (∀ l, limit = some l → 0 < n → (n : Int) ≤ l) ∧
        (n < fuel → (∀ l, limit = some l → (n : Int) < l) → u.agenda.pending = 0)) ∧
      ∀ f, (Act.repeatWhile (fireNext rounds (depth + 1)) limit fuel 0).outcome t = (.error f, u) →
        ∃ k s errand agenda, Volley rounds depth k t s ∧ s.agenda.pop = some (errand, agenda) ∧
          (carryOut (fireNext rounds depth) rounds errand).outcome { s with agenda } = (.error f, u) := by
  refine ⟨?_, ?_, ?_⟩
  · intro α past a hrun
    obtain ⟨htimely, haccounted⟩ := hrun.accounted
    refine ⟨haccounted, htimely.pending_eq, ?_, ?_⟩
    · rintro n ⟨hmem, -⟩
      obtain ⟨due, hdue⟩ := exists_due? (htimely.made hmem)
      exact ⟨due, hdue, (Binary64.le_iff_reach htimely.now (htimely.due hdue)).2 (htimely.ahead hmem hdue)⟩
    · intro change b hstep
      refine ⟨hstep.now_le htimely, ?_⟩
      rintro n rfl
      cases hstep with
      | fired hn hpop =>
        obtain ⟨-, hwaits, hnow, -, -, hfirst, -⟩ := htimely.fired hn hpop
        exact ⟨hwaits, hfirst, hnow⟩
  · intro rounds depth errand
    exact history_run (firing_run depth) errand {}
  · intro rounds depth limit fuel t u
    refine ⟨?_, fun f => repeatWhile_error⟩
    intro n h
    obtain ⟨k, rfl, hfuel, hvolley, hlimit, hidle⟩ := repeatWhile_ok h
    rw [Nat.zero_add]
    rw [Nat.zero_add] at hlimit hidle
    exact ⟨hvolley, hfuel, hlimit, hidle⟩

/-- Two calls due together and one due later; the first is cancelled, and the second makes another call
and then fails. -/
def callsInTurn : Errand :=
  .later (.int 0) .done fun _ =>
  .later (.int 1) .done fun _ =>
  .later (.int 0) (.later (.int 0) .done fun _ => .fail .outOfRange) fun _ =>
  .cancel 0 fun _ => .fireAll none fun _ => .fireAll (some 1) fun _ => .done

theorem callsInTurn_accounted : ∃ a : Agenda Errand,
    Run {} [.made 0, .made 1, .made 2, .cancelled 0, .fired 2, .made 3, .fired 3] a ∧
    Accounted [.made 0, .made 1, .made 2, .cancelled 0, .fired 2, .made 3, .fired 3] a ∧
    a.Waits 1 ∧ a.pending = 1 := by
  obtain ⟨hmoment, hhistory, -⟩ := virtual_time_kept
  have hrun := hhistory 9 2 callsInTurn
  have hpast : history (fireNext 9 2) (firing 9 2) 9 callsInTurn {} =
      [.made 0, .made 1, .made 2, .cancelled 0, .fired 2, .made 3, .fired 3] := by decide +kernel
  rw [hpast] at hrun
  exact ⟨_, hrun, (hmoment hrun).1, by decide +kernel, by decide +kernel⟩

end Loom
