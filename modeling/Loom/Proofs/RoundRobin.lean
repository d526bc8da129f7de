import Mathlib.Data.List.Rotate
import Loom.Proofs.Core

/-! The strands of a core as a queue. The turn is a position in a list, and a slice in part used up; seen
from the turn on, the list is a queue whose front executes up to a slice of its instructions and then
goes to the back, or drops out at its end. -/
namespace Loom

namespace Queue

variable {α : Type}

/-- The number of instructions that wait in a queue. -/
def load : List (Nat × List α) → Nat
  | [] => 0
  | (_, is) :: queue => is.length + load queue

@[simp] lemma load_nil : load ([] : List (Nat × List α)) = 0 := rfl

@[simp] lemma load_cons (sid : Nat) (is : List α) (queue : List (Nat × List α)) :
    load ((sid, is) :: queue) = is.length + load queue := rfl

@[simp] lemma load_append (queue queue' : List (Nat × List α)) :
    load (queue ++ queue') = load queue + load queue' := by
  induction queue with
  | nil => simp
  | cons x queue ih =>
    obtain ⟨sid, is⟩ := x
    simp only [List.cons_append, load_cons, ih, Nat.add_assoc]

lemma load_eq_length (queue : List (Nat × List α)) :
    load queue = (queue.map (·.2)).flatten.length := by
  induction queue with
  | nil => rfl
  | cons x queue ih =>
    obtain ⟨sid, is⟩ := x
    simp [ih]

/-- The reference schedule. The strand in front executes up to `q` of its instructions; it goes to the
back with those that are left, and drops out when none is. -/
def roundRobin (q : Nat) (hq : 1 ≤ q) : List (Nat × List α) → List (Nat × α)
  | [] => []
  | (sid, is) :: queue =>
    (is.take q).map (sid, ·) ++
      roundRobin q hq (if is.length ≤ q then queue else queue ++ [(sid, is.drop q)])
termination_by queue => load queue + queue.length
decreasing_by
  split_ifs with hle
  · simp only [load_cons, List.length_cons]
    omega
  · simp only [load_cons, load_append, load_nil, List.length_cons, List.length_append,
      List.length_drop, List.length_nil]
    omega

/-- The schedule of a queue whose front has used up a part of its slice. -/
def remaining (q : Nat) (hq : 1 ≤ q) (used : Nat) : List (Nat × List α) → List (Nat × α)
  | [] => []
  | (sid, is) :: queue =>
    (is.take (q - used)).map (sid, ·) ++
      roundRobin q hq (if is.length ≤ q - used then queue else queue ++ [(sid, is.drop (q - used))])

variable {q : Nat} (hq : 1 ≤ q) {used sid : Nat} {i : α} {is : List α} {queue : List (Nat × List α)}

lemma remaining_zero : remaining q hq 0 queue = roundRobin q hq queue := by
  cases queue with
  | nil => rw [remaining, roundRobin]
  | cons x queue => rw [remaining, roundRobin, Nat.sub_zero]

/-- The queue after its front has executed an instruction, and how much of the slice is used up then. -/
def served (q used sid : Nat) (is : List α) (queue : List (Nat × List α)) :
    Nat × List (Nat × List α) :=
  if is = [] then (0, queue)
  else if used + 1 < q then (used + 1, (sid, is) :: queue)
  else (0, queue ++ [(sid, is)])

/-- A schedule begins with the next instruction of the front and goes on with what is left. -/
lemma remaining_cons (hused : used < q) : remaining q hq used ((sid, i :: is) :: queue) =
    (sid, i) :: remaining q hq (served q used sid is queue).1 (served q used sid is queue).2 := by
  obtain ⟨left, hleft⟩ : ∃ left, q - used = left + 1 := ⟨q - used - 1, by omega⟩
  unfold served
  rw [remaining, hleft, List.take_succ_cons, List.drop_succ_cons, List.length_cons]
  split_ifs with hshort hend hmore hend hmore
  · subst hend
    rw [remaining_zero]
    simp
  · have hmore' : q - (used + 1) = left := by omega
    rw [remaining, hmore', if_pos (by omega)]
    rfl
  · have hlast : left = 0 := by omega
    have hnone : is.length = 0 := by omega
    exact absurd (List.length_eq_zero_iff.1 hnone) hend
  · subst hend
    simp at hshort
  · have hmore' : q - (used + 1) = left := by omega
    rw [remaining, hmore', if_neg (by omega)]
    rfl
  · have hlast : left = 0 := by omega
    subst hlast
    rw [remaining_zero]
    simp

lemma load_served : load (served q used sid is queue).2 = is.length + load queue := by
  unfold served
  split_ifs with hend
  · simp [hend]
  · simp
  · simp [Nat.add_comm]

/-- A schedule is an arrangement of the instructions that wait. -/
theorem roundRobin_perm (queue : List (Nat × List α)) :
    (roundRobin q hq queue).Perm (queue.flatMap fun x => x.2.map (x.1, ·)) := by
  fun_induction roundRobin q hq queue with
  | case1 => exact .refl _
  | case2 sid is queue ih =>
    refine (List.Perm.append_left _ ih).trans ?_
    split_ifs with hle
    · rw [List.take_of_length_le hle, List.flatMap_cons]
    · rw [List.flatMap_append, List.flatMap_cons, List.flatMap_cons, List.flatMap_nil, List.append_nil]
      refine (List.Perm.append_left _ List.perm_append_comm).trans ?_
      rw [← List.append_assoc, ← List.map_append, List.take_append_drop]

/-- Lines of instructions as a queue, each with the number of its strand. -/
def ofLines (lines : List (List α)) : List (Nat × List α) := lines.mapIdx fun sid is => (sid, is)

@[simp] lemma ofLines_concat (lines : List (List α)) (is : List α) :
    ofLines (lines ++ [is]) = ofLines lines ++ [(lines.length, is)] := List.mapIdx_concat

lemma ofLines_map_snd (lines : List (List α)) : (ofLines lines).map (·.2) = lines := by
  apply List.ext_getElem
  · simp [ofLines]
  · intro n hn hn'
    simp [ofLines]

lemma load_ofLines (lines : List (List α)) : load (ofLines lines) = lines.flatten.length := by
  rw [load_eq_length, ofLines_map_snd]

/-- A schedule of lines is an arrangement of their instructions. -/
lemma roundRobin_ofLines_perm (lines : List (List α)) :
    ((roundRobin q hq (ofLines lines)).map (·.2)).Perm lines.flatten := by
  refine ((roundRobin_perm hq (ofLines lines)).map _).trans ?_
  have hflat : ((ofLines lines).flatMap fun x => x.2.map (x.1, ·)).map (·.2) =
      ((ofLines lines).map (·.2)).flatten := by
    rw [List.map_flatMap, List.flatMap_def]
    simp [Function.comp_def]
  rw [hflat, ofLines_map_snd]

end Queue

/-- Taking the element at the turn out of a list leaves the turn on the one behind it. -/
lemma rotate_erase {l m : List Nat} {a k : Nat} (hl : l.Nodup) (hk : k < l.length)
    (hrotate : l.rotate k = a :: m) :
    (l.erase a).rotate (if (l.erase a).length ≤ k then 0 else k) = m := by
  obtain ⟨pre, suf, rfl, rfl⟩ : ∃ pre suf, pre.length = k ∧ l = pre ++ suf :=
    ⟨l.take k, l.drop k, by simp [Nat.le_of_lt hk], by simp⟩
  rw [List.rotate_append_length_eq] at hrotate
  obtain ⟨b, rest, rfl⟩ : ∃ b rest, suf = b :: rest := by
    refine List.exists_cons_of_ne_nil ?_
    rintro rfl
    simp at hk
  obtain ⟨rfl, rfl⟩ := List.cons.inj hrotate
  have hb : b ∉ pre := fun hmem => (List.nodup_append.1 hl).2.2 b hmem b List.mem_cons_self rfl
  rw [List.erase_append_right _ hb, List.erase_cons_head]
  cases rest with
  | nil => simp
  | cons c rest =>
    rw [if_neg (by simp)]
    exact List.rotate_append_length_eq pre (c :: rest)

/-- An instruction that just works on the memory and knows its successor. -/
structure Host.Passes (h : Host D) (P : D.Memory → Prop) (i : D.Instr) (successor : Option D.Instr) :
    Prop where
  wellFormed : h.wellFormed i = true
  code : ∀ scope, (h.code i scope).Quiet P
  next : ∀ {m}, P m → h.next m i = .ok successor

/-- A straight line of instructions: each leads to the next, and the last nowhere. -/
def Host.Straight (h : Host D) (P : D.Memory → Prop) : List D.Instr → Prop
  | [] => True
  | i :: is => h.Passes P i is.head? ∧ h.Straight P is

namespace Core

variable {D : Dialect} {h : Host D} {P : D.Memory → Prop} {c : Core D}

/-- A quiet script returns and changes nothing but the memory. -/
lemma run_quiet (h : Host D) {s : Script D α} (hs : s.Quiet P) (hc : P c.memory) :
    ∃ a m, P m ∧ run h s c = some (a, c.withMemory m) := by
  unfold Script.Quiet at hs
  generalize hq : (fun _ : Fault => False) = q at hs
  induction hs generalizing c with
  | done a => exact ⟨a, c.memory, hc, rfl⟩
  | fail hf =>
    subst hq
    exact hf.elim
  | look _ ih => exact ih c.memory hc hc hq
  | @store q m next hm _ ih =>
    obtain ⟨a, m', hm', hrun⟩ := ih (c := c.withMemory m) hm hq
    exact ⟨a, m', hm', hrun⟩
  | ask hp => exact hp.elim

/-- The rest of the way of a strand: its cursor is where the rest begins. -/
structure OnLine (h : Host D) (P : D.Memory → Prop) (c : Core D) (sid : Nat) (is : List D.Instr) :
    Prop where
  ne_nil : is ≠ []
  straight : h.Straight P is
  cursor : ∃ s, c.strands[sid]? = some s ∧ s.cursor = is.head?

/-- A core whose strands, from the turn on, make up a queue, each with the rest of its way. -/
structure Lines (h : Host D) (P : D.Memory → Prop) (q : Nat) (c : Core D) (used : Nat)
    (queue : List (Nat × List D.Instr)) : Prop where
  slice : c.timeSlice = q
  used : c.turned.sliceUsed = used
  order : c.live.rotate c.turned.index = queue.map (·.1)
  nodup : c.live.Nodup
  onLine : ∀ x ∈ queue, c.OnLine h P x.1 x.2
  memory : P c.memory

section Completed

variable (h : Host D) (c : Core D) {sid : Nat}

lemma completed_some (sid : Nat) {j : D.Instr} (hj : h.wellFormed j = true) :
    c.completed h sid (some j) = ((c.updated sid fun s => { s with steps := s.steps + 1 }).updated sid
      fun s => { s with cursor := some j }).counted := by
  unfold completed followed
  rw [Option.filter_some, if_pos hj]

lemma completed_other (successor : Option D.Instr) {n : Nat} (hn : n ≠ sid) :
    (c.completed h sid successor).strands[n]? = c.strands[n]? := by
  unfold completed followed
  split <;> simp [Array.getElem?_modify, Ne.symm hn]

end Completed

namespace Lines

variable {q used sid : Nat} {i : D.Instr} {is : List D.Instr} {queue : List (Nat × List D.Instr)}

lemma used_lt (hq : 1 ≤ q) (hc : Lines h P q c used queue) : used < q := by
  have hused := hc.used
  rw [turned_sliceUsed, hc.slice] at hused
  split_ifs at hused <;> omega

lemma live_eq_nil_iff (hc : Lines h P q c used queue) : c.live = [] ↔ queue = [] := by
  rw [← List.rotate_eq_nil_iff (n := c.turned.index), hc.order, List.map_eq_nil_iff]

lemma load_pos (hc : Lines h P q c used queue) (hmore : queue ≠ []) : 0 < Queue.load queue := by
  obtain ⟨⟨sid, is⟩, queue, rfl⟩ := List.exists_cons_of_ne_nil hmore
  have hpos := List.length_pos_iff.2 (hc.onLine _ List.mem_cons_self).ne_nil
  rw [Queue.load_cons]
  exact Nat.add_pos_left hpos _

/-- The next step executes the first instruction of the front. -/
lemma course (hc : Lines h P q c used ((sid, i :: is) :: queue)) :
    ∃ strand m, P m ∧ Course h c sid strand i (c.turned.withMemory m) is.head? := by
  have hl : c.live ≠ [] := fun hl => by cases hc.live_eq_nil_iff.1 hl
  have hchosen : c.turned.atTurn = sid := by
    have hhead := List.head?_rotate (turned_index_lt hl)
    rw [hc.order] at hhead
    simp only [atTurn, turned_live, List.getD_eq_getElem?_getD, ← hhead, List.map_cons,
      List.head?_cons, Option.getD_some]
  have hfront := hc.onLine _ List.mem_cons_self
  obtain ⟨strand, hstrand, hcursor⟩ := hfront.cursor
  obtain ⟨hpasses, -⟩ := hfront.straight
  obtain ⟨_, m, hm, hrun⟩ := run_quiet (c := c.turned) h (hpasses.code strand.scope) hc.memory
  exact ⟨strand, m, hm, hchosen, hchosen ▸ atTurn_mem hl, hstrand, hcursor, hrun, hpasses.next hm⟩

/-- The strands behind the front are other ones. -/
lemma not_mem_behind (hc : Lines h P q c used ((sid, is) :: queue)) : sid ∉ queue.map (·.1) := by
  have hnodup : (c.live.rotate c.turned.index).Nodup := List.nodup_rotate.2 hc.nodup
  rw [hc.order, List.map_cons, List.nodup_cons] at hnodup
  exact hnodup.1

/-- What does not touch the other strands leaves those behind the front where they are. -/
lemma onLine_behind (hc : Lines h P q c used ((sid, is) :: queue)) {d : Core D}
    (hd : ∀ n, n ≠ sid → d.strands[n]? = c.strands[n]?) {x : Nat × List D.Instr} (hx : x ∈ queue) :
    d.OnLine h P x.1 x.2 := by
  have hline := hc.onLine x (List.mem_cons_of_mem _ hx)
  have hne : x.1 ≠ sid := fun heq => hc.not_mem_behind (heq ▸ List.mem_map_of_mem hx)
  exact ⟨hline.ne_nil, hline.straight, hd x.1 hne ▸ hline.cursor⟩

/-- The front at its end drops out of the queue. -/
lemma dropped (hq : 1 ≤ q) (hc : Lines h P q c used ((sid, [i]) :: queue)) {m : D.Memory} (hm : P m) :
    Lines h P q ((c.turned.withMemory m).completed h sid none) 0 queue := by
  have hl : c.live ≠ [] := fun hl => by cases hc.live_eq_nil_iff.1 hl
  have hfresh : ¬ c.timeSlice ≤ ((0 : Nat) : Int) := by
    rw [hc.slice]
    omega
  generalize hd : (c.turned.withMemory m).completed h sid none = d
  have hparts : d.live = c.live.erase sid ∧ d.sliceUsed = 0 ∧ d.timeSlice = c.timeSlice ∧
      d.index = if (c.live.erase sid).length ≤ c.turned.index then 0 else c.turned.index := by
    rw [← hd]
    exact ⟨rfl, rfl, rfl, rfl⟩
  obtain ⟨hlive, hused, hslice, hindex⟩ := hparts
  have hseat : d.turned.index = d.index := by
    have hin : d.live.length ≤ d.index → d.index = 0 := by
      rw [hlive, hindex]
      split_ifs
      · simp
      · omega
    simp only [turned_index, hslice, hused, hfresh, false_and, if_false, seat]
    split_ifs with hle
    · exact (hin hle).symm
    · rfl
  refine ⟨hslice.trans hc.slice, ?_, ?_, ?_, fun x hx => hc.onLine_behind ?_ hx, ?_⟩
  · simp [hslice, hused]
  · rw [hseat, hlive, hindex]
    exact rotate_erase hc.nodup (turned_index_lt hl) hc.order
  · exact hlive ▸ hc.nodup.erase sid
  · intro n hn
    rw [← hd]
    exact completed_other h _ none hn
  · rw [← hd]
    exact hm

/-- The turn stays with the front until its slice is used up, and then passes on. -/
lemma rotate_front (hc : Lines h P q c used ((sid, is) :: queue)) {d : Core D} (hlive : d.live = c.live)
    (hused : d.sliceUsed = used + 1) (hslice : d.timeSlice = q) (hindex : d.index = c.turned.index) :
    d.live.rotate d.turned.index =
      if used + 1 < q then sid :: queue.map (·.1) else queue.map (·.1) ++ [sid] := by
  have hl : c.live ≠ [] := fun hl => by cases hc.live_eq_nil_iff.1 hl
  have hseat : d.seat = c.turned.index := by
    unfold seat
    rw [hlive, hindex, if_neg (Nat.not_le.2 (turned_index_lt hl))]
  have hdone : d.timeSlice ≤ d.sliceUsed ↔ ¬ used + 1 < q := by
    rw [hslice, hused]
    omega
  rw [turned_index d]
  simp only [hdone, hseat, hlive]
  split_ifs with hrotate hmore hmore
  · exact absurd hmore hrotate.1
  · rw [List.rotate_mod, ← List.rotate_rotate, hc.order]
    simp
  · exact hc.order
  · -- The only strand in play stays where it is.
    have hone : queue = [] := by
      have hlength := congrArg List.length hc.order
      simp only [List.length_rotate, List.map_cons, List.length_cons, List.length_map] at hlength
      rw [← List.length_eq_zero_iff]
      have hshort : ¬ 1 < c.live.length := fun hlong => hrotate ⟨hmore, hlong⟩
      omega
    subst hone
    exact hc.order

/-- The front executes an instruction and keeps its turn, or goes to the back when its slice is used
up. -/
lemma wentOn {j : D.Instr} (hc : Lines h P q c used ((sid, i :: j :: is) :: queue))
    {m : D.Memory} (hm : P m) :
    Lines h P q ((c.turned.withMemory m).completed h sid (some j))
      (if used + 1 < q then used + 1 else 0)
      (if used + 1 < q then (sid, j :: is) :: queue else queue ++ [(sid, j :: is)]) := by
  have hfront := hc.onLine _ List.mem_cons_self
  obtain ⟨-, hstraight⟩ := hfront.straight
  have hcompleted := completed_some (h := h) (c.turned.withMemory m) sid hstraight.1.wellFormed
  generalize hd : (c.turned.withMemory m).completed h sid (some j) = d at hcompleted
  have hparts : d.live = c.live ∧ d.sliceUsed = used + 1 ∧ d.timeSlice = q ∧
      d.index = c.turned.index ∧ d.memory = m := by
    rw [hcompleted, ← hc.used, ← hc.slice]
    exact ⟨rfl, rfl, rfl, rfl, rfl⟩
  obtain ⟨hlive, hused, hslice, hindex, hmemory⟩ := hparts
  have hline : d.OnLine h P sid (j :: is) := by
    obtain ⟨s, hs, -⟩ := hfront.cursor
    have hs : c.strands[sid]? = some s := hs
    refine ⟨by simp, hstraight, { s with steps := s.steps + 1, cursor := some j }, ?_, rfl⟩
    rw [hcompleted]
    simp [Array.getElem?_modify, hs]
  have hothers {x : Nat × List D.Instr} (hx : x ∈ queue) : d.OnLine h P x.1 x.2 := by
    refine hc.onLine_behind (fun n hn => ?_) hx
    rw [← hd]
    exact completed_other h _ (some j) hn
  have horder : d.live.rotate d.turned.index =
      (if used + 1 < q then (sid, j :: is) :: queue else queue ++ [(sid, j :: is)]).map (·.1) := by
    rw [hc.rotate_front hlive hused hslice hindex]
    split_ifs <;> simp
  refine ⟨hslice, ?_, horder, hlive ▸ hc.nodup, ?_, hmemory ▸ hm⟩
  · rw [turned_sliceUsed d, hslice, hused]
    by_cases hmore : used + 1 < q
    · rw [if_neg (by omega), if_pos hmore]
    · rw [if_pos (by omega), if_neg hmore]
  · intro x hx
    split_ifs at hx
    · rcases List.mem_cons.1 hx with rfl | hx
      · exact hline
      · exact hothers hx
    · rcases List.mem_append.1 hx with hx | hx
      · exact hothers hx
      · rw [List.mem_singleton.1 hx]
        exact hline

/-- Before the first step the turn is on the first strand. -/
lemma turned_index_outset {c : Core D} (hq : 1 ≤ c.timeSlice) (hindex : c.index = 0)
    (hused : c.sliceUsed = 0) : c.turned.index = 0 := by
  have hfresh : ¬ (c.timeSlice ≤ c.sliceUsed ∧ 1 < c.live.length) := by
    rw [hused]
    omega
  rw [turned_index, if_neg hfresh, seat, hindex, ite_self]

/-- A strand that begins a straight line before the first step goes to the back. -/
lemma spawned (hq : 1 ≤ q) (hc : Lines h P q c 0 queue) (hindex : c.index = 0) (hused : c.sliceUsed = 0)
    (hline : h.Straight P (i :: is)) (scope : ScopeChoice D) (hm : P (c.furnished h scope)) :
    Lines h P q (c.spawned h i scope) 0 (queue ++ [(c.strands.size, i :: is)]) := by
  have hslice : 1 ≤ c.timeSlice := by
    rw [hc.slice]
    omega
  have hlive : c.live = queue.map (·.1) := by
    rw [← hc.order, turned_index_outset hslice hindex hused, List.rotate_zero]
  have hsize (sid : Nat) (hs : sid ∈ c.live) : sid < c.strands.size := by
    rw [hlive] at hs
    obtain ⟨x, hx, rfl⟩ := List.mem_map.1 hs
    obtain ⟨s, hs, -⟩ := (hc.onLine x hx).cursor
    exact (Array.getElem?_eq_some_iff.1 hs).1
  refine ⟨hc.slice, ?_, ?_, ?_, ?_, hm⟩
  · simp [hused]
  · rw [turned_index_outset (c := c.spawned h i scope) hslice hindex hused, List.rotate_zero,
      spawned_live, hlive, List.map_append]
    rfl
  · refine List.nodup_append.2 ⟨hc.nodup, by simp, ?_⟩
    intro sid hs size hmem
    rw [List.mem_singleton.1 hmem]
    exact Nat.ne_of_lt (hsize sid hs)
  · intro x hx
    rcases List.mem_append.1 hx with hx | hx
    · have hx' := hc.onLine x hx
      have hlt := hsize x.1 (hlive ▸ List.mem_map_of_mem hx)
      refine ⟨hx'.ne_nil, hx'.straight, ?_⟩
      rw [spawned_strands, Array.getElem?_push, if_neg (Nat.ne_of_lt hlt)]
      exact hx'.cursor
    · rw [List.mem_singleton.1 hx]
      refine ⟨by simp, hline, { cursor := some i, scope := c.place scope }, ?_, rfl⟩
      rw [spawned_strands, Array.getElem?_push, if_pos rfl]

/-- A step takes the queue to the next one. -/
theorem step (hq : 1 ≤ q) (hc : Lines h P q c used ((sid, i :: is) :: queue)) :
    ∃ strand m, Course h c sid strand i (c.turned.withMemory m) is.head? ∧ P m ∧
      Lines h P q ((c.turned.withMemory m).completed h sid is.head?)
        (Queue.served q used sid is queue).1 (Queue.served q used sid is queue).2 := by
  obtain ⟨strand, m, hm, hcourse⟩ := hc.course
  refine ⟨strand, m, hcourse, hm, ?_⟩
  unfold Queue.served
  cases is with
  | nil => exact hc.dropped hq hm
  | cons j is =>
    have hnext := hc.wentOn hm
    rw [if_neg (by simp)]
    split_ifs at hnext ⊢
    · exact hnext
    · exact hnext

end Lines

end Core
end Loom
