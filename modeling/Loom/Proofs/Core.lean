import Loom.Proofs.Script
import Loom.Proofs.StepOutcome

/-! The core of a run: its strands, whose turn it is, and the memory. One instruction takes one core to
the next, whatever the phase of the engine, the scheduler and the events; and choosing the strand at the
turn twice is choosing it once, which is why a stop before an instruction leaves no trace. -/
namespace Loom

/-- The part of a world that the next instruction depends on. -/
@[ext] structure Core (D : Dialect) where
  strands : Array (Strand D)
  live : List Nat
  index : Nat
  sliceUsed : Nat
  timeSlice : Int
  memory : D.Memory

namespace Core

variable {D : Dialect}

def seat (c : Core D) : Nat := if c.live.length ≤ c.index then 0 else c.index

@[simps] def turned (c : Core D) : Core D :=
  { c with
    index := if c.timeSlice ≤ c.sliceUsed ∧ 1 < c.live.length then (c.seat + 1) % c.live.length
      else c.seat
    sliceUsed := if c.timeSlice ≤ c.sliceUsed then 0 else c.sliceUsed }

def atTurn (c : Core D) : Nat := c.live.getD c.index 0

@[simps] def updated (c : Core D) (sid : Nat) (f : Strand D → Strand D) : Core D :=
  { c with strands := c.strands.modify sid f }

@[simps] def withMemory (c : Core D) (memory : D.Memory) : Core D := { c with memory }

@[simps] def counted (c : Core D) : Core D := { c with sliceUsed := c.sliceUsed + 1 }

@[simps] def without (c : Core D) (sid : Nat) : Core D :=
  { c with
    live := c.live.erase sid
    sliceUsed := 0
    index := if (c.live.erase sid).length ≤ c.index then 0 else c.index }

/-- The scope of a new strand. -/
def place (c : Core D) : ScopeChoice D → Nat
  | .shared other => ((c.strands[other]?).map (·.scope)).getD c.strands.size
  | _ => c.strands.size

def furnished (h : Host D) (c : Core D) : ScopeChoice D → D.Memory
  | .fresh => h.install c.memory c.strands.size h.empty
  | .given contents => h.install c.memory c.strands.size contents
  | .shared _ => c.memory

/-- A core with a further strand in play. -/
@[simps] def spawned (h : Host D) (c : Core D) (i : D.Instr) (scope : ScopeChoice D) : Core D :=
  { c with
    strands := c.strands.push { cursor := some i, scope := c.place scope }
    live := c.live ++ [c.strands.size]
    memory := c.furnished h scope }

/-- How a request for a further strand is answered. -/
def answer (h : Host D) (c : Core D) (entry : Option D.Instr) (scope : ScopeChoice D) :
    Except Fault Reply × Core D :=
  match World.derivedEntry h entry with
  | .error f => (.error f, c)
  | .ok i =>
    (.ok (.strand { sid := c.strands.size, steps := 0, instruction := some (h.label i) }),
      c.spawned h i scope)

/-- Run a script that asks for nothing but further strands; none when it asks for more, or fails. -/
def run (h : Host D) : Script D α → Core D → Option (α × Core D)
  | .done a, c => some (a, c)
  | .fail _, _ => none
  | .look next, c => run h (next c.memory) c
  | .store memory next, c => run h next (c.withMemory memory)
  | .ask (.spawn entry scope) next, c => run h (next (c.answer h entry scope).1) (c.answer h entry scope).2
  | .ask _ _, _ => none

lemma run_bind (h : Host D) (s : Script D α) (k : α → Script D β) (c : Core D) :
    run h (s >>= k) c = (run h s c).bind fun x => run h (k x.1) x.2 := by
  change run h (s.bind k) c = _
  induction s generalizing c with
  | done a => rfl
  | fail f => rfl
  | look next ih => exact ih c.memory c
  | store memory next ih => exact ih (c.withMemory memory)
  | ask r next ih =>
    cases r with
    | spawn entry scope => exact ih (c.answer h entry scope).1 (c.answer h entry scope).2
    | _ => rfl

/-- What becomes of a strand whose instruction was completed. Without a sound successor it retires. -/
def followed (h : Host D) (c : Core D) (sid : Nat) (successor : Option D.Instr) : Core D :=
  match successor.filter h.wellFormed with
  | some j => (c.updated sid fun s => { s with cursor := some j }).counted
  | none => (c.updated sid fun s => { s with cursor := none }).without sid

/-- The core after an instruction was completed. -/
def completed (h : Host D) (c : Core D) (sid : Nat) (successor : Option D.Instr) : Core D :=
  (c.updated sid fun s => { s with steps := s.steps + 1 }).followed h sid successor

/-- One instruction of the strand at the turn: which one it is, and the core it leads to. -/
def step (h : Host D) (c : Core D) : Option ((Nat × D.Instr) × Core D) :=
  if c.live = [] then none
  else do
    let sid := c.turned.atTurn
    let strand ← c.strands[sid]?
    let i ← strand.cursor
    let (_, d) ← run h (h.code i strand.scope) c.turned
    let successor ← (h.next d.memory i).toOption
    some ((sid, i), d.completed h sid successor)

/-- Every strand in play is there once and has an instruction to execute. -/
structure Alive (c : Core D) : Prop where
  nodup : c.live.Nodup
  cursor : ∀ sid ∈ c.live, ∃ s, c.strands[sid]? = some s ∧ s.cursor.isSome

lemma turned_index_lt {c : Core D} (hl : c.live ≠ []) : c.turned.index < c.live.length := by
  have hpos : 0 < c.live.length := List.length_pos_iff.2 hl
  simp only [turned_index, seat]
  split_ifs
  · exact Nat.mod_lt _ hpos
  · exact Nat.mod_lt _ hpos
  · exact hpos
  · omega

lemma turned_seat {c : Core D} (hl : c.live ≠ []) : c.turned.seat = c.turned.index := by
  have hlt := turned_index_lt hl
  unfold seat
  rw [turned_live, if_neg (by omega)]

/-- Choosing the strand at the turn twice is choosing it once. -/
theorem turned_turned {c : Core D} (hq : 1 ≤ c.timeSlice) : c.turned.turned = c.turned := by
  have hunused : ¬ c.timeSlice ≤ c.turned.sliceUsed := by
    rw [turned_sliceUsed]
    split_ifs with hs
    · simp
      omega
    · exact hs
  have hseat : c.turned.seat = c.turned.index := by
    by_cases hl : c.live = []
    · simp [seat, hl]
    · exact turned_seat hl
  ext1
  · rfl
  · rfl
  · rw [turned_index, turned_timeSlice, if_neg (fun h => hunused h.1), hseat]
  · rw [turned_sliceUsed, turned_timeSlice, if_neg hunused]
  · rfl
  · rfl

/-- A step does not depend on whether the strand at the turn was chosen before. -/
theorem step_turned (h : Host D) {c : Core D} (hq : 1 ≤ c.timeSlice) : step h c.turned = step h c := by
  unfold step
  rw [turned_turned hq]
  rfl

/-- Steps in a row: the instructions executed, and the core they lead to. -/
inductive Leads (h : Host D) : Core D → List (Nat × D.Instr) → Core D → Prop where
  | nil (c : Core D) : Leads h c [] c
  | cons {c d e : Core D} {x : Nat × D.Instr} {xs : List (Nat × D.Instr)} (first : c.step h = some (x, d))
      (rest : Leads h d xs e) : Leads h c (x :: xs) e

lemma Leads.snoc {h : Host D} {c d e : Core D} {x : Nat × D.Instr} {xs : List (Nat × D.Instr)}
    (hxs : Leads h c xs d) (hx : d.step h = some (x, e)) : Leads h c (xs ++ [x]) e := by
  induction hxs with
  | nil c => exact .cons hx (.nil e)
  | cons first _ ih => exact .cons first (ih hx)

/-- Of two rows of steps from one core the longer goes on where the shorter ends. -/
theorem Leads.extends {h : Host D} {c d e : Core D} {xs ys : List (Nat × D.Instr)}
    (hxs : Leads h c xs d) (hys : Leads h c ys e) (hle : xs.length ≤ ys.length) :
    ∃ zs, ys = xs ++ zs ∧ Leads h d zs e := by
  induction hxs generalizing ys with
  | nil c => exact ⟨ys, rfl, hys⟩
  | cons first _ ih =>
    cases hys with
    | nil => simp at hle
    | cons first' rest' =>
      rw [first] at first'
      cases first'
      obtain ⟨zs, hzs, hlead⟩ := ih rest' (by simpa using hle)
      exact ⟨zs, by rw [hzs]; rfl, hlead⟩

namespace Alive

variable {h : Host D} {c : Core D}

lemma lt_size (hc : c.Alive) {sid : Nat} (hs : sid ∈ c.live) : sid < c.strands.size := by
  obtain ⟨s, hs, -⟩ := hc.cursor sid hs
  exact (Array.getElem?_eq_some_iff.1 hs).1

lemma withMemory (hc : c.Alive) (memory : D.Memory) : (c.withMemory memory).Alive :=
  ⟨hc.nodup, hc.cursor⟩

lemma turned (hc : c.Alive) : c.turned.Alive := ⟨hc.nodup, hc.cursor⟩

lemma spawned (hc : c.Alive) (i : D.Instr) (scope : ScopeChoice D) : (c.spawned h i scope).Alive where
  nodup := by
    refine List.nodup_append.2 ⟨hc.nodup, by simp, ?_⟩
    intro sid hs size hsize
    rw [List.mem_singleton.1 hsize]
    exact Nat.ne_of_lt (hc.lt_size hs)
  cursor sid hs := by
    rw [spawned_strands, Array.getElem?_push]
    rcases List.mem_append.1 hs with hs | hs
    · rw [if_neg (Nat.ne_of_lt (hc.lt_size hs))]
      exact hc.cursor sid hs
    · rw [if_pos (List.mem_singleton.1 hs)]
      exact ⟨_, rfl, rfl⟩

lemma answer (hc : c.Alive) (entry : Option D.Instr) (scope : ScopeChoice D) :
    (c.answer h entry scope).2.Alive := by
  unfold Core.answer
  split
  · exact hc
  · exact hc.spawned _ scope

/-- Further strands do no harm to those in play. -/
lemma run {s : Script D α} {a : α} {d : Core D} (hc : c.Alive) (hrun : run h s c = some (a, d)) :
    d.Alive ∧ c.live <+: d.live ∧ d.timeSlice = c.timeSlice := by
  induction s generalizing c with
  | done b =>
    cases hrun
    exact ⟨hc, List.prefix_refl _, rfl⟩
  | fail f => cases hrun
  | look next ih => exact ih c.memory hc hrun
  | store memory next ih => exact ih (c := c.withMemory memory) (hc.withMemory memory) hrun
  | ask r next ih =>
    cases r with
    | spawn entry scope =>
      obtain ⟨hd, hlive, hslice⟩ := ih _ (hc.answer entry scope) hrun
      have hprefix : c.live <+: (c.answer h entry scope).2.live := by
        unfold Core.answer
        split
        · exact List.prefix_refl _
        · exact List.prefix_append _ _
      have hsame : (c.answer h entry scope).2.timeSlice = c.timeSlice := by
        unfold Core.answer
        split <;> rfl
      exact ⟨hd, hprefix.trans hlive, hslice.trans hsame⟩
    | _ => cases hrun

/-- Changing a strand other than by taking its instruction away. -/
lemma updated (hc : c.Alive) (sid : Nat) {f : Strand D → Strand D}
    (hf : ∀ s, s.cursor.isSome → (f s).cursor.isSome) : (c.updated sid f).Alive where
  nodup := hc.nodup
  cursor sid' hs := by
    obtain ⟨s, hs, hcursor⟩ := hc.cursor sid' hs
    rw [updated_strands, Array.getElem?_modify, hs]
    split_ifs
    · exact ⟨f s, rfl, hf s hcursor⟩
    · exact ⟨s, rfl, hcursor⟩

lemma followed (hc : c.Alive) (sid : Nat) (successor : Option D.Instr) :
    (c.followed h sid successor).Alive := by
  unfold Core.followed
  split
  next j _ =>
    have hmoved := hc.updated sid (f := fun s => { s with cursor := some j }) fun _ _ => rfl
    exact ⟨hmoved.nodup, hmoved.cursor⟩
  next =>
    refine ⟨hc.nodup.erase sid, fun sid' hs => ?_⟩
    obtain ⟨hne, hmem⟩ := hc.nodup.mem_erase_iff.1 hs
    obtain ⟨s, hs, hcursor⟩ := hc.cursor sid' hmem
    refine ⟨s, ?_, hcursor⟩
    simp [Array.getElem?_modify, hs, Ne.symm hne]

end Alive

/-- A program whose instructions, on memories with `P`, return and ask for nothing but further strands;
asking for a successor returns too, and the test for a stop just looks. -/
structure Serene (h : Host D) (P : D.Memory → Prop) : Prop where
  code : ∀ i scope (c : Core D), P c.memory →
    ∃ d, run h (h.code i scope) c = some ((), d) ∧ P d.memory
  next : ∀ {m} i, P m → ∃ successor, h.next m i = .ok successor
  breaks : ∀ {m} i, P m → ∃ b, (h.breaks i).ponder m = some b
  install : ∀ {m} n contents, P m → P (h.install m n contents)

/-- What a core must be for the next instruction to be executed. -/
structure Ready (P : D.Memory → Prop) (c : Core D) : Prop where
  alive : c.Alive
  memory : P c.memory
  slice : 1 ≤ c.timeSlice

lemma Ready.turned {P : D.Memory → Prop} {c : Core D} (hc : c.Ready P) : c.turned.Ready P :=
  ⟨hc.alive.turned, hc.memory, hc.slice⟩

lemma atTurn_mem {c : Core D} (hl : c.live ≠ []) : c.turned.atTurn ∈ c.live := by
  have hlt := turned_index_lt hl
  have hget : c.turned.atTurn = c.live[c.turned.index] := by
    simp only [atTurn, turned_live, List.getD_eq_getElem?_getD, List.getElem?_eq_getElem hlt,
      Option.getD_some]
  rw [hget]
  exact List.getElem_mem hlt

/-- The parts of one step. -/
structure Course (h : Host D) (c : Core D) (sid : Nat) (strand : Strand D) (i : D.Instr) (d : Core D)
    (successor : Option D.Instr) : Prop where
  chosen : c.turned.atTurn = sid
  mem : sid ∈ c.live
  found : c.strands[sid]? = some strand
  cursor : strand.cursor = some i
  ran : run h (h.code i strand.scope) c.turned = some ((), d)
  next : h.next d.memory i = .ok successor

lemma Course.step {h : Host D} {c d : Core D} {sid : Nat} {strand : Strand D} {i : D.Instr}
    {successor : Option D.Instr} (hc : Course h c sid strand i d successor) :
    c.step h = some ((sid, i), d.completed h sid successor) := by
  have hl : c.live ≠ [] := List.ne_nil_of_mem hc.mem
  have hnext : (h.next d.memory i).toOption = some successor := Act.except_toOption_eq_some.mpr hc.next
  unfold Core.step
  simp only [hl, if_false, hc.chosen, hc.found, hc.cursor, hc.ran, Option.bind_eq_bind,
    Option.bind_some, hnext]

lemma Ready.completed {h : Host D} {P : D.Memory → Prop} {c : Core D} (hc : c.Ready P) (sid : Nat)
    (successor : Option D.Instr) : (c.completed h sid successor).Ready P := by
  have hstepped : (c.updated sid fun s => { s with steps := s.steps + 1 }).Alive :=
    hc.alive.updated sid fun _ hs => hs
  refine ⟨hstepped.followed sid successor, ?_, ?_⟩
  · unfold Core.completed followed
    split <;> exact hc.memory
  · unfold Core.completed followed
    split <;> exact hc.slice

/-- While strands are in play, a program whose instructions return has a next step. -/
theorem Ready.course {h : Host D} {P : D.Memory → Prop} (hh : Serene h P) {c : Core D}
    (hc : c.Ready P) (hl : c.live ≠ []) :
    ∃ sid strand i d successor, Course h c sid strand i d successor ∧ d.Ready P := by
  have hmem := atTurn_mem hl
  obtain ⟨strand, hstrand, hsome⟩ := hc.alive.cursor _ hmem
  obtain ⟨i, hi⟩ := Option.isSome_iff_exists.1 hsome
  obtain ⟨d, hrun, hd⟩ := hh.code i strand.scope c.turned hc.memory
  obtain ⟨successor, hnext⟩ := hh.next i hd
  obtain ⟨halive, -, hslice⟩ := hc.alive.turned.run hrun
  exact ⟨_, strand, i, d, successor, ⟨rfl, hmem, hstrand, hi, hrun, hnext⟩, halive, hd,
    hslice ▸ hc.slice⟩

end Core

end Loom
