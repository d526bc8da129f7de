import Mathlib.Logic.Relation
import Loom.Proofs.OrderlyBlocks
import Loom.Proofs.Practice

/-! Strands move onward. An instruction that has been executed is not executed again unless the program leads
back to it: once its code has returned, the cursor of its strand stands on its successor or nowhere, and what
is begun on a strand is what the last completed instruction leads to. -/
namespace Loom

/-- The program leads from one instruction to another: in some memory the one has the other as its
successor. -/
def Host.Leads {D : Dialect} (h : Host D) (P : D.Memory → Prop) (i j : D.Instr) : Prop :=
  ∃ m, P m ∧ h.next m i = .ok (some j)

namespace Engine

variable {D : Dialect} {e : Engine D}

/-- The small changes add no strand and move no cursor, but to nowhere. -/
lemma Shift.cursor {p : Request D → Prop} {steps : Prop} {e' : Engine D} (h : e.Shift p steps e') :
    e'.strands.size = e.strands.size ∧ ∀ n i, e'.cursor n = some i → e.cursor n = some i := by
  cases h with
  | winding _ h => cases h <;> exact ⟨rfl, fun _ _ => id⟩
  | @blanked sid hp =>
    refine ⟨by simp [movedTo, updateStrand], fun n i hi => ?_⟩
    rw [cursor_movedTo] at hi
    split_ifs at hi
    · simp at hi
    · exact hi
  | _ => exact ⟨rfl, fun _ _ => id⟩

end Engine

namespace World

variable {D : Dialect}

open Act (Abides)

/-- The instructions that a strand has completed, in order. -/
def doneBy (sid : Nat) (completions : List (Nat × D.Instr)) : List D.Instr :=
  (completions.filter (·.1 = sid)).map (·.2)

lemma doneBy_concat (sid slot : Nat) (i : D.Instr) (completions : List (Nat × D.Instr)) :
    doneBy sid (completions ++ [(slot, i)]) =
      if slot = sid then doneBy sid completions ++ [i] else doneBy sid completions := by
  unfold doneBy
  split_ifs with h <;> simp [h]

/-- Every instruction that was begun stands in the relation `R` to those that its strand had completed by
then. -/
def Begun (R : List D.Instr → D.Instr → Prop) (ds : List (Deed D)) : Prop :=
  ∀ pre sid j phase manual post, ds = pre ++ .began sid j phase manual :: post →
    R (doneBy sid (pre.filterMap Deed.completion?)) j

/-- A deed is put on record; if it is a begin, it must be right. -/
lemma Begun.concat {R : List D.Instr → D.Instr → Prop} {ds : List (Deed D)} (h : Begun R ds) {d : Deed D}
    (hd : ∀ sid j, d.attempt? = some (sid, j) → R (doneBy sid (ds.filterMap Deed.completion?)) j) :
    Begun R (ds ++ [d]) := by
  intro pre sid j phase manual post heq
  rcases List.eq_nil_or_concat post with rfl | ⟨post, last, rfl⟩
  · obtain ⟨rfl, rfl⟩ : ds = pre ∧ d = .began sid j phase manual := by simpa using List.append_inj' heq rfl
    exact hd sid j rfl
  · rw [List.concat_eq_append, ← List.cons_append, ← List.append_assoc] at heq
    exact h pre sid j phase manual post (List.append_inj' heq rfl).1

/-- What is under the cursor of a strand stands in the relation `R` to what the strand has completed, and so
did all that was ever begun. -/
structure Onward (R : List D.Instr → D.Instr → Prop) (P : D.Memory → Prop) (w : World D) : Prop where
  born : ∀ x ∈ w.attempts, x.1 < w.engine.strands.size
  unborn : ∀ sid, w.engine.strands.size ≤ sid → doneBy sid w.completions = []
  ahead : ∀ sid j, w.engine.cursor sid = some j → R (doneBy sid w.completions) j
  begun : Begun R w.deeds.toList
  memory : P w.memory

namespace Onward

variable {R : List D.Instr → D.Instr → Prop} {P : D.Memory → Prop} {h : Host D} {w v : World D}

/-- Nothing is executed, and no cursor moves but to nowhere. -/
lemma of_same (hw : w.Onward R P) (hdeeds : v.deeds = w.deeds)
    (hsize : v.engine.strands.size = w.engine.strands.size)
    (hcursor : ∀ n i, v.engine.cursor n = some i → w.engine.cursor n = some i) (hm : P v.memory) :
    v.Onward R P where
  born := by
    rw [attempts, hdeeds, hsize]
    exact hw.born
  unborn := by
    rw [completions, hdeeds, hsize]
    exact hw.unborn
  ahead sid j hj := by
    rw [completions, hdeeds]
    exact hw.ahead sid j (hcursor sid j hj)
  begun := by
    rw [hdeeds]
    exact hw.begun
  memory := hm

/-- What is put on record tells of no instruction. -/
lemma recorded (hw : w.Onward R P) {d : Deed D} (hattempt : d.attempt? = none)
    (hcompletion : d.completion? = none) : (w.recorded d).Onward R P where
  born := by simpa [hattempt] using hw.born
  unborn := by simpa [hcompletion] using hw.unborn
  ahead := by simpa [hcompletion] using hw.ahead
  begun := by
    rw [recorded_deeds, Array.toList_push]
    exact hw.begun.concat fun sid j hj => by simp [hattempt] at hj
  memory := hw.memory

lemma emitted (hw : w.Onward R P) (what : Happening) : (w.emitted what).Onward R P :=
  (hw.recorded (d := .emitted (w.event what)) rfl rfl).of_same rfl rfl (fun _ _ => id) hw.memory

/-- An instruction is begun that is under the cursor. -/
lemma began (hw : w.Onward R P) {slot : Nat} {i : D.Instr} (manual : Bool)
    (hcursor : w.engine.cursor slot = some i) :
    (w.recorded (.began slot i w.engine.phase manual)).Onward R P where
  born x hx := by
    rw [attempts, recorded_deeds, Deed.tell_push] at hx
    rcases List.mem_append.1 hx with hx | hx
    · exact hw.born x hx
    · obtain rfl : x = (slot, i) := by simpa [Deed.attempt?] using hx
      exact Engine.lt_size_of_cursor hcursor
  unborn := by simpa [Deed.completion?] using hw.unborn
  ahead := by simpa [Deed.completion?] using hw.ahead
  begun := by
    rw [recorded_deeds, Array.toList_push]
    refine hw.begun.concat ?_
    rintro sid j ⟨⟩
    exact hw.ahead slot i hcursor
  memory := hw.memory

/-- A strand is new to all instructions. -/
lemma peopled (hw : w.Onward R P) (hR : ∀ j, R [] j)
    (hinstall : ∀ {m} n contents, P m → P (h.install m n contents))
    (cursor : Option D.Instr) (scope : ScopeChoice D) : (w.peopled h cursor scope).Onward R P where
  born x hx := by
    have hlt := hw.born x hx
    simp
    omega
  unborn sid hsid := by
    simp at hsid
    exact hw.unborn sid (by omega)
  ahead sid j hj := by
    rw [peopled_engine, Engine.cursor_withStrand] at hj
    split_ifs at hj with hnew
    · have hnone := hw.unborn sid hnew.ge
      rw [completions, peopled_deeds]
      rw [completions] at hnone
      exact hnone ▸ hR j
    · exact hw.ahead sid j hj
  begun := hw.begun
  memory := newMemory_kept w hinstall scope hw.memory

/-- An instruction was completed, and its strand moves to where it leads. -/
lemma moved (hw : w.Onward R P) {slot : Nat} {i : D.Instr} (hbegun : (slot, i) ∈ w.attempts)
    {cursor : Option D.Instr} (hcursor : ∀ j ∈ cursor, R (doneBy slot w.completions ++ [i]) j) :
    ((w.completed slot i).altered (·.movedTo slot cursor)).Onward R P := by
  have hsize : ((w.completed slot i).altered (·.movedTo slot cursor)).engine.strands.size =
      w.engine.strands.size := by simp [Engine.movedTo, Engine.stepped, Engine.updateStrand]
  have hdone : ((w.completed slot i).altered (·.movedTo slot cursor)).completions =
      w.completions ++ [(slot, i)] := by simp [Deed.completion?]
  have hslot : slot < w.engine.strands.size := hw.born _ hbegun
  refine ⟨fun x hx => ?_, fun sid hsid => ?_, fun sid j hj => ?_, ?_, hw.memory⟩
  · rw [hsize]
    exact hw.born x (by simpa [Deed.attempt?] using hx)
  · rw [hsize] at hsid
    rw [hdone, doneBy_concat, if_neg (by omega)]
    exact hw.unborn sid hsid
  · rw [altered_engine, Engine.cursor_movedTo, completed_engine, Engine.cursor_stepped] at hj
    rw [hdone, doneBy_concat]
    split_ifs at hj with hsid
    · subst hsid
      rw [if_pos rfl]
      exact hcursor j (Option.bind_eq_some_iff.1 hj).choose_spec.2
    · rw [if_neg hsid]
      exact hw.ahead sid j hj
  · rw [altered_deeds, completed_deeds, Array.toList_push]
    exact hw.begun.concat (by simp [Deed.attempt?])

/-- An instruction was completed, and asking for its successor does not fail. -/
lemma followed (hw : w.Onward R P) (hnext : ∀ m i f, P m → h.next m i ≠ .error f) {slot : Nat} {i : D.Instr}
    (hbegun : (slot, i) ∈ w.attempts) (hR : ∀ j, h.Leads P i j → R (doneBy slot w.completions ++ [i]) j) :
    ((w.completed slot i).followed h slot i).2.Onward R P := by
  unfold World.followed
  split
  next f hf => exact absurd hf (hnext _ i f hw.memory)
  next => exact hw.moved hbegun nofun
  next j hj =>
    split_ifs
    · refine hw.moved hbegun ?_
      rintro _ ⟨⟩
      exact hR j ⟨_, hw.memory, hj⟩
    · exact hw.moved hbegun nofun

lemma easy (hR : ∀ j, R [] j) (hinstall : ∀ {m} n contents, P m → P (h.install m n contents)) :
    Easy h P (Onward R P) where
  noted _ _ _ hw := hw.of_same rfl rfl (fun _ _ => id) hw.memory
  told _ hw := hw.emitted _
  disarmed hw := hw.of_same rfl rfl (fun _ _ => id) hw.memory
  deferred _ _ hw := (hw.recorded rfl rfl).of_same rfl rfl (fun _ _ => id) hw.memory
  aside hf hw := hw.of_same rfl (congrArg Array.size hf.strands) (fun n i => by
    unfold Engine.cursor Engine.strand?
    rw [altered_engine, hf.strands]
    exact id) hw.memory
  peopled cursor scope hw := hw.peopled hR hinstall cursor scope
  memory hw := hw.memory
  stored hw hm := hw.of_same rfl rfl (fun _ _ => id) hm
  announced _ _ _ hw := hw.emitted _
  popped _ hw := hw.of_same rfl rfl (fun _ _ => id) hw.memory
  refused _ hw := hw.of_same rfl rfl (fun _ _ => id) hw.memory
  delivered _ hw := hw.of_same rfl rfl (fun _ _ => id) hw.memory

lemma shifted {p : Request D → Prop} {steps : Prop} {f : Engine D → Engine D}
    (hf : w.engine.Shift p steps (f w.engine)) (hw : w.Onward R P) : (w.altered f).Onward R P :=
  hw.of_same rfl hf.cursor.1 hf.cursor.2 hw.memory

/-- An instruction follows on those completed before it if the last of them leads to it. -/
def Next (h : Host D) (P : D.Memory → Prop) (done : List D.Instr) (j : D.Instr) : Prop :=
  ∀ i, done.getLast? = some i → h.Leads P i j

/-- An instruction lies ahead of those completed before it if all of them lead to it in the end. -/
def Ahead (h : Host D) (P : D.Memory → Prop) (done : List D.Instr) (j : D.Instr) : Prop :=
  ∀ i ∈ done, Relation.TransGen (h.Leads P) i j

lemma next_nil (j : D.Instr) : Next h P [] j := by simp [Next]

lemma ahead_nil (j : D.Instr) : Ahead h P [] j := by simp [Ahead]

section Serve

variable (hnext : ∀ m i f, P m → h.next m i ≠ .error f) {fit : D.Clock → Prop}

include hnext

/-- Whatever is asked for, what is begun follows on what was completed. -/
lemma practice_next (hh : h.Asks P fun _ => True) :
    Practice h (fun _ => True) True True False (Onward (Next h P) P) := by
  have heasy : Easy h P (Onward (Next h P) P) := easy next_nil hh.install
  refine heasy.practice (fun hf hw => hw.shifted hf) hh trivial fun sid manual hserve => ?_
  refine advance_abides (J := fun _ _ => Onward (Next h P) P) (fun manual hcursor hw => hw.began manual hcursor)
    (fun _ i scope => heasy.runScript hserve (hh.code i scope)) id (fun {w slot i} hbegun hw => ?_) sid sid manual
  refine hw.followed hnext hbegun fun j hj k hk => ?_
  obtain rfl : i = k := by simpa using hk
  exact hj

/-- While the code of an instruction takes no step, nothing is completed; so what was under the cursor when it
began is what it leads on from. -/
lemma practice_ahead (hh : h.Asks P fun _ => True)
    (hcode : ∀ i scope, (h.code i scope).Asks P fun r => ¬ r.Steps)
    (hfarewell : ∀ f, (h.farewell f).Asks P fun r => ¬ r.Steps) (hs : h.scheduler.Stays fit) :
    Practice h (fun _ => True) True True False fun w => Onward (Ahead h P) P w ∧ fit w.clock := by
  have heasy : Easy h P fun w => Onward (Ahead h P) P w ∧ fit w.clock := (easy ahead_nil hh.install).fitting hs
  refine heasy.practice (fun hf hw => ⟨hw.1.shifted hf, hw.2⟩) hh trivial fun {rounds depth} sid manual _ => ?_
  have hinner (slot : Nat) (i : D.Instr) :=
    heasy.throughout fun completions => Ahead h P (doneBy slot completions) i
  refine advance_abides (J := fun slot i w => (Onward (Ahead h P) P w ∧ fit w.clock) ∧
      Ahead h P (doneBy slot w.completions) i)
    (fun {w slot i} manual hcursor hw => ⟨⟨hw.1.began manual hcursor, hw.2⟩, ?_⟩)
    (fun slot i scope => ?_) (·.1) (fun {w slot i} hbegun hw => ⟨?_, ?_⟩) sid sid manual
  · simpa [Deed.completion?] using hw.1.ahead slot i hcursor
  · have hcalm : Practice h (fun r => ¬ r.Steps) False False False _ := (hinner slot i).calm
      (fun hf hw => ⟨⟨hw.1.1.shifted hf, hw.1.2⟩, hw.2⟩) hs.defers (·.1.2) hfarewell id id
    exact (hinner slot i).runScript (hcalm.serve rounds depth).1 (hcode i scope)
  · refine hw.1.1.followed hnext hbegun fun j hj k hk => ?_
    rcases List.mem_append.1 hk with hk | hk
    · exact (hw.2 k hk).tail hj
    · obtain rfl : k = i := by simpa using hk
      exact .single hj
  · unfold World.followed
    split
    · exact hw.1.2
    · exact hw.1.2
    · split_ifs <;> exact hw.1.2

end Serve

end Onward

section

variable {P : D.Memory → Prop} {h : Host D} (hh : h.Asks P fun _ => True)
  (hnext : ∀ m i f, P m → h.next m i ≠ .error f)

include hh hnext

/-- When the code of an instruction has returned, its strand is moved to the successor, or to nowhere. -/
lemma advance_moves (rounds depth : Nat) {w v : World D} (hm : P w.memory) {slot : Nat} {strand : Strand D}
    {i : D.Instr} (sid : Int) (manual : Bool) (hstrand : w.engine.strand? slot = some strand)
    (hcursor : strand.cursor = some i)
    (hcode : (runScript (serve h rounds depth) (h.code i strand.scope)).outcome
      (w.recorded (.began slot i w.engine.phase manual)) = (.ok (), v)) :
    (advance h (runScript (serve h rounds depth)) slot sid manual).Ensures w fun _ u =>
      u.engine.cursor slot = none ∨ ∃ j, h.next v.memory i = .ok (some j) ∧ u.engine.cursor slot = some j := by
  have hmemory : P v.memory := by
    have hrun := runScript_abides (I := fun w => P w.memory) id (fun _ hm => hm)
      (fun r _ => serve_memory hh rounds depth r) ((hh.code i strand.scope).mono fun f _ => f.passes_any)
      (w.recorded (.began slot i w.engine.phase manual)) hm
    rw [Act.Ensures, hcode] at hrun
    exact hrun.state
  have hmoved (cursor : Option D.Instr) :
      ((v.completed slot i).altered (·.movedTo slot cursor)).engine.cursor slot = none ∨
        ((v.completed slot i).altered (·.movedTo slot cursor)).engine.cursor slot = cursor := by
    rw [altered_engine, Engine.cursor_movedTo, if_pos rfl]
    cases (v.completed slot i).engine.strand? slot
    · exact .inl rfl
    · exact .inr rfl
  unfold Act.Ensures
  rw [advance_outcome, hstrand]
  dsimp only
  rw [hcursor]
  dsimp only
  rw [hcode]
  dsimp only
  unfold followed
  rw [completed_memory]
  rcases hsucc : h.next v.memory i with f | _ | j
  · exact absurd hsucc (hnext _ i f hmemory)
  · exact .inl ((hmoved none).elim id id)
  · dsimp only
    split_ifs
    · exact (hmoved (some j)).imp id fun hj => ⟨j, rfl, hj⟩
    · exact .inl ((hmoved none).elim id id)

end

variable {h : Host D} {P : D.Memory → Prop} {R : List D.Instr → D.Instr → Prop} {w : World D}

lemma Fresh.onward {fit : D.Clock → Prop} (hw : Fresh fit P w) : w.Onward R P := by
  obtain ⟨run, settings, hmake⟩ := hw.engine
  have hstrands : w.engine.strands = #[] := by rw [Engine.eq_of_make hmake]
  refine ⟨?_, ?_, ?_, ?_, hw.memory⟩
  · simp [hw.deeds]
  · simp [hw.deeds, doneBy]
  · simp [Engine.cursor, Engine.strand?, hstrands]
  · rw [hw.deeds]
    exact fun pre sid j phase manual post heq => absurd heq (by simp)

/-- An instruction is executed once for each time that its strand comes to it, as long as asking for a
successor does not fail. When its code has returned, the cursor of the strand is its successor, or nothing.
So in every run, whatever the program does and whatever went wrong before, what is begun on a strand is what
the last completed instruction leads to; and if neither the code of instructions nor a farewell takes a step
and the scheduler fires none while taking one, all the instructions completed before lead to it in the end. -/
theorem executed_once_per_visit (hh : h.Asks P fun _ => True)
    (hnext : ∀ m i f, P m → h.next m i ≠ .error f) (rounds depth : Nat) :
    (∀ w : World D, P w.memory → ∀ slot sid manual strand i v, w.engine.strand? slot = some strand →
      strand.cursor = some i →
      (runScript (serve h rounds depth) (h.code i strand.scope)).outcome
        (w.recorded (.began slot i w.engine.phase manual)) = (.ok (), v) →
      (advance h (runScript (serve h rounds depth)) slot sid manual).Ensures w fun _ u =>
        u.engine.cursor slot = none ∨
          ∃ j, h.next v.memory i = .ok (some j) ∧ u.engine.cursor slot = some j) ∧
    ∀ (fit : D.Clock → Prop) (w : World D), Fresh fit P w → ∀ (moves : List (Move D)) pre sid j phase manual post,
      (w.replay h rounds depth moves).deeds.toList = pre ++ .began sid j phase manual :: post →
      (∀ i, (doneBy sid (pre.filterMap Deed.completion?)).getLast? = some i → h.Leads P i j) ∧
      ((∀ i scope, (h.code i scope).Asks P fun r => ¬ r.Steps) →
        (∀ f, (h.farewell f).Asks P fun r => ¬ r.Steps) → h.scheduler.Stays fit →
        (∀ clock, .drift clock ∈ moves → fit clock) →
        ∀ i ∈ doneBy sid (pre.filterMap Deed.completion?), Relation.TransGen (h.Leads P) i j) := by
  constructor
  · intro w hm slot sid manual strand i v hstrand hcursor hcode
    exact advance_moves hh hnext rounds depth hm sid manual hstrand hcursor hcode
  · intro fit w hw moves pre sid j phase manual post hrecord
    constructor
    · have hrun : (w.replay h rounds depth moves).Onward (Onward.Next h P) P :=
        replay_keeps rounds depth
          (fun r => ((Onward.practice_next hnext hh).serve rounds (depth + 1)).1 r trivial)
          (fun clock _ v hv => hv.of_same rfl rfl (fun _ _ => id) hv.memory) hw.onward
      exact hrun.begun pre sid j phase manual post hrecord
    · intro hcode hfarewell hs hdrift
      have hrun : Onward (Onward.Ahead h P) P (w.replay h rounds depth moves) ∧
          fit (w.replay h rounds depth moves).clock := replay_keeps rounds depth
        (fun r => ((Onward.practice_ahead hnext hh hcode hfarewell hs).serve rounds (depth + 1)).1 r trivial)
        (fun clock hclock v hv => ⟨hv.1.of_same rfl rfl (fun _ _ => id) hv.1.memory, hdrift clock hclock⟩)
        ⟨hw.onward, hw.clock⟩
      exact hrun.1.begun pre sid j phase manual post hrecord

/-- The restless blocks: the nap is executed once, and the block that fails is begun again and again, with the
nap behind it. -/
theorem restless_moves_onward :
    let r := Block.restlessRun .manual
    let moves : List (Move Block.dialect) := [.operate (.start none), .operate .runNext, .operate .runNext,
      .operate .resume, .operate .runNext]
    (r.world.replay r.host 1 5 moves).attempts = [(0, 0), (0, 1), (0, 1)] ∧
      ∀ pre sid j phase manual post,
        (r.world.replay r.host 1 5 moves).deeds.toList = pre ++ .began sid j phase manual :: post →
        (∀ i, (doneBy sid (pre.filterMap Deed.completion?)).getLast? = some i →
          r.host.Leads Block.Memory.Calm i j) ∧
        ∀ i ∈ doneBy sid (pre.filterMap Deed.completion?),
          Relation.TransGen (r.host.Leads Block.Memory.Calm) i j := by
  intro r moves
  have hnext : ∀ m i f, Block.Memory.Calm m → r.host.next m i ≠ .error f := by
    intro m i f _
    change Block.successor Block.restless m i ≠ .error f
    rcases i with _ | _ | i <;> simp [Block.successor, Block.Program.node?, Block.restless]
  have hasks : r.host.Asks Block.Memory.Calm fun q => ¬ q.Steps :=
    Block.restless_asks .manual id id id id
  have honce := (executed_once_per_visit (hasks.weaken fun _ _ => trivial) hnext 1 5).2
    (fun c => c.kind ≠ .eager) r.world (Block.restlessRun_fresh .manual (by decide)) moves
  with_reducible refine ⟨by decide +kernel, fun pre sid j phase manual post hrecord => ?_⟩
  obtain ⟨hlast, hall⟩ := honce pre sid j phase manual post hrecord
  exact ⟨hlast, hall hasks.code hasks.farewell Block.clockwork_stays (by simp [moves])⟩

/-- An instruction whose successor cannot be told has returned and been counted, but its strand stays on it: once
the run is resumed it is executed again, though it leads nowhere. -/
theorem balking_repeats :
    let r := Block.balkingRun
    let v := r.world.replay r.host 1 5 [.operate (.start none), .operate .runNext]
    Block.Run.prepare Block.balking {} .manual none none .zero = .ok r ∧
    (v.engine.phase = .paused ∧ v.engine.totalSteps = 1 ∧ v.completions = [(0, 0)] ∧
      v.engine.cursor 0 = some 0 ∧ ∀ P j, ¬ r.host.Leads P 0 j) ∧
    (v.replay r.host 1 5 [.operate .resume, .operate .runNext]).attempts = [(0, 0), (0, 0)] ∧
    (v.replay r.host 1 5 [.operate .resume, .operate .runNext]).completions = [(0, 0), (0, 0)] ∧
    (v.replay r.host 1 5 [.operate .resume, .operate .runNext]).engine.totalSteps = 2 := by
  intro r v
  refine ⟨Block.balkingRun_prepared,
    ⟨by decide +kernel, by decide +kernel, by decide +kernel, by decide +kernel, ?_⟩,
    by decide +kernel, by decide +kernel, by decide +kernel⟩
  rintro P j ⟨m, -, hnext⟩
  change Block.successor Block.balking m 0 = .ok (some j) at hnext
  simp [Block.successor, Block.Program.node?, Block.balking] at hnext

end World

end Loom
