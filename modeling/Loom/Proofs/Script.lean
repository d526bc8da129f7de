import Loom.Proofs.Outcome

/-! What scripts may ask for, which faults they may end with, and what follows for their runs. -/
namespace Loom

/-- The operations of an engine: what a program, or the owner of a run, may ask for. Firing a deferred
step is up to the scheduler, and reaching into the engine is no operation. -/
def Request.IsOperation : Request D → Prop
  | fire _ | fireIssued _ | runNext | runAll _ | refuse _ | pump | timeSlice _ | forget _ | blank _ =>
    False
  | _ => True

/-- The operations that an instruction may ask for: all but a step. -/
def Request.IsInner : Request D → Prop
  | step => False
  | r => r.IsOperation

lemma Request.IsOperation.step_or_inner {r : Request D} (h : r.IsOperation) :
    r = .step ∨ r.IsInner := by
  cases r <;> simp_all [IsInner, IsOperation]

namespace Script

variable {D : Dialect}

/-- A script that, on memories with `P`, leaves only memories with `P`, asks only for what satisfies `p`,
and ends only with faults of `q` or with those of its own requests. -/
inductive Heeds (P : D.Memory → Prop) (p : Request D → Prop) : (Fault → Prop) → Script D α → Prop where
  | done {q} (a : α) : Heeds P p q (done a)
  | fail {q f} (h : q f) : Heeds P p q (fail f)
  | look {q next} (h : ∀ m, P m → Heeds P p q (next m)) : Heeds P p q (look next)
  | store {q m next} (hm : P m) (h : Heeds P p q next) : Heeds P p q (store m next)
  | ask {q r next} (hr : p r) (h : ∀ o, Heeds P p (fun f => q f ∨ o = .error f) (next o)) :
      Heeds P p q (ask r next)

namespace Heeds

variable {P : D.Memory → Prop} {p : Request D → Prop} {q : Fault → Prop}

lemma weaken {p' : Request D → Prop} {q' : Fault → Prop} {s : Script D α} (hs : s.Heeds P p q)
    (hp : ∀ r, p r → p' r) (hq : ∀ f, q f → q' f) : s.Heeds P p' q' := by
  induction hs generalizing q' with
  | done a => exact .done a
  | fail h => exact .fail (hq _ h)
  | look _ ih => exact .look fun m hm => ih m hm hq
  | store hm _ ih => exact .store hm (ih hq)
  | ask hr _ ih => exact .ask (hp _ hr) fun o => ih o fun f => Or.imp_left (hq f)

lemma mono {q' : Fault → Prop} {s : Script D α} (hs : s.Heeds P p q) (hq : ∀ f, q f → q' f) :
    s.Heeds P p q' := hs.weaken (fun _ => id) hq

/-- What is known of the faults in two ways is known in both. -/
lemma and {q' : Fault → Prop} {s : Script D α} (hs : s.Heeds P p q) (hs' : s.Heeds P p q') :
    s.Heeds P p fun f => q f ∧ q' f := by
  induction hs generalizing q' with
  | done a => exact .done a
  | fail h =>
    cases hs' with
    | fail h' => exact .fail ⟨h, h'⟩
  | look _ ih =>
    cases hs' with
    | look h' => exact .look fun m hm => ih m hm (h' m hm)
  | store hm _ ih =>
    cases hs' with
    | store _ h' => exact .store hm (ih h')
  | ask hr _ ih =>
    cases hs' with
    | ask _ h' => exact .ask hr fun o => (ih o (h' o)).mono fun f hf => by tauto

lemma bind {s : Script D α} {k : α → Script D β} (hs : s.Heeds P p q)
    (hk : ∀ a, (k a).Heeds P p q) : (s >>= k).Heeds P p q := by
  change (s.bind k).Heeds P p q
  induction hs with
  | done a => exact hk a
  | fail h => exact .fail h
  | look _ ih => exact .look fun m hm => ih m hm hk
  | store hm _ ih => exact .store hm (ih hk)
  | ask hr _ ih => exact .ask hr fun o => ih o fun a => (hk a).mono fun f => .inl

lemma discard {s : Script D α} (hs : s.Heeds P p q) : (discard s).Heeds P p q :=
  hs.bind fun _ => .done _

lemma modify {f : D.Memory → D.Memory} (hf : ∀ m, P m → P (f m)) :
    (Script.modify f).Heeds P p q :=
  .look fun m hm => .store (hf m hm) (.done ())

lemma update {f : D.Memory → Except Fault D.Memory} (hf : ∀ m m', P m → f m = .ok m' → P m')
    (hq : ∀ m e, P m → f m = .error e → q e) : (Script.update f).Heeds P p q := by
  refine .look fun m hm => ?_
  rcases h : f m with e | m'
  · exact .fail (hq m e hm h)
  · exact .store (hf m m' hm h) (.done ())

lemma request {r : Request D} (hr : p r) : (Script.request r).Heeds P p q := by
  refine .ask hr fun o => ?_
  rcases o with f | reply
  · exact .fail (.inr rfl)
  · exact .done reply

end Heeds

/-- A script that returns without asking for anything. It may still change the memory. -/
def Quiet (P : D.Memory → Prop) (s : Script D α) : Prop := s.Heeds P (fun _ => False) fun _ => False

/-- The answer of a script that only looks. -/
def ponder : Script D α → D.Memory → Option α
  | done a, _ => some a
  | look next, m => ponder (next m) m
  | _, _ => none

end Script

namespace World

variable {D : Dialect}

/-- The world with another memory. -/
@[simps engine clock memory deeds] def withMemory (w : World D) (memory : D.Memory) : World D :=
  { w with memory }

/-- What every request of a script preserves, the script preserves; and if the faults of requests are to
blame for something that stays true, so is the fault that a script ends with. -/
theorem runScript_ensures (serve : Request D → Act (World D) Reply) {P : D.Memory → Prop}
    {p : Request D → Prop} {I : World D → Prop} {F : Fault → World D → Prop}
    (hmemory : ∀ w, I w → P w.memory)
    (hstore : ∀ w m, P m → I w → I (w.withMemory m) ∧ ∀ f, F f w → F f (w.withMemory m))
    (hask : ∀ r w, p r → I w → (serve r).Ensures w fun o v =>
      I v ∧ (∀ f, o = .error f → F f v) ∧ ∀ f, F f w → F f v)
    {s : Script D α} {q : Fault → Prop} (hs : s.Heeds P p q) {w : World D} (hw : I w)
    (hq : ∀ f, q f → F f w) :
    (runScript serve s).Ensures w fun o v => I v ∧ ∀ f, o = .error f → F f v := by
  induction hs generalizing w with
  | done a => exact ⟨hw, fun f hf => by cases hf⟩
  | fail hf => exact ⟨hw, fun g hg => by cases hg; exact hq _ hf⟩
  | look _ ih => exact ih w.memory (hmemory w hw) hw hq
  | @store q m next hm _ ih =>
    obtain ⟨hv, hF⟩ := hstore w m hm hw
    exact ih hv fun f hf => hF f (hq f hf)
  | @ask q r next hp _ ih =>
    refine Act.Ensures.attempt_bind (hask r w hp hw) ?_
    rintro o v ⟨hv, ho, hF⟩
    refine ih o hv ?_
    rintro f (hf | hf)
    · exact hF f (hq f hf)
    · exact ho f hf

/-- A quiet script returns and changes nothing but the memory. -/
theorem runScript_quiet (serve : Request D → Act (World D) Reply) {P : D.Memory → Prop}
    {s : Script D α} (hs : s.Quiet P) {w : World D} (hw : P w.memory) :
    ∃ a m, P m ∧ (runScript serve s).outcome w = (.ok a, w.withMemory m) := by
  unfold Script.Quiet at hs
  generalize hq : (fun _ : Fault => False) = q at hs
  induction hs generalizing w with
  | done a => exact ⟨a, w.memory, hw, rfl⟩
  | fail hf =>
    subst hq
    exact hf.elim
  | look _ ih => exact ih w.memory hw hw hq
  | @store q m next hm _ ih =>
    obtain ⟨a, m', hm', h⟩ := ih (w := w.withMemory m) hm hq
    exact ⟨a, m', hm', h⟩
  | ask hp => exact hp.elim

/-- A script that only looks changes nothing. -/
lemma runScript_ponder (serve : Request D → Act (World D) Reply) {s : Script D α} {a : α} {w : World D}
    (hs : s.ponder w.memory = some a) : (runScript serve s).outcome w = (.ok a, w) := by
  induction s with
  | done b =>
    cases hs
    rfl
  | look next ih => exact ih w.memory hs
  | fail f => cases hs
  | store m next => cases hs
  | ask r next => cases hs

end World
end Loom
