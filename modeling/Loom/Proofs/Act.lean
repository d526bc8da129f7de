import Mathlib.Tactic.Common
import Loom.Act

/-! Reasoning about computations that change a state and may fail. `outcome` is pushed through the
operations of the monad; `Ensures` says what holds of the outcome and of the state left behind, and is
composed along a sequence of computations. -/
namespace Loom.Act

variable {σ α β : Type}

@[simp] theorem except_ok_bind (a : α) (f : α → Except Fault β) : (Except.ok a >>= f) = f a := rfl

@[simp] theorem except_error_bind (e : Fault) (f : α → Except Fault β) :
    (Except.error e >>= f) = .error e := rfl

@[simp] theorem except_map_ok (f : α → β) (a : α) :
    (Except.ok a : Except Fault α).map f = .ok (f a) := rfl

@[simp] theorem except_map_error (f : α → β) (e : Fault) :
    (Except.error e : Except Fault α).map f = .error e := rfl

theorem except_toOption_eq_some {r : Except Fault α} {a : α} : r.toOption = some a ↔ r = .ok a := by
  cases r <;> simp [Except.toOption]

@[simp] theorem outcome_pure (a : α) (s : σ) : (pure a : Act σ α).outcome s = (.ok a, s) := rfl

@[simp] theorem outcome_throw (f : Fault) (s : σ) :
    (throw f : Act σ α).outcome s = (.error f, s) := rfl

@[simp] theorem outcome_get (s : σ) : (get : Act σ σ).outcome s = (.ok s, s) := rfl

@[simp] theorem outcome_set (t s : σ) : (set t : Act σ PUnit).outcome s = (.ok (), t) := rfl

@[simp] theorem outcome_modify (f : σ → σ) (s : σ) :
    (modify f : Act σ PUnit).outcome s = (.ok (), f s) := rfl

@[simp] theorem outcome_ofExcept (r : Except Fault α) (s : σ) :
    (ofExcept r : Act σ α).outcome s = (r, s) := rfl

@[simp] theorem outcome_attempt (a : Act σ α) (s : σ) :
    a.attempt.outcome s = (.ok (a.outcome s).1, (a.outcome s).2) := rfl

@[simp] theorem outcome_bind (a : Act σ α) (f : α → Act σ β) (s : σ) :
    (a >>= f).outcome s = match a.outcome s with
      | (.ok x, t) => (f x).outcome t
      | (.error e, t) => (.error e, t) := by
  simp only [outcome, ExceptT.run_bind, StateT.run_bind]
  change (match StateT.run (ExceptT.run a) s with | (x, t) => _) = _
  rcases StateT.run (ExceptT.run a) s with ⟨_ | x, t⟩ <;> rfl

@[simp] theorem outcome_map (f : α → β) (a : Act σ α) (s : σ) :
    (f <$> a).outcome s = ((a.outcome s).1.map f, (a.outcome s).2) := by
  rw [map_eq_pure_bind, outcome_bind]
  rcases a.outcome s with ⟨_ | x, t⟩ <;> rfl

@[simp] theorem outcome_discard (a : Act σ α) (s : σ) :
    (discard a).outcome s = ((a.outcome s).1.map fun _ => (), (a.outcome s).2) :=
  outcome_map (Function.const α PUnit.unit) a s

/-- What holds of the outcome of a computation from a state, and of the state it leaves behind. -/
def Ensures (a : Act σ α) (s : σ) (Q : Except Fault α → σ → Prop) : Prop :=
  Q (a.outcome s).1 (a.outcome s).2

theorem ensures_of_outcome {a : Act σ α} {s t : σ} {r : Except Fault α}
    {Q : Except Fault α → σ → Prop} (h : a.outcome s = (r, t)) (hQ : Q r t) : a.Ensures s Q := by
  rw [Ensures, h]
  exact hQ

theorem Ensures.mono {a : Act σ α} {s : σ} {P Q : Except Fault α → σ → Prop}
    (h : a.Ensures s P) (hPQ : ∀ r t, P r t → Q r t) : a.Ensures s Q := hPQ _ _ h

theorem Ensures.and {a : Act σ α} {s : σ} {P Q : Except Fault α → σ → Prop} (hP : a.Ensures s P)
    (hQ : a.Ensures s Q) : a.Ensures s fun r t => P r t ∧ Q r t := ⟨hP, hQ⟩

theorem Ensures.bind {a : Act σ α} {f : α → Act σ β} {s : σ} {P : Except Fault α → σ → Prop}
    {Q : Except Fault β → σ → Prop} (h : a.Ensures s P)
    (hok : ∀ x t, P (.ok x) t → (f x).Ensures t Q)
    (herror : ∀ e t, P (.error e) t → Q (.error e) t) : (a >>= f).Ensures s Q := by
  unfold Ensures at h ⊢
  rw [outcome_bind]
  rcases ha : a.outcome s with ⟨e | x, t⟩ <;> rw [ha] at h
  · exact herror e t h
  · exact hok x t h

/-- Making an answer of a result changes nothing. -/
theorem Ensures.reply {a : Act σ α} {k : α → β} {s : σ} {I : σ → Prop}
    (h : a.Ensures s fun _ t => I t) : (a >>= fun x => pure (k x)).Ensures s fun _ t => I t :=
  h.bind (fun _ _ ht => ht) fun _ _ ht => ht

/-- After an attempt both kinds of outcome go on. -/
theorem Ensures.attempt_bind {a : Act σ α} {f : Except Fault α → Act σ β} {s : σ}
    {P : Except Fault α → σ → Prop} {Q : Except Fault β → σ → Prop} (h : a.Ensures s P)
    (hf : ∀ r t, P r t → (f r).Ensures t Q) : (a.attempt >>= f).Ensures s Q := by
  unfold Ensures
  rw [outcome_bind, outcome_attempt]
  exact hf _ _ h

/-- What every round keeps, the whole repetition keeps. -/
lemma repeatWhile_ensures {round : Act σ Bool} {I : σ → Prop}
    (hround : ∀ s, I s → round.Ensures s fun _ t => I t) (limit : Option Int) (rounds count : Nat)
    {s : σ} (hI : I s) : (repeatWhile round limit rounds count).Ensures s fun _ t => I t := by
  induction rounds generalizing count s with
  | zero => exact hI
  | succ rounds ih =>
    unfold repeatWhile
    split_ifs
    · exact hI
    · refine (hround s hI).bind (fun again t ht => ?_) fun _ t ht => ht
      cases again
      · exact ht
      · exact ih (count + 1) ht

end Loom.Act
