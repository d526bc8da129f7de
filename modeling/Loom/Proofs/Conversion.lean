import Loom.Proofs.Magnitude
import Loom.Value.Convert

/-! How conversions between values fail. A whole number cannot be made of what is infinite, nor a binary64
number of a whole number that has no nearest one: these faults are about size. All others are about the kind
of a value or about what a text says. A whole number that a text gives can be written again. -/
namespace Loom

/-- A conversion that fails for the kind of a value or for what a text says. -/
def Fault.IsMismatch (f : Fault) : Prop := f.kind = .type ∨ f.kind = .value

lemma Fault.IsMismatch.ne_overflow {f : Fault} (hf : f.IsMismatch) : f.kind ≠ .overflow := by
  rcases hf with hf | hf <;> rw [hf] <;> decide

namespace Literal

/-- A run of digits denotes less than the power of ten with as many zeros. -/
lemma value_lt_pow {cs : List Char} (hcs : ∀ c ∈ cs, c.isDigit = true) : value cs < 10 ^ cs.length := by
  induction cs using List.reverseRecOn with
  | nil => exact Nat.one_pos
  | append_singleton cs c ih =>
    have hc : c.toNat ≤ 57 := by
      have hdigit := hcs c (by simp)
      simp only [Char.isDigit, Bool.and_eq_true, decide_eq_true_eq] at hdigit
      exact hdigit.2
    have hlt := ih fun d hd => hcs d (by simp [hd])
    have hvalue : value (cs ++ [c]) = 10 * value cs + (c.toNat - 48) := by simp [value]
    rw [hvalue, List.length_append, List.length_singleton, Nat.pow_succ]
    omega

/-- A whole number that is read has no more digits than are converted. -/
lemma natAbs_lt_of_int? {s : String} {n : Int} (h : int? s = .ok n) : n.natAbs < Value.wholeBound := by
  have hpow {k m : Nat} (hk : k ≤ m) : 10 ^ k ≤ Nat.pow 10 m := Nat.pow_le_pow_right (by decide) hk
  have hdigits {cs : List Char} (hcs : ¬ maxDigits < (cs.filter Char.isDigit).length) :
      value (cs.filter Char.isDigit) < Value.wholeBound := by
    unfold Value.wholeBound
    exact (value_lt_pow fun c hc => (List.mem_filter.1 hc).2).trans_le (hpow (not_lt.1 hcs))
  unfold int? at h
  dsimp only at h
  split_ifs at h with _ hlong
  · cases h
    rw [Int.natAbs_neg, Int.natAbs_natCast]
    exact hdigits hlong
  · cases h
    rw [Int.natAbs_natCast]
    exact hdigits hlong

end Literal

namespace Value

lemma wholeOfText_writable {s : String} {n : Int} (h : wholeOfText s = .ok n) : (int n).isWritable = true := by
  unfold wholeOfText at h
  split at h <;> cases h
  next hn =>
    exact decide_eq_true (Literal.natAbs_lt_of_int? hn)

def IsInfinite (v : Value) : Prop := ∃ negative, v = .float (.infinite negative)

/-- A whole number half a step or more beyond the greatest finite binary64 number. -/
def IsHuge (v : Value) : Prop := ∃ n : Int, v = .int n ∧ 2 ^ 1024 - 2 ^ 970 ≤ n.natAbs

lemma IsHuge.truthy {v : Value} (hv : v.IsHuge) : v.truthy = true := by
  have hlt : 2 ^ 970 < 2 ^ 1024 := by gcongr <;> decide
  obtain ⟨n, rfl, hn⟩ := hv
  have hne : n ≠ 0 := by omega
  simp [Value.truthy, hne]

lemma isHuge_two_pow : (int (2 ^ 1024)).IsHuge :=
  ⟨2 ^ 1024, rfl, by rw [Int.natAbs_pow, show Int.natAbs 2 = 2 from rfl]; omega⟩

lemma wholeOfText_mismatch {s : String} {f : Fault} (h : wholeOfText s = .error f) : f.IsMismatch := by
  unfold wholeOfText at h
  split at h <;> cases h <;> exact .inr rfl

lemma toInt_of_isInfinite {v : Value} (hv : v.IsInfinite) : v.toInt = .error .infinityToWhole := by
  obtain ⟨negative, rfl⟩ := hv
  rfl

lemma toInt_mismatch {v : Value} (hv : ¬ v.IsInfinite) {f : Fault} (h : v.toInt = .error f) :
    f.IsMismatch := by
  match v with
  | .none | .list _ | .dict _ =>
    cases h
    exact .inl rfl
  | .float .nan =>
    cases h
    exact .inr rfl
  | .float (.infinite negative) => exact absurd ⟨negative, rfl⟩ hv
  | .bool _ | .int _ | .float (.finite ..) => cases h
  | .str s => exact wholeOfText_mismatch h

/-- What `toFloat` gives: a number, or the fault of a whole number that has no nearest one, or a mismatch. -/
lemma toFloat_cases (v : Value) :
    (∃ x, v.toFloat = .ok x ∧ ∀ n, v = .int n → Binary64.ofInt? n = some x) ∨
      (∃ n, v = .int n ∧ Binary64.ofInt? n = Option.none ∧ v.toFloat = .error .wholeTooLarge) ∨
      ∃ f, v.toFloat = .error f ∧ f.IsMismatch ∧ ∀ n, v ≠ .int n := by
  -- Whole numbers are rounded by a function that is left open here, since it would be computed otherwise.
  have hopen : ∀ round convert, round = Binary64.ofInt? → convert = toFloat →
      (∃ x, convert v = .ok x ∧ ∀ n, v = .int n → round n = some x) ∨
      (∃ n, v = .int n ∧ round n = Option.none ∧ convert v = .error .wholeTooLarge) ∨
      ∃ f, convert v = .error f ∧ f.IsMismatch ∧ ∀ n, v ≠ .int n := by
    intro round convert hround hconvert
    delta toFloat at hconvert
    rw [← hround] at hconvert
    clear hround
    subst hconvert
    beta_reduce
    split
    · exact .inl ⟨_, rfl, nofun⟩
    · next n =>
      split
      · next x hx => exact .inl ⟨x, rfl, fun m hm => by rwa [← Value.int.inj hm]⟩
      · next hx => exact .inr (.inl ⟨n, rfl, hx, rfl⟩)
    · exact .inl ⟨_, rfl, nofun⟩
    · split
      · exact .inl ⟨_, rfl, nofun⟩
      · exact .inr (.inr ⟨_, rfl, .inr rfl, nofun⟩)
    · next hint _ _ => exact .inr (.inr ⟨_, rfl, .inl rfl, hint⟩)
  exact hopen _ _ rfl rfl

lemma toFloat_of_isHuge {v : Value} (hv : v.IsHuge) : v.toFloat = .error .wholeTooLarge := by
  obtain ⟨n, rfl, hn⟩ := hv
  have hnone : Binary64.ofInt? n = Option.none := (Binary64.ofInt?_eq_none_iff n).2 hn
  rcases toFloat_cases (.int n) with ⟨x, -, hx⟩ | ⟨m, -, -, h⟩ | ⟨f, -, -, hf⟩
  · exact nomatch hnone.symm.trans (hx n rfl)
  · exact h
  · exact absurd rfl (hf n)

lemma toFloat_mismatch {v : Value} (hv : ¬ v.IsHuge) {f : Fault} (h : v.toFloat = .error f) :
    f.IsMismatch := by
  rcases toFloat_cases v with ⟨x, hx, -⟩ | ⟨n, rfl, hn, -⟩ | ⟨g, hg, hmismatch, -⟩
  · cases hx.symm.trans h
  · exact absurd ⟨n, rfl, (Binary64.ofInt?_eq_none_iff n).1 hn⟩ hv
  · cases hg.symm.trans h
    exact hmismatch

end Value

end Loom
