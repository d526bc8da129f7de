import Loom.Proofs.Instant

/-! How large a whole number may be. A number beyond the greatest finite one by half a step or more has
no nearest number, and every other whole number has one. -/
namespace Loom.Binary64

/-- An odd quotient is kept up to the half, which goes to the even neighbour above. -/
lemma roundHalfEven_le_iff {n d m : Nat} (hd : 0 < d) (hm : m % 2 = 1) :
    roundHalfEven n d ≤ m ↔ 2 * n < (2 * m + 1) * d := by
  have hn : d * (n / d) + n % d = n := Nat.div_add_mod n d
  have hr : n % d < d := Nat.mod_lt n hd
  have hbounds := roundHalfEven_bounds n d
  have hsplit : (2 * m + 1) * d = 2 * (d * m) + d := by ring
  rw [hsplit]
  rcases Nat.lt_trichotomy (n / d) m with hlt | heq | hgt
  · have hmul : d * (n / d + 1) ≤ d * m := Nat.mul_le_mul_left d hlt
    rw [Nat.mul_add] at hmul
    exact iff_of_true (by omega) (by omega)
  · rw [heq] at hn
    unfold roundHalfEven
    dsimp only
    rw [heq]
    split_ifs <;> omega
  · have hmul : d * (m + 1) ≤ d * (n / d) := Nat.mul_le_mul_left d hgt
    rw [Nat.mul_add] at hmul
    exact iff_of_false (by omega) (by omega)

lemma exact_two_pow (k : Nat) : Exact (2 ^ k) := by
  unfold Exact
  rw [Nat.log2_two_pow]
  exact Nat.pow_dvd_pow 2 (by omega)

/-- Rounding does not go beyond a power of two. -/
lemma roundUnits_le_two_pow {n s : Nat} (hn : n < 2 ^ (52 + s)) : roundUnits n 1 ≤ 2 ^ (52 + s) := by
  by_cases hsmall : n < 2 ^ 53
  · rw [roundUnits_of_lt hsmall]
    exact hn.le
  obtain ⟨q, t, hlog, -, hq, -, -, hround⟩ := roundUnits_of_ge (Nat.not_lt.1 hsmall)
  have hpos : 0 < n := by omega
  have ht : n.log2 < 52 + s := (Nat.log2_lt hpos.ne').2 hn
  calc roundUnits n 1 ≤ (q + 1) * 2 ^ t := by
        rcases hround with hround | hround <;> rw [hround]
        exact Nat.mul_le_mul_right _ (Nat.le_succ q)
    _ ≤ 2 ^ 53 * 2 ^ t := Nat.mul_le_mul_right _ hq
    _ = 2 ^ (53 + t) := (Nat.pow_add 2 53 t).symm
    _ ≤ 2 ^ (52 + s) := Nat.pow_le_pow_right (by decide) (by omega)

/-- A count is rounded to below a power of two unless it lies within half a step of it. -/
lemma roundUnits_lt_iff (n s : Nat) :
    roundUnits n 1 < 2 ^ (53 + s) ↔ 2 * n < (2 * (2 ^ 53 - 1) + 1) * 2 ^ s := by
  have hpos : 0 < 2 ^ s := Nat.two_pow_pos s
  have hlow : 2 ^ (52 + s) = 2 ^ 52 * 2 ^ s := Nat.pow_add 2 52 s
  have hhigh : 2 ^ (53 + s) = 2 ^ 53 * 2 ^ s := Nat.pow_add 2 53 s
  rcases Nat.lt_or_ge n (2 ^ (52 + s)) with hn | hn
  · have hround := roundUnits_le_two_pow hn
    exact iff_of_true (by omega) (by omega)
  rcases Nat.lt_or_ge n (2 ^ (53 + s)) with hn' | hn'
  · have hlog : n.log2 = 52 + s :=
      (Nat.log2_eq_iff (by omega)).2 ⟨hn, by rwa [show 52 + s + 1 = 53 + s by omega]⟩
    rw [roundUnits_of_log2 hlog, hhigh, Nat.mul_lt_mul_right hpos,
      ← roundHalfEven_le_iff hpos (by decide)]
    omega
  · have hround := le_roundUnits (exact_two_pow (53 + s)) hn'
    exact iff_of_false (by omega) (by omega)

/-- The bound for a multiple of a smaller power of two. -/
lemma roundUnits_mul_lt_iff {m a b c k : Nat} (hc : c = 54 + b) (hk : k = c + a) :
    roundUnits (m * Nat.pow 2 a) 1 < Nat.pow 2 k ↔ m < 2 ^ c - 2 ^ b := by
  have hstep : 2 ^ (1 + b + a) = 2 * 2 ^ b * 2 ^ a := by rw [Nat.pow_add, Nat.pow_add, Nat.pow_one]
  have htop : 2 ^ c = 2 ^ 54 * 2 ^ b := by rw [hc, Nat.pow_add]
  have hleft : 2 * (m * 2 ^ a) = (2 * m) * 2 ^ a := (Nat.mul_assoc 2 m _).symm
  have hright : (2 * (2 ^ 53 - 1) + 1) * (2 * 2 ^ b * 2 ^ a) =
      (2 * (2 ^ 54 * 2 ^ b - 2 ^ b)) * 2 ^ a := by
    rw [← Nat.mul_assoc, Nat.mul_left_inj (Nat.two_pow_pos a).ne']
    omega
  rw [Nat.pow_eq, Nat.pow_eq, show k = 53 + (1 + b + a) by omega, roundUnits_lt_iff, hstep, htop, hleft,
    hright, Nat.mul_lt_mul_right (Nat.two_pow_pos a), Nat.mul_lt_mul_left (by decide)]

/-- A fraction has a nearest number if its rounded count of units is in range. -/
lemma ofRatio_finite_iff (negative : Bool) (num den : Nat) :
    (∃ t u, ofRatio negative num den = finite t u) ↔ roundUnits num den < bound := by
  have hof : ofRatio negative num den =
      if roundUnits num den < bound then finite negative (roundUnits num den) else infinite negative := rfl
  rw [hof]
  split_ifs with h <;> simp [h]

lemma ofInt?_eq_none_iff_round (n : Int) :
    ofInt? n = none ↔ ¬ roundUnits (n.natAbs * unit) 1 < bound := by
  -- The definition is opened as a function, since applied to a number it would be computed.
  have hopen : ∀ f, f = ofInt? → (f n = none ↔ ¬ roundUnits (n.natAbs * unit) 1 < bound) := by
    intro f hf
    delta ofInt? at hf
    rw [hf, ← ofRatio_finite_iff (decide (n < 0))]
    beta_reduce
    split
    · next h => exact iff_of_false nofun (not_not_intro ⟨_, _, h⟩)
    · next h => exact iff_of_true rfl fun ⟨t, u, hx⟩ => h t u hx
  exact hopen ofInt? rfl

/-- The whole numbers without a nearest number are those that lie half a step or more beyond the
greatest finite one. -/
lemma ofInt?_eq_none_iff (n : Int) : ofInt? n = none ↔ 2 ^ 1024 - 2 ^ 970 ≤ n.natAbs := by
  have hround : roundUnits (n.natAbs * unit) 1 < bound ↔ n.natAbs < 2 ^ 1024 - 2 ^ 970 := by
    unfold unit bound
    exact roundUnits_mul_lt_iff rfl rfl
  rw [ofInt?_eq_none_iff_round, hround, Nat.not_lt]

end Loom.Binary64
