import Mathlib
import Loom.Agenda

/-! Points of virtual time. Time starts at zero and moves on by delays that are never negative, so its
points are the exact numbers from zero on and the infinite one. A sum is rounded, but never to below a
number that is exact: time does not move back by rounding. -/
namespace Loom

namespace Binary64

/-- A count of units that has at most 53 significant bits. -/
def Exact (u : Nat) : Prop := 2 ^ (u.log2 - 52) ∣ u

lemma exact_of_lt {u : Nat} (hu : u < 2 ^ 53) : Exact u := by
  have hlog : u.log2 - 52 = 0 := by
    by_cases hzero : u = 0
    · simp [hzero]
    · have hlt : u.log2 < 53 := (Nat.log2_lt hzero).2 hu
      omega
  simp [Exact, hlog]

lemma roundHalfEven_bounds (num den : Nat) :
    num / den ≤ roundHalfEven num den ∧ roundHalfEven num den ≤ num / den + 1 := by
  unfold roundHalfEven
  dsimp only
  split_ifs <;> omega

lemma roundHalfEven_one (n : Nat) : roundHalfEven n 1 = n := by
  simp [roundHalfEven, Nat.mod_one]

lemma roundUnits_of_lt {n : Nat} (hn : n < 2 ^ 53) : roundUnits n 1 = n := by
  have hlt : n / 1 < Nat.pow 2 53 := by rwa [Nat.div_one]
  simp only [roundUnits, if_pos hlt, roundHalfEven_one]

/-- A count is rounded at its 53rd bit. -/
lemma roundUnits_of_log2 {n s : Nat} (hs : n.log2 = 52 + s) :
    roundUnits n 1 = roundHalfEven n (2 ^ s) * 2 ^ s := by
  by_cases hn : n < 2 ^ 53
  · have hzero : s = 0 := by
      by_cases hn0 : n = 0
      · simp [hn0] at hs
        omega
      · have hlt : n.log2 < 53 := (Nat.log2_lt hn0).2 hn
        omega
    rw [roundUnits_of_lt hn, hzero, Nat.pow_zero, roundHalfEven_one, Nat.mul_one]
  · have hge : ¬ n / 1 < Nat.pow 2 53 := by rwa [Nat.div_one]
    have hs' : (n / 1).log2 - 52 = s := by
      rw [Nat.div_one]
      omega
    simp only [roundUnits, if_neg hge, hs', Nat.one_mul, Nat.pow_eq]

/-- Above 53 bits a count is rounded to a multiple of a power of two, by a factor of 53 bits. -/
lemma roundUnits_of_ge {n : Nat} (hn : 2 ^ 53 ≤ n) : ∃ q s, n.log2 = 52 + s ∧
    2 ^ 52 ≤ q ∧ q < 2 ^ 53 ∧ q * 2 ^ s ≤ n ∧ n < (q + 1) * 2 ^ s ∧
    (roundUnits n 1 = q * 2 ^ s ∨ roundUnits n 1 = (q + 1) * 2 ^ s) := by
  have hzero : n ≠ 0 := by
    rintro rfl
    simp at hn
  have hlog : 53 ≤ n.log2 := (Nat.le_log2 hzero).2 hn
  obtain ⟨s, hs⟩ : ∃ s, n.log2 = 52 + s := ⟨n.log2 - 52, by omega⟩
  have hpos : 0 < 2 ^ s := Nat.two_pow_pos s
  refine ⟨n / 2 ^ s, s, hs, ?_, ?_, Nat.div_mul_le_self _ _, ?_, ?_⟩
  · rw [Nat.le_div_iff_mul_le hpos, ← Nat.pow_add, ← hs]
    exact Nat.log2_self_le hzero
  · rw [Nat.div_lt_iff_lt_mul hpos, ← Nat.pow_add]
    have hlt := Nat.lt_log2_self (n := n)
    rwa [hs, show 52 + s + 1 = 53 + s by omega] at hlt
  · exact (Nat.div_lt_iff_lt_mul hpos).1 (Nat.lt_succ_self _)
  · have hbounds := roundHalfEven_bounds n (2 ^ s)
    rw [roundUnits_of_log2 hs]
    rcases Nat.eq_or_lt_of_le hbounds.1 with heq | hlt
    · exact .inl (by rw [← heq])
    · exact .inr (by rw [show roundHalfEven n (2 ^ s) = n / 2 ^ s + 1 by omega])

lemma log2_mul_two_pow {q : Nat} (s : Nat) (hlow : 2 ^ 52 ≤ q) (hhigh : q < 2 ^ 53) :
    (q * 2 ^ s).log2 = 52 + s := by
  have hzero : q * 2 ^ s ≠ 0 := Nat.mul_ne_zero (by omega) (Nat.two_pow_pos s).ne'
  refine (Nat.log2_eq_iff hzero).2 ⟨?_, ?_⟩
  · rw [Nat.pow_add]
    exact Nat.mul_le_mul_right _ hlow
  · rw [show 52 + s + 1 = 53 + s by omega, Nat.pow_add]
    exact Nat.mul_lt_mul_of_pos_right hhigh (Nat.two_pow_pos s)

/-- What rounding gives is exact. -/
lemma exact_roundUnits (n : Nat) : Exact (roundUnits n 1) := by
  by_cases hn : n < 2 ^ 53
  · rw [roundUnits_of_lt hn]
    exact exact_of_lt hn
  obtain ⟨q, s, -, hlow, hhigh, -, -, hround⟩ := roundUnits_of_ge (Nat.not_lt.1 hn)
  have hexact : ∀ {p : Nat}, 2 ^ 52 ≤ p → p < 2 ^ 53 → Exact (p * 2 ^ s) := by
    intro p hp hp'
    unfold Exact
    rw [log2_mul_two_pow s hp hp', show 52 + s - 52 = s by omega]
    exact Nat.dvd_mul_left _ _
  rcases hround with hround | hround <;> rw [hround]
  · exact hexact hlow hhigh
  · rcases Nat.eq_or_lt_of_le (Nat.succ_le_of_lt hhigh) with heq | hlt
    · -- The factor has grown to the next power of two.
      rw [Nat.succ_eq_add_one] at heq
      rw [heq, ← Nat.pow_add]
      unfold Exact
      rw [Nat.log2_two_pow]
      exact Nat.pow_dvd_pow 2 (by omega)
    · exact hexact (by omega) hlt

/-- Rounding does not go below an exact count. -/
lemma le_roundUnits {u n : Nat} (hu : Exact u) (hle : u ≤ n) : u ≤ roundUnits n 1 := by
  by_cases hn : n < 2 ^ 53
  · rwa [roundUnits_of_lt hn]
  obtain ⟨q, s, -, hlow, hhigh, -, hupper, hround⟩ := roundUnits_of_ge (Nat.not_lt.1 hn)
  have hround' : q * 2 ^ s ≤ roundUnits n 1 := by
    rcases hround with hround | hround <;> rw [hround]
    exact Nat.mul_le_mul_right _ (Nat.le_succ q)
  refine Nat.le_trans ?_ hround'
  -- Between two neighbouring multiples of the power of two there is no exact count.
  by_contra hlt
  have hlog : u.log2 = 52 + s := by
    refine (Nat.log2_eq_iff (by omega)).2 ⟨?_, ?_⟩
    · have hpow : 2 ^ (52 + s) ≤ q * 2 ^ s := by
        rw [Nat.pow_add]
        exact Nat.mul_le_mul_right _ hlow
      omega
    · have hpow : (q + 1) * 2 ^ s ≤ 2 ^ (52 + s + 1) := by
        rw [show 52 + s + 1 = 53 + s by omega, Nat.pow_add]
        exact Nat.mul_le_mul_right _ hhigh
      omega
  have hdvd : 2 ^ s ∣ u := by
    unfold Exact at hu
    rwa [hlog, show 52 + s - 52 = s by omega] at hu
  obtain ⟨p, rfl⟩ := hdvd
  rw [Nat.mul_comm] at hlt hle
  have hp : q < p := Nat.lt_of_mul_lt_mul_right (Nat.not_le.1 hlt)
  have hp' : p < q + 1 := Nat.lt_of_mul_lt_mul_right (Nat.lt_of_le_of_lt hle hupper)
  omega

/-- A point of virtual time: an exact number from zero on, or the infinite one. -/
def IsInstant : Binary64 → Prop
  | finite false u => Exact u
  | infinite false => True
  | _ => False

lemma isInstant_zero : zero.IsInstant := exact_of_lt (by decide)

/-- How far a number lies from zero. -/
def reach : Binary64 → WithTop Nat
  | finite _ u => u
  | _ => ⊤

lemma lt_iff_reach {x y : Binary64} (hx : x.IsInstant) (hy : y.IsInstant) :
    x.lt y = true ↔ x.reach < y.reach := by
  match x, y, hx, hy with
  | finite false u, finite false v, _, _ => simp [lt, signed, reach]
  | finite false u, infinite false, _, _ => simp [lt, reach]
  | infinite false, finite false v, _, _ => simp [lt, reach]
  | infinite false, infinite false, _, _ => simp [lt, reach]

lemma eq_of_reach {x y : Binary64} (hx : x.IsInstant) (hy : y.IsInstant) (h : x.reach = y.reach) :
    x = y := by
  match x, y, hx, hy with
  | finite false u, finite false v, _, _ => simpa [reach] using h
  | finite false u, infinite false, _, _ => simp [reach] at h
  | infinite false, finite false v, _, _ => simp [reach] at h
  | infinite false, infinite false, _, _ => rfl

lemma le_iff_reach {x y : Binary64} (hx : x.IsInstant) (hy : y.IsInstant) :
    x.le y = true ↔ x.reach ≤ y.reach := by
  match x, y, hx, hy with
  | finite false u, finite false v, _, _ => simp [le, lt, eq, signed, reach]; omega
  | finite false u, infinite false, _, _ => simp [le, lt, reach]
  | infinite false, finite false v, _, _ => simp [le, lt, eq, reach]
  | infinite false, infinite false, _, _ => simp [le, eq, reach]

/-- The later of two points of which the second is not before the first. -/
lemma max_of_reach {x y : Binary64} (hx : x.IsInstant) (hy : y.IsInstant)
    (h : x.reach ≤ y.reach) : x.max y = y := by
  unfold max
  split_ifs with hlt
  · rfl
  · exact eq_of_reach hx hy (le_antisymm h (not_lt.1 (mt (lt_iff_reach hx hy).2 hlt)))

end Binary64

namespace Agenda

open Binary64

/-- A delay is never negative and never a NaN, whatever was asked for. -/
lemma clamp_cases (delay : Binary64) :
    (∃ v, clamp delay = finite false v) ∨ clamp delay = infinite false := by
  unfold clamp Binary64.max
  match delay with
  | nan => exact .inl ⟨0, rfl⟩
  | infinite true => exact .inl ⟨0, rfl⟩
  | infinite false => exact .inr rfl
  | finite true v =>
    have hlt : zero.lt (finite true v) = false := by simp [zero, lt, signed]
    exact .inl ⟨0, by rw [hlt]; rfl⟩
  | finite false v => split_ifs with hlt; exacts [.inl ⟨v, rfl⟩, .inl ⟨0, rfl⟩]

/-- A call made now is due at a point of time, and not before now. -/
lemma isInstant_due {now : Binary64} (hnow : now.IsInstant) (delay : Binary64) :
    (now.add (clamp delay)).IsInstant ∧ now.reach ≤ (now.add (clamp delay)).reach := by
  match now, hnow with
  | infinite false, _ =>
    rcases clamp_cases delay with ⟨v, hv⟩ | hv <;> rw [hv] <;> exact ⟨trivial, le_refl _⟩
  | finite false u, hu =>
    rcases clamp_cases delay with ⟨v, hv⟩ | hv <;> rw [hv]
    · by_cases hzero : u + v = 0
      · obtain ⟨rfl, rfl⟩ : u = 0 ∧ v = 0 := by omega
        exact ⟨isInstant_zero, le_refl _⟩
      · have hsum : (finite false u).add (finite false v) = ofRatio false (u + v) 1 := by
          have hne : signed false u + signed false v ≠ 0 := by simp only [signed]; simp; omega
          have hneg : ¬ signed false u + signed false v < 0 := by simp only [signed]; simp; omega
          simp only [add, hne, ↓reduceIte, hneg, decide_false]
          congr 1
        rw [hsum]
        unfold ofRatio
        dsimp only
        split_ifs
        · have hle := le_roundUnits hu (Nat.le_add_right u v)
          exact ⟨exact_roundUnits _, by simpa [reach] using hle⟩
        · exact ⟨trivial, le_top⟩
    · exact ⟨trivial, le_top⟩

end Agenda

end Loom
