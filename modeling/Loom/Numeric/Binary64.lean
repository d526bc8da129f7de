/-! Binary64 numbers as exact values. A finite number is a signed whole count of the least positive
step 2^(-1074), so order, sum and rounding are arithmetic on natural numbers and every operation is
"compute exactly, then round once". -/
namespace Loom

/-- A binary64 number. `finite neg units` is ± units · 2^(-1074); the operations below produce only
counts with at most 53 significant bits. -/
inductive Binary64 where
  | nan
  | infinite (negative : Bool)
  | finite (negative : Bool) (units : Nat)
  deriving DecidableEq, Repr, Inhabited

namespace Binary64

/-- The number of units in one. -/
def unit : Nat := Nat.pow 2 1074

/-- The least count of units that is out of range. -/
def bound : Nat := Nat.pow 2 2098

def zero : Binary64 := finite false 0

/-- The whole number nearest to `num / den`, a half going to the even neighbour. -/
def roundHalfEven (num den : Nat) : Nat :=
  let q := num / den
  let r := 2 * (num % den)
  if r < den then q else if den < r then q + 1 else if q % 2 = 0 then q else q + 1

/-- `num / den` rounded to 53 significant bits. -/
def roundUnits (num den : Nat) : Nat :=
  let q := num / den
  if q < Nat.pow 2 53 then roundHalfEven num den
  else
    let s := q.log2 - 52
    roundHalfEven num (den * Nat.pow 2 s) * Nat.pow 2 s

/-- The binary64 number nearest to ± num / den units; infinite when out of range. -/
def ofRatio (negative : Bool) (num den : Nat) : Binary64 :=
  let u := roundUnits num den
  if u < bound then finite negative u else infinite negative

/-- The nearest binary64 number to a whole number, none when out of range. -/
def ofInt? (n : Int) : Option Binary64 :=
  match ofRatio (decide (n < 0)) (n.natAbs * unit) 1 with
  | finite s u => some (finite s u)
  | _ => none

/-- The nearest binary64 number to ± digits · 10^exponent. Magnitudes far outside the range are
settled from the digit count, without computing the power. -/
def ofDecimal (negative : Bool) (digits : Nat) (exponent : Int) : Binary64 :=
  if digits = 0 then finite negative 0
  else
    let magnitude : Int := (Nat.toDigits 10 digits).length + exponent
    if magnitude > 310 then infinite negative
    else if magnitude < -330 then finite negative 0
    else match exponent with
      | .ofNat e => ofRatio negative (digits * Nat.pow 10 e * unit) 1
      | .negSucc e => ofRatio negative (digits * unit) (Nat.pow 10 (e + 1))

/-- Both zeros are zero. -/
def isZero : Binary64 → Bool
  | finite _ 0 => true
  | _ => false

/-- The signed count of units of a finite number. -/
def signed (negative : Bool) (units : Nat) : Int :=
  if negative then -(units : Int) else units

/-- Numeric equality: the two zeros are equal, and nothing equals a NaN. -/
def eq : Binary64 → Binary64 → Bool
  | infinite s, infinite t => s == t
  | finite s u, finite t v => signed s u == signed t v
  | _, _ => false

/-- Numeric order, false whenever a NaN takes part. -/
def lt : Binary64 → Binary64 → Bool
  | nan, _ => false
  | _, nan => false
  | infinite s, infinite t => s && !t
  | infinite s, finite _ _ => s
  | finite _ _, infinite t => !t
  | finite s u, finite t v => signed s u < signed t v

def le (x y : Binary64) : Bool := x.lt y || x.eq y

/-- Order and equality against a whole number are exact, without rounding it. -/
def ltInt : Binary64 → Int → Bool
  | nan, _ => false
  | infinite s, _ => s
  | finite s u, n => signed s u < n * unit

def gtInt : Binary64 → Int → Bool
  | nan, _ => false
  | infinite s, _ => !s
  | finite s u, n => n * unit < signed s u

def eqInt : Binary64 → Int → Bool
  | finite s u, n => signed s u == n * unit
  | _, _ => false

/-- The larger of two numbers; the first one unless the second is strictly above it. -/
def max (x y : Binary64) : Binary64 := if x.lt y then y else x

/-- The correctly rounded sum. -/
def add : Binary64 → Binary64 → Binary64
  | nan, _ => nan
  | _, nan => nan
  | infinite s, infinite t => if s == t then infinite s else nan
  | infinite s, finite _ _ => infinite s
  | finite _ _, infinite t => infinite t
  | finite s u, finite t v =>
    let total := signed s u + signed t v
    if total = 0 then finite (s && t) 0
    else ofRatio (decide (total < 0)) total.natAbs 1

/-- The correctly rounded quotient by a positive whole number. -/
def divNat : Binary64 → Nat → Binary64
  | finite s u, d => ofRatio s u d
  | x, _ => x

/-- The whole part of a finite number, the fraction dropped. -/
def trunc? : Binary64 → Option Int
  | finite s u => some (signed s (u / unit))
  | _ => none

/-- A usable delay: finite and strictly above zero. -/
def isPositive : Binary64 → Bool
  | finite false (_ + 1) => true
  | _ => false

end Binary64

end Loom
