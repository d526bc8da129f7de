import Loom.Numeric.Binary64

/-! Decimal texts of binary64 numbers: the fewest digits that read back, and a fixed count of
significant digits. -/
namespace Loom.Binary64

/-- Significant decimal digits `d₁ d₂ …` of the number d₁.d₂… · 10^exponent. -/
structure Decimal where
  digits : List Char
  exponent : Int
  deriving Repr

/-- A number of units over a decimal step 10^step, as a fraction. -/
def overStep (units : Nat) (step : Int) : Nat × Nat :=
  match step with
  | .ofNat s => (units, unit * Nat.pow 10 s)
  | .negSucc s => (units * Nat.pow 10 (s + 1), unit)

/-- The least `k ≤ fuel` with 1 ≤ units · 10^k / unit. -/
def leadingShift (units : Nat) : Nat → Nat → Nat
  | 0, k => k
  | fuel + 1, k => if unit ≤ units * Nat.pow 10 k then k else leadingShift units fuel (k + 1)

/-- The decimal exponent of a nonzero count of units: the place of its first digit. -/
def decimalExponent (units : Nat) : Int :=
  if unit ≤ units then ((Nat.toDigits 10 (units / unit)).length : Int) - 1
  else -(leadingShift units 330 1 : Int)

/-- The distance between a number and its upper neighbour. -/
def gap (units : Nat) : Nat := Nat.pow 2 (units.log2 - 52)

/-- Whether `num / den` units lies among the reals that round to `units`; the ends belong to it when
the significand is even. -/
def readsBack (units num den : Nat) : Bool :=
  let g := gap units
  let below := if units = Nat.pow 2 52 * g && 1 < g then g else 2 * g
  let lo := (4 * units - below) * den
  let hi := (4 * units + 2 * g) * den
  let x := 4 * num
  if units / g % 2 = 0 then lo ≤ x && x ≤ hi else lo < x && x < hi

/-- A candidate of the decimal grid with its distance to the value, both over the step. -/
def gridPoint (step : Int) (c : Nat) : Nat × Nat :=
  match step with
  | .ofNat s => (c * unit * Nat.pow 10 s, 1)
  | .negSucc s => (c * unit, Nat.pow 10 (s + 1))

/-- The grid neighbour of the value that reads back, the nearer one of two, the even one on a tie. -/
def onGrid? (units : Nat) (step : Int) : Option Nat :=
  let (num, den) := overStep units step
  let c := num / den
  let down := let (n, d) := gridPoint step c; readsBack units n d
  let up := let (n, d) := gridPoint step (c + 1); readsBack units n d
  let r := 2 * (num % den)
  if down && up then some (if r < den then c else if den < r then c + 1 else if c % 2 = 0 then c else c + 1)
  else if down then some c
  else if up then some (c + 1)
  else none

/-- Search the grids of growing precision; seventeen digits always suffice. -/
def shortestFrom (units : Nat) (exponent : Int) : Nat → Nat → Decimal
  | 0, _ => ⟨['0'], 0⟩
  | fuel + 1, precision =>
    let step := exponent - precision
    match onGrid? units step with
    | some c =>
      let ds := Nat.toDigits 10 c
      ⟨ds, step + ds.length - 1⟩
    | none => shortestFrom units exponent fuel (precision + 1)

def dropZeros (ds : List Char) : List Char :=
  match (ds.reverse.dropWhile (· == '0')).reverse with
  | [] => ['0']
  | ds => ds

/-- The fewest digits that read back as the given nonzero count of units. -/
def shortest (units : Nat) : Decimal :=
  let d := shortestFrom units (decimalExponent units) 17 0
  { d with digits := dropZeros d.digits }

/-- The value rounded to `n + 1` significant digits. -/
def rounded (units n : Nat) : Decimal :=
  let step := decimalExponent units - n
  let (num, den) := overStep units step
  let ds := Nat.toDigits 10 (roundHalfEven num den)
  ⟨dropZeros ds, step + ds.length - 1⟩

/-- Exponents have a sign and at least two digits. -/
def exponentText (e : Int) : List Char :=
  let ds := Nat.toDigits 10 e.natAbs
  'e' :: (if e < 0 then '-' else '+') :: (if ds.length < 2 then '0' :: ds else ds)

/-- `d.ddde±xx`; the point is left out after a single digit. -/
def Decimal.scientific (d : Decimal) : List Char :=
  (match d.digits with
    | [] => []
    | [c] => [c]
    | c :: cs => c :: '.' :: cs) ++ exponentText d.exponent

/-- Positional digits; `whole` is appended when nothing follows the point. -/
def Decimal.positional (d : Decimal) (whole : List Char) : List Char :=
  match d.exponent with
  | .ofNat e =>
    let pad := d.digits ++ List.replicate (e + 1 - d.digits.length) '0'
    match pad.drop (e + 1) with
    | [] => pad.take (e + 1) ++ whole
    | rest => pad.take (e + 1) ++ '.' :: rest
  | .negSucc e => '0' :: '.' :: (List.replicate e '0' ++ d.digits)

/-- Where positional notation ends and what stands after a whole number. -/
structure Style where
  upper : Int
  whole : List Char

def Decimal.text (style : Style) (d : Decimal) : List Char :=
  if -4 ≤ d.exponent ∧ d.exponent < style.upper then d.positional style.whole else d.scientific

def signText (negative : Bool) (cs : List Char) : String :=
  String.ofList (if negative then '-' :: cs else cs)

/-- The text of a value: fewest digits, positional below 10^16, whole numbers with a final `.0`. -/
def text : Binary64 → String
  | nan => "nan"
  | infinite s => signText s "inf".toList
  | finite s 0 => signText s "0.0".toList
  | finite s u => signText s ((shortest u).text ⟨16, ".0".toList⟩)

/-- The compact text: six significant digits at most, positional below 10^6. -/
def compact : Binary64 → String
  | nan => "nan"
  | infinite s => signText s "inf".toList
  | finite s 0 => signText s "0".toList
  | finite s u => signText s ((rounded u 5).text ⟨6, []⟩)

end Loom.Binary64
