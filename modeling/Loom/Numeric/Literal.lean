import Loom.Numeric.Binary64
import Loom.Text.Space

/-! Number texts. Digits of any script count as digits, padding blanks are dropped, and single
underscores may stand between digits. -/
namespace Loom.Literal

/-- The code points of the zeros of Unicode 14. -/
def digitZeros : List Nat :=
  [
    0x30, 0x660, 0x6f0, 0x7c0, 0x966, 0x9e6, 0xa66, 0xae6, 0xb66, 0xbe6, 0xc66, 0xce6,
    0xd66, 0xde6, 0xe50, 0xed0, 0xf20, 0x1040, 0x1090, 0x17e0, 0x1810, 0x1946, 0x19d0, 0x1a80,
    0x1a90, 0x1b50, 0x1bb0, 0x1c40, 0x1c50, 0xa620, 0xa8d0, 0xa900, 0xa9d0, 0xa9f0, 0xaa50, 0xabf0,
    0xff10, 0x104a0, 0x10d30, 0x11066, 0x110f0, 0x11136, 0x111d0, 0x112f0, 0x11450, 0x114d0, 0x11650, 0x116c0,
    0x11730, 0x118e0, 0x11950, 0x11c50, 0x11d50, 0x11da0, 0x16a60, 0x16ac0, 0x16b50, 0x1d7ce, 0x1d7d8, 0x1d7e2,
    0x1d7ec, 0x1d7f6, 0x1e140, 0x1e2f0, 0x1e950, 0x1fbf0
  ]

/-- The value of a decimal digit of any script. -/
def digitValue? (c : Char) : Option Nat :=
  (digitZeros.find? fun z => z ≤ c.toNat && c.toNat < z + 10).map (c.toNat - ·)

/-- Digits of other scripts become ASCII digits and blanks beyond ASCII become spaces; any other
character beyond ASCII is kept and so refused later. -/
def plain (c : Char) : Char :=
  if c.toNat < 127 then c
  else if Text.isBlank c then ' '
  else match digitValue? c with
    | some d => Char.ofNat (48 + d)
    | none => c

/-- The characters of a number text without padding. -/
def body (s : String) : List Char :=
  Text.trimBy Text.isAsciiBlank (s.toList.map plain)

/-- Split off a leading sign; true is minus. -/
def sign : List Char → Bool × List Char
  | '-' :: cs => (true, cs)
  | '+' :: cs => (false, cs)
  | cs => (false, cs)

/-- Every underscore stands between two digits. -/
def underscoresFit : Bool → List Char → Bool
  | _, [] => true
  | afterDigit, '_' :: cs =>
    afterDigit && (match cs with | d :: _ => d.isDigit | [] => false) && underscoresFit false cs
  | _, c :: cs => underscoresFit c.isDigit cs

/-- The value of a run of ASCII digits. -/
def value (cs : List Char) : Nat := cs.foldl (fun n c => 10 * n + (c.toNat - 48)) 0

/-- Why a text is no whole number. -/
inductive Refusal where
  | malformed
  | tooLong (digits : Nat)

/-- The longest run of digits that is converted. -/
def maxDigits : Nat := 4300

/-- Read a whole number. The count of digits is checked before what follows them. -/
def int? (s : String) : Except Refusal Int :=
  let (negative, cs) := sign (body s)
  let isPart := fun c : Char => c.isDigit || c == '_'
  let run := cs.takeWhile isPart
  let digits := run.filter Char.isDigit
  if !underscoresFit false run then .error .malformed
  else if maxDigits < digits.length then .error (.tooLong digits.length)
  else if digits.isEmpty || !(cs.dropWhile isPart).isEmpty then .error .malformed
  else .ok (if negative then -(value digits : Int) else value digits)

/-- The exponent part: nothing, or a mark, a sign and digits up to the end. -/
def exponent? : List Char → Option Int
  | [] => some 0
  | e :: cs =>
    if e == 'e' || e == 'E' then
      let (negative, ds) := sign cs
      if ds.isEmpty || !ds.all Char.isDigit then none
      else some (if negative then -(value ds : Int) else value ds)
    else none

/-- Read an unsigned number: digits with at most one point, then an exponent. -/
def unsigned? (negative : Bool) (cs : List Char) : Option Binary64 :=
  let whole := cs.takeWhile Char.isDigit
  let rest := cs.dropWhile Char.isDigit
  let (fraction, rest) := match rest with
    | '.' :: rest => (rest.takeWhile Char.isDigit, rest.dropWhile Char.isDigit)
    | rest => ([], rest)
  if whole.isEmpty && fraction.isEmpty then none
  else (exponent? rest).map fun e =>
    Binary64.ofDecimal negative (value (whole ++ fraction)) (e - fraction.length)

/-- Read a number, the names of infinity and NaN in any letter case included. -/
def float? (s : String) : Option Binary64 :=
  let cs := body s
  if !underscoresFit false cs then none
  else
    let (negative, cs) := sign (cs.filter (· != '_'))
    let word := String.ofList (cs.map Char.toLower)
    if word == "inf" || word == "infinity" then some (.infinite negative)
    else if word == "nan" then some .nan
    else unsigned? negative cs

end Loom.Literal
