import Loom.Fault
import Loom.Numeric.Literal

/-! Conversions between values, each failing with the cause that its argument's kind and size decide. -/
namespace Loom.Value

/-- The number of a value: texts are read, whole numbers are rounded. -/
def toFloat : Value → Except Fault Binary64
  | .bool b => .ok (if b then .finite false Binary64.unit else .zero)
  | .int n =>
    match Binary64.ofInt? n with
    | some x => .ok x
    | Option.none => .error .wholeTooLarge
  | .float x => .ok x
  | .str s =>
    match Literal.float? s with
    | some x => .ok x
    | Option.none => .error (.notNumeric s)
  | v => .error (.noNumberOf v.kind)

/-- The whole number of a text. -/
def wholeOfText (s : String) : Except Fault Int :=
  match Literal.int? s with
  | .ok n => .ok n
  | .error .malformed => .error (.notWhole s)
  | .error (.tooLong count) => .error (.tooManyDigits count)

/-- The whole number of a value: texts are read, fractions are dropped. -/
def toInt : Value → Except Fault Int
  | .bool b => .ok (if b then 1 else 0)
  | .int n => .ok n
  | .float .nan => .error .nanToWhole
  | .float x =>
    match x.trunc? with
    | some n => .ok n
    | Option.none => .error .infinityToWhole
  | .str s => wholeOfText s
  | v => .error (.noWholeOf v.kind)

/-- Compare with a whole number. -/
def ltInt (v : Value) (n : Int) : Except Fault Bool :=
  match v.number? with
  | some m => .ok (m.lt (.whole n))
  | Option.none => .error (.unordered "<" v.kind "int")

def leInt (v : Value) (n : Int) : Except Fault Bool :=
  match v.number? with
  | some m => .ok (m.lt (.whole n) || m.eq (.whole n))
  | Option.none => .error (.unordered "<=" v.kind "int")

/-- Order of two values: numbers by size, texts by code point. -/
def lt (v w : Value) : Except Fault Bool :=
  match v, w with
  | .str s, .str t => .ok (s < t)
  | v, w =>
    match v.number?, w.number? with
    | some m, some n => .ok (m.lt n)
    | _, _ => .error (.unordered "<" v.kind w.kind)

/-- A value plus a whole number. -/
def addInt (v : Value) (n : Int) : Except Fault Value :=
  match v with
  | .bool b => .ok (.int ((if b then 1 else 0) + n))
  | .int m => .ok (.int (m + n))
  | .float x =>
    match Binary64.ofInt? n with
    | some y => .ok (.float (x.add y))
    | Option.none => .error .wholeTooLarge
  | .list _ => .error (.listPlus "int")
  | .str _ => .error (.textPlus "int")
  | v => .error (.notAddable v.kind "int")

/-- The items that a value runs through: list items, characters, keys. -/
def items? : Value → Option (List Value)
  | .list items => some items
  | .str s => some (s.toList.map fun c => .str c.toString)
  | .dict entries => some (entries.map (·.1))
  | _ => Option.none

def items (v : Value) : Except Fault (List Value) :=
  match v.items? with
  | some vs => .ok vs
  | Option.none => .error (.notIterable v.kind)

/-- Put the pairs of a sequence into a table, in order. -/
def tableOfPairs : Nat → Table → List Value → Except Fault Table
  | _, t, [] => .ok t
  | i, t, v :: vs =>
    match v.items? with
    | Option.none => .error (.entryNotPair i)
    | some [k, w] =>
      if k.isHashable then tableOfPairs (i + 1) (t.put k w) vs else .error (.unhashable k.kind)
    | some vs' => .error (.entryLength i vs'.length)

/-- The table of a value: a table itself, or a sequence of pairs. -/
def toTable : Value → Except Fault Table
  | .dict entries => .ok entries
  | v => v.items.bind (tableOfPairs 0 [])

/-- The first value unless it counts as false. -/
def orElse (v w : Value) : Value := if v.truthy then v else w

end Loom.Value
