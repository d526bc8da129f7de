import Loom.Numeric.Binary64

/-! Dynamic values: what programs keep in their scopes, what events carry and what settings are given
as. Numbers of different kinds that denote the same number are equal, and tables keep the order in
which their keys were first put. -/
namespace Loom

inductive Value where
  | none
  | bool (b : Bool)
  | int (n : Int)
  | float (x : Binary64)
  | str (s : String)
  | list (items : List Value)
  | dict (entries : List (Value × Value))
  deriving Repr, Inhabited

/-- A table, as its entries in order of first insertion. -/
abbrev Table := List (Value × Value)

namespace Value

/-- The word for a value's kind. -/
def kind : Value → String
  | .none => "NoneType"
  | .bool _ => "bool"
  | .int _ => "int"
  | .float _ => "float"
  | .str _ => "str"
  | .list _ => "list"
  | .dict _ => "dict"

/-- Nothing, zero and what is empty count as false. -/
def truthy : Value → Bool
  | .none => false
  | .bool b => b
  | .int n => n != 0
  | .float x => !x.isZero
  | .str s => !s.isEmpty
  | .list items => !items.isEmpty
  | .dict entries => !entries.isEmpty

/-- A number: truth values count as 0 and 1. -/
inductive Number where
  | whole (n : Int)
  | binary (x : Binary64)

def number? : Value → Option Number
  | .bool b => some (.whole (if b then 1 else 0))
  | .int n => some (.whole n)
  | .float x => some (.binary x)
  | _ => Option.none

def Number.eq : Number → Number → Bool
  | .whole m, .whole n => m == n
  | .whole m, .binary y => y.eqInt m
  | .binary x, .whole n => x.eqInt n
  | .binary x, .binary y => x.eq y

def Number.lt : Number → Number → Bool
  | .whole m, .whole n => m < n
  | .whole m, .binary y => y.gtInt m
  | .binary x, .whole n => x.ltInt n
  | .binary x, .binary y => x.lt y

/-- A bound on the nesting depth of a value. -/
def depth : Value → Nat
  | .list items => depthList items + 1
  | .dict entries => depthEntries entries + 1
  | _ => 0
where
  depthList : List Value → Nat
    | [] => 0
    | v :: vs => Nat.max (depth v) (depthList vs)
  depthEntries : List (Value × Value) → Nat
    | [] => 0
    | (k, v) :: es => Nat.max (Nat.max (depth k) (depth v)) (depthEntries es)

/-- Equality to a given nesting depth. -/
def eqTo : Nat → Value → Value → Bool
  | fuel, .list xs, .list ys =>
    match fuel with
    | 0 => false
    | fuel + 1 => xs.length == ys.length && (xs.zip ys).all fun (x, y) => eqTo fuel x y
  | fuel, .dict xs, .dict ys =>
    match fuel with
    | 0 => false
    | fuel + 1 => xs.length == ys.length && xs.all fun (k, v) =>
        match ys.find? fun (k', _) => eqTo fuel k k' with
        | some (_, v') => eqTo fuel v v'
        | Option.none => false
  | _, .none, .none => true
  | _, .str s, .str t => s == t
  | _, v, w =>
    match v.number?, w.number? with
    | some m, some n => m.eq n
    | _, _ => false

/-- Equality of values: numbers by what they denote, lists item by item, tables key by key. -/
def same (v w : Value) : Bool := eqTo (v.depth + 1) v w

/-- Values that may be keys. -/
def isHashable : Value → Bool
  | .list _ => false
  | .dict _ => false
  | _ => true

end Value

namespace Table

def get? (t : Table) (k : Value) : Option Value :=
  (t.find? fun (k', _) => k'.same k).map (·.2)

/-- The entry of a name. -/
def find (t : Table) (name : String) : Value := (get? t (.str name)).getD .none

def has (t : Table) (name : String) : Bool := (get? t (.str name)).isSome

/-- Put a value under a key: a known key keeps its place and its first spelling. -/
def put (t : Table) (k v : Value) : Table :=
  if t.any fun (k', _) => k'.same k then
    t.map fun (k', v') => if k'.same k then (k', v) else (k', v')
  else t ++ [(k, v)]

/-- Remove a key. -/
def drop (t : Table) (k : Value) : Table := t.filter fun (k', _) => !k'.same k

def ofEntries (es : List (Value × Value)) : Table := es.foldl (fun t (k, v) => put t k v) []

/-- A table with the given names as keys. -/
def ofNamed (es : List (String × Value)) : Table := es.map fun (k, v) => (.str k, v)

end Table

end Loom
