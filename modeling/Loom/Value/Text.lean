import Loom.Value.Basic
import Loom.Numeric.Literal
import Loom.Numeric.Shortest
import Loom.Text.Quoted

/-! How values are spelled. A whole number with more digits than a number text may have is not written at
all, nor is a value that holds one. -/
namespace Loom

namespace Value

/-- The spelling that shows a value unambiguously. -/
def spelling : Value → String
  | .none => "None"
  | .bool b => if b then "True" else "False"
  | .int n => toString n
  | .float x => x.text
  | .str s => Text.quoted s
  | .list items => "[" ++ ", ".intercalate (spellings items) ++ "]"
  | .dict entries => "\x7b" ++ ", ".intercalate (entrySpellings entries) ++ "\x7d"
where
  spellings : List Value → List String
    | [] => []
    | v :: vs => spelling v :: spellings vs
  entrySpellings : List (Value × Value) → List String
    | [] => []
    | (k, v) :: es => (spelling k ++ ": " ++ spelling v) :: entrySpellings es

/-- The spelling of a value in running prose. -/
def prose : Value → String
  | .str s => s
  | v => v.spelling

/-- The least whole number with too many digits. -/
@[irreducible] def wholeBound : Nat := Nat.pow 10 Literal.maxDigits

/-- No whole number in a value has too many digits. -/
def isWritable : Value → Bool
  | .int n => n.natAbs < wholeBound
  | .list items => allWritable items
  | .dict entries => entriesWritable entries
  | _ => true
where
  allWritable : List Value → Bool
    | [] => true
    | v :: vs => isWritable v && allWritable vs
  entriesWritable : List (Value × Value) → Bool
    | [] => true
    | (k, v) :: es => isWritable k && isWritable v && entriesWritable es

/-- The text that a value is. -/
def text? : Value → Option String
  | .str s => some s
  | _ => Option.none

def ofOption (f : α → Value) : Option α → Value
  | some a => f a
  | Option.none => .none

end Value

/-- The names of a table's entries, if all of them are texts. -/
def Table.names? (t : Table) : Option (List String) := t.mapM fun (k, _) => k.text?

end Loom
