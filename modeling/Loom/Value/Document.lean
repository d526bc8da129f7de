import Loom.Value.Convert

/-! Values as indented JSON documents: two spaces a level, keys sorted, characters beyond ASCII
escaped by their UTF-16 units. -/
namespace Loom.Value

/-- One UTF-16 unit as an escape. -/
def unitEscape (n : Nat) : List Char := '\\' :: 'u' :: Text.hex 4 n

/-- A character of a JSON text. -/
def jsonEscape (c : Char) : List Char :=
  if c == '"' then ['\\', '"']
  else if c == '\\' then ['\\', '\\']
  else if c == '\n' then ['\\', 'n']
  else if c == '\r' then ['\\', 'r']
  else if c == '\t' then ['\\', 't']
  else if c.toNat == 8 then ['\\', 'b']
  else if c.toNat == 12 then ['\\', 'f']
  else if 32 ≤ c.toNat && c.toNat < 127 then [c]
  else if c.toNat < 0x10000 then unitEscape c.toNat
  else
    let n := c.toNat - 0x10000
    unitEscape (0xd800 + n / 0x400) ++ unitEscape (0xdc00 + n % 0x400)

def jsonText (s : String) : String :=
  String.ofList ('"' :: (s.toList.flatMap jsonEscape ++ ['"']))

def jsonFloat : Binary64 → String
  | .nan => "NaN"
  | .infinite negative => if negative then "-Infinity" else "Infinity"
  | x => x.text

/-- Keys that are not texts are written as texts. -/
def jsonKey : Value → Except Fault String
  | .str s => .ok s
  | .none => .ok "null"
  | .bool b => .ok (if b then "true" else "false")
  | .float x => .ok (jsonFloat x)
  | v => v.display

/-- Insert by bisection after every entry that is not above the new one. -/
def bisect (k : Value) (sorted : Array (Value × Value)) : Nat → Nat → Nat → Except Fault Nat
  | 0, lo, _ => .ok lo
  | fuel + 1, lo, hi =>
    if hi ≤ lo then .ok lo
    else
      let mid := lo + (hi - lo) / 2
      match sorted[mid]? with
      | Option.none => .ok lo
      | some (k', _) => do
        if ← k.lt k' then bisect k sorted fuel lo mid else bisect k sorted fuel (mid + 1) hi

def insertSorted (sorted : Array (Value × Value)) (entry : Value × Value) :
    Except Fault (Array (Value × Value)) := do
  let i ← bisect entry.1 sorted sorted.size 0 sorted.size
  .ok (sorted.take i ++ #[entry] ++ sorted.drop i)

/-- Take the leading run of keys that descends strictly (`down`) or never descends. -/
def leadingRun (down : Bool) (last : Value) : Table → Except Fault (Table × Table)
  | [] => .ok ([], [])
  | (k, v) :: es => do
    if (← k.lt last) == down then
      let (run, rest) ← leadingRun down k es
      .ok ((k, v) :: run, rest)
    else .ok ([], (k, v) :: es)

/-- Entries by key. Keys that cannot be ordered are a fault, named for the first two that meet: the
leading run is taken as it stands, and every later entry is placed by bisection. -/
def sortEntries : Table → Except Fault Table
  | [] => .ok []
  | [e] => .ok [e]
  | e :: f :: es => do
    let down ← f.1.lt e.1
    let (run, rest) ← leadingRun down f.1 es
    let run := e :: f :: run
    let start := (if down then run.reverse else run).toArray
    let sorted ← rest.foldlM insertSorted start
    .ok sorted.toList

def indent (level : Nat) : String := "\n" ++ String.ofList (List.replicate (2 * level) ' ')

mutual

/-- A value at an indentation level, to a given nesting depth. -/
def documentTo : Nat → Nat → Value → Except Fault String
  | _, _, .none => .ok "null"
  | _, _, .bool b => .ok (if b then "true" else "false")
  | _, _, .int n => (Value.int n).display
  | _, _, .float x => .ok (jsonFloat x)
  | _, _, .str s => .ok (jsonText s)
  | _, _, .list [] => .ok "[]"
  | _, _, .dict [] => .ok "\x7b\x7d"
  | 0, _, _ => .ok ""
  | fuel + 1, level, .list items => do
    let parts ← documentsTo fuel (level + 1) items
    .ok ("[" ++ indent (level + 1) ++ ("," ++ indent (level + 1)).intercalate parts ++ indent level ++ "]")
  | fuel + 1, level, .dict entries => do
    let sorted ← sortEntries entries
    let parts ← entriesTo fuel (level + 1) sorted
    .ok ("\x7b" ++ indent (level + 1) ++ ("," ++ indent (level + 1)).intercalate parts ++ indent level ++ "\x7d")
termination_by fuel => (fuel, 0)

def documentsTo : Nat → Nat → List Value → Except Fault (List String)
  | _, _, [] => .ok []
  | fuel, level, v :: vs => do
    let t ← documentTo fuel level v
    let ts ← documentsTo fuel level vs
    .ok (t :: ts)
termination_by fuel _ vs => (fuel, vs.length + 1)

def entriesTo : Nat → Nat → Table → Except Fault (List String)
  | _, _, [] => .ok []
  | fuel, level, (k, v) :: es => do
    let name ← jsonKey k
    let t ← documentTo fuel level v
    let ts ← entriesTo fuel level es
    .ok ((jsonText name ++ ": " ++ t) :: ts)
termination_by fuel _ es => (fuel, es.length + 1)

end

/-- The JSON document of a value. -/
def document (v : Value) : Except Fault String := documentTo (v.depth + 1) 0 v

end Loom.Value
