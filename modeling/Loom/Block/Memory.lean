import Loom.Block.Basic

/-! The memory of a running program of blocks. Lists kept in a scope are cells, so that strands whose
scopes were copied from one another still share them. -/
namespace Loom.Block

/-- What a scope holds under a name. -/
inductive Slot where
  | plain (v : Value)
  | cell (n : Nat)

/-- Variables in order of first assignment. -/
abbrev Scope := List (Value × Slot)

/-- Contents for a new scope: another scope's entries, or values of its own. -/
inductive Contents where
  | copied (s : Scope)
  | made (t : Table)

/-- What is known when a run says farewell. -/
structure Ending where
  steps : Nat
  phase : Phase
  strands : Nat

structure Memory where
  links : Array (Option Nat)
  /-- The links at the start. -/
  firstLinks : Array (Option Nat)
  cells : Array (List Value) := #[]
  /-- Scopes by the number of the strand they were made for. -/
  scopes : List (Nat × Scope) := []
  predicate : Option Predicate := none
  endings : List Ending := []
  /-- The strands that operations have shown. -/
  shown : List Nat := []

namespace Memory

def scope (m : Memory) (n : Nat) : Scope := ((m.scopes.find? (·.1 == n)).map (·.2)).getD []

def setScope (m : Memory) (n : Nat) (s : Scope) : Memory :=
  { m with scopes := (n, s) :: m.scopes.filter (·.1 != n) }

/-- Keep a value; a list gets a cell. -/
def keep (m : Memory) : Value → Slot × Memory
  | .list vs => (.cell m.cells.size, { m with cells := m.cells.push vs })
  | v => (.plain v, m)

def slotValue (m : Memory) : Slot → Value
  | .plain v => v
  | .cell n => .list (m.cells[n]?.getD [])

/-- A scope as a table. -/
def table (m : Memory) (s : Scope) : Table := s.map fun (k, slot) => (k, m.slotValue slot)

def slot? (s : Scope) (name : String) : Option Slot :=
  (s.find? fun (k, _) => k.same (.str name)).map (·.2)

def putSlot (s : Scope) (name : String) (slot : Slot) : Scope :=
  if (slot? s name).isSome then
    s.map fun (k, old) => if k.same (.str name) then (k, slot) else (k, old)
  else s ++ [(.str name, slot)]

/-- The value of a variable. -/
def get? (m : Memory) (n : Nat) (name : String) : Option Value :=
  (slot? (m.scope n) name).map m.slotValue

/-- Assign a variable. -/
def put (m : Memory) (n : Nat) (name : String) (v : Value) : Memory :=
  let (slot, m) := m.keep v
  m.setScope n (putSlot (m.scope n) name slot)

def delete (m : Memory) (n : Nat) (name : String) : Except Fault Memory :=
  if (slot? (m.scope n) name).isSome then
    .ok (m.setScope n ((m.scope n).filter fun (k, _) => !k.same (.str name)))
  else .error (.missingKey (.str name))

/-- Append to the list under `log`, which is made when it is missing. -/
def log (m : Memory) (n : Nat) (v : Value) : Except Fault Memory :=
  match slot? (m.scope n) "log" with
  | none => .ok (m.put n "log" (.list [v]))
  | some (.cell c) => .ok { m with cells := m.cells.modify c (· ++ [v]) }
  | some (.plain w) => .error (.noMember w.kind "append")

def increase (m : Memory) (n : Nat) (name : String) (amount : Int) : Except Fault Memory :=
  match m.get? n name with
  | none => .error (.missingKey (.str name))
  | some v => do .ok (m.put n name (← v.addInt amount))

/-- Count a variable up from zero. -/
def countUp (m : Memory) (n : Nat) (name : String) : Except Fault Memory := do
  let v ← ((m.get? n name).getD (.int 0)).addInt 1
  .ok (m.put n name v)

/-- Whether a count is below a bound. -/
def isBelow (m : Memory) (n : Nat) (name : String) (bound : Int) : Except Fault Bool :=
  ((m.get? n name).getD (.int 0)).ltInt bound

/-- Make a scope from a table; its lists get cells of their own. -/
def make (m : Memory) (t : Table) : Scope × Memory :=
  t.foldl (fun (s, m) (k, v) =>
    let (slot, m) := m.keep v
    (s ++ [(k, slot)], m)) ([], m)

def install (m : Memory) (n : Nat) : Contents → Memory
  | .copied s => m.setScope n s
  | .made t => let (s, m) := m.make t; m.setScope n s

/-- Show strands, each once. -/
def present (m : Memory) (sids : List Nat) : Memory :=
  { m with shown := m.shown ++ sids.filter (!m.shown.contains ·) }

end Memory

end Loom.Block
