import Loom.Engine.Operation
import Loom.Scheduler.Clockwork

/-! A small language of blocks. A block carries a name, a breakpoint mark and a list of actions on the
scope of the strand that executes it; actions can relink blocks and can ask the engine for
operations. Nodes that are not blocks stand for what a faulty program may link to. -/
namespace Loom.Block

/-- How a run says farewell once it is terminated. -/
inductive Parting where
  | record
  | raise
  | again
  deriving DecidableEq, Repr

/-- Where a spawned strand's scope comes from. -/
inductive ScopeSpec where
  | fresh
  | given (t : Table)
  | shared (sid : Nat)

mutual

/-- Operations on a run. Nodes are given by number. -/
inductive Command where
  | start (entry : Option Nat)
  | pause
  | resume
  | rate (given : Option Value)
  | terminate (parting : Option Parting)
  | breakpoints (on : Bool)
  | spawn (entry : Option Nat) (scope : ScopeSpec)
  | step
  | events (limit : Option Int)
  | emit (type strand : Value) (data : Table)
  | fire (number : Nat)
  | runNext
  | runAll (limit : Option Int)
  | refuse (on : Bool)
  | pump
  | current
  | timeSlice (n : Int)
  | drop (position : Int)
  | cut (sid : Nat)
  | link (node : Nat) (target : Option Nat)
  | predicate (p : Option Predicate)

/-- When to stop before a block. -/
inductive Predicate where
  /-- When its label is one of these. -/
  | labels (names : List String)
  | constant (v : Value)
  | raise (f : Fault)
  /-- Carry out an operation, then answer. -/
  | after (c : Command) (v : Value)

end

instance : Inhabited Command := ⟨.pause⟩

instance : Inhabited Predicate := ⟨.labels []⟩

/-- What a block does. -/
inductive Action where
  /-- Append to the list under `log`. -/
  | log (v : Value)
  /-- Append the value of a variable to the list under `log`. -/
  | logVariable (name : String)
  | set (name : String) (v : Value)
  | increase (name : String) (amount : Int)
  | delete (name : String)
  | raise (f : Fault)
  | link (node : Nat) (target : Option Nat)
  /-- Count up, and go to the target as long as the count is below the bound. -/
  | loop (name : String) (bound : Int) (target : Option Nat)
  /-- While a count is below the bound, count up and act. -/
  | whenBelow (name : String) (bound : Int) (actions : List Action)
  | call (c : Command)
  /-- Carry out an operation and log how it went. -/
  | attempt (c : Command)
  deriving Inhabited

/-- What a node is. -/
inductive NodeKind where
  | block
  /-- An instruction of another make, with a name and a mark. -/
  | custom
  /-- An instruction without name or mark. -/
  | bare
  | noExecute
  | noSuccessor
  | nonCallable
  /-- A plain value. -/
  | plain (v : Value)

structure Node where
  id : String
  kind : NodeKind := .block
  name : Value
  breakpoint : Value := .bool false
  actions : List Action := []
  /-- The fault of asking for the successor. -/
  successorFault : Option Fault := none

namespace Node

/-- The name of a node's class. -/
def className (n : Node) : String :=
  match n.kind with
  | .block => "Block"
  | .custom => "Opaque"
  | .bare => "Bare"
  | .noExecute => "NoExecute"
  | .noSuccessor => "NoSuccessor"
  | .nonCallable => "NonCallable"
  | .plain v => v.kind

/-- Whether a node can be executed and knows its successor. -/
def isInstruction (n : Node) : Bool :=
  match n.kind with
  | .block | .custom | .bare => true
  | _ => false

/-- The name and the mark belong to blocks and their like. -/
def isNamed (n : Node) : Bool :=
  match n.kind with
  | .block | .custom => true
  | _ => false

/-- The label: the name, or the class where there is none. -/
def label (n : Node) : String := if n.isNamed && n.name.truthy then n.name.prose else n.className

def hasBreakpoint (n : Node) : Bool := n.isNamed && n.breakpoint.truthy

/-- The text that shows a node. -/
def display (n : Node) : Except Fault String :=
  match n.kind with
  | .plain v => v.display
  | .block => do
    let name ← n.name.display
    let breakpoint ← n.breakpoint.display
    .ok s!"Block(action=<action>, name={name}, breakpoint={breakpoint})"
  | _ => .ok s!"<{n.className} {n.id}>"

/-- The plain value that is nothing is no node at all. -/
def isNothing (n : Node) : Bool :=
  match n.kind with
  | .plain .none => true
  | _ => false

end Node

/-- Where a program of blocks starts. -/
inductive Entry where
  /-- An entry node, a scope to start with. -/
  | program (entry : Option Nat) (scope : Table)
  /-- An entry node only, or a fault in its place. -/
  | source (entry : Except Fault (Option Nat))
  | absent

/-- A program: its nodes, their links and where it starts. -/
structure Program where
  nodes : Array Node
  links : Array (Option Nat)
  entry : Entry

namespace Program

def node? (p : Program) (i : Nat) : Option Node := p.nodes[i]?

/-- A reference to a node; nothing for a node that is nothing. -/
def resolve (p : Program) (target : Option Nat) : Option Nat :=
  target.filter fun i => (p.node? i).any (!·.isNothing)

/-- Links of what is no instruction are of no account. -/
def setLink (p : Program) (i : Nat) (target : Option Nat) : Program :=
  if (p.node? i).any (·.isInstruction) then { p with links := p.links.setIfInBounds i target } else p

/-- Link nodes in a row; the last one leads nowhere. -/
def chain (p : Program) : List Nat → Program
  | [] => p
  | [i] => p.setLink i none
  | i :: j :: rest => (p.setLink i (some j)).chain (j :: rest)

/-- The nodes reached from one, in order, up to a bound. -/
def walk (p : Program) : Nat → Option Nat → List Nat
  | 0, _ => []
  | _, none => []
  | fuel + 1, some i => i :: p.walk fuel (p.resolve (p.links[i]?.getD none))

end Program

end Loom.Block
