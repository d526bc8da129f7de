import Loom.Block.Run

/-! Strands on their own, outside the turns of a run. -/
namespace Loom.Block.Stand

/-- How a strand is made: at an instruction that may be missing, as a derived strand, or as the root of
a program. -/
inductive Making where
  | direct (entry : Option Nat) (scope : Option Table)
  | derived (entry : Option Nat) (scope : Option Table)
  | root (program : Program)

/-- A strand under a number of its own. -/
structure Lone where
  sid : Int
  run : Run

/-- The entry and the scope that a making calls for. -/
def entryOf (r : Run) : Making → Except Fault (Option Nat × Contents)
  | .direct entry scope =>
    match r.program.resolve entry with
    | none => .ok (none, .made (scope.getD []))
    | some i => do
      World.checkEntry r.host i
      .ok (some i, .made (scope.getD []))
  | .derived entry scope => do
    let i ← World.derivedEntry r.host (r.program.resolve entry)
    .ok (some i, .made (scope.getD []))
  | .root _ =>
    match r.host.source with
    | none => .error .noProgram
    | some source => do
      let first ← source.first r.world.memory
      let contents ← source.scope r.world.memory
      match first with
      | none => .ok (none, contents)
      | some i => do
        World.checkEntry r.host i
        .ok (first, contents)

/-- Make a strand. -/
def make (program : Program) (making : Making) (sid : Int) : Except Fault Lone := do
  let program := match making with
    | .root q => q
    | _ => program
  let r ← Run.prepare program {} .manual none none .zero
  let (cursor, scope) ← entryOf r making
  let (_, world) := (World.addStrand r.host cursor (.given scope)).outcome r.world
  .ok { sid, run := { r with world } }

/-- Execute the strand's instruction. -/
def advance (l : Lone) : Act (World dialect) Bool :=
  World.advance l.run.host (World.runScript l.run.serve) 0 l.sid true

def link (l : Lone) (node : Nat) (target : Option Nat) : Act (World dialect) Unit :=
  discard (l.run.carryOut (.link node target))

def snapshot (l : Lone) (w : World dialect) : Snapshot :=
  { World.snapshot l.run.host w.engine 0 with sid := l.sid }

def display (l : Lone) (w : World dialect) : String :=
  ((w.engine.strand? 0).map (World.describeStrand l.run.host l.sid)).getD ""

def scope (w : World dialect) : Table := w.memory.table (w.memory.scope 0)

end Loom.Block.Stand
