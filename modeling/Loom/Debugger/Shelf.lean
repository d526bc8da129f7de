import Loom.Block.Sample
import Loom.Debugger.Library

/-! Programs of blocks on a shelf: one table of nodes, in which several programs may start. The sample
is always among them. -/
namespace Loom.Block

/-- One table of nodes, and the scope that its own program starts with. -/
structure Shelf where
  program : Program
  scope : Scope
  memory : Memory
  /-- Where the sample starts. -/
  sample : Nat

namespace Shelf

/-- Put a program on a shelf, next to the sample. -/
def ofProgram (p : Program) : Shelf :=
  let all := p.withSample
  let (scope, memory) := all.load
  { program := all, scope, memory, sample := p.nodes.size }

/-- A program found on the shelf. -/
structure Found where
  entry : Entry
  scope : Scope := []
  /-- Whether it is the shelf's own program, and not one made up when it was looked for. -/
  own : Bool := false

/-- The shelf's own program. -/
def own (s : Shelf) : Found := { entry := s.program.entry, scope := s.scope, own := true }

/-- The program that starts at a node with an empty scope. -/
def startingAt (node : Nat) : Found := { entry := .program (some node) [] }

/-- A program as a host. -/
def host (s : Shelf) (f : Found) : Host dialect := Block.host { s.program with entry := f.entry } f.scope

/-- The first node of a program. -/
def first (s : Shelf) (f : Found) : Except Fault (Option Node) :=
  match f.entry with
  | .program entry _ => .ok ((s.program.resolve entry).bind s.program.node?)
  | .source entry => entry.map fun e => (s.program.resolve e).bind s.program.node?
  | .absent => .ok none

/-- The module that has the sample, and the packages around it. -/
def modules (s : Shelf) : Library Found :=
  [{ name := "strands", isPackage := true },
    { name := "strands_dbg", isPackage := true },
    { name := "strands_dbg.sample"
      members := [
        ("build", .builder (.ok (.object (.program (startingAt s.sample)) []))),
        ("__doc__", .junk)] }]

end Shelf

/-- The class name of a program. -/
def Entry.className : Entry → String
  | .program .. => "Program"
  | .source _ => "Source"
  | .absent => "NoneType"

end Loom.Block
