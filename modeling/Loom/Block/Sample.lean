import Loom.Block.Host

/-! The sample program: it counts to three and stops before the first count. -/
namespace Loom.Block

namespace Sample

/-- Set the count to zero and start an empty log. -/
def init : Node where
  id := "init"
  name := .str "init"
  actions := [.set "count" (.int 0), .set "log" (.list [])]

/-- Count up and log the count. -/
def bump (name : String) (breakpoint : Bool) : Node where
  id := name
  name := .str name
  breakpoint := .bool breakpoint
  actions := [.increase "count" 1, .logVariable "count"]

def nodes : List Node := [init, bump "bump-1" true, bump "bump-2" false, bump "bump-3" false]

end Sample

/-- The nodes of a program followed by those of the sample. -/
def Program.withSample (p : Program) : Program :=
  let first := p.nodes.size
  let all : Program :=
    { p with
      nodes := p.nodes ++ Sample.nodes.toArray
      links := p.links ++ (Sample.nodes.map fun _ => none).toArray }
  all.chain ((List.range Sample.nodes.length).map (first + ·))

end Loom.Block
