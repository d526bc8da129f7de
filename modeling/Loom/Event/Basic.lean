import Loom.Value.Convert

/-! The events of an engine: what happened, numbered and stamped. -/
namespace Loom

/-- What can happen to an engine. -/
inductive Happening where
  /-- The phase changed. -/
  | phase (old new : Phase) (reason : String)
  /-- A strand came to life at an instruction. -/
  | spawned (sid : Nat) (instruction : String)
  /-- A strand ran out of instructions. -/
  | retired (sid steps : Nat)
  /-- The turn passed from one strand to another. -/
  | rotated (old new : Nat)
  /-- An instruction was stopped before. -/
  | stopped (sid : Nat) (instruction : String)
  /-- An instruction was executed. -/
  | stepped (sid : Nat) (instruction : String) (next : Option String) (hasNext : Bool) (steps : Nat)
  /-- An instruction failed. -/
  | failed (sid : Nat) (error kind : String)
  /-- The host announced something of its own. -/
  | announced (type strand : Value) (data : Table)
  deriving Repr

namespace Happening

def type : Happening → Value
  | phase .. => .str "process_state"
  | spawned .. => .str "strand"
  | retired .. => .str "strand"
  | rotated .. => .str "scheduler"
  | stopped .. => .str "debug_break"
  | stepped .. => .str "step"
  | failed .. => .str "error"
  | announced type _ _ => type

/-- The strand an event is about. -/
def strand : Happening → Value
  | phase .. => .none
  | spawned sid _ => .int sid
  | retired sid _ => .int sid
  | rotated _ new => .int new
  | stopped sid _ => .int sid
  | stepped sid .. => .int sid
  | failed sid .. => .int sid
  | announced _ strand _ => strand

def data : Happening → Table
  | phase old new reason =>
    Table.ofNamed [("prev_state", .str old.name), ("new_state", .str new.name), ("reason", .str reason)]
  | spawned _ instruction =>
    Table.ofNamed [("action", .str "spawned"), ("instruction", .str instruction)]
  | retired _ steps => Table.ofNamed [("action", .str "halted"), ("steps", .int steps)]
  | rotated old new =>
    Table.ofNamed [("prev_strand", .int old), ("next_strand", .int new), ("reason", .str "rotate")]
  | stopped _ instruction =>
    Table.ofNamed [("instruction", .str instruction), ("reason", .str "breakpoint")]
  | stepped _ instruction next hasNext steps =>
    Table.ofNamed [("instruction", .str instruction), ("next", .ofOption .str next),
      ("has_next", .bool hasNext), ("steps", .int steps)]
  | failed _ error kind => Table.ofNamed [("error", .str error), ("kind", .str kind)]
  | announced _ _ data => data

/-- Host announcements: data are named by texts, and no name may be one the engine uses itself. -/
def announce (type strand : Value) (data : Table) : Except Fault Happening :=
  if data.has "strand" then
    .error (.repeatedKeyword "strands.process.Process.emit_event" "strand")
  else
    match data.names? with
    | none => .error .namesNotText
    | some keys =>
      match keys.find? (["self", "event_type"].contains ·) with
      | some k => .error (.repeatedArgument "Process.emit_event" k)
      | none => .ok (.announced type strand data)

end Happening

/-- An event: its number, its time stamp and what happened. -/
structure Event where
  seq : Nat
  ts : Binary64
  what : Happening
  deriving Repr

/-- An event as a table. -/
def Event.table (e : Event) : Table :=
  Table.ofNamed [("seq", .int e.seq), ("ts", .float e.ts), ("type", e.what.type),
    ("strand", e.what.strand), ("data", .dict e.what.data)]

end Loom
