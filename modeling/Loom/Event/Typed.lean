import Loom.Value.Convert

/-! Events and their typed images. An event is a table with the entries `seq`, `ts`, `type`, `strand`
and `data`; its typed image has those as header and the data entries that its type calls for as
detail. -/
namespace Loom

/-- What every event carries. -/
structure EventHeader where
  seq : Int
  ts : Binary64
  type : String
  strand : Option Int
  data : Table

/-- What an event of a known type carries besides. -/
inductive EventDetail where
  | plain
  | state (previous new reason : Value)
  | step (instruction next : Value) (hasNext : Bool) (steps : Option Int)
  | strand (action instruction : Value)
  | rotation (previous next : Option Int) (reason : Value)
  | stop (instruction reason : Value)
  | error (text : String) (kind : Value)

/-- The typed image of an event. -/
structure TypedEvent where
  header : EventHeader
  detail : EventDetail

namespace TypedEvent

/-- A whole number where one can be made; truth values and unreadable values give none. -/
def optionalInt (v : Value) : Except Fault (Option Int) :=
  match v with
  | .none => .ok none
  | .bool _ => .ok none
  | v =>
    match v.toInt with
    | .ok n => .ok (some n)
    | .error f => if f.kind = .overflow then .error f else .ok none

/-- A time stamp; what cannot be read counts as zero. -/
def stamp (v : Value) : Except Fault Binary64 :=
  match (v.orElse (.float .zero)).toFloat with
  | .ok x => .ok x
  | .error f => if f.kind = .overflow then .error f else .ok .zero

def readHeader (event : Table) : Except Fault EventHeader := do
  let ts ← stamp (event.find "ts")
  let seq ← optionalInt (event.find "seq")
  let type ← ((event.find "type").orElse (.str "")).plain
  let strand ← optionalInt (event.find "strand")
  let data ← ((event.find "data").orElse (.dict [])).toTable
  .ok { seq := seq.getD 0, ts, type, strand, data }

def readDetail (type : String) (data : Table) : Except Fault EventDetail :=
  match type with
  | "process_state" =>
    .ok (.state (data.find "prev_state") (data.find "new_state") (data.find "reason"))
  | "step" => do
    let steps ← optionalInt (data.find "steps")
    .ok (.step (data.find "instruction") (data.find "next") (data.find "has_next").truthy steps)
  | "strand" => .ok (.strand (data.find "action") (data.find "instruction"))
  | "scheduler" => do
    let previous ← optionalInt (data.find "prev_strand")
    let next ← optionalInt (data.find "next_strand")
    .ok (.rotation previous next (data.find "reason"))
  | "debug_break" => .ok (.stop (data.find "instruction") (data.find "reason"))
  | "error" => do
    let text ← ((data.find "error").orElse (.str "")).plain
    .ok (.error text (data.find "kind"))
  | _ => .ok .plain

/-- The typed image of an event given as a table. -/
def read (event : Table) : Except Fault TypedEvent := do
  let header ← readHeader event
  let detail ← readDetail header.type header.data
  .ok { header, detail }

/-- The name of a typed image's class. -/
def className (e : TypedEvent) : String :=
  match e.detail with
  | .plain => "BaseEvent"
  | .state .. => "ProcessStateEvent"
  | .step .. => "StepEvent"
  | .strand .. => "StrandEvent"
  | .rotation .. => "SchedulerEvent"
  | .stop .. => "DebugBreakEvent"
  | .error .. => "ErrorEvent"

def detailFields : EventDetail → List (String × Value)
  | .plain => []
  | .state previous new reason => [("prev_state", previous), ("new_state", new), ("reason", reason)]
  | .step instruction next hasNext steps =>
    [("instruction", instruction), ("next_instruction", next), ("has_next", .bool hasNext),
      ("steps", .ofOption .int steps)]
  | .strand action instruction => [("action", action), ("instruction", instruction)]
  | .rotation previous next reason =>
    [("prev_strand", .ofOption .int previous), ("next_strand", .ofOption .int next),
      ("reason", reason)]
  | .stop instruction reason => [("instruction", instruction), ("reason", reason)]
  | .error text kind => [("error", .str text), ("kind", kind)]

/-- All fields by name, the header's first. -/
def fields (e : TypedEvent) : List (String × Value) :=
  [("seq", .int e.header.seq), ("ts", .float e.header.ts), ("type", .str e.header.type),
    ("strand", .ofOption .int e.header.strand), ("data", .dict e.header.data)] ++
  detailFields e.detail

end TypedEvent

end Loom
