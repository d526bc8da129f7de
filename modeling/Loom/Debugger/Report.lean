import Loom.Event.Typed
import Loom.Value.Document

/-! What the debugger prints: results and errors as prose or as JSON, the strand table, the state of
an engine, events, and notices of events worth interrupting for. -/
namespace Loom.Report

def padRight (width : Nat) (s : String) : String :=
  s ++ String.ofList (List.replicate (width - s.length) ' ')

def padLeft (width : Nat) (s : String) : String :=
  String.ofList (List.replicate (width - s.length) ' ') ++ s

def line (s : String) : String := s ++ "\n"

/-- The outcome of a command. In JSON the data stand for the message where there are any. -/
def result (json : Bool) (message : String) (data : Option Table) : Except Fault String :=
  if json then do
    let payload := match data with
      | some d => ("result", .dict d)
      | none => ("message", .str message)
    .ok (line (← (Value.dict (Table.ofNamed [("status", .str "ok"), payload])).document))
  else .ok (line message)

/-- A failure. Details are shown in JSON only, and only where there are any. -/
def error (json : Bool) (message : String) (data : Option Table) : Except Fault String :=
  if json then do
    let details := match data with
      | some (d :: ds) => [("details", .dict (d :: ds))]
      | _ => []
    let payload := [("status", .str "error"), ("error", .str message)] ++ details
    .ok (line (← (Value.dict (Table.ofNamed payload)).document))
  else .ok (line ("error: " ++ message))

/-- One row of the strand table; the current strand is starred. -/
def strandRow (current : Value) (strand : Table) : Except Fault String := do
  let sid := (strand.get? (.str "sid")).getD (.str "-")
  let steps := (strand.get? (.str "steps")).getD (.str "-")
  let instruction := (strand.find "instruction").orElse (.str "-")
  let marker := match current with
    | .none => " "
    | c => if sid.same c then "*" else " "
  .ok (line ("    " ++ marker ++ " " ++ padRight 4 (← sid.plain) ++ "  " ++ padLeft 8 (← steps.plain) ++ "  " ++
    (← instruction.plain)))

def strandTable (strands : List Table) (current : Value) : Except Fault String :=
  match strands with
  | [] => .ok (line "  strands: (none)")
  | strands => do
    let rows ← strands.mapM (strandRow current)
    .ok (line "  strands:" ++ line "      SID   Steps     Instruction" ++
      line "      ---------------------------" ++ String.join rows)

/-- One setting under its name, if it is known. -/
def infoRow (t : Table) (name : String) : Except Fault String :=
  if t.has name then do .ok (line ("    " ++ padRight 16 name ++ ": " ++ (← (t.find name).plain))) else .ok ""

/-- The state of an engine: a headline and the settings that are known. -/
def info (t : Table) : Except Fault String := do
  let state ← (t.find "state").plain
  let steps ← (t.find "total_steps").plain
  let rate ← (t.find "rate_ms").plain
  let rows ← ["breakpoints", "time_slice", "pending", "current_strand"].mapM (infoRow t)
  .ok (line s!"  state={state} steps={steps} rate={rate}ms" ++ String.join rows)

/-- One event on one line. -/
def event (e : Table) : Except Fault String :=
  match (e.find "data").orElse (.dict []) with
  | .dict data => do
    let fields ← data.mapM fun (k, v) => do .ok ((← k.plain) ++ "=" ++ (← v.plain))
    let place ← match e.find "strand" with
      | .none => .ok ""
      | s => do .ok (" strand=" ++ (← s.plain))
    let seq ← (e.find "seq").plain
    let type ← (e.find "type").plain
    let entries := " ".intercalate fields
    .ok (Text.trimEnd s!"#{seq} {type}{place} {entries}")
  | v => .error (.noMember v.kind "items")

/-- A one-line notice of a stop, a failure or the end of running. -/
def notice (e : TypedEvent) : Except Fault (Option String) :=
  let strand := Value.ofOption .int e.header.strand
  match e.detail with
  | .stop instruction _ => do
    .ok (some ("[break] strand " ++ (← strand.plain) ++ " stopped before " ++ (← instruction.plain)))
  | .error text kind => do
    .ok (some ("[error] strand " ++ (← strand.plain) ++ ": " ++ (← kind.plain) ++ ": " ++ text))
  | .state previous new reason =>
    if ["paused", "halted", "terminated"].any fun w => new.same (.str w) then do
      .ok (some ("[state] " ++ (← previous.plain) ++ " -> " ++ (← new.plain) ++ " (" ++ (← reason.plain) ++ ")"))
    else .ok none
  | _ => .ok none

end Loom.Report
