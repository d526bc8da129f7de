import Loom.Arguments.Help
import Loom.Debugger.Report

/-! The verbs of the debugger, and registries of commands. -/
namespace Loom

/-- What the debugger can be told to do. -/
inductive Verb where
  | help
  | start
  | pause
  | resume
  | step
  | rate
  | breakpoints
  | info
  | strands
  | events
  | terminate
  | exit
  deriving DecidableEq, Repr

/-- A command: its name, what it does in a line, and other names for it. A command without a verb is a
name only. -/
structure DebugCommand where
  name : String
  summary : String
  aliases : List String := []
  verb : Option Verb := none

namespace Verb

def all : List Verb :=
  [help, start, pause, resume, step, rate, breakpoints, info, strands, events, terminate, exit]

/-- The command of a verb. -/
def command (v : Verb) : DebugCommand :=
  let (name, summary, aliases) : String × String × List String := match v with
    | help => ("help", "List commands, or show usage for one", ["?"])
    | start => ("start", "Start a fresh process on the loaded program", ["run"])
    | pause => ("pause", "Pause before the next instruction", [])
    | resume => ("continue", "Resume execution", ["cont", "resume"])
    | step => ("step", "Execute instructions one at a time", ["next", "s"])
    | rate => ("rate", "Set ms per instruction (no value = unlimited)", [])
    | breakpoints => ("break", "Enable/disable breakpoints (on|off)", ["bp"])
    | info => ("info", "Show process state", [])
    | strands => ("strands", "List live strands", ["ps"])
    | events => ("events", "Show recent process events", [])
    | terminate => ("terminate", "Stop the process for good", ["kill"])
    | exit => ("exit", "Terminate the process and leave the debugger", ["quit", "q"])
  { name, summary, aliases, verb := some v }

def switches : Verb → List Arguments.Switch
  | start => [{ key := "paused", names := ["--paused"], effect := .flag,
                help := "Pause before the first instruction" }]
  | _ => []

def operand : Verb → Option Arguments.Operand
  | help => some { key := "topic", help := "Command name or alias" }
  | step => some { key := "count", reading := .whole, help := "Instruction count (default 1)" }
  | rate => some { key := "ms", help := "Delay between instructions in ms" }
  | breakpoints =>
    some { key := "mode", choices := ["on", "off"], help := "Omit to show the current setting" }
  | events => some { key := "limit", reading := .whole, help := "How many events (default 20)" }
  | _ => none

end Verb

namespace DebugCommand

def names (c : DebugCommand) : List String := c.name :: c.aliases

/-- The arguments that a command takes. -/
def form (c : DebugCommand) : Arguments.Form where
  command := c.name
  summary := c.summary
  switches := (c.verb.map (·.switches)).getD []
  operand := c.verb.bind (·.operand)

/-- One line of the list of commands. -/
def line (c : DebugCommand) : String :=
  Report.padRight 24 (", ".intercalate c.names) ++ " " ++ c.summary

end DebugCommand

/-- The known commands, in order of registration. -/
structure Registry where
  commands : List DebugCommand := []

namespace Registry

def find? (r : Registry) (name : String) : Option DebugCommand :=
  r.commands.find? (·.names.contains name)

/-- Add a command; none of its names may be taken. -/
def register (r : Registry) (c : DebugCommand) : Except Fault Registry :=
  match c.names.find? fun n => (r.find? n).isSome with
  | some n => .error (.commandTaken n)
  | none => .ok { r with commands := r.commands ++ [c] }

/-- All names, sorted. -/
def names (r : Registry) : List String :=
  ((r.commands.flatMap (·.names)).eraseDups).mergeSort (fun a b => !(b < a))

/-- The registry of all verbs. -/
def standard : Registry := { commands := Verb.all.map (·.command) }

end Registry

end Loom
