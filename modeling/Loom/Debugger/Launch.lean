import Loom.Debugger.Console

/-! Starting the debugger from the command line: options, settings from the environment, commands given
as options, or the console. -/
namespace Loom.Session

variable {D : Dialect}

/-- The program that is debugged when none is named. -/
def defaultReference : String := "strands_dbg.sample:build"

/-- The options of the debugger. -/
def launchForm : Arguments.Form where
  command := "strands-dbg"
  summary := "strands step debugger"
  switches := [
    { key := "help", names := ["-h", "--help"], effect := .help,
      help := "show this help message and exit" },
    { key := "program", names := ["--program"], effect := .value .text,
      help := "module:attribute resolving to a program source or entry instruction" },
    { key := "rate", names := ["--rate"], effect := .value .number,
      help := "Delay between instructions in ms (default unlimited)" },
    { key := "breakpoints", names := ["--breakpoints"], effect := .flag,
      help := "Start with breakpoints enabled" },
    { key := "time_slice", names := ["--time-slice"], effect := .value .whole,
      help := "Steps per strand before rotating" },
    { key := "json", names := ["--json"], effect := .flag, help := "Emit JSON output when supported" },
    { key := "log_level", names := ["--log-level"], effect := .value .text,
      help := "Logging level (default WARNING)" },
    { key := "command", names := ["-c", "--command"], effect := .collect,
      help := "Execute commands non-interactively (repeatable; join several with ';')" },
    { key := "history", names := ["--history"], effect := .value .text,
      help := "Path to command history file" }]

/-- The settings that options override. -/
def overrides (given : Arguments.Given) : Table :=
  Table.ofNamed [("rate_ms", (given.last? "rate").getD .none),
    ("breakpoints", if given.has "breakpoints" then .bool true else .none),
    ("time_slice", (given.last? "time_slice").getD .none)]

/-- The code with which a fault asks to leave. -/
def exitCode : Fault → Except Fault Int
  | .exit code => .ok code
  | .raised _ text => if text.isEmpty then .ok 0 else Value.wholeOfText text
  | _ => .ok 0

/-- Settle how a fault ends the debugger: leaving gives its code, anything else passes on. -/
def settleExit (f : Fault) : Except Fault Int :=
  if f.kind = .systemExit then exitCode f else .error f

/-- Carry out lines given as options, up to the first that fails or leaves. Notices follow each one. -/
def runLines (b : Bench D) (r : Registry) : List String → Act (Session D) Int
  | [] => pure 0
  | line :: rest => do
    match ← Act.attempt (runLine b r line) with
    | .ok code => do
      discard (pump b)
      if code = 0 then runLines b r rest else pure code
    | .error f => do
      discard (pump b)
      Act.ofExcept (settleExit f)

/-- Carry out the lines of a batch; the engine is let go of in any case. -/
def batch (b : Bench D) (r : Registry) (lines : List String) : Act (Session D) Int := do
  let box ← attachNotices
  let result ← Act.attempt (runLines b r lines)
  closeNotices box
  disconnect b
  Act.ofExcept result

/-- How the end of a conversation ends the debugger. -/
def settleConsole (result : Except Fault Int) : Act (Session D) Int := do
  match result with
  | .ok code => pure code
  | .error f => if f.kind = .keyboardInterrupt then leavePrompt else Act.ofExcept (settleExit f)

/-- The faults of options and settings that end the debugger before it begins. -/
def isUsageFault (f : Fault) : Bool := f.kind = .invalidArgument || f.kind = .programLoad

/-- Take the settings from options and environment, and make sure that the program can be loaded. -/
def configure (b : Bench D) (env : Settings.Environment) (given : Arguments.Given) :
    Act (Session D) Unit := do
  let settings ← Act.ofExcept (Settings.ofEnvironment env (overrides given))
  let reference := match given.last? "program" with
    | some v => v.prose
    | none => (env.get? "STRANDS_DBG_PROGRAM").getD defaultReference
  discard (Act.ofExcept (b.load reference))
  modify fun s => { s with settings, reference, json := given.has "json" }

/-- What is left to do once the options are read. -/
inductive Plan where
  | finished (code : Int)
  | lines (texts : List String)
  | console

/-- Read the options and settle what to do. -/
def plan (b : Bench D) (env : Settings.Environment) (args : List String) : Act (Session D) Plan := do
  match launchForm.read args with
  | .error .help => do
    say launchForm.helpPage
    throw (.exit 0)
  | .error (.complaint why) => do
    sayError (launchForm.complaintPage why)
    throw (.exit 2)
  | .ok given => do
    match ← Act.attempt (configure b env given) with
    | .error f =>
      if isUsageFault f then do
        sayError (Report.line ("error: " ++ (← Act.ofExcept f.message)))
        pure (.finished 2)
      else throw f
    | .ok _ =>
      match given.all "command" with
      | [] => pure .console
      | texts => pure (.lines (texts.map (·.prose)))

/-- Run the debugger; the inputs are for the console. -/
def launch (b : Bench D) (env : Settings.Environment) (args : List String) (inputs : List Input) :
    Act (Session D) Int := do
  match ← plan b env args with
  | .finished code => pure code
  | .lines texts => batch b .standard texts
  | .console => do
    let result ← Act.attempt (console b .standard inputs)
    settleConsole result

end Loom.Session
