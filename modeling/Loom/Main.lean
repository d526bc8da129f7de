import Loom.Block.Run
import Loom.Debugger.Shelf
import Loom.Debugger.Launch

/-! The debugger at a terminal. Deferred steps fire before each prompt. -/
namespace Loom.Terminal

abbrev Desk := Session Block.dialect

def shelf : Block.Shelf := .ofProgram { nodes := #[], links := #[], entry := .absent }

def bench : Bench Block.dialect where
  load reference := (shelf.modules.load reference).map shelf.host
  rounds := Block.maxRounds
  depth := Block.maxDepth

/-- The environment variables that the debugger reads. -/
def variableNames : List String :=
  ["STRANDS_RATE_MS", "STRANDS_BREAKPOINTS", "STRANDS_TIME_SLICE", "STRANDS_HISTORY",
    "STRANDS_DBG_PROGRAM"]

def readEnvironment : IO Settings.Environment :=
  variableNames.filterMapM fun name => do
    pure ((← IO.getEnv name).map ((name, ·)))

/-- Carry out an act and print what it prints. -/
def enact (desk : IO.Ref Desk) (act : Act Desk α) : IO (Except Fault α) := do
  let (result, after) := act.outcome (← desk.get)
  IO.print after.out
  IO.eprint after.err
  (← IO.getStdout).flush
  desk.set { after with out := "", err := "" }
  pure result

/-- The exit code of an outcome; a fault that nobody handled is shown. -/
def finish : Except Fault Int → IO UInt32
  | .ok code => pure (code % 256).toNat.toUInt32
  | .error (.exit code) => pure (code % 256).toNat.toUInt32
  | .error f => do
    let text := match f.message with
      | .ok text => text
      | .error _ => "<exception str() failed>"
    IO.eprintln (f.kind.name ++ ": " ++ text)
    pure 1

/-- Take lines from standard input until the conversation is over. -/
partial def prompt (desk : IO.Ref Desk) (parts : List String) : IO (Except Fault Int) := do
  let input ← IO.getStdin
  match ← enact desk (Session.react bench .standard parts (.fire Block.maxRounds)) with
  | .error f => pure (.error f)
  | .ok (.over code) => pure (.ok code)
  | .ok (.goesOn parts) => do
    discard (enact desk (Session.pump bench))
    IO.print Session.promptText
    (← IO.getStdout).flush
    let line ← input.getLine
    let next : Session.Input := if line.isEmpty then .close else .line (line.dropEndWhile (· == '\n')).toString
    match ← enact desk (Session.react bench .standard parts next) with
    | .error f => pure (.error f)
    | .ok (.over code) => pure (.ok code)
    | .ok (.goesOn parts) => prompt desk parts

def run (args : List String) : IO UInt32 := do
  let env ← readEnvironment
  let desk ← IO.mkRef
    ({ reference := Session.defaultReference, clock := { kind := .timers }, memory := shelf.memory } : Desk)
  match ← enact desk (Session.plan bench env args) with
  | .error f => finish (.error f)
  | .ok (.finished code) => finish (.ok code)
  | .ok (.lines texts) => do
    let result ← enact desk (Session.batch bench .standard texts)
    finish result
  | .ok .console => do
    match ← enact desk Session.openConsole with
    | .error f => finish (.error f)
    | .ok box => do
      let result ← prompt desk []
      discard (enact desk (Session.closeConsole bench box))
      let settled ← enact desk (Session.settleConsole result)
      finish settled

end Loom.Terminal

def main (args : List String) : IO UInt32 := Loom.Terminal.run args
