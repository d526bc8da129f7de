import Loom.Debugger.Perform

/-! The interactive console: lines are read at a prompt and carried out until the input ends. A line that
ends in a backslash is continued by the next one. -/
namespace Loom

namespace Continuation

/-- Take one line into the parts gathered so far; true when more is to come. -/
def take (parts : List String) (line : String) : Bool × List String :=
  let stripped := Text.trimEnd line
  match stripped.toList.reverse with
  | '\\' :: rest => (true, parts ++ [String.ofList rest.reverse])
  | _ => (false, if parts.isEmpty then parts else parts ++ [stripped])

/-- The line to carry out, once no more parts are to come. -/
def payload (parts : List String) (line : String) : String :=
  if parts.isEmpty then line else " ".intercalate parts

end Continuation

namespace Session

variable {D : Dialect}

/-- What can happen at a prompt. -/
inductive Input where
  | line (text : String)
  /-- Deferred steps come due, up to a limit. -/
  | fire (limit : Int)
  /-- The input is interrupted or at its end. -/
  | close

/-- Carry out a line; ordinary faults are reported. -/
def runLine (b : Bench D) (r : Registry) (line : String) : Act (Session D) Int := do
  match ← Act.attempt (dispatch b r line) with
  | .ok code => pure code
  | .error f =>
    if f.isOrdinary then do
      say (Report.line ("Command failed: " ++ (← Act.ofExcept f.message)))
      pure 1
    else throw f

/-- End the line that the prompt stands on. -/
def leavePrompt : Act (Session D) Int := do
  say (Report.line "")
  pure 0

/-- Fire deferred steps at the prompt; ordinary faults of theirs are of no account here. The result is
false when a step interrupts the prompt. -/
def fireAtPrompt (b : Bench D) (limit : Int) : Act (Session D) Bool := do
  match ← Act.attempt (fireAll b (some limit)) with
  | .ok _ => pure true
  | .error f =>
    if f.isOrdinary then pure true
    else if f.kind = .keyboardInterrupt then pure false
    else throw f

/-- After an input the conversation is over, or goes on with the lines so far of a command that is not
complete. -/
inductive Turn where
  | over (code : Int)
  | goesOn (parts : List String)

/-- Take one input. -/
def react (b : Bench D) (r : Registry) (parts : List String) : Input → Act (Session D) Turn
  | .close => do return .over (← leavePrompt)
  | .fire limit => do
    if ← fireAtPrompt b limit then pure (.goesOn parts) else return .over (← leavePrompt)
  | .line text => do
    let (more, parts) := Continuation.take parts text
    if more then pure (.goesOn parts)
    else do
      let line := Continuation.payload parts text
      if (Text.trim line).isEmpty then pure () else discard (runLine b r line)
      pure (.goesOn [])

/-- The prompt. -/
def promptText : String := "(strands) "

/-- An input as it shows at the prompt. -/
def Input.echo : Input → String
  | .line text => Report.line (promptText ++ text)
  | _ => ""

/-- Take inputs in order. Notices come before each prompt. -/
def converse (b : Bench D) (r : Registry) (parts : List String) : List Input → Act (Session D) Int
  | [] => do
    discard (pump b)
    leavePrompt
  | i :: rest => do
    discard (pump b)
    say i.echo
    match ← react b r parts i with
    | .over code => pure code
    | .goesOn parts => converse b r parts rest

/-- Open the console; the result is the mailbox for notices. -/
def openConsole : Act (Session D) Nat := do
  let box ← attachNotices
  startDispatcher
  pure box

/-- Let go of the engine and give the last notices. -/
def closeConsole (b : Bench D) (box : Nat) : Act (Session D) Unit := do
  disconnect b
  stopDispatcher b
  closeNotices box

/-- A whole conversation; a fault passes on only after the console is closed. -/
def console (b : Bench D) (r : Registry) (inputs : List Input) : Act (Session D) Int := do
  let box ← openConsole
  let result ← Act.attempt (converse b r [] inputs)
  closeConsole b box
  Act.ofExcept result

end Session

end Loom
