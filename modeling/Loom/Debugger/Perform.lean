import Loom.CommandLine
import Loom.Debugger.Session
import Loom.Debugger.Verb

/-! What commands do to a session. The result of a command is zero when it succeeded. -/
namespace Loom.Session

variable {D : Dialect}

/-- Read a command's arguments; when they do not fit, say so. -/
def readArguments (c : DebugCommand) (args : List String) : Act (Session D) (Option Arguments.Given) := do
  match c.form.read args with
  | .ok given => pure (some given)
  | .error stop => do
    match stop with
    | .complaint why => sayError (c.form.complaintPage why)
    | .help => say c.form.helpPage
    complain ("usage: " ++ c.form.usage) []
    pure none

/-- Do something and report on it; a failure in the doing is reported as the command's failure. -/
def guarded (name : String) (work : Act (Session D) α) (report : α → Act (Session D) Unit) :
    Act (Session D) Int := do
  match ← Act.attempt work with
  | .ok a => do
    report a
    pure 0
  | .error f =>
    if f.isRuntime then do
      complain (name ++ " failed: " ++ (← Act.ofExcept f.message)) []
      pure 1
    else throw f

/-- The phase of the current engine. -/
def phaseName : Act (Session D) String := do
  pure (((← get).engine.map (·.phase.name)).getD "")

/-- List the commands. -/
def listCommands (r : Registry) : Act (Session D) Unit := do
  if (← get).json then
    let listing := r.commands.map fun c => Value.dict (Table.ofNamed [("name", .str c.name),
      ("aliases", .list (c.aliases.map .str)), ("summary", .str c.summary)])
    announce "commands" (Table.ofNamed [("commands", .list listing)])
  else
    say (String.join (r.commands.map fun c => Report.line c.line))
    say (Report.line "Type 'help <command>' for arguments; separate commands with ';'.")

/-- Show how a command is used. -/
def explain (c : DebugCommand) : Act (Session D) Unit := do
  if (← get).json then
    announce c.form.usage (Table.ofNamed [("name", .str c.name), ("usage", .str c.form.usage)])
  else
    say (Report.line (Text.trimEnd c.form.helpPage))
    if !c.aliases.isEmpty then say (Report.line ("aliases: " ++ ", ".intercalate c.aliases))

def performHelp (r : Option Registry) (topic : Option Value) : Act (Session D) Int := do
  match r, topic with
  | none, _ => pure 1
  | some r, none => do
    listCommands r
    pure 0
  | some r, some topic =>
    match r.find? topic.prose with
    | none => do
      complain ("unknown command: " ++ topic.prose) []
      pure 1
    | some c => do
      explain c
      pure 0

/-- Start a fresh engine. -/
def performStart (b : Bench D) (paused : Bool) : Act (Session D) Int :=
  guarded "start"
    (do
      ensure b
      if (← get).engine.any (·.started) then renew b
      discard (ask b (.start none))
      if paused then discard (ask b .pause))
    fun _ => do
      let state ← phaseName
      announce ("Started process (" ++ state ++ ")")
        (Table.ofNamed [("result", .str "started"), ("state", .str state)])

def performPause (b : Bench D) : Act (Session D) Int :=
  guarded "pause"
    (do
      discard require
      discard (ask b .pause))
    fun _ => do
      let sid := Value.ofOption (fun n : Nat => .int n) ((← get).engine.bind (·.current))
      announce ("Paused (strand " ++ (← Act.ofExcept sid.plain) ++ ")")
        (Table.ofNamed [("result", .str "paused"), ("strand", sid)])

def performResume (b : Bench D) : Act (Session D) Int :=
  guarded "continue"
    (do
      discard require
      discard (ask b .resume))
    fun _ => do
      let state ← phaseName
      announce ("Resumed (" ++ state ++ ")")
        (Table.ofNamed [("result", .str "resumed"), ("state", .str state)])

/-- One instruction; the result counts the instructions executed. -/
def stepOnce (b : Bench D) : Act (Session D) Nat := do
  match ← ask b .step with
  | .stepped r => pure r.executed
  | _ => pure 0

/-- Execute instructions one at a time until the engine halts or one fails; the result has the number
executed. -/
def stepMany (b : Bench D) : Nat → Nat → Act (Session D) (Nat × Option Fault)
  | 0, executed => pure (executed, none)
  | n + 1, executed => do
    match ← Act.attempt (stepOnce b) with
    | .error f => pure (executed, some f)
    | .ok more => do
      if (← get).engine.any (·.phase = .halted) then pure (executed + more, none)
      else stepMany b n (executed + more)

/-- Stop a running engine before stepping it. -/
def holdStill (b : Bench D) : Act (Session D) Unit := do
  let e ← require
  if e.phase = .paused ∨ e.phase = .halted then pure () else discard (ask b .pause)

def performStep (b : Bench D) (count : Int) : Act (Session D) Int := do
  let (executed, failure) ← match ← Act.attempt (holdStill b) with
    | .error f => pure (0, some f)
    | .ok _ => stepMany b (max 1 count).toNat 0
  match failure with
  | none => do
    let state ← phaseName
    let shown ← Act.ofExcept (Value.int executed).plain
    announce ("Stepped " ++ shown ++ " instruction(s) (" ++ state ++ ")")
      (Table.ofNamed [("result", .str "stepped"), ("executed", .int executed), ("state", .str state)])
    pure 0
  | some f =>
    if f.isRuntime then do
      complain ("step failed: " ++ (← Act.ofExcept f.message)) (Table.ofNamed [("executed", .int executed)])
      pure 1
    else throw f

def performRate (b : Bench D) (ms : Option Value) : Act (Session D) Int :=
  guarded "rate"
    (do
      ensure b
      discard (ask b (.rate ms)))
    fun _ => do
      let rate := ((← get).engine.map (·.rate)).getD .zero
      modify fun s => { s with settings.rate := rate }
      let label := if rate.eqInt 0 then "unlimited" else rate.compact ++ "ms"
      announce ("Rate set to " ++ label)
        (Table.ofNamed [("result", .str "rate"), ("rate_ms", .float rate)])

/-- Turn breakpoints on or off, for this engine and for later ones. -/
def setBreakpoints (b : Bench D) (on : Bool) : Act (Session D) Unit := do
  modify fun s => { s with settings.breakpoints := .bool on }
  if (← get).engine.isSome then discard (ask b (.breakpoints on))

def performBreakpoints (b : Bench D) (mode : Option Value) : Act (Session D) Int := do
  match mode with
  | some m => setBreakpoints b (m.same (.str "on"))
  | none => pure ()
  let s ← get
  let enabled := match s.engine with
    | some e => .bool e.breaking
    | none => s.settings.breakpoints
  announce ("Breakpoints " ++ (if enabled.truthy then "on" else "off"))
    (Table.ofNamed [("result", .str "breakpoints"), ("enabled", enabled)])
  pure 0

/-- The state of an engine that has been started. -/
def requireInfo : Act (Session D) Info := do
  discard require
  match (← get).info? with
  | some i => pure i
  | none => throw .noProcess

def performInfo : Act (Session D) Int :=
  guarded "info" requireInfo fun i => do
    if (← get).json then announce "info" (Table.ofNamed [("info", .dict i.table)])
    else say (← Act.ofExcept (Report.info i.table))

def performStrands : Act (Session D) Int :=
  guarded "strands" requireInfo fun i => do
    let current := i.table.find "current_strand"
    if (← get).json then
      announce "strands" (Table.ofNamed [("strands", i.table.find "strands"), ("current", current)])
    else say (← Act.ofExcept (Report.strandTable (i.strands.map (·.table)) current))

def performEvents (limit : Int) : Act (Session D) Int :=
  guarded "events"
    (do
      let e ← require
      pure (e.recent (some limit)))
    fun events => do
      if (← get).json then
        announce "events" (Table.ofNamed [("events", .list (events.map fun e => .dict e.table))])
      else
        events.forM fun e => do
          let text ← Act.ofExcept (Report.event e.table)
          say (Report.line text)

def performTerminate (b : Bench D) : Act (Session D) Int :=
  guarded "terminate"
    (do
      discard require
      discard (ask b (.terminate none)))
    fun _ => do
      let steps := ((← get).engine.map (·.totalSteps)).getD 0
      let shown ← Act.ofExcept (Value.int steps).plain
      announce ("Terminated after " ++ shown ++ " step(s)")
        (Table.ofNamed [("result", .str "terminated"), ("steps", .int steps)])

/-- Let go of the engine and leave. -/
def performExit (b : Bench D) : Act (Session D) Int := do
  let before := (← get).engine
  disconnect b
  match before with
  | some e =>
    let shown ← Act.ofExcept (Value.int e.totalSteps).plain
    announce ("Session closed after " ++ shown ++ " step(s)")
      (Table.ofNamed [("result", .str "exit"), ("steps", .int e.totalSteps)])
  | none => pure ()
  throw (.exit 0)

/-- The whole number under a key. -/
def wholeOr (given : Arguments.Given) (key : String) (fallback : Int) : Int :=
  match given.last? key with
  | some (.int n) => n
  | _ => fallback

/-- Carry out a verb with its arguments. -/
def perform (b : Bench D) (r : Option Registry) (given : Arguments.Given) : Verb → Act (Session D) Int
  | .help => performHelp r (given.last? "topic")
  | .start => performStart b (given.has "paused")
  | .pause => performPause b
  | .resume => performResume b
  | .step => performStep b (wholeOr given "count" 1)
  | .rate => performRate b (given.last? "ms")
  | .breakpoints => performBreakpoints b (given.last? "mode")
  | .info => performInfo
  | .strands => performStrands
  | .events => performEvents (wholeOr given "limit" 20)
  | .terminate => performTerminate b
  | .exit => performExit b

/-- Carry out a command. Leaving takes no notice of its arguments. -/
def runCommand (b : Bench D) (r : Option Registry) (c : DebugCommand) (args : List String) :
    Act (Session D) Int := do
  match c.verb with
  | none => throw (.unimplemented "Command")
  | some .exit => performExit b
  | some v =>
    match ← readArguments c args with
    | none => pure 1
    | some given => perform b r given v

/-- Carry out commands in order, up to the first that fails. -/
def runCommands (b : Bench D) (r : Registry) : List (List String) → Act (Session D) Int
  | [] => pure 0
  | [] :: rest => runCommands b r rest
  | (name :: args) :: rest => do
    match r.find? name with
    | none => do
      complain ("unknown command: " ++ name) []
      pure 1
    | some c => do
      let code ← runCommand b (some r) c args
      if code = 0 then runCommands b r rest else pure code

/-- Carry out a line of commands. -/
def dispatch (b : Bench D) (r : Registry) (line : String) : Act (Session D) Int := do
  match CommandLine.commands line with
  | .error f => do
    complain ("parse error: " ++ (← Act.ofExcept f.message)) []
    pure 1
  | .ok commands => runCommands b r commands

end Loom.Session
