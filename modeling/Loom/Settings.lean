import Loom.Value.Convert

/-! An engine's settings: the delay between instructions, whether breakpoints count, how many steps a
strand keeps its turn and how many events are remembered. They come from named values or from
environment variables. -/
namespace Loom

/-- A rate is a delay in milliseconds. Only a finite number above zero is one; a truth value is not. -/
def Rate.check (given : Value) : Except Fault Binary64 :=
  match given with
  | .bool _ => .error (given.refusal .rateRejected)
  | given =>
    match given.toFloat with
    | .ok x => if x.isPositive then .ok x else .error (given.refusal .rateRejected)
    | .error .wholeTooLarge => .error .wholeTooLarge
    | .error _ => .error (given.refusal .rateRejected)

/-- Accepted settings. A zero rate stands for no delay. -/
structure Settings where
  rate : Binary64 := .zero
  breakpoints : Value := .bool false
  timeSlice : Nat := 1
  historySize : Nat := 1024

namespace Settings

/-- Any zero means no delay; everything else must be a rate. -/
def checkRate (given : Value) : Except Fault Binary64 :=
  if given.same (.int 0) then .ok .zero else Rate.check given

def checkTimeSlice (given : Value) : Except Fault Nat :=
  match given with
  | .bool _ => .error (given.refusal .timeSliceRejected)
  | given => do
    let n ← given.toInt
    if n < 1 then .error (given.refusal .timeSliceRejected) else .ok n.toNat

def checkHistory (given : Value) : Except Fault Nat := do
  let n ← given.toInt
  if n < 0 then .error (given.refusal .historyRejected) else .ok n.toNat

/-- Check the four values, in the order rate, time slice, history. -/
def check (rate breakpoints timeSlice history : Value) : Except Fault Settings := do
  let rate ← checkRate rate
  let timeSlice ← checkTimeSlice timeSlice
  let historySize ← checkHistory history
  .ok { rate, breakpoints, timeSlice, historySize }

def names : List String := ["rate_ms", "breakpoints", "time_slice", "history_size"]

/-- Names are texts, and each is one of the four. -/
def checkNames (given : Table) : Except Fault Unit :=
  match given.names? with
  | none => .error .namesNotText
  | some keys =>
    match keys.find? (!names.contains ·) with
    | some k =>
      if k == "self" then .error (.repeatedArgument "ProcessConfig.__init__" "self")
      else .error (.unknownSetting k)
    | none => .ok ()

/-- Settings from named values; what is not named keeps its default. -/
def ofTable (given : Table) : Except Fault Settings := do
  checkNames given
  check ((given.get? (.str "rate_ms")).getD (.float .zero))
    ((given.get? (.str "breakpoints")).getD (.bool false))
    ((given.get? (.str "time_slice")).getD (.int 1))
    ((given.get? (.str "history_size")).getD (.int 1024))

/-- The accepted settings as named values. -/
def toTable (s : Settings) : Table :=
  Table.ofNamed [("rate_ms", .float s.rate), ("breakpoints", s.breakpoints),
    ("time_slice", .int s.timeSlice), ("history_size", .int s.historySize)]

/-- Environment variables by name. -/
abbrev Environment := List (String × String)

def Environment.get? (env : Environment) (name : String) : Option String :=
  (env.find? (·.1 == name)).map (·.2)

/-- A variable that is set to something. -/
def Environment.filled? (env : Environment) (name : String) : Option String :=
  (env.get? name).filter (!·.isEmpty)

def readBoolean (name text : String) : Except Fault Bool :=
  let word := (Text.trim text).map Char.toLower
  if ["1", "true", "yes", "on"].contains word then .ok true
  else if ["0", "false", "no", "off", ""].contains word then .ok false
  else .error (.notBoolean name text)

def readInteger (name text : String) : Except Fault Int :=
  match Value.wholeOfText (Text.trim text) with
  | .ok n => .ok n
  | .error _ => .error (.notInteger name text)

def readNumber (name text : String) : Except Fault Binary64 :=
  match Literal.float? text with
  | some x => .ok x
  | none => .error (.notANumber name text)

/-- A present variable as a named value. -/
def reading (read : String → String → Except Fault α) (wrap : α → Value) (name setting : String)
    (text : Option String) : Except Fault Table :=
  match text with
  | some t => do .ok [(.str setting, wrap (← read name t))]
  | none => .ok []

/-- What the environment says. An empty variable is as good as none, save that empty breakpoints are
off. -/
def readEnvironment (env : Environment) : Except Fault Table := do
  let rate ← reading readNumber .float "STRANDS_RATE_MS" "rate_ms" (env.filled? "STRANDS_RATE_MS")
  let breakpoints ← reading readBoolean .bool "STRANDS_BREAKPOINTS" "breakpoints"
    (env.get? "STRANDS_BREAKPOINTS")
  let timeSlice ← reading readInteger .int "STRANDS_TIME_SLICE" "time_slice"
    (env.filled? "STRANDS_TIME_SLICE")
  let history ← reading readInteger .int "STRANDS_HISTORY" "history_size"
    (env.filled? "STRANDS_HISTORY")
  .ok (rate ++ breakpoints ++ timeSlice ++ history)

/-- Overrides are named by texts other than the receiver's own arguments. -/
def checkOverrides (overrides : Table) : Except Fault Unit :=
  match overrides.names? with
  | none => .error .namesNotText
  | some keys =>
    match keys.find? (["environ", "cls"].contains ·) with
    | some k => .error (.repeatedArgument "ProcessConfig.from_env" k)
    | none => .ok ()

/-- Settings from the environment; an override that is not nothing wins over its variable. -/
def ofEnvironment (env : Environment) (overrides : Table) : Except Fault Settings := do
  checkOverrides overrides
  let read ← readEnvironment env
  let given := overrides.filter fun (_, v) => match v with | .none => false | _ => true
  ofTable (given.foldl (fun t (k, v) => Table.put t k v) read)

end Settings

end Loom
