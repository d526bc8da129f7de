import Loom.Value.Convert

/-! Forms of arguments. A command takes switches, which are named by a dash and may carry a value,
and at most one operand, which is always optional. -/
namespace Loom.Arguments

/-- How a given text is read. -/
inductive Reading where
  | text
  | whole
  | number
  deriving DecidableEq, Repr

namespace Reading

def name : Reading → String
  | text => "str"
  | whole => "int"
  | number => "float"

def read? : Reading → String → Option Value
  | text, s => some (.str s)
  | whole, s => (Value.wholeOfText s).toOption.map .int
  | number, s => (Literal.float? s).map .float

end Reading

/-- What a switch does. -/
inductive Effect where
  /-- Show the help and leave. -/
  | help
  | flag
  /-- Take a value; the last one given counts. -/
  | value (reading : Reading)
  /-- Take a value each time. -/
  | collect
  deriving DecidableEq, Repr

structure Switch where
  /-- What its value is filed under. -/
  key : String
  /-- Its names, short ones first. -/
  names : List String
  effect : Effect
  help : String

namespace Switch

def takesValue (s : Switch) : Bool :=
  match s.effect with
  | .help | .flag => false
  | .value _ | .collect => true

def reading (s : Switch) : Reading :=
  match s.effect with
  | .value r => r
  | _ => .text

/-- The word that stands for the value. -/
def placeholder (s : Switch) : String := s.key.map Char.toUpper

/-- A name as it is used. -/
def use (s : Switch) (name : String) : String :=
  if s.takesValue then name ++ " " ++ s.placeholder else name

/-- The name in complaints. -/
def title (s : Switch) : String := "/".intercalate s.names

end Switch

structure Operand where
  key : String
  reading : Reading := .text
  /-- The only texts to accept, if there are any. -/
  choices : List String := []
  help : String

/-- The word that stands for the operand. -/
def Operand.placeholder (o : Operand) : String :=
  if o.choices.isEmpty then o.key else "\x7b" ++ ",".intercalate o.choices ++ "\x7d"

structure Form where
  command : String
  summary : String
  switches : List Switch := []
  operand : Option Operand := none

/-- The switch of a name. -/
def Form.switch? (f : Form) (name : String) : Option Switch :=
  f.switches.find? (·.names.contains name)

/-- What was given, in order, each under its key. -/
abbrev Given := List (String × Value)

namespace Given

/-- The last value under a key. -/
def last? (g : Given) (key : String) : Option Value := (g.reverse.find? (·.1 == key)).map (·.2)

/-- All values under a key. -/
def all (g : Given) (key : String) : List Value := (g.filter (·.1 == key)).map (·.2)

def has (g : Given) (key : String) : Bool := g.any (·.1 == key)

end Given

/-- What is wrong with arguments. -/
inductive Complaint where
  | ambiguous (text : String) (names : List String)
  | valueMissing (title : String)
  | valueIgnored (title text : String)
  | unreadable (title : String) (reading : Reading) (text : String)
  | notChoice (title text : String) (choices : List String)
  | unrecognized (texts : List String)
  deriving Repr

def Complaint.message : Complaint → String
  | ambiguous text names => "ambiguous option: " ++ text ++ " could match " ++ ", ".intercalate names
  | valueMissing title => s!"argument {title}: expected one argument"
  | valueIgnored title text => s!"argument {title}: ignored explicit argument {Text.quoted text}"
  | unreadable title reading text =>
    s!"argument {title}: invalid {reading.name} value: {Text.quoted text}"
  | notChoice title text choices =>
    let listed := ", ".intercalate (choices.map Text.quoted)
    s!"argument {title}: invalid choice: {Text.quoted text} (choose from {listed})"
  | unrecognized texts => "unrecognized arguments: " ++ " ".intercalate texts

/-- Why reading arguments ended early. -/
inductive Stop where
  | help
  | complaint (c : Complaint)

end Loom.Arguments
