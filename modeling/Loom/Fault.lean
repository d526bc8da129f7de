import Loom.Value.Text

/-! Everything that can go wrong, by cause. `Fault.kind` sorts causes into the families that programs
can catch, and `Fault.message` words them, which can fail in turn: the wording of a missing key is the key's own
text, and a program's fault may have none. -/
namespace Loom

/-- The families of faults. -/
inductive FaultKind where
  | strands
  | precondition
  | malformed
  | invalidArgument
  | lifecycle
  | alreadyStarted
  | notStarted
  | terminated
  | halted
  | programLoad
  | commandParse
  | value
  | type
  | key
  | index
  | member
  | overflow
  | zeroDivision
  | runtime
  | notImplemented
  | recursion
  | endOfInput
  | generic
  | systemExit
  | keyboardInterrupt
  deriving DecidableEq, Repr, Inhabited

namespace FaultKind

/-- The name under which a family is reported. -/
def name : FaultKind → String
  | strands => "StrandsError"
  | precondition => "PreconditionViolation"
  | malformed => "MalformedProgramError"
  | invalidArgument => "InvalidArgumentError"
  | lifecycle => "LifecycleError"
  | alreadyStarted => "AlreadyStartedError"
  | notStarted => "NotStartedError"
  | terminated => "TerminatedError"
  | halted => "HaltedError"
  | programLoad => "ProgramLoadError"
  | commandParse => "CommandParseError"
  | value => "ValueError"
  | type => "TypeError"
  | key => "KeyError"
  | index => "IndexError"
  | member => "AttributeError"
  | overflow => "OverflowError"
  | zeroDivision => "ZeroDivisionError"
  | runtime => "RuntimeError"
  | notImplemented => "NotImplementedError"
  | recursion => "RecursionError"
  | endOfInput => "EOFError"
  | generic => "Exception"
  | systemExit => "SystemExit"
  | keyboardInterrupt => "KeyboardInterrupt"

def all : List FaultKind :=
  [strands, precondition, malformed, invalidArgument, lifecycle, alreadyStarted, notStarted,
    terminated, halted, programLoad, commandParse, value, type, key, index, member, overflow,
    zeroDivision, runtime, notImplemented, recursion, endOfInput, generic, systemExit,
    keyboardInterrupt]

def ofName? (s : String) : Option FaultKind := all.find? (·.name == s)

/-- An exit and an interrupt are requests to leave; every other family is an ordinary fault, which the
engine contains. -/
def isOrdinary : FaultKind → Bool
  | systemExit => false
  | keyboardInterrupt => false
  | _ => true

/-- The families that a debugger command reports instead of passing on. -/
def isRuntime : FaultKind → Bool
  | strands | precondition | malformed | invalidArgument | lifecycle | alreadyStarted | notStarted
  | terminated | halted | programLoad | runtime | notImplemented | recursion => true
  | _ => false

end FaultKind

/-- The phases of an engine's life. -/
inductive Phase where
  | idle
  | running
  | paused
  | halted
  | terminated
  deriving DecidableEq, Repr, Inhabited

def Phase.name : Phase → String
  | idle => "idle"
  | running => "running"
  | paused => "paused"
  | halted => "halted"
  | terminated => "terminated"

/-- An instruction is looked at either as the entry of a strand or as the successor of another one. -/
inductive Role where
  | entry
  | successor
  deriving DecidableEq, Repr

def Role.name : Role → String
  | entry => "entry instruction"
  | successor => "successor"

inductive Fault where
  /-- What a program raises itself. -/
  | raised (kind : FaultKind) (text : String)
  /-- What a program raises itself and nobody can word: the attempt fails with a cause of its own. -/
  | untold (kind : FaultKind) (cause : Fault)
  | exit (code : Int)
  -- conversions
  | wholeTooLarge
  | infinityToWhole
  | nanToWhole
  | notWhole (text : String)
  | tooManyDigits (count : Nat)
  /-- A whole number is too long to be written. -/
  | unwritable
  | notNumeric (text : String)
  | noWholeOf (kind : String)
  | noNumberOf (kind : String)
  | unordered (sign left right : String)
  | notIterable (kind : String)
  | unhashable (kind : String)
  | entryNotPair (position : Nat)
  | entryLength (position length : Nat)
  | missingKey (key : Value)
  | noMember (kind name : String)
  | notAddable (left right : String)
  | listPlus (kind : String)
  | textPlus (kind : String)
  | wholeRequired
  | sizeTooLarge
  | outOfRange
  -- settings
  | rateRejected (shown : String)
  | timeSliceRejected (shown : String)
  | historyRejected (shown : String)
  | notBoolean (setting text : String)
  | notInteger (setting text : String)
  | notANumber (setting text : String)
  | unknownSetting (name : String)
  | namesNotText
  | repeatedArgument (owner name : String)
  | repeatedKeyword (owner name : String)
  -- programs and strands
  | notInstruction (role : Role) (shown : String)
  | noEntry
  | noProgram
  | strandHalted (sid : Int)
  | strandNotListed (shown : String)
  -- lifecycle
  | alreadyStarted
  | notStarted (operation : String)
  | isTerminated (operation : String)
  | alreadyTerminated
  | rateAfterTermination
  | isHalted
  | stepWhileRunning
  | illegalTransition (old new : Phase)
  | tooDeep
  -- schedulers and mailboxes
  | schedulerUnavailable
  | noLoop
  | queueRejected (shown : String)
  -- the debugger
  | unclosedQuote
  | danglingEscape
  | notOneCommand (count : Nat)
  | noProcess
  | badReference (reference : String)
  | cannotImport (name : String) (reason : String)
  | noAttribute (name path : String)
  | notProgram (reference : String)
  | relativeImport (name : String)
  | commandTaken (name : String)
  | unimplemented (kind : String)
  deriving Repr, Inhabited

namespace Fault

def kind : Fault → FaultKind
  | raised k _ => k
  | untold k _ => k
  | exit _ => .systemExit
  | wholeTooLarge | infinityToWhole | sizeTooLarge => .overflow
  | nanToWhole | notWhole _ | tooManyDigits _ | unwritable | notNumeric _ | entryLength .. | strandNotListed _
  | queueRejected _ | commandTaken _ => .value
  | noWholeOf _ | noNumberOf _ | unordered .. | notIterable _ | unhashable _ | entryNotPair _
  | notAddable .. | listPlus _ | textPlus _ | wholeRequired | unknownSetting _ | namesNotText
  | repeatedArgument .. | repeatedKeyword .. | relativeImport _ => .type
  | missingKey _ => .key
  | noMember .. => .member
  | outOfRange => .index
  | rateRejected _ | timeSliceRejected _ | historyRejected _ | notBoolean .. | notInteger ..
  | notANumber .. => .invalidArgument
  | notInstruction .. | noEntry | noProgram => .malformed
  | strandHalted _ | illegalTransition .. => .precondition
  | alreadyStarted => .alreadyStarted
  | notStarted _ => .notStarted
  | isTerminated _ | alreadyTerminated | rateAfterTermination => .terminated
  | isHalted => .halted
  | stepWhileRunning => .lifecycle
  | tooDeep => .recursion
  | schedulerUnavailable | noLoop | noProcess => .runtime
  | unclosedQuote | danglingEscape | notOneCommand _ => .commandParse
  | badReference _ | cannotImport .. | noAttribute .. | notProgram _ => .programLoad
  | unimplemented _ => .notImplemented

end Fault

namespace Value

/-- The text that shows a value unambiguously. -/
def display (v : Value) : Except Fault String := if v.isWritable then .ok v.spelling else .error .unwritable

/-- The text of a value in running prose. -/
def plain (v : Value) : Except Fault String := if v.isWritable then .ok v.prose else .error .unwritable

/-- What refuses a value: the refusal shows it, if it can be shown. -/
def refusal (given : Value) (why : String → Fault) : Fault :=
  match given.display with
  | .ok shown => why shown
  | .error f => f

end Value

namespace Fault

/-- What went wrong, in words. -/
def message : Fault → Except Fault String
  | raised k text => .ok (if k = .key then Text.quoted text else text)
  | untold _ cause => .error cause
  | exit code => .ok (toString code)
  | wholeTooLarge => .ok "int too large to convert to float"
  | infinityToWhole => .ok "cannot convert float infinity to integer"
  | nanToWhole => .ok "cannot convert float NaN to integer"
  | notWhole text => .ok s!"invalid literal for int() with base 10: {Text.quoted text}"
  | tooManyDigits count =>
    .ok s!"Exceeds the limit (4300 digits) for integer string conversion: value has {count} digits; use sys.set_int_max_str_digits() to increase the limit"
  | unwritable =>
    .ok "Exceeds the limit (4300 digits) for integer string conversion; use sys.set_int_max_str_digits() to increase the limit"
  | notNumeric text => .ok s!"could not convert string to float: {Text.quoted text}"
  | noWholeOf kind =>
    .ok s!"int() argument must be a string, a bytes-like object or a real number, not '{kind}'"
  | noNumberOf kind => .ok s!"float() argument must be a string or a real number, not '{kind}'"
  | unordered sign left right =>
    .ok s!"'{sign}' not supported between instances of '{left}' and '{right}'"
  | notIterable kind => .ok s!"'{kind}' object is not iterable"
  | unhashable kind => .ok s!"unhashable type: '{kind}'"
  | entryNotPair position =>
    .ok s!"cannot convert dictionary update sequence element #{position} to a sequence"
  | entryLength position length =>
    .ok s!"dictionary update sequence element #{position} has length {length}; 2 is required"
  | missingKey key => key.display
  | noMember kind name => .ok s!"'{kind}' object has no attribute '{name}'"
  | notAddable left right => .ok s!"unsupported operand type(s) for +: '{left}' and '{right}'"
  | listPlus kind => .ok s!"can only concatenate list (not \"{kind}\") to list"
  | textPlus kind => .ok s!"can only concatenate str (not \"{kind}\") to str"
  | wholeRequired => .ok "an integer is required"
  | sizeTooLarge => .ok "Python int too large to convert to C ssize_t"
  | outOfRange => .ok "list index out of range"
  | rateRejected shown => .ok s!"rate must be a positive number, got {shown}"
  | timeSliceRejected shown => .ok s!"time_slice must be >= 1, got {shown}"
  | historyRejected shown => .ok s!"history_size must be >= 0, got {shown}"
  | notBoolean setting text => .ok s!"{setting}: expected a boolean, got {Text.quoted text}"
  | notInteger setting text => .ok s!"{setting}: expected an integer, got {Text.quoted text}"
  | notANumber setting text => .ok s!"{setting}: expected a number, got {Text.quoted text}"
  | unknownSetting name =>
    .ok s!"ProcessConfig.__init__() got an unexpected keyword argument '{name}'"
  | namesNotText => .ok "keywords must be strings"
  | repeatedArgument owner name => .ok s!"{owner}() got multiple values for argument '{name}'"
  | repeatedKeyword owner name => .ok s!"{owner}() got multiple values for keyword argument '{name}'"
  | notInstruction role shown =>
    .ok s!"{role.name} {shown} does not provide callable execute()/successor()"
  | noEntry => .ok "derived strand needs an entry instruction"
  | noProgram => .ok "no program source and no entry instruction"
  | strandHalted sid => .ok s!"strand {sid} has no current instruction"
  | strandNotListed shown => .ok s!"{shown} is not in list"
  | alreadyStarted => .ok "process already started"
  | notStarted operation => .ok s!"{operation} before start"
  | isTerminated operation => .ok s!"{operation} on a terminated process"
  | alreadyTerminated => .ok "process already terminated"
  | rateAfterTermination => .ok "set_rate on a terminated process"
  | isHalted => .ok "cannot spawn on a halted process"
  | stepWhileRunning => .ok "step requires a paused process"
  | illegalTransition old new => .ok s!"illegal state transition {old.name} -> {new.name}"
  | tooDeep => .ok "maximum recursion depth exceeded"
  | schedulerUnavailable => .ok "scheduler unavailable"
  | noLoop => .ok "no running event loop"
  | queueRejected shown => .ok s!"queue_size must be >= 1, got {shown}"
  | unclosedQuote => .ok "No closing quotation"
  | danglingEscape => .ok "No escaped character"
  | notOneCommand count => .ok s!"expected one command, got {count}"
  | noProcess => .ok "no process started (use 'start')"
  | badReference reference => .ok s!"expected module:attribute, got {Text.quoted reference}"
  | cannotImport name reason => .ok s!"cannot import {name}: {reason}"
  | noAttribute name path => .ok s!"{name} has no attribute {Text.quoted path}"
  | notProgram reference => .ok s!"{reference} is neither a program source nor an instruction"
  | relativeImport name =>
    .ok s!"the 'package' argument is required to perform a relative import for {Text.quoted name}"
  | commandTaken name => .ok s!"command name {Text.quoted name} already registered"
  | unimplemented kind => .ok s!"{kind} must implement run()"

/-- An exit or an interrupt passes through every handler of the engine. -/
def isOrdinary (f : Fault) : Bool := f.kind.isOrdinary

def isRuntime (f : Fault) : Bool := f.kind.isRuntime

end Fault

end Loom
