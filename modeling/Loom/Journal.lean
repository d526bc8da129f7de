import Loom.Fault

/-! The journal: what the engine and its schedulers note about their work. -/
namespace Loom

inductive LogLevel where
  | debug
  | info
  | warning
  | error
  deriving DecidableEq, Repr

def LogLevel.name : LogLevel → String
  | debug => "DEBUG"
  | info => "INFO"
  | warning => "WARNING"
  | error => "ERROR"

/-- The part of the program that made a note. -/
inductive LogSource where
  | process
  | strand
  | scheduler
  deriving DecidableEq, Repr

def LogSource.name : LogSource → String
  | process => "strands.process"
  | strand => "strands.strand"
  | scheduler => "strands.scheduler"

structure LogEntry where
  level : LogLevel
  source : LogSource
  text : String
  deriving Repr

def LogEntry.line (e : LogEntry) : String := s!"{e.level.name} {e.source.name}: {e.text}"

/-- The note a scheduler makes of a fault that left a call, if it can be worded. -/
def LogEntry.ofFault? (f : Fault) : Option LogEntry :=
  f.message.toOption.map fun text =>
    ⟨.warning, .scheduler, s!"scheduled callback raised {f.kind.name}: {text}"⟩

end Loom
