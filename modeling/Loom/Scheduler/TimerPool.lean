import Loom.Journal

/-! A pool of timers. Every call gets a timer of its own; a timer is alive until its call has run or it
is cancelled. Timers that are no longer alive are forgotten when the next one is made. -/
namespace Loom

structure Timer where
  label : String
  alive : Bool

/-- The timers made so far, by number, and those the pool still knows. -/
structure TimerPool where
  timers : Array Timer := #[]
  known : List Nat := []
  fired : List String := []
  journal : List LogEntry := []

namespace TimerPool

def isAlive (p : TimerPool) (n : Nat) : Bool := p.timers[n]?.any (·.alive)

/-- Make a timer, forgetting the dead ones first. -/
def make (p : TimerPool) (label : String) : Nat × TimerPool :=
  let n := p.timers.size
  (n, { p with
    timers := p.timers.push { label, alive := true }
    known := p.known.filter p.isAlive ++ [n] })

/-- End a timer without running its call. -/
def cancel (p : TimerPool) (n : Nat) : TimerPool :=
  { p with timers := p.timers.modify n fun t => { t with alive := false } }

/-- Run a timer's call, which notes its label and may fail. Ordinary faults go to the journal; an exit
or an interrupt only ends the timer. -/
def fire (p : TimerPool) (n : Nat) (fault : Option Fault) : TimerPool :=
  match p.timers[n]? with
  | none => p
  | some t =>
    { p.cancel n with
      fired := p.fired ++ [t.label]
      journal := p.journal ++ ((fault.filter (·.isOrdinary)).bind LogEntry.ofFault?).toList }

/-- Cancel every timer and forget them all. -/
def shutdown (p : TimerPool) : TimerPool :=
  { p.known.foldl cancel p with known := [] }

end TimerPool

end Loom
