import Loom.Act
import Loom.Agenda
import Loom.Arguments.Basic
import Loom.Arguments.Help
import Loom.Arguments.Read
import Loom.Block.Basic
import Loom.Block.Host
import Loom.Block.Memory
import Loom.Block.Run
import Loom.Block.Sample
import Loom.Block.Stand
import Loom.CommandLine
import Loom.Debugger.Console
import Loom.Debugger.Launch
import Loom.Debugger.Library
import Loom.Debugger.Perform
import Loom.Debugger.Report
import Loom.Debugger.Session
import Loom.Debugger.Shelf
import Loom.Debugger.Verb
import Loom.Engine.Basic
import Loom.Engine.Operation
import Loom.Engine.Step
import Loom.Event.Basic
import Loom.Event.Typed
import Loom.Fault
import Loom.Journal
import Loom.Mailbox
import Loom.Mailbox.Habit
import Loom.Main
import Loom.Numeric.Binary64
import Loom.Numeric.Literal
import Loom.Numeric.Shortest
import Loom.Scheduler.Clockwork
import Loom.Scheduler.TimerPool
import Loom.Script
import Loom.Settings
import Loom.Text.Quoted
import Loom.Text.Space
import Loom.Value.Basic
import Loom.Value.Convert
import Loom.Value.Document
import Loom.Value.Text
import Loom.Proofs.Act
import Loom.Proofs.Mailbox
import Loom.Proofs.Announcement
import Loom.Proofs.Control
import Loom.Proofs.StepOutcome
import Loom.Proofs.Script
import Loom.Proofs.Coherence
import Loom.Proofs.StepCoherence
import Loom.Proofs.Armed
import Loom.Proofs.OrderlyBlocks
import Loom.Proofs.Agenda
import Loom.Proofs.Wakeup
import Loom.Proofs.Core
import Loom.Proofs.CoreStep
import Loom.Proofs.Driving
import Loom.Proofs.PlacidBlocks
import Loom.Proofs.RoundRobin
import Loom.Proofs.StraightRun
import Loom.Proofs.Roster
import Loom.Proofs.EventLog
import Loom.Proofs.Record
import Loom.Proofs.Lifetime
import Loom.Proofs.Refusal
import Loom.Proofs.Finality
import Loom.Proofs.Representation
import Loom.Proofs.StepRepresentation
import Loom.Proofs.Integrity
import Loom.Proofs.Ledger
import Loom.Proofs.Stall
import Loom.Proofs.Instant
import Loom.Proofs.VirtualTime
import Loom.Proofs.Practice
import Loom.Proofs.Onward
import Loom.Proofs.Conduct
import Loom.Proofs.TypedImage
import Loom.Proofs.Delivery
import Loom.Proofs.Regime
import Loom.Proofs.SoleStep
import Loom.Proofs.Succession
import Loom.Proofs.Setback
import Loom.Proofs.Accord
import Loom.Proofs.Breakpoint
import Loom.Proofs.CommandLine
import Loom.Proofs.StepTally
import Loom.Proofs.Chronicle
import Loom.Proofs.RunningSteps
import Loom.Proofs.Bystander
import Loom.Proofs.Containment
import Loom.Proofs.Retry
import Loom.Proofs.Twin
import Loom.Proofs.Rebuff
import Loom.Proofs.Quoting
import Loom.Proofs.Magnitude
import Loom.Proofs.Conversion
import Loom.Proofs.Lenience
import Loom.Proofs.Acceptance
import Loom.Proofs.Filing
import Loom.Proofs.Layering
import Loom.Proofs.Dispatcher
import Loom.Proofs.StepReport
