import BoxRegistry.Backend.Call
import BoxRegistry.Backend.Errand
import BoxRegistry.BoxId
import BoxRegistry.Counters
import BoxRegistry.Emulation.Controller
import BoxRegistry.Emulation.Kernel
import BoxRegistry.Emulation.Program
import BoxRegistry.Emulation.Shell.Expand
import BoxRegistry.Emulation.Shell.Lexer
import BoxRegistry.Emulation.Shell.Machine
import BoxRegistry.Emulation.Shell.Output
import BoxRegistry.Emulation.Shell.Parser
import BoxRegistry.Emulation.Shell.State
import BoxRegistry.Emulation.Shell.Syntax
import BoxRegistry.Emulation.Transcript
import BoxRegistry.Fault
import BoxRegistry.Format.Ending
import BoxRegistry.Format.Label
import BoxRegistry.Format.Records
import BoxRegistry.Format.Scalars
import BoxRegistry.Home.FileTree
import BoxRegistry.Home.Homes
import BoxRegistry.Host.Bounds
import BoxRegistry.Host.ChildTable
import BoxRegistry.Host.Controller
import BoxRegistry.Host.Presence
import BoxRegistry.Host.Signal
import BoxRegistry.Host.System
import BoxRegistry.Json.Basic
import BoxRegistry.Json.Binary
import BoxRegistry.Json.Fields
import BoxRegistry.Json.Printer
import BoxRegistry.Json.Reader
import BoxRegistry.Lifecycle.Ending
import BoxRegistry.Lifecycle.ProcessEnd
import BoxRegistry.Lifecycle.Record
import BoxRegistry.Lifecycle.Status
import BoxRegistry.Numeric.Binary
import BoxRegistry.OutputLog
import BoxRegistry.Path
import BoxRegistry.Proofs.Basic
import BoxRegistry.Proofs.BoxId
import BoxRegistry.Proofs.BoxId.Form
import BoxRegistry.Proofs.BoxId.Sequence
import BoxRegistry.Proofs.BoxId.Unchecked
import BoxRegistry.Proofs.Emulation.Kernel
import BoxRegistry.Proofs.Format.Ending
import BoxRegistry.Proofs.Format.Form
import BoxRegistry.Proofs.Format.Records
import BoxRegistry.Proofs.Home.Construction
import BoxRegistry.Proofs.Home.FileTree
import BoxRegistry.Proofs.Home.Locks
import BoxRegistry.Proofs.Host.Bounds
import BoxRegistry.Proofs.Host.ChildTable
import BoxRegistry.Proofs.Host.Controller
import BoxRegistry.Proofs.Host.Custody
import BoxRegistry.Proofs.Host.Retention
import BoxRegistry.Proofs.Json.Parse
import BoxRegistry.Proofs.Json.Rearranged
import BoxRegistry.Proofs.Lifecycle.Course
import BoxRegistry.Proofs.Lifecycle.Marks
import BoxRegistry.Proofs.Lifecycle.Transitions
import BoxRegistry.Proofs.Numeric.Decimal
import BoxRegistry.Proofs.Numeric.Representable
import BoxRegistry.Proofs.Registry.BreakOff
import BoxRegistry.Proofs.Registry.Calls
import BoxRegistry.Proofs.Registry.Cell
import BoxRegistry.Proofs.Registry.ConcurrentListing
import BoxRegistry.Proofs.Registry.Creation
import BoxRegistry.Proofs.Registry.Dealings
import BoxRegistry.Proofs.Registry.Endings
import BoxRegistry.Proofs.Registry.Event
import BoxRegistry.Proofs.Registry.Exclusion
import BoxRegistry.Proofs.Registry.ExitWatch
import BoxRegistry.Proofs.Registry.Gauge
import BoxRegistry.Proofs.Registry.Happens
import BoxRegistry.Proofs.Registry.History
import BoxRegistry.Proofs.Registry.Ledger
import BoxRegistry.Proofs.Registry.Listing
import BoxRegistry.Proofs.Registry.Locality
import BoxRegistry.Proofs.Registry.Moves
import BoxRegistry.Proofs.Registry.NamesAndCounters
import BoxRegistry.Proofs.Registry.Operations
import BoxRegistry.Proofs.Registry.Orderly
import BoxRegistry.Proofs.Registry.PauseOutcome
import BoxRegistry.Proofs.Registry.Process
import BoxRegistry.Proofs.Registry.Projection
import BoxRegistry.Proofs.Registry.Protocol
import BoxRegistry.Proofs.Registry.ProtocolInvariant
import BoxRegistry.Proofs.Registry.Refusals
import BoxRegistry.Proofs.Registry.Removal
import BoxRegistry.Proofs.Registry.RemovedQueue
import BoxRegistry.Proofs.Registry.Samples
import BoxRegistry.Proofs.Registry.Serial
import BoxRegistry.Proofs.Registry.Sound
import BoxRegistry.Proofs.Registry.Stages
import BoxRegistry.Proofs.Registry.StartOutcome
import BoxRegistry.Proofs.Registry.Steps
import BoxRegistry.Proofs.Registry.StopAnswers
import BoxRegistry.Proofs.Registry.StopOutcome
import BoxRegistry.Proofs.Registry.Stops
import BoxRegistry.Proofs.Registry.Suspension
import BoxRegistry.Proofs.Registry.Table
import BoxRegistry.Proofs.Registry.TableLock
import BoxRegistry.Proofs.Registry.Tally
import BoxRegistry.Proofs.Registry.Withdrawal
import BoxRegistry.Proofs.Simulation.Answers
import BoxRegistry.Proofs.Simulation.AwaitedReply
import BoxRegistry.Proofs.Simulation.CallEffects
import BoxRegistry.Proofs.Simulation.Callers
import BoxRegistry.Proofs.Simulation.Closing
import BoxRegistry.Proofs.Simulation.Coupling
import BoxRegistry.Proofs.Simulation.Flights
import BoxRegistry.Proofs.Simulation.ForcedRemoval
import BoxRegistry.Proofs.Simulation.Gate
import BoxRegistry.Proofs.Simulation.Independence
import BoxRegistry.Proofs.Simulation.Listing
import BoxRegistry.Proofs.Simulation.LoneOperation
import BoxRegistry.Proofs.Simulation.OperationOutcome
import BoxRegistry.Proofs.Simulation.OperationSteps
import BoxRegistry.Proofs.Simulation.Ownership
import BoxRegistry.Proofs.Simulation.Paused
import BoxRegistry.Proofs.Simulation.Run
import BoxRegistry.Proofs.Simulation.Sampling
import BoxRegistry.Proofs.Simulation.Schedule
import BoxRegistry.Proofs.Simulation.Session
import BoxRegistry.Proofs.Simulation.Shutdown
import BoxRegistry.Proofs.Simulation.SingleCaller
import BoxRegistry.Proofs.Simulation.Turns
import BoxRegistry.Proofs.Text.Colour
import BoxRegistry.Proofs.Time.Calendar
import BoxRegistry.Proofs.Time.Rfc3339
import BoxRegistry.Registry.Basic
import BoxRegistry.Registry.Box
import BoxRegistry.Registry.ExitWatch
import BoxRegistry.Registry.Operation
import BoxRegistry.Registry.Task
import BoxRegistry.Request
import BoxRegistry.Service.Basic
import BoxRegistry.Settings
import BoxRegistry.Simulation.Backend
import BoxRegistry.Simulation.Caller
import BoxRegistry.Simulation.Sampler
import BoxRegistry.Simulation.World
import BoxRegistry.Snapshot
import BoxRegistry.Spec
import BoxRegistry.Text.Blank
import BoxRegistry.Text.Colour
import BoxRegistry.Text.Hidden
import BoxRegistry.Text.Lines
import BoxRegistry.Text.Quoted
import BoxRegistry.Time.Calendar
import BoxRegistry.Time.Moment
import BoxRegistry.Time.Rfc3339
import BoxRegistry.Time.Span
