import Ls8.Alu
import Ls8.Byte
import Ls8.Clock.Basic
import Ls8.Clock.Event
import Ls8.Clock.Heap.Basic
import Ls8.Clock.Heap.Contents
import Ls8.Clock.Heap.Order
import Ls8.Clock.Routine
import Ls8.Clock.Schedule
import Ls8.CommandLine.Options
import Ls8.CommandLine.Path
import Ls8.CommandLine.Session
import Ls8.CommandLine.Usage
import Ls8.Cpu
import Ls8.Diagnostic
import Ls8.Execution
import Ls8.Fault
import Ls8.Host
import Ls8.Instruction
import Ls8.Machine
import Ls8.Main
import Ls8.Memory
import Ls8.OpcodeTable
import Ls8.Processor
import Ls8.Program.Image
import Ls8.Program.Source
import Ls8.Register
import Ls8.Seconds
import Ls8.Simulation.Bench
import Ls8.Simulation.Host
import Ls8.Stack
import Ls8.Text.Blank
import Ls8.Text.CaseTables
import Ls8.Text.CodePointSet
import Ls8.Text.Lines
import Ls8.Text.Lowercase
import Ls8.Text.Numeral
import Ls8.Text.NumeralReading
import Ls8.Text.Percent
import Ls8.Text.Printable
import Ls8.Text.Quoted
import Ls8.Text.Ratio
import Ls8.Text.RealText
import Ls8.Text.Separated
import Ls8.Text.Utf8
import Ls8.Trace.Entry
import Ls8.Trace.Recorder
import Ls8.Proofs.StackFrame
import Ls8.Proofs.InstructionTable
import Ls8.Proofs.History
import Ls8.Proofs.StepFailure
import Ls8.Proofs.Bounds
import Ls8.Proofs.InterruptReturn
import Ls8.Proofs.InterruptEntry
import Ls8.Proofs.TableRefinement
import Ls8.Proofs.Clock.Firings
import Ls8.Proofs.StatusBlind
import Ls8.Proofs.UntakenRequests
import Ls8.Proofs.IntervalBlind
import Ls8.Proofs.PendingRequests
import Ls8.Proofs.InterruptDrain
import Ls8.Proofs.MemoryFootprint
import Ls8.Proofs.TraceHistory
import Ls8.Proofs.Halting
import Ls8.Proofs.Transparency
import Ls8.Proofs.Clock.Journal
import Ls8.Proofs.Clock.DefinedOrder
import Ls8.Proofs.Clock.Conservation
import Ls8.Proofs.Clock.FixedRate
import Ls8.Proofs.Faults.Verdict
import Ls8.Proofs.Faults.Aftermath
import Ls8.Proofs.Clock.Endings
import Ls8.Proofs.MachineEnd
import Ls8.Proofs.MachineTimetable
import Ls8.Proofs.Program.Loading
import Ls8.Proofs.Program.Rendering
import Ls8.Proofs.InterruptNesting
import Ls8.Proofs.Program.Encoding
import Ls8.Proofs.Program.LineEnds
import Ls8.Proofs.SessionEnd
import Ls8.Proofs.Clock.Plain
import Ls8.Proofs.Clock.Ledger
import Ls8.Proofs.Clock.Rate
import Ls8.Proofs.Clock.ExactPass
import Ls8.Proofs.MachineSources
import Ls8.Proofs.StackNesting
import Ls8.Proofs.Trace.Calls
import Ls8.Proofs.ExactArithmetic
import Ls8.Proofs.SessionReport
import Ls8.Proofs.MemoryContents
import Ls8.Proofs.Registration
import Ls8.Proofs.Trace.Lines
import Ls8.Proofs.MachineRefusal
