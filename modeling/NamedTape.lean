import NamedTape.AliasTable
import NamedTape.AliasTable.Call
import NamedTape.CommandLine.Directory
import NamedTape.CommandLine.Invocation
import NamedTape.CommandLine.Word
import NamedTape.Device
import NamedTape.Fault
import NamedTape.Hooks
import NamedTape.Hooks.Call
import NamedTape.Instruction
import NamedTape.Instruction.Listing
import NamedTape.Instruction.Merging
import NamedTape.Instruction.Record
import NamedTape.Json
import NamedTape.Location
import NamedTape.Log
import NamedTape.Main
import NamedTape.Program.Draft
import NamedTape.Proofs.Allocation
import NamedTape.Proofs.AnchoredExecutions
import NamedTape.Proofs.Arguments
import NamedTape.Proofs.AtomicFaults
import NamedTape.Proofs.Atomicity
import NamedTape.Proofs.Boundaries
import NamedTape.Proofs.CalledOff
import NamedTape.Proofs.Candor
import NamedTape.Proofs.Checkpoints
import NamedTape.Proofs.Chronicle
import NamedTape.Proofs.Coordinates
import NamedTape.Proofs.Fates
import NamedTape.Proofs.Headings
import NamedTape.Proofs.Headlines
import NamedTape.Proofs.History
import NamedTape.Proofs.Leftovers
import NamedTape.Proofs.Lines
import NamedTape.Proofs.MergedExecutions
import NamedTape.Proofs.NormalForm
import NamedTape.Proofs.Outline
import NamedTape.Proofs.Polling
import NamedTape.Proofs.Protocol
import NamedTape.Proofs.Records
import NamedTape.Proofs.Registrations
import NamedTape.Proofs.Rejections
import NamedTape.Proofs.Renaming
import NamedTape.Proofs.Residues
import NamedTape.Proofs.SafeExecutions
import NamedTape.Proofs.SpansOfPrograms
import NamedTape.Proofs.Stoppable
import NamedTape.Proofs.Strides
import NamedTape.Proofs.Strip
import NamedTape.Proofs.TableHistories
import NamedTape.Proofs.TapeHistories
import NamedTape.Proofs.Trees
import NamedTape.Proofs.Underlining
import NamedTape.Proofs.Worklist
import NamedTape.Session.Execution
import NamedTape.Session.Report
import NamedTape.Store
import NamedTape.Tape
import NamedTape.Tape.Call
import NamedTape.Text.IntegerLiteral
import NamedTape.Text.Newlines
import NamedTape.Text.Padded
import NamedTape.Text.Quoted
import NamedTape.Traceback
