import MinBp.VirtualMachine
import MinBp.Delivery
import MinBp.Handlers
import MinBp.InstructionTrapper
import MinBp.VmiAgent
import MinBp.Transparency
import MinBp.Events
import MinBp.Accesses
import MinBp.AgentLog
import MinBp.Repeat
import MinBp.MmioDevice
import MinBp.Fuzz
import MinBp.GuestLoader
import MinBp.CpuidTable
import MinBp.StringIo
import MinBp.Ledger
import MinBp.MsrExits
import MinBp.Resources
import MinBp.Sigint
import MinBp.Ownership
import MinBp.Teardown
import MinBp.EventDump
import MinBp.GuestReads
import MinBp.CpuidExits
import MinBp.Loading
import MinBp.Loops
import MinBp.MsrFilter
import MinBp.RunLoop
import MinBp.Snapshots
import MinBp.ErrorSteps
import MinBp.Registers
import MinBp.AgentMoves
import MinBp.VCpuIds
import MinBp.Reentrancy
import MinBp.Fields
import MinBp.Restores
import MinBp.Summaries
import MinBp.GuestRam
import MinBp.Checkpoints
import MinBp.Chronology
import MinBp.Components
import MinBp.Isolation
import MinBp.LogFile
import MinBp.CpuidBuffer
import MinBp.LongModeStart
import MinBp.NestedLoops
import MinBp.Traces
