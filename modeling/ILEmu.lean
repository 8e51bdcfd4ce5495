import ILEmu.Foundation.Containers
import ILEmu.Foundation.Checked
import ILEmu.Foundation.Run
import ILEmu.Foundation.Bitmap
import ILEmu.Scheduler.System
import ILEmu.Scheduler.QueueProofs
import ILEmu.Scheduler.Balance
import ILEmu.Scheduler.Life
import ILEmu.Foundation.Counters
import ILEmu.Scheduler.Placement
import ILEmu.Scheduler.Transitions
import ILEmu.Scheduler.Repricing
import ILEmu.Scheduler.Settled
import ILEmu.Scheduler.Clock
import ILEmu.Scheduler.Wakeups
import ILEmu.Scheduler.Policies
import ILEmu.Scheduler.Selection
import ILEmu.Scheduler.Slices
import ILEmu.Scheduler.Settlement
import ILEmu.Scheduler.Removal
import ILEmu.Scheduler.Registration
import ILEmu.Scheduler.Completion
import ILEmu.Scheduler.Steps
import ILEmu.Scheduler.Bookkeeping
import ILEmu.Scheduler.Wakes
import ILEmu.Scheduler.Choices
import ILEmu.Scheduler.Fuel
import ILEmu.Scheduler.Flights
import ILEmu.Scheduler.Accounts
import ILEmu.Scheduler.Credits
import ILEmu.Scheduler.Ledger
import ILEmu.Mach.Scans
import ILEmu.Mach.References
import ILEmu.Mach.Exhaustion
import ILEmu.Mach.Circularity
import ILEmu.Mach.SendRuns
import ILEmu.Mach.Preposts
import ILEmu.Mach.ReceiveRuns
import ILEmu.Memory.VmRefinement
import ILEmu.Bsd.KeventDelivery
import ILEmu.Bsd.KeventLoss
import ILEmu.Bsd.SignalHarm
import ILEmu.ArmMemory.Restart
import ILEmu.ArmInterpreter.Instruction
import ILEmu.ArmInterpreter.Arithmetic
import ILEmu.ArmInterpreter.Interpreter
import ILEmu.Foundation.Words
import ILEmu.ArmMemory.Registers
import ILEmu.Arm64.RegisterWrites
import ILEmu.Arm64.AddressDisplacements
import ILEmu.Arm64.AddressKeys
import ILEmu.Arm64.WindowGuard
import ILEmu.Foundation.OpenRanges
import ILEmu.Bsd.RecordLocks
import ILEmu.Bsd.LocalSocketReceive
import ILEmu.Memory.GuestMemoryGate
import ILEmu.Foundation.Arrivals
import ILEmu.Bsd.PsynchRuntime
import ILEmu.Bsd.PsynchMutex
import ILEmu.Bsd.PsynchRwLock
import ILEmu.Foundation.Codec
import ILEmu.Foundation.Condensing
import ILEmu.Input.HidEventQueue
import ILEmu.Mach.Semaphores
import ILEmu.Mach.SemaphoreTokens
import ILEmu.Input.ContactOrigins
import ILEmu.Dynarmic.Opcodes
import ILEmu.Dynarmic.Artifact
import ILEmu.Dynarmic.Codecs
import ILEmu.Dynarmic.Validation
import ILEmu.Dynarmic.Serialization
import ILEmu.Memory.FilePageCache
import ILEmu.Memory.SharedFilePages
import ILEmu.Dynarmic.RoundTrip
import ILEmu.ArmInterpreter.ArithmeticDecode
import ILEmu.ArmInterpreter.ExactLanes
import ILEmu.Arm.VectorDecode
import ILEmu.ArmMemory.VectorBank
import ILEmu.Foundation.PricedWalks
import ILEmu.Arm64.FlagQueries
import ILEmu.Arm64.CodeRevocation
import ILEmu.Scheduler.GuestDispatchTurns
import ILEmu.Scheduler.Preemption
import ILEmu.Bsd.PsynchGenerations
import ILEmu.Vm.SharedRegionSlide
import ILEmu.Vm.SlideChains
import ILEmu.Foundation.Ranges
import ILEmu.Vm.SharedRegion
import ILEmu.Vm.PrivateRegion
import ILEmu.Jit.WorkPolicy
import ILEmu.Jit.WorkScheduler
import ILEmu.Jit.WorkAdmission
import ILEmu.Foundation.Frontier
import ILEmu.Dynarmic.Liveness
import ILEmu.Dynarmic.Indexing
import ILEmu.Dynarmic.ValidatedIr
import ILEmu.Execution.Coordinator
import ILEmu.Execution.Accounting
import ILEmu.Execution.Windows
import ILEmu.Memory.FileGenerations
import ILEmu.Memory.GenerationIndex
import ILEmu.Memory.MutationQueue
import ILEmu.Memory.GenerationRuns
import ILEmu.Arm64.DeadFlags
import ILEmu.Memory.AddressSpaceMemory
