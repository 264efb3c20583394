import FxRtos.Lib.Reach
import FxRtos.Sched.Mpq
import FxRtos.Sched.Sched
import FxRtos.Lib.Circular
import FxRtos.Sched.Priority
import FxRtos.Timer.Punctual
import FxRtos.Objects.Sem
import FxRtos.Objects.EvFlags
import FxRtos.Objects.Msgq
import FxRtos.Objects.BlockPool
import FxRtos.Objects.Event
import FxRtos.Objects.Wakeup
import FxRtos.Kernel.Granted
import FxRtos.Objects.Rwlock
import FxRtos.Objects.Mutex
import FxRtos.Objects.Ownership
import FxRtos.Objects.Cond
import FxRtos.Objects.Ceiling
import FxRtos.Objects.SemAccount
import FxRtos.Objects.Barrier
import FxRtos.Objects.MsgqDeque
import FxRtos.Objects.PoolPartition
import FxRtos.Objects.RwlockServed
import FxRtos.Timer.Overdue
import FxRtos.Esr.Esr
import FxRtos.Esr.Stack
import FxRtos.Esr.Levels
import FxRtos.Esr.Mailbox
import FxRtos.Heap.Indices
import FxRtos.Sched.MpqMemory
import FxRtos.Sched.Agree
import FxRtos.Esr.Registered
import FxRtos.Esr.Activation
import FxRtos.Objects.EvFlagsSet
import FxRtos.Hal.Dispatch
import FxRtos.Kernel.SameRuns
import FxRtos.Timer.OldLink
import FxRtos.Kernel.OldThread
import FxRtos.Objects.OldMutex
import FxRtos.Objects.OldMemory
import FxRtos.Objects.PoolInit
import FxRtos.Objects.BarrierKey
import FxRtos.Timer.SignedCompare
import FxRtos.Hal.Mpu
import FxRtos.Timer.CatchUp
import FxRtos.Sched.Boost
import FxRtos.Heap.MaxBlk
import FxRtos.Timer.Premature
import FxRtos.Objects.ReadySet
import FxRtos.Sched.Timeslice
import FxRtos.Kernel.Join
import FxRtos.Objects.Joined
import FxRtos.Kernel.Scheduled
import FxRtos.Hw.BitCount
import FxRtos.Hw.Atomic
import FxRtos.Hal.IntrEntry
import FxRtos.Hal.Context
