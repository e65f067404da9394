import Tlib.TranslationCache.JumpChainRuns
import Tlib.Riscv.PmpAccess
import Tlib.Atomic.LoadLinked
import Tlib.Atomic.LockWaiting
import Tlib.Rl78.Acceptance
import Tlib.Atomic.GlobalLock
import Tlib.Riscv.PmpLocking
import Tlib.Riscv.SupervisorInterrupts
import Tlib.CortexM.SecureEntries
import Tlib.CortexM.NonSecureCalls
import Tlib.CortexM.TestTarget
import Tlib.CortexM.ExemptionList
import Tlib.CortexM.RegionRegisters
import Tlib.CortexM.BankedRegisters
import Tlib.CortexM.SpecialWrites
import Tlib.CortexM.MpuSubregions
import Tlib.CortexM.LowOverheadLoops
import Tlib.Riscv.Counters
import Tlib.Riscv.VectorSaturation
import Tlib.Riscv.FaultOnlyFirst
import Tlib.Arm.ModeRuns
import Tlib.Arm.ExecutionStates
import Tlib.Arm.InterruptRouting
import Tlib.Arm.MpuOverlap
import Tlib.Riscv.PmpDecoding
import Tlib.TranslationCache.Breakpoints
import Tlib.TranslationCache.VariantOrder
import Tlib.Riscv.PageWalkConformance
import Tlib.Riscv.ClicPreemption
import Tlib.Rl78.MultiplyDivide
import Tlib.Execution.SearchTable
import Tlib.TranslationCache.CodePointers
import Tlib.Memory.PhysLoads
import Tlib.Softmmu.IoCachingRuns
import Tlib.Softmmu.AtomicTranslation
import Tlib.Softmmu.VirtToPhys
import Tlib.Support.TTableContents
import Tlib.Support.PerfMap
import Tlib.Atomic.GeneratedHash
import Tlib.Harness.ElfLoader
import Tlib.Tcg.CopyPropagation
import Tlib.Tcg.HostUtils
import Tlib.TranslationCache.DirtyBroadcast
import Tlib.TranslationCache.NotDirtyWrites
import Tlib.Softmmu.WindowRemoval
import Tlib.Softmmu.IoAccessedPages
import Tlib.Memory.PageDescriptors
import Tlib.Riscv.TranslationFlush
