import A20OS.Channel.Conservation
import A20OS.Channel.NoLostWakeup
import A20OS.Channel.Readiness
import A20OS.Cluster.Calls
import A20OS.Cluster.Events
import A20OS.Cluster.ProxyLifetime
import A20OS.Cluster.UartHandshake
import A20OS.Core.RwMutexRuns
import A20OS.Envelope.Budget
import A20OS.Envelope.Refinement
import A20OS.Envelope.System
import A20OS.Event.Index
import A20OS.Fs.LockTable
import A20OS.Fs.Path
import A20OS.Fs.PipeStream
import A20OS.Handle.Alloc
import A20OS.Handle.Decay
import A20OS.Handle.NonAmplification
import A20OS.Handle.Stats
import A20OS.Ipc.FutexCount
import A20OS.Ipc.Landlock
import A20OS.Ipc.PiFutexRuns
import A20OS.Ipc.SeccompFilter
import A20OS.Ipc.SysvMsgRuns
import A20OS.Ipc.SysvSem
import A20OS.Kep.Lifetime
import A20OS.Kep.Safety
import A20OS.Mcu.LeafSession
import A20OS.Mm.FrameSafety
import A20OS.Mm.VmaLookup
import A20OS.Net.RxQueue
import A20OS.Proc.CgThrottle
import A20OS.Proc.PosixTimer
import A20OS.Proc.RoundRobin
import A20OS.Proc.WaitTimerRuns
