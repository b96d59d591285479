import ChibiThreads.Types
import ChibiThreads.Sched
import ChibiThreads.Threads
import ChibiThreads.Step
import ChibiThreads.StepOk
import ChibiThreads.Inv
import ChibiThreads.Lifecycle
import ChibiThreads.Join
import ChibiThreads.Registry
import ChibiThreads.Refinement
import ChibiThreads.Priority
import ChibiThreads.SleepUntil
import ChibiThreads.Sleep
import ChibiThreads.Suspend
import ChibiThreads.Refs
import ChibiThreads.Memfill
