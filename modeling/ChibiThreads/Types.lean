import Mathlib.Data.List.Basic
import Mathlib.Data.List.Nodup

/-!
# Threads and the kernel state

The data of the thread core of ChibiOS/RT (`os/rt/src/chthreads.c`).

* `Thread` is `thread_t` with the fields the functions of `chthreads.c` and the scheduler read or
  write. `p_u` is a union whose members `rdymsg` and `exitcode` are one slot (`Thread.u`);
  `p_msg` is a field of its own (`Thread.msg`).
* `Ctx` stands for the saved context `p_ctx` of a thread that is not running: the point of the
  kernel call it went to sleep in, so that the rest of that call runs when it is dispatched again.
* `Config` holds the build configuration (`chconf.h`) and the constants of the kernel headers
  the source uses. Neither is in `src/`, so both are parameters.
* `Kernel` is the system state: the thread table, the running thread, the thread reference
  objects, the virtual timers, the registry and the system time. `Kernel.log` is ghost state: the
  calls the kernel made to `chSchReadyI` and `chThdExitS`, and the values its calls returned to
  their threads, in order.
* `Halt` is why the kernel stops: a failed debug check or assertion (`chSysHalt`), a contract
  violation the spec declares fatal, or the dereference of a NULL thread pointer.
-/

namespace Ch

/-- `tstate_t`: the `CH_STATE_*` states of a thread that this core and its scheduler use. -/
inductive ThreadState where
  /-- `CH_STATE_READY`: in the ready list. -/
  | ready
  /-- `CH_STATE_CURRENT`: the running thread. -/
  | current
  /-- `CH_STATE_WTSTART`: created, not started yet. -/
  | wtstart
  /-- `CH_STATE_SUSPENDED`: asleep in `chThreadSuspendS`. -/
  | suspended
  /-- `CH_STATE_SLEEPING`: asleep in `chThdSleepS`. -/
  | sleeping
  /-- `CH_STATE_WTEXIT`: asleep in `chThdWait`. -/
  | wtexit
  /-- `CH_STATE_FINAL`: terminated. -/
  | final
  deriving DecidableEq, Repr

/-- Where a thread continues when it is dispatched (its saved context `p_ctx`). -/
inductive Ctx where
  /-- In its own code: at the start of its function, or between kernel calls. -/
  | user
  /-- In `chThreadSuspendS`, after `chSchGoSleepS(CH_STATE_SUSPENDED)`. -/
  | suspend
  /-- In `chThdWait(tp)`, after `chSchGoSleepS(CH_STATE_WTEXIT)`. -/
  | wait (tp : Nat)
  /-- In `chThdWait(tp)` after `chSysUnlock()`, holding the exit code `msg`, before
  `chThdRelease(tp)`. -/
  | release (tp : Nat) (msg : Int)
  /-- In `chThdSleepS`, after going to sleep. -/
  | sleep
  deriving DecidableEq, Repr

/-- `thread_t`, with the fields that the modelled functions use. -/
structure Thread where
  /-- `p_prio`: the current (effective) priority. -/
  prio : Nat
  /-- `p_state`. -/
  state : ThreadState
  /-- `p_flags`: the allocation mode bits and `CH_FLAG_TERMINATE`. -/
  flags : Nat
  /-- `p_realprio`: the priority without inheritance (`CH_CFG_USE_MUTEXES`). -/
  realprio : Nat
  /-- `p_refs`: the reference count (`CH_CFG_USE_DYNAMIC`). -/
  refs : Nat
  /-- `p_u`: the union of `rdymsg` (wake-up message) and `exitcode`. -/
  u : Int
  /-- `p_msg`: the message of the messages subsystem (`CH_CFG_USE_MESSAGES`). -/
  msg : Int
  /-- `p_waiting`: the threads blocked in `chThdWait` on this one (`CH_CFG_USE_WAITEXIT`). -/
  waiting : List Nat
  /-- `p_ctx`: where the thread continues when it is dispatched. -/
  ctx : Ctx
  deriving DecidableEq, Repr

namespace Thread

variable {c : Prop} [Decidable c] {a b : Thread}

@[simp] theorem ite_prio : (if c then a else b).prio = if c then a.prio else b.prio := by split <;> rfl
@[simp] theorem ite_state : (if c then a else b).state = if c then a.state else b.state := by
  split <;> rfl
@[simp] theorem ite_flags : (if c then a else b).flags = if c then a.flags else b.flags := by
  split <;> rfl
@[simp] theorem ite_realprio : (if c then a else b).realprio = if c then a.realprio else b.realprio := by
  split <;> rfl
@[simp] theorem ite_refs : (if c then a else b).refs = if c then a.refs else b.refs := by split <;> rfl
@[simp] theorem ite_u : (if c then a else b).u = if c then a.u else b.u := by split <;> rfl
@[simp] theorem ite_msg : (if c then a else b).msg = if c then a.msg else b.msg := by split <;> rfl
@[simp] theorem ite_waiting : (if c then a else b).waiting = if c then a.waiting else b.waiting := by
  split <;> rfl
@[simp] theorem ite_ctx : (if c then a else b).ctx = if c then a.ctx else b.ctx := by split <;> rfl

end Thread

/-- The build configuration and the header constants that `chthreads.c` uses. -/
structure Config where
  /-- `CH_CFG_USE_MUTEXES`. -/
  useMutexes : Bool
  /-- `CH_CFG_USE_DYNAMIC`. -/
  useDynamic : Bool
  /-- `CH_CFG_USE_REGISTRY`. -/
  useRegistry : Bool
  /-- `CH_CFG_ST_RESOLUTION`: the width in bits of `systime_t`. -/
  stResolution : Nat
  /-- `HIGHPRIO`. -/
  highprio : Nat
  /-- `THD_WA_SIZE(0)`: the smallest working area. -/
  waSize0 : Nat
  /-- `RDY_OK`. -/
  rdyOk : Int
  /-- `RDY_TIMEOUT`. -/
  rdyTimeout : Int
  /-- `TIME_IMMEDIATE`, as a number of ticks. -/
  timeImmediate : Nat
  /-- `TIME_INFINITE`, as a number of ticks. -/
  timeInfinite : Nat
  /-- `CH_FLAG_MODE_MASK`. -/
  flagModeMask : Nat
  /-- `CH_FLAG_MODE_STATIC`. -/
  flagModeStatic : Nat
  /-- `CH_FLAG_TERMINATE`. -/
  flagTerminate : Nat

/-- Why the kernel stopped. -/
inductive Halt where
  /-- `chDbgCheck` failed in function `fn`. -/
  | check (fn : String)
  /-- `chDbgAssert` failed with remark `remark`. -/
  | assert (remark : String)
  /-- A call of `fn` broke a contract that the spec declares fatal (the check is in a file that
  is not in `src/`). -/
  | contract (fn : String)
  /-- A NULL `thread_t` pointer was dereferenced. -/
  | nullThread
  deriving DecidableEq, Repr

/-- What the log records. -/
inductive Event where
  /-- `chSchReadyI(tp)`. -/
  | ready (tp : Nat)
  /-- `tp` entered `chThdExitS(msg)`. -/
  | exit (tp : Nat) (msg : Int)
  /-- `chThdWait(tp)` returned `msg` to `w`. -/
  | waitRet (w tp : Nat) (msg : Int)
  /-- `chThreadSuspendS` returned `msg` to `tp`. -/
  | suspendRet (tp : Nat) (msg : Int)
  deriving DecidableEq, Repr

/-- The kernel state. Threads are named by the address of their working area; the threads
created so far are `0, …, nthd - 1`, and every other address holds whatever the memory held. -/
structure Kernel where
  /-- The thread structure at each address. -/
  thd : Nat → Thread
  /-- The number of threads created. -/
  nthd : Nat
  /-- `currp`: the running thread; `none` while the idle thread runs. -/
  currp : Option Nat
  /-- The `thread_reference_t` objects, by address. -/
  cells : Nat → Option Nat
  /-- The armed virtual timers of sleeping threads: the thread and the ticks left. -/
  vtlist : List (Nat × Nat)
  /-- The system time, in ticks since start. -/
  systime : Nat
  /-- The registry, oldest thread first (`CH_CFG_USE_REGISTRY`). -/
  reglist : List Nat
  /-- Ghost: what the kernel did, oldest first. -/
  log : List Event

namespace Kernel

variable (k : Kernel)

/-- Change the structure of thread `tp`. -/
def modThd (tp : Nat) (f : Thread → Thread) : Kernel :=
  { k with thd := fun t => if t = tp then f (k.thd t) else k.thd t }

/-- Store `v` in the thread reference object at `trp`. -/
def setCell (trp : Nat) (v : Option Nat) : Kernel :=
  { k with cells := fun c => if c = trp then v else k.cells c }

/-- Append `e` to the log. -/
def record (e : Event) : Kernel := { k with log := k.log ++ [e] }

variable {k} {tp t trp c : Nat} {f : Thread → Thread} {v : Option Nat} {e : Event}

@[simp] theorem modThd_thd : (k.modThd tp f).thd t = if t = tp then f (k.thd t) else k.thd t := rfl
@[simp] theorem modThd_nthd : (k.modThd tp f).nthd = k.nthd := rfl
@[simp] theorem modThd_currp : (k.modThd tp f).currp = k.currp := rfl
@[simp] theorem modThd_cells : (k.modThd tp f).cells = k.cells := rfl
@[simp] theorem modThd_vtlist : (k.modThd tp f).vtlist = k.vtlist := rfl
@[simp] theorem modThd_systime : (k.modThd tp f).systime = k.systime := rfl
@[simp] theorem modThd_reglist : (k.modThd tp f).reglist = k.reglist := rfl
@[simp] theorem modThd_log : (k.modThd tp f).log = k.log := rfl

@[simp] theorem setCell_cells : (k.setCell trp v).cells c = if c = trp then v else k.cells c := rfl
@[simp] theorem setCell_thd : (k.setCell trp v).thd = k.thd := rfl
@[simp] theorem setCell_nthd : (k.setCell trp v).nthd = k.nthd := rfl
@[simp] theorem setCell_currp : (k.setCell trp v).currp = k.currp := rfl
@[simp] theorem setCell_vtlist : (k.setCell trp v).vtlist = k.vtlist := rfl
@[simp] theorem setCell_systime : (k.setCell trp v).systime = k.systime := rfl
@[simp] theorem setCell_reglist : (k.setCell trp v).reglist = k.reglist := rfl
@[simp] theorem setCell_log : (k.setCell trp v).log = k.log := rfl

@[simp] theorem record_log : (k.record e).log = k.log ++ [e] := rfl
@[simp] theorem record_thd : (k.record e).thd = k.thd := rfl
@[simp] theorem record_nthd : (k.record e).nthd = k.nthd := rfl
@[simp] theorem record_currp : (k.record e).currp = k.currp := rfl
@[simp] theorem record_cells : (k.record e).cells = k.cells := rfl
@[simp] theorem record_vtlist : (k.record e).vtlist = k.vtlist := rfl
@[simp] theorem record_systime : (k.record e).systime = k.systime := rfl
@[simp] theorem record_reglist : (k.record e).reglist = k.reglist := rfl

end Kernel

end Ch
