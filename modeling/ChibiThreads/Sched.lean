import ChibiThreads.Types

/-!
# The collaborators of the thread core

`chthreads.c` calls the scheduler (`chschd.c`, `chschd.h`), the virtual timers (`chvt.c`), the
registry (`chregistry.h`) and the allocators (`chdynamic.c`); none of these is in `src/`. Each is
modelled here from the spec (§4, §6), as far as the thread core depends on it:

* `chSchReadyI` makes a thread ready and records the call; the order of the ready list is the
  scheduler's (§5), so the model keeps no ready list: any ready thread may be dispatched next.
* `chSchGoSleepS` puts the running thread to sleep with its saved context; no thread runs until
  the scheduler dispatches one (`ChibiThreads/Step.lean`).
* `chSchWakeupS` stores the wake-up message and makes its thread ready; a NULL thread stops the
  kernel. The switch to the woken thread that it may make at once is left to the run, as a
  preemption and a dispatch.
* `chSchDoYieldS` always gives up the CPU; the scheduler may dispatch the same thread again.
* `listInsert`/`listRemove` make `p_waiting` a FIFO queue, the order §5 gives the waiters. A
  `threads_list_t` kept as a stack (insert and remove at the head) would wake them in the reverse
  order.
* `chSysTimerHandlerI` is one tick: the armed timers count down, and each that reaches zero wakes
  its thread with `RDY_TIMEOUT`.
* `chThdAddRef` and `chThdRelease` count the references to a thread; a release at zero is fatal.
-/

namespace Ch

/-! ## Threads lists -/

/-- Modelled from the spec: `list_insert(tp, tlp)` (`chschd.h` is not in `src/`). §5 wakes the
waiters in FIFO arrival order, so a new waiter goes to the end. -/
def listInsert (tp : Nat) (l : List Nat) : List Nat := l ++ [tp]

/-- Modelled from the spec: `list_remove(tlp)` (`chschd.h` is not in `src/`) takes the oldest
waiter (§5, FIFO arrival order). It is only called on a list that is not empty. -/
def listRemove (l : List Nat) : Nat × List Nat := (l.headD 0, l.tail)

/-- Modelled from the spec: `list_notempty(tlp)` (`chschd.h` is not in `src/`). -/
def listNotempty (l : List Nat) : Bool := !l.isEmpty

/-! ## Scheduler -/

/-- Modelled from the spec: `chSchReadyI(tp)` (`chschd.c` is not in `src/`) puts `tp` in the
ready list (§6 `enqueue_ready`). -/
def chSchReadyI (tp : Nat) (k : Kernel) : Kernel :=
  (k.modThd tp fun t => { t with state := .ready }).record (.ready tp)

/-- Modelled from the spec: `chSchGoSleepS(newstate)` (`chschd.c` is not in `src/`) puts the
running thread `cur` in `newstate`, saves where it continues (`ctx`) and leaves the CPU to the
scheduler (§6 `dequeue_and_switch_to_final_sleep_state`). -/
def chSchGoSleepS (cur : Nat) (newstate : ThreadState) (ctx : Ctx) (k : Kernel) : Kernel :=
  { k.modThd cur (fun t => { t with state := newstate, ctx := ctx }) with currp := none }

/-- Modelled from the spec: `chSchWakeupS(ntp, msg)` (`chschd.c` is not in `src/`) stores `msg`
in `ntp->p_u.rdymsg` and makes `ntp` ready; whether it runs at once is the scheduler's choice
(a `preempt` and a `dispatch` of the run). A NULL `ntp` is dereferenced: the kernel stops. -/
def chSchWakeupS (ntp : Option Nat) (msg : Int) (k : Kernel) : Except Halt Kernel :=
  match ntp with
  | none => .error .nullThread
  | some tp => .ok (chSchReadyI tp (k.modThd tp fun t => { t with u := msg }))

/-- Modelled from the spec: `chSchRescheduleS()` (`chschd.c` is not in `src/`). The switch it
may make is the scheduler's choice (§5), a `preempt` step of the run; it changes no thread. -/
def chSchRescheduleS (k : Kernel) : Kernel := k

/-- Modelled from the spec: `chSchDoYieldS()` (`chschd.h` is not in `src/`): the running thread
goes back to the ready list and the scheduler picks the next one, which may be itself. -/
def chSchDoYieldS (cur : Nat) (k : Kernel) : Kernel := { chSchReadyI cur k with currp := none }

/-- Modelled from the spec: `chThdStartI(tp)` (`chthreads.h` is not in `src/`) makes a thread in
`CH_STATE_WTSTART` ready; §4.2 makes starting any other thread a fatal contract violation. -/
def chThdStartI (tp : Nat) (k : Kernel) : Except Halt Kernel :=
  if (k.thd tp).state = .wtstart then .ok (chSchReadyI tp k) else .error (.contract "chThdStartI")

/-! ## Virtual timers -/

/-- Modelled from the spec: `chVTGetSystemTimeX()` (`chvt.h` is not in `src/`): the system time
as a `systime_t`, which wraps. -/
def chVTGetSystemTimeX (cfg : Config) (k : Kernel) : BitVec cfg.stResolution :=
  BitVec.ofNat _ k.systime

/-- Modelled from the spec: `chThdSleepS(time)` (`chthreads.h` and `chschd.c` are not in
`src/`), that is `chSchGoSleepTimeoutS(CH_STATE_SLEEPING, time)` (§4.5): with `TIME_INFINITE`
no timer is armed; `TIME_IMMEDIATE` is not allowed (the comment of `chThdSleep`). -/
def chThdSleepS (cfg : Config) (cur : Nat) (time : BitVec cfg.stResolution) (k : Kernel) :
    Except Halt Kernel :=
  if time = BitVec.ofNat _ cfg.timeImmediate then .error (.contract "chThdSleepS")
  else if time = BitVec.ofNat _ cfg.timeInfinite then .ok (chSchGoSleepS cur .sleeping .sleep k)
  else .ok (chSchGoSleepS cur .sleeping .sleep { k with vtlist := k.vtlist ++ [(cur, time.toNat)] })

/-- Modelled from the spec: `wakeup(tp)`, the callback of the timer of a sleeping thread
(`chschd.c` is not in `src/`): `tp->p_u.rdymsg = RDY_TIMEOUT` and `chSchReadyI(tp)`. -/
def wakeup (cfg : Config) (tp : Nat) (k : Kernel) : Kernel :=
  chSchReadyI tp (k.modThd tp fun t => { t with u := cfg.rdyTimeout })

/-- The callbacks of the timers that expire at one tick, in list order. -/
def wakeupAll (cfg : Config) : List Nat → Kernel → Kernel
  | [], k => k
  | tp :: ts, k => wakeupAll cfg ts (wakeup cfg tp k)

/-- Modelled from the spec: one tick of the system timer (`chSysTimerHandlerI`, `chvt.c` is not
in `src/`): the time advances, every armed timer counts down, and those that reach zero are
disarmed and fire. -/
def chSysTimerHandlerI (cfg : Config) (k : Kernel) : Kernel :=
  let vts := k.vtlist.map fun p => (p.1, p.2 - 1)
  wakeupAll cfg ((vts.filter (·.2 = 0)).map (·.1))
    { k with systime := k.systime + 1, vtlist := vts.filter (·.2 ≠ 0) }

/-! ## Registry and references -/

/-- Modelled from the spec: `REG_INSERT(tp)` (`chregistry.h` is not in `src/`) adds `tp` to the
registry as its newest thread. -/
def regInsert (tp : Nat) (k : Kernel) : Kernel := { k with reglist := k.reglist ++ [tp] }

/-- Modelled from the spec: `REG_REMOVE(tp)` (`chregistry.h` is not in `src/`) removes `tp` from
the registry. -/
def regRemove (tp : Nat) (k : Kernel) : Kernel := { k with reglist := k.reglist.erase tp }

/-- Modelled from the spec: `chThdAddRef(tp)` (`chdynamic.c` is not in `src/`) adds one
reference to `tp`, for a thread that keeps a pointer to it (§4.6, reference-counted allocation).
The count is not bounded in the model. -/
def chThdAddRef (tp : Nat) (k : Kernel) : Kernel :=
  k.modThd tp fun t => { t with refs := t.refs + 1 }

/-- Modelled from the spec: `chThdRelease(tp)` (`chdynamic.c` is not in `src/`) releases one
reference to `tp` (§4.6); releasing a reference that does not exist, at a count of zero, is a
fatal contract violation (§7). The threads of `chthreads.c` are static: no memory goes back to
an allocator. -/
def chThdRelease (tp : Nat) (k : Kernel) : Except Halt Kernel :=
  if (k.thd tp).refs = 0 then .error (.contract "chThdRelease")
  else .ok (k.modThd tp fun t => { t with refs := t.refs - 1 })

/-! ## Effects -/

attribute [simp] chSchReadyI chSchGoSleepS chSchRescheduleS chSchDoYieldS wakeup regInsert
  regRemove chThdAddRef

section Lemmas

variable {cfg : Config} {k : Kernel} {t : Nat} {ts : List Nat}

/-- The timer callbacks of a tick wake exactly the threads of their list. -/
theorem wakeupAll_thd : (wakeupAll cfg ts k).thd t =
    if t ∈ ts then { k.thd t with u := cfg.rdyTimeout, state := .ready } else k.thd t := by
  induction ts generalizing k with
  | nil => simp [wakeupAll]
  | cons x ts ih =>
    simp only [wakeupAll, ih, wakeup, chSchReadyI, Kernel.record_thd, Kernel.modThd_thd,
      List.mem_cons]
    by_cases hx : t = x <;> by_cases hm : t ∈ ts <;> simp [hx, hm]

theorem wakeupAll_log : (wakeupAll cfg ts k).log = k.log ++ ts.map .ready := by
  induction ts generalizing k with
  | nil => simp [wakeupAll]
  | cons x ts ih => simp [wakeupAll, ih]

/-- The timer callbacks change only the thread table and the log. -/
theorem wakeupAll_frame : (wakeupAll cfg ts k).nthd = k.nthd ∧ (wakeupAll cfg ts k).currp = k.currp ∧
    (wakeupAll cfg ts k).cells = k.cells ∧ (wakeupAll cfg ts k).vtlist = k.vtlist ∧
    (wakeupAll cfg ts k).systime = k.systime ∧ (wakeupAll cfg ts k).reglist = k.reglist := by
  induction ts generalizing k with
  | nil => simp [wakeupAll]
  | cons x ts ih => simpa [wakeupAll] using ih

/-- The threads whose timer expires at the next tick. -/
def expiring (k : Kernel) : List Nat := ((k.vtlist.map fun p => (p.1, p.2 - 1)).filter (·.2 = 0)).map (·.1)

theorem chSysTimerHandlerI_thd : (chSysTimerHandlerI cfg k).thd t =
    if t ∈ expiring k then { k.thd t with u := cfg.rdyTimeout, state := .ready } else k.thd t := by
  simp only [chSysTimerHandlerI, wakeupAll_thd, expiring]

theorem chSysTimerHandlerI_log : (chSysTimerHandlerI cfg k).log = k.log ++ (expiring k).map .ready := by
  simp only [chSysTimerHandlerI, wakeupAll_log, expiring]

theorem chSysTimerHandlerI_frame : (chSysTimerHandlerI cfg k).nthd = k.nthd ∧
    (chSysTimerHandlerI cfg k).currp = k.currp ∧ (chSysTimerHandlerI cfg k).cells = k.cells ∧
    (chSysTimerHandlerI cfg k).vtlist = (k.vtlist.map fun p => (p.1, p.2 - 1)).filter (·.2 ≠ 0) := by
  simp only [chSysTimerHandlerI]
  exact ⟨wakeupAll_frame.1, wakeupAll_frame.2.1, wakeupAll_frame.2.2.1, wakeupAll_frame.2.2.2.1⟩

theorem chSysTimerHandlerI_reglist : (chSysTimerHandlerI cfg k).reglist = k.reglist :=
  wakeupAll_frame.2.2.2.2.2

theorem mem_expiring {k : Kernel} {t : Nat} (h : t ∈ expiring k) : ∃ n, (t, n) ∈ k.vtlist := by
  simp only [expiring, List.mem_map, List.mem_filter] at h
  obtain ⟨⟨_, _⟩, ⟨⟨⟨a, b⟩, hab, he⟩, -⟩, rfl⟩ := h
  simp only [Prod.mk.injEq] at he
  obtain ⟨rfl, -⟩ := he
  exact ⟨b, hab⟩

end Lemmas

end Ch
