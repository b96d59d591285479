import ChibiThreads.Threads

/-!
# Runs of the kernel

A run is a sequence of `Action`s, each taken atomically (the critical section of the call):

* `Action.call`: the running thread calls a function of `chthreads.c` (`Call`), or
  `chThdAddRef` of `chdynamic.c`. Thread context calls need a running thread in its own code, and
  a thread argument must be a created thread.
* `Action.createI`, `Action.resumeI`: the I-class functions, from an interrupt or from a thread
  under the lock.
* `Action.release`: the running thread, between `chSysUnlock()` and `chThdRelease(tp)` in
  `chThdWait`, releases its reference.
* `Action.preempt`, `Action.dispatch`: the scheduler takes the CPU from the running thread, or
  gives it to a ready thread. Which one it picks is the scheduler's priority policy, which the
  spec treats as an opaque oracle (§5), so every choice is a run.
* `Action.tick`: the system timer.
* `Action.inherit`, `Action.disinherit`: the mutex subsystem (`chmtx.c`, not in `src/`) raises a
  thread's priority to the one of a waiter, or sets it back to the real priority or a waiter's.

An action that cannot happen in a state (a call with no running thread, a dispatch of a thread
that is not ready) leaves the state as it is. `Reach cfg k`: `k` is the state of a run from the
start of the kernel that has not stopped.
-/

namespace Ch

/-- The functions of `chthreads.c` a running thread can call. -/
inductive Call where
  | createStatic (wsp size prio pf arg : Nat)
  | start (tp : Nat)
  | setPriority (newprio : Nat)
  | suspendS (trp : Nat)
  | resumeS (trp : Nat) (msg : Int)
  | resume (trp : Nat) (msg : Int)
  | terminate (tp : Nat)
  | sleep (time : Nat)
  | sleepUntil (time : Nat)
  | yield
  | exit (msg : Int)
  | wait (tp : Nat)
  /-- `chThdAddRef(tp)`, of `chdynamic.c`. -/
  | addRef (tp : Nat)
  deriving DecidableEq, Repr

/-- What can happen next in a run. -/
inductive Action where
  | call (c : Call)
  | createI (wsp size prio pf arg : Nat)
  | resumeI (trp : Nat) (msg : Int)
  | release
  | preempt
  | dispatch (tp : Nat)
  | tick
  | inherit (tp prio : Nat)
  | disinherit (tp prio : Nat)
  deriving DecidableEq, Repr

/-- The thread a call takes as its argument, if any. -/
def Call.target : Call → Option Nat
  | .start tp | .terminate tp | .wait tp | .addRef tp => some tp
  | _ => none

/-- A call by the running thread `cur`. -/
def Call.run (cfg : Config) (cur : Nat) : Call → Kernel → Except Halt Kernel
  | .createStatic wsp size prio pf arg, k =>
    (chThdCreateStatic cfg wsp size prio pf arg k).map Prod.snd
  | .start tp, k => (chThdStart tp k).map Prod.snd
  | .setPriority newprio, k => (chThdSetPriority cfg cur newprio k).map Prod.snd
  | .suspendS trp, k => chThreadSuspendS cur trp k
  | .resumeS trp msg, k => chThreadResumeS trp msg k
  | .resume trp msg, k => chThreadResume trp msg k
  | .terminate tp, k => .ok (chThdTerminate cfg tp k)
  | .sleep time, k => chThdSleep cfg cur (BitVec.ofNat _ time) k
  | .sleepUntil time, k => chThdSleepUntil cfg cur (BitVec.ofNat _ time) k
  | .yield, k => .ok (chThdYield cur k)
  | .exit msg, k => .ok (chThdExit cfg cur msg k)
  | .wait tp, k => chThdWait cfg cur tp k
  | .addRef tp, k => .ok (chThdAddRef tp k)

/-- The scheduler gives the CPU to the ready thread `tp`, which runs the rest of the call it
slept in, still under the lock. -/
def dispatch (cfg : Config) (tp : Nat) (k : Kernel) : Kernel :=
  let k := { k.modThd tp (fun t => { t with state := .current }) with currp := some tp }
  match (k.thd tp).ctx with
  | .suspend => chThreadSuspendSWake tp k
  | .wait tq => chThdWaitWake cfg tp tq k
  | .sleep =>
    { k.modThd tp (fun t => { t with ctx := .user }) with
      vtlist := k.vtlist.filter (·.1 ≠ tp) }
  | .user | .release _ _ => k

section Lemmas

variable {cfg : Config} {k : Kernel} {tp t : Nat}

/-- A dispatch makes its thread the running one and changes no other state. -/
theorem dispatch_state : ((dispatch cfg tp k).thd t).state =
    if t = tp then .current else (k.thd t).state := by
  simp only [dispatch]
  split <;> simp [chThdWaitWake_thd]

/-- A dispatch changes the states and saved contexts of threads only. -/
theorem dispatch_thd : ∃ s c, (dispatch cfg tp k).thd t = { k.thd t with state := s, ctx := c } := by
  simp only [dispatch]
  split <;> simp only [chThreadSuspendSWake, chThdWaitWake_thd, Kernel.modThd_thd,
    Kernel.record_thd] <;> split <;> (try split) <;> exact ⟨_, _, rfl⟩

theorem dispatch_frame : (dispatch cfg tp k).nthd = k.nthd ∧ (dispatch cfg tp k).currp = some tp := by
  simp only [dispatch]
  split <;> simp [chThdWaitWake_frame]

theorem dispatch_reglist : (dispatch cfg tp k).reglist = k.reglist := by
  simp only [dispatch]
  split <;> simp [chThreadSuspendSWake, chThdWaitWake_reglist]

end Lemmas

/-- The scheduler takes the CPU from the running thread `cur`, which goes back to the ready
list. -/
def preempt (cur : Nat) (k : Kernel) : Kernel := { chSchReadyI cur k with currp := none }

/-- One step of a run. -/
def step (cfg : Config) (k : Kernel) : Action → Except Halt Kernel
  | .call c =>
    match k.currp with
    | some cur =>
      if (k.thd cur).ctx = .user ∧ ∀ tp ∈ c.target, tp < k.nthd then c.run cfg cur k else .ok k
    | none => .ok k
  | .createI wsp size prio pf arg => (chThdCreateI cfg wsp size prio pf arg k).map Prod.snd
  | .resumeI trp msg => chThreadResumeI trp msg k
  | .release =>
    match k.currp with
    | some cur =>
      match (k.thd cur).ctx with
      | .release tp msg => chThdWaitRelease cur tp msg k
      | _ => .ok k
    | none => .ok k
  | .preempt =>
    match k.currp with
    | some cur => .ok (preempt cur k)
    | none => .ok k
  | .dispatch tp =>
    if k.currp = none ∧ tp < k.nthd ∧ (k.thd tp).state = .ready then .ok (dispatch cfg tp k)
    else .ok k
  | .tick => .ok (chSysTimerHandlerI cfg k)
  -- Modelled from the spec: the priority inheritance of `chmtx.c` (not in `src/`) raises the
  -- priority of `tp`, which holds a mutex, to the one of a thread that waits for it.
  | .inherit tp prio =>
    if cfg.useMutexes ∧ tp < k.nthd then .ok (k.modThd tp fun t => { t with prio := max t.prio prio })
    else .ok k
  -- Modelled from the spec: when `tp` releases a mutex, `chmtx.c` sets its priority back to its
  -- real priority, or to the priority `prio` of a thread that waits for a mutex it still holds.
  | .disinherit tp prio =>
    if cfg.useMutexes ∧ tp < k.nthd then
      .ok (k.modThd tp fun t => { t with prio := max t.realprio prio })
    else .ok k

/-- Modelled from the spec: the start of the kernel (`chSysInit`, `chsys.c` is not in `src/`,
§9 "explicit init-before-use"): the main thread, thread `0`, is initialised like a created thread
with priority `prio` and runs. `mem` is what memory holds. -/
def Kernel.init (cfg : Config) (mem : Nat → Thread) (prio : Nat) : Kernel :=
  (threadInit cfg 0 prio
    { thd := mem, nthd := 1, currp := some 0, cells := fun _ => none, vtlist := [],
      systime := 0, reglist := [], log := [] }).modThd 0
    fun t => { t with state := .current, ctx := .user }

theorem Kernel.init_frame {cfg : Config} (mem : Nat → Thread) (prio : Nat) :
    (Kernel.init cfg mem prio).nthd = 1 ∧ (Kernel.init cfg mem prio).currp = some 0 ∧
    (Kernel.init cfg mem prio).cells = (fun _ => none) ∧ (Kernel.init cfg mem prio).vtlist = [] ∧
    (Kernel.init cfg mem prio).log = [] := by
  simp [Kernel.init, threadInit_frame]

/-- With `CH_CFG_USE_REGISTRY` the registry holds the main thread. -/
theorem Kernel.init_reglist {cfg : Config} (mem : Nat → Thread) (prio : Nat) :
    (Kernel.init cfg mem prio).reglist = if cfg.useRegistry then [0] else [] := by
  simp only [Kernel.init, threadInit, Kernel.modThd_reglist]
  split <;> rfl

/-- The main thread runs, in its own code, with no thread waiting for it. -/
theorem Kernel.init_thd_zero {cfg : Config} (mem : Nat → Thread) (prio : Nat) :
    ((Kernel.init cfg mem prio).thd 0).state = .current ∧
    ((Kernel.init cfg mem prio).thd 0).ctx = .user ∧
    ((Kernel.init cfg mem prio).thd 0).waiting = [] := by
  simp [Kernel.init, threadInit_thd]

/-- The states of the runs from the start of the kernel that have not stopped. -/
inductive Reach (cfg : Config) : Kernel → Prop where
  | init (mem : Nat → Thread) (prio : Nat) : Reach cfg (Kernel.init cfg mem prio)
  | step {k k' : Kernel} (a : Action) : Reach cfg k → step cfg k a = .ok k' → Reach cfg k'

/-- Run the actions of a list in order. -/
def run (cfg : Config) : Kernel → List Action → Except Halt Kernel
  | k, [] => .ok k
  | k, a :: as => (step cfg k a).bind fun k => run cfg k as

/-- A working area full of zeros (`CH_STATE_READY` is `0`). -/
def Thread.zero : Thread :=
  { prio := 0, state := .ready, flags := 0, realprio := 0, refs := 0, u := 0, msg := 0,
    waiting := [], ctx := .user }

/-- A configuration to run the model on: every option on, a 16-bit `systime_t` with
`TIME_IMMEDIATE = 0` and `TIME_INFINITE` all ones, and a least working area of `96` bytes. -/
def Config.full : Config :=
  { useMutexes := true, useDynamic := true, useRegistry := true, stResolution := 16,
    highprio := 255, waSize0 := 96, rdyOk := 0, rdyTimeout := -1, timeImmediate := 0,
    timeInfinite := 65535, flagModeMask := 3, flagModeStatic := 0, flagTerminate := 4 }

/-- `Config.full` without `CH_CFG_USE_DYNAMIC`: `chThdWait` returns the exit code at once, and
no reference is released. -/
def Config.noDynamic : Config := { Config.full with useDynamic := false }

/-- The kernel after `chSysInit` in `Config.full` on zeroed memory, the main thread at
priority `1`. -/
def Kernel.boot : Kernel := Kernel.init Config.full (fun _ => Thread.zero) 1

/-- A run with six threads. The main thread creates threads `1` to `5` and waits for thread `4`,
which exits with code `5`; the main thread gets the code, releases its reference to thread `4`
and waits for thread `1`. Thread `2` suspends on the thread reference object `0`, thread `3`
sleeps for `10` ticks, and thread `5` takes a reference to thread `1` and waits for it too.
Thread `1` runs last. -/
def sampleRun : List Action :=
  [.call (.createStatic 1 96 1 1 0), .call (.createStatic 1 96 1 1 0),
    .call (.createStatic 1 96 1 1 0), .call (.createStatic 1 96 1 1 0),
    .call (.createStatic 1 96 1 1 0), .call (.wait 4), .dispatch 4, .call (.exit 5), .dispatch 0,
    .release, .call (.wait 1), .dispatch 2, .call (.suspendS 0), .dispatch 3, .call (.sleep 10),
    .dispatch 5, .call (.addRef 1), .call (.wait 1), .dispatch 1]

theorem Reach.run {cfg : Config} {k k' : Kernel} (h : Reach cfg k) :
    ∀ {as : List Action}, Ch.run cfg k as = .ok k' → Reach cfg k' := by
  intro as
  induction as generalizing k with
  | nil => intro e; cases e; exact h
  | cons a as ih =>
    intro e
    simp only [Ch.run] at e
    cases hs : Ch.step cfg k a with
    | error => rw [hs] at e; cases e
    | ok k₁ => rw [hs] at e; exact ih (h.step a hs) e

/-- The state at the end of `sampleRun` in `Config.full`: thread `1` runs, threads `0` and `5`
are in its `p_waiting` list, thread `2` is suspended in object `0`, thread `3` sleeps with a timer
and thread `4` is final. -/
def Kernel.sample : Kernel :=
  match run Config.full Kernel.boot sampleRun with
  | .ok k => k
  | .error _ => Kernel.boot

theorem Reach.sample : Reach Config.full Kernel.sample :=
  Reach.run (.init _ _) (show Ch.run Config.full Kernel.boot sampleRun = .ok Kernel.sample from rfl)

/-- A relation `R` between states that every successful step from a state of `I` has, where
every step keeps `I`, and that composes, holds between the ends of every run from a state of
`I`. -/
theorem run_rel {cfg : Config} {I : Kernel → Prop} {R : Kernel → Kernel → Prop}
    (hI : ∀ {k a k'}, I k → step cfg k a = .ok k' → I k') (hrefl : ∀ k, R k k)
    (htrans : ∀ {k₁ k₂ k₃}, R k₁ k₂ → R k₂ k₃ → R k₁ k₃)
    (hstep : ∀ {k a k'}, I k → step cfg k a = .ok k' → R k k') :
    ∀ {as : List Action} {k k' : Kernel}, I k → Ch.run cfg k as = .ok k' → R k k'
  | [], k, _, _, e => by cases e; exact hrefl k
  | a :: as, k, k', hk, e => by
    simp only [Ch.run] at e
    cases hs : Ch.step cfg k a with
    | error => rw [hs] at e; cases e
    | ok k₁ =>
      rw [hs] at e
      exact htrans (hstep hk hs) (run_rel hI hrefl htrans hstep (hI hk hs) e)

/-- A property of a created thread that every successful step from a state of `I` keeps, where
no step removes a thread, holds at the end of every run from a state of `I`. -/
theorem run_thread {cfg : Config} {I : Kernel → Prop} {P : Kernel → Nat → Prop}
    (hI : ∀ {k a k'}, I k → step cfg k a = .ok k' → I k')
    (hP : ∀ {k a k'}, I k → step cfg k a = .ok k' →
      k.nthd ≤ k'.nthd ∧ ∀ t < k.nthd, P k t → P k' t)
    {as : List Action} {k k' : Kernel} (hk : I k) (hr : Ch.run cfg k as = .ok k') {t : Nat}
    (ht : t < k.nthd) (hp : P k t) : P k' t :=
  (run_rel (R := fun k k' => k.nthd ≤ k'.nthd ∧ ∀ t < k.nthd, P k t → P k' t) hI
    (fun _ => ⟨le_refl _, fun _ _ => id⟩)
    (fun ⟨n12, f12⟩ ⟨n23, f23⟩ =>
      ⟨le_trans n12 n23, fun t ht hp => f23 t (by omega) (f12 t ht hp)⟩)
    hP hk hr).2 t ht hp

end Ch
