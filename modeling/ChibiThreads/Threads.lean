import ChibiThreads.Sched

/-!
# The functions of `chthreads.c`

One definition per function of `os/rt/src/chthreads.c`, in the order of the file. `cur` is
`currp`, the thread that makes the call. A function that returns a value returns it with the new
kernel state; a function that can fail a debug check returns `Except Halt`.

A call that sleeps (`chThreadSuspendS`, `chThdSleepS`, `chThdWait`) is split where the thread
leaves the CPU: the part before is the function itself, and the rest (`chThreadSuspendSWake`,
`chThdWaitWake`, `chThdWaitRelease`) runs when the scheduler dispatches the thread again.

`_thread_memfill` and the fill of `CH_DBG_FILL_THREADS` write the bytes of the working area, not
the kernel state: they are modelled in `ChibiThreads.Memfill`.
-/

namespace Ch

/-- `_thread_init(tp, prio)`. The fields it does not set keep what the working area held. -/
def threadInit (cfg : Config) (tp prio : Nat) (k : Kernel) : Kernel :=
  let k := k.modThd tp fun t => { t with
    prio := prio
    state := .wtstart
    flags := cfg.flagModeStatic
    realprio := if cfg.useMutexes then prio else t.realprio
    refs := if cfg.useDynamic then 1 else t.refs
    waiting := [] }
  if cfg.useRegistry then regInsert tp k else k

/-- The working area of a new thread. The model numbers threads in the order they are created,
each in a working area of its own, so the new thread is `nthd`. `SETUP_CONTEXT` makes it start
in its function `pf(arg)`, which is the thread's own code. -/
def Kernel.newThread (k : Kernel) : Kernel :=
  { k.modThd k.nthd (fun t => { t with ctx := .user }) with nthd := k.nthd + 1 }

/-- `chThdCreateI(wsp, size, prio, pf, arg)`. -/
def chThdCreateI (cfg : Config) (wsp size prio pf _arg : Nat) (k : Kernel) :
    Except Halt (Nat × Kernel) :=
  if wsp ≠ 0 ∧ cfg.waSize0 ≤ size ∧ prio ≤ cfg.highprio ∧ pf ≠ 0 then
    .ok (k.nthd, threadInit cfg k.nthd prio k.newThread)
  else .error (.check "chThdCreateI")

/-- `chThdCreateStatic(wsp, size, prio, pf, arg)`: `chSchWakeupS(tp = chThdCreateI(...), RDY_OK)`
under the lock. -/
def chThdCreateStatic (cfg : Config) (wsp size prio pf arg : Nat) (k : Kernel) :
    Except Halt (Nat × Kernel) :=
  match chThdCreateI cfg wsp size prio pf arg k with
  | .error e => .error e
  | .ok (tp, k) => (chSchWakeupS (some tp) cfg.rdyOk k).map fun k => (tp, k)

/-- `chThdStart(tp)`: `chThdStartI(tp)` under the lock. -/
def chThdStart (tp : Nat) (k : Kernel) : Except Halt (Nat × Kernel) :=
  (chThdStartI tp k).map fun k => (tp, k)

/-- `chThdSetPriority(newprio)`: returns the old real priority. With `CH_CFG_USE_MUTEXES` the
current priority changes only when the thread is not boosted or the new priority is higher. -/
def chThdSetPriority (cfg : Config) (cur newprio : Nat) (k : Kernel) :
    Except Halt (Nat × Kernel) :=
  if newprio ≤ cfg.highprio then
    if cfg.useMutexes then
      .ok ((k.thd cur).realprio, chSchRescheduleS (k.modThd cur fun t => { t with
        prio := if t.prio = t.realprio ∨ newprio > t.prio then newprio else t.prio
        realprio := newprio }))
    else
      .ok ((k.thd cur).prio, chSchRescheduleS (k.modThd cur fun t => { t with prio := newprio }))
  else .error (.check "chThdSetPriority")

/-- `chThreadSuspendS(trp)`, up to `chSchGoSleepS(CH_STATE_SUSPENDED)`. -/
def chThreadSuspendS (cur trp : Nat) (k : Kernel) : Except Halt Kernel :=
  if k.cells trp = none then .ok (chSchGoSleepS cur .suspended .suspend (k.setCell trp (some cur)))
  else .error (.assert "not NULL")

/-- The rest of `chThreadSuspendS` when its thread runs again:
`return chThdGetSelfX()->p_msg`. -/
def chThreadSuspendSWake (cur : Nat) (k : Kernel) : Kernel :=
  (k.modThd cur fun t => { t with ctx := .user }).record (.suspendRet cur (k.thd cur).msg)

/-- `chThreadResumeI(trp, msg)`. -/
def chThreadResumeI (trp : Nat) (msg : Int) (k : Kernel) : Except Halt Kernel :=
  match k.cells trp with
  | none => .ok k
  | some tp =>
    if (k.thd tp).state = .suspended then
      .ok ((chSchReadyI tp (k.modThd tp fun t => { t with u := msg })).setCell trp none)
    else .error (.assert "not THD_STATE_SUSPENDED")

/-- `chThreadResumeS(trp, msg)`: `*trp = NULL; chSchWakeupS(*trp, msg);`. -/
def chThreadResumeS (trp : Nat) (msg : Int) (k : Kernel) : Except Halt Kernel :=
  match k.cells trp with
  | none => .ok k
  | some tp =>
    if (k.thd tp).state = .suspended then
      let k := k.setCell trp none
      chSchWakeupS (k.cells trp) msg k
    else .error (.assert "not THD_STATE_SUSPENDED")

/-- `chThreadResume(trp, msg)`: `chThreadResumeS` under the lock. -/
def chThreadResume (trp : Nat) (msg : Int) (k : Kernel) : Except Halt Kernel :=
  chThreadResumeS trp msg k

/-- `chThdTerminate(tp)`: `tp->p_flags |= CH_FLAG_TERMINATE`. -/
def chThdTerminate (cfg : Config) (tp : Nat) (k : Kernel) : Kernel :=
  k.modThd tp fun t => { t with flags := t.flags ||| cfg.flagTerminate }

/-- `chThdSleep(time)`: `chThdSleepS(time)` under the lock. -/
def chThdSleep (cfg : Config) (cur : Nat) (time : BitVec cfg.stResolution) (k : Kernel) :
    Except Halt Kernel :=
  chThdSleepS cfg cur time k

/-- `chThdSleepUntil(time)`: `if ((time -= chVTGetSystemTimeX()) > 0) chThdSleepS(time);`, on
the unsigned `systime_t`. -/
def chThdSleepUntil (cfg : Config) (cur : Nat) (time : BitVec cfg.stResolution) (k : Kernel) :
    Except Halt Kernel :=
  let time := time - chVTGetSystemTimeX cfg k
  if time > 0 then chThdSleepS cfg cur time k else .ok k

/-- `chThdYield()`: `chSchDoYieldS()` under the lock. -/
def chThdYield (cur : Nat) (k : Kernel) : Kernel := chSchDoYieldS cur k

/-- The loop of `chThdExitS`:
`while (list_notempty(&tp->p_waiting)) chSchReadyI(list_remove(&tp->p_waiting));`,
for at most `n` rounds. -/
def exitWaiting (tp : Nat) : Nat → Kernel → Kernel
  | 0, k => k
  | n + 1, k =>
    if listNotempty (k.thd tp).waiting then
      let r := listRemove (k.thd tp).waiting
      exitWaiting tp n (chSchReadyI r.1 (k.modThd tp fun t => { t with waiting := r.2 }))
    else k

/-- `chThdExitS(msg)`. The loop runs once per waiter (`exitWaiting`). The thread is never
dispatched again, so the assertion after `chSchGoSleepS(CH_STATE_FINAL)` is never reached. -/
def chThdExitS (cfg : Config) (cur : Nat) (msg : Int) (k : Kernel) : Kernel :=
  let k := (k.modThd cur fun t => { t with u := msg }).record (.exit cur msg)
  let k := exitWaiting cur (k.thd cur).waiting.length k
  let k := if cfg.useRegistry ∧ (k.thd cur).flags &&& cfg.flagModeMask = cfg.flagModeStatic
    then regRemove cur k else k
  chSchGoSleepS cur .final .user k

/-- `chThdExit(msg)`: `chThdExitS(msg)` under the lock. -/
def chThdExit (cfg : Config) (cur : Nat) (msg : Int) (k : Kernel) : Kernel := chThdExitS cfg cur msg k

/-- The end of `chThdWait(tp)`, from `msg = tp->p_u.exitcode`, run at once when `tp` is already
final and otherwise when the waiter is dispatched again. Without `CH_CFG_USE_DYNAMIC` it returns
`msg`; with it the thread unlocks and goes on to `chThdRelease(tp)`. -/
def chThdWaitWake (cfg : Config) (cur tp : Nat) (k : Kernel) : Kernel :=
  let msg := (k.thd tp).u
  if cfg.useDynamic then k.modThd cur fun t => { t with ctx := .release tp msg }
  else (k.modThd cur fun t => { t with ctx := .user }).record (.waitRet cur tp msg)

/-- The last part of `chThdWait(tp)` with `CH_CFG_USE_DYNAMIC`: `chThdRelease(tp); return msg;`. -/
def chThdWaitRelease (cur tp : Nat) (msg : Int) (k : Kernel) : Except Halt Kernel :=
  (chThdRelease tp (k.modThd cur fun t => { t with ctx := .user })).map
    (·.record (.waitRet cur tp msg))

/-- `chThdWait(tp)`, up to `chSchGoSleepS(CH_STATE_WTEXIT)` when `tp` is not final. -/
def chThdWait (cfg : Config) (cur tp : Nat) (k : Kernel) : Except Halt Kernel :=
  if tp = cur then .error (.assert "waiting self")
  else if cfg.useDynamic ∧ (k.thd tp).refs = 0 then .error (.assert "not referenced")
  else if (k.thd tp).state ≠ .final then
    .ok (chSchGoSleepS cur .wtexit (.wait tp)
      (k.modThd tp fun t => { t with waiting := listInsert cur t.waiting }))
  else .ok (chThdWaitWake cfg cur tp k)

/-! ## Effects -/

attribute [simp] chThreadSuspendSWake chThdYield chThdExit chThreadResume chThdSleep
  chThdTerminate

section Lemmas

variable {cfg : Config} {k k' : Kernel} {tp t cur prio : Nat} {msg : Int}

@[simp] theorem Kernel.newThread_thd : k.newThread.thd t =
    if t = k.nthd then { k.thd t with ctx := .user } else k.thd t := rfl
@[simp] theorem Kernel.newThread_nthd : k.newThread.nthd = k.nthd + 1 := rfl
@[simp] theorem Kernel.newThread_currp : k.newThread.currp = k.currp := rfl
@[simp] theorem Kernel.newThread_cells : k.newThread.cells = k.cells := rfl
@[simp] theorem Kernel.newThread_vtlist : k.newThread.vtlist = k.vtlist := rfl
@[simp] theorem Kernel.newThread_log : k.newThread.log = k.log := rfl
@[simp] theorem Kernel.newThread_reglist : k.newThread.reglist = k.reglist := rfl

theorem threadInit_thd : (threadInit cfg tp prio k).thd t =
    if t = tp then { k.thd t with
      prio := prio, state := .wtstart, flags := cfg.flagModeStatic,
      realprio := if cfg.useMutexes then prio else (k.thd t).realprio,
      refs := if cfg.useDynamic then 1 else (k.thd t).refs, waiting := [] }
    else k.thd t := by
  unfold threadInit; cases cfg.useRegistry <;> simp

/-- `_thread_init` changes the thread table and the registry only. -/
theorem threadInit_frame : (threadInit cfg tp prio k).nthd = k.nthd ∧
    (threadInit cfg tp prio k).currp = k.currp ∧ (threadInit cfg tp prio k).cells = k.cells ∧
    (threadInit cfg tp prio k).vtlist = k.vtlist ∧ (threadInit cfg tp prio k).log = k.log := by
  unfold threadInit; cases cfg.useRegistry <;> simp

/-- `REG_INSERT`: with `CH_CFG_USE_REGISTRY`, `_thread_init` adds the thread to the registry. -/
theorem threadInit_reglist : (threadInit cfg tp prio k).reglist =
    if cfg.useRegistry then k.reglist ++ [tp] else k.reglist := by
  unfold threadInit; cases cfg.useRegistry <;> simp

/-- What a successful `chThdCreateI` does: the new thread is `nthd`, initialised by
`_thread_init`. -/
theorem chThdCreateI_ok {wsp size pf arg : Nat} {r : Nat × Kernel}
    (h : chThdCreateI cfg wsp size prio pf arg k = .ok r) :
    r = (k.nthd, threadInit cfg k.nthd prio k.newThread) := by
  unfold chThdCreateI at h
  split at h
  · cases h; rfl
  · cases h

theorem Thread.waiting_self {r : Thread} {l : List Nat} (h : r.waiting = l) :
    { r with waiting := l } = r := by
  subst h; rfl

/-- The loop of `chThdExitS`, given enough rounds, makes every waiter ready and empties the
list. -/
theorem exitWaiting_thd (tp : Nat) : ∀ (n : Nat) (k : Kernel), (k.thd tp).waiting.length ≤ n →
    (exitWaiting tp n k).thd t =
      if t ∈ (k.thd tp).waiting then
        { (k.modThd tp fun r => { r with waiting := [] }).thd t with state := .ready }
      else (k.modThd tp fun r => { r with waiting := [] }).thd t
  | 0, k, h => by
    have hw : (k.thd tp).waiting = [] := List.eq_nil_of_length_eq_zero (Nat.le_zero.mp h)
    simp only [exitWaiting, hw, List.not_mem_nil, if_false, Kernel.modThd_thd]
    split
    · subst t; exact (Thread.waiting_self hw).symm
    · rfl
  | n + 1, k, h => by
    cases hw : (k.thd tp).waiting with
    | nil =>
      simp only [exitWaiting, hw, listNotempty, List.isEmpty_nil, Bool.not_true,
        Bool.false_eq_true, if_false, List.not_mem_nil, Kernel.modThd_thd]
      split
      · subst t; exact (Thread.waiting_self hw).symm
      · rfl
    | cons w rest =>
      rw [hw] at h
      simp only [exitWaiting, hw, listNotempty, List.isEmpty_cons, Bool.not_false, if_true,
        listRemove, List.headD_cons, List.tail_cons]
      rw [exitWaiting_thd tp n _ (by simp at h ⊢; exact h)]
      simp only [chSchReadyI, Kernel.record_thd, Kernel.modThd_thd, List.mem_cons]
      by_cases h1 : t = tp <;> by_cases h2 : t = w <;> by_cases h3 : t ∈ rest <;>
        simp [h1, h2, h3, hw] <;> simp_all

theorem exitWaiting_log (tp : Nat) : ∀ (n : Nat) (k : Kernel), (k.thd tp).waiting.length ≤ n →
    (exitWaiting tp n k).log = k.log ++ (k.thd tp).waiting.map .ready
  | 0, k, h => by
    simp [exitWaiting, List.eq_nil_of_length_eq_zero (Nat.le_zero.mp h)]
  | n + 1, k, h => by
    cases hw : (k.thd tp).waiting with
    | nil => simp [exitWaiting, hw, listNotempty]
    | cons w rest =>
      rw [hw] at h
      simp only [exitWaiting, hw, listNotempty, List.isEmpty_cons, Bool.not_false, if_true,
        listRemove, List.headD_cons, List.tail_cons]
      rw [exitWaiting_log tp n _ (by simp at h ⊢; exact h)]
      simp

theorem exitWaiting_frame (tp : Nat) : ∀ (n : Nat) (k : Kernel), (exitWaiting tp n k).nthd = k.nthd ∧
    (exitWaiting tp n k).currp = k.currp ∧ (exitWaiting tp n k).cells = k.cells ∧
    (exitWaiting tp n k).vtlist = k.vtlist ∧ (exitWaiting tp n k).reglist = k.reglist
  | 0, k => by simp [exitWaiting]
  | n + 1, k => by
    unfold exitWaiting
    split
    · simpa using exitWaiting_frame tp n _
    · simp

theorem exitWaiting_systime (tp : Nat) :
    ∀ (n : Nat) (k : Kernel), (exitWaiting tp n k).systime = k.systime
  | 0, k => rfl
  | n + 1, k => by
    unfold exitWaiting
    split
    · simpa using exitWaiting_systime tp n _
    · rfl

/-- What `chThdExitS` does to the thread table: the exiting thread is final with its exit code
and an empty list, and every thread of its list is ready. -/
theorem chThdExitS_thd : (chThdExitS cfg cur msg k).thd t =
    if t = cur then { k.thd t with u := msg, waiting := [], state := .final, ctx := .user }
    else if t ∈ (k.thd cur).waiting then { k.thd t with state := .ready } else k.thd t := by
  have h := exitWaiting_thd (t := t) cur ((k.thd cur).waiting.length)
    ((k.modThd cur fun t => { t with u := msg }).record (.exit cur msg)) (by simp)
  simp only [Kernel.record_thd, Kernel.modThd_thd, if_true] at h
  simp only [chThdExitS]
  split <;> simp only [regRemove, chSchGoSleepS, Kernel.modThd_thd, h] <;> split <;> simp_all

theorem chThdExitS_state : ((chThdExitS cfg cur msg k).thd t).state = if t = cur then .final
    else if t ∈ (k.thd cur).waiting then .ready else (k.thd t).state := by
  rw [chThdExitS_thd]; split <;> [rfl; split <;> rfl]

theorem chThdExitS_ctx : ((chThdExitS cfg cur msg k).thd t).ctx =
    if t = cur then .user else (k.thd t).ctx := by
  rw [chThdExitS_thd]; split <;> [rfl; split <;> rfl]

theorem chThdExitS_waiting : ((chThdExitS cfg cur msg k).thd t).waiting =
    if t = cur then [] else (k.thd t).waiting := by
  rw [chThdExitS_thd]; split <;> [rfl; split <;> rfl]

theorem chThdExitS_u : ((chThdExitS cfg cur msg k).thd t).u = if t = cur then msg else (k.thd t).u := by
  rw [chThdExitS_thd]; split <;> [rfl; split <;> rfl]

/-- `chThdExitS` records the call, then hands every waiter to `chSchReadyI` in list order. -/
theorem chThdExitS_log : (chThdExitS cfg cur msg k).log =
    k.log ++ Event.exit cur msg :: (k.thd cur).waiting.map .ready := by
  have h := exitWaiting_log cur ((k.thd cur).waiting.length)
    ((k.modThd cur fun t => { t with u := msg }).record (.exit cur msg)) (by simp)
  simp only [Kernel.record_log, Kernel.record_thd, Kernel.modThd_log, Kernel.modThd_thd,
    if_true] at h
  simp only [chThdExitS]
  split <;> simp [h]

theorem chThdExitS_frame : (chThdExitS cfg cur msg k).nthd = k.nthd ∧
    (chThdExitS cfg cur msg k).currp = none ∧ (chThdExitS cfg cur msg k).cells = k.cells ∧
    (chThdExitS cfg cur msg k).vtlist = k.vtlist := by
  obtain ⟨h1, -, h3, h4, -⟩ := exitWaiting_frame cur ((k.thd cur).waiting.length)
    ((k.modThd cur fun t => { t with u := msg }).record (.exit cur msg))
  simp only [chThdExitS]
  split <;> simp_all

/-- The loop of `chThdExitS` changes no flags and not the registry. -/
theorem exitWaiting_flags (tp : Nat) :
    ∀ (n : Nat) (k : Kernel), ((exitWaiting tp n k).thd t).flags = (k.thd t).flags
  | 0, k => rfl
  | n + 1, k => by
    unfold exitWaiting
    split
    · rw [exitWaiting_flags tp n]; simp
    · rfl

theorem exitWaiting_reglist (tp n : Nat) (k : Kernel) : (exitWaiting tp n k).reglist = k.reglist :=
  (exitWaiting_frame tp n k).2.2.2.2

/-- `REG_REMOVE`: with `CH_CFG_USE_REGISTRY`, `chThdExitS` removes a static thread from the
registry. -/
theorem chThdExitS_reglist : (chThdExitS cfg cur msg k).reglist =
    if cfg.useRegistry ∧ (k.thd cur).flags &&& cfg.flagModeMask = cfg.flagModeStatic
    then k.reglist.erase cur else k.reglist := by
  simp only [chThdExitS, chSchGoSleepS, Kernel.modThd_reglist, exitWaiting_flags,
    exitWaiting_reglist, Kernel.record_thd, Kernel.record_reglist, Kernel.modThd_thd, if_true]
  split <;> simp [exitWaiting_reglist]

/-- The end of `chThdWait` changes the saved context of its thread, and the log. -/
theorem chThdWaitWake_thd : (chThdWaitWake cfg cur tp k).thd t = if t = cur then
    { k.thd t with ctx := if cfg.useDynamic then .release tp (k.thd tp).u else .user }
    else k.thd t := by
  unfold chThdWaitWake; split <;> simp [*]

theorem chThdWaitWake_frame : (chThdWaitWake cfg cur tp k).nthd = k.nthd ∧
    (chThdWaitWake cfg cur tp k).currp = k.currp ∧ (chThdWaitWake cfg cur tp k).cells = k.cells ∧
    (chThdWaitWake cfg cur tp k).vtlist = k.vtlist := by
  unfold chThdWaitWake; split <;> simp

theorem chThdWaitWake_reglist : (chThdWaitWake cfg cur tp k).reglist = k.reglist := by
  unfold chThdWaitWake; split <;> rfl

/-- The release at the end of `chThdWait(tp)` succeeds exactly when `tp` has a reference, and
then takes it, returns `msg` and puts the thread back in its own code. -/
theorem chThdWaitRelease_eq_ok : chThdWaitRelease cur tp msg k = .ok k' ↔ 0 < (k.thd tp).refs ∧
    k' = ((k.modThd cur fun t => { t with ctx := .user }).modThd tp
      fun t => { t with refs := t.refs - 1 }).record (.waitRet cur tp msg) := by
  simp only [chThdWaitRelease, chThdRelease, Kernel.modThd_thd, Thread.ite_refs, ite_self]
  split
  · simp [Except.map, *]
  · simp only [Except.map, Except.ok.injEq]
    exact ⟨fun e => ⟨Nat.pos_of_ne_zero ‹_›, e.symm⟩, fun ⟨_, e⟩ => e.symm⟩

end Lemmas

end Ch
