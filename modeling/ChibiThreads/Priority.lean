import ChibiThreads.StepOk

/-!
# Priorities

With `CH_CFG_USE_MUTEXES` a thread has a real priority `p_realprio`, the one it asked for, and a
priority `p_prio` that the mutexes may raise above it (priority inheritance). `PrioOk k`: no
created thread runs below its real priority.

* `StepOk.prioOk`: every step keeps `PrioOk`; `chThdSetPriority` lowers `p_prio` only when the
  thread is not boosted, and the mutexes only raise it or set it back to at least the real one.
* `chThdSetPriority_keeps_boost`: what `chThdSetPriority` returns and does to the two priorities,
  and `PrioOk` of every reachable state.
-/

namespace Ch

/-- No created thread has a priority below its real priority. -/
def PrioOk (k : Kernel) : Prop := ∀ t < k.nthd, (k.thd t).realprio ≤ (k.thd t).prio

section Lemmas

variable {cfg : Config} {k k' : Kernel} {a : Action}

/-- A step that changes neither priority of any thread, nor the threads created. -/
theorem PrioOk.keep (hp : PrioOk k) (hn : k'.nthd = k.nthd)
    (he : ∀ t, (k'.thd t).prio = (k.thd t).prio ∧ (k'.thd t).realprio = (k.thd t).realprio) :
    PrioOk k' := fun t ht => (he t).1 ▸ (he t).2 ▸ hp t (hn ▸ ht)

/-- `_thread_init` gives a new thread its priority as both priorities. -/
theorem PrioOk.create (hm : cfg.useMutexes) (hp : PrioOk k) (prio : Nat) :
    PrioOk (threadInit cfg k.nthd prio k.newThread) := by
  intro t ht
  simp only [threadInit_frame, Kernel.newThread_nthd] at ht
  rcases Nat.lt_succ_iff_lt_or_eq.mp ht with ht | rfl
  · simpa [threadInit_thd, Nat.ne_of_lt ht] using hp t ht
  · simp [threadInit_thd, hm]

/-- A change of one thread that keeps its priority not below its real one. -/
theorem PrioOk.modThd (hp : PrioOk k) {tp : Nat} {f : Thread → Thread}
    (hf : (k.thd tp).realprio ≤ (k.thd tp).prio → (f (k.thd tp)).realprio ≤ (f (k.thd tp)).prio) :
    PrioOk (k.modThd tp f) := fun t ht => by
  simp only [Kernel.modThd_thd, Kernel.modThd_nthd] at ht ⊢
  split
  · subst t; exact hf (hp _ ht)
  · exact hp t ht

/-- Every step keeps `PrioOk`. -/
theorem StepOk.prioOk (hm : cfg.useMutexes) (hp : PrioOk k) (hs : StepOk cfg k a k') : PrioOk k' := by
  cases hs with
  | stutter => exact hp
  | @createStatic _ _ _ prio _ _ _ _ _ => exact (hp.create hm prio).keep (by simp) (fun t => by simp)
  | createI => exact hp.create hm _
  | setPriority => exact hp.modThd fun h => by dsimp only; split <;> omega
  | setPriorityNoMutexes _ _ _ h => simp [h] at hm
  | inherit => exact hp.modThd fun h => Nat.le_trans h (Nat.le_max_left _ _)
  | disinherit => exact hp.modThd fun _ => Nat.le_max_left _ _
  | exit => exact hp.keep chThdExitS_frame.1 fun t => by simp [chThdExitS_thd]
  | waitFinal => exact hp.keep chThdWaitWake_frame.1 fun t => by simp [chThdWaitWake_thd]
  | dispatch =>
    exact hp.keep dispatch_frame.1 fun t => by
      obtain ⟨_, _, e⟩ := @dispatch_thd cfg k _ t; rw [e]; exact ⟨rfl, rfl⟩
  | tick => exact hp.keep chSysTimerHandlerI_frame.1 fun t => by simp [chSysTimerHandlerI_thd]
  | _ => exact hp.keep (by simp [Ch.preempt]) fun t => by simp [Ch.preempt]

/-- With `CH_CFG_USE_MUTEXES`, no created thread of a reachable state runs below its real
priority. -/
theorem Reach.prioOk (hm : cfg.useMutexes) (h : Reach cfg k) : PrioOk k := by
  induction h with
  | init mem prio =>
    intro t ht
    rw [(Kernel.init_frame mem prio).1] at ht
    obtain rfl : t = 0 := by omega
    simp [Kernel.init, threadInit_thd, hm]
  | step a _ hs ih => exact (step_ok hs).prioOk hm ih

end Lemmas

variable {cfg : Config}

/-- With `CH_CFG_USE_MUTEXES`, `chThdSetPriority(newprio)` by a thread whose priority is not below
its real one returns the old real priority, sets the real priority to `newprio`, sets the
priority to `newprio` when the thread is not boosted, never lowers it when it is, and leaves the
priority not below the real one and the other threads as they were; and no created thread of a
reachable state runs below its real priority. -/
theorem chThdSetPriority_keeps_boost (hm : cfg.useMutexes = true) :
    (∀ k cur newprio, (k.thd cur).realprio ≤ (k.thd cur).prio → newprio ≤ cfg.highprio →
      ∃ k', chThdSetPriority cfg cur newprio k = .ok ((k.thd cur).realprio, k') ∧
        (k'.thd cur).realprio = newprio ∧
        ((k.thd cur).prio = (k.thd cur).realprio → (k'.thd cur).prio = newprio) ∧
        ((k.thd cur).realprio < (k.thd cur).prio → (k.thd cur).prio ≤ (k'.thd cur).prio) ∧
        (k'.thd cur).realprio ≤ (k'.thd cur).prio ∧ ∀ t, t ≠ cur → k'.thd t = k.thd t) ∧
    ∀ k, Reach cfg k → ∀ t < k.nthd, (k.thd t).realprio ≤ (k.thd t).prio := by
  refine ⟨fun k cur newprio hle hp => ?_, fun k h => h.prioOk hm⟩
  refine ⟨k.modThd cur fun t => { t with
    prio := if t.prio = t.realprio ∨ newprio > t.prio then newprio else t.prio
    realprio := newprio }, by simp [chThdSetPriority, hp, hm], ?_⟩
  simp only [chSchRescheduleS, Kernel.modThd_thd, if_true]
  refine ⟨trivial, fun e => by simp [e], fun hb => ?_, ?_, fun t e => by simp [e]⟩
  · split <;> omega
  · split <;> omega

theorem chThdSetPriority_keeps_boost_full : Config.full.useMutexes = true ∧
    ((∀ k cur newprio, (k.thd cur).realprio ≤ (k.thd cur).prio → newprio ≤ Config.full.highprio →
      ∃ k', chThdSetPriority Config.full cur newprio k = .ok ((k.thd cur).realprio, k') ∧
        (k'.thd cur).realprio = newprio ∧
        ((k.thd cur).prio = (k.thd cur).realprio → (k'.thd cur).prio = newprio) ∧
        ((k.thd cur).realprio < (k.thd cur).prio → (k.thd cur).prio ≤ (k'.thd cur).prio) ∧
        (k'.thd cur).realprio ≤ (k'.thd cur).prio ∧ ∀ t, t ≠ cur → k'.thd t = k.thd t) ∧
    ∀ k, Reach Config.full k → ∀ t < k.nthd, (k.thd t).realprio ≤ (k.thd t).prio) :=
  ⟨rfl, chThdSetPriority_keeps_boost rfl⟩

end Ch
