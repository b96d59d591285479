import ChibiThreads.Lifecycle

/-!
# Thread references: `chThreadSuspendS` and the resumes

`chThreadSuspendS(trp)` stores the running thread in `*trp` and suspends it; a resume empties
`*trp` and makes the thread ready with a message, which `chThreadSuspendS` returns when the thread
runs again. The invariant keeps every object that is not NULL on a suspended thread, and no two
on the same one (`Inv.cell_suspended`, `Inv.cell_inj`).

* `chThreadResumeS_loses_wakeup`: `chThreadResumeS` sets `*trp = NULL` before it hands `*trp`
  to `chSchWakeupS`, so in every reachable state where `*trp` holds a thread it leaves that
  thread suspended and held by no object, and passes NULL on; a short run reaches such a state.
* `chThreadResumeS_ne_resumeI`: on such an object `chThreadResumeI` makes the thread ready with
  `p_u.rdymsg = msg` and empties the object, and `chThreadResumeS` does not.
* `StepOk.msg`: no step writes `p_msg`; `chThreadSuspendS_returns_p_msg`: the value
  `chThreadSuspendS` returns is `p_msg`, what the working area held, and not the message of the
  resume, which goes to `p_u.rdymsg`.
* `thread_reference_safe`: in every reachable state a thread is suspended exactly when one
  object holds it. Only `chThreadSuspendS` suspends a thread, and it stores it in the object;
  `chThreadResumeI` readies the thread it takes out; and the `chThreadResumeS` that would leave a
  suspended thread in no object halts the kernel on the NULL it passes to `chSchWakeupS`.
-/

namespace Ch

section Lemmas

variable {cfg : Config} {k k' : Kernel} {a : Action}

/-- No step writes `p_msg`. -/
theorem StepOk.msg (hs : StepOk cfg k a k') (t : Nat) : (k'.thd t).msg = (k.thd t).msg := by
  cases hs with
  | stutter => rfl
  | createStatic | createI => simp [threadInit_thd]
  | exit => simp [chThdExitS_thd]
  | waitFinal => simp [chThdWaitWake_thd]
  | dispatch => obtain ⟨_, _, e⟩ := @dispatch_thd cfg k _ t; rw [e]
  | tick => simp [chSysTimerHandlerI_thd]
  | _ => simp [Ch.preempt]

/-- No run writes `p_msg`. -/
theorem run_msg : ∀ {k : Kernel} {as : List Action}, run cfg k as = .ok k' →
    ∀ t, (k'.thd t).msg = (k.thd t).msg
  | _, [], h, t => by cases h; rfl
  | k, a :: as, h, t => by
    simp only [run] at h
    cases hs : step cfg k a with
    | error => rw [hs] at h; cases h
    | ok k₁ =>
      rw [hs] at h
      have h' : run cfg k₁ as = .ok k' := h
      rw [run_msg h' t, (step_ok hs).msg t]

end Lemmas

/-- In every reachable state where the thread reference object `trp` holds a thread `t`,
`chThreadResumeS(trp, msg)` empties the object and hands NULL to `chSchWakeupS`: `t` stays
suspended, no object holds it, and the kernel dereferences NULL. A run in which thread `0`
suspends on object `0` and thread `1` resumes it reaches this. -/
theorem chThreadResumeS_loses_wakeup :
    (∀ (cfg : Config) k trp t msg, Reach cfg k → k.cells trp = some t →
      chThreadResumeS trp msg k = chSchWakeupS none msg (k.setCell trp none) ∧
      ((k.setCell trp none).thd t).state = .suspended ∧
      (∀ c, (k.setCell trp none).cells c ≠ some t) ∧
      chThreadResumeS trp msg k = .error .nullThread) ∧
    ∃ k, run Config.full Kernel.boot
        [.call (.createStatic 1 96 1 1 0), .call (.suspendS 0), .dispatch 1] = .ok k ∧
      k.cells 0 = some 0 ∧ k.currp = some 1 ∧ (k.thd 1).ctx = .user ∧
      step Config.full k (.call (.resumeS 0 7)) = .error .nullThread := by
  refine ⟨fun cfg k trp t msg h hc => ?_, _, rfl, rfl, rfl, rfl, rfl⟩
  have hi := h.inv
  have hs := (hi.cell_suspended trp t hc).2
  have e : chThreadResumeS trp msg k = chSchWakeupS none msg (k.setCell trp none) := by
    simp [chThreadResumeS, hc, hs]
  refine ⟨e, by simpa using hs, fun c hc' => ?_, by rw [e]; rfl⟩
  simp only [Kernel.setCell_cells] at hc'
  split at hc'
  · cases hc'
  · exact ‹¬c = trp› (hi.cell_inj c trp t hc' hc)

/-- On a thread reference object that holds a suspended thread `t`, `chThreadResumeI` followed
by `chSchRescheduleS` makes `t` ready with `p_u.rdymsg = msg` and empties the object, while
`chThreadResumeS` stops the kernel on a NULL thread. -/
theorem chThreadResumeS_ne_resumeI {k : Kernel} {trp t : Nat} {msg : Int}
    (hc : k.cells trp = some t) (hs : (k.thd t).state = .suspended) :
    chThreadResumeS trp msg k = .error .nullThread ∧
    ∃ k', chThreadResumeI trp msg k = .ok k' ∧ (chSchRescheduleS k').cells trp = none ∧
      ((chSchRescheduleS k').thd t).state = .ready ∧ ((chSchRescheduleS k').thd t).u = msg := by
  refine ⟨by simp [chThreadResumeS, hc, hs, chSchWakeupS],
    (chSchReadyI t (k.modThd t fun r => { r with u := msg })).setCell trp none,
    by simp [chThreadResumeI, hc, hs], by simp⟩

theorem chThreadResumeS_ne_resumeI_run : ∃ k, run Config.full Kernel.boot
      [.call (.createStatic 1 96 1 1 0), .call (.suspendS 0), .dispatch 1] = .ok k ∧
    k.cells 0 = some 0 ∧ (k.thd 0).state = .suspended ∧
    (chThreadResumeS 0 7 k = .error .nullThread ∧
      ∃ k', chThreadResumeI 0 7 k = .ok k' ∧ (chSchRescheduleS k').cells 0 = none ∧
        ((chSchRescheduleS k').thd 0).state = .ready ∧ ((chSchRescheduleS k').thd 0).u = 7) :=
  ⟨_, rfl, rfl, rfl, chThreadResumeS_ne_resumeI rfl rfl⟩

/-- What `chThreadSuspendS` returns when its thread runs again is `p_msg`, and no run writes
`p_msg`: it is what the working area held at the start. When thread `0` suspends on object `0`
and an interrupt resumes it with message `7`, the call returns `0`. -/
theorem chThreadSuspendS_returns_p_msg :
    (∀ (cfg : Config) k tp, (k.thd tp).ctx = .suspend →
      (dispatch cfg tp k).log = k.log ++ [.suspendRet tp (k.thd tp).msg]) ∧
    (∀ (cfg : Config) mem prio as k, run cfg (Kernel.init cfg mem prio) as = .ok k →
      ∀ t, (k.thd t).msg = (mem t).msg) ∧
    ∃ k, run Config.full Kernel.boot [.call (.suspendS 0), .resumeI 0 7, .dispatch 0] = .ok k ∧
      k.log = [.ready 0, .suspendRet 0 0] ∧ (k.thd 0).u = 7 := by
  refine ⟨fun cfg k tp hc => by simp [dispatch, hc], fun cfg mem prio as k h t => ?_,
    _, rfl, rfl, rfl⟩
  rw [run_msg h t]
  simp only [Kernel.init, Kernel.modThd_thd, threadInit_thd]
  split <;> rfl

section Held

variable {cfg : Config} {k k' : Kernel} {a : Action} {t : Nat}

/-- Only `chThreadSuspendS` suspends a thread. -/
theorem StepOk.suspended_of (hs : StepOk cfg k a k') (hx : ∀ trp, a ≠ .call (.suspendS trp))
    (ht : t < k.nthd) (h' : (k'.thd t).state = .suspended) : (k.thd t).state = .suspended := by
  cases hs with
  | stutter => exact h'
  | suspendS => exact absurd rfl (hx _)
  | createStatic | createI => simpa [threadInit_thd, Nat.ne_of_lt ht] using h'
  | _ =>
    simp [Ch.preempt, chThdYield, dispatch_state, chSysTimerHandlerI_thd, chThdWaitWake_thd,
      chThdExitS_thd] at h'
    (try split at h') <;> (try split at h') <;> first | exact h' | cases h'

/-- Only `chThreadSuspendS` and `chThreadResumeI` change a thread reference object. -/
theorem StepOk.cells_eq (hs : StepOk cfg k a k') (hx : ∀ trp, a ≠ .call (.suspendS trp))
    (hr : ∀ trp msg, a ≠ .resumeI trp msg) : k'.cells = k.cells := by
  cases hs with
  | suspendS => exact absurd rfl (hx _)
  | resumeI => exact absurd rfl (hr _ _)
  | exit => exact chThdExitS_frame.2.2.1
  | waitFinal => exact chThdWaitWake_frame.2.2.1
  | dispatch => simp only [Ch.dispatch]; split <;> simp [chThreadSuspendSWake, chThdWaitWake_frame]
  | tick => exact chSysTimerHandlerI_frame.2.2.1
  | createStatic | createI => simp [threadInit_frame]
  | _ => simp [Ch.preempt, chThdYield]

/-- Every suspended thread is held by a thread reference object. -/
def Held (k : Kernel) : Prop :=
  ∀ t < k.nthd, (k.thd t).state = .suspended → ∃ trp, k.cells trp = some t

/-- Every step keeps `Held`. -/
theorem StepOk.held (hh : Held k) (hs : StepOk cfg k a k') : Held k' := by
  intro t ht' h'
  -- a thread the step creates is in `CH_STATE_WTSTART` or ready
  have ht : t < k.nthd := by
    rcases hs.created with e | ⟨e, ⟨hw, -⟩ | ⟨hr, -⟩⟩ <;> by_contra hlt
    · omega
    · obtain rfl : t = k.nthd := by omega
      simp [hw] at h'
    · obtain rfl : t = k.nthd := by omega
      simp [hr] at h'
  have rest : (∀ trp, a ≠ .call (.suspendS trp)) → (∀ trp msg, a ≠ .resumeI trp msg) →
      ∃ trp, k'.cells trp = some t := fun hx hr => by
    obtain ⟨c, hc⟩ := hh t ht (hs.suspended_of hx ht h')
    exact ⟨c, (hs.cells_eq hx hr) ▸ hc⟩
  cases hs with
  | stutter => exact hh t ht h'
  | @suspendS cur trp _ _ hnone =>
    by_cases e : t = cur
    · exact ⟨trp, by simp [e]⟩
    · obtain ⟨c, hc⟩ := hh t ht (by simpa [e] using h')
      have : c ≠ trp := by rintro rfl; simp [hnone] at hc
      exact ⟨c, by simp [this, hc]⟩
  | @resumeI trp t0 _ hcell _ =>
    have e : t ≠ t0 := by rintro rfl; simp at h'
    obtain ⟨c, hc⟩ := hh t ht (by simpa [e] using h')
    have : c ≠ trp := by rintro rfl; simp [hcell] at hc; exact e hc.symm
    exact ⟨c, by simp [this, hc]⟩
  | sleep _ _ hc => exact rest (by obtain ⟨_, rfl | rfl⟩ := hc <;> simp) (by simp)
  | _ => exact rest (by simp) (by simp)

theorem Reach.held (h : Reach cfg k) : Held k := by
  induction h with
  | init mem prio =>
    obtain ⟨hn, -⟩ := @Kernel.init_frame cfg mem prio
    intro t ht hs
    obtain rfl : t = 0 := by omega
    simp [(@Kernel.init_thd_zero cfg mem prio).1] at hs
  | step a _ hs ih => exact (step_ok hs).held ih

/-- In every reachable state a thread is suspended exactly when a thread reference object holds
it, and then no other object holds it: every suspended thread can be resumed, through one object. -/
theorem thread_reference_safe (h : Reach cfg k) :
    (∀ trp t, k.cells trp = some t → t < k.nthd ∧ (k.thd t).state = .suspended ∧
      ∀ trp', k.cells trp' = some t → trp' = trp) ∧
    ∀ t < k.nthd, (k.thd t).state = .suspended → ∃ trp, k.cells trp = some t :=
  ⟨fun trp t hc => ⟨(h.inv.cell_suspended trp t hc).1, (h.inv.cell_suspended trp t hc).2,
    fun trp' hc' => h.inv.cell_inj trp' trp t hc' hc⟩, h.held⟩

theorem thread_reference_safe_sample : Reach Config.full Kernel.sample ∧
    Kernel.sample.cells 0 = some 2 ∧ (Kernel.sample.thd 2).state = .suspended ∧
    ((∀ trp t, Kernel.sample.cells trp = some t → t < Kernel.sample.nthd ∧
      (Kernel.sample.thd t).state = .suspended ∧
      ∀ trp', Kernel.sample.cells trp' = some t → trp' = trp) ∧
    ∀ t < Kernel.sample.nthd, (Kernel.sample.thd t).state = .suspended →
      ∃ trp, Kernel.sample.cells trp = some t) :=
  ⟨Reach.sample, by decide, by decide, thread_reference_safe Reach.sample⟩

/-- From every reachable state `chThreadResumeI(trp, msg)` succeeds: its assertion that the thread
in `*trp` is suspended never fails. It leaves `*trp` NULL and makes the thread it held ready with
`p_u.rdymsg = msg`. -/
theorem chThreadResumeI_ok (h : Reach cfg k) (trp : Nat) (msg : Int) :
    ∃ k', chThreadResumeI trp msg k = .ok k' ∧ k'.cells trp = none ∧
      ∀ t, k.cells trp = some t → (k'.thd t).state = .ready ∧ (k'.thd t).u = msg := by
  unfold chThreadResumeI
  split
  · rename_i hc
    exact ⟨k, rfl, hc, fun t e => by simp [hc] at e⟩
  · rename_i t hc
    rw [if_pos (h.inv.cell_suspended trp t hc).2]
    exact ⟨_, rfl, by simp, fun t' e => by simp_all⟩

theorem chThreadResumeI_ok_sample : Reach Config.full Kernel.sample ∧
    Kernel.sample.cells 0 = some 2 ∧ (Kernel.sample.thd 2).state = .suspended ∧
    ∃ k', chThreadResumeI 0 7 Kernel.sample = .ok k' ∧ k'.cells 0 = none ∧
      ∀ t, Kernel.sample.cells 0 = some t → (k'.thd t).state = .ready ∧ (k'.thd t).u = 7 :=
  ⟨Reach.sample, by decide, by decide, chThreadResumeI_ok Reach.sample 0 7⟩

end Held

end Ch
