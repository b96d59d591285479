import ChibiThreads.Inv

/-!
# The lifecycle of a thread

The states of a thread and the moves between them (spec §4.1) form the machine `Edge`: a new
thread waits in `CH_STATE_WTSTART` for its start, the scheduler moves threads between ready and
running, the running thread blocks (suspended, sleeping, in `chThdWait`) or exits, a blocked
thread becomes ready again, and `CH_STATE_FINAL` has no way out.

* `StepOk.change`: how one step changes the state of a created thread (`Change`), and why it
  becomes ready when it does (`Woken`).
* `StepOk.edge`: every change of state in a step is an edge of `Edge`.
* `step_lifecycle`: every change of state of a created thread in a step from a reachable state
  is an edge of `Edge`; a final thread stays final; a thread leaves `CH_STATE_WTSTART` only
  through `chThdStart` (or, new, through `chThdCreateStatic`), `CH_STATE_SUSPENDED` only through
  a resume on the thread reference object that holds it, and `CH_STATE_WTEXIT` only through
  `chThdExitS` of the thread it waits on.
* `run_final_frozen`: over every run a final thread stays final with its exit code, and never
  runs again.
-/

namespace Ch

/-- The moves of the thread lifecycle (spec §4.1). -/
inductive Edge : ThreadState → ThreadState → Prop where
  | start : Edge .wtstart .ready
  | dispatch : Edge .ready .current
  | preempt : Edge .current .ready
  | suspend : Edge .current .suspended
  | sleep : Edge .current .sleeping
  | wait : Edge .current .wtexit
  | exit : Edge .current .final
  | resume : Edge .suspended .ready
  | timeout : Edge .sleeping .ready
  | join : Edge .wtexit .ready

/-- Why a thread that was not running becomes ready in a step `a` from `k`. -/
inductive Woken (k : Kernel) (t : Nat) : Action → Prop where
  /-- `chThdStart(t)`. -/
  | start : (k.thd t).state = .wtstart → Woken k t (.call (.start t))
  /-- `chThreadResumeI` on the thread reference object that holds `t`. -/
  | resumeI {trp : Nat} {msg : Int} : k.cells trp = some t → Woken k t (.resumeI trp msg)
  /-- The timer of the sleeping `t` fired. -/
  | timeout : (k.thd t).state = .sleeping → Woken k t .tick
  /-- `chThdExitS` of the running thread `tp`, with `t` in its `p_waiting` list. -/
  | exit {tp : Nat} {msg : Int} : k.currp = some tp → t ∈ (k.thd tp).waiting →
      Woken k t (.call (.exit msg))

/-- How a step `a` from `k` to `k'` changes the state of thread `t`. -/
inductive Change (k k' : Kernel) (t : Nat) : Action → Prop where
  | same {a : Action} : (k'.thd t).state = (k.thd t).state → Change k k' t a
  /-- `t` runs and leaves the CPU, never for `CH_STATE_WTSTART`. -/
  | running {a : Action} : k.currp = some t → (k'.thd t).state ≠ .wtstart → Change k k' t a
  | dispatch : (k.thd t).state = .ready → (k'.thd t).state = .current → Change k k' t (.dispatch t)
  | woken {a : Action} : Woken k t a → (k'.thd t).state = .ready → Change k k' t a

section Lemmas

variable {cfg : Config} {k k' : Kernel} {a : Action} {t cur : Nat}

/-- A step that changes the state of the running thread only. -/
theorem Change.ofRunning (hc : k.currp = some cur) (hs : (k'.thd cur).state ≠ .wtstart)
    (ho : ∀ t, t ≠ cur → (k'.thd t).state = (k.thd t).state) : Change k k' t a := by
  by_cases e : t = cur
  · subst e; exact .running hc hs
  · exact .same (ho t e)

/-- How every successful step changes the state of a created thread. -/
theorem StepOk.change (hi : Inv k) (hs : StepOk cfg k a k') (ht : t < k.nthd) : Change k k' t a := by
  cases hs with
  | stutter => exact .same rfl
  | createStatic => exact .same (by simp [threadInit_thd, Nat.ne_of_lt ht])
  | @start cur tp _ _ _ hw =>
    by_cases e : t = tp
    · subst e; exact .woken (.start hw) (by simp)
    · exact .same (by simp [e])
  | setPriority | setPriorityNoMutexes | terminate | release | inherit | disinherit | addRef =>
    exact .same (by simp)
  | suspendS hc | sleep hc | waitSleep hc =>
    exact .ofRunning hc (by simp) fun t e => by simp [e]
  | yield hc | preempt hc =>
    exact .ofRunning hc (by simp [Ch.preempt]) fun t e => by simp [Ch.preempt, e]
  | @exit cur msg hc =>
    by_cases e : t = cur
    · subst e; exact .running hc (by simp [chThdExitS_thd])
    · by_cases hw : t ∈ (k.thd cur).waiting
      · exact .woken (.exit hc hw) (by simp [chThdExitS_thd, e, hw])
      · exact .same (by simp [chThdExitS_thd, e, hw])
  | waitFinal => exact .same (by simp [chThdWaitWake_thd])
  | createI => exact .same (by simp [threadInit_thd, Nat.ne_of_lt ht])
  | @resumeI trp t0 msg hcell _ =>
    by_cases e : t = t0
    · subst e; exact .woken (.resumeI hcell) (by simp)
    · exact .same (by simp [e])
  | @dispatch tp _ _ hr =>
    by_cases e : t = tp
    · subst e; exact .dispatch hr (by simp [dispatch_state])
    · exact .same (by simp [dispatch_state, e])
  | tick =>
    by_cases he : t ∈ expiring k
    · obtain ⟨n, hn⟩ := mem_expiring he
      exact .woken (.timeout (hi.vt_sleeping t n hn).2) (by simp [chSysTimerHandlerI_thd, he])
    · exact .same (by simp [chSysTimerHandlerI_thd, he])

/-- A step creates at most one thread, the next one: in `CH_STATE_WTSTART` by `chThdCreateI`,
ready by `chThdCreateStatic`. -/
theorem StepOk.created (hs : StepOk cfg k a k') :
    k'.nthd = k.nthd ∨ k'.nthd = k.nthd + 1 ∧
      (((k'.thd k.nthd).state = .wtstart ∧ ∃ wsp size prio pf arg, a = .createI wsp size prio pf arg) ∨
      ((k'.thd k.nthd).state = .ready ∧
        ∃ wsp size prio pf arg, a = .call (.createStatic wsp size prio pf arg))) := by
  cases hs with
  | createStatic =>
    exact .inr ⟨by simp [threadInit_frame], .inr ⟨by simp, _, _, _, _, _, rfl⟩⟩
  | createI => exact .inr ⟨by simp [threadInit_frame], .inl ⟨by simp [threadInit_thd], _, _, _, _, _, rfl⟩⟩
  | exit => exact .inl chThdExitS_frame.1
  | waitFinal => exact .inl chThdWaitWake_frame.1
  | dispatch => exact .inl dispatch_frame.1
  | tick => exact .inl chSysTimerHandlerI_frame.1
  | _ => exact .inl (by simp [Ch.preempt])

end Lemmas

variable {cfg : Config} {k k' : Kernel} {a : Action} {t : Nat}

/-- Every change of state of a created thread in a step is a move of the lifecycle. -/
theorem StepOk.edge (hi : Inv k) (hs : StepOk cfg k a k') (ht : t < k.nthd)
    (hne : (k'.thd t).state ≠ (k.thd t).state) : Edge (k.thd t).state (k'.thd t).state := by
  cases hs.change hi ht with
  | same e => exact absurd e hne
  | running hc hw =>
    rw [hi.currp_state t hc] at hne ⊢
    generalize (k'.thd t).state = s at hne hw
    cases s <;> first | exact absurd rfl hne | exact absurd rfl hw | constructor
  | dispatch hr hc => rw [hr, hc]; exact .dispatch
  | woken w hr =>
    rw [hr]
    cases w with
    | start hw => rw [hw]; exact .start
    | resumeI hcell => rw [(hi.cell_suspended _ _ hcell).2]; exact .resume
    | timeout hw => rw [hw]; exact .timeout
    | exit hc hm => rw [(hi.waiting_wtexit _ (hi.currp_lt _ hc) t hm).2.1]; exact .join

/-- In a step of a run every change of state of a created thread is a move of `Edge`: a final
thread stays final, and a thread leaves `CH_STATE_WTSTART` only through `chThdStart`,
`CH_STATE_SUSPENDED` only through a resume on the thread reference object that holds it,
`CH_STATE_WTEXIT` only through `chThdExitS` of the thread it waits on, each time to become
ready; a thread the step creates is in `CH_STATE_WTSTART`, or ready when the step is
`chThdCreateStatic`. -/
theorem step_lifecycle (h : Reach cfg k) (hs : step cfg k a = .ok k') (t : Nat) :
    (t < k.nthd →
      ((k'.thd t).state ≠ (k.thd t).state → Edge (k.thd t).state (k'.thd t).state) ∧
      ((k.thd t).state = .final → (k'.thd t).state = .final) ∧
      ((k.thd t).state = .wtstart → (k'.thd t).state ≠ .wtstart →
        a = .call (.start t) ∧ (k'.thd t).state = .ready) ∧
      ((k.thd t).state = .suspended → (k'.thd t).state ≠ .suspended →
        (k'.thd t).state = .ready ∧ ∃ trp msg, k.cells trp = some t ∧
          (a = .resumeI trp msg ∨ a = .call (.resumeS trp msg) ∨ a = .call (.resume trp msg))) ∧
      ((k.thd t).state = .wtexit → (k'.thd t).state ≠ .wtexit →
        (k'.thd t).state = .ready ∧ ∃ tp msg, (k.thd t).ctx = .wait tp ∧ k.currp = some tp ∧
          a = .call (.exit msg))) ∧
    (k.nthd ≤ t → t < k'.nthd → (k'.thd t).state = .wtstart ∨ (k'.thd t).state = .ready ∧
      ∃ wsp size prio pf arg, a = .call (.createStatic wsp size prio pf arg)) := by
  have hi := h.inv
  refine ⟨fun ht => ⟨(step_ok hs).edge hi ht, ?_⟩, fun h1 h2 => ?_⟩
  · cases (step_ok hs).change hi ht with
    | same e =>
      rw [e]
      exact ⟨id, fun h h' => absurd h h', fun h h' => absurd h h', fun h h' => absurd h h'⟩
    | running hc _ => simp [hi.currp_state t hc]
    | dispatch hr _ => simp [hr]
    | woken w hr =>
      cases w with
      | start hw => simp [hw, hr]
      | resumeI hcell =>
        simp only [(hi.cell_suspended _ _ hcell).2, hr]
        exact ⟨by simp, by simp, fun _ _ => ⟨trivial, _, _, hcell, .inl rfl⟩, by simp⟩
      | timeout hw => simp [hw, hr]
      | exit hc hm =>
        obtain ⟨-, hw, hctx⟩ := hi.waiting_wtexit _ (hi.currp_lt _ hc) t hm
        simp only [hw, hr]
        exact ⟨by simp, by simp, by simp, fun _ _ => ⟨trivial, _, _, hctx, hc, rfl⟩⟩
  · rcases (step_ok hs).created with e | ⟨e, hc⟩
    · omega
    · obtain rfl : t = k.nthd := by omega
      exact hc.imp And.left id

theorem step_lifecycle_sample : ∃ k', Reach Config.full Kernel.sample ∧
    step Config.full Kernel.sample (.call (.exit 7)) = .ok k' ∧
    (Kernel.sample.thd 0).state = .wtexit ∧ (k'.thd 0).state = .ready ∧
    ((0 < Kernel.sample.nthd →
      ((k'.thd 0).state ≠ (Kernel.sample.thd 0).state →
        Edge (Kernel.sample.thd 0).state (k'.thd 0).state) ∧
      ((Kernel.sample.thd 0).state = .final → (k'.thd 0).state = .final) ∧
      ((Kernel.sample.thd 0).state = .wtstart → (k'.thd 0).state ≠ .wtstart →
        Action.call (.exit 7) = .call (.start 0) ∧ (k'.thd 0).state = .ready) ∧
      ((Kernel.sample.thd 0).state = .suspended → (k'.thd 0).state ≠ .suspended →
        (k'.thd 0).state = .ready ∧ ∃ trp msg, Kernel.sample.cells trp = some 0 ∧
          (Action.call (.exit 7) = .resumeI trp msg ∨ Action.call (.exit 7) = .call (.resumeS trp msg) ∨
            Action.call (.exit 7) = .call (.resume trp msg))) ∧
      ((Kernel.sample.thd 0).state = .wtexit → (k'.thd 0).state ≠ .wtexit →
        (k'.thd 0).state = .ready ∧ ∃ tp msg, (Kernel.sample.thd 0).ctx = .wait tp ∧
          Kernel.sample.currp = some tp ∧ Action.call (.exit 7) = .call (.exit msg))) ∧
    (Kernel.sample.nthd ≤ 0 → 0 < k'.nthd → (k'.thd 0).state = .wtstart ∨ (k'.thd 0).state = .ready ∧
      ∃ wsp size prio pf arg, Action.call (.exit 7) = .call (.createStatic wsp size prio pf arg))) :=
  ⟨_, Reach.sample, rfl, by decide, by decide, step_lifecycle (a := .call (.exit 7)) Reach.sample rfl 0⟩

section Runs

variable {as : List Action}

/-- A final thread stays final and keeps its exit code: `p_u` is written only by `chThdExitS` of
the running thread, by the creation of a thread, by `chThreadResumeI` of a suspended thread and
by the timer of a sleeping one. -/
theorem StepOk.final (hi : Inv k) (hs : StepOk cfg k a k') (ht : t < k.nthd)
    (hf : (k.thd t).state = .final) : (k'.thd t).state = .final ∧ (k'.thd t).u = (k.thd t).u := by
  refine ⟨Decidable.byContradiction fun hne => ?_, ?_⟩
  · have e := hs.edge hi ht (by rw [hf]; exact hne)
    rw [hf] at e; cases e
  · cases hs with
    | createStatic | createI => simp [threadInit_thd, Nat.ne_of_lt ht]
    | @exit cur _ hc _ =>
      have hw : t ∉ (k.thd cur).waiting := fun hm => by
        simp [(hi.waiting_wtexit cur (hi.currp_lt cur hc) t hm).2.1] at hf
      simp [chThdExitS_thd, hi.ne_cur hc (t := t) (by simp [hf]), hw]
    | @resumeI _ t0 _ _ hsus =>
      have : t ≠ t0 := by rintro rfl; simp [hf] at hsus
      simp [this]
    | waitFinal => simp [chThdWaitWake_thd]
    | dispatch => obtain ⟨_, _, e⟩ := @dispatch_thd cfg k _ t; rw [e]
    | tick =>
      have : t ∉ expiring k := fun he => by
        obtain ⟨n, hn⟩ := mem_expiring he
        simp [(hi.vt_sleeping t n hn).2] at hf
      simp [chSysTimerHandlerI_thd, this]
    | _ => simp [Ch.preempt]

/-- No step but `chThdExitS` makes a created thread final: every other step leaves it in its old
state or in one of the states it sets, none of them final. -/
theorem StepOk.final_iff (hi : Inv k) (hs : StepOk cfg k a k') (hx : ∀ msg, a ≠ .call (.exit msg))
    (ht : t < k.nthd) : (k'.thd t).state = .final ↔ (k.thd t).state = .final := by
  refine ⟨fun h' => ?_, fun hf => (hs.final hi ht hf).1⟩
  cases hs with
  | stutter => exact h'
  | exit => exact absurd rfl (hx _)
  | createStatic | createI => simpa [threadInit_thd, Nat.ne_of_lt ht] using h'
  | _ =>
    simp [Ch.preempt, chThdYield, dispatch_state, chSysTimerHandlerI_thd, chThdWaitWake_thd] at h'
    (try split at h') <;> first | exact h' | cases h'

/-- No step removes a thread. -/
theorem StepOk.nthd_le (hs : StepOk cfg k a k') : k.nthd ≤ k'.nthd := by
  rcases hs.created with e | ⟨e, -⟩ <;> omega

/-- Over every run from a reachable state a final thread stays final with its exit code. -/
theorem run_final (h : Reach cfg k) (hr : run cfg k as = .ok k') (ht : t < k.nthd)
    (hf : (k.thd t).state = .final) : (k'.thd t).state = .final ∧ (k'.thd t).u = (k.thd t).u :=
  run_thread (P := fun k₁ t₁ => (k₁.thd t₁).state = .final ∧ (k₁.thd t₁).u = (k.thd t).u)
    (fun hk hs => hk.step _ hs) (fun hk hs => ⟨(step_ok hs).nthd_le,
      fun _ ht ⟨hf, hu⟩ => have e := (step_ok hs).final hk.inv ht hf; ⟨e.1, e.2.trans hu⟩⟩)
    h hr ht ⟨hf, rfl⟩

/-- Over every run from a reachable state, a final thread stays final with the same exit code,
so every later `chThdWait` on it returns that code, and it never runs again: the
`"zombies apocalypse"` assertion after `chSchGoSleepS(CH_STATE_FINAL)` in `chThdExitS` is never
reached. -/
theorem run_final_frozen (h : Reach cfg k) (hr : run cfg k as = .ok k') (ht : t < k.nthd)
    (hf : (k.thd t).state = .final) :
    (k'.thd t).state = .final ∧ (k'.thd t).u = (k.thd t).u ∧ k'.currp ≠ some t := by
  obtain ⟨hf', hu⟩ := run_final h hr ht hf
  exact ⟨hf', hu, fun hc => by simp [(h.run hr).inv.currp_state t hc] at hf'⟩

theorem run_final_frozen_sample : ∃ k', Reach Config.full Kernel.sample ∧
    run Config.full Kernel.sample [.tick, .call (.exit 7), .dispatch 0] = .ok k' ∧
    4 < Kernel.sample.nthd ∧ (Kernel.sample.thd 4).state = .final ∧ k'.currp = some 0 ∧
    ((k'.thd 4).state = .final ∧ (k'.thd 4).u = (Kernel.sample.thd 4).u ∧ k'.currp ≠ some 4) :=
  ⟨_, Reach.sample, rfl, by decide, by decide, by decide,
    run_final_frozen Reach.sample
      (show run Config.full Kernel.sample [.tick, .call (.exit 7), .dispatch 0] = .ok _ from rfl)
      (by decide) (by decide)⟩

end Runs

end Ch
