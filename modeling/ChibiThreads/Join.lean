import ChibiThreads.Lifecycle

/-!
# Joins: `chThdWait` and `chThdExitS`

A thread that calls `chThdWait(tp)` on a thread that is not final links itself into
`tp->p_waiting` and sleeps in `CH_STATE_WTEXIT`; `chThdExitS` of `tp` drains that list. Over
every run:

* `wtexit_iff_waiting`: a created thread is in `CH_STATE_WTEXIT` exactly when it is in the
  `p_waiting` list of one other thread, once, and that thread is not final; the list of a final
  thread is empty.
* `chThdWait_returns_exit_code`: without `CH_CFG_USE_DYNAMIC`, a call of `chThdWait(tp)` returns
  at once with `tp`'s exit code when `tp` is final, and otherwise sleeps in `tp->p_waiting`; a
  thread asleep in `chThdWait(tp)` runs again only once `tp` is final, and returns its exit code;
  that code is the one `tp` passed to `chThdExitS`; and the exit of `tp` makes each thread then in
  `chThdWait(tp)` ready once.
* `chThdExitS_wakes_in_order`: the threads that call `chThdWait(tp)` along a run while `tp` is not
  final (`waitCalls`, read off the run and not off what `chThdWait` does) are in `tp->p_waiting`
  in the order of their calls, and the exit of `tp` hands them to `chSchReadyI` in that order.
-/

namespace Ch

section Lemmas

variable {cfg : Config} {k k' : Kernel} {a : Action} {tp w cur : Nat} {msg : Int}

/-- A thread is in the list of at most one thread, the one it waits on. -/
theorem Inv.waiting_unique (hi : Inv k) {tq : Nat} (htp : tp < k.nthd) (htq : tq < k.nthd)
    (hp : w ∈ (k.thd tp).waiting) (hq : w ∈ (k.thd tq).waiting) : tq = tp :=
  Ctx.wait.inj ((hi.waiting_wtexit tq htq w hq).2.2.symm.trans (hi.waiting_wtexit tp htp w hp).2.2)

/-- The list of a thread holds exactly the threads asleep in `chThdWait` on it. -/
theorem Inv.mem_waiting_iff (hi : Inv k) (htp : tp < k.nthd) :
    w ∈ (k.thd tp).waiting ↔
      w < k.nthd ∧ (k.thd w).state = .wtexit ∧ (k.thd w).ctx = .wait tp := by
  refine ⟨hi.waiting_wtexit tp htp w, fun ⟨hw, hs, hc⟩ => ?_⟩
  obtain ⟨tq, htq, hc', hm⟩ := hi.wtexit_waiting w hw hs
  rwa [Ctx.wait.inj (hc.symm.trans hc')]

/-- The exit of the running thread `tp` makes each thread of `tp->p_waiting` ready. -/
theorem Inv.exit_ready (hi : Inv k) (hc : k.currp = some tp) (hw : w ∈ (k.thd tp).waiting) :
    ((Ch.chThdExitS cfg tp msg k).thd w).state = .ready := by
  have hne : w ≠ tp :=
    hi.ne_cur hc (by simp [(hi.waiting_wtexit tp (hi.currp_lt tp hc) w hw).2.1])
  simp [chThdExitS_state, hne, hw]

/-- A call of `chThdWait(tp)` by the running thread in its own code that does not stop the
kernel is on another thread; on a final `tp` it runs to its end at once, and otherwise the thread
sleeps in `CH_STATE_WTEXIT` at the end of `tp->p_waiting`. -/
theorem step_wait (hc : k.currp = some cur) (hu : (k.thd cur).ctx = .user) (htp : tp < k.nthd)
    (hs : step cfg k (.call (.wait tp)) = .ok k') : tp ≠ cur ∧
    (((k.thd tp).state = .final ∧ k' = chThdWaitWake cfg cur tp k) ∨
    ((k.thd tp).state ≠ .final ∧ k' = chSchGoSleepS cur .wtexit (.wait tp)
      (k.modThd tp fun t => { t with waiting := listInsert cur t.waiting }))) := by
  simp only [step, hc, hu, Call.target, Option.mem_def, Option.some.injEq, forall_eq', htp,
    and_self, if_true, Call.run, chThdWait] at hs
  split at hs
  · cases hs
  split at hs
  · cases hs
  refine ⟨‹_›, ?_⟩
  split at hs
  · exact .inr ⟨‹_›, (Except.ok.inj hs).symm⟩
  · exact .inl ⟨not_not.mp ‹_›, (Except.ok.inj hs).symm⟩

/-- Only a call of `chThdWait(tp)` and the exit of `tp` change `tp->p_waiting`. -/
theorem StepOk.waiting (hs : StepOk cfg k a k') (htp : tp < k.nthd) :
    (k'.thd tp).waiting = (k.thd tp).waiting ∨
    (∃ cur, k.currp = some cur ∧ (k.thd cur).ctx = .user ∧ a = .call (.wait tp)) ∨
    (k'.thd tp).state = .final := by
  cases hs with
  | @waitSleep cur tq hc hu =>
    by_cases e : tq = tp
    · exact .inr (.inl ⟨cur, hc, hu, e ▸ rfl⟩)
    · exact .inl (by simp [Ne.symm e])
  | @exit cur _ =>
    by_cases e : tp = cur
    · exact .inr (.inr (by simp [chThdExitS_state, e]))
    · exact .inl (by simp [chThdExitS_waiting, e])
  | createStatic | createI => exact .inl (by simp [threadInit_thd, Nat.ne_of_lt htp])
  | waitFinal => exact .inl (by simp [chThdWaitWake_thd])
  | dispatch => exact .inl (by obtain ⟨_, _, e⟩ := @dispatch_thd cfg k _ tp; rw [e])
  | tick => exact .inl (by simp [chSysTimerHandlerI_thd])
  | _ => exact .inl (by simp [Ch.preempt])

end Lemmas

/-! ## The callers of `chThdWait` along a run -/

/-- The thread that calls `chThdWait(tp)` in the step `a` from `k`: the running thread, in its own
code, while `tp` is not final. -/
def waitCall (tp : Nat) (k : Kernel) : Action → List Nat
  | .call (.wait tq) =>
    match k.currp with
    | some w => if tq = tp ∧ (k.thd w).ctx = .user ∧ (k.thd tp).state ≠ .final then [w] else []
    | none => []
  | _ => []

/-- The threads that call `chThdWait(tp)` while `tp` is not final, along the run of `as` from `k`,
in the order of their calls. It follows the run, but reads only which thread runs and the state
of `tp` before each step, and not what `chThdWait` does. -/
def waitCalls (cfg : Config) (tp : Nat) : Kernel → List Action → List Nat
  | _, [] => []
  | k, a :: as =>
    match step cfg k a with
    | .ok k' => waitCall tp k a ++ waitCalls cfg tp k' as
    | .error _ => []

section Runs

variable {cfg : Config} {k k' : Kernel} {a : Action} {as : List Action} {tp : Nat}

/-- A step after which `tp` is not final appends its caller of `chThdWait(tp)`, if any, to
`tp->p_waiting`. -/
theorem step_waiting (htp : tp < k.nthd) (hs : step cfg k a = .ok k')
    (hnf : (k'.thd tp).state ≠ .final) :
    (k'.thd tp).waiting = (k.thd tp).waiting ++ waitCall tp k a := by
  by_cases hw : ∃ cur, k.currp = some cur ∧ (k.thd cur).ctx = .user ∧ a = .call (.wait tp)
  · obtain ⟨cur, hc, hu, rfl⟩ := hw
    obtain ⟨-, ⟨hf, rfl⟩ | ⟨hf, rfl⟩⟩ := step_wait hc hu htp hs
    · exact absurd (by simp [chThdWaitWake_thd, hf]) hnf
    · simp [waitCall, hc, hu, hf, listInsert]
  · have hnone : waitCall tp k a = [] := by
      unfold waitCall
      split <;> [split; rfl]
      · exact if_neg fun ⟨e, hu, _⟩ => hw ⟨_, ‹_›, hu, e ▸ rfl⟩
      · rfl
    rw [hnone, List.append_nil]
    rcases (step_ok hs).waiting htp with e | hw' | hf
    · exact e
    · exact absurd hw' hw
    · exact absurd hf hnf

/-- Over every run from a reachable state after which `tp` is not final, `tp->p_waiting` holds
the threads it held at the start, then the callers of `chThdWait(tp)` in the order of their
calls. -/
theorem run_waiting (h : Reach cfg k) (htp : tp < k.nthd) (hr : run cfg k as = .ok k')
    (hnf : (k'.thd tp).state ≠ .final) :
    (k'.thd tp).waiting = (k.thd tp).waiting ++ waitCalls cfg tp k as := by
  induction as generalizing k with
  | nil => cases hr; simp [waitCalls]
  | cons a as ih =>
    simp only [run] at hr
    cases hs : step cfg k a with
    | error => rw [hs] at hr; cases hr
    | ok k₁ =>
      rw [hs] at hr
      have h₁ := h.step a hs
      have ht₁ : tp < k₁.nthd := Nat.lt_of_lt_of_le htp (step_ok hs).nthd_le
      -- `tp` was not final after the step either: a final thread stays final
      have hnf₁ : (k₁.thd tp).state ≠ .final := fun hf => hnf (run_final h₁ hr ht₁ hf).1
      rw [ih h₁ ht₁ hr, step_waiting htp hs hnf₁]
      simp [waitCalls, hs]

end Runs

variable {cfg : Config} {k k' : Kernel} {as : List Action} {tp : Nat}

/-- In every reachable state a created thread is in `CH_STATE_WTEXIT` exactly when it is linked,
once, in the `p_waiting` list of exactly one other thread, which is not final; and a final
thread's list is empty. -/
theorem wtexit_iff_waiting (h : Reach cfg k) :
    (∀ w < k.nthd, (k.thd w).state = .wtexit ↔
      ∃ tp < k.nthd, tp ≠ w ∧ (k.thd tp).state ≠ .final ∧ (k.thd tp).waiting.count w = 1 ∧
        ∀ tq < k.nthd, w ∈ (k.thd tq).waiting → tq = tp) ∧
    ∀ tp < k.nthd, (k.thd tp).state = .final → (k.thd tp).waiting = [] := by
  have hi := h.inv
  refine ⟨fun w hw => ⟨fun hs => ?_, fun ⟨tp, htp, _, _, hc, _⟩ => ?_⟩, hi.final_waiting⟩
  · obtain ⟨tp, htp, hc, hm⟩ := hi.wtexit_waiting w hw hs
    refine ⟨tp, htp, hi.wait_ne w hw tp hc, fun hf => ?_,
      List.count_eq_one_of_mem (hi.waiting_nodup tp htp) hm,
      fun tq htq hq => hi.waiting_unique htp htq hm hq⟩
    simp [hi.final_waiting tp htp hf] at hm
  · exact (hi.waiting_wtexit tp htp w (List.count_pos_iff.mp (by omega))).2.1

theorem wtexit_iff_waiting_sample : Reach Config.full Kernel.sample ∧
    (Kernel.sample.thd 0).state = .wtexit ∧ (Kernel.sample.thd 1).waiting = [0, 5] ∧
    (Kernel.sample.thd 4).state = .final ∧
    ((∀ w < Kernel.sample.nthd, (Kernel.sample.thd w).state = .wtexit ↔
      ∃ tp < Kernel.sample.nthd, tp ≠ w ∧ (Kernel.sample.thd tp).state ≠ .final ∧
        (Kernel.sample.thd tp).waiting.count w = 1 ∧
        ∀ tq < Kernel.sample.nthd, w ∈ (Kernel.sample.thd tq).waiting → tq = tp) ∧
    ∀ tp < Kernel.sample.nthd, (Kernel.sample.thd tp).state = .final →
      (Kernel.sample.thd tp).waiting = []) :=
  ⟨Reach.sample, by decide, by decide, by decide, wtexit_iff_waiting Reach.sample⟩

/-- Without `CH_CFG_USE_DYNAMIC`, in every reachable state: a call of `chThdWait(tp)` by the
running thread `w` returns at once with `tp`'s exit code when `tp` is final, and otherwise puts
`w` to sleep in `CH_STATE_WTEXIT` at the end of `tp->p_waiting`; a thread in `chThdWait(tp)` is
dispatched only once `tp` is final, and then returns `tp`'s exit code; the exit code of a final
thread is the `msg` it passed to `chThdExitS`, and every value a `chThdWait(tp)` returned is that
code; and `chThdExitS` of the running thread `tp` makes each thread then asleep in `chThdWait(tp)`
ready, once. -/
theorem chThdWait_returns_exit_code (hd : cfg.useDynamic = false) (h : Reach cfg k) :
    (∀ w tp k', k.currp = some w → (k.thd w).ctx = .user → tp < k.nthd →
      step cfg k (.call (.wait tp)) = .ok k' →
      ((k.thd tp).state = .final ∧ k'.currp = some w ∧ (k'.thd w).ctx = .user ∧
        k'.log = k.log ++ [.waitRet w tp (k.thd tp).u]) ∨
      ((k.thd tp).state ≠ .final ∧ k'.currp = none ∧ (k'.thd w).state = .wtexit ∧
        (k'.thd w).ctx = .wait tp ∧ (k'.thd tp).waiting = (k.thd tp).waiting ++ [w])) ∧
    (∀ w tp k', k.currp = none → w < k.nthd → (k.thd w).state = .ready →
      (k.thd w).ctx = .wait tp → step cfg k (.dispatch w) = .ok k' →
      (k.thd tp).state = .final ∧ k'.currp = some w ∧ (k'.thd w).ctx = .user ∧
        k'.log = k.log ++ [.waitRet w tp (k.thd tp).u]) ∧
    (∀ tp < k.nthd, (k.thd tp).state = .final →
      Event.exit tp (k.thd tp).u ∈ k.log ∧ ∀ m, Event.exit tp m ∈ k.log → m = (k.thd tp).u) ∧
    (∀ w tp m, Event.waitRet w tp m ∈ k.log → (k.thd tp).state = .final ∧ m = (k.thd tp).u) ∧
    ∀ tp msg, k.currp = some tp → ∃ ws : List Nat,
      (chThdExitS cfg tp msg k).log = k.log ++ Event.exit tp msg :: ws.map .ready ∧ ws.Nodup ∧
      ∀ w, (w ∈ ws ↔ w < k.nthd ∧ (k.thd w).state = .wtexit ∧ (k.thd w).ctx = .wait tp) ∧
        (w ∈ ws → ((chThdExitS cfg tp msg k).thd w).state = .ready) := by
  have hi := h.inv
  have code : ∀ e ∈ k.log, ∀ tp m, e.code = some (tp, m) → (k.thd tp).state = .final ∧ m = (k.thd tp).u :=
    fun e he tp m hm => have := hi.code_final e he tp m hm; ⟨this.2.1, this.2.2.symm⟩
  refine ⟨fun w tp k' hc hu htp hs => ?_, fun w tp k' hc hw hr hctx hs => ?_,
    fun tp htp hf => ⟨hi.final_exit tp htp hf, fun m hm => (code _ hm tp m rfl).2⟩,
    fun w tp m hm => code _ hm tp m rfl, fun tp msg hc => ?_⟩
  · have hs0 := hi.currp_state w hc
    obtain ⟨hne, ⟨hf, rfl⟩ | ⟨hf, rfl⟩⟩ := step_wait hc hu htp hs
    · refine .inl ⟨hf, ?_⟩
      simp [chThdWaitWake, hd, hc]
    · exact .inr ⟨hf, by simp [Ne.symm hne, listInsert]⟩
  · obtain ⟨-, hf⟩ := hi.wait_final w hw tp hctx (by simp [hr])
    simp only [step, hc, hw, hr, and_self, if_true, Except.ok.injEq] at hs
    subst hs
    simp [Ch.dispatch, hctx, chThdWaitWake, hd, hf]
  · have htp := hi.currp_lt tp hc
    exact ⟨(k.thd tp).waiting, chThdExitS_log, hi.waiting_nodup tp htp,
      fun w => ⟨hi.mem_waiting_iff htp, hi.exit_ready hc⟩⟩

theorem chThdWait_returns_exit_code_sample : ∃ k,
    run Config.noDynamic (Kernel.init Config.noDynamic (fun _ => Thread.zero) 1) sampleRun = .ok k ∧
    Config.noDynamic.useDynamic = false ∧ Reach Config.noDynamic k ∧ k.currp = some 1 ∧
    (k.thd 1).waiting = [0, 5] ∧ Event.waitRet 0 4 5 ∈ k.log ∧
    ((∀ w tp k', k.currp = some w → (k.thd w).ctx = .user → tp < k.nthd →
      step Config.noDynamic k (.call (.wait tp)) = .ok k' →
      ((k.thd tp).state = .final ∧ k'.currp = some w ∧ (k'.thd w).ctx = .user ∧
        k'.log = k.log ++ [.waitRet w tp (k.thd tp).u]) ∨
      ((k.thd tp).state ≠ .final ∧ k'.currp = none ∧ (k'.thd w).state = .wtexit ∧
        (k'.thd w).ctx = .wait tp ∧ (k'.thd tp).waiting = (k.thd tp).waiting ++ [w])) ∧
    (∀ w tp k', k.currp = none → w < k.nthd → (k.thd w).state = .ready →
      (k.thd w).ctx = .wait tp → step Config.noDynamic k (.dispatch w) = .ok k' →
      (k.thd tp).state = .final ∧ k'.currp = some w ∧ (k'.thd w).ctx = .user ∧
        k'.log = k.log ++ [.waitRet w tp (k.thd tp).u]) ∧
    (∀ tp < k.nthd, (k.thd tp).state = .final →
      Event.exit tp (k.thd tp).u ∈ k.log ∧ ∀ m, Event.exit tp m ∈ k.log → m = (k.thd tp).u) ∧
    (∀ w tp m, Event.waitRet w tp m ∈ k.log → (k.thd tp).state = .final ∧ m = (k.thd tp).u) ∧
    ∀ tp msg, k.currp = some tp → ∃ ws : List Nat,
      (chThdExitS Config.noDynamic tp msg k).log = k.log ++ Event.exit tp msg :: ws.map .ready ∧
      ws.Nodup ∧
      ∀ w, (w ∈ ws ↔ w < k.nthd ∧ (k.thd w).state = .wtexit ∧ (k.thd w).ctx = .wait tp) ∧
        (w ∈ ws → ((chThdExitS Config.noDynamic tp msg k).thd w).state = .ready)) :=
  have h : Reach Config.noDynamic _ := Reach.run (.init _ _) (show run Config.noDynamic
    (Kernel.init Config.noDynamic (fun _ => Thread.zero) 1) sampleRun = .ok _ from rfl)
  ⟨_, rfl, rfl, h, by decide, by decide, by decide, chThdWait_returns_exit_code rfl h⟩

/-- Over every run from a reachable state in which the created thread `tp` ends up running, the
threads that called `chThdWait(tp)` during the run while `tp` was not final are in
`tp->p_waiting`, after those it held at the start, in the order of their calls; the exit of `tp`
then hands all of them to `chSchReadyI` in that order, each once, makes them ready and leaves its
list empty. -/
theorem chThdExitS_wakes_in_order (h : Reach cfg k) (htp : tp < k.nthd)
    (hr : run cfg k as = .ok k') (hc : k'.currp = some tp) (msg : Int) :
    (k'.thd tp).waiting = (k.thd tp).waiting ++ waitCalls cfg tp k as ∧
    (chThdExitS cfg tp msg k').log =
      k'.log ++ Event.exit tp msg :: ((k.thd tp).waiting ++ waitCalls cfg tp k as).map .ready ∧
    ((k.thd tp).waiting ++ waitCalls cfg tp k as).Nodup ∧
    (∀ w ∈ (k.thd tp).waiting ++ waitCalls cfg tp k as,
      ((chThdExitS cfg tp msg k').thd w).state = .ready) ∧
    ((chThdExitS cfg tp msg k').thd tp).waiting = [] := by
  have hi' := (h.run hr).inv
  rw [← run_waiting h htp hr (by simp [hi'.currp_state tp hc])]
  exact ⟨rfl, chThdExitS_log, hi'.waiting_nodup tp (hi'.currp_lt tp hc),
    fun _ => hi'.exit_ready hc, by simp [chThdExitS_waiting]⟩

theorem chThdExitS_wakes_in_order_run : ∃ (as : List Action) (k' : Kernel),
    as = [.call (.createStatic 1 96 1 1 0), .call (.createStatic 1 96 1 1 0), .preempt,
      .dispatch 1, .call (.wait 0), .dispatch 2, .call (.wait 0), .dispatch 0] ∧
    Reach Config.full Kernel.boot ∧ 0 < Kernel.boot.nthd ∧ run Config.full Kernel.boot as = .ok k' ∧
    k'.currp = some 0 ∧ waitCalls Config.full 0 Kernel.boot as = [1, 2] ∧
    ((k'.thd 0).waiting = (Kernel.boot.thd 0).waiting ++ waitCalls Config.full 0 Kernel.boot as ∧
    (chThdExitS Config.full 0 7 k').log = k'.log ++ Event.exit 0 7 ::
      ((Kernel.boot.thd 0).waiting ++ waitCalls Config.full 0 Kernel.boot as).map .ready ∧
    ((Kernel.boot.thd 0).waiting ++ waitCalls Config.full 0 Kernel.boot as).Nodup ∧
    (∀ w ∈ (Kernel.boot.thd 0).waiting ++ waitCalls Config.full 0 Kernel.boot as,
      ((chThdExitS Config.full 0 7 k').thd w).state = .ready) ∧
    ((chThdExitS Config.full 0 7 k').thd 0).waiting = []) := by
  refine ⟨_, _, rfl, .init _ _, by decide, rfl, by decide, by decide, ?_⟩
  exact chThdExitS_wakes_in_order (.init _ _) (by decide) (by rfl) (by rfl) 7

end Ch
