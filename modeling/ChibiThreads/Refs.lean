import ChibiThreads.Inv

/-!
# Thread references and `chThdWait`

With `CH_CFG_USE_DYNAMIC` a thread counts its references in `p_refs`: `_thread_init` sets it to
`1`, `chThdAddRef` adds one, and `chThdWait(tp)`, after it has read the exit code, releases one
with `chThdRelease(tp)`, which stops the kernel on a count of zero. The entry check of
`chThdWait` asks only for `p_refs > 0`, which two callers pass on one reference: the second then
holds the exit code of a thread whose count is `0`, and its release stops the kernel
(`chThdWait_two_waiters_one_ref`).

Each caller has to bring a reference of its own. `ReachOwned` is the runs in which every call of
`chThdWait(tp)` is made while `p_refs` exceeds the number of threads already inside
`chThdWait(tp)` (`inWait`, `owns`); in them that number never exceeds `p_refs` (`RefsOk`), so
every thread inside `chThdWait(tp)` finds a reference to read the exit code under and to release,
and no release stops the kernel (`chThdWait_owned_refs`), however many threads wait on one
thread.
-/

namespace Ch

/-- The thread is inside `chThdWait(tp)`: past its entry check, before `chThdRelease(tp)`. -/
def Ctx.inWait (tp : Nat) : Ctx → Bool
  | .wait tq | .release tq _ => tq == tp
  | _ => false

/-- The number of created threads inside `chThdWait(tp)`. -/
def inWait (k : Kernel) (tp : Nat) : Nat :=
  (List.range k.nthd).countP fun w => (k.thd w).ctx.inWait tp

/-- Every thread inside `chThdWait(tp)` holds a reference to `tp` of its own. -/
def RefsOk (k : Kernel) : Prop := ∀ tp < k.nthd, inWait k tp ≤ (k.thd tp).refs

/-- A call of `chThdWait(tp)` that brings a reference of its own: `p_refs` of `tp` exceeds the
number of threads already inside `chThdWait(tp)`. Every other action brings none. -/
def owns (k : Kernel) : Action → Bool
  | .call (.wait tp) => inWait k tp < (k.thd tp).refs
  | _ => true

/-- The runs in which a thread calls `chThdWait(tp)` only with a reference of its own. -/
inductive ReachOwned (cfg : Config) : Kernel → Prop where
  | init (mem : Nat → Thread) (prio : Nat) : ReachOwned cfg (Kernel.init cfg mem prio)
  | step {k k' : Kernel} (a : Action) : ReachOwned cfg k → owns k a →
      step cfg k a = .ok k' → ReachOwned cfg k'

/-- Every call of `chThdWait` along the run of `as` from `k` brings a reference of its own. -/
def ownedRun (cfg : Config) : Kernel → List Action → Bool
  | _, [] => true
  | k, a :: as =>
    owns k a && match step cfg k a with
      | .ok k' => ownedRun cfg k' as
      | .error _ => true

section Lemmas

variable {cfg : Config} {k k' : Kernel} {a : Action} {tp tq x : Nat} {m : Int}

@[simp] theorem Ctx.inWait_user : Ctx.user.inWait tp = false := rfl
@[simp] theorem Ctx.inWait_suspend : Ctx.suspend.inWait tp = false := rfl
@[simp] theorem Ctx.inWait_sleep : Ctx.sleep.inWait tp = false := rfl
@[simp] theorem Ctx.inWait_wait : (Ctx.wait tq).inWait tp = (tq == tp) := rfl
@[simp] theorem Ctx.inWait_release : (Ctx.release tq m).inWait tp = (tq == tp) := rfl

/-- Changing a predicate at one point `x` below `n` changes its count below `n` by what it does
at `x`. -/
theorem countP_range_update {f g : Nat → Bool} (hx : ∀ w, w ≠ x → g w = f w) :
    ∀ n, x < n → (List.range n).countP g + (if f x then 1 else 0) =
      (List.range n).countP f + (if g x then 1 else 0)
  | 0, h => absurd h (Nat.not_lt_zero x)
  | n + 1, h => by
    simp only [List.range_succ, List.countP_append, List.countP_singleton]
    rcases Nat.lt_succ_iff_lt_or_eq.mp h with h | rfl
    · have := countP_range_update hx n h
      rw [hx n (Nat.ne_of_gt h)]; omega
    · rw [List.countP_congr fun w hw => by rw [hx w (Nat.ne_of_lt (List.mem_range.mp hw))]]
      omega

theorem inWait_congr (hn : k'.nthd = k.nthd)
    (hc : ∀ w tp, (k'.thd w).ctx.inWait tp = (k.thd w).ctx.inWait tp) : inWait k' tp = inWait k tp := by
  unfold inWait; rw [hn]; exact List.countP_congr fun w _ => by rw [hc]

/-- A step that changes only the thread `x` changes `inWait` by what it does at `x`. -/
theorem inWait_update (tp : Nat) (hn : k'.nthd = k.nthd) (hx : x < k.nthd)
    (ho : ∀ w, w ≠ x → (k'.thd w).ctx = (k.thd w).ctx) :
    inWait k' tp + (if (k.thd x).ctx.inWait tp then 1 else 0) =
      inWait k tp + (if (k'.thd x).ctx.inWait tp then 1 else 0) := by
  unfold inWait; rw [hn]
  exact countP_range_update (f := fun w => (k.thd w).ctx.inWait tp)
    (g := fun w => (k'.thd w).ctx.inWait tp) (fun w e => by simp only [ho w e]) _ hx

/-- A created thread is inside `chThdWait` on a created thread only. -/
theorem Inv.inWait_lt (hi : Inv k) {w : Nat} (hw : w < k.nthd) (hc : (k.thd w).ctx.inWait tp) :
    tp < k.nthd := by
  cases e : (k.thd w).ctx <;> simp only [e, Ctx.inWait, beq_iff_eq, reduceCtorEq] at hc <;> subst hc
  · by_cases hs : (k.thd w).state = .wtexit
    · obtain ⟨tq, htq, hc, -⟩ := hi.wtexit_waiting w hw hs
      exact Ctx.wait.inj (e.symm.trans hc) ▸ htq
    · exact (hi.wait_final w hw _ e hs).1
  · exact (hi.release_final w hw _ _ e).1

/-- No created thread is inside `chThdWait` on a thread not yet created. -/
theorem Inv.inWait_nthd (hi : Inv k) : inWait k k.nthd = 0 :=
  List.countP_eq_zero.mpr fun _ hw hc =>
    Nat.lt_irrefl _ (hi.inWait_lt (List.mem_range.mp hw) hc)

/-- A step that takes no reference, and changes no thread's place in `chThdWait` nor the threads
created. -/
theorem RefsOk.keep (hr : RefsOk k) (hn : k'.nthd = k.nthd)
    (hc : ∀ w tp, (k'.thd w).ctx.inWait tp = (k.thd w).ctx.inWait tp)
    (he : ∀ t, (k.thd t).refs ≤ (k'.thd t).refs) : RefsOk k' := fun tp ht => by
  rw [inWait_congr hn hc]; exact le_trans (hr tp (hn ▸ ht)) (he tp)

/-- The running thread `x`, in its own code, enters the saved context of a step; a context of
`chThdWait(tp)` needs `inWait` below `p_refs` of `tp`. No other thread changes its context, and no
reference count changes. -/
theorem RefsOk.enter (hr : RefsOk k) (hx : x < k.nthd) (hu : (k.thd x).ctx = .user)
    (hn : k'.nthd = k.nthd)
    (ho : ∀ w, w ≠ x → (k'.thd w).ctx = (k.thd w).ctx)
    (he : ∀ t, (k'.thd t).refs = (k.thd t).refs)
    (hc : ∀ tp, (k'.thd x).ctx.inWait tp → inWait k tp < (k.thd tp).refs) : RefsOk k' := by
  intro tp ht
  have e := inWait_update tp hn hx ho
  rw [he, hu] at *
  by_cases hin : (k'.thd x).ctx.inWait tp
  · have := hc tp hin
    simp only [hin, Ctx.inWait_user, if_true, if_false, Bool.false_eq_true] at e
    omega
  · simp only [hin, Ctx.inWait_user, if_false, Bool.false_eq_true, Nat.add_zero] at e
    rw [e]; exact hr tp (hn ▸ ht)

/-- The running thread `x` leaves the saved context of `chThdWait(tq)` for its own code, and
releases one reference to `tq`; no other thread changes its context. -/
theorem RefsOk.leave (hr : RefsOk k) (hx : x < k.nthd) (hc : (k.thd x).ctx = .release tq m)
    (hu : (k'.thd x).ctx = .user) (hn : k'.nthd = k.nthd)
    (ho : ∀ w, w ≠ x → (k'.thd w).ctx = (k.thd w).ctx)
    (he : ∀ t, (k'.thd t).refs = if t = tq then (k.thd t).refs - 1 else (k.thd t).refs) :
    RefsOk k' := by
  intro tp ht
  have e := inWait_update tp hn hx ho
  have := hr tp (hn ▸ ht)
  simp only [hc, hu, Ctx.inWait_user, Ctx.inWait_release, beq_iff_eq, if_false,
    Bool.false_eq_true, Nat.add_zero] at e
  rw [he]
  split
  · subst tp; simp only [if_true] at e; omega
  · simp only [Ne.symm ‹¬tp = tq›, if_false, Nat.add_zero] at e; omega

/-- A created thread is in no `chThdWait`, and no thread is inside `chThdWait` on it. -/
theorem RefsOk.create (hi : Inv k) (hr : RefsOk k) (prio : Nat) :
    RefsOk (threadInit cfg k.nthd prio k.newThread) := by
  have hc : ∀ tp, inWait (threadInit cfg k.nthd prio k.newThread) tp = inWait k tp := fun tp => by
    simp only [inWait, threadInit_frame, Kernel.newThread_nthd, List.range_succ,
      List.countP_append, List.countP_singleton, threadInit_thd, Kernel.newThread_thd, if_true,
      Ctx.inWait, if_false, Nat.add_zero]
    exact List.countP_congr fun w hw => by simp [Nat.ne_of_lt (List.mem_range.mp hw)]
  intro tp ht
  simp only [threadInit_frame, Kernel.newThread_nthd] at ht
  rw [hc]
  rcases Nat.lt_succ_iff_lt_or_eq.mp ht with ht | rfl
  · simpa [threadInit_thd, Nat.ne_of_lt ht] using hr tp ht
  · simp [hi.inWait_nthd]

/-- Every step keeps `RefsOk`, when a call of `chThdWait(tp)` brings a reference of its own. -/
theorem StepOk.refsOk (hd : cfg.useDynamic) (hi : Inv k) (hr : RefsOk k) (hg : owns k a)
    (hs : StepOk cfg k a k') : RefsOk k' := by
  cases hs with
  | stutter => exact hr
  | @createStatic _ _ _ prio _ _ _ _ _ =>
    have h0 : RefsOk (threadInit cfg k.nthd prio k.newThread) := hr.create hi prio
    exact h0.keep (by simp) (fun w tp => by simp) (fun t => by simp)
  | createI => exact hr.create hi _
  | @suspendS cur _ _ hu _ | @sleep cur _ _ _ hu _ _ =>
    exact hr.keep (by simp) (fun w tp => by simp; split <;> simp_all [Ctx.inWait]) (fun t => by simp)
  | @exit cur _ hc hu =>
    exact hr.keep chThdExitS_frame.1
      (fun w tp => by simp [chThdExitS_thd]; split <;> simp_all [Ctx.inWait])
      (fun t => by simp [chThdExitS_thd])
  | @waitSleep cur tq hc hu htq _ _ _ =>
    refine hr.enter (hi.currp_lt cur hc) hu (by simp) (fun w e => by simp [e])
      (fun t => by simp) fun tp h => ?_
    simp only [chSchGoSleepS, Kernel.modThd_thd, if_true, Ctx.inWait_wait, beq_iff_eq] at h
    simpa [owns, h] using hg
  | @waitFinal cur tq hc hu htq _ _ _ =>
    refine hr.enter (hi.currp_lt cur hc) hu chThdWaitWake_frame.1
      (fun w e => by simp [chThdWaitWake_thd, e]) (fun t => by simp [chThdWaitWake_thd])
      fun tp h => ?_
    simp only [chThdWaitWake_thd, if_true, hd, Ctx.inWait_release, beq_iff_eq] at h
    simpa [owns, h] using hg
  | @release cur tq m hc hctx _ =>
    exact hr.leave (hi.currp_lt cur hc) hctx (by simp) (by simp) (fun w e => by simp [e])
      fun t => by simp
  | dispatch =>
    refine hr.keep dispatch_frame.1 (fun w tp => ?_) (fun t => ?_)
    · simp only [Ch.dispatch]
      split <;> simp [chThdWaitWake_thd, hd] <;> split <;> simp_all
    · obtain ⟨_, _, e⟩ := @dispatch_thd cfg k _ t; rw [e]
  | tick =>
    exact hr.keep chSysTimerHandlerI_frame.1 (fun w tp => by simp [chSysTimerHandlerI_thd])
      (fun t => by simp [chSysTimerHandlerI_thd])
  | addRef =>
    exact hr.keep (by simp) (fun w tp => by simp) (fun t => by simp; split <;> omega)
  | _ =>
    exact hr.keep (by simp [Ch.preempt]) (fun w tp => by simp [Ch.preempt])
      (fun t => by simp [Ch.preempt])

theorem ReachOwned.reach (h : ReachOwned cfg k) : Reach cfg k := by
  induction h with
  | init mem prio => exact .init mem prio
  | step a _ _ hs ih => exact ih.step a hs

/-- A run whose calls of `chThdWait` all bring a reference of their own, from a state of
`ReachOwned`, ends in one. -/
theorem ReachOwned.run {as : List Action} (h : ReachOwned cfg k) (ho : ownedRun cfg k as)
    (hr : Ch.run cfg k as = .ok k') : ReachOwned cfg k' := by
  induction as generalizing k with
  | nil => cases hr; exact h
  | cons a as ih =>
    simp only [Ch.run] at hr
    cases hs : Ch.step cfg k a with
    | error => rw [hs] at hr; cases hr
    | ok k₁ =>
      rw [hs] at hr
      simp only [ownedRun, hs, Bool.and_eq_true] at ho
      exact ih (h.step a ho.1 hs) ho.2 hr

/-- With `CH_CFG_USE_DYNAMIC`, every state of a run of `ReachOwned` has `RefsOk`. -/
theorem ReachOwned.refsOk (hd : cfg.useDynamic) (h : ReachOwned cfg k) : RefsOk k := by
  induction h with
  | init mem prio =>
    intro tp _
    simp [inWait, (Kernel.init_frame mem prio).1, (Kernel.init_thd_zero mem prio).2.1, List.range_succ]
  | step a h hg hs ih => exact (step_ok hs).refsOk hd h.reach.inv ih hg

/-- Under `RefsOk`, a thread inside `chThdWait(tp)` finds `p_refs` of `tp` above zero. -/
theorem RefsOk.pos (hr : RefsOk k) (hi : Inv k) (hx : x < k.nthd) (hin : (k.thd x).ctx.inWait tp) :
    0 < (k.thd tp).refs :=
  Nat.lt_of_lt_of_le (List.countP_pos_iff.mpr ⟨x, List.mem_range.mpr hx, hin⟩)
    (hr tp (hi.inWait_lt hx hin))

end Lemmas

/-- With `CH_CFG_USE_DYNAMIC`, two threads pass the check `p_refs > 0` of `chThdWait(1)` on the
one reference of thread `1`; after the exit of thread `1` the first releases it, and the second
then holds the exit code of thread `1`, whose `p_refs` is `0`, and its `chThdRelease` stops the
kernel. -/
theorem chThdWait_two_waiters_one_ref : ∃ k, run Config.full Kernel.boot
      [.call (.createStatic 1 96 1 1 0), .call (.createStatic 1 96 1 1 0), .call (.wait 1),
        .dispatch 2, .call (.wait 1), .dispatch 1, .call (.exit 5), .dispatch 0, .release,
        .preempt, .dispatch 2] = .ok k ∧
    k.currp = some 2 ∧ (k.thd 2).ctx = .release 1 5 ∧ (k.thd 1).refs = 0 ∧
    step Config.full k .release = .error (.contract "chThdRelease") :=
  ⟨_, rfl, rfl, rfl, rfl, rfl⟩

variable {cfg : Config} {k : Kernel}

/-- With `CH_CFG_USE_DYNAMIC`, in a run in which each call of `chThdWait(tp)` brings a reference
of its own, the threads inside `chThdWait(tp)` hold at most `p_refs` references to `tp`; so each
of them, asleep in `chThdWait` or holding the exit code it read and about to release `tp`, finds
`p_refs` of `tp` above zero, and the release at the end of `chThdWait` never finds a count of
zero: it succeeds. -/
theorem chThdWait_owned_refs (hd : cfg.useDynamic = true) (h : ReachOwned cfg k) :
    (∀ tp < k.nthd, inWait k tp ≤ (k.thd tp).refs) ∧
    (∀ w < k.nthd, ∀ tp, ((k.thd w).ctx = .wait tp ∨ ∃ m, (k.thd w).ctx = .release tp m) →
      0 < (k.thd tp).refs) ∧
    ∃ k', step cfg k .release = .ok k' := by
  have hr := h.refsOk hd
  have hi := h.reach.inv
  refine ⟨hr, fun w hw tp hc => hr.pos hi hw (by rcases hc with hc | ⟨m, hc⟩ <;> simp [hc]), ?_⟩
  simp only [step]
  split
  · rename_i cur hc
    split
    · rename_i tp m hctx
      exact ⟨_, chThdWaitRelease_eq_ok.mpr ⟨hr.pos hi (hi.currp_lt cur hc) (by simp [hctx]), rfl⟩⟩
    · exact ⟨_, rfl⟩
  · exact ⟨_, rfl⟩

theorem chThdWait_owned_refs_sample : ∃ k,
    run Config.full Kernel.boot (sampleRun ++ [.call (.exit 7), .dispatch 0]) = .ok k ∧
    Config.full.useDynamic = true ∧ ReachOwned Config.full k ∧ (k.thd 0).ctx = .release 1 7 ∧
    (k.thd 5).ctx = .wait 1 ∧ (k.thd 1).refs = 2 ∧
    ((∀ tp < k.nthd, inWait k tp ≤ (k.thd tp).refs) ∧
    (∀ w < k.nthd, ∀ tp, ((k.thd w).ctx = .wait tp ∨ ∃ m, (k.thd w).ctx = .release tp m) →
      0 < (k.thd tp).refs) ∧
    ∃ k', step Config.full k .release = .ok k') :=
  have h : ReachOwned Config.full _ := (ReachOwned.init (fun _ => Thread.zero) 1).run (by decide)
    (show run Config.full Kernel.boot (sampleRun ++ [.call (.exit 7), .dispatch 0]) = .ok _ from rfl)
  ⟨_, rfl, rfl, h, by decide, by decide, by decide, chThdWait_owned_refs rfl h⟩

end Ch
