import ChibiThreads.Lifecycle

/-!
# Thread flags and the registry

`_thread_init` sets `p_flags` to `CH_FLAG_MODE_STATIC`; afterwards only `chThdTerminate` writes
it, by `p_flags |= CH_FLAG_TERMINATE`. With `CH_CFG_USE_REGISTRY`, `_thread_init` adds every
thread to the registry (`REG_INSERT`) and `chThdExitS` removes a thread whose mode bits
(`p_flags & CH_FLAG_MODE_MASK`) are `CH_FLAG_MODE_STATIC` (`REG_REMOVE`).

* `StepOk.flags`: a step leaves the flags of a created thread as they were or sets
  `CH_FLAG_TERMINATE` in them.
* `run_terminate_persists`: a termination request is never lost.
* `RegOk`: the registry invariant, kept by `REG_INSERT` (`RegOk.create`), by `REG_REMOVE`
  (`RegOk.exit`) and by every other step (`RegOk.keep`), since `CH_FLAG_TERMINATE` lies outside
  the mode bits that `chThdExitS` tests.
* `registry_live`: in every reachable state the registry lists every created thread that is not
  final, once and oldest first, and no other thread.
-/

namespace Ch

section Flags

variable {cfg : Config} {k k' : Kernel} {a : Action} {t : Nat}

/-- `|=` sets the bits it ors in. -/
theorem or_and_self_right (x m : Nat) : (x ||| m) &&& m = m :=
  Nat.eq_of_testBit_eq fun i => by simp only [Nat.testBit_and, Nat.testBit_or]; cases m.testBit i <;> simp

/-- Only `chThdTerminate` changes the flags of a created thread, by `|= CH_FLAG_TERMINATE`. -/
theorem StepOk.flags (hs : StepOk cfg k a k') (ht : t < k.nthd) :
    (k'.thd t).flags = (k.thd t).flags ∨
      (k'.thd t).flags = (k.thd t).flags ||| cfg.flagTerminate := by
  cases hs with
  | @terminate _ tp _ _ _ =>
    by_cases e : t = tp
    · exact .inr (by simp [chThdTerminate, e])
    · exact .inl (by simp [chThdTerminate, e])
  | createStatic | createI => exact .inl (by simp [threadInit_thd, Nat.ne_of_lt ht])
  | exit => exact .inl (by simp [chThdExitS_thd])
  | waitFinal => exact .inl (by simp [chThdWaitWake_thd])
  | dispatch => obtain ⟨_, _, e⟩ := @dispatch_thd cfg k _ t; exact .inl (by rw [e])
  | tick => exact .inl (by simp [chSysTimerHandlerI_thd])
  | _ => exact .inl (by simp [Ch.preempt, chThdYield])

variable {as : List Action}

/-- A termination request is never lost: once `CH_FLAG_TERMINATE` is set in the flags of a
created thread, it is set in every later state of every run. -/
theorem run_terminate_persists (hr : run cfg k as = .ok k') (ht : t < k.nthd)
    (hf : (k.thd t).flags &&& cfg.flagTerminate = cfg.flagTerminate) :
    (k'.thd t).flags &&& cfg.flagTerminate = cfg.flagTerminate := by
  refine run_thread (I := fun _ => True)
    (P := fun k t => (k.thd t).flags &&& cfg.flagTerminate = cfg.flagTerminate)
    (fun _ _ => trivial) (fun _ hs => ⟨?_, fun t ht hf => ?_⟩) trivial hr ht hf
  · rcases (step_ok hs).created with e | ⟨e, -⟩ <;> omega
  · rcases (step_ok hs).flags ht with e | e <;> rw [e]
    · exact hf
    · exact or_and_self_right _ _

theorem run_terminate_persists_sample : ∃ k',
    run Config.full (chThdTerminate Config.full 3 Kernel.sample)
      [.call (.exit 7), .dispatch 0, .release, .tick] = .ok k' ∧
    3 < (chThdTerminate Config.full 3 Kernel.sample).nthd ∧
    ((chThdTerminate Config.full 3 Kernel.sample).thd 3).flags &&& Config.full.flagTerminate =
      Config.full.flagTerminate ∧
    (k'.thd 3).flags &&& Config.full.flagTerminate = Config.full.flagTerminate :=
  ⟨_, rfl, by decide, by decide, run_terminate_persists
    (show run Config.full (chThdTerminate Config.full 3 Kernel.sample)
      [.call (.exit 7), .dispatch 0, .release, .tick] = .ok _ from rfl) (by decide) (by decide)⟩

end Flags

/-! ## The registry -/

/-- The registry lists the created threads that are not final, each once and oldest first
(threads are numbered in the order of their creation), and every created thread is in mode
`CH_FLAG_MODE_STATIC`. -/
structure RegOk (cfg : Config) (k : Kernel) : Prop where
  sorted : k.reglist.Pairwise (· < ·)
  mem_iff : ∀ t, t ∈ k.reglist ↔ t < k.nthd ∧ (k.thd t).state ≠ .final
  static : ∀ t < k.nthd, (k.thd t).flags &&& cfg.flagModeMask = cfg.flagModeStatic

section Registry

variable {cfg : Config} {k k' : Kernel} {a : Action}

theorem RegOk.nodup (hr : RegOk cfg k) : k.reglist.Nodup := hr.sorted.imp Nat.ne_of_lt

/-- With `CH_CFG_USE_REGISTRY`, `chSysInit` starts with the main thread registered. -/
theorem RegOk.init (hreg : cfg.useRegistry = true)
    (hstat : cfg.flagModeStatic &&& cfg.flagModeMask = cfg.flagModeStatic) (mem : Nat → Thread)
    (prio : Nat) : RegOk cfg (Kernel.init cfg mem prio) := by
  obtain ⟨hn, -⟩ := @Kernel.init_frame cfg mem prio
  have h0 := (@Kernel.init_thd_zero cfg mem prio).1
  have hf : ((Kernel.init cfg mem prio).thd 0).flags = cfg.flagModeStatic := by
    simp [Kernel.init, threadInit_thd]
  refine ⟨by simp [Kernel.init_reglist, hreg], fun t => ?_, fun t ht => ?_⟩ <;>
    simp only [Kernel.init_reglist, hreg, hn, if_true, List.mem_singleton] at *
  · constructor
    · rintro rfl; simp [h0]
    · rintro ⟨ht, -⟩; omega
  · obtain rfl : t = 0 := by omega
    rw [hf, hstat]

/-- A step that creates no thread and does not exit keeps the registry: it changes no
registry entry, makes no thread final, and at most sets `CH_FLAG_TERMINATE`, which lies outside
`CH_FLAG_MODE_MASK`. -/
theorem RegOk.keep (hterm : cfg.flagTerminate &&& cfg.flagModeMask = 0) (hr : RegOk cfg k)
    (hn : k'.nthd = k.nthd) (hl : k'.reglist = k.reglist)
    (hf : ∀ t < k.nthd, (k'.thd t).state = .final ↔ (k.thd t).state = .final)
    (hfl : ∀ t < k.nthd, (k'.thd t).flags = (k.thd t).flags ∨
      (k'.thd t).flags = (k.thd t).flags ||| cfg.flagTerminate) : RegOk cfg k' where
  sorted := hl ▸ hr.sorted
  mem_iff t := by
    rw [hl, hr.mem_iff, hn]
    exact and_congr_right fun ht => not_congr (hf t ht).symm
  static t ht := by
    rw [hn] at ht
    rcases hfl t ht with e | e <;> rw [e]
    · exact hr.static t ht
    · rw [Nat.and_distrib_right, hterm, Nat.or_zero]; exact hr.static t ht

/-- `REG_INSERT`: `_thread_init` on the next free thread registers it. -/
theorem RegOk.create (hstat : cfg.flagModeStatic &&& cfg.flagModeMask = cfg.flagModeStatic)
    (hr : RegOk cfg k) (hn : k'.nthd = k.nthd + 1) (hl : k'.reglist = k.reglist ++ [k.nthd])
    (hold : ∀ t < k.nthd, k'.thd t = k.thd t) (hs : (k'.thd k.nthd).state ≠ .final)
    (hf : (k'.thd k.nthd).flags = cfg.flagModeStatic) : RegOk cfg k' where
  sorted := hl ▸ List.pairwise_append.mpr ⟨hr.sorted, List.pairwise_singleton _ _,
    fun t h _ e => (List.mem_singleton.mp e) ▸ ((hr.mem_iff t).mp h).1⟩
  mem_iff t := by
    rw [hl, List.mem_append, List.mem_singleton, hr.mem_iff, hn]
    constructor
    · rintro (⟨ht, h⟩ | rfl)
      · exact ⟨by omega, by rwa [hold t ht]⟩
      · exact ⟨by omega, hs⟩
    · rintro ⟨ht, h⟩
      rcases Nat.lt_succ_iff_lt_or_eq.mp ht with ht | rfl
      · exact .inl ⟨ht, by rwa [hold t ht] at h⟩
      · exact .inr rfl
  static t ht := by
    rcases Nat.lt_succ_iff_lt_or_eq.mp (hn ▸ ht) with ht | rfl
    · rw [hold t ht]; exact hr.static t ht
    · rw [hf, hstat]

/-- `REG_REMOVE`: the running thread is static, so `chThdExitS` takes it off the registry as it
becomes final, and the waiters it readies stay registered. -/
theorem RegOk.exit (hreg : cfg.useRegistry = true) (hi : Inv k) (hr : RegOk cfg k) {cur : Nat}
    {msg : Int} (hc : k.currp = some cur) : RegOk cfg (chThdExitS cfg cur msg k) := by
  have hcl := hi.currp_lt cur hc
  have hl : (chThdExitS cfg cur msg k).reglist = k.reglist.erase cur := by
    rw [chThdExitS_reglist, if_pos ⟨hreg, hr.static cur hcl⟩]
  refine ⟨hl ▸ hr.sorted.sublist (List.erase_sublist cur _), fun t => ?_, fun t ht => ?_⟩ <;>
    rw [chThdExitS_frame.1] at *
  · rw [hl, hr.nodup.mem_erase_iff, hr.mem_iff]
    by_cases e : t = cur
    · simp [chThdExitS_thd, e]
    · by_cases hw : t ∈ (k.thd cur).waiting
      · simp [chThdExitS_thd, e, hw, (hi.waiting_wtexit cur hcl t hw).2.1]
      · simp [chThdExitS_thd, e, hw]
  · simpa [chThdExitS_thd] using hr.static t ht

/-- `RegOk` holds after every step. -/
theorem StepOk.regOk (hreg : cfg.useRegistry = true)
    (hstat : cfg.flagModeStatic &&& cfg.flagModeMask = cfg.flagModeStatic)
    (hterm : cfg.flagTerminate &&& cfg.flagModeMask = 0) (hi : Inv k) (hr : RegOk cfg k)
    (hs : StepOk cfg k a k') : RegOk cfg k' := by
  have keep := fun (hx : ∀ msg, a ≠ .call (.exit msg)) (hn : k'.nthd = k.nthd)
      (hl : k'.reglist = k.reglist) =>
    hr.keep hterm hn hl (fun t ht => hs.final_iff hi hx ht) (fun t ht => hs.flags ht)
  cases hs with
  | createStatic | createI =>
    exact hr.create hstat (by simp [threadInit_frame]) (by simp [threadInit_reglist, hreg])
      (fun t ht => by simp [threadInit_thd, Nat.ne_of_lt ht]) (by simp [threadInit_thd])
      (by simp [threadInit_thd])
  | exit hc => exact hr.exit hreg hi hc
  | sleep _ _ hc =>
    exact keep (by obtain ⟨_, rfl | rfl⟩ := hc <;> simp) (by simp) (by simp)
  | stutter => exact hr
  | dispatch => exact keep (by simp) dispatch_frame.1 dispatch_reglist
  | tick => exact keep (by simp) chSysTimerHandlerI_frame.1 chSysTimerHandlerI_reglist
  | waitFinal => exact keep (by simp) chThdWaitWake_frame.1 chThdWaitWake_reglist
  | _ => exact keep (by simp) (by simp [Ch.preempt, chThdYield]) (by simp [Ch.preempt, chThdYield])

/-- `RegOk` holds in every reachable state. -/
theorem Reach.regOk (hreg : cfg.useRegistry = true)
    (hstat : cfg.flagModeStatic &&& cfg.flagModeMask = cfg.flagModeStatic)
    (hterm : cfg.flagTerminate &&& cfg.flagModeMask = 0) (h : Reach cfg k) : RegOk cfg k := by
  induction h with
  | init mem prio => exact RegOk.init hreg hstat mem prio
  | step a hk hs ih => exact (step_ok hs).regOk hreg hstat hterm hk.inv ih

/-- With `CH_CFG_USE_REGISTRY`, and `CH_FLAG_MODE_STATIC` within `CH_FLAG_MODE_MASK` and
`CH_FLAG_TERMINATE` outside it, in every reachable state the registry lists every created thread
that is not final, each once and in the order of creation, and no other thread: `REG_INSERT` in
`_thread_init` adds each thread at the end, and `REG_REMOVE` in `chThdExitS` takes it off when it
exits, since no step changes its mode bits. -/
theorem registry_live (hreg : cfg.useRegistry = true)
    (hstat : cfg.flagModeStatic &&& cfg.flagModeMask = cfg.flagModeStatic)
    (hterm : cfg.flagTerminate &&& cfg.flagModeMask = 0) (h : Reach cfg k) :
    k.reglist.Pairwise (· < ·) ∧ ∀ t, t ∈ k.reglist ↔ t < k.nthd ∧ (k.thd t).state ≠ .final :=
  have hr := h.regOk hreg hstat hterm
  ⟨hr.sorted, hr.mem_iff⟩

theorem registry_live_sample : Config.full.useRegistry = true ∧
    Config.full.flagModeStatic &&& Config.full.flagModeMask = Config.full.flagModeStatic ∧
    Config.full.flagTerminate &&& Config.full.flagModeMask = 0 ∧ Reach Config.full Kernel.sample ∧
    Kernel.sample.reglist = [0, 1, 2, 3, 5] ∧ (Kernel.sample.thd 4).state = .final ∧
    (Kernel.sample.reglist.Pairwise (· < ·) ∧
    ∀ t, t ∈ Kernel.sample.reglist ↔ t < Kernel.sample.nthd ∧ (Kernel.sample.thd t).state ≠ .final) :=
  ⟨rfl, by decide, by decide, Reach.sample, by decide, by decide,
    registry_live rfl (by decide) (by decide) Reach.sample⟩

end Registry

end Ch
