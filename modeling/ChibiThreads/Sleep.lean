import ChibiThreads.Lifecycle
import ChibiThreads.SleepUntil

/-!
# How long `chThdSleep` and `chThdSleepUntil` sleep

`chThdSleep(time)` puts the running thread in `CH_STATE_SLEEPING` through `chThdSleepS`, which
arms a virtual timer of `time` ticks unless `time` is `TIME_INFINITE`; `chThdSleepUntil(time)`
does so for `time - now` ticks. Each tick of the system timer advances the system time and counts
every armed timer down by one, and fires those that reach zero.

* `timer_safe`: every armed timer belongs to a sleeping thread, and no thread has two.
* `StepOk.asleep`: only its timer wakes a sleeping thread; a step that is not a tick leaves it
  sleeping with its timer as it was.
* `Inv.tick_timer`: a tick counts the timer of a thread down, and at zero makes it ready with
  `RDY_TIMEOUT`.
* `run_timer`: a thread whose timer has `m` ticks to go sleeps through every run of fewer than
  `m` ticks; `run_no_timer`: a thread sleeping with no timer sleeps through every run.
* `run_systime`: the system time counts the ticks of a run.
* `chThdSleep_wakes_after`: after `chThdSleep(time)` the thread sleeps through every run of
  fewer than `time` ticks and the `time`-th tick makes it ready with `RDY_TIMEOUT`; after
  `chThdSleep(TIME_INFINITE)` it sleeps through every run.
* `chThdSleepUntil_wakes_at`: after `chThdSleepUntil(time)` the thread sleeps until the tick
  that brings the system time to `time`, and that tick makes it ready.
* `chThdSleepUntil_sleeps_forever`: after `chThdSleepUntil(now - 1)` the thread sleeps with no
  timer through every run, also when the system time comes round to `now - 1`.
-/

namespace Ch

section Timers

variable {cfg : Config} {k k' : Kernel} {a : Action} {t : Nat}

/-- A thread has at most one armed timer. -/
theorem Inv.vt_unique (hi : Inv k) {n m : Nat} (hn : (t, n) ∈ k.vtlist)
    (hm : (t, m) ∈ k.vtlist) : n = m :=
  (Prod.mk.inj (List.inj_on_of_nodup_map hi.vt_nodup hn hm rfl)).2

/-- In every reachable state every armed virtual timer belongs to a created thread in
`CH_STATE_SLEEPING`, and no thread has two: a timer never fires on a thread that waits for
something else or runs. -/
theorem timer_safe (h : Reach cfg k) :
    (∀ t n, (t, n) ∈ k.vtlist → t < k.nthd ∧ (k.thd t).state = .sleeping) ∧
    (k.vtlist.map Prod.fst).Nodup :=
  ⟨h.inv.vt_sleeping, h.inv.vt_nodup⟩

theorem timer_safe_sample : Reach Config.full Kernel.sample ∧ Kernel.sample.vtlist = [(3, 10)] ∧
    ((∀ t n, (t, n) ∈ Kernel.sample.vtlist → t < Kernel.sample.nthd ∧
      (Kernel.sample.thd t).state = .sleeping) ∧
    (Kernel.sample.vtlist.map Prod.fst).Nodup) :=
  ⟨Reach.sample, by decide, timer_safe Reach.sample⟩

/-- The running thread has no armed timer. -/
theorem Inv.currp_no_timer (hi : Inv k) (hc : k.currp = some t) (n : Nat) : (t, n) ∉ k.vtlist :=
  fun hn => by
    have := (hi.vt_sleeping t n hn).2
    rw [hi.currp_state t hc] at this
    cases this

/-- The timer of a thread fires at the next tick when it has at most one tick to go. -/
theorem Inv.mem_expiring_iff (hi : Inv k) {m : Nat} (hv : (t, m) ∈ k.vtlist) :
    t ∈ expiring k ↔ m ≤ 1 := by
  simp only [expiring, List.mem_map, List.mem_filter, decide_eq_true_eq]
  constructor
  · rintro ⟨⟨_, _⟩, ⟨⟨⟨a, n⟩, hn, he⟩, hz⟩, rfl⟩
    simp only [Prod.mk.injEq] at he
    obtain ⟨rfl, rfl⟩ := he
    have := hi.vt_unique hn hv
    omega
  · exact fun hm => ⟨(t, m - 1), ⟨⟨(t, m), hv, rfl⟩, by simp only; omega⟩, rfl⟩

/-- After a tick, a thread has `n` ticks to go when it had `n + 1`. -/
theorem chSysTimerHandlerI_vtlist_mem {n : Nat} :
    (t, n) ∈ (chSysTimerHandlerI cfg k).vtlist ↔ n ≠ 0 ∧ (t, n + 1) ∈ k.vtlist := by
  rw [chSysTimerHandlerI_frame.2.2.2]
  simp only [List.mem_filter, List.mem_map, Prod.mk.injEq, decide_eq_true_eq]
  constructor
  · rintro ⟨⟨⟨a, m⟩, hm, rfl, rfl⟩, hz⟩
    exact ⟨hz, by rwa [Nat.sub_add_cancel (by omega)]⟩
  · exact fun ⟨hz, hv⟩ => ⟨⟨(t, n + 1), hv, rfl, rfl⟩, hz⟩

/-- A tick counts the timer of a thread down; at zero the timer fires and the thread is made
ready with `RDY_TIMEOUT`. -/
theorem Inv.tick_timer (hi : Inv k) {m : Nat} (hv : (t, m) ∈ k.vtlist) :
    (1 < m → (t, m - 1) ∈ (Ch.chSysTimerHandlerI cfg k).vtlist ∧
      (Ch.chSysTimerHandlerI cfg k).thd t = k.thd t) ∧
    (m ≤ 1 → (Ch.chSysTimerHandlerI cfg k).thd t =
      { k.thd t with u := cfg.rdyTimeout, state := .ready }) := by
  refine ⟨fun hm => ⟨?_, ?_⟩, fun hm => ?_⟩
  · rw [chSysTimerHandlerI_vtlist_mem, Nat.sub_add_cancel (by omega)]
    exact ⟨by omega, hv⟩
  · rw [chSysTimerHandlerI_thd, if_neg (by rw [hi.mem_expiring_iff hv]; omega)]
  · rw [chSysTimerHandlerI_thd, if_pos ((hi.mem_expiring_iff hv).mpr hm)]

/-- A step that is not a tick arms and disarms no timer of a thread that neither runs nor is
ready: `chThdSleepS` arms one for the running thread, and a dispatch disarms the timer of the
thread it dispatches. -/
theorem StepOk.vtlist_keep (hs : StepOk cfg k a k') (ha : a ≠ .tick) (hc : k.currp ≠ some t)
    (hr : (k.thd t).state ≠ .ready) (n : Nat) : (t, n) ∈ k'.vtlist ↔ (t, n) ∈ k.vtlist := by
  cases hs with
  | tick => exact absurd rfl ha
  | sleep hcur _ _ hvt =>
    have e : t ≠ _ := fun e => hc (e ▸ hcur)
    rcases hvt with rfl | ⟨m, rfl⟩ <;> simp [e]
  | @dispatch tp _ _ htp =>
    have e : t ≠ tp := fun e => hr (e ▸ htp)
    simp only [Ch.dispatch]
    split <;> simp [chThreadSuspendSWake, chThdWaitWake_frame, e]
  | exit => simp [chThdExitS_frame]
  | waitFinal => simp [chThdWaitWake_frame]
  | createStatic | createI => simp [threadInit_frame]
  | _ => simp [Ch.preempt, chThdYield]

/-- Only its timer wakes a sleeping thread: a step that is not a tick leaves it sleeping, with
its timer as it was. -/
theorem StepOk.asleep (hi : Inv k) (hs : StepOk cfg k a k') (ht : t < k.nthd)
    (hsl : (k.thd t).state = .sleeping) (ha : a ≠ .tick) :
    (k'.thd t).state = .sleeping ∧ ∀ n, (t, n) ∈ k'.vtlist ↔ (t, n) ∈ k.vtlist := by
  have hc : k.currp ≠ some t := fun hc => by simp [hi.currp_state t hc] at hsl
  refine ⟨?_, hs.vtlist_keep ha hc (by simp [hsl])⟩
  cases hs.change hi ht with
  | same e => rw [e, hsl]
  | running hc' _ => exact absurd hc' hc
  | dispatch hr _ => simp [hsl] at hr
  | woken w _ =>
    cases w with
    | start hw => simp [hsl] at hw
    | resumeI hcell => simp [(hi.cell_suspended _ _ hcell).2] at hsl
    | timeout _ => exact absurd rfl ha
    | exit hcur hw => simp [(hi.waiting_wtexit _ (hi.currp_lt _ hcur) t hw).2.1] at hsl

/-- A thread whose timer has `m` ticks to go sleeps through every run of fewer than `m` ticks,
with `m` minus the ticks of the run to go. -/
theorem run_timer : ∀ {as : List Action} {k k' : Kernel} {m : Nat}, Reach cfg k →
    (t, m) ∈ k.vtlist → run cfg k as = .ok k' → as.count .tick < m →
    (t, m - as.count .tick) ∈ k'.vtlist ∧ (k'.thd t).state = .sleeping
  | [], k, _, m, h, hv, e, _ => by cases e; exact ⟨hv, (h.inv.vt_sleeping t m hv).2⟩
  | a :: as, k, k', m, h, hv, e, hj => by
    simp only [Ch.run] at e
    cases hs : Ch.step cfg k a with
    | error => rw [hs] at e; cases e
    | ok k₁ =>
      rw [hs] at e
      obtain ⟨ht, hsl⟩ := h.inv.vt_sleeping t m hv
      by_cases ha : a = .tick
      · subst ha
        obtain rfl : Ch.chSysTimerHandlerI cfg k = k₁ := Except.ok.inj hs
        rw [List.count_cons_self] at hj ⊢
        have := run_timer (h.step _ hs) ((h.inv.tick_timer hv).1 (by omega)).1 e (by omega)
        rwa [Nat.sub_sub, Nat.add_comm 1] at this
      · rw [List.count_cons_of_ne (Ne.symm ha)] at hj ⊢
        exact run_timer (h.step _ hs) ((((step_ok hs).asleep h.inv ht hsl ha).2 m).mpr hv) e hj

/-- A thread sleeping with no timer sleeps through every run. -/
theorem run_no_timer {as : List Action} (h : Reach cfg k) (hr : run cfg k as = .ok k')
    (ht : t < k.nthd) (hsl : (k.thd t).state = .sleeping) (hv : ∀ n, (t, n) ∉ k.vtlist) :
    (k'.thd t).state = .sleeping ∧ ∀ n, (t, n) ∉ k'.vtlist := by
  refine run_thread (I := Reach cfg)
    (P := fun k t => (k.thd t).state = .sleeping ∧ ∀ n, (t, n) ∉ k.vtlist)
    (fun hk hs => hk.step _ hs) (fun {k a k₁} hk hs => ⟨(step_ok hs).nthd_le,
      fun t ht ⟨hsl, hv⟩ => ?_⟩) h hr ht ⟨hsl, hv⟩
  by_cases ha : a = .tick
  · subst ha
    obtain rfl : chSysTimerHandlerI cfg k = k₁ := Except.ok.inj hs
    have hx : t ∉ expiring k := fun hx => by obtain ⟨n, hn⟩ := mem_expiring hx; exact hv n hn
    exact ⟨by rw [chSysTimerHandlerI_thd, if_neg hx, hsl],
      fun n hn => hv _ (chSysTimerHandlerI_vtlist_mem.mp hn).2⟩
  · obtain ⟨hsl', hv'⟩ := (step_ok hs).asleep hk.inv ht hsl ha
    exact ⟨hsl', fun n hn => hv n ((hv' n).mp hn)⟩

/-- Only a tick advances the system time, by one. -/
theorem step_systime (hs : step cfg k a = .ok k') :
    k'.systime = k.systime + if a = .tick then 1 else 0 := by
  by_cases ha : a = .tick
  · subst ha
    obtain rfl : Ch.chSysTimerHandlerI cfg k = k' := Except.ok.inj hs
    simp [chSysTimerHandlerI, wakeupAll_frame]
  rw [if_neg ha, Nat.add_zero]
  cases step_ok hs with
  | stutter => rfl
  | tick => exact absurd rfl ha
  | exit =>
    simp only [chThdExitS, chSchGoSleepS]
    split <;> simp [exitWaiting_systime]
  | dispatch =>
    simp only [Ch.dispatch]
    split <;> simp [chThreadSuspendSWake, chThdWaitWake]
    split <;> rfl
  | waitFinal => simp only [chThdWaitWake]; split <;> rfl
  | createStatic | createI => simp [threadInit]; split <;> rfl
  | _ => simp [Ch.preempt, chThdYield]

/-- The system time counts the ticks of a run. -/
theorem run_systime : ∀ {as : List Action} {k k' : Kernel}, run cfg k as = .ok k' →
    k'.systime = k.systime + as.count .tick
  | [], k, _, e => by cases e; rfl
  | a :: as, k, k', e => by
    simp only [Ch.run] at e
    cases hs : Ch.step cfg k a with
    | error => rw [hs] at e; cases e
    | ok k₁ =>
      rw [hs] at e
      rw [run_systime e, step_systime hs, List.count_cons]
      simp only [beq_iff_eq]
      split <;> omega

/-- `chThdSleep(time)` by the running thread: after `chThdSleep(TIME_INFINITE)` the thread sleeps
through every run; after any other `time` it sleeps through every run of fewer than `time` ticks,
and the tick after `time - 1` ticks makes it ready with `RDY_TIMEOUT`. -/
theorem chThdSleep_wakes_after {cur : Nat} {time : BitVec cfg.stResolution} {k₁ : Kernel}
    {as : List Action} (h : Reach cfg k) (hc : k.currp = some cur) (hu : (k.thd cur).ctx = .user)
    (hs : chThdSleep cfg cur time k = .ok k₁) (hr : run cfg k₁ as = .ok k') :
    (time = BitVec.ofNat _ cfg.timeInfinite → (k'.thd cur).state = .sleeping) ∧
    (time ≠ BitVec.ofNat _ cfg.timeInfinite → as.count .tick < time.toNat →
      (k'.thd cur).state = .sleeping) ∧
    (time ≠ BitVec.ofNat _ cfg.timeInfinite → as.count .tick + 1 = time.toNat →
      ((chSysTimerHandlerI cfg k').thd cur).state = .ready ∧
      ((chSysTimerHandlerI cfg k').thd cur).u = cfg.rdyTimeout) := by
  have h₁ : Reach cfg k₁ := h.step (.call (.sleep time.toNat))
    (by simpa [Ch.step, hc, hu, Call.target, Call.run, chThdSleep] using hs)
  have hcl := h.inv.currp_lt cur hc
  have hnv := h.inv.currp_no_timer hc
  simp only [chThdSleep, chThdSleepS] at hs
  split at hs
  · cases hs
  split at hs <;> cases hs
  · rename_i hinf
    have := run_no_timer h₁ hr (by simpa using hcl) (by simp) (by simpa using hnv)
    exact ⟨fun _ => this.1, fun h => absurd hinf h, fun h => absurd hinf h⟩
  · rename_i hfin
    have run := fun hj => run_timer (t := cur) (m := time.toNat) h₁ (by simp) hr hj
    refine ⟨fun e => absurd e hfin, fun _ hj => (run hj).2, fun _ hj => ?_⟩
    have hv := (run (by omega)).1
    rw [show time.toNat - as.count .tick = 1 by omega] at hv
    simp [((h₁.run hr).inv.tick_timer hv).2 le_rfl]

theorem chThdSleep_wakes_after_sample : ∃ k₁ k', Reach Config.full Kernel.sample ∧
    Kernel.sample.currp = some 1 ∧ (Kernel.sample.thd 1).ctx = .user ∧
    chThdSleep Config.full 1 2 Kernel.sample = .ok k₁ ∧ run Config.full k₁ [.tick] = .ok k' ∧
    ((2 : BitVec Config.full.stResolution) = BitVec.ofNat _ Config.full.timeInfinite →
      (k'.thd 1).state = .sleeping) ∧
    ((2 : BitVec Config.full.stResolution) ≠ BitVec.ofNat _ Config.full.timeInfinite →
      [Action.tick].count .tick < (2 : BitVec Config.full.stResolution).toNat →
      (k'.thd 1).state = .sleeping) ∧
    ((2 : BitVec Config.full.stResolution) ≠ BitVec.ofNat _ Config.full.timeInfinite →
      [Action.tick].count .tick + 1 = (2 : BitVec Config.full.stResolution).toNat →
      ((chSysTimerHandlerI Config.full k').thd 1).state = .ready ∧
      ((chSysTimerHandlerI Config.full k').thd 1).u = Config.full.rdyTimeout) :=
  ⟨_, _, Reach.sample, by decide, by decide, rfl, rfl,
    chThdSleep_wakes_after Reach.sample (by decide) (by decide) rfl rfl⟩

/-- The system time `now + c` reads `time` exactly when `c` is `time - now`, for `c` below
`2 ^ CH_CFG_ST_RESOLUTION`. -/
theorem clock_eq_iff {now time : BitVec cfg.stResolution} {c : Nat}
    (hc : c < 2 ^ cfg.stResolution) :
    now + BitVec.ofNat _ c = time ↔ c = (time - now).toNat := by
  rw [← eq_sub_iff_add_eq', BitVec.toNat_eq, BitVec.toNat_ofNat, Nat.mod_eq_of_lt hc]

/-- `chThdSleepUntil(time)` by the running thread, for a deadline other than now and one tick
before now (with `TIME_IMMEDIATE = 0` and `TIME_INFINITE` all ones): while the thread sleeps the
system time does not read `time`, and the tick that brings it to `time` makes the thread ready
with `RDY_TIMEOUT`. -/
theorem chThdSleepUntil_wakes_at (himm : cfg.timeImmediate = 0)
    (hinf : cfg.timeInfinite = 2 ^ cfg.stResolution - 1) {cur : Nat}
    {time : BitVec cfg.stResolution} {k₁ : Kernel} {as : List Action} (h : Reach cfg k)
    (hc : k.currp = some cur) (hu : (k.thd cur).ctx = .user)
    (hn : time ≠ chVTGetSystemTimeX cfg k) (hn1 : time ≠ chVTGetSystemTimeX cfg k - 1)
    (hs : chThdSleepUntil cfg cur time k = .ok k₁) (hr : run cfg k₁ as = .ok k') :
    (as.count .tick < (time - chVTGetSystemTimeX cfg k).toNat →
      (k'.thd cur).state = .sleeping ∧ chVTGetSystemTimeX cfg k' ≠ time) ∧
    (as.count .tick + 1 = (time - chVTGetSystemTimeX cfg k).toNat →
      ((chSysTimerHandlerI cfg k').thd cur).state = .ready ∧
      ((chSysTimerHandlerI cfg k').thd cur).u = cfg.rdyTimeout ∧
      chVTGetSystemTimeX cfg (chSysTimerHandlerI cfg k') = time) := by
  have h₁ : Reach cfg k₁ := h.step (.call (.sleepUntil time.toNat))
    (by simpa [Ch.step, hc, hu, Call.target, Call.run] using hs)
  -- the call arms a timer of `time - now` ticks
  obtain rfl :=
    Except.ok.inj (((chThdSleepUntil_sleeps_mod himm hinf cur time k).2.2 hn hn1).symm.trans hs)
  -- after `c` ticks the system time reads `now + c`
  have hclock : ∀ {k'} {c : Nat}, k'.systime = k.systime + c →
      chVTGetSystemTimeX cfg k' = chVTGetSystemTimeX cfg k + BitVec.ofNat _ c := fun e => by
    simp only [chVTGetSystemTimeX, e, BitVec.ofNat_add]
  have hsys := run_systime hr
  simp only [chSchGoSleepS, Kernel.modThd_systime] at hsys
  have hlt := (time - chVTGetSystemTimeX cfg k).isLt
  have run := fun hj => run_timer (t := cur) (m := (time - chVTGetSystemTimeX cfg k).toNat) h₁
    (by simp) hr hj
  refine ⟨fun hj => ⟨(run hj).2, fun e => ?_⟩, fun hj => ?_⟩
  · rw [hclock hsys, clock_eq_iff (by omega)] at e
    omega
  · have hv := (run (by omega)).1
    rw [show (time - chVTGetSystemTimeX cfg k).toNat - as.count .tick = 1 by omega] at hv
    have htick := step_systime
      (show Ch.step cfg k' .tick = .ok (chSysTimerHandlerI cfg k') from rfl)
    rw [hsys, if_pos rfl, Nat.add_assoc] at htick
    simp only [((h₁.run hr).inv.tick_timer hv).2 le_rfl, true_and]
    rw [hclock htick, clock_eq_iff (by omega)]
    omega

theorem chThdSleepUntil_wakes_at_sample : ∃ k₁ k', Config.full.timeImmediate = 0 ∧
    Config.full.timeInfinite = 2 ^ Config.full.stResolution - 1 ∧
    Reach Config.full Kernel.sample ∧ Kernel.sample.currp = some 1 ∧
    (Kernel.sample.thd 1).ctx = .user ∧
    (2 : BitVec Config.full.stResolution) ≠ chVTGetSystemTimeX Config.full Kernel.sample ∧
    (2 : BitVec Config.full.stResolution) ≠ chVTGetSystemTimeX Config.full Kernel.sample - 1 ∧
    chThdSleepUntil Config.full 1 2 Kernel.sample = .ok k₁ ∧ run Config.full k₁ [.tick] = .ok k' ∧
    (([Action.tick].count .tick <
        ((2 : BitVec Config.full.stResolution) - chVTGetSystemTimeX Config.full Kernel.sample).toNat →
      (k'.thd 1).state = .sleeping ∧ chVTGetSystemTimeX Config.full k' ≠ 2) ∧
    ([Action.tick].count .tick + 1 =
        ((2 : BitVec Config.full.stResolution) - chVTGetSystemTimeX Config.full Kernel.sample).toNat →
      ((chSysTimerHandlerI Config.full k').thd 1).state = .ready ∧
      ((chSysTimerHandlerI Config.full k').thd 1).u = Config.full.rdyTimeout ∧
      chVTGetSystemTimeX Config.full (chSysTimerHandlerI Config.full k') = 2)) :=
  ⟨_, _, rfl, rfl, Reach.sample, by decide, by decide, by decide, by decide, rfl, rfl,
    chThdSleepUntil_wakes_at rfl rfl Reach.sample (by decide) (by decide) (by decide) (by decide)
      rfl rfl⟩

/-- `chThdSleepUntil(now - 1)` by the running thread, a deadline one tick past (with
`TIME_IMMEDIATE = 0`, `TIME_INFINITE` all ones and a `systime_t` of at least one bit): the
difference `time - now` is all ones, `TIME_INFINITE`, so the thread goes to sleep with no timer
and sleeps through every run that follows, also through the `2 ^ CH_CFG_ST_RESOLUTION - 1` ticks
that bring the system time to `time`; "until the system time arrives to the specified value"
does not hold. -/
theorem chThdSleepUntil_sleeps_forever (himm : cfg.timeImmediate = 0)
    (hinf : cfg.timeInfinite = 2 ^ cfg.stResolution - 1) (hw : 0 < cfg.stResolution) {cur : Nat}
    {as : List Action} (h : Reach cfg k) (hc : k.currp = some cur) (hu : (k.thd cur).ctx = .user)
    (hr : run cfg (chSchGoSleepS cur .sleeping .sleep k) as = .ok k') :
    chThdSleepUntil cfg cur (chVTGetSystemTimeX cfg k - 1) k =
      .ok (chSchGoSleepS cur .sleeping .sleep k) ∧
    (k'.thd cur).state = .sleeping ∧
    (as.count .tick = 2 ^ cfg.stResolution - 1 →
      chVTGetSystemTimeX cfg k' = chVTGetSystemTimeX cfg k - 1) := by
  have hs := (chThdSleepUntil_sleeps_mod himm hinf cur _ k).2.1
    (BitVec.sub_one_ne_self hw _) rfl
  have h₁ : Reach cfg (chSchGoSleepS cur .sleeping .sleep k) := by
    generalize chVTGetSystemTimeX cfg k - 1 = time at hs
    exact h.step (.call (.sleepUntil time.toNat))
      (by simpa [Ch.step, hc, hu, Call.target, Call.run] using hs)
  refine ⟨hs, (run_no_timer h₁ hr (by simpa using h.inv.currp_lt cur hc) (by simp)
    (by simpa using h.inv.currp_no_timer hc)).1, fun hj => ?_⟩
  -- the run's ticks bring the system time to `now + (2 ^ w - 1) = now - 1`
  have hsys := run_systime hr
  simp only [chSchGoSleepS, Kernel.modThd_systime, hj] at hsys
  simp only [chVTGetSystemTimeX, hsys, BitVec.ofNat_add, BitVec.ofNat_two_pow_sub_one,
    sub_eq_add_neg]

theorem chThdSleepUntil_sleeps_forever_sample : ∃ k', Config.full.timeImmediate = 0 ∧
    Config.full.timeInfinite = 2 ^ Config.full.stResolution - 1 ∧ 0 < Config.full.stResolution ∧
    Reach Config.full Kernel.sample ∧ Kernel.sample.currp = some 1 ∧
    (Kernel.sample.thd 1).ctx = .user ∧ chVTGetSystemTimeX Config.full Kernel.sample = 0 ∧
    chVTGetSystemTimeX Config.full Kernel.sample - 1 = BitVec.ofNat _ 65535 ∧
    run Config.full (chSchGoSleepS 1 .sleeping .sleep Kernel.sample) [.tick] = .ok k' ∧
    (chThdSleepUntil Config.full 1 (chVTGetSystemTimeX Config.full Kernel.sample - 1) Kernel.sample =
      .ok (chSchGoSleepS 1 .sleeping .sleep Kernel.sample) ∧
    (k'.thd 1).state = .sleeping ∧
    ([Action.tick].count .tick = 2 ^ Config.full.stResolution - 1 →
      chVTGetSystemTimeX Config.full k' = chVTGetSystemTimeX Config.full Kernel.sample - 1)) :=
  ⟨_, rfl, rfl, by decide, Reach.sample, by decide, by decide, by decide, by decide, rfl,
    chThdSleepUntil_sleeps_forever rfl rfl (by decide) Reach.sample (by decide) (by decide) rfl⟩

end Timers

end Ch
