import ChibiThreads.StepOk

/-!
# The invariant of the thread table

`Inv k` is what every reachable state keeps, in five parts:

* `RunOk`, **the running thread**: `currp` is a created thread in `CH_STATE_CURRENT`, and it is
  the only one in that state.
* `JoinOk`, **joins**: every thread in a `p_waiting` list is a created thread in
  `CH_STATE_WTEXIT` that sleeps in `chThdWait` on the list's owner, never on itself, and is there
  once; every thread in `CH_STATE_WTEXIT` is in such a list, and a final thread's list is empty.
  A thread still in `chThdWait(tp)` but no longer in `CH_STATE_WTEXIT` waits on a final `tp`, and
  one about to release `tp` holds `tp`'s exit code.
* `CodeOk`, **exit codes**: a final thread has its call of `chThdExitS` in the log, and every exit
  code the log reports for a thread, from `chThdExitS` or returned by `chThdWait`, is its
  `p_u.exitcode`.
* `TimerOk`, **timers**: every armed virtual timer belongs to a sleeping thread, and no thread has
  two.
* `CellOk`, **thread references**: every thread reference object holds a suspended thread, and no
  two hold the same one.

Each part has a `keep` lemma for the steps that do not change what it reads, and a lemma for each
kind of step that does. The lemmas of namespace `Inv` put the parts together for each kind of
step, `StepOk.inv` for every step, and `Reach.inv` proves `Inv` of every reachable state;
`one_running` states its first part for the caller.
-/

namespace Ch

/-! ## What the log says -/

/-- The exit code an entry reports for a thread: the code of its `chThdExitS`, or the value a
`chThdWait` on it returned. -/
def Event.code : Event → Option (Nat × Int)
  | .exit tp msg | .waitRet _ tp msg => some (tp, msg)
  | _ => none

/-- The log of `k'` is the log of `k` with entries added that report no exit code. -/
def QuietLog (k k' : Kernel) : Prop := ∃ l, k'.log = k.log ++ l ∧ ∀ e ∈ l, e.code = none

section Log

variable {k k' : Kernel} {e : Event}

theorem QuietLog.mem (h : QuietLog k k') (he : e ∈ k'.log) {p : Nat × Int} (hp : e.code = some p) :
    e ∈ k.log := by
  obtain ⟨l, hl, hq⟩ := h
  rw [hl, List.mem_append] at he
  exact he.resolve_right fun he => by simp [hq e he] at hp

theorem QuietLog.sub (h : QuietLog k k') : k.log ⊆ k'.log := by
  obtain ⟨l, hl, -⟩ := h
  exact hl ▸ List.subset_append_left _ _

theorem QuietLog.refl (h : k'.log = k.log) : QuietLog k k' := ⟨[], by simp [h], by simp⟩

/-- Calls of `chSchReadyI` report no exit code. -/
theorem QuietLog.ready (ts : List Nat) (h : k'.log = k.log ++ ts.map .ready) : QuietLog k k' :=
  ⟨_, h, by simp [Event.code]⟩

end Log

/-! ## The running thread -/

/-- `currp` is a created thread in `CH_STATE_CURRENT`, and no other thread is in that state. -/
structure RunOk (k : Kernel) : Prop where
  currp_lt : ∀ t, k.currp = some t → t < k.nthd
  currp_state : ∀ t, k.currp = some t → (k.thd t).state = .current
  current_eq : ∀ t < k.nthd, (k.thd t).state = .current → k.currp = some t

section RunOk

variable {k k' : Kernel} {cur tp : Nat}

/-- A thread that is not in `CH_STATE_CURRENT` is not the running one. -/
theorem RunOk.ne_cur (hr : RunOk k) (hc : k.currp = some cur) {t : Nat}
    (h : (k.thd t).state ≠ .current) : t ≠ cur := by
  rintro rfl; exact h (hr.currp_state t hc)

/-- A step that keeps the running thread and the threads in `CH_STATE_CURRENT`; the threads it
creates are in other states. -/
theorem RunOk.keep (hr : RunOk k) (hn : k.nthd ≤ k'.nthd) (hcp : k'.currp = k.currp)
    (hs : ∀ t < k'.nthd, (k'.thd t).state = .current → t < k.nthd ∧ (k.thd t).state = .current)
    (hc : ∀ t, k.currp = some t → (k'.thd t).state = .current) : RunOk k' where
  currp_lt t h := Nat.lt_of_lt_of_le (hr.currp_lt t (hcp ▸ h)) hn
  currp_state t h := hc t (hcp ▸ h)
  current_eq t ht h := by
    obtain ⟨ht, h⟩ := hs t ht h
    exact hcp ▸ hr.current_eq t ht h

/-- The running thread `cur` leaves the CPU, and no thread is running after. -/
theorem RunOk.leave (hr : RunOk k) (hc : k.currp = some cur) (hcp : k'.currp = none)
    (hn : k'.nthd = k.nthd)
    (hs : ∀ t, (k'.thd t).state = .current → t ≠ cur ∧ (k.thd t).state = .current) : RunOk k' where
  currp_lt t h := by simp [hcp] at h
  currp_state t h := by simp [hcp] at h
  current_eq t ht h := by
    obtain ⟨hne, h⟩ := hs t h
    exact absurd (Option.some.inj ((hr.current_eq t (hn ▸ ht) h).symm.trans hc)) hne

/-- The scheduler hands the CPU to the thread `tp` while no thread runs. -/
theorem RunOk.enter (hr : RunOk k) (hc : k.currp = none) (hcp : k'.currp = some tp)
    (hn : k'.nthd = k.nthd) (ht : tp < k.nthd)
    (hs : ∀ t, (k'.thd t).state = if t = tp then .current else (k.thd t).state) : RunOk k' where
  currp_lt t h := by rw [hcp] at h; cases h; omega
  currp_state t h := by rw [hcp] at h; cases h; simp [hs]
  current_eq t ht' h := by
    rw [hs] at h
    split at h
    · subst t; exact hcp
    · exact absurd (hr.current_eq t (hn ▸ ht') h) (by simp [hc])

end RunOk

/-! ## Joins -/

/-- The `p_waiting` lists and the threads in `chThdWait` (module doc). -/
structure JoinOk (k : Kernel) : Prop where
  waiting_nodup : ∀ tp < k.nthd, (k.thd tp).waiting.Nodup
  waiting_wtexit : ∀ tp < k.nthd, ∀ w ∈ (k.thd tp).waiting,
    w < k.nthd ∧ (k.thd w).state = .wtexit ∧ (k.thd w).ctx = .wait tp
  wtexit_waiting : ∀ w < k.nthd, (k.thd w).state = .wtexit →
    ∃ tp < k.nthd, (k.thd w).ctx = .wait tp ∧ w ∈ (k.thd tp).waiting
  final_waiting : ∀ tp < k.nthd, (k.thd tp).state = .final → (k.thd tp).waiting = []
  wait_final : ∀ w < k.nthd, ∀ tp, (k.thd w).ctx = .wait tp → (k.thd w).state ≠ .wtexit →
    tp < k.nthd ∧ (k.thd tp).state = .final
  wait_ne : ∀ w < k.nthd, ∀ tp, (k.thd w).ctx = .wait tp → tp ≠ w
  release_final : ∀ w < k.nthd, ∀ tp m, (k.thd w).ctx = .release tp m →
    tp < k.nthd ∧ (k.thd tp).state = .final ∧ (k.thd tp).u = m

section JoinOk

variable {cfg : Config} {k k' : Kernel} {cur tp : Nat} {msg : Int}

/-- A step that changes no saved context and no `p_waiting` list, moves no thread into or out of
`CH_STATE_WTEXIT` or `CH_STATE_FINAL`, and keeps the exit code of every final thread. -/
theorem JoinOk.keep (hj : JoinOk k) (hn : k'.nthd = k.nthd)
    (hw : ∀ t, (k'.thd t).state = .wtexit ↔ (k.thd t).state = .wtexit)
    (hf : ∀ t, (k'.thd t).state = .final ↔ (k.thd t).state = .final)
    (hc : ∀ t, (k'.thd t).ctx = (k.thd t).ctx) (hl : ∀ t, (k'.thd t).waiting = (k.thd t).waiting)
    (hu : ∀ t, (k.thd t).state = .final → (k'.thd t).u = (k.thd t).u) : JoinOk k' where
  waiting_nodup tp htp := hl tp ▸ hj.waiting_nodup tp (hn ▸ htp)
  waiting_wtexit tp htp w hm := by
    obtain ⟨h1, h2, h3⟩ := hj.waiting_wtexit tp (hn ▸ htp) w (hl tp ▸ hm)
    exact ⟨hn ▸ h1, (hw w).mpr h2, (hc w).trans h3⟩
  wtexit_waiting w hw' h := by
    obtain ⟨tp, htp, h1, h2⟩ := hj.wtexit_waiting w (hn ▸ hw') ((hw w).mp h)
    exact ⟨tp, hn ▸ htp, (hc w).trans h1, (hl tp).symm ▸ h2⟩
  final_waiting tp htp h := (hl tp).trans (hj.final_waiting tp (hn ▸ htp) ((hf tp).mp h))
  wait_final w hw' tp h1 h2 := by
    obtain ⟨a, b⟩ := hj.wait_final w (hn ▸ hw') tp ((hc w).symm.trans h1) fun h => h2 ((hw w).mpr h)
    exact ⟨hn ▸ a, (hf tp).mpr b⟩
  wait_ne w hw' tp h := hj.wait_ne w (hn ▸ hw') tp ((hc w).symm.trans h)
  release_final w hw' tp m h := by
    obtain ⟨a, b, c⟩ := hj.release_final w (hn ▸ hw') tp m ((hc w).symm.trans h)
    exact ⟨hn ▸ a, (hf tp).mpr b, (hu tp b).trans c⟩

/-- The running thread `cur` moves to a state `s` other than `CH_STATE_WTEXIT` and
`CH_STATE_FINAL`, with saved context `c`: a context of `chThdWait(tp)` needs a final `tp`, with
its exit code for the release. -/
theorem JoinOk.running (hj : JoinOk k) (hr : RunOk k) (hc : k.currp = some cur) {s : ThreadState}
    {c : Ctx} (hthd : ∀ t, k'.thd t = if t = cur then { k.thd t with state := s, ctx := c } else k.thd t)
    (hn : k'.nthd = k.nthd) (hsw : s ≠ .wtexit) (hsf : s ≠ .final)
    (hcw : ∀ tp, c = .wait tp → tp < k.nthd ∧ (k.thd tp).state = .final)
    (hcr : ∀ tp m, c = .release tp m → tp < k.nthd ∧ (k.thd tp).state = .final ∧ (k.thd tp).u = m) :
    JoinOk k' := by
  have ne := fun t (h : (k.thd t).state ≠ .current) => hr.ne_cur hc h
  have est : ∀ t, (k'.thd t).state = if t = cur then s else (k.thd t).state := by
    intro t; rw [hthd]; split <;> rfl
  have ectx : ∀ t, (k'.thd t).ctx = if t = cur then c else (k.thd t).ctx := by
    intro t; rw [hthd]; split <;> rfl
  have ew : ∀ t, (k'.thd t).waiting = (k.thd t).waiting := by intro t; rw [hthd]; split <;> rfl
  have eu : ∀ t, (k'.thd t).u = (k.thd t).u := by intro t; rw [hthd]; split <;> rfl
  constructor <;> simp only [est, ectx, ew, eu, hn]
  · exact hj.waiting_nodup
  · intro tp htp w hw
    obtain ⟨h1, h2, h3⟩ := hj.waiting_wtexit tp htp w hw
    simp [ne w (by simp [h2]), h1, h2, h3]
  · intro w hw h; split at h
    · exact absurd h hsw
    · simpa [ne w (by simp [h])] using hj.wtexit_waiting w hw h
  · intro tp htp h; split at h
    · exact absurd h hsf
    · exact hj.final_waiting tp htp h
  · intro w hw tp h1 h2; split at h1
    · obtain ⟨a, b⟩ := hcw tp h1
      simp [ne tp (by simp [b]), a, b]
    · obtain ⟨a, b⟩ := hj.wait_final w hw tp h1 (by simpa [*] using h2)
      simp [ne tp (by simp [b]), a, b]
  · intro w hw tp h; split at h
    · subst w; exact ne tp (by simp [(hcw tp h).2])
    · exact hj.wait_ne w hw tp h
  · intro w hw tp m h1; split at h1
    · obtain ⟨a, b, e⟩ := hcr tp m h1
      simp [ne tp (by simp [b]), a, b, e]
    · obtain ⟨a, b, e⟩ := hj.release_final w hw tp m h1
      simp [ne tp (by simp [b]), a, b, e]

/-- A created thread: `_thread_init` on the next free thread, with an empty list and in its own
code. -/
theorem JoinOk.create (hj : JoinOk k) (prio : Nat) : JoinOk (threadInit cfg k.nthd prio k.newThread) := by
  have hn : (threadInit cfg k.nthd prio k.newThread).nthd = k.nthd + 1 := by simp [threadInit_frame]
  have old : ∀ t, t < k.nthd → (threadInit cfg k.nthd prio k.newThread).thd t = k.thd t :=
    fun t ht => by simp [threadInit_thd, Nat.ne_of_lt ht]
  have new := @threadInit_thd cfg k.newThread k.nthd k.nthd prio
  simp only [if_true, Kernel.newThread_thd] at new
  have split : ∀ t, t < k.nthd + 1 → t < k.nthd ∨ t = k.nthd := fun t h => by omega
  constructor <;> simp only [hn]
  · intro tp htp
    rcases split tp htp with htp | rfl
    · exact old tp htp ▸ hj.waiting_nodup tp htp
    · simp [new]
  · intro tp htp w hw
    rcases split tp htp with htp | rfl
    · rw [old tp htp] at hw
      obtain ⟨h1, h2, h3⟩ := hj.waiting_wtexit tp htp w hw
      exact ⟨Nat.lt_succ_of_lt h1, by rw [old w h1]; exact ⟨h2, h3⟩⟩
    · simp [new] at hw
  · intro w hw h
    rcases split w hw with hw | rfl
    · rw [old w hw] at h ⊢
      obtain ⟨tp, htp, h1, h2⟩ := hj.wtexit_waiting w hw h
      exact ⟨tp, Nat.lt_succ_of_lt htp, h1, by rw [old tp htp]; exact h2⟩
    · simp [new] at h
  · intro tp htp h
    rcases split tp htp with htp | rfl
    · rw [old tp htp] at h ⊢; exact hj.final_waiting tp htp h
    · simp [new] at h
  · intro w hw tp h1 h2
    rcases split w hw with hw | rfl
    · rw [old w hw] at h1 h2
      obtain ⟨a, b⟩ := hj.wait_final w hw tp h1 h2
      exact ⟨Nat.lt_succ_of_lt a, by rw [old tp a]; exact b⟩
    · simp [new] at h1
  · intro w hw tp h1
    rcases split w hw with hw | rfl
    · rw [old w hw] at h1; exact hj.wait_ne w hw tp h1
    · simp [new] at h1
  · intro w hw tp m h1
    rcases split w hw with hw | rfl
    · rw [old w hw] at h1
      obtain ⟨a, b, c⟩ := hj.release_final w hw tp m h1
      exact ⟨Nat.lt_succ_of_lt a, by rw [old tp a]; exact ⟨b, c⟩⟩
    · simp [new] at h1

/-- The running thread goes to sleep in `chThdWait(tp)` on a thread that is not final, after
linking itself at the end of `tp->p_waiting`. -/
theorem JoinOk.wait (hj : JoinOk k) (hr : RunOk k) (hc : k.currp = some cur) (htp : tp < k.nthd)
    (hne : tp ≠ cur) (hf : (k.thd tp).state ≠ .final) :
    JoinOk (chSchGoSleepS cur .wtexit (.wait tp)
      (k.modThd tp fun t => { t with waiting := listInsert cur t.waiting })) := by
  have hs := hr.currp_state cur hc
  have hl := hr.currp_lt cur hc
  have ne := fun t (h : (k.thd t).state ≠ .current) => hr.ne_cur hc h
  have hnw : ∀ tq, tq < k.nthd → cur ∉ (k.thd tq).waiting := fun tq htq h => by
    have := (hj.waiting_wtexit tq htq cur h).2.1; simp [hs] at this
  constructor <;> simp only [chSchGoSleepS, listInsert, Kernel.modThd_thd, Kernel.modThd_nthd,
    Thread.ite_state, Thread.ite_ctx, Thread.ite_u, Thread.ite_waiting, ite_self]
  · intro tq htq
    split
    · subst tq
      exact List.nodup_append.mpr ⟨hj.waiting_nodup tp htp, List.nodup_singleton _,
        List.disjoint_singleton.mpr (hnw tp htp)⟩
    · exact hj.waiting_nodup tq htq
  · intro tq htq w hw
    have old : ∀ w, w ∈ (k.thd tq).waiting → w < k.nthd ∧
        (if w = cur then ThreadState.wtexit else (k.thd w).state) = .wtexit ∧
        (if w = cur then Ctx.wait tp else (k.thd w).ctx) = .wait tq := fun w hw => by
      obtain ⟨h1, h2, h3⟩ := hj.waiting_wtexit tq htq w hw
      simp [ne w (by simp [h2]), h1, h2, h3]
    split at hw
    · subst tq
      rcases List.mem_append.mp hw with hw | hw
      · exact old w hw
      · obtain rfl := List.mem_singleton.mp hw; simp [hl]
    · exact old w hw
  · intro w hw h
    split at h
    · subst w; exact ⟨tp, htp, by simp, by simp⟩
    · obtain ⟨tq, htq, h1, h2⟩ := hj.wtexit_waiting w hw h
      refine ⟨tq, htq, by simp [*], ?_⟩
      split <;> simp_all
  · intro tq htq h; split at h
    · cases h
    · rename_i hq
      simp only [hq, if_false, show tq ≠ tp from fun e => hf (e ▸ h)]
      exact hj.final_waiting tq htq h
  · intro w hw tq h1 h2; split at h1
    · exact absurd ‹w = cur› (by simp at h2; exact h2.1)
    · obtain ⟨a, b⟩ := hj.wait_final w hw tq h1 (by simpa [*] using h2)
      simp [ne tq (by simp [b]), a, b]
  · intro w hw tq h; split at h
    · subst w; cases h; exact hne
    · exact hj.wait_ne w hw tq h
  · intro w hw tq m h1; split at h1
    · cases h1
    · obtain ⟨a, b, e⟩ := hj.release_final w hw tq m h1
      simp [ne tq (by simp [b]), a, b, e]

/-- `chThdExitS` of the running thread: it is final with an empty list, and the threads of its
list, which slept in `chThdWait` on it, are ready. -/
theorem JoinOk.exit (hj : JoinOk k) (hr : RunOk k) (hc : k.currp = some cur) :
    JoinOk (chThdExitS cfg cur msg k) := by
  have hl := hr.currp_lt cur hc
  have ne := fun t (h : (k.thd t).state ≠ .current) => hr.ne_cur hc h
  have hW := hj.waiting_wtexit cur hl
  have nW : ∀ t, (k.thd t).state ≠ .wtexit → t ∉ (k.thd cur).waiting := fun t h hm =>
    h (hW t hm).2.1
  -- a thread that is neither `cur` nor one of its waiters keeps its state
  have keep : ∀ t, t ≠ cur → t ∉ (k.thd cur).waiting →
      ((chThdExitS cfg cur msg k).thd t).state = (k.thd t).state := fun t h1 h2 => by
    simp [chThdExitS_state, h1, h2]
  constructor <;> simp only [chThdExitS_frame.1, chThdExitS_ctx, chThdExitS_waiting, chThdExitS_u]
  · intro tq htq; split
    · simp
    · exact hj.waiting_nodup tq htq
  · intro tq htq w hw; split at hw
    · simp at hw
    · obtain ⟨h1, h2, h3⟩ := hj.waiting_wtexit tq htq w hw
      have hwc := ne w (by simp [h2])
      have hwW : w ∉ (k.thd cur).waiting := fun hm => ‹¬tq = cur› (by
        have := (hW w hm).2.2; rw [h3] at this; exact Ctx.wait.inj this)
      simp [keep w hwc hwW, hwc, h1, h2, h3]
  · intro w hw h
    have hwc : w ≠ cur := fun e => by simp [chThdExitS_state, e] at h
    have hwW : w ∉ (k.thd cur).waiting := fun hm => by simp [chThdExitS_state, hwc, hm] at h
    rw [keep w hwc hwW] at h
    obtain ⟨tq, htq, h1, h2⟩ := hj.wtexit_waiting w hw h
    have htc : tq ≠ cur := fun e => hwW (e ▸ h2)
    exact ⟨tq, htq, by simp [hwc, h1], by simp [htc, h2]⟩
  · intro tq htq h; split
    · rfl
    · rename_i htc
      have htW : tq ∉ (k.thd cur).waiting := fun hm => by simp [chThdExitS_state, htc, hm] at h
      rw [keep tq htc htW] at h
      exact hj.final_waiting tq htq h
  · intro w hw tq h1 h2
    split at h1
    · cases h1
    · rename_i hwc
      by_cases hwW : w ∈ (k.thd cur).waiting
      · have := (hW w hwW).2.2; rw [h1] at this; cases this
        simp [chThdExitS_state, hl]
      · rw [keep w hwc hwW] at h2
        obtain ⟨a, b⟩ := hj.wait_final w hw tq h1 h2
        have htc := ne tq (by simp [b])
        simp [keep tq htc (nW tq (by simp [b])), a, b]
  · intro w hw tq h; split at h
    · cases h
    · exact hj.wait_ne w hw tq h
  · intro w hw tq m h1
    split at h1
    · cases h1
    · obtain ⟨a, b, e⟩ := hj.release_final w hw tq m h1
      have htc := ne tq (by simp [b])
      simp [keep tq htc (nW tq (by simp [b])), htc, a, b, e]

end JoinOk

/-! ## Exit codes -/

/-- Every exit code the log reports is the `p_u.exitcode` of a final thread, and every final
thread has its call of `chThdExitS` in the log. -/
structure CodeOk (k : Kernel) : Prop where
  code_final : ∀ e ∈ k.log, ∀ tp m, e.code = some (tp, m) →
    tp < k.nthd ∧ (k.thd tp).state = .final ∧ (k.thd tp).u = m
  final_exit : ∀ tp < k.nthd, (k.thd tp).state = .final → Event.exit tp (k.thd tp).u ∈ k.log

section CodeOk

variable {cfg : Config} {k k' : Kernel} {cur : Nat} {msg : Int}

/-- A step that keeps every final thread final with its exit code, makes no thread final and
logs no exit code. -/
theorem CodeOk.keep (ho : CodeOk k) (hn : k.nthd ≤ k'.nthd)
    (hf : ∀ t < k.nthd, (k.thd t).state = .final →
      (k'.thd t).state = .final ∧ (k'.thd t).u = (k.thd t).u)
    (hf' : ∀ t < k'.nthd, (k'.thd t).state = .final → t < k.nthd ∧ (k.thd t).state = .final)
    (hl : QuietLog k k') : CodeOk k' where
  code_final e he tp m hm := by
    obtain ⟨a, b, c⟩ := ho.code_final e (hl.mem he hm) tp m hm
    obtain ⟨b', c'⟩ := hf tp a b
    exact ⟨Nat.lt_of_lt_of_le a hn, b', c'.trans c⟩
  final_exit tp htp h := by
    obtain ⟨a, b⟩ := hf' tp htp h
    rw [(hf tp a b).2]
    exact hl.sub (ho.final_exit tp a b)

/-- A log entry whose exit code, if any, is the one of a final thread. -/
theorem CodeOk.record (ho : CodeOk k) {e : Event}
    (he : ∀ tp m, e.code = some (tp, m) → tp < k.nthd ∧ (k.thd tp).state = .final ∧ (k.thd tp).u = m) :
    CodeOk (k.record e) where
  code_final e' h tp m hm := by
    simp only [Kernel.record_log, List.mem_append, List.mem_singleton] at h
    rcases h with h | rfl
    · exact ho.code_final e' h tp m hm
    · exact he tp m hm
  final_exit tp htp h := List.mem_append_left _ (ho.final_exit tp htp h)

/-- `chThdExitS` of the running thread logs its code and makes it final with that code. -/
theorem CodeOk.exit (ho : CodeOk k) (hr : RunOk k) (hj : JoinOk k) (hc : k.currp = some cur) :
    CodeOk (chThdExitS cfg cur msg k) := by
  have hl := hr.currp_lt cur hc
  -- a final thread is neither `cur` nor one of its waiters
  have keep : ∀ t, (k.thd t).state = .final → t ≠ cur ∧ t ∉ (k.thd cur).waiting := fun t h =>
    ⟨hr.ne_cur hc (by simp [h]), fun hm => by simp [(hj.waiting_wtexit cur hl t hm).2.1] at h⟩
  constructor <;> simp only [chThdExitS_frame.1, chThdExitS_log, chThdExitS_u]
  · intro e he tq m hm
    simp only [List.mem_append, List.mem_cons, List.mem_map] at he
    rcases he with he | rfl | ⟨w, -, rfl⟩
    · obtain ⟨a, b, u⟩ := ho.code_final e he tq m hm
      obtain ⟨h1, h2⟩ := keep tq b
      simp [chThdExitS_state, h1, h2, a, b, u]
    · simp only [Event.code, Option.some.injEq, Prod.mk.injEq] at hm
      obtain ⟨rfl, rfl⟩ := hm
      simp [chThdExitS_state, hl]
    · simp [Event.code] at hm
  · intro tq htq h
    rw [chThdExitS_state] at h
    split at h
    · subst tq; simp
    · split at h
      · cases h
      · simp only [‹¬tq = cur›, if_false]
        exact List.mem_append_left _ (ho.final_exit tq htq h)

end CodeOk

/-! ## Timers -/

/-- Every armed timer belongs to a sleeping thread, and no thread has two. -/
structure TimerOk (k : Kernel) : Prop where
  vt_sleeping : ∀ t n, (t, n) ∈ k.vtlist → t < k.nthd ∧ (k.thd t).state = .sleeping
  vt_nodup : (k.vtlist.map Prod.fst).Nodup

section TimerOk

variable {k k' : Kernel} {cur t : Nat}

theorem TimerOk.mem_fst (hv : TimerOk k) (h : t ∈ k.vtlist.map Prod.fst) :
    t < k.nthd ∧ (k.thd t).state = .sleeping := by
  obtain ⟨⟨_, n⟩, hm, rfl⟩ := List.mem_map.mp h
  exact hv.vt_sleeping _ n hm

/-- A step that arms no timer, and leaves sleeping every sleeping thread that keeps its timer. -/
theorem TimerOk.keep (hv : TimerOk k) (hn : k.nthd ≤ k'.nthd)
    (hsub : (k'.vtlist.map Prod.fst).Sublist (k.vtlist.map Prod.fst))
    (hs : ∀ t ∈ k'.vtlist.map Prod.fst, (k.thd t).state = .sleeping → (k'.thd t).state = .sleeping) :
    TimerOk k' where
  vt_sleeping t n h := by
    have h' : t ∈ k'.vtlist.map Prod.fst := List.mem_map_of_mem Prod.fst h
    obtain ⟨a, b⟩ := hv.mem_fst (hsub.subset h')
    exact ⟨Nat.lt_of_lt_of_le a hn, hs t h' b⟩
  vt_nodup := hsub.nodup hv.vt_nodup

/-- The running thread goes to sleep with a timer of `n` ticks. -/
theorem TimerOk.arm (hv : TimerOk k) (hr : RunOk k) (hc : k.currp = some cur) {n : Nat}
    (hvt : k'.vtlist = k.vtlist ++ [(cur, n)]) (hn : k'.nthd = k.nthd)
    (hs : ∀ t, (k'.thd t).state = if t = cur then .sleeping else (k.thd t).state) : TimerOk k' where
  vt_sleeping t m h := by
    rw [hvt, List.mem_append, List.mem_singleton] at h
    rcases h with h | h
    · obtain ⟨a, b⟩ := hv.vt_sleeping t m h
      rw [hs, if_neg (hr.ne_cur hc (by simp [b]))]
      exact ⟨hn ▸ a, b⟩
    · obtain ⟨rfl, -⟩ := Prod.mk.inj h
      simp [hs, hn, hr.currp_lt _ hc]
  vt_nodup := by
    rw [hvt, List.map_append]
    refine List.nodup_append.mpr ⟨hv.vt_nodup, List.nodup_singleton _, ?_⟩
    simp only [List.map_cons, List.map_nil, List.disjoint_singleton]
    intro h
    have := (hv.mem_fst h).2
    simp [hr.currp_state _ hc] at this

end TimerOk

/-! ## Thread references -/

/-- Every thread reference object holds a suspended thread, and no two hold the same one. -/
structure CellOk (k : Kernel) : Prop where
  cell_suspended : ∀ c t, k.cells c = some t → t < k.nthd ∧ (k.thd t).state = .suspended
  cell_inj : ∀ c c' t, k.cells c = some t → k.cells c' = some t → c = c'

section CellOk

variable {k k' : Kernel} {cur : Nat}

/-- A step that stores no thread in an object, and leaves suspended every suspended thread that
an object still holds. -/
theorem CellOk.keep (hl : CellOk k) (hn : k.nthd ≤ k'.nthd)
    (hcell : ∀ c t, k'.cells c = some t → k.cells c = some t)
    (hs : ∀ c t, k'.cells c = some t → (k.thd t).state = .suspended → (k'.thd t).state = .suspended) :
    CellOk k' where
  cell_suspended c t h := by
    obtain ⟨a, b⟩ := hl.cell_suspended c t (hcell c t h)
    exact ⟨Nat.lt_of_lt_of_le a hn, hs c t h b⟩
  cell_inj c c' t h h' := hl.cell_inj c c' t (hcell c t h) (hcell c' t h')

/-- The running thread suspends itself in the object `trp`. -/
theorem CellOk.take (hl : CellOk k) (hr : RunOk k) (hc : k.currp = some cur) {trp : Nat}
    (hcell : k'.cells = (k.setCell trp (some cur)).cells) (hn : k'.nthd = k.nthd)
    (hs : ∀ t, (k'.thd t).state = if t = cur then .suspended else (k.thd t).state) : CellOk k' := by
  have hnc : ∀ c, k.cells c ≠ some cur := fun c h => by
    have := (hl.cell_suspended c cur h).2
    simp [hr.currp_state cur hc] at this
  constructor <;> rw [hcell]
  · intro c t h
    simp only [Kernel.setCell_cells] at h
    split at h
    · cases h; simp [hs, hn, hr.currp_lt cur hc]
    · obtain ⟨a, b⟩ := hl.cell_suspended c t h
      rw [hs, if_neg (hr.ne_cur hc (by simp [b]))]
      exact ⟨hn ▸ a, b⟩
  · intro c c' t h h'
    simp only [Kernel.setCell_cells] at h h'
    split at h <;> split at h'
    · exact ‹c = trp›.trans ‹c' = trp›.symm
    · cases h; exact absurd h' (hnc c')
    · cases h'; exact absurd h (hnc c)
    · exact hl.cell_inj c c' t h h'

end CellOk

/-! ## The invariant -/

/-- The invariant of the thread table (module doc). -/
structure Inv (k : Kernel) extends RunOk k, JoinOk k, CodeOk k, TimerOk k, CellOk k : Prop

variable {cfg : Config} {k k' : Kernel} {cur tp t trp : Nat} {msg : Int}

theorem Inv.init (mem : Nat → Thread) (prio : Nat) : Inv (Kernel.init cfg mem prio) := by
  obtain ⟨hn, hcp, hcl, hvt, hl⟩ := @Kernel.init_frame cfg mem prio
  obtain ⟨hs, hc, hw⟩ := @Kernel.init_thd_zero cfg mem prio
  generalize Kernel.init cfg mem prio = k at *
  refine ⟨⟨?_, ?_, ?_⟩, ⟨?_, ?_, ?_, ?_, ?_, ?_, ?_⟩, ⟨?_, ?_⟩, ⟨?_, ?_⟩, ⟨?_, ?_⟩⟩ <;>
    simp [hn, hcp, hcl, hvt, hl, hs, hc, hw]

namespace Inv

/-- A thread that a thread reference object holds is suspended: it is no thread in another
state. -/
theorem cell_ne (hi : Inv k) {c t t0 : Nat} (h : k.cells c = some t)
    (hs : (k.thd t0).state ≠ .suspended) : t ≠ t0 :=
  fun e => hs (e ▸ (hi.cell_suspended c t h).2)

/-- A thread with an armed timer is sleeping: it is no thread in another state. -/
theorem vt_ne (hi : Inv k) {t n t0 : Nat} (h : (t, n) ∈ k.vtlist)
    (hs : (k.thd t0).state ≠ .sleeping) : t ≠ t0 :=
  fun e => hs (e ▸ (hi.vt_sleeping t n h).2)

/-- Of a thread, `Inv` reads only its state, saved context, `p_waiting` and `p_u`. -/
theorem of_fields_eq (hi : Inv k) (hn : k'.nthd = k.nthd) (hcp : k'.currp = k.currp)
    (hcl : k'.cells = k.cells) (hvt : k'.vtlist = k.vtlist) (hl : k'.log = k.log)
    (he : ∀ t, (k'.thd t).state = (k.thd t).state ∧ (k'.thd t).ctx = (k.thd t).ctx ∧
      (k'.thd t).waiting = (k.thd t).waiting ∧ (k'.thd t).u = (k.thd t).u) : Inv k' := by
  obtain ⟨⟨h1, h2, h3⟩, ⟨h4, h5, h6, h7, h8, h9, h10⟩, ⟨h11, h12⟩, ⟨h13, h14⟩, ⟨h15, h16⟩⟩ := hi
  refine ⟨⟨?_, ?_, ?_⟩, ⟨?_, ?_, ?_, ?_, ?_, ?_, ?_⟩, ⟨?_, ?_⟩, ⟨?_, ?_⟩, ⟨?_, ?_⟩⟩ <;>
    simp only [hn, hcp, hcl, hvt, hl, he] <;> assumption

/-- A change of the fields of one thread that `Inv` does not read keeps it. -/
theorem modThd (hi : Inv k) {f : Thread → Thread} (hs : ∀ r, (f r).state = r.state)
    (hc : ∀ r, (f r).ctx = r.ctx) (hw : ∀ r, (f r).waiting = r.waiting) (hu : ∀ r, (f r).u = r.u) :
    Inv (k.modThd tp f) :=
  hi.of_fields_eq rfl rfl rfl rfl rfl fun t => by
    simp only [Kernel.modThd_thd]; split <;> simp only [hs, hc, hw, hu, and_self]

/-- The running thread `cur` leaves the CPU for a state `s` that is neither `CH_STATE_WTEXIT` nor
`CH_STATE_FINAL`, with saved context `c`: it may take a thread reference object (in
`CH_STATE_SUSPENDED`) or arm a timer (in `CH_STATE_SLEEPING`), and the log gains entries with no
exit code only. -/
theorem block (hi : Inv k) (hc : k.currp = some cur) {s : ThreadState} {c : Ctx}
    (hthd : ∀ t, k'.thd t = if t = cur then { k.thd t with state := s, ctx := c } else k.thd t)
    (hn : k'.nthd = k.nthd) (hcp : k'.currp = none)
    (hcell : k'.cells = k.cells ∨ s = .suspended ∧ ∃ trp, k'.cells = (k.setCell trp (some cur)).cells)
    (hvt : k'.vtlist = k.vtlist ∨ s = .sleeping ∧ ∃ n, k'.vtlist = k.vtlist ++ [(cur, n)])
    (hlog : QuietLog k k') (hs : s ≠ .current) (hsw : s ≠ .wtexit) (hsf : s ≠ .final)
    (hcw : ∀ tp, c = .wait tp → tp < k.nthd ∧ (k.thd tp).state = .final)
    (hcr : ∀ tp m, c = .release tp m → tp < k.nthd ∧ (k.thd tp).state = .final ∧ (k.thd tp).u = m) :
    Inv k' := by
  have est : ∀ t, (k'.thd t).state = if t = cur then s else (k.thd t).state := by
    intro t; rw [hthd]; split <;> rfl
  have eu : ∀ t, (k'.thd t).u = (k.thd t).u := by intro t; rw [hthd]; split <;> rfl
  -- every other thread keeps its state
  have other : ∀ t, t ≠ cur → (k'.thd t).state = (k.thd t).state := fun t h => by simp [est, h]
  have ne := fun t (h : (k.thd t).state ≠ .current) => hi.ne_cur hc h
  refine ⟨hi.toRunOk.leave hc hcp hn fun t h => ?_, hi.toJoinOk.running hi.toRunOk hc hthd hn hsw hsf hcw hcr,
    hi.toCodeOk.keep hn.ge (fun t _ h => ?_) (fun t _ h => ?_) hlog, ?_, ?_⟩
  · rw [est] at h; split at h
    · exact absurd h hs
    · exact ⟨‹_›, h⟩
  · rw [other t (ne t (by simp [h])), eu]; exact ⟨h, rfl⟩
  · rw [est] at h; split at h
    · exact absurd h hsf
    · exact ⟨hn ▸ ‹_›, h⟩
  · rcases hvt with e | ⟨rfl, n, e⟩
    · exact hi.toTimerOk.keep hn.ge (e ▸ List.Sublist.refl _) fun t ht h =>
        (other t (ne t (by simp [h]))).trans h
    · exact hi.toTimerOk.arm hi.toRunOk hc e hn est
  · rcases hcell with e | ⟨rfl, trp, e⟩
    · exact hi.toCellOk.keep hn.ge (fun c t h => e ▸ h) fun c t _ h =>
        (other t (ne t (by simp [h]))).trans h
    · exact hi.toCellOk.take hi.toRunOk hc e hn est

/-- Threads `R` in `CH_STATE_WTSTART`, `CH_STATE_SUSPENDED` or `CH_STATE_SLEEPING` become ready,
with `p_u` set to `v`; the thread references and the timers only lose entries, those of the
threads `R` among them, and the log gains entries with no exit code only. -/
theorem wake (hi : Inv k) {R : Nat → Prop} [DecidablePred R] {v : Nat → Int}
    (hthd : ∀ t, k'.thd t = if R t then { k.thd t with state := .ready, u := v t } else k.thd t)
    (hR : ∀ t, R t → (k.thd t).state = .wtstart ∨ (k.thd t).state = .suspended ∨
      (k.thd t).state = .sleeping)
    (hn : k'.nthd = k.nthd) (hcp : k'.currp = k.currp)
    (hcell : ∀ c t, k'.cells c = some t → k.cells c = some t ∧ ¬R t)
    (hvt : (k'.vtlist.map Prod.fst).Sublist (k.vtlist.map Prod.fst))
    (hvR : ∀ t ∈ k'.vtlist.map Prod.fst, ¬R t) (hlog : QuietLog k k') : Inv k' := by
  have est : ∀ t, (k'.thd t).state = if R t then .ready else (k.thd t).state := by
    intro t; rw [hthd]; split <;> rfl
  have same : ∀ t, ¬R t → k'.thd t = k.thd t := fun t h => by rw [hthd, if_neg h]
  -- a thread that becomes ready was in none of the states `Inv` tells apart
  have nR : ∀ t s, s = .current ∨ s = .wtexit ∨ s = .final →
      ((k'.thd t).state = s ↔ (k.thd t).state = s) := fun t s hs => by
    rw [est]; split
    · rcases hR t ‹_› with e | e | e <;> rcases hs with rfl | rfl | rfl <;> simp [e]
    · rfl
  refine ⟨hi.toRunOk.keep hn.ge hcp (fun t ht h => ⟨hn ▸ ht, (nR t _ (.inl rfl)).mp h⟩)
      (fun t h => (nR t _ (.inl rfl)).mpr (hi.currp_state t h)),
    hi.toJoinOk.keep hn (fun t => nR t _ (.inr (.inl rfl))) (fun t => nR t _ (.inr (.inr rfl)))
      (fun t => ?_) (fun t => ?_) (fun t h => ?_),
    hi.toCodeOk.keep hn.ge (fun t _ h => ?_) (fun t ht h => ⟨hn ▸ ht, (nR t _ (.inr (.inr rfl))).mp h⟩)
      hlog,
    hi.toTimerOk.keep hn.ge hvt fun t ht _ => by rw [same t (hvR t ht)]; assumption,
    hi.toCellOk.keep hn.ge (fun c t h => (hcell c t h).1) fun c t h _ => by
      rw [same t (hcell c t h).2]; assumption⟩
  · rw [hthd]; split <;> rfl
  · rw [hthd]; split <;> rfl
  · rw [same t fun hr => by rcases hR t hr with e | e | e <;> simp [e] at h]
  · have hr : ¬R t := fun hr => by rcases hR t hr with e | e | e <;> simp [e] at h
    exact ⟨(nR t _ (.inr (.inr rfl))).mpr h, by rw [same t hr]⟩

/-- A created thread: `_thread_init` on the next free thread keeps the invariant. -/
theorem create (hi : Inv k) (prio : Nat) : Inv (threadInit cfg k.nthd prio k.newThread) := by
  obtain ⟨e1, e2, e3, e4, e5⟩ := @threadInit_frame cfg k.newThread k.nthd prio
  simp only [Kernel.newThread_nthd, Kernel.newThread_currp, Kernel.newThread_cells,
    Kernel.newThread_vtlist, Kernel.newThread_log] at e1 e2 e3 e4 e5
  have old : ∀ t, t < k.nthd → (threadInit cfg k.nthd prio k.newThread).thd t = k.thd t :=
    fun t ht => by simp [threadInit_thd, Nat.ne_of_lt ht]
  have new : ((threadInit cfg k.nthd prio k.newThread).thd k.nthd).state = .wtstart := by
    simp [threadInit_thd]
  -- a thread of the new state is an old one, or the new one in `CH_STATE_WTSTART`
  have cases : ∀ t < k.nthd + 1, ∀ s, s ≠ .wtstart →
      ((threadInit cfg k.nthd prio k.newThread).thd t).state = s → t < k.nthd ∧ (k.thd t).state = s :=
    fun t ht s hs h => by
      rcases Nat.lt_succ_iff_lt_or_eq.mp ht with ht | rfl
      · exact ⟨ht, old t ht ▸ h⟩
      · exact absurd (new.symm.trans h) hs.symm
  refine ⟨hi.toRunOk.keep (by omega) e2 (fun t ht h => cases t (e1 ▸ ht) _ (by decide) h)
      (fun t h => (old t (hi.currp_lt t h)).symm ▸ hi.currp_state t h),
    hi.toJoinOk.create prio,
    hi.toCodeOk.keep (by omega) (fun t ht h => by rw [old t ht]; exact ⟨h, rfl⟩)
      (fun t ht h => cases t (e1 ▸ ht) _ (by decide) h) (.refl e5),
    hi.toTimerOk.keep (by omega) (e4 ▸ List.Sublist.refl _) fun t ht h => by
      rw [old t (hi.toTimerOk.mem_fst (e4 ▸ ht)).1]; exact h,
    hi.toCellOk.keep (by omega) (fun c t h => e3 ▸ h) fun c t h h' => by
      rw [old t (hi.cell_suspended c t (e3 ▸ h)).1]; exact h'⟩

/-- The scheduler hands the CPU to a ready thread: it becomes the running one, with its saved
context. -/
theorem switchIn (hi : Inv k) (hc : k.currp = none) (ht : tp < k.nthd)
    (hr : (k.thd tp).state = .ready) :
    Inv { k.modThd tp (fun t => { t with state := .current }) with currp := some tp } := by
  have est : ∀ t, ((k.modThd tp fun t => { t with state := .current }).thd t).state =
      if t = tp then .current else (k.thd t).state := by intro t; simp
  -- the dispatched thread was ready: no other part of the invariant reads it
  have ne : ∀ t, (k.thd t).state ≠ .ready → t ≠ tp := fun t h e => h (e ▸ hr)
  have other : ∀ t, (k.thd t).state ≠ .ready →
      ((k.modThd tp fun t => { t with state := .current }).thd t).state = (k.thd t).state :=
    fun t h => by simp [est, ne t h]
  have hs : ∀ t s, s ≠ .current → s ≠ .ready →
      (((k.modThd tp fun t => { t with state := .current }).thd t).state = s ↔ (k.thd t).state = s) :=
    fun t s h1 h2 => by
      rw [est]; split
      · subst t; simp [hr, Ne.symm h1, Ne.symm h2]
      · rfl
  refine ⟨hi.toRunOk.enter hc rfl rfl ht est,
    hi.toJoinOk.keep rfl (fun t => hs t _ (by decide) (by decide))
      (fun t => hs t _ (by decide) (by decide)) (fun t => by simp) (fun t => by simp)
      (fun t _ => by simp),
    hi.toCodeOk.keep le_rfl (fun t _ h => ⟨(hs t _ (by decide) (by decide)).mpr h, by simp⟩)
      (fun t ht h => ⟨ht, (hs t _ (by decide) (by decide)).mp h⟩) (.refl rfl),
    hi.toTimerOk.keep le_rfl (List.Sublist.refl _) fun t _ h => by rw [other t (by simp [h])]; exact h,
    hi.toCellOk.keep le_rfl (fun _ _ => id) fun c t _ h => by rw [other t (by simp [h])]; exact h⟩

/-- The running thread takes a new saved context `c` (the rest of a kernel call); a context of
`chThdWait(tq)` needs a final `tq`, with its exit code for the release. -/
theorem setCtx (hi : Inv k) (hc : k.currp = some cur) {c : Ctx}
    (hcw : ∀ tq, c = .wait tq → tq < k.nthd ∧ (k.thd tq).state = .final)
    (hcr : ∀ tq m, c = .release tq m → tq < k.nthd ∧ (k.thd tq).state = .final ∧ (k.thd tq).u = m) :
    Inv (k.modThd cur fun t => { t with ctx := c }) := by
  have hs := hi.currp_state cur hc
  have e : ∀ t, (k.modThd cur fun t => { t with ctx := c }).thd t =
      if t = cur then { k.thd t with state := .current, ctx := c } else k.thd t := fun t => by
    simp only [Kernel.modThd_thd]; split <;> simp_all
  have est : ∀ t, ((k.modThd cur fun t => { t with ctx := c }).thd t).state = (k.thd t).state := by
    simp
  refine ⟨hi.toRunOk.keep le_rfl rfl (fun t ht h => ⟨ht, by rwa [← est]⟩) (fun t h => by
      rw [est]; exact hi.currp_state t h),
    hi.toJoinOk.running hi.toRunOk hc e rfl (by decide) (by decide) hcw hcr,
    hi.toCodeOk.keep le_rfl (fun t _ h => ⟨by rwa [est], by simp⟩) (fun t ht h => ⟨ht, by rwa [← est]⟩)
      (.refl rfl),
    hi.toTimerOk.keep le_rfl (List.Sublist.refl _) fun t _ h => by rwa [est],
    hi.toCellOk.keep le_rfl (fun _ _ => id) fun _ t _ h => by rwa [est]⟩

/-- A log entry whose exit code, if any, is the one of a final thread keeps the invariant. -/
theorem record (hi : Inv k) {e : Event}
    (he : ∀ tp m, e.code = some (tp, m) → tp < k.nthd ∧ (k.thd tp).state = .final ∧ (k.thd tp).u = m) :
    Inv (k.record e) :=
  ⟨hi.toRunOk.keep le_rfl rfl (fun _ ht h => ⟨ht, h⟩) hi.currp_state,
    hi.toJoinOk.keep rfl (fun _ => .rfl) (fun _ => .rfl) (fun _ => rfl) (fun _ => rfl) fun _ _ => rfl,
    hi.toCodeOk.record he, hi.toTimerOk.keep le_rfl (.refl _) fun _ _ => id,
    hi.toCellOk.keep le_rfl (fun _ _ => id) fun _ _ _ => id⟩

/-- Disarming timers keeps the invariant. -/
theorem filterVt (hi : Inv k) (p : Nat × Nat → Bool) : Inv { k with vtlist := k.vtlist.filter p } :=
  ⟨hi.toRunOk.keep le_rfl rfl (fun _ ht h => ⟨ht, h⟩) hi.currp_state,
    hi.toJoinOk.keep rfl (fun _ => .rfl) (fun _ => .rfl) (fun _ => rfl) (fun _ => rfl) fun _ _ => rfl,
    hi.toCodeOk.keep le_rfl (fun _ _ h => ⟨h, rfl⟩) (fun _ ht h => ⟨ht, h⟩) (.refl rfl),
    hi.toTimerOk.keep le_rfl ((List.filter_sublist _).map Prod.fst) fun _ _ => id,
    hi.toCellOk.keep le_rfl (fun _ _ => id) fun _ _ _ => id⟩

/-- The running thread going to sleep in `chThdWait(tp)` on a thread that is not final, after
linking itself at the end of `tp->p_waiting`. -/
theorem waitSleep (hi : Inv k) (hc : k.currp = some cur) (htp : tp < k.nthd) (hne : tp ≠ cur)
    (hf : (k.thd tp).state ≠ .final) :
    Inv (chSchGoSleepS cur .wtexit (.wait tp)
      (k.modThd tp fun t => { t with waiting := listInsert cur t.waiting })) := by
  have ne := fun t (h : (k.thd t).state ≠ .current) => hi.ne_cur hc h
  have est : ∀ t, ((chSchGoSleepS cur .wtexit (.wait tp)
      (k.modThd tp fun t => { t with waiting := listInsert cur t.waiting })).thd t).state =
      if t = cur then .wtexit else (k.thd t).state := by
    intro t; simp only [chSchGoSleepS, Kernel.modThd_thd]; split <;> [rfl; split <;> rfl]
  have other : ∀ t, (k.thd t).state ≠ .current → ((chSchGoSleepS cur .wtexit (.wait tp)
      (k.modThd tp fun t => { t with waiting := listInsert cur t.waiting })).thd t).state =
      (k.thd t).state := fun t h => by simp [est, ne t h]
  have eu : ∀ t, ((chSchGoSleepS cur .wtexit (.wait tp)
      (k.modThd tp fun t => { t with waiting := listInsert cur t.waiting })).thd t).u = (k.thd t).u := by
    simp
  refine ⟨hi.toRunOk.leave hc rfl rfl fun t h => ?_, hi.toJoinOk.wait hi.toRunOk hc htp hne hf,
    hi.toCodeOk.keep le_rfl (fun t _ h => ⟨by rw [other t (by simp [h]), h], eu t⟩)
      (fun t ht h => ?_) (.refl rfl),
    hi.toTimerOk.keep le_rfl (List.Sublist.refl _) fun t _ h => by rw [other t (by simp [h]), h],
    hi.toCellOk.keep le_rfl (fun _ _ => id) fun _ t _ h => by rw [other t (by simp [h]), h]⟩
  · rw [est] at h; split at h
    · cases h
    · exact ⟨‹_›, h⟩
  · rw [est] at h; split at h
    · cases h
    · exact ⟨ht, h⟩

/-- `chThdExitS` keeps the invariant: the exiting thread is final with its code logged, and the
threads of its list are ready. -/
theorem chThdExitS (hi : Inv k) (hc : k.currp = some cur) : Inv (Ch.chThdExitS cfg cur msg k) := by
  have hl := hi.currp_lt cur hc
  obtain ⟨e1, e2, e3, e4⟩ := @chThdExitS_frame cfg k cur msg
  -- the threads that change are `cur` and its waiters, neither sleeping nor suspended
  have other : ∀ t, (k.thd t).state ≠ .current → (k.thd t).state ≠ .wtexit →
      ((Ch.chThdExitS cfg cur msg k).thd t).state = (k.thd t).state := fun t h1 h2 => by
    have hW : t ∉ (k.thd cur).waiting := fun hm => h2 (hi.waiting_wtexit cur hl t hm).2.1
    simp [chThdExitS_state, hi.ne_cur hc h1, hW]
  refine ⟨hi.toRunOk.leave hc e2 e1 fun t h => ?_, hi.toJoinOk.exit hi.toRunOk hc,
    hi.toCodeOk.exit hi.toRunOk hi.toJoinOk hc,
    hi.toTimerOk.keep e1.ge (e4 ▸ List.Sublist.refl _) fun t _ h => by
      rw [other t (by simp [h]) (by simp [h]), h],
    hi.toCellOk.keep e1.ge (fun c t h => e3 ▸ h) fun _ t _ h => by
      rw [other t (by simp [h]) (by simp [h]), h]⟩
  rw [chThdExitS_state] at h
  split at h
  · cases h
  · split at h
    · cases h
    · exact ⟨‹_›, h⟩

/-- The end of `chThdWait(tp)` on a final `tp` keeps the invariant. -/
theorem chThdWaitWake (hi : Inv k) (hc : k.currp = some cur) (ht : tp < k.nthd)
    (hf : (k.thd tp).state = .final) : Inv (Ch.chThdWaitWake cfg cur tp k) := by
  unfold Ch.chThdWaitWake
  split
  · exact hi.setCtx hc (by simp) (by simp [ht, hf])
  · exact (hi.setCtx hc (by simp) (by simp)).record (by simp [Event.code, ht, hf])

/-- A newly created thread handed to `chSchWakeupS` keeps the invariant. -/
theorem wakeNew (hi : Inv k) (prio : Nat) {v : Int} :
    Inv (chSchReadyI k.nthd ((threadInit cfg k.nthd prio k.newThread).modThd k.nthd
      fun t => { t with u := v })) := by
  have hK : Inv (threadInit cfg k.nthd prio k.newThread) := hi.create prio
  have hw : ((threadInit cfg k.nthd prio k.newThread).thd k.nthd).state = .wtstart := by
    simp [threadInit_thd]
  exact hK.wake (R := (· = k.nthd)) (v := fun _ => v) (fun t => by simp; split <;> rfl)
    (fun t ht => .inl (ht ▸ hw)) rfl rfl (fun c t h => ⟨h, hK.cell_ne h (by simp [hw])⟩)
    (List.Sublist.refl _) (fun t ht e => by
      obtain ⟨⟨_, n⟩, hn, rfl⟩ := List.mem_map.mp ht
      exact hK.vt_ne hn (by simp [hw]) e) (.ready [_] rfl)

/-- A dispatch of a ready thread keeps the invariant. -/
theorem dispatch (hi : Inv k) (hc : k.currp = none) (ht : tp < k.nthd)
    (hr : (k.thd tp).state = .ready) : Inv (Ch.dispatch cfg tp k) := by
  have hK := hi.switchIn hc ht hr
  have hK' : ({ k.modThd tp (fun t => { t with state := .current }) with currp := some tp } :
      Kernel).currp = some tp := rfl
  simp only [Ch.dispatch]
  split
  · exact (hK.setCtx hK' (by simp) (by simp)).record (by simp [Event.code])
  · rename_i tq hctx
    obtain ⟨a, b⟩ := hK.wait_final tp ht tq hctx (by simp)
    exact hK.chThdWaitWake hK' a b
  · exact (hK.setCtx hK' (by simp) (by simp)).filterVt _
  · exact hK
  · exact hK

end Inv

/-- Every successful step keeps the invariant. -/
theorem StepOk.inv {a : Action} (hi : Inv k) (hs : StepOk cfg k a k') : Inv k' := by
  cases hs with
  | stutter => exact hi
  | createStatic => exact hi.wakeNew _
  | @start _ tp _ _ _ hw =>
    exact hi.wake (R := (· = tp)) (v := fun t => (k.thd t).u) (fun t => by simp)
      (fun t ht => .inl (ht ▸ hw)) rfl rfl (fun c t h => ⟨h, hi.cell_ne h (by simp [hw])⟩)
      (List.Sublist.refl _) (fun t ht e => by
        obtain ⟨⟨_, n⟩, hn, rfl⟩ := List.mem_map.mp ht
        exact hi.vt_ne hn (by simp [hw]) e) (.ready [_] rfl)
  | setPriority | setPriorityNoMutexes | terminate | inherit | disinherit | addRef =>
    exact hi.modThd (fun _ => rfl) (fun _ => rfl) (fun _ => rfl) (fun _ => rfl)
  | suspendS hc =>
    exact hi.block hc (fun t => rfl) rfl rfl (.inr ⟨rfl, _, rfl⟩) (.inl rfl)
      (.refl rfl) (by decide) (by decide) (by decide) (by simp) (by simp)
  | sleep hc _ _ hvt =>
    refine hi.block hc (fun t => rfl) rfl rfl (.inl rfl) ?_ (.refl rfl) (by decide) (by decide)
      (by decide) (by simp) (by simp)
    rcases hvt with rfl | ⟨n, rfl⟩
    · exact .inl rfl
    · exact .inr ⟨rfl, n, rfl⟩
  | @yield cur hc | @preempt cur hc =>
    have hs := hi.currp_state cur hc
    refine hi.block (s := .ready) (c := (k.thd cur).ctx) hc (fun t => ?_) rfl rfl
      (.inl rfl) (.inl rfl) (.ready [_] rfl) (by decide) (by decide) (by decide)
      (fun tp h => hi.wait_final cur (hi.currp_lt cur hc) tp h (by simp [hs]))
      (fun tp m h => hi.release_final cur (hi.currp_lt cur hc) tp m h)
    simp only [Ch.preempt, chThdYield, chSchDoYieldS, chSchReadyI, Kernel.record_thd,
      Kernel.modThd_thd]
    split
    · subst t; rfl
    · rfl
  | exit hc => exact hi.chThdExitS hc
  | waitSleep hc _ htp hne _ hf => exact hi.waitSleep hc htp hne hf
  | waitFinal hc _ htp _ _ hf => exact hi.chThdWaitWake hc htp hf
  | createI => exact hi.create _
  | @resumeI trp t0 msg ht0 hs =>
    refine hi.wake (R := (· = t0)) (v := fun _ => msg) (fun t => by simp; split <;> rfl)
      (fun t ht => .inr (.inl (ht ▸ hs))) rfl rfl (fun c t h => ?_) (List.Sublist.refl _)
      (fun t ht e => by
        obtain ⟨⟨_, n⟩, hn, rfl⟩ := List.mem_map.mp ht
        exact hi.vt_ne hn (by simp [hs]) e) (.ready [_] rfl)
    simp only [Kernel.setCell_cells, chSchReadyI, Kernel.record_cells, Kernel.modThd_cells] at h
    split at h
    · cases h
    · exact ⟨h, fun e => ‹¬c = trp› (hi.cell_inj c trp t0 (e ▸ h) ht0)⟩
  | @release cur tp m hc hctx _ =>
    obtain ⟨a, b, u⟩ := hi.release_final cur (hi.currp_lt cur hc) tp m hctx
    refine Inv.record ?_ (by simp [Event.code, a, b, u])
    exact (hi.setCtx hc (by simp) (by simp)).modThd (fun _ => rfl) (fun _ => rfl) (fun _ => rfl)
      (fun _ => rfl)
  | dispatch hc ht hr => exact hi.dispatch hc ht hr
  | tick =>
    obtain ⟨e1, e2, e3, e4⟩ := @chSysTimerHandlerI_frame cfg k
    have hex : ∀ t, t ∈ expiring k → ∃ m, (t, m) ∈ k.vtlist ∧ m - 1 = 0 := by
      intro t h
      simp only [expiring, List.mem_map, List.mem_filter, decide_eq_true_eq] at h
      obtain ⟨⟨_, _⟩, ⟨⟨⟨a, m⟩, hm, he⟩, hz⟩, rfl⟩ := h
      simp only [Prod.mk.injEq] at he
      obtain ⟨rfl, rfl⟩ := he
      exact ⟨m, hm, hz⟩
    refine hi.wake (R := (· ∈ expiring k)) (v := fun _ => cfg.rdyTimeout)
      (fun t => chSysTimerHandlerI_thd) (fun t ht => ?_) e1 e2 (fun c t h => ?_) ?_ (fun t h => ?_)
      (.ready _ chSysTimerHandlerI_log)
    · obtain ⟨m, hm, -⟩ := hex t ht
      exact .inr (.inr (hi.vt_sleeping t m hm).2)
    · rw [e3] at h
      exact ⟨h, fun ht => by
        obtain ⟨m, hm, -⟩ := hex t ht
        exact hi.vt_ne hm (by simp [(hi.cell_suspended c t h).2]) rfl⟩
    · rw [e4]
      refine ((List.filter_sublist _).map Prod.fst).trans ?_
      simp [List.map_map, Function.comp_def]
    · rw [e4] at h
      obtain ⟨⟨a, m⟩, hm, rfl⟩ := List.mem_map.mp h
      obtain ⟨hm, hz⟩ := List.mem_filter.mp hm
      obtain ⟨⟨b, n⟩, hn, he⟩ := List.mem_map.mp hm
      obtain ⟨rfl, rfl⟩ := Prod.mk.inj he
      intro ht
      obtain ⟨n', hn', hz'⟩ := hex _ ht
      have := (Prod.mk.inj (List.inj_on_of_nodup_map hi.vt_nodup hn hn' rfl)).2
      simp only [ne_eq, decide_eq_true_eq] at hz
      omega

/-- Every reachable state satisfies the invariant. -/
theorem Reach.inv {cfg : Config} {k : Kernel} (h : Reach cfg k) : Inv k := by
  induction h with
  | init mem prio => exact Inv.init mem prio
  | step a _ hs ih => exact (step_ok hs).inv ih

section Reachable

variable {cfg : Config} {k : Kernel}

/-- In every reachable state at most one thread runs: `currp` is NULL or a created thread, and a
created thread is in `CH_STATE_CURRENT` exactly when `currp` points to it. -/
theorem one_running (h : Reach cfg k) :
    (∀ t, k.currp = some t → t < k.nthd) ∧
    ∀ t < k.nthd, (k.thd t).state = .current ↔ k.currp = some t :=
  ⟨h.inv.currp_lt, fun t ht => ⟨h.inv.current_eq t ht, h.inv.currp_state t⟩⟩

theorem one_running_sample : Reach Config.full Kernel.sample ∧ Kernel.sample.nthd = 6 ∧
    Kernel.sample.currp = some 1 ∧
    ((∀ t, Kernel.sample.currp = some t → t < Kernel.sample.nthd) ∧
    ∀ t < Kernel.sample.nthd, (Kernel.sample.thd t).state = .current ↔ Kernel.sample.currp = some t) :=
  ⟨Reach.sample, by decide, by decide, one_running Reach.sample⟩

end Reachable

end Ch
