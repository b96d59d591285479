import ChibiThreads.Step

/-!
# What a step can do

`StepOk cfg k a k'` lists, one constructor per branch of `step` and of the functions it calls,
every way a step `a` from `k` can succeed, with the guards that branch passed and the state it
leaves. `step_ok` proves that every successful step is one of them, so a property of all runs
is proved by cases on `StepOk`, without unfolding `step` again.
-/

namespace Ch

/-- The successful steps (module doc). -/
inductive StepOk (cfg : Config) (k : Kernel) : Action → Kernel → Prop where
  /-- The state does not change: an action that cannot happen, a resume of an empty thread
  reference object, a `chThdSleepUntil` that does not sleep. -/
  | stutter {a : Action} : StepOk cfg k a k
  | createStatic {cur wsp size prio pf arg : Nat} : k.currp = some cur →
      (k.thd cur).ctx = .user → prio ≤ cfg.highprio →
      StepOk cfg k (.call (.createStatic wsp size prio pf arg))
        (chSchReadyI k.nthd ((threadInit cfg k.nthd prio k.newThread).modThd k.nthd
          fun t => { t with u := cfg.rdyOk }))
  | start {cur tp : Nat} : k.currp = some cur → (k.thd cur).ctx = .user → tp < k.nthd →
      (k.thd tp).state = .wtstart → StepOk cfg k (.call (.start tp)) (chSchReadyI tp k)
  | setPriority {cur newprio : Nat} : k.currp = some cur → (k.thd cur).ctx = .user →
      newprio ≤ cfg.highprio → cfg.useMutexes →
      StepOk cfg k (.call (.setPriority newprio)) (k.modThd cur fun t => { t with
        prio := if t.prio = t.realprio ∨ newprio > t.prio then newprio else t.prio
        realprio := newprio })
  | setPriorityNoMutexes {cur newprio : Nat} : k.currp = some cur → (k.thd cur).ctx = .user →
      newprio ≤ cfg.highprio → cfg.useMutexes = false →
      StepOk cfg k (.call (.setPriority newprio)) (k.modThd cur fun t => { t with prio := newprio })
  | suspendS {cur trp : Nat} : k.currp = some cur → (k.thd cur).ctx = .user → k.cells trp = none →
      StepOk cfg k (.call (.suspendS trp))
        (chSchGoSleepS cur .suspended .suspend (k.setCell trp (some cur)))
  | terminate {cur tp : Nat} : k.currp = some cur → (k.thd cur).ctx = .user → tp < k.nthd →
      StepOk cfg k (.call (.terminate tp)) (chThdTerminate cfg tp k)
  | sleep {cur : Nat} {c : Call} {vt : List (Nat × Nat)} : k.currp = some cur →
      (k.thd cur).ctx = .user → (∃ n, c = .sleep n ∨ c = .sleepUntil n) →
      (vt = k.vtlist ∨ ∃ n, vt = k.vtlist ++ [(cur, n)]) →
      StepOk cfg k (.call c) (chSchGoSleepS cur .sleeping .sleep { k with vtlist := vt })
  | yield {cur : Nat} : k.currp = some cur → (k.thd cur).ctx = .user →
      StepOk cfg k (.call .yield) (chThdYield cur k)
  | exit {cur : Nat} {msg : Int} : k.currp = some cur → (k.thd cur).ctx = .user →
      StepOk cfg k (.call (.exit msg)) (chThdExitS cfg cur msg k)
  | waitSleep {cur tp : Nat} : k.currp = some cur → (k.thd cur).ctx = .user → tp < k.nthd →
      tp ≠ cur → ¬(cfg.useDynamic ∧ (k.thd tp).refs = 0) → (k.thd tp).state ≠ .final →
      StepOk cfg k (.call (.wait tp)) (chSchGoSleepS cur .wtexit (.wait tp)
        (k.modThd tp fun t => { t with waiting := listInsert cur t.waiting }))
  | waitFinal {cur tp : Nat} : k.currp = some cur → (k.thd cur).ctx = .user → tp < k.nthd →
      tp ≠ cur → ¬(cfg.useDynamic ∧ (k.thd tp).refs = 0) → (k.thd tp).state = .final →
      StepOk cfg k (.call (.wait tp)) (chThdWaitWake cfg cur tp k)
  | addRef {cur tp : Nat} : k.currp = some cur → (k.thd cur).ctx = .user → tp < k.nthd →
      StepOk cfg k (.call (.addRef tp)) (chThdAddRef tp k)
  | createI {wsp size prio pf arg : Nat} : prio ≤ cfg.highprio →
      StepOk cfg k (.createI wsp size prio pf arg) (threadInit cfg k.nthd prio k.newThread)
  | resumeI {trp t : Nat} {msg : Int} : k.cells trp = some t → (k.thd t).state = .suspended →
      StepOk cfg k (.resumeI trp msg)
        ((chSchReadyI t (k.modThd t fun r => { r with u := msg })).setCell trp none)
  | release {cur tp : Nat} {msg : Int} : k.currp = some cur → (k.thd cur).ctx = .release tp msg →
      0 < (k.thd tp).refs → StepOk cfg k .release (((k.modThd cur fun t => { t with ctx := .user }).modThd
        tp fun t => { t with refs := t.refs - 1 }).record (.waitRet cur tp msg))
  | preempt {cur : Nat} : k.currp = some cur → StepOk cfg k .preempt (preempt cur k)
  | dispatch {tp : Nat} : k.currp = none → tp < k.nthd → (k.thd tp).state = .ready →
      StepOk cfg k (.dispatch tp) (dispatch cfg tp k)
  | tick : StepOk cfg k .tick (chSysTimerHandlerI cfg k)
  | inherit {tp p : Nat} : cfg.useMutexes → tp < k.nthd →
      StepOk cfg k (.inherit tp p) (k.modThd tp fun t => { t with prio := max t.prio p })
  | disinherit {tp p : Nat} : cfg.useMutexes → tp < k.nthd →
      StepOk cfg k (.disinherit tp p) (k.modThd tp fun t => { t with prio := max t.realprio p })

section Lemmas

variable {cfg : Config} {k k' : Kernel} {cur : Nat}

theorem chThdSleepS_ok {time : BitVec cfg.stResolution} (h : chThdSleepS cfg cur time k = .ok k') :
    ∃ vt, (vt = k.vtlist ∨ ∃ n, vt = k.vtlist ++ [(cur, n)]) ∧
      k' = chSchGoSleepS cur .sleeping .sleep { k with vtlist := vt } := by
  unfold chThdSleepS at h
  split at h
  · cases h
  split at h <;> cases h
  · exact ⟨k.vtlist, .inl rfl, rfl⟩
  · exact ⟨_, .inr ⟨_, rfl⟩, rfl⟩

/-- A call of the running thread in its own code that succeeds is one of the call steps. -/
theorem call_ok (hc : k.currp = some cur) (hu : (k.thd cur).ctx = .user) {c : Call}
    (ht : ∀ tp ∈ c.target, tp < k.nthd) (h : c.run cfg cur k = .ok k') : StepOk cfg k (.call c) k' := by
  cases c with
  | createStatic wsp size prio pf arg =>
    simp only [Call.run, chThdCreateStatic, chThdCreateI] at h
    split at h
    · cases h
    · rename_i r hr
      split at hr <;> cases hr
      cases h
      rename_i hg
      exact .createStatic hc hu hg.2.2.1
  | start tp =>
    simp only [Call.run, chThdStart, chThdStartI] at h
    split at h <;> cases h
    exact .start hc hu (ht tp rfl) ‹_›
  | setPriority newprio =>
    simp only [Call.run, chThdSetPriority] at h
    split at h
    · split at h <;> cases h
      · exact .setPriority hc hu ‹_› ‹_›
      · exact .setPriorityNoMutexes hc hu ‹_› (by simpa using ‹¬cfg.useMutexes = true›)
    · cases h
  | suspendS trp =>
    simp only [Call.run, chThreadSuspendS] at h
    split at h <;> cases h
    exact .suspendS hc hu ‹_›
  | resumeS trp msg | resume trp msg =>
    simp only [Call.run, chThreadResume, chThreadResumeS] at h
    split at h
    · cases h; exact .stutter
    · split at h <;> simp [chSchWakeupS] at h
  | terminate tp => cases h; exact .terminate hc hu (ht tp rfl)
  | sleep time =>
    obtain ⟨vt, hvt, rfl⟩ := chThdSleepS_ok h
    exact .sleep hc hu ⟨_, .inl rfl⟩ hvt
  | sleepUntil time =>
    simp only [Call.run, chThdSleepUntil] at h
    split at h
    · obtain ⟨vt, hvt, rfl⟩ := chThdSleepS_ok h
      exact .sleep hc hu ⟨_, .inr rfl⟩ hvt
    · cases h; exact .stutter
  | yield => cases h; exact .yield hc hu
  | exit msg => cases h; exact .exit hc hu
  | wait tp =>
    simp only [Call.run, chThdWait] at h
    split at h
    · cases h
    split at h
    · cases h
    split at h <;> cases h
    · exact .waitSleep hc hu (ht tp rfl) ‹_› ‹_› ‹_›
    · exact .waitFinal hc hu (ht tp rfl) ‹_› ‹_› (not_not.mp ‹_›)
  | addRef tp => cases h; exact .addRef hc hu (ht tp rfl)

/-- Every successful step is one of `StepOk`. -/
theorem step_ok {a : Action} (h : step cfg k a = .ok k') : StepOk cfg k a k' := by
  cases a with
  | call c =>
    simp only [step] at h
    split at h
    · split at h
      · rename_i hg
        exact call_ok ‹_› hg.1 hg.2 h
      · cases h; exact .stutter
    · cases h; exact .stutter
  | createI wsp size prio pf arg =>
    simp only [step, chThdCreateI] at h
    split at h <;> cases h
    rename_i hg
    exact .createI hg.2.2.1
  | resumeI trp msg =>
    simp only [step, chThreadResumeI] at h
    split at h
    · cases h; exact .stutter
    · split at h <;> cases h
      exact .resumeI ‹_› ‹_›
  | release =>
    simp only [step] at h
    split at h
    · split at h
      · obtain ⟨hr, rfl⟩ := chThdWaitRelease_eq_ok.mp h
        exact .release ‹_› ‹_› hr
      · cases h; exact .stutter
    · cases h; exact .stutter
  | preempt =>
    simp only [step] at h
    split at h <;> cases h
    · exact .preempt ‹_›
    · exact .stutter
  | dispatch tp =>
    simp only [step] at h
    split at h <;> cases h
    · rename_i hg
      exact .dispatch hg.1 hg.2.1 hg.2.2
    · exact .stutter
  | tick => cases h; exact .tick
  | inherit tp p =>
    simp only [step] at h
    split at h <;> cases h
    · rename_i hg
      exact .inherit hg.1 hg.2
    · exact .stutter
  | disinherit tp p =>
    simp only [step] at h
    split at h <;> cases h
    · rename_i hg
      exact .disinherit hg.1 hg.2
    · exact .stutter

end Lemmas

end Ch
