import ChibiThreads.Lifecycle

/-!
# The kernel refines the thread lifecycle

What `chthreads.c` promises its callers about a thread is a life (spec §4.1): created and not
started (`chThdCreateI`), alive (after `chThdStart`, or at once with `chThdCreateStatic`), or
dead with the code it passed to `chThdExit`. `LifeStep` is that abstract machine, over the lives
of the threads created so far: a step spawns a thread, starts one, or ends one with a code.

* `lives`: the abstraction of a kernel state, the life of each created thread in creation order.
* `LifeStep.dead`: in the abstract machine a dead thread stays dead, with its code.
* `StepOk.life`: a kernel step changes the life of a thread only by starting it (the thread
  `chThdStart` names) or ending it (the running thread, by `chThdExitS`, with its `msg`);
  `StepOk.life_unique`: of one thread at most.
* `StepOk.refines`: every kernel step from a state of the invariant is one step of the abstract
  machine, the one its action names (`Emits`), or leaves every life as it was.
* `run_refines`: every run of the kernel from a reachable state is a run of the abstract machine.
-/

namespace Ch

/-! ## The abstract lifecycle -/

/-- The life of a thread, as the thread API shows it. -/
inductive Life where
  /-- Created and not started. -/
  | embryo
  /-- Started and not exited. -/
  | alive
  /-- Exited with `code`. -/
  | dead (code : Int)
  deriving DecidableEq, Repr

/-- What can happen to the lives of the threads. -/
inductive LifeEvent where
  /-- A thread is created and not started. -/
  | spawn
  /-- A thread is created and started. -/
  | spawnStarted
  /-- Thread `t` is started. -/
  | start (t : Nat)
  /-- Thread `t` exits with `code`. -/
  | exit (t : Nat) (code : Int)
  deriving DecidableEq, Repr

/-- The abstract machine, on the lives of the threads created so far, oldest first. -/
inductive LifeStep : List Life → LifeEvent → List Life → Prop where
  | spawn {s : List Life} : LifeStep s .spawn (s ++ [.embryo])
  | spawnStarted {s : List Life} : LifeStep s .spawnStarted (s ++ [.alive])
  | start {s : List Life} {t : Nat} : s[t]? = some .embryo → LifeStep s (.start t) (s.set t .alive)
  | exit {s : List Life} {t : Nat} {c : Int} : s[t]? = some .alive →
      LifeStep s (.exit t c) (s.set t (.dead c))

/-- In the abstract machine a dead thread stays dead, with its code. -/
theorem LifeStep.dead {s s' : List Life} {e : LifeEvent} {t : Nat} {c : Int} (h : LifeStep s e s')
    (hd : s[t]? = some (.dead c)) : s'[t]? = some (.dead c) := by
  have hl : t < s.length := (List.getElem?_eq_some_iff.mp hd).1
  cases h with
  | spawn | spawnStarted => rw [List.getElem?_append_left hl, hd]
  | start h | exit h =>
    rw [List.getElem?_set]
    split
    · subst_vars; simp [hd] at h
    · exact hd

/-! ## The abstraction of the kernel -/

/-- The life of a thread of the kernel. -/
def Thread.life (th : Thread) : Life :=
  match th.state with
  | .wtstart => .embryo
  | .final => .dead th.u
  | _ => .alive

theorem Thread.life_alive {th : Thread} (h1 : th.state ≠ .wtstart) (h2 : th.state ≠ .final) :
    th.life = .alive := by
  unfold Thread.life; split <;> simp_all

/-- The abstraction of a kernel state: the lives of its threads, in the order of creation. -/
def lives (k : Kernel) : List Life := (List.range k.nthd).map fun t => (k.thd t).life

variable {cfg : Config} {k k' : Kernel} {a : Action} {t : Nat}

theorem lives_getElem? (k : Kernel) (t : Nat) :
    (lives k)[t]? = if t < k.nthd then some (k.thd t).life else none := by
  split
  · simp [lives, List.getElem?_range ‹_›]
  · exact List.getElem?_eq_none (by simpa [lives] using Nat.le_of_not_lt ‹_›)

/-- A step that changes no life and creates no thread leaves the abstraction as it was. -/
theorem lives_eq (hn : k'.nthd = k.nthd) (h : ∀ t < k.nthd, (k'.thd t).life = (k.thd t).life) :
    lives k' = lives k :=
  List.ext_getElem? fun t => by
    rw [lives_getElem?, lives_getElem?, hn]; split <;> simp [h, *]

/-- A step that changes the life of thread `i` only. -/
theorem lives_set {i : Nat} (hn : k'.nthd = k.nthd) (hi : i < k.nthd)
    (h : ∀ t < k.nthd, t ≠ i → (k'.thd t).life = (k.thd t).life) :
    lives k' = (lives k).set i (k'.thd i).life :=
  List.ext_getElem? fun t => by
    rw [List.getElem?_set, lives_getElem?, lives_getElem?, hn]
    by_cases e : i = t
    · subst e; simp [hi, lives]
    · rw [if_neg e]; split <;> simp [h, Ne.symm e, *]

/-- A step that creates the next thread and changes no other life. -/
theorem lives_append (hn : k'.nthd = k.nthd + 1)
    (h : ∀ t < k.nthd, (k'.thd t).life = (k.thd t).life) :
    lives k' = lives k ++ [(k'.thd k.nthd).life] := by
  simp only [lives, hn, List.range_succ, List.map_append, List.map_singleton]
  exact congrArg (· ++ _) (List.map_congr_left fun t ht => h t (List.mem_range.mp ht))

/-! ## Refinement -/

/-- The event of the abstract machine that an action of the kernel performs, when it changes a
life: `chThdCreateI` spawns, `chThdCreateStatic` spawns started, `chThdStart(t)` starts `t`,
and `chThdExit(msg)` ends the running thread with `msg`. -/
inductive Emits (k : Kernel) : Action → LifeEvent → Prop where
  | createI {wsp size prio pf arg : Nat} : Emits k (.createI wsp size prio pf arg) .spawn
  | createStatic {wsp size prio pf arg : Nat} :
      Emits k (.call (.createStatic wsp size prio pf arg)) .spawnStarted
  | start {t : Nat} : Emits k (.call (.start t)) (.start t)
  | exit {t : Nat} {msg : Int} : k.currp = some t → Emits k (.call (.exit msg)) (.exit t msg)

/-- A kernel step changes the life of a created thread only by starting it, when the action is
`chThdStart` of that thread, or by ending it with `msg`, when it runs and calls
`chThdExit(msg)`. -/
theorem StepOk.life (hi : Inv k) (hs : StepOk cfg k a k') (ht : t < k.nthd) :
    (k'.thd t).life = (k.thd t).life ∨
    a = .call (.start t) ∧ (k.thd t).life = .embryo ∧ (k'.thd t).life = .alive ∨
    ∃ msg, a = .call (.exit msg) ∧ k.currp = some t ∧ (k.thd t).life = .alive ∧
      (k'.thd t).life = .dead msg := by
  by_cases hx : ∃ msg, a = .call (.exit msg)
  · obtain ⟨msg, rfl⟩ := hx
    cases hs with
    | stutter => exact .inl rfl
    | sleep _ _ hc => obtain ⟨_, h | h⟩ := hc <;> cases h
    | @exit cur _ hc _ =>
      have hcs := hi.currp_state cur hc
      by_cases e : t = cur
      · subst e
        exact .inr (.inr ⟨msg, rfl, hc, Thread.life_alive (by simp [hcs]) (by simp [hcs]),
          by simp [chThdExitS_thd, Thread.life]⟩)
      · refine .inl ?_
        by_cases hw : t ∈ (k.thd cur).waiting
        · have := (hi.waiting_wtexit cur (hi.currp_lt cur hc) t hw).2.1
          rw [Thread.life_alive (by simp [chThdExitS_thd, e, hw]) (by simp [chThdExitS_thd, e, hw]),
            Thread.life_alive (by simp [this]) (by simp [this])]
        · simp [chThdExitS_thd, e, hw]
  have hx' : ∀ msg, a ≠ .call (.exit msg) := fun msg e => hx ⟨msg, e⟩
  by_cases hf : (k.thd t).state = .final
  · obtain ⟨h1, h2⟩ := hs.final hi ht hf
    exact .inl (by simp [Thread.life, hf, h1, h2])
  have hf' : (k'.thd t).state ≠ .final := fun h => hf ((hs.final_iff hi hx' ht).mp h)
  -- neither side is final: the life is `embryo` or `alive` as the state is `CH_STATE_WTSTART` or not
  have alive := fun (h1 : (k'.thd t).state ≠ .wtstart) (h2 : (k.thd t).state ≠ .wtstart) =>
    (Thread.life_alive h1 hf').trans (Thread.life_alive h2 hf).symm
  cases hs.change hi ht with
  | same e =>
    by_cases hw : (k.thd t).state = .wtstart
    · exact .inl (by simp [Thread.life, hw, e])
    · exact .inl (alive (by rwa [e]) hw)
  | running hc hw => exact .inl (alive hw (by simp [hi.currp_state t hc]))
  | dispatch hr hcur => exact .inl (alive (by simp [hcur]) (by simp [hr]))
  | woken w hr =>
    cases w with
    | start hw =>
      exact .inr (.inl ⟨rfl, by simp [Thread.life, hw], Thread.life_alive (by simp [hr]) hf'⟩)
    | resumeI hc => exact .inl (alive (by simp [hr]) (by simp [(hi.cell_suspended _ _ hc).2]))
    | timeout hsl => exact .inl (alive (by simp [hr]) (by simp [hsl]))
    | exit => exact absurd rfl (hx' _)

/-- A kernel step changes the life of one thread at most. -/
theorem StepOk.life_unique (hi : Inv k) (hs : StepOk cfg k a k') {t t' : Nat} (ht : t < k.nthd)
    (ht' : t' < k.nthd) (h : (k'.thd t).life ≠ (k.thd t).life)
    (h' : (k'.thd t').life ≠ (k.thd t').life) : t = t' := by
  rcases hs.life hi ht with e | ⟨rfl, -⟩ | ⟨_, rfl, hc, -⟩
  · exact absurd e h
  all_goals rcases hs.life hi ht' with e' | ⟨e', -⟩ | ⟨_, e', hc', -⟩
  · exact absurd e' h'
  · cases e'; rfl
  · cases e'
  · exact absurd e' h'
  · cases e'
  · exact Option.some.inj (hc.symm.trans hc')

/-- Every kernel step from a state of the invariant is one step of the abstract lifecycle, the
one its action names, or changes no life: the kernel performs the lifecycle events one at a time,
and only through `chThdCreateI`, `chThdCreateStatic`, `chThdStart` and `chThdExitS`. -/
theorem StepOk.refines (hi : Inv k) (hs : StepOk cfg k a k') :
    lives k' = lives k ∨ ∃ e, Emits k a e ∧ LifeStep (lives k) e (lives k') := by
  -- the threads a step does not create keep their lives, unless it starts or ends them
  have keep : (∀ t, a ≠ .call (.start t)) → (∀ msg, a ≠ .call (.exit msg)) →
      ∀ t < k.nthd, (k'.thd t).life = (k.thd t).life := fun hst hx t ht => by
    rcases hs.life hi ht with e | ⟨e, -⟩ | ⟨msg, e, -⟩
    · exact e
    · exact absurd e (hst t)
    · exact absurd e (hx msg)
  rcases hs.created with hn | ⟨hn, ⟨hw, _, _, _, _, _, rfl⟩ | ⟨hr, _, _, _, _, _, rfl⟩⟩
  · by_cases hch : ∀ t < k.nthd, (k'.thd t).life = (k.thd t).life
    · exact .inl (lives_eq hn hch)
    push_neg at hch
    obtain ⟨t, ht, hne⟩ := hch
    -- `t` is the one thread whose life changes
    rw [lives_set hn ht fun t' ht' e' =>
      Decidable.byContradiction fun h => e' (hs.life_unique hi ht' ht h hne)]
    rcases hs.life hi ht with e | ⟨rfl, he, ha⟩ | ⟨msg, rfl, hc, he, hd⟩
    · exact absurd e hne
    · rw [ha]; exact .inr ⟨_, .start, .start (by simp [lives_getElem?, ht, he])⟩
    · rw [hd]; exact .inr ⟨_, .exit hc, .exit (by simp [lives_getElem?, ht, he])⟩
  · refine .inr ⟨_, .createI, ?_⟩
    rw [lives_append hn (keep (fun _ => nofun) (fun _ => nofun)), show (k'.thd k.nthd).life = .embryo
      by simp [Thread.life, hw]]
    exact .spawn
  · refine .inr ⟨_, .createStatic, ?_⟩
    rw [lives_append hn (keep (fun _ => nofun) (fun _ => nofun)),
      Thread.life_alive (by simp [hr]) (by simp [hr])]
    exact .spawnStarted

/-- Every step of the kernel from a reachable state is one step of the abstract lifecycle, the
one its action names, or changes no life. -/
theorem step_refines (h : Reach cfg k) (hs : step cfg k a = .ok k') :
    lives k' = lives k ∨ ∃ e, Emits k a e ∧ LifeStep (lives k) e (lives k') :=
  (step_ok hs).refines h.inv

theorem step_refines_sample : ∃ k', Reach Config.full Kernel.sample ∧
    Ch.step Config.full Kernel.sample (.call (.exit 7)) = .ok k' ∧
    (lives k' = lives Kernel.sample ∨
      ∃ e, Emits Kernel.sample (.call (.exit 7)) e ∧ LifeStep (lives Kernel.sample) e (lives k')) :=
  ⟨_, Reach.sample, rfl, step_refines Reach.sample rfl⟩

/-- Every run of the kernel from a reachable state is a run of the abstract lifecycle. -/
theorem run_refines {as : List Action} (h : Reach cfg k) (hr : run cfg k as = .ok k') :
    Relation.ReflTransGen (fun s s' => ∃ e, LifeStep s e s') (lives k) (lives k') :=
  run_rel (I := Reach cfg)
    (R := fun k k' => Relation.ReflTransGen (fun s s' => ∃ e, LifeStep s e s') (lives k) (lives k'))
    (fun hk hs => hk.step _ hs) (fun _ => .refl) (fun h₁ h₂ => h₁.trans h₂)
    (fun hk hs => by
      rcases (step_ok hs).refines hk.inv with e | ⟨e, -, hl⟩
      · exact e ▸ .refl
      · exact .single ⟨e, hl⟩) h hr

theorem run_refines_sample : ∃ k', Reach Config.full Kernel.sample ∧
    run Config.full Kernel.sample [.call (.exit 7), .dispatch 0, .release, .tick] = .ok k' ∧
    Relation.ReflTransGen (fun s s' => ∃ e, LifeStep s e s') (lives Kernel.sample) (lives k') :=
  ⟨_, Reach.sample, rfl, run_refines Reach.sample (show run Config.full Kernel.sample
    [.call (.exit 7), .dispatch 0, .release, .tick] = .ok _ from rfl)⟩

end Ch
