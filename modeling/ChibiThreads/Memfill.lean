import ChibiThreads.Step

/-!
# The working-area fill of `CH_DBG_FILL_THREADS`

With `CH_DBG_FILL_THREADS`, `chThdCreateStatic` fills the working area before it creates the
thread: the `thread_t` at its bottom with `CH_DBG_THREAD_FILL_VALUE` and the stack above it with
`CH_DBG_STACK_FILL_VALUE`, by two calls of `_thread_memfill`. Memory is a map from addresses to
bytes; a working area does not wrap around the address space, so addresses are natural numbers.

* `threadMemfill_apply`: `_thread_memfill(startp, endp, v)` ends with `v` in exactly the bytes of
  `[startp, endp)`.
* `chThdCreateStaticFill_apply`: what the two calls write, for every size.
* `chThdCreateStatic_fill_exact`: for a size `chThdCreateI` accepts, the two calls cover the
  working area exactly.
* `chThdCreateStaticMem_fill_before_check`: the fill comes before the checks of `chThdCreateI`,
  so a working area too small for a `thread_t` is written past its end before the kernel halts.
-/

namespace Ch

/-- `_thread_memfill(startp, endp, v)`: `while (startp < endp) *startp++ = v;`. -/
def threadMemfill (startp endp : Nat) (v : UInt8) (mem : Nat → UInt8) : Nat → UInt8 :=
  if startp < endp then threadMemfill (startp + 1) endp v (Function.update mem startp v) else mem
termination_by endp - startp

/-- Modelled from the spec: the constants of `CH_DBG_FILL_THREADS` (`chdebug.h` and
`chthreads.h` are not in `src/`). `THD_WA_SIZE(0)`, the least working area `chThdCreateI`
accepts, holds a `thread_t` and a stack (§4.2), so it is at least `sizeof(thread_t)`. -/
structure FillConfig (cfg : Config) where
  /-- `sizeof(thread_t)`. -/
  threadSize : Nat
  /-- `CH_DBG_THREAD_FILL_VALUE`. -/
  threadFillValue : UInt8
  /-- `CH_DBG_STACK_FILL_VALUE`. -/
  stackFillValue : UInt8
  threadSize_le : threadSize ≤ cfg.waSize0

variable {cfg : Config}

/-- The `CH_DBG_FILL_THREADS` part of `chThdCreateStatic(wsp, size, ...)`. -/
def chThdCreateStaticFill (fc : FillConfig cfg) (wsp size : Nat) (mem : Nat → UInt8) :
    Nat → UInt8 :=
  threadMemfill (wsp + fc.threadSize) (wsp + size) fc.stackFillValue
    (threadMemfill wsp (wsp + fc.threadSize) fc.threadFillValue mem)

/-- `chThdCreateStatic(wsp, size, prio, pf, arg)` on the memory and the kernel: with
`CH_DBG_FILL_THREADS` (`fill = some fc`) the working area is filled first, before
`chThdCreateI` checks its arguments. -/
def chThdCreateStaticMem (cfg : Config) (fill : Option (FillConfig cfg))
    (wsp size prio pf arg : Nat) (mem : Nat → UInt8) (k : Kernel) :
    (Nat → UInt8) × Except Halt (Nat × Kernel) :=
  (match fill with
    | some fc => chThdCreateStaticFill fc wsp size mem
    | none => mem,
   chThdCreateStatic cfg wsp size prio pf arg k)

/-- `_thread_memfill(startp, endp, v)` ends with `v` in the bytes of `[startp, endp)` and every
other byte as it was. -/
theorem threadMemfill_apply (startp endp : Nat) (v : UInt8) (mem : Nat → UInt8) (a : Nat) :
    threadMemfill startp endp v mem a = if startp ≤ a ∧ a < endp then v else mem a := by
  induction startp, endp, v, mem using threadMemfill.induct with
  | case1 startp endp v mem h ih =>
    rw [threadMemfill, if_pos h, ih, Function.update_apply]
    split_ifs <;> first | rfl | omega
  | case2 startp endp v mem h =>
    rw [threadMemfill, if_neg h, if_neg (by omega)]

/-- The two fills of `chThdCreateStatic`, for every size: `CH_DBG_STACK_FILL_VALUE` from
`wsp + sizeof(thread_t)` to `wsp + size`, `CH_DBG_THREAD_FILL_VALUE` from `wsp` to
`wsp + sizeof(thread_t)`, the rest as it was. -/
theorem chThdCreateStaticFill_apply (fc : FillConfig cfg) (wsp size : Nat) (mem : Nat → UInt8)
    (a : Nat) : chThdCreateStaticFill fc wsp size mem a =
      if wsp + fc.threadSize ≤ a ∧ a < wsp + size then fc.stackFillValue
      else if wsp ≤ a ∧ a < wsp + fc.threadSize then fc.threadFillValue else mem a := by
  rw [chThdCreateStaticFill, threadMemfill_apply, threadMemfill_apply]

/-- With `CH_DBG_FILL_THREADS` and a working area of at least `THD_WA_SIZE(0)` bytes, the two
calls of `_thread_memfill` in `chThdCreateStatic` put `CH_DBG_THREAD_FILL_VALUE` in the bytes of
the `thread_t`, `CH_DBG_STACK_FILL_VALUE` in the rest of the working area, and write no byte
outside it; and every `_thread_memfill(startp, endp, v)` ends with `v` in exactly the bytes of
`[startp, endp)`, in none when `endp ≤ startp`. -/
theorem chThdCreateStatic_fill_exact (fc : FillConfig cfg) (wsp size : Nat)
    (hs : cfg.waSize0 ≤ size) (prio pf arg : Nat) (mem : Nat → UInt8) (k : Kernel) :
    (∀ a, wsp ≤ a → a < wsp + fc.threadSize →
      (chThdCreateStaticMem cfg (some fc) wsp size prio pf arg mem k).1 a = fc.threadFillValue) ∧
    (∀ a, wsp + fc.threadSize ≤ a → a < wsp + size →
      (chThdCreateStaticMem cfg (some fc) wsp size prio pf arg mem k).1 a = fc.stackFillValue) ∧
    (∀ a, a < wsp ∨ wsp + size ≤ a →
      (chThdCreateStaticMem cfg (some fc) wsp size prio pf arg mem k).1 a = mem a) ∧
    ∀ startp endp v (m : Nat → UInt8),
      (∀ a, threadMemfill startp endp v m a = if startp ≤ a ∧ a < endp then v else m a) ∧
      (endp ≤ startp → threadMemfill startp endp v m = m) := by
  have hts := fc.threadSize_le
  simp only [chThdCreateStaticMem, chThdCreateStaticFill_apply]
  refine ⟨fun a h1 h2 => ?_, fun a h1 h2 => if_pos ⟨h1, h2⟩, fun a h => ?_,
    fun startp endp v m => ⟨threadMemfill_apply startp endp v m, fun h => funext fun a => ?_⟩⟩
  · rw [if_neg (by omega), if_pos ⟨h1, h2⟩]
  · rw [if_neg (by omega), if_neg (by omega)]
  · rw [threadMemfill_apply, if_neg (by omega)]

/-- `Config.full` with a least working area of 96 bytes, and the fills for a `thread_t` of 80. -/
def FillConfig.sample : FillConfig { Config.full with waSize0 := 96 } :=
  { threadSize := 80, threadFillValue := 0xFF, stackFillValue := 0x55, threadSize_le := by decide }

theorem chThdCreateStatic_fill_exact_sample :
    ({ Config.full with waSize0 := 96 } : Config).waSize0 ≤ 128 ∧
    ((∀ a, 4096 ≤ a → a < 4096 + FillConfig.sample.threadSize →
      (chThdCreateStaticMem _ (some FillConfig.sample) 4096 128 1 1 0 (fun _ => 0)
        Kernel.boot).1 a = FillConfig.sample.threadFillValue) ∧
    (∀ a, 4096 + FillConfig.sample.threadSize ≤ a → a < 4096 + 128 →
      (chThdCreateStaticMem _ (some FillConfig.sample) 4096 128 1 1 0 (fun _ => 0)
        Kernel.boot).1 a = FillConfig.sample.stackFillValue) ∧
    (∀ a, a < 4096 ∨ 4096 + 128 ≤ a →
      (chThdCreateStaticMem _ (some FillConfig.sample) 4096 128 1 1 0 (fun _ => 0)
        Kernel.boot).1 a = 0) ∧
    ∀ startp endp v (m : Nat → UInt8),
      (∀ a, threadMemfill startp endp v m a = if startp ≤ a ∧ a < endp then v else m a) ∧
      (endp ≤ startp → threadMemfill startp endp v m = m)) :=
  ⟨by decide,
    chThdCreateStatic_fill_exact FillConfig.sample 4096 128 (by decide) 1 1 0 (fun _ => 0)
      Kernel.boot⟩

/-- The fill comes before `chThdCreateI` checks the size: for a working area smaller than a
`thread_t`, which `chThdCreateI` rejects, the kernel halts, and the bytes from `wsp + size` to
`wsp + sizeof(thread_t)`, past the end of the working area, have been written. -/
theorem chThdCreateStaticMem_fill_before_check (fc : FillConfig cfg) {wsp size : Nat}
    (hs : size < fc.threadSize) (prio pf arg : Nat) (mem : Nat → UInt8) (k : Kernel) :
    (chThdCreateStaticMem cfg (some fc) wsp size prio pf arg mem k).2 =
      .error (.check "chThdCreateI") ∧
    ∀ a, wsp + size ≤ a → a < wsp + fc.threadSize →
      (chThdCreateStaticMem cfg (some fc) wsp size prio pf arg mem k).1 a = fc.threadFillValue := by
  have hle : ¬cfg.waSize0 ≤ size := by have := fc.threadSize_le; omega
  refine ⟨by simp [chThdCreateStaticMem, chThdCreateStatic, chThdCreateI, hle], fun a h1 h2 => ?_⟩
  simp only [chThdCreateStaticMem, chThdCreateStaticFill_apply]
  rw [if_neg (by omega), if_pos ⟨by omega, h2⟩]

theorem chThdCreateStaticMem_fill_before_check_sample : 16 < FillConfig.sample.threadSize ∧
    (chThdCreateStaticMem _ (some FillConfig.sample) 4096 16 1 1 0 (fun _ => 0) Kernel.boot).2 =
      .error (.check "chThdCreateI") ∧
    ∀ a, 4096 + 16 ≤ a → a < 4096 + FillConfig.sample.threadSize →
      (chThdCreateStaticMem _ (some FillConfig.sample) 4096 16 1 1 0 (fun _ => 0)
        Kernel.boot).1 a = FillConfig.sample.threadFillValue :=
  ⟨by decide, chThdCreateStaticMem_fill_before_check FillConfig.sample (by decide) 1 1 0
    (fun _ => 0) Kernel.boot⟩

end Ch
