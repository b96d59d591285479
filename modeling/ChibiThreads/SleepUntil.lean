import ChibiThreads.Step
import Mathlib.Data.BitVec
import Mathlib.Tactic.Ring

/-!
# `chThdSleepUntil` on a wrapping system time

`systime_t` is an unsigned counter of `CH_CFG_ST_RESOLUTION` bits, so `time -= now` in
`chThdSleepUntil` is the difference modulo `2 ^ CH_CFG_ST_RESOLUTION`, and `> 0` on it holds for
every deadline other than `now`: a deadline already past is reached again when the counter wraps.

* `chThdSleepUntil_sleeps_mod`: the call returns at once exactly for the deadline `now`, sleeps
  with no timer for `now - 1`, and otherwise arms a timer of `(time - now) mod 2 ^ w` ticks; it
  never passes `TIME_IMMEDIATE` to `chThdSleepS`.
-/

namespace Ch

section Lemmas

variable {w : Nat}

/-- The unsigned order: a difference is above zero when it is not zero. -/
theorem BitVec.pos_iff_ne {d : BitVec w} : 0 < d ↔ d ≠ 0 := by
  rw [BitVec.lt_def, BitVec.toNat_ne]; simp; omega

/-- `2 ^ w - 1` is the all-ones word, `-1`. -/
theorem BitVec.ofNat_two_pow_sub_one : BitVec.ofNat w (2 ^ w - 1) = -1 := by
  rw [BitVec.toNat_eq, BitVec.toNat_ofNat, BitVec.toNat_neg]
  rcases Nat.eq_zero_or_pos w with rfl | hw
  · rfl
  · simp [Nat.mod_eq_of_lt (Nat.one_lt_two_pow_iff.mpr (by omega) : 1 < 2 ^ w)]

/-- On a word of at least one bit, one tick before a time is another time. -/
theorem BitVec.sub_one_ne_self (hw : 0 < w) (now : BitVec w) : now - 1 ≠ now := fun e => by
  have := congrArg BitVec.toNat (sub_eq_self.mp e)
  simp [Nat.mod_eq_of_lt (Nat.one_lt_two_pow_iff.mpr (by omega) : 1 < 2 ^ w)] at this

end Lemmas

variable {cfg : Config}

/-- With `TIME_IMMEDIATE = 0` and `TIME_INFINITE` all ones, `chThdSleepUntil(time)` returns at
once when `time` is `now`; it sleeps with no timer when `time` is `now - 1`; for every other
`time` it arms a timer of `time - now` ticks, modulo `2 ^ CH_CFG_ST_RESOLUTION`. -/
theorem chThdSleepUntil_sleeps_mod (himm : cfg.timeImmediate = 0)
    (hinf : cfg.timeInfinite = 2 ^ cfg.stResolution - 1) (cur : Nat)
    (time : BitVec cfg.stResolution) (k : Kernel) :
    (time = chVTGetSystemTimeX cfg k → chThdSleepUntil cfg cur time k = .ok k) ∧
    (time ≠ chVTGetSystemTimeX cfg k → time = chVTGetSystemTimeX cfg k - 1 →
      chThdSleepUntil cfg cur time k = .ok (chSchGoSleepS cur .sleeping .sleep k)) ∧
    (time ≠ chVTGetSystemTimeX cfg k → time ≠ chVTGetSystemTimeX cfg k - 1 →
      chThdSleepUntil cfg cur time k = .ok (chSchGoSleepS cur .sleeping .sleep
        { k with vtlist := k.vtlist ++ [(cur, (time - chVTGetSystemTimeX cfg k).toNat)] })) := by
  unfold chThdSleepUntil
  generalize chVTGetSystemTimeX cfg k = now
  refine ⟨fun h => by simp [h], fun h1 h2 => ?_, fun h1 h2 => ?_⟩ <;>
    have hd : time - now ≠ 0 := sub_ne_zero.mpr h1 <;>
    simp only [gt_iff_lt, if_pos (BitVec.pos_iff_ne.mpr hd), chThdSleepS, himm, hinf,
      BitVec.ofNat_two_pow_sub_one] <;>
    rw [if_neg (show ¬time - now = BitVec.ofNat _ 0 from hd)]
  · have hm : time - now = -1 := by rw [h2]; ring
    rw [if_pos hm]
  · have hm : time - now ≠ -1 := fun e => h2 (by rw [← sub_add_cancel time now, e]; ring)
    rw [if_neg hm]

end Ch
