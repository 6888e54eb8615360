import Mathlib.Algebra.Order.Field.Basic
import Mathlib.Order.Interval.Set.Basic
import Mathlib.Tactic.FieldSimp
import Mathlib.Tactic.GCongr
import Mathlib.Tactic.Ring

/-!
# Scaling with a dead band

A control that travels from `start` to `stop` and does nothing on a band in between.  `scale` is
the piecewise linear map that sends `start` to one limit, the band to 0 and `stop` to the other
limit; both lines go on beyond the travel.

* `scale_start`, `scale_band`, `scale_stop` — what the map is determined by, with `scale_below` and
  `scale_above` for the two lines.
* `scale_mono`, `scale_mem_Icc` — with a limit on either side of 0 it is monotone, and on the travel
  it stays between its limits.
-/

namespace DeadBand

/-- A travel with a dead band `[lower, upper]` strictly inside it. -/
structure Travel (K : Type*) [Preorder K] where
  start : K
  lower : K
  upper : K
  stop : K
  start_lt : start < lower
  lower_le : lower ≤ upper
  lt_stop : upper < stop

variable {K : Type*} [Field K] [LinearOrder K] [IsStrictOrderedRing K] (t : Travel K) {x y₀ y₁ : K}

/-- The scaling with limits `y₀` at the start and `y₁` at the stop. -/
def Travel.scale (y₀ y₁ x : K) : K :=
  y₀ * (max (t.lower - x) 0 / (t.lower - t.start)) + y₁ * (max (x - t.upper) 0 / (t.stop - t.upper))

lemma scale_below (h : x ≤ t.lower) :
    t.scale y₀ y₁ x = y₀ * ((t.lower - x) / (t.lower - t.start)) := by
  rw [Travel.scale, max_eq_left (sub_nonneg.mpr h),
    max_eq_right (sub_nonpos.mpr (h.trans t.lower_le)), zero_div, mul_zero, add_zero]

lemma scale_above (h : t.upper ≤ x) :
    t.scale y₀ y₁ x = y₁ * ((x - t.upper) / (t.stop - t.upper)) := by
  rw [Travel.scale, max_eq_left (sub_nonneg.mpr h),
    max_eq_right (sub_nonpos.mpr (t.lower_le.trans h)), zero_div, mul_zero, zero_add]

lemma scale_start : t.scale y₀ y₁ t.start = y₀ := by
  rw [scale_below t t.start_lt.le, div_self (sub_pos.mpr t.start_lt).ne', mul_one]

lemma scale_stop : t.scale y₀ y₁ t.stop = y₁ := by
  rw [scale_above t t.lt_stop.le, div_self (sub_pos.mpr t.lt_stop).ne', mul_one]

lemma scale_band (h₁ : t.lower ≤ x) (h₂ : x ≤ t.upper) : t.scale y₀ y₁ x = 0 := by
  rw [Travel.scale, max_eq_right (sub_nonpos.mpr h₁), max_eq_right (sub_nonpos.mpr h₂)]
  simp

/-- **Pushing further never scales to less**, with the limits on either side of 0. -/
theorem scale_mono (h₀ : y₀ ≤ 0) (h₁ : 0 ≤ y₁) : Monotone (t.scale y₀ y₁) := by
  intro x x' hx
  have hlower := sub_pos.mpr t.start_lt
  have hupper := sub_pos.mpr t.lt_stop
  have below : max (t.lower - x') 0 / (t.lower - t.start)
      ≤ max (t.lower - x) 0 / (t.lower - t.start) := by gcongr
  have above : max (x - t.upper) 0 / (t.stop - t.upper)
      ≤ max (x' - t.upper) 0 / (t.stop - t.upper) := by gcongr
  exact add_le_add (mul_le_mul_of_nonpos_left below h₀) (mul_le_mul_of_nonneg_left above h₁)

/-- On the travel the scaling stays between its limits. -/
theorem scale_mem_Icc (h₀ : y₀ ≤ 0) (h₁ : 0 ≤ y₁) (hx : x ∈ Set.Icc t.start t.stop) :
    t.scale y₀ y₁ x ∈ Set.Icc y₀ y₁ := by
  have hmono := scale_mono t h₀ h₁
  refine ⟨?_, ?_⟩
  · simpa only [scale_start] using hmono hx.1
  · simpa only [scale_stop] using hmono hx.2

end DeadBand
