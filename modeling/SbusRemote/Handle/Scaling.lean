import SbusRemote.Core.DeadBand
import SbusRemote.Handle.Msg

/-!
# The stick scaling

`normalize` is the exact scaling with a dead band, truncated to hundredths (`normalize_eq_scale`).
So it inherits what truncation toward zero keeps of the exact map: the order of two stick
positions, the value 0 on the dead zone and the limits on the travel; it is never larger in
magnitude and less than 0.01 away (`stick_scaling`).
-/

namespace SbusRemote

/-- The travel of a stick from `min` to `max`, with the dead zone around 992. -/
def stickTravel {min max : ℤ} (hmin : min < 792) (hmax : 1192 < max) : DeadBand.Travel ℚ where
  start := min
  lower := 992 - deadZone
  upper := 992 + deadZone
  stop := max
  start_lt := by
    have : (min : ℚ) < 792 := by exact_mod_cast hmin
    norm_num [deadZone]
    linarith
  lower_le := by norm_num [deadZone]
  lt_stop := by
    have : (1192 : ℚ) < max := by exact_mod_cast hmax
    norm_num [deadZone]
    linarith

section

variable {min max : ℤ}

@[simp] lemma stickTravel_lower (hmin : min < 792) (hmax : 1192 < max) :
    (stickTravel hmin hmax).lower = 792 := by
  norm_num [stickTravel, deadZone]

@[simp] lemma stickTravel_upper (hmin : min < 792) (hmax : 1192 < max) :
    (stickTravel hmin hmax).upper = 1192 := by
  norm_num [stickTravel, deadZone]

/-- **`normalize` is the exact scaling, truncated.** -/
theorem normalize_eq_scale (hmin : min < 792) (hmax : 1192 < max) (v : ℤ) (minLim maxLim : ℚ) :
    normalize v minLim maxLim min max
      = Truncate.hundredths ((stickTravel hmin hmax).scale minLim maxLim v) := by
  by_cases hlow : v < 792
  · have hv : (v : ℚ) ≤ 792 := by exact_mod_cast hlow.le
    rw [normalize, deadZone, if_pos (by omega),
      DeadBand.scale_below _ (by rwa [stickTravel_lower]), stickTravel_lower]
    congr 1
    simp only [stickTravel]
    push_cast
    ring
  · by_cases hhigh : 1192 < v
    · have hv : (1192 : ℚ) ≤ v := by exact_mod_cast hhigh.le
      rw [normalize, deadZone, if_neg (by omega), if_pos (by omega),
        DeadBand.scale_above _ (by rwa [stickTravel_upper]), stickTravel_upper]
      congr 1
      simp only [stickTravel]
      push_cast
      ring
    · have h₁ : (792 : ℚ) ≤ v := by exact_mod_cast not_lt.mp hlow
      have h₂ : (v : ℚ) ≤ 1192 := by exact_mod_cast not_lt.mp hhigh
      rw [normalize_deadZone (by omega) (by omega),
        DeadBand.scale_band _ (by rwa [stickTravel_lower]) (by rwa [stickTravel_upper]),
        Truncate.hundredths_zero]

/-- With its limits on either side of 0 the scaling is monotone. -/
lemma normalize_mono (hmin : min < 792) (hmax : 1192 < max) {minLim maxLim : ℚ}
    (h₀ : minLim ≤ 0) (h₁ : 0 ≤ maxLim) {v w : ℤ} (hvw : v ≤ w) :
    normalize v minLim maxLim min max ≤ normalize w minLim maxLim min max := by
  rw [normalize_eq_scale hmin hmax, normalize_eq_scale hmin hmax]
  exact Truncate.hundredths_mono (DeadBand.scale_mono _ h₀ h₁ (Int.cast_le.mpr hvw))

/-- On the travel the scaling stays between its limits. -/
lemma normalize_mem_Icc (hmin : min < 792) (hmax : 1192 < max) {minLim maxLim : ℚ}
    (h₀ : minLim ≤ 0) (h₁ : 0 ≤ maxLim) {v : ℤ} (hv₀ : min ≤ v) (hv₁ : v ≤ max) :
    normalize v minLim maxLim min max ∈ Set.Icc minLim maxLim := by
  rw [normalize_eq_scale hmin hmax]
  exact Truncate.hundredths_mem_Icc h₀ h₁
    (DeadBand.scale_mem_Icc _ h₀ h₁ ⟨Int.cast_le.mpr hv₀, Int.cast_le.mpr hv₁⟩)

end

/-- **The stick scaling law.**  The scaling follows the stick, upward or downward as its limits
say, is 0 on the dead zone, stays between its limits on the travel, and is the exact scaling up to
less than 0.01, on the side of 0. -/
theorem stick_scaling {min max : ℤ} (hmin : min < 792) (hmax : 1192 < max) (minLim maxLim : ℚ) :
    (minLim ≤ 0 → 0 ≤ maxLim →
      (∀ v w : ℤ, v ≤ w →
        normalize v minLim maxLim min max ≤ normalize w minLim maxLim min max) ∧
      ∀ v : ℤ, min ≤ v → v ≤ max →
        normalize v minLim maxLim min max ∈ Set.Icc minLim maxLim) ∧
    (0 ≤ minLim → maxLim ≤ 0 →
      (∀ v w : ℤ, v ≤ w →
        normalize w minLim maxLim min max ≤ normalize v minLim maxLim min max) ∧
      ∀ v : ℤ, min ≤ v → v ≤ max →
        normalize v minLim maxLim min max ∈ Set.Icc maxLim minLim) ∧
    (∀ v : ℤ, 792 ≤ v → v ≤ 1192 → normalize v minLim maxLim min max = 0) ∧
    ∀ v : ℤ, |normalize v minLim maxLim min max|
        ≤ |(stickTravel hmin hmax).scale minLim maxLim v| ∧
      |normalize v minLim maxLim min max - (stickTravel hmin hmax).scale minLim maxLim v|
        < 1 / 100 := by
  refine ⟨fun h₀ h₁ => ⟨fun v w hvw => normalize_mono hmin hmax h₀ h₁ hvw,
    fun v hv₀ hv₁ => normalize_mem_Icc hmin hmax h₀ h₁ hv₀ hv₁⟩,
    fun h₀ h₁ => ⟨fun v w hvw => ?_, fun v hv₀ hv₁ => ?_⟩, fun v hv₀ hv₁ => ?_, fun v => ?_⟩
  · have hneg := normalize_mono hmin hmax (neg_nonpos.mpr h₀) (neg_nonneg.mpr h₁) hvw
    rwa [normalize_neg, normalize_neg, neg_le_neg_iff] at hneg
  · have hneg := normalize_mem_Icc hmin hmax (neg_nonpos.mpr h₀) (neg_nonneg.mpr h₁) hv₀ hv₁
    rw [normalize_neg, Set.mem_Icc, neg_le_neg_iff, neg_le_neg_iff] at hneg
    exact ⟨hneg.2, hneg.1⟩
  · exact normalize_deadZone hv₀ hv₁ minLim maxLim min max
  · rw [normalize_eq_scale hmin hmax]
    exact ⟨Truncate.abs_hundredths_le _, Truncate.abs_hundredths_sub_lt _⟩

/-- The sideways stick, whose limits come with the signs swapped: to the right is never faster to
the left, and the whole travel stays within 0.8. -/
theorem stick_scaling_sideways :
    (∀ v w : ℤ, v ≤ w → normalize w 0.8 (-0.8) 272 1712 ≤ normalize v 0.8 (-0.8) 272 1712) ∧
    ∀ v : ℤ, 272 ≤ v → v ≤ 1712 →
      normalize v 0.8 (-0.8) 272 1712 ∈ Set.Icc (-0.8 : ℚ) 0.8 :=
  (stick_scaling (by norm_num) (by norm_num) 0.8 (-0.8)).2.1 (by norm_num) (by norm_num)

end SbusRemote
