import Mathlib.Algebra.Order.Floor.Ring
import Mathlib.Data.Rat.Floor
import Mathlib.Tactic.Linarith
import Mathlib.Tactic.Positivity
import Mathlib.Tactic.FieldSimp
import Mathlib.Tactic.Ring

/-!
# Truncation toward zero

`static_cast<int>` on an exact value drops the fraction, and scaling by 100 before and after it
rounds to hundredths.  Both move a value toward zero and never across it, which is all that the
range and sign arguments need.
-/

namespace Truncate

/-- The conversion to `int`: toward zero. -/
def toInt (q : ℚ) : ℤ := q.num.tdiv q.den

lemma toInt_of_nonneg {q : ℚ} (h : 0 ≤ q) : toInt q = ⌊q⌋ := by
  rw [toInt, Rat.floor_def', Int.tdiv_eq_ediv_of_nonneg (Rat.num_nonneg.mpr h)]

lemma toInt_neg (q : ℚ) : toInt (-q) = -toInt q := by
  simp [toInt, Int.neg_tdiv]

/-- Truncation to hundredths: `static_cast<double>(static_cast<int>(q * 100)) / 100`. -/
def hundredths (q : ℚ) : ℚ := (toInt (q * 100) : ℚ) / 100

@[simp] lemma hundredths_zero : hundredths 0 = 0 := by
  simp [hundredths, toInt]

lemma hundredths_neg (q : ℚ) : hundredths (-q) = -hundredths q := by
  simp only [hundredths, neg_mul, toInt_neg, Int.cast_neg, neg_div]

lemma hundredths_of_nonneg {q : ℚ} (h : 0 ≤ q) : hundredths q = (⌊q * 100⌋ : ℚ) / 100 := by
  rw [hundredths, toInt_of_nonneg (by positivity)]

lemma hundredths_nonneg {q : ℚ} (h : 0 ≤ q) : 0 ≤ hundredths q := by
  rw [hundredths_of_nonneg h]
  have : (0 : ℚ) ≤ ⌊q * 100⌋ := by exact_mod_cast Int.floor_nonneg.mpr (by positivity)
  positivity

lemma hundredths_nonpos {q : ℚ} (h : q ≤ 0) : hundredths q ≤ 0 := by
  have hneg := hundredths_nonneg (neg_nonneg.mpr h)
  rwa [hundredths_neg, neg_nonneg] at hneg

/-- What truncation loses of a non-negative value: less than a hundredth, and never the sign. -/
lemma hundredths_bounds {q : ℚ} (h : 0 ≤ q) : q - 1 / 100 < hundredths q ∧ hundredths q ≤ q := by
  rw [hundredths_of_nonneg h]
  have hle := Int.floor_le (q * 100)
  have hlt := Int.lt_floor_add_one (q * 100)
  constructor <;> linarith

/-- The truncated value is never larger in magnitude. -/
lemma abs_hundredths_le (q : ℚ) : |hundredths q| ≤ |q| := by
  have side : ∀ q : ℚ, 0 ≤ q → |hundredths q| ≤ |q| := fun q h => by
    rw [abs_of_nonneg (hundredths_nonneg h), abs_of_nonneg h]
    exact (hundredths_bounds h).2
  rcases le_total 0 q with h | h
  · exact side q h
  · simpa only [hundredths_neg, abs_neg] using side (-q) (neg_nonneg.mpr h)

/-- The truncated value is less than a hundredth away. -/
lemma abs_hundredths_sub_lt (q : ℚ) : |hundredths q - q| < 1 / 100 := by
  have side : ∀ q : ℚ, 0 ≤ q → |hundredths q - q| < 1 / 100 := fun q h => by
    obtain ⟨hlt, hle⟩ := hundredths_bounds h
    rw [abs_lt]
    constructor <;> linarith
  rcases le_total 0 q with h | h
  · exact side q h
  · have hneg := side (-q) (neg_nonneg.mpr h)
    rwa [hundredths_neg, ← neg_sub', abs_neg] at hneg

lemma hundredths_mono : Monotone hundredths := by
  have side : ∀ a b : ℚ, 0 ≤ a → a ≤ b → hundredths a ≤ hundredths b := fun a b ha hab => by
    rw [hundredths_of_nonneg ha, hundredths_of_nonneg (ha.trans hab)]
    gcongr
  intro a b hab
  rcases le_total 0 a with ha | ha
  · exact side a b ha hab
  rcases le_total 0 b with hb | hb
  · exact (hundredths_nonpos ha).trans (hundredths_nonneg hb)
  · have hneg := side (-b) (-a) (neg_nonneg.mpr hb) (neg_le_neg hab)
    rwa [hundredths_neg, hundredths_neg, neg_le_neg_iff] at hneg

/-- An interval around 0 keeps its values when they are truncated. -/
lemma hundredths_mem_Icc {q lo hi : ℚ} (hlo : lo ≤ 0) (hhi : 0 ≤ hi) (hq : q ∈ Set.Icc lo hi) :
    hundredths q ∈ Set.Icc lo hi := by
  rcases le_total 0 q with h | h
  · exact ⟨hlo.trans (hundredths_nonneg h), (hundredths_bounds h).2.trans hq.2⟩
  · have hle := (hundredths_bounds (neg_nonneg.mpr h)).2
    rw [hundredths_neg, neg_le_neg_iff] at hle
    exact ⟨hq.1.trans hle, (hundredths_nonpos h).trans hhi⟩

/-- A value truncates to at most `m` hundredths exactly when it is below the next one. -/
lemma hundredths_le_iff {q : ℚ} (h : 0 ≤ q) (m : ℤ) :
    hundredths q ≤ m / 100 ↔ q < (m + 1) / 100 := by
  rw [hundredths_of_nonneg h]
  constructor
  · intro hle
    have hfl : ⌊q * 100⌋ ≤ m := by
      have : (⌊q * 100⌋ : ℚ) ≤ m := by linarith
      exact_mod_cast this
    have hlt : q * 100 < m + 1 := by
      exact_mod_cast Int.floor_lt.mp (Int.lt_add_one_iff.mpr hfl)
    linarith
  · intro hlt
    have hfl : ⌊q * 100⌋ < m + 1 := Int.floor_lt.mpr (by push_cast; linarith)
    have : (⌊q * 100⌋ : ℚ) ≤ m := by exact_mod_cast Int.lt_add_one_iff.mp hfl
    linarith

end Truncate
