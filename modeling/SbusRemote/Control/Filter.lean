import Mathlib.Data.Rat.Defs
import Mathlib.Logic.Function.Basic
import Mathlib.Tactic.Linarith
import Mathlib.Algebra.Order.Ring.Rat
import Mathlib.Algebra.Order.Ring.Abs
import Mathlib.Tactic.Ring
import Mathlib.Tactic.NormNum

/-!
# `nonlinearFunction`: the velocity filter

One static value per axis follows the stick: instantly to zero, by a tenth of the distance when
the stick has come back toward zero on the same side, by a fiftieth otherwise.

* `filterStep` is the function on one axis; `nonlinearFunction_fst` and `nonlinearFunction_snd`
  reduce the source's function over the static array to it.
* `filterStep_eq_zero` — which inputs bring the output to rest.
* `filterStep_sub` — how far the output is from the input afterwards.
* `filterStep_mem_Icc` — the output stays in any interval around zero that holds input and state.
-/

namespace SbusRemote

/-- `KP`. -/
def kp : ℚ := 0.02

/-- `KP_R`. -/
def kpR : ℚ := 0.1

/-- `nonlinearFunction`, over the static `ot`: the value returned and the array afterwards. -/
def nonlinearFunction (ot : Fin 4 → ℚ) (input : ℚ) (vtype : Fin 4) : ℚ × (Fin 4 → ℚ) :=
  if ot vtype = input then (ot vtype, ot)
  else
    let v :=
      if input = 0 then 0
      else if (input > 0 ∧ input < ot vtype) ∨ (input < 0 ∧ input > ot vtype) then
        ot vtype + (input - ot vtype) * kpR
      else ot vtype + (input - ot vtype) * kp
    (v, Function.update ot vtype v)

/-- The filter on one axis: its next value from the present one and the input. -/
def filterStep (o x : ℚ) : ℚ :=
  if o = x then o
  else if x = 0 then 0
  else if (x > 0 ∧ x < o) ∨ (x < 0 ∧ x > o) then o + (x - o) * kpR
  else o + (x - o) * kp

@[simp] lemma nonlinearFunction_fst (ot : Fin 4 → ℚ) (x : ℚ) (i : Fin 4) :
    (nonlinearFunction ot x i).1 = filterStep (ot i) x := by
  simp only [nonlinearFunction, filterStep]
  split_ifs <;> rfl

@[simp] lemma nonlinearFunction_snd (ot : Fin 4 → ℚ) (x : ℚ) (i : Fin 4) :
    (nonlinearFunction ot x i).2 = Function.update ot i (filterStep (ot i) x) := by
  simp only [nonlinearFunction, filterStep]
  split_ifs with h
  · rw [Function.update_eq_self]
  · rfl
  · rfl
  · rfl

@[simp] lemma filterStep_zero (o : ℚ) : filterStep o 0 = 0 := by
  by_cases h : o = 0
  · simp [filterStep, h]
  · simp [filterStep, h]

/-- **Rest.**  The output is zero on a centred stick, and otherwise only when the state sits at
exactly the forty-ninth part of the input on the other side, from where one step lands on zero. -/
lemma filterStep_eq_zero (o x : ℚ) : filterStep o x = 0 ↔ x = 0 ∨ 49 * o = -x := by
  unfold filterStep kp kpR
  split_ifs with h h0 hr
  · subst h
    constructor
    · exact Or.inl
    · rintro (h | h)
      · exact h
      · linarith
  · simp [h0]
  · have hsame : (0 < x ∧ 0 < o) ∨ (x < 0 ∧ o < 0) := by
      rcases hr with ⟨h₁, h₂⟩ | ⟨h₁, h₂⟩
      · exact Or.inl ⟨h₁, lt_trans h₁ h₂⟩
      · exact Or.inr ⟨h₁, lt_trans h₂ h₁⟩
    constructor
    · intro hz
      rcases hsame with ⟨hx, ho⟩ | ⟨hx, ho⟩ <;> norm_num at hz <;> linarith
    · rintro (hx | hx)
      · exact absurd hx h0
      · rcases hsame with ⟨hx', ho⟩ | ⟨hx', ho⟩ <;> linarith
  · constructor
    · intro hz
      norm_num at hz
      exact Or.inr (by linarith)
    · rintro (hx | hx)
      · exact absurd hx h0
      · norm_num
        linarith

/-- The distance to a stick that is not centred shrinks by a tenth or by a fiftieth. -/
lemma filterStep_sub {x : ℚ} (hx : x ≠ 0) (o : ℚ) : filterStep o x - x
    = (if (x > 0 ∧ x < o) ∨ (x < 0 ∧ x > o) then 9 / 10 else 49 / 50) * (o - x) := by
  unfold filterStep kp kpR
  by_cases ho : o = x
  · simp [ho]
  · rw [if_neg ho, if_neg hx]
    split_ifs <;> ring

/-- One step takes off at least a fiftieth of the distance. -/
lemma abs_filterStep_sub_le (x o : ℚ) : |filterStep o x - x| ≤ 49 / 50 * |o - x| := by
  have hnn := abs_nonneg (o - x)
  by_cases hx : x = 0
  · simp only [hx, filterStep_zero, sub_self, abs_zero]
    positivity
  · rw [filterStep_sub hx, abs_mul]
    refine mul_le_mul_of_nonneg_right ?_ hnn
    split_ifs <;> norm_num [abs_of_pos]

/-- A held input is approached by a fiftieth of the distance with each step. -/
lemma abs_iterate_filterStep_sub_le (x o : ℚ) (n : ℕ) :
    |(fun o => filterStep o x)^[n] o - x| ≤ (49 / 50) ^ n * |o - x| := by
  induction n with
  | zero => simp
  | succ n ih =>
      rw [Function.iterate_succ_apply']
      have hstep := abs_filterStep_sub_le x ((fun o => filterStep o x)^[n] o)
      calc |filterStep ((fun o => filterStep o x)^[n] o) x - x|
          ≤ 49 / 50 * |(fun o => filterStep o x)^[n] o - x| := hstep
        _ ≤ 49 / 50 * ((49 / 50) ^ n * |o - x|) := by gcongr
        _ = (49 / 50) ^ (n + 1) * |o - x| := by ring

/-- The output stays in any interval around zero that holds the state and the input. -/
lemma filterStep_mem_Icc {o x lo hi : ℚ} (h0 : (0 : ℚ) ∈ Set.Icc lo hi) (ho : o ∈ Set.Icc lo hi)
    (hx : x ∈ Set.Icc lo hi) : filterStep o x ∈ Set.Icc lo hi := by
  -- a step is a convex combination of state and input, with either gain
  have convex : ∀ k : ℚ, 0 ≤ k → k ≤ 1 → o + (x - o) * k ∈ Set.Icc lo hi := by
    intro k hk hk'
    rw [show o + (x - o) * k = (1 - k) * o + k * x by ring]
    constructor
    · have h₁ := mul_le_mul_of_nonneg_left ho.1 (sub_nonneg.mpr hk')
      have h₂ := mul_le_mul_of_nonneg_left hx.1 hk
      linarith
    · have h₁ := mul_le_mul_of_nonneg_left ho.2 (sub_nonneg.mpr hk')
      have h₂ := mul_le_mul_of_nonneg_left hx.2 hk
      linarith
  unfold filterStep
  split_ifs
  · exact ho
  · exact h0
  · exact convex kpR (by norm_num [kpR]) (by norm_num [kpR])
  · exact convex kp (by norm_num [kp]) (by norm_num [kp])

end SbusRemote
