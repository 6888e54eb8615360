import SbusRemote.Core.Truncate
import SbusRemote.Json.Number

/-!
# Numbers in exact arithmetic

With `double` read as an exact rational, what `print_number` and `parse_number` do to a number can
be said in full.  The text shows an integer exactly, six digits after the point in the middle range
and seven significant digits beyond it.

* `exactText` — the text, by the conditions of `print_number` on rationals.
* `shown_error` — how far a number moves when it is printed and read back: `Near`.
* `shown_shown` — a second trip moves nothing, except that what the first one left within
  `DBL_EPSILON` of 0 becomes 0.
* `InRange`, `number_trips` — both, for every finite `double`.
-/

namespace SbusRemote.CJson

open Decimal (Numeral)

/-- `double` as an exact rational.  A value that does not fit into `int` converts to the least
`int`, as it does on the machine. -/
instance exactDouble : CDouble ℚ where
  lit q := q
  add := (· + ·)
  sub := (· - ·)
  mul := (· * ·)
  fabs q := |q|
  floor q := ⌊q⌋
  pow10 k := 10 ^ k
  eq q r := q = r
  le q r := q ≤ r
  lt q r := q < r
  toInt q := if -2147483649 < q ∧ q < 2147483648 then Truncate.toInt q else -2147483648
  fixed p q := .numeral (Decimal.fixed p q)
  scientific p q := .numeral (Decimal.scientific p q)

/-! ## What is read -/

lemma accumulate_eq (n : ℚ) (ds : Text) :
    accumulate n ds = n * 10 ^ ds.length + Decimal.read ds := by
  induction ds using List.reverseRecOn with
  | nil => simp [accumulate]
  | append_singleton ds c ih =>
      have hstep : accumulate n (ds ++ [c]) = accumulate n ds * 10 + Decimal.digitValue c := by
        simp only [accumulate, List.foldl_concat]
        rfl
      rw [hstep, ih, Decimal.read_concat, List.length_append, List.length_singleton, pow_succ]
      push_cast
      ring

lemma read_countedDigits (int : Text) : Decimal.read (countedDigits int) = Decimal.read int := by
  rw [countedDigits]
  split_ifs with h
  · rw [h]
    rfl
  · rfl

/-- **A numeral is read as its value.** -/
theorem ofNumeral_valuedouble (m : Numeral) : (ofNumeral m : Number ℚ).valuedouble = m.value := by
  have hlit : (CDouble.lit 0 : ℚ) = 0 := rfl
  have hdigits : accumulate (accumulate (CDouble.lit 0 : ℚ) (countedDigits m.int)) m.frac
      = m.digits := by
    rw [accumulate_eq, accumulate_eq, hlit, zero_mul, zero_add, read_countedDigits,
      Numeral.digits, Decimal.read_append]
    push_cast
    rfl
  rw [ofNumeral, hdigits]
  rfl

lemma ofNumeral_valueint (m : Numeral) :
    (ofNumeral m : Number ℚ).valueint = CDouble.toInt (ofNumeral m : Number ℚ).valuedouble := rfl

/-! ## What is written -/

/-- `DBL_EPSILON`. -/
def epsilon : ℚ := 1 / 2 ^ 52

lemma eq_iff (a b : ℚ) : CDouble.eq a b = true ↔ a = b := decide_eq_true_iff

lemma le_iff (a b : ℚ) : CDouble.le a b = true ↔ a ≤ b := decide_eq_true_iff

lemma lt_iff (a b : ℚ) : CDouble.lt a b = true ↔ a < b := decide_eq_true_iff

/-- What `print_number` allocates and writes, with its conditions on rationals. -/
def exactText (n : Number ℚ) : ℕ × Numeral :=
  if n.valuedouble = 0 then (2, Decimal.ofInt 0)
  else if |(n.valueint : ℚ) - n.valuedouble| ≤ epsilon ∧ n.valuedouble ≤ 2147483647 ∧
      -2147483648 ≤ n.valuedouble then (21, Decimal.ofInt n.valueint)
  else if |(⌊n.valuedouble⌋ : ℚ) - n.valuedouble| ≤ epsilon ∧ |n.valuedouble| < 10 ^ 60 then
    (64, Decimal.fixed 0 n.valuedouble)
  else if |n.valuedouble| < 1 / 10 ^ 6 ∨ 10 ^ 9 < |n.valuedouble| then
    (64, Decimal.scientific 6 n.valuedouble)
  else (64, Decimal.fixed 6 n.valuedouble)

/-- A rational is always written as a numeral. -/
theorem printNumber_exact (n : Number ℚ) :
    printNumber n = ((exactText n).1, .numeral (exactText n).2) := by
  change _ = Prod.map id DoubleText.numeral (exactText n)
  simp only [printNumber, exactText, apply_ite (Prod.map id DoubleText.numeral), eq_iff, le_iff,
    lt_iff, Bool.and_eq_true, Bool.or_eq_true, and_assoc]
  rfl

lemma shown_valuedouble (n : Number ℚ) : n.shown.valuedouble = (exactText n).2.value := by
  rw [Number.shown, printNumber_exact]
  exact ofNumeral_valuedouble _

/-- The distance a number may move when it is printed and read back: `DBL_EPSILON`, or half a unit
of the sixth digit after the point, or of the seventh significant digit. -/
def Near (d e : ℚ) : Prop :=
  |e - d| ≤ epsilon ∨ (1 / 10 ^ 6 ≤ |d| ∧ |d| ≤ 10 ^ 9 ∧ |e - d| ≤ 1 / 2 / 10 ^ 6) ∨
    ((|d| < 1 / 10 ^ 6 ∨ 10 ^ 9 < |d|) ∧ |e - d| ≤ 1 / 2 * 10 ^ (Int.log 10 |d| - 6))

lemma epsilon_pos : 0 < epsilon := by norm_num [epsilon]

lemma epsilon_lt : epsilon < 1 / 2 / 10 ^ 6 := by norm_num [epsilon]

/-- A value next to its floor rounds to it. -/
lemma fixed_zero_of_floor {d : ℚ} (h : |(⌊d⌋ : ℚ) - d| ≤ epsilon) :
    (Decimal.fixed 0 d).value = ⌊d⌋ := by
  have hlt : |(⌊d⌋ : ℚ) - d| < 1 / 2 := h.trans_lt (by norm_num [epsilon])
  have hround : Decimal.roundEven |d| = ⌊d⌋.natAbs := by
    refine Decimal.roundEven_eq (abs_nonneg d) ?_
    rw [Nat.cast_natAbs, Int.cast_abs]
    exact (abs_abs_sub_abs_le _ _).trans_lt hlt
  have hsign : d < 0 ↔ ⌊d⌋ < 0 := by
    rw [Int.floor_lt]
    simp
  rw [Decimal.value_fixed, pow_zero, mul_one, div_one, hround, Nat.cast_natAbs, Int.cast_abs]
  have habs := Decimal.sign_mul_abs (⌊d⌋ : ℚ)
  simp only [Int.cast_lt_zero, ← hsign] at habs
  exact habs

/-- **How far a number moves.**  The text is within `DBL_EPSILON` of it, or within half a unit of
the sixth digit after the point, or of the seventh significant digit. -/
theorem shown_error (n : Number ℚ) : Near n.valuedouble n.shown.valuedouble := by
  rw [shown_valuedouble, exactText]
  split_ifs with hzero hint hfloor hrange
  · left
    rw [Decimal.value_ofInt, hzero]
    simpa using epsilon_pos.le
  · left
    rw [Decimal.value_ofInt]
    exact hint.1
  · left
    rw [fixed_zero_of_floor hfloor.1]
    exact hfloor.1
  · exact .inr (.inr ⟨hrange, Decimal.scientific_error 6 _⟩)
  · rw [not_or, not_lt, not_lt] at hrange
    exact .inr (.inl ⟨hrange.1, hrange.2, Decimal.fixed_error 6 _⟩)

/-! ## A second trip -/

/-- `valueint` is the conversion of `valuedouble`, as `cJSON_CreateNumber` and `parse_number`
leave it. -/
def Number.Converted (n : Number ℚ) : Prop := n.valueint = CDouble.toInt n.valuedouble

lemma converted_shown (n : Number ℚ) : n.shown.Converted := by
  rw [Number.shown, printNumber_exact]
  rfl

/-- The values a number text of `print_number` can have. -/
inductive Settled (d : ℚ) : Prop
  | int (k : ℤ) : d = k → |d| ≤ 10 ^ 60 → Settled d
  | millionths (k : ℕ) : |d| * 10 ^ 6 = k → 1 / 10 ^ 6 ≤ |d| → |d| ≤ 10 ^ 9 → Settled d
  | sevenDigits (m : ℕ) (e : ℤ) : 10 ^ 6 ≤ m → m < 10 ^ 7 → |d| = m * 10 ^ (e - 6) →
      |d| < 1 / 10 ^ 6 ∨ 10 ^ 60 ≤ |d| → Settled d

lemma toInt_intCast {k : ℤ} (h₁ : -2147483648 ≤ k) (h₂ : k ≤ 2147483647) :
    CDouble.toInt (k : ℚ) = k := by
  have hrange : (-2147483649 : ℚ) < k ∧ (k : ℚ) < 2147483648 := by
    constructor
    · exact_mod_cast (by omega : (-2147483649 : ℤ) < k)
    · exact_mod_cast (by omega : k < 2147483648)
  have htrunc : Truncate.toInt (k : ℚ) = k := by
    rw [Truncate.toInt, Rat.num_intCast, Rat.den_intCast]
    exact Int.tdiv_one k
  exact (if_pos hrange).trans htrunc

/-- What is converted is never far from the value, if that is in range. -/
lemma abs_toInt_sub_lt {d : ℚ} (h₁ : -2147483648 ≤ d) (h₂ : d ≤ 2147483647) :
    ∃ k : ℤ, CDouble.toInt d = k ∧ |(k : ℚ)| ≤ |d| ∧ |(k : ℚ) - d| < 1 := by
  have hrange : -2147483649 < d ∧ d < 2147483648 := ⟨by linarith, by linarith⟩
  refine ⟨Truncate.toInt d, if_pos hrange, ?_⟩
  have side (q : ℚ) (hq : 0 ≤ q) :
      |(Truncate.toInt q : ℚ)| ≤ |q| ∧ |(Truncate.toInt q : ℚ) - q| < 1 := by
    have hle := Int.floor_le q
    have hlt := Int.lt_floor_add_one q
    have hnn : (0 : ℚ) ≤ ⌊q⌋ := by exact_mod_cast Int.floor_nonneg.mpr hq
    rw [Truncate.toInt_of_nonneg hq, abs_of_nonneg hnn, abs_of_nonneg hq, abs_lt]
    exact ⟨hle, by linarith, by linarith⟩
  rcases le_total 0 d with hd | hd
  · exact side d hd
  · have hneg := side (-d) (neg_nonneg.mpr hd)
    rw [Truncate.toInt_neg, Int.cast_neg, abs_neg, abs_neg, ← neg_sub', abs_neg] at hneg
    exact hneg

lemma toInt_of_abs_lt_one {d : ℚ} (h : |d| < 1) : CDouble.toInt d = 0 := by
  obtain ⟨hlow, hhigh⟩ := abs_lt.mp h
  obtain ⟨j, hj, hle, -⟩ := abs_toInt_sub_lt (d := d) (by linarith) (by linarith)
  have : |(j : ℚ)| < 1 := hle.trans_lt h
  rw [← Int.cast_abs] at this
  rw [hj]
  exact Int.abs_lt_one_iff.mp (by exact_mod_cast this)

section

variable {n : Number ℚ}

/-- Integers are written exactly. -/
lemma shown_int {k : ℤ} (hn : n.Converted) (hd : n.valuedouble = k)
    (h : |n.valuedouble| ≤ 10 ^ 60) : n.shown.valuedouble = n.valuedouble := by
  have hfloor : (⌊n.valuedouble⌋ : ℚ) = n.valuedouble := by rw [hd, Int.floor_intCast]
  have hnear : |(⌊n.valuedouble⌋ : ℚ) - n.valuedouble| ≤ epsilon := by
    rw [hfloor, sub_self, abs_zero]
    exact epsilon_pos.le
  rw [shown_valuedouble, exactText]
  split_ifs with hzero hint hexact hrange
  · rw [Decimal.value_ofInt, hzero]
    rfl
  · obtain ⟨-, h₂, h₁⟩ := hint
    rw [hd] at h₁ h₂
    rw [Decimal.value_ofInt, hn, hd, toInt_intCast (by exact_mod_cast h₁) (by exact_mod_cast h₂)]
  · rw [fixed_zero_of_floor hexact.1, hfloor]
  · -- an integer this large is the power of ten itself
    have htop : |n.valuedouble| = 10 ^ 60 :=
      le_antisymm h (not_lt.mp fun hlt => hexact ⟨hnear, hlt⟩)
    refine Decimal.scientific_exact 6 (m := 10 ^ 6) (e := 60) le_rfl (by norm_num) ?_
    rw [htop]
    norm_num
  · rw [not_or, not_lt, not_lt] at hrange
    exact absurd ⟨hnear, hrange.2.trans_lt (by norm_num)⟩ hexact

/-- Two different whole numbers of millionths are a millionth apart. -/
lemma not_near_of_millionths {d : ℚ} {k : ℕ} {j : ℤ} (hk : |d| * 10 ^ 6 = k) (hne : d ≠ j) :
    epsilon < |(j : ℚ) - d| := by
  obtain ⟨l, hl⟩ : ∃ l : ℤ, d * 10 ^ 6 = l := by
    rcases abs_choice d with h | h
    · exact ⟨k, by rw [← h, hk]; rfl⟩
    · exact ⟨-k, by rw [← neg_neg d, ← h, neg_mul, hk]; push_cast; rfl⟩
  have hint : (j : ℚ) * 10 ^ 6 - d * 10 ^ 6 = ((j * 10 ^ 6 - l : ℤ) : ℚ) := by
    rw [hl]
    push_cast
    ring
  have hne' : j * 10 ^ 6 - l ≠ 0 := by
    intro h0
    rw [h0, Int.cast_zero, ← sub_mul] at hint
    exact hne (sub_eq_zero.mp ((mul_eq_zero.mp hint).resolve_right (by norm_num))).symm
  have hone : (1 : ℚ) ≤ |(j : ℚ) * 10 ^ 6 - d * 10 ^ 6| := by
    rw [hint, ← Int.cast_abs]
    exact_mod_cast Int.one_le_abs hne'
  rw [← sub_mul, abs_mul, abs_of_pos (by norm_num : (0 : ℚ) < 10 ^ 6)] at hone
  have heps := epsilon_lt
  norm_num at hone heps ⊢
  linarith

lemma shown_millionths {k : ℕ} (hn : n.Converted) (hk : |n.valuedouble| * 10 ^ 6 = k)
    (h₁ : 1 / 10 ^ 6 ≤ |n.valuedouble|) (h₂ : |n.valuedouble| ≤ 10 ^ 9) :
    n.shown.valuedouble = n.valuedouble := by
  by_cases hint : ∃ j : ℤ, n.valuedouble = j
  · obtain ⟨j, hj⟩ := hint
    exact shown_int hn hj (h₂.trans (by norm_num))
  · have hfar (j : ℤ) : epsilon < |(j : ℚ) - n.valuedouble| :=
      not_near_of_millionths hk fun h => hint ⟨j, h⟩
    have hzero : n.valuedouble ≠ 0 := fun h => hint ⟨0, by rw [h]; rfl⟩
    rw [shown_valuedouble, exactText, if_neg hzero, if_neg fun h => (hfar _).not_ge h.1,
      if_neg fun h => (hfar _).not_ge h.1, if_neg fun h => h.elim h₁.not_gt h₂.not_gt]
    exact Decimal.fixed_exact hk

lemma shown_small {m : ℕ} {e : ℤ} (hn : n.Converted) (hm : 10 ^ 6 ≤ m) (hm' : m < 10 ^ 7)
    (hd : |n.valuedouble| = m * 10 ^ (e - 6)) (hsmall : |n.valuedouble| < 1 / 10 ^ 6) :
    n.shown.valuedouble = n.valuedouble
      ∨ (|n.valuedouble| ≤ epsilon ∧ n.shown.valuedouble = 0) := by
  have hlt : |n.valuedouble| < 1 := hsmall.trans (by norm_num)
  obtain ⟨hlow, hhigh⟩ := abs_lt.mp hlt
  have hint := toInt_of_abs_lt_one hlt
  rw [shown_valuedouble, exactText, hn, hint]
  have hzero : |((0 : ℤ) : ℚ) - n.valuedouble| = |n.valuedouble| := by simp
  split_ifs with h₀ hnear hfloor
  · exact .inl ((Decimal.value_ofInt 0).trans (by simpa using h₀.symm))
  · rw [hzero] at hnear
    exact .inr ⟨hnear.1, Decimal.value_ofInt 0⟩
  · have hfar : epsilon < |n.valuedouble| := by
      refine not_le.mp fun h => hnear ⟨by rwa [hzero], ?_, ?_⟩ <;> linarith
    rcases lt_or_ge n.valuedouble 0 with hneg | hpos
    · -- the floor is -1, far away
      have hf : ⌊n.valuedouble⌋ = -1 := by
        rw [Int.floor_eq_iff]
        push_cast
        exact ⟨hlow.le, by linarith⟩
      have h := hfloor.1
      rw [hf, abs_of_neg (by push_cast; linarith)] at h
      rw [abs_of_neg hneg] at hsmall
      have := epsilon_lt
      push_cast at h
      norm_num at hsmall this h
      linarith
    · have hf : ⌊n.valuedouble⌋ = 0 := Int.floor_eq_zero_iff.mpr ⟨hpos, hhigh⟩
      rw [hf, hzero] at hfloor
      exact absurd hfloor.1 hfar.not_ge
  · exact .inl (Decimal.scientific_exact 6 hm hm' hd)
  · rename_i hrange
    exact absurd (.inl hsmall) hrange

lemma shown_large {m : ℕ} {e : ℤ} (hm : 10 ^ 6 ≤ m) (hm' : m < 10 ^ 7)
    (hd : |n.valuedouble| = m * 10 ^ (e - 6)) (hlarge : 10 ^ 60 ≤ |n.valuedouble|) :
    n.shown.valuedouble = n.valuedouble := by
  have hzero : n.valuedouble ≠ 0 := by
    intro h
    rw [h, abs_zero] at hlarge
    norm_num at hlarge
  have hout : ¬(n.valuedouble ≤ 2147483647 ∧ -2147483648 ≤ n.valuedouble) := by
    rintro ⟨h₁, h₂⟩
    have : |n.valuedouble| ≤ 2147483648 := abs_le.mpr ⟨by linarith, by linarith⟩
    exact absurd (hlarge.trans this) (by norm_num)
  rw [shown_valuedouble, exactText, if_neg hzero, if_neg fun h => hout h.2,
    if_neg fun h => hlarge.not_gt h.2,
    if_pos (.inr (lt_of_lt_of_le (by norm_num) hlarge))]
  exact Decimal.scientific_exact 6 hm hm' hd

/-- What `%e` writes of a very small value. -/
lemma settled_scientific_small {d : ℚ} (hd : d ≠ 0) (h : |d| < 1 / 10 ^ 6) :
    Settled (Decimal.scientific 6 d).value := by
  obtain ⟨hm, hm'⟩ := Decimal.significand_mem 6 hd
  have habs := Decimal.abs_value_scientific 6 d
  have hlog : Int.log 10 |d| ≤ -7 := by
    refine Int.lt_add_one_iff.mp ?_
    rw [← Int.lt_zpow_iff_log_lt (by norm_num) (abs_pos.mpr hd)]
    exact h.trans_le (by norm_num)
  by_cases hlt : |(Decimal.scientific 6 d).value| < 1 / 10 ^ 6
  · exact .sevenDigits _ _ hm hm' (by simpa using habs) (.inl hlt)
  · -- rounded up to a millionth
    have hone : |(Decimal.scientific 6 d).value| = 1 / 10 ^ 6 := by
      refine le_antisymm ?_ (not_lt.mp hlt)
      rcases Decimal.significand_exponent 6 d with he | ⟨he, hpow⟩
      · refine absurd ?_ hlt
        calc |(Decimal.scientific 6 d).value|
            = (Decimal.significand 6 d).1 * 10 ^ ((Decimal.significand 6 d).2 - 6) := habs
          _ < 10 ^ 7 * 10 ^ ((Decimal.significand 6 d).2 - 6) :=
              mul_lt_mul_of_pos_right (by exact_mod_cast hm') (by positivity)
          _ ≤ 10 ^ 7 * 10 ^ (-13 : ℤ) := by
              have hexp : (Decimal.significand 6 d).2 - 6 ≤ -13 := by omega
              exact mul_le_mul_of_nonneg_left (zpow_le_zpow_right₀ (by norm_num) hexp)
                (by positivity)
          _ = 1 / 10 ^ 6 := by norm_num
      · calc |(Decimal.scientific 6 d).value|
            = (Decimal.significand 6 d).1 * 10 ^ ((Decimal.significand 6 d).2 - 6) := habs
          _ ≤ 10 ^ 6 * 10 ^ (-12 : ℤ) := by
              rw [hpow]
              push_cast
              have hexp : (Decimal.significand 6 d).2 - 6 ≤ -12 := by omega
              exact mul_le_mul_of_nonneg_left (zpow_le_zpow_right₀ (by norm_num) hexp)
                (by positivity)
          _ = 1 / 10 ^ 6 := by norm_num
    exact .millionths 1 (by rw [hone]; norm_num) hone.ge (hone.le.trans (by norm_num))

/-- What `%e` writes of a large value: an integer. -/
lemma settled_scientific_large {d : ℚ} (hd : d ≠ 0) (h : 10 ^ 9 < |d|) :
    Settled (Decimal.scientific 6 d).value := by
  obtain ⟨hm, hm'⟩ := Decimal.significand_mem 6 hd
  have habs := Decimal.abs_value_scientific 6 d
  have hlog : 9 ≤ Int.log 10 |d| := by
    rw [← Int.zpow_le_iff_le_log (by norm_num) (abs_pos.mpr hd)]
    exact le_trans (by norm_num) h.le
  have he : 9 ≤ (Decimal.significand 6 d).2 := by
    rcases Decimal.significand_exponent 6 d with he | ⟨he, -⟩ <;> omega
  rcases le_or_gt (10 ^ 60) |(Decimal.scientific 6 d).value| with hlarge | hlt
  · exact .sevenDigits _ _ hm hm' (by simpa using habs) (.inr hlarge)
  · obtain ⟨k, hk⟩ : ∃ k : ℕ, (Decimal.significand 6 d).2 - 6 = k :=
      ⟨_, (Int.toNat_of_nonneg (by omega)).symm⟩
    have hvalue : (Decimal.scientific 6 d).value
        = (((if d < 0 then -1 else 1) * ((Decimal.significand 6 d).1 * 10 ^ k) : ℤ) : ℚ) := by
      have hsplit := Decimal.value_scientific 6 d
      push_cast at hsplit
      rw [hsplit, hk, zpow_natCast]
      push_cast
      rfl
    exact .int _ hvalue hlt.le

/-- What `%f` writes in the middle range. -/
lemma settled_fixed {d : ℚ} (h₁ : 1 / 10 ^ 6 ≤ |d|) (h₂ : |d| ≤ 10 ^ 9) :
    Settled (Decimal.fixed 6 d).value := by
  have habs : |(Decimal.fixed 6 d).value| * 10 ^ 6 = Decimal.roundEven (|d| * 10 ^ 6) := by
    rw [Decimal.value_fixed, mul_div_assoc, Decimal.abs_sign_mul, abs_of_nonneg (by positivity)]
    field_simp
  have hlow : 1 ≤ Decimal.roundEven (|d| * 10 ^ 6) :=
    Decimal.le_roundEven (by positivity) (by norm_num at h₁ ⊢; linarith)
  have htop : Decimal.roundEven (|d| * 10 ^ 6) ≤ 10 ^ 15 :=
    Decimal.roundEven_le (by positivity) (by norm_num at h₂ ⊢; linarith)
  have hlow' : (1 : ℚ) ≤ |(Decimal.fixed 6 d).value| * 10 ^ 6 := by
    rw [habs]
    exact_mod_cast hlow
  have htop' : |(Decimal.fixed 6 d).value| * 10 ^ 6 ≤ 10 ^ 15 := by
    rw [habs]
    exact_mod_cast htop
  refine .millionths _ habs ?_ ?_ <;> norm_num at hlow' htop' ⊢ <;> linarith

/-- What the text of any number shows is one of the values that are written exactly. -/
theorem settled_shown (n : Number ℚ) : Settled n.shown.valuedouble := by
  rw [shown_valuedouble, exactText]
  split_ifs with hzero hint hfloor hrange
  · rw [Decimal.value_ofInt]
    exact .int 0 rfl (by norm_num)
  · rw [Decimal.value_ofInt]
    refine .int _ rfl ?_
    obtain ⟨hnear, h₁, h₂⟩ := hint
    have := epsilon_lt
    rw [abs_le] at hnear
    norm_num at this
    refine (abs_le (b := (2147483650 : ℚ))).mpr ⟨?_, ?_⟩ |>.trans (by norm_num) <;> linarith
  · rw [fixed_zero_of_floor hfloor.1]
    refine .int _ rfl ?_
    have hclose : (|⌊n.valuedouble⌋| : ℚ) < 10 ^ 60 + 1 := by
      have h₁ := abs_sub_abs_le_abs_sub (⌊n.valuedouble⌋ : ℚ) n.valuedouble
      have := epsilon_lt
      norm_num at this
      linarith [hfloor.1, hfloor.2]
    have hclose' : |⌊n.valuedouble⌋| < 10 ^ 60 + 1 := by exact_mod_cast hclose
    have hle : |⌊n.valuedouble⌋| ≤ 10 ^ 60 := Int.lt_add_one_iff.mp hclose'
    exact_mod_cast hle
  · exact hrange.elim (settled_scientific_small hzero) (settled_scientific_large hzero)
  · rw [not_or, not_lt, not_lt] at hrange
    exact settled_fixed hrange.1 hrange.2

/-- **A second trip moves nothing**, except that what the first one left within `DBL_EPSILON` of 0
becomes 0. -/
theorem shown_shown (n : Number ℚ) : n.shown.shown = n.shown
    ∨ (|n.shown.valuedouble| ≤ epsilon ∧ n.shown.shown.valuedouble = 0) := by
  have hn := converted_shown n
  have hext (h : n.shown.shown.valuedouble = n.shown.valuedouble) : n.shown.shown = n.shown := by
    have hn' := converted_shown n.shown
    rw [Number.Converted] at hn hn'
    cases h₁ : n.shown.shown
    cases h₂ : n.shown
    simp_all
  cases settled_shown n with
  | int k hk h => exact .inl (hext (shown_int hn hk h))
  | millionths k hk h₁ h₂ => exact .inl (hext (shown_millionths hn hk h₁ h₂))
  | sevenDigits m e hm hm' hd h =>
      rcases h with h | h
      · exact (shown_small hn hm hm' hd h).imp hext id
      · exact .inl (hext (shown_large hm hm' hd h))

end

/-! ## Finite values -/

/-- The range of a finite `double`: 0, or from 2^-1074 up to below 2^1024. -/
def InRange (d : ℚ) : Prop := d = 0 ∨ 1 / 2 ^ 1074 ≤ |d| ∧ |d| < 2 ^ 1024

/-- The same in powers of ten. -/
lemma InRange.decimal {d : ℚ} (h : InRange d) (hzero : d ≠ 0) :
    1 / 10 ^ 358 ≤ |d| ∧ |d| ≤ 10 ^ 358 := by
  obtain ⟨hlow, htop⟩ := h.resolve_left hzero
  have hpow : (2 : ℚ) ^ 1074 ≤ 10 ^ 358 := by
    calc (2 : ℚ) ^ 1074 = (2 ^ 3) ^ 358 := by rw [← pow_mul]
      _ ≤ 10 ^ 358 := pow_le_pow_left₀ (by norm_num) (by norm_num) 358
  constructor
  · exact (one_div_le_one_div_of_le (by positivity) hpow).trans hlow
  · exact (htop.le.trans (pow_le_pow_right₀ (by norm_num) (by norm_num))).trans hpow

lemma inRange_seven : InRange 7 := by
  have hpow : (2 : ℚ) ^ 3 ≤ 2 ^ 1024 := pow_le_pow_right₀ (by norm_num) (by norm_num)
  refine .inr ⟨?_, ?_⟩
  · refine ((div_le_one (by positivity)).mpr (one_le_pow₀ (by norm_num))).trans ?_
    norm_num
  · refine lt_of_lt_of_le ?_ hpow
    norm_num

section

variable {n : Number ℚ}

/-- The value is not too large; nor is it too small, unless it counts as an `int`. -/
structure Number.Moderate (n : Number ℚ) : Prop where
  top : |n.valuedouble| ≤ 10 ^ 400
  low : n.valuedouble ≠ 0 →
    1 / 10 ^ 400 ≤ |n.valuedouble| ∨ |(n.valueint : ℚ) - n.valuedouble| ≤ epsilon

/-- Where `%e` is used the exponent is short. -/
lemma Number.Moderate.natAbs_exponent (h : n.Moderate) (hzero : n.valuedouble ≠ 0)
    (hint : ¬(|(n.valueint : ℚ) - n.valuedouble| ≤ epsilon ∧ n.valuedouble ≤ 2147483647 ∧
      -2147483648 ≤ n.valuedouble)) :
    (Decimal.significand 6 n.valuedouble).2.natAbs ≤ 401 := by
  refine Decimal.natAbs_exponent_le 6 hzero ((h.low hzero).elim id fun hnear => ?_) h.top
  -- next to an `int`, but out of range
  have hout : 1 < |n.valuedouble| := by
    by_contra hle
    obtain ⟨h₁, h₂⟩ := abs_le.mp (not_lt.mp hle)
    exact hint ⟨hnear, by linarith, by linarith⟩
  exact ((div_le_one (by positivity)).mpr (one_le_pow₀ (by norm_num))).trans hout.le

lemma Number.Moderate.finite (h : n.Moderate) : n.Finite := by
  refine ⟨(exactText n).2, by rw [printNumber_exact], ?_⟩
  rw [exactText]
  split_ifs with hzero hint hfloor hrange
  · exact Nat.zero_le _
  · exact Nat.zero_le _
  · exact Nat.zero_le _
  · have hvalue : Numeral.exponentValue (Decimal.scientific 6 n.valuedouble).exponent
        = (Decimal.significand 6 n.valuedouble).2 := Decimal.exponentValue_exponentDigits _
    rw [ExponentFits, hvalue]
    exact (h.natAbs_exponent hzero hint).trans (by norm_num [intMax])
  · exact Nat.zero_le _

/-- A finite `double` is moderate. -/
lemma moderate_of_inRange (h : InRange n.valuedouble) : n.Moderate where
  top := by
    by_cases hzero : n.valuedouble = 0
    · rw [hzero, abs_zero]
      positivity
    · exact (h.decimal hzero).2.trans (pow_le_pow_right₀ (by norm_num) (by norm_num))
  low hzero := by
    refine .inl (le_trans ?_ (h.decimal hzero).1)
    exact one_div_le_one_div_of_le (by positivity) (pow_le_pow_right₀ (by norm_num) (by norm_num))

/-- So is what is not too large and has been converted: very small values count as 0. -/
lemma moderate_of_converted (hn : n.Converted) (htop : |n.valuedouble| ≤ 10 ^ 400) :
    n.Moderate where
  top := htop
  low _ := by
    rcases lt_or_ge |n.valuedouble| 1 with hlt | hge
    · rw [hn, toInt_of_abs_lt_one hlt, Int.cast_zero, zero_sub, abs_neg]
      refine (le_total (1 / 10 ^ 400) |n.valuedouble|).imp_right fun hle => hle.trans ?_
      exact one_div_le_one_div_of_le (by positivity)
        (le_trans (by norm_num) (pow_le_pow_right₀ (by norm_num) (by norm_num : 16 ≤ 400)))
    · refine .inl (le_trans ?_ hge)
      exact (div_le_one (by positivity)).mpr (one_le_pow₀ (by norm_num))

/-- What a text shows is not much larger than the number. -/
lemma Near.abs_le {d e : ℚ} (h : Near d e) : |e| ≤ 2 * |d| + 1 := by
  have hsub := abs_sub_abs_le_abs_sub e d
  have hpos := abs_nonneg d
  rcases h with h | ⟨-, -, h⟩ | ⟨-, h⟩
  · have := epsilon_lt
    norm_num at this
    linarith
  · norm_num at h
    linarith
  · -- a unit of the seventh digit
    have hunit : (10 : ℚ) ^ (Int.log 10 |d| - 6) ≤ |d| + 1 := by
      by_cases hd : d = 0
      · rw [hd, abs_zero, Int.log_zero_right]
        norm_num
      · have hle := Int.zpow_log_le_self (b := 10) (by norm_num) (abs_pos.mpr hd)
        push_cast at hle
        have hmono : (10 : ℚ) ^ (Int.log 10 |d| - 6) ≤ 10 ^ Int.log 10 |d| :=
          zpow_le_zpow_right₀ (by norm_num) (by omega)
        linarith
    linarith

lemma moderate_shown (h : InRange n.valuedouble) : n.shown.Moderate := by
  refine moderate_of_converted (converted_shown n) ((shown_error n).abs_le.trans ?_)
  have htop : |n.valuedouble| ≤ 10 ^ 358 := by
    by_cases hzero : n.valuedouble = 0
    · rw [hzero, abs_zero]
      positivity
    · exact (h.decimal hzero).2
  have hone : (1 : ℚ) ≤ 10 ^ 358 := one_le_pow₀ (by norm_num)
  have hsum (x : ℚ) (h₁ : |n.valuedouble| ≤ x) (h₂ : 1 ≤ x) : 2 * |n.valuedouble| + 1 ≤ 3 * x := by
    linarith
  calc 2 * |n.valuedouble| + 1 ≤ 3 * 10 ^ 358 := hsum _ htop hone
    _ ≤ 10 ^ 42 * 10 ^ 358 := mul_le_mul_of_nonneg_right (by norm_num) (by positivity)
    _ = 10 ^ 400 := by rw [← pow_add]

end

/-- **Printed and read, and printed and read again.**  The text of a finite number is read to its
end, as a number no further away than the text leaves out.  The text of that one is read as the
same record, except that what came back within `DBL_EPSILON` of 0 becomes 0. -/
theorem number_trips (n : Number ℚ) (h : InRange n.valuedouble) :
    ∃ m, parseNumber ℚ (printNumber n).2.text = .done m [] ∧ Near n.valuedouble m.valuedouble ∧
      ∃ k, parseNumber ℚ (printNumber m).2.text = .done k [] ∧
        (k = m ∨ |m.valuedouble| ≤ epsilon ∧ k.valuedouble = 0) :=
  ⟨n.shown, parseNumber_shown (moderate_of_inRange h).finite, shown_error n, n.shown.shown,
    parseNumber_shown (moderate_shown h).finite, shown_shown n⟩

theorem number_trips_seven : ∃ m,
    parseNumber ℚ (printNumber (⟨7, 7⟩ : Number ℚ)).2.text = .done m [] ∧ Near 7 m.valuedouble ∧
      ∃ k, parseNumber ℚ (printNumber m).2.text = .done k [] ∧
        (k = m ∨ |m.valuedouble| ≤ epsilon ∧ k.valuedouble = 0) := number_trips ⟨7, 7⟩ inRange_seven

end SbusRemote.CJson
