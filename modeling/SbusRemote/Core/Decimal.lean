import Mathlib.Algebra.Order.Field.Power
import Mathlib.Data.Int.Log
import Mathlib.Data.Nat.Digits.Lemmas
import Mathlib.Data.Rat.Floor
import Mathlib.Tactic.Linarith
import Mathlib.Tactic.Positivity
import Mathlib.Tactic.FieldSimp
import Mathlib.Tactic.Ring
import Mathlib.Tactic.NormNum

/-!
# Decimal numerals

Numbers as ASCII text: a sign, digits, a fraction and an exponent.  A `Numeral` carries the proof
that its parts are digits and that its integer part has no leading zero, so a reader never has to
ask.  The texts `printf` makes of an exact value are numerals whose value is known.

* `ofNat`, `padded`, `read` — digits of a natural number, most significant first; `read` inverts
  both.
* `Numeral`, `Numeral.text`, `Numeral.value`.
* `ofInt`, `fixed`, `scientific` — the texts of `%d`, `%.pf` and `%.pe`, rounded half to even.
* `fixed_error`, `scientific_error` — how far the text is from the value; `fixed_exact`,
  `scientific_exact` — a value that has the digits is written exactly.
-/

namespace Decimal

/-! ## Digits -/

/-- `'0'` to `'9'`. -/
def isDigit (c : UInt8) : Bool := 48 ≤ c && c ≤ 57

/-- `c - '0'`. -/
def digitValue (c : UInt8) : ℕ := c.toNat - 48

/-- The digit of `d`, for `d < 10`. -/
def digit (d : ℕ) : UInt8 := UInt8.ofNat (48 + d)

lemma isDigit_iff {c : UInt8} : isDigit c = true ↔ 48 ≤ c.toNat ∧ c.toNat ≤ 57 := by
  simp [isDigit, UInt8.le_iff_toNat_le]

lemma toNat_digit {d : ℕ} (h : d < 10) : (digit d).toNat = 48 + d := by
  rw [digit, UInt8.toNat_ofNat']
  omega

lemma isDigit_digit {d : ℕ} (h : d < 10) : isDigit (digit d) = true := by
  rw [isDigit_iff, toNat_digit h]
  omega

@[simp] lemma digitValue_digit {d : ℕ} (h : d < 10) : digitValue (digit d) = d := by
  rw [digitValue, toNat_digit h]
  omega

/-- The number a list of digits writes, most significant first. -/
def read (ds : List UInt8) : ℕ := ds.foldl (fun n c => n * 10 + digitValue c) 0

@[simp] lemma read_nil : read [] = 0 := rfl

@[simp] lemma read_concat (ds : List UInt8) (c : UInt8) :
    read (ds ++ [c]) = read ds * 10 + digitValue c := by
  simp [read]

lemma read_append (ds es : List UInt8) :
    read (ds ++ es) = read ds * 10 ^ es.length + read es := by
  induction es using List.reverseRecOn with
  | nil => simp
  | append_singleton es c ih =>
      rw [← List.append_assoc, read_concat, read_concat, ih, List.length_append,
        List.length_singleton, pow_succ]
      ring

/-- The digits of `n`, without a leading zero. -/
def ofNat (n : ℕ) : List UInt8 :=
  if n = 0 then [48] else (Nat.digits 10 n).reverse.map digit

lemma read_map_digit (ds : List ℕ) (h : ∀ d ∈ ds, d < 10) :
    read (ds.reverse.map digit) = Nat.ofDigits 10 ds := by
  induction ds with
  | nil => rfl
  | cons d ds ih =>
      rw [List.forall_mem_cons] at h
      rw [List.reverse_cons, List.map_append, List.map_singleton, read_concat, ih h.2,
        digitValue_digit h.1, Nat.ofDigits_cons]
      ring

@[simp] lemma read_ofNat (n : ℕ) : read (ofNat n) = n := by
  rw [ofNat]
  split_ifs with h
  · rw [h]
    rfl
  · rw [read_map_digit _ fun d => Nat.digits_lt_base (by norm_num), Nat.ofDigits_digits]

lemma isDigit_ofNat (n : ℕ) : ∀ c ∈ ofNat n, isDigit c = true := by
  intro c hc
  rw [ofNat] at hc
  split_ifs at hc
  · obtain rfl := List.mem_singleton.mp hc
    rfl
  · obtain ⟨d, hd, rfl⟩ := List.mem_map.mp hc
    exact isDigit_digit (Nat.digits_lt_base (by norm_num) (List.mem_reverse.mp hd))

/-- Only the number 0 is written with a leading zero. -/
lemma lead_ofNat (n : ℕ) : ofNat n = [48] ∨ ∃ c ds, ofNat n = c :: ds ∧ 49 ≤ c := by
  rw [ofNat]
  split_ifs with h
  · exact .inl rfl
  · right
    have hne : Nat.digits 10 n ≠ [] := Nat.digits_ne_nil_iff_ne_zero.mpr h
    have hlast := Nat.getLast_digit_ne_zero 10 h
    have hlt : (Nat.digits 10 n).getLast hne < 10 :=
      Nat.digits_lt_base (by norm_num) (List.getLast_mem hne)
    refine ⟨digit ((Nat.digits 10 n).getLast hne),
      ((Nat.digits 10 n).dropLast).reverse.map digit, ?_, ?_⟩
    · rw [← List.map_cons, ← List.reverse_concat, List.dropLast_append_getLast hne]
    · rw [UInt8.le_iff_toNat_le, toNat_digit hlt]
      change 49 ≤ _
      omega

lemma length_ofNat_le {n k : ℕ} (hk : 0 < k) (h : n < 10 ^ k) : (ofNat n).length ≤ k := by
  rw [ofNat]
  split_ifs
  · exact hk
  · rw [List.length_map, List.length_reverse]
    exact Nat.digits_length_le_iff (by norm_num) n |>.mpr h

/-- The last `k` digits of `n`. -/
def padded : ℕ → ℕ → List UInt8
  | 0, _ => []
  | k + 1, n => padded k (n / 10) ++ [digit (n % 10)]

@[simp] lemma length_padded (k n : ℕ) : (padded k n).length = k := by
  induction k generalizing n with
  | zero => rfl
  | succ k ih => simp [padded, ih]

lemma isDigit_padded (k n : ℕ) : ∀ c ∈ padded k n, isDigit c = true := by
  induction k generalizing n with
  | zero => simp [padded]
  | succ k ih =>
      intro c hc
      rcases List.mem_append.mp hc with hc | hc
      · exact ih _ c hc
      · obtain rfl := List.mem_singleton.mp hc
        exact isDigit_digit (Nat.mod_lt _ (by norm_num))

@[simp] lemma read_padded (k n : ℕ) : read (padded k n) = n % 10 ^ k := by
  induction k generalizing n with
  | zero => simp [padded, Nat.mod_one]
  | succ k ih =>
      rw [padded, read_concat, ih, digitValue_digit (Nat.mod_lt _ (by norm_num)), pow_succ',
        Nat.mod_mul]
      ring

/-! ## Numerals -/

/-- `-`, digits, `.` and digits, `e` with a sign and digits; the last two may be missing. -/
structure Numeral where
  negative : Bool
  int : List UInt8
  frac : List UInt8
  /-- The sign, `true` for `-`, and the digits. -/
  exponent : Option (Bool × List UInt8)
  isDigit_int : ∀ c ∈ int, isDigit c = true
  lead_int : int = [48] ∨ ∃ c ds, int = c :: ds ∧ 49 ≤ c
  isDigit_frac : ∀ c ∈ frac, isDigit c = true
  isDigit_exponent : ∀ e ∈ exponent, ∀ c ∈ e.2, isDigit c = true

namespace Numeral

/-- `-` or nothing. -/
def signText (negative : Bool) : List UInt8 := if negative then [45] else []

/-- `.` and the digits, or nothing. -/
def fracText : List UInt8 → List UInt8
  | [] => []
  | c :: ds => 46 :: c :: ds

/-- `e`, a sign and the digits, or nothing. -/
def exponentText : Option (Bool × List UInt8) → List UInt8
  | none => []
  | some (negative, ds) => 101 :: (if negative then 45 else 43) :: ds

def text (m : Numeral) : List UInt8 :=
  signText m.negative ++ (m.int ++ (fracText m.frac ++ exponentText m.exponent))

/-- The bytes of a numeral. -/
lemma byte (m : Numeral) : ∀ c ∈ m.text,
    isDigit c = true ∨ c ∈ ([43, 45, 46, 101] : List UInt8) := by
  simp only [text, List.forall_mem_append]
  refine ⟨?_, fun c hc => .inl (m.isDigit_int c hc), ?_, ?_⟩
  · cases m.negative <;> simp [signText]
  · intro c hc
    cases hfrac : m.frac with
    | nil => simp [hfrac, fracText] at hc
    | cons d ds =>
        rw [hfrac] at hc
        rcases List.mem_cons.mp hc with rfl | hc
        · exact .inr (by decide)
        · exact .inl (m.isDigit_frac c (hfrac ▸ hc))
  · intro c hc
    cases hexp : m.exponent with
    | none => simp [hexp, exponentText] at hc
    | some x =>
        obtain ⟨negative, ds⟩ := x
        rw [hexp] at hc
        rcases List.mem_cons.mp hc with rfl | hc
        · exact .inr (by decide)
        · rcases List.mem_cons.mp hc with rfl | hc
          · exact .inr (by cases negative <;> decide)
          · exact .inl (m.isDigit_exponent _ hexp c hc)

/-- The power of ten the exponent names. -/
def exponentValue : Option (Bool × List UInt8) → ℤ
  | none => 0
  | some (negative, ds) => if negative then -(read ds : ℤ) else read ds

/-- All digits before the exponent, as a number. -/
def digits (m : Numeral) : ℕ := read (m.int ++ m.frac)

def value (m : Numeral) : ℚ :=
  (if m.negative then -1 else 1) * m.digits
    * 10 ^ (-(m.frac.length : ℤ) + exponentValue m.exponent)

end Numeral

/-- `%d`. -/
def ofInt (n : ℤ) : Numeral where
  negative := n < 0
  int := ofNat n.natAbs
  frac := []
  exponent := none
  isDigit_int := isDigit_ofNat _
  lead_int := lead_ofNat _
  isDigit_frac := by simp
  isDigit_exponent := by simp

@[simp] lemma value_ofInt (n : ℤ) : (ofInt n).value = n := by
  simp only [Numeral.value, Numeral.digits, ofInt, List.append_nil, read_ofNat]
  rcases lt_or_ge n 0 with h | h
  · have : (n.natAbs : ℚ) = -n := by
      rw [Nat.cast_natAbs, abs_of_neg h]
      push_cast
      ring
    simp [Numeral.exponentValue, h, this]
  · have : (n.natAbs : ℚ) = n := by rw [Nat.cast_natAbs, abs_of_nonneg h]
    simp [Numeral.exponentValue, not_lt.mpr h, this]

/-! ## Rounding -/

/-- The nearest natural number, the even one of two. -/
def roundEven (q : ℚ) : ℕ :=
  let n := ⌊q⌋₊
  if q - n < 1 / 2 then n else if 1 / 2 < q - n then n + 1 else n + n % 2

lemma abs_roundEven_sub_le {q : ℚ} (h : 0 ≤ q) : |(roundEven q : ℚ) - q| ≤ 1 / 2 := by
  have hle := Nat.floor_le h
  have hlt := Nat.lt_floor_add_one q
  have heven : ((⌊q⌋₊ % 2 : ℕ) : ℚ) ≤ 1 := by
    exact_mod_cast Nat.lt_succ_iff.mp (Nat.mod_lt _ (by norm_num))
  have heven' : (0 : ℚ) ≤ ((⌊q⌋₊ % 2 : ℕ) : ℚ) := Nat.cast_nonneg _
  rw [roundEven, abs_le]
  split_ifs <;> push_cast at * <;> constructor <;> linarith

/-- A natural number less than a half away is the nearest. -/
lemma roundEven_eq {q : ℚ} (h : 0 ≤ q) {n : ℕ} (hn : |(n : ℚ) - q| < 1 / 2) : roundEven q = n := by
  have hr := abs_roundEven_sub_le h
  rw [abs_le] at hr
  rw [abs_lt] at hn
  have hlt : (roundEven q : ℚ) < n + 1 := by linarith
  have hgt : (n : ℚ) < roundEven q + 1 := by linarith
  have hlt' : roundEven q < n + 1 := by exact_mod_cast hlt
  have hgt' : n < roundEven q + 1 := by exact_mod_cast hgt
  omega

/-- Rounding does not pass a natural number. -/
lemma le_roundEven {q : ℚ} (h : 0 ≤ q) {n : ℕ} (hn : (n : ℚ) ≤ q) : n ≤ roundEven q := by
  have hr := (abs_le.mp (abs_roundEven_sub_le h)).1
  have hlt : (n : ℚ) < roundEven q + 1 := by linarith
  exact Nat.lt_succ_iff.mp (by exact_mod_cast hlt)

lemma roundEven_le {q : ℚ} (h : 0 ≤ q) {n : ℕ} (hn : q ≤ n) : roundEven q ≤ n := by
  have hr := (abs_le.mp (abs_roundEven_sub_le h)).2
  have hlt : (roundEven q : ℚ) < n + 1 := by linarith
  exact Nat.lt_succ_iff.mp (by exact_mod_cast hlt)

@[simp] lemma roundEven_natCast (n : ℕ) : roundEven n = n :=
  roundEven_eq n.cast_nonneg (by norm_num)

/-! ## `%.pf` -/

/-- `m / 10 ^ p` with `p` digits after the point. -/
def scaled (negative : Bool) (p m : ℕ) (exponent : Option (Bool × List UInt8))
    (h : ∀ e ∈ exponent, ∀ c ∈ e.2, isDigit c = true) : Numeral where
  negative := negative
  int := ofNat (m / 10 ^ p)
  frac := padded p m
  exponent := exponent
  isDigit_int := isDigit_ofNat _
  lead_int := lead_ofNat _
  isDigit_frac := isDigit_padded p m
  isDigit_exponent := h

lemma value_scaled (negative : Bool) (p m : ℕ) (exponent : Option (Bool × List UInt8))
    (h : ∀ e ∈ exponent, ∀ c ∈ e.2, isDigit c = true) :
    (scaled negative p m exponent h).value = (if negative then -1 else 1) * m
      * 10 ^ (Numeral.exponentValue exponent - p) := by
  have hdigits : (scaled negative p m exponent h).digits = m := by
    rw [Numeral.digits, scaled, read_append, read_ofNat, read_padded, length_padded]
    exact Nat.div_add_mod' m (10 ^ p)
  rw [Numeral.value, hdigits, sub_eq_neg_add]
  simp only [scaled, length_padded]
  rfl

/-- `%.pf`. -/
def fixed (p : ℕ) (q : ℚ) : Numeral :=
  scaled (q < 0) p (roundEven (|q| * 10 ^ p)) none (by simp)

/-- The value written is a whole number of units in the last place, with the sign of `q`. -/
lemma value_fixed (p : ℕ) (q : ℚ) :
    (fixed p q).value = (if q < 0 then -1 else 1) * roundEven (|q| * 10 ^ p) / 10 ^ p := by
  rw [fixed, value_scaled]
  simp only [Numeral.exponentValue, zero_sub, zpow_neg, zpow_natCast, decide_eq_true_eq]
  rw [div_eq_mul_inv]

/-- Splitting off the sign of a number. -/
lemma sign_mul_abs (q : ℚ) : (if q < 0 then -1 else 1) * |q| = q := by
  split_ifs with h
  · rw [abs_of_neg h]
    ring
  · rw [abs_of_nonneg (not_lt.mp h), one_mul]

lemma abs_sign_mul (q r : ℚ) : |(if q < 0 then (-1 : ℚ) else 1) * r| = |r| := by
  split_ifs <;> simp

/-- What is written with the sign of `q` is as far from `q` as the magnitudes are. -/
lemma abs_sign_mul_sub (q r : ℚ) : |(if q < 0 then -1 else 1) * r - q| = |(r - |q|)| := by
  calc |(if q < 0 then -1 else 1) * r - q|
      = |(if q < 0 then (-1 : ℚ) else 1) * (r - |q|)| := by rw [mul_sub, sign_mul_abs]
    _ = |(r - |q|)| := abs_sign_mul q _

/-- **`%.pf` is off by at most half a unit in the last place.** -/
theorem fixed_error (p : ℕ) (q : ℚ) : |(fixed p q).value - q| ≤ 1 / 2 / 10 ^ p := by
  have hp : (0 : ℚ) < 10 ^ p := by positivity
  have hr := abs_roundEven_sub_le (q := |q| * 10 ^ p) (by positivity)
  rw [value_fixed, mul_div_assoc, abs_sign_mul_sub, le_div_iff₀ hp, ← abs_of_pos hp, ← abs_mul,
    abs_of_pos hp, sub_mul, div_mul_cancel₀ _ hp.ne']
  exact hr

/-- A value with at most `p` digits after the point is written exactly. -/
theorem fixed_exact {p : ℕ} {q : ℚ} {m : ℕ} (h : |q| * 10 ^ p = m) : (fixed p q).value = q := by
  have hp : (0 : ℚ) < 10 ^ p := by positivity
  rw [value_fixed, h, roundEven_natCast, ← h, ← mul_assoc, sign_mul_abs,
    mul_div_cancel_right₀ _ hp.ne']

/-! ## `%.pe` -/

/-- The digits of an exponent: two of them at least. -/
def exponentDigits (e : ℤ) : List UInt8 :=
  if e.natAbs < 10 then padded 2 e.natAbs else ofNat e.natAbs

lemma isDigit_exponentDigits (e : ℤ) : ∀ c ∈ exponentDigits e, isDigit c = true := by
  rw [exponentDigits]
  split_ifs
  · exact isDigit_padded _ _
  · exact isDigit_ofNat _

@[simp] lemma exponentValue_exponentDigits (e : ℤ) :
    Numeral.exponentValue (some (decide (e < 0), exponentDigits e)) = e := by
  have hread : read (exponentDigits e) = e.natAbs := by
    rw [exponentDigits]
    split_ifs with h
    · rw [read_padded]
      omega
    · rw [read_ofNat]
  simp only [Numeral.exponentValue, hread]
  split_ifs with h <;> simp only [decide_eq_true_eq] at h <;> omega

/-- The digits of `%.pe` as a number of `p + 1` digits, and the exponent of the first. -/
def significand (p : ℕ) (q : ℚ) : ℕ × ℤ :=
  let e := Int.log 10 |q|
  let m := roundEven (|q| * 10 ^ ((p : ℤ) - e))
  -- rounding up to the next power of ten moves the exponent
  if m = 10 ^ (p + 1) then (10 ^ p, e + 1) else (m, e)

/-- `%.pe`, of a value that is not 0. -/
def scientific (p : ℕ) (q : ℚ) : Numeral :=
  let me := significand p q
  scaled (q < 0) p me.1 (some (decide (me.2 < 0), exponentDigits me.2)) (by
    rintro e he c hc
    rw [Option.mem_some_iff] at he
    subst he
    exact isDigit_exponentDigits _ c hc)

lemma value_scientific (p : ℕ) (q : ℚ) : (scientific p q).value
    = (if q < 0 then -1 else 1) * ((significand p q).1 * 10 ^ ((significand p q).2 - p)) := by
  rw [scientific, value_scaled, exponentValue_exponentDigits, ← mul_assoc]
  simp only [decide_eq_true_eq]

section

variable (p : ℕ) {q : ℚ}

/-- The digits before rounding: one before the point, `p` after it. -/
lemma unrounded_mem (hq : q ≠ 0) :
    (10 : ℚ) ^ p ≤ |q| * 10 ^ ((p : ℤ) - Int.log 10 |q|)
      ∧ |q| * 10 ^ ((p : ℤ) - Int.log 10 |q|) < 10 ^ (p + 1) := by
  have hpos : 0 < |q| := abs_pos.mpr hq
  have hle := Int.zpow_log_le_self (b := 10) (by norm_num) hpos
  have hlt := Int.lt_zpow_succ_log_self (b := 10) (by norm_num) (|q|)
  have hscale : (0 : ℚ) < 10 ^ ((p : ℤ) - Int.log 10 |q|) := by positivity
  push_cast at hle hlt
  constructor
  · calc (10 : ℚ) ^ p
        = 10 ^ (Int.log 10 |q|) * 10 ^ ((p : ℤ) - Int.log 10 |q|) := by
          rw [← zpow_add₀ (by norm_num), add_sub_cancel, zpow_natCast]
      _ ≤ _ := mul_le_mul_of_nonneg_right hle hscale.le
  · calc _ < (10 : ℚ) ^ (Int.log 10 |q| + 1) * 10 ^ ((p : ℤ) - Int.log 10 |q|) :=
          mul_lt_mul_of_pos_right hlt hscale
      _ = (10 : ℚ) ^ (p + 1) := by
          rw [← zpow_add₀ (by norm_num), ← zpow_natCast]
          congr 1
          push_cast
          ring

lemma unrounded_nonneg (q : ℚ) : 0 ≤ |q| * 10 ^ ((p : ℤ) - Int.log 10 |q|) := by
  positivity

/-- Rounding stays within the same number of digits, or reaches the next power of ten. -/
lemma rounded_mem (hq : q ≠ 0) :
    10 ^ p ≤ roundEven (|q| * 10 ^ ((p : ℤ) - Int.log 10 |q|))
      ∧ roundEven (|q| * 10 ^ ((p : ℤ) - Int.log 10 |q|)) ≤ 10 ^ (p + 1) := by
  obtain ⟨hle, hlt⟩ := unrounded_mem p hq
  exact ⟨le_roundEven (unrounded_nonneg p q) (by exact_mod_cast hle),
    roundEven_le (unrounded_nonneg p q) (by exact_mod_cast hlt.le)⟩

/-- The digits have one digit before the point. -/
lemma significand_mem (hq : q ≠ 0) :
    10 ^ p ≤ (significand p q).1 ∧ (significand p q).1 < 10 ^ (p + 1) := by
  obtain ⟨hle, hlt⟩ := rounded_mem p hq
  simp only [significand]
  split_ifs with h
  · exact ⟨le_rfl, Nat.pow_lt_pow_right (by norm_num) p.lt_succ_self⟩
  · exact ⟨hle, lt_of_le_of_ne hlt h⟩

/-- The exponent is that of the value, or the next one with a power of ten. -/
lemma significand_exponent (q : ℚ) : (significand p q).2 = Int.log 10 |q|
    ∨ ((significand p q).2 = Int.log 10 |q| + 1 ∧ (significand p q).1 = 10 ^ p) := by
  simp only [significand]
  split_ifs
  · exact .inr ⟨rfl, rfl⟩
  · exact .inl rfl

/-- Moving the exponent does not move the value. -/
lemma significand_value : ((significand p q).1 : ℚ) * 10 ^ ((significand p q).2 - p)
    = roundEven (|q| * 10 ^ ((p : ℤ) - Int.log 10 |q|)) * 10 ^ (Int.log 10 |q| - p) := by
  simp only [significand]
  split_ifs with h
  · rw [h]
    push_cast
    rw [pow_succ, mul_assoc, ← zpow_one_add₀ (by norm_num)]
    congr 2
    ring
  · rfl

lemma abs_value_scientific (q : ℚ) :
    |(scientific p q).value| = (significand p q).1 * 10 ^ ((significand p q).2 - p) := by
  rw [value_scientific, abs_sign_mul, abs_of_nonneg (by positivity)]

/-- **`%.pe` is off by at most half a unit in its last place**, the digit `p` places after the
first. -/
theorem scientific_error (q : ℚ) :
    |(scientific p q).value - q| ≤ 1 / 2 * 10 ^ (Int.log 10 |q| - p) := by
  have hr := abs_roundEven_sub_le (unrounded_nonneg p q)
  have hunit : (0 : ℚ) < 10 ^ (Int.log 10 |q| - p) := by positivity
  have hback : |q| = |q| * 10 ^ ((p : ℤ) - Int.log 10 |q|) * 10 ^ (Int.log 10 |q| - p) := by
    rw [mul_assoc, ← zpow_add₀ (by norm_num), sub_add_sub_cancel, sub_self, zpow_zero, mul_one]
  rw [value_scientific, abs_sign_mul_sub, significand_value]
  calc _ = |(roundEven (|q| * 10 ^ ((p : ℤ) - Int.log 10 |q|)) : ℚ)
          - |q| * 10 ^ ((p : ℤ) - Int.log 10 |q|)| * 10 ^ (Int.log 10 |q| - p) := by
        rw [← abs_of_pos hunit, ← abs_mul, abs_of_pos hunit, sub_mul, ← hback]
    _ ≤ 1 / 2 * 10 ^ (Int.log 10 |q| - p) := mul_le_mul_of_nonneg_right hr hunit.le

/-- The exponent written is that of the value, within one. -/
lemma natAbs_exponent_le {k : ℕ} (hq : q ≠ 0) (hlow : 1 / 10 ^ k ≤ |q|) (htop : |q| ≤ 10 ^ k) :
    (significand p q).2.natAbs ≤ k + 1 := by
  have hpos : 0 < |q| := abs_pos.mpr hq
  have hlogLow : -(k : ℤ) ≤ Int.log 10 |q| := by
    rw [← Int.zpow_le_iff_le_log (by norm_num) hpos, zpow_neg, zpow_natCast]
    push_cast
    rwa [← one_div]
  have hlogTop : Int.log 10 |q| < (k : ℤ) + 1 := by
    rw [← Int.lt_zpow_iff_log_lt (by norm_num) hpos]
    refine htop.trans_lt ?_
    push_cast
    rw [← zpow_natCast]
    exact zpow_lt_zpow_right₀ (by norm_num) (by omega)
  rcases significand_exponent p q with he | ⟨he, -⟩ <;> omega

/-- A value of at most `p + 1` significant digits is written exactly. -/
theorem scientific_exact {m : ℕ} {e : ℤ} (hm : 10 ^ p ≤ m) (hm' : m < 10 ^ (p + 1))
    (h : |q| = m * 10 ^ (e - p)) : (scientific p q).value = q := by
  have hpos : (0 : ℚ) < 10 ^ (e - p) := by positivity
  have hm₀ : (10 : ℚ) ^ p ≤ m := by exact_mod_cast hm
  have hm₁ : (m : ℚ) < 10 ^ (p + 1) := by exact_mod_cast hm'
  have hq : 0 < |q| := by
    rw [h]
    exact mul_pos ((show (0 : ℚ) < 10 ^ p by positivity).trans_le hm₀) hpos
  have hlog : Int.log 10 |q| = e := by
    refine le_antisymm (Int.lt_add_one_iff.mp ?_) ?_
    · rw [← Int.lt_zpow_iff_log_lt (by norm_num) hq, h]
      calc (m : ℚ) * 10 ^ (e - p) < 10 ^ (p + 1) * 10 ^ (e - p) :=
            mul_lt_mul_of_pos_right hm₁ hpos
        _ = ((10 : ℕ) : ℚ) ^ (e + 1) := by
            rw [← zpow_natCast, ← zpow_add₀ (by norm_num)]
            push_cast
            congr 1
            ring
    · rw [← Int.zpow_le_iff_le_log (by norm_num) hq, h]
      calc ((10 : ℕ) : ℚ) ^ e = 10 ^ p * 10 ^ (e - p) := by
            rw [← zpow_natCast, ← zpow_add₀ (by norm_num)]
            push_cast
            congr 1
            ring
        _ ≤ m * 10 ^ (e - p) := mul_le_mul_of_nonneg_right hm₀ hpos.le
  rw [value_scientific, significand_value, hlog, h, mul_assoc (m : ℚ), ← zpow_add₀ (by norm_num),
    sub_add_sub_cancel', sub_self, zpow_zero, mul_one, roundEven_natCast, ← h, sign_mul_abs]

end

/-! ## Lengths -/

lemma length_text_le (m : Numeral) : m.text.length
    ≤ 1 + m.int.length + (1 + m.frac.length) + (Numeral.exponentText m.exponent).length := by
  have hsign : (Numeral.signText m.negative).length ≤ 1 := by cases m.negative <;> decide
  have hfrac : (Numeral.fracText m.frac).length ≤ 1 + m.frac.length := by
    cases m.frac with
    | nil => exact Nat.zero_le _
    | cons c ds => exact (Nat.add_comm _ _).le
  simp only [Numeral.text, List.length_append]
  omega

lemma length_ofInt_le {n : ℤ} {k : ℕ} (hk : 0 < k) (h : n.natAbs < 10 ^ k) :
    (ofInt n).text.length ≤ k + 2 := by
  have hint : (ofNat n.natAbs).length ≤ k := length_ofNat_le hk h
  have htext := length_text_le (ofInt n)
  simp only [ofInt, Numeral.exponentText, List.length_nil] at htext ⊢
  omega

lemma length_fixed_le (p : ℕ) {q : ℚ} {k : ℕ} (h : |q| ≤ 10 ^ k) :
    (fixed p q).text.length ≤ k + p + 3 := by
  have hdigits : roundEven (|q| * 10 ^ p) ≤ 10 ^ k * 10 ^ p :=
    roundEven_le (by positivity) (by push_cast; gcongr)
  have hint : (ofNat (roundEven (|q| * 10 ^ p) / 10 ^ p)).length ≤ k + 1 := by
    refine length_ofNat_le k.succ_pos (lt_of_le_of_lt (Nat.div_le_of_le_mul ?_)
      (Nat.pow_lt_pow_right (by norm_num) k.lt_succ_self))
    rwa [Nat.mul_comm]
  have htext := length_text_le (fixed p q)
  simp only [fixed, scaled, length_padded, Numeral.exponentText, List.length_nil] at htext ⊢
  omega

lemma length_exponentDigits_le {e : ℤ} {k : ℕ} (hk : 2 ≤ k) (h : e.natAbs < 10 ^ k) :
    (exponentDigits e).length ≤ k := by
  rw [exponentDigits]
  split_ifs
  · rwa [length_padded]
  · exact length_ofNat_le (by omega) h

lemma length_scientific_le (p : ℕ) {q : ℚ} {k : ℕ} (hq : q ≠ 0) (hk : 2 ≤ k)
    (h : (significand p q).2.natAbs < 10 ^ k) : (scientific p q).text.length ≤ k + p + 5 := by
  have hint : (ofNat ((significand p q).1 / 10 ^ p)).length ≤ 1 := by
    refine length_ofNat_le Nat.one_pos (Nat.div_lt_of_lt_mul ?_)
    rw [pow_one, ← pow_succ]
    exact (significand_mem p hq).2
  have hexp := length_exponentDigits_le hk h
  have htext := length_text_le (scientific p q)
  simp only [scientific, scaled, length_padded, Numeral.exponentText, List.length_cons]
    at htext ⊢
  omega

end Decimal
