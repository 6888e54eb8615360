import SbusRemote.Core.Decimal
import SbusRemote.Json.Text

/-!
# Numbers

`parse_number` and `print_number`, over any arithmetic of `double`.

What the two do with the text does not depend on how `double` rounds, so the arithmetic is a
parameter: `CDouble` has one field for each operation the two functions use.  The text `sprintf`
makes of a finite value is a decimal numeral, of any other a word (`DoubleText`).  `exactDouble` is
the arithmetic of exact rationals.

* `parseNumber_text` — in front of anything that does not continue a number, `parse_number` reads
  a numeral to its end and no further; `exists_parseNumber` says that it reads nothing else, and
  goes wrong only at an exponent that is no `int` (`exponentsFit`).
* `Number.Finite`, `parseNumber_shown` — what a finite number becomes when its text is read back.
-/

namespace SbusRemote.CJson

open Decimal (Numeral isDigit digitValue)

/-- What `sprintf` makes of a `double`: a numeral, `inf` or `nan`. -/
inductive DoubleText where
  | numeral (m : Numeral)
  | inf (negative : Bool)
  | nan (negative : Bool)

/-- The bytes. -/
def DoubleText.text : DoubleText → Text
  | .numeral m => m.text
  | .inf negative => Numeral.signText negative ++ [105, 110, 102]
  | .nan negative => Numeral.signText negative ++ [110, 97, 110]

/-- `double`, as far as `cJSON.c` computes with it. -/
class CDouble (D : Type) where
  /-- The `double` of a literal, or of an `int`. -/
  lit : ℚ → D
  add : D → D → D
  sub : D → D → D
  mul : D → D → D
  fabs : D → D
  floor : D → D
  /-- `pow(10.0, k)`. -/
  pow10 : ℤ → D
  eq : D → D → Bool
  le : D → D → Bool
  lt : D → D → Bool
  /-- The conversion to `int`; of a value that is out of range it may be anything. -/
  toInt : D → ℤ
  /-- `sprintf` with `%.pf`. -/
  fixed : ℕ → D → DoubleText
  /-- `sprintf` with `%.pe`. -/
  scientific : ℕ → D → DoubleText

/-- `valueint` and `valuedouble` of an item of type `cJSON_Number`. -/
structure Number (D : Type) where
  valueint : ℤ
  valuedouble : D
  deriving DecidableEq

/-! ## `parse_number` -/

section

variable {D : Type} [CDouble D]

/-- `n=(n*10.0)+(*num++ -'0')`, for each digit of `ds`. -/
def accumulate (n : D) (ds : Text) : D :=
  ds.foldl (fun n c => CDouble.add (CDouble.mul n (CDouble.lit 10)) (CDouble.lit (digitValue c))) n

/-- The digits at a cursor. -/
def digitsAt (num : Text) : Text := num.takeWhile isDigit

/-- The cursor after the digits. -/
def afterDigits (num : Text) : Text := num.dropWhile isDigit

/-- `sign`, and the cursor after `-`. -/
def readSign (D : Type) [CDouble D] (num : Text) : D × Text :=
  if peek num = 45 then (CDouble.lit (-1), num.tail) else (CDouble.lit 1, num)

/-- `n` after the integer part: a leading zero is passed over, then digits count from 1 to 9. -/
def readInt (D : Type) [CDouble D] (num : Text) : D × Text :=
  let num := if peek num = 48 then num.tail else num
  if 49 ≤ peek num && peek num ≤ 57 then
    (accumulate (CDouble.lit 0) (digitsAt num), afterDigits num)
  else (CDouble.lit 0, num)

/-- `n` and `scale` after the fractional part. -/
def readFraction (n : D) (num : Text) : D × ℤ × Text :=
  if peek num = 46 && isDigit (peek num.tail) then
    (accumulate n (digitsAt num.tail), -(digitsAt num.tail).length, afterDigits num.tail)
  else (n, 0, num)

/-- `subscale=(subscale*10)+(*num++ - '0')`, for each digit of `ds`; `subscale` is an `int`. -/
def accumulateInt (ds : Text) : Option ℕ :=
  ds.foldlM (fun n c =>
    if n * 10 + digitValue c ≤ intMax then some (n * 10 + digitValue c) else none) 0

/-- `subscale*signsubscale` after the exponent. -/
def readExponent (num : Text) : Parsed ℤ :=
  if peek num = 101 || peek num = 69 then
    let num := num.tail
    let (signsubscale, num) : ℤ × Text :=
      if peek num = 43 then (1, num.tail) else if peek num = 45 then (-1, num.tail) else (1, num)
    (accumulateInt (digitsAt num)).elim .fault fun subscale =>
      .done (subscale * signsubscale) (afterDigits num)
  else .done 0 num

/-- The end of `parse_number`: `n=sign*n*pow(10.0,(scale+subscale*signsubscale))`. -/
def finishNumber (sign n : D) (scale : ℤ) : Number D :=
  let n := CDouble.mul (CDouble.mul sign n) (CDouble.pow10 scale)
  ⟨CDouble.toInt n, n⟩

/-- `parse_number`, called at `-` or a digit: it never fails. -/
def parseNumber (D : Type) [CDouble D] (num : Text) : Parsed (Number D) :=
  let (sign, num) := readSign D num
  let (n, num) := readInt D num
  let (n, scale, num) := readFraction n num
  (readExponent num).bind fun subscale num => .done (finishNumber sign n (scale + subscale)) num

/-! ## Number texts -/

/-- The digits of an integer part: they start from 1 to 9, and may be missing. -/
structure IntDigits (int : Text) : Prop where
  isDigit : ∀ c ∈ int, isDigit c = true
  lead : int = [] ∨ 49 ≤ peek int

/-- The digits of an exponent: they may be missing, and what they say is an `int`. -/
structure ExponentDigits (ds : Text) : Prop where
  isDigit : ∀ d ∈ ds, isDigit d = true
  fits : Decimal.read ds ≤ intMax

/-- The text of an exponent and the power of ten it names. -/
inductive ExponentText : Text → ℤ → Prop
  | none : ExponentText [] 0
  | plain {c : UInt8} {ds : Text} : c = 101 ∨ c = 69 → ExponentDigits ds →
      ExponentText (c :: ds) (Decimal.read ds)
  | plus {c : UInt8} {ds : Text} : c = 101 ∨ c = 69 → ExponentDigits ds →
      ExponentText (c :: 43 :: ds) (Decimal.read ds)
  | minus {c : UInt8} {ds : Text} : c = 101 ∨ c = 69 → ExponentDigits ds →
      ExponentText (c :: 45 :: ds) (-(Decimal.read ds))

/-- A leading zero, or nothing. -/
def zeroText (zero : Bool) : Text := if zero then [48] else []

/-- **The texts `parse_number` takes for a number**, and the number.  More than JSON allows: zeros
in front, no digits after `-` or after `e`. -/
inductive NumberText : Text → Number D → Prop
  | mk {negative zero : Bool} {int frac e : Text} {k : ℤ} : negative ∨ zero ∨ int ≠ [] →
      IntDigits int → (∀ c ∈ frac, isDigit c = true) → ExponentText e k →
      NumberText
        (Numeral.signText negative ++ (zeroText zero ++ (int ++ (Numeral.fracText frac ++ e))))
        (finishNumber (CDouble.lit (if negative then -1 else 1))
          (accumulate (accumulate (CDouble.lit 0) int) frac) (-(frac.length : ℤ) + k))

/-- `num` goes on with something that is not part of a number. -/
def NumberEnds (num : Text) : Prop :=
  isDigit (peek num) = false ∧ peek num ∉ ([46, 101, 69, 43, 45] : Text)

instance (num : Text) : Decidable (NumberEnds num) := inferInstanceAs (Decidable (_ ∧ _))

lemma digitsAt_append {ds r : Text} (hds : ∀ c ∈ ds, isDigit c = true)
    (hr : isDigit (peek r) = false) : digitsAt (ds ++ r) = ds ∧ afterDigits (ds ++ r) = r := by
  have hall := List.takeWhile_eq_self_iff.mpr hds
  cases r with
  | nil => simpa [digitsAt, afterDigits, hall] using hds
  | cons c r =>
      rw [peek_cons] at hr
      constructor
      · rw [digitsAt, List.takeWhile_append_of_pos hds, List.takeWhile_cons_of_neg (by simpa),
          List.append_nil]
      · rw [afterDigits, List.dropWhile_append_of_pos hds, List.dropWhile_cons_of_neg (by simpa)]

/-- The digits are read to their number if it is an `int`; the count only grows, so nothing before
the last digit overflows either. -/
lemma accumulateInt_eq (ds : Text) :
    accumulateInt ds = if Decimal.read ds ≤ intMax then some (Decimal.read ds) else none := by
  induction ds using List.reverseRecOn with
  | nil => rfl
  | append_singleton ds c ih =>
      have hstep : accumulateInt (ds ++ [c]) = (accumulateInt ds).bind fun n =>
          if n * 10 + digitValue c ≤ intMax then some (n * 10 + digitValue c) else none := by
        simp only [accumulateInt, List.foldlM_append, List.foldlM_cons, List.foldlM_nil, bind_pure,
          Option.bind_eq_bind]
      rw [hstep, ih, Decimal.read_concat]
      split_ifs with h h' h'
      · rw [Option.bind_some, if_pos h']
      · rw [Option.bind_some, if_neg h']
      · exact absurd h' (by omega)
      · rfl

lemma accumulateInt_fits {ds : Text} (h : ExponentDigits ds) :
    accumulateInt ds = some (Decimal.read ds) := by
  rw [accumulateInt_eq, if_pos h.fits]

/-! ## Each part is read to its end -/

lemma readSign_text {negative : Bool} {r : Text} (hr : negative = true ∨ peek r ≠ 45) :
    readSign D (Numeral.signText negative ++ r)
      = (CDouble.lit (if negative then -1 else 1), r) := by
  cases negative with
  | true => rfl
  | false => simp [readSign, Numeral.signText, hr.resolve_left (by simp)]

lemma readInt_text (zero : Bool) {int r : Text} (hint : IntDigits int)
    (hr : isDigit (peek r) = false) :
    readInt D (zeroText zero ++ (int ++ r)) = (accumulate (CDouble.lit 0) int, r) := by
  obtain ⟨hds, hafter⟩ := digitsAt_append hint.isDigit hr
  have hzero : (if peek (zeroText zero ++ (int ++ r)) = 48 then (zeroText zero ++ (int ++ r)).tail
      else zeroText zero ++ (int ++ r)) = int ++ r := by
    cases zero with
    | true => rfl
    | false =>
        refine if_neg ?_
        rcases hint.lead with rfl | h
        · rintro h
          exact absurd hr (by rw [show peek r = 48 from h]; decide)
        · cases int with
          | nil => exact absurd h (by decide)
          | cons c int =>
              rintro (rfl : c = 48)
              exact absurd (show (49 : UInt8) ≤ 48 from h) (by decide)
  simp only [readInt, hzero]
  cases int with
  | nil =>
      refine if_neg ?_
      simp only [isDigit, Bool.and_eq_false_iff, decide_eq_false_iff_not] at hr
      rw [List.nil_append, Bool.and_eq_true, decide_eq_true_eq, decide_eq_true_eq]
      rintro ⟨h49, h57⟩
      exact hr.elim (fun h => h (UInt8.le_trans (by decide) h49)) (fun h => h h57)
  | cons c int =>
      have hc := hint.isDigit c List.mem_cons_self
      simp only [isDigit, Bool.and_eq_true, decide_eq_true_eq] at hc
      have h49 : 49 ≤ c := hint.lead.resolve_left (by simp)
      have hin : (49 ≤ c && c ≤ 57) = true := by
        rw [Bool.and_eq_true, decide_eq_true_eq, decide_eq_true_eq]
        exact ⟨h49, hc.2⟩
      have hpeek : peek (c :: int ++ r) = c := rfl
      rw [hpeek, if_pos hin, hds, hafter]

lemma readFraction_text (n : D) {frac r : Text} (hfrac : ∀ c ∈ frac, isDigit c = true)
    (hr : isDigit (peek r) = false) (hdot : peek r ≠ 46) :
    readFraction n (Numeral.fracText frac ++ r) = (accumulate n frac, -(frac.length : ℤ), r) := by
  cases frac with
  | nil => simp [Numeral.fracText, readFraction, hdot, accumulate]
  | cons c ds =>
      obtain ⟨hds, hafter⟩ := digitsAt_append hfrac hr
      have hc : isDigit c = true := hfrac c List.mem_cons_self
      have htext : Numeral.fracText (c :: ds) ++ r = 46 :: (c :: ds ++ r) := rfl
      rw [htext, readFraction, if_pos (by simpa using hc), List.tail_cons, hds, hafter]

lemma readExponent_text {e r : Text} {k : ℤ} (he : ExponentText e k) (hr : NumberEnds r) :
    readExponent (e ++ r) = .done k r := by
  simp only [NumberEnds, List.mem_cons, List.not_mem_nil, or_false, not_or] at hr
  have hletter {c : UInt8} (hc : c = 101 ∨ c = 69) (t : Text) :
      (peek (c :: t) = 101 || peek (c :: t) = 69) = true := by
    rcases hc with rfl | rfl <;> rfl
  cases he with
  | none => simp [readExponent, hr.2.2.1, hr.2.2.2.1]
  | @plain c ds hc hds =>
      obtain ⟨hat, hafter⟩ := digitsAt_append hds.isDigit hr.1
      have hsign : peek (ds ++ r) ≠ 43 ∧ peek (ds ++ r) ≠ 45 := by
        cases ds with
        | nil => exact hr.2.2.2.2
        | cons d ds =>
            have hd := hds.isDigit d List.mem_cons_self
            constructor <;> rintro (rfl : d = _) <;> exact absurd hd (by decide)
      rw [List.cons_append, readExponent, if_pos (hletter hc _)]
      simp [hsign.1, hsign.2, hat, hafter, accumulateInt_fits hds]
  | @plus c ds hc hds =>
      obtain ⟨hat, hafter⟩ := digitsAt_append hds.isDigit hr.1
      rw [List.cons_append, readExponent, if_pos (hletter hc _)]
      simp [hat, hafter, accumulateInt_fits hds]
  | @minus c ds hc hds =>
      obtain ⟨hat, hafter⟩ := digitsAt_append hds.isDigit hr.1
      rw [List.cons_append, readExponent, if_pos (hletter hc _)]
      simp [hat, hafter, accumulateInt_fits hds]

/-- The byte after the digits of a number is not one of them. -/
lemma peek_exponentText {e r : Text} {k : ℤ} (he : ExponentText e k) (hr : NumberEnds r) :
    isDigit (peek (e ++ r)) = false ∧ peek (e ++ r) ≠ 46 := by
  have hletter {c : UInt8} (hc : c = 101 ∨ c = 69) : isDigit c = false ∧ c ≠ 46 := by
    rcases hc with rfl | rfl <;> decide
  cases he with
  | none => exact ⟨hr.1, fun h => hr.2 (by rw [show peek r = 46 from h]; decide)⟩
  | plain hc _ => exact hletter hc
  | plus hc _ => exact hletter hc
  | minus hc _ => exact hletter hc

lemma peek_fracText {frac t : Text} (ht : isDigit (peek t) = false) :
    isDigit (peek (Numeral.fracText frac ++ t)) = false := by
  cases frac with
  | nil => exact ht
  | cons c ds => rfl

/-- **`parse_number` reads a number text to its end.** -/
theorem parseNumber_text {t r : Text} {n : Number D} (ht : NumberText t n) (hr : NumberEnds r) :
    parseNumber D (t ++ r) = .done n r := by
  obtain @⟨negative, zero, int, frac, e, k, hstart, hint, hfrac, he⟩ := ht
  obtain ⟨hexp, hdot⟩ := peek_exponentText he hr
  have hfrac' : isDigit (peek (Numeral.fracText frac ++ (e ++ r))) = false := peek_fracText hexp
  have hsign : negative = true ∨
      peek (zeroText zero ++ (int ++ (Numeral.fracText frac ++ (e ++ r)))) ≠ 45 := by
    refine hstart.imp id fun hstart => ?_
    cases zero with
    | true => exact (by decide : (48 : UInt8) ≠ 45)
    | false =>
        obtain ⟨c, ds, rfl⟩ := List.exists_cons_of_ne_nil (hstart.resolve_left (by simp))
        rintro (rfl : c = 45)
        exact absurd (hint.isDigit 45 List.mem_cons_self) (by decide)
  simp only [List.append_assoc, parseNumber]
  rw [readSign_text hsign]
  simp only [readInt_text zero hint hfrac', readFraction_text _ hfrac hexp hdot,
    readExponent_text he hr, Parsed.bind_done]

/-! ## What `parse_number` takes is a number text -/

lemma exists_digits (num : Text) : ∃ ds, (∀ c ∈ ds, isDigit c = true) ∧
    num = ds ++ afterDigits num ∧ digitsAt num = ds := by
  exact ⟨digitsAt num, fun c hc => List.mem_takeWhile_imp hc,
    List.takeWhile_append_dropWhile.symm, rfl⟩

lemma digitsAt_ne_nil {num : Text} (h : isDigit (peek num) = true) : digitsAt num ≠ [] := by
  cases num with
  | nil => exact absurd h (by decide)
  | cons c num =>
      have hc : isDigit c = true := h
      rw [digitsAt, List.takeWhile_cons_of_pos hc]
      simp

lemma exists_readSign (num : Text) : ∃ negative r, num = Numeral.signText negative ++ r ∧
    readSign D num = (CDouble.lit (if negative then -1 else 1), r)
      ∧ (negative = true ∨ peek num ≠ 45 ∧ r = num) := by
  by_cases h : peek num = 45
  · refine ⟨true, num.tail, eq_cons_of_peek h (by decide), ?_, .inl rfl⟩
    rw [readSign, if_pos h]
    rfl
  · refine ⟨false, num, rfl, ?_, .inr ⟨h, rfl⟩⟩
    rw [readSign, if_neg h]
    rfl

lemma exists_readInt (num : Text) : ∃ zero int r, num = zeroText zero ++ (int ++ r) ∧
    IntDigits int ∧ readInt D num = (accumulate (CDouble.lit 0) int, r)
      ∧ (isDigit (peek num) = true → zero ∨ int ≠ []) := by
  obtain ⟨zero, u, hnum, hu, hzero⟩ : ∃ zero u, num = zeroText zero ++ u ∧
      (if peek num = 48 then num.tail else num) = u ∧ (zero = false → peek u ≠ 48 ∧ u = num) := by
    by_cases h : peek num = 48
    · exact ⟨true, num.tail, eq_cons_of_peek h (by decide), if_pos h, by simp⟩
    · exact ⟨false, num, rfl, if_neg h, fun _ => ⟨h, rfl⟩⟩
  simp only [readInt, hu]
  by_cases hlead : (49 ≤ peek u && peek u ≤ 57) = true
  · rw [if_pos hlead]
    obtain ⟨ds, hds, happ, hat⟩ := exists_digits u
    rw [Bool.and_eq_true, decide_eq_true_eq, decide_eq_true_eq] at hlead
    have hpos : isDigit (peek u) = true := by
      rw [isDigit, Bool.and_eq_true, decide_eq_true_eq, decide_eq_true_eq]
      exact ⟨UInt8.le_trans (by decide) hlead.1, hlead.2⟩
    have hne : ds ≠ [] := hat ▸ digitsAt_ne_nil hpos
    refine ⟨zero, ds, afterDigits u, by rw [← happ, hnum], ⟨hds, .inr ?_⟩, by rw [hat],
      fun _ => .inr hne⟩
    rw [happ] at hlead
    cases ds with
    | nil => exact absurd rfl hne
    | cons c ds => exact hlead.1
  · rw [if_neg hlead]
    refine ⟨zero, [], u, hnum, ⟨by simp, .inl rfl⟩, rfl, fun hdigit => ?_⟩
    cases zero with
    | true => exact .inl rfl
    | false =>
        -- neither 0 nor from 1 to 9
        obtain ⟨hne, rfl⟩ := hzero rfl
        rw [isDigit, Bool.and_eq_true, decide_eq_true_eq, decide_eq_true_eq] at hdigit
        rw [Bool.and_eq_true, decide_eq_true_eq, decide_eq_true_eq, not_and'] at hlead
        refine absurd (UInt8.le_antisymm ?_ hdigit.1) hne
        have := UInt8.not_le.mp (hlead hdigit.2)
        rw [UInt8.lt_iff_toNat_lt] at this
        exact UInt8.le_iff_toNat_le.mpr (Nat.lt_succ_iff.mp this)

lemma exists_readFraction (n : D) (num : Text) : ∃ frac r,
    num = Numeral.fracText frac ++ r ∧ (∀ c ∈ frac, isDigit c = true) ∧
      readFraction n num = (accumulate n frac, -(frac.length : ℤ), r) := by
  by_cases h : (peek num = 46 && isDigit (peek num.tail)) = true
  · obtain ⟨ds, hds, happ, hat⟩ := exists_digits num.tail
    rw [readFraction, if_pos h, hat]
    rw [Bool.and_eq_true, decide_eq_true_eq] at h
    refine ⟨ds, afterDigits num.tail, ?_, hds, rfl⟩
    cases ds with
    | nil => exact absurd hat (digitsAt_ne_nil h.2)
    | cons c ds =>
        calc num = 46 :: num.tail := eq_cons_of_peek h.1 (by decide)
          _ = Numeral.fracText (c :: ds) ++ afterDigits num.tail := congrArg (46 :: ·) happ
  · rw [readFraction, if_neg h]
    exact ⟨[], num, rfl, by simp, rfl⟩

/-- The digits of an exponent are read, unless they say too much for an `int`. -/
lemma exists_exponentDigits (num : Text) : accumulateInt (digitsAt num) = none ∨
    ∃ ds, ExponentDigits ds ∧ num = ds ++ afterDigits num ∧
      accumulateInt (digitsAt num) = some (Decimal.read ds) := by
  obtain ⟨ds, hds, happ, hat⟩ := exists_digits num
  rw [hat, accumulateInt_eq]
  split_ifs with h
  · exact .inr ⟨ds, ⟨hds, h⟩, happ, rfl⟩
  · exact .inl rfl

lemma exists_readExponent (num : Text) : readExponent num = .fault ∨
    ∃ e k r, num = e ++ r ∧ ExponentText e k ∧ readExponent num = .done k r := by
  by_cases h : (peek num = 101 || peek num = 69) = true
  · rw [readExponent, if_pos h]
    rw [Bool.or_eq_true, decide_eq_true_eq, decide_eq_true_eq] at h
    obtain ⟨c, u, rfl⟩ : ∃ c u, num = c :: u := by
      cases num with
      | nil => exact absurd h (by decide)
      | cons c u => exact ⟨c, u, rfl⟩
    simp only [List.tail_cons]
    by_cases hplus : peek u = 43
    · rcases exists_exponentDigits u.tail with hfault | ⟨ds, hds, happ, hsome⟩
      · exact .inl (by simp [hplus, hfault])
      · refine .inr ⟨c :: 43 :: ds, _, afterDigits u.tail, ?_, .plus h hds, ?_⟩
        · rw [List.cons_append, List.cons_append, ← happ, ← eq_cons_of_peek hplus (by decide)]
        · simp [hplus, hsome]
    · by_cases hminus : peek u = 45
      · rcases exists_exponentDigits u.tail with hfault | ⟨ds, hds, happ, hsome⟩
        · exact .inl (by simp [hminus, hfault])
        · refine .inr ⟨c :: 45 :: ds, _, afterDigits u.tail, ?_, .minus h hds, ?_⟩
          · rw [List.cons_append, List.cons_append, ← happ, ← eq_cons_of_peek hminus (by decide)]
          · simp [hminus, hsome]
      · rcases exists_exponentDigits u with hfault | ⟨ds, hds, happ, hsome⟩
        · exact .inl (by simp [hplus, hminus, hfault])
        · refine .inr ⟨c :: ds, _, afterDigits u, ?_, .plain h hds, ?_⟩
          · rw [List.cons_append, ← happ]
          · simp [hplus, hminus, hsome]
  · rw [readExponent, if_neg h]
    exact .inr ⟨[], 0, num, rfl, .none, rfl⟩

/-- After no `e` or `E` of a text stands a number that is no `int`. -/
def exponentsFit : Text → Bool
  | [] => true
  | c :: t => readExponent (c :: t) ≠ .fault && exponentsFit t

lemma exponentsFit_of_suffix {t u : Text} (h : u <:+ t) (ht : exponentsFit t = true) :
    exponentsFit u = true := by
  induction t with
  | nil => rwa [List.suffix_nil.mp h]
  | cons c t ih =>
      rcases List.suffix_cons_iff.mp h with rfl | h
      · exact ht
      · rw [exponentsFit, Bool.and_eq_true] at ht
        exact ih h ht.2

/-- Where `subscale` overflows, the exponent is one of the text. -/
lemma exponentsFit_eq_false {t u : Text} (h : readExponent u = .fault) (hu : u <:+ t) :
    exponentsFit t = false := by
  rw [Bool.eq_false_iff]
  intro ht
  have hfit := exponentsFit_of_suffix hu ht
  cases u with
  | nil => exact absurd h (by simp [readExponent])
  | cons c u => simp [exponentsFit, h] at hfit

/-- **What `parse_number` takes is a number text**, if it is called where `parse_value` does; it
goes wrong only at an exponent that is no `int`. -/
theorem exists_parseNumber {num : Text} (h : peek num = 45 ∨ isDigit (peek num) = true) :
    (∃ t n r, num = t ++ r ∧ NumberText t n ∧ parseNumber D num = .done n r) ∨
      parseNumber D num = .fault ∧ exponentsFit num = false := by
  obtain ⟨negative, u₁, rfl, hsign, hneg⟩ := exists_readSign (D := D) num
  obtain ⟨zero, int, u₂, rfl, hint, hreadInt, hstart⟩ := exists_readInt (D := D) u₁
  obtain ⟨frac, u₃, rfl, hfrac, hreadFrac⟩ :=
    exists_readFraction (accumulate (CDouble.lit (D := D) 0) int) u₂
  have hpresent : negative ∨ zero ∨ int ≠ [] := by
    refine hneg.imp id fun hneg => hstart ?_
    rw [hneg.2]
    exact h.resolve_left hneg.1
  rcases exists_readExponent u₃ with hfault | ⟨e, k, r, rfl, he, hreadExp⟩
  · refine .inr ⟨?_, exponentsFit_eq_false hfault ?_⟩
    · simp only [parseNumber, hsign, hreadInt, hreadFrac, hfault, Parsed.bind_fault]
    · simp only [← List.append_assoc]
      exact List.suffix_append _ _
  · refine .inl ⟨_, _, r, ?_, .mk hpresent hint hfrac he, ?_⟩
    · simp only [List.append_assoc]
    · simp only [parseNumber, hsign, hreadInt, hreadFrac, hreadExp, Parsed.bind_done]

/-! ## Numerals are number texts -/

/-- The digits of an integer part that count: a single zero is passed over. -/
def countedDigits (int : Text) : Text := if int = [48] then [] else int

/-- What `parse_number` makes of a numeral. -/
def ofNumeral (m : Numeral) : Number D :=
  finishNumber (CDouble.lit (if m.negative then -1 else 1))
    (accumulate (accumulate (CDouble.lit 0) (countedDigits m.int)) m.frac)
    (-(m.frac.length : ℤ) + Numeral.exponentValue m.exponent)

/-- The exponent of a numeral is an `int`. -/
def ExponentFits (m : Numeral) : Prop := (Numeral.exponentValue m.exponent).natAbs ≤ intMax

lemma exponentText_numeral {m : Numeral} (h : ExponentFits m) :
    ExponentText (Numeral.exponentText m.exponent) (Numeral.exponentValue m.exponent) := by
  have hdigits := m.isDigit_exponent
  rw [ExponentFits] at h
  cases hm : m.exponent with
  | none => exact .none
  | some x =>
      obtain ⟨negative, ds⟩ := x
      rw [hm] at h
      cases negative with
      | true => exact .minus (.inl rfl) ⟨hdigits _ hm, by simpa [Numeral.exponentValue] using h⟩
      | false => exact .plus (.inl rfl) ⟨hdigits _ hm, by simpa [Numeral.exponentValue] using h⟩

theorem numberText_numeral {m : Numeral} (h : ExponentFits m) :
    NumberText (D := D) m.text (ofNumeral m) := by
  have he := exponentText_numeral h
  by_cases hzero : m.int = [48]
  · have key := @NumberText.mk D _ m.negative true [] _ _ _ (.inr (.inl rfl)) ⟨by simp, .inl rfl⟩
      m.isDigit_frac he
    rw [ofNumeral, countedDigits, if_pos hzero, Numeral.text, hzero]
    exact key
  · obtain ⟨c, ds, hint, hc⟩ := m.lead_int.resolve_left hzero
    have key := @NumberText.mk D _ m.negative false _ _ _ _
      (.inr (.inr (hint ▸ List.cons_ne_nil c ds))) ⟨m.isDigit_int, .inr (hint ▸ hc)⟩
      m.isDigit_frac he
    rw [ofNumeral, countedDigits, if_neg hzero, Numeral.text]
    exact key

/-! ## `print_number` -/

/-- `DBL_EPSILON`. -/
def dblEpsilon (D : Type) [CDouble D] : D := CDouble.lit (1 / 2 ^ 52)

/-- The text `print_number` writes, and the bytes it allocates for it. -/
def printNumber (item : Number D) : ℕ × DoubleText :=
  let d := item.valuedouble
  if CDouble.eq d (CDouble.lit 0) then (2, .numeral (Decimal.ofInt 0))
  else if CDouble.le (CDouble.fabs (CDouble.sub (CDouble.lit item.valueint) d)) (dblEpsilon D)
      && CDouble.le d (CDouble.lit 2147483647) && CDouble.le (CDouble.lit (-2147483648)) d then
    (21, .numeral (Decimal.ofInt item.valueint))
  else if CDouble.le (CDouble.fabs (CDouble.sub (CDouble.floor d) d)) (dblEpsilon D)
      && CDouble.lt (CDouble.fabs d) (CDouble.lit (10 ^ 60)) then
    (64, CDouble.fixed 0 d)
  else if CDouble.lt (CDouble.fabs d) (CDouble.lit (1 / 10 ^ 6))
      || CDouble.lt (CDouble.lit (10 ^ 9)) (CDouble.fabs d) then
    (64, CDouble.scientific 6 d)
  else (64, CDouble.fixed 6 d)

/-- The value is finite: its text is a numeral, with an exponent that is an `int`. -/
def Number.Finite (item : Number D) : Prop :=
  ∃ m, (printNumber item).2 = .numeral m ∧ ExponentFits m

/-- What a finite number becomes when it is printed and its text is read back. -/
def Number.shown (item : Number D) : Number D :=
  match (printNumber item).2 with
  | .numeral m => ofNumeral m
  | _ => item

/-- The text of a finite number reads as what it shows. -/
theorem numberText_printNumber {item : Number D} (h : item.Finite) :
    NumberText (printNumber item).2.text item.shown := by
  obtain ⟨m, hm, hfits⟩ := h
  rw [Number.shown, hm]
  exact numberText_numeral hfits

/-- `parse_number` reads it so. -/
theorem parseNumber_shown {item : Number D} (h : item.Finite) :
    parseNumber D (printNumber item).2.text = .done item.shown [] := by
  have key := parseNumber_text (r := []) (numberText_printNumber h) (by decide)
  rwa [List.append_nil] at key

/-- The bytes of the text of a number, finite or not. -/
lemma DoubleText.byte (x : DoubleText) : ∀ c ∈ x.text,
    isDigit c = true ∨ c ∈ ([43, 45, 46, 101, 97, 102, 105, 110] : Text) := by
  cases x with
  | numeral m =>
      intro c hc
      refine (m.byte c hc).imp_right fun h => ?_
      exact List.mem_append_left [97, 102, 105, 110] h
  | inf negative | nan negative => cases negative <;> exact forall_mem_of_all rfl

lemma DoubleText.ne (x : DoubleText) {b : UInt8}
    (hb : isDigit b = false ∧ b ∉ ([43, 45, 46, 101, 97, 102, 105, 110] : Text)) :
    ∀ c ∈ x.text, c ≠ b := by
  rintro c hc rfl
  rcases x.byte c hc with hd | hm
  · exact absurd hd (by rw [hb.1]; decide)
  · exact hb.2 hm

/-- The bytes of a number text. -/
lemma NumberText.byte {t : Text} {n : Number D} (h : NumberText t n) :
    ∀ c ∈ t, isDigit c = true ∨ c ∈ ([43, 45, 46, 69, 101] : Text) := by
  obtain @⟨negative, zero, int, frac, e, k, -, hint, hfrac, he⟩ := h
  simp only [List.forall_mem_append]
  refine ⟨by cases negative <;> exact forall_mem_of_all rfl,
    by cases zero <;> exact forall_mem_of_all rfl, fun c hc => .inl (hint.isDigit c hc), ?_, ?_⟩
  · cases frac with
    | nil => simp [Numeral.fracText]
    | cons c ds => exact List.forall_mem_cons.mpr ⟨by decide, fun c hc => .inl (hfrac c hc)⟩
  · have hletter {c : UInt8} (hc : c = 101 ∨ c = 69) :
        isDigit c = true ∨ c ∈ ([43, 45, 46, 69, 101] : Text) := by
      rcases hc with rfl | rfl <;> decide
    cases he with
    | none => simp
    | plain hc hds =>
        exact List.forall_mem_cons.mpr ⟨hletter hc, fun c hc => .inl (hds.isDigit c hc)⟩
    | plus hc hds =>
        exact List.forall_mem_cons.mpr ⟨hletter hc,
          List.forall_mem_cons.mpr ⟨by decide, fun c hc => .inl (hds.isDigit c hc)⟩⟩
    | minus hc hds =>
        exact List.forall_mem_cons.mpr ⟨hletter hc,
          List.forall_mem_cons.mpr ⟨by decide, fun c hc => .inl (hds.isDigit c hc)⟩⟩

/-- Neither white space nor anything that means something elsewhere is part of a number. -/
lemma NumberText.ne {t : Text} {n : Number D} (h : NumberText t n) {b : UInt8}
    (hb : isDigit b = false ∧ b ∉ ([43, 45, 46, 69, 101] : Text)) : ∀ c ∈ t, c ≠ b := by
  rintro c hc rfl
  rcases h.byte c hc with hd | hm
  · exact absurd hd (by rw [hb.1]; decide)
  · exact hb.2 hm

/-- A number text starts where `parse_value` expects a number. -/
lemma NumberText.peek {t : Text} {n : Number D} (h : NumberText t n) (r : Text) :
    CJson.peek (t ++ r) = 45 ∨ isDigit (CJson.peek (t ++ r)) = true := by
  obtain @⟨negative, zero, int, frac, e, k, hstart, hint, -, -⟩ := h
  cases negative with
  | true => exact .inl rfl
  | false =>
      right
      cases zero with
      | true => rfl
      | false =>
          obtain ⟨c, ds, rfl⟩ :=
            List.exists_cons_of_ne_nil ((hstart.resolve_left (by simp)).resolve_left (by simp))
          exact hint.isDigit c List.mem_cons_self

end

end SbusRemote.CJson
