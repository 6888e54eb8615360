import SbusRemote.Json.Strings

/-!
# Writing strings, and characters as escapes

`print_string_ptr` escapes a string, after it has counted the bytes that takes.

* `printStringPtr_size` — the count is exact.
* `literal_escape` — what it writes stands for the string it was given.
* `Escapes`, `Escapes.literal` — a string written as `\u` escapes throughout, with a pair of
  surrogates for each character beyond the first plane, stands for its UTF-8 encoding.
-/

namespace SbusRemote.CJson

/-! ## `print_string_ptr` -/

/-- A hexadecimal digit of `%04x`. -/
def hexLetter (d : ℕ) : UInt8 := UInt8.ofNat (if d < 10 then 48 + d else 87 + d)

/-- `sprintf(ptr2,"u%04x",token)`. -/
def escapeNumber (token : UInt8) : Text :=
  [117, 48, 48, hexLetter (token.toNat / 16), hexLetter (token.toNat % 16)]

/-- What is written for one byte. -/
def escapeByte (token : UInt8) : Text :=
  if 31 < token && token ≠ 34 && token ≠ 92 then [token]
  else 92 ::
    if token = 92 then [92]
    else if token = 34 then [34]
    else if token = 8 then [98]
    else if token = 12 then [102]
    else if token = 10 then [110]
    else if token = 13 then [114]
    else if token = 9 then [116]
    else escapeNumber token

/-- What the count allows for one byte. -/
def escapeLength (token : UInt8) : ℕ :=
  if token ∈ ([34, 92, 8, 12, 10, 13, 9] : Text) then 2 else if token < 32 then 6 else 1

/-- `flag`: some byte has to be escaped. -/
def needsEscape (str : Text) : Bool :=
  str.any fun c => (0 < c && c < 32) || c == 34 || c == 92

/-- `print_string_ptr`: the bytes it asks for and the text it writes. -/
def printStringPtr (str : CString) : ℕ × Text :=
  if !needsEscape str.val then (str.val.length + 3, 34 :: (str.val ++ [34]))
  else ((str.val.map escapeLength).sum + 3, 34 :: (str.val.flatMap escapeByte ++ [34]))

/-- The text of a string literal. -/
def quoted (str : CString) : Text := 34 :: (str.val.flatMap escapeByte ++ [34])

/-! ## What is written stands for the string -/

lemma escapeByte_plain {c : UInt8} (h : 31 < c) (h₁ : c ≠ 34) (h₂ : c ≠ 92) :
    escapeByte c = [c] := by
  simp [escapeByte, h, h₁, h₂]

lemma escapeByte_of_not_needsEscape {str : Text} (h : needsEscape str = false) (h₀ : 0 ∉ str) :
    str.flatMap escapeByte = str := by
  induction str with
  | nil => rfl
  | cons c str ih =>
      rw [needsEscape, List.any_cons, Bool.or_eq_false_iff] at h
      rw [List.mem_cons, not_or] at h₀
      have hc : escapeByte c = [c] := by
        have hpos : 0 < c := by
          rw [UInt8.lt_iff_toNat_lt]
          exact Nat.pos_of_ne_zero fun h => h₀.1 (UInt8.toNat_inj.mp h).symm
        simp only [hpos, decide_true, Bool.true_and, Bool.or_eq_false_iff, decide_eq_false_iff_not,
          UInt8.not_lt, beq_eq_false_iff_ne] at h
        exact escapeByte_plain (UInt8.lt_of_lt_of_le (by decide) h.1.1.1) h.1.1.2 h.1.2
      rw [List.flatMap_cons, hc, ih h.2 h₀.2]
      rfl

/-- Escaping nothing is the same text. -/
theorem printStringPtr_text (str : CString) : (printStringPtr str).2 = quoted str := by
  rw [printStringPtr, quoted]
  split_ifs with h
  · rw [escapeByte_of_not_needsEscape (by simpa using h) str.property]
  · rfl

lemma length_escapeByte (c : UInt8) : (escapeByte c).length = escapeLength c := by
  by_cases hset : c ∈ ([34, 92, 8, 12, 10, 13, 9] : Text)
  · simp only [List.mem_cons, List.not_mem_nil, or_false] at hset
    rcases hset with rfl | rfl | rfl | rfl | rfl | rfl | rfl <;> decide
  · rw [escapeLength, if_neg hset]
    split_ifs with h
    · simp only [List.mem_cons, List.not_mem_nil, or_false, not_or] at hset
      have hlow : ¬31 < c := by
        rw [UInt8.lt_iff_toNat_lt] at h ⊢
        exact fun h' => absurd h (Nat.not_lt.mpr h')
      simp [escapeByte, hlow, hset, escapeNumber]
    · rw [escapeByte_plain]
      · rfl
      · exact UInt8.lt_of_lt_of_le (by decide) (UInt8.not_lt.mp h)
      · rintro rfl
        exact hset (by decide)
      · rintro rfl
        exact hset (by decide)

lemma length_flatMap_escapeByte (str : Text) :
    (str.flatMap escapeByte).length = (str.map escapeLength).sum := by
  induction str with
  | nil => rfl
  | cons c str ih =>
      rw [List.flatMap_cons, List.length_append, List.map_cons, List.sum_cons, length_escapeByte,
        ih]

/-- **The count is exact**: it is the text and its terminator that is asked for. -/
theorem printStringPtr_size (str : CString) :
    (printStringPtr str).1 = (quoted str).length + 1 := by
  rw [← printStringPtr_text, printStringPtr]
  split_ifs
  · simp
  · simp [← length_flatMap_escapeByte]

lemma hexDigit_hexLetter {d : ℕ} (h : d < 16) : hexDigit (hexLetter d) = some d := by
  have all : ∀ d < 16, hexDigit (hexLetter d) = some d := by decide
  exact all d h

lemma hexValue_escapeNumber (c : UInt8) :
    hexValue [48, 48, hexLetter (c.toNat / 16), hexLetter (c.toNat % 16)] = some c.toNat := by
  have hlt := c.toNat_lt
  have hzero : hexDigit 48 = some 0 := rfl
  simp only [hexValue, hzero, hexDigit_hexLetter (show c.toNat / 16 < 16 by omega),
    hexDigit_hexLetter (show c.toNat % 16 < 16 by omega), Option.bind_eq_bind, Option.bind_some,
    Option.pure_def, Option.some.injEq]
  omega

lemma transcode_ascii {c : UInt8} (h : c.toNat < 0x80) : transcode c.toNat = [c] := by
  simp [transcode, h, writeBack, firstByteMark]

/-- **What is written for a byte stands for that byte.** -/
lemma literal_escapeByte {c : UInt8} {t out : Text} (hc : c ≠ 0) (h : Literal t out) :
    Literal (escapeByte c ++ t) (c :: out) := by
  by_cases h92 : c = 92
  · subst h92
    exact h.escape (by decide)
  by_cases h34 : c = 34
  · subst h34
    exact h.escape (by decide)
  by_cases h31 : 31 < c
  · rw [escapeByte_plain h31 h34 h92]
    exact h.byte h34 h92
  by_cases hset : c ∈ ([8, 12, 10, 13, 9] : Text)
  · simp only [List.mem_cons, List.not_mem_nil, or_false] at hset
    rcases hset with rfl | rfl | rfl | rfl | rfl <;> exact h.escape (by decide)
  · simp only [List.mem_cons, List.not_mem_nil, or_false, not_or] at hset
    have htext : escapeByte c ++ t = 92 :: 117 ::
        ([48, 48, hexLetter (c.toNat / 16), hexLetter (c.toNat % 16)] ++ t) := by
      simp [escapeByte, h31, h34, h92, hset, escapeNumber]
    have h31' : c.toNat ≤ 31 := UInt8.le_iff_toNat_le.mp (UInt8.not_lt.mp h31)
    have h₀ : c.toNat ≠ 0 := fun h => hc (UInt8.toNat_inj.mp h)
    have hnot : ¬IsHigh c.toNat ∧ ¬IsLow c.toNat := by
      simp only [IsHigh, IsLow]
      omega
    have key := h.character (hexValue_escapeNumber c) h₀ hnot.1 hnot.2
    rwa [transcode_ascii (by omega), ← htext] at key

/-- **What `print_string_ptr` writes stands for the string it was given.** -/
theorem literal_escape (str : CString) : Literal (str.val.flatMap escapeByte) str.val := by
  obtain ⟨str, h₀⟩ := str
  induction str with
  | nil => exact .nil
  | cons c str ih =>
      rw [List.mem_cons, not_or] at h₀
      exact literal_escapeByte (Ne.symm h₀.1) (ih h₀.2)

/-- **A string survives printing and parsing.** -/
theorem parseString_quoted (str : CString) (hsize : (quoted str).length ≤ intMax) (rest : Text) :
    parseString (quoted str ++ rest) = .done str rest := by
  have hbody : (str.val.flatMap escapeByte).length < intMax := by
    rw [quoted, List.length_cons, List.length_append] at hsize
    omega
  have htext : quoted str ++ rest = 34 :: (str.val.flatMap escapeByte ++ 34 :: rest) := by
    simp [quoted]
  rw [htext, parseString_literal (literal_escape str) hbody, CString.ofText_val]

/-! ## Characters as `\u` escapes -/

/-- A list of characters written as `\u` escapes, in digits of either case: one escape for a
character of the first plane, the two surrogates for any other. -/
inductive Escapes : List Char → Text → Prop
  | nil : Escapes [] []
  | one {c : Char} {cs : List Char} {h t : Text} : hexValue h = some c.toNat → Escapes cs t →
      Escapes (c :: cs) (92 :: 117 :: (h ++ t))
  | two {c : Char} {cs : List Char} {h h' t : Text} : 0x10000 ≤ c.toNat →
      hexValue h = some (0xD800 + (c.toNat - 0x10000) / 0x400) →
      hexValue h' = some (0xDC00 + (c.toNat - 0x10000) % 0x400) → Escapes cs t →
      Escapes (c :: cs) (92 :: 117 :: (h ++ 92 :: 117 :: (h' ++ t)))

lemma or_and_self (x y : ℕ) : (x ||| y) &&& y = y := by
  refine Nat.eq_of_testBit_eq fun i => ?_
  rw [Nat.testBit_and, Nat.testBit_or]
  cases x.testBit i <;> cases y.testBit i <;> rfl

/-- A byte of the encoding that is not the first: six bits under `10`. -/
lemma continuation_eq (uc : ℕ) : (uc ||| 0x80) &&& 0xBF = uc % 0x40 + 0x80 := by
  have hmask : uc &&& 0x3F = uc % 2 ^ 6 := Nat.and_two_pow_sub_one_eq_mod uc 6
  have hlt : uc % 2 ^ 6 < 2 ^ 7 := (Nat.mod_lt uc (by decide)).trans (by decide)
  have hlow : (uc ||| 0x80) &&& 0x3F = uc &&& 0x3F := by
    rw [Nat.and_or_distrib_right]
    exact Nat.or_zero _
  calc (uc ||| 0x80) &&& 0xBF
      = (uc ||| 0x80) &&& 0x80 ||| (uc ||| 0x80) &&& 0x3F := by
        rw [← Nat.and_or_distrib_left]
        rfl
    _ = 2 ^ 7 * 1 ||| uc % 2 ^ 6 := by
        rw [or_and_self, hlow, hmask]
        rfl
    _ = uc % 0x40 + 0x80 := by
        rw [← Nat.two_pow_add_eq_or_of_lt hlt, Nat.add_comm]
        rfl

/-- The first byte of an encoding: the bits that are left, under the mark. -/
lemma or_mark {uc k : ℕ} (huc : uc < 2 ^ k) (m : ℕ) :
    uc ||| 2 ^ k * m = uc % 2 ^ k + 2 ^ k * m := by
  rw [Nat.or_comm, ← Nat.two_pow_add_eq_or_of_lt huc, Nat.mod_eq_of_lt huc, Nat.add_comm]

/-- **The transcoding is UTF-8.**  One case for each length of the encoding. -/
theorem transcode_eq_utf8 (c : Char) : transcode c.toNat = String.utf8EncodeChar c := by
  have hvalid : c.val.toNat < 0x110000 := by
    have := c.valid
    simp only [UInt32.isValidChar, Nat.isValidChar] at this
    omega
  change transcode c.val.toNat = _
  simp only [transcode, String.utf8EncodeChar]
  generalize c.val.toNat = v at hvalid
  have hshift : v >>> 6 = v / 64 := Nat.shiftRight_eq_div_pow v 6
  have hshift₂ : v >>> 6 >>> 6 = v / 4096 := by
    rw [← Nat.shiftRight_add]
    exact Nat.shiftRight_eq_div_pow v 12
  have hshift₃ : v >>> 6 >>> 6 >>> 6 = v / 262144 := by
    rw [← Nat.shiftRight_add, ← Nat.shiftRight_add]
    exact Nat.shiftRight_eq_div_pow v 18
  by_cases h₁ : v < 0x80
  · rw [if_pos h₁, if_pos (Nat.lt_succ_iff.mp h₁)]
    change [UInt8.ofNat (v ||| 0)] = _
    rw [Nat.or_zero]
  by_cases h₂ : v < 0x800
  · have hmark : v / 64 ||| 0xC0 = v / 64 % 0x20 + 0xC0 := or_mark (k := 5) (by omega) 6
    rw [if_neg h₁, if_pos h₂, if_neg (by omega), if_pos (by omega)]
    change [UInt8.ofNat (v >>> 6 ||| 0xC0), UInt8.ofNat ((v ||| 0x80) &&& 0xBF)] = _
    rw [hshift, hmark, continuation_eq]
  by_cases h₃ : v < 0x10000
  · have hmark : v / 4096 ||| 0xE0 = v / 4096 % 0x10 + 0xE0 := or_mark (k := 4) (by omega) 14
    rw [if_neg h₁, if_neg h₂, if_pos h₃, if_neg (by omega), if_neg (by omega), if_pos (by omega)]
    change [UInt8.ofNat (v >>> 6 >>> 6 ||| 0xE0), UInt8.ofNat ((v >>> 6 ||| 0x80) &&& 0xBF),
      UInt8.ofNat ((v ||| 0x80) &&& 0xBF)] = _
    rw [hshift₂, hmark, continuation_eq, continuation_eq, hshift]
  · have hmark : v / 262144 ||| 0xF0 = v / 262144 % 0x08 + 0xF0 := or_mark (k := 3) (by omega) 30
    rw [if_neg h₁, if_neg h₂, if_neg h₃, if_neg (by omega), if_neg (by omega), if_neg (by omega)]
    change [UInt8.ofNat (v >>> 6 >>> 6 >>> 6 ||| 0xF0),
      UInt8.ofNat ((v >>> 6 >>> 6 ||| 0x80) &&& 0xBF), UInt8.ofNat ((v >>> 6 ||| 0x80) &&& 0xBF),
      UInt8.ofNat ((v ||| 0x80) &&& 0xBF)] = _
    rw [hshift₃, hmark, continuation_eq, continuation_eq, continuation_eq, hshift₂, hshift]

lemma not_surrogate (c : Char) : ¬IsHigh c.toNat ∧ ¬IsLow c.toNat := by
  have := c.valid
  simp only [UInt32.isValidChar, Nat.isValidChar] at this
  have hval : c.toNat = c.val.toNat := rfl
  simp only [IsHigh, IsLow, hval]
  omega

lemma toNat_lt (c : Char) : c.toNat < 0x110000 := by
  have := c.valid
  simp only [UInt32.isValidChar, Nat.isValidChar] at this
  have hval : c.toNat = c.val.toNat := rfl
  omega

lemma pairValue_halves {v : ℕ} (h : 0x10000 ≤ v) :
    pairValue (0xD800 + (v - 0x10000) / 0x400) (0xDC00 + (v - 0x10000) % 0x400) = v := by
  unfold pairValue
  rw [Nat.add_sub_cancel_left, Nat.add_sub_cancel_left, Nat.add_assoc, Nat.div_add_mod']
  exact Nat.add_sub_of_le h

/-- **Escaped characters stand for their UTF-8 encoding.** -/
theorem Escapes.literal {cs : List Char} {t : Text} (h : Escapes cs t)
    (h₀ : ∀ c ∈ cs, c.toNat ≠ 0) : Literal t (cs.flatMap String.utf8EncodeChar) := by
  induction h with
  | nil => exact .nil
  | @one c cs h t hh _ ih =>
      rw [List.forall_mem_cons] at h₀
      rw [List.flatMap_cons, ← transcode_eq_utf8]
      exact (ih h₀.2).character hh h₀.1 (not_surrogate c).1 (not_surrogate c).2
  | @two c cs h h' t hc hh hh' _ ih =>
      rw [List.forall_mem_cons] at h₀
      have hlt := toNat_lt c
      have hhigh : IsHigh (0xD800 + (c.toNat - 0x10000) / 0x400) := by
        simp only [IsHigh]
        omega
      have hlow : IsLow (0xDC00 + (c.toNat - 0x10000) % 0x400) := by
        simp only [IsLow]
        omega
      have hpair : pairValue (0xD800 + (c.toNat - 0x10000) / 0x400)
          (0xDC00 + (c.toNat - 0x10000) % 0x400) = c.toNat := pairValue_halves hc
      have key := (ih h₀.2).pair hh hhigh hh' hlow
      rwa [hpair, transcode_eq_utf8] at key

/-- Only the character 0 has a terminator in its encoding. -/
lemma utf8EncodeChar_ne_zero {c : Char} (h : c.toNat ≠ 0) :
    ∀ b ∈ String.utf8EncodeChar c, b ≠ 0 := by
  have hmark (n : ℕ) (hlow : 0 < n) (htop : n < 256) : n.toUInt8 ≠ 0 := by
    intro h0
    have := congrArg UInt8.toNat h0
    rw [Nat.toUInt8, UInt8.toNat_ofNat', Nat.mod_eq_of_lt htop] at this
    exact absurd this hlow.ne'
  have hval : c.toNat = c.val.toNat := rfl
  have hlt := toNat_lt c
  rw [hval] at h hlt
  simp only [String.utf8EncodeChar]
  split_ifs <;> simp only [List.forall_mem_cons] <;> repeat' apply And.intro
  all_goals first | exact hmark _ (by omega) (by omega) | simp

/-- **`\u` escapes are read as UTF-8.**  A string whose characters are written as escapes, those
beyond the first plane as two surrogates, is read as the UTF-8 encoding of these characters, if the
escapes are fewer than `INT_MAX` bytes. -/
theorem parseString_escapes (cs : List Char) (t rest : Text) (h : Escapes cs t)
    (h₀ : ∀ c ∈ cs, c.toNat ≠ 0) (hsize : t.length < intMax) :
    ∃ str : CString, str.val = cs.flatMap String.utf8EncodeChar ∧
      parseString (34 :: (t ++ 34 :: rest)) = .done str rest := by
  refine ⟨⟨cs.flatMap String.utf8EncodeChar, fun hmem => ?_⟩, rfl, ?_⟩
  · obtain ⟨c, hc, hb⟩ := List.mem_flatMap.mp hmem
    exact utf8EncodeChar_ne_zero (h₀ c hc) 0 hb rfl
  · rw [parseString_literal (h.literal h₀) hsize]
    exact congrArg (Parsed.done · rest) (CString.ofText_val ⟨_, _⟩)

/-- `\u20AC` and `\uD834\uDD1e`. -/
theorem parseString_escapes_euro_clef : ∃ str : CString,
    str.val = [226, 130, 172, 240, 157, 132, 158] ∧
      parseString [34, 92, 117, 50, 48, 65, 67, 92, 117, 68, 56, 51, 52, 92, 117, 68, 68, 49, 101,
        34] = .done str [] := by
  have hclef : Escapes ['𝄞'] [92, 117, 68, 56, 51, 52, 92, 117, 68, 68, 49, 101] :=
    @Escapes.two _ _ [68, 56, 51, 52] [68, 68, 49, 101] [] (by decide) (by decide) (by decide) .nil
  have heuro : hexValue [50, 48, 65, 67] = some '€'.toNat := by decide
  exact parseString_escapes ['€', '𝄞'] _ [] (.one heuro hclef) (forall_mem_of_all rfl)
    (by norm_num [intMax])

end SbusRemote.CJson
