import SbusRemote.Json.Text
import Mathlib.Tactic.NormNum

/-!
# Strings

`parse_string` measures a string literal, allocates that many bytes and decodes into them.

A `Literal` says what the text between two quotes stands for: bytes as they are, the escapes of one
letter, `\u` with four hexadecimal digits, two of these for a character beyond the first plane.
The number 0 and a surrogate without its other half stand for nothing.

* `parseString_literal` — `parse_string` decodes every literal, within its allocation, if the
  literal is short enough for an `int`.
* `startsLiteral` — where every escape is complete (`wellEscaped`) there is always a literal to
  decode, so `parse_string` never leaves the text or the allocation.
-/

namespace SbusRemote.CJson

/-! ## `parse_string` -/

/-- The value of a hexadecimal digit. -/
def hexDigit (c : UInt8) : Option ℕ :=
  if 48 ≤ c && c ≤ 57 then some (c.toNat - 48)
  else if 65 ≤ c && c ≤ 70 then some (10 + (c.toNat - 65))
  else if 97 ≤ c && c ≤ 102 then some (10 + (c.toNat - 97))
  else none

/-- The number four hexadecimal digits write. -/
def hexValue : Text → Option ℕ
  | [a, b, c, d] => do
      let a ← hexDigit a
      let b ← hexDigit b
      let c ← hexDigit c
      let d ← hexDigit d
      pure (((a * 16 + b) * 16 + c) * 16 + d)
  | _ => none

/-- `parse_hex4`: 0 at the first byte that is not a digit. -/
def parseHex4 (str : Text) : ℕ := (hexValue (str.take 4)).getD 0

/-- `firstByteMark`. -/
def firstByteMark : ℕ → ℕ
  | 2 => 0xC0
  | 3 => 0xE0
  | 4 => 0xF0
  | _ => 0

/-- The `switch (len)` of the transcoding, entered at case `k + 1`: each case falls through to the
next, and the bytes are written from the last one backwards. -/
def writeBack (len : ℕ) : ℕ → ℕ → Text → Text
  | 0, uc, out => UInt8.ofNat (uc ||| firstByteMark len) :: out
  | k + 1, uc, out => writeBack len k (uc >>> 6) (UInt8.ofNat ((uc ||| 0x80) &&& 0xBF) :: out)

/-- The bytes written for the character `uc`. -/
def transcode (uc : ℕ) : Text :=
  let len := if uc < 0x80 then 1 else if uc < 0x800 then 2 else if uc < 0x10000 then 3 else 4
  writeBack len (len - 1) uc []

/-- `case 'u'`, with `str` the text after the `u`: the bytes written, and how far `ptr` moves on
until the loop looks at it again. -/
def unicode (str : Text) : Text × ℕ :=
  let uc := parseHex4 str
  if (0xDC00 ≤ uc && uc ≤ 0xDFFF) || uc == 0 then ([], 5)
  else if 0xD800 ≤ uc && uc ≤ 0xDBFF then
    if peek (str.drop 4) ≠ 92 || peek (str.drop 5) ≠ 117 then ([], 5)
    else
      let uc2 := parseHex4 (str.drop 6)
      if uc2 < 0xDC00 || 0xDFFF < uc2 then ([], 11)
      else (transcode (0x10000 + (((uc &&& 0x3FF) <<< 10) ||| (uc2 &&& 0x3FF))), 11)
  else (transcode uc, 5)

/-- The escapes of one letter; every other byte stands for itself. -/
def letter (e : UInt8) : UInt8 :=
  if e = 98 then 8
  else if e = 102 then 12
  else if e = 110 then 10
  else if e = 114 then 13
  else if e = 116 then 9
  else e

/-- The `switch (*ptr)` after a backslash. -/
def unescape (ptr : Text) : Text × ℕ :=
  if peek ptr = 117 then unicode ptr.tail else ([letter (peek ptr)], 1)

/-- The first loop: `len`, the bytes it allows for.  After a backslash the next byte is skipped
unseen, which passes the terminator if the text ends there. -/
def stringLength : Text → Option ℕ
  | [] => some 0
  | c :: ptr =>
      if c = 34 then some 0
      else if c = 92 then
        match ptr with
        | [] => none
        | _ :: ptr => (stringLength ptr).map (· + 1)
      else (stringLength ptr).map (· + 1)

/-- `*ptr2=0`, in the last of the `len + 1` bytes of `out` at the latest. -/
def endString (len : ℕ) (out rest : Text) : Parsed CString :=
  if out.length ≤ len then .done (CString.ofText out) rest else .fault

/-- The second loop, with the bytes written so far and the bytes `ptr` still has to pass before
it is looked at. -/
def copyString (len : ℕ) : ℕ → Text → Text → Parsed CString
  | 0, [], out => endString len out []
  | _ + 1, [], _ => .fault
  | passed + 1, _ :: ptr, out => copyString len passed ptr out
  | 0, c :: ptr, out =>
      if c = 34 then endString len out ptr
      else
        let (written, passed) := if c = 92 then unescape ptr else ([c], 0)
        if out.length + written.length ≤ len + 1 then copyString len passed ptr (out ++ written)
        else .fault

/-- `parse_string`.  `len` is an `int`, and so is the `len+1` that is allocated; as it only grows,
it has not overflowed before. -/
def parseString (str : Text) : Parsed CString :=
  match str with
  | 34 :: ptr =>
      match stringLength ptr with
      | none => .fault
      | some len => if len + 1 ≤ intMax then copyString len 0 ptr [] else .fault
  | _ => .failed str

/-! ## Literals -/

/-- A surrogate that starts a pair, and one that ends it. -/
def IsHigh (uc : ℕ) : Prop := 0xD800 ≤ uc ∧ uc ≤ 0xDBFF

def IsLow (uc : ℕ) : Prop := 0xDC00 ≤ uc ∧ uc ≤ 0xDFFF

/-- The character of a pair of surrogates. -/
def pairValue (high low : ℕ) : ℕ := 0x10000 + (high - 0xD800) * 0x400 + (low - 0xDC00)

/-- **What a string literal stands for**: the text between the quotes, and the bytes. -/
inductive Literal : Text → Text → Prop
  | nil : Literal [] []
  | byte {c : UInt8} {t out : Text} : c ≠ 34 → c ≠ 92 → Literal t out → Literal (c :: t) (c :: out)
  | escape {e : UInt8} {t out : Text} :
      e ≠ 117 → Literal t out → Literal (92 :: e :: t) (letter e :: out)
  | character {h t out : Text} {uc : ℕ} : hexValue h = some uc → uc ≠ 0 → ¬IsHigh uc → ¬IsLow uc →
      Literal t out → Literal (92 :: 117 :: (h ++ t)) (transcode uc ++ out)
  | pair {h h' t out : Text} {uc uc' : ℕ} : hexValue h = some uc → IsHigh uc →
      hexValue h' = some uc' → IsLow uc' → Literal t out →
      Literal (92 :: 117 :: (h ++ 92 :: 117 :: (h' ++ t))) (transcode (pairValue uc uc') ++ out)
  | nothing {h t out : Text} {uc : ℕ} : hexValue h = some uc → uc = 0 ∨ IsLow uc →
      Literal t out → Literal (92 :: 117 :: (h ++ t)) out
  | unpaired {h t out : Text} {uc : ℕ} : hexValue h = some uc → IsHigh uc →
      ¬(peek t = 92 ∧ peek t.tail = 117) → Literal t out → Literal (92 :: 117 :: (h ++ t)) out
  | mispaired {h h' t out : Text} {uc uc' : ℕ} : hexValue h = some uc → IsHigh uc →
      hexValue h' = some uc' → ¬IsLow uc' → Literal t out →
      Literal (92 :: 117 :: (h ++ 92 :: 117 :: (h' ++ t))) out

/-! ## Hexadecimal digits -/

/-- A hexadecimal digit is neither a quote nor a backslash. -/
lemma ne_of_hexDigit {c : UInt8} {d : ℕ} (h : hexDigit c = some d) :
    c ≠ 34 ∧ c ≠ 92 ∧ c ≠ 0 ∧ d < 16 := by
  have hne {b : UInt8} (hb : hexDigit b = none) : c ≠ b := by
    rintro rfl
    rw [hb] at h
    exact absurd h (by simp)
  refine ⟨hne rfl, hne rfl, hne rfl, ?_⟩
  · simp only [hexDigit, Bool.and_eq_true, decide_eq_true_eq, UInt8.le_iff_toNat_le] at h
    have h57 : (57 : UInt8).toNat = 57 := rfl
    have h70 : (70 : UInt8).toNat = 70 := rfl
    have h102 : (102 : UInt8).toNat = 102 := rfl
    split_ifs at h <;> simp only [Option.some.injEq] at h <;> omega

/-- Four digits, spelled out. -/
lemma hexValue_eq_some {h : Text} {uc : ℕ} (hh : hexValue h = some uc) :
    ∃ a b c d, h = [a, b, c, d] ∧ uc < 0x10000
      ∧ ∀ x ∈ h, x ≠ 34 ∧ x ≠ 92 ∧ x ≠ 0 := by
  match h, hh with
  | [a, b, c, d], hh =>
      simp only [hexValue, Option.bind_eq_bind, Option.pure_def, Option.bind_eq_some_iff,
        Option.some.injEq] at hh
      obtain ⟨a', ha, b', hb, c', hc, d', hd, rfl⟩ := hh
      have ha := ne_of_hexDigit ha
      have hb := ne_of_hexDigit hb
      have hc := ne_of_hexDigit hc
      have hd := ne_of_hexDigit hd
      refine ⟨a, b, c, d, rfl, by omega, ?_⟩
      simp only [List.forall_mem_cons]
      exact ⟨⟨ha.1, ha.2.1, ha.2.2.1⟩, ⟨hb.1, hb.2.1, hb.2.2.1⟩, ⟨hc.1, hc.2.1, hc.2.2.1⟩,
        ⟨hd.1, hd.2.1, hd.2.2.1⟩, by simp⟩

lemma length_of_hexValue {h : Text} {uc : ℕ} (hh : hexValue h = some uc) : h.length = 4 := by
  obtain ⟨a, b, c, d, rfl, -⟩ := hexValue_eq_some hh
  rfl

lemma parseHex4_append {h : Text} {uc : ℕ} (hh : hexValue h = some uc) (t : Text) :
    parseHex4 (h ++ t) = uc := by
  rw [parseHex4, List.take_left' (length_of_hexValue hh), hh]
  rfl

/-! ## Decoding a literal -/

lemma length_writeBack (len k uc : ℕ) (out : Text) :
    (writeBack len k uc out).length = k + 1 + out.length := by
  induction k generalizing uc out with
  | zero => simp [writeBack, Nat.add_comm]
  | succ k ih => rw [writeBack, ih, List.length_cons]; omega

lemma length_transcode_le (uc : ℕ) : (transcode uc).length ≤ 4 := by
  rw [transcode, length_writeBack, List.length_nil]
  split_ifs <;> omega

lemma length_transcode_le_three {uc : ℕ} (h : uc < 0x10000) : (transcode uc).length ≤ 3 := by
  rw [transcode, length_writeBack, List.length_nil]
  split_ifs <;> omega

section

variable {h h' t : Text} {uc uc' : ℕ}

lemma unicode_character (hh : hexValue h = some uc) (h₀ : uc ≠ 0) (hhigh : ¬IsHigh uc)
    (hlow : ¬IsLow uc) : unicode (h ++ t) = (transcode uc, 5) := by
  simp only [IsHigh, IsLow] at hhigh hlow
  simp [unicode, parseHex4_append hh, h₀, hhigh, hlow]

lemma unicode_nothing (hh : hexValue h = some uc) (h₀ : uc = 0 ∨ IsLow uc) :
    unicode (h ++ t) = ([], 5) := by
  simp only [IsLow] at h₀
  simp [unicode, parseHex4_append hh, h₀.symm]

lemma unicode_unpaired (hh : hexValue h = some uc) (hhigh : IsHigh uc)
    (ht : ¬(peek t = 92 ∧ peek t.tail = 117)) : unicode (h ++ t) = ([], 5) := by
  have hdrop : (h ++ t).drop 4 = t := List.drop_left' (length_of_hexValue hh)
  have hdrop' : (h ++ t).drop 5 = t.tail := by
    rw [← List.tail_drop, hdrop]
  obtain ⟨h₁, h₂⟩ := hhigh
  have hlow : ¬(56320 ≤ uc ∧ uc ≤ 57343 ∨ uc = 0) := by omega
  have ht' : peek t ≠ 92 ∨ peek t.tail ≠ 117 := not_and_or.mp ht
  simp [unicode, parseHex4_append hh, hlow, h₁, h₂, hdrop, hdrop', ht']

/-- Two escapes in a row, the first of which starts a pair. -/
lemma unicode_two (hh : hexValue h = some uc) (hhigh : IsHigh uc) (hh' : hexValue h' = some uc') :
    unicode (h ++ 92 :: 117 :: (h' ++ t)) =
      if uc' < 0xDC00 || 0xDFFF < uc' then ([], 11)
      else (transcode (0x10000 + (((uc &&& 0x3FF) <<< 10) ||| (uc' &&& 0x3FF))), 11) := by
  have hlen := length_of_hexValue hh
  have hdrop (k : ℕ) (u : Text) : (h ++ u).drop (4 + k) = u.drop k := by
    rw [← hlen, List.drop_append, List.drop_eq_nil_of_le (Nat.le_add_right _ _),
      Nat.add_sub_cancel_left, List.nil_append]
  obtain ⟨h₁, h₂⟩ := hhigh
  have hlow : ¬(56320 ≤ uc ∧ uc ≤ 57343 ∨ uc = 0) := by omega
  have h4 := hdrop 0 (92 :: 117 :: (h' ++ t))
  have h5 := hdrop 1 (92 :: 117 :: (h' ++ t))
  have h6 := hdrop 2 (92 :: 117 :: (h' ++ t))
  simp only [Nat.add_zero, List.drop_zero, Nat.reduceAdd, List.drop_succ_cons] at h4 h5 h6
  simp [unicode, parseHex4_append hh, parseHex4_append hh', hlow, h₁, h₂, h4, h5, h6]

/-- The ten low bits of each half, side by side. -/
lemma pair_bits (hhigh : IsHigh uc) (hlow : IsLow uc') :
    ((uc &&& 0x3FF) <<< 10) ||| (uc' &&& 0x3FF) = (uc - 0xD800) * 0x400 + (uc' - 0xDC00) := by
  have hmask (n : ℕ) : n &&& 0x3FF = n % 2 ^ 10 := Nat.and_two_pow_sub_one_eq_mod n 10
  simp only [IsHigh, IsLow] at hhigh hlow
  rw [hmask, hmask, ← Nat.shiftLeft_add_eq_or_of_lt (Nat.mod_lt uc' (by decide)), Nat.shiftLeft_eq]
  omega

lemma unicode_pair (hh : hexValue h = some uc) (hhigh : IsHigh uc) (hh' : hexValue h' = some uc')
    (hlow : IsLow uc') :
    unicode (h ++ 92 :: 117 :: (h' ++ t)) = (transcode (pairValue uc uc'), 11) := by
  have hbits := pair_bits hhigh hlow
  have hvalue : 0x10000 + ((uc - 0xD800) * 0x400 + (uc' - 0xDC00)) = pairValue uc uc' :=
    (Nat.add_assoc _ _ _).symm
  obtain ⟨h₁, h₂⟩ := hlow
  rw [unicode_two hh hhigh hh', hbits, hvalue, if_neg]
  simp only [Bool.or_eq_true, decide_eq_true_eq]
  omega

lemma unicode_mispaired (hh : hexValue h = some uc) (hhigh : IsHigh uc)
    (hh' : hexValue h' = some uc') (hlow : ¬IsLow uc') :
    unicode (h ++ 92 :: 117 :: (h' ++ t)) = ([], 11) := by
  simp only [IsLow] at hlow
  rw [unicode_two hh hhigh hh', if_pos]
  simp only [Bool.or_eq_true, decide_eq_true_eq]
  omega

end

/-- The two loops over `body`, up to a quote or the end: the first allows for at least the bytes
the second writes. -/
def Decodes (body out : Text) : Prop :=
  ∃ n, out.length ≤ n ∧ (∀ r, stringLength (body ++ r) = (stringLength r).map (· + n)) ∧
    ∀ len r acc, r = [] ∨ peek r = 34 → acc.length + out.length ≤ len + 1 →
      copyString len 0 (body ++ r) acc = copyString len 0 r (acc ++ out)

lemma stringLength_byte {c : UInt8} (h₁ : c ≠ 34) (h₂ : c ≠ 92) (r : Text) :
    stringLength (c :: r) = (stringLength r).map (· + 1) := by
  rw [stringLength.eq_def]
  simp only [if_neg h₁, if_neg h₂]

lemma stringLength_quote (r : Text) : stringLength (34 :: r) = some 0 := by
  rw [stringLength.eq_def]
  rfl

lemma stringLength_append {p : Text} (hp : ∀ c ∈ p, c ≠ 34 ∧ c ≠ 92 ∧ c ≠ 0) (r : Text) :
    stringLength (p ++ r) = (stringLength r).map (· + p.length) := by
  induction p with
  | nil => simp
  | cons c p ih =>
      obtain ⟨hc, hp⟩ := List.forall_mem_cons.mp hp
      rw [List.cons_append, stringLength_byte hc.1 hc.2.1, ih hp, Option.map_map,
        List.length_cons]
      rfl

lemma stringLength_hexValue {h : Text} {uc : ℕ} (hh : hexValue h = some uc) (r : Text) :
    stringLength (h ++ r) = (stringLength r).map (· + 4) := by
  obtain ⟨a, b, c, d, rfl, -, hp⟩ := hexValue_eq_some hh
  exact stringLength_append hp r

/-- Two escapes in a row, without the first backslash and `u`. -/
lemma stringLength_two {h h' : Text} {uc uc' : ℕ} (hh : hexValue h = some uc)
    (hh' : hexValue h' = some uc') (r : Text) :
    stringLength ((h ++ 92 :: 117 :: h') ++ r) = (stringLength r).map (· + 9) := by
  have hesc : stringLength (92 :: 117 :: (h' ++ r)) = (stringLength (h' ++ r)).map (· + 1) := rfl
  rw [List.append_assoc, stringLength_hexValue hh, List.cons_append, List.cons_append, hesc,
    stringLength_hexValue hh', Option.map_map, Option.map_map]
  rfl

/-- Bytes the cursor has to pass are passed. -/
lemma copyString_pass (len : ℕ) (p r acc : Text) :
    copyString len p.length (p ++ r) acc = copyString len 0 r acc := by
  induction p with
  | nil => rfl
  | cons c p ih => rw [List.length_cons, List.cons_append, copyString, ih]

lemma copyString_escape (len : ℕ) (ptr acc : Text) :
    copyString len 0 (92 :: ptr) acc =
      if acc.length + (unescape ptr).1.length ≤ len + 1 then
        copyString len (unescape ptr).2 ptr (acc ++ (unescape ptr).1)
      else .fault := rfl

namespace Decodes

variable {t out : Text}

lemma nil : Decodes [] [] :=
  ⟨0, le_rfl, fun r => by simp, fun len r acc _ _ => by simp⟩

lemma byte {c : UInt8} (h₁ : c ≠ 34) (h₂ : c ≠ 92) (h : Decodes t out) :
    Decodes (c :: t) (c :: out) := by
  obtain ⟨n, hn, hlen, hcopy⟩ := h
  refine ⟨n + 1, by simpa, fun r => ?_, fun len r acc hr hacc => ?_⟩
  · rw [List.cons_append, stringLength_byte h₁ h₂, hlen, Option.map_map]
    rfl
  · rw [List.length_cons] at hacc
    rw [List.cons_append, copyString, if_neg h₁]
    simp only [if_neg h₂]
    rw [if_pos (by simp; omega), hcopy len r _ hr (by simp; omega)]
    simp

lemma escape {e : UInt8} (he : e ≠ 117) (h : Decodes t out) :
    Decodes (92 :: e :: t) (letter e :: out) := by
  obtain ⟨n, hn, hlen, hcopy⟩ := h
  refine ⟨n + 1, by simpa, fun r => ?_, fun len r acc hr hacc => ?_⟩
  · have : stringLength (92 :: e :: (t ++ r)) = (stringLength (t ++ r)).map (· + 1) := rfl
    rw [List.cons_append, List.cons_append, this, hlen, Option.map_map]
    rfl
  · rw [List.length_cons] at hacc
    have hun : unescape (e :: (t ++ r)) = ([letter e], 1) := if_neg he
    rw [List.cons_append, List.cons_append, copyString_escape, hun,
      if_pos (by simp; omega), copyString, hcopy len r _ hr (by simp; omega)]
    simp

/-- An escape, or two, that starts with `\u`. -/
lemma unicode {p w : Text} {n : ℕ} (hp : ∀ r, stringLength (p ++ r) = (stringLength r).map (· + n))
    (hw : w.length ≤ n + 1)
    (hu : ∀ r, r = [] ∨ peek r = 34 → CJson.unicode (p ++ (t ++ r)) = (w, p.length + 1))
    (h : Decodes t out) : Decodes (92 :: 117 :: (p ++ t)) (w ++ out) := by
  obtain ⟨m, hm, hlen, hcopy⟩ := h
  refine ⟨m + n + 1, by rw [List.length_append]; omega, fun r => ?_, fun len r acc hr hacc => ?_⟩
  · have : stringLength (92 :: 117 :: (p ++ (t ++ r)))
        = (stringLength (p ++ (t ++ r))).map (· + 1) := rfl
    rw [List.cons_append, List.cons_append, List.append_assoc, this, hp, hlen, Option.map_map,
      Option.map_map]
    simp only [Function.comp_def, Nat.add_assoc]
  · rw [List.length_append] at hacc
    have hun : unescape (117 :: (p ++ (t ++ r))) = (w, p.length + 1) := by
      rw [← hu r hr]
      rfl
    have hfit : acc.length + w.length ≤ len + 1 := by omega
    rw [List.cons_append, List.cons_append, List.append_assoc, copyString_escape, hun, if_pos hfit]
    change copyString len (p.length + 1) (117 :: (p ++ (t ++ r))) (acc ++ w) = _
    rw [copyString, copyString_pass, hcopy len r _ hr (by rw [List.length_append]; omega),
      List.append_assoc]

end Decodes

/-- **Both loops follow the literal.** -/
theorem Literal.decodes {body out : Text} (h : Literal body out) : Decodes body out := by
  induction h with
  | nil => exact .nil
  | byte h₁ h₂ _ ih => exact ih.byte h₁ h₂
  | escape he _ ih => exact ih.escape he
  | @character h t out uc hh h₀ hhigh hlow _ ih =>
      obtain ⟨a, b, c, d, rfl, hlt, -⟩ := hexValue_eq_some hh
      exact ih.unicode (stringLength_hexValue hh)
          ((length_transcode_le_three hlt).trans (by decide))
        fun r _ => unicode_character hh h₀ hhigh hlow
  | @pair h h' t out uc uc' hh hhigh hh' hlow _ ih =>
      obtain ⟨a, b, c, d, rfl, -⟩ := hexValue_eq_some hh
      obtain ⟨a', b', c', d', rfl, -⟩ := hexValue_eq_some hh'
      exact ih.unicode (p := [a, b, c, d] ++ 92 :: 117 :: [a', b', c', d'])
        (stringLength_two hh hh') ((length_transcode_le _).trans (by decide))
        fun r _ => unicode_pair (t := t ++ r) hh hhigh hh' hlow
  | @nothing h t out uc hh h₀ _ ih =>
      obtain ⟨a, b, c, d, rfl, -⟩ := hexValue_eq_some hh
      exact ih.unicode (w := []) (stringLength_hexValue hh) (by simp)
        fun r _ => unicode_nothing hh h₀
  | @unpaired h t out uc hh hhigh ht _ ih =>
      obtain ⟨a, b, c, d, rfl, -⟩ := hexValue_eq_some hh
      refine ih.unicode (w := []) (stringLength_hexValue hh) (by simp) fun r hr =>
        unicode_unpaired hh hhigh ?_
      -- what follows the literal is a quote or nothing, so it does not start an escape
      have hr₁ : peek r ≠ 92 ∧ peek r ≠ 117 := by
        rcases hr with rfl | hr
        · decide
        · rw [hr]
          decide
      match t, ht with
      | [], _ => exact fun h => hr₁.1 h.1
      | [c], _ => exact fun h => hr₁.2 h.2
      | c :: e :: t, ht => exact ht
  | @mispaired h h' t out uc uc' hh hhigh hh' hlow _ ih =>
      obtain ⟨a, b, c, d, rfl, -⟩ := hexValue_eq_some hh
      obtain ⟨a', b', c', d', rfl, -⟩ := hexValue_eq_some hh'
      exact ih.unicode (w := []) (p := [a, b, c, d] ++ 92 :: 117 :: [a', b', c', d'])
        (stringLength_two hh hh') (by simp)
        fun r _ => unicode_mispaired (t := t ++ r) hh hhigh hh' hlow

/-- No more is counted than there is. -/
lemma stringLength_le : ∀ {t : Text} {n : ℕ}, stringLength t = some n → n ≤ t.length
  | [], n, h => by
      obtain rfl := Option.some.inj h
      exact le_rfl
  | c :: t, n, h => by
      rw [stringLength.eq_def] at h
      dsimp only at h
      split_ifs at h with hquote hslash
      · obtain rfl := Option.some.inj h
        exact Nat.zero_le _
      · cases t with
        | nil => exact absurd h (by simp)
        | cons e t =>
            obtain ⟨m, hm, rfl⟩ := Option.map_eq_some_iff.mp h
            have := stringLength_le hm
            simp only [List.length_cons]
            omega
      · obtain ⟨m, hm, rfl⟩ := Option.map_eq_some_iff.mp h
        exact Nat.succ_le_succ (stringLength_le hm)

/-- What is counted for a literal is no more than its length. -/
lemma length_le_of_literal {body : Text} {n : ℕ}
    (hlen : ∀ r, stringLength (body ++ r) = (stringLength r).map (· + n)) : n ≤ body.length := by
  have hnil := hlen []
  rw [List.append_nil, stringLength, Option.map_some, Nat.zero_add] at hnil
  exact stringLength_le hnil

/-- **`parse_string` decodes a literal**, up to the closing quote. -/
theorem parseString_literal {body out : Text} (h : Literal body out) (hsize : body.length < intMax)
    (rest : Text) :
    parseString (34 :: (body ++ 34 :: rest)) = .done (CString.ofText out) rest := by
  obtain ⟨n, hn, hlen, hcopy⟩ := h.decodes
  have hint : n + 1 ≤ intMax := (Nat.succ_le_succ (length_le_of_literal hlen)).trans hsize
  have hlen' : stringLength (body ++ 34 :: rest) = some n := by
    rw [hlen, stringLength_quote, Option.map_some, Nat.zero_add]
  simp only [parseString, hlen', if_pos hint]
  rw [hcopy n (34 :: rest) [] (.inr rfl) (by rw [List.length_nil]; omega)]
  exact if_pos hn

/-- The closing quote may be missing: then the literal goes on to the end. -/
theorem parseString_unclosed {body out : Text} (h : Literal body out)
    (hsize : body.length < intMax) :
    parseString (34 :: body) = .done (CString.ofText out) [] := by
  obtain ⟨n, hn, hlen, hcopy⟩ := h.decodes
  have hint : n + 1 ≤ intMax := (Nat.succ_le_succ (length_le_of_literal hlen)).trans hsize
  have hlen' : stringLength body = some n := by
    have := hlen []
    rwa [List.append_nil, stringLength, Option.map_some, Nat.zero_add] at this
  have hcopy' := hcopy n [] [] (.inl rfl) (by rw [List.length_nil]; omega)
  rw [List.append_nil] at hcopy'
  simp only [parseString, hlen', if_pos hint, hcopy']
  exact if_pos hn

/-! ## Complete escapes -/

/-- Every backslash has a byte after it, and every `\u` four hexadecimal digits; a byte that is
escaped does not escape the next one. -/
def wellEscaped : Text → Bool
  | [] => true
  | c :: t =>
      if c = 92 then
        match t with
        | [] => false
        | e :: t => (e ≠ 117 || (hexValue (t.take 4)).isSome) && wellEscaped t
      else wellEscaped t

lemma wellEscaped_cons {c : UInt8} (h : c ≠ 92) (t : Text) :
    wellEscaped (c :: t) = wellEscaped t := by
  rw [wellEscaped.eq_def]
  simp only [if_neg h]

lemma wellEscaped_append {p : Text} (hp : ∀ c ∈ p, c ≠ 92) (t : Text) :
    wellEscaped (p ++ t) = wellEscaped t := by
  induction p with
  | nil => rfl
  | cons c p ih =>
      obtain ⟨hc, hp⟩ := List.forall_mem_cons.mp hp
      rw [List.cons_append, wellEscaped_cons hc, ih hp]

lemma wellEscaped_escape {e : UInt8} {t : Text} (h : wellEscaped (92 :: e :: t) = true) :
    (e = 117 → ∃ h' t' uc, t = h' ++ t' ∧ hexValue h' = some uc ∧ wellEscaped t' = true)
      ∧ wellEscaped t = true := by
  have h₀ : ((e ≠ 117 || (hexValue (t.take 4)).isSome) && wellEscaped t) = true := h
  rw [Bool.and_eq_true, Bool.or_eq_true] at h₀
  refine ⟨fun he => ?_, h₀.2⟩
  obtain ⟨uc, huc⟩ := Option.isSome_iff_exists.mp (h₀.1.resolve_left (by simp [he]))
  obtain ⟨a, b, c, d, htake, -, hbytes⟩ := hexValue_eq_some huc
  refine ⟨t.take 4, t.drop 4, uc, (List.take_append_drop 4 t).symm, huc, ?_⟩
  have := h₀.2
  rwa [← List.take_append_drop 4 t, wellEscaped_append fun c hc => (hbytes c hc).2.1] at this

/-- What starts a literal that is well escaped: a literal, to the closing quote or to the end. -/
def StartsLiteral (t : Text) : Prop :=
  ∃ body out rest, Literal body out ∧ wellEscaped rest = true ∧
    (t = body ++ 34 :: rest ∨ t = body ∧ rest = [])

/-- A piece in front of a literal makes a longer one. -/
lemma StartsLiteral.cons {t : Text} (h : StartsLiteral t) (p : Text)
    (hp : ∀ body out, Literal body out → (∃ r, t = body ++ r ∧ (r = [] ∨ peek r = 34)) →
      ∃ out', Literal (p ++ body) out') : StartsLiteral (p ++ t) := by
  obtain ⟨body, out, rest, hlit, hrest, ht⟩ := h
  rcases ht with rfl | ⟨rfl, rfl⟩
  · obtain ⟨out', hout⟩ := hp body out hlit ⟨34 :: rest, rfl, .inr rfl⟩
    exact ⟨p ++ body, out', rest, hout, hrest, .inl (by rw [List.append_assoc])⟩
  · obtain ⟨out', hout⟩ := hp t out hlit ⟨[], (List.append_nil t).symm, .inl rfl⟩
    exact ⟨p ++ t, out', [], hout, hrest, .inr ⟨rfl, rfl⟩⟩

lemma hexValue_ne {h : Text} {uc : ℕ} (hh : hexValue h = some uc) :
    ∀ c ∈ h, c ≠ 34 ∧ c ≠ 92 ∧ c ≠ 0 := by
  obtain ⟨a, b, c, d, rfl, -, hbytes⟩ := hexValue_eq_some hh
  exact hbytes

namespace StartsLiteral

variable {h h' t : Text} {uc uc' : ℕ}

/-- One `\u` escape that does not begin a pair with the next. -/
lemma unicode (hh : hexValue h = some uc) (hnext : IsHigh uc → ¬(peek t = 92 ∧ peek t.tail = 117))
    (ht : StartsLiteral t) : StartsLiteral (92 :: 117 :: (h ++ t)) := by
  refine ht.cons (92 :: 117 :: h) fun body out hlit hr => ?_
  by_cases hhigh : IsHigh uc
  · refine ⟨_, .unpaired hh hhigh ?_ hlit⟩
    obtain ⟨r, rfl, -⟩ := hr
    rintro ⟨h₁, h₂⟩
    refine hnext hhigh ?_
    match body, h₁, h₂ with
    | x :: y :: body, h₁, h₂ => exact ⟨h₁, h₂⟩
  · by_cases h₀ : uc = 0 ∨ IsLow uc
    · exact ⟨_, .nothing hh h₀ hlit⟩
    · rw [not_or] at h₀
      exact ⟨_, .character hh h₀.1 hhigh h₀.2 hlit⟩

/-- Two `\u` escapes that are read together, whether they fit or not. -/
lemma two (hh : hexValue h = some uc) (hhigh : IsHigh uc) (hh' : hexValue h' = some uc')
    (ht : StartsLiteral t) : StartsLiteral (92 :: 117 :: (h ++ 92 :: 117 :: (h' ++ t))) := by
  have key := ht.cons (92 :: 117 :: (h ++ 92 :: 117 :: h')) fun body out hlit _ => by
    by_cases hlow : IsLow uc'
    · exact ⟨_, by simpa using Literal.pair hh hhigh hh' hlow hlit⟩
    · exact ⟨_, by simpa using Literal.mispaired hh hhigh hh' hlow hlit⟩
  simpa using key

end StartsLiteral

/-- **Where escapes are complete there is a literal to decode.**  By induction on the length, as
an escape takes up to twelve bytes at once. -/
theorem startsLiteral {t : Text} (hwell : wellEscaped t = true) : StartsLiteral t := by
  induction hn : t.length using Nat.strong_induction_on generalizing t with
  | _ n ih =>
      have shorter (u : Text) (hu : u.length < n) (hwell : wellEscaped u = true) :
          StartsLiteral u := ih u.length hu hwell rfl
      match t, hwell, hn with
      | [], _, _ => exact ⟨[], [], [], .nil, rfl, .inr ⟨rfl, rfl⟩⟩
      | c :: t, hwell, hn =>
          rw [List.length_cons] at hn
          by_cases hquote : c = 34
          · subst hquote
            rw [wellEscaped_cons (by decide)] at hwell
            exact ⟨[], [], t, .nil, hwell, .inl rfl⟩
          by_cases hslash : c = 92
          · subst hslash
            match t, hwell, hn with
            | e :: t, hwell, hn =>
                rw [List.length_cons] at hn
                obtain ⟨hu, hrest⟩ := wellEscaped_escape hwell
                by_cases he : e = 117
                · obtain ⟨h, u, uc, rfl, hh, hwell'⟩ := hu he
                  subst he
                  rw [List.length_append] at hn
                  by_cases hnext : IsHigh uc ∧ peek u = 92 ∧ peek u.tail = 117
                  · obtain ⟨hhigh, h₁, h₂⟩ := hnext
                    obtain ⟨v, rfl⟩ : ∃ v, u = 92 :: 117 :: v :=
                      ⟨u.tail.tail, by
                        rw [← eq_cons_of_peek h₂ (by decide), ← eq_cons_of_peek h₁ (by decide)]⟩
                    obtain ⟨h', v, uc', rfl, hh', hv⟩ := (wellEscaped_escape hwell').1 rfl
                    simp only [List.length_cons, List.length_append] at hn
                    exact (shorter v (by omega) hv).two hh hhigh hh'
                  · exact (shorter u (by omega) hwell').unicode hh fun hhigh h => hnext ⟨hhigh, h⟩
                · exact (shorter t (by omega) hrest).cons [92, e] fun body out hlit _ =>
                    ⟨_, .escape he hlit⟩
          · rw [wellEscaped_cons hslash] at hwell
            exact (shorter t (by omega) hwell).cons [c] fun body out hlit _ =>
              ⟨_, .byte hquote hslash hlit⟩

/-- What `parse_string` returns on a text whose escapes are complete. -/
theorem parseString_wellEscaped {t : Text} (hwell : wellEscaped t = true)
    (hsize : t.length ≤ intMax) :
    (∃ body out rest, Literal body out ∧ t = 34 :: (body ++ 34 :: rest) ∧ wellEscaped rest = true
        ∧ parseString t = .done (CString.ofText out) rest)
      ∨ (∃ body out, Literal body out ∧ t = 34 :: body
        ∧ parseString t = .done (CString.ofText out) [])
      ∨ (peek t ≠ 34 ∧ parseString t = .failed t) := by
  match t, hwell, hsize with
  | [], _, _ => exact .inr (.inr ⟨by decide, rfl⟩)
  | c :: t, hwell, hsize =>
      by_cases hc : c = 34
      · subst hc
        rw [wellEscaped_cons (by decide)] at hwell
        obtain ⟨body, out, rest, hlit, hrest, rfl | ⟨rfl, rfl⟩⟩ := startsLiteral hwell
        · simp only [List.length_cons, List.length_append] at hsize
          exact .inl ⟨body, out, rest, hlit, rfl, hrest, parseString_literal hlit (by omega) rest⟩
        · exact .inr (.inl ⟨t, out, hlit, rfl, parseString_unclosed hlit hsize⟩)
      · refine .inr (.inr ⟨hc, ?_⟩)
        rw [parseString]
        rintro ptr h
        exact hc (List.head_eq_of_cons_eq h)

end SbusRemote.CJson
