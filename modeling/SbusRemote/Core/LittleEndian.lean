import Mathlib.Data.Nat.Digits.Lemmas

/-!
# Little-endian numbers and their fields

A number given by its digits, least significant first, and the same number cut into fields of
another width.  The digits are Mathlib's `Nat.ofDigits`.

* `ofDigits_div_mod` — a digit of the number is the entry of the list.
* `ofDigits_finRange` — the number is determined by its digits, as far as they go.
* `field_two`, `field_three` — a field that starts inside a digit and ends in the next one, or in
  the one after it, put together by shifts and masks.
-/

namespace LittleEndian

/-! ## Digits -/

lemma ofDigits_div_mod {B : ℕ} {L : List ℕ} (hL : ∀ x ∈ L, x < B) {k : ℕ} (hk : k < L.length) :
    Nat.ofDigits B L / B ^ k % B = L[k] := by
  have hlt := hL _ (List.getElem_mem hk)
  rw [Nat.ofDigits_div_pow_eq_ofDigits_drop k (Nat.zero_lt_of_lt hlt) L hL,
    List.drop_eq_getElem_cons hk, Nat.ofDigits_cons, Nat.add_mul_mod_self_left,
    Nat.mod_eq_of_lt hlt]

/-- The number with the first `n` digits of `N` is `N` modulo `B ^ n`. -/
lemma ofDigits_range (B N n : ℕ) :
    Nat.ofDigits B ((List.range n).map fun k => N / B ^ k % B) = N % B ^ n := by
  induction n with
  | zero => simp [Nat.mod_one]
  | succ n ih =>
      rw [List.range_succ, List.map_append, Nat.ofDigits_append, ih, Nat.mod_pow_succ]
      simp

lemma ofDigits_finRange (B N n : ℕ) :
    Nat.ofDigits B ((List.finRange n).map fun k => N / B ^ k.val % B) = N % B ^ n := by
  rw [← ofDigits_range, ← List.map_coe_finRange_eq_range, List.map_map]
  rfl

/-! ## Fields -/

/-- Shifting a number with the low digit `x` down, by no more than the width of the digit. -/
lemma add_shiftRight {w s x : ℕ} (hx : x < 2 ^ w) (hs : s ≤ w) (m : ℕ) :
    (x + 2 ^ w * m) / 2 ^ s = (x >>> s) ||| (m <<< (w - s)) := by
  have hw : 2 ^ w = 2 ^ s * 2 ^ (w - s) := by rw [← pow_add, Nat.add_sub_cancel' hs]
  have hlow : x / 2 ^ s < 2 ^ (w - s) := by
    rw [Nat.div_lt_iff_lt_mul (by positivity), Nat.mul_comm, ← hw]
    exact hx
  rw [Nat.shiftRight_eq_div_pow, Nat.or_comm, ← Nat.shiftLeft_add_eq_or_of_lt hlow, hw,
    Nat.mul_assoc, Nat.add_mul_div_left _ _ (by positivity), Nat.shiftLeft_eq, Nat.add_comm,
    Nat.mul_comm m]

/-- What is shifted beyond the width of a field does not matter. -/
lemma add_shiftLeft_mod {w n k : ℕ} (hn : n ≤ w + k) (y m : ℕ) :
    (y + 2 ^ w * m) <<< k % 2 ^ n = y <<< k % 2 ^ n := by
  obtain ⟨e, he⟩ := Nat.exists_eq_add_of_le hn
  have hw : 2 ^ w * m * 2 ^ k = 2 ^ n * (2 ^ e * m) := by
    rw [← Nat.mul_assoc, ← pow_add, ← he, pow_add]
    ring
  rw [Nat.shiftLeft_eq, Nat.add_mul, hw, Nat.add_mul_mod_self_left, Nat.shiftLeft_eq]

/-- A field of `n` bits over two digits of width `w`, starting at bit `s` of the first. -/
theorem field_two {w s n x : ℕ} (hx : x < 2 ^ w) (hs : s ≤ w) (hn : n ≤ w + (w - s))
    (y : ℕ) (r : List ℕ) : Nat.ofDigits (2 ^ w) (x :: y :: r) / 2 ^ s % 2 ^ n
      = ((x >>> s) ||| (y <<< (w - s))) &&& (2 ^ n - 1) := by
  rw [Nat.ofDigits_cons, Nat.ofDigits_cons, add_shiftRight hx hs, Nat.and_two_pow_sub_one_eq_mod,
    Nat.or_mod_two_pow, add_shiftLeft_mod hn, ← Nat.or_mod_two_pow]

/-- A field of `n` bits over three digits of width `w`, starting at bit `s` of the first. -/
theorem field_three {w s n x y : ℕ} (hx : x < 2 ^ w) (hy : y < 2 ^ w) (hs : s ≤ w)
    (hn : n ≤ w + (w + (w - s))) (z : ℕ) (r : List ℕ) :
    Nat.ofDigits (2 ^ w) (x :: y :: z :: r) / 2 ^ s % 2 ^ n
      = ((x >>> s) ||| (y <<< (w - s)) ||| (z <<< (w + (w - s)))) &&& (2 ^ n - 1) := by
  have htwo : ∀ m, y + 2 ^ w * m = y ||| m <<< w := by
    intro m
    have h := add_shiftRight hy (Nat.zero_le w) m
    rwa [pow_zero, Nat.div_one, Nat.shiftRight_zero, Nat.sub_zero] at h
  rw [Nat.ofDigits_cons, Nat.ofDigits_cons, Nat.ofDigits_cons, add_shiftRight hx hs, htwo,
    Nat.shiftLeft_or_distrib, ← Nat.shiftLeft_add, Nat.and_two_pow_sub_one_eq_mod, ← Nat.or_assoc,
    Nat.or_mod_two_pow, add_shiftLeft_mod hn, ← Nat.or_mod_two_pow]

end LittleEndian
