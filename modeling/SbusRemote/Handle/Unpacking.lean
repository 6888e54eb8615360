import Mathlib.Tactic.FinCases
import SbusRemote.Core.LittleEndian
import SbusRemote.Handle.Frame

/-!
# Unpacking the channels

Bytes 1 to 22 of a frame are one number of 176 bits, least significant byte first, and the
channels are its sixteen fields of 11 bits.  `sbus_decode` takes each field out of two or three
bytes by hand.

`sbus_unpacking` — the sixteen expressions are the sixteen fields.  So the bytes and the channels
are two ways of writing one number (`payload_sbusDecode`, `wire_frameOf`), and decoding undoes
packing and packing undoes decoding.
-/

namespace SbusRemote

open LittleEndian

/-- The values of bytes 1 to 22. -/
def wireBytes (b : Fin 25 → UInt8) : List ℕ :=
  (List.finRange 22).map fun j => (b ⟨j.val + 1, by omega⟩).toNat

/-- The number that bytes 1 to 22 write, least significant byte first. -/
def wire (b : Fin 25 → UInt8) : ℕ := Nat.ofDigits (2 ^ 8) (wireBytes b)

lemma wireBytes_lt (b : Fin 25 → UInt8) : ∀ x ∈ wireBytes b, x < 2 ^ 8 := by
  simp only [wireBytes, List.forall_mem_map]
  exact fun j _ => UInt8.toNat_lt _

lemma length_wireBytes (b : Fin 25 → UInt8) : (wireBytes b).length = 22 := by
  simp [wireBytes]

lemma wire_lt (b : Fin 25 → UInt8) : wire b < (2 ^ 8) ^ 22 := by
  have h := Nat.ofDigits_lt_base_pow_length (by norm_num) (wireBytes_lt b)
  rwa [length_wireBytes] at h

/-! ## The sixteen fields -/

lemma int16_lt (x : UInt8) : int16 x < 2 ^ 8 := UInt8.toNat_lt x

/-- A field of 11 bits from bit `s` of byte `q + 1`. -/
lemma wire_field {b : Fin 25 → UInt8} {k q s : ℕ} (hk : 11 * k = 8 * q + s) :
    wire b / 2 ^ (11 * k) % 2 ^ 11
      = Nat.ofDigits (2 ^ 8) ((wireBytes b).drop q) / 2 ^ s % 2 ^ 11 := by
  rw [hk, pow_add, pow_mul, ← Nat.div_div_eq_div_mul, wire,
    Nat.ofDigits_div_pow_eq_ofDigits_drop q (by norm_num) _ (wireBytes_lt b)]

lemma toNat_ofNat_and (x : ℕ) : (UInt16.ofNat (x &&& 0x07FF)).toNat = x &&& (2 ^ 11 - 1) := by
  have hle : x &&& 0x07FF ≤ 0x07FF := Nat.and_le_right
  exact UInt16.toNat_ofNat_of_lt' (lt_of_le_of_lt hle (by decide))

/-- A channel that lies in two bytes. -/
lemma channel_two {b : Fin 25 → UInt8} {k q s : ℕ} {x y : UInt8} {r : List ℕ} {c : UInt16}
    (hk : 11 * k = 8 * q + s) (hs : s ≤ 5)
    (hdrop : (wireBytes b).drop q = int16 x :: int16 y :: r)
    (hc : c = UInt16.ofNat (((int16 x >>> s) ||| (int16 y <<< (8 - s))) &&& 0x07FF)) :
    c.toNat = wire b / 2 ^ (11 * k) % 2 ^ 11 := by
  rw [hc, toNat_ofNat_and, wire_field hk, hdrop,
    field_two (int16_lt x) (by omega) (by omega)]

/-- A channel that lies in three bytes. -/
lemma channel_three {b : Fin 25 → UInt8} {k q s : ℕ} {x y z : UInt8} {r : List ℕ} {c : UInt16}
    (hk : 11 * k = 8 * q + s) (hs : s ≤ 8)
    (hdrop : (wireBytes b).drop q = int16 x :: int16 y :: int16 z :: r)
    (hc : c = UInt16.ofNat
      (((int16 x >>> s) ||| (int16 y <<< (8 - s)) ||| (int16 z <<< (8 + (8 - s)))) &&& 0x07FF)) :
    c.toNat = wire b / 2 ^ (11 * k) % 2 ^ 11 := by
  rw [hc, toNat_ofNat_and, wire_field hk, hdrop,
    field_three (int16_lt x) (int16_lt y) hs (by omega)]

/-- Each channel is its field of the number. -/
theorem sbusDecode_toNat (b : Fin 25 → UInt8) (k : Fin 16) :
    (sbusDecode b k).toNat = wire b / 2 ^ (11 * k.val) % 2 ^ 11 := by
  fin_cases k
  · exact channel_two (q := 0) (s := 0) rfl (by omega) rfl rfl
  · exact channel_two (q := 1) (s := 3) rfl (by omega) rfl rfl
  · exact channel_three (q := 2) (s := 6) rfl (by omega) rfl rfl
  · exact channel_two (q := 4) (s := 1) rfl (by omega) rfl rfl
  · exact channel_two (q := 5) (s := 4) rfl (by omega) rfl rfl
  · exact channel_three (q := 6) (s := 7) rfl (by omega) rfl rfl
  · exact channel_two (q := 8) (s := 2) rfl (by omega) rfl rfl
  · exact channel_two (q := 9) (s := 5) rfl (by omega) rfl rfl
  · exact channel_two (q := 11) (s := 0) rfl (by omega) rfl rfl
  · exact channel_two (q := 12) (s := 3) rfl (by omega) rfl rfl
  · exact channel_three (q := 13) (s := 6) rfl (by omega) rfl rfl
  · exact channel_two (q := 15) (s := 1) rfl (by omega) rfl rfl
  · exact channel_two (q := 16) (s := 4) rfl (by omega) rfl rfl
  · exact channel_three (q := 17) (s := 7) rfl (by omega) rfl rfl
  · exact channel_two (q := 19) (s := 2) rfl (by omega) rfl rfl
  · exact channel_two (q := 20) (s := 5) rfl (by omega) rfl rfl

/-! ## There and back -/

lemma payload_eq (v : Channels) :
    payload v = Nat.ofDigits (2 ^ 11) ((List.finRange 16).map fun k => (v k).toNat) := by
  rw [payload, Nat.ofDigits_eq_foldr, List.foldr_map]
  rfl

/-- The channels write the same number as the bytes. -/
theorem payload_sbusDecode (b : Fin 25 → UInt8) : payload (sbusDecode b) = wire b := by
  have hwire : wire b < (2 ^ 11) ^ 16 := lt_of_lt_of_eq (wire_lt b) (by norm_num)
  simp only [payload_eq, sbusDecode_toNat, pow_mul]
  rw [ofDigits_finRange, Nat.mod_eq_of_lt hwire]

lemma payload_lt {v : Channels} (hv : ∀ k, (v k).toNat < 2 ^ 11) :
    payload v < (2 ^ 11) ^ 16 := by
  have h := Nat.ofDigits_lt_base_pow_length (b := 2 ^ 11)
    (l := (List.finRange 16).map fun k => (v k).toNat) (by norm_num) (by simpa using hv)
  rwa [List.length_map, List.length_finRange, ← payload_eq] at h

/-- The bytes of a frame write the same number as its channels. -/
theorem wire_frameOf {v : Channels} (hv : ∀ k, (v k).toNat < 2 ^ 11) :
    wire (frameOf v) = payload v := by
  have hbytes : wireBytes (frameOf v)
      = (List.finRange 22).map fun j => payload v / (2 ^ 8) ^ j.val % 2 ^ 8 := by
    refine List.map_congr_left fun j _ => ?_
    simp [frameOf, UInt8.toNat_ofNat']
  rw [wire, hbytes, ofDigits_finRange,
    Nat.mod_eq_of_lt (lt_of_lt_of_eq (payload_lt hv) (by norm_num))]

/-- **Unpacking.**  Every channel is bits `11 k` to `11 k + 10` of the number that bytes 1 to 22
write; packing what was decoded gives these bytes back, and decoding what was packed gives the
channels back. -/
theorem sbus_unpacking :
    (∀ b (k : Fin 16), (sbusDecode b k).toNat = wire b / 2 ^ (11 * k.val) % 2 ^ 11) ∧
    (∀ b (i : Fin 25), 1 ≤ i.val → i.val ≤ 22 → frameOf (sbusDecode b) i = b i) ∧
    ∀ v : Channels, (∀ k, (v k).toNat < 2 ^ 11) → sbusDecode (frameOf v) = v := by
  refine ⟨sbusDecode_toNat, ?_, ?_⟩
  · intro b i hi hi'
    have hlen : i.val - 1 < (wireBytes b).length := by
      rw [length_wireBytes]
      omega
    have hdigit := ofDigits_div_mod (wireBytes_lt b) hlen
    rw [frameOf, if_neg (by omega), if_pos hi', payload_sbusDecode]
    apply UInt8.toNat.inj
    rw [UInt8.toNat_ofNat', show (256 : ℕ) = 2 ^ 8 from rfl]
    refine hdigit.trans ?_
    simp [wireBytes, Nat.sub_add_cancel hi]
  · intro v hv
    funext k
    have hlen : k.val < ((List.finRange 16).map fun k => (v k).toNat).length := by simp
    have hdigit := ofDigits_div_mod (B := 2 ^ 11) (by simpa using hv) hlen
    apply UInt16.toNat.inj
    rw [sbusDecode_toNat, wire_frameOf hv, payload_eq, pow_mul, hdigit]
    simp

end SbusRemote
