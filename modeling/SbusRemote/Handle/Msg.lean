import SbusRemote.Core.Truncate

/-!
# `sbus_handle_msg.h`: keys, sticks, commands and the stick scaling

The data the handle layer computes from a channel vector, and `normalize`, which maps a channel
value to a stick value.  Floating point is read as exact rational arithmetic.

Of `UserCommand` only the enumerators that `channel_command` assigns and `RobotControl` switches
on are modelled; the others (`MODE3`, `SPEED_*`, `A`, `B`, `L2_D`) are never produced.
-/

namespace SbusRemote

-- the sizes of the arrays indexed by literals: filter axes, channels, bytes of a frame
instance neZero_axes : NeZero 4 := ⟨by decide⟩

instance neZero_channels : NeZero 16 := ⟨by decide⟩

instance neZero_frame : NeZero 25 := ⟨by decide⟩

/-- `struct KEY`. -/
structure Key where
  a : Bool
  b : Bool
  c : Bool
  d : Bool
  l1 : Bool
  l2 : Bool
  r1 : Bool
  r2 : Bool
  start : Bool
  startx2 : Bool
  startRst : Bool
  select : Bool
  m : ℕ
  deriving DecidableEq, Repr

/-- `KEY::setKeyFalse`: nothing pressed, `M` in the middle. -/
def Key.setKeyFalse : Key where
  a := false
  b := false
  c := false
  d := false
  l1 := false
  l2 := false
  r1 := false
  r2 := false
  start := false
  startx2 := false
  startRst := false
  select := false
  m := 1

/-- `struct HANDLE`: the four sticks and the keys. -/
structure Handle where
  ry : ℚ
  rx : ℚ
  lx : ℚ
  ly : ℚ
  key : Key
  deriving DecidableEq, Repr

/-- `HANDLE::setJoystickZero`, over the keys the handle has. -/
def Handle.setJoystickZero (h : Handle) : Handle := { h with ry := 0, rx := 0, lx := 0, ly := 0 }

/-- `enum class UserCommand`. -/
inductive UserCommand where
  | none
  | l2A1
  | l2A2
  | l2B
  | l2C
  | mode2
  | mode3
  | avoidOn
  | avoidOff
  | stopMove
  | speedSlow
  | speedNormal
  | speedFast
  | a
  | b
  | l2D
  deriving DecidableEq, Repr

/-- `DEAD_ZONE`. -/
def deadZone : ℤ := 200

/-- **The stick scaling.**  Outside the dead zone around 992 each side is linear, from 0 at the
edge of the zone to its limit at `min` or `max`, then truncated to hundredths.  Nothing clamps a
channel value beyond `min` or `max`. -/
def normalize (value : ℤ) (minLim maxLim : ℚ) (min max : ℤ) : ℚ :=
  if value < 992 - deadZone then
    Truncate.hundredths
      ((value - 992 + deadZone : ℤ) * (0 - minLim) / (992 - min - deadZone : ℤ))
  else if value > 992 + deadZone then
    Truncate.hundredths
      ((value - 992 - deadZone : ℤ) * (maxLim - 0) / (max - 992 - deadZone : ℤ))
  else 0

@[simp] lemma normalize_deadZone {value : ℤ} (h₁ : 792 ≤ value) (h₂ : value ≤ 1192)
    (minLim maxLim : ℚ) (min max : ℤ) : normalize value minLim maxLim min max = 0 := by
  unfold normalize deadZone
  rw [if_neg (by omega), if_neg (by omega)]

/-- Limits of the opposite sign give the opposite value. -/
lemma normalize_neg (value : ℤ) (minLim maxLim : ℚ) (min max : ℤ) :
    normalize value (-minLim) (-maxLim) min max = -normalize value minLim maxLim min max := by
  unfold normalize
  split_ifs
  · rw [← Truncate.hundredths_neg]
    congr 1
    ring
  · rw [← Truncate.hundredths_neg]
    congr 1
    ring
  · exact neg_zero.symm

/-- One side of the travel: `d` channel values beyond the dead zone, with a limit of `m`
hundredths. -/
lemma hundredths_side_le_iff {d m : ℤ} (hd : 0 ≤ d) (hm : 0 ≤ m) :
    (0 : ℚ) ≤ d * (m / 100) / 520 ∧
      (Truncate.hundredths (d * (m / 100) / 520) ≤ m / 100 ↔ d * m < 520 * (m + 1)) := by
  have hd' : (0 : ℚ) ≤ d := by exact_mod_cast hd
  have hm' : (0 : ℚ) ≤ m := by exact_mod_cast hm
  have hq : (0 : ℚ) ≤ d * (m / 100) / 520 := by positivity
  refine ⟨hq, ?_⟩
  rw [Truncate.hundredths_le_iff hq,
    show (d * m < 520 * (m + 1)) ↔ ((d * m : ℤ) : ℚ) < ((520 * (m + 1) : ℤ) : ℚ) from
      Int.cast_lt.symm]
  push_cast
  constructor <;> intro h <;> linarith

/-- **Where the scaling stays inside its limits**, for the travel 272 to 1712 the program uses and
limits of `a` and `b` hundredths: up to the last channel value whose excess the truncation still
swallows. -/
theorem normalize_mem_Icc_iff (v a b : ℤ) (ha : 0 ≤ a) (hb : 0 ≤ b) :
    normalize v (-(a / 100)) (b / 100) 272 1712 ∈ Set.Icc (-(a / 100) : ℚ) (b / 100) ↔
      (792 - v) * a < 520 * (a + 1) ∧ (v - 1192) * b < 520 * (b + 1) := by
  have ha' : (0 : ℚ) ≤ a := by exact_mod_cast ha
  have hb' : (0 : ℚ) ≤ b := by exact_mod_cast hb
  have hlo : (-(a / 100) : ℚ) ≤ 0 := neg_nonpos.mpr (by positivity)
  have hhi : (0 : ℚ) ≤ b / 100 := by positivity
  by_cases hlow : v < 792
  · have hval : normalize v (-(a / 100)) (b / 100) 272 1712
        = -Truncate.hundredths (((792 - v : ℤ) : ℚ) * (a / 100) / 520) := by
      rw [normalize, deadZone, if_pos (by omega), ← Truncate.hundredths_neg]
      congr 1
      push_cast
      ring
    obtain ⟨hq, hiff⟩ := @hundredths_side_le_iff (792 - v) a (by omega) ha
    have hneg : (v - 1192) * b < 520 * (b + 1) := by nlinarith
    rw [hval, Set.mem_Icc, neg_le_neg_iff, hiff]
    have hup := Truncate.hundredths_nonneg hq
    exact ⟨fun h => ⟨h.1, hneg⟩, fun h => ⟨h.1, by linarith⟩⟩
  · by_cases hhigh : 1192 < v
    · have hval : normalize v (-(a / 100)) (b / 100) 272 1712
          = Truncate.hundredths (((v - 1192 : ℤ) : ℚ) * (b / 100) / 520) := by
        rw [normalize, deadZone, if_neg (by omega), if_pos (by omega)]
        congr 1
        push_cast
        ring
      obtain ⟨hq, hiff⟩ := @hundredths_side_le_iff (v - 1192) b (by omega) hb
      have hneg : (792 - v) * a < 520 * (a + 1) := by nlinarith
      rw [hval, Set.mem_Icc, hiff]
      have hnonneg := Truncate.hundredths_nonneg hq
      exact ⟨fun h => ⟨hneg, h.2⟩, fun h => ⟨by linarith, h.2⟩⟩
    · rw [normalize_deadZone (by omega) (by omega)]
      have h₁ : (792 - v) * a < 520 * (a + 1) := by nlinarith
      have h₂ : (v - 1192) * b < 520 * (b + 1) := by nlinarith
      exact ⟨fun _ => ⟨h₁, h₂⟩, fun _ => ⟨hlo, hhi⟩⟩

example : normalize 1712 (-0.9) 1.0 272 1712 = 1 := by decide +kernel

/-- The top of the 11-bit range, past the nominal travel, leaves the limits. -/
example : normalize 2047 (-0.9) 1.0 272 1712 = 1.64 := by decide +kernel

end SbusRemote
