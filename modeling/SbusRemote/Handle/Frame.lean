import SbusRemote.Handle.Receive

/-!
# Frames

The 25 bytes an SBUS transmitter sends, as a receiver of them needs to know: byte 0 is `0x0f`,
byte 24 is `0x00`, bytes 1 to 22 carry sixteen 11-bit values, least significant bit first.

* `IsFrame`, `frameStream` — a frame, and the stream of a sequence of frames.
* `frameOf` — the frame of a channel vector, with the normal flags byte `0x00`.
-/

namespace SbusRemote

/-- A block of 25 bytes with both markers. -/
def IsFrame (f : Fin 25 → UInt8) : Prop := f 0 = 0x0f ∧ f 24 = 0x00

instance (f : Fin 25 → UInt8) : Decidable (IsFrame f) := by
  unfold IsFrame
  infer_instance

/-- One frame after the other. -/
def frameStream (F : ℕ → Fin 25 → UInt8) (p : ℕ) : UInt8 :=
  F (p / 25) ⟨p % 25, Nat.mod_lt _ (by norm_num)⟩

lemma frameStream_at (F : ℕ → Fin 25 → UInt8) (j : ℕ) (i : Fin 25) :
    frameStream F (25 * j + i) = F j i := by
  have hi := i.isLt
  have hd : (25 * j + i.val) / 25 = j := by omega
  have hm : (25 * j + i.val) % 25 = i.val := by omega
  simp only [frameStream, hd, hm]

/-- The sixteen values as one integer of 176 bits. -/
def payload (v : Channels) : ℕ :=
  (List.finRange 16).foldr (fun i acc => (v i).toNat + 2048 * acc) 0

/-- The frame of a channel vector. -/
def frameOf (v : Channels) : Fin 25 → UInt8 := fun i =>
  if i.val = 0 then 0x0f
  else if i.val ≤ 22 then UInt8.ofNat (payload v / 256 ^ (i.val - 1))
  else 0x00

lemma isFrame_frameOf (v : Channels) : IsFrame (frameOf v) := ⟨rfl, rfl⟩

/-- All sticks and switches in their middle position. -/
def centred : Channels := fun _ => 992

/-- The forward stick at the end of its travel. -/
def forward : Channels := fun i => if i = 2 then 1712 else 992

/-- Button channel `i` pressed, with the left shoulder switch down (`L2`) or in the middle. -/
def pressed (l2 : Bool) (i : Fin 16) : Channels :=
  fun j => if j = i then 1712 else if j = 4 ∧ l2 = true then 272 else 992

/-- A transmitter that sends the vectors `vs`, then the centred one for ever. -/
def script (vs : List Channels) : ℕ → UInt8 := frameStream fun j => frameOf (vs.getD j centred)

end SbusRemote
