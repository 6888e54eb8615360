import Mathlib.Data.Fin.VecNotation
import SbusRemote.Handle.Command
import SbusRemote.Handle.Line

/-!
# `sbus_receive` and `sbus_decode`

One `read` of 25 bytes either becomes a channel vector or an error.  `sbusReceive` takes the
answer of that `read`; all three outcomes of the source are there, and the returned `0` or `-1`
is kept because the main loop discards it.

A failed reception leaves `_CH` as it was: `sbusReceive_rejected` is the whole of what happens
to the command members, and `sbusReceive_accepted` says what a successful one decodes.

`Receives` is one round of the reception: `data_align`, then `sbus_receive`.  Where it leads is
determined (`Receives.unique`), and the commands have no part in it (`Receives.line_unique`).
-/

namespace SbusRemote

open ByteLine

/-- `SbusHandle`: the members of the line and those of the commands. -/
structure SbusHandle extends LineState, CommandState

/-- `(int16_t)_buff25[i]`, promoted to `int`: no byte value changes. -/
def int16 (b : UInt8) : ℕ := b.toNat

/-- `SbusHandle::sbus_decode` as a function of `_buff25`. -/
def sbusDecode (b : Fin 25 → UInt8) : Channels := ![
  UInt16.ofNat (((int16 (b 1) >>> 0) ||| (int16 (b 2) <<< 8)) &&& 0x07FF),
  UInt16.ofNat (((int16 (b 2) >>> 3) ||| (int16 (b 3) <<< 5)) &&& 0x07FF),
  UInt16.ofNat (((int16 (b 3) >>> 6) ||| (int16 (b 4) <<< 2) ||| (int16 (b 5) <<< 10)) &&& 0x07FF),
  UInt16.ofNat (((int16 (b 5) >>> 1) ||| (int16 (b 6) <<< 7)) &&& 0x07FF),
  UInt16.ofNat (((int16 (b 6) >>> 4) ||| (int16 (b 7) <<< 4)) &&& 0x07FF),
  UInt16.ofNat (((int16 (b 7) >>> 7) ||| (int16 (b 8) <<< 1) ||| (int16 (b 9) <<< 9)) &&& 0x07FF),
  UInt16.ofNat (((int16 (b 9) >>> 2) ||| (int16 (b 10) <<< 6)) &&& 0x07FF),
  UInt16.ofNat (((int16 (b 10) >>> 5) ||| (int16 (b 11) <<< 3)) &&& 0x07FF),
  UInt16.ofNat (((int16 (b 12) <<< 0) ||| (int16 (b 13) <<< 8)) &&& 0x07FF),
  UInt16.ofNat (((int16 (b 13) >>> 3) ||| (int16 (b 14) <<< 5)) &&& 0x07FF),
  UInt16.ofNat
    (((int16 (b 14) >>> 6) ||| (int16 (b 15) <<< 2) ||| (int16 (b 16) <<< 10)) &&& 0x07FF),
  UInt16.ofNat (((int16 (b 16) >>> 1) ||| (int16 (b 17) <<< 7)) &&& 0x07FF),
  UInt16.ofNat (((int16 (b 17) >>> 4) ||| (int16 (b 18) <<< 4)) &&& 0x07FF),
  UInt16.ofNat
    (((int16 (b 18) >>> 7) ||| (int16 (b 19) <<< 1) ||| (int16 (b 20) <<< 9)) &&& 0x07FF),
  UInt16.ofNat (((int16 (b 20) >>> 2) ||| (int16 (b 21) <<< 6)) &&& 0x07FF),
  UInt16.ofNat (((int16 (b 21) >>> 5) ||| (int16 (b 22) <<< 3)) &&& 0x07FF)]

/-- `SbusHandle::sbus_receive`, given the answer of its `read(fd, _buff25, 25)`: the value
returned and the handle afterwards. -/
def sbusReceive (r : ReadResult) (h : SbusHandle) : ℤ × SbusHandle :=
  let h := { h with readLen := r.ret, buff25 := fill h.buff25 r.bytes }
  if h.readLen ≠ 25 then (-1, { h with align := false })
  else if h.buff25 0 = 0x0f ∧ h.buff25 24 = 0x00 then (0, { h with ch := sbusDecode h.buff25 })
  else (-1, { h with align := false })

/-- The reception succeeds: a full count and both markers. -/
def Accepts (r : ReadResult) (h : SbusHandle) : Prop :=
  r.ret = 25 ∧ fill h.buff25 r.bytes 0 = 0x0f ∧ fill h.buff25 r.bytes 24 = 0x00

lemma sbusReceive_accepted {r : ReadResult} {h : SbusHandle} (hr : Accepts r h) :
    sbusReceive r h = (0, { h with
      readLen := r.ret
      buff25 := fill h.buff25 r.bytes
      ch := sbusDecode (fill h.buff25 r.bytes) }) := by
  unfold sbusReceive
  simp [hr.1, hr.2.1, hr.2.2]

lemma sbusReceive_rejected {r : ReadResult} {h : SbusHandle} (hr : ¬Accepts r h) :
    sbusReceive r h = (-1, { h with
      readLen := r.ret
      buff25 := fill h.buff25 r.bytes
      align := false }) := by
  unfold sbusReceive
  by_cases hlen : r.ret = 25
  · have hm : ¬(fill h.buff25 r.bytes 0 = 0x0f ∧ fill h.buff25 r.bytes 24 = 0x00) :=
      fun hm => hr ⟨hlen, hm⟩
    simp only [hlen, ne_eq, not_true, if_false, hm]
  · simp only [ne_eq, hlen, not_false_eq_true, if_true]

/-- The line and the decision of `sbus_receive` do not depend on the command members. -/
lemma sbusReceive_line (r : ReadResult) (line : LineState) (cmd cmd' : CommandState) :
    (sbusReceive r ⟨line, cmd⟩).1 = (sbusReceive r ⟨line, cmd'⟩).1 ∧
    (sbusReceive r ⟨line, cmd⟩).2.toLineState = (sbusReceive r ⟨line, cmd'⟩).2.toLineState ∧
    ((sbusReceive r ⟨line, cmd⟩).1 = 0 →
      (sbusReceive r ⟨line, cmd⟩).2.ch = (sbusReceive r ⟨line, cmd'⟩).2.ch) := by
  by_cases hr : Accepts r ⟨line, cmd⟩
  · have hr' : Accepts r ⟨line, cmd'⟩ := hr
    rw [sbusReceive_accepted hr, sbusReceive_accepted hr']
    exact ⟨rfl, rfl, fun _ => rfl⟩
  · have hr' : ¬Accepts r ⟨line, cmd'⟩ := hr
    rw [sbusReceive_rejected hr, sbusReceive_rejected hr']
    exact ⟨rfl, rfl, fun h => absurd h (show ¬(-1 : ℤ) = 0 by decide)⟩

/-! ## Rounds -/

variable {δ : Type}

/-- One round of `data_align` and `sbus_receive` leads from `s` to `t`; the label is what
`sbus_receive` returns. -/
def Receives (D : Device δ) (s : SbusHandle × δ) (ret : ℤ) (t : SbusHandle × δ) : Prop :=
  ∃ line dev, AlignsTo D (s.1.toLineState, s.2) (line, dev) ∧
    sbusReceive (D.read dev 25).1 ⟨line, s.1.toCommandState⟩ = (ret, t.1) ∧
    (D.read dev 25).2 = t.2

theorem Receives.unique {D : Device δ} {s t t' : SbusHandle × δ} {ret ret' : ℤ}
    (h : Receives D s ret t) (h' : Receives D s ret' t') : ret = ret' ∧ t = t' := by
  obtain ⟨line, dev, ha, hr, hd⟩ := h
  obtain ⟨line', dev', ha', hr', hd'⟩ := h'
  obtain ⟨rfl, rfl⟩ := Prod.mk.injEq .. ▸ ha.unique ha'
  rw [hr, Prod.mk.injEq] at hr'
  exact ⟨hr'.1, Prod.ext hr'.2 (hd.symm.trans hd')⟩

/-- Rounds from the same line and device run alike, whatever the commands. -/
theorem Receives.line_unique {D : Device δ} {line : LineState} {cmd cmd' : CommandState} {dev : δ}
    {t t' : SbusHandle × δ} {ret ret' : ℤ} (h : Receives D (⟨line, cmd⟩, dev) ret t)
    (h' : Receives D (⟨line, cmd'⟩, dev) ret' t') :
    ret = ret' ∧ t.1.toLineState = t'.1.toLineState ∧ t.2 = t'.2 ∧
      (ret = 0 → t.1.ch = t'.1.ch) := by
  obtain ⟨l₁, d₁, ha, hr, hd⟩ := h
  obtain ⟨l₂, d₂, ha', hr', hd'⟩ := h'
  obtain ⟨rfl, rfl⟩ := Prod.mk.injEq .. ▸ ha.unique ha'
  obtain ⟨hret, hline, hch⟩ := sbusReceive_line (D.read d₁ 25).1 l₁ cmd cmd'
  rw [hr, hr'] at hret hline hch
  exact ⟨hret, hline, hd.symm.trans hd', hch⟩

/-- A round that starts unaligned is the round that starts after one pass of `data_align`. -/
lemma receives_of_body {D : Device δ} {line : LineState} {cmd : CommandState} {dev : δ}
    {t : SbusHandle × δ} {ret : ℤ} (hr : line.running = true) (ha : line.align = false)
    (h : Receives D (⟨(alignBody D (line, dev)).1, cmd⟩, (alignBody D (line, dev)).2) ret t) :
    Receives D (⟨line, cmd⟩, dev) ret t := by
  obtain ⟨l, d, hal, hrest⟩ := h
  exact ⟨l, d, alignsTo_of_body hr ha hal, hrest⟩

end SbusRemote
