import SbusRemote.Align.Resync

/-!
# The distance between the markers

`data_align` takes a `0x00` of its window for a terminator if the byte one frame later is `0x00`
as well.  It reaches that byte by reading `25-(24-1-i)` more bytes, counted from the end of the
window, which is right for the first `0x00` of the window.  A candidate that fails has consumed
its bytes, and the count does not allow for them: the byte that confirms a later candidate is more
than a frame away from it (`markers_apart`).

* `FirstRecurs` — the streams on which only first candidates are tried: a window with a second
  `0x00` has its first one confirmed.
* `firstRecurs_spaced` — there every return of `data_align` rests on two markers one frame apart.
-/

namespace SbusRemote

open ByteLine

/-- The bytes consumed from `p` to `q` end in a `0x00` that stands 24 places after a `0x0f` or 25
places after a `0x00`. -/
def Spaced (S : ℕ → UInt8) (p q : ℕ) : Prop :=
  ∃ e, q = e + 1 ∧ S e = 0x00 ∧
    ((∃ h ≥ p, e = h + 24 ∧ S h = 0x0f) ∨ ∃ c ≥ p, e = c + 25 ∧ S c = 0x00)

/-- From every position, with `ALIGN` clear: what `data_align` has consumed when it returns with
`ALIGN` set ends in two markers one frame apart. -/
def AlignsSpaced (S : ℕ → UInt8) : Prop :=
  ∀ (line : LineState) (p : ℕ) (line' : LineState) (q : ℕ),
    line.running = true → line.align = false → AlignsTo (exactLine S) (line, p) (line', q) →
    line'.align = true → Spaced S p q

/-- In each window after a `0x0f` not followed by its terminator: if there is a second `0x00`, the
first one has a `0x00` one frame after it. -/
def FirstRecurs (S : ℕ → UInt8) : Prop :=
  ∀ h, S h = 0x0f → S (h + 24) ≠ 0x00 → ∀ i j, i < j → j < 24 →
    (∀ k < i, S (h + 1 + k) ≠ 0x00) → S (h + 1 + i) = 0x00 → S (h + 1 + j) = 0x00 →
    S (h + 1 + i + 25) = 0x00

/-- Bytes consumed before do not matter. -/
lemma Spaced.of_le {S : ℕ → UInt8} {p p' q : ℕ} (h : Spaced S p' q) (hp : p ≤ p') :
    Spaced S p q := by
  obtain ⟨e, hq, he, (⟨h, hh, heq, hS⟩ | ⟨c, hc, heq, hS⟩)⟩ := h
  · exact ⟨e, hq, he, Or.inl ⟨h, hp.trans hh, heq, hS⟩⟩
  · exact ⟨e, hq, he, Or.inr ⟨c, hp.trans hc, heq, hS⟩⟩

/-- The `0x00` taken for the terminator is the first of the window: had an earlier one failed, it
would not have been followed by a `0x00` one frame later. -/
lemma FirstRecurs.first {S : ℕ → UInt8} (hS : FirstRecurs S) {h i : ℕ} (hhead : S h = 0x0f)
    (hterm : S (h + 24) ≠ 0x00) (hi : i < 24) (htaken : TakenFor S h i) :
    ∀ k < i, S (h + 1 + k) ≠ 0x00 := by
  intro k hk hz
  obtain ⟨f, hf, hzf, hfirst⟩ := exists_first_zero hz
  have hlt : f < i := hf.trans_lt hk
  have hc := hS h hhead hterm f i hlt hi hfirst hzf htaken.1.1
  obtain ⟨hfound, -⟩ := takenFor_first hfirst hzf hc
  exact htaken.2 f hlt hzf hfound.1.2

/-- One pass of `data_align` that sets `ALIGN` ends in markers one frame apart. -/
lemma scan_spaced {S : ℕ → UInt8} (hS : FirstRecurs S) {p q : ℕ}
    (h : scan S p = (true, q)) : Spaced S p q := by
  unfold scan at h
  split_ifs at h with hhead hz
  · rw [Prod.mk.injEq] at h
    exact ⟨p + 24, h.2.symm, hz, Or.inl ⟨p, le_refl p, rfl, hhead⟩⟩
  · obtain ⟨i, hi, htaken, rfl⟩ := (probe_aligns_iff S p q).mp h
    -- nothing has been consumed since the window
    refine ⟨_, rfl, htaken.1.2, Or.inr ⟨p + 1 + i, by omega, ?_, htaken.1.1⟩⟩
    rw [confirmation, taken_eq_zero (hS.first hhead hz hi htaken)]
    omega
  · simp at h

/-- A pass that leaves `ALIGN` clear only moves forward. -/
lemma scans_spaced {S : ℕ → UInt8} (hS : FirstRecurs S) {p q : ℕ} (h : ScansTo S p q) :
    Spaced S p q := by
  induction h with
  | last hscan => exact scan_spaced hS hscan
  | @next p p' q hscan _ ih =>
      have hforward : p < (scan S p).2 := (hop_advances S false p).1
      rw [hscan] at hforward
      exact ih.of_le hforward.le

/-- **Markers one frame apart.**  Over a stream of any content in which a window with a second
`0x00` has its first one followed by a `0x00` one frame later, every return of `data_align` with
`ALIGN` set rests on two markers one frame apart. -/
theorem firstRecurs_spaced (S : ℕ → UInt8) (hS : FirstRecurs S) : AlignsSpaced S :=
  fun _ _ _ _ _ halign hal halign' => scans_spaced hS (scans_of_aligns hal halign halign')

/-- A header with two `0x00` after it, the first of them confirmed. -/
theorem firstRecurs_spaced_two :
    AlignsSpaced fun p =>
      if p = 0 then 0x0f else if p = 1 ∨ p = 2 ∨ p = 26 then 0x00 else 0x01 := by
  refine firstRecurs_spaced _ fun h hhead _ i j _ _ hfirst hi _ => ?_
  obtain rfl : h = 0 := by
    by_contra hne
    rw [if_neg hne] at hhead
    split_ifs at hhead with h
    · exact absurd hhead (by decide)
    · exact absurd hhead (by decide)
  obtain rfl : i = 0 := by
    by_contra hne
    exact hfirst 0 (Nat.pos_of_ne_zero hne) rfl
  rfl

/-- A header with two `0x00` after it.  The first is not confirmed and consumes two bytes, so the
second is confirmed by the byte 27 places after it. -/
theorem markers_apart : ¬∀ S, AlignsSpaced S := by
  intro h
  let S : ℕ → UInt8 := fun p =>
    if p = 0 then 0x0f else if p = 1 ∨ p = 2 ∨ p = 29 then 0x00 else 0x01
  have hscan : scan S 0 = (true, 30) := by decide +kernel
  obtain ⟨line, line', hrun, halign, halign', hal⟩ := exists_aligns_of_scan hscan
  obtain ⟨e, he, -, hmark⟩ := h S line _ line' _ hrun halign hal halign'
  obtain rfl : 29 = e := Nat.succ.inj he
  rcases hmark with ⟨h, -, heq, hS⟩ | ⟨c, -, heq, hS⟩
  · obtain rfl : h = 5 := by omega
    exact absurd hS (by decide)
  · obtain rfl : c = 4 := by omega
    exact absurd hS (by decide)

end SbusRemote
