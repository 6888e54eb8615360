import SbusRemote.Align.Cursor

/-!
# Alignment on an unambiguous stream

On a stream in which only the frames themselves look like frames, a header byte inside a frame
can be told from a real one: the byte 24 places on is not `0x00`.  `data_align` notices, but then
takes the first `0x00` it can confirm for the terminator, and confirms it with one byte of the
next frame.  The normal flags byte `0x00` is confirmed just as well as the terminator next to it
(`misaligns`).

* `TerminatorsFirst` — the streams on which the search cannot go wrong: inside a frame no `0x00`
  stands between a false header and the last byte.
* `unambiguous_aligns` — there every return of `data_align` is on a boundary.  Where the `0x00`s
  stand at the same places in every frame, it is nowhere else: the earlier `0x00` is confirmed.
-/

namespace SbusRemote

open ByteLine

/-- The only windows with both markers are those at the frame boundaries, and these all are. -/
def Unambiguous (S : ℕ → UInt8) : Prop := ∀ p, IsFrame (window S p) ↔ 25 ∣ p

/-- From every position, with `ALIGN` clear: where `data_align` returns with `ALIGN` set is a frame
boundary, and the `sbus_receive` there succeeds. -/
def AlignsTruly (S : ℕ → UInt8) : Prop :=
  ∀ (line : LineState) (p : ℕ) (line' : LineState) (q : ℕ),
    line.running = true → line.align = false → AlignsTo (exactLine S) (line, p) (line', q) →
    line'.align = true →
    25 ∣ q ∧ ∀ cmd, (sbusReceive ((exactLine S).read q 25).1 ⟨line', cmd⟩).1 = 0

/-- Inside a frame, no `0x00` between a `0x0f` after byte 0 and the last byte. -/
def TerminatorsFirst (S : ℕ → UInt8) : Prop :=
  ∀ h, S h = 0x0f → ¬25 ∣ h → ∀ p, h < p → p < 25 * (h / 25) + 24 → S p ≠ 0x00

/-- Each `0x00` stands at the same place in the next frame. -/
def Recurring (S : ℕ → UInt8) : Prop := ∀ p, S p = 0x00 → S (p + 25) = 0x00

variable {S : ℕ → UInt8}

/-- A header off the boundaries is not followed by its terminator. -/
lemma Unambiguous.false_header (hS : Unambiguous S) {h : ℕ} (hhead : S h = 0x0f) (hh : ¬25 ∣ h) :
    S (h + 24) ≠ 0x00 :=
  fun hz => hh ((hS h).mp ⟨hhead, hz⟩)

/-- The last byte of every frame is `0x00`. -/
lemma Unambiguous.terminator (hS : Unambiguous S) (k : ℕ) : S (25 * k + 24) = 0x00 :=
  ((hS (25 * k)).mpr (Dvd.intro k rfl)).2

/-- A false header is not the last byte of its frame. -/
lemma Unambiguous.header_lt (hS : Unambiguous S) {h : ℕ} (hhead : S h = 0x0f) :
    h < 25 * (h / 25) + 24 := by
  have hne : h ≠ 25 * (h / 25) + 24 := by
    intro heq
    rw [heq, hS.terminator] at hhead
    exact absurd hhead (by decide)
  omega

/-- After a false header, the last byte of its frame is the first `0x00`, and the last byte of the
next frame confirms it. -/
lemma scan_false_header (hS : Unambiguous S) (hT : TerminatorsFirst S) {p : ℕ}
    (hhead : S p = 0x0f) (hp : ¬25 ∣ p) : scan S p = (true, 25 * (p / 25 + 2)) := by
  have hlt := hS.header_lt hhead
  -- the index of the last byte in the window after the header
  obtain ⟨i, hi⟩ : ∃ i, p + 1 + i = 25 * (p / 25) + 24 :=
    ⟨25 * (p / 25) + 24 - (p + 1), by omega⟩
  have hfirst : ∀ k < i, S (p + 1 + k) ≠ 0x00 := by
    intro k hk
    exact hT p hhead hp _ (by omega) (by omega)
  have hz : S (p + 1 + i) = 0x00 := hi ▸ hS.terminator _
  have hc : S (p + 1 + i + 25) = 0x00 := by
    have hnext := hS.terminator (p / 25 + 1)
    rw [Nat.mul_add, Nat.mul_one, Nat.add_right_comm, ← hi] at hnext
    exact hnext
  obtain ⟨htaken, hconf⟩ := takenFor_first hfirst hz hc
  rw [scan, if_pos hhead, if_neg (hS.false_header hhead hp), probe_aligns_iff]
  exact ⟨i, by omega, htaken, by omega⟩

/-- One pass of `data_align` that sets `ALIGN` ends on a boundary. -/
lemma scan_dvd (hS : Unambiguous S) (hT : TerminatorsFirst S) {p q : ℕ}
    (h : scan S p = (true, q)) : 25 ∣ q := by
  by_cases hhead : S p = 0x0f
  · by_cases hp : 25 ∣ p
    · have hz : S (p + 24) = 0x00 := ((hS p).mpr hp).2
      rw [scan, if_pos hhead, if_pos hz, Prod.mk.injEq] at h
      omega
    · rw [scan_false_header hS hT hhead hp, Prod.mk.injEq] at h
      exact h.2 ▸ Dvd.intro _ rfl
  · rw [scan, if_neg hhead, Prod.mk.injEq] at h
    exact absurd h.1 Bool.false_ne_true

lemma scans_dvd (hS : Unambiguous S) (hT : TerminatorsFirst S) {p q : ℕ} (h : ScansTo S p q) :
    25 ∣ q := by
  induction h with
  | last hscan => exact scan_dvd hS hT hscan
  | next _ _ ih => exact ih

/-- Where the `0x00`s recur, one between a false header and the last byte of its frame misleads
`data_align`: the first of them is confirmed. -/
lemma AlignsTruly.terminatorsFirst (hS : Unambiguous S) (hrec : Recurring S) (h : AlignsTruly S) :
    TerminatorsFirst S := by
  intro p hhead hp q hpq hq hz
  rw [← Nat.add_sub_cancel' (show p + 1 ≤ q from hpq)] at hz
  obtain ⟨i, hle, hi, hfirst⟩ := exists_first_zero hz
  obtain ⟨htaken, hconf⟩ := takenFor_first hfirst hi (hrec _ hi)
  -- start `data_align` at the false header
  have hscan : scan S p = (true, confirmation S p i + 1) := by
    rw [scan, if_pos hhead, if_neg (hS.false_header hhead hp), probe_aligns_iff]
    exact ⟨i, by omega, htaken, rfl⟩
  obtain ⟨line, line', hrun, halign, halign', hal⟩ := exists_aligns_of_scan hscan
  have hdvd := (h line p line' _ hrun halign hal halign').1
  omega

/-- **Alignment on an unambiguous stream.**  If inside every frame the last byte is the first
`0x00` after any false header, `data_align` only ever aligns on frame boundaries.  On a stream
whose `0x00`s recur from frame to frame the condition is exact. -/
theorem unambiguous_aligns (S : ℕ → UInt8) (hS : Unambiguous S) :
    (TerminatorsFirst S → AlignsTruly S) ∧
    (Recurring S → (AlignsTruly S ↔ TerminatorsFirst S)) := by
  have hsuffices : TerminatorsFirst S → AlignsTruly S := by
    intro hT line p line' q _ halign hal halign'
    have hq := scans_dvd hS hT (scans_of_aligns hal halign halign')
    refine ⟨hq, fun cmd => ?_⟩
    rw [sbusReceive_accepted ((accepts_iff S q _).mpr ((hS q).mpr hq))]
  exact ⟨hsuffices, fun hrec => ⟨AlignsTruly.terminatorsFirst hS hrec, hsuffices⟩⟩

/-! ## One frame over and over -/

/-- A frame repeated for ever is unambiguous if only offset 0 has a `0x0f` before a `0x00`. -/
lemma unambiguous_repeat {f : Fin 25 → UInt8}
    (h : ∀ r : Fin 25, (f r = 0x0f ∧ f (r + 24) = 0x00) ↔ r = 0) :
    Unambiguous (frameStream fun _ => f) := by
  intro p
  have hr := h ⟨p % 25, Nat.mod_lt _ (by norm_num)⟩
  have h24 : (⟨p % 25, Nat.mod_lt _ (by norm_num)⟩ + 24 : Fin 25)
      = ⟨(p + 24) % 25, Nat.mod_lt _ (by norm_num)⟩ := by
    apply Fin.ext
    simp [Fin.val_add]
  rw [h24] at hr
  have hwin : IsFrame (window (frameStream fun _ => f) p) ↔
      f ⟨p % 25, Nat.mod_lt _ (by norm_num)⟩ = 0x0f ∧
        f ⟨(p + 24) % 25, Nat.mod_lt _ (by norm_num)⟩ = 0x00 := Iff.rfl
  rw [hwin, hr, Nat.dvd_iff_mod_eq_zero, Fin.ext_iff]
  rfl

/-- The same bytes in every frame. -/
lemma recurring_repeat (f : Fin 25 → UInt8) : Recurring (frameStream fun _ => f) := by
  intro p hp
  have hmod : (p + 25) % 25 = p % 25 := Nat.add_mod_right p 25
  simpa [frameStream, hmod] using hp

/-- Where only the last bytes of the frames are `0x00`, no other can come first. -/
lemma terminatorsFirst_of_zero (h : ∀ p, S p = 0x00 → p % 25 = 24) : TerminatorsFirst S := by
  intro q _ _ p hq hp hz
  have := h p hz
  omega

/-- A frame with `0x0f` at offset 1 and no `0x00` but its last byte: `data_align` gets it right
from every position. -/
theorem unambiguous_aligns_single_zero :
    let f : Fin 25 → UInt8 := fun i => if i.val ≤ 1 then 0x0f else if i.val ≤ 23 then 0x01 else 0x00
    let S := frameStream fun _ => f
    AlignsTruly S ∧ (AlignsTruly S ↔ TerminatorsFirst S) := by
  intro f S
  have hzero : ∀ r : Fin 25, f r = 0x00 → r.val = 24 := by decide
  have hT : TerminatorsFirst S :=
    terminatorsFirst_of_zero fun p hp => hzero ⟨p % 25, Nat.mod_lt _ (by norm_num)⟩ hp
  obtain ⟨hsuffices, hexact⟩ := unambiguous_aligns S (unambiguous_repeat (by decide))
  exact ⟨hsuffices hT, hexact (recurring_repeat f)⟩

/-- The same frame with the normal flags byte `0x00`: from offset 1 `data_align` takes the flags for
the terminator and returns aligned at offset 24 of the next frame. -/
theorem misaligns : ¬∀ S, Unambiguous S → AlignsTruly S := by
  intro h
  let f : Fin 25 → UInt8 := fun i => if i.val ≤ 1 then 0x0f else if i.val ≤ 22 then 0x01 else 0x00
  have hscan : scan (frameStream fun _ => f) 1 = (true, 49) := by decide +kernel
  obtain ⟨line, line', hrun, halign, halign', hal⟩ := exists_aligns_of_scan hscan
  have hdvd := (h _ (unambiguous_repeat (f := f) (by decide)) line _ line' _ hrun halign hal
    halign').1
  exact absurd hdvd (by decide)

end SbusRemote
