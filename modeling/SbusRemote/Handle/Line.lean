import SbusRemote.Core.ByteLine

/-!
# `data_align`: finding the frame boundary

The members of `SbusHandle` that alignment and reception use, and `data_align` over any device.

The source loops `while (RUNNING && !ALIGN)` around blocking reads, so it need not return.
`alignBody` is one pass of that loop, `dataAlign` runs it with a bound on the passes, and
`AlignsTo D s t` says that `data_align` returns from `s` in `t`.

* `dataAlign_mono`, `AlignsTo.unique` — the bound is only a bound: the result is determined.
* `AlignsTo.induct` — what one pass preserves, `data_align` preserves.
-/

namespace SbusRemote

open ByteLine

/-- The members of `SbusHandle` that `data_align` and `sbus_receive` work on. -/
structure LineState where
  align : Bool
  running : Bool
  readLen : ℤ
  buff1 : Fin 1 → UInt8
  buff24 : Fin 24 → UInt8
  buff25 : Fin 25 → UInt8

variable {δ : Type}

/-- The `for` loop of `data_align` over the indices of `_buff24` still to come.  Each `0x00` is a
candidate terminator: `25-(24-1-i)` more bytes are read into a fresh local array, and the last of
them decides.  The array is not initialised, so after a short read it may be anything. -/
def alignFallback (D : Device δ) : List (Fin 24) → LineState × δ → LineState × δ
  | [], s => s
  | i :: is, (s, d) =>
      if s.buff24 i = 0x00 then
        let len := 25 - (24 - 1 - i.val)
        let buff := fill (D.scratch d len) (D.read d len).1.bytes
        let s := { s with readLen := (D.read d len).1.ret }
        if buff ⟨len - 1, by omega⟩ = 0x00 then ({ s with align := true }, (D.read d len).2)
        else alignFallback D is (s, (D.read d len).2)
      else alignFallback D is (s, d)

/-- One pass of the `while` loop of `data_align`. -/
def alignBody (D : Device δ) : LineState × δ → LineState × δ
  | (s, d) =>
      let s := { s with
        readLen := (D.read d 1).1.ret
        buff1 := fill s.buff1 (D.read d 1).1.bytes }
      let d := (D.read d 1).2
      if s.buff1 0 = 0x0f then
        let s := { s with
          readLen := (D.read d 24).1.ret
          buff24 := fill s.buff24 (D.read d 24).1.bytes }
        let d := (D.read d 24).2
        if s.buff24 23 = 0x00 then ({ s with align := true }, d)
        else alignFallback D (List.finRange 24) (s, d)
      else (s, d)

/-- `data_align` with at most `fuel` tests of the loop condition; `none` if it is still running. -/
def dataAlign (D : Device δ) : ℕ → LineState × δ → Option (LineState × δ)
  | 0, _ => none
  | fuel + 1, s =>
      if s.1.running && !s.1.align then dataAlign D fuel (alignBody D s) else some s

/-- `data_align`, started in `s`, returns in `t`. -/
def AlignsTo (D : Device δ) (s t : LineState × δ) : Prop := ∃ fuel, dataAlign D fuel s = some t

/-! ## What one pass leaves alone -/

lemma alignFallback_running (D : Device δ) : ∀ (is : List (Fin 24)) (s : LineState × δ),
    (alignFallback D is s).1.running = s.1.running
  | [], _ => rfl
  | i :: is, (s, d) => by
      simp only [alignFallback]
      split_ifs
      · rfl
      · rw [alignFallback_running D is]
      · rw [alignFallback_running D is]

@[simp] lemma alignBody_running (D : Device δ) (s : LineState × δ) :
    (alignBody D s).1.running = s.1.running := by
  obtain ⟨s, d⟩ := s
  simp only [alignBody]
  split_ifs
  · rfl
  · rw [alignFallback_running]
  · rfl

/-! ## Returning -/

lemma alignsTo_of_stopped (D : Device δ) {s : LineState × δ}
    (h : (s.1.running && !s.1.align) = false) : AlignsTo D s s :=
  ⟨1, by simp [dataAlign, h]⟩

lemma alignsTo_of_aligned (D : Device δ) {s : LineState × δ} (h : s.1.align = true) :
    AlignsTo D s s :=
  alignsTo_of_stopped D (by simp [h])

lemma alignsTo_of_body {D : Device δ} {s t : LineState × δ} (hr : s.1.running = true)
    (ha : s.1.align = false) (h : AlignsTo D (alignBody D s) t) : AlignsTo D s t := by
  obtain ⟨fuel, hf⟩ := h
  exact ⟨fuel + 1, by simp [dataAlign, hr, ha, hf]⟩

/-- **The loop rule of `data_align`.**  A property that one pass preserves while the loop runs
holds where `data_align` returns, and there the loop condition is false. -/
theorem AlignsTo.induct {D : Device δ} {I : LineState × δ → Prop}
    (body : ∀ s, s.1.running = true → s.1.align = false → I s → I (alignBody D s))
    {s t : LineState × δ} (h : AlignsTo D s t) (hs : I s) :
    I t ∧ (t.1.running && !t.1.align) = false := by
  obtain ⟨fuel, hf⟩ := h
  induction fuel generalizing s with
  | zero => simp [dataAlign] at hf
  | succ fuel ih =>
      rw [dataAlign] at hf
      split_ifs at hf with hc
      · simp only [Bool.and_eq_true, Bool.not_eq_true'] at hc
        exact ih (body s hc.1 hc.2 hs) hf
      · rw [Option.some_inj] at hf
        subst hf
        exact ⟨hs, by simpa using hc⟩

/-- `data_align` never touches `RUNNING`; with `RUNNING` set it returns aligned. -/
lemma AlignsTo.aligned {D : Device δ} {s t : LineState × δ} (h : AlignsTo D s t)
    (hr : s.1.running = true) : t.1.running = true ∧ t.1.align = true := by
  obtain ⟨ht, hstop⟩ := h.induct (I := fun s => s.1.running = true)
    (fun s hs _ _ => by rw [alignBody_running, hs]) hr
  exact ⟨ht, by simpa [ht] using hstop⟩

/-- More passes allowed do not change where `data_align` returns. -/
lemma dataAlign_mono (D : Device δ) {fuel fuel' : ℕ} (hle : fuel ≤ fuel') {s t : LineState × δ}
    (h : dataAlign D fuel s = some t) : dataAlign D fuel' s = some t := by
  induction fuel generalizing fuel' s with
  | zero => simp [dataAlign] at h
  | succ fuel ih =>
      obtain ⟨m, rfl⟩ : ∃ m, fuel' = m + 1 := ⟨fuel' - 1, by omega⟩
      rw [dataAlign] at h ⊢
      split_ifs at h ⊢ with hc
      · exact ih (by omega) h
      · exact h

/-- `data_align` is a function of the state it starts in. -/
lemma AlignsTo.unique {D : Device δ} {s t t' : LineState × δ} (h : AlignsTo D s t)
    (h' : AlignsTo D s t') : t = t' := by
  obtain ⟨n, hn⟩ := h
  obtain ⟨n', hn'⟩ := h'
  have h₁ := dataAlign_mono D (le_max_left n n') hn
  have h₂ := dataAlign_mono D (le_max_right n n') hn'
  exact Option.some_inj.mp (h₁.symm.trans h₂)

end SbusRemote
