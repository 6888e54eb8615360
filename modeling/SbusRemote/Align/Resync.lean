import SbusRemote.Align.Cursor

/-!
# Resynchronisation

Noise of any content and length, then frames.  The reception may enter the frames at any of the
25 offsets, with `ALIGN` set or clear.  If the first frames hold no second `0x0f`, or no second
`0x00`, it is on a frame boundary within sixteen of them, and from there it never leaves the
boundaries, whatever the later frames carry.

* `hop_advances` — a hop moves the cursor forward, by at most 324 bytes; so it enters the frames
  within 324 bytes (`enters`).
* `scans_from` — from any offset inside a frame, with `ALIGN` clear, `data_align` aligns on the
  boundary after the next frame.
* `locked_rounds` — aligned on a boundary, each round decodes exactly the next frame.
-/

namespace SbusRemote

open ByteLine Lts

/-- Noise, then frames. -/
def noisyStream (g : List UInt8) (F : ℕ → Fin 25 → UInt8) (p : ℕ) : UInt8 :=
  g.getD p (frameStream F (p - g.length))

lemma noisyStream_after (g : List UInt8) (F : ℕ → Fin 25 → UInt8) (x : ℕ) :
    noisyStream g F (g.length + x) = frameStream F x := by
  rw [noisyStream, List.getD_eq_getElem?_getD, List.getElem?_eq_none (Nat.le_add_right _ _),
    Option.getD_none, Nat.add_sub_cancel_left]

/-- Among the first sixteen frames, either none has `0x0f` between its markers or none has
`0x00`. -/
def CleanStart (F : ℕ → Fin 25 → UInt8) : Prop :=
  (∀ j < 16, ∀ i : Fin 25, 1 ≤ i.val → i.val ≤ 23 → F j i ≠ 0x0f) ∨
  (∀ j < 16, ∀ i : Fin 25, 1 ≤ i.val → i.val ≤ 23 → F j i ≠ 0x00)

/-! ## A hop moves forward -/

lemma probe_le (S : ℕ → UInt8) (h : ℕ) (w : ℕ → ℕ) : ∀ (is : List ℕ) (c : ℕ),
    (∀ i ∈ is, S (h + 1 + i) = 0x00 → i + 2 ≤ w i) →
    c ≤ (probe S h is c).2 ∧ (probe S h is c).2 ≤ c + (is.map w).sum
  | [], c, _ => by simp [probe]
  | i :: is, c, hw => by
      have ih := fun c => probe_le S h w is c fun j hj => hw j (List.mem_cons_of_mem _ hj)
      simp only [probe, List.map_cons, List.sum_cons]
      split_ifs with hz
      · have := hw i List.mem_cons_self hz
        constructor <;> simp only <;> omega
      · have := hw i List.mem_cons_self hz
        have := ih (c + (i + 2))
        omega
      · have := ih c
        omega

/-- **A hop moves the cursor forward, by at most 324 bytes**: a header, the 24 bytes after it, and
confirmation reads of 2 to 24 bytes for the first 23 of them. -/
theorem hop_advances (S : ℕ → UInt8) (a : Bool) (p : ℕ) :
    p < (hop S (a, p)).2 ∧ (hop S (a, p)).2 ≤ p + 324 := by
  cases a with
  | true => simp [hop]
  | false =>
      simp only [hop, scan]
      split_ifs with h₁ h₂
      · simp
      · obtain ⟨hlo, hhi⟩ := probe_le S p (fun i => if i = 23 then 0 else i + 2) (List.range 24)
          (p + 25) (fun i _ hz => by
            -- the last byte of the window is the one tested before the search
            have hi : i ≠ 23 := by
              rintro rfl
              exact h₂ hz
            rw [if_neg hi])
        have hsum : ((List.range 24).map fun i => if i = 23 then 0 else i + 2).sum = 299 := by
          decide
        omega
      · simp

/-- One state of the cursor leads to another by hops. -/
def Reaches (S : ℕ → UInt8) (s t : Bool × ℕ) : Prop := ∃ n, (hop S)^[n] s = t

lemma Reaches.refl (S : ℕ → UInt8) (s : Bool × ℕ) : Reaches S s s := ⟨0, rfl⟩

lemma Reaches.of_hop {S : ℕ → UInt8} {s t : Bool × ℕ} (h : Reaches S (hop S s) t) :
    Reaches S s t := by
  obtain ⟨n, hn⟩ := h
  exact ⟨n + 1, hn⟩

lemma Reaches.trans {S : ℕ → UInt8} {s t u : Bool × ℕ} (h : Reaches S s t)
    (h' : Reaches S t u) : Reaches S s u := by
  obtain ⟨n, rfl⟩ := h
  obtain ⟨n', rfl⟩ := h'
  exact ⟨n' + n, Function.iterate_add_apply _ _ _ _⟩

/-- Passes of `data_align` are hops. -/
lemma ScansTo.reaches {S : ℕ → UInt8} {p q : ℕ} (h : ScansTo S p q) :
    Reaches S (false, p) (true, q) := by
  induction h with
  | last hscan =>
      refine Reaches.of_hop ⟨0, ?_⟩
      rw [Function.iterate_zero_apply, hop, hscan]
  | next hscan _ ih =>
      refine Reaches.of_hop ?_
      rw [hop, hscan]
      exact ih

/-- **Entering the frames.**  The cursor passes any position `m` by at most 323 bytes. -/
theorem enters (S : ℕ → UInt8) (m : ℕ) (a : Bool) (p : ℕ) (hp : p ≤ m) :
    ∃ a' x, x ≤ 323 ∧ Reaches S (a, p) (a', m + x) := by
  induction hd : m - p using Nat.strong_induction_on generalizing a p with
  | _ d ih =>
      rcases Nat.eq_or_lt_of_le hp with rfl | hlt
      · exact ⟨a, 0, by omega, Reaches.refl _ _⟩
      · obtain ⟨hlo, hhi⟩ := hop_advances S a p
        by_cases hm : (hop S (a, p)).2 ≤ m
        · obtain ⟨a', x, hx, hr⟩ := ih _ (by omega) (hop S (a, p)).1 _ hm rfl
          exact ⟨a', x, hx, hr.of_hop⟩
        · refine ⟨(hop S (a, p)).1, (hop S (a, p)).2 - m, by omega, Reaches.of_hop ⟨0, ?_⟩⟩
          rw [Nat.add_sub_cancel' (by omega)]
          rfl

/-! ## Inside the frames -/

section Frames

variable {S : ℕ → UInt8} {m : ℕ} {F : ℕ → Fin 25 → UInt8}

lemma byte_at (hS : ∀ x, S (m + x) = frameStream F x) (q : ℕ) {k : ℕ} (hk : k < 25) :
    S (m + (25 * q + k)) = F q ⟨k, hk⟩ := by
  rw [hS]
  exact frameStream_at F q ⟨k, hk⟩

lemma window_at (hS : ∀ x, S (m + x) = frameStream F x) (q : ℕ) :
    window S (m + 25 * q) = F q := by
  funext i
  rw [window, Nat.add_assoc]
  exact byte_at hS q i.isLt

/-- The frame has no byte `b` between its markers. -/
def Clean (b : UInt8) (f : Fin 25 → UInt8) : Prop := ∀ i : Fin 25, 1 ≤ i.val → i.val ≤ 23 → f i ≠ b

instance clean_decidable (b : UInt8) (f : Fin 25 → UInt8) : Decidable (Clean b f) := by
  unfold Clean
  infer_instance

/-- From the start of a frame one pass of `data_align` consumes it. -/
lemma scan_from_start (hS : ∀ x, S (m + x) = frameStream F x) (hF : ∀ j, IsFrame (F j)) (q : ℕ) :
    scan S (m + 25 * q) = (true, m + 25 * (q + 1)) := by
  have h0 : S (m + 25 * q) = 0x0f := (byte_at hS q (by omega : 0 < 25)).trans (hF q).1
  have h24 : S (m + 25 * q + 24) = 0x00 := (byte_at hS q (by omega : 24 < 25)).trans (hF q).2
  rw [scan, if_pos h0, if_pos h24]
  rfl

/-- A second `0x0f` at offset `k`, where the frames have no second `0x00`: the first `0x00` after
it is the terminator of its frame, and the byte read to confirm it that of the next. -/
lemma scan_from_false_header (hS : ∀ x, S (m + x) = frameStream F x) (hF : ∀ j, IsFrame (F j))
    {q k : ℕ} (hk : 1 ≤ k) (hk' : k ≤ 23) (hhead : S (m + (25 * q + k)) = 0x0f)
    (hthis : Clean 0x00 (F q)) (hnext : Clean 0x00 (F (q + 1))) :
    scan S (m + (25 * q + k)) = (true, m + 25 * (q + 2)) := by
  have hlast : S (m + (25 * q + k) + 24) ≠ 0x00 := by
    have hb := byte_at hS (q + 1) (k := k - 1) (by omega)
    rw [show m + (25 * q + k) + 24 = m + (25 * (q + 1) + (k - 1)) by omega, hb]
    rcases Nat.eq_or_lt_of_le hk with rfl | hlt
    · rw [show F (q + 1) ⟨1 - 1, by omega⟩ = 0x0f from (hF (q + 1)).1]
      decide
    · exact hnext _ (by simp only; omega) (by simp only; omega)
  have hz : S (m + (25 * q + k) + 1 + (23 - k)) = 0x00 := by
    rw [show m + (25 * q + k) + 1 + (23 - k) = m + (25 * q + 24) by omega]
    exact (byte_at hS q (by omega)).trans (hF q).2
  have hne : ∀ i < 23 - k, S (m + (25 * q + k) + 1 + i) ≠ 0x00 := by
    intro i hi
    rw [show m + (25 * q + k) + 1 + i = m + (25 * q + (k + 1 + i)) by omega,
      byte_at hS q (by omega : k + 1 + i < 25)]
    exact hthis _ (by simp only; omega) (by simp only; omega)
  have hconf : confirmation S (m + (25 * q + k)) (23 - k) = m + (25 * (q + 1) + 24) := by
    rw [confirmation, taken_eq_zero hne]
    omega
  have hend : S (confirmation S (m + (25 * q + k)) (23 - k)) = 0x00 := by
    rw [hconf]
    exact (byte_at hS (q + 1) (by omega)).trans (hF (q + 1)).2
  rw [scan, if_pos hhead, if_neg hlast, probe_aligns_iff]
  exact ⟨23 - k, by omega, ⟨⟨hz, hend⟩, fun i hi hzi => absurd hzi (hne i hi)⟩,
    by rw [hconf]; omega⟩

/-- **From any offset of a frame** that has no second `0x0f`, or that has no second `0x00` and
neither has the next, `data_align` aligns on the boundary after the next frame.  The induction is
on the bytes left to the next frame. -/
theorem scans_from (hS : ∀ x, S (m + x) = frameStream F x) (hF : ∀ j, IsFrame (F j)) {q : ℕ}
    (hclean : Clean 0x0f (F q) ∨ (Clean 0x00 (F q) ∧ Clean 0x00 (F (q + 1)))) :
    ∀ d k, k + d = 25 → 1 ≤ k → ScansTo S (m + (25 * q + k)) (m + 25 * (q + 2))
  | 0, k, hkd, _ => by
      obtain rfl : k = 25 := by omega
      exact .last (scan_from_start hS hF (q + 1))
  | d + 1, k, hkd, hk => by
      have hbyte := byte_at hS q (by omega : k < 25)
      by_cases hhead : S (m + (25 * q + k)) = 0x0f
      · have hk' : k ≤ 23 := by
          by_contra hgt
          obtain rfl : k = 24 := by omega
          rw [hbyte, show F q ⟨24, by omega⟩ = 0x00 from (hF q).2] at hhead
          exact absurd hhead (by decide)
        rcases hclean with hno | ⟨hthis, hnext⟩
        · exact absurd (hbyte.symm.trans hhead) (hno _ hk hk')
        · exact .last (scan_from_false_header hS hF hk hk' hhead hthis hnext)
      · refine .next ?_ (scans_from hS hF hclean d (k + 1) (by omega) (by omega))
        rw [scan, if_neg hhead]
        rfl

/-- From any offset of one of the first frames. -/
lemma aligns_from (hS : ∀ x, S (m + x) = frameStream F x) (hF : ∀ j, IsFrame (F j))
    (hclean : CleanStart F) {q k : ℕ} (hq : q ≤ 13) (hk : 1 ≤ k) (hk' : k ≤ 25) :
    Reaches S (false, m + (25 * q + k)) (true, m + 25 * (q + 2)) := by
  refine (scans_from hS hF ?_ (25 - k) k (by omega) hk).reaches
  rcases hclean with hno | hno
  · exact Or.inl (hno q (by omega))
  · exact Or.inr ⟨hno q (by omega), hno (q + 1) (by omega)⟩

/-- Off the boundary a reception is rejected. -/
lemma not_isFrame_off (hS : ∀ x, S (m + x) = frameStream F x) (hF : ∀ j, IsFrame (F j))
    (hclean : CleanStart F) {q k : ℕ} (hq : q ≤ 12) (hk : 1 ≤ k) (hk' : k ≤ 24) :
    ¬IsFrame (window S (m + (25 * q + k))) := by
  rintro ⟨h₀, h₂₄⟩
  have hb₀ : S (m + (25 * q + k)) = 0x0f := h₀
  have hb₂₄ : S (m + (25 * q + k) + 24) = 0x00 := h₂₄
  rw [byte_at hS q (by omega : k < 25)] at hb₀
  rw [show m + (25 * q + k) + 24 = m + (25 * (q + 1) + (k - 1)) by omega,
    byte_at hS (q + 1) (by omega : k - 1 < 25)] at hb₂₄
  by_cases hk24 : k = 24
  · subst hk24
    rw [show F q ⟨24, by omega⟩ = 0x00 from (hF q).2] at hb₀
    exact absurd hb₀ (by decide)
  · by_cases hk1 : k = 1
    · subst hk1
      rw [show F (q + 1) ⟨1 - 1, by omega⟩ = 0x0f from (hF (q + 1)).1] at hb₂₄
      exact absurd hb₂₄ (by decide)
    · rcases hclean with hno | hno
      · exact hno q (by omega) _ hk (by simp only; omega) hb₀
      · exact hno (q + 1) (by omega) _ (by simp only; omega) (by simp only; omega) hb₂₄

/-- **Within sixteen frames.**  From wherever the cursor enters the frames it aligns on a
boundary. -/
theorem aligns_soon (hS : ∀ x, S (m + x) = frameStream F x) (hF : ∀ j, IsFrame (F j))
    (hclean : CleanStart F) (a : Bool) {x : ℕ} (hx : x ≤ 323) :
    ∃ j < 16, Reaches S (a, m + x) (true, m + 25 * j) := by
  obtain ⟨q, k, hk, rfl⟩ : ∃ q k, k < 25 ∧ x = 25 * q + k :=
    ⟨x / 25, x % 25, Nat.mod_lt _ (by omega), by omega⟩
  rcases Nat.eq_zero_or_pos k with rfl | hpos
  · cases a with
    | false => exact ⟨q + 1, by omega, (ScansTo.last (scan_from_start hS hF q)).reaches⟩
    | true => exact ⟨q, by omega, Reaches.refl _ _⟩
  · cases a with
    | false =>
        exact ⟨q + 2, by omega, aligns_from hS hF hclean (by omega) hpos (by omega)⟩
    | true =>
        -- the rejected reception clears `ALIGN` and moves one frame on
        refine ⟨q + 3, by omega, Reaches.of_hop ?_⟩
        rw [hop, decide_eq_false (not_isFrame_off hS hF hclean (by omega) hpos (by omega)),
          show m + (25 * q + k) + 25 = m + (25 * (q + 1) + k) by omega]
        exact aligns_from hS hF hclean (by omega) hpos (by omega)

/-! ## On the boundary -/

/-- From `s` on the reception is in step with the frames, from frame `j`: it goes on for ever, and
each round returns `0`, decodes exactly the next frame and stops at its end. -/
def InStep (S : ℕ → UInt8) (m : ℕ) (F : ℕ → Fin 25 → UInt8) (j : ℕ) (s : SbusHandle × ℕ) : Prop :=
  (∀ n, ∃ r, IsRun (Receives (exactLine S)) s r ∧ r.length = n) ∧
  ∀ r, IsRun (Receives (exactLine S)) s r →
    r.map (fun e => (e.1, e.2.1.ch, e.2.2))
      = (List.range' j r.length).map fun t => (0, sbusDecode (F t), m + 25 * (t + 1))

/-- A round that aligns on a boundary decodes the frame there and ends aligned on the next. -/
lemma round_on_boundary (hS : ∀ x, S (m + x) = frameStream F x) (hF : ∀ j, IsFrame (F j))
    {s : SbusHandle × ℕ} {line : LineState} {j : ℕ} (hline : line.align = true)
    (ha : AlignsTo (exactLine S) (s.1.toLineState, s.2) (line, m + 25 * j)) :
    ∃ h', Receives (exactLine S) s 0 (h', m + 25 * (j + 1)) ∧ h'.ch = sbusDecode (F j) ∧
      h'.align = true ∧ AlignsTo (exactLine S) (h'.toLineState, m + 25 * (j + 1))
        (h'.toLineState, m + 25 * (j + 1)) := by
  have hf : IsFrame (window S (m + 25 * j)) := by
    rw [window_at hS]
    exact hF j
  obtain ⟨h', hround, hch, -, halign⟩ := receives_frame ha hf
  rw [window_at hS] at hch
  rw [hline] at halign
  exact ⟨h', hround, hch, halign, alignsTo_of_aligned _ halign⟩

/-- **Aligned on a boundary, in step for ever.** -/
theorem locked_rounds (hS : ∀ x, S (m + x) = frameStream F x) (hF : ∀ j, IsFrame (F j))
    {s : SbusHandle × ℕ} {line : LineState} {j : ℕ} (hline : line.align = true)
    (ha : AlignsTo (exactLine S) (s.1.toLineState, s.2) (line, m + 25 * j)) :
    InStep S m F j s := by
  constructor
  · intro n
    induction n generalizing s line j with
    | zero => exact ⟨[], trivial, rfl⟩
    | succ n ih =>
        obtain ⟨h', hround, -, hline', ha'⟩ := round_on_boundary hS hF hline ha
        obtain ⟨r, hr, hlen⟩ := ih (s := (h', _)) hline' ha'
        exact ⟨(0, (h', m + 25 * (j + 1))) :: r, ⟨hround, hr⟩, by rw [List.length_cons, hlen]⟩
  · intro r hr
    induction r generalizing s line j with
    | nil => rfl
    | cons e r ih =>
        obtain ⟨ret, t⟩ := e
        obtain ⟨h', hround, hch, hline', ha'⟩ := round_on_boundary hS hF hline ha
        obtain ⟨rfl, rfl⟩ := hr.1.unique hround
        rw [List.map_cons, List.length_cons, List.range'_succ, List.map_cons,
          ih (s := (h', _)) hline' ha' hr.2, hch]

end Frames

/-- **Resynchronisation.**  Over noise `g` and then frames, clean for the first sixteen of them,
the loop of `data_align` and `sbus_receive`, started in any state of the handle, comes after some
rounds to a `data_align` that returns aligned on the boundary of one of these sixteen frames, and
is in step with the frames from there. -/
theorem resynchronises (g : List UInt8) (F : ℕ → Fin 25 → UInt8) (hF : ∀ j, IsFrame (F j))
    (hclean : CleanStart F) (h : SbusHandle) (hrun : h.running = true) :
    let S := noisyStream g F
    ∃ r, IsRun (Receives (exactLine S)) (h, 0) r ∧ ∃ line j, j < 16 ∧
      AlignsTo (exactLine S) ((final (h, 0) r).1.toLineState, (final (h, 0) r).2)
        (line, g.length + 25 * j) ∧
      line.align = true ∧ InStep S g.length F j (final (h, 0) r) := by
  intro S
  have hS : ∀ x, S (g.length + x) = frameStream F x := noisyStream_after g F
  obtain ⟨a, x, hx, henter⟩ := enters S g.length h.align 0 (Nat.zero_le _)
  obtain ⟨j, hj, hsoon⟩ := aligns_soon hS hF hclean a hx
  obtain ⟨n, hn⟩ := henter.trans hsoon
  obtain ⟨r, hr, line, ha, -, hline⟩ := rounds_of_hops S n h 0 hrun hn
  exact ⟨r, hr, line, j, hj, ha, hline, locked_rounds hS hF hline ha⟩

/-- A handle before its first read, with channels that happen to be zero. -/
def SbusHandle.blank : SbusHandle where
  align := false
  running := true
  readLen := 0
  buff1 := fun _ => 0
  buff24 := fun _ => 0
  buff25 := fun _ => 0
  userCmd := .none
  handleCmd := ⟨0, 0, 0, 0, Key.setKeyFalse⟩
  lock := true
  ch := fun _ => 0
  chBuff := fun _ => 0
  standL := false

/-- A header and two zeros of noise before frames of `0x55`. -/
theorem resynchronises_after_header :
    let F : ℕ → Fin 25 → UInt8 := fun _ i =>
      if i.val = 0 then 0x0f else if i.val ≤ 23 then 0x55 else 0x00
    let S := noisyStream [0x0f, 0x00, 0x00] F
    ∃ r, IsRun (Receives (exactLine S)) (SbusHandle.blank, 0) r ∧ ∃ line j, j < 16 ∧
      AlignsTo (exactLine S)
        ((final (SbusHandle.blank, 0) r).1.toLineState, (final (SbusHandle.blank, 0) r).2)
        (line, 3 + 25 * j) ∧
      line.align = true ∧ InStep S 3 F j (final (SbusHandle.blank, 0) r) :=
  resynchronises _ _ (fun _ => ⟨rfl, rfl⟩) (Or.inl (by decide)) _ rfl

/-! ## Where `data_align` lands

Started anywhere in the first of such frames, `data_align` stops on the boundary after the first
complete one: through the header of that frame, or through a false header before it, whose
fallback ends in the terminator of that frame.
-/

/-- **Exact landing.**  Over frames none of which has `0x0f` between its markers, or none of which
has `0x00` there, `data_align` started at offset `k` of the first frame returns aligned, after 25
bytes if `k` is 0 and after `50 - k` bytes otherwise. -/
theorem exact_landing (F : ℕ → Fin 25 → UInt8) (hF : ∀ j, IsFrame (F j))
    (hclean : (∀ j, Clean 0x0f (F j)) ∨ ∀ j, Clean 0x00 (F j)) (k : ℕ) (hk : k ≤ 24)
    (line : LineState) (hrun : line.running = true) (halign : line.align = false) :
    ∃ line', line'.align = true ∧
      AlignsTo (exactLine (frameStream F)) (line, k)
        (line', k + if k = 0 then 25 else 50 - k) := by
  have hS : ∀ x, frameStream F (0 + x) = frameStream F x := fun x => by rw [Nat.zero_add]
  by_cases hk0 : k = 0
  · subst hk0
    have hscan := scan_from_start hS hF 0
    exact aligns_of_scans (.last hscan) hrun halign
  · have hscans := scans_from hS hF (q := 0) ?_ (25 - k) k (by omega) (by omega)
    · rw [if_neg hk0, Nat.add_sub_cancel' (by omega : k ≤ 50)]
      rw [Nat.mul_zero, Nat.zero_add, Nat.zero_add] at hscans
      exact aligns_of_scans hscans hrun halign
    · rcases hclean with hno | hno
      · exact Or.inl (hno 0)
      · exact Or.inr ⟨hno 0, hno 1⟩

/-- From a false header at offset 1. -/
theorem exact_landing_false_header :
    let F : ℕ → Fin 25 → UInt8 := fun _ i =>
      if i.val ≤ 1 then 0x0f else if i.val ≤ 23 then 0x55 else 0x00
    ∃ line', line'.align = true ∧
      AlignsTo (exactLine (frameStream F)) (SbusHandle.blank.toLineState, 1) (line', 1 + 49) :=
  exact_landing _ (fun _ => ⟨rfl, rfl⟩) (Or.inr fun _ => by decide) 1 (by omega) _ rfl rfl

end SbusRemote
