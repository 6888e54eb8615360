import SbusRemote.Core.Run
import SbusRemote.Handle.Frame

/-!
# The cursor of the reception

On an exact line the whole course of `data_align` and `sbus_receive` is a matter of two things:
the position of the next byte, and `ALIGN`.

* `scan` — one pass of `data_align` at a position, `probe` its search for the terminator;
  `alignBody_scan` reduces the source's loop body to them.
* `ScansTo` — passes that leave `ALIGN` clear, then one that sets it; `aligns_of_scans` and
  `scans_of_aligns` make the returns of `data_align` these.
* `probe_aligns_iff` — where the search ends: at the first `0x00` whose confirmation byte is
  `0x00` too.
* `hop` — one pass of `data_align` while `ALIGN` is clear, one `sbus_receive` while it is set.
* `rounds_of_hops` — a chain of hops that ends aligned is a number of rounds of the reception,
  then a `data_align` that returns there.
-/

namespace SbusRemote

open ByteLine Lts

/-- The search for the terminator after a header at `h`: the indices of `_buff24` still to come,
and the position of the next byte. -/
def probe (S : ℕ → UInt8) (h : ℕ) : List ℕ → ℕ → Bool × ℕ
  | [], c => (false, c)
  | i :: is, c =>
      if S (h + 1 + i) = 0x00 then
        if S (c + (i + 1)) = 0x00 then (true, c + (i + 2)) else probe S h is (c + (i + 2))
      else probe S h is c

/-- One pass of `data_align` at position `p`: `ALIGN` and the position afterwards. -/
def scan (S : ℕ → UInt8) (p : ℕ) : Bool × ℕ :=
  if S p = 0x0f then
    if S (p + 24) = 0x00 then (true, p + 25) else probe S p (List.range 24) (p + 25)
  else (false, p + 1)

lemma alignFallback_probe (S : ℕ → UInt8) (h : ℕ) : ∀ (is : List (Fin 24)) (s : LineState) (c : ℕ),
    (∀ i : Fin 24, s.buff24 i = S (h + 1 + i)) → s.align = false →
    ((alignFallback (exactLine S) is (s, c)).1.align, (alignFallback (exactLine S) is (s, c)).2)
      = probe S h (is.map Fin.val) c
  | [], s, c, _, ha => by
      rw [alignFallback, List.map_nil, probe, ha]
  | i :: is, s, c, hb, ha => by
      have hlen : 25 - (24 - 1 - i.val) = i.val + 2 := by omega
      simp only [alignFallback, List.map_cons, probe, hb i, exactLine_read, bytes_data, fill_chunk]
      simp only [hlen, Nat.add_one_sub_one]
      split_ifs
      · rfl
      · exact alignFallback_probe S h is _ _ hb ha
      · exact alignFallback_probe S h is _ _ hb ha

/-- **One pass of `data_align` is a `scan`.** -/
theorem alignBody_scan (S : ℕ → UInt8) (s : LineState) (p : ℕ) (ha : s.align = false) :
    ((alignBody (exactLine S) (s, p)).1.align, (alignBody (exactLine S) (s, p)).2) = scan S p := by
  have hend : p + 1 + 24 = p + 25 := rfl
  simp only [alignBody, scan, exactLine_read, bytes_data, fill_chunk, Fin.val_zero, Nat.add_zero]
  by_cases h₁ : S p = 0x0f
  · by_cases h₂ : S (p + 24) = 0x00
    · rw [if_pos h₁, if_pos h₁, if_pos h₂, if_pos (by exact h₂)]
    · rw [if_pos h₁, if_pos h₁, if_neg h₂, if_neg (by exact h₂), hend]
      exact alignFallback_probe S p (List.finRange 24) _ _ (fun _ => rfl) ha
  · rw [if_neg h₁, if_neg h₁, ha]

/-- Passes of `data_align` that leave `ALIGN` clear, then one that sets it. -/
inductive ScansTo (S : ℕ → UInt8) : ℕ → ℕ → Prop
  | last {p q : ℕ} : scan S p = (true, q) → ScansTo S p q
  | next {p p' q : ℕ} : scan S p = (false, p') → ScansTo S p' q → ScansTo S p q

/-- Where the passes end, `data_align` returns. -/
theorem aligns_of_scans {S : ℕ → UInt8} {p q : ℕ} (h : ScansTo S p q) : ∀ {s : LineState},
    s.running = true → s.align = false →
    ∃ t : LineState, t.align = true ∧ AlignsTo (exactLine S) (s, p) (t, q) := by
  induction h with
  | @last p q hscan =>
      rintro s hr ha
      have hbody := alignBody_scan S s p ha
      rw [hscan, Prod.mk.injEq] at hbody
      refine ⟨_, hbody.1, ?_⟩
      rw [← hbody.2]
      exact alignsTo_of_body hr ha (alignsTo_of_aligned _ hbody.1)
  | @next p p' q hscan _ ih =>
      rintro s hr ha
      have hbody := alignBody_scan S s p ha
      rw [hscan, Prod.mk.injEq] at hbody
      obtain ⟨t, ht, hal⟩ := ih ((alignBody_running _ _).trans hr) hbody.1
      rw [← hbody.2] at hal
      exact ⟨t, ht, alignsTo_of_body hr ha hal⟩

/-- **Every aligned return** is the end of such passes. -/
theorem scans_of_aligns {S : ℕ → UInt8} {t : LineState × ℕ} {s : LineState} {p : ℕ}
    (h : AlignsTo (exactLine S) (s, p) t) (hs : s.align = false) (ht : t.1.align = true) :
    ScansTo S p t.2 := by
  obtain ⟨fuel, hf⟩ := h
  induction fuel generalizing s p with
  | zero => simp [dataAlign] at hf
  | succ fuel ih =>
      rw [dataAlign] at hf
      split_ifs at hf with hrun
      · have hbody := alignBody_scan S s p hs
        cases ha : (alignBody (exactLine S) (s, p)).1.align with
        | false =>
            rw [ha] at hbody
            exact .next hbody.symm (ih ha hf)
        | true =>
            have hstop := (alignsTo_of_aligned _ ha).unique ⟨fuel, hf⟩
            rw [ha, hstop] at hbody
            exact .last hbody.symm
      · rw [Option.some_inj] at hf
        rw [← hf] at ht
        exact absurd (hs.symm.trans ht) Bool.false_ne_true

/-- From some state with `ALIGN` clear, `data_align` returns where a scan sets it. -/
lemma exists_aligns_of_scan {S : ℕ → UInt8} {p q : ℕ} (h : scan S p = (true, q)) :
    ∃ s t : LineState, s.running = true ∧ s.align = false ∧ t.align = true ∧
      AlignsTo (exactLine S) (s, p) (t, q) := by
  obtain ⟨t, ht, hal⟩ := aligns_of_scans (.last h)
    (s := ⟨false, true, 0, fun _ => 0, fun _ => 0, fun _ => 0⟩) rfl rfl
  exact ⟨_, t, rfl, rfl, ht, hal⟩

/-! ## Where the search ends -/

/-- The bytes read for the `0x00`s among the first `i` bytes after a header at `h`. -/
def taken (S : ℕ → UInt8) (h i : ℕ) : ℕ :=
  (((List.range i).filter fun k => S (h + 1 + k) = 0x00).map (· + 2)).sum

/-- The position of the byte that confirms a `0x00` at index `i` after a header at `h`. -/
def confirmation (S : ℕ → UInt8) (h i : ℕ) : ℕ := h + 25 + taken S h i + (i + 1)

lemma taken_succ (S : ℕ → UInt8) (h i : ℕ) :
    taken S h (i + 1) = taken S h i + if S (h + 1 + i) = 0x00 then i + 2 else 0 := by
  unfold taken
  rw [List.range_succ, List.filter_append, List.map_append, List.sum_append]
  by_cases hz : S (h + 1 + i) = 0x00
  · simp [hz]
  · simp [hz]

/-- Without a `0x00` nothing is read. -/
lemma taken_eq_zero {S : ℕ → UInt8} {h i : ℕ} (hne : ∀ k < i, S (h + 1 + k) ≠ 0x00) :
    taken S h i = 0 := by
  have hnil : (List.range i).filter (fun k => S (h + 1 + k) = 0x00) = [] := by
    refine List.filter_eq_nil_iff.mpr fun k hk => ?_
    simpa using hne k (List.mem_range.mp hk)
  rw [taken, hnil]
  rfl

/-- The search takes the `0x00` at index `i` for the terminator: its confirmation byte is `0x00`,
and no earlier one's is. -/
def TakenFor (S : ℕ → UInt8) (h i : ℕ) : Prop :=
  (S (h + 1 + i) = 0x00 ∧ S (confirmation S h i) = 0x00) ∧
  ∀ k < i, S (h + 1 + k) = 0x00 → S (confirmation S h k) ≠ 0x00

/-- The first `0x00` after a header is confirmed by the byte one frame after it. -/
lemma takenFor_first {S : ℕ → UInt8} {h i : ℕ} (hfirst : ∀ k < i, S (h + 1 + k) ≠ 0x00)
    (hz : S (h + 1 + i) = 0x00) (hc : S (h + 1 + i + 25) = 0x00) :
    TakenFor S h i ∧ confirmation S h i = h + 1 + i + 25 := by
  have hconf : confirmation S h i = h + 1 + i + 25 := by
    rw [confirmation, taken_eq_zero hfirst]
    omega
  exact ⟨⟨⟨hz, hconf ▸ hc⟩, fun k hk hk' => absurd hk' (hfirst k hk)⟩, hconf⟩

/-- Up to a `0x00` there is a first one. -/
lemma exists_first_zero {S : ℕ → UInt8} {h j : ℕ} (hz : S (h + 1 + j) = 0x00) :
    ∃ i ≤ j, S (h + 1 + i) = 0x00 ∧ ∀ k < i, S (h + 1 + k) ≠ 0x00 := by
  classical
  have hex : ∃ i, S (h + 1 + i) = 0x00 := ⟨j, hz⟩
  exact ⟨Nat.find hex, Nat.find_min' hex hz, Nat.find_spec hex, fun _ hk => Nat.find_min hex hk⟩

lemma probe_range'_iff (S : ℕ → UInt8) (h q : ℕ) : ∀ n s,
    (∀ k < s, S (h + 1 + k) = 0x00 → S (confirmation S h k) ≠ 0x00) →
    (probe S h (List.range' s n) (h + 25 + taken S h s) = (true, q) ↔
      ∃ i < s + n, TakenFor S h i ∧ q = confirmation S h i + 1)
  | 0, s, hs => by
      simp only [List.range'_zero, probe, Prod.mk.injEq, Bool.false_eq_true, false_and, false_iff]
      rintro ⟨i, hi, ⟨hz, -⟩, -⟩
      exact hs i hi hz.1 hz.2
  | n + 1, s, hs => by
      have hstep : ∀ c, h + 25 + taken S h s + c = h + 25 + taken S h (s + 1) →
          (S (h + 1 + s) = 0x00 → S (confirmation S h s) ≠ 0x00) →
          (probe S h (List.range' (s + 1) n) (h + 25 + taken S h s + c) = (true, q) ↔
            ∃ i < s + (n + 1), TakenFor S h i ∧ q = confirmation S h i + 1) := by
        intro c hc hs'
        rw [hc, probe_range'_iff S h q n (s + 1) fun k hk => ?_, Nat.add_right_comm, Nat.add_assoc]
        rcases Nat.eq_or_lt_of_le (Nat.le_of_lt_succ hk) with rfl | hlt
        · exact hs'
        · exact hs k hlt
      rw [List.range'_succ, probe]
      split_ifs with hz hc
      · rw [Prod.mk.injEq]
        constructor
        · rintro ⟨-, rfl⟩
          exact ⟨s, by omega, ⟨⟨hz, hc⟩, hs⟩, rfl⟩
        · rintro ⟨i, -, ⟨⟨hzi, hci⟩, hfirst⟩, rfl⟩
          -- both are the first
          have hi : i = s := by
            rcases Nat.lt_trichotomy i s with hlt | heq | hgt
            · exact absurd hci (hs i hlt hzi)
            · exact heq
            · exact absurd hc (hfirst s hgt hz)
          subst hi
          exact ⟨rfl, rfl⟩
      · refine hstep (s + 2) ?_ fun _ => hc
        rw [taken_succ, if_pos hz, Nat.add_assoc]
      · refine hstep 0 ?_ fun h => absurd h hz
        rw [taken_succ, if_neg hz, Nat.add_assoc]

/-- **Where the search ends.** -/
theorem probe_aligns_iff (S : ℕ → UInt8) (h q : ℕ) :
    probe S h (List.range 24) (h + 25) = (true, q) ↔
      ∃ i < 24, TakenFor S h i ∧ q = confirmation S h i + 1 := by
  have hp := probe_range'_iff S h q 24 0 fun k hk => absurd hk (Nat.not_lt_zero k)
  rw [← List.range_eq_range', Nat.zero_add] at hp
  exact hp

/-! ## Receiving -/

/-- The 25 bytes at position `p`. -/
def window (S : ℕ → UInt8) (p : ℕ) : Fin 25 → UInt8 := fun i => S (p + i)

/-- On an exact line `sbus_receive` accepts just the frames. -/
lemma accepts_iff (S : ℕ → UInt8) (q : ℕ) (h : SbusHandle) :
    Accepts ((exactLine S).read q 25).1 h ↔ IsFrame (window S q) := by
  have hfill : fill h.buff25 (chunk S q 25) = window S q := fill_chunk _ _ _
  rw [Accepts, exactLine_read, bytes_data, hfill]
  exact ⟨fun ha => ha.2, fun hf => ⟨rfl, hf⟩⟩

/-- **A round that reads a frame** decodes it and stays aligned. -/
theorem receives_frame {S : ℕ → UInt8} {h : SbusHandle} {p q : ℕ} {line : LineState}
    (ha : AlignsTo (exactLine S) (h.toLineState, p) (line, q)) (hf : IsFrame (window S q)) :
    ∃ h', Receives (exactLine S) (h, p) 0 (h', q + 25) ∧ h'.ch = sbusDecode (window S q) ∧
      h'.running = line.running ∧ h'.align = line.align := by
  have hfill : fill line.buff25 (chunk S q 25) = window S q := fill_chunk _ _ _
  refine ⟨_, ⟨line, q, ha, sbusReceive_accepted ((accepts_iff S q _).mpr hf), rfl⟩, ?_, rfl, rfl⟩
  rw [exactLine_read, bytes_data, hfill]

/-- **A round that reads anything else** keeps the channels and clears `ALIGN`. -/
theorem receives_noise {S : ℕ → UInt8} {h : SbusHandle} {p q : ℕ} {line : LineState}
    (ha : AlignsTo (exactLine S) (h.toLineState, p) (line, q)) (hf : ¬IsFrame (window S q)) :
    ∃ h', Receives (exactLine S) (h, p) (-1) (h', q + 25) ∧ h'.ch = h.ch ∧
      h'.running = line.running ∧ h'.align = false :=
  ⟨_, ⟨line, q, ha, sbusReceive_rejected (mt (accepts_iff S q _).mp hf), rfl⟩, rfl, rfl, rfl⟩

/-! ## Hops -/

/-- One pass of `data_align` while `ALIGN` is clear, one `sbus_receive` while it is set. -/
def hop (S : ℕ → UInt8) : Bool × ℕ → Bool × ℕ
  | (false, p) => scan S p
  | (true, p) => (IsFrame (window S p), p + 25)

/-- **From hops to rounds.**  A chain of hops that ends with `ALIGN` set is some rounds of the
reception, after which `data_align` returns at that position. -/
theorem rounds_of_hops (S : ℕ → UInt8) {q : ℕ} : ∀ (n : ℕ) (h : SbusHandle) (p : ℕ),
    h.running = true → (hop S)^[n] (h.align, p) = (true, q) →
    ∃ r, IsRun (Receives (exactLine S)) (h, p) r ∧ ∃ line : LineState,
      AlignsTo (exactLine S) ((final (h, p) r).1.toLineState, (final (h, p) r).2) (line, q) ∧
      line.running = true ∧ line.align = true := by
  intro n
  induction n with
  | zero =>
      intro h p hrun hq
      rw [Function.iterate_zero_apply, Prod.mk.injEq] at hq
      obtain ⟨ha, rfl⟩ := hq
      exact ⟨[], trivial, h.toLineState, alignsTo_of_aligned _ ha, hrun, ha⟩
  | succ n ih =>
      intro h p hrun hq
      rw [Function.iterate_succ_apply] at hq
      cases ha : h.align with
      | false =>
          -- one pass of `data_align`, inside the round that the rest begins with
          rw [ha, hop, ← alignBody_scan S h.toLineState p ha] at hq
          obtain ⟨r, hr, line, hal, hend⟩ := ih
            ⟨(alignBody (exactLine S) (h.toLineState, p)).1, h.toCommandState⟩ _
            ((alignBody_running _ _).trans hrun) hq
          cases r with
          | nil => exact ⟨[], trivial, line, alignsTo_of_body hrun ha hal, hend⟩
          | cons e r =>
              obtain ⟨ret, t⟩ := e
              exact ⟨(ret, t) :: r, ⟨receives_of_body hrun ha hr.1, hr.2⟩, line, hal, hend⟩
      | true =>
          -- a round that starts aligned is one `sbus_receive`
          have hal := alignsTo_of_aligned (exactLine S) (s := (h.toLineState, p)) ha
          rw [ha, hop] at hq
          by_cases hf : IsFrame (window S p)
          · obtain ⟨h', hround, -, hrun', ha'⟩ := receives_frame hal hf
            rw [decide_eq_true hf] at hq
            obtain ⟨r, hr, hrest⟩ := ih h' (p + 25) (hrun'.trans hrun) (by rwa [ha', ha])
            exact ⟨(0, (h', p + 25)) :: r, ⟨hround, hr⟩, hrest⟩
          · obtain ⟨h', hround, -, hrun', ha'⟩ := receives_noise hal hf
            rw [decide_eq_false hf] at hq
            obtain ⟨r, hr, hrest⟩ := ih h' (p + 25) (hrun'.trans hrun) (by rwa [ha'])
            exact ⟨(-1, (h', p + 25)) :: r, ⟨hround, hr⟩, hrest⟩

end SbusRemote
