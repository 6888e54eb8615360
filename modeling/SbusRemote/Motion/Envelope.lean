import Mathlib.Algebra.Order.Archimedean.Basic
import SbusRemote.Control.MainLoop

/-!
# The velocity envelope

`channel_command` scales each stick with the limits `minLim` and `maxLim` of its axis, and the
filter never overshoots what it is given.  But `normalize` is linear beyond `min` and `max`, and
a channel value may be anything from 0 to 2047: past the travel of a stick the velocity sent
leaves the limits (`velocity_exceeds`).

* `InTravel` — the channel values whose stick value is inside the limits (`inTravel_iff`).  The
  travel is a little wider than 272 to 1712, by what the truncation to hundredths swallows.
* `velocity_envelope` — a run that only works on such vectors stays inside the limits.
* `leaves_envelope` — any other vector, held for long enough, drives the velocity out.
-/

namespace SbusRemote

open ByteLine Lts

variable {δ : Type}

/-- The lower limit of each axis of the filter: forward, sideways, pitch, yaw. -/
def lower : Fin 4 → ℚ := ![-0.9, -0.8, -0.5, -2.5]

/-- The upper limit of each axis of the filter. -/
def upper : Fin 4 → ℚ := ![1, 0.8, 0.5, 2.5]

/-- The value of axis `i` is inside its limits. -/
def Within (i : Fin 4) (q : ℚ) : Prop := lower i ≤ q ∧ q ≤ upper i

instance (i : Fin 4) (q : ℚ) : Decidable (Within i q) := inferInstanceAs (Decidable (_ ∧ _))

/-- A `Move` or an `Euler` carries only values inside the limits of their axes. -/
def InEnvelope (q : Request) : Prop :=
  match q with
  | ⟨.sport, 1008, .xyz x y z⟩ => Within 0 x ∧ Within 1 y ∧ Within 3 z
  | ⟨.sport, 1007, .xyz _ y _⟩ => Within 2 y
  | _ => True

instance (q : Request) : Decidable (InEnvelope q) := by
  unfold InEnvelope
  split <;> infer_instance

/-- The sticks of a vector are inside their travel. -/
structure InTravel (v : Channels) : Prop where
  yaw : 270 ≤ channel v 0 ∧ channel v 0 ≤ 1714
  pitch : 262 ≤ channel v 1 ∧ channel v 1 ≤ 1722
  forward : 267 ≤ channel v 2 ∧ channel v 2 ≤ 1717
  sideways : 266 ≤ channel v 13 ∧ channel v 13 ≤ 1718

instance (v : Channels) : Decidable (InTravel v) :=
  decidable_of_iff ((270 ≤ channel v 0 ∧ channel v 0 ≤ 1714) ∧
      (262 ≤ channel v 1 ∧ channel v 1 ≤ 1722) ∧ (267 ≤ channel v 2 ∧ channel v 2 ≤ 1717) ∧
      (266 ≤ channel v 13 ∧ channel v 13 ≤ 1718))
    ⟨fun h => ⟨h.1, h.2.1, h.2.2.1, h.2.2.2⟩, fun h => ⟨h.yaw, h.pitch, h.forward, h.sideways⟩⟩

/-! ## From the travel to the limits -/

lemma within_lx (v : Channels) :
    Within 0 (stickLx v) ↔ 267 ≤ channel v 2 ∧ channel v 2 ≤ 1717 := by
  have h := normalize_mem_Icc_iff (channel v 2) 90 100 (by norm_num) (by norm_num)
  show (-0.9 : ℚ) ≤ normalize (channel v 2) (-0.9) 1.0 272 1712 ∧
    normalize (channel v 2) (-0.9) 1.0 272 1712 ≤ (1 : ℚ) ↔ _
  norm_num at h ⊢
  rw [h]
  omega

lemma within_rx (v : Channels) :
    Within 2 (stickRx v) ↔ 262 ≤ channel v 1 ∧ channel v 1 ≤ 1722 := by
  have h := normalize_mem_Icc_iff (channel v 1) 50 50 (by norm_num) (by norm_num)
  show (-0.5 : ℚ) ≤ normalize (channel v 1) (-0.5) 0.5 272 1712 ∧
    normalize (channel v 1) (-0.5) 0.5 272 1712 ≤ (0.5 : ℚ) ↔ _
  norm_num at h ⊢
  rw [h]
  omega

/-- The sideways and the yaw stick have the positive limit at the low end. -/
lemma reversed_within (v : ℤ) (l : ℚ) :
    (-l ≤ normalize v l (-l) 272 1712 ∧ normalize v l (-l) 272 1712 ≤ l) ↔
      (-l ≤ normalize v (-l) l 272 1712 ∧ normalize v (-l) l 272 1712 ≤ l) := by
  have hn := normalize_neg v (-l) l 272 1712
  rw [neg_neg] at hn
  rw [hn, neg_le_neg_iff, neg_le, and_comm]

lemma within_ly (v : Channels) :
    Within 1 (stickLy v) ↔ 266 ≤ channel v 13 ∧ channel v 13 ≤ 1718 := by
  have h := normalize_mem_Icc_iff (channel v 13) 80 80 (by norm_num) (by norm_num)
  refine (reversed_within (channel v 13) 0.8).trans ?_
  norm_num at h ⊢
  rw [h]
  omega

lemma within_ry (v : Channels) :
    Within 3 (stickRy v) ↔ 270 ≤ channel v 0 ∧ channel v 0 ≤ 1714 := by
  have h := normalize_mem_Icc_iff (channel v 0) 250 250 (by norm_num) (by norm_num)
  refine (reversed_within (channel v 0) 2.5).trans ?_
  norm_num at h ⊢
  rw [h]
  omega

lemma forall_sticks {P : Fin 4 → ℚ → Prop} (v : Channels) : (∀ i, P i (sticks v i)) ↔
    P 0 (stickLx v) ∧ P 1 (stickLy v) ∧ P 2 (stickRx v) ∧ P 3 (stickRy v) := by
  simp [Fin.forall_fin_succ, sticks]

/-- **The travel is exact.**  A vector is in the travel exactly when no stick value leaves the
limits of its axis. -/
theorem inTravel_iff (v : Channels) : InTravel v ↔ ∀ i, Within i (sticks v i) := by
  rw [forall_sticks, within_lx, within_ly, within_rx, within_ry]
  constructor
  · rintro ⟨hry, hrx, hlx, hly⟩
    exact ⟨hlx, hly, hrx, hry⟩
  · rintro ⟨hlx, hly, hrx, hry⟩
    exact ⟨hry, hrx, hlx, hly⟩

/-! ## Inside the travel -/

lemma within_zero (i : Fin 4) : Within i 0 := by
  unfold Within lower upper
  fin_cases i <;> simp <;> norm_num

/-- The filter state is inside the limits. -/
def Enclosed (rc : RControl) : Prop := ∀ i, Within i (rc.ot i)

/-- A pass that works on a vector in the travel keeps the filter inside the limits. -/
lemma react_enclosed {rc : RControl} {l : Label} (hv : InTravel (l.rx.getD rc.cmd.ch))
    (h : Enclosed rc) : Enclosed (react rc l) := by
  intro i
  rw [react_ot]
  exact filterStep_mem_Icc (within_zero i) (h i) ((inTravel_iff _).mp hv i)

/-- The motion requests of a pass carry the filter state after it. -/
lemma passRequests_inEnvelope {rc : RControl} {l : Label} (h : Enclosed (react rc l)) :
    ∀ q ∈ passRequests rc l, InEnvelope q := by
  have hf : ∀ i, Within i (filtered (responding rc l) i) := by
    intro i
    have hi := h i
    rwa [react, robotControl_ot] at hi
  intro q hq
  by_cases hm : isMotion q = true
  · rcases (mem_motion hm).mp hq with hq | hq
    · rw [mem_moves hq]
      exact ⟨hf 0, hf 1, hf 3⟩
    · rw [mem_eulers hq]
      exact hf 2
  · unfold InEnvelope
    split
    · exact absurd rfl hm
    · exact absurd rfl hm
    · trivial

/-- The requests between two control states stay inside the envelope. -/
def StaysInEnvelope (rc rc' : RControl) : Prop := ∀ q ∈ issuedIn rc rc', InEnvelope q

instance (rc rc' : RControl) : Decidable (StaysInEnvelope rc rc') := by
  unfold StaysInEnvelope
  infer_instance

/-- **The velocity envelope.**  In every run of the main loop from a fresh handle, over any
device: if every pass works on a vector in the travel, no `Move` and no `Euler` of the run leaves
the limits of its axes. -/
theorem velocity_envelope (D : Device δ) (m : Memory) (dev : δ) (r : List (Label × System δ))
    (hr : IsRun (Pass D) (System.init m dev) r)
    (hv : IsRun (fun s l _ => InTravel (l.rx.getD s.rc.cmd.ch)) (System.init m dev) r) :
    IsRun (fun s _ t => StaysInEnvelope s.rc t.rc) (System.init m dev) r := by
  have hstart : Enclosed (System.init m dev).rc := fun i => within_zero i
  have hsteps := Pass.attach (fun _ _ _ hp => hp.1.rc) (fun _ _ _ hp _ => react_enclosed hp.2)
    (hr.and hv) (settled_init m) hstart
  refine hsteps.mono ?_
  rintro s l t ⟨⟨hp, hin⟩, -, hs⟩
  rw [StaysInEnvelope, hp.issuedIn]
  exact passRequests_inEnvelope (react_enclosed hin hs)

/-! ## Outside the travel -/

/-- A held input is approached as closely as one likes. -/
lemma filterStep_iterate_approaches (x : ℚ) {ε : ℚ} (hε : 0 < ε) (o : ℚ) :
    ∃ n, |(fun o => filterStep o x)^[n + 1] o - x| < ε := by
  obtain ⟨n, hn⟩ := exists_pow_lt_of_lt_one (show (0 : ℚ) < ε / (|o - x| + 1) by positivity)
    (by norm_num : (49 / 50 : ℚ) < 1)
  refine ⟨n, lt_of_le_of_lt (abs_iterate_filterStep_sub_le x o (n + 1)) ?_⟩
  have hpos : (0 : ℚ) < |o - x| + 1 := by positivity
  rw [lt_div_iff₀ hpos] at hn
  have hp : (0 : ℚ) ≤ (49 / 50) ^ n := by positivity
  have ha := abs_nonneg (o - x)
  rw [pow_succ]
  nlinarith [mul_nonneg hp ha]

/-- A value outside the limits has a neighbourhood outside the limits. -/
lemma not_within_near {i : Fin 4} {x : ℚ} (h : ¬Within i x) :
    ∃ ε > 0, ∀ o, |o - x| < ε → ¬Within i o := by
  rw [Within, not_and_or, not_le, not_le] at h
  rcases h with h | h
  · refine ⟨lower i - x, sub_pos.mpr h, fun o ho hw => ?_⟩
    have := (abs_lt.mp ho).2
    linarith [hw.1]
  · refine ⟨x - upper i, sub_pos.mpr h, fun o ho hw => ?_⟩
    have := (abs_lt.mp ho).1
    linarith [hw.2]

/-- A velocity outside its limits is sent. -/
lemma exists_outside {rc : RControl} {l : Label} {i : Fin 4}
    (h : ¬Within i (filtered (responding rc l) i)) :
    ∃ q ∈ passRequests rc l, ¬InEnvelope q := by
  have hne : filtered (responding rc l) i ≠ 0 := by
    intro h0
    rw [h0] at h
    exact h (within_zero i)
  have move (hi : i = 0 ∨ i = 1 ∨ i = 3) : ∃ q ∈ passRequests rc l, ¬InEnvelope q := by
    refine ⟨_, move_mem ?_, fun hq => ?_⟩
    · rintro ⟨h0, h1, h3⟩
      rcases hi with rfl | rfl | rfl
      · exact hne h0
      · exact hne h1
      · exact hne h3
    · rcases hi with rfl | rfl | rfl
      · exact h hq.1
      · exact h hq.2.1
      · exact h hq.2.2
  fin_cases i
  · exact move (Or.inl rfl)
  · exact move (Or.inr (Or.inl rfl))
  · exact ⟨_, euler_mem hne, h⟩
  · exact move (Or.inr (Or.inr rfl))

/-- **A vector outside the travel, held, leaves the envelope**, from any state and on any link. -/
theorem leaves_envelope {v : Channels} (hv : ¬InTravel v) (link : Request → Bool)
    (rc : RControl) : ∃ n, ∃ q ∈ passRequests
      ((fun rc => react rc ⟨some v, link⟩)^[n] rc) ⟨some v, link⟩, ¬InEnvelope q := by
  rw [inTravel_iff, not_forall] at hv
  obtain ⟨i, hi⟩ := hv
  have hot : ∀ n, ((fun rc => react rc ⟨some v, link⟩)^[n] rc).ot i
      = (fun o => filterStep o (sticks v i))^[n] (rc.ot i) := by
    intro n
    induction n with
    | zero => rfl
    | succ n ih => rw [Function.iterate_succ_apply', Function.iterate_succ_apply', react_ot, ih,
        Option.getD_some]
  obtain ⟨ε, hε, hfar⟩ := not_within_near hi
  obtain ⟨n, hn⟩ := filterStep_iterate_approaches (sticks v i) hε (rc.ot i)
  refine ⟨n, exists_outside (i := i) ?_⟩
  rw [filtered_responding, hot, Option.getD_some]
  rw [Function.iterate_succ_apply'] at hn
  exact hfar _ hn

/-! ## The forward stick past its travel -/

/-- The forward stick at the end of its travel: three passes stay inside the envelope. -/
theorem velocity_envelope_forward :
    let s₀ := System.init Memory.centred 0
    let r := scenario [centred, forward, forward, centred] (List.replicate 4 fun _ => true)
    r.length = 4 ∧ IsRun (fun s _ t => StaysInEnvelope s.rc t.rc) s₀ r :=
  ⟨by decide +kernel, velocity_envelope _ _ _ _ (executed_isRun (by decide +kernel))
    (by decide +kernel)⟩

/-- The forward channel at the top of its 11 bits. -/
def beyond : Channels := fun i => if i = 2 then 2047 else 992

/-- The forward channel at 2047 for 47 accepted frames: the last `Move` is beyond 1.0. -/
theorem velocity_exceeds : ¬∀ (δ : Type) (D : Device δ) (m : Memory) (dev : δ)
    (r : List (Label × System δ)), IsRun (Pass D) (System.init m dev) r →
    IsRun (fun _ l _ => l.rx.isSome = true) (System.init m dev) r →
    IsRun (fun s _ t => StaysInEnvelope s.rc t.rc) (System.init m dev) r := by
  intro h
  have hbad := h ℕ _ Memory.centred 0
    (scenario (List.replicate 48 beyond) (List.replicate 47 fun _ => true))
    (executed_isRun (by decide +kernel)) (by decide +kernel)
  exact absurd hbad (by decide +kernel)

end SbusRemote
