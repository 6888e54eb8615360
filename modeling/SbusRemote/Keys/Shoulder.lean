import SbusRemote.Keys.Calls

/-!
# The shoulder keys

Each shoulder switch has three positions and two keys.  In the middle `channel_command` clears
both keys, but at an end it only sets the key of that end and leaves the other as it is.  As long
as every way from end to end passes the middle the keys follow the switch; a jump, as after lost
frames, leaves both keys set (`shoulders_both_set`).  The three-position switch next to them, `M`,
is computed from its present position alone.

`shoulders_follow_iff` — the keys follow the switches throughout a run exactly if no two vectors
in a row jump from one end of a switch to the other.
-/

namespace SbusRemote

open Lts

/-! ## One switch -/

/-- The keys `high` and `low` of a shoulder switch tell its position `v`. -/
structure Follows (v : UInt16) (high low : Bool) : Prop where
  atLow : low = true ↔ v.toNat < 500
  atHigh : high = true ↔ 1500 < v.toNat
  excluded : ¬(high = true ∧ low = true)

instance follows_decidable (v : UInt16) (high low : Bool) : Decidable (Follows v high low) :=
  decidable_of_iff ((low = true ↔ v.toNat < 500) ∧ (high = true ↔ 1500 < v.toNat) ∧
      ¬(high = true ∧ low = true))
    ⟨fun h => ⟨h.1, h.2.1, h.2.2⟩, fun h => ⟨h.atLow, h.atHigh, h.excluded⟩⟩

/-- From `u` to `v` a switch goes from one end to the other. -/
def Jumps (u v : UInt16) : Prop :=
  (u.toNat < 500 ∧ 1500 < v.toNat) ∨ (1500 < u.toNat ∧ v.toNat < 500)

instance jumps_decidable (u v : UInt16) : Decidable (Jumps u v) :=
  inferInstanceAs (Decidable (_ ∨ _))

/-- Keys that tell the position go on doing so unless the switch jumps. -/
lemma Follows.step {u v : UInt16} {high low : Bool} (h : Follows u high low) :
    Follows v (shoulderHigh v high) (shoulderLow v low) ↔ ¬Jumps u v := by
  have hlow := h.atLow
  have hhigh := h.atHigh
  constructor
  · rintro ⟨hlow', hhigh', -⟩ (⟨hu, hv⟩ | ⟨hu, hv⟩)
    · have hkept : shoulderLow v low = true := by simp [shoulderLow, hv, hlow.mpr hu]
      have := hlow'.mp hkept
      omega
    · have hkept : shoulderHigh v high = true := by simp [shoulderHigh, hv, hhigh.mpr hu]
      have := hhigh'.mp hkept
      omega
  · intro hj
    simp only [Jumps, not_or, not_and] at hj
    -- the end the switch is not at keeps a key that was clear
    have hlow' : shoulderLow v low = true ↔ v.toNat < 500 := by
      unfold shoulderLow
      split_ifs with h₁ h₂
      · simp [h₁]
      · simp only [hlow, h₁, iff_false]
        exact fun hu => hj.1 hu h₂
      · simp [h₁]
    have hhigh' : shoulderHigh v high = true ↔ 1500 < v.toNat := by
      unfold shoulderHigh
      split_ifs with h₁ h₂
      · simp only [hhigh]
        exact ⟨fun hu => absurd h₁ (hj.2 hu), fun hv => by omega⟩
      · simp [h₂]
      · simp [h₂]
    refine ⟨hlow', hhigh', ?_⟩
    rintro ⟨h₁, h₂⟩
    have := hhigh'.mp h₁
    have := hlow'.mp h₂
    omega

/-! ## Both switches, along a run -/

/-- The four shoulder keys tell the positions of channels 4 and 5. -/
structure ShouldersFollow (v : Channels) (key : Key) : Prop where
  left : Follows (v 4) key.l1 key.l2
  right : Follows (v 5) key.r1 key.r2

instance shouldersFollow_decidable (v : Channels) (key : Key) :
    Decidable (ShouldersFollow v key) :=
  decidable_of_iff (Follows (v 4) key.l1 key.l2 ∧ Follows (v 5) key.r1 key.r2)
    ⟨fun h => ⟨h.1, h.2⟩, fun h => ⟨h.left, h.right⟩⟩

/-- Neither shoulder switch jumps from `u` to `v`. -/
def PassesMiddle (u v : Channels) : Prop := ¬Jumps (u 4) (v 4) ∧ ¬Jumps (u 5) (v 5)

instance passesMiddle_decidable (u v : Channels) : Decidable (PassesMiddle u v) :=
  inferInstanceAs (Decidable (_ ∧ _))

/-- One call keeps the keys in step unless a switch jumps. -/
lemma Call.shouldersFollow {c : UserCommand} {s t : CommandState} {u v : Channels}
    (h : Call c s v t) (hs : ShouldersFollow u s.handleCmd.key) :
    ShouldersFollow v t.handleCmd.key ↔ PassesMiddle u v := by
  rw [h.key]
  exact ⟨fun hf => ⟨hs.left.step.mp hf.left, hs.right.step.mp hf.right⟩,
    fun hp => ⟨hs.left.step.mpr hp.1, hs.right.step.mpr hp.2⟩⟩

/-- The same along a run.  At the first jump both sides fail. -/
lemma shouldersFollow_run {r : List (Channels × CommandState)} :
    ∀ {s : CommandState} {u : Channels}, IsRun (fun s v t => ∃ c, Call c s v t) s r →
      ShouldersFollow u s.handleCmd.key →
      (IsRun (fun _ v t => ShouldersFollow v t.handleCmd.key) s r ↔
        (u :: r.map Prod.fst).IsChain PassesMiddle) := by
  induction r with
  | nil => simp
  | cons e r ih =>
      rintro s u ⟨⟨c, hc⟩, hr⟩ hs
      obtain ⟨v, t⟩ := e
      rw [isRun_cons, List.map_cons, List.isChain_cons_cons, hc.shouldersFollow hs]
      refine and_congr_right fun hp => ?_
      exact ih hr ((hc.shouldersFollow hs).mpr hp)

/-- **The shoulder keys.**  Over any run of `channel_command` from a fresh handle, the keys tell
the positions of both switches after every call, if and only if no two vectors in a row jump from
one end of a switch to the other. -/
theorem shoulders_follow_iff (m : Memory) (r : List (Channels × CommandState))
    (hr : IsRun (fun s v t => ∃ c, Call c s v t) (RControl.init m).cmd r) :
    IsRun (fun _ v t => ShouldersFollow v t.handleCmd.key) (RControl.init m).cmd r ↔
      (r.map Prod.fst).IsChain PassesMiddle := by
  -- a fresh handle has the keys of a centred vector, from which nothing jumps
  have hstart : ShouldersFollow centred (RControl.init m).cmd.handleCmd.key :=
    show ShouldersFollow centred Key.setKeyFalse by decide
  rw [shouldersFollow_run hr hstart]
  cases r with
  | nil => simp
  | cons e r =>
      have hfirst : PassesMiddle centred e.1 := by
        simp [PassesMiddle, Jumps, centred]
      simp [List.isChain_cons_cons, hfirst]

/-- The left switch at one end, in the middle, and at the other end. -/
theorem shoulders_follow_middle :
    let s₀ := (RControl.init Memory.centred).cmd
    IsRun (fun _ v t => ShouldersFollow v t.handleCmd.key) s₀
      (calls [pressed false 4, centred, pressed true 0] s₀) :=
  (shoulders_follow_iff _ _ ((calls_isRun _ _).mono fun _ _ _ h => ⟨_, h⟩)).mpr
    (by decide +kernel)

/-- The left switch from one end straight to the other: `L1` and `L2` are both set. -/
theorem shoulders_both_set : ¬∀ (m : Memory) (r : List (Channels × CommandState)),
    IsRun (fun s v t => ∃ c, Call c s v t) (RControl.init m).cmd r →
    IsRun (fun _ v t => ShouldersFollow v t.handleCmd.key) (RControl.init m).cmd r := by
  intro h
  have hbad := h Memory.centred (calls [pressed false 4, pressed true 0] _)
    ((calls_isRun _ _).mono fun _ _ _ h => ⟨_, h⟩)
  exact absurd hbad (by decide +kernel)

end SbusRemote
