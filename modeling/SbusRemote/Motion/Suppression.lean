import SbusRemote.Motion.Delivery

/-!
# Send suppression

`RobotControl` compares the filtered values with those of the last pass and with zero, and sends
only if one of these tests fails.  Over three axes for the `Move` and one for the `Euler` the
tests come to the same thing: a request is left out exactly when the motion is at rest and was at
rest (`moveOf_passRequests`, `eulerOf_passRequests`).

So the requests issued always tell the present motion (`suppression`), and a motion that comes to
rest is closed by one `Move` of zeros, however long the rest lasts (`moves_at_rest`).
-/

namespace SbusRemote

open ByteLine Lts

variable {δ : Type}

/-- The pitch an `Euler` carries. -/
def eulerOf (q : Request) : Option ℚ :=
  match q with
  | ⟨.sport, 1007, .xyz _ y _⟩ => some y
  | _ => none

/-- The pitch of the last `Euler` in a log, zero if there is none. -/
def lastEuler (log : List Request) : ℚ := (log.filterMap eulerOf).getLast?.getD 0

lemma eulerOf_commandRequest (c : UserCommand) :
    (commandRequest c).toList.filterMap eulerOf = [] := by
  cases c <;> rfl

lemma eulerOf_moves (rc : RControl) : (moves rc).filterMap eulerOf = [] := by
  unfold moves
  split_ifs <;> rfl

/-- A pass with the pitch at rest, before and after, sends no `Euler`; any other sends one with
the new pitch. -/
lemma eulerOf_passRequests {rc : RControl} (l : Label) (h : rc.Settled) :
    (passRequests rc l).filterMap eulerOf
      = if rc.prrx = 0 ∧ (react rc l).prrx = 0 then [] else [(react rc l).prrx] := by
  have hv : (react rc l).prrx = filtered (responding rc l) 2 :=
    (robotControl_pr l.link (responding rc l)).2.2.1
  have hold : (responding rc l).prrx = rc.prrx := rfl
  rw [passRequests_eq l h, List.filterMap_append, List.filterMap_append, eulerOf_commandRequest,
    eulerOf_moves, List.nil_append, List.nil_append, hv, eulers, hold]
  by_cases hnew : filtered (responding rc l) 2 = 0
  · by_cases hzero : rc.prrx = 0
    · simp [hnew, hzero]
    · simp [hnew, hzero, Ne.symm hzero, eulerRequest, eulerOf]
  · simp [hnew, eulerRequest, eulerOf]

/-! ## One pass -/

/-- The log tells the present motion. -/
structure Told (rc : RControl) : Prop where
  move : lastMove rc.dm.issued = velocity rc
  euler : lastEuler rc.dm.issued = rc.prrx

/-- What a pass from `rc` to `rc'` sends, and what the log tells after it. -/
structure Sends (rc rc' : RControl) : Prop where
  move : (∃ q ∈ issuedIn rc rc', (moveOf q).isSome) ↔ velocity rc ≠ 0 ∨ velocity rc' ≠ 0
  euler : (∃ q ∈ issuedIn rc rc', (eulerOf q).isSome) ↔ rc.prrx ≠ 0 ∨ rc'.prrx ≠ 0
  told : Told rc'

lemma exists_mem_isSome {α β : Type*} (f : α → Option β) (xs : List α) :
    (∃ x ∈ xs, (f x).isSome) ↔ xs.filterMap f ≠ [] := by
  simp [List.filterMap_eq_nil_iff, Option.isSome_iff_ne_none]

/-- A pass goes on telling the present motion. -/
lemma react_told {rc : RControl} (l : Label) (h : rc.Settled) (ht : Told rc) :
    Told (react rc l) := by
  have hm := moveOf_passRequests l h
  have he := eulerOf_passRequests l h
  constructor
  · rw [react_issued]
    split_ifs at hm with hrest
    · rw [lastMove_append _ _ hm, ht.move, hrest.1, hrest.2]
    · exact lastMove_append_of_eq _ _ _ hm
  · rw [react_issued, lastEuler, getLast?_filterMap_append, he, ← lastEuler, ht.euler]
    split_ifs with hrest
    · rw [hrest.2]
      exact hrest.1
    · rfl

lemma pass_sends {D : Device δ} {s t : System δ} {l : Label} (hp : Pass D s l t)
    (hs : s.rc.Settled) (ht : Told s.rc) : Sends s.rc t.rc := by
  have hm := moveOf_passRequests l hs
  have he := eulerOf_passRequests l hs
  have htold := react_told l hs ht
  rw [← hp.rc] at hm he htold
  refine ⟨?_, ?_, htold⟩
  · rw [exists_mem_isSome, hp.issuedIn, hm]
    split_ifs with hrest
    · simp [hrest]
    · simpa using not_and_or.mp hrest
  · rw [exists_mem_isSome, hp.issuedIn, he]
    split_ifs with hrest
    · simp [hrest]
    · simpa using not_and_or.mp hrest

/-! ## Coming to rest -/

/-- The channels of the four sticks are in the dead zone. -/
def InDeadZone (v : Channels) : Prop :=
  ∀ i ∈ ([0, 1, 2, 13] : List (Fin 16)), 992 - deadZone ≤ channel v i ∧
    channel v i ≤ 992 + deadZone

instance inDeadZone_decidable (v : Channels) : Decidable (InDeadZone v) := by
  unfold InDeadZone
  infer_instance

/-- In the dead zone every stick is centred. -/
lemma InDeadZone.sticks {v : Channels} (h : InDeadZone v) (i : Fin 4) : sticks v i = 0 := by
  simp only [InDeadZone, List.forall_mem_cons, deadZone] at h
  obtain ⟨h0, h1, h2, h13, -⟩ := h
  have hry : stickRy v = 0 := normalize_deadZone h0.1 h0.2 _ _ _ _
  have hrx : stickRx v = 0 := normalize_deadZone h1.1 h1.2 _ _ _ _
  have hlx : stickLx v = 0 := normalize_deadZone h2.1 h2.2 _ _ _ _
  have hly : stickLy v = 0 := normalize_deadZone h13.1 h13.2 _ _ _ _
  fin_cases i <;> simp [SbusRemote.sticks, hry, hrx, hlx, hly]

/-- **One stop.**  While every pass works on a vector with the sticks in the dead zone, the only
`Move` is the one of zeros in the first pass, and that only if the robot was moving. -/
theorem moves_at_rest {D : Device δ} {s : System δ} {r : List (Label × System δ)}
    (hr : IsRun (Pass D) s r) (hs : s.rc.Settled)
    (hrest : IsRun (fun s l _ => InDeadZone (l.rx.getD s.rc.cmd.ch)) s r) :
    (final s r).rc.dm.issued.filterMap moveOf = s.rc.dm.issued.filterMap moveOf
      ++ if r = [] ∨ velocity s.rc = 0 then [] else [0] := by
  induction r generalizing s with
  | nil => simp
  | cons e r ih =>
      obtain ⟨l, t⟩ := e
      have hv : velocity t.rc = 0 := by
        rw [Pass.rc hr.1]
        exact velocity_centred hs fun i => hrest.1.sticks i
      have hsettled : t.rc.Settled := by
        rw [Pass.rc hr.1]
        exact react_settled l hs
      have hm := moveOf_passRequests l hs
      rw [← Pass.rc hr.1, hv] at hm
      -- at rest after the first pass, so the rest of the run is silent
      rw [final_cons, ih hr.2 hsettled hrest.2, if_pos (Or.inr hv), List.append_nil, Pass.rc hr.1,
        react_issued, List.filterMap_append, hm]
      simp

/-- **Send suppression loses nothing.**  In every run of the main loop from a fresh handle, over
any device and link: a pass issues a `Move` exactly if the filtered velocities after it or before
it are not zero, an `Euler` exactly if the filtered pitch is or was not zero, and the last of each
issued carries the present values.  Over any passes in a row with the sticks in the dead zone, one
`Move` of zeros closes a motion and none follows. -/
theorem suppression (D : Device δ) (m : Memory) (dev : δ) (r : List (Label × System δ))
    (hr : IsRun (Pass D) (System.init m dev) r) :
    IsRun (fun s _ t => Sends s.rc t.rc) (System.init m dev) r ∧
    ∀ r₁ r₂, r = r₁ ++ r₂ → r₂ ≠ [] →
      IsRun (fun s l _ => InDeadZone (l.rx.getD s.rc.cmd.ch)) (final (System.init m dev) r₁) r₂ →
      (issuedIn (final (System.init m dev) r₁).rc (final (System.init m dev) r).rc).filterMap moveOf
        = if velocity (final (System.init m dev) r₁).rc = 0 then [] else [0] := by
  constructor
  · have hsteps := Pass.attach (I := Told) (fun _ _ _ hp => hp.rc)
      (fun _ l _ _ hs ht => react_told l hs ht) hr (settled_init m) ⟨rfl, rfl⟩
    exact hsteps.mono fun s l t h => pass_sends h.1 h.2.1 h.2.2
  · rintro r₁ r₂ rfl hne hrest
    rw [isRun_append] at hr
    have hall := moves_at_rest hr.2 (Pass.settled hr.1 (settled_init m)) hrest
    have hlog := issued_final hr.2
    rw [hlog, List.filterMap_append, List.append_cancel_left_eq] at hall
    rw [final_append, hall]
    simp [hne]

/-- Forward, then centred for two passes. -/
theorem suppression_forward :
    let s₀ := System.init Memory.centred 0
    let r := scenario [centred, forward, centred, centred] (List.replicate 3 fun _ => true)
    IsRun (fun s _ t => Sends s.rc t.rc) s₀ r ∧
    (issuedIn (final s₀ (r.take 1)).rc (final s₀ r).rc).filterMap moveOf
      = if velocity (final s₀ (r.take 1)).rc = 0 then [] else [0] := by
  intro s₀ r
  obtain ⟨hsends, hclose⟩ := suppression _ _ _ r (executed_isRun (by decide +kernel))
  exact ⟨hsends, hclose (r.take 1) (r.drop 1) (List.take_append_drop 1 r).symm
    (by decide +kernel) (by decide +kernel)⟩

end SbusRemote
