import SbusRemote.Control.MainLoop

/-!
# Damping protection

The damping branch of `channel_command` is guarded by `!stand_l`, "damping, with stand
protection" in the source's comment.  The posture the robot was last told to take is one of
three: lie down (`L2_A1`), stand up (`L2_A2`) and recover standing (`L2_C`).  The first two set
the flag; the branch of `L2_C` does not, although it too puts the robot on its feet.

* `damping_unprotected` — lying, `L2_C`, then damping: the guard lets it through.
* `damping_protected` — the guard does protect every run in which `L2_C` is never pressed while
  the flag is clear.
* `recoverLying_opens` — and each such press leaves the guard open, with the robot last told to
  stand.
-/

namespace SbusRemote

open ByteLine Lts

variable {δ : Type}

/-- A posture command: stand up, lie down or recover standing. -/
def isPosture (q : Request) : Bool :=
  q.topic = .sport && (q.apiId = 1004 || q.apiId = 1005 || q.apiId = 1006)

/-- The posture commands of a log, as their `api_id`s. -/
def postures (log : List Request) : List ℕ := (log.filter isPosture).map Request.apiId

/-- Damping, the request of `L2_B`. -/
def dampRequest : Request := ⟨.sport, 1001, .empty⟩

/-- Every damping request between two states comes when the last posture command, if any, was a
lie down. -/
def DampedLying (s t : System δ) : Prop :=
  dampRequest ∈ issuedIn s.rc t.rc → ∀ a, (postures s.rc.dm.issued).getLast? = some a → a = 1005

instance (s t : System δ) : Decidable (DampedLying s t) :=
  decidable_of_iff (dampRequest ∈ issuedIn s.rc t.rc →
    ∀ a ∈ (postures s.rc.dm.issued).getLast?, a = 1005) Iff.rfl

/-- `L2_C` pressed while the flag is clear: `L2` held, `C` pressed, and neither `A` nor `B`. -/
def RecoverLying (rc : RControl) (l : Label) : Prop :=
  recoverPress (passKeys rc l) rc.cmd.standL = true ∧ rc.cmd.standL = false

instance (rc : RControl) (l : Label) : Decidable (RecoverLying rc l) := by
  unfold RecoverLying
  infer_instance

lemma postures_append (log log' : List Request) :
    postures (log ++ log') = postures log ++ postures log' := by
  simp [postures]

lemma postures_passRequests {rc : RControl} (l : Label) (h : rc.Settled) :
    postures (passRequests rc l) = postures (commandRequest (passCommand rc l)).toList := by
  rw [postures, filter_passRequests l h (fun _ _ _ => rfl) (fun _ => rfl), postures]

lemma mem_dampRequest {rc : RControl} (l : Label) (h : rc.Settled) :
    dampRequest ∈ passRequests rc l ↔ passCommand rc l = .l2B := by
  rw [mem_passRequests l h rfl]
  cases passCommand rc l <;>
    simp [commandRequest, dampRequest, lieDownRequest, standUpRequest]

/-- While the flag is clear, the last posture command, if any, was a lie down. -/
def LyingWhenClear (rc : RControl) : Prop :=
  rc.cmd.standL = false → ∀ a, (postures rc.dm.issued).getLast? = some a → a = 1005

/-- One pass keeps it, unless it is the press that leaves the flag clear. -/
theorem lyingWhenClear_react {rc : RControl} (l : Label) (h : rc.Settled)
    (hl : ¬RecoverLying rc l) (hi : LyingWhenClear rc) : LyingWhenClear (react rc l) := by
  have heff := pass_effect l h
  have hrec := selectCommand_eq_l2C (passKeys rc l) rc.cmd.standL
  rw [← passCommand] at hrec
  rw [RecoverLying, ← hrec] at hl
  rw [LyingWhenClear, react_issued, postures_append, postures_passRequests l h]
  unfold LyingWhenClear at hi
  generalize passCommand rc l = c at heff hl ⊢
  generalize rc.cmd.standL = b at heff hi hl
  generalize (react rc l).cmd.standL = b' at heff ⊢
  cases heff with
  | standUp => intro hclear; exact absurd hclear (by decide)
  | lieDown =>
      intro _ a ha
      simpa [postures, commandRequest, lieDownRequest, isPosture, eq_comm] using ha
  | recover => intro hclear; exact absurd ⟨rfl, hclear⟩ hl
  | _ =>
      intro hclear a ha
      refine hi hclear a ?_
      simpa [postures, commandRequest, isPosture] using ha

/-- Damping is commanded only while the flag is clear. -/
lemma dampRequest_clear {rc : RControl} (l : Label) (h : rc.Settled)
    (hd : dampRequest ∈ passRequests rc l) : rc.cmd.standL = false := by
  have heff := pass_effect l h
  rw [(mem_dampRequest l h).mp hd] at heff
  generalize rc.cmd.standL = b at heff
  generalize (react rc l).cmd.standL = b' at heff
  cases heff
  rfl

/-- **Where the protection holds.**  In every run of the main loop from a fresh handle in which
`L2_C` is never pressed while `stand_l` is clear, damping is never issued while the last posture
command put the robot in a standing posture. -/
theorem damping_protected (D : Device δ) (m : Memory) (dev : δ) (r : List (Label × System δ))
    (hr : IsRun (Pass D) (System.init m dev) r)
    (hc : IsRun (fun s l _ => ¬RecoverLying s.rc l) (System.init m dev) r) :
    IsRun (fun s _ t => DampedLying s t) (System.init m dev) r := by
  have hstart : LyingWhenClear (RControl.init m) := by
    simp [LyingWhenClear, RControl.init, postures]
  have hsteps := Pass.attach (fun _ _ _ hp => hp.1.rc)
    (fun _ l _ hp hs hi => lyingWhenClear_react l hs hp.2 hi) (hr.and hc) (settled_init m) hstart
  refine hsteps.mono fun s l t h hd => ?_
  rw [h.1.1.issuedIn] at hd
  exact h.2.2 (dampRequest_clear l h.2.1 hd)

/-- Stand up, recover, lie down, damp: the press of `L2_C` comes while the flag is set. -/
theorem damping_protected_presses :
    let r := scenario
      [centred, pressed true 7, pressed true 9, pressed true 7, pressed true 8]
      (List.replicate 4 fun _ => true)
    ((final (System.init Memory.centred 0) r).rc.dm.issued.map Request.apiId
      = [1004, 1006, 1005, 1001]) ∧
    IsRun (fun s _ t => DampedLying s t) (System.init Memory.centred 0) r :=
  ⟨by decide +kernel, damping_protected _ _ _ _ (executed_isRun (by decide +kernel))
    (by decide +kernel)⟩

/-- Recover, then damp, the flag clear throughout. -/
theorem damping_unprotected : ¬∀ (δ : Type) (D : Device δ) (m : Memory) (dev : δ)
    (r : List (Label × System δ)), IsRun (Pass D) (System.init m dev) r →
    IsRun (fun s _ t => DampedLying s t) (System.init m dev) r := by
  intro h
  have hbad := h ℕ _ Memory.centred 0
    (scenario [centred, pressed true 9, pressed true 8] [fun _ => true, fun _ => true])
    (executed_isRun (by decide +kernel))
  exact absurd hbad (by decide +kernel)

/-- **Each such press opens the guard.**  After it the flag is still clear, the robot was last
told to stand, and the next damping press goes through. -/
theorem recoverLying_opens {rc : RControl} (l : Label) (h : rc.Settled)
    (hl : RecoverLying rc l) : (react rc l).cmd.standL = false ∧
      (postures (react rc l).dm.issued).getLast? = some 1006 := by
  have heff := pass_effect l h
  have hcmd : passCommand rc l = .l2C := (selectCommand_eq_l2C _ _).mpr hl.1
  rw [react_issued, postures_append, postures_passRequests l h, hcmd]
  refine ⟨?_, by simp [postures, commandRequest, isPosture]⟩
  rw [hcmd, hl.2] at heff
  generalize (react rc l).cmd.standL = b' at heff ⊢
  cases heff
  rfl

end SbusRemote
