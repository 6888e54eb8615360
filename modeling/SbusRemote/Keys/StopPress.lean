import SbusRemote.Control.MainLoop

/-!
# The stop press

`STOPMOVE` is the last branch of the chain in `channel_command`, and the key it rests on is an
edge that is there for one call only.  With neither shoulder key held most of the branches before
it are out of reach, whatever the buttons do.  The two for obstacle avoidance are not: standing,
a press of `C` or `D` in the same frame comes first, and the stop is not made up for later
(`stop_masked`).

`stop_press_iff` — a stop press is answered by `STOPMOVE` exactly if no such press comes with it.
-/

namespace SbusRemote

open ByteLine Lts

variable {δ : Type}

/-- `StopMove`. -/
def stopMoveRequest : Request := ⟨.sport, 1003, .empty⟩

/-- Channel 12 leaves its centre downwards with the vector `v`, and the left shoulder switch is in
the middle. -/
def StopPress (rc : RControl) (v : Channels) : Prop :=
  lowered (rc.cmd.chBuff 12) (v 12) = true ∧ 500 ≤ (v 4).toNat ∧ (v 4).toNat ≤ 1500

instance stopPress_decidable (rc : RControl) (v : Channels) : Decidable (StopPress rc v) :=
  inferInstanceAs (Decidable (_ ∧ _))

/-- The robot stands and `C` or `D` is newly pressed with the vector `v`. -/
def AvoidPress (rc : RControl) (v : Channels) : Prop :=
  rc.cmd.standL = true ∧ (buttonEdge (rc.cmd.chBuff 9) (v 9) = true ∨
    buttonEdge (rc.cmd.chBuff 10) (v 10) = true)

instance avoidPress_decidable (rc : RControl) (v : Channels) : Decidable (AvoidPress rc v) :=
  inferInstanceAs (Decidable (_ ∧ _))

/-- With neither shoulder key held a lowered start switch commands the stop, unless one of the two
branches for obstacle avoidance is taken. -/
lemma selectCommand_stop {key : Key} (h1 : key.l1 = false) (h2 : key.l2 = false)
    (hs : key.start = false) (hr : key.startRst = true) (standL : Bool) :
    (selectCommand key standL .none).1 = .stopMove ↔
      ¬(standL = true ∧ (key.c = true ∨ key.d = true)) := by
  simp only [selectCommand, h1, h2, hs, hr]
  cases standL with
  | false => simp
  | true => cases key.c <;> cases key.d <;> simp

/-- Of all commands only `STOPMOVE` issues the request. -/
lemma stopMove_mem {rc : RControl} (l : Label) (h : rc.Settled) :
    stopMoveRequest ∈ passRequests rc l ↔ passCommand rc l = .stopMove := by
  rw [mem_passRequests l h rfl]
  cases passCommand rc l <;>
    simp [commandRequest, stopMoveRequest, standUpRequest, lieDownRequest]

/-- One pass on a stop press. -/
lemma react_stop {rc : RControl} {l : Label} {v : Channels} (h : rc.Settled) (hl : l.rx = some v)
    (hv : StopPress rc v) : stopMoveRequest ∈ passRequests rc l ↔ ¬AvoidPress rc v := by
  obtain ⟨hlow, h500, h1500⟩ := hv
  have hup : raised (rc.cmd.chBuff 12) (v 12) = false := by
    simp only [lowered, Bool.and_eq_true, decide_eq_true_eq] at hlow
    simp only [raised, Bool.and_eq_false_iff, decide_eq_false_iff_not]
    omega
  have hkeys : passKeys rc l = readKeys rc.cmd.chBuff v rc.cmd.handleCmd.key := by
    simp [passKeys, hl]
  rw [stopMove_mem l h, passCommand, hkeys, selectCommand_stop]
  · rfl
  · simp [readKeys, shoulderHigh, not_lt.mpr h500, not_lt.mpr h1500]
  · simp [readKeys, shoulderLow, not_lt.mpr h500, not_lt.mpr h1500]
  · exact hup
  · exact hlow

/-- **The stop press.**  In every run of the main loop from a fresh handle: a pass that accepts a
frame in which channel 12 goes from 992 to below, with the left shoulder switch in the middle,
issues `STOPMOVE` if and only if the robot does not stand with `C` or `D` newly pressed in that
frame. -/
theorem stop_press_iff (D : Device δ) (m : Memory) (dev : δ) (r : List (Label × System δ))
    (hr : IsRun (Pass D) (System.init m dev) r) :
    IsRun (fun s l t => ∀ v ∈ l.rx, StopPress s.rc v →
      (stopMoveRequest ∈ issuedIn s.rc t.rc ↔ ¬AvoidPress s.rc v)) (System.init m dev) r := by
  refine (Pass.attach_settled hr (settled_init m)).mono ?_
  rintro s l t ⟨hp, hs⟩ v hl hv
  rw [hp.issuedIn]
  exact react_stop hs hl hv

/-- The start switch down, and `D` pressed if `d` is set. -/
def stopVector (d : Bool) : Channels :=
  fun i => if i = 12 then 272 else if i = 10 ∧ d = true then 1712 else 992

/-- Standing up, then a stop press alone. -/
theorem stop_press_answered :
    let s₀ := System.init Memory.centred 0
    let r := scenario [centred, pressed true 7, centred, stopVector false]
      (List.replicate 3 fun _ => true)
    r.length = 3 ∧ IsRun (fun s l t => ∀ v ∈ l.rx, StopPress s.rc v →
      (stopMoveRequest ∈ issuedIn s.rc t.rc ↔ ¬AvoidPress s.rc v)) s₀ r :=
  ⟨by decide +kernel, stop_press_iff _ _ _ _ (executed_isRun (by decide +kernel))⟩

/-- Standing up, then a stop press with `D` pressed in the same frame: obstacle avoidance is
switched on and the robot does not stop. -/
theorem stop_masked : ¬∀ (δ : Type) (D : Device δ) (m : Memory) (dev : δ)
    (r : List (Label × System δ)), IsRun (Pass D) (System.init m dev) r →
    IsRun (fun s l t => ∀ v ∈ l.rx, StopPress s.rc v → stopMoveRequest ∈ issuedIn s.rc t.rc)
      (System.init m dev) r := by
  intro h
  have hrun := h ℕ _ Memory.centred 0
    (scenario [centred, pressed true 7, centred, stopVector true] (List.replicate 3 fun _ => true))
    (executed_isRun (by decide +kernel))
  have hbad : IsRun (fun s l t => (l.rx.all fun v =>
      StopPress s.rc v → stopMoveRequest ∈ issuedIn s.rc t.rc) = true)
      (System.init Memory.centred 0)
      (scenario [centred, pressed true 7, centred, stopVector true]
        (List.replicate 3 fun _ => true)) :=
    hrun.mono fun s l t hl => by
      rw [Option.all_eq_true]
      exact fun v hv => decide_eq_true (hl v hv)
  exact absurd hbad (by decide +kernel)

end SbusRemote
