import SbusRemote.Control.MainLoop

/-!
# Motion after a failed reception

`sbus_receive` returns `-1` on an error, an end of file, a short count and a frame without its
markers, and leaves `_CH` alone.  `main` drops the returned value and goes on with
`channel_command` and `RobotControl`, which see the last accepted vector once more.  So the robot
is driven by a stick position nobody vouches for (`stale_motion_drives`).

It is not driven exactly when there is nothing to be driven by (`stale_motion_iff`): each stick
held in `_CH` is centred, or its filter happens to step onto zero.
-/

namespace SbusRemote

open ByteLine Lts

variable {δ : Type}

/-- No motion request between two control states carries a value other than zero. -/
def Motionless (rc rc' : RControl) : Prop :=
  ∀ q ∈ issuedIn rc rc', isMotion q = true → q.parameter = .xyz 0 0 0

instance (rc rc' : RControl) : Decidable (Motionless rc rc') := by
  unfold Motionless
  infer_instance

/-- Every axis comes to rest on the vector in `_CH`: its stick is centred, or the filter sits at
the forty-ninth part of the stick value on the other side. -/
def ComesToRest (rc : RControl) : Prop :=
  ∀ i, sticks rc.cmd.ch i = 0 ∨ 49 * rc.ot i = -sticks rc.cmd.ch i

instance (rc : RControl) : Decidable (ComesToRest rc) := by
  unfold ComesToRest
  infer_instance

/-- The motion requests carry only zeros exactly when all four velocities are zero: a velocity
other than zero is always sent. -/
lemma motion_zero_iff (rc : RControl) (l : Label) :
    (∀ q ∈ passRequests rc l, isMotion q = true → q.parameter = .xyz 0 0 0) ↔
      ∀ i, filtered (responding rc l) i = 0 := by
  constructor
  · intro h
    have hmove : filtered (responding rc l) 0 = 0 ∧ filtered (responding rc l) 1 = 0 ∧
        filtered (responding rc l) 3 = 0 := by
      by_contra hne
      have hq := h _ (move_mem hne) rfl
      simp only [moveRequest, Parameter.xyz.injEq] at hq
      exact hne hq
    have heuler : filtered (responding rc l) 2 = 0 := by
      by_contra hne
      have hq := h _ (euler_mem hne) rfl
      simp only [eulerRequest, Parameter.xyz.injEq] at hq
      exact hne hq.2.1
    intro i
    fin_cases i
    · exact hmove.1
    · exact hmove.2.1
    · exact heuler
    · exact hmove.2.2
  · intro h q hq hmot
    rcases (mem_motion hmot).mp hq with hq | hq
    · rw [mem_moves hq, h, h, h]
      rfl
    · rw [mem_eulers hq, h]
      rfl

/-- One pass that rejects its reception. -/
lemma motionless_iff {D : Device δ} {s t : System δ} {l : Label} (hp : Pass D s l t)
    (hrx : l.rx = none) : Motionless s.rc t.rc ↔ ComesToRest s.rc := by
  rw [Motionless, hp.issuedIn, motion_zero_iff]
  refine forall_congr' fun i => ?_
  rw [filtered_responding, filterStep_eq_zero, hrx, Option.getD_none]

/-- **When stale data does not drive the robot.**  In every run of the main loop from a fresh
handle, over any device: every pass that rejects its reception issues only zero motion if and
only if in each of them the vector still held in `_CH` brings every axis to rest. -/
theorem stale_motion_iff (D : Device δ) (m : Memory) (dev : δ) (r : List (Label × System δ))
    (hr : IsRun (Pass D) (System.init m dev) r) :
    IsRun (fun s l t => l.rx = none → Motionless s.rc t.rc) (System.init m dev) r ↔
      IsRun (fun s l _ => l.rx = none → ComesToRest s.rc) (System.init m dev) r :=
  hr.congr fun _ _ _ hp => imp_congr_right fun hrx => motionless_iff hp hrx

/-- A transmitter that sends `vs`, where `none` is a frame without markers, then centred frames. -/
def noisyScript (vs : List (Option Channels)) : ℕ → UInt8 := frameStream fun j =>
  match vs.getD j (some centred) with
  | some v => frameOf v
  | none => fun _ => 0x01

/-- A broken frame between two centred ones: nothing moves. -/
theorem stale_motion_iff_centred :
    let s₀ := System.init Memory.centred 0
    let r := executed (exactLine (noisyScript [some centred, some centred, none]))
      (List.replicate 3 fun _ => true) s₀
    r.map (fun e => e.1.rx.isSome) = [true, false, true] ∧
    IsRun (fun s l t => l.rx = none → Motionless s.rc t.rc) s₀ r :=
  ⟨by decide +kernel, (stale_motion_iff _ _ _ _ (executed_isRun (by decide +kernel))).mpr
    (by decide +kernel)⟩

/-- The stick forward, then a broken frame: the pass that rejects it sends a `Move` forward. -/
theorem stale_motion_drives : ¬∀ (δ : Type) (D : Device δ) (m : Memory) (dev : δ)
    (r : List (Label × System δ)), IsRun (Pass D) (System.init m dev) r →
    IsRun (fun s l t => l.rx = none → Motionless s.rc t.rc) (System.init m dev) r := by
  intro h
  have hbad := h ℕ _ Memory.centred 0
    (executed (exactLine (noisyScript [some centred, some forward, none]))
      (List.replicate 2 fun _ => true) (System.init Memory.centred 0))
    (executed_isRun (by decide +kernel))
  exact absurd hbad (by decide +kernel)

end SbusRemote
