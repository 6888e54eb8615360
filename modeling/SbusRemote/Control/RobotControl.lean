import Mathlib.Data.Fin.VecNotation
import Mathlib.Tactic.FinCases
import Mathlib.Tactic.Tauto
import SbusRemote.Control.Dds
import SbusRemote.Control.Filter
import SbusRemote.Handle.Command

/-!
# `RControl::RobotControl`: from commands and sticks to requests

`robotControl` follows the source statement by statement.  Later modules use its three
consequences instead:

* `robotControl_dm` — what is written is the list `requests rc`: the user command's request, a
  `Move` unless the velocities are zero and were zero, an `Euler` likewise.
* `robotControl_ot` — every axis of the filter takes one step toward its stick.
* `Settled` — between passes the static previous values *are* the filter state and no command is
  pending; `robotControl_settled` re-establishes it.
-/

namespace SbusRemote

/-- What the program keeps from one pass of the main loop to the next, behind the reception: the
command members of `rc.sbusHandle`, the statics of `nonlinearFunction` and of `RobotControl`, and
`dm`. -/
structure RControl where
  cmd : CommandState
  ot : Fin 4 → ℚ
  prlx : ℚ
  prly : ℚ
  prrx : ℚ
  prry : ℚ
  dm : DdsEasyModel

/-! ## The requests -/

/-- `StandUp`. -/
def standUpRequest : Request := ⟨.sport, 1004, .empty⟩

/-- `StandDown`. -/
def lieDownRequest : Request := ⟨.sport, 1005, .empty⟩

/-- `Move`. -/
def moveRequest (x y z : ℚ) : Request := ⟨.sport, 1008, .xyz x y z⟩

/-- `Euler`. -/
def eulerRequest (y : ℚ) : Request := ⟨.sport, 1007, .xyz 0 y 0⟩

/-- The `switch` of `RobotControl`. -/
def switchRequest (link : Request → Bool) (dm : DdsEasyModel) : UserCommand → DdsEasyModel
  | .l2A1 => ddsVuiApiReq link dm .sport 1005 none
  | .l2A2 => ddsVuiApiReq link dm .sport 1004 none
  | .mode2 => ddsVuiApiReq link dm .sport 1002 none
  | .l2B => ddsVuiApiReq link dm .sport 1001 none
  | .avoidOn => ddsVuiApiReq link dm .obst 1001 (some ("enable", 1))
  | .avoidOff => ddsVuiApiReq link dm .obst 1001 (some ("enable", 0))
  | .l2C => ddsVuiApiReq link dm .sport 1006 none
  | .stopMove => ddsVuiApiReq link dm .sport 1003 none
  | _ => dm

/-- `RControl::RobotControl`. -/
def robotControl (link : Request → Bool) (rc : RControl) : RControl :=
  let dm := switchRequest link rc.dm rc.cmd.userCmd
  let h := rc.cmd.handleCmd
  let lx := nonlinearFunction rc.ot h.lx 0
  let ly := nonlinearFunction lx.2 h.ly 1
  let rx := nonlinearFunction ly.2 h.rx 2
  let ry := nonlinearFunction rx.2 h.ry 3
  let dm :=
    if lx.1 ≠ rc.prlx ∨ ly.1 ≠ rc.prly ∨ ry.1 ≠ rc.prry ∨ lx.1 ≠ 0 ∨ ly.1 ≠ 0 ∨ ry.1 ≠ 0 then
      ddsVuiApiReqXyz link dm .sport 1008 lx.1 ly.1 ry.1
    else dm
  let dm :=
    if rx.1 ≠ rc.prrx ∨ rx.1 ≠ 0 then ddsVuiApiReqXyz link dm .sport 1007 0 rx.1 0
    else dm
  { cmd := { rc.cmd with userCmd := .none }
    ot := ry.2
    prlx := lx.1
    prly := ly.1
    prrx := rx.1
    prry := ry.1
    dm := dm }

/-! ## What is written -/

/-- The request of a user command. -/
def commandRequest : UserCommand → Option Request
  | .l2A1 => some lieDownRequest
  | .l2A2 => some standUpRequest
  | .mode2 => some ⟨.sport, 1002, .empty⟩
  | .l2B => some ⟨.sport, 1001, .empty⟩
  | .avoidOn => some ⟨.obst, 1001, .field "enable" 1⟩
  | .avoidOff => some ⟨.obst, 1001, .field "enable" 0⟩
  | .l2C => some ⟨.sport, 1006, .empty⟩
  | .stopMove => some ⟨.sport, 1003, .empty⟩
  | _ => none

/-- The input of each axis of the filter. -/
def stick (h : Handle) : Fin 4 → ℚ := ![h.lx, h.ly, h.rx, h.ry]

/-- The filter after one pass. -/
def filtered (rc : RControl) (i : Fin 4) : ℚ := filterStep (rc.ot i) (stick rc.cmd.handleCmd i)

/-- The `Move` requests of one pass: none while the robot is, and stays, at rest. -/
def moves (rc : RControl) : List Request :=
  if (filtered rc 0 = rc.prlx ∧ filtered rc 1 = rc.prly ∧ filtered rc 3 = rc.prry) ∧
      filtered rc 0 = 0 ∧ filtered rc 1 = 0 ∧ filtered rc 3 = 0 then []
  else [moveRequest (filtered rc 0) (filtered rc 1) (filtered rc 3)]

/-- The `Euler` requests of one pass. -/
def eulers (rc : RControl) : List Request :=
  if filtered rc 2 = rc.prrx ∧ filtered rc 2 = 0 then [] else [eulerRequest (filtered rc 2)]

/-- The requests of one pass, in order. -/
def requests (rc : RControl) : List Request :=
  (commandRequest rc.cmd.userCmd).toList ++ moves rc ++ eulers rc

lemma switchRequest_eq (link : Request → Bool) (dm : DdsEasyModel) (c : UserCommand) :
    switchRequest link dm c = writeAll link dm (commandRequest c).toList := by
  cases c <;> rfl

lemma writeAll_append (link : Request → Bool) (dm : DdsEasyModel) (rs rs' : List Request) :
    writeAll link dm (rs ++ rs') = writeAll link (writeAll link dm rs) rs' := by
  simp [writeAll]

/-- **The filter takes one step on every axis.**  The four calls write four different entries of
the static array. -/
theorem robotControl_ot (link : Request → Bool) (rc : RControl) :
    (robotControl link rc).ot = filtered rc := by
  funext i
  simp only [robotControl, nonlinearFunction_snd]
  fin_cases i <;> simp [filtered, stick, Function.update]

/-- The values compared against on the next pass are the outputs of this one. -/
lemma robotControl_pr (link : Request → Bool) (rc : RControl) :
    (robotControl link rc).prlx = filtered rc 0 ∧ (robotControl link rc).prly = filtered rc 1 ∧
    (robotControl link rc).prrx = filtered rc 2 ∧ (robotControl link rc).prry = filtered rc 3 := by
  simp [robotControl, filtered, stick, Function.update]

/-- **What `RobotControl` writes.** -/
theorem robotControl_dm (link : Request → Bool) (rc : RControl) :
    (robotControl link rc).dm = writeAll link rc.dm (requests rc) := by
  obtain ⟨hlx, hly, hrx, hry⟩ := robotControl_pr link rc
  simp only [robotControl] at hlx hly hrx hry
  simp only [robotControl, hlx, hly, hrx, hry, switchRequest_eq, requests, writeAll_append]
  have hm : ∀ dm : DdsEasyModel,
      (if filtered rc 0 ≠ rc.prlx ∨ filtered rc 1 ≠ rc.prly ∨ filtered rc 3 ≠ rc.prry ∨
          filtered rc 0 ≠ 0 ∨ filtered rc 1 ≠ 0 ∨ filtered rc 3 ≠ 0
        then ddsVuiApiReqXyz link dm .sport 1008 (filtered rc 0) (filtered rc 1) (filtered rc 3)
        else dm) = writeAll link dm (moves rc) := by
    intro dm
    rw [moves]
    split_ifs with h h'
    · tauto
    · rfl
    · rfl
    · tauto
  have he : ∀ dm : DdsEasyModel,
      (if filtered rc 2 ≠ rc.prrx ∨ filtered rc 2 ≠ 0
        then ddsVuiApiReqXyz link dm .sport 1007 0 (filtered rc 2) 0
        else dm) = writeAll link dm (eulers rc) := by
    intro dm
    rw [eulers]
    split_ifs with h h'
    · tauto
    · rfl
    · rfl
    · tauto
  rw [hm, he]

/-! ## Between passes -/

/-- What holds whenever the main loop is at its top. -/
structure RControl.Settled (rc : RControl) : Prop where
  userCmd : rc.cmd.userCmd = .none
  prlx : rc.prlx = rc.ot 0
  prly : rc.prly = rc.ot 1
  prrx : rc.prrx = rc.ot 2
  prry : rc.prry = rc.ot 3
  ready : rc.dm.Ready

theorem robotControl_settled (link : Request → Bool) {rc : RControl} (h : rc.dm.Ready) :
    (robotControl link rc).Settled := by
  obtain ⟨hlx, hly, hrx, hry⟩ := robotControl_pr link rc
  have hot := robotControl_ot link rc
  exact ⟨rfl, by rw [hlx, hot], by rw [hly, hot], by rw [hrx, hot], by rw [hry, hot],
    by rw [robotControl_dm]; exact writeAll_ready link h _⟩

end SbusRemote
