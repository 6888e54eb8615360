import SbusRemote.Control.MainLoop

/-!
# Runs of `channel_command`

The keys are a matter of `channel_command` alone: what it does with one vector after the other,
whichever way they were received.  `Call c` is one call, with `c` in `_userCmd` when it starts.
`RobotControl` clears the command between two calls, so in the main loop `c` is `NONE`.

The keys of a call come from two vectors, its own and the one before, and from the shoulder keys
before (`Call.key`, `Call.chBuff`).
-/

namespace SbusRemote

open Lts

/-- One call of `channel_command` on the vector `v`, with `c` in `_userCmd`. -/
def Call (c : UserCommand) (s : CommandState) (v : Channels) (t : CommandState) : Prop :=
  t = channelCommand { s with ch := v, userCmd := c }

lemma Call.key {c : UserCommand} {s t : CommandState} {v : Channels} (h : Call c s v t) :
    t.handleCmd.key = readKeys s.chBuff v s.handleCmd.key := by
  rw [h]
  rfl

lemma Call.chBuff {c : UserCommand} {s t : CommandState} {v : Channels} (h : Call c s v t) :
    t.chBuff = v := by
  rw [h]
  rfl

lemma Call.userCmd {c : UserCommand} {s t : CommandState} {v : Channels} (h : Call c s v t) :
    t.userCmd = (selectCommand t.handleCmd.key s.standL c).1 := by
  rw [h.key, h]
  rfl

/-- The run of `channel_command` over a list of vectors, as the main loop calls it. -/
def calls : List Channels → CommandState → List (Channels × CommandState)
  | [], _ => []
  | v :: vs, s =>
      let t := channelCommand { s with ch := v, userCmd := .none }
      (v, t) :: calls vs t

lemma calls_isRun : ∀ (vs : List Channels) (s : CommandState), IsRun (Call .none) s (calls vs s)
  | [], _ => trivial
  | _ :: vs, _ => ⟨rfl, calls_isRun vs _⟩

@[simp] lemma map_fst_calls : ∀ (vs : List Channels) (s : CommandState),
    (calls vs s).map Prod.fst = vs
  | [], _ => rfl
  | v :: vs, _ => by rw [calls, List.map_cons, map_fst_calls vs]

end SbusRemote
