import Mathlib.Data.List.Basic
import Mathlib.Data.Rat.Defs

/-!
# Requests and `WriteMessage`

What `rc.cpp` tells the robot, and the path a request takes through `DdsEasyModel`.

A `Request` is a topic, an `api_id` and the JSON parameter; the `id` in its header is a time
stamp and is left out.  Whether a reader is matched when a request is written, and whether the
native write succeeds, is not the program's to decide: `link` answers it for each request of one
pass of the main loop.  `issued` and `delivered` record the calls of `WriteMessage` and those
that reached the robot.
-/

namespace SbusRemote

/-- The request topics, `dds_sportTopic[0]` and `dds_obstTopic[0]`. -/
inductive Topic where
  | sport
  | obst
  deriving DecidableEq, Repr

def Topic.name : Topic → String
  | .sport => "rt/api/sport/request"
  | .obst => "rt/api/obstacles_avoid/request"

/-- `reqMsg.parameter()`: left empty, one named integer, or the object with `x`, `y` and `z`. -/
inductive Parameter where
  | empty
  | field (name : String) (value : ℤ)
  | xyz (x y z : ℚ)
  deriving DecidableEq, Repr

/-- `unitree_api::msg::dds_::Request_`, with the topic it is written to. -/
structure Request where
  topic : Topic
  apiId : ℕ
  parameter : Parameter
  deriving DecidableEq, Repr

/-- `DdsEasyModel`, with the record of what passed through it. -/
structure DdsEasyModel where
  /-- `mQuit`. -/
  quit : Bool
  /-- The topic has an adapter in `mTopicAdapterMap`, and the adapter a writer. -/
  writer : Topic → Bool
  issued : List Request
  delivered : List Request

/-- `DdsEasyModel::WriteMessage` with `matchReader` at its default, down to `DdsWriter::Write`. -/
def writeMessage (link : Request → Bool) (dm : DdsEasyModel) (r : Request) :
    Bool × DdsEasyModel :=
  let dm := { dm with issued := dm.issued ++ [r] }
  if dm.quit then (false, dm)
  else if !dm.writer r.topic then (false, dm)
  else if link r then (true, { dm with delivered := dm.delivered ++ [r] })
  else (false, dm)

/-- `dds_vuiApiReq`: the result of `WriteMessage` is discarded. -/
def ddsVuiApiReq (link : Request → Bool) (dm : DdsEasyModel) (topic : Topic) (apiId : ℕ)
    (json : Option (String × ℤ)) : DdsEasyModel :=
  let parameter := match json with
    | some (name, value) => Parameter.field name value
    | none => Parameter.empty
  (writeMessage link dm ⟨topic, apiId, parameter⟩).2

/-- `dds_vuiApiReq_xyz`: likewise. -/
def ddsVuiApiReqXyz (link : Request → Bool) (dm : DdsEasyModel) (topic : Topic) (apiId : ℕ)
    (vx vy vz : ℚ) : DdsEasyModel :=
  (writeMessage link dm ⟨topic, apiId, .xyz vx vy vz⟩).2

/-- `main` has set both request topics and nothing has quit. -/
structure DdsEasyModel.Ready (dm : DdsEasyModel) : Prop where
  quit : dm.quit = false
  writer : ∀ t, dm.writer t = true

/-- Writing a list of requests, one after the other. -/
def writeAll (link : Request → Bool) (dm : DdsEasyModel) (rs : List Request) : DdsEasyModel :=
  rs.foldl (fun dm r => (writeMessage link dm r).2) dm

lemma writeMessage_issued (link : Request → Bool) (dm : DdsEasyModel) (r : Request) :
    (writeMessage link dm r).2.issued = dm.issued ++ [r] := by
  simp only [writeMessage]
  split_ifs <;> rfl

lemma writeMessage_ready (link : Request → Bool) {dm : DdsEasyModel} (h : dm.Ready)
    (r : Request) : (writeMessage link dm r).2.Ready := by
  simp only [writeMessage]
  split_ifs <;> exact ⟨h.quit, h.writer⟩

lemma writeMessage_delivered (link : Request → Bool) {dm : DdsEasyModel} (h : dm.Ready)
    (r : Request) : (writeMessage link dm r).2.delivered = dm.delivered ++ [r].filter link := by
  simp only [writeMessage, h.quit, h.writer]
  cases hr : link r <;> simp [hr]

@[simp] lemma writeAll_issued (link : Request → Bool) (dm : DdsEasyModel) (rs : List Request) :
    (writeAll link dm rs).issued = dm.issued ++ rs := by
  induction rs generalizing dm with
  | nil => simp [writeAll]
  | cons r rs ih =>
      have h := ih (writeMessage link dm r).2
      rw [writeMessage_issued, List.append_assoc] at h
      exact h

lemma writeAll_ready (link : Request → Bool) {dm : DdsEasyModel} (h : dm.Ready)
    (rs : List Request) : (writeAll link dm rs).Ready := by
  induction rs generalizing dm with
  | nil => exact h
  | cons r rs ih => exact ih (writeMessage_ready link h r)

/-- A ready model delivers exactly the requests the link lets through, in order. -/
lemma writeAll_delivered (link : Request → Bool) {dm : DdsEasyModel} (h : dm.Ready)
    (rs : List Request) : (writeAll link dm rs).delivered = dm.delivered ++ rs.filter link := by
  induction rs generalizing dm with
  | nil => simp [writeAll]
  | cons r rs ih =>
      have hr := ih (writeMessage_ready link h r)
      rw [writeMessage_delivered link h, List.append_assoc, ← List.filter_append] at hr
      exact hr

end SbusRemote
