import SbusRemote.Control.MainLoop
import SbusRemote.Dds.SetOnce

/-!
# The program and its `DdsEasyModel`

The main loop is written against a small `DdsEasyModel`: the topics that have a writer, and a link
that lets a request through or not.  Here is what stands behind it: the four topics `main` sets, and
`WriteMessage` on the registry.

* `mainTopics` — the calls of `main` before its loop.
* `stands_after_main` — if all four return, the registry stands behind a model that is ready.
* `main_loop_stands` — on every run of the main loop, each write returns whether the native library
  took the request, or throws because the library does at the question whether a reader is matched;
  and the library has taken exactly the requests the small model has delivered, in their order.
-/

namespace SbusRemote.Dds

open Mealy Lts ByteLine

variable {Q : Type}

/-- The message types of the program, `Request_` and `Response_`. -/
inductive Msg where
  | request
  | response
  deriving DecidableEq, Repr

/-- `dds_sportRespHandler` and `dds_obstRespHandler`. -/
inductive Handler where
  | sportResp
  | obstResp
  deriving DecidableEq, Repr

/-- `dds_sportTopic[1]` and `dds_obstTopic[1]`. -/
def responseTopic : Topic → String
  | .sport => "rt/api/sport/response"
  | .obst => "rt/api/obstacles_avoid/response"

/-- The topics `main` sets. -/
def mainTopics (a₁ a₂ a₃ a₄ : SetAnswers) : List (Call Msg Handler Request) :=
  [.setTopic .request Topic.sport.name .writer a₁,
    .setTopic .response (responseTopic .sport) (.reader .sportResp) a₂,
    .setTopic .request Topic.obst.name .writer a₃,
    .setTopic .response (responseTopic .obst) (.reader .obstResp) a₄]

/-- `dm.WriteMessage<Request_>(topic, reqMsg)`. -/
def requestCall (q : Request × WriteAnswers) : Call Msg Handler Request :=
  .writeMessage .request q.1.topic.name q.1 true q.2

/-- The link of the small model: a reader is matched, and the native write succeeds. -/
def WriteAnswers.carries (a : WriteAnswers) : Bool :=
  match a.count with
  | none => false
  | some count => decide (0 < count) && a.accepted

/-- What a write gets whose topic has its writer: an exception if the library throws at the question
for the matched readers, which no `try` surrounds. -/
def WriteAnswers.reply (a : WriteAnswers) : Result (Option Bool) :=
  if a.count.isNone then .thrown .native else .returned (some a.carries)

/-- The message type of each topic. -/
def topicMsg (topic : String) : Msg :=
  if topic = Topic.sport.name ∨ topic = Topic.obst.name then .request else .response

lemma topicMsg_name (t : Topic) : topicMsg t.name = .request := by
  cases t <;> decide

lemma mainTopics_typed (a₁ a₂ a₃ a₄ : SetAnswers) :
    ∀ c ∈ mainTopics a₁ a₂ a₃ a₄, c.Typed topicMsg := by
  simp only [mainTopics, List.forall_mem_cons, Call.Typed]
  exact ⟨by decide, by decide, by decide, by decide, List.forall_mem_nil _⟩

/-! ## The registry behind the small model -/

/-- `m` stands behind `dm`. -/
structure Stands (dm : DdsEasyModel) (m : EasyModel Q Msg Handler Request) : Prop where
  quit : m.quit = dm.quit
  writer : ∀ t : Topic, (m.endpoint .writer t.name).isSome = dm.writer t
  msg : ∀ (t : Topic) adapter, m.topicAdapterMap t.name = some adapter → adapter.msg = .request
  taken : m.written = dm.delivered.map fun q => (q.topic.name, q)

/-- A write on the small model comes to the native library. -/
def reaches (dm : DdsEasyModel) (q : Request) : Bool := !dm.quit && dm.writer q.topic

/-- One write on the small model. -/
def smallStep (dm : DdsEasyModel) (q : Request × WriteAnswers) :
    Result (Option Bool) × DdsEasyModel :=
  (if reaches dm q.1 then q.2.reply else .returned (some false),
    (SbusRemote.writeMessage (fun _ => q.2.carries) dm q.1).2)

/-- What a matched reader and the native library make of a write. -/
lemma write_carries (topic : String) (q : Request) (a : WriteAnswers)
    (m : EasyModel Q Msg Handler Request) : ((write topic q true a m).1.map some,
      (write topic q true a m).2) = (a.reply,
        if a.carries then { m with written := m.written ++ [(topic, q)] } else m) := by
  cases hcount : a.count with
  | none => simp [write, WriteAnswers.reply, WriteAnswers.carries, hcount, Result.map]
  | some count =>
      rcases lt_or_ge 0 count with h | h
      · cases hacc : a.accepted <;>
          simp [write, WriteAnswers.reply, WriteAnswers.carries, hcount, hacc, Result.map, h,
            not_le.mpr h]
      · simp [write, WriteAnswers.reply, WriteAnswers.carries, hcount, Result.map, h,
          not_lt.mpr h]

lemma Stands.writeMessage {dm : DdsEasyModel} {m : EasyModel Q Msg Handler Request}
    (h : Stands dm m) (q : Request) (a : WriteAnswers) : step m (requestCall (q, a))
      = if reaches dm q then (a.reply, if a.carries then
          { m with written := m.written ++ [(q.topic.name, q)] } else m)
        else (.returned (some false), m) := by
  have hw := h.writer q.topic
  rw [EasyModel.endpoint] at hw
  cases hquit : dm.quit with
  | true => simp [requestCall, step, Dds.writeMessage, h.quit, hquit, reaches, Result.map]
  | false =>
      cases hmap : m.topicAdapterMap q.topic.name with
      | none =>
          rw [hmap] at hw
          simp [requestCall, step, Dds.writeMessage, hmap, reaches, ← hw, Result.map]
      | some adapter =>
          rw [hmap] at hw
          have hmsg := h.msg q.topic adapter hmap
          rcases Option.eq_none_or_eq_some adapter.writer with hwriter | ⟨e, hwriter⟩
          · simp [requestCall, step, Dds.writeMessage, hmap, hmsg, hwriter, reaches, ← hw,
              DdsTopicAdapter.endpoint, Result.map]
          · have hwrite := write_carries q.topic.name q a m
            simpa [requestCall, step, Dds.writeMessage, h.quit, hquit, hmap, hmsg, hwriter, reaches,
              ← hw, DdsTopicAdapter.endpoint] using hwrite

lemma smallStep_eq (dm : DdsEasyModel) (q : Request × WriteAnswers) : (smallStep dm q).2
    = if reaches dm q.1 && q.2.carries then
        { dm with issued := dm.issued ++ [q.1], delivered := dm.delivered ++ [q.1] }
      else { dm with issued := dm.issued ++ [q.1] } := by
  rw [smallStep, SbusRemote.writeMessage, reaches]
  cases dm.quit <;> cases dm.writer q.1.topic <;> cases q.2.carries <;> rfl

/-- **`WriteMessage` on the registry is `WriteMessage` on the small model.** -/
theorem stands_write : Simulates smallStep (step (Q := Q)) Stands
    (fun _ => True) requestCall id := by
  rintro dm m ⟨q, a⟩ - h
  rw [h.writeMessage q a, smallStep_eq]
  cases hreaches : reaches dm q with
  | false =>
      refine ⟨?_, ?_⟩
      · simp [smallStep, hreaches]
      · simp only [Bool.false_and, Bool.false_eq_true, if_false]
        exact ⟨h.quit, h.writer, h.msg, h.taken⟩
  | true =>
      refine ⟨?_, ?_⟩
      · simp [smallStep, hreaches]
      · cases hcarries : a.carries with
        | false =>
            simp only [Bool.and_false, Bool.false_eq_true, if_false, if_true]
            exact ⟨h.quit, h.writer, h.msg, h.taken⟩
        | true =>
            simp only [Bool.and_self, if_true]
            exact ⟨h.quit, h.writer, h.msg, by simp [h.taken]⟩

/-- A model whose writers are set answers each write as the native library does. -/
lemma replies_smallStep {dm : DdsEasyModel} (hready : ∀ q, reaches dm q = true)
    (qs : List (Request × WriteAnswers)) :
    replies smallStep dm qs = qs.map fun q => q.2.reply := by
  induction qs generalizing dm with
  | nil => rfl
  | cons q qs ih =>
      have hnext (q' : Request) : reaches (smallStep dm q).2 q' = true := by
        rw [smallStep_eq]
        split_ifs <;> exact hready q'
      rw [replies, ih hnext, List.map_cons, smallStep]
      simp only [hready, if_true]

/-- **What `main` leaves behind.**  If its four calls return, the registry stands behind a model
that is ready. -/
theorem stands_after_main (p : DdsParameter Q) (a₁ a₂ a₃ a₄ : SetAnswers)
    (hset : ∀ r ∈ replies step (EasyModel.init p) (mainTopics a₁ a₂ a₃ a₄), r = .returned none) :
    Stands { quit := false, writer := fun _ => true, issued := [], delivered := [] }
      (after step (EasyModel.init p) (mainTopics a₁ a₂ a₃ a₄)) := by
  have hreg := registered_after (p := p) (mainTopics_typed a₁ a₂ a₃ a₄)
  simp only [mainTopics, replies, List.forall_mem_cons] at hset
  refine ⟨?_, fun t => ?_, fun t adapter hmap => ?_, ?_⟩
  · refine Bool.eq_false_iff.mpr fun hquit => ?_
    have := (quit_iff (p := p) (mainTopics_typed a₁ a₂ a₃ a₄)).mp hquit
    simp [mainTopics] at this
  · refine (writer_iff (mainTopics_typed a₁ a₂ a₃ a₄) t.name).mpr ?_
    cases t with
    | sport => exact ⟨[], a₁, List.prefix_append _ _, hset.1⟩
    | obst => exact ⟨(mainTopics a₁ a₂ a₃ a₄).take 2, a₃, List.prefix_append _ _, hset.2.2.1⟩
  · rw [hreg.msg t.name adapter hmap, topicMsg_name]
  · rw [written_eq_nil (τ := topicMsg)]
    · rfl
    · exact fun c hc => ⟨mainTopics_typed a₁ a₂ a₃ a₄ c hc, by
        simp only [mainTopics, List.mem_cons, List.not_mem_nil, or_false] at hc
        rcases hc with rfl | rfl | rfl | rfl <;> exact ⟨_, _, _, _, rfl⟩⟩

/-! ## The main loop -/

section

variable {δ : Type} (ans : Label → Request → WriteAnswers)

/-- What a run of the main loop hands to `WriteMessage`, with the native answers to each. -/
def runWrites : System δ → List (Label × System δ) → List (Request × WriteAnswers)
  | _, [] => []
  | s, (l, t) :: r => (passRequests s.rc l).map (fun q => (q, ans l q)) ++ runWrites t r

variable {ans}

lemma after_smallStep {link : Request → Bool} {a : Request → WriteAnswers}
    (ha : ∀ q, (a q).carries = link q) (dm : DdsEasyModel) (qs : List Request) :
    after smallStep dm (qs.map fun q => (q, a q)) = writeAll link dm qs := by
  induction qs generalizing dm with
  | nil => rfl
  | cons q qs ih =>
      have hstep : (smallStep dm (q, a q)).2 = (SbusRemote.writeMessage link dm q).2 := by
        simp only [smallStep, SbusRemote.writeMessage, ha]
      rw [List.map_cons, after_cons, hstep]
      exact ih _

lemma after_runWrites {D : Device δ} (hans : ∀ l q, (ans l q).carries = l.link q) {s : System δ}
    {r : List (Label × System δ)} (hr : IsRun (Pass D) s r) :
    after smallStep s.rc.dm (runWrites ans s r) = (final s r).rc.dm := by
  induction r generalizing s with
  | nil => rfl
  | cons e r ih =>
      obtain ⟨l, t⟩ := e
      have hdm : t.rc.dm = writeAll l.link s.rc.dm (passRequests s.rc l) := by
        rw [hr.1.rc, react, robotControl_dm]
        rfl
      rw [runWrites, after_append, after_smallStep (hans l), ← hdm, ih hr.2, final_cons]

/-- **The small model is enough.**  On every run of the main loop, whatever the native library
answers once the four calls of `main` have returned, each write gets the library's reply, and the
library has taken exactly the requests that the small model says were delivered, in their order.

An exception leaves `main`; the run may go on all the same, as if the link had been down. -/
theorem main_loop_stands (p : DdsParameter Q) (a₁ a₂ a₃ a₄ : SetAnswers)
    (hset : ∀ r ∈ replies step (EasyModel.init p) (mainTopics a₁ a₂ a₃ a₄), r = .returned none)
    (D : Device δ) (m : Memory) (dev : δ) (r : List (Label × System δ))
    (hr : IsRun (Pass D) (System.init m dev) r) (ans : Label → Request → WriteAnswers)
    (hans : ∀ l q, (ans l q).carries = l.link q) :
    let ready := after step (EasyModel.init p) (mainTopics a₁ a₂ a₃ a₄)
    let writes := runWrites ans (System.init m dev) r
    (after step ready (writes.map requestCall)).written
        = (final (System.init m dev) r).rc.dm.delivered.map (fun q => (q.topic.name, q)) ∧
      replies step ready (writes.map requestCall) = writes.map fun q => q.2.reply := by
  intro ready writes
  have hstart := stands_after_main p a₁ a₂ a₃ a₄ hset
  constructor
  · rw [(stands_write.after hstart fun _ _ => trivial).taken]
    exact congrArg (fun dm => dm.delivered.map fun q => (q.topic.name, q)) (after_runWrites hans hr)
  · rw [stands_write.replies hstart fun _ _ => trivial, List.map_id]
    exact replies_smallStep (fun _ => rfl) writes

end

/-- The answers of a native library that finds a reader and takes what the link lets through. -/
def answered (l : Label) (q : Request) : WriteAnswers := ⟨some 1, l.link q⟩

theorem main_loop_stands_forward :
    let ready := after step (EasyModel.init (⟨[], [], []⟩ : DdsParameter Unit))
      (mainTopics granted granted granted granted)
    let s := System.init Memory.centred 0
    let r := scenario [centred, forward, forward, centred] (List.replicate 4 fun _ => true)
    let writes := runWrites answered s r
    (after step ready (writes.map requestCall)).written
        = (final s r).rc.dm.delivered.map (fun q => (q.topic.name, q)) ∧
      replies step ready (writes.map requestCall) = writes.map fun q => q.2.reply :=
  main_loop_stands _ _ _ _ _ (by decide +kernel) _ _ _ _ (executed_isRun (by decide +kernel)) _
    (fun l q => by simp [answered, WriteAnswers.carries])

end SbusRemote.Dds
