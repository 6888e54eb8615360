import Mathlib.Data.List.Induction
import SbusRemote.Dds.Registry

/-!
# A topic is set once

What any sequence of calls of `DdsEasyModel` does, whatever the native library answers.

* `typed_defined` — a client that gives each topic one message type never leaves the behaviour
  undefined.
* `setTopic_once` — the endpoint that a `SetTopic` has set stays as the configuration assigns it,
  and every later one for the same topic and kind throws and changes nothing.
* `write_true_iff` — a message is taken if and only if the topic's writer was set before, nothing
  has quit, and the native library finds a reader and accepts it.
-/

namespace SbusRemote.Dds

open Mealy

variable {Q M H V : Type}

variable [DecidableEq M] {τ : String → M} {p : DdsParameter Q}

/-- **No undefined behaviour**: adapters are cast to the type they were created with, and the groups
are read within bounds. -/
theorem typed_defined (cs : List (Call M H V)) (hcs : ∀ c ∈ cs, c.Typed τ) :
    ∀ r ∈ replies step (EasyModel.init p) cs, r ≠ .undefined := by
  refine replies_invariant (I := Registered τ p) (C := Call.Typed τ)
    (fun m c hc h => ⟨?_, h.next hc⟩) registered_init hcs
  cases c with
  | quit => simp [step]
  | setTopic msg topic role a =>
      obtain rfl : msg = τ topic := hc
      simpa [step] using h.setTopic_defined topic role a
  | writeMessage msg topic message matchReader a =>
      obtain rfl : msg = τ topic := hc
      simpa [step] using h.writeMessage_defined topic message matchReader a

/-- **A topic is set once.**  After a `SetTopic` has returned, its topic has the endpoint the
configuration assigns, with the callback it was set with, in every later state; and a further one
for the same kind of endpoint throws and changes nothing. -/
theorem setTopic_once (before later : List (Call M H V)) (topic : String) (role role' : Role H)
    (a a' : SetAnswers) (hbefore : ∀ c ∈ before, c.Typed τ) (hlater : ∀ c ∈ later, c.Typed τ)
    (hkind : role'.kind = role.kind)
    (hset : (step (after step (EasyModel.init p) before) (.setTopic (τ topic) topic role a)).1
      = .returned none) :
    let m := after step (EasyModel.init p) (before ++ .setTopic (τ topic) topic role a :: later)
    (∃ e, m.endpoint role.kind topic = some e ∧
      Assigned (p.groups role.kind) topic (e.owner, e.qos) ∧ e.callback = role.callback) ∧
    step m (.setTopic (τ topic) topic role' a')
      = (.thrown (.common (role.kind.existText ++ topic)), m) := by
  intro m
  have hm : m = after step (step (after step (EasyModel.init p) before)
      (.setTopic (τ topic) topic role a)).2 later := after_append ..
  have hstart := registered_after (p := p) hbefore
  have hnext := hstart.next (c := .setTopic (τ topic) topic role a) rfl
  generalize after step (EasyModel.init p) before = s at hm hset hstart hnext
  -- the endpoint is there after the call, and stays
  obtain ⟨e, he, hcb⟩ : ∃ e, (step s (.setTopic (τ topic) topic role a)).2.endpoint role.kind topic
      = some e ∧ e.callback = role.callback := by
    have hreturned : (setTopic (τ topic) topic role a s).1 = .returned () := by
      simp only [step] at hset
      cases hr : (setTopic (τ topic) topic role a s).1 <;> simp_all [Result.map]
    exact hstart.setTopic_returned (Prod.ext hreturned rfl)
  have hend : Registered τ p m ∧ m.endpoint role.kind topic = some e := by
    rw [hm]
    have hkeeps (m : EasyModel Q M H V) (c : Call M H V) (hc : c.Typed τ)
        (h : Registered τ p m ∧ m.endpoint role.kind topic = some e) :
        Registered τ p (step m c).2 ∧ (step m c).2.endpoint role.kind topic = some e :=
      ⟨h.1.next hc, h.1.endpoint_step c h.2⟩
    exact after_invariant hkeeps ⟨hnext, he⟩ hlater
  refine ⟨⟨e, hend.2, ?_, hcb⟩, ?_⟩
  · rw [(hend.1.endpoint _ _ _ hend.2).1]
    exact findEndpoint_assigned ..
  · rw [← hkind] at hend
    have hexists := hend.1.setTopic_exists hend.2 a'
    rw [hkind] at hexists
    simp only [step, hexists, Result.map]

/-- One publisher, with a writer for one topic. -/
def onePublisher : DdsParameter ℕ where
  topic := []
  publisher := [⟨0, [⟨"request", 1⟩]⟩]
  subscriber := []

def granted : SetAnswers := ⟨true, true, true, true⟩

theorem setTopic_once_request :
    let m := after step (EasyModel.init onePublisher : EasyModel ℕ Bool Unit Unit)
      [.setTopic true "request" .writer granted, .quit]
    (∃ e, m.endpoint .writer "request" = some e ∧
      Assigned onePublisher.publisher "request" (e.owner, e.qos) ∧ e.callback = none) ∧
    step m (.setTopic true "request" .writer granted)
      = (.thrown (.common "topic writer is already exist. topic:request"), m) :=
  setTopic_once (τ := fun _ => true) [] [.quit] "request" .writer .writer granted granted (by simp)
    (by simp [Call.Typed]) rfl (by decide +kernel)

/-- The writer of a topic was set: some `SetTopic` for it has returned. -/
def WriterSet (τ : String → M) (p : DdsParameter Q) (before : List (Call M H V))
    (topic : String) : Prop :=
  ∃ cs a, cs ++ [.setTopic (τ topic) topic .writer a] <+: before ∧
    (step (after step (EasyModel.init p) cs) (.setTopic (τ topic) topic .writer a)).1
      = .returned none

/-- A call gives a topic a writer if and only if it is the `SetTopic` for it, and returns. -/
lemma Registered.writer_step {m : EasyModel Q M H V} (h : Registered τ p m) {c : Call M H V}
    (hc : c.Typed τ) (topic : String) : ((step m c).2.endpoint .writer topic).isSome ↔
      (m.endpoint .writer topic).isSome ∨
        ∃ a, c = .setTopic (τ topic) topic .writer a ∧ (step m c).1 = .returned none := by
  cases c with
  | quit => simp [step, EasyModel.endpoint]
  | writeMessage msg topic' message matchReader a =>
      obtain ⟨w, hw⟩ := writeMessage_state msg topic' message matchReader a m
      simp [step, hw, EasyModel.endpoint]
  | setTopic msg topic' role a =>
      obtain rfl : msg = τ topic' := hc
      constructor
      · intro hsome
        rcases h.setTopic_endpoint (τ topic') topic' role a .writer topic with
          hsame | ⟨hk, rfl, hnone⟩
        · exact .inl (by rwa [← hsame])
        · obtain rfl : role = .writer := by
            cases role with
            | writer => rfl
            | reader => exact Kind.noConfusion hk
          refine .inr ⟨a, rfl, ?_⟩
          simp only [step]
          rcases setTopic_cases h.owned (τ topic) topic .writer a with hcase | hcase
          · simp [step, hcase, hnone] at hsome
          · simp only [step] at hsome
            generalize setTopic (τ topic) topic .writer a m = r at hcase hsome
            cases hcase with
            | refused e => simp [hnone] at hsome
            | miscast _ _ => simp [hnone] at hsome
            | set _ => rfl
            | deaf hrole _ => exact absurd hrole (by simp)
      · rintro (hsome | ⟨a', hcall, hreply⟩)
        · obtain ⟨e, he⟩ := Option.isSome_iff_exists.mp hsome
          rw [h.endpoint_step _ he]
          rfl
        · obtain ⟨-, rfl, rfl, rfl⟩ := Call.setTopic.inj hcall
          simp only [step] at hreply ⊢
          cases hr : setTopic (τ topic') topic' .writer a m with
          | mk r m' =>
              rw [hr] at hreply
              cases r with
              | returned u =>
                  obtain ⟨e, he, -⟩ := h.setTopic_returned hr
                  exact Option.isSome_iff_exists.mpr ⟨e, he⟩
              | thrown e => exact absurd hreply (by simp [Result.map])
              | undefined => exact absurd hreply (by simp [Result.map])

/-- A topic has a writer if and only if it was set. -/
lemma writer_iff {before : List (Call M H V)} (hbefore : ∀ c ∈ before, c.Typed τ)
    (topic : String) : ((after step (EasyModel.init p) before).endpoint .writer topic).isSome ↔
      WriterSet τ p before topic := by
  induction before using List.reverseRecOn with
  | nil => simp [EasyModel.endpoint, EasyModel.init, WriterSet]
  | append_singleton cs c ih =>
      simp only [List.forall_mem_append, List.forall_mem_singleton] at hbefore
      rw [after_concat, (registered_after hbefore.1).writer_step hbefore.2, ih hbefore.1]
      simp only [WriterSet, List.prefix_concat_iff]
      constructor
      · rintro (⟨cs', a, hcs, hreply⟩ | ⟨a, rfl, hreply⟩)
        · exact ⟨cs', a, .inr hcs, hreply⟩
        · exact ⟨cs, a, .inl rfl, hreply⟩
      · rintro ⟨cs', a, hcs | hcs, hreply⟩
        · obtain ⟨rfl, hc⟩ := List.append_inj' hcs rfl
          obtain rfl := List.singleton_inj.mp hc
          exact .inr ⟨a, rfl, hreply⟩
        · exact .inl ⟨cs', a, hcs, hreply⟩

lemma Registered.quit_step {m : EasyModel Q M H V} (h : Registered τ p m) (c : Call M H V) :
    (step m c).2.quit = true ↔ m.quit = true ∨ .quit = c := by
  cases c with
  | quit => simp [step]
  | writeMessage msg topic message matchReader a =>
      obtain ⟨w, hw⟩ := writeMessage_state msg topic message matchReader a m
      simp [step, hw]
  | setTopic msg topic role a => simp [step, (setTopic_frame h.owned msg topic role a).1]

/-- Setting topics writes nothing. -/
lemma written_eq_nil {cs : List (Call M H V)}
    (hcs : ∀ c ∈ cs, c.Typed τ ∧ ∃ msg topic role a, c = .setTopic msg topic role a) :
    (after step (EasyModel.init p) cs).written = [] := by
  have hkeeps (m : EasyModel Q M H V) (c : Call M H V)
      (hc : c.Typed τ ∧ ∃ msg topic role a, c = .setTopic msg topic role a)
      (h : Registered τ p m ∧ m.written = []) :
      Registered τ p (step m c).2 ∧ (step m c).2.written = [] := by
    obtain ⟨htyped, msg, topic, role, a, rfl⟩ := hc
    exact ⟨h.1.next htyped, (setTopic_frame h.1.owned msg topic role a).2.trans h.2⟩
  exact (after_invariant hkeeps ⟨registered_init, rfl⟩ hcs).2

lemma quit_iff {before : List (Call M H V)} (hbefore : ∀ c ∈ before, c.Typed τ) :
    (after step (EasyModel.init p) before).quit = true ↔ .quit ∈ before := by
  induction before using List.reverseRecOn with
  | nil => simp [EasyModel.init]
  | append_singleton cs c ih =>
      simp only [List.forall_mem_append, List.forall_mem_singleton] at hbefore
      rw [after_concat, (registered_after hbefore.1).quit_step, ih hbefore.1, List.mem_append,
        List.mem_singleton]

/-- **When a message is taken.**  A write returns `true` if and only if nothing has quit, the
topic's writer was set before, a reader is matched where one is asked for, and the native library
accepts the message. -/
theorem write_true_iff (before : List (Call M H V)) (topic : String) (message : V)
    (matchReader : Bool) (a : WriteAnswers) (hbefore : ∀ c ∈ before, c.Typed τ) :
    (step (after step (EasyModel.init p) before)
        (.writeMessage (τ topic) topic message matchReader a)).1 = .returned (some true) ↔
      .quit ∉ before ∧ WriterSet τ p before topic ∧
        (matchReader = true → ∃ count, a.count = some count ∧ 0 < count) ∧ a.accepted = true := by
  rw [← quit_iff (p := p) hbefore, ← writer_iff hbefore]
  have h := registered_after (p := p) hbefore
  generalize after step (EasyModel.init p) before = m at h
  simp only [step, writeMessage]
  cases hq : m.quit with
  | true => simp [Result.map]
  | false =>
      cases hmap : m.topicAdapterMap topic with
      | none => simp [Result.map, EasyModel.endpoint, hmap]
      | some adapter =>
          simp only [h.msg topic adapter hmap, EasyModel.endpoint, hmap, Option.bind_some,
            DdsTopicAdapter.endpoint]
          cases hw : adapter.writer with
          | none => simp [Result.map]
          | some e =>
              rw [← write_eq_true topic message matchReader a m]
              cases hr : (write topic message matchReader a m).1 <;> simp [Result.map, hr]

theorem write_true_iff_request :
    let before : List (Call Bool Unit Unit) := [.setTopic true "request" .writer granted]
    (step (after step (EasyModel.init onePublisher) before)
        (.writeMessage true "request" () true ⟨some 1, true⟩)).1 = .returned (some true) ↔
      .quit ∉ before ∧ WriterSet (fun _ => true) onePublisher before "request" ∧
        (true = true → ∃ count, some (1 : ℤ) = some count ∧ 0 < count) ∧ true = true :=
  write_true_iff (τ := fun _ => true) [.setTopic true "request" .writer granted] "request" ()
    true ⟨some 1, true⟩ (by simp [Call.Typed])

end SbusRemote.Dds
