import SbusRemote.Core.Mealy
import SbusRemote.Dds.EasyModel

/-!
# What a call does to the registry

A `SetTopic` either changes nothing, apart from a default group it may have created, or gives one
topic one endpoint it did not have.  Everything else about the registry follows from this.

* `Assigned` — which group and which QoS the configuration means for a topic;
  `findEndpoint_assigned`: the search finds them.
* `setTopic_outcome` — the ways a `SetTopic` can end.
* `Registered` — what every call keeps: each endpoint is as the configuration says.  A client is
  `Typed` if it instantiates each topic with one message type.
-/

namespace SbusRemote.Dds

open Mealy Function

variable {Q M H V : Type}

/-! ## The configuration -/

/-- The group and the QoS the configuration assigns to an endpoint: those of the first group that
lists the topic, or the defaults. -/
inductive Assigned (groups : List (GroupParameter Q)) (topic : String) :
    Option ℕ × Option Q → Prop
  | listed {i : ℕ} {g : GroupParameter Q} {e : EndpointParameter Q} : groups[i]? = some g →
      (∀ g' ∈ groups.take i, ∀ e' ∈ g'.endpoints, e'.topicName ≠ topic) →
      g.endpoints.find? (·.topicName = topic) = some e → Assigned groups topic (some i, some e.qos)
  | default : (∀ g ∈ groups, ∀ e ∈ g.endpoints, e.topicName ≠ topic) →
      Assigned groups topic (none, none)

/-- What `findEndpoint` says of an endpoint. -/
def dependence (groups : List (GroupParameter Q)) (topic : String) : Option ℕ × Option Q :=
  match findEndpoint topic 0 groups with
  | some (i, qos) => (some i, some qos)
  | none => (none, none)

lemma findEndpoint_eq_some {topic : String} {i j : ℕ} {qos : Q} {groups : List (GroupParameter Q)}
    (h : findEndpoint topic i groups = some (j, qos)) :
    ∃ n g e, j = i + n ∧ groups[n]? = some g ∧
      (∀ g' ∈ groups.take n, ∀ e' ∈ g'.endpoints, e'.topicName ≠ topic) ∧
      g.endpoints.find? (·.topicName = topic) = some e ∧ e.qos = qos := by
  induction groups generalizing i with
  | nil => exact absurd h (by simp [findEndpoint])
  | cons g gs ih =>
      cases hg : g.endpoints.find? (·.topicName = topic) with
      | some e =>
          simp only [findEndpoint, hg, Option.some.injEq, Prod.mk.injEq] at h
          exact ⟨0, g, e, by omega, rfl, by simp, hg, h.2⟩
      | none =>
          simp only [findEndpoint, hg] at h
          obtain ⟨n, g', e, hj, hn, hbefore, hfind, hqos⟩ := ih h
          refine ⟨n + 1, g', e, by omega, hn, ?_, hfind, hqos⟩
          rw [List.take_succ_cons, List.forall_mem_cons]
          exact ⟨by simpa using hg, hbefore⟩

lemma findEndpoint_eq_none {topic : String} {i : ℕ} {groups : List (GroupParameter Q)}
    (h : findEndpoint topic i groups = none) :
    ∀ g ∈ groups, ∀ e ∈ g.endpoints, e.topicName ≠ topic := by
  induction groups generalizing i with
  | nil => simp
  | cons g gs ih =>
      cases hg : g.endpoints.find? (·.topicName = topic) with
      | some e => exact absurd h (by simp [findEndpoint, hg])
      | none =>
          simp only [findEndpoint, hg] at h
          rw [List.forall_mem_cons]
          exact ⟨by simpa using hg, ih h⟩

/-- **The search finds what the configuration assigns.** -/
theorem findEndpoint_assigned (groups : List (GroupParameter Q)) (topic : String) :
    Assigned groups topic (dependence groups topic) := by
  rw [dependence]
  cases h : findEndpoint topic 0 groups with
  | none => exact .default (findEndpoint_eq_none h)
  | some r =>
      obtain ⟨n, g, e, hj, hn, hbefore, hfind, hqos⟩ := findEndpoint_eq_some h
      simp only [hj, Nat.zero_add, ← hqos]
      exact .listed hn hbefore hfind

lemma findEndpoint_lt {topic : String} {j : ℕ} {qos : Q} {groups : List (GroupParameter Q)}
    (h : findEndpoint topic 0 groups = some (j, qos)) : j < groups.length := by
  obtain ⟨n, g, e, hj, hn, -⟩ := findEndpoint_eq_some h
  have := (List.getElem?_eq_some_iff.mp hn).1
  omega

/-! ## One call -/

/-- There is a publisher or a subscriber for each in the configuration. -/
def EasyModel.Owned (m : EasyModel Q M H V) : Prop :=
  ∀ k, (m.owners k).length = (m.parameter.groups k).length

/-- The model once the endpoint's group is there. -/
def EasyModel.opened (k : Kind) (topic : String) (m : EasyModel Q M H V) : EasyModel Q M H V :=
  if (dependence (m.parameter.groups k) topic).1 = none then
    { m with hasDefault := update m.hasDefault k true }
  else m

/-- The default group is there, or not asked for. -/
def EasyModel.HasOwner (k : Kind) (topic : String) (m : EasyModel Q M H V) : Prop :=
  (dependence (m.parameter.groups k) topic).1 = none → m.hasDefault k = true

lemma getDependence_owned {m : EasyModel Q M H V} (h : m.Owned) (k : Kind) (topic : String)
    (granted : Bool) : getDependence k topic granted m = (.thrown .dds, m) ∨
      getDependence k topic granted m
        = (.returned (dependence (m.parameter.groups k) topic), m.opened k topic) := by
  rw [getDependence, EasyModel.opened, dependence]
  cases hfind : findEndpoint topic 0 (m.parameter.groups k) with
  | some r =>
      have hlt : r.1 < (m.owners k).length := h k ▸ findEndpoint_lt hfind
      exact .inr (by simp [hlt])
  | none =>
      cases hk : m.hasDefault k with
      | true =>
          have hsame : update m.hasDefault k true = m.hasDefault := by rw [← hk, update_eq_self]
          exact .inr (by simp [getDefault, hk, hsame])
      | false => cases granted <;> simp [getDefault, hk]

lemma getDependence_hasOwner {m : EasyModel Q M H V} (h : m.Owned) {k : Kind} {topic : String}
    (howner : m.HasOwner k topic) (granted : Bool) : getDependence k topic granted m
      = (.returned (dependence (m.parameter.groups k) topic), m) := by
  rw [EasyModel.HasOwner, dependence] at howner
  rw [getDependence, dependence]
  cases hfind : findEndpoint topic 0 (m.parameter.groups k) with
  | some r =>
      have hlt : r.1 < (m.owners k).length := h k ▸ findEndpoint_lt hfind
      simp [hlt]
  | none =>
      rw [hfind] at howner
      simp [getDefault, howner rfl]

section

variable (k : Kind) (topic : String) (m : EasyModel Q M H V)

@[simp] lemma opened_quit : (m.opened k topic).quit = m.quit := by
  unfold EasyModel.opened
  split <;> rfl

@[simp] lemma opened_parameter : (m.opened k topic).parameter = m.parameter := by
  unfold EasyModel.opened
  split <;> rfl

@[simp] lemma opened_owners : (m.opened k topic).owners = m.owners := by
  unfold EasyModel.opened
  split <;> rfl

@[simp] lemma opened_topicAdapterMap :
    (m.opened k topic).topicAdapterMap = m.topicAdapterMap := by
  unfold EasyModel.opened
  split <;> rfl

@[simp] lemma opened_written : (m.opened k topic).written = m.written := by
  unfold EasyModel.opened
  split <;> rfl

@[simp] lemma opened_endpoint : (m.opened k topic).endpoint = m.endpoint := by
  funext k' topic'
  rw [EasyModel.endpoint, EasyModel.endpoint, opened_topicAdapterMap]

lemma hasOwner_opened : (m.opened k topic).HasOwner k topic := by
  intro h
  rw [opened_parameter] at h
  rw [EasyModel.opened, if_pos h]
  exact update_self ..

/-- A group that is there stays. -/
lemma hasOwner_of_opened {k' : Kind} {topic' : String} (h : m.HasOwner k' topic') :
    (m.opened k topic).HasOwner k' topic' := by
  intro hnone
  rw [opened_parameter] at hnone
  rw [EasyModel.opened]
  split_ifs with hk
  · by_cases hkk : k' = k
    · rw [hkk]
      exact update_self ..
    · exact (update_of_ne hkk ..).trans (h hnone)
  · exact h hnone

@[simp] lemma endpoint_put (adapter : DdsTopicAdapter Q M H) (topic' : String) :
    (m.put topic adapter).endpoint k topic'
      = if topic' = topic then adapter.endpoint k else m.endpoint k topic' := by
  simp only [EasyModel.endpoint, EasyModel.put, update_apply]
  split_ifs <;> rfl

end

/-- An adapter with one endpoint more than the model has for its topic. -/
structure Placed (m : EasyModel Q M H V) (msg : M) (topic : String) (k : Kind) (e : Endpoint Q H)
    (adapter : DdsTopicAdapter Q M H) : Prop where
  absent : m.endpoint k topic = none
  known : ∀ old, m.topicAdapterMap topic = some old → old.msg = msg
  msg : adapter.msg = msg
  topicQos : adapter.topicQos
    = ((m.topicAdapterMap topic).map (·.topicQos)).getD (getTopicDependence topic m)
  set : adapter.endpoint k = some e
  other : ∀ k' ≠ k, adapter.endpoint k' = m.endpoint k' topic

def Role.callback : Role H → Option H
  | .writer => none
  | .reader rcb => some rcb

/-- How `SetTopic` can end, once it knows what the endpoint depends on: nothing happens, or the
endpoint is set, possibly without its listener. -/
inductive Outcome (m : EasyModel Q M H V) (msg : M) (topic : String) (role : Role H)
    (dep : Option ℕ × Option Q) : Result Unit × EasyModel Q M H V → Prop
  | refused (e : Thrown) : Outcome m msg topic role dep (.thrown e, m)
  | miscast {adapter : DdsTopicAdapter Q M H} : m.topicAdapterMap topic = some adapter →
      adapter.msg ≠ msg → Outcome m msg topic role dep (.undefined, m)
  | set {adapter : DdsTopicAdapter Q M H} :
      Placed m msg topic role.kind ⟨dep.1, dep.2, role.callback⟩ adapter →
      Outcome m msg topic role dep (.returned (), m.put topic adapter)
  | deaf {adapter : DdsTopicAdapter Q M H} {rcb : H} : role = .reader rcb →
      Placed m msg topic .reader ⟨dep.1, dep.2, none⟩ adapter →
      Outcome m msg topic role dep (.thrown .native, m.put topic adapter)

/-- What `SetWriter` and `SetReader` make of an adapter that has no such endpoint. -/
lemma setEndpoint_cases (m : EasyModel Q M H V) (msg : M) (topic : String) (role : Role H)
    (dep : Option ℕ × Option Q) (a : SetAnswers) (adapter : DdsTopicAdapter Q M H)
    (habsent : m.endpoint role.kind topic = none)
    (hknown : ∀ old, m.topicAdapterMap topic = some old → old.msg = msg)
    (hmsg : adapter.msg = msg) (hqos : adapter.topicQos
      = ((m.topicAdapterMap topic).map (·.topicQos)).getD (getTopicDependence topic m))
    (hother : ∀ k', adapter.endpoint k' = m.endpoint k' topic) :
    adapter.setEndpoint role dep a = (.thrown .dds, adapter) ∨
      (∃ adapter', adapter.setEndpoint role dep a = (.returned (), adapter') ∧
        Placed m msg topic role.kind ⟨dep.1, dep.2, role.callback⟩ adapter') ∨
      ∃ adapter' rcb, adapter.setEndpoint role dep a = (.thrown .native, adapter') ∧
        role = .reader rcb ∧ Placed m msg topic .reader ⟨dep.1, dep.2, none⟩ adapter' := by
  unfold DdsTopicAdapter.setEndpoint
  cases a.endpoint with
  | false => exact .inl rfl
  | true =>
      cases role with
      | writer =>
          refine .inr (.inl ⟨_, rfl, habsent, hknown, hmsg, hqos, rfl, fun k' hk => ?_⟩)
          cases k' with
          | writer => exact absurd rfl hk
          | reader => exact hother .reader
      | reader rcb =>
          have hrest (cb : Option H) : ∀ k' ≠ Kind.reader, DdsTopicAdapter.endpoint
              { adapter with reader := some ⟨dep.1, dep.2, cb⟩ } k' = m.endpoint k' topic := by
            intro k' hk
            cases k' with
            | writer => exact hother .writer
            | reader => exact absurd rfl hk
          cases a.listener with
          | true => exact .inr (.inl ⟨_, rfl, habsent, hknown, hmsg, hqos, rfl, hrest _⟩)
          | false => exact .inr (.inr ⟨_, _, rfl, rfl, habsent, hknown, hmsg, hqos, rfl, hrest _⟩)

/-- **What a `SetTopic` can do.** -/
theorem setTopic_outcome [DecidableEq M] (msg : M) (topic : String) (role : Role H)
    (a : SetAnswers) (dep : Option ℕ × Option Q) (m : EasyModel Q M H V) :
    Outcome m msg topic role dep (setTopicWith msg topic role a dep m) := by
  rw [setTopicWith]
  cases hmap : m.topicAdapterMap topic with
  | none =>
      have hnone (k : Kind) : m.endpoint k topic = none := by rw [EasyModel.endpoint, hmap]; rfl
      cases a.topic with
      | false => exact .refused .dds
      | true =>
          obtain h | ⟨adapter, h, hplaced⟩ | ⟨adapter, rcb, h, hrole, -⟩ :=
            setEndpoint_cases m msg topic role dep a
              ⟨msg, getTopicDependence topic m, none, none⟩ (hnone _)
              (by simp [hmap]) rfl (by simp [hmap]) (fun k' => by rw [hnone]; cases k' <;> rfl)
          · simp only [Bool.not_true, Bool.false_eq_true, if_false, h]
            exact .refused .dds
          · simp only [Bool.not_true, Bool.false_eq_true, if_false, h]
            exact .set hplaced
          · simp only [Bool.not_true, Bool.false_eq_true, if_false, h]
            exact .refused .native
  | some adapter =>
      have hget (k : Kind) : adapter.endpoint k = m.endpoint k topic := by
        rw [EasyModel.endpoint, hmap]
        rfl
      by_cases hmsg : adapter.msg = msg
      · cases hend : adapter.endpoint role.kind with
        | some e =>
            simp only [hmsg, ne_eq, not_true_eq_false, if_false, hend, Option.isSome_some, if_true]
            exact .refused _
        | none =>
            simp only [hmsg, ne_eq, not_true_eq_false, if_false, hend, Option.isSome_none,
              Bool.false_eq_true]
            obtain h | ⟨adapter', h, hplaced⟩ | ⟨adapter', rcb, h, hrole, hplaced⟩ :=
              setEndpoint_cases m msg topic role dep a adapter (by rw [← hget, hend])
                (by simp [hmap, hmsg]) hmsg (by simp [hmap]) hget
            · have hsame : m.put topic adapter = m := by
                rw [EasyModel.put, ← hmap, update_eq_self]
              rw [h, hsame]
              exact .refused .dds
            · rw [h]
              exact .set hplaced
            · rw [h]
              exact .deaf hrole hplaced
      · simp only [hmsg, ne_eq, not_false_eq_true, if_true]
        exact .miscast hmap hmsg

/-- `SetTopic` fails at the default group, or goes on with what the configuration says. -/
lemma setTopic_cases [DecidableEq M] {m : EasyModel Q M H V} (h : m.Owned) (msg : M)
    (topic : String) (role : Role H) (a : SetAnswers) :
    setTopic msg topic role a m = (.thrown .dds, m) ∨
      Outcome (m.opened role.kind topic) msg topic role
        (dependence (m.parameter.groups role.kind) topic) (setTopic msg topic role a m) := by
  rw [setTopic]
  rcases getDependence_owned h role.kind topic a.owner with hdep | hdep <;> rw [hdep]
  · exact .inl rfl
  · exact .inr (setTopic_outcome ..)

lemma setTopic_frame [DecidableEq M] {m : EasyModel Q M H V} (h : m.Owned) (msg : M)
    (topic : String) (role : Role H) (a : SetAnswers) :
    (setTopic msg topic role a m).2.quit = m.quit ∧
      (setTopic msg topic role a m).2.written = m.written := by
  rcases setTopic_cases h msg topic role a with hcase | hcase
  · rw [hcase]
    exact ⟨rfl, rfl⟩
  · generalize setTopic msg topic role a m = r at hcase
    cases hcase <;> simp [EasyModel.put]

/-! ## What every call keeps -/

/-- Each topic has one message type. -/
def Call.Typed (τ : String → M) : Call M H V → Prop
  | .setTopic msg topic _ _ => msg = τ topic
  | .writeMessage msg topic _ _ _ => msg = τ topic
  | .quit => True

/-- Everything in the registry is as the configuration `p` says. -/
structure Registered (τ : String → M) (p : DdsParameter Q) (m : EasyModel Q M H V) : Prop where
  parameter : m.parameter = p
  owned : m.Owned
  msg : ∀ topic adapter, m.topicAdapterMap topic = some adapter → adapter.msg = τ topic
  topicQos : ∀ topic adapter, m.topicAdapterMap topic = some adapter →
    adapter.topicQos = getTopicDependence topic m
  endpoint : ∀ k topic e, m.endpoint k topic = some e →
    (e.owner, e.qos) = dependence (p.groups k) topic ∧ m.HasOwner k topic

section

variable {τ : String → M} {p : DdsParameter Q} {m : EasyModel Q M H V}

lemma registered_init : Registered τ p (EasyModel.init p : EasyModel Q M H V) where
  parameter := rfl
  owned k := List.length_map _
  msg _ _ h := absurd h (by simp [EasyModel.init])
  topicQos _ _ h := absurd h (by simp [EasyModel.init])
  endpoint _ _ _ h := absurd h (by simp [EasyModel.endpoint, EasyModel.init])

lemma Registered.opened (h : Registered τ p m) (k : Kind) (topic : String) :
    Registered τ p (m.opened k topic) where
  parameter := (opened_parameter ..).trans h.parameter
  owned k' := by simpa using h.owned k'
  msg := by simpa using h.msg
  topicQos := by simpa [getTopicDependence] using h.topicQos
  endpoint k' topic' e he := by
    rw [opened_endpoint] at he
    exact (h.endpoint k' topic' e he).imp_right (hasOwner_of_opened k topic m)

lemma Registered.put (h : Registered τ p m) {topic : String} {k : Kind} {cb : Option H}
    {adapter : DdsTopicAdapter Q M H}
    (hplaced : Placed m (τ topic) topic k
      ⟨(dependence (p.groups k) topic).1, (dependence (p.groups k) topic).2, cb⟩ adapter)
    (howner : m.HasOwner k topic) : Registered τ p (m.put topic adapter) where
  parameter := h.parameter
  owned := h.owned
  msg topic' adapter' hmap := by
    simp only [EasyModel.put, update_apply] at hmap
    split_ifs at hmap with ht
    · rw [← Option.some.inj hmap, hplaced.msg, ht]
    · exact h.msg topic' adapter' hmap
  topicQos topic' adapter' hmap := by
    simp only [EasyModel.put, update_apply] at hmap
    change adapter'.topicQos = getTopicDependence topic' m
    split_ifs at hmap with ht
    · rw [← Option.some.inj hmap, hplaced.topicQos, ht]
      cases hold : m.topicAdapterMap topic with
      | none => rfl
      | some old => exact h.topicQos topic old hold
    · exact h.topicQos topic' adapter' hmap
  endpoint k' topic' e he := by
    have howner' (ho : m.HasOwner k' topic') : (m.put topic adapter).HasOwner k' topic' := ho
    rw [endpoint_put] at he
    split_ifs at he with ht
    · subst ht
      by_cases hk : k' = k
      · subst hk
        obtain rfl := Option.some.inj (hplaced.set.symm.trans he)
        exact ⟨rfl, howner' howner⟩
      · rw [hplaced.other k' hk] at he
        exact (h.endpoint k' topic' e he).imp_right howner'
    · exact (h.endpoint k' topic' e he).imp_right howner'

lemma Registered.register [DecidableEq M] (h : Registered τ p m) (topic : String) (role : Role H)
    (a : SetAnswers) : Registered τ p (setTopic (τ topic) topic role a m).2 := by
  have hopened := h.opened role.kind topic
  have howner := hasOwner_opened role.kind topic m
  rcases setTopic_cases h.owned (τ topic) topic role a with hcase | hcase
  · rw [hcase]
    exact h
  · rw [h.parameter] at hcase
    generalize setTopic (τ topic) topic role a m = r at hcase
    cases hcase with
    | refused e => exact hopened
    | miscast _ _ => exact hopened
    | set hplaced => exact hopened.put hplaced howner
    | deaf hrole hplaced =>
        subst hrole
        exact hopened.put hplaced howner

/-- How `DdsWriter::Write` ends: asking for the matched readers fails, the message is not taken, or
it is. -/
lemma write_cases (topic : String) (message : V) (matchReader : Bool) (a : WriteAnswers)
    (m : EasyModel Q M H V) : write topic message matchReader a m = (.thrown .native, m) ∨
      write topic message matchReader a m = (.returned false, m) ∨
      write topic message matchReader a m
        = (.returned true, { m with written := m.written ++ [(topic, message)] }) := by
  have hsend : write topic message false a m = (.returned false, m) ∨
      write topic message false a m
        = (.returned true, { m with written := m.written ++ [(topic, message)] }) := by
    cases haccepted : a.accepted with
    | false => exact .inl (by simp [write, haccepted])
    | true => exact .inr (by simp [write, haccepted])
  cases matchReader with
  | false => exact .inr hsend
  | true =>
      cases hcount : a.count with
      | none => exact .inl (by simp [write, hcount])
      | some count =>
          by_cases hle : count ≤ 0
          · exact .inr (.inl (by simp [write, hcount, hle]))
          · have hsame : write topic message true a m = write topic message false a m := by
              simp [write, hcount, hle]
            exact .inr (hsame ▸ hsend)

/-- `WriteMessage` gives up, reads the adapter as one of another type, or comes to `Write`. -/
lemma writeMessage_cases [DecidableEq M] (msg : M) (topic : String) (message : V)
    (matchReader : Bool) (a : WriteAnswers) (m : EasyModel Q M H V) :
    writeMessage msg topic message matchReader a m = (.returned false, m) ∨
      writeMessage msg topic message matchReader a m = (.undefined, m) ∨
      writeMessage msg topic message matchReader a m = write topic message matchReader a m := by
  rw [writeMessage]
  by_cases hquit : m.quit = true
  · exact .inl (if_pos hquit)
  · rw [if_neg hquit]
    cases m.topicAdapterMap topic with
    | none => exact .inl rfl
    | some adapter =>
        by_cases hmsg : adapter.msg ≠ msg
        · exact .inr (.inl (if_pos hmsg))
        · by_cases hwriter : adapter.writer.isNone = true
          · exact .inl ((if_neg hmsg).trans (if_pos hwriter))
          · exact .inr (.inr ((if_neg hmsg).trans (if_neg hwriter)))

/-- A write changes nothing but the record of what was taken. -/
lemma writeMessage_state [DecidableEq M] (msg : M) (topic : String) (message : V)
    (matchReader : Bool) (a : WriteAnswers) (m : EasyModel Q M H V) :
    ∃ w, (writeMessage msg topic message matchReader a m).2 = { m with written := w } := by
  rcases writeMessage_cases msg topic message matchReader a m with h | h | h
  · exact ⟨m.written, by rw [h]⟩
  · exact ⟨m.written, by rw [h]⟩
  · rw [h]
    rcases write_cases topic message matchReader a m with hw | hw | hw
    · exact ⟨m.written, by rw [hw]⟩
    · exact ⟨m.written, by rw [hw]⟩
    · exact ⟨_, by rw [hw]⟩

/-- `DdsWriter::Write`: a reader is matched where one is asked for, and the message is accepted. -/
lemma write_eq_true (topic : String) (message : V) (matchReader : Bool) (a : WriteAnswers)
    (m : EasyModel Q M H V) : (write topic message matchReader a m).1 = .returned true ↔
      (matchReader = true → ∃ count, a.count = some count ∧ 0 < count) ∧ a.accepted = true := by
  cases hacc : a.accepted <;> cases matchReader <;> cases hcount : a.count with
  | none => simp [write, hcount, hacc]
  | some count =>
      simp only [write, hcount, hacc]
      split_ifs <;> simp_all

lemma write_ne_undefined (topic : String) (message : V) (matchReader : Bool) (a : WriteAnswers)
    (m : EasyModel Q M H V) : (write topic message matchReader a m).1 ≠ .undefined := by
  rcases write_cases topic message matchReader a m with h | h | h
  · simp [h]
  · simp [h]
  · simp [h]

lemma Registered.next [DecidableEq M] (h : Registered τ p m) {c : Call M H V} (hc : c.Typed τ) :
    Registered τ p (step m c).2 := by
  cases c with
  | setTopic msg topic role a =>
      obtain rfl : msg = τ topic := hc
      exact h.register topic role a
  | writeMessage msg topic message matchReader a =>
      obtain ⟨w, hw⟩ := writeMessage_state msg topic message matchReader a m
      simp only [step, hw]
      exact ⟨h.parameter, h.owned, h.msg, h.topicQos, h.endpoint⟩
  | quit => exact ⟨h.parameter, h.owned, h.msg, h.topicQos, h.endpoint⟩

lemma Registered.setTopic_defined [DecidableEq M] (h : Registered τ p m) (topic : String)
    (role : Role H) (a : SetAnswers) : (setTopic (τ topic) topic role a m).1 ≠ .undefined := by
  have hmsg : ∀ adapter, (m.opened role.kind topic).topicAdapterMap topic = some adapter →
      adapter.msg = τ topic := by simpa using h.msg topic
  rcases setTopic_cases h.owned (τ topic) topic role a with hcase | hcase
  · simp [hcase]
  · generalize setTopic (τ topic) topic role a m = r at hcase
    cases hcase with
    | miscast hmap hne => exact absurd (hmsg _ hmap) hne
    | _ => simp

lemma Registered.writeMessage_defined [DecidableEq M] (h : Registered τ p m) (topic : String)
    (message : V) (matchReader : Bool) (a : WriteAnswers) :
    (writeMessage (τ topic) topic message matchReader a m).1 ≠ .undefined := by
  rw [writeMessage]
  split_ifs
  · simp
  · cases hmap : m.topicAdapterMap topic with
    | none => simp
    | some adapter =>
        simp only [h.msg topic adapter hmap, ne_eq, not_true_eq_false, if_false]
        split_ifs
        · simp
        · exact write_ne_undefined topic message matchReader a m

lemma registered_after [DecidableEq M] {cs : List (Call M H V)} (hcs : ∀ c ∈ cs, c.Typed τ) :
    Registered τ p (after step (EasyModel.init p) cs) :=
  after_invariant (fun _ _ hc h => h.next hc) registered_init hcs

/-- A `SetTopic` sets the endpoint it is for, if any. -/
lemma Registered.setTopic_endpoint [DecidableEq M] (h : Registered τ p m) (msg : M)
    (topic : String) (role : Role H) (a : SetAnswers) (k : Kind) (topic' : String) :
    (setTopic msg topic role a m).2.endpoint k topic' = m.endpoint k topic' ∨
      (k = role.kind ∧ topic' = topic ∧ m.endpoint k topic' = none) := by
  have hput {adapter : DdsTopicAdapter Q M H} {k' : Kind} {e : Endpoint Q H}
      (hplaced : Placed (m.opened k' topic) msg topic k' e adapter) :
      ((m.opened k' topic).put topic adapter).endpoint k topic' = m.endpoint k topic' ∨
        (k = k' ∧ topic' = topic ∧ m.endpoint k topic' = none) := by
    have habsent := hplaced.absent
    rw [opened_endpoint] at habsent
    rw [endpoint_put, opened_endpoint]
    split_ifs with ht
    · by_cases hk : k = k'
      · subst hk ht
        exact .inr ⟨rfl, rfl, habsent⟩
      · rw [hplaced.other k hk, opened_endpoint, ht]
        exact .inl rfl
    · exact .inl rfl
  have hopened : (m.opened role.kind topic).endpoint k topic' = m.endpoint k topic' := by
    rw [opened_endpoint]
  rcases setTopic_cases h.owned msg topic role a with hcase | hcase
  · rw [hcase]
    exact .inl rfl
  · generalize setTopic msg topic role a m = r at hcase
    cases hcase with
    | refused e => exact .inl hopened
    | miscast _ _ => exact .inl hopened
    | set hplaced => exact hput hplaced
    | deaf hrole hplaced =>
        subst hrole
        exact hput hplaced

/-- An endpoint that is there stays as it is. -/
lemma Registered.endpoint_step [DecidableEq M] (h : Registered τ p m) (c : Call M H V) {k : Kind}
    {topic : String} {e : Endpoint Q H} (he : m.endpoint k topic = some e) :
    (step m c).2.endpoint k topic = some e := by
  cases c with
  | setTopic msg topic' role a =>
      rcases h.setTopic_endpoint msg topic' role a k topic with hsame | ⟨-, -, hnone⟩
      · exact hsame.trans he
      · exact absurd (he.symm.trans hnone) (by simp)
  | writeMessage msg topic' message matchReader a =>
      obtain ⟨w, hw⟩ := writeMessage_state msg topic' message matchReader a m
      simp only [step, hw]
      exact he
  | quit => exact he

/-- A `SetTopic` that returns has set its endpoint. -/
lemma Registered.setTopic_returned [DecidableEq M] (h : Registered τ p m) {msg : M}
    {topic : String} {role : Role H} {a : SetAnswers} {m' : EasyModel Q M H V}
    (hset : setTopic msg topic role a m = (.returned (), m')) :
    ∃ e, m'.endpoint role.kind topic = some e ∧ e.callback = role.callback := by
  rcases setTopic_cases h.owned msg topic role a with hcase | hcase
  · exact absurd (hset.symm.trans hcase) (by simp)
  · rw [hset] at hcase
    cases hcase with
    | set hplaced =>
        exact ⟨_, (endpoint_put ..).trans ((if_pos rfl).trans hplaced.set), rfl⟩

/-- A second `SetTopic` of one kind throws and changes nothing. -/
lemma Registered.setTopic_exists [DecidableEq M] (h : Registered τ p m) {topic : String}
    {role : Role H} {e : Endpoint Q H} (he : m.endpoint role.kind topic = some e)
    (a : SetAnswers) : setTopic (τ topic) topic role a m
      = (.thrown (.common (role.kind.existText ++ topic)), m) := by
  have howner := (h.endpoint _ _ _ he).2
  obtain ⟨adapter, hmap, hend⟩ := Option.bind_eq_some_iff.mp he
  rw [setTopic, getDependence_hasOwner h.owned howner]
  simp [setTopicWith, hmap, h.msg topic adapter hmap, hend]

end

end SbusRemote.Dds
