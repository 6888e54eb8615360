import Mathlib.Data.List.Basic
import Mathlib.Data.Int.Notation
import Mathlib.Logic.Function.Basic

/-!
# `DdsEasyModel`

The registry of topics between the program and the native DDS library: which publisher or
subscriber a topic's endpoint belongs to, when an endpoint is created, and when a message is handed
to the library.

A native call may fail with an exception.  Which of them do is not the program's to decide: each
call of the model carries the answers it gets.  `Q` stands for QoS parameters, `M` for the message
types topics are instantiated with, `H` for reader callbacks and `V` for messages.

* `findEndpoint`, `getDependence` — the configuration's word on a topic, or the default group.
* `setTopic` — both `DdsEasyModel::SetTopic`.
* `writeMessage` — `DdsEasyModel::WriteMessage`, down to `DdsWriter::Write`.
* `step` — one call of a client.
-/

namespace SbusRemote.Dds

variable {Q M H V : Type}

/-! ## The configuration -/

/-- An endpoint writes to its topic or reads from it. -/
inductive Kind where
  | writer
  | reader
  deriving DecidableEq, Repr

/-- `DdsWriterParameter` and `DdsReaderParameter`. -/
structure EndpointParameter (Q : Type) where
  topicName : String
  qos : Q

/-- `DdsPublisherParameter` with its writers, `DdsSubscriberParameter` with its readers. -/
structure GroupParameter (Q : Type) where
  qos : Q
  endpoints : List (EndpointParameter Q)

/-- `DdsParameter`, without the participant's. -/
structure DdsParameter (Q : Type) where
  topic : List (String × Q)
  publisher : List (GroupParameter Q)
  subscriber : List (GroupParameter Q)

def DdsParameter.groups (p : DdsParameter Q) : Kind → List (GroupParameter Q)
  | .writer => p.publisher
  | .reader => p.subscriber

/-- The loops over the groups and their endpoints: the place of the first group with an endpoint for
the topic, and the QoS of the first of these. -/
def findEndpoint (topic : String) : ℕ → List (GroupParameter Q) → Option (ℕ × Q)
  | _, [] => none
  | i, g :: gs =>
      match g.endpoints.find? (·.topicName = topic) with
      | some e => some (i, e.qos)
      | none => findEndpoint topic (i + 1) gs

/-! ## The state -/

/-- `DdsWriter` and `DdsReader`, as they were created: with which publisher or subscriber, where
`none` is the default one, and with which QoS, where `none` is the default too.  A reader hears if
its listener could be set. -/
structure Endpoint (Q H : Type) where
  owner : Option ℕ
  qos : Option Q
  callback : Option H
  deriving DecidableEq

/-- `DdsTopicAdapter<MSG>`. -/
structure DdsTopicAdapter (Q M H : Type) where
  msg : M
  topicQos : Option Q
  writer : Option (Endpoint Q H)
  reader : Option (Endpoint Q H)
  deriving DecidableEq

def DdsTopicAdapter.endpoint (adapter : DdsTopicAdapter Q M H) : Kind → Option (Endpoint Q H)
  | .writer => adapter.writer
  | .reader => adapter.reader

/-- `DdsEasyModel`, with the messages the native library has taken. -/
structure EasyModel (Q M H V : Type) where
  quit : Bool
  parameter : DdsParameter Q
  /-- `mPublisher` and `mSubscriber`. -/
  owners : Kind → List Q
  /-- `mDefaultPublisher` and `mDefaultSubscriber` are not `NULL`. -/
  hasDefault : Kind → Bool
  topicAdapterMap : String → Option (DdsTopicAdapter Q M H)
  written : List (String × V)

/-- The model that `Init` leaves: a publisher and a subscriber for each in the configuration. -/
def EasyModel.init (p : DdsParameter Q) : EasyModel Q M H V where
  quit := false
  parameter := p
  owners k := (p.groups k).map (·.qos)
  hasDefault _ := false
  topicAdapterMap _ := none
  written := []

/-- The endpoint a topic has. -/
def EasyModel.endpoint (m : EasyModel Q M H V) (k : Kind) (topic : String) :
    Option (Endpoint Q H) :=
  (m.topicAdapterMap topic).bind (·.endpoint k)

/-- `mTopicAdapterMap[topic] = adapter`. -/
def EasyModel.put (topic : String) (adapter : DdsTopicAdapter Q M H) (m : EasyModel Q M H V) :
    EasyModel Q M H V :=
  { m with topicAdapterMap := Function.update m.topicAdapterMap topic (some adapter) }

/-! ## Calls -/

/-- What leaves a function of the model by exception. -/
inductive Thrown where
  /-- `DdsException`. -/
  | dds
  /-- An exception of the native library. -/
  | native
  /-- `CommonException`. -/
  | common (what : String)
  deriving DecidableEq, Repr

/-- How a call ends.  An adapter that is cast to another message type and a vector that is read
beyond its end leave the behaviour undefined. -/
inductive Result (α : Type) where
  | returned (a : α)
  | thrown (e : Thrown)
  | undefined
  deriving DecidableEq, Repr

/-- Which native calls of a `SetTopic` succeed, if they are made. -/
structure SetAnswers where
  owner : Bool
  topic : Bool
  endpoint : Bool
  listener : Bool
  deriving DecidableEq, Repr

/-- `current_count()` of the writer's matched status, unless asking for it fails, and whether the
native write succeeds. -/
structure WriteAnswers where
  count : Option ℤ
  accepted : Bool
  deriving DecidableEq, Repr

/-- `GetDefaultPublisher` and `GetDefaultSubscriber`. -/
def getDefault (k : Kind) (granted : Bool) (m : EasyModel Q M H V) :
    Result (Option ℕ × Option Q) × EasyModel Q M H V :=
  if m.hasDefault k then (.returned (none, none), m)
  else if granted then
    (.returned (none, none), { m with hasDefault := Function.update m.hasDefault k true })
  else (.thrown .dds, m)

/-- `GetWriterDependence` and `GetReaderDependence`.  `Realize` makes native policies of a QoS, and
their constructors may throw before anything else happens: that is left out, a QoS of the
configuration is one the native library knows. -/
def getDependence (k : Kind) (topic : String) (granted : Bool) (m : EasyModel Q M H V) :
    Result (Option ℕ × Option Q) × EasyModel Q M H V :=
  match findEndpoint topic 0 (m.parameter.groups k) with
  | some (i, qos) =>
      if i < (m.owners k).length then (.returned (some i, some qos), m) else (.undefined, m)
  | none => getDefault k granted m

/-- `GetTopicDependence`. -/
def getTopicDependence (topic : String) (m : EasyModel Q M H V) : Option Q :=
  (m.parameter.topic.find? (·.1 = topic)).map (·.2)

/-- What `SetTopic` is called for: a writer, or a reader with its callback. -/
inductive Role (H : Type) where
  | writer
  | reader (rcb : H)
  deriving DecidableEq, Repr

def Role.kind : Role H → Kind
  | .writer => .writer
  | .reader _ => .reader

/-- `DdsTopicAdapter::SetWriter` and `DdsTopicAdapter::SetReader`. -/
def DdsTopicAdapter.setEndpoint (role : Role H) (dep : Option ℕ × Option Q) (a : SetAnswers)
    (adapter : DdsTopicAdapter Q M H) : Result Unit × DdsTopicAdapter Q M H :=
  if !a.endpoint then (.thrown .dds, adapter)
  else match role with
    | .writer => (.returned (), { adapter with writer := some ⟨dep.1, dep.2, none⟩ })
    | .reader rcb =>
        -- the reader is there before its listener is set
        if a.listener then
          (.returned (), { adapter with reader := some ⟨dep.1, dep.2, some rcb⟩ })
        else (.thrown .native, { adapter with reader := some ⟨dep.1, dep.2, none⟩ })

/-- The text of the exception for a topic that has its endpoint already. -/
def Kind.existText : Kind → String
  | .writer => "topic writer is already exist. topic:"
  | .reader => "topic reader is alreay exist. topic:"

/-- `SetTopic`, once it knows what the endpoint depends on. -/
def setTopicWith [DecidableEq M] (msg : M) (topic : String) (role : Role H) (a : SetAnswers)
    (dep : Option ℕ × Option Q) (m : EasyModel Q M H V) : Result Unit × EasyModel Q M H V :=
  match m.topicAdapterMap topic with
  | none =>
      if !a.topic then (.thrown .dds, m)
      else
        match DdsTopicAdapter.setEndpoint role dep a
            ⟨msg, getTopicDependence topic m, none, none⟩ with
        | (.returned (), adapter) => (.returned (), m.put topic adapter)
        | (r, _) => (r, m)
  | some adapter =>
      if adapter.msg ≠ msg then (.undefined, m)
      else if (adapter.endpoint role.kind).isSome then
        (.thrown (.common (role.kind.existText ++ topic)), m)
      else
        let r := adapter.setEndpoint role dep a
        (r.1, m.put topic r.2)

/-- `SetTopic`. -/
def setTopic [DecidableEq M] (msg : M) (topic : String) (role : Role H) (a : SetAnswers)
    (m : EasyModel Q M H V) : Result Unit × EasyModel Q M H V :=
  match getDependence role.kind topic a.owner m with
  | (.returned dep, m) => setTopicWith msg topic role a dep m
  | (.thrown e, m) => (.thrown e, m)
  | (.undefined, m) => (.undefined, m)

/-- `DdsWriter::Write`. -/
def write (topic : String) (message : V) (matchReader : Bool) (a : WriteAnswers)
    (m : EasyModel Q M H V) : Result Bool × EasyModel Q M H V :=
  let send := if a.accepted then
      (.returned true, { m with written := m.written ++ [(topic, message)] })
    else (.returned false, m)
  if matchReader then
    match a.count with
    | none => (.thrown .native, m)
    | some count => if count ≤ 0 then (.returned false, m) else send
  else send

/-- `WriteMessage`. -/
def writeMessage [DecidableEq M] (msg : M) (topic : String) (message : V) (matchReader : Bool)
    (a : WriteAnswers) (m : EasyModel Q M H V) : Result Bool × EasyModel Q M H V :=
  if m.quit then (.returned false, m)
  else
    match m.topicAdapterMap topic with
    | none => (.returned false, m)
    | some adapter =>
        if adapter.msg ≠ msg then (.undefined, m)
        else if adapter.writer.isNone then (.returned false, m)
        else write topic message matchReader a m

/-- A call, with the answers it gets from the native library.  `quit` is what the destructor does
first. -/
inductive Call (M H V : Type) where
  | setTopic (msg : M) (topic : String) (role : Role H) (a : SetAnswers)
  | writeMessage (msg : M) (topic : String) (message : V) (matchReader : Bool) (a : WriteAnswers)
  | quit

/-- The result of a call: `WriteMessage` returns a value. -/
def Result.map {α β : Type} (f : α → β) : Result α → Result β
  | .returned a => .returned (f a)
  | .thrown e => .thrown e
  | .undefined => .undefined

@[simp] lemma Result.map_eq_undefined {α β : Type} (f : α → β) (r : Result α) :
    r.map f = .undefined ↔ r = .undefined := by
  cases r <;> simp [Result.map]

def step [DecidableEq M] (m : EasyModel Q M H V) :
    Call M H V → Result (Option Bool) × EasyModel Q M H V
  | .setTopic msg topic role a =>
      let r := setTopic msg topic role a m
      (r.1.map fun _ => none, r.2)
  | .writeMessage msg topic message matchReader a =>
      let r := writeMessage msg topic message matchReader a m
      (r.1.map some, r.2)
  | .quit => (.returned none, { m with quit := true })

end SbusRemote.Dds
