import AxSentinel.Brokers
import AxSentinel.JsonText
import AxSentinel.Publications

/-! # The event publisher

`EventPublisher` of `shared/events.py`: an envelope is built, dumped, and sent to Kafka, to SQS and
to SNS, as the settings say, in that order.  What both consumers make of its text is the envelope
again: `parse_event_message` of an SQS message with it, and the deserializer and
`EventEnvelope.model_validate` of the Kafka worker (`parse_written`, `modelValidate_written`). -/
namespace AxSentinel
open Effects Messaging
open Python (Json Str)

/-! ## The publisher -/

/-- The event buses the constructor accepts. -/
inductive EventBus where
  | disabled | kafka | sqs | dual
deriving DecidableEq

namespace EventBus

/-- The check of the constructor. -/
def ofString : String → Except Exc EventBus
  | "disabled" => .ok disabled
  | "kafka" => .ok kafka
  | "sqs" => .ok sqs
  | "dual" => .ok dual
  | eventBus => .error (.other "ValueError" ("Unsupported event bus: " ++ eventBus))

/-- `self._event_bus in {"kafka", "dual"}`. -/
def usesKafka (bus : EventBus) : Bool := bus = kafka || bus = dual

/-- `self._event_bus in {"sqs", "dual"}`. -/
def usesSqs (bus : EventBus) : Bool := bus = sqs || bus = dual

end EventBus

/-- `KAFKA_TOPICS`, the topics a Kafka worker subscribes to. -/
def kafkaTopics : List String :=
  (topicByPrefix.map Prod.snd ++ ["ax.audit.events.v1"]).eraseDups

/-- Every event goes to a topic the workers subscribe to, which is not the dead-letter topic. -/
theorem topicFor_subscribed (eventType : String) :
    topicFor eventType ∈ kafkaTopics ∧ topicFor eventType ≠ kafkaDlqTopic := by
  have hall : ∀ entry ∈ topicByPrefix, entry.2 ∈ kafkaTopics ∧ entry.2 ≠ kafkaDlqTopic := by decide
  unfold topicFor
  split
  · rename_i entry hfind
    exact hall entry (List.mem_of_find?_eq_some hfind)
  · decide

/-- How the runtime writes what `Runtime` reads. -/
structure Printer where
  /-- `json.dumps(value, ensure_ascii=False, separators=(",", ":"))` of a value without lone
  surrogates. -/
  dumps : Json → String

/-- The text of a message, as a client encodes it. -/
def Printer.message (printer : Printer) (value : Json) : Except Exc String := do
  encode value
  pure (printer.dumps value)

/-- An `EventPublisher`; `client` tells it from the publishers of other services. -/
structure EventPublisher where
  client : Nat
  serviceName : String
  eventBus : EventBus
  queueName : String
  topicName : String

/-- The arguments of `publish`. -/
structure PublishCall where
  eventType : String
  payload : List (Str × Json)
  key : Option String
  actorId : Option String
  correlationId : Option String
  causationId : Option String
  alert : Bool

/-- An envelope with a dictionary as its payload. -/
abbrev Envelope := EventEnvelope (List (Str × Json))

namespace EventPublisher
variable (rt : Runtime) (printer : Printer) (publisher : EventPublisher) (call : PublishCall)

/-- `EventEnvelope(...)`, whose type and payload are validated. -/
def envelope (eventId : Str) (occurredAt : Instant) (correlationId : Str) :
    Except Exc Envelope := do
  let eventType ← EventEnvelope.field (Field.text 1 200 (.text call.eventType))
  let payload ← EventEnvelope.field (Field.dict (.dict call.payload))
  pure
    { eventId, eventType, occurredAt, correlationId, payload
      eventVersion := 1
      producer := .text publisher.serviceName
      causationId := call.causationId.map .text
      actorId := call.actorId.map .text }

end EventPublisher

/-- `envelope.model_dump(mode="json")`. -/
def EventEnvelope.modelDump (rt : Runtime) (envelope : Envelope) : Except Exc Json := do
  let payload ← rt.dump (.dict envelope.payload)
  pure ((envelope.withPayload payload).toDict rt)

namespace EventPublisher
variable (rt : Runtime) (printer : Printer) (publisher : EventPublisher) (call : PublishCall)

/-- The message key. -/
def messageKey (envelope : Envelope) : Except Exc String :=
  let key : Str := match call.key.filter (· ≠ "") with
    | some key => .text key
    | none =>
        rt.str ((["incident_id", "equipment_id", "id"].findSome? fun name =>
          ((Json.dict call.payload).get? name).filter Json.truthy).getD (.str envelope.eventId))
  match key.text? with
  | some key => .ok key
  | none => .error (.other "UnicodeEncodeError" "'utf-8' codec can't encode the key")

/-- `correlation_id or str(uuid4())`. -/
def correlationId : Messaging String :=
  match call.correlationId.filter (· ≠ "") with
  | some correlationId => pure correlationId
  | none => run .uuid4

/-- The Kafka part of `publish`; the serializers of the producer encode the key and the value. -/
def publishKafka (envelope : Envelope) (message : Except Exc String) : Messaging Unit := do
  let key ← Program.ofExcept (messageKey rt call envelope)
  let value ← Program.ofExcept message
  run (.kafkaSend ⟨topicFor call.eventType, key, value,
    [("event_type", call.eventType), ("event_version", "1")]⟩)

/-- The SQS part of `publish`.  Neither SQS nor SNS takes a text without an encoding; with which
exception it is refused is left to the client. -/
def publishSqs (message : Except Exc String) : Messaging Unit := do
  let known ← run (.queueUrl publisher.client)
  let url ← match known with
    | some url => pure url
    | none => do
        let url ← run (.getQueueUrl publisher.queueName)
        run (.setQueueUrl publisher.client url)
        pure url
  let body ← Program.ofExcept message
  run (.sendMessage url body)

/-- The SNS part of `publish`. -/
def publishAlert (message : Except Exc String) : Messaging Unit := do
  let known ← run (.topicArn publisher.client)
  let arn ← match known with
    | some arn => pure arn
    | none => do
        let topics ← run .listTopics
        match topics.find? fun arn => Python.afterLast arn ':' = publisher.topicName with
        | none => throw (.other "RuntimeError" ("SNS topic not found: " ++ publisher.topicName))
        | some arn => do
            run (.setTopicArn publisher.client arn)
            pure arn
  let message ← Program.ofExcept message
  run (.snsPublish ⟨arn, "AX Sentinel: " ++ call.eventType, message⟩)

/-- `publish`. -/
def publish : Messaging Envelope := do
  let correlationId ← correlationId call
  let eventId ← run .uuid4
  let occurredAt ← now
  let envelope ← Program.ofExcept
    (publisher.envelope call (.text eventId) occurredAt (.text correlationId))
  let serialized ← Program.ofExcept (envelope.modelDump rt)
  let message := printer.message serialized
  (if publisher.eventBus.usesKafka then publishKafka rt call envelope message else pure ())
  (if publisher.eventBus.usesSqs then publisher.publishSqs message else pure ())
  (if call.alert && publisher.eventBus ≠ .disabled then publisher.publishAlert call message
    else pure ())
  pure envelope

end EventPublisher

/-! ## What the consumers read -/

/-- What is documented of the runtime and the packages, as far as writing and reading go:
`json.loads` reads what `json.dumps` wrote, Pydantic reads an integer as itself and a time as the
one that was dumped, and a JSON-mode dump of a dictionary is a dictionary, with no key twice. -/
structure Printer.Faithful (rt : Runtime) (printer : Printer) : Prop where
  loads : ∀ value, Json.Clean value → rt.jsonLoads (printer.dumps value) = .ok value
  parseInt : ∀ n, rt.parseInt (.int n) = some n
  parseDatetime : ∀ t, rt.parseDatetime (.text (rt.dumpInstant t)) = some t
  dump : ∀ fields value, rt.dump (.dict fields) = .ok value →
    ∃ fields', value = .dict fields' ∧ value.keyed = true

/-- The dictionary of an envelope whose payload is dumped as the dictionary `dumped`. -/
def Envelope.document (rt : Runtime) (envelope : Envelope) (dumped : List (Str × Json)) : Json :=
  (envelope.withPayload (Json.dict dumped)).toDict rt

/-- Its text. -/
def Envelope.written (rt : Runtime) (printer : Printer) (envelope : Envelope)
    (dumped : List (Str × Json)) : String :=
  printer.dumps (envelope.document rt dumped)

section Written
variable {rt : Runtime} {printer : Printer} (envelope : Envelope) {dumped : List (Str × Json)}

/-- An envelope whose payload has no key twice is clean, where it has an encoding. -/
theorem Envelope.clean_document (hkeyed : (Json.dict dumped).keyed = true)
    (hencodable : (envelope.document rt dumped).encodable = true) :
    (envelope.document rt dumped).Clean := by
  have hoptional : ∀ s : Option Str, (s.elim .null .str : Json).keyed = true := by
    rintro (_ | s) <;> rfl
  refine Json.clean_of ?_ hencodable
  have hnames : List.Nodup [Str.text "event_id", .text "event_type", .text "event_version",
    .text "occurred_at", .text "producer", .text "correlation_id", .text "causation_id",
    .text "actor_id", .text "payload"] := by decide
  simpa [Envelope.document, EventEnvelope.toDict, EventEnvelope.withPayload, Json.keyed,
    Json.keyedFields, hoptional] using hkeyed

/-- What is absent of an envelope's dictionary when it is read: nothing. -/
theorem EnvelopeFields.read_document (h : printer.Faithful rt) :
    EnvelopeFields.read rt (envelope.document rt dumped) =
      some ⟨some envelope.eventId, envelope.eventType, some envelope.eventVersion,
        some envelope.occurredAt, envelope.producer, some envelope.correlationId,
        some envelope.causationId, some envelope.actorId, dumped⟩ := by
  have htype : Field.text 1 200 (.text envelope.eventType) = some envelope.eventType := by
    obtain ⟨text, hbounds⟩ := envelope.eventType
    simp [Field.text, Field.str, Str.text?, hbounds]
  have hoptional : ∀ s : Option Str, Field.strOrNone (s.elim .null .str) = some s := by
    rintro (_ | s) <;> rfl
  have hdict : Field.dict (.dict dumped) = some dumped := rfl
  have hstr : ∀ s : Str, Field.str (.str s) = some s := fun _ => rfl
  generalize hvalue : envelope.document rt dumped = value
  have hobject : isDict value = true := hvalue ▸ rfl
  have hid : value.get? "event_id" = some (.str envelope.eventId) := hvalue ▸ rfl
  have htype' : value.get? "event_type" = some (.text envelope.eventType) := hvalue ▸ rfl
  have hversion : value.get? "event_version" = some (.int envelope.eventVersion) := hvalue ▸ rfl
  have htime : value.get? "occurred_at" = some (.text (rt.dumpInstant envelope.occurredAt)) :=
    hvalue ▸ rfl
  have hproducer : value.get? "producer" = some (.str envelope.producer) := hvalue ▸ rfl
  have hcorrelation : value.get? "correlation_id" = some (.str envelope.correlationId) :=
    hvalue ▸ rfl
  have hcausation : value.get? "causation_id" =
      some (envelope.causationId.elim .null .str) := hvalue ▸ rfl
  have hactor : value.get? "actor_id" = some (envelope.actorId.elim .null .str) :=
    hvalue ▸ rfl
  have hpayload : value.get? "payload" = some (.dict dumped) := hvalue ▸ rfl
  simp [EnvelopeFields.read, hobject, hid, htype', hversion, htime, hproducer, hcorrelation,
    hcausation, hactor, hpayload, guard, Field.required, Field.defaulted, htype, hoptional, hdict,
    hstr, h.parseInt, h.parseDatetime]

/-- The envelope it is completed to, whatever the default factories would draw. -/
theorem EnvelopeFields.complete_written (fresh : EnvelopeDefaults) :
    EnvelopeFields.complete ⟨some envelope.eventId, envelope.eventType, some envelope.eventVersion,
        some envelope.occurredAt, envelope.producer, some envelope.correlationId,
        some envelope.causationId, some envelope.actorId, dumped⟩ fresh =
      envelope.withPayload dumped := rfl

/-- Neither name that would be set is missing. -/
theorem patch_document (message : SqsMessage) :
    patch message (envelope.document rt dumped) = .ok (envelope.document rt dumped) := by
  have hproducer : contains (envelope.document rt dumped) "producer" = .ok true := rfl
  have hid : contains (envelope.document rt dumped) "event_id" = .ok true := rfl
  unfold patch setMissing
  cases message.id? with
  | none => simp [hproducer, hid, bind, Except.bind, pure, Except.pure]
  | some id => simp [hproducer, hid, bind, Except.bind, pure, Except.pure]

/-- **The SQS consumer reads what was written.** -/
theorem parse_written (h : printer.Faithful rt) (hclean : (envelope.document rt dumped).Clean)
    (readInt : String → Option Int) (fresh : EnvelopeDefaults) (messageId : Option String)
    (count : String) (receiveCount : Int) (hcount : readInt count = some receiveCount) :
    parseEventMessage rt readInt fresh
      ⟨some (envelope.written rt printer dumped), messageId, some count⟩ =
        .ok (envelope.withPayload dumped, receiveCount) := by
  have hloads : rt.jsonLoads (envelope.written rt printer dumped) =
      .ok (envelope.document rt dumped) := h.loads _ hclean
  have hread : EnvelopeFields.read rt (envelope.document rt dumped) = _ :=
    EnvelopeFields.read_document envelope h
  simp [parseEventMessage, parseEnvelope, hloads, patch_document, EnvelopeFields.validate, hread,
    EnvelopeFields.complete_written, hcount, bind, Except.bind, pure, Except.pure, tryCatch,
    tryCatchThe, MonadExceptOf.tryCatch, Except.tryCatch]

/-- **The Kafka consumer reads what was written**, and draws no default. -/
theorem modelValidate_written (h : printer.Faithful rt)
    (hclean : (envelope.document rt dumped).Clean) :
    ∃ value, deserialize rt (some (envelope.written rt printer dumped).toUTF8) = .ok value ∧
      EventEnvelope.modelValidate rt value = pure (envelope.withPayload dumped) := by
  have hutf8 : String.fromUTF8? (envelope.written rt printer dumped).toUTF8 =
      some (envelope.written rt printer dumped) :=
    dif_pos (envelope.written rt printer dumped).isValidUTF8
  refine ⟨envelope.document rt dumped, ?_, ?_⟩
  · simp only [deserialize, hutf8]
    exact h.loads _ hclean
  · unfold EventEnvelope.modelValidate EnvelopeFields.validate
    rw [EnvelopeFields.read_document envelope h]
    rfl

end Written
end AxSentinel
