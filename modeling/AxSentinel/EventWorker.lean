import AxSentinel.Events
import AxSentinel.Service

/-! # The Kafka event worker

`KafkaEventWorker` of `services/event_worker/app/main.py`, as a program over its
repository, the consumer and the dead-letter producer.

Of the Kafka client the model has what the worker relies on: `poll` returns records
from the position of each partition on and moves the position past them, or raises and
moves nothing; `seek` sets a position, `commit` commits all of them. -/
namespace AxSentinel
open Effects
open Python (Json Str)

structure ProcessedEvent where
  id : Str
  eventType : String
  result : String
  payload : List (Str × Json)
  receiveCount : Int
  processedAt : Instant
  broker : String
  topic : Option String
  partition : Option Nat
  offset : Option Nat
  producer : Option Str
  correlationId : Option Str

structure TopicPartition where
  topic : String
  partition : Nat
deriving DecidableEq

/-- A record as it stands in the log. -/
structure RawRecord where
  key : Option ByteArray
  value : Option ByteArray

/-- The records of each partition by their offsets; an offset need not have one. -/
abbrev Log := TopicPartition → Nat → Option RawRecord

/-- A record as `poll` returns it. -/
structure Record where
  topic : String
  partition : Nat
  offset : Nat
  key : Option ByteArray
  value : Json

/-- `TopicPartition(record.topic, record.partition)`. -/
def Record.topicPartition (record : Record) : TopicPartition := ⟨record.topic, record.partition⟩

/-- The payload of a dead-letter message. -/
structure DeadLetterPayload where
  sourceTopic : String
  sourcePartition : Nat
  sourceOffset : Nat
  originalKey : Option String
  originalValue : Json
  errorType : String
  errorMessage : String
  attempts : Nat

/-- The payload as a dictionary. -/
def DeadLetterPayload.toDict (payload : DeadLetterPayload) : List (Str × Json) :=
  [(.text "source_topic", .text payload.sourceTopic),
    (.text "source_partition", .int payload.sourcePartition),
    (.text "source_offset", .int payload.sourceOffset),
    (.text "original_key", payload.originalKey.elim .null .text),
    (.text "original_value", payload.originalValue),
    (.text "error_type", .text payload.errorType),
    (.text "error_message", .text payload.errorMessage),
    (.text "attempts", .int payload.attempts)]

abbrev DeadLetter := EventEnvelope DeadLetterPayload

/-! ## Operations -/

/-- The key of `_attempts`: topic, partition and offset. -/
abbrev RecordKey := String × Nat × Nat

/-- What the worker does besides its table operations.  The attempt counters are its
own; `countProcessed` is the counter of processed events. -/
inductive WorkerOp where
  | poll
  | seek (topicPartition : TopicPartition) (offset : Nat)
  | commit
  | send (topic key : String) (value : DeadLetter)
  | getAttempts (key : RecordKey)
  | setAttempts (key : RecordKey) (attempts : Nat)
  | popAttempts (key : RecordKey)
  | countProcessed (eventType result : String)
  | uuid4
  | sleep (seconds : Nat)

/-- The batches of records by partition. -/
abbrev Batches := List (TopicPartition × List Record)

abbrev kafkaOps : Signature Exc where
  Op := WorkerOp
  Reply
    | .poll => Batches
    | .seek .. => Unit
    | .commit => Unit
    | .send .. => Unit
    | .getAttempts _ => Option Nat
    | .setAttempts .. => Unit
    | .popAttempts _ => Unit
    | .countProcessed .. => Unit
    | .uuid4 => String
    | .sleep _ => Unit

/-- What the worker acts on besides its table. -/
structure WorkerWorld where
  positions : TopicPartition → Nat
  committed : TopicPartition → Nat
  attempts : RecordKey → Option Nat
  deadLetters : List (String × DeadLetter)
  processed : List (String × String)
  uuids : UuidSupply
  issued : Nat

/-- The partitions a poll fetches from, and how many offsets of each. -/
abbrev Fetch := {plan : List (TopicPartition × Nat) // (plan.map Prod.fst).Nodup}

section Kafka
variable (rt : Runtime) (log : Log)

/-- The `value_deserializer`. -/
def deserialize : Option ByteArray → Except Exc Json
  | none => .error (.other "AttributeError" "'NoneType' object has no attribute 'decode'")
  | some bytes =>
      match String.fromUTF8? bytes with
      | none => .error (.other "UnicodeDecodeError" "'utf-8' codec can't decode the value")
      | some text => rt.jsonLoads text

/-- The records of a partition at the `n` offsets from `offset` on. -/
def recordsFrom (tp : TopicPartition) : Nat → Nat → Except Exc (List Record)
  | _, 0 => .ok []
  | offset, n + 1 =>
      match log tp offset with
      | none => recordsFrom tp (offset + 1) n
      | some raw => do
          let value ← deserialize rt raw.value
          let records ← recordsFrom tp (offset + 1) n
          pure (⟨tp.topic, tp.partition, offset, raw.key, value⟩ :: records)

/-- The batches a poll returns. -/
def fetchBatches (positions : TopicPartition → Nat) :
    List (TopicPartition × Nat) → Except Exc Batches
  | [] => .ok []
  | (tp, n) :: plan => do
      let records ← recordsFrom rt log tp (positions tp) n
      let batches ← fetchBatches positions plan
      pure ((tp, records) :: batches)

/-- The positions past what a poll fetched. -/
def advance (positions : TopicPartition → Nat) :
    List (TopicPartition × Nat) → TopicPartition → Nat
  | [], tp => positions tp
  | (tp', n) :: plan, tp => if tp = tp' then positions tp + n else advance positions plan tp

/-- The operations of the worker.  A poll may fail, or fetch from any partitions. -/
abbrev kafkaMachine : Machine kafkaOps where
  World := WorkerWorld
  Choice := Except Exc Fetch
  exec
    | .poll, .error e, w => (.error e, w)
    | .poll, .ok plan, w =>
        match fetchBatches rt log w.positions plan with
        | .error e => (.error e, w)
        | .ok batches => (.ok batches, { w with positions := advance w.positions plan })
    | .seek tp offset, _, w =>
        (.ok (), { w with positions := Function.update w.positions tp offset })
    | .commit, _, w => (.ok (), { w with committed := w.positions })
    | .send _ key value, _, w => (.ok (), { w with deadLetters := w.deadLetters ++ [(key, value)] })
    | .getAttempts key, _, w => (.ok (w.attempts key), w)
    | .setAttempts key attempts, _, w =>
        (.ok (), { w with attempts := Function.update w.attempts key (some attempts) })
    | .popAttempts key, _, w => (.ok (), { w with attempts := Function.update w.attempts key none })
    | .countProcessed eventType result, _, w =>
        (.ok (), { w with processed := w.processed ++ [(eventType, result)] })
    | .uuid4, _, w => (.ok (w.uuids.draw w.issued), { w with issued := w.issued + 1 })
    | .sleep _, _, w => (.ok (), w)

end Kafka

/-- The operations of the worker. -/
abbrev workerOps : Signature Exc := (storeOps ProcessedEvent).sum kafkaOps

/-- The worker's table and clients, when they accept everything. -/
abbrev workingKafka (rt : Runtime) (log : Log) : Machine workerOps :=
  (storeMachine ProcessedEvent).sum (kafkaMachine rt log)

/-- The operations that leave the process, and so may fail; how a poll fails is part of
its own outcomes. -/
def mayRaise : workerOps.Op → Exc → Bool
  | .inl .now, _ => false
  | .inl _, _ => true
  | .inr (.seek ..), _ => true
  | .inr .commit, _ => true
  | .inr (.send ..), _ => true
  | .inr _, _ => false

/-- The exceptions a run of the worker has to expect: all that may be raised, or none. -/
inductive Faults where
  | any | none

def Faults.raises : Faults → workerOps.Op → Exc → Bool
  | any => mayRaise
  | none => fun _ _ => false

/-- The worker's world. -/
abbrev kafka (rt : Runtime) (log : Log) (faults : Faults) : Machine workerOps :=
  (workingKafka rt log).faulty faults.raises

instance (rt : Runtime) (log : Log) : Inhabited (workingKafka rt log).Choice :=
  ⟨(0, .ok ⟨[], .nil⟩)⟩

instance (rt : Runtime) (log : Log) (faults : Faults) : Inhabited (kafka rt log faults).Choice :=
  ⟨(default, .none)⟩

abbrev Worker (α : Type) := Program workerOps α

namespace Worker

/-- `self._repository.get`. -/
abbrev get (entityType : EntityType) (entityId : String) : Worker (Option ProcessedEvent) :=
  (DynamoRepository.get entityType entityId).left

/-- `self._repository.put`. -/
abbrev put (entityType : EntityType) (entityId : String) (value : ProcessedEvent) : Worker Unit :=
  (DynamoRepository.put entityType entityId value).left

/-- `datetime.now(UTC)`. -/
def now : Worker Instant := .perform workerOps (.inl .now)

/-- An operation of the Kafka clients or of the process. -/
def run (op : WorkerOp) : Worker (kafkaOps.Reply op) := .perform workerOps (.inr op)

/-- `str(uuid4())`. -/
def uuid4 : Worker String := run .uuid4

end Worker

/-! ## The worker -/

open Worker

/-- The worker, as its constructor leaves it: at least one attempt is made. -/
structure KafkaEventWorker where
  runtime : Runtime
  maxProcessingAttempts : Nat
  one_le : 1 ≤ maxProcessingAttempts

/-- `KafkaEventWorker.__init__`. -/
def KafkaEventWorker.init (runtime : Runtime) (maxProcessingAttempts : Int) : KafkaEventWorker where
  runtime := runtime
  maxProcessingAttempts := (max 1 maxProcessingAttempts).toNat
  one_le := by omega

/-- `type(error).__name__`. -/
def Exc.className : Exc → String
  | httpException .. => "HTTPException"
  | httpStatusError _ => "HTTPStatusError"
  | clientError _ => "ClientError"
  | concurrentUpdateError _ => "ConcurrentUpdateError"
  | validationError _ => "ValidationError"
  | other name _ => name

/-- Whether `except (ValueError, ValidationError)` handles the exception. -/
def Exc.isValueError : Exc → Bool
  | validationError _ => true
  | other name _ => name ∈ ["ValueError", "UnicodeDecodeError", "UnicodeEncodeError",
      "JSONDecodeError", "PydanticSerializationError"]
  | _ => false

/-- The default of a field that validation found absent. -/
def EnvelopeFields.default {α : Type} (field : Option α) (factory : Worker α) : Worker α :=
  match field with
  | some value => pure value
  | none => factory

/-- `EventEnvelope.model_validate`. -/
def EventEnvelope.modelValidate (rt : Runtime) (value : Json) :
    Worker (EventEnvelope (List (Str × Json))) := do
  let fields ← Program.ofExcept (EnvelopeFields.validate rt value)
  let eventId ← EnvelopeFields.default fields.eventId (.text <$> uuid4)
  let occurredAt ← EnvelopeFields.default fields.occurredAt now
  let correlationId ← EnvelopeFields.default fields.correlationId (.text <$> uuid4)
  pure
    { eventId, occurredAt, correlationId
      eventType := fields.eventType
      eventVersion := fields.eventVersion.getD 1
      producer := fields.producer
      causationId := fields.causationId.join
      actorId := fields.actorId.join
      payload := fields.payload }

/-- `f"dlq-{record.topic}-{record.partition}-{record.offset}"`. -/
def deadLetterId (tp : TopicPartition) (offset : Nat) : String :=
  "dlq-" ++ tp.topic ++ "-" ++ toString tp.partition ++ "-" ++ toString offset

/-- The key of a record's attempts. -/
def Record.attemptsKey (record : Record) : RecordKey :=
  (record.topic, record.partition, record.offset)

/-- `str(value)`. -/
def Runtime.str (rt : Runtime) : Json → Str
  | .str s => s
  | value => .text (rt.repr value)

/-- A field of an envelope that is being built; an invalid one raises. -/
def EventEnvelope.field {α : Type} (field : Option α) : Except Exc α :=
  match field with
  | some value => .ok value
  | none => .error (.validationError "EventEnvelope")

namespace KafkaEventWorker
variable (worker : KafkaEventWorker)

/-- The event `process_record` stores. -/
def processedEvent (record : Record) (envelope : EventEnvelope (List (Str × Json)))
    (result : String) (processedAt : Instant) : ProcessedEvent where
  id := envelope.eventId
  eventType := envelope.eventType
  result := result
  payload := envelope.payload
  receiveCount := 1
  processedAt := processedAt
  broker := "kafka"
  topic := some record.topic
  partition := some record.partition
  offset := some record.offset
  producer := some envelope.producer
  correlationId := some envelope.correlationId

/-- `process_record`. -/
def processRecord (record : Record) : Worker Unit := do
  let envelope ← EventEnvelope.modelValidate worker.runtime record.value
  let id := worker.runtime.entityId envelope.eventId
  let existing ← get .processedEvent id
  let result := if existing.isSome then "duplicate" else "processed"
  if existing.isNone then
    let processedAt ← now
    put .processedEvent id (processedEvent record envelope result processedAt)
  run (.countProcessed envelope.eventType result)

/-- The `correlation_id` of a dead-letter message. -/
def correlationId (original : Json) : Worker Str :=
  match original.get? "correlation_id" with
  | some value =>
      if value.truthy then pure (worker.runtime.str value)
      else do
        let id ← uuid4
        pure (.text id)
  | none => do
      let id ← uuid4
      pure (.text id)

/-- The dead-letter message for a record, from its fields and the dump of the original. -/
def deadLetterOf (record : Record) (error : Exc) (attempts : Nat) (eventId : String)
    (correlationId : Str) (causationId : Option Str) (occurredAt : Instant) (originalValue : Json) :
    DeadLetter where
  eventId := .text eventId
  eventType := ⟨"event.processing_failed", by decide⟩
  eventVersion := 1
  occurredAt := occurredAt
  producer := .text "event-worker"
  correlationId := correlationId
  causationId := causationId
  actorId := none
  payload :=
    { sourceTopic := record.topic
      sourcePartition := record.partition
      sourceOffset := record.offset
      originalKey := record.key.map Python.decodeReplace
      originalValue := originalValue
      errorType := error.className
      errorMessage := String.ofList ((worker.runtime.errorText error).toList.take 1000)
      attempts := attempts }

/-- `EventEnvelope(...).model_dump(mode="json")` in `_dead_letter`. -/
def deadLetterMessage (record : Record) (error : Exc) (attempts : Nat) : Worker DeadLetter := do
  let original := record.value
  let eventId ← uuid4
  let correlationId ← worker.correlationId original
  let causationId ← Program.ofExcept
    (EventEnvelope.field (Field.strOrNone ((original.get? "event_id").getD .null)))
  let occurredAt ← now
  let originalValue ← Program.ofExcept (worker.runtime.dump original)
  pure (worker.deadLetterOf record error attempts eventId correlationId causationId occurredAt
    originalValue)

/-- The event `_dead_letter` stores. -/
def deadLetteredEvent (record : Record) (message : DeadLetter) (attempts : Nat)
    (processedAt : Instant) : ProcessedEvent where
  id := .text (deadLetterId record.topicPartition record.offset)
  eventType := "event.processing_failed"
  result := "dead_lettered"
  payload := message.payload.toDict
  receiveCount := attempts
  processedAt := processedAt
  broker := "kafka"
  topic := some record.topic
  partition := some record.partition
  offset := some record.offset
  producer := some (.text "event-worker")
  correlationId := some message.correlationId

/-- The dictionary of a dead-letter message. -/
def messageDict (message : DeadLetter) : Json :=
  (message.withPayload (.dict message.payload.toDict)).toDict worker.runtime

/-- `_publish_dead_letter`; the value serializer of its producer encodes the message first. -/
def publishDeadLetter (key : String) (message : DeadLetter) : Worker Unit := do
  Program.ofExcept (encode (worker.messageDict message))
  run (.send kafkaDlqTopic key message)

/-- `_dead_letter`. -/
def deadLetter (record : Record) (error : Exc) (attempts : Nat) : Worker Unit := do
  let id := deadLetterId record.topicPartition record.offset
  let message ← worker.deadLetterMessage record error attempts
  worker.publishDeadLetter id message
  let processedAt ← now
  put .processedEvent id (deadLetteredEvent record message attempts processedAt)
  run (.countProcessed "event.processing_failed" "dead_lettered")

/-- The `except` branch of `process_record_with_retry`. -/
def retryOrDeadLetter (record : Record) (error : Exc) : Worker Bool := do
  let previous ← run (.getAttempts record.attemptsKey)
  let attempts := previous.getD 0 + 1
  run (.setAttempts record.attemptsKey attempts)
  if attempts < worker.maxProcessingAttempts then
    pure false
  else
    worker.deadLetter record error attempts
    run (.popAttempts record.attemptsKey)
    pure true

/-- `process_record_with_retry`. -/
def processRecordWithRetry (record : Record) : Worker Bool := do
  try
    worker.processRecord record
    run (.popAttempts record.attemptsKey)
    pure true
  catch error =>
    worker.retryOrDeadLetter record error

/-- The loop over the records of one batch, from the records processed so far on: whether
a record was processed, and whether the batch failed. -/
def handleRecords : List Record → Bool → Worker (Bool × Bool)
  | [], processedAny => pure (processedAny, false)
  | record :: records, processedAny => do
      let handled ← worker.processRecordWithRetry record
      if handled then
        handleRecords records true
      else
        run (.seek record.topicPartition record.offset)
        pure (processedAny, true)

/-- The loop over the batches. -/
def handleBatches : Batches → Bool → Bool → Worker (Bool × Bool)
  | [], processedAny, batchFailed => pure (processedAny, batchFailed)
  | (_, records) :: batches, processedAny, batchFailed => do
      let flags ← worker.handleRecords records processedAny
      handleBatches batches flags.1 (batchFailed || flags.2)

/-- What follows the loops. -/
def finish (processedAny batchFailed : Bool) : Worker Unit :=
  if processedAny && !batchFailed then run .commit
  else if batchFailed then run (.sleep 1)
  else pure ()

/-- What `_poll` does after an exception. -/
def recover (error : Exc) : Worker Unit := run (.sleep (if error.isValueError then 1 else 2))

/-- One iteration of the loop of `_poll`. -/
def pollIteration : Worker Unit := do
  try
    let batches ← run .poll
    let flags ← worker.handleBatches batches false false
    finish flags.1 flags.2
  catch error =>
    recover error

end KafkaEventWorker
end AxSentinel
