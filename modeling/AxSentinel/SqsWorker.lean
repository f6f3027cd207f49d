import AxSentinel.Brokers

/-! # The SQS event worker

`EventWorker` of `services/event_worker/app/main.py`, once it has started, as a program over its
repository and the queue it looked up.  A message is read, its event stored, and then the message
deleted; whatever fails on the way leaves it in the queue. -/
namespace AxSentinel
open Effects Messaging
open Python (Json Str)

/-- What decides how messages are read; `readInt` is what `int` reads of a string. -/
structure EventWorker where
  runtime : Runtime
  readInt : String → Option Int

namespace EventWorker
variable (worker : EventWorker)

/-- `known_event_types`. -/
def knownEventTypes : List String :=
  ["telemetry.received", "incident.detected", "incident.status_changed", "analysis.completed",
    "document.registered", "approval.decided", "work_order.created", "work_order.completed",
    "feedback.submitted"]

/-- The event `process_message` stores. -/
def processedEvent (envelope : EventEnvelope (List (Str × Json))) (receiveCount : Int)
    (processedAt : Instant) : ProcessedEvent where
  id := envelope.eventId
  eventType := envelope.eventType
  result := if envelope.eventType.1 ∈ knownEventTypes then "processed" else "ignored"
  payload := envelope.payload
  receiveCount := receiveCount
  processedAt := processedAt
  broker := "sqs"
  topic := none
  partition := none
  offset := none
  producer := some envelope.producer
  correlationId := some envelope.correlationId

/-- What `process_message` reads of a message: its envelope, its receive count and its receipt
handle. -/
def readMessage (fresh : EnvelopeDefaults) (message : ReceivedMessage) :
    Except Exc (EventEnvelope (List (Str × Json)) × Int × String) := do
  let (envelope, receiveCount) ←
    parseEventMessage worker.runtime worker.readInt fresh message.toSqsMessage
  let messageId := Python.strip (message.messageId.getD "")
  let receiptHandle := Python.strip (message.receiptHandle.getD "")
  if messageId = "" ∨ receiptHandle = "" then
    throw (.other "ValueError" "SQS message identifiers are missing")
  pure (envelope, receiveCount, receiptHandle)

/-- `process_message`. -/
def processMessage (message : ReceivedMessage) : Messaging Unit := do
  let fresh ← run .envelopeDefaults
  let (envelope, receiveCount, receiptHandle) ← Program.ofExcept (worker.readMessage fresh message)
  let processedAt ← now
  let event := processedEvent envelope receiveCount processedAt
  put .processedEvent (worker.runtime.entityId envelope.eventId) event
  run (.deleteMessage receiptHandle)
  run (.countProcessed envelope.eventType event.result)

/-- What `_poll` counts after an exception of `process_message`. -/
def failureReason (error : Exc) : String :=
  if error.isValueError then "invalid_message" else "processing_error"

/-- The loop over the messages of a receive; one that fails is left for a retry. -/
def handleMessages : List ReceivedMessage → Messaging Unit
  | [] => pure ()
  | message :: messages => do
      try
        worker.processMessage message
      catch error =>
        run (.countFailed (failureReason error))
      handleMessages messages

/-- One iteration of the loop of `_poll`. -/
def pollIteration : Messaging Unit := do
  try
    let messages ← run (.receiveMessage 10)
    worker.handleMessages messages
  catch _ =>
    run (.countFailed "poll_error")
    run (.sleep 2)

end EventWorker
end AxSentinel
