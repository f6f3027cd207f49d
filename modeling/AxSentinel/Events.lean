import AxSentinel.Json
import AxSentinel.Models

/-! # Event envelopes

`EventEnvelope` of `shared/events.py`, and its validation by Pydantic.  What the
third-party packages decide by themselves is in `Runtime`: how a text is parsed,
which values pass as an integer or a time, what an error says, and what the dump of
a value in JSON mode is. -/
namespace AxSentinel
open Python (Json PyFloat Str)

/-- What the runtime and the third-party packages decide. -/
structure Runtime where
  /-- `json.loads`. -/
  jsonLoads : String → Except Exc Json
  /-- The values Pydantic reads as an `int`. -/
  parseInt : Json → Option Int
  /-- The texts Pydantic reads as a `float`. -/
  parseFloat : Str → Option PyFloat
  /-- The values Pydantic reads as a `bool`. -/
  parseBool : Json → Option Bool
  /-- The values Pydantic reads as a `datetime`. -/
  parseDatetime : Json → Option Instant
  /-- The text of the `ValidationError` of a value that is no envelope. -/
  invalidEnvelope : Json → String
  /-- `repr` of a value; of one that is not a string it is its `str()` too. -/
  repr : Json → String
  /-- `str()` of an exception. -/
  errorText : Exc → String
  /-- The JSON-mode dump of a value of type `Any`. -/
  dump : Json → Except Exc Json
  /-- The JSON-mode dump of a time. -/
  dumpInstant : Instant → String
  /-- The id under which a table keeps what is stored under a string with lone surrogates.  A table
  that refuses such an id is one whose operations fail. -/
  surrogateId : List Nat → String

/-- A runtime that reads nothing. -/
instance : Inhabited Runtime where
  default :=
    { jsonLoads := fun _ => .ok .null
      parseInt := fun _ => none
      parseFloat := fun _ => none
      parseBool := fun _ => none
      parseDatetime := fun _ => none
      invalidEnvelope := fun _ => ""
      repr := fun _ => ""
      errorText := fun _ => ""
      dump := .ok
      dumpInstant := fun _ => ""
      surrogateId := fun _ => "" }

/-- The id under which a table keeps what is stored under a string. -/
def Runtime.entityId (rt : Runtime) : Str → String
  | .text s => s
  | .surrogates codePoints _ => rt.surrogateId codePoints

/-- `KAFKA_DLQ_TOPIC`. -/
def kafkaDlqTopic : String := "ax.events.dlq.v1"

structure EventEnvelope (P : Type) where
  eventId : Str
  eventType : Text 1 200
  eventVersion : Int
  occurredAt : Instant
  producer : Str
  correlationId : Str
  causationId : Option Str
  actorId : Option Str
  payload : P

namespace EventEnvelope

/-- The envelope with another payload. -/
def withPayload {P Q : Type} (envelope : EventEnvelope P) (payload : Q) : EventEnvelope Q where
  eventId := envelope.eventId
  eventType := envelope.eventType
  eventVersion := envelope.eventVersion
  occurredAt := envelope.occurredAt
  producer := envelope.producer
  correlationId := envelope.correlationId
  causationId := envelope.causationId
  actorId := envelope.actorId
  payload := payload

/-- The dictionary of an envelope whose payload is dumped already. -/
def toDict (rt : Runtime) (envelope : EventEnvelope Json) : Json :=
  .dict [(.text "event_id", .str envelope.eventId),
    (.text "event_type", .text envelope.eventType),
    (.text "event_version", .int envelope.eventVersion),
    (.text "occurred_at", .text (rt.dumpInstant envelope.occurredAt)),
    (.text "producer", .str envelope.producer),
    (.text "correlation_id", .str envelope.correlationId),
    (.text "causation_id", envelope.causationId.elim .null .str),
    (.text "actor_id", envelope.actorId.elim .null .str),
    (.text "payload", envelope.payload)]

end EventEnvelope

/-- `str.encode("utf-8")` of the text `json.dumps` writes of a value with `ensure_ascii=False`:
only a lone surrogate has no encoding. -/
def encode (value : Json) : Except Exc Unit :=
  if value.encodable then .ok ()
  else .error (.other "UnicodeEncodeError" "'utf-8' codec can't encode: surrogates not allowed")

/-- The fields of an envelope as validation leaves them: those with a default are
absent where the value has none. -/
structure EnvelopeFields where
  eventId : Option Str
  eventType : Text 1 200
  eventVersion : Option Int
  occurredAt : Option Instant
  producer : Str
  correlationId : Option Str
  causationId : Option (Option Str)
  actorId : Option (Option Str)
  payload : List (Str × Json)

namespace Field
variable {α : Type}

/-- A field without a default. -/
def required (value : Option Json) (parse : Json → Option α) : Option α := value.bind parse

/-- A field with a default, which is not parsed. -/
def defaulted (value : Option Json) (parse : Json → Option α) : Option (Option α) :=
  match value with
  | none => some none
  | some value => (parse value).map some

/-- `str`: Pydantic takes no other type for it. -/
def str : Json → Option Str
  | .str s => some s
  | _ => none

/-- `str | None`. -/
def strOrNone : Json → Option (Option Str)
  | .null => some none
  | value => (str value).map some

/-- `str` with bounds on its length, which Pydantic looks up in its encoding. -/
def text (lo hi : Nat) (value : Json) : Option (Text lo hi) :=
  ((str value).bind Str.text?).bind fun s =>
    if h : lo ≤ s.length ∧ s.length ≤ hi then some ⟨s, h⟩ else none

/-- A float that is no overflow. -/
def finite? : PyFloat → Option PyFloat
  | .finite q => some (.finite q)
  | _ => none

/-- `float`: Pydantic takes a number as the float nearest to it, if there is one. -/
def float (rt : Runtime) : Json → Option PyFloat
  | .float x => some x
  | .int n => finite? (.ofRat n)
  | .bool b => some (.finite (if b then 1 else 0))
  | .str s => rt.parseFloat s
  | _ => none

theorem float_int {rt : Runtime} {n : ℤ} {x : PyFloat} (h : float rt (.int n) = some x) :
    x = .finite (Binary64.round n) := by
  have hfinite : finite? (.ofRat n) = some x := h
  rcases PyFloat.ofRat_cases n with hround | ⟨hlarge, -⟩ | ⟨hlarge, -⟩
  · rw [hround] at hfinite
    exact (Option.some.inj hfinite).symm
  · rw [hlarge] at hfinite
    cases hfinite
  · rw [hlarge] at hfinite
    cases hfinite

/-- `float` with bounds; Pydantic refuses what is below or above them. -/
def bounded (rt : Runtime) (lo hi : ℚ) (value : Json) : Option (Bounded lo hi) :=
  (float rt value).bind fun x =>
    if h : x.lt (.finite lo) = false ∧ (PyFloat.finite hi).lt x = false then some ⟨x, h⟩ else none

/-- `list[...]`. -/
def list (parse : Json → Option α) : Json → Option (List α)
  | .list items => items.mapM parse
  | _ => none

/-- `dict[str, Any]`. -/
def dict : Json → Option (List (Str × Json))
  | .dict fields => some fields
  | _ => none

end Field

/-- The value is a dictionary. -/
def isDict : Json → Bool
  | .dict _ => true
  | _ => false

/-- The fields of an envelope, if all of them are valid. -/
def EnvelopeFields.read (rt : Runtime) (value : Json) : Option EnvelopeFields := do
  guard (isDict value)
  let eventId ← Field.defaulted (value.get? "event_id") Field.str
  let eventType ← Field.required (value.get? "event_type") (Field.text 1 200)
  let eventVersion ← Field.defaulted (value.get? "event_version") rt.parseInt
  let occurredAt ← Field.defaulted (value.get? "occurred_at") rt.parseDatetime
  let producer ← Field.required (value.get? "producer") Field.str
  let correlationId ← Field.defaulted (value.get? "correlation_id") Field.str
  let causationId ← Field.defaulted (value.get? "causation_id") Field.strOrNone
  let actorId ← Field.defaulted (value.get? "actor_id") Field.strOrNone
  let payload ← Field.required (value.get? "payload") Field.dict
  pure { eventId, eventType, eventVersion, occurredAt, producer, correlationId, causationId,
         actorId, payload }

/-- `EventEnvelope.model_validate`, but for the defaults. -/
def EnvelopeFields.validate (rt : Runtime) (value : Json) : Except Exc EnvelopeFields :=
  match EnvelopeFields.read rt value with
  | some fields => .ok fields
  | none => .error (.validationError (rt.invalidEnvelope value))

end AxSentinel
