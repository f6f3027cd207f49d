import AxSentinel.Delivery
import AxSentinel.Engine

/-! # Messages from SQS

`parse_event_message` of `services/event_worker/app/main.py`.  It tells a rejected message from a
failure by the type of the exception, but looks into the body, and patches it, before anything says
that it is an object: a `TypeError` comes out for most others (`parse_total_iff`). -/
namespace AxSentinel
open Python (Json Str setField lookup_setField lookup_setField_of_ne)

/-! ## The parser -/

/-- What `parse_event_message` reads of a message; a body that is not a string counts as none. -/
structure SqsMessage where
  body : Option String
  messageId : Option String
  approximateReceiveCount : Option String

/-- What the default factories of an envelope draw. -/
structure EnvelopeDefaults where
  eventId : String
  occurredAt : Instant
  correlationId : String

/-- The envelope of fields that are valid. -/
def EnvelopeFields.complete (fields : EnvelopeFields) (fresh : EnvelopeDefaults) :
    EventEnvelope (List (Str × Json)) where
  eventId := fields.eventId.getD (.text fresh.eventId)
  eventType := fields.eventType
  eventVersion := fields.eventVersion.getD 1
  occurredAt := fields.occurredAt.getD fresh.occurredAt
  producer := fields.producer
  correlationId := fields.correlationId.getD (.text fresh.correlationId)
  causationId := fields.causationId.join
  actorId := fields.actorId.join
  payload := fields.payload

/-- A string contains a text. -/
def containsText (s : Str) (text : String) : Bool :=
  s.codePoints.tails.any (text.toList.map Char.toNat).isPrefixOf

/-- `name in value`. -/
def contains (value : Json) (name : String) : Except Exc Bool :=
  match value with
  | .dict fields => .ok (fields.lookup (.text name)).isSome
  | .list items => .ok (items.any fun item => match item with
      | .str s => s = .text name
      | _ => false)
  | .str s => .ok (containsText s name)
  | value => .error (.other "TypeError" ("argument of type '" ++ value.typeName ++
      "' is not iterable"))

/-- `message.get("MessageId")`, where it counts as true. -/
def SqsMessage.id? (message : SqsMessage) : Option String := message.messageId.filter (· ≠ "")

/-- `if name not in value: value[name] = item`. -/
def setMissing (value : Json) (name : String) (item : Json) : Except Exc Json := do
  if (← contains value name) = false then setItem value name item else pure value

/-- The body's `producer` and `event_id`, where they are missing. -/
def patch (message : SqsMessage) (value : Json) : Except Exc Json := do
  let value ← setMissing value "producer" (.text "legacy-sqs")
  match message.id? with
  | some id => setMissing value "event_id" (.text id)
  | none => do
      let _ ← contains value "event_id"
      pure value

/-- Whether `except (ValidationError, json.JSONDecodeError)` handles the exception. -/
def Exc.isEnvelopeError : Exc → Bool
  | .validationError _ => true
  | .other name _ => name = "JSONDecodeError"
  | _ => false

/-- The envelope in the body of a message. -/
def parseEnvelope (rt : Runtime) (fresh : EnvelopeDefaults) (message : SqsMessage)
    (body : String) : Except Exc (EventEnvelope (List (Str × Json))) := do
  try
    let value ← rt.jsonLoads body
    let value ← patch message value
    let fields ← EnvelopeFields.validate rt value
    pure (fields.complete fresh)
  catch error =>
    if error.isEnvelopeError then
      throw (.other "ValueError" "Invalid AX Sentinel event envelope")
    else throw error

/-- `parse_event_message`; `readInt` is what `int` reads of a string. -/
def parseEventMessage (rt : Runtime) (readInt : String → Option Int) (fresh : EnvelopeDefaults)
    (message : SqsMessage) : Except Exc (EventEnvelope (List (Str × Json)) × Int) :=
  match message.body with
  | none => throw (.other "ValueError" "SQS message body is missing")
  | some body => do
    let envelope ← parseEnvelope rt fresh message body
    let count := message.approximateReceiveCount.getD "1"
    match readInt count with
    | some receiveCount => pure (envelope, receiveCount)
    | none => throw (.other "ValueError" ("invalid literal for int() with base 10: " ++ count))

/-! ## The body -/

section Body
variable {rt : Runtime} {message : SqsMessage} {value value' : Json}

/-- The body can be looked into and patched: it is an object, or has the names that would be set
among its items, or in its text. -/
def Patchable (message : SqsMessage) (value : Json) : Prop :=
  isDict value = true ∨ contains value "producer" = .ok true ∧
    (contains value "event_id" = .ok true ∨ message.id? = none)

/-- A missing field is added to an object, and no other touched. -/
theorem setMissing_dict (fields : List (Str × Json)) (name : String) (item : Json) :
    ∃ fields', setMissing (.dict fields) name item = .ok (.dict fields') ∧
      fields'.lookup (.text name) = (fields.lookup (.text name)).or (some item) ∧
      ∀ other, other ≠ name → fields'.lookup (.text other) = fields.lookup (.text other) := by
  unfold setMissing
  cases hname : fields.lookup (.text name) with
  | some old =>
    refine ⟨fields, ?_, hname, fun _ _ => rfl⟩
    simp [contains, hname, bind, Except.bind, pure, Except.pure]
  | none =>
    refine ⟨setField (.text name) item fields, ?_, lookup_setField .., fun other hother => ?_⟩
    · simp [contains, hname, setItem, bind, Except.bind]
    · exact lookup_setField_of_ne (fun h => hother (Str.text.inj h)) ..

/-- Of any other value, only one that contains the name gets through, as it is. -/
theorem setMissing_of_not_dict (h : isDict value = false) (name : String) (item : Json) :
    (contains value name = .ok true ∧ setMissing value name item = .ok value) ∨
      contains value name ≠ .ok true ∧
        ∃ text, setMissing value name item = .error (.other "TypeError" text) := by
  cases hname : contains value name with
  | error e =>
    refine .inr ⟨nofun, ?_⟩
    cases value with
    | dict fields => cases h
    | list items => cases hname
    | str s => cases hname
    | _ => exact ⟨_, rfl⟩
  | ok has =>
    cases has with
    | true => exact .inl ⟨rfl, by simp [setMissing, hname, bind, Except.bind, pure, Except.pure]⟩
    | false =>
      obtain ⟨text, hset⟩ : ∃ text, setItem value name item = .error (.other "TypeError" text) := by
        cases value with
        | dict fields => cases h
        | _ => exact ⟨_, rfl⟩
      exact .inr ⟨nofun, text, by simp [setMissing, hname, hset, bind, Except.bind]⟩

/-- An object is patched field by field; what it says of the event id stays. -/
theorem patch_dict (fields : List (Str × Json)) : ∃ fields',
    patch message (.dict fields) = .ok (.dict fields') ∧
      fields'.lookup (.text "event_id") =
        (fields.lookup (.text "event_id")).or (message.id?.map Json.text) := by
  obtain ⟨produced, hproduced, -, hothers⟩ := setMissing_dict fields "producer" (.text "legacy-sqs")
  have hsame := hothers "event_id" (by decide)
  unfold patch
  cases message.id? with
  | none =>
    refine ⟨produced, ?_, ?_⟩
    · simp [hproduced, contains, bind, Except.bind, pure, Except.pure]
    · rw [hsame, Option.map_none, Option.or_none]
  | some id =>
    obtain ⟨named, hnamed, hid, -⟩ := setMissing_dict produced "event_id" (.text id)
    refine ⟨named, ?_, hsame ▸ hid⟩
    simp [hproduced, hnamed, bind, Except.bind]

/-- Nothing else is patched: a value that lacks a name that is to be set raises. -/
theorem patch_of_not_dict (h : isDict value = false) :
    (Patchable message value ∧ patch message value = .ok value) ∨
      ¬ Patchable message value ∧
        ∃ text, patch message value = .error (.other "TypeError" text) := by
  unfold Patchable patch
  rcases setMissing_of_not_dict h "producer" (.text "legacy-sqs") with
    ⟨hproducer, hset⟩ | ⟨hproducer, text, hset⟩
  · cases hid : message.id? with
    | none =>
      refine .inl ⟨.inr ⟨hproducer, .inr rfl⟩, ?_⟩
      cases value with
      | dict fields => cases h
      | list items => simp [hset, contains, bind, Except.bind, pure, Except.pure]
      | str s => simp [hset, contains, bind, Except.bind, pure, Except.pure]
      | _ => cases hproducer
    | some id =>
      rcases setMissing_of_not_dict h "event_id" (.text id) with
        ⟨hcontains, hset'⟩ | ⟨hcontains, text, hset'⟩
      · exact .inl ⟨.inr ⟨hproducer, .inl hcontains⟩, by simp [hset, hset', bind, Except.bind]⟩
      · exact .inr ⟨by simp [h, hcontains], text, by simp [hset, hset', bind, Except.bind]⟩
  · exact .inr ⟨by simp [h, hproducer], text, by simp [hset, bind, Except.bind]⟩

/-- A valid envelope is an object, and its event id, if it has one, a string. -/
theorem eventId_of_read {fields : EnvelopeFields}
    (h : EnvelopeFields.read rt value = some fields) :
    isDict value = true ∧ value.get? "event_id" = fields.eventId.map Json.str := by
  unfold EnvelopeFields.read at h
  obtain ⟨_, hdict, h⟩ := Option.bind_eq_some_iff.mp h
  obtain ⟨eventId, hid, h⟩ := Option.bind_eq_some_iff.mp h
  obtain ⟨_, -, h⟩ := Option.bind_eq_some_iff.mp h
  obtain ⟨_, -, h⟩ := Option.bind_eq_some_iff.mp h
  obtain ⟨_, -, h⟩ := Option.bind_eq_some_iff.mp h
  obtain ⟨_, -, h⟩ := Option.bind_eq_some_iff.mp h
  obtain ⟨_, -, h⟩ := Option.bind_eq_some_iff.mp h
  obtain ⟨_, -, h⟩ := Option.bind_eq_some_iff.mp h
  obtain ⟨_, -, h⟩ := Option.bind_eq_some_iff.mp h
  obtain ⟨_, -, h⟩ := Option.bind_eq_some_iff.mp h
  obtain rfl := Option.some.inj h
  refine ⟨?_, ?_⟩
  · by_contra hnot
    rw [guard, if_neg hnot] at hdict
    cases hdict
  · cases hget : value.get? "event_id" with
    | none =>
      rw [hget] at hid
      cases hid
      rfl
    | some id =>
      rw [hget, Field.defaulted, Option.map_eq_some_iff] at hid
      obtain ⟨text, htext, rfl⟩ := hid
      unfold Field.str at htext
      split at htext
      · obtain rfl := Option.some.inj htext
        rfl
      · cases htext

end Body

/-! ## What the parser does -/

section Parser
variable {rt : Runtime} (fresh : EnvelopeDefaults) (message : SqsMessage) {body : String}

/-- The handler makes a `ValueError` of the exceptions it handles, which are some already. -/
theorem isValueError_of_handled {e : Exc} : ∃ e' : Exc, e'.isValueError = e.isValueError ∧
    (if e.isEnvelopeError then
      throw (.other "ValueError" "Invalid AX Sentinel event envelope")
    else throw e : Except Exc (EventEnvelope (List (Str × Json)))) = .error e' := by
  split
  · rename_i hhandled
    refine ⟨_, ?_, rfl⟩
    unfold Exc.isEnvelopeError at hhandled
    split at hhandled
    · rfl
    · rw [of_decide_eq_true hhandled]
      rfl
    · cases hhandled
  · exact ⟨e, rfl, rfl⟩

theorem parseEnvelope_of_not_loaded {e : Exc} (h : rt.jsonLoads body = .error e) :
    ∃ e' : Exc, e'.isValueError = e.isValueError ∧
      parseEnvelope rt fresh message body = .error e' := by
  obtain ⟨e', hsame, hraised⟩ := isValueError_of_handled (e := e)
  refine ⟨e', hsame, ?_⟩
  rw [← hraised]
  simp [parseEnvelope, h, bind, Except.bind, tryCatch, tryCatchThe, MonadExceptOf.tryCatch,
    Except.tryCatch]

theorem parseEnvelope_of_not_patchable {value : Json} (h : rt.jsonLoads body = .ok value)
    (hnot : ¬ Patchable message value) :
    ∃ e' : Exc, e'.isValueError = false ∧ parseEnvelope rt fresh message body = .error e' := by
  have hdict : isDict value = false := by
    rw [← Bool.not_eq_true]
    exact fun hdict => hnot (.inl hdict)
  obtain ⟨text, hpatch⟩ :=
    ((patch_of_not_dict hdict).resolve_left fun hpatched => hnot hpatched.1).2
  refine ⟨.other "TypeError" text, rfl, ?_⟩
  simp [parseEnvelope, h, hpatch, bind, Except.bind, tryCatch, tryCatchThe, MonadExceptOf.tryCatch,
    Except.tryCatch, Exc.isEnvelopeError, throw, throwThe, MonadExceptOf.throw]

theorem parseEnvelope_of_patchable {value : Json} (h : rt.jsonLoads body = .ok value)
    (hpatchable : Patchable message value) :
    (∃ e : Exc, e.isValueError = true ∧ parseEnvelope rt fresh message body = .error e) ∨
      ∃ fields : EnvelopeFields, parseEnvelope rt fresh message body = .ok (fields.complete fresh) ∧
        fields.eventId.map Json.str =
          (value.get? "event_id").or (message.id?.map Json.text) := by
  -- A list or string goes on as it is, and is not valid later.
  obtain ⟨patched, hpatch, hid⟩ : ∃ patched, patch message value = .ok patched ∧
      (isDict patched = true → patched.get? "event_id" =
        (value.get? "event_id").or (message.id?.map Json.text)) := by
    cases hdict : isDict value with
    | false =>
      have hsame := ((patch_of_not_dict hdict).resolve_right fun hnot => hnot.1 hpatchable).2
      exact ⟨value, hsame, fun hobject => absurd hobject (by simp [hdict])⟩
    | true =>
      cases value with
      | dict fields =>
        obtain ⟨fields', hpatch, hid⟩ := @patch_dict message fields
        exact ⟨_, hpatch, fun _ => hid⟩
      | _ => cases hdict
  cases hread : EnvelopeFields.read rt patched with
  | none =>
    refine .inl ⟨.other "ValueError" "Invalid AX Sentinel event envelope", rfl, ?_⟩
    simp [parseEnvelope, h, hpatch, EnvelopeFields.validate, hread, bind, Except.bind, tryCatch,
      tryCatchThe, MonadExceptOf.tryCatch, Except.tryCatch, Exc.isEnvelopeError, throw, throwThe,
      MonadExceptOf.throw]
  | some fields =>
    obtain ⟨hobject, heventId⟩ := eventId_of_read hread
    refine .inr ⟨fields, ?_, heventId.symm.trans (hid hobject)⟩
    simp [parseEnvelope, h, hpatch, EnvelopeFields.validate, hread, bind, Except.bind, tryCatch,
      tryCatchThe, MonadExceptOf.tryCatch, Except.tryCatch, pure, Except.pure]

end Parser

/-- What a message owes its parser: an envelope with the body's event id, or else the message's if
it has one, or a `ValueError`. -/
def ParsesTotally (rt : Runtime) (readInt : String → Option Int) (fresh : EnvelopeDefaults)
    (body : String) (messageId receiveCount : Option String) : Prop :=
  match parseEventMessage rt readInt fresh ⟨some body, messageId, receiveCount⟩ with
  | .ok (envelope, _) => ∀ value, rt.jsonLoads body = .ok value →
      (∀ id, value.get? "event_id" = some id → id = .str envelope.eventId) ∧
        (value.get? "event_id" = none → ∀ id, messageId = some id → id ≠ "" →
          envelope.eventId = .text id)
  | .error e => e.isValueError = true

/-- `json.loads` makes a value of the body that can be looked into and patched, or raises a
`ValueError`. -/
def Parsable (rt : Runtime) (body : String) (messageId receiveCount : Option String) : Prop :=
  match rt.jsonLoads body with
  | .ok value => Patchable ⟨some body, messageId, receiveCount⟩ value
  | .error e => e.isValueError = true

/-- **The parser.**  It returns an envelope with the right event id, or raises a `ValueError`, if
and only if the body is not JSON, an object, or a list or string that has the names that would be
set. -/
theorem parse_total_iff (rt : Runtime) (readInt : String → Option Int) (fresh : EnvelopeDefaults)
    (body : String) (messageId receiveCount : Option String) :
    ParsesTotally rt readInt fresh body messageId receiveCount ↔
      Parsable rt body messageId receiveCount := by
  unfold ParsesTotally Parsable parseEventMessage
  cases hloads : rt.jsonLoads body with
  | error e =>
    obtain ⟨e', hsame, hraised⟩ :=
      parseEnvelope_of_not_loaded fresh ⟨some body, messageId, receiveCount⟩ hloads
    simp only [hraised, bind, Except.bind, hsame]
  | ok value =>
    by_cases hpatchable : Patchable ⟨some body, messageId, receiveCount⟩ value
    · -- what is patched is validated, and what is valid is an object with its event id
      refine iff_of_true ?_ hpatchable
      rcases parseEnvelope_of_patchable fresh _ hloads hpatchable with
        ⟨e, hvalue, hraised⟩ | ⟨fields, hparsed, hid⟩
      · simp only [hraised, bind, Except.bind, hvalue]
      · simp only [hparsed, bind, Except.bind]
        cases readInt (receiveCount.getD "1") with
        | none => rfl
        | some n =>
          rintro value' hvalue'
          obtain rfl := Except.ok.inj hvalue'
          refine ⟨fun id hgiven => ?_, fun hmissing id hmessage hne => ?_⟩
          · rw [hgiven, Option.some_or] at hid
            obtain ⟨eventId, heventId, rfl⟩ := Option.map_eq_some_iff.mp hid
            exact congrArg Json.str (by rw [EnvelopeFields.complete, heventId, Option.getD_some])
          · have hid? : SqsMessage.id? ⟨some body, messageId, receiveCount⟩ = some id := by
              simp [SqsMessage.id?, hmessage, hne]
            rw [hmissing, Option.none_or, hid?, Option.map_some] at hid
            obtain ⟨eventId, heventId, htext⟩ := Option.map_eq_some_iff.mp hid
            obtain rfl := Json.str.inj htext
            rw [EnvelopeFields.complete, heventId, Option.getD_some]
    · obtain ⟨e, hnot, hraised⟩ := parseEnvelope_of_not_patchable fresh _ hloads hpatchable
      refine iff_of_false ?_ hpatchable
      simp only [hraised, bind, Except.bind, hnot]
      exact Bool.false_ne_true

/-- The body `null` is JSON and no envelope, and raises a `TypeError`. -/
theorem not_parsesTotally : ¬ ∀ rt readInt fresh body messageId receiveCount,
    ParsesTotally rt readInt fresh body messageId receiveCount := by
  intro hall
  have hnull :=
    hall Sample.runtime (fun _ => some 1) ⟨"", 0, ""⟩ "null" (some "message-1") (some "1")
  exact absurd hnull Bool.false_ne_true

end AxSentinel
