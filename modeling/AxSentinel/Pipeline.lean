import AxSentinel.EventPublisher
import AxSentinel.SqsWorker

/-! # From the publishers to the stored events

Any number of services publish, and any number of SQS workers poll, interleaved in any way; a
message may be received again at any time, any step that leaves a process may fail before or after
it takes effect, and a worker or a publisher may stop for good at any point.  A message is deleted
only once its event is stored, and what is stored is the event of a message (`QueueSound`).  A
dual publisher sends to Kafka first, so SQS has nothing that Kafka lacks (`transports_agree`).
Together with the round trip of an envelope: what a service published on SQS is waiting, given up
after as many receives as allowed, or stored as it was published (`published_recorded`). -/
namespace AxSentinel
open Effects Messaging
open Python (Json Str)

/-! ## Publishers and workers -/

/-- What the brokers are used for: one event is published, or a worker polls once. -/
inductive MessagingRequest where
  | publish (publisher : EventPublisher) (call : PublishCall)
  | poll

/-- The program of a request; a publication returns its envelope. -/
def MessagingRequest.code (printer : Printer) (worker : EventWorker) :
    MessagingRequest → Messaging (Option Envelope)
  | publish publisher call => do
      let envelope ← publisher.publish worker.runtime printer call
      pure (some envelope)
  | poll => do
      worker.pollIteration
      pure none

/-- Requests under way. -/
abbrev Pipeline (brokers : Brokers) :=
  System (messaging brokers) MessagingRequest (Option Envelope)

/-- The systems some run leads to. -/
abbrev Pipeline.Reachable {brokers : Brokers} (printer : Printer) (worker : EventWorker)
    (uuids : UuidSupply) (receipts : ReceiptHandles) (s : Pipeline brokers) : Prop :=
  System.Reachable (MessagingRequest.code printer worker) (messagingStart brokers uuids receipts) s

/-- The moves of a request. -/
abbrev MessagingMoves := List (Move messagingOps)

/-! ## What a worker may do -/

/-- The message was received. -/
def Received (past : MessagingMoves) (message : ReceivedMessage) : Prop :=
  ∃ (limit : Nat) (messages : List ReceivedMessage), message ∈ messages ∧
    (⟨.inr (.receiveMessage limit), .ok messages⟩ : Move messagingOps) ∈ past

theorem Received.append {past : MessagingMoves} {message : ReceivedMessage}
    (h : Received past message) (more : MessagingMoves) : Received (past ++ more) message := by
  obtain ⟨limit, messages, hmessage, hmem⟩ := h
  exact ⟨limit, messages, hmessage, List.mem_append_left _ hmem⟩

/-- The key under which a worker stores the event of an envelope. -/
abbrev EventWorker.keyOf (worker : EventWorker) (envelope : Envelope) : Key :=
  eventKey (worker.runtime.entityId envelope.eventId)

/-- What a worker may do next, in view of its past: it stores the event of a message it received,
and deletes a message only after it stored its event. -/
def Processes (worker : EventWorker) (past : MessagingMoves) : messagingOps.Op → Prop
  | .inl (.putItem key item _) => ∃ message fresh envelope receiveCount receiptHandle processedAt,
      Received past message ∧
        worker.readMessage fresh message = .ok (envelope, receiveCount, receiptHandle) ∧
        key = worker.keyOf envelope ∧ item.attributes.data =
          EventWorker.processedEvent envelope receiveCount processedAt
  | .inr (.deleteMessage receiptHandle) => ∃ message fresh envelope receiveCount,
      Received past message ∧
        worker.readMessage fresh message = .ok (envelope, receiveCount, receiptHandle) ∧
        ∃ item cond, (⟨.inl (.putItem (worker.keyOf envelope) item cond), .ok ()⟩ :
          Move messagingOps) ∈ past
  | .inr (.kafkaSend _) => False
  | .inr (.sendMessage ..) => False
  | .inr (.snsPublish _) => False
  | _ => True

section Worker
variable {worker : EventWorker} {past : MessagingMoves}

/-- Processing a message that was received. -/
theorem processes_processMessage {message : ReceivedMessage} (h : Received past message) :
    (worker.processMessage message).Obeys (Processes worker) (fun _ _ => True) past := by
  unfold EventWorker.processMessage
  refine ⟨trivial, fun r => ?_⟩
  cases r with
  | error e => trivial
  | ok fresh =>
    show Program.Obeys _ _ _ (Program.ofExcept (worker.readMessage fresh message) >>= _)
    cases hread : worker.readMessage fresh message with
    | error e => trivial
    | ok read =>
      obtain ⟨envelope, receiveCount, receiptHandle⟩ := read
      refine ⟨trivial, fun r => ?_⟩
      cases r with
      | error e => trivial
      | ok processedAt =>
        show Program.Obeys _ _ _
          (Messaging.put .processedEvent (worker.runtime.entityId envelope.eventId) _ >>= _)
        rw [DynamoRepository.put_left_bind]
        refine ⟨trivial, fun r => ?_⟩
        cases r with
        | error e => trivial
        | ok clock =>
          refine ⟨trivial, fun r => ?_⟩
          cases r with
          | error e => trivial
          | ok current =>
            refine ⟨⟨message, fresh, envelope, receiveCount, receiptHandle, processedAt,
              ((((h.append _).append _).append _).append _), hread, rfl, rfl⟩, fun r => ?_⟩
            cases r with
            | error e => trivial
            | ok _ =>
              refine ⟨⟨message, fresh, envelope, receiveCount,
                (((((h.append _).append _).append _).append _).append _), hread, _, _,
                List.mem_append_right _ (List.mem_singleton.mpr rfl)⟩, fun r => ?_⟩
              cases r with
              | error e => trivial
              | ok _ =>
                refine ⟨trivial, fun r => ?_⟩
                cases r with
                | error e => trivial
                | ok _ => trivial

/-- The loop over messages that were received. -/
theorem processes_handleMessages {messages : List ReceivedMessage}
    (h : ∀ message ∈ messages, Received past message) :
    (worker.handleMessages messages).Obeys (Processes worker) (fun _ _ => True) past := by
  induction messages generalizing past with
  | nil => trivial
  | cons message messages ih =>
    obtain ⟨hmessage, hmessages⟩ := List.forall_mem_cons.mp h
    have hkept : ∀ past' op r, Processes worker past' op →
        (∀ m ∈ messages, Received past' m) → ∀ m ∈ messages, Received (past' ++ [⟨op, r⟩]) m :=
      fun past' op r _ hall m hm => (hall m hm).append _
    unfold EventWorker.handleMessages
    refine Program.obeys_bind.mpr (Program.obeys_tryCatch.mpr
      (((processes_processMessage hmessage).invariant hmessages hkept).mono (fun _ _ => id) ?_))
    intro past' out hall
    cases out with
    | ok _ => exact ih hall
    | error e =>
      refine ⟨trivial, fun r => ?_⟩
      cases r with
      | ok _ => exact ih fun m hm => (hall m hm).append _
      | error e => trivial

/-- An iteration of a worker keeps to its protocol. -/
theorem processes_pollIteration :
    worker.pollIteration.Obeys (Processes worker) (fun _ _ => True) [] := by
  have hrecover : ∀ past, (do
      run (.countFailed "poll_error")
      run (.sleep 2) : Messaging Unit).Obeys (Processes worker) (fun _ _ => True) past := by
    intro past
    refine ⟨trivial, fun r => ?_⟩
    cases r with
    | error e => trivial
    | ok _ => exact ⟨trivial, fun r => by cases r <;> trivial⟩
  unfold EventWorker.pollIteration
  refine Program.Obeys.tryCatch ⟨trivial, fun r => ?_⟩ fun past e => hrecover past
  cases r with
  | error e => trivial
  | ok messages =>
    exact processes_handleMessages fun message hmessage =>
      ⟨10, messages, hmessage, List.mem_append_right _ (List.mem_singleton.mpr rfl)⟩

end Worker

/-! ## What a publisher may do -/

section Publisher
variable (rt : Runtime) (printer : Printer) (publisher : EventPublisher) (call : PublishCall)

/-- The publisher builds the envelope for the call, and writes it as the text. -/
def Writes (envelope : Envelope) (text : String) : Prop :=
  publisher.envelope call envelope.eventId envelope.occurredAt envelope.correlationId =
      .ok envelope ∧
    ∃ serialized, envelope.modelDump rt = .ok serialized ∧ text = printer.dumps serialized

/-- What it writes has an encoding, so that a client can send it. -/
def Sends (envelope : Envelope) (text : String) : Prop :=
  publisher.envelope call envelope.eventId envelope.occurredAt envelope.correlationId =
      .ok envelope ∧
    ∃ serialized, envelope.modelDump rt = .ok serialized ∧ printer.message serialized = .ok text

/-- The envelope has an id that was drawn. -/
def DrewId (past : MessagingMoves) (envelope : Envelope) : Prop :=
  ∃ id, (⟨.inr .uuid4, .ok id⟩ : Move messagingOps) ∈ past ∧ envelope.eventId = .text id

/-- The text was sent to Kafka. -/
def SentKafka (past : MessagingMoves) (text : String) : Prop :=
  ∃ key, (⟨.inr (.kafkaSend ⟨topicFor call.eventType, key, text,
    [("event_type", call.eventType), ("event_version", "1")]⟩), .ok ()⟩ : Move messagingOps) ∈ past

/-- The text was sent to SQS. -/
def SentSqs (past : MessagingMoves) (text : String) : Prop :=
  ∃ url, (⟨.inr (.sendMessage url text), .ok ()⟩ : Move messagingOps) ∈ past

/-- The text was published on SNS. -/
def SentAlert (past : MessagingMoves) (text : String) : Prop :=
  ∃ arn subject, (⟨.inr (.snsPublish ⟨arn, subject, text⟩), .ok ()⟩ : Move messagingOps) ∈ past

/-- Nothing was sent to SQS yet. -/
def Unsent (past : MessagingMoves) : Prop :=
  ∀ m ∈ past, ∀ url body, m.op ≠ .inr (.sendMessage url body)

/-- What a publisher may do next, in view of its past: it sends the text of its envelope to SQS,
once, after it sent it to Kafka if it does so at all, and to SNS last. -/
def Publishes (past : MessagingMoves) : messagingOps.Op → Prop
  | .inl (.putItem ..) => False
  | .inr (.deleteMessage _) => False
  | .inr (.kafkaSend message) => publisher.eventBus.usesKafka = true ∧
      message.topic = topicFor call.eventType ∧
      ∃ envelope, DrewId past envelope ∧ Sends rt printer publisher call envelope message.value
  | .inr (.sendMessage _ body) => publisher.eventBus.usesSqs = true ∧ Unsent past ∧
      (publisher.eventBus.usesKafka = true → SentKafka call past body) ∧
      ∃ envelope, DrewId past envelope ∧ Sends rt printer publisher call envelope body
  | .inr (.snsPublish alert) => call.alert = true ∧ publisher.eventBus ≠ .disabled ∧
      (publisher.eventBus.usesKafka = true → SentKafka call past alert.message) ∧
      (publisher.eventBus.usesSqs = true → SentSqs past alert.message) ∧
      ∃ envelope, DrewId past envelope ∧ Sends rt printer publisher call envelope alert.message
  | _ => True

/-- What a publisher that returns has done. -/
def HasPublished (past : MessagingMoves) (envelope : Envelope) : Prop :=
  DrewId past envelope ∧ ∃ text, Writes rt printer publisher call envelope text ∧
    (publisher.eventBus ≠ .disabled → Sends rt printer publisher call envelope text) ∧
    (publisher.eventBus.usesKafka = true → SentKafka call past text) ∧
    (publisher.eventBus.usesSqs = true → SentSqs past text) ∧
    (call.alert = true → publisher.eventBus ≠ .disabled → SentAlert past text)

variable {rt : Runtime} {printer : Printer} {publisher : EventPublisher} {call : PublishCall}
  {past : MessagingMoves} {envelope : Envelope} {text : String}

theorem message_eq_ok {value : Json} (h : printer.message value = .ok text) :
    value.encodable = true ∧ text = printer.dumps value := by
  unfold Printer.message encode at h
  split at h
  · exact ⟨‹_›, (Except.ok.inj h).symm⟩
  · cases h

theorem Sends.writes (h : Sends rt printer publisher call envelope text) :
    Writes rt printer publisher call envelope text := by
  obtain ⟨hbuilt, serialized, hserialized, hmessage⟩ := h
  exact ⟨hbuilt, serialized, hserialized, (message_eq_ok hmessage).2⟩

theorem DrewId.append (h : DrewId past envelope) (more : MessagingMoves) :
    DrewId (past ++ more) envelope :=
  ⟨h.choose, List.mem_append_left _ h.choose_spec.1, h.choose_spec.2⟩

theorem SentKafka.append (h : SentKafka call past text) (more : MessagingMoves) :
    SentKafka call (past ++ more) text :=
  ⟨h.choose, List.mem_append_left _ h.choose_spec⟩

theorem SentSqs.append (h : SentSqs past text) (more : MessagingMoves) :
    SentSqs (past ++ more) text :=
  ⟨h.choose, List.mem_append_left _ h.choose_spec⟩

theorem unsent_nil : Unsent [] := fun _ hm => absurd hm List.not_mem_nil

theorem Unsent.append (h : Unsent past) {op : messagingOps.Op}
    {r : Except Exc (messagingOps.Reply op)} (hop : ∀ url body, op ≠ .inr (.sendMessage url body)) :
    Unsent (past ++ [⟨op, r⟩]) := by
  intro m hm
  rcases List.mem_append.mp hm with hm | hm
  · exact h m hm
  · obtain rfl := List.mem_singleton.mp hm
    exact hop

/-- The publisher has built its envelope and written it as the text; where a client encodes the
message, that is the text it sends. -/
structure Prepared (rt : Runtime) (printer : Printer) (publisher : EventPublisher)
    (call : PublishCall) (message : Except Exc String) (past : MessagingMoves)
    (envelope : Envelope) (text : String) : Prop where
  drew : DrewId past envelope
  writes : Writes rt printer publisher call envelope text
  encodes : ∀ body, message = .ok body →
    body = text ∧ Sends rt printer publisher call envelope text

/-- The publisher may send its text to SQS. -/
structure ReadyForSqs (rt : Runtime) (printer : Printer) (publisher : EventPublisher)
    (call : PublishCall) (message : Except Exc String) (past : MessagingMoves)
    (envelope : Envelope) (text : String) : Prop
    extends Prepared rt printer publisher call message past envelope text where
  kafka : publisher.eventBus.usesKafka = true →
    SentKafka call past text ∧ Sends rt printer publisher call envelope text
  unsent : Unsent past

/-- The publisher may publish its text on SNS. -/
structure ReadyForAlert (rt : Runtime) (printer : Printer) (publisher : EventPublisher)
    (call : PublishCall) (message : Except Exc String) (past : MessagingMoves)
    (envelope : Envelope) (text : String) : Prop
    extends Prepared rt printer publisher call message past envelope text where
  sends : publisher.eventBus ≠ .disabled → Sends rt printer publisher call envelope text
  kafka : publisher.eventBus.usesKafka = true → SentKafka call past text
  sqs : publisher.eventBus.usesSqs = true → SentSqs past text

section Ready
variable {message : Except Exc String}

theorem Prepared.append (h : Prepared rt printer publisher call message past envelope text)
    (more : MessagingMoves) :
    Prepared rt printer publisher call message (past ++ more) envelope text :=
  ⟨h.drew.append more, h.writes, h.encodes⟩

theorem ReadyForSqs.append (h : ReadyForSqs rt printer publisher call message past envelope text)
    {op : messagingOps.Op} {r : Except Exc (messagingOps.Reply op)}
    (hop : ∀ url body, op ≠ .inr (.sendMessage url body)) :
    ReadyForSqs rt printer publisher call message (past ++ [⟨op, r⟩]) envelope text :=
  ⟨h.toPrepared.append _, fun hkafka => (h.kafka hkafka).imp (·.append _) id, h.unsent.append hop⟩

theorem ReadyForAlert.append
    (h : ReadyForAlert rt printer publisher call message past envelope text)
    (more : MessagingMoves) :
    ReadyForAlert rt printer publisher call message (past ++ more) envelope text :=
  ⟨h.toPrepared.append _, h.sends, fun hkafka => (h.kafka hkafka).append _,
    fun hsqs => (h.sqs hsqs).append _⟩

end Ready

/-- A program of the publisher that leaves the past as `Q` says if it returns. -/
abbrev Publishing (rt : Runtime) (printer : Printer) (publisher : EventPublisher)
    (call : PublishCall) (past : MessagingMoves) {α : Type} (p : Messaging α)
    (Q : MessagingMoves → α → Prop) : Prop :=
  p.Obeys (Publishes rt printer publisher call) (fun past out => ∀ a, out = .ok a → Q past a) past

/-- One operation, whose exception ends the program. -/
theorem publishing_run {op : BrokerOp} {α : Type} {f : brokerOps.Reply op → Messaging α}
    {Q : MessagingMoves → α → Prop} (hop : Publishes rt printer publisher call past (.inr op))
    (h : ∀ r, Publishing rt printer publisher call (past ++ [⟨.inr op, .ok r⟩]) (f r) Q) :
    Publishing rt printer publisher call past (run op >>= f) Q := by
  refine ⟨hop, fun r => ?_⟩
  cases r with
  | error e => exact nofun
  | ok r => exact h r

theorem publishing_bind {α β : Type} {p : Messaging α} {f : α → Messaging β}
    {Q : MessagingMoves → α → Prop} {R : MessagingMoves → β → Prop}
    (hp : Publishing rt printer publisher call past p Q)
    (h : ∀ past a, Q past a → Publishing rt printer publisher call past (f a) R) :
    Publishing rt printer publisher call past (p >>= f) R := by
  refine Program.obeys_bind.mpr (hp.mono (fun _ _ => id) fun past' out hout => ?_)
  cases out with
  | error e => exact nofun
  | ok a => exact h past' a (hout a rfl)

theorem publishing_ret {α : Type} {a : α} {Q : MessagingMoves → α → Prop} (h : Q past a) :
    Publishing rt printer publisher call past (pure a) Q := by
  rintro _ ⟨⟩
  exact h

theorem publishing_ofExcept {α β : Type} {x : Except Exc α} {f : α → Messaging β}
    {Q : MessagingMoves → β → Prop}
    (h : ∀ a, x = .ok a → Publishing rt printer publisher call past (f a) Q) :
    Publishing rt printer publisher call past (Program.ofExcept x >>= f) Q := by
  cases x with
  | error e => exact nofun
  | ok a => exact h a rfl

section Sending
variable {message : Except Exc String}

theorem publishing_kafka
    (hprepared : Prepared rt printer publisher call message past envelope text)
    (hunsent : Unsent past) : Publishing rt printer publisher call past
      (if publisher.eventBus.usesKafka then EventPublisher.publishKafka rt call envelope message
        else pure ())
      fun past _ => ReadyForSqs rt printer publisher call message past envelope text := by
  split
  · rename_i hkafka
    unfold EventPublisher.publishKafka
    refine publishing_ofExcept fun key _ => publishing_ofExcept fun body hbody => ?_
    obtain ⟨rfl, hsends⟩ := hprepared.encodes body hbody
    rw [← bind_pure (run _)]
    refine publishing_run ⟨hkafka, rfl, envelope, hprepared.drew, hsends⟩ fun _ =>
      publishing_ret ?_
    exact ⟨hprepared.append _,
      fun _ => ⟨⟨key, List.mem_append_right _ (List.mem_singleton.mpr rfl)⟩, hsends⟩,
      hunsent.append (by rintro _ _ ⟨⟩)⟩
  · rename_i hkafka
    exact publishing_ret ⟨hprepared, fun h => absurd h hkafka, hunsent⟩

/-- A bus that is not disabled has one transport at least. -/
theorem EventBus.uses {bus : EventBus} (h : bus ≠ .disabled) :
    bus.usesKafka = true ∨ bus.usesSqs = true := by
  cases bus with
  | disabled => exact absurd rfl h
  | kafka => exact .inl rfl
  | sqs => exact .inr rfl
  | dual => exact .inl rfl

theorem publishing_sqs (h : ReadyForSqs rt printer publisher call message past envelope text) :
    Publishing rt printer publisher call past
      (if publisher.eventBus.usesSqs then publisher.publishSqs message else pure ())
      fun past _ => ReadyForAlert rt printer publisher call message past envelope text := by
  split
  · rename_i hsqs
    -- whichever way the URL was found
    have hsend : ∀ {past} (url : String),
        ReadyForSqs rt printer publisher call message past envelope text →
        Publishing rt printer publisher call past (do
            let body ← Program.ofExcept message
            run (.sendMessage url body))
          fun past _ => ReadyForAlert rt printer publisher call message past envelope text := by
      intro past url h
      refine publishing_ofExcept fun body hbody => ?_
      obtain ⟨rfl, hsends⟩ := h.encodes body hbody
      rw [← bind_pure (run _)]
      refine publishing_run ⟨hsqs, h.unsent, fun hkafka => (h.kafka hkafka).1, envelope, h.drew,
        hsends⟩ fun _ => publishing_ret ?_
      exact ⟨h.toPrepared.append _, fun _ => hsends, fun hkafka => (h.kafka hkafka).1.append _,
        fun _ => ⟨url, List.mem_append_right _ (List.mem_singleton.mpr rfl)⟩⟩
    unfold EventPublisher.publishSqs
    refine publishing_run trivial fun known => ?_
    have hknown := @ReadyForSqs.append _ _ _ _ _ _ _ _ h (.inr (.queueUrl publisher.client))
      (.ok known) (by rintro _ _ ⟨⟩)
    cases known with
    | some url => exact hsend url hknown
    | none =>
      refine publishing_run trivial fun url => publishing_run trivial fun _ => ?_
      exact hsend url ((hknown.append (by rintro _ _ ⟨⟩)).append (by rintro _ _ ⟨⟩))
  · rename_i hsqs
    refine publishing_ret ⟨h.toPrepared, fun henabled => ?_, fun hkafka => (h.kafka hkafka).1,
      fun h => absurd h hsqs⟩
    exact (h.kafka ((EventBus.uses henabled).resolve_right hsqs)).2

theorem publishing_alert (h : ReadyForAlert rt printer publisher call message past envelope text) :
    Publishing rt printer publisher call past
      (if call.alert && publisher.eventBus ≠ .disabled then publisher.publishAlert call message
        else pure ())
      fun past _ => HasPublished rt printer publisher call past envelope := by
  split
  · rename_i halert
    obtain ⟨halert, henabled⟩ : call.alert = true ∧ publisher.eventBus ≠ .disabled := by
      simpa using halert
    have hpublish : ∀ {past} (arn : String),
        ReadyForAlert rt printer publisher call message past envelope text →
        Publishing rt printer publisher call past (do
            let message ← Program.ofExcept message
            run (.snsPublish ⟨arn, "AX Sentinel: " ++ call.eventType, message⟩))
          fun past _ => HasPublished rt printer publisher call past envelope := by
      intro past arn h
      refine publishing_ofExcept fun body hbody => ?_
      obtain ⟨rfl, hsends⟩ := h.encodes body hbody
      rw [← bind_pure (run _)]
      refine publishing_run ⟨halert, henabled, h.kafka, h.sqs, envelope, h.drew, hsends⟩ fun _ =>
        publishing_ret ?_
      exact ⟨h.drew.append _, body, h.writes, h.sends, fun hkafka => (h.kafka hkafka).append _,
        fun hsqs => (h.sqs hsqs).append _,
        fun _ _ => ⟨arn, _, List.mem_append_right _ (List.mem_singleton.mpr rfl)⟩⟩
    unfold EventPublisher.publishAlert
    refine publishing_run trivial fun known => ?_
    have h := h.append [⟨.inr (.topicArn publisher.client), .ok known⟩]
    cases known with
    | some arn => exact hpublish arn h
    | none =>
      refine publishing_run trivial fun topics => ?_
      split
      · exact nofun
      · rename_i arn _
        exact publishing_run trivial fun _ => hpublish arn ((h.append _).append _)
  · rename_i halert
    refine publishing_ret ⟨h.drew, text, h.writes, h.sends, h.kafka, h.sqs,
      fun hflag henabled => ?_⟩
    exact absurd (by simp [hflag, henabled]) halert

end Sending

/-- The fields of the envelope that is built. -/
theorem EventPublisher.envelope_fields {eventId correlationId : Str} {occurredAt : Instant}
    (h : publisher.envelope call eventId occurredAt correlationId = .ok envelope) :
    envelope.eventId = eventId ∧ envelope.occurredAt = occurredAt ∧
      envelope.correlationId = correlationId := by
  obtain ⟨eventType, -, h⟩ := exists_of_bind h
  obtain ⟨payload, -, h⟩ := exists_of_bind h
  obtain rfl := Except.ok.inj h
  exact ⟨rfl, rfl, rfl⟩

/-- A publication keeps to its protocol. -/
theorem publishing_publish : Publishing rt printer publisher call []
    (publisher.publish rt printer call) (HasPublished rt printer publisher call) := by
  unfold EventPublisher.publish
  have hcorrelation : Publishing rt printer publisher call []
      (EventPublisher.correlationId call) fun past _ => Unsent past := by
    unfold EventPublisher.correlationId
    split
    · exact publishing_ret unsent_nil
    · rw [← bind_pure (run _)]
      exact publishing_run trivial fun _ => publishing_ret (unsent_nil.append (by rintro _ _ ⟨⟩))
  refine publishing_bind hcorrelation fun past correlationId hunsent => ?_
  refine publishing_run trivial fun eventId => ?_
  refine ⟨trivial, fun r => ?_⟩
  cases r with
  | error e => exact nofun
  | ok occurredAt =>
    refine publishing_ofExcept fun envelope henvelope => ?_
    refine publishing_ofExcept fun serialized hserialized => ?_
    have hdrawn := @Unsent.append _ hunsent (.inr .uuid4) (.ok eventId) (by rintro _ _ ⟨⟩)
    have htimed := @Unsent.append _ hdrawn (.inl .now) (.ok occurredAt) (by rintro _ _ ⟨⟩)
    obtain ⟨hid, htime, hcorrelation⟩ := EventPublisher.envelope_fields henvelope
    have hbuilt : publisher.envelope call envelope.eventId envelope.occurredAt
        envelope.correlationId = .ok envelope := by rw [hid, htime, hcorrelation, henvelope]
    have hprepared : Prepared rt printer publisher call (printer.message serialized)
        (past ++ [⟨.inr .uuid4, .ok eventId⟩] ++ [⟨.inl .now, .ok occurredAt⟩]) envelope
        (printer.dumps serialized) := by
      refine ⟨⟨eventId, ?_, hid⟩, ⟨hbuilt, serialized, hserialized, rfl⟩, fun body hbody => ?_⟩
      · exact List.mem_append_left _ (List.mem_append_right _ (List.mem_singleton.mpr rfl))
      · obtain rfl := (message_eq_ok hbody).2
        exact ⟨rfl, hbuilt, serialized, hserialized, hbody⟩
    refine publishing_bind (publishing_kafka hprepared htimed) fun past _ h => ?_
    refine publishing_bind (publishing_sqs h) fun past _ h => ?_
    exact publishing_bind (publishing_alert h) fun past _ h => publishing_ret h

end Publisher

/-! ## What a request may do -/

namespace MessagingRequest
variable (printer : Printer) (worker : EventWorker)

/-- What a request may do next, in view of its past. -/
def Follows : MessagingRequest → MessagingMoves → messagingOps.Op → Prop
  | publish publisher call => Publishes worker.runtime printer publisher call
  | poll => Processes worker

/-- How a request ends. -/
def Finishes : MessagingRequest → MessagingMoves → Except Exc (Option Envelope) → Prop
  | publish publisher call, past, out => ∀ result, out = .ok result → ∃ envelope,
      result = some envelope ∧ HasPublished worker.runtime printer publisher call past envelope
  | poll, _, out => ∀ result, out = .ok result → result = none

/-- **Every request keeps to its protocol.** -/
theorem follows (request : MessagingRequest) : (request.code printer worker).Obeys
    (request.Follows printer worker) (request.Finishes printer worker) [] := by
  cases request with
  | publish publisher call =>
    exact publishing_bind publishing_publish fun past envelope h =>
      publishing_ret ⟨envelope, rfl, h⟩
  | poll =>
    refine Program.obeys_bind.mpr
      (processes_pollIteration.mono (fun _ _ => id) fun past out _ => ?_)
    cases out with
    | error e => exact nofun
    | ok _ =>
      rintro _ ⟨⟩
      rfl

end MessagingRequest

/-! ## Records for computed runs -/

namespace Sample

/-- A runtime that reads the text the printer writes, and dumps payloads as they are. -/
def wireRuntime : Runtime where
  jsonLoads text := match Python.JsonText.loads text with
    | some value => .ok value
    | none => .error (.other "JSONDecodeError" "Expecting value: line 1 column 1 (char 0)")
  parseInt
    | .int n => some n
    | _ => none
  parseFloat _ := none
  parseBool _ := none
  parseDatetime
    | .str (.text text) => Python.JsonText.readNat text.toList
    | _ => none
  invalidEnvelope _ := "1 validation error for EventEnvelope"
  repr _ := "None"
  errorText e := e.className
  dump value :=
    if value.keyed then .ok value
    else .error (.other "PydanticSerializationError" "Unable to serialize")
  dumpInstant := Nat.repr
  surrogateId _ := "\uFFFD"

def wirePrinter : Printer := ⟨Python.JsonText.dumps⟩

theorem wirePrinter_faithful : wirePrinter.Faithful wireRuntime where
  loads value h := by
    simp [wireRuntime, wirePrinter, Python.JsonText.loads_dumps h]
  parseInt n := rfl
  parseDatetime t := Python.JsonText.readNat_repr t
  dump fields value h := by
    simp only [wireRuntime] at h
    split at h
    · obtain rfl := Except.ok.inj h
      exact ⟨fields, rfl, ‹_›⟩
    · cases h

def eventWorker : EventWorker := ⟨wireRuntime, fun text => Python.JsonText.readInt text.toList⟩

/-- Receipt handles, one longer than the other. -/
def receiptHandles : ReceiptHandles where
  draw k := String.ofList (List.replicate (k + 1) 'a')
  injective m n h := by
    have hlength := congrArg String.length h
    simpa using hlength
  stripped k := by
    have hdrop : (List.replicate (k + 1) 'a').dropWhile Python.isSpace =
        List.replicate (k + 1) 'a' := by
      rw [List.replicate_succ, List.dropWhile_cons_of_neg (by decide)]
    have hrdrop : (List.replicate (k + 1) 'a').rdropWhile Python.isSpace =
        List.replicate (k + 1) 'a' := by
      rw [List.replicate_succ', List.rdropWhile_concat_neg _ _ _ (by decide)]
    rw [Python.strip, String.toList_ofList, hdrop, hrdrop]
  nonempty k h := by
    have hlength := congrArg String.length h
    simp at hlength

def wireBrokers : Brokers := ⟨"ax-events", "http://sqs/ax-events", ["arn:aws:sns:ax-alerts"], 3⟩

/-- A publisher to both transports. -/
def dualPublisher : EventPublisher := ⟨0, "incident", .dual, "ax-events", "ax-alerts"⟩

def detectedCall : PublishCall where
  eventType := "incident.detected"
  payload := [(.text "incident_id", .text "incident-1")]
  key := none
  actorId := none
  correlationId := none
  causationId := none
  alert := true

/-- The first message is received, and gets an id. -/
def firstChoice : (messaging wireBrokers).Choice :=
  ((7, { (default : BrokerChoice) with picked := [0], messageId := "message-1" }), .none)

/-- A publication and an iteration of a worker, and the given turns of both. -/
def deliveredEvents (turns : List Nat) : Pipeline wireBrokers :=
  System.run (MessagingRequest.code wirePrinter eventWorker)
    ([.arrive (.publish dualPublisher detectedCall), .arrive .poll] ++
      turns.map fun i => .advance i firstChoice)
    (System.start (messagingStart wireBrokers .unary receiptHandles))

theorem reachable_deliveredEvents (turns : List Nat) :
    Pipeline.Reachable wirePrinter eventWorker .unary receiptHandles (deliveredEvents turns) :=
  ⟨_, rfl⟩

theorem request_deliveredEvents (turns : List Nat) :
    (deliveredEvents turns).request 0 = some (.publish dualPublisher detectedCall) := by
  rw [deliveredEvents, System.run, List.cons_append, List.foldl_cons]
  exact List.foldlRecOn (motive := fun s : Pipeline wireBrokers => s.request 0 =
    some (.publish dualPublisher detectedCall)) _ _ rfl fun _ hs a _ => System.request_step a hs

end Sample
end AxSentinel
