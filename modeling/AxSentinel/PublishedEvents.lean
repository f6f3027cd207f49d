import AxSentinel.Transports

/-! # A published event is recorded as it was published

What a publisher returned, and sent to SQS, is a message of the queue; no other message has its
event id, which was drawn for it alone (`Dispatch.unique`).  With the round trip of an envelope,
the event that is stored under that id is the one that was published (`published_recorded`). -/
namespace AxSentinel
open Effects Messaging
open Python (Json Str)

/-! ## The text of an envelope -/

section Text
variable {printer : Printer} {worker : EventWorker} {publisher : EventPublisher}
  {call : PublishCall} {envelope : Envelope} {text : String}

/-- What is sent of an envelope is its text, with its payload dumped. -/
theorem written_of_sends {rt : Runtime} (hfaithful : printer.Faithful rt)
    (h : Sends rt printer publisher call envelope text) :
    ∃ dumped, rt.dump (.dict envelope.payload) = .ok (.dict dumped) ∧
      (envelope.document rt dumped).Clean ∧ text = envelope.written rt printer dumped := by
  obtain ⟨-, serialized, hserialized, hmessage⟩ := h
  obtain ⟨payload, hpayload, hserialized⟩ := exists_of_bind hserialized
  obtain rfl := Except.ok.inj hserialized
  obtain ⟨dumped, rfl, hkeyed⟩ := hfaithful.dump _ _ hpayload
  obtain ⟨hencodable, rfl⟩ := message_eq_ok hmessage
  exact ⟨dumped, hpayload, envelope.clean_document hkeyed hencodable, rfl⟩

/-- A worker reads the envelope that was written. -/
theorem eq_of_reads (hfaithful : printer.Faithful worker.runtime)
    (hcounts : ∀ n : Nat, worker.readInt (toString n) = some n) {message : QueuedMessage}
    {read : Envelope} {receiveCount : Int} {dumped : List (Str × Json)}
    (hclean : (envelope.document worker.runtime dumped).Clean)
    (hbody : message.body = envelope.written worker.runtime printer dumped)
    (hreads : worker.Reads message read receiveCount) : read = envelope.withPayload dumped := by
  obtain ⟨-, fresh, count, hparse⟩ := hreads
  rw [hbody, parse_written envelope hfaithful hclean worker.readInt fresh _ _ _ (hcounts count)]
    at hparse
  exact (Prod.mk.inj (Except.ok.inj hparse)).1.symm

/-- The text tells the envelope, with its payload dumped. -/
theorem eq_of_written (hfaithful : printer.Faithful worker.runtime)
    (hcounts : ∀ n : Nat, worker.readInt (toString n) = some n) {envelope' : Envelope}
    {dumped dumped' : List (Str × Json)}
    (hclean : (envelope.document worker.runtime dumped).Clean)
    (hclean' : (envelope'.document worker.runtime dumped').Clean)
    (h : envelope.written worker.runtime printer dumped =
      envelope'.written worker.runtime printer dumped') :
    envelope.withPayload dumped = envelope'.withPayload dumped' := by
  have hparse := parse_written envelope hfaithful hclean worker.readInt ⟨"", 0, ""⟩ none _ _
    (hcounts 0)
  rw [h, parse_written envelope' hfaithful hclean' worker.readInt _ none _ _ (hcounts 0)] at hparse
  exact (Prod.mk.inj (Except.ok.inj hparse)).1.symm

/-- **Both consumers read what a publisher sends**: the SQS worker whatever the message's id and
the defaults it draws, the Kafka worker without drawing any. -/
theorem consumers_agree {rt : Runtime} (hfaithful : printer.Faithful rt)
    (h : Sends rt printer publisher call envelope text) (readInt : String → Option Int) :
    ∃ dumped, rt.dump (.dict envelope.payload) = .ok (.dict dumped) ∧
      (∀ fresh messageId count receiveCount, readInt count = some receiveCount →
        parseEventMessage rt readInt fresh ⟨some text, messageId, some count⟩ =
          .ok (envelope.withPayload dumped, receiveCount)) ∧
      ∃ value, deserialize rt (some text.toUTF8) = .ok value ∧
        EventEnvelope.modelValidate rt value = pure (envelope.withPayload dumped) := by
  obtain ⟨dumped, hdumped, hclean, rfl⟩ := written_of_sends hfaithful h
  exact ⟨dumped, hdumped, fun fresh messageId count receiveCount =>
    parse_written envelope hfaithful hclean readInt fresh messageId count receiveCount,
    modelValidate_written envelope hfaithful hclean⟩

end Text

/-- The envelope of a detected incident. -/
theorem consumers_agree_detected : ∃ envelope text dumped,
    Sends Sample.wireRuntime Sample.wirePrinter Sample.dualPublisher Sample.detectedCall envelope
        text ∧ envelope.eventId = .text "a" ∧
      parseEventMessage Sample.wireRuntime Sample.eventWorker.readInt ⟨"b", 9, "c"⟩
        ⟨some text, none, some "2"⟩ = .ok (envelope.withPayload dumped, 2) ∧
      ∃ value, deserialize Sample.wireRuntime (some text.toUTF8) = .ok value ∧
        EventEnvelope.modelValidate Sample.wireRuntime value =
          pure (envelope.withPayload dumped) := by
  obtain ⟨envelope, henvelope⟩ : ∃ envelope,
      Sample.dualPublisher.envelope Sample.detectedCall (.text "a") 7 (.text "c") = .ok envelope :=
    ⟨_, rfl⟩
  obtain ⟨hid, htime, hcorrelation⟩ := EventPublisher.envelope_fields henvelope
  have hpayload : envelope.payload = Sample.detectedCall.payload := by
    cases henvelope
    rfl
  have hsends : Sends Sample.wireRuntime Sample.wirePrinter Sample.dualPublisher
      Sample.detectedCall envelope
        (envelope.written Sample.wireRuntime Sample.wirePrinter Sample.detectedCall.payload) := by
    refine ⟨by rw [hid, htime, hcorrelation, henvelope],
      envelope.document Sample.wireRuntime Sample.detectedCall.payload, ?_, ?_⟩
    · rw [EventEnvelope.modelDump, hpayload]
      rfl
    · cases henvelope
      rfl
  obtain ⟨dumped, -, hsqs, hkafka⟩ := consumers_agree Sample.wirePrinter_faithful hsends
    Sample.eventWorker.readInt
  exact ⟨envelope, _, dumped, hsends, hid, hsqs _ _ _ _ (by decide), hkafka⟩

/-! ## One message for a publication -/

section Publications
variable {brokers : Brokers} {printer : Printer} {worker : EventWorker} {uuids : UuidSupply}
  {receipts : ReceiptHandles} {request : Nat → Option MessagingRequest}
  {h : List (Event (messaging brokers))} {w : (messaging brokers).World}

/-- The text at `n` of the queue is what thread `i` sent, the envelope's. -/
structure Dispatch (printer : Printer) (worker : EventWorker)
    (request : Nat → Option MessagingRequest) (h : List (Event (messaging brokers))) (i n : Nat)
    (text : String) (publisher : EventPublisher) (call : PublishCall) (envelope : Envelope) :
    Prop where
  request : request i = some (.publish publisher call)
  drew : DrewId (past i h) envelope
  sends : Sends worker.runtime printer publisher call envelope text
  sent : ∃ (k : Nat) (e : Event (messaging brokers)) (url : String), h[k]? = some e ∧
    e.thread = i ∧ e.before.2.queue.messages.length = n ∧
    e.move.op = .inr (.sendMessage url text) ∧
    Publishes worker.runtime printer publisher call (past e.thread (h.take k)) e.move.op

/-- Every message of the queue is what some thread sent of an envelope. -/
theorem dispatch_of_message
    (H : MessagingHistory brokers printer worker uuids receipts request h w) {n : Nat}
    {message : QueuedMessage} (hn : w.2.queue.messages[n]? = some message) :
    ∃ i publisher call envelope,
      Dispatch printer worker request h i n message.body publisher call envelope := by
  obtain ⟨k, e, publisher, call, url, hk, hlength, hreq, hop, hpublishes⟩ :=
    publisher_of_message H hn
  have hallowed := hpublishes
  rw [hop] at hallowed
  obtain ⟨-, -, -, envelope, ⟨id, hdrawn, hid⟩, hsends⟩ := hallowed
  exact ⟨e.thread, publisher, call, envelope, hreq, ⟨id, mem_past_of_take hdrawn, hid⟩,
    hsends, k, e, url, hk, rfl, hlength, hop, hpublishes⟩

/-- The thread that drew an event id is the only one to send it, and it sends once. -/
theorem Dispatch.unique (H : MessagingHistory brokers printer worker uuids receipts request h w)
    {i i' n n' : Nat} {text text' : String} {publisher publisher' : EventPublisher}
    {call call' : PublishCall} {envelope envelope' : Envelope}
    (p : Dispatch printer worker request h i n text publisher call envelope)
    (p' : Dispatch printer worker request h i' n' text' publisher' call' envelope')
    (hid : envelope.eventId = envelope'.eventId) : n = n' := by
  obtain ⟨id, hdrawn, hdrew⟩ := p.drew
  obtain ⟨id', hdrawn', hdrew'⟩ := p'.drew
  obtain rfl : id = id' := Str.text.inj (hdrew.symm.trans (hid.trans hdrew'))
  obtain rfl : i = i' :=
    (idDrawing brokers uuids).thread_unique H rfl hdrawn rfl hdrawn' rfl
  obtain ⟨rfl, rfl⟩ := MessagingRequest.publish.inj
    (Option.some.inj (p.request.symm.trans p'.request))
  obtain ⟨k, e, url, hk, hthread, rfl, hop, hpublishes⟩ := p.sent
  obtain ⟨k', e', url', hk', hthread', rfl, hop', hpublishes'⟩ := p'.sent
  obtain rfl := send_unique hk hk' (hthread.trans hthread'.symm) hop hop' hpublishes hpublishes'
  rw [Option.some.inj (hk.symm.trans hk')]

end Publications

/-! ## What is stored -/

section Recorded
variable {brokers : Brokers} {printer : Printer} {worker : EventWorker} {uuids : UuidSupply}
  {receipts : ReceiptHandles} {s : Pipeline brokers}

/-- What has become of a published envelope: it waits in the queue, it was received as often as
allowed and is in the dead-letter queue, or it is stored as it was published. -/
inductive Recorded (printer : Printer) (worker : EventWorker) (w : (messaging brokers).World)
    (envelope : Envelope) (dumped : List (Str × Json)) : Prop
  | waiting {n : Nat} {message : QueuedMessage} : w.2.queue.messages[n]? = some message →
      message.body = envelope.written worker.runtime printer dumped → w.2.queue.place n = .queue →
      Recorded printer worker w envelope dumped
  | deadLettered {n : Nat} {message : QueuedMessage} : w.2.queue.messages[n]? = some message →
      message.body = envelope.written worker.runtime printer dumped →
      w.2.queue.place n = .deadLetterQueue →
      brokers.maxReceiveCount ≤ w.2.queue.receiveCount n →
      Recorded printer worker w envelope dumped
  | stored {item : Item (Attributes ProcessedEvent)} {receiveCount : Int} {processedAt : Instant} :
      w.1.lookup (worker.keyOf envelope) = some item →
      item.attributes.data = EventWorker.processedEvent (envelope.withPayload dumped) receiveCount
        processedAt → Recorded printer worker w envelope dumped

/-- The event stored under the id of a message that was published is of that message. -/
theorem data_of_stored (hfaithful : printer.Faithful worker.runtime)
    (hcounts : ∀ n : Nat, worker.readInt (toString n) = some n)
    (hs : Pipeline.Reachable printer worker uuids receipts s) {n : Nat} {message : QueuedMessage}
    {envelope : Envelope} {dumped : List (Str × Json)}
    (hclean : (envelope.document worker.runtime dumped).Clean)
    (hn : s.world.2.queue.messages[n]? = some message)
    (hbody : message.body = envelope.written worker.runtime printer dumped)
    {item : Item (Attributes ProcessedEvent)}
    (hitem : s.world.1.lookup (worker.keyOf envelope) = some item) :
    ∃ receiveCount processedAt, item.attributes.data =
      EventWorker.processedEvent (envelope.withPayload dumped) receiveCount processedAt := by
  have H := hs.conforms.history
  obtain ⟨n', message', read, receiveCount, processedAt, hn', hreads, hkey, hdata⟩ :=
    hs.sound.recorded _ item hitem
  obtain ⟨i, publisher, call, sent, d⟩ := dispatch_of_message H hn
  obtain ⟨i', publisher', call', sent', d'⟩ := dispatch_of_message H hn'
  obtain ⟨dumped₁, -, hclean₁, hbody₁⟩ := written_of_sends hfaithful d.sends
  obtain ⟨dumped', -, hclean', hbody'⟩ := written_of_sends hfaithful d'.sends
  have hsent := eq_of_written hfaithful hcounts hclean hclean₁ (hbody.symm.trans hbody₁)
  have hid : (envelope.withPayload dumped).eventId = (sent.withPayload dumped₁).eventId := by
    rw [hsent]
  have hread := eq_of_reads hfaithful hcounts hclean' hbody' hreads
  -- both ids were drawn, so the table keeps the events under the ids themselves
  have hid' : envelope.eventId = read.eventId := by
    obtain ⟨id, -, hdrew⟩ := d.drew
    obtain ⟨id', -, hdrew'⟩ := d'.drew
    have henvelope : envelope.eventId = .text id := hid.trans hdrew
    have hread' : read.eventId = .text id' := by
      rw [hread]
      exact hdrew'
    have hsame := (Key.mk.inj hkey).2
    rw [henvelope, hread'] at hsame
    rw [henvelope, hread', show id = id' from hsame]
  rw [hread] at hid'
  obtain rfl := d.unique H d' (hid.symm.trans hid')
  obtain rfl := Option.some.inj (hn.symm.trans hn')
  rw [eq_of_reads hfaithful hcounts hclean hbody hreads] at hdata
  exact ⟨receiveCount, processedAt, hdata⟩

/-- **A published event is recorded as it was published.**  In every run, an envelope that was
returned and sent to SQS waits in the queue, is in the dead-letter queue after as many receives as
allowed, or is stored as it is, with its payload dumped. -/
theorem published_recorded (hfaithful : printer.Faithful worker.runtime)
    (hcounts : ∀ n : Nat, worker.readInt (toString n) = some n)
    (hs : Pipeline.Reachable printer worker uuids receipts s) {i : Nat}
    {publisher : EventPublisher} {call : PublishCall} {envelope : Envelope}
    (hrequest : s.request i = some (.publish publisher call))
    (hreturned : s.outcome i = some (.ok (some envelope)))
    (hsqs : publisher.eventBus.usesSqs = true) :
    ∃ dumped, worker.runtime.dump (.dict envelope.payload) = .ok (.dict dumped) ∧
      Recorded printer worker s.world envelope dumped := by
  obtain ⟨_, hsome, -, text, -, hsends, -, hsent, -⟩ :=
    hs.conforms.outcome hrequest hreturned _ rfl
  obtain rfl := Option.some.inj hsome
  have henabled : publisher.eventBus ≠ .disabled := by
    intro hdisabled
    rw [hdisabled] at hsqs
    cases hsqs
  obtain ⟨dumped, hdumped, hclean, htext⟩ := written_of_sends hfaithful (hsends henabled)
  obtain ⟨message, hmessage, hbody⟩ := hasOnSqs_of_sent hs.conforms.history (hsent hsqs)
  obtain ⟨n, hn⟩ := List.mem_iff_getElem?.mp hmessage
  have hwritten := hbody.trans htext
  refine ⟨dumped, hdumped, ?_⟩
  cases hs.sound.kept hn with
  | waiting hplace => exact .waiting hn hwritten hplace
  | deadLettered hplace hcount => exact .deadLettered hn hwritten hplace hcount
  | stored hreads hitem =>
    rw [eq_of_reads hfaithful hcounts hclean hwritten hreads] at hitem
    obtain ⟨receiveCount, processedAt, hdata⟩ :=
      data_of_stored hfaithful hcounts hs hclean hn hwritten hitem
    exact .stored hitem hdata

/-- **What Kafka has is never invalid.**  In every run, each message in Kafka is in a topic the
Kafka worker subscribes to, and the worker reads it as the envelope a publisher built. -/
theorem kafka_consumable (hfaithful : printer.Faithful worker.runtime)
    (hs : Pipeline.Reachable printer worker uuids receipts s) :
    ∀ message ∈ s.world.2.kafka, message.topic ∈ kafkaTopics ∧ message.topic ≠ kafkaDlqTopic ∧
      ∃ i publisher call envelope dumped value,
        s.request i = some (.publish publisher call) ∧
        publisher.envelope call envelope.eventId envelope.occurredAt envelope.correlationId =
          .ok envelope ∧
        worker.runtime.dump (.dict envelope.payload) = .ok (.dict dumped) ∧
        deserialize worker.runtime (some message.value.toUTF8) = .ok value ∧
        EventEnvelope.modelValidate worker.runtime value =
          pure (envelope.withPayload dumped) := by
  intro message hmessage
  obtain ⟨i, publisher, call, envelope, hreq, -, htopic, hsends⟩ :=
    publisher_of_kafka hs.conforms.history hmessage
  obtain ⟨dumped, hdumped, hclean, htext⟩ := written_of_sends hfaithful hsends
  obtain ⟨value, hvalue, hread⟩ := modelValidate_written envelope hfaithful hclean
  rw [← htext] at hvalue
  have hsubscribed := topicFor_subscribed call.eventType
  rw [← htopic] at hsubscribed
  exact ⟨hsubscribed.1, hsubscribed.2, i, publisher, call, envelope, dumped, value, hreq,
    hsends.1, hdumped, hvalue, hread⟩

end Recorded

/-- A dual publisher has sent to Kafka. -/
theorem kafka_consumable_sentFirst :
    ∃ message ∈ (Sample.deliveredEvents (List.replicate 5 0)).world.2.kafka,
      message.topic ∈ kafkaTopics ∧ ∃ value envelope,
        deserialize Sample.wireRuntime (some message.value.toUTF8) = .ok value ∧
        EventEnvelope.modelValidate Sample.wireRuntime value = pure envelope := by
  have hsent : ((Sample.deliveredEvents (List.replicate 5 0)).world.2.kafka[0]?).isSome = true := by
    decide +kernel
  obtain ⟨message, hmessage⟩ := Option.isSome_iff_exists.mp hsent
  obtain ⟨htopic, -, _, _, _, envelope, dumped, value, -, -, -, hvalue, hread⟩ :=
    kafka_consumable Sample.wirePrinter_faithful (Sample.reachable_deliveredEvents _) message
      (List.mem_of_getElem? hmessage)
  exact ⟨message, List.mem_of_getElem? hmessage, htopic, value, _, hvalue, hread⟩

/-- A publication, and an iteration of a worker that stores its event and deletes the message. -/
def storedOnce : Pipeline Sample.wireBrokers :=
  Sample.deliveredEvents (List.replicate 12 0 ++ List.replicate 8 1)

/-- The one publication is stored as it was published. -/
theorem published_recorded_receivedOnce : ∃ envelope dumped item receiveCount processedAt,
    storedOnce.outcome 0 = some (.ok (some envelope)) ∧
      Sample.wireRuntime.dump (.dict envelope.payload) = .ok (.dict dumped) ∧
      storedOnce.world.1.lookup (Sample.eventWorker.keyOf envelope) = some item ∧
      item.attributes.data =
        EventWorker.processedEvent (envelope.withPayload dumped) receiveCount processedAt := by
  have hreach : Pipeline.Reachable Sample.wirePrinter Sample.eventWorker .unary
      Sample.receiptHandles storedOnce := Sample.reachable_deliveredEvents _
  obtain ⟨hreturned, hone, hplace⟩ :
      ((storedOnce.outcome 0).bind fun out => out.toOption.join).isSome = true ∧
        storedOnce.world.2.queue.messages.length = 1 ∧
        storedOnce.world.2.queue.place 0 = .deleted := by decide +kernel
  obtain ⟨envelope, henvelope⟩ := Option.isSome_iff_exists.mp hreturned
  obtain ⟨out, houtcome, hout⟩ := Option.bind_eq_some_iff.mp henvelope
  -- the only message is deleted, so neither waiting nor given up
  have hdeleted : ∀ {n message}, storedOnce.world.2.queue.messages[n]? = some message →
      storedOnce.world.2.queue.place n = .deleted := by
    intro n message hn
    have hlt := (List.getElem?_eq_some_iff.mp hn).1
    obtain rfl : n = 0 := by omega
    exact hplace
  cases out with
  | error e => cases hout
  | ok answer =>
    obtain rfl : answer = some envelope := hout
    obtain ⟨dumped, hdumped, hrecorded⟩ := published_recorded Sample.wirePrinter_faithful
      (fun n => Python.JsonText.readInt_repr n) hreach (Sample.request_deliveredEvents _) houtcome
      rfl
    cases hrecorded with
    | waiting hn _ hplace => cases (hdeleted hn).symm.trans hplace
    | deadLettered hn _ hplace _ => cases (hdeleted hn).symm.trans hplace
    | stored hitem hdata => exact ⟨envelope, dumped, _, _, _, houtcome, hdumped, hitem, hdata⟩

end AxSentinel
