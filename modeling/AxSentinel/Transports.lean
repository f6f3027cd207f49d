import AxSentinel.Journals
import AxSentinel.SqsDelivery

/-! # What the transports have

In every run of publishers and workers, whatever is in the queue, the Kafka log or the alerts was
put there by a publisher, as the text of an envelope whose id it drew.  A dual publisher sends to
Kafka first and alerts last, so a message of its that SQS has is in the Kafka log too, and an alert
is out only if the transports have the event (`transports_agree`).  No two messages of the queue
are of one publication (`sender_unique`). -/
namespace AxSentinel
open Effects Messaging
open Python (Json Str)

/-! ## The journals of the brokers -/

section Steps
variable {brokers : Brokers} {w w' : BrokerWorld} {op : BrokerOp}

/-- Only a message that is sent is added to the queue. -/
theorem BrokerStep.messages (h : BrokerStep brokers w op w') :
    w'.queue.messages = w.queue.messages ∨ ∃ message : QueuedMessage,
      (∃ url, op = .sendMessage url message.body) ∧
        w'.queue.messages = w.queue.messages ++ [message] := by
  cases h with
  | sendMessage url body messageId => exact .inr ⟨⟨messageId, body⟩, ⟨url, rfl⟩, rfl⟩
  | receiveMessage limit queue hreceives => exact .inl hreceives.messages
  | deleteMessage receiptHandle n k hholder =>
    dsimp only [SqsWorld.delete]
    split <;> exact .inl rfl
  | quiet _ hqueue => exact .inl (congrArg SqsWorld.messages hqueue)
  | _ => exact .inl rfl

theorem BrokerStep.kafka (h : BrokerStep brokers w op w') :
    w'.kafka = w.kafka ∨ ∃ message, op = .kafkaSend message ∧ w'.kafka = w.kafka ++ [message] := by
  cases h with
  | kafkaSend message => exact .inr ⟨message, rfl, rfl⟩
  | quiet _ _ hkafka => exact .inl hkafka
  | _ => exact .inl rfl

theorem BrokerStep.alerts (h : BrokerStep brokers w op w') :
    w'.alerts = w.alerts ∨ ∃ alert, op = .snsPublish alert ∧ w'.alerts = w.alerts ++ [alert] := by
  cases h with
  | snsPublish alert => exact .inr ⟨alert, rfl, rfl⟩
  | quiet _ _ _ halerts => exact .inl halerts
  | _ => exact .inl rfl

/-- Only `uuid4` draws an id. -/
theorem BrokerStep.supply (h : BrokerStep brokers w op w') : w'.uuids = w.uuids ∧
    ((op = .uuid4 ∧ w'.drawn = w.drawn + 1) ∨ (op ≠ .uuid4 ∧ w'.drawn = w.drawn)) := by
  cases h with
  | uuid4 => exact ⟨rfl, .inl ⟨rfl, rfl⟩⟩
  | quiet hop _ _ _ huuids hdrawn => exact ⟨huuids, .inr ⟨hop, hdrawn⟩⟩
  | _ => exact ⟨rfl, .inr ⟨nofun, rfl⟩⟩

end Steps

section Journals
variable (brokers : Brokers)

/-- A list the brokers append to. -/
def brokerJournal {A : Type} (entries : BrokerWorld → List A) (appends : BrokerOp → A → Prop)
    (step : ∀ op w w', BrokerStep brokers w op w' →
      entries w' = entries w ∨ ∃ a, appends op a ∧ entries w' = entries w ++ [a]) :
    Journal (messaging brokers) A :=
  Journal.faulty (M := workingBrokers brokers)
    { entries := fun w => entries w.2
      appends := fun op a => ∃ op', op = .inr op' ∧ appends op' a
      step := fun op c w => by
        cases op with
        | inl op => exact .inl rfl
        | inr op =>
          refine (step op w.2 _ (brokerStep_exec brokers op c.2 w.2)).imp_right ?_
          rintro ⟨a, ha, hentries⟩
          exact ⟨a, ⟨op, rfl, ha⟩, hentries⟩ }
    mayFail

/-- The messages that were sent to the queue. -/
def queueJournal : Journal (messaging brokers) QueuedMessage :=
  brokerJournal brokers (fun w => w.queue.messages)
    (fun op message => ∃ url, op = .sendMessage url message.body) fun _ _ _ => BrokerStep.messages

/-- The messages that were sent to Kafka. -/
def kafkaJournal : Journal (messaging brokers) KafkaMessage :=
  brokerJournal brokers (fun w => w.kafka) (fun op message => op = .kafkaSend message)
    fun _ _ _ => BrokerStep.kafka

/-- The alerts that were published. -/
def alertJournal : Journal (messaging brokers) Alert :=
  brokerJournal brokers (fun w => w.alerts) (fun op alert => op = .snsPublish alert)
    fun _ _ _ => BrokerStep.alerts

/-- The ids the publishers draw. -/
def idDrawing (uuids : UuidSupply) : Drawing (messaging brokers) String where
  draw := uuids.draw
  injective := uuids.injective
  drawn
    | ⟨.inr .uuid4, .ok id⟩ => some id
    | _ => none
  issued w := w.2.drawn
  Supplied w := w.2.uuids = uuids
  supplied op c w h := by
    have hworking : ∀ c, ((workingBrokers brokers).exec op c w).2.2.uuids = uuids := by
      intro c
      cases op with
      | inl op => exact h
      | inr op => exact (brokerStep_exec brokers op c.2 w.2).supply.1.trans h
    rcases (workingBrokers brokers).faulty_exec mayFail op c w with
      hsame | ⟨e, -, -, hsame | hsame⟩
    · rw [hsame]
      exact hworking c.1
    · rw [hsame]
      exact h
    · rw [hsame]
      exact hworking c.1
  step op c w h := by
    by_cases huuid : op = .inr .uuid4
    · subst huuid
      rcases (workingBrokers brokers).faulty_exec mayFail (.inr .uuid4) c w with
        hsame | ⟨e, hraises, -, -⟩
      · rw [hsame]
        exact .inl ⟨congrArg some (congrArg (fun uuids => uuids.draw w.2.drawn) h), rfl⟩
      · cases hraises
    · have hworking : ∀ c, ((workingBrokers brokers).exec op c w).2.2.drawn = w.2.drawn := by
        intro c
        cases op with
        | inl op => rfl
        | inr op =>
          rcases (brokerStep_exec brokers op c.2 w.2).supply.2 with ⟨rfl, -⟩ | ⟨-, hdrawn⟩
          · exact absurd rfl huuid
          · exact hdrawn
      refine .inr ⟨?_, ?_⟩
      · split
        · rename_i heq
          exact absurd (Move.mk.inj heq).1 huuid
        · rfl
      · rcases (workingBrokers brokers).faulty_exec mayFail op c w with
          hsame | ⟨e, -, -, hsame | hsame⟩
        · rw [hsame, hworking]
        · rw [hsame]
        · rw [hsame, hworking]

end Journals

/-! ## What was sent is there -/

namespace BrokerWorld
variable (w : BrokerWorld) (call : PublishCall) (text : String)

/-- The text is in the Kafka log, in the topic of the event. -/
def HasOnKafka : Prop := ∃ message ∈ w.kafka, message.topic = topicFor call.eventType ∧
  message.value = text

/-- The text was sent to the queue. -/
def HasOnSqs : Prop := ∃ message ∈ w.queue.messages, message.body = text

/-- The text was published as an alert. -/
def HasAlert : Prop := ∃ alert ∈ w.alerts, alert.message = text

end BrokerWorld

section Origins
variable {brokers : Brokers} {printer : Printer} {worker : EventWorker} {uuids : UuidSupply}
  {receipts : ReceiptHandles} {request : Nat → Option MessagingRequest}
  {h : List (Event (messaging brokers))} {w : (messaging brokers).World} {call : PublishCall}
  {text : String} {i : Nat}

theorem hasOnKafka_of_sent (H : MessagingHistory brokers printer worker uuids receipts request h w)
    (hsent : SentKafka call (past i h) text) : w.2.HasOnKafka call text := by
  obtain ⟨key, hmove⟩ := hsent
  exact (kafkaJournal brokers).mem_of_replied H hmove fun _ _ _ =>
    ⟨_, List.mem_append_right _ (List.mem_singleton.mpr rfl), rfl, rfl⟩

theorem hasOnSqs_of_sent (H : MessagingHistory brokers printer worker uuids receipts request h w)
    (hsent : SentSqs (past i h) text) : w.2.HasOnSqs text := by
  obtain ⟨url, hmove⟩ := hsent
  refine (queueJournal brokers).mem_of_replied H hmove fun c w hreply => ?_
  by_cases hurl : url = brokers.queueUrl
  · simp only [hurl, if_true]
    exact ⟨⟨c.2.messageId, text⟩, List.mem_append_right _ (List.mem_singleton.mpr rfl), rfl⟩
  · simp only [hurl, if_false] at hreply
    cases hreply

theorem hasAlert_of_sent (H : MessagingHistory brokers printer worker uuids receipts request h w)
    (hsent : SentAlert (past i h) text) : w.2.HasAlert text := by
  obtain ⟨arn, subject, hmove⟩ := hsent
  refine (alertJournal brokers).mem_of_replied H hmove fun c w hreply => ?_
  by_cases harn : arn ∈ brokers.topicArns
  · simp only [harn, if_true]
    exact ⟨⟨arn, subject, text⟩, List.mem_append_right _ (List.mem_singleton.mpr rfl), rfl⟩
  · simp only [harn, if_false] at hreply
    cases hreply

/-- An entry of a broker was put there by a publisher, as it was allowed to. -/
theorem publisher_of_entry {A : Type} (J : Journal (messaging brokers) A)
    (H : MessagingHistory brokers printer worker uuids receipts request h w)
    (hstart : J.entries (messagingStart brokers uuids receipts) = [])
    (hpoll : ∀ op a past, J.appends op a → ¬ Processes worker past op) {n : Nat} {a : A}
    (hn : (J.entries w)[n]? = some a) :
    ∃ (k : Nat) (e : Event (messaging brokers)) (publisher : EventPublisher) (call : PublishCall),
      h[k]? = some e ∧ (J.entries e.before).length = n ∧
      request e.thread = some (.publish publisher call) ∧ J.appends e.move.op a ∧
      Publishes worker.runtime printer publisher call (past e.thread (h.take k)) e.move.op := by
  obtain ⟨k, e, hk, happends, hlength⟩ := J.origin H hstart hn
  obtain ⟨-, ⟨req, hreq, hfollows⟩, -⟩ := H.at_position hk
  cases req with
  | publish publisher call =>
    exact ⟨k, e, publisher, call, hk, hlength, hreq, happends, hfollows⟩
  | poll => exact absurd hfollows (hpoll _ _ _ happends)

/-- A message of the queue was sent by a publisher. -/
theorem publisher_of_message
    (H : MessagingHistory brokers printer worker uuids receipts request h w) {n : Nat}
    {message : QueuedMessage} (hn : w.2.queue.messages[n]? = some message) :
    ∃ (k : Nat) (e : Event (messaging brokers)) (publisher : EventPublisher) (call : PublishCall)
      (url : String), h[k]? = some e ∧ e.before.2.queue.messages.length = n ∧
      request e.thread = some (.publish publisher call) ∧
      e.move.op = .inr (.sendMessage url message.body) ∧
      Publishes worker.runtime printer publisher call (past e.thread (h.take k)) e.move.op := by
  obtain ⟨k, e, publisher, call, hk, hlength, hreq, ⟨op, hop, url, rfl⟩, hpublishes⟩ :=
    publisher_of_entry (queueJournal brokers) H rfl
      (by rintro _ _ _ ⟨_, rfl, url, rfl⟩; exact id) hn
  exact ⟨k, e, publisher, call, url, hk, hlength, hreq, hop, hpublishes⟩

/-- A message of the Kafka log was sent by a publisher. -/
theorem publisher_of_kafka (H : MessagingHistory brokers printer worker uuids receipts request h w)
    {message : KafkaMessage} (hmem : message ∈ w.2.kafka) : ∃ i publisher call envelope,
      request i = some (.publish publisher call) ∧ publisher.eventBus.usesKafka = true ∧
      message.topic = topicFor call.eventType ∧
      Sends worker.runtime printer publisher call envelope message.value := by
  obtain ⟨n, hn⟩ := List.mem_iff_getElem?.mp hmem
  obtain ⟨k, e, publisher, call, -, -, hreq, ⟨op, hop, rfl⟩, hpublishes⟩ :=
    publisher_of_entry (kafkaJournal brokers) H rfl (by rintro _ _ _ ⟨_, rfl, rfl⟩; exact id) hn
  rw [hop] at hpublishes
  obtain ⟨hkafka, htopic, envelope, hsends⟩ := hpublishes
  exact ⟨e.thread, publisher, call, envelope, hreq, hkafka, htopic, hsends.2⟩

/-- A publisher sends to the queue once. -/
theorem send_unique {k k' : Nat} {e e' : Event (messaging brokers)} {publisher : EventPublisher}
    {url url' body body' : String} (hk : h[k]? = some e) (hk' : h[k']? = some e')
    (hthread : e.thread = e'.thread) (hop : e.move.op = .inr (.sendMessage url body))
    (hop' : e'.move.op = .inr (.sendMessage url' body'))
    (hpublishes : Publishes worker.runtime printer publisher call (past e.thread (h.take k))
      e.move.op)
    (hpublishes' : Publishes worker.runtime printer publisher call (past e'.thread (h.take k'))
      e'.move.op) : k = k' := by
  have hearlier : ∀ {j j' : Nat} {d d' : Event (messaging brokers)} {url url' body body' : String},
      h[j]? = some d → d.thread = d'.thread → d.move.op = .inr (.sendMessage url body) →
      d'.move.op = .inr (.sendMessage url' body') →
      Publishes worker.runtime printer publisher call (past d'.thread (h.take j')) d'.move.op →
      ¬ j < j' := by
    intro j j' d d' url url' body body' hj hthread hop hop' hpublishes hlt
    rw [hop'] at hpublishes
    exact hpublishes.2.1 d.move (mem_past_of_lt hj hthread hlt) url body hop
  rcases Nat.lt_trichotomy k k' with hlt | heq | hgt
  · exact absurd hlt (hearlier hk hthread hop hop' hpublishes')
  · exact heq
  · exact absurd hgt (hearlier hk' hthread.symm hop' hop hpublishes)

end Origins

/-! ## Agreement -/

section Agreement
variable {brokers : Brokers} {printer : Printer} {worker : EventWorker} {uuids : UuidSupply}
  {receipts : ReceiptHandles}

/-- What the transports have agrees: each has only texts that publishers wrote and encoded, and what
a dual publisher puts on the later ones, or returns, is on the earlier ones. -/
structure TransportsAgree (printer : Printer) (worker : EventWorker) (s : Pipeline brokers) :
    Prop where
  kafka : ∀ message ∈ s.world.2.kafka, ∃ i publisher call envelope,
    s.request i = some (.publish publisher call) ∧ publisher.eventBus.usesKafka = true ∧
      message.topic = topicFor call.eventType ∧
      Sends worker.runtime printer publisher call envelope message.value
  sqs : ∀ message ∈ s.world.2.queue.messages, ∃ i publisher call envelope,
    s.request i = some (.publish publisher call) ∧ publisher.eventBus.usesSqs = true ∧
      Sends worker.runtime printer publisher call envelope message.body ∧
      (publisher.eventBus.usesKafka = true → s.world.2.HasOnKafka call message.body)
  alerts : ∀ alert ∈ s.world.2.alerts, ∃ i publisher call envelope,
    s.request i = some (.publish publisher call) ∧ call.alert = true ∧
      publisher.eventBus ≠ .disabled ∧
      Sends worker.runtime printer publisher call envelope alert.message ∧
      (publisher.eventBus.usesKafka = true → s.world.2.HasOnKafka call alert.message) ∧
      (publisher.eventBus.usesSqs = true → s.world.2.HasOnSqs alert.message)
  returned : ∀ i envelope, s.outcome i = some (.ok (some envelope)) → ∃ publisher call text,
    s.request i = some (.publish publisher call) ∧
      Writes worker.runtime printer publisher call envelope text ∧
      (publisher.eventBus.usesKafka = true → s.world.2.HasOnKafka call text) ∧
      (publisher.eventBus.usesSqs = true → s.world.2.HasOnSqs text) ∧
      (call.alert = true → publisher.eventBus ≠ .disabled → s.world.2.HasAlert text)

theorem SentKafka.earlier {call : PublishCall} {h : List (Event (messaging brokers))} {i k : Nat}
    {text : String} (hsent : SentKafka call (past i (h.take k)) text) :
    SentKafka call (past i h) text :=
  ⟨hsent.choose, mem_past_of_take hsent.choose_spec⟩

theorem SentSqs.earlier {h : List (Event (messaging brokers))} {i k : Nat} {text : String}
    (hsent : SentSqs (past i (h.take k)) text) : SentSqs (past i h) text :=
  ⟨hsent.choose, mem_past_of_take hsent.choose_spec⟩

/-- **The transports agree**, in every run. -/
theorem transports_agree {s : Pipeline brokers}
    (hs : Pipeline.Reachable printer worker uuids receipts s) :
    TransportsAgree printer worker s := by
  have H := hs.conforms.history
  refine ⟨fun message => publisher_of_kafka H, fun message hmem => ?_, fun alert hmem => ?_,
    fun i envelope hout => ?_⟩
  · obtain ⟨n, hn⟩ := List.mem_iff_getElem?.mp hmem
    obtain ⟨k, e, publisher, call, url, -, -, hreq, hop, hpublishes⟩ := publisher_of_message H hn
    rw [hop] at hpublishes
    obtain ⟨hsqs, -, hkafka, envelope, hsends⟩ := hpublishes
    exact ⟨e.thread, publisher, call, envelope, hreq, hsqs, hsends.2,
      fun h => hasOnKafka_of_sent H (hkafka h).earlier⟩
  · obtain ⟨n, hn⟩ := List.mem_iff_getElem?.mp hmem
    obtain ⟨k, e, publisher, call, -, -, hreq, ⟨op, hop, rfl⟩, hpublishes⟩ :=
      publisher_of_entry (alertJournal brokers) H rfl (by rintro _ _ _ ⟨_, rfl, rfl⟩; exact id) hn
    rw [hop] at hpublishes
    obtain ⟨halert, henabled, hkafka, hsqs, envelope, hsends⟩ := hpublishes
    exact ⟨e.thread, publisher, call, envelope, hreq, halert, henabled, hsends.2,
      fun h => hasOnKafka_of_sent H (hkafka h).earlier,
      fun h => hasOnSqs_of_sent H (hsqs h).earlier⟩
  · obtain ⟨req, hreq⟩ := System.request_of_outcome hout
    have hfinishes := hs.conforms.outcome hreq hout
    cases req with
    | poll => cases hfinishes _ rfl
    | publish publisher call =>
      obtain ⟨_, hsome, -, text, hwrites, -, hkafka, hsqs, halert⟩ := hfinishes _ rfl
      obtain rfl := Option.some.inj hsome
      exact ⟨publisher, call, text, hreq, hwrites, fun h => hasOnKafka_of_sent H (hkafka h),
        fun h => hasOnSqs_of_sent H (hsqs h),
        fun hflag henabled => hasAlert_of_sent H (halert hflag henabled)⟩

end Agreement

/-- A dual publisher has returned its envelope, and its text is on all three. -/
theorem transports_agree_sentFirst :
    TransportsAgree Sample.wirePrinter Sample.eventWorker
        (Sample.deliveredEvents (List.replicate 12 0)) ∧
      (Sample.deliveredEvents (List.replicate 12 0)).world.2.kafka.length = 1 ∧
      (Sample.deliveredEvents (List.replicate 12 0)).world.2.queue.messages.length = 1 ∧
      (Sample.deliveredEvents (List.replicate 12 0)).world.2.alerts.length = 1 ∧
      ((Sample.deliveredEvents (List.replicate 12 0)).outcome 0).isSome = true :=
  ⟨transports_agree (Sample.reachable_deliveredEvents _), by decide +kernel, by decide +kernel,
    by decide +kernel, by decide +kernel⟩

end AxSentinel
