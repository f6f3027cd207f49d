import AxSentinel.Deduplication
import AxSentinel.SqsMessages
import AxSentinel.Supplies

/-! # The brokers

What the services publish to and the SQS worker reads from: a Kafka log, a queue of SQS and the
topics of SNS.

Of SQS the model has what is documented of a standard queue with a redrive policy: a receive
returns messages that are in the queue, each with a new receipt handle and with how often it was
received; a message that was received as often as the policy allows goes to the dead-letter queue
instead.  A message stays in the queue until it is deleted, and may be received again at any time,
by any worker.  A deletion names a receipt handle; one that is not the latest of its message may
do nothing.  That SQS drops a message after days is left out. -/
namespace AxSentinel
open Effects
open Python (Json Str)

/-! ## The queue -/

/-- A message as it was sent. -/
structure QueuedMessage where
  messageId : String
  body : String
deriving DecidableEq

/-- Where a message is. -/
inductive Place where
  | queue | deadLetterQueue | deleted
deriving DecidableEq

/-- A message as a receive returns it. -/
structure ReceivedMessage extends SqsMessage where
  receiptHandle : Option String

/-- The receipt handles SQS issues, one after another: no two are the same, none is empty, and there
is no space around one. -/
structure ReceiptHandles where
  draw : Nat → String
  injective : Function.Injective draw
  stripped : ∀ k, Python.strip (draw k) = draw k
  nonempty : ∀ k, draw k ≠ ""

/-- The queue.  A message is known by its position among all that were sent, and a receipt handle
by how many were issued before it. -/
structure SqsWorld where
  messages : List QueuedMessage
  place : Nat → Place
  receiveCount : Nat → Nat
  issued : List Nat
  receipts : ReceiptHandles

namespace SqsWorld

/-- A queue to which nothing was sent. -/
def empty (receipts : ReceiptHandles) : SqsWorld :=
  ⟨[], fun _ => .queue, fun _ => 0, [], receipts⟩

/-- The message at a position, as it is delivered with a new receipt handle. -/
def received (w : SqsWorld) (n : Nat) (message : QueuedMessage) : ReceivedMessage where
  body := some message.body
  messageId := some message.messageId
  approximateReceiveCount := some (toString (w.receiveCount n + 1))
  receiptHandle := some (w.receipts.draw w.issued.length)

/-- What a receive makes of the message at a position. -/
def deliver (maxReceiveCount : Nat) (w : SqsWorld) (n : Nat) : Option ReceivedMessage × SqsWorld :=
  match w.messages[n]? with
  | none => (none, w)
  | some message =>
      if w.place n ≠ .queue then (none, w)
      else if w.receiveCount n < maxReceiveCount then
        (some (w.received n message),
          { w with receiveCount := Function.update w.receiveCount n (w.receiveCount n + 1)
                   issued := w.issued ++ [n] })
      else (none, { w with place := Function.update w.place n .deadLetterQueue })

/-- What a receive makes of the messages at some positions, one after another. -/
def deliverAll (maxReceiveCount : Nat) : List Nat → SqsWorld → List ReceivedMessage × SqsWorld
  | [], w => ([], w)
  | n :: picked, w =>
      let (message, w) := w.deliver maxReceiveCount n
      let (messages, w) := deliverAll maxReceiveCount picked w
      (message.toList ++ messages, w)

/-- The number of a receipt handle, and the message it was issued for. -/
def holder (w : SqsWorld) (receiptHandle : String) : Option (Nat × Nat) :=
  w.issued.zipIdx.find? fun x => w.receipts.draw x.2 = receiptHandle

/-- The receipt handle with a number is the latest of its message. -/
def isLatest (w : SqsWorld) (n k : Nat) : Bool := n ∉ w.issued.drop (k + 1)

/-- Sending a message. -/
def send (w : SqsWorld) (message : QueuedMessage) : SqsWorld :=
  { w with messages := w.messages ++ [message] }

/-- Deleting the message in the queue at a position. -/
def delete (w : SqsWorld) (n : Nat) : SqsWorld :=
  if w.place n = .queue then { w with place := Function.update w.place n .deleted } else w

end SqsWorld

/-! ## What the queue keeps -/

/-- What is not taken back: messages stay where they are among those sent, and so do the receipt
handles. -/
structure SqsWorld.Extends (w w' : SqsWorld) : Prop where
  messages : w.messages <+: w'.messages
  issued : w.issued <+: w'.issued
  receipts : w'.receipts = w.receipts

namespace SqsWorld

theorem Extends.refl (w : SqsWorld) : w.Extends w := ⟨List.prefix_rfl, List.prefix_rfl, rfl⟩

theorem Extends.trans {a b c : SqsWorld} (hab : a.Extends b) (hbc : b.Extends c) : a.Extends c :=
  ⟨hab.messages.trans hbc.messages, hab.issued.trans hbc.issued,
    hbc.receipts.trans hab.receipts⟩

theorem Extends.message {w w' : SqsWorld} (h : w.Extends w') {n : Nat} {message : QueuedMessage}
    (hn : w.messages[n]? = some message) : w'.messages[n]? = some message := by
  obtain ⟨more, hmore⟩ := h.messages
  rw [← hmore]
  exact getElem?_append_of_some hn more

theorem Extends.handle {w w' : SqsWorld} (h : w.Extends w') {n k : Nat}
    (hk : w.issued[k]? = some n) : w'.issued[k]? = some n := by
  obtain ⟨more, hmore⟩ := h.issued
  rw [← hmore]
  exact getElem?_append_of_some hk more

/-- The message was delivered with a receipt handle that was issued for it. -/
def Delivered (w : SqsWorld) (message : ReceivedMessage) : Prop :=
  ∃ n k queued count, w.issued[k]? = some n ∧ w.messages[n]? = some queued ∧
    message = ⟨⟨some queued.body, some queued.messageId, some (toString (count : Nat))⟩,
      some (w.receipts.draw k)⟩

theorem Delivered.extend {w w' : SqsWorld} (h : w.Extends w') {message : ReceivedMessage}
    (hdelivered : w.Delivered message) : w'.Delivered message := by
  obtain ⟨n, k, queued, count, hk, hn, rfl⟩ := hdelivered
  exact ⟨n, k, queued, count, h.handle hk, h.message hn, by rw [h.receipts]⟩

/-- A message is in the dead-letter queue only if it was received as often as allowed. -/
def DeadAfter (maxReceiveCount : Nat) (w : SqsWorld) : Prop :=
  ∀ n, w.place n = .deadLetterQueue → maxReceiveCount ≤ w.receiveCount n

/-- A place to which no message was sent is as it was at the start. -/
def Unsent (w : SqsWorld) : Prop := ∀ n, w.messages.length ≤ n → w.place n = .queue

/-- What a receive does to the queue: it deletes nothing. -/
structure Receives (maxReceiveCount : Nat) (w w' : SqsWorld) : Prop where
  extends_ : w.Extends w'
  messages : w'.messages = w.messages
  deleted : ∀ n, w'.place n = .deleted → w.place n = .deleted
  unsent : w.Unsent → w'.Unsent
  dead : w.DeadAfter maxReceiveCount → w'.DeadAfter maxReceiveCount

variable {maxReceiveCount : Nat}

theorem Receives.refl (w : SqsWorld) : w.Receives maxReceiveCount w :=
  ⟨.refl w, rfl, fun _ => id, id, id⟩

theorem Receives.trans {a b c : SqsWorld} (hab : a.Receives maxReceiveCount b)
    (hbc : b.Receives maxReceiveCount c) : a.Receives maxReceiveCount c where
  extends_ := hab.extends_.trans hbc.extends_
  messages := hbc.messages.trans hab.messages
  deleted n hn := hab.deleted n (hbc.deleted n hn)
  unsent h := hbc.unsent (hab.unsent h)
  dead h := hbc.dead (hab.dead h)

/-- A receive delivers a message, drops it into the dead-letter queue, or passes over it. -/
theorem receives_deliver (w : SqsWorld) (n : Nat) :
    w.Receives maxReceiveCount (w.deliver maxReceiveCount n).2 ∧
      ∀ message ∈ (w.deliver maxReceiveCount n).1,
        (w.deliver maxReceiveCount n).2.Delivered message := by
  unfold deliver
  split
  · exact ⟨.refl w, nofun⟩
  · rename_i queued hn
    split
    · exact ⟨.refl w, nofun⟩
    · split
      · refine ⟨⟨⟨List.prefix_rfl, List.prefix_append _ _, rfl⟩, rfl, fun _ => id, id, ?_⟩, ?_⟩
        · intro hdead m hm
          refine Nat.le_trans (hdead m hm) ?_
          by_cases hmn : m = n
          · subst hmn
            simp
          · simp [hmn]
        · rintro message hmessage
          obtain rfl := Option.some.inj hmessage
          exact ⟨n, w.issued.length, queued, w.receiveCount n + 1, by simp, hn, rfl⟩
      · rename_i hcount
        have hlt : n < w.messages.length := (List.getElem?_eq_some_iff.mp hn).1
        refine ⟨⟨⟨List.prefix_rfl, List.prefix_rfl, rfl⟩, rfl, ?_, ?_, ?_⟩, nofun⟩
        · intro m hm
          by_cases hmn : m = n
          · simp [hmn] at hm
          · simpa [hmn] using hm
        · intro hunsent m hm
          have hmn : m ≠ n := by
            rintro rfl
            exact Nat.not_le_of_lt hlt hm
          simpa [hmn] using hunsent m hm
        · intro hdead m hm
          by_cases hmn : m = n
          · rw [hmn]
            exact Nat.le_of_not_lt hcount
          · exact hdead m (by simpa [hmn] using hm)

theorem receives_deliverAll (picked : List Nat) (w : SqsWorld) :
    w.Receives maxReceiveCount (w.deliverAll maxReceiveCount picked).2 ∧
      ∀ message ∈ (w.deliverAll maxReceiveCount picked).1,
        (w.deliverAll maxReceiveCount picked).2.Delivered message := by
  induction picked generalizing w with
  | nil => exact ⟨.refl w, nofun⟩
  | cons n picked ih =>
    obtain ⟨hfirst, hone⟩ := @receives_deliver maxReceiveCount w n
    obtain ⟨hlater, hrest⟩ := ih (w.deliver maxReceiveCount n).2
    refine ⟨hfirst.trans hlater, fun message hmessage => ?_⟩
    rcases List.mem_append.mp hmessage with hmem | hmem
    · exact (hone message (Option.mem_toList.mp hmem)).extend hlater.extends_
    · exact hrest message hmem

/-- A receipt handle names the message it was issued for. -/
theorem holder_draw {w : SqsWorld} {n k : Nat} (hk : w.issued[k]? = some n) :
    w.holder (w.receipts.draw k) = some (n, k) := by
  unfold holder
  have hmem : (n, k) ∈ w.issued.zipIdx := List.mem_zipIdx_iff_getElem?.mpr hk
  cases hfind : w.issued.zipIdx.find? fun x => w.receipts.draw x.2 = w.receipts.draw k with
  | none => exact absurd (List.find?_eq_none.mp hfind (n, k) hmem) (by simp)
  | some x =>
    obtain ⟨m, j⟩ := x
    have hjk : j = k := w.receipts.injective (by simpa using List.find?_some hfind)
    subst hjk
    have hj := List.mem_zipIdx_iff_getElem?.mp (List.mem_of_find?_eq_some hfind)
    exact congrArg some (Prod.ext (Option.some.inj (hj.symm.trans hk)) rfl)

end SqsWorld

/-! ## Operations -/

/-- A message as it was sent to Kafka. -/
structure KafkaMessage where
  topic : String
  key : String
  value : String
  headers : List (String × String)
deriving DecidableEq

/-- A message as it was published to a topic of SNS. -/
structure Alert where
  topicArn : String
  subject : String
  message : String
deriving DecidableEq

/-- What the publishers and the workers do besides table operations.  A publisher, one of those the
services have, keeps the URL of its queue and the ARN of its topic once it has looked them up. -/
inductive BrokerOp where
  | uuid4
  | kafkaSend (message : KafkaMessage)
  | queueUrl (publisher : Nat)
  | setQueueUrl (publisher : Nat) (url : String)
  | getQueueUrl (queueName : String)
  | sendMessage (url body : String)
  | topicArn (publisher : Nat)
  | setTopicArn (publisher : Nat) (arn : String)
  | listTopics
  | snsPublish (alert : Alert)
  | receiveMessage (maxNumberOfMessages : Nat)
  | deleteMessage (receiptHandle : String)
  | envelopeDefaults
  | countProcessed (eventType result : String)
  | countFailed (reason : String)
  | sleep (seconds : Nat)

abbrev brokerOps : Signature Exc where
  Op := BrokerOp
  Reply
    | .uuid4 => String
    | .kafkaSend _ => Unit
    | .queueUrl _ => Option String
    | .setQueueUrl .. => Unit
    | .getQueueUrl _ => String
    | .sendMessage .. => Unit
    | .topicArn _ => Option String
    | .setTopicArn .. => Unit
    | .listTopics => List String
    | .snsPublish _ => Unit
    | .receiveMessage _ => List ReceivedMessage
    | .deleteMessage _ => Unit
    | .envelopeDefaults => EnvelopeDefaults
    | .countProcessed .. => Unit
    | .countFailed _ => Unit
    | .sleep _ => Unit

/-- How the brokers are set up. -/
structure Brokers where
  queueName : String
  queueUrl : String
  topicArns : List String
  maxReceiveCount : Nat

/-- What the brokers hold, and the publishers and workers keep in memory. -/
structure BrokerWorld where
  queue : SqsWorld
  kafka : List KafkaMessage
  alerts : List Alert
  queueUrls : Nat → Option String
  topicArns : Nat → Option String
  uuids : UuidSupply
  drawn : Nat
  processed : List (String × String)
  failed : List String

/-- What is left open: the messages a receive picks, the id of a message that is sent, what the
default factories draw, and whether an outdated receipt handle is good for a deletion. -/
structure BrokerChoice where
  picked : List Nat
  messageId : String
  fresh : EnvelopeDefaults
  outdatedWorks : Bool

instance : Inhabited BrokerChoice := ⟨[], "", ⟨"", 0, ""⟩, true⟩

/-- The brokers, when they accept everything. -/
abbrev brokerMachine (brokers : Brokers) : Machine brokerOps where
  World := BrokerWorld
  Choice := BrokerChoice
  exec
    | .uuid4, _, w => (.ok (w.uuids.draw w.drawn), { w with drawn := w.drawn + 1 })
    | .kafkaSend message, _, w => (.ok (), { w with kafka := w.kafka ++ [message] })
    | .queueUrl publisher, _, w => (.ok (w.queueUrls publisher), w)
    | .setQueueUrl publisher url, _, w =>
        (.ok (), { w with queueUrls := Function.update w.queueUrls publisher (some url) })
    | .getQueueUrl queueName, _, w =>
        (if queueName = brokers.queueName then .ok brokers.queueUrl
          else .error (.clientError "AWS.SimpleQueueService.NonExistentQueue"), w)
    | .sendMessage url body, c, w =>
        if url = brokers.queueUrl then
          (.ok (), { w with queue := w.queue.send ⟨c.messageId, body⟩ })
        else (.error (.clientError "AWS.SimpleQueueService.NonExistentQueue"), w)
    | .topicArn publisher, _, w => (.ok (w.topicArns publisher), w)
    | .setTopicArn publisher arn, _, w =>
        (.ok (), { w with topicArns := Function.update w.topicArns publisher (some arn) })
    | .listTopics, _, w => (.ok brokers.topicArns, w)
    | .snsPublish alert, _, w =>
        if alert.topicArn ∈ brokers.topicArns then
          (.ok (), { w with alerts := w.alerts ++ [alert] })
        else (.error (.clientError "NotFound"), w)
    | .receiveMessage limit, c, w =>
        let (messages, queue) :=
          w.queue.deliverAll brokers.maxReceiveCount (c.picked.dedup.take limit)
        (.ok messages, { w with queue := queue })
    | .deleteMessage receiptHandle, c, w =>
        match w.queue.holder receiptHandle with
        | none => (.error (.clientError "ReceiptHandleIsInvalid"), w)
        | some (n, k) =>
            if w.queue.isLatest n k || c.outdatedWorks then
              (.ok (), { w with queue := w.queue.delete n })
            else (.ok (), w)
    | .envelopeDefaults, c, w => (.ok c.fresh, w)
    | .countProcessed eventType result, _, w =>
        (.ok (), { w with processed := w.processed ++ [(eventType, result)] })
    | .countFailed reason, _, w => (.ok (), { w with failed := w.failed ++ [reason] })
    | .sleep _, _, w => (.ok (), w)

/-- What an operation may do to the brokers when it takes effect; `quiet` is any other than the ones
before it, or one that the brokers turn down. -/
inductive BrokerStep (brokers : Brokers) (w : BrokerWorld) : BrokerOp → BrokerWorld → Prop
  | uuid4 : BrokerStep brokers w .uuid4 { w with drawn := w.drawn + 1 }
  | kafkaSend (message : KafkaMessage) :
      BrokerStep brokers w (.kafkaSend message) { w with kafka := w.kafka ++ [message] }
  | sendMessage (url body messageId : String) : BrokerStep brokers w (.sendMessage url body)
      { w with queue := w.queue.send ⟨messageId, body⟩ }
  | snsPublish (alert : Alert) :
      BrokerStep brokers w (.snsPublish alert) { w with alerts := w.alerts ++ [alert] }
  | receiveMessage (limit : Nat) (queue : SqsWorld) :
      w.queue.Receives brokers.maxReceiveCount queue →
      BrokerStep brokers w (.receiveMessage limit) { w with queue := queue }
  | deleteMessage (receiptHandle : String) (n k : Nat) :
      w.queue.holder receiptHandle = some (n, k) →
      BrokerStep brokers w (.deleteMessage receiptHandle) { w with queue := w.queue.delete n }
  | quiet {op : BrokerOp} {w' : BrokerWorld} : op ≠ .uuid4 → w'.queue = w.queue →
      w'.kafka = w.kafka → w'.alerts = w.alerts → w'.uuids = w.uuids → w'.drawn = w.drawn →
      BrokerStep brokers w op w'

/-- **What the brokers do**, operation by operation. -/
theorem brokerStep_exec (brokers : Brokers) (op : BrokerOp) (c : BrokerChoice) (w : BrokerWorld) :
    BrokerStep brokers w op ((brokerMachine brokers).exec op c w).2 := by
  cases op
  case uuid4 => exact .uuid4
  case kafkaSend message => exact .kafkaSend message
  case sendMessage url body =>
    by_cases hurl : url = brokers.queueUrl
    · simp only [hurl, if_true]
      exact .sendMessage _ body c.messageId
    · simp only [hurl, if_false]
      exact .quiet nofun rfl rfl rfl rfl rfl
  case snsPublish alert =>
    by_cases harn : alert.topicArn ∈ brokers.topicArns
    · simp only [harn, if_true]
      exact .snsPublish alert
    · simp only [harn, if_false]
      exact .quiet nofun rfl rfl rfl rfl rfl
  case receiveMessage limit =>
    exact .receiveMessage limit _ (SqsWorld.receives_deliverAll (c.picked.dedup.take limit) _).1
  case deleteMessage receiptHandle =>
    dsimp only
    split
    · exact .quiet nofun rfl rfl rfl rfl rfl
    · rename_i n k hholder
      split
      · exact .deleteMessage receiptHandle n k hholder
      · exact .quiet nofun rfl rfl rfl rfl rfl
  all_goals exact .quiet nofun rfl rfl rfl rfl rfl

/-- The operations of the publishers and workers. -/
abbrev messagingOps : Signature Exc := (storeOps ProcessedEvent).sum brokerOps

/-- The workers' table and the brokers, when they accept everything. -/
abbrev workingBrokers (brokers : Brokers) : Machine messagingOps :=
  (storeMachine ProcessedEvent).sum (brokerMachine brokers)

/-- The operations that leave the process, and so may fail. -/
def mayFail : messagingOps.Op → Exc → Bool
  | .inl .now, _ => false
  | .inl _, _ => true
  | .inr (.kafkaSend _), _ => true
  | .inr (.getQueueUrl _), _ => true
  | .inr (.sendMessage ..), _ => true
  | .inr .listTopics, _ => true
  | .inr (.snsPublish _), _ => true
  | .inr (.receiveMessage _), _ => true
  | .inr (.deleteMessage _), _ => true
  | .inr _, _ => false

/-- The table and the brokers, when any step that leaves the process may raise. -/
abbrev messaging (brokers : Brokers) : Machine messagingOps :=
  (workingBrokers brokers).faulty mayFail

instance (brokers : Brokers) : TableMachine (workingBrokers brokers) Key.entityType :=
  .beside Key.entityType (.clientError conditionalCheckFailed) (brokerMachine brokers)

instance (brokers : Brokers) : TableMachine (messaging brokers) Key.entityType :=
  .faulty (workingBrokers brokers) mayFail

instance (brokers : Brokers) : Inhabited (workingBrokers brokers).Choice := ⟨(0, default)⟩

instance (brokers : Brokers) : Inhabited (messaging brokers).Choice := ⟨(default, .none)⟩

/-- The table and the brokers before anything was published. -/
def messagingStart (brokers : Brokers) (uuids : UuidSupply) (receipts : ReceiptHandles) :
    (messaging brokers).World :=
  (∅, ⟨.empty receipts, [], [], fun _ => none, fun _ => none, uuids, 0, [], []⟩)

abbrev Messaging (α : Type) := Program messagingOps α

namespace Messaging

/-- `self._repository.put`. -/
abbrev put (entityType : EntityType) (entityId : String) (value : ProcessedEvent) :
    Messaging Unit := (DynamoRepository.put entityType entityId value).left

/-- `datetime.now(UTC)`. -/
def now : Messaging Instant := .perform messagingOps (.inl .now)

/-- An operation of the clients or of the process. -/
def run (op : BrokerOp) : Messaging (brokerOps.Reply op) := .perform messagingOps (.inr op)

end Messaging

end AxSentinel
