import AxSentinel.Pipeline

/-! # No message of the queue is lost

In every run of publishers and workers, a message is deleted from the queue only once its event is
stored, and what is stored is the event of a message (`Pipeline.Reachable.sound`).  What a worker
does next is justified by its own past alone; that a receipt handle names the message it came with
is a fact about the queue.  So a message that was sent is waiting, was received as often as allowed
and is in the dead-letter queue, or its event is stored (`keepsMessages`). -/
namespace AxSentinel
open Effects Messaging
open Python (Json Str)

/-! ## Reading a message -/

/-- The worker reads a message that was sent as the envelope, when it receives it with some
count. -/
def EventWorker.Reads (worker : EventWorker) (message : QueuedMessage) (envelope : Envelope)
    (receiveCount : Int) : Prop :=
  Python.strip message.messageId ≠ "" ∧ ∃ (fresh : EnvelopeDefaults) (count : Nat),
    parseEventMessage worker.runtime worker.readInt fresh
      ⟨some message.body, some message.messageId, some (toString count)⟩ =
        .ok (envelope, receiveCount)

/-- Reading a message that was delivered. -/
theorem reads_of_readMessage {worker : EventWorker} {fresh : EnvelopeDefaults}
    {message : QueuedMessage} {count : Nat} {handle receiptHandle : String} {envelope : Envelope}
    {receiveCount : Int}
    (h : worker.readMessage fresh ⟨⟨some message.body, some message.messageId,
      some (toString count)⟩, some handle⟩ = .ok (envelope, receiveCount, receiptHandle)) :
    worker.Reads message envelope receiveCount ∧ receiptHandle = Python.strip handle := by
  obtain ⟨⟨envelope', receiveCount'⟩, hparse, h⟩ := exists_of_bind h
  dsimp only [Option.getD_some] at h
  split at h
  · cases h
  · rename_i hids
    obtain ⟨rfl, rfl, rfl⟩ := by simpa [pure, Except.pure, bind, Except.bind] using h
    exact ⟨⟨fun hid => hids (.inl hid), fresh, count, hparse⟩, rfl⟩

/-! ## The table and the queue -/

/-- Every stored event is that of a message, and the event of every deleted message is stored. -/
structure QueueSound (worker : EventWorker) (maxReceiveCount : Nat)
    (table : Table Key (Attributes ProcessedEvent)) (queue : SqsWorld) : Prop where
  recorded : ∀ key item, table.lookup key = some item →
    ∃ (n : Nat) (message : QueuedMessage) (envelope : Envelope) (receiveCount : Int)
      (processedAt : Instant), queue.messages[n]? = some message ∧
      worker.Reads message envelope receiveCount ∧ key = worker.keyOf envelope ∧
      item.attributes.data = EventWorker.processedEvent envelope receiveCount processedAt
  deleted : ∀ (n : Nat) (message : QueuedMessage), queue.messages[n]? = some message →
    queue.place n = .deleted → ∃ envelope receiveCount,
      worker.Reads message envelope receiveCount ∧
      (table.lookup (worker.keyOf envelope)).isSome = true
  unsent : queue.Unsent
  dead : queue.DeadAfter maxReceiveCount

section Sound
variable {worker : EventWorker} {maxReceiveCount n : Nat}
  {t : Table Key (Attributes ProcessedEvent)} {q q' : SqsWorld} {message : QueuedMessage}
  {envelope : Envelope} {receiveCount : Int}

/-- Only the queue has changed, and it has deleted nothing. -/
theorem QueueSound.receives (h : QueueSound worker maxReceiveCount t q)
    (hreceives : q.Receives maxReceiveCount q') : QueueSound worker maxReceiveCount t q' where
  recorded key item hitem := by
    obtain ⟨n, message, envelope, receiveCount, processedAt, hn, hrest⟩ := h.recorded key item hitem
    exact ⟨n, message, envelope, receiveCount, processedAt, hreceives.extends_.message hn, hrest⟩
  deleted n message hn hplace :=
    h.deleted n message (hreceives.messages ▸ hn) (hreceives.deleted n hplace)
  unsent := hreceives.unsent h.unsent
  dead := hreceives.dead h.dead

/-- A message is sent. -/
theorem QueueSound.send (h : QueueSound worker maxReceiveCount t q) (sent : QueuedMessage) :
    QueueSound worker maxReceiveCount t (q.send sent) where
  recorded key item hitem := by
    obtain ⟨n, message, envelope, receiveCount, processedAt, hn, hrest⟩ := h.recorded key item hitem
    exact ⟨n, message, envelope, receiveCount, processedAt, getElem?_append_of_some hn _, hrest⟩
  deleted n message hn hplace := by
    rcases getElem?_snoc.mp hn with hn | ⟨rfl, -⟩
    · exact h.deleted n message hn hplace
    · exact absurd ((h.unsent _ (Nat.le_refl _)).symm.trans hplace) nofun
  unsent n hn := by
    refine h.unsent n (Nat.le_trans ?_ hn)
    simp [SqsWorld.send]
  dead := h.dead

/-- A message whose event is stored is deleted. -/
theorem QueueSound.delete (h : QueueSound worker maxReceiveCount t q)
    (hn : q.messages[n]? = some message) (hreads : worker.Reads message envelope receiveCount)
    (hstored : (t.lookup (worker.keyOf envelope)).isSome = true) :
    QueueSound worker maxReceiveCount t (q.delete n) := by
  unfold SqsWorld.delete
  split
  · have hlt : n < q.messages.length := (List.getElem?_eq_some_iff.mp hn).1
    refine ⟨h.recorded, fun m message' hm hplace => ?_, fun m hm => ?_, fun m hm => ?_⟩
    · by_cases hmn : m = n
      · subst hmn
        obtain rfl := Option.some.inj (hn.symm.trans hm)
        exact ⟨envelope, receiveCount, hreads, hstored⟩
      · exact h.deleted m message' hm (by simpa [hmn] using hplace)
    · have hmn : m ≠ n := by
        rintro rfl
        exact Nat.not_le_of_lt hlt hm
      simpa [hmn] using h.unsent m hm
    · by_cases hmn : m = n
      · simp [hmn] at hm
      · exact h.dead m (by simpa [hmn] using hm)
  · exact h

/-- The event of a message is stored. -/
theorem QueueSound.store {processedAt : Instant} {item : Item (Attributes ProcessedEvent)}
    (h : QueueSound worker maxReceiveCount t q) (hn : q.messages[n]? = some message)
    (hreads : worker.Reads message envelope receiveCount)
    (hdata : item.attributes.data =
      EventWorker.processedEvent envelope receiveCount processedAt) :
    QueueSound worker maxReceiveCount (t.insert (worker.keyOf envelope) item) q where
  recorded key item' hitem := by
    by_cases hkey : key = worker.keyOf envelope
    · subst hkey
      rw [AList.lookup_insert] at hitem
      obtain rfl := Option.some.inj hitem
      exact ⟨n, message, envelope, receiveCount, processedAt, hn, hreads, rfl, hdata⟩
    · rw [AList.lookup_insert_ne hkey] at hitem
      exact h.recorded key item' hitem
  deleted m message' hm hplace := by
    obtain ⟨envelope', receiveCount', hreads', hstored⟩ := h.deleted m message' hm hplace
    refine ⟨envelope', receiveCount', hreads', ?_⟩
    by_cases hkey : worker.keyOf envelope' = worker.keyOf envelope
    · rw [hkey, AList.lookup_insert]
      rfl
    · rw [AList.lookup_insert_ne hkey]
      exact hstored
  unsent := h.unsent
  dead := h.dead

theorem queueSound_empty (receipts : ReceiptHandles) :
    QueueSound worker maxReceiveCount ∅ (.empty receipts) where
  recorded key item hitem := by
    cases (AList.lookup_empty key).symm.trans hitem
  deleted n message hn := by
    have hnil : ([] : List QueuedMessage)[n]? = some message := hn
    cases hnil
  unsent _ _ := rfl
  dead n hdead := by
    have hqueue : Place.queue = Place.deadLetterQueue := hdead
    cases hqueue

end Sound

/-! ## Runs -/

section Runs
variable {brokers : Brokers} {printer : Printer} {worker : EventWorker} {uuids : UuidSupply}
  {receipts : ReceiptHandles} {past : MessagingMoves}

/-- What a thread remembers is so: a message it received was delivered, and an event it put is
stored. -/
structure QueueRemembers (past : MessagingMoves) (w : (messaging brokers).World) : Prop where
  received : ∀ message, Received past message → w.2.queue.Delivered message
  put : ∀ key item cond, (⟨.inl (.putItem key item cond), .ok ()⟩ : Move messagingOps) ∈ past →
    (w.1.lookup key).isSome = true

/-- No event is taken back, nor what the queue has issued. -/
structure QueueGrows (w w' : (messaging brokers).World) : Prop where
  table : ∀ key, (w.1.lookup key).isSome = true → (w'.1.lookup key).isSome = true
  queue : w.2.queue.Extends w'.2.queue

theorem QueueGrows.refl (w : (messaging brokers).World) : QueueGrows w w :=
  ⟨fun _ => id, .refl _⟩

theorem QueueRemembers.grow {w w' : (messaging brokers).World} (h : QueueRemembers past w)
    (hgrows : QueueGrows w w') : QueueRemembers past w' where
  received message hmessage := (h.received message hmessage).extend hgrows.queue
  put key item cond hput := hgrows.table key (h.put key item cond hput)

theorem queueRemembers_nil (w : (messaging brokers).World) : QueueRemembers [] w where
  received message := by
    rintro ⟨limit, messages, -, hmem⟩
    cases hmem
  put key item cond hmem := by cases hmem

/-- What the brokers do keeps the table and the queue sound: a message is deleted only after its
event was stored. -/
theorem QueueSound.broker {t : Table Key (Attributes ProcessedEvent)} {w w' : BrokerWorld}
    (h : QueueSound worker brokers.maxReceiveCount t w.queue)
    (hremembers : @QueueRemembers brokers past (t, w)) {request : MessagingRequest} {op : BrokerOp}
    (hop : request.Follows printer worker past (.inr op)) (hstep : BrokerStep brokers w op w') :
    QueueSound worker brokers.maxReceiveCount t w'.queue ∧ w.queue.Extends w'.queue := by
  cases hstep with
  | uuid4 => exact ⟨h, .refl _⟩
  | kafkaSend message => exact ⟨h, .refl _⟩
  | snsPublish alert => exact ⟨h, .refl _⟩
  | quiet _ hqueue => exact ⟨hqueue ▸ h, hqueue ▸ .refl _⟩
  | sendMessage url body messageId =>
    exact ⟨h.send _, List.prefix_append _ _, List.prefix_rfl, rfl⟩
  | receiveMessage limit queue hreceives => exact ⟨h.receives hreceives, hreceives.extends_⟩
  | deleteMessage handle n k hholder =>
    cases request with
    | publish publisher call => exact hop.elim
    | poll =>
      obtain ⟨message, fresh, envelope, receiveCount, hreceived, hread, item, cond, hput⟩ := hop
      obtain ⟨m, j, queued, count, hj, hm, rfl⟩ := hremembers.received message hreceived
      obtain ⟨hreads, rfl⟩ := reads_of_readMessage hread
      -- the handle the message came with names the message
      have hnamed := SqsWorld.holder_draw hj
      rw [← w.queue.receipts.stripped j] at hnamed
      obtain ⟨rfl, rfl⟩ := Prod.mk.inj (Option.some.inj (hnamed.symm.trans hholder))
      refine ⟨h.delete hm hreads (hremembers.put _ item cond hput), ?_⟩
      dsimp only [SqsWorld.delete]
      split
      · exact ⟨List.prefix_rfl, List.prefix_rfl, rfl⟩
      · exact .refl _

/-- What a request may do keeps the table and the queue sound. -/
theorem QueueSound.exec {w : (messaging brokers).World}
    (h : QueueSound worker brokers.maxReceiveCount w.1 w.2.queue)
    (hremembers : QueueRemembers past w) {request : MessagingRequest} {op : messagingOps.Op}
    (hop : request.Follows printer worker past op) (c : (workingBrokers brokers).Choice) :
    QueueSound worker brokers.maxReceiveCount ((workingBrokers brokers).exec op c w).2.1
        ((workingBrokers brokers).exec op c w).2.2.queue ∧
      QueueGrows w ((workingBrokers brokers).exec op c w).2 := by
  obtain ⟨t, w⟩ := w
  match op with
  | .inl .now => exact ⟨h, .refl _⟩
  | .inl (.getItem key) => exact ⟨h, .refl _⟩
  | .inl (.query i) => exact ⟨h, .refl _⟩
  | .inl (.putItem key item cond) =>
    cases request with
    | publish publisher call => exact hop.elim
    | poll =>
      obtain ⟨message, fresh, envelope, receiveCount, receiptHandle, processedAt, hreceived, hread,
        rfl, hdata⟩ := hop
      obtain ⟨n, k, queued, count, hk, hn, rfl⟩ := hremembers.received message hreceived
      by_cases hholds : cond.Holds (t.lookup (worker.keyOf envelope))
      · simp only [hholds, if_true]
        refine ⟨h.store hn (reads_of_readMessage hread).1 hdata, fun key hkey => ?_, .refl _⟩
        by_cases hsame : key = worker.keyOf envelope
        · rw [hsame, AList.lookup_insert]
          rfl
        · rw [AList.lookup_insert_ne hsame]
          exact hkey
      · simp only [hholds, if_false]
        exact ⟨h, .refl _⟩
  | .inr op =>
    have hbroker := h.broker hremembers hop (brokerStep_exec brokers op c.2 w)
    exact ⟨hbroker.1, fun _ => id, hbroker.2⟩

/-- A step that fails leaves the world as it was, or as the step makes it. -/
theorem QueueSound.step {w : (messaging brokers).World}
    (h : QueueSound worker brokers.maxReceiveCount w.1 w.2.queue)
    (hremembers : QueueRemembers past w) {request : MessagingRequest} {op : messagingOps.Op}
    (hop : request.Follows printer worker past op) (c : (messaging brokers).Choice) :
    QueueSound worker brokers.maxReceiveCount ((messaging brokers).exec op c w).2.1
        ((messaging brokers).exec op c w).2.2.queue ∧
      QueueGrows w ((messaging brokers).exec op c w).2 := by
  have hexec := h.exec hremembers hop c.1
  rcases (workingBrokers brokers).faulty_exec mayFail op c w with
    hsame | ⟨e, -, -, hsame | hsame⟩
  · rw [hsame]
    exact hexec
  · rw [hsame]
    exact ⟨h, .refl w⟩
  · rw [hsame]
    exact hexec

/-- What a thread learns from its own step is so after it. -/
theorem QueueRemembers.step {w : (messaging brokers).World} (hremembers : QueueRemembers past w)
    {op : messagingOps.Op} {c : (messaging brokers).Choice}
    (hgrows : QueueGrows w ((messaging brokers).exec op c w).2) :
    QueueRemembers (past ++ [⟨op, ((messaging brokers).exec op c w).1⟩])
      ((messaging brokers).exec op c w).2 where
  received := by
    rintro message ⟨limit, messages, hmessage, hmem⟩
    rcases List.mem_append.mp hmem with hmem | hmem
    · exact (hremembers.grow hgrows).received message ⟨limit, messages, hmessage, hmem⟩
    · obtain ⟨rfl, hreply⟩ := Move.mk.inj (List.mem_singleton.mp hmem)
      have hreply := eq_of_heq hreply
      rcases (workingBrokers brokers).faulty_exec mayFail (.inr (.receiveMessage limit)) c w
        with hsame | ⟨e, -, herror, -⟩
      · rw [hsame] at hreply ⊢
        have hdelivered := (@SqsWorld.receives_deliverAll brokers.maxReceiveCount
          (c.1.2.picked.dedup.take limit) w.2.queue).2
        exact hdelivered message (Except.ok.inj hreply ▸ hmessage)
      · cases hreply.trans herror
  put := by
    intro key item cond hmem
    rcases List.mem_append.mp hmem with hmem | hmem
    · exact (hremembers.grow hgrows).put key item cond hmem
    · obtain ⟨rfl, hreply⟩ := Move.mk.inj (List.mem_singleton.mp hmem)
      rcases TableMachine.exec_put (M := messaging brokers) key item cond c w with
        ⟨-, hfailed⟩ | ⟨-, hins⟩
      · exact absurd (eq_of_heq hreply).symm (hfailed _)
      · have hlookup : ((messaging brokers).exec (.inl (.putItem key item cond)) c w).2.1 =
            w.1.insert key item := hins
        rw [hlookup, AList.lookup_insert]
        rfl

/-- A history whose requests keep to their protocols, from the start. -/
abbrev MessagingHistory (brokers : Brokers) (printer : Printer) (worker : EventWorker)
    (uuids : UuidSupply) (receipts : ReceiptHandles) (request : Nat → Option MessagingRequest)
    (h : List (Event (messaging brokers))) (w : (messaging brokers).World) : Prop :=
  (messaging brokers).History
    (fun i past op => ∃ req, request i = some req ∧ req.Follows printer worker past op)
    (messagingStart brokers uuids receipts) h w

/-- **Sound worlds.**  Every world some run leads to is sound. -/
theorem queueSound_of_history {request : Nat → Option MessagingRequest}
    {h : List (Event (messaging brokers))} {w : (messaging brokers).World}
    (H : MessagingHistory brokers printer worker uuids receipts request h w) :
    QueueSound worker brokers.maxReceiveCount w.1 w.2.queue ∧
      ∀ i, QueueRemembers (Effects.past i h) w := by
  induction H with
  | nil => exact ⟨queueSound_empty receipts, fun _ => queueRemembers_nil _⟩
  | @snoc h w i op c H hok ih =>
    obtain ⟨req, -, hop⟩ := hok
    obtain ⟨hsound, hremembers⟩ := ih
    obtain ⟨hsound', hgrows⟩ := hsound.step (hremembers i) hop c
    refine ⟨hsound', fun j => ?_⟩
    by_cases hij : j = i
    · subst hij
      rw [past_snoc_self]
      exact (hremembers j).step hgrows
    · rw [past_snoc_other hij]
      exact (hremembers j).grow hgrows

theorem Pipeline.Reachable.conforms {s : Pipeline brokers}
    (hs : Pipeline.Reachable printer worker uuids receipts s) :
    s.Conforms (MessagingRequest.Follows printer worker)
      (MessagingRequest.Finishes printer worker) (messagingStart brokers uuids receipts) :=
  System.Reachable.conforms hs (MessagingRequest.follows printer worker)

theorem Pipeline.Reachable.sound {s : Pipeline brokers}
    (hs : Pipeline.Reachable printer worker uuids receipts s) :
    QueueSound worker brokers.maxReceiveCount s.world.1 s.world.2.queue :=
  (queueSound_of_history hs.conforms.history).1

end Runs

/-! ## What becomes of a message -/

/-- What has become of a message that was sent: it waits in the queue, it was received as often as
allowed and is in the dead-letter queue, or its event is stored. -/
inductive MessageKept (worker : EventWorker) (brokers : Brokers) (w : (messaging brokers).World)
    (n : Nat) (message : QueuedMessage) : Prop
  | waiting : w.2.queue.place n = .queue → MessageKept worker brokers w n message
  | deadLettered : w.2.queue.place n = .deadLetterQueue →
      brokers.maxReceiveCount ≤ w.2.queue.receiveCount n → MessageKept worker brokers w n message
  | stored {envelope : Envelope} {receiveCount : Int} {item : Item (Attributes ProcessedEvent)} :
      worker.Reads message envelope receiveCount →
      w.1.lookup (worker.keyOf envelope) = some item → MessageKept worker brokers w n message

section Kept
variable {brokers : Brokers} {printer : Printer} {worker : EventWorker} {uuids : UuidSupply}
  {receipts : ReceiptHandles}

theorem QueueSound.kept {w : (messaging brokers).World} {n : Nat} {message : QueuedMessage}
    (h : QueueSound worker brokers.maxReceiveCount w.1 w.2.queue)
    (hn : w.2.queue.messages[n]? = some message) : MessageKept worker brokers w n message := by
  cases hplace : w.2.queue.place n with
  | queue => exact .waiting hplace
  | deadLetterQueue => exact .deadLettered hplace (h.dead n hplace)
  | deleted =>
    obtain ⟨envelope, receiveCount, hreads, hstored⟩ := h.deleted n message hn hplace
    obtain ⟨item, hitem⟩ := Option.isSome_iff_exists.mp hstored
    exact .stored hreads hitem

/-- **No message is lost.**  In every run each message that was sent is kept, and each event that
is stored is that of a message. -/
theorem keepsMessages {s : Pipeline brokers}
    (hs : Pipeline.Reachable printer worker uuids receipts s) :
    (∀ n message, s.world.2.queue.messages[n]? = some message →
      MessageKept worker brokers s.world n message) ∧
    ∀ key item, s.world.1.lookup key = some item →
      ∃ (n : Nat) (message : QueuedMessage) (envelope : Envelope) (receiveCount : Int)
        (processedAt : Instant), s.world.2.queue.messages[n]? = some message ∧
        worker.Reads message envelope receiveCount ∧ key = worker.keyOf envelope ∧
        item.attributes.data = EventWorker.processedEvent envelope receiveCount processedAt :=
  ⟨fun _ _ hn => hs.sound.kept hn, hs.sound.recorded⟩

end Kept

/-- A message is sent, and received by a worker. -/
def receivedOnce : Pipeline Sample.wireBrokers :=
  Sample.deliveredEvents (List.replicate 12 0 ++ [1])

theorem keepsMessages_receivedOnce : ∃ message,
    receivedOnce.world.2.queue.messages[0]? = some message ∧
      receivedOnce.world.2.queue.receiveCount 0 = 1 ∧
      MessageKept Sample.eventWorker Sample.wireBrokers receivedOnce.world 0 message := by
  have hreach : Pipeline.Reachable Sample.wirePrinter Sample.eventWorker .unary
      Sample.receiptHandles receivedOnce := Sample.reachable_deliveredEvents _
  have hsent : (receivedOnce.world.2.queue.messages[0]?).isSome = true := by decide +kernel
  obtain ⟨message, hmessage⟩ := Option.isSome_iff_exists.mp hsent
  exact ⟨message, hmessage, by decide +kernel, (keepsMessages hreach).1 0 message hmessage⟩

end AxSentinel
