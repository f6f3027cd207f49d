import AxSentinel.EventWorker

/-! # What handling a record does

The rules for the worker's operations, and what each part of the handling of a record
leaves behind: in every execution, with faults or without.  A world the worker can be
in is `Sane`; it stays so, whatever fails. -/
namespace AxSentinel
open Effects Worker
open Python (Json Str)

/-- The worker's world: its table, and the rest. -/
abbrev KafkaWorld := Table Key (Attributes ProcessedEvent) × WorkerWorld

namespace KafkaWorld

/-- The processed event stored under an id. -/
def event (id : String) (w : KafkaWorld) : Option ProcessedEvent :=
  (w.1.lookup ⟨.processedEvent, id⟩).map fun item => item.attributes.data

/-- The world after an item is stored under an id. -/
def store (w : KafkaWorld) (id : String) (item : Item (Attributes ProcessedEvent)) : KafkaWorld :=
  (w.1.insert ⟨.processedEvent, id⟩ item, w.2)

@[simp] theorem store_snd (w : KafkaWorld) (id : String) (item : Item (Attributes ProcessedEvent)) :
    (w.store id item).2 = w.2 := rfl

@[simp] theorem event_store_self (w : KafkaWorld) (id : String)
    (item : Item (Attributes ProcessedEvent)) :
    (w.store id item).event id = some item.attributes.data := by
  simp [event, store]

theorem event_store_ne {id id' : String} (h : id' ≠ id) (w : KafkaWorld)
    (item : Item (Attributes ProcessedEvent)) : (w.store id item).event id' = w.event id' := by
  have hkey : (⟨.processedEvent, id'⟩ : Key) ≠ ⟨.processedEvent, id⟩ :=
    fun heq => h (congrArg Key.entityId heq)
  simp [event, store, AList.lookup_insert_ne hkey]

/-- Every stored item has a version. -/
def Versioned (w : KafkaWorld) : Prop :=
  ∀ key item, w.1.lookup key = some item → item.version.isSome = true

theorem Versioned.store {w : KafkaWorld} (h : w.Versioned) {id : String}
    {item : Item (Attributes ProcessedEvent)} (hitem : item.version.isSome = true) :
    (w.store id item).Versioned := by
  intro key item' hlookup
  by_cases hkey : key = ⟨.processedEvent, id⟩
  · subst hkey
    rw [KafkaWorld.store, AList.lookup_insert] at hlookup
    exact Option.some.inj hlookup ▸ hitem
  · rw [KafkaWorld.store, AList.lookup_insert_ne hkey] at hlookup
    exact h key item' hlookup

end KafkaWorld

/-! ## Rules for the operations -/

section Rules
variable {rt : Runtime} {log : Log} {faults : Faults} {I : KafkaWorld → Prop} {α β : Type}
  {Q : Except Exc β → KafkaWorld → Prop} {w : KafkaWorld}

/-- Every execution of `p` from `w` keeps `I` all the way, and ends as `Q` says. -/
abbrev Safe (rt : Runtime) (log : Log) (faults : Faults) (I : KafkaWorld → Prop) (p : Worker α)
    (Q : Except Exc α → KafkaWorld → Prop) (w : KafkaWorld) : Prop :=
  (kafka rt log faults).safe I p Q w

/-- Only a worker that expects faults meets any. -/
theorem Faults.any_of_raises {op : workerOps.Op} {e : Exc} (h : faults.raises op e = true) :
    faults = .any := by
  cases faults with
  | any => rfl
  | none => cases h

/-- An operation that has one outcome when it does not fail. -/
theorem safe_perform {op : workerOps.Op} {f : workerOps.Reply op → Worker β}
    {r : workerOps.Reply op} {v : KafkaWorld} (hI : I w)
    (hexec : ∀ c, (workingKafka rt log).exec op c w = (.ok r, v))
    (hok : Safe rt log faults I (f r) Q v)
    (herr : faults = .any → ∀ e, Q (.error e) w ∧ Q (.error e) v) :
    Safe rt log faults I (Program.perform workerOps op >>= f) Q w := by
  have hv : I v := Machine.safe_start (M := kafka rt log faults) hok
  refine Machine.safe_faulty hI (fun c => ?_) fun e c he => ?_
  · rw [hexec c]
    exact hok
  · obtain ⟨hbefore, hafter⟩ := herr (Faults.any_of_raises he) e
    rw [hexec c]
    exact ⟨⟨hI, hbefore⟩, ⟨hv, hafter⟩⟩

/-- An operation that does not leave the process. -/
theorem safe_local {op : WorkerOp} {f : kafkaOps.Reply op → Worker β} {r : kafkaOps.Reply op}
    {v : KafkaWorld} (hI : I w) (hop : ∀ e, mayRaise (.inr op) e = false)
    (hexec : ∀ c, (workingKafka rt log).exec (.inr op) c w = (.ok r, v))
    (hok : Safe rt log faults I (f r) Q v) : Safe rt log faults I (run op >>= f) Q w := by
  refine Machine.safe_faulty hI (fun c => ?_) fun e c he => ?_
  · rw [hexec c]
    exact hok
  · obtain rfl := Faults.any_of_raises he
    exact absurd he (by simp [Faults.raises, hop])

theorem safe_now {f : Instant → Worker β} (hI : I w)
    (hok : ∀ clock, Safe rt log faults I (f clock) Q w) :
    Safe rt log faults I (Worker.now >>= f) Q w := by
  refine Machine.safe_faulty hI (fun c => hok c.1) fun e c he => ?_
  obtain rfl := Faults.any_of_raises he
  cases he

theorem safe_uuid4 {f : String → Worker β} (hI : I w)
    (hok : Safe rt log faults I (f (w.2.uuids.draw w.2.issued)) Q
      (w.1, { w.2 with issued := w.2.issued + 1 })) :
    Safe rt log faults I (Worker.uuid4 >>= f) Q w :=
  safe_local hI (fun _ => rfl) (fun _ => rfl) hok

theorem safe_ofExcept {x : Except Exc α} {f : α → Worker β} (hI : I w)
    (hok : ∀ a, x = .ok a → Safe rt log faults I (f a) Q w)
    (herr : ∀ e, x = .error e → Q (.error e) w) :
    Safe rt log faults I (Program.ofExcept x >>= f) Q w := by
  cases x with
  | ok a => exact hok a rfl
  | error e => exact ⟨hI, herr e rfl⟩

theorem safe_get {id : String} {f : Option ProcessedEvent → Worker β} (hI : I w)
    (hok : Safe rt log faults I (f (w.event id)) Q w)
    (herr : faults = .any → ∀ e, Q (.error e) w) :
    Safe rt log faults I (Worker.get .processedEvent id >>= f) Q w := by
  rw [DynamoRepository.get_left_bind]
  refine Machine.safe_faulty hI (fun c => hok) fun e c he => ?_
  have hraised := herr (Faults.any_of_raises he) e
  exact ⟨⟨hI, hraised⟩, ⟨hI, hraised⟩⟩

/-- Where every item has a version, a `put` stores its value, unless something fails. -/
theorem safe_put {id : String} {v : ProcessedEvent} {f : Unit → Worker β} (hI : I w)
    (hversioned : w.Versioned)
    (hok : ∀ item : Item (Attributes ProcessedEvent), item.attributes.data = v →
      item.version.isSome = true → Safe rt log faults I (f ()) Q (w.store id item))
    (herr : faults = .any → ∀ e, Q (.error e) w ∧ ∀ item : Item (Attributes ProcessedEvent),
      item.attributes.data = v → item.version.isSome = true → Q (.error e) (w.store id item)) :
    Safe rt log faults I (Worker.put .processedEvent id v >>= f) Q w := by
  rw [DynamoRepository.put_left_bind]
  refine Machine.safe_faulty hI (fun c => ?_) fun e c he => ?_
  swap
  · obtain rfl := Faults.any_of_raises he
    cases he
  refine Machine.safe_faulty hI (fun c' => ?_) fun e c' he => ?_
  swap
  · obtain ⟨hraised, -⟩ := herr (Faults.any_of_raises he) e
    exact ⟨⟨hI, hraised⟩, ⟨hI, hraised⟩⟩
  -- the item is still the one just read, so the condition of the write holds
  have hholds : (Condition.unchanged (w.1.lookup ⟨.processedEvent, id⟩)).Holds
      (w.1.lookup ⟨.processedEvent, id⟩) := by
    cases hlookup : w.1.lookup ⟨.processedEvent, id⟩ with
    | none => rfl
    | some item =>
      obtain ⟨version, hversion⟩ := Option.isSome_iff_exists.mp (hversioned _ _ hlookup)
      exact ⟨item, rfl, by simp [versionOf, hversion]⟩
  have hdata := hok (DynamoRepository.item .processedEvent id v c.1
    (w.1.lookup ⟨.processedEvent, id⟩)) rfl rfl
  refine Machine.safe_faulty hI (fun c'' => ?_) fun e c'' he => ?_
  · simp only [hholds, if_true]
    exact hdata
  · obtain ⟨hbefore, hafter⟩ := herr (Faults.any_of_raises he) _
    refine ⟨⟨hI, hbefore⟩, ?_⟩
    simp only [hholds, if_true]
    exact ⟨Machine.safe_start (M := kafka rt log faults) hdata, hafter _ rfl rfl⟩

end Rules

/-! ## Worlds the worker can be in -/

/-- A world of the worker: its ids are those of the supply, no event is stored under an id
that is still to be drawn, and every stored item has a version. -/
structure Sane (uuids : UuidSupply) (w : KafkaWorld) : Prop where
  supply : w.2.uuids = uuids
  undrawn : ∀ k, w.2.issued ≤ k → w.event (uuids.draw k) = none
  versioned : w.Versioned

/-- What no step of the worker takes back: a stored event stays, unless a dead letter is
stored under the same id, and so does a dead-letter message. -/
structure KafkaWorld.Grows (w w' : KafkaWorld) : Prop where
  events : ∀ id event, w.event id = some event → ∃ event', w'.event id = some event' ∧
    (event' = event ∨ (∃ tp offset, id = deadLetterId tp offset) ∧ event'.result = "dead_lettered")
  deadLetters : ∀ message ∈ w.2.deadLetters, message ∈ w'.2.deadLetters

theorem KafkaWorld.Grows.of_eq {w w' : KafkaWorld} (htable : w'.1 = w.1)
    (hdeadLetters : w'.2.deadLetters = w.2.deadLetters) : w.Grows w' where
  events id event h := ⟨event, by rw [KafkaWorld.event, htable]; exact h, .inl rfl⟩
  deadLetters message h := hdeadLetters ▸ h

theorem KafkaWorld.Grows.refl (w : KafkaWorld) : w.Grows w := .of_eq rfl rfl

theorem KafkaWorld.Grows.trans {a b c : KafkaWorld} (hab : a.Grows b) (hbc : b.Grows c) :
    a.Grows c where
  events id event h := by
    obtain ⟨event', h', hsame⟩ := hab.events id event h
    obtain ⟨event'', h'', hsame'⟩ := hbc.events id event' h'
    refine ⟨event'', h'', ?_⟩
    rcases hsame' with rfl | hdead
    · exact hsame
    · exact .inr hdead
  deadLetters message h := hbc.deadLetters message (hab.deadLetters message h)

/-- The ids drawn are no dead-letter ids, and no record of the log names one. -/
structure UuidSupply.Fresh (uuids : UuidSupply) (rt : Runtime) (log : Log) : Prop where
  not_deadLetterId : ∀ k tp offset, uuids.draw k ≠ deadLetterId tp offset
  not_named : ∀ tp offset raw value fields k, log tp offset = some raw →
    deserialize rt raw.value = .ok value → EnvelopeFields.validate rt value = .ok fields →
    fields.eventId.map rt.entityId ≠ some (uuids.draw k)

/-- The worlds on the way from `w`: sane ones, to which `w` has grown, with the same
committed offsets. -/
structure Extends (uuids : UuidSupply) (w w' : KafkaWorld) : Prop where
  sane : Sane uuids w'
  grows : w.Grows w'
  committed : w'.2.committed = w.2.committed

theorem Sane.extends {uuids : UuidSupply} {w : KafkaWorld} (h : Sane uuids w) :
    Extends uuids w w := ⟨h, .refl w, rfl⟩

theorem Extends.trans {uuids : UuidSupply} {a b c : KafkaWorld} (hab : Extends uuids a b)
    (hbc : Extends uuids b c) : Extends uuids a c :=
  ⟨hbc.sane, hab.grows.trans hbc.grows, hbc.committed.trans hab.committed⟩

/-- What changes neither the table nor the ids drawn nor what was published. -/
theorem Extends.of_eq {uuids : UuidSupply} {w w' : KafkaWorld} (h : Sane uuids w)
    (htable : w'.1 = w.1) (huuids : w'.2.uuids = w.2.uuids) (hissued : w'.2.issued = w.2.issued)
    (hdeadLetters : w'.2.deadLetters = w.2.deadLetters)
    (hcommitted : w'.2.committed = w.2.committed) : Extends uuids w w' where
  sane := by
    refine ⟨huuids.trans h.supply, fun k hk => ?_, fun key item hlookup => ?_⟩
    · rw [KafkaWorld.event, htable]
      exact h.undrawn k (hissued ▸ hk)
    · exact h.versioned key item (htable ▸ hlookup)
  grows := .of_eq htable hdeadLetters
  committed := hcommitted

/-- The world after ids are drawn, up to the `n`-th of the supply. -/
def KafkaWorld.drawTo (w : KafkaWorld) (n : Nat) : KafkaWorld := (w.1, { w.2 with issued := n })

@[simp] theorem KafkaWorld.event_drawTo (w : KafkaWorld) (n : Nat) (id : String) :
    (w.drawTo n).event id = w.event id := rfl

theorem Sane.drawTo {uuids : UuidSupply} {w : KafkaWorld} (h : Sane uuids w) {n : Nat}
    (hn : w.2.issued ≤ n) : Extends uuids w (w.drawTo n) where
  sane := ⟨h.supply, fun k hk => h.undrawn k (Nat.le_trans hn hk), h.versioned⟩
  grows := .of_eq rfl rfl
  committed := rfl

/-- A new event is stored, or a dead letter in the place of any. -/
theorem Sane.store {uuids : UuidSupply} {w : KafkaWorld} (h : Sane uuids w) {id : String}
    {item : Item (Attributes ProcessedEvent)} (hversion : item.version.isSome = true)
    (hdrawn : ∀ k, w.2.issued ≤ k → uuids.draw k ≠ id)
    (hnew : w.event id = none ∨
      (∃ tp offset, id = deadLetterId tp offset) ∧ item.attributes.data.result = "dead_lettered") :
    Extends uuids w (w.store id item) where
  sane := by
    refine ⟨h.supply, fun k hk => ?_, h.versioned.store hversion⟩
    rw [KafkaWorld.event_store_ne (hdrawn k hk)]
    exact h.undrawn k hk
  grows := by
    refine ⟨fun id' event hevent => ?_, fun _ hm => hm⟩
    by_cases hid : id' = id
    · subst hid
      rcases hnew with hnone | hdead
      · cases hnone.symm.trans hevent
      · exact ⟨_, KafkaWorld.event_store_self w id' item, .inr hdead⟩
    · exact ⟨event, (KafkaWorld.event_store_ne hid w item).trans hevent, .inl rfl⟩
  committed := rfl

/-! ## Handled records -/

/-- The event is stored for the record. -/
def Record.Stores (record : Record) (event : ProcessedEvent) : Prop :=
  event.result = "processed" ∧ event.topic = some record.topic ∧
    event.partition = some record.partition ∧ event.offset = some record.offset

/-- A record has been handled: an event is stored under its event id, or for it under an
id that was generated, or its dead-letter message was published and recorded. -/
inductive Record.Handled (rt : Runtime) (uuids : UuidSupply) (record : Record) (w : KafkaWorld) :
    Prop
  | stored {fields id} : EnvelopeFields.validate rt record.value = .ok fields →
      fields.eventId = some id → (w.event (rt.entityId id)).isSome = true →
      Handled rt uuids record w
  | generated {fields k event} : EnvelopeFields.validate rt record.value = .ok fields →
      fields.eventId = none → w.event (uuids.draw k) = some event → record.Stores event →
      Handled rt uuids record w
  | deadLettered {message : DeadLetter} {event} :
      (deadLetterId record.topicPartition record.offset, message) ∈ w.2.deadLetters →
      message.payload.sourceTopic = record.topic →
      message.payload.sourcePartition = record.partition →
      message.payload.sourceOffset = record.offset →
      w.event (deadLetterId record.topicPartition record.offset) = some event →
      event.result = "dead_lettered" → Handled rt uuids record w

/-- A handled record stays handled. -/
theorem Record.Handled.grows {rt : Runtime} {uuids : UuidSupply} {record : Record}
    {w w' : KafkaWorld} (hids : ∀ k tp offset, uuids.draw k ≠ deadLetterId tp offset)
    (h : record.Handled rt uuids w) (hgrows : w.Grows w') : record.Handled rt uuids w' := by
  cases h with
  | @stored fields id hvalid hid hstored =>
    obtain ⟨event, hevent⟩ := Option.isSome_iff_exists.mp hstored
    obtain ⟨event', hevent', -⟩ := hgrows.events _ event hevent
    exact .stored hvalid hid (hevent' ▸ rfl)
  | @generated fields k event hvalid hid hevent hstores =>
    obtain ⟨event', hevent', rfl | ⟨⟨tp, offset, hdead⟩, -⟩⟩ := hgrows.events _ event hevent
    · exact .generated hvalid hid hevent' hstores
    · exact absurd hdead (hids k tp offset)
  | @deadLettered message event hsent htopic hpartition hoffset hevent hdead =>
    obtain ⟨event', hevent', hsame⟩ := hgrows.events _ event hevent
    refine .deadLettered (hgrows.deadLetters _ hsent) htopic hpartition hoffset hevent' ?_
    rcases hsame with rfl | ⟨-, hdead'⟩
    · exact hdead
    · exact hdead'

/-! ## What the handlers leave behind -/

section Handlers
variable {rt : Runtime} {log : Log} {faults : Faults} {uuids : UuidSupply} {β : Type}
  {I : KafkaWorld → Prop} {Q : Except Exc β → KafkaWorld → Prop} {w : KafkaWorld}

/-- A default draws an id, or none. -/
theorem safe_default_uuid4 {field : Option Str} {f : Str → Worker β} (hI : I w)
    (hsome : ∀ id, field = some id → Safe rt log faults I (f id) Q w)
    (hnone : field = none → Safe rt log faults I (f (.text (w.2.uuids.draw w.2.issued))) Q
      (w.drawTo (w.2.issued + 1))) :
    Safe rt log faults I (EnvelopeFields.default field (.text <$> uuid4) >>= f) Q w := by
  cases field with
  | some id => exact hsome id rfl
  | none =>
    rw [EnvelopeFields.default, bind_map_left]
    exact safe_uuid4 hI (hnone rfl)

/-- The event id of an envelope is the one the record names, or one just drawn. -/
def NamedOrDrawn (uuids : UuidSupply) (fields : EnvelopeFields) (from' to' : Nat) (id : Str) :
    Prop :=
  fields.eventId = some id ∨
    fields.eventId = none ∧ ∃ k, from' ≤ k ∧ k < to' ∧ id = .text (uuids.draw k)

theorem safe_modelValidate {value : Json} {f : EventEnvelope (List (Str × Json)) → Worker β}
    (hw : Sane uuids w) (hI : ∀ n, w.2.issued ≤ n → I (w.drawTo n))
    (hok : ∀ fields envelope n, EnvelopeFields.validate rt value = .ok fields →
      w.2.issued ≤ n → NamedOrDrawn uuids fields w.2.issued n envelope.eventId →
      Safe rt log faults I (f envelope) Q (w.drawTo n))
    (herr : ∀ e, EnvelopeFields.validate rt value = .error e → Q (.error e) w) :
    Safe rt log faults I (EventEnvelope.modelValidate rt value >>= f) Q w := by
  have hIw : I w := hI _ (Nat.le_refl _)
  unfold EventEnvelope.modelValidate
  simp only [bind_assoc]
  refine safe_ofExcept hIw (fun fields hfields => ?_) herr
  -- the rest of the validation, from a world in which the event id is settled
  have rest : ∀ eventId n, w.2.issued ≤ n → NamedOrDrawn uuids fields w.2.issued n eventId →
      Safe rt log faults I (do
        let occurredAt ← EnvelopeFields.default fields.occurredAt now
        let correlationId ← EnvelopeFields.default fields.correlationId (.text <$> uuid4)
        f { eventId, occurredAt, correlationId
            eventType := fields.eventType
            eventVersion := fields.eventVersion.getD 1
            producer := fields.producer
            causationId := fields.causationId.join
            actorId := fields.actorId.join
            payload := fields.payload }) Q (w.drawTo n) := by
    intro eventId n hn hid
    have correlated : ∀ occurredAt, Safe rt log faults I (do
        let correlationId ← EnvelopeFields.default fields.correlationId (.text <$> uuid4)
        f { eventId, occurredAt, correlationId
            eventType := fields.eventType
            eventVersion := fields.eventVersion.getD 1
            producer := fields.producer
            causationId := fields.causationId.join
            actorId := fields.actorId.join
            payload := fields.payload }) Q (w.drawTo n) := by
      intro occurredAt
      refine safe_default_uuid4 (hI n hn) (fun _ _ => hok _ _ n hfields hn hid) fun _ => ?_
      refine hok _ _ (n + 1) hfields (Nat.le_succ_of_le hn) ?_
      exact hid.imp_right fun ⟨hnone, k, hk, hkn, heq⟩ => ⟨hnone, k, hk, Nat.lt_succ_of_lt hkn, heq⟩
    cases fields.occurredAt with
    | some occurredAt => exact correlated occurredAt
    | none => exact safe_now (hI n hn) correlated
  refine safe_default_uuid4 hIw (fun id hid => rest id _ (Nat.le_refl _) (.inl hid)) fun hnone => ?_
  rw [hw.supply]
  exact rest _ _ (Nat.le_succ _) (.inr ⟨hnone, _, Nat.le_refl _, Nat.lt_succ_self _, rfl⟩)

/-- The last step of a handler counts the event. -/
theorem safe_countProcessed {eventType result : String} {I : KafkaWorld → Prop}
    {Q : Except Exc Unit → KafkaWorld → Prop} (hI : I w)
    (hI' : I (w.1, { w.2 with processed := w.2.processed ++ [(eventType, result)] }))
    (hQ : Q (.ok ()) (w.1, { w.2 with processed := w.2.processed ++ [(eventType, result)] })) :
    Safe rt log faults I (run (.countProcessed eventType result)) Q w := by
  rw [← bind_pure (run _)]
  exact safe_local hI (fun _ => rfl) (fun _ => rfl) ⟨hI', hQ⟩

/-- `process_record` stores the event of a valid record, unless one is stored; it raises
on an invalid one, or on a fault. -/
theorem processRecord_safe {worker : KafkaEventWorker} {record : Record} (hw : Sane uuids w)
    (hnamed : ∀ fields k, EnvelopeFields.validate worker.runtime record.value = .ok fields →
      fields.eventId.map worker.runtime.entityId ≠ some (uuids.draw k)) :
    Safe worker.runtime log faults (Extends uuids w) (worker.processRecord record) (fun out w' =>
      w'.2.positions = w.2.positions ∧ w'.2.attempts = w.2.attempts ∧
        match out with
        | .ok _ => (∃ fields, EnvelopeFields.validate worker.runtime record.value = .ok fields) ∧
            record.Handled worker.runtime uuids w'
        | .error e => faults = .any ∨
            EnvelopeFields.validate worker.runtime record.value = .error e ∧ w' = w) w := by
  unfold KafkaEventWorker.processRecord
  refine safe_modelValidate hw (fun n hn => hw.drawTo hn) ?_
    (fun e he => ⟨rfl, rfl, .inr ⟨he, rfl⟩⟩)
  intro fields envelope n hfields hn hid
  have hdrawn := hw.drawTo hn
  refine safe_get hdrawn ?_ fun hany e => ⟨rfl, rfl, .inl hany⟩
  rw [KafkaWorld.event_drawTo]
  -- the id under which the table keeps the event
  generalize hentity : worker.runtime.entityId envelope.eventId = id
  cases hexisting : w.event id with
  | some event =>
    simp only [Option.isNone_some, Bool.false_eq_true, if_false]
    refine safe_countProcessed hdrawn
      (hdrawn.trans (.of_eq hdrawn.sane rfl rfl rfl rfl rfl)) ⟨rfl, rfl, ⟨fields, hfields⟩, ?_⟩
    rcases hid with hid | ⟨-, k, hk, -, heq⟩
    · exact .stored hfields hid (Option.isSome_iff_exists.mpr ⟨event, hentity ▸ hexisting⟩)
    · -- an id just drawn is not taken
      rw [← hentity, heq, Runtime.entityId, hw.undrawn k hk] at hexisting
      cases hexisting
  | none =>
    simp only [Option.isNone_none, if_true]
    refine safe_now hdrawn fun clock => ?_
    have hundrawn : ∀ k, n ≤ k → uuids.draw k ≠ id := by
      intro k hk heq
      rcases hid with hid | ⟨-, k', -, hk', heq'⟩
      · exact hnamed fields k hfields (by rw [hid, Option.map_some, hentity, heq])
      · rw [heq', Runtime.entityId] at hentity
        exact absurd (uuids.injective (heq.trans hentity.symm))
          (Nat.ne_of_gt (Nat.lt_of_lt_of_le hk' hk))
    have stored : ∀ item : Item (Attributes ProcessedEvent), item.version.isSome = true →
        Extends uuids w ((w.drawTo n).store id item) := fun item hversion =>
      hdrawn.trans (hdrawn.sane.store hversion hundrawn (.inl hexisting))
    refine safe_put hdrawn hdrawn.sane.versioned (fun item hdata hversion => ?_)
      fun hany e => ⟨⟨rfl, rfl, .inl hany⟩, fun _ _ _ => ⟨rfl, rfl, .inl hany⟩⟩
    have hstored := stored item hversion
    refine safe_countProcessed hstored
      (hstored.trans (.of_eq hstored.sane rfl rfl rfl rfl rfl)) ⟨rfl, rfl, ⟨fields, hfields⟩, ?_⟩
    have hevent := KafkaWorld.event_store_self (w.drawTo n) id item
    rcases hid with hid | ⟨hnone, k, -, -, heq⟩
    · rw [← hentity] at hevent ⊢
      exact .stored hfields hid (Option.isSome_iff_exists.mpr ⟨_, hevent⟩)
    · rw [heq, Runtime.entityId] at hentity
      have hgenerated : ((w.drawTo n).store id item).event (uuids.draw k) =
          some item.attributes.data := by rw [hentity, hevent]
      refine .generated hfields hnone hgenerated ?_
      rw [hdata]
      exact ⟨rfl, rfl, rfl, rfl⟩

/-- What `_dead_letter` builds from a value is a valid envelope, and it can be dumped and then
encoded. -/
structure DeadLetterable (rt : Runtime) (original : Json) : Prop where
  causation : ∃ id, Field.strOrNone ((original.get? "event_id").getD .null) = some id ∧
    (id.elim .null .str : Json).encodable = true
  correlation : ∀ id, original.get? "correlation_id" = some id → id.truthy = true →
    (Json.str (rt.str id)).encodable = true
  dump : ∃ value, rt.dump original = .ok value ∧ value.encodable = true

/-- The message is the dead letter of the record. -/
structure EventEnvelope.Describes (message : DeadLetter) (rt : Runtime) (record : Record) :
    Prop where
  topic : message.payload.sourceTopic = record.topic
  partition : message.payload.sourcePartition = record.partition
  offset : message.payload.sourceOffset = record.offset
  dump : rt.dump record.value = .ok message.payload.originalValue

theorem safe_correlationId {worker : KafkaEventWorker} {original : Json} {f : Str → Worker β}
    (hI : I w)
    (hgiven : ∀ id, original.get? "correlation_id" = some id → id.truthy = true →
      Safe rt log faults I (f (worker.runtime.str id)) Q w)
    (hdrawn : (∀ id, original.get? "correlation_id" = some id → id.truthy = false) →
      ∀ id, Safe rt log faults I (f (.text id)) Q (w.drawTo (w.2.issued + 1))) :
    Safe rt log faults I (worker.correlationId original >>= f) Q w := by
  unfold KafkaEventWorker.correlationId
  cases hid : original.get? "correlation_id" with
  | none =>
    simp only [bind_assoc, pure_bind]
    refine safe_uuid4 hI (hdrawn ?_ _)
    rw [hid]
    exact nofun
  | some id =>
    cases htruthy : id.truthy with
    | true =>
      simp only [htruthy, if_true, pure_bind]
      exact hgiven id hid htruthy
    | false =>
      simp only [htruthy, Bool.false_eq_true, if_false, bind_assoc, pure_bind]
      refine safe_uuid4 hI (hdrawn (fun id' hid' => ?_) _)
      obtain rfl := Option.some.inj (hid.symm.trans hid')
      exact htruthy

/-- A field of the message is valid, or the message is not built. -/
theorem safe_field {γ : Type} {field : Option γ} {f : γ → Worker β} (hI : I w)
    (hsome : ∀ value, field = some value → Safe rt log faults I (f value) Q w)
    (hnone : field = none → ∀ e, Q (.error e) w) :
    Safe rt log faults I (Program.ofExcept (EventEnvelope.field field) >>= f) Q w := by
  cases field with
  | some value => exact hsome value rfl
  | none => exact ⟨hI, hnone rfl _⟩

/-- The dictionary of a dead-letter message has an encoding, if its ids and the original value
have: the rest of it are texts and numbers. -/
theorem encodable_deadLetterOf (worker : KafkaEventWorker) (record : Record) (error : Exc)
    (attempts : Nat) (eventId : String) (correlationId : Str) (causationId : Option Str)
    (occurredAt : Instant) (originalValue : Json) :
    (worker.messageDict (worker.deadLetterOf record error attempts eventId correlationId
        causationId occurredAt originalValue)).encodable = true ↔
      (Json.str correlationId).encodable = true ∧
        (causationId.elim .null .str : Json).encodable = true ∧ originalValue.encodable = true := by
  have hkey : (record.key.elim .null (Json.text ∘ Python.decodeReplace)).encodable = true := by
    cases record.key <;> rfl
  simp [KafkaEventWorker.messageDict, KafkaEventWorker.deadLetterOf, EventEnvelope.withPayload,
    EventEnvelope.toDict, DeadLetterPayload.toDict, Json.encodable, Json.encodableFields,
    Str.text?, hkey]

theorem safe_deadLetterMessage {worker : KafkaEventWorker} {record : Record} {error : Exc}
    {attempts : Nat} {f : DeadLetter → Worker β} (hI : ∀ n, w.2.issued ≤ n → I (w.drawTo n))
    (hok : ∀ (message : DeadLetter) n, w.2.issued ≤ n →
      ((worker.messageDict message).encodable = true ↔
        DeadLetterable worker.runtime record.value) → message.Describes worker.runtime record →
      Safe rt log faults I (f message) Q (w.drawTo n))
    (herr : ∀ e n, w.2.issued ≤ n → ¬ DeadLetterable worker.runtime record.value →
      Q (.error e) (w.drawTo n)) :
    Safe rt log faults I (worker.deadLetterMessage record error attempts >>= f) Q w := by
  unfold KafkaEventWorker.deadLetterMessage
  simp only [bind_assoc, pure_bind]
  -- what follows the correlation id
  have rest : ∀ eventId correlationId n, w.2.issued ≤ n →
      ((Json.str correlationId).encodable = true ↔
        ∀ id, record.value.get? "correlation_id" = some id → id.truthy = true →
          (Json.str (worker.runtime.str id)).encodable = true) →
      Safe rt log faults I (do
        let causationId ← Program.ofExcept
          (EventEnvelope.field (Field.strOrNone ((record.value.get? "event_id").getD .null)))
        let occurredAt ← now
        let originalValue ← Program.ofExcept (worker.runtime.dump record.value)
        f (worker.deadLetterOf record error attempts eventId correlationId causationId occurredAt
          originalValue)) Q (w.drawTo n) := by
    intro eventId correlationId n hn hcorrelation
    refine safe_field (hI n hn) (fun causationId hcausation => safe_now (hI n hn) fun occurredAt =>
      safe_ofExcept (hI n hn) (fun originalValue hdump => ?_) fun e hdump => ?_) fun hnone e => ?_
    · refine hok _ n hn ((encodable_deadLetterOf ..).trans ⟨?_, ?_⟩) ⟨rfl, rfl, rfl, hdump⟩
      · rintro ⟨hid, hcause, hvalue⟩
        exact ⟨⟨causationId, hcausation, hcause⟩, hcorrelation.mp hid, originalValue, hdump, hvalue⟩
      · intro h
        obtain ⟨causationId', hcausation', hcause⟩ := h.causation
        obtain rfl := Option.some.inj (hcausation.symm.trans hcausation')
        obtain ⟨originalValue', hdump', hvalue⟩ := h.dump
        obtain rfl := Except.ok.inj (hdump.symm.trans hdump')
        exact ⟨hcorrelation.mpr h.correlation, hcause, hvalue⟩
    · refine herr e n hn fun h => ?_
      obtain ⟨value, hvalue, -⟩ := h.dump
      cases hdump.symm.trans hvalue
    · refine herr e n hn fun h => ?_
      obtain ⟨id, hsome, -⟩ := h.causation
      cases hnone.symm.trans hsome
  refine safe_uuid4 (hI _ (Nat.le_refl _)) ?_
  have hone : w.2.issued ≤ w.2.issued + 1 := Nat.le_succ _
  refine safe_correlationId (hI _ hone) (fun id hid _ => rest _ _ _ hone ?_) fun hfalsy id =>
    rest _ (.text id) (w.2.issued + 1 + 1) (Nat.le_succ_of_le hone) ?_
  · refine ⟨fun hencodable id' hid' _ => ?_, fun hall => hall id hid ‹_›⟩
    obtain rfl := Option.some.inj (hid.symm.trans hid')
    exact hencodable
  · refine iff_of_true rfl fun id' hid' htruthy => ?_
    cases (hfalsy id' hid').symm.trans htruthy

/-- The message is encoded and published, or raises. -/
theorem safe_publishDeadLetter {worker : KafkaEventWorker} {key : String} {message : DeadLetter}
    {f : Unit → Worker β} (hI : I w)
    (hok : (worker.messageDict message).encodable = true → Safe rt log faults I (f ()) Q
      (w.1, { w.2 with deadLetters := w.2.deadLetters ++ [(key, message)] }))
    (herr : ∀ e, faults = .any ∨ (worker.messageDict message).encodable ≠ true → Q (.error e) w)
    (hlost : faults = .any → ∀ e, Q (.error e)
      (w.1, { w.2 with deadLetters := w.2.deadLetters ++ [(key, message)] })) :
    Safe rt log faults I (worker.publishDeadLetter key message >>= f) Q w := by
  unfold KafkaEventWorker.publishDeadLetter encode
  rw [bind_assoc]
  split
  · rename_i hencodable
    exact safe_perform hI (fun _ => rfl) (hok hencodable) fun hany e =>
      ⟨herr e (.inl hany), hlost hany e⟩
  · rename_i hnot
    exact ⟨hI, herr _ (.inr hnot)⟩

/-- The event records the dead letter of the record. -/
def Record.RecordsDeadLetter (record : Record) (event : ProcessedEvent) : Prop :=
  event.result = "dead_lettered" ∧ event.topic = some record.topic ∧
    event.partition = some record.partition ∧ event.offset = some record.offset

/-- Between the worlds, one dead-letter message was published for the record, and one
event recorded. -/
structure DeadLettered (rt : Runtime) (record : Record) (w w' : KafkaWorld) : Prop where
  deadLetterable : DeadLetterable rt record.value
  published : ∃ message : DeadLetter, message.Describes rt record ∧
    w'.2.deadLetters = w.2.deadLetters ++
      [(deadLetterId record.topicPartition record.offset, message)]
  recorded : ∃ item : Item (Attributes ProcessedEvent),
    record.RecordsDeadLetter item.attributes.data ∧
      w'.1 = w.1.insert ⟨.processedEvent, deadLetterId record.topicPartition record.offset⟩ item

theorem DeadLettered.handled {record : Record} {w' : KafkaWorld}
    (h : DeadLettered rt record w w') : record.Handled rt uuids w' := by
  obtain ⟨message, hdescribes, hsent⟩ := h.published
  obtain ⟨item, hrecords, htable⟩ := h.recorded
  have hevent : w'.event (deadLetterId record.topicPartition record.offset) =
      some item.attributes.data := by
    rw [KafkaWorld.event, htable, AList.lookup_insert, Option.map_some]
  have hmem : (deadLetterId record.topicPartition record.offset, message) ∈ w'.2.deadLetters :=
    hsent ▸ List.mem_append_right _ (List.mem_singleton.mpr rfl)
  exact .deadLettered hmem hdescribes.topic hdescribes.partition hdescribes.offset hevent hrecords.1

/-- `_dead_letter` publishes and records one message, or raises: on a fault, or because the
value allows no message. -/
theorem deadLetter_safe {worker : KafkaEventWorker} {record : Record} {error : Exc}
    {attempts : Nat} (hw : Sane uuids w)
    (hids : ∀ k tp offset, uuids.draw k ≠ deadLetterId tp offset) :
    Safe rt log faults (Extends uuids w) (worker.deadLetter record error attempts) (fun out w' =>
      w'.2.positions = w.2.positions ∧ w'.2.attempts = w.2.attempts ∧
        match out with
        | .ok _ => DeadLettered worker.runtime record w w'
        | .error _ => faults = .any ∨ ¬ DeadLetterable worker.runtime record.value ∧
            w'.1 = w.1 ∧ w'.2.deadLetters = w.2.deadLetters) w := by
  unfold KafkaEventWorker.deadLetter
  refine safe_deadLetterMessage (fun n hn => hw.drawTo hn)
    (fun message n hn hencodable hdescribes => ?_)
    fun e n hn hnot => ⟨rfl, rfl, .inr ⟨hnot, rfl, rfl⟩⟩
  have hdrawn := hw.drawTo hn
  let sent : KafkaWorld := (w.1,
    { w.2 with
      issued := n
      deadLetters := w.2.deadLetters ++
        [(deadLetterId record.topicPartition record.offset, message)] })
  have hsent : Extends uuids w sent :=
    ⟨⟨hw.supply, hdrawn.sane.undrawn, hw.versioned⟩,
      ⟨fun id event h => ⟨event, h, .inl rfl⟩, fun _ hm => List.mem_append_left _ hm⟩, rfl⟩
  refine safe_publishDeadLetter hdrawn (fun hdict => ?_)
    (fun e hnot => ⟨rfl, rfl, hnot.imp_right fun hnot => ⟨mt hencodable.mpr hnot, rfl, rfl⟩⟩)
    fun hany e => ⟨rfl, rfl, .inl hany⟩
  have hdead := hencodable.mp hdict
  refine safe_now hsent fun processedAt => ?_
  refine safe_put hsent hsent.sane.versioned (fun item hdata hversion => ?_)
    fun hany e => ⟨⟨rfl, rfl, .inl hany⟩, fun _ _ _ => ⟨rfl, rfl, .inl hany⟩⟩
  have hrecords : record.RecordsDeadLetter item.attributes.data := by
    rw [hdata]
    exact ⟨rfl, rfl, rfl, rfl⟩
  have hstored := hsent.trans (hsent.sane.store hversion
    (fun k _ => hids k record.topicPartition record.offset)
    (.inr ⟨⟨record.topicPartition, record.offset, rfl⟩, hrecords.1⟩))
  exact safe_countProcessed hstored (hstored.trans (.of_eq hstored.sane rfl rfl rfl rfl rfl))
    ⟨rfl, rfl, hdead, ⟨message, hdescribes, rfl⟩, ⟨item, hrecords, rfl⟩⟩

/-- The attempts made at a record so far. -/
def KafkaWorld.attemptsAt (w : KafkaWorld) (record : Record) : Nat :=
  (w.2.attempts record.attemptsKey).getD 0

/-- Between the worlds, only what belongs to the record changed: not the positions, nor the
attempts at any other record. -/
structure OnlyFor (record : Record) (w w' : KafkaWorld) : Prop where
  positions : w'.2.positions = w.2.positions
  attempts : ∀ key, key ≠ record.attemptsKey → w'.2.attempts key = w.2.attempts key

/-- The world after the attempts at a record are forgotten. -/
def KafkaWorld.popAttempts (w : KafkaWorld) (record : Record) : KafkaWorld :=
  (w.1, { w.2 with attempts := Function.update w.2.attempts record.attemptsKey none })

theorem OnlyFor.popAttempts {record : Record} {w' : KafkaWorld} (h : OnlyFor record w w') :
    OnlyFor record w (w'.popAttempts record) :=
  ⟨h.positions, fun key hkey => (Function.update_of_ne hkey ..).trans (h.attempts key hkey)⟩

theorem Sane.popAttempts (hw : Sane uuids w) (record : Record) :
    Extends uuids w (w.popAttempts record) := .of_eq hw rfl rfl rfl rfl rfl

theorem safe_popAttempts {record : Record} {f : Unit → Worker β} (hI : I w)
    (hok : Safe rt log faults I (f ()) Q (w.popAttempts record)) :
    Safe rt log faults I (run (.popAttempts record.attemptsKey) >>= f) Q w :=
  safe_local (v := w.popAttempts record) hI (fun _ => rfl) (fun _ => rfl) hok

/-- Between the worlds, nothing was stored and no dead letter published. -/
def Quiet (w w' : KafkaWorld) : Prop := w'.1 = w.1 ∧ w'.2.deadLetters = w.2.deadLetters

/-- How the handling of a failure ends: with another attempt to come, with the record
dead-lettered, or with an exception. -/
def RetryOutcome (worker : KafkaEventWorker) (faults : Faults) (record : Record) (w : KafkaWorld)
    (out : Except Exc Bool) (w' : KafkaWorld) : Prop :=
  match out with
  | .ok true => worker.maxProcessingAttempts ≤ w.attemptsAt record + 1 ∧
      DeadLettered worker.runtime record w w'
  | .ok false => w.attemptsAt record + 1 < worker.maxProcessingAttempts ∧
      w'.attemptsAt record = w.attemptsAt record + 1 ∧ Quiet w w'
  | .error _ => worker.maxProcessingAttempts ≤ w.attemptsAt record + 1 ∧
      (faults = .any ∨ ¬ DeadLetterable worker.runtime record.value ∧ Quiet w w')

theorem retryOrDeadLetter_safe {worker : KafkaEventWorker} {record : Record} {error : Exc}
    (hw : Sane uuids w) (hids : ∀ k tp offset, uuids.draw k ≠ deadLetterId tp offset) :
    Safe worker.runtime log faults (Extends uuids w) (worker.retryOrDeadLetter record error)
      (fun out w' => OnlyFor record w w' ∧ RetryOutcome worker faults record w out w') w := by
  unfold KafkaEventWorker.retryOrDeadLetter
  refine safe_local (r := w.2.attempts record.attemptsKey) (v := w) hw.extends (fun _ => rfl)
    (fun _ => rfl) ?_
  let counted : KafkaWorld := (w.1,
    { w.2 with
      attempts := Function.update w.2.attempts record.attemptsKey
        (some (w.attemptsAt record + 1)) })
  have hcounted : Extends uuids w counted := .of_eq hw rfl rfl rfl rfl rfl
  have hother : OnlyFor record w counted := ⟨rfl, fun key hkey => Function.update_of_ne hkey ..⟩
  refine safe_local (v := counted) hw.extends (fun _ => rfl) (fun _ => rfl) ?_
  split
  · rename_i hlt
    refine ⟨hcounted, hother, hlt, ?_, rfl, rfl⟩
    simp [KafkaWorld.attemptsAt, counted]
  · rename_i hge
    have hmax := Nat.le_of_not_lt hge
    refine Machine.safe_bind (Machine.safe_mono (deadLetter_safe hcounted.sane hids)
      (fun _ => hcounted.trans) ?_)
    rintro out w' hextends ⟨hpositions, hattempts, hout⟩
    have honly : OnlyFor record w w' :=
      ⟨hpositions.trans hother.positions, fun key hkey =>
        (congrFun hattempts key).trans (hother.attempts key hkey)⟩
    cases out with
    | error e => exact ⟨honly, hmax, hout⟩
    | ok _ =>
      refine safe_popAttempts (hcounted.trans hextends) ?_
      exact ⟨hcounted.trans (hextends.trans (hextends.sane.popAttempts record)), honly.popAttempts,
        hmax, hout.deadLetterable, hout.published, hout.recorded⟩

/-- `process_record_with_retry` handles the record, or leaves it to another attempt; it
raises only on a fault, or where no dead letter can be built of an invalid record. -/
theorem processRecordWithRetry_safe {worker : KafkaEventWorker} {record : Record}
    (hw : Sane uuids w) (hids : ∀ k tp offset, uuids.draw k ≠ deadLetterId tp offset)
    (hnamed : ∀ fields k, EnvelopeFields.validate worker.runtime record.value = .ok fields →
      fields.eventId.map worker.runtime.entityId ≠ some (uuids.draw k)) :
    Safe worker.runtime log faults (Extends uuids w) (worker.processRecordWithRetry record)
      (fun out w' => OnlyFor record w w' ∧
        match out with
        | .ok true => record.Handled worker.runtime uuids w'
        | .ok false => w.attemptsAt record + 1 < worker.maxProcessingAttempts ∧
            w'.attemptsAt record = w.attemptsAt record + 1
        | .error _ => faults = .any ∨
            (∃ e, EnvelopeFields.validate worker.runtime record.value = .error e) ∧
              ¬ DeadLetterable worker.runtime record.value) w := by
  unfold KafkaEventWorker.processRecordWithRetry
  refine Machine.safe_tryCatch (Machine.safe_bind (Machine.safe_mono (processRecord_safe hw hnamed)
    (fun _ h => h) ?_))
  rintro out w' hextends ⟨hpositions, hattempts, hout⟩
  have honly : OnlyFor record w w' := ⟨hpositions, fun key _ => congrFun hattempts key⟩
  have hsame : KafkaWorld.attemptsAt w' record = w.attemptsAt record := by
    rw [KafkaWorld.attemptsAt, hattempts, KafkaWorld.attemptsAt]
  cases out with
  | ok _ =>
    refine safe_popAttempts hextends ⟨hextends.trans (hextends.sane.popAttempts record),
      honly.popAttempts, ?_⟩
    exact hout.2.grows hids (hextends.sane.popAttempts record).grows
  | error e =>
    refine Machine.safe_mono (retryOrDeadLetter_safe hextends.sane hids)
      (fun _ => hextends.trans) ?_
    rintro out w'' hextends' ⟨honly', houtcome⟩
    refine ⟨⟨honly'.positions.trans honly.positions,
      fun key hkey => (honly'.attempts key hkey).trans (honly.attempts key hkey)⟩, ?_⟩
    unfold RetryOutcome at houtcome
    rw [hsame] at houtcome
    rcases out with e' | ⟨_ | _⟩
    · rcases houtcome.2 with hany | ⟨hnot, -⟩
      · exact .inl hany
      · exact hout.imp id fun ⟨hinvalid, _⟩ => ⟨⟨e, hinvalid⟩, hnot⟩
    · exact ⟨houtcome.1, houtcome.2.1⟩
    · exact houtcome.2.handled

/-- What `process_record_with_retry` does with an invalid record when nothing fails. -/
theorem processRecordWithRetry_invalid {worker : KafkaEventWorker} {record : Record} {e : Exc}
    (hw : Sane uuids w) (hids : ∀ k tp offset, uuids.draw k ≠ deadLetterId tp offset)
    (hinvalid : EnvelopeFields.validate worker.runtime record.value = .error e) :
    Safe worker.runtime log .none (Extends uuids w) (worker.processRecordWithRetry record)
      (fun out w' => OnlyFor record w w' ∧ RetryOutcome worker .none record w out w') w := by
  have hnamed : ∀ fields k, EnvelopeFields.validate worker.runtime record.value = .ok fields →
      fields.eventId.map worker.runtime.entityId ≠ some (uuids.draw k) := by
    intro fields k hvalid
    cases hinvalid.symm.trans hvalid
  unfold KafkaEventWorker.processRecordWithRetry
  refine Machine.safe_tryCatch (Machine.safe_bind (Machine.safe_mono (processRecord_safe hw hnamed)
    (fun _ h => h) ?_))
  rintro out w' hextends ⟨-, -, hout⟩
  cases out with
  | ok _ =>
    obtain ⟨⟨fields, hvalid⟩, -⟩ := hout
    cases hinvalid.symm.trans hvalid
  | error e' =>
    rcases hout with hany | ⟨-, rfl⟩
    · cases hany
    · exact retryOrDeadLetter_safe hw hids

end Handlers
end AxSentinel
