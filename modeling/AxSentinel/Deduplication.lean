import AxSentinel.Delivery

/-! # One event at many workers

Any number of workers handle records over one table, interleaved in any way, and one event
may be delivered to any of them any number of times.  A worker looks an event up, and stores
it if it is new; but `put` reads the item once more, so the version it checks is not the one
the worker's decision rests on.  An event another worker stores in between is overwritten, and
counted twice (`idempotent_iff_noRace`). -/
namespace AxSentinel
open Effects Worker
open Python (Json Str)

/-! ## Workers that share a table -/

/-- What the workers act on besides the table.  The attempts of a record are the handling
worker's own; which number it has counted is left open. -/
abbrev fleetMachine (rt : Runtime) (log : Log) : Machine kafkaOps where
  World := WorkerWorld
  Choice := Option Nat × Except Exc Fetch
  exec op c w :=
    match op with
    | .getAttempts _ => (.ok c.1, w)
    | op => (kafkaMachine rt log).exec op c.2 w

/-- The table and the rest of the workers' world; nothing fails. -/
abbrev fleet (rt : Runtime) (log : Log) : Machine workerOps :=
  (storeMachine ProcessedEvent).sum (fleetMachine rt log)

instance (rt : Runtime) (log : Log) : TableMachine (fleet rt log) Key.entityType :=
  .beside Key.entityType (.clientError conditionalCheckFailed) (fleetMachine rt log)

instance (rt : Runtime) (log : Log) : Inhabited (fleet rt log).Choice :=
  ⟨(0, none, (default : (workingKafka rt log).Choice).2)⟩

/-- A record, and the worker that handles it. -/
structure Handling where
  worker : KafkaEventWorker
  record : Record

/-- The worker's handling of the record. -/
def Handling.code (handling : Handling) : Worker Bool :=
  handling.worker.processRecordWithRetry handling.record

/-- Handlings under way. -/
abbrev Handlings (rt : Runtime) (log : Log) := System (fleet rt log) Handling Bool

/-- An empty table, and nothing sent or counted. -/
def fleetStart (rt : Runtime) (log : Log) (uuids : UuidSupply) : (fleet rt log).World :=
  (∅, ⟨fun _ => 0, fun _ => 0, fun _ => none, [], [], uuids, 0⟩)

/-- The systems some run of the workers leads to. -/
abbrev Handlings.Reachable {rt : Runtime} {log : Log} (uuids : UuidSupply)
    (s : Handlings rt log) : Prop :=
  System.Reachable Handling.code (fleetStart rt log uuids) s

/-! ## What a handling may do -/

/-- The moves a handling has behind it. -/
abbrev WorkerMoves := List (Move workerOps)

/-- The key of a processed event. -/
abbrev eventKey (id : String) : Key := ⟨.processedEvent, id⟩

/-- The id is one of a dead letter. -/
def isDeadLetterId (id : String) : Bool := "dlq-".toList.isPrefixOf id.toList

theorem isDeadLetterId_deadLetterId (tp : TopicPartition) (offset : Nat) :
    isDeadLetterId (deadLetterId tp offset) = true := by
  simp [isDeadLetterId, deadLetterId]

/-- What an item was read as, if the move is a read. -/
def readOf (m : Move workerOps) : Option (Key × Option (Item (Attributes ProcessedEvent))) :=
  match m with
  | ⟨.inl (.getItem key), .ok item⟩ => some (key, item)
  | _ => none

/-- The first item a handling has read: the event it looked up. -/
def firstRead (past : WorkerMoves) : Option (Key × Option (Item (Attributes ProcessedEvent))) :=
  past.findSome? readOf

theorem firstRead_append {past : WorkerMoves} (more : WorkerMoves)
    {read : Key × Option (Item (Attributes ProcessedEvent))} (h : firstRead past = some read) :
    firstRead (past ++ more) = some read := by
  rw [firstRead, List.findSome?_append]
  unfold firstRead at h
  rw [h]
  rfl

/-- The operation draws an id or reads the clock. -/
def OffTable : workerOps.Op → Prop
  | .inl .now => True
  | .inr .uuid4 => True
  | _ => False

/-- What a handling does after an exception. -/
def Failing : workerOps.Op → Prop
  | .inl (.getItem key) => isDeadLetterId key.entityId = true
  | .inl (.putItem key _ _) => isDeadLetterId key.entityId = true
  | .inr (.countProcessed _ result) => result = "dead_lettered"
  | _ => True

/-- What a handling may do next, in view of its past: it stores an event once, and only after
it found it new; it counts an event as processed once it has stored it, and as a duplicate if
it found it stored. -/
def Handles (past : WorkerMoves) : workerOps.Op → Prop
  | .inl (.putItem key _ cond) => isDeadLetterId key.entityId = true ∨
      firstRead past = some (key, none) ∧
        (∀ m ∈ past, ∀ item cond, m.op ≠ .inl (.putItem key item cond)) ∧
        ∃ earlier current, past = earlier ++ [⟨.inl (.getItem key), .ok current⟩] ∧
          cond = .unchanged current
  | .inr (.countProcessed _ result) =>
      result = "processed" ∧ (∃ key item cond, firstRead past = some (key, none) ∧
        (⟨.inl (.putItem key item cond), .ok ()⟩ : Move workerOps) ∈ past) ∨
      result = "duplicate" ∧ (∃ key item, firstRead past = some (key, some item)) ∨
      result = "dead_lettered"
  | _ => True

theorem Failing.handles {op : workerOps.Op} (h : Failing op) (past : WorkerMoves) :
    Handles past op := by
  unfold Handles
  split
  · exact .inl h
  · exact .inr (.inr h)
  · trivial

theorem OffTable.failing {op : workerOps.Op} (h : OffTable op) : Failing op := by
  unfold OffTable at h
  split at h
  · trivial
  · trivial
  · exact h.elim

/-- The move closes the handling of the event under the key: the event is counted, or an
operation on the way failed. -/
def Closes (key : Key) : Move workerOps → Prop
  | ⟨.inr (.countProcessed _ result), _⟩ => result = "processed" ∨ result = "duplicate"
  | ⟨.inl .now, .error _⟩ => True
  | ⟨.inl (.getItem _), .error _⟩ => True
  | ⟨.inl (.putItem key' _ _), .error _⟩ => key' = key
  | _ => False

/-- The handling of the event that was looked up, if any, is closed. -/
def Closed (past : WorkerMoves) : Prop :=
  ∀ key item, isDeadLetterId key.entityId = false → firstRead past = some (key, item) →
    ∃ m ∈ past, Closes key m

theorem Closed.of_unread {past : WorkerMoves} (h : firstRead past = none) : Closed past := by
  intro key item _ hread
  cases h.symm.trans hread

/-- The last move of a handling closes it. -/
theorem Closed.of_last {past : WorkerMoves}
    {read : Key × Option (Item (Attributes ProcessedEvent))} {m : Move workerOps}
    (hread : firstRead past = some read) (hm : Closes read.1 m) : Closed (past ++ [m]) := by
  intro key item _ hread'
  obtain rfl := Option.some.inj ((firstRead_append _ hread).symm.trans hread')
  exact ⟨m, List.mem_append_right _ (List.mem_singleton.mpr rfl), hm⟩

/-- What follows a failure reads no other event. -/
theorem Closed.failing {past : WorkerMoves} {op : workerOps.Op}
    (r : Except Exc (workerOps.Reply op)) (hop : Failing op) (h : Closed past) :
    Closed (past ++ [⟨op, r⟩]) := by
  intro key item hid hread
  cases hpast : firstRead past with
  | some read =>
    rw [firstRead_append _ hpast] at hread
    obtain ⟨m, hm, hcloses⟩ := h key item hid (hpast.trans hread)
    exact ⟨m, List.mem_append_left _ hm, hcloses⟩
  | none =>
    rw [firstRead, List.findSome?_append, ← firstRead, hpast, Option.none_or,
      List.findSome?_singleton] at hread
    unfold readOf at hread
    split at hread
    · rename_i key' item' hmove
      obtain ⟨rfl, -⟩ := Prod.mk.inj (Option.some.inj hread)
      have hop' := congrArg Move.op hmove
      dsimp only at hop'
      subst hop'
      cases hid.symm.trans hop
    · cases hread

/-- Nothing was read or written. -/
theorem OffTable.firstRead_eq {past : WorkerMoves} (h : ∀ m ∈ past, OffTable m.op) :
    firstRead past = none := by
  refine List.findSome?_eq_none_iff.mpr fun m hm => ?_
  unfold readOf
  split
  · exact (h _ hm).elim
  · rfl

/-! ## What the handlings do -/

section Programs
variable {α β : Type} {S : workerOps.Op → Prop} {past : WorkerMoves}

/-- A program that performs only some operations. -/
abbrev Only (S : workerOps.Op → Prop) (past : WorkerMoves) (p : Worker α) : Prop :=
  p.Obeys (fun _ op => S op) (fun _ _ => True) past

theorem only_perform {op : workerOps.Op} {f : workerOps.Reply op → Worker β} (hop : S op)
    (h : ∀ r, Only S (past ++ [⟨op, .ok r⟩]) (f r)) :
    Only S past (Program.perform workerOps op >>= f) := by
  refine ⟨hop, fun r => ?_⟩
  cases r with
  | ok r => exact h r
  | error e => trivial

theorem only_ofExcept {x : Except Exc α} {f : α → Worker β} (h : ∀ a, Only S past (f a)) :
    Only S past (Program.ofExcept x >>= f) := by
  cases x with
  | ok a => exact h a
  | error e => trivial

theorem only_put {t : EntityType} {id : String} {v : ProcessedEvent} {f : Unit → Worker β}
    (hnow : S (.inl .now)) (hget : S (.inl (.getItem ⟨t, id⟩)))
    (hput : ∀ item cond, S (.inl (.putItem ⟨t, id⟩ item cond))) (h : ∀ past, Only S past (f ())) :
    Only S past (Worker.put t id v >>= f) := by
  rw [DynamoRepository.put_left_bind]
  refine ⟨hnow, fun r => ?_⟩
  cases r with
  | error e => trivial
  | ok clock =>
    refine ⟨hget, fun r => ?_⟩
    cases r with
    | error e => trivial
    | ok current =>
      refine ⟨hput _ _, fun r => ?_⟩
      cases r with
      | error e => trivial
      | ok _ => exact h _

theorem offTable_default {field : Option α} {factory : Worker α} (h : Only OffTable past factory) :
    Only OffTable past (EnvelopeFields.default field factory) := by
  unfold EnvelopeFields.default
  cases field with
  | some value => trivial
  | none => exact h

theorem offTable_uuid4 : Only OffTable past uuid4 :=
  bind_pure uuid4 ▸ only_perform trivial fun _ => trivial

/-- An id as a string. -/
theorem offTable_map_uuid4 {f : String → α} : Only OffTable past (f <$> uuid4) :=
  map_eq_pure_bind f uuid4 ▸ offTable_uuid4.bind fun _ _ => trivial

theorem offTable_now : Only OffTable past Worker.now :=
  bind_pure Worker.now ▸ only_perform trivial fun _ => trivial

theorem offTable_modelValidate (rt : Runtime) (value : Json) :
    Only OffTable past (EventEnvelope.modelValidate rt value) := by
  unfold EventEnvelope.modelValidate
  exact only_ofExcept fun fields => (offTable_default offTable_map_uuid4).bind fun _ _ =>
    (offTable_default offTable_now).bind fun _ _ =>
      (offTable_default offTable_map_uuid4).bind fun _ _ => trivial

theorem offTable_correlationId (worker : KafkaEventWorker) (original : Json) :
    Only OffTable past (worker.correlationId original) := by
  unfold KafkaEventWorker.correlationId
  split
  · split
    · trivial
    · exact offTable_uuid4.bind fun _ _ => trivial
  · exact offTable_uuid4.bind fun _ _ => trivial

theorem offTable_deadLetterMessage (worker : KafkaEventWorker) (record : Record) (error : Exc)
    (attempts : Nat) : Only OffTable past (worker.deadLetterMessage record error attempts) := by
  unfold KafkaEventWorker.deadLetterMessage
  exact offTable_uuid4.bind fun _ _ => (offTable_correlationId worker _).bind fun _ _ =>
    only_ofExcept fun _ => offTable_now.bind fun _ _ => only_ofExcept fun _ => trivial

/-- After an exception, a handling writes and counts dead letters only. -/
theorem failing_retryOrDeadLetter (worker : KafkaEventWorker) (record : Record) (error : Exc) :
    Only Failing past (worker.retryOrDeadLetter record error) := by
  unfold KafkaEventWorker.retryOrDeadLetter KafkaEventWorker.deadLetter
    KafkaEventWorker.publishDeadLetter
  refine only_perform trivial fun previous => only_perform trivial fun _ => ?_
  split
  · trivial
  · simp only [bind_assoc]
    refine Program.Obeys.bind ((offTable_deadLetterMessage worker record error _).mono
      (fun _ _ => OffTable.failing) fun _ _ => id) fun _ message => ?_
    refine only_ofExcept fun _ => only_perform trivial fun _ =>
      only_perform trivial fun processedAt => ?_
    refine only_put trivial (isDeadLetterId_deadLetterId record.topicPartition record.offset)
      (fun _ _ => isDeadLetterId_deadLetterId record.topicPartition record.offset) fun _ => ?_
    exact only_perform rfl fun _ => only_perform trivial fun _ => trivial

/-- Handling a record, up to an exception. -/
theorem handles_processRecord (worker : KafkaEventWorker) (record : Record) :
    (worker.processRecord record).Obeys Handles (fun past _ => Closed past) [] := by
  unfold KafkaEventWorker.processRecord
  refine Program.obeys_bind.mpr (Program.Obeys.of_only
    (show Only OffTable [] _ from offTable_modelValidate _ _)
    (fun more op _ hop => hop.failing.handles _) fun more out hoff => ?_)
  rw [List.nil_append]
  have hunread := OffTable.firstRead_eq hoff
  cases out with
  | error e => exact .of_unread hunread
  | ok envelope =>
    show Program.Obeys _ _ _
      (Worker.get .processedEvent (worker.runtime.entityId envelope.eventId) >>= _)
    generalize worker.runtime.entityId envelope.eventId = id
    rw [DynamoRepository.get_left_bind]
    refine ⟨trivial, fun r => ?_⟩
    have hlook : firstRead (more ++ [⟨.inl (.getItem (eventKey id)), r⟩]) =
        readOf ⟨.inl (.getItem (eventKey id)), r⟩ := by
      rw [firstRead, List.findSome?_append, ← firstRead, hunread, Option.none_or,
        List.findSome?_singleton]
    cases r with
    | error e => exact .of_unread hlook
    | ok item =>
      have hread : firstRead (more ++ [⟨.inl (.getItem (eventKey id)), .ok item⟩]) =
          some (eventKey id, item) := hlook
      cases item with
      | some item =>
        -- the event is stored: it is counted as a duplicate
        refine ⟨.inr (.inl ⟨rfl, _, item, hread⟩), fun r => ?_⟩
        cases r with
        | error e => exact .of_last hread (.inr rfl)
        | ok _ => exact .of_last hread (.inr rfl)
      | none =>
        refine ⟨trivial, fun r => ?_⟩
        cases r with
        | error e => exact .of_last hread trivial
        | ok processedAt =>
          show Program.Obeys _ _ _ (Worker.put .processedEvent id _ >>= _)
          rw [DynamoRepository.put_left_bind]
          have hread := firstRead_append [⟨.inl .now, .ok processedAt⟩] hread
          refine ⟨trivial, fun r => ?_⟩
          cases r with
          | error e => exact .of_last hread trivial
          | ok clock =>
            have hread := firstRead_append [⟨.inl .now, .ok clock⟩] hread
            refine ⟨trivial, fun r => ?_⟩
            cases r with
            | error e => exact .of_last hread trivial
            | ok current =>
              have hread := firstRead_append
                [⟨.inl (.getItem (eventKey id)), .ok current⟩] hread
              refine ⟨.inr ⟨hread, ?_, _, current, rfl, rfl⟩, fun r => ?_⟩
              · intro m hm item cond
                simp only [List.mem_append, List.mem_singleton] at hm
                rcases hm with (((hm | rfl) | rfl) | rfl) | rfl
                · intro hop
                  have hm' := hoff m hm
                  rw [hop] at hm'
                  exact hm'
                · nofun
                · nofun
                · nofun
                · nofun
              cases r with
              | error e => exact .of_last hread rfl
              | ok _ =>
                refine ⟨.inl ⟨rfl, _, _, _, firstRead_append _ hread,
                  List.mem_append_right _ (List.mem_singleton.mpr rfl)⟩, fun r => ?_⟩
                cases r with
                | error e => exact .of_last (firstRead_append _ hread) (.inl rfl)
                | ok _ => exact .of_last (firstRead_append _ hread) (.inl rfl)

/-- **Every handling keeps to its protocol.** -/
theorem Handling.handles (handling : Handling) :
    handling.code.Obeys Handles (fun past _ => Closed past) [] := by
  unfold Handling.code KafkaEventWorker.processRecordWithRetry
  refine Program.obeys_tryCatch.mpr (Program.obeys_bind.mpr
    ((handles_processRecord handling.worker handling.record).mono (fun _ _ => id) ?_))
  -- what follows an exception
  have failed : ∀ past error, Closed past →
      (handling.worker.retryOrDeadLetter handling.record error).Obeys Handles
        (fun past _ => Closed past) past := fun past error hclosed =>
    ((failing_retryOrDeadLetter handling.worker handling.record error).invariant hclosed
      fun _ _ r hop h => h.failing r hop).mono (fun past _ hop => hop.handles past) fun _ _ => id
  intro past out hclosed
  cases out with
  | error e => exact failed past e hclosed
  | ok _ =>
    refine ⟨trivial, fun r => ?_⟩
    have hclosed := hclosed.failing r (show Failing (.inr (.popAttempts _)) from trivial)
    cases r with
    | ok _ => exact hclosed
    | error e => exact failed _ e hclosed

end Programs

/-! ## Runs -/

section Runs
variable {rt : Runtime} {log : Log} {uuids : UuidSupply} {s : Handlings rt log}

/-- In a run, every handling keeps to its protocol. -/
theorem Handlings.Reachable.handled (hs : Handlings.Reachable uuids s) {n : Nat}
    {e : Event (fleet rt log)} (hn : s.history[n]? = some e) :
    Handles (past e.thread (s.history.take n)) e.move.op := by
  obtain ⟨-, ⟨_, -, hhandles⟩, -⟩ :=
    (System.Reachable.conforms hs Handling.handles).history.at_position hn
  exact hhandles

/-- The past of a thread up to some position is the beginning of its past. -/
theorem firstRead_take {h : List (Event (fleet rt log))} {i n : Nat}
    {read : Key × Option (Item (Attributes ProcessedEvent))}
    (hread : firstRead (past i (h.take n)) = some read) : firstRead (past i h) = some read := by
  have happend := past_append i (h.take n) (h.drop n)
  rw [List.take_append_drop] at happend
  exact happend ▸ firstRead_append _ hread

/-- A write takes effect, and succeeds, exactly if its condition holds. -/
theorem put_outcome (hs : Handlings.Reachable uuids s) {e : Event (fleet rt log)}
    (he : e ∈ s.history) {key : Key} {item : Item (Attributes ProcessedEvent)} {cond : Condition}
    (hop : e.move.op = .inl (.putItem key item cond)) :
    cond.Holds (stored (fleet rt log) key e.before) ∧ e.Wrote key item ∧
        e.move = ⟨.inl (.putItem key item cond), .ok ()⟩ ∨
      ¬ cond.Holds (stored (fleet rt log) key e.before) ∧
        e.move = ⟨.inl (.putItem key item cond), .error (.clientError conditionalCheckFailed)⟩ := by
  obtain ⟨n, -, -, -, c, hevent⟩ :=
    (System.Reachable.conforms hs Handling.handles).history.of_mem he
  rw [hop] at hevent
  have hmove := congrArg Event.move hevent
  have hafter := congrArg (fun e => e.after.1) hevent
  simp only [Machine.event] at hmove hafter
  by_cases hholds : cond.Holds (e.before.1.lookup key)
  · simp only [hholds, if_true] at hmove hafter
    exact .inl ⟨hholds, ⟨cond, hop, hholds, hafter⟩, hmove⟩
  · simp only [hholds, if_false] at hmove
    exact .inr ⟨hholds, hmove⟩

/-- What a handling has read is stored. -/
theorem stored_of_read (hs : Handlings.Reachable uuids s) {n : Nat} {e : Event (fleet rt log)}
    (hn : s.history[n]? = some e) {key : Key} {item : Option (Item (Attributes ProcessedEvent))}
    (hmove : e.move = ⟨.inl (.getItem key), .ok item⟩) :
    stored (fleet rt log) key e.before = item ∧ stored (fleet rt log) key e.after = item := by
  obtain ⟨-, -, c, hevent⟩ :=
    (System.Reachable.conforms hs Handling.handles).history.at_position hn
  rw [congrArg Move.op hmove] at hevent
  have hreply := congrArg Event.move hevent
  rw [hmove] at hreply
  have hafter : e.after = ((fleet rt log).exec (.inl (.getItem key)) c e.before).2 :=
    congrArg Event.after hevent
  obtain ⟨hsame, hr⟩ := TableMachine.exec_get (M := fleet rt log) key c e.before
  have hstored := (hr item (eq_of_heq (Move.mk.inj hreply).2).symm).symm
  refine ⟨hstored, ?_⟩
  rw [hafter, stored, hsame]
  exact hstored

/-- Reading the clock or an item does not fail. -/
theorem read_ok (hs : Handlings.Reachable uuids s) {e : Event (fleet rt log)} (he : e ∈ s.history)
    {op : TableOp Key EntityType (Attributes ProcessedEvent)}
    (hread : op = .now ∨ ∃ key, op = .getItem key) {error : Exc} :
    e.move ≠ ⟨.inl op, .error error⟩ := by
  intro hmove
  obtain ⟨n, -, -, -, c, hevent⟩ :=
    (System.Reachable.conforms hs Handling.handles).history.of_mem he
  rw [congrArg Move.op hmove] at hevent
  have hreply := eq_of_heq (Move.mk.inj (hmove.symm.trans (congrArg Event.move hevent))).2
  rcases hread with rfl | ⟨key, rfl⟩
  · cases hreply
  · cases hreply

/-- The read a handling remembers as its first is an earlier event. -/
theorem event_of_firstRead {h : List (Event (fleet rt log))} {i n : Nat} {key : Key}
    {item : Option (Item (Attributes ProcessedEvent))}
    (hread : firstRead (past i (h.take n)) = some (key, item)) :
    ∃ k d, k < n ∧ h[k]? = some d ∧ d.thread = i ∧ d.move = ⟨.inl (.getItem key), .ok item⟩ := by
  obtain ⟨m, hm, hreadOf⟩ := List.exists_of_findSome?_eq_some hread
  obtain ⟨k, d, hk, hd, hthread, rfl⟩ := past_position hm
  refine ⟨k, d, hk, hd, hthread, ?_⟩
  unfold readOf at hreadOf
  split at hreadOf
  · rename_i key' item' hmove
    obtain ⟨rfl, rfl⟩ := Prod.mk.inj (Option.some.inj hreadOf)
    exact hmove
  · cases hreadOf

/-- Between any look of a handling at an event and its attempt to store it, no other handling
stores the event. -/
def HandledAlone (h : List (Event (fleet rt log))) : Prop :=
  ∀ m n d e id item cond, isDeadLetterId id = false → h[m]? = some d → h[n]? = some e → m < n →
    d.thread = e.thread → d.move.op = .inl (.getItem (eventKey id)) →
    e.move.op = .inl (.putItem (eventKey id) item cond) →
    Undisturbed h e.thread (eventKey id) m n

/-- The handling of thread `i` has looked the event up. -/
def LooksUp (h : List (Event (fleet rt log))) (i : Nat) (id : String) : Prop :=
  ∃ item, firstRead (past i h) = some (eventKey id, item)

/-- The handling of thread `i` has counted the event it looked up. -/
def Counts (h : List (Event (fleet rt log))) (i : Nat) (id result : String) : Prop :=
  LooksUp h i id ∧ ∃ m ∈ past i h, ∃ eventType, m.op = .inr (.countProcessed eventType result)

/-- A handling that stores an event looked it up first, found it new, and had not tried to
store it before. -/
theorem stores (hs : Handlings.Reachable uuids s) {n : Nat} {e : Event (fleet rt log)}
    (hn : s.history[n]? = some e) {id : String} (hid : isDeadLetterId id = false)
    {item : Item (Attributes ProcessedEvent)} {cond : Condition}
    (hop : e.move.op = .inl (.putItem (eventKey id) item cond)) :
    firstRead (past e.thread (s.history.take n)) = some (eventKey id, none) ∧
      (∀ m ∈ past e.thread (s.history.take n), ∀ item cond,
        m.op ≠ .inl (.putItem (eventKey id) item cond)) ∧
      ∃ earlier current, past e.thread (s.history.take n) =
          earlier ++ [⟨.inl (.getItem (eventKey id)), .ok current⟩] ∧
        cond = .unchanged current := by
  have hhandles := hs.handled hn
  rw [hop] at hhandles
  rcases hhandles with hdead | hnew
  · cases hdead.symm.trans hid
  · exact hnew

/-- Where events are handled alone, every attempt to store one finds it absent, and succeeds. -/
theorem HandledAlone.stores (hs : Handlings.Reachable uuids s) (halone : HandledAlone s.history)
    {n : Nat} {e : Event (fleet rt log)} (hn : s.history[n]? = some e) {id : String}
    (hid : isDeadLetterId id = false) {item : Item (Attributes ProcessedEvent)} {cond : Condition}
    (hop : e.move.op = .inl (.putItem (eventKey id) item cond)) :
    stored (fleet rt log) (eventKey id) e.before = none ∧ e.Wrote (eventKey id) item ∧
      e.move = ⟨.inl (.putItem (eventKey id) item cond), .ok ()⟩ := by
  have H := (System.Reachable.conforms hs Handling.handles).history
  obtain ⟨hread, hfirst, earlier, current, hpast, hcond⟩ := AxSentinel.stores hs hn hid hop
  obtain ⟨m, d, hmn, hm, hthread, hmove⟩ := event_of_firstRead hread
  -- nothing is stored under the key from the look-up on
  have absent : ∀ {k x}, m < k → k ≤ n → s.history[k]? = some x →
      stored (fleet rt log) (eventKey id) x.before = none := by
    intro k x hmk hkn hk
    by_contra hsome
    obtain ⟨j, y, item', hmj, hjk, hj, hy⟩ := H.wrote_between (eventKey id) hmk hm hk
      (by rw [(stored_of_read hs hm hmove).2]; exact hsome)
    by_cases hown : y.thread = e.thread
    · obtain ⟨cond', hyop, -⟩ := hy
      refine hfirst y.move (mem_past.mpr ⟨y, List.mem_of_getElem? (i := j) ?_, hown, rfl⟩)
        item' cond' hyop
      rw [List.getElem?_take, if_pos (by omega), hj]
    · exact halone m n d e id item cond hid hm hn hmn hthread (congrArg Move.op hmove) hop j y item'
        hmj (by omega) hj hown hy
  have hnone := absent hmn (Nat.le_refl n) hn
  refine ⟨hnone, ?_⟩
  have hcurrent : current = none := by
    obtain ⟨k, x, hk, hxthread, hxmove, -, hlast⟩ := past_last hpast
    rw [List.getElem?_take] at hk
    split at hk
    · rename_i hkn
      obtain ⟨hbefore, hafter⟩ := stored_of_read hs hk hxmove
      rcases Nat.lt_trichotomy m k with hmk | rfl | hkm
      · rw [← hbefore]
        exact absent hmk (Nat.le_of_lt hkn) hk
      · obtain rfl := Option.some.inj (hm.symm.trans hk)
        rw [← hafter, (stored_of_read hs hm hmove).2]
      · exact absurd hthread (hlast m d hkm (by rw [List.getElem?_take, if_pos hmn, hm]))
    · cases hk
  subst hcurrent
  rcases put_outcome hs (List.mem_of_getElem? hn) hop with ⟨-, hdone⟩ | ⟨hfails, -⟩
  · exact hdone
  · exact absurd (by rw [hcond, hnone]; rfl) hfails

/-- What a handling that has counted an event looked up, and did before it counted. -/
theorem Counts.handles (hs : Handlings.Reachable uuids s) {i : Nat} {id result : String}
    (hcounts : Counts s.history i id result) : ∃ n item eventType,
      firstRead (past i s.history) = some (eventKey id, item) ∧
      Handles (past i (s.history.take n)) (.inr (.countProcessed eventType result)) := by
  obtain ⟨⟨item, hread⟩, m, hm, eventType, hop⟩ := hcounts
  obtain ⟨e, he, rfl, rfl⟩ := mem_past.mp hm
  obtain ⟨n, hn⟩ := List.mem_iff_getElem?.mp he
  exact ⟨n, item, eventType, hread, hop ▸ hs.handled hn⟩

/-- A handling that has counted an event as processed has stored it. -/
theorem Counts.stored (hs : Handlings.Reachable uuids s) {i : Nat} {id : String}
    (hcounts : Counts s.history i id "processed") :
    ∃ (n : Nat) (e : Event (fleet rt log)) (item : Item (Attributes ProcessedEvent)),
      s.history[n]? = some e ∧ e.thread = i ∧ e.Wrote (eventKey id) item := by
  obtain ⟨n, item, eventType, hread, hhandles⟩ := hcounts.handles hs
  rcases hhandles with ⟨-, key, item', cond, hread', hput⟩ | ⟨hresult, -⟩ | hresult
  · obtain ⟨hkey, -⟩ := Prod.mk.inj (Option.some.inj ((firstRead_take hread').symm.trans hread))
    subst hkey
    obtain ⟨k, d, -, hk, hthread, hmove⟩ := past_position hput
    rcases put_outcome hs (List.mem_of_getElem? hk) (congrArg Move.op hmove) with
      ⟨-, hw, -⟩ | ⟨-, hfailed⟩
    · exact ⟨k, d, item', hk, hthread, hw⟩
    · cases hmove.symm.trans hfailed
  · exact absurd hresult (by decide)
  · exact absurd hresult (by decide)

/-- A handling that counts an event as a duplicate found it stored. -/
theorem Counts.found (hs : Handlings.Reachable uuids s) {i : Nat} {id : String}
    (hcounts : Counts s.history i id "duplicate") :
    ∃ item, firstRead (past i s.history) = some (eventKey id, some item) := by
  obtain ⟨n, item, eventType, hread, hhandles⟩ := hcounts.handles hs
  rcases hhandles with ⟨hresult, -⟩ | ⟨-, key, item', hread'⟩ | hresult
  · exact absurd hresult (by decide)
  · have heq := Option.some.inj ((firstRead_take hread').symm.trans hread)
    obtain ⟨rfl, rfl⟩ := Prod.mk.inj heq
    exact ⟨item', firstRead_take hread'⟩
  · exact absurd hresult (by decide)

/-- A handling that tries to store an event does not count it as a duplicate. -/
theorem counts_of_put (hs : Handlings.Reachable uuids s) {n : Nat} {e : Event (fleet rt log)}
    (hn : s.history[n]? = some e) {id : String} (hid : isDeadLetterId id = false)
    {item : Item (Attributes ProcessedEvent)} {cond : Condition}
    (hop : e.move.op = .inl (.putItem (eventKey id) item cond))
    (hcounted : Counts s.history e.thread id "processed" ∨
      Counts s.history e.thread id "duplicate") : Counts s.history e.thread id "processed" := by
  rcases hcounted with hprocessed | hduplicate
  · exact hprocessed
  · obtain ⟨item', hread⟩ := hduplicate.found hs
    cases (firstRead_take (AxSentinel.stores hs hn hid hop).1).symm.trans hread

/-! ## Idempotence -/

/-- What must not change of a processed event. -/
def ProcessedEvent.content (event : ProcessedEvent) :
    Option String × Option Nat × Option Nat × List (Str × Json) :=
  (event.topic, event.partition, event.offset, event.payload)

/-- The processed event stored under an id. -/
def storedEvent (id : String) (w : (fleet rt log).World) : Option ProcessedEvent :=
  (stored (fleet rt log) (eventKey id) w).map fun item => item.attributes.data

/-- Every handling has ended. -/
def Finished (s : Handlings rt log) : Prop :=
  ∀ i < s.threads.length, (s.outcome i).isSome = true

/-- Processing is idempotent.  Every handling that has ended has counted the event it looked up
as processed or as a duplicate, at most one handling of an event as processed, and one of them
when all have ended; and the content of a stored event never changes. -/
structure Idempotent (s : Handlings rt log) : Prop where
  counted : ∀ i id, isDeadLetterId id = false → (s.outcome i).isSome = true →
    LooksUp s.history i id →
    Counts s.history i id "processed" ∨ Counts s.history i id "duplicate"
  atMostOnce : ∀ i j id, isDeadLetterId id = false → Counts s.history i id "processed" →
    Counts s.history j id "processed" → i = j
  atLeastOnce : Finished s → ∀ i id, isDeadLetterId id = false → LooksUp s.history i id →
    ∃ j, Counts s.history j id "processed"
  unchanged : ∀ e ∈ s.history, ∀ id event, isDeadLetterId id = false →
    storedEvent id e.before = some event →
    ∃ event', storedEvent id e.after = some event' ∧ event'.content = event.content

/-- Where events are handled alone, a handling that has ended has counted the event it looked
up. -/
theorem HandledAlone.counted (hs : Handlings.Reachable uuids s) (halone : HandledAlone s.history)
    {i : Nat} {id : String} (hid : isDeadLetterId id = false)
    (hended : (s.outcome i).isSome = true) (hlooks : LooksUp s.history i id) :
    Counts s.history i id "processed" ∨ Counts s.history i id "duplicate" := by
  obtain ⟨out, hout⟩ := Option.isSome_iff_exists.mp hended
  obtain ⟨handling, hrequest⟩ := System.request_of_outcome hout
  have hclosed := (System.Reachable.conforms hs Handling.handles).outcome hrequest hout
  obtain ⟨item, hread⟩ := hlooks
  obtain ⟨m, hm, hcloses⟩ := hclosed (eventKey id) item hid hread
  obtain ⟨e, he, -, rfl⟩ := mem_past.mp hm
  unfold Closes at hcloses
  split at hcloses
  · rename_i eventType result reply hmove
    rcases hcloses with rfl | rfl
    · exact .inl ⟨⟨item, hread⟩, _, hm, eventType, congrArg Move.op hmove⟩
    · exact .inr ⟨⟨item, hread⟩, _, hm, eventType, congrArg Move.op hmove⟩
  · rename_i hmove
    exact absurd hmove (read_ok hs he (.inl rfl))
  · rename_i hmove
    exact absurd hmove (read_ok hs he (.inr ⟨_, rfl⟩))
  · rename_i hmove
    obtain ⟨n, hn⟩ := List.mem_iff_getElem?.mp he
    subst hcloses
    obtain ⟨-, -, hok⟩ := halone.stores hs hn hid (congrArg Move.op hmove)
    cases hok.symm.trans hmove
  · exact hcloses.elim

/-- Where events are handled alone, processing is idempotent. -/
theorem HandledAlone.idempotent (hs : Handlings.Reachable uuids s)
    (halone : HandledAlone s.history) : Idempotent s where
  counted _ _ hid hended hlooks := halone.counted hs hid hended hlooks
  atMostOnce := by
    intro i j id hid hi hj
    have H := (System.Reachable.conforms hs Handling.handles).history
    obtain ⟨m, d, item, hm, rfl, hd⟩ := hi.stored hs
    obtain ⟨n, e, item', hn, rfl, he⟩ := hj.stored hs
    -- the later of two writes would find the event of the earlier one
    have twice : ∀ {m n : Nat} {d e : Event (fleet rt log)} {item item'}, s.history[m]? = some d →
        s.history[n]? = some e → d.Wrote (eventKey id) item → e.Wrote (eventKey id) item' →
        ¬ m < n := by
      intro m n d e item item' hm hn hd he hmn
      have hsome : (stored (fleet rt log) (eventKey id) d.after).isSome = true := by
        rw [hd.stored_after]
        rfl
      obtain ⟨cond, hop, -⟩ := he
      have hbefore := H.isSome_between hmn hm hn hsome
      rw [(halone.stores hs hn hid hop).1] at hbefore
      cases hbefore
    rcases Nat.lt_trichotomy m n with hmn | rfl | hnm
    · exact absurd hmn (twice hm hn hd he)
    · rw [Option.some.inj (hm.symm.trans hn)]
    · exact absurd hnm (twice hn hm he hd)
  atLeastOnce := by
    intro hfinished i id hid hlooks
    have hlt : ∀ {i : Nat}, past i s.history ≠ [] → i < s.threads.length := by
      intro i hne
      by_contra hge
      exact hne ((System.Reachable.conforms hs Handling.handles).silent i (Nat.le_of_not_lt hge))
    have hi : past i s.history ≠ [] := by
      obtain ⟨item, hread⟩ := hlooks
      intro hnil
      rw [hnil] at hread
      cases hread
    rcases halone.counted hs hid (hfinished i (hlt hi)) hlooks with hprocessed | hduplicate
    · exact ⟨i, hprocessed⟩
    · -- the event it found stored was stored by a handling that has counted it
      obtain ⟨item, hread⟩ := hduplicate.found hs
      rw [← List.take_length (l := s.history)] at hread
      obtain ⟨k, d, -, hk, -, hmove⟩ := event_of_firstRead hread
      have hsome := (stored_of_read hs hk hmove).1
      have H := (System.Reachable.conforms hs Handling.handles).history
      obtain ⟨n, e, item', hn, hw⟩ := (H.at_position hk).1.wrote_since_start (eventKey id)
        (by rw [hsome]; nofun)
      have hn : s.history[n]? = some e := by
        rw [List.getElem?_take] at hn
        split at hn
        · exact hn
        · cases hn
      have he : past e.thread s.history ≠ [] :=
        List.ne_nil_of_mem (mem_past.mpr ⟨e, List.mem_of_getElem? hn, rfl, rfl⟩)
      obtain ⟨cond, hop, -⟩ := hw
      have hlooks : LooksUp s.history e.thread id :=
        ⟨none, firstRead_take (AxSentinel.stores hs hn hid hop).1⟩
      exact ⟨e.thread, counts_of_put hs hn hid hop
        (halone.counted hs hid (hfinished _ (hlt he)) hlooks)⟩
  unchanged := by
    intro e he id event hid hevent
    obtain ⟨n, hn⟩ := List.mem_iff_getElem?.mp he
    obtain ⟨-, -, c, hexec⟩ :=
      (System.Reachable.conforms hs Handling.handles).history.at_position hn
    by_cases hsame : stored (fleet rt log) (eventKey id) e.after =
        stored (fleet rt log) (eventKey id) e.before
    · exact ⟨event, by rw [storedEvent, hsame]; exact hevent, rfl⟩
    · have hafter : e.after = ((fleet rt log).exec e.move.op c e.before).2 :=
        congrArg Event.after hexec
      rw [hafter] at hsame
      obtain ⟨item, hw⟩ := wrote_of_changed (i := e.thread) hsame
      rw [← hexec] at hw
      obtain ⟨cond, hop, -⟩ := hw
      rw [storedEvent, (halone.stores hs hn hid hop).1] at hevent
      cases hevent

/-- **Idempotent processing.**  Processing is idempotent as long as no handling stores an event
between another one's look-up of the event and its attempt to store it; and a run in which all
handlings have ended is idempotent only then. -/
theorem idempotent_iff (hs : Handlings.Reachable uuids s) :
    (HandledAlone s.history → Idempotent s) ∧
      (Finished s → (Idempotent s ↔ HandledAlone s.history)) := by
  refine ⟨fun halone => halone.idempotent hs, fun hfinished =>
    ⟨fun hidem => ?_, fun halone => halone.idempotent hs⟩⟩
  intro m n d e id item cond hid hm hn hmn hthread hdop hop k x item' hmk hkn hk hother hx
  have H := (System.Reachable.conforms hs Handling.handles)
  -- a handling that tries to store the event counts it as processed
  have processed : ∀ {n : Nat} {e : Event (fleet rt log)} {item cond}, s.history[n]? = some e →
      e.move.op = .inl (.putItem (eventKey id) item cond) →
      Counts s.history e.thread id "processed" := by
    intro n e item cond hn hop
    have hlt : e.thread < s.threads.length := by
      by_contra hge
      have hnil := H.silent e.thread (Nat.le_of_not_lt hge)
      exact List.ne_nil_of_mem (mem_past.mpr ⟨e, List.mem_of_getElem? hn, rfl, rfl⟩) hnil
    exact counts_of_put hs hn hid hop (hidem.counted _ id hid (hfinished _ hlt)
      ⟨none, firstRead_take (stores hs hn hid hop).1⟩)
  obtain ⟨cond', hxop, -⟩ := hx
  exact hother (hidem.atMostOnce _ _ id hid (processed hk hxop) (processed hn hop))

end Runs

/-! ## Computed runs -/

namespace Sample

/-- The sample event at an offset. -/
def delivery (offset : Nat) : Handling :=
  ⟨kafkaWorker, ⟨"ax.incident.events.v1", 2, offset, none, envelope⟩⟩

/-- Two deliveries of the event, and the given turns of the handlings. -/
def deliveries (turns : List Nat) : Handlings runtime (log []) :=
  System.run Handling.code
    ([.arrive (delivery 41), .arrive (delivery 42)] ++ turns.map fun i => .advance i default)
    (System.start (fleetStart runtime (log []) .unary))

theorem reachable_deliveries (turns : List Nat) : Handlings.Reachable .unary (deliveries turns) :=
  ⟨_, rfl⟩

end Sample

/-- The result a move counts. -/
def countedResult (m : Move workerOps) : Option String :=
  match m.op with
  | .inr (.countProcessed _ result) => some result
  | _ => none

theorem countedResult_eq_some {m : Move workerOps} {result : String}
    (h : countedResult m = some result) :
    ∃ eventType, m.op = .inr (.countProcessed eventType result) := by
  unfold countedResult at h
  split at h
  · rename_i eventType result' hop
    exact ⟨eventType, Option.some.inj h ▸ hop⟩
  · cases h

/-- The move is an attempt to store an event. -/
def isPut (m : Move workerOps) : Bool :=
  match m.op with
  | .inl (.putItem ..) => true
  | _ => false

/-- One delivery after the other. -/
def successiveDeliveries : Handlings Sample.runtime (Sample.log []) :=
  Sample.deliveries (List.replicate 9 0 ++ List.replicate 9 1)

theorem idempotent_successiveDeliveries : Idempotent successiveDeliveries := by
  have hreach : Handlings.Reachable .unary successiveDeliveries := Sample.reachable_deliveries _
  refine (idempotent_iff hreach).1 ?_
  have hlength : successiveDeliveries.history.length = 14 := by decide +kernel
  have hput : ∀ n < 14, (successiveDeliveries.history[n]?).any (fun e => isPut e.move) = true →
      n = 6 := by decide +kernel
  have hfirst : ∀ n < 7, (successiveDeliveries.history[n]?).map Event.thread = some 0 := by
    decide +kernel
  intro m n d e id item cond _ _ hn _ _ _ hop k x item' _ hkn hk hother _
  have hn6 : n = 6 := by
    refine hput n (hlength ▸ (List.getElem?_eq_some_iff.mp hn).1) ?_
    rw [hn, Option.any_some, isPut, hop]
  have hxthread : x.thread = 0 := by simpa [hk] using hfirst k (by omega)
  have hethread : e.thread = 0 := by simpa [hn] using hfirst n (by omega)
  exact hother (hxthread.trans hethread.symm)

/-- Both workers look the event up before either stores it. -/
def racingDeliveries : Handlings Sample.runtime (Sample.log []) :=
  Sample.deliveries (List.replicate 3 0 ++ List.replicate 3 1 ++ List.replicate 6 0 ++
    List.replicate 6 1)

/-- Both count it as processed. -/
theorem not_idempotent : ¬ ∀ rt log uuids (s : Handlings rt log),
    Handlings.Reachable uuids s → Idempotent s := by
  intro hall
  have counts : ∀ i < 2, Counts racingDeliveries.history i "event-1" "processed" := by
    intro i hi
    have hread : ∀ i < 2, (firstRead (past i racingDeliveries.history)).map Prod.fst =
        some (eventKey "event-1") := by decide +kernel
    have hcount : ∀ i < 2, "processed" ∈
        (past i racingDeliveries.history).filterMap countedResult := by decide +kernel
    obtain ⟨⟨key, item⟩, hitem, rfl⟩ := Option.map_eq_some_iff.mp (hread i hi)
    obtain ⟨m, hm, hresult⟩ := List.mem_filterMap.mp (hcount i hi)
    exact ⟨⟨item, hitem⟩, m, hm, countedResult_eq_some hresult⟩
  have hidem := hall _ _ .unary racingDeliveries (Sample.reachable_deliveries _)
  have hsame := hidem.atMostOnce 0 1 "event-1" (by decide) (counts 0 (by decide))
    (counts 1 (by decide))
  exact absurd hsame (by decide)

end AxSentinel
