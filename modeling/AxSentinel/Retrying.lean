import AxSentinel.Deduplication
import AxSentinel.Interpretation

/-! # The accounting of retries

`process_record_with_retry` seen from its own level: `process_record` and `_dead_letter` are calls
that may succeed or raise anything, and what is left is the counting.  The worker is this program
with the two methods put in (`processRecordWithRetry_eq_interpret`), so what holds of every sequence
of its calls holds of the worker (`KafkaEventWorker.Called.retried`). -/
namespace AxSentinel
open Effects
open Python (Json Str)

/-- What `process_record_with_retry` does: it calls two methods and keeps a counter. -/
inductive RetryOp where
  | processRecord (record : Record)
  | deadLetter (record : Record) (error : Exc) (attempts : Nat)
  | getAttempts (key : RecordKey)
  | setAttempts (key : RecordKey) (attempts : Nat)
  | popAttempts (key : RecordKey)

abbrev retryOps : Signature Exc where
  Op := RetryOp
  Reply
    | .processRecord _ => Unit
    | .deadLetter .. => Unit
    | .getAttempts _ => Option Nat
    | .setAttempts .. => Unit
    | .popAttempts _ => Unit

/-- A call of one of the methods, and how it ended. -/
inductive Invocation where
  | processRecord (record : Record) (outcome : Except Exc Unit)
  | deadLetter (record : Record) (error : Exc) (attempts : Nat) (outcome : Except Exc Unit)

/-- `_attempts`, and the methods called since the call began. -/
structure RetryWorld where
  attempts : RecordKey → Option Nat
  invocations : List Invocation

/-- The methods end as they may. -/
abbrev retryMachine : Machine retryOps where
  World := RetryWorld
  Choice := Except Exc Unit
  exec
    | .processRecord record, c, w =>
        (c, { w with invocations := w.invocations ++ [.processRecord record c] })
    | .deadLetter record error attempts, c, w =>
        (c, { w with invocations := w.invocations ++ [.deadLetter record error attempts c] })
    | .getAttempts key, _, w => (.ok (w.attempts key), w)
    | .setAttempts key attempts, _, w =>
        (.ok (), { w with attempts := Function.update w.attempts key (some attempts) })
    | .popAttempts key, _, w => (.ok (), { w with attempts := Function.update w.attempts key none })

namespace KafkaEventWorker
variable (worker : KafkaEventWorker)

/-- `process_record_with_retry`, calling the methods. -/
def retry (record : Record) : Program retryOps Bool := do
  try
    .perform retryOps (.processRecord record)
    .perform retryOps (.popAttempts record.attemptsKey)
    pure true
  catch error =>
    let previous ← .perform retryOps (.getAttempts record.attemptsKey)
    let attempts := previous.getD 0 + 1
    .perform retryOps (.setAttempts record.attemptsKey attempts)
    if attempts < worker.maxProcessingAttempts then
      pure false
    else
      .perform retryOps (.deadLetter record error attempts)
      .perform retryOps (.popAttempts record.attemptsKey)
      pure true

/-- The methods of the worker, and its dictionary. -/
def method : (op : RetryOp) → Worker (retryOps.Reply op)
  | .processRecord record => worker.processRecord record
  | .deadLetter record error attempts => worker.deadLetter record error attempts
  | .getAttempts key => Worker.run (.getAttempts key)
  | .setAttempts key attempts => Worker.run (.setAttempts key attempts)
  | .popAttempts key => Worker.run (.popAttempts key)

/-- The worker calls its own methods. -/
theorem processRecordWithRetry_eq_interpret (record : Record) :
    worker.processRecordWithRetry record = (worker.retry record).interpret worker.method := by
  have carried := @Program.bind_eq_interpret Exc retryOps workerOps Bool worker.method
  unfold processRecordWithRetry retry
  refine Eq.trans ?_ (Program.interpret_tryCatch (F := retryOps) worker.method _ _).symm
  refine congrArg₂ MonadExcept.tryCatch ?_ (funext fun error => ?_)
  · exact carried (.processRecord record) fun _ =>
      carried (.popAttempts record.attemptsKey) fun _ => rfl
  · refine carried (.getAttempts record.attemptsKey) fun previous => ?_
    refine carried (.setAttempts record.attemptsKey _) fun _ => ?_
    by_cases hlt : previous.getD 0 + 1 < worker.maxProcessingAttempts
    · simp only [hlt, if_true]
      rfl
    · simp only [hlt, if_false]
      exact carried (.deadLetter record error _) fun _ =>
        carried (.popAttempts record.attemptsKey) fun _ => rfl

/-- **What a call does.**  It processes the record, leaves it to another attempt, or dead-letters
it; only the counter of the record is touched. -/
theorem retry_cases {record : Record} {attempts : RecordKey → Option Nat}
    {returned : Except Exc Bool} {w' : RetryWorld}
    (h : retryMachine.Ends (worker.retry record) ⟨attempts, []⟩ returned w') :
    (returned = .ok true ∧ w' = ⟨Function.update attempts record.attemptsKey none,
      [.processRecord record (.ok ())]⟩) ∨
    ∃ error n, n = (attempts record.attemptsKey).getD 0 + 1 ∧
      ((n < worker.maxProcessingAttempts ∧ returned = .ok false ∧
        w' = ⟨Function.update attempts record.attemptsKey (some n),
          [.processRecord record (.error error)]⟩) ∨
      (worker.maxProcessingAttempts ≤ n ∧ returned = .ok true ∧
        w' = ⟨Function.update attempts record.attemptsKey none,
          [.processRecord record (.error error), .deadLetter record error n (.ok ())]⟩) ∨
      (worker.maxProcessingAttempts ≤ n ∧ ∃ e, returned = .error e ∧
        w' = ⟨Function.update attempts record.attemptsKey (some n),
          [.processRecord record (.error error), .deadLetter record error n (.error e)]⟩)) := by
  rcases h with _ | _ | ⟨_, _, processed, h⟩
  cases processed with
  | ok _ =>
    rcases h with _ | _ | ⟨_, _, _, h⟩
    cases h
    exact .inl ⟨rfl, rfl⟩
  | error error =>
    refine .inr ⟨error, _, rfl, ?_⟩
    rcases h with _ | _ | ⟨_, _, _, h⟩
    rcases h with _ | _ | ⟨_, _, _, h⟩
    change retryMachine.Ends (if _ then _ else _) _ _ _ at h
    split at h
    · cases h
      exact .inl ⟨‹_›, rfl, rfl⟩
    · have hmax := Nat.le_of_not_lt ‹_›
      rcases h with _ | _ | ⟨_, _, deadLettered, h⟩
      cases deadLettered with
      | ok _ =>
        rcases h with _ | _ | ⟨_, _, _, h⟩
        cases h
        refine .inr (.inl ⟨hmax, rfl, ?_⟩)
        simp
      | error e =>
        cases h
        exact .inr (.inr ⟨hmax, e, rfl, rfl⟩)

end KafkaEventWorker

/-! ## Calls in a row -/

namespace Invocation

/-- `process_record` raised. -/
def failed : Invocation → Bool
  | processRecord _ (.error _) => true
  | _ => false

/-- The record was processed, or its dead letter completed. -/
def handled : Invocation → Bool
  | processRecord _ (.ok _) => true
  | deadLetter _ _ _ (.ok _) => true
  | _ => false

end Invocation

/-- A call of `process_record_with_retry`. -/
structure RetryCall where
  record : Record
  invocations : List Invocation
  returned : Except Exc Bool

namespace RetryCall

def failed (call : RetryCall) : Bool := call.invocations.any Invocation.failed

def handled (call : RetryCall) : Bool := call.invocations.any Invocation.handled

/-- `_dead_letter` was called. -/
def DeadLettered (call : RetryCall) : Prop :=
  ∃ record error attempts outcome, .deadLetter record error attempts outcome ∈ call.invocations

end RetryCall

/-- How often the record failed since it was last handled, in the calls so far, the last one
first. -/
def failuresSinceHandled (key : RecordKey) (calls : List RetryCall) : Nat :=
  ((calls.filter (·.record.attemptsKey = key)).takeWhile (!·.handled)).countP (·.failed)

/-- The calls of any records that may have been made, the last one first, and the counters they
leave. -/
inductive Retried (worker : KafkaEventWorker) :
    List RetryCall → (RecordKey → Option Nat) → Prop
  | start : Retried worker [] fun _ => none
  | call {calls : List RetryCall} {attempts : RecordKey → Option Nat} {record : Record}
      {returned : Except Exc Bool} {w' : RetryWorld} : Retried worker calls attempts →
      retryMachine.Ends (worker.retry record) ⟨attempts, []⟩ returned w' →
      Retried worker (⟨record, w'.invocations, returned⟩ :: calls) w'.attempts

/-- The counters are the failures; a record without any has none. -/
def Counted (calls : List RetryCall) (attempts : RecordKey → Option Nat) : Prop :=
  ∀ key, attempts key =
    if failuresSinceHandled key calls = 0 then none else some (failuresSinceHandled key calls)

section Calls
variable {worker : KafkaEventWorker} {calls : List RetryCall} {call : RetryCall}
  {attempts : RecordKey → Option Nat} {record : Record} {returned : Except Exc Bool}
  {w' : RetryWorld}

theorem failuresSinceHandled_other {key : RecordKey} (h : call.record.attemptsKey ≠ key) :
    failuresSinceHandled key (call :: calls) = failuresSinceHandled key calls := by
  rw [failuresSinceHandled, List.filter_cons_of_neg (by simpa using h), ← failuresSinceHandled]

theorem failuresSinceHandled_handled (h : call.handled = true) :
    failuresSinceHandled call.record.attemptsKey (call :: calls) = 0 := by
  rw [failuresSinceHandled, List.filter_cons_of_pos (by simp),
    List.takeWhile_cons_of_neg (by simp [h]), List.countP_nil]

theorem failuresSinceHandled_failed (hfailed : call.failed = true) (h : call.handled = false) :
    failuresSinceHandled call.record.attemptsKey (call :: calls) =
      failuresSinceHandled call.record.attemptsKey calls + 1 := by
  rw [failuresSinceHandled, List.filter_cons_of_pos (by simp),
    List.takeWhile_cons_of_pos (by simp [h]), List.countP_cons_of_pos hfailed,
    ← failuresSinceHandled]

theorem Counted.getD (h : Counted calls attempts) (key : RecordKey) :
    (attempts key).getD 0 = failuresSinceHandled key calls := by
  rw [h key]
  split
  · exact Eq.symm ‹_›
  · rfl

/-- The record of a call that handled it has no counter any more. -/
theorem Counted.handled (h : Counted calls attempts) (hcall : call.handled = true) :
    Counted (call :: calls) (Function.update attempts call.record.attemptsKey none) := by
  intro key
  by_cases hkey : call.record.attemptsKey = key
  · subst hkey
    rw [Function.update_self, failuresSinceHandled_handled hcall, if_pos rfl]
  · rw [Function.update_of_ne (Ne.symm hkey), failuresSinceHandled_other hkey, h key]

/-- The record of a call that failed and did not handle it has one more failure. -/
theorem Counted.failed (h : Counted calls attempts) (hfailed : call.failed = true)
    (hcall : call.handled = false) :
    Counted (call :: calls) (Function.update attempts call.record.attemptsKey
      (some ((attempts call.record.attemptsKey).getD 0 + 1))) := by
  intro key
  by_cases hkey : call.record.attemptsKey = key
  · subst hkey
    rw [Function.update_self, failuresSinceHandled_failed hfailed hcall, h.getD,
      if_neg (Nat.succ_ne_zero _)]
  · rw [Function.update_of_ne (Ne.symm hkey), failuresSinceHandled_other hkey, h key]

theorem Counted.after (h : Counted calls attempts)
    (hcall : retryMachine.Ends (worker.retry record) ⟨attempts, []⟩ returned w') :
    Counted (⟨record, w'.invocations, returned⟩ :: calls) w'.attempts := by
  rcases worker.retry_cases hcall with
    ⟨-, rfl⟩ | ⟨error, n, rfl, ⟨-, -, rfl⟩ | ⟨-, -, rfl⟩ | ⟨-, e, -, rfl⟩⟩
  · exact @Counted.handled _ ⟨record, _, _⟩ _ h rfl
  · exact @Counted.failed _ ⟨record, _, _⟩ _ h rfl rfl
  · exact @Counted.handled _ ⟨record, _, _⟩ _ h rfl
  · exact @Counted.failed _ ⟨record, _, _⟩ _ h rfl rfl

theorem Retried.counted (h : Retried worker calls attempts) : Counted calls attempts := by
  induction h with
  | start => exact fun _ => rfl
  | call _ hcall ih => exact ih.after hcall

end Calls

/-! ## The accounting -/

/-- What a call owes: the answers by the failures of its record since it was last handled, and
counters that belong to no other record. -/
structure RetryCall.Accounted (maxProcessingAttempts : Int) (earlier : List RetryCall)
    (attempts attempts' : RecordKey → Option Nat) (call : RetryCall) : Prop where
  deferred : call.returned = .ok false ↔ call.failed = true ∧
    (failuresSinceHandled call.record.attemptsKey earlier + 1 : Int) ≤ maxProcessingAttempts - 1
  deadLettered : call.DeadLettered ↔ call.failed = true ∧
    maxProcessingAttempts - 1 < failuresSinceHandled call.record.attemptsKey earlier + 1
  settled : call.returned = .ok true →
    call.handled = true ∧ attempts' call.record.attemptsKey = none
  raised : ∀ e, call.returned = .error e →
    ∃ error n, .deadLetter call.record error n (.error e) ∈ call.invocations
  others : ∀ key, key ≠ call.record.attemptsKey → attempts' key = attempts key

/-- **Retry accounting.**  In every sequence of calls, of any records and with any outcomes of
`process_record` and `_dead_letter`: a call is deferred on the first failures of its record since
that was last handled, one below the limit; on the later ones `_dead_letter` is called; a handled
record keeps no counter; a call raises only what `_dead_letter` raised; and no call touches the
counter of another record. -/
theorem retries_accounted {runtime : Runtime} {maxProcessingAttempts : Int}
    {calls : List RetryCall} {attempts : RecordKey → Option Nat} {record : Record}
    {returned : Except Exc Bool} {w' : RetryWorld}
    (h : Retried (.init runtime maxProcessingAttempts) calls attempts)
    (hcall : retryMachine.Ends ((KafkaEventWorker.init runtime maxProcessingAttempts).retry record)
      ⟨attempts, []⟩ returned w') :
    RetryCall.Accounted maxProcessingAttempts calls attempts w'.attempts
      ⟨record, w'.invocations, returned⟩ := by
  have hlimit : (KafkaEventWorker.init runtime maxProcessingAttempts).maxProcessingAttempts =
      (max 1 maxProcessingAttempts).toNat := rfl
  have hcount := h.counted.getD record.attemptsKey
  rcases KafkaEventWorker.retry_cases _ hcall with
    ⟨rfl, rfl⟩ | ⟨error, n, rfl, ⟨hlt, rfl, rfl⟩ | ⟨hle, rfl, rfl⟩ | ⟨hle, e, rfl, rfl⟩⟩
  · -- processed: nothing failed
    refine ⟨?_, ?_, fun _ => ⟨rfl, Function.update_self ..⟩, nofun,
      fun key hkey => Function.update_of_ne hkey ..⟩
    · simp [RetryCall.failed, Invocation.failed]
    · simp [RetryCall.failed, RetryCall.DeadLettered, Invocation.failed]
  · -- left to another attempt
    rw [hcount, hlimit] at hlt
    refine ⟨iff_of_true rfl ⟨rfl, by dsimp only; omega⟩, ?_, nofun, nofun,
      fun key hkey => Function.update_of_ne hkey ..⟩
    refine iff_of_false (by simp [RetryCall.DeadLettered]) fun hlater => ?_
    have hlater := hlater.2
    dsimp only at hlater
    omega
  · -- dead-lettered
    rw [hcount, hlimit] at hle
    refine ⟨iff_of_false nofun fun hfirst => ?_, iff_of_true ⟨_, _, _, _, .tail _ (.head _)⟩
      ⟨rfl, by dsimp only; omega⟩, fun _ => ⟨rfl, Function.update_self ..⟩, nofun,
      fun key hkey => Function.update_of_ne hkey ..⟩
    have hfirst := hfirst.2
    dsimp only at hfirst
    omega
  · -- its dead letter failed
    rw [hcount, hlimit] at hle
    refine ⟨iff_of_false nofun fun hfirst => ?_, iff_of_true ⟨_, _, _, _, .tail _ (.head _)⟩
      ⟨rfl, by dsimp only; omega⟩, nofun, ?_, fun key hkey => Function.update_of_ne hkey ..⟩
    · have hfirst := hfirst.2
      dsimp only at hfirst
      omega
    · rintro e' he
      obtain rfl := Except.error.inj he
      exact ⟨_, _, .tail _ (.head _)⟩

namespace Sample

def nullRecord : Record := ⟨"ax.incident.events.v1", 0, 7, none, .null⟩

def refusal : Exc := .validationError "1 validation error for EventEnvelope"

/-- An attempt that is not the last. -/
def failedAttempt : RetryCall :=
  ⟨nullRecord, [.processRecord nullRecord (.error refusal)], .ok false⟩

/-- The attempts made at the record. -/
def made (n : Nat) : RecordKey → Option Nat :=
  Function.update (fun _ => none) nullRecord.attemptsKey (some n)

instance : Inhabited retryMachine.Choice := ⟨.ok ()⟩

theorem retries_accounted_third : RetryCall.Accounted 3 [failedAttempt, failedAttempt]
    (Function.update (made 1) nullRecord.attemptsKey (some 2))
    (Function.update (Function.update (Function.update (made 1) nullRecord.attemptsKey (some 2))
      nullRecord.attemptsKey (some 3)) nullRecord.attemptsKey none)
    ⟨nullRecord, [.processRecord nullRecord (.error refusal),
      .deadLetter nullRecord refusal 3 (.ok ())], .ok true⟩ := by
  have first := retryMachine.ends_execute [.error refusal]
    ((KafkaEventWorker.init runtime 3).retry nullRecord) ⟨fun _ => none, []⟩
  have second := retryMachine.ends_execute [.error refusal]
    ((KafkaEventWorker.init runtime 3).retry nullRecord) ⟨made 1, []⟩
  have third := retryMachine.ends_execute [.error refusal]
    ((KafkaEventWorker.init runtime 3).retry nullRecord)
    ⟨Function.update (made 1) nullRecord.attemptsKey (some 2), []⟩
  exact retries_accounted (.call (.call .start first) second) third

end Sample

/-! ## The worker's calls -/

/-- The operation is not one on `_attempts`. -/
def Uncounted : workerOps.Op → Prop
  | .inr (.setAttempts ..) => False
  | .inr (.popAttempts _) => False
  | _ => True

theorem OffTable.uncounted {op : workerOps.Op} (h : OffTable op) : Uncounted op := by
  unfold OffTable at h
  split at h
  · trivial
  · trivial
  · exact h.elim

section Worker
variable {rt : Runtime} {log : Log} {faults : Faults} {worker : KafkaEventWorker}
  {record : Record}

theorem uncounted_countProcessed {past : WorkerMoves} (eventType result : String) :
    Only Uncounted past (Worker.run (.countProcessed eventType result)) :=
  bind_pure (Worker.run (.countProcessed eventType result)) ▸
    only_perform trivial fun _ => trivial

theorem uncounted_processRecord (worker : KafkaEventWorker) (record : Record) :
    Only Uncounted [] (worker.processRecord record) := by
  unfold KafkaEventWorker.processRecord
  refine Program.Obeys.bind ((offTable_modelValidate _ _).mono (fun _ _ => OffTable.uncounted)
    fun _ _ => id) fun past envelope => ?_
  show Only Uncounted past
    (Worker.get .processedEvent (worker.runtime.entityId envelope.eventId) >>= _)
  rw [DynamoRepository.get_left_bind]
  refine ⟨trivial, fun r => ?_⟩
  cases r with
  | error e => trivial
  | ok item =>
    cases item with
    | some item => exact uncounted_countProcessed ..
    | none =>
      refine only_perform trivial fun processedAt => ?_
      exact only_put trivial trivial (fun _ _ => trivial) fun _ => uncounted_countProcessed ..

theorem uncounted_deadLetter (worker : KafkaEventWorker) (record : Record) (error : Exc)
    (attempts : Nat) : Only Uncounted [] (worker.deadLetter record error attempts) := by
  unfold KafkaEventWorker.deadLetter KafkaEventWorker.publishDeadLetter
  refine Program.Obeys.bind ((offTable_deadLetterMessage worker record error attempts).mono
    (fun _ _ => OffTable.uncounted) fun _ _ => id) fun past message => ?_
  rw [bind_assoc]
  refine only_ofExcept fun _ => only_perform trivial fun _ =>
    only_perform trivial fun processedAt => ?_
  exact only_put trivial trivial (fun _ _ => trivial) fun _ => uncounted_countProcessed ..

/-- The operations besides those on `_attempts` leave it alone. -/
theorem attempts_of_uncounted (op : workerOps.Op) (c : (kafka rt log faults).Choice)
    (w : KafkaWorld) (h : Uncounted op) :
    ((kafka rt log faults).exec op c w).2.2.attempts = w.2.attempts := by
  have hworking : ∀ c, ((workingKafka rt log).exec op c w).2.2.attempts = w.2.attempts := by
    intro c
    rcases op with op | op
    · rfl
    · cases op with
      | poll =>
        obtain ⟨_, plan⟩ := c
        cases plan with
        | error e => rfl
        | ok plan =>
          cases hfetch : fetchBatches rt log w.2.positions plan with
          | error e => simp [hfetch]
          | ok batches => simp [hfetch]
      | setAttempts => exact h.elim
      | popAttempts => exact h.elim
      | _ => rfl
  rcases (workingKafka rt log).faulty_exec faults.raises op c w with h | ⟨e, -, -, h | h⟩
  · rw [h]
    exact hworking c.1
  · rw [h]
  · rw [h]
    exact hworking c.1

/-- An operation that does not leave the process has its effect. -/
theorem exec_of_run {op : WorkerOp} (hop : ∀ e, mayRaise (.inr op) e = false) {v v' : KafkaWorld}
    {r : Except Exc (kafkaOps.Reply op)} (h : (kafka rt log faults).Ends (Worker.run op) v r v') :
    ∃ c, (workingKafka rt log).exec (.inr op) c v = (r, v') := by
  obtain ⟨c, hexec⟩ := h.of_perform
  rcases (workingKafka rt log).faulty_exec faults.raises (.inr op) c v with heq | ⟨e, he, -⟩
  · exact ⟨c.1, heq.symm.trans hexec⟩
  · obtain rfl := Faults.any_of_raises he
    exact absurd he (by simp [Faults.raises, hop])

/-- The method of an operation does to `_attempts` what the operation does. -/
theorem method_simulates (op : RetryOp) (w : RetryWorld) (v : KafkaWorld)
    (r : Except Exc (retryOps.Reply op)) (v' : KafkaWorld) (hR : w.attempts = v.2.attempts)
    (h : (kafka rt log faults).Ends (worker.method op) v r v') :
    ∃ c, (retryMachine.exec op c w).1 = r ∧
      (retryMachine.exec op c w).2.attempts = v'.2.attempts := by
  cases op with
  | processRecord record =>
    exact ⟨r, rfl, hR.trans (Machine.Ends.keeps (f := fun w : KafkaWorld => w.2.attempts)
      attempts_of_uncounted (uncounted_processRecord worker record) h).symm⟩
  | deadLetter record error attempts =>
    exact ⟨r, rfl, hR.trans (Machine.Ends.keeps (f := fun w : KafkaWorld => w.2.attempts)
      attempts_of_uncounted (uncounted_deadLetter worker record error attempts) h).symm⟩
  | getAttempts key =>
    obtain ⟨c, hexec⟩ := exec_of_run (fun _ => rfl) h
    cases hexec
    exact ⟨.ok (), congrArg (fun attempts => Except.ok (attempts key)) hR, hR⟩
  | setAttempts key attempts =>
    obtain ⟨c, hexec⟩ := exec_of_run (fun _ => rfl) h
    cases hexec
    exact ⟨.ok (), rfl, congrArg (fun a => Function.update a key (some attempts)) hR⟩
  | popAttempts key =>
    obtain ⟨c, hexec⟩ := exec_of_run (fun _ => rfl) h
    cases hexec
    exact ⟨.ok (), rfl, congrArg (fun a => Function.update a key none) hR⟩

end Worker

/-- The calls the worker may have made from an empty `_attempts` on, the last one first; what
happens between them leaves `_attempts` alone. -/
inductive KafkaEventWorker.Called (worker : KafkaEventWorker) (log : Log) (faults : Faults) :
    List (Record × Except Exc Bool) → KafkaWorld → Prop
  | start {w : KafkaWorld} (h : w.2.attempts = fun _ => none) : worker.Called log faults [] w
  | call {calls : List (Record × Except Exc Bool)} {record : Record} {returned : Except Exc Bool}
      {w w' : KafkaWorld} : worker.Called log faults calls w →
      (kafka worker.runtime log faults).Ends (worker.processRecordWithRetry record) w returned w' →
      worker.Called log faults ((record, returned) :: calls) w'
  | between {calls : List (Record × Except Exc Bool)} {w w' : KafkaWorld} :
      worker.Called log faults calls w → w'.2.attempts = w.2.attempts →
      worker.Called log faults calls w'

/-- The calls of the worker, whatever its operations do, are calls the accounting is about. -/
theorem KafkaEventWorker.Called.retried {worker : KafkaEventWorker} {log : Log} {faults : Faults}
    {made : List (Record × Except Exc Bool)} {w : KafkaWorld}
    (h : worker.Called log faults made w) :
    ∃ calls, Retried worker calls w.2.attempts ∧
      calls.map (fun call => (call.record, call.returned)) = made := by
  induction h with
  | start h => exact ⟨[], h ▸ .start, rfl⟩
  | @call made record returned w w' _ hcall ih =>
    obtain ⟨calls, hcalls, hmade⟩ := ih
    rw [worker.processRecordWithRetry_eq_interpret] at hcall
    obtain ⟨w₁, hends, hattempts⟩ := hcall.of_interpret (M := retryMachine)
      (R := fun w (v : KafkaWorld) => w.attempts = v.2.attempts) method_simulates
      (show (⟨w.2.attempts, []⟩ : RetryWorld).attempts = _ from rfl)
    exact ⟨_, hattempts ▸ hcalls.call hends, congrArg _ hmade⟩
  | between _ hattempts ih =>
    obtain ⟨calls, hcalls, hmade⟩ := ih
    exact ⟨calls, hattempts ▸ hcalls, hmade⟩

end AxSentinel
