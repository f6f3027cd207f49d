import AxSentinel.Delivery

/-! # Records that become dead letters

The dead-letter envelope is itself validated, and takes fields from the record it is about; its
text has an encoding only without lone surrogates.  So not every invalid record becomes a dead
letter (`movedToDeadLetters_iff`): one whose `event_id` is a number raises at each attempt, and so
does one that holds a lone surrogate. -/
namespace AxSentinel
open Effects Worker
open Python (Json Str)

/-! ## Consecutive calls -/

/-- Consecutive calls of `process_record_with_retry` on a record, when nothing fails, and the
outcome of the last one. -/
inductive Calls (worker : KafkaEventWorker) (log : Log) (record : Record) :
    Nat → KafkaWorld → Except Exc Bool → KafkaWorld → Prop
  | first {w out w'} :
      (kafka worker.runtime log .none).Ends (worker.processRecordWithRetry record) w out w' →
      Calls worker log record 1 w out w'
  | next {n w out w' out' w''} : Calls worker log record n w out w' →
      (kafka worker.runtime log .none).Ends (worker.processRecordWithRetry record) w' out' w'' →
      Calls worker log record (n + 1) w out' w''

/-- Between the worlds, one dead-letter message was published, with the value of the record
and where it stood, and one event was stored. -/
structure MovedToDeadLetters (record : Record) (w w' : KafkaWorld) : Prop where
  published : ∃ message : DeadLetter, message.payload.originalValue = record.value ∧
    message.payload.sourceTopic = record.topic ∧
    message.payload.sourcePartition = record.partition ∧
    message.payload.sourceOffset = record.offset ∧
    w'.2.deadLetters = w.2.deadLetters ++
      [(deadLetterId record.topicPartition record.offset, message)]
  recorded : ∃ item : Item (Attributes ProcessedEvent),
    record.RecordsDeadLetter item.attributes.data ∧
      w'.1 = w.1.insert ⟨.processedEvent, deadLetterId record.topicPartition record.offset⟩ item

/-- The last of the allowed calls returns `True`, and moved the record to the dead letters. -/
def MovedByLastCall (worker : KafkaEventWorker) (log : Log) (record : Record) (w : KafkaWorld) :
    Prop :=
  ∀ out w', Calls worker log record worker.maxProcessingAttempts w out w' →
    out = .ok true ∧ MovedToDeadLetters record w w'

section Calls
variable {worker : KafkaEventWorker} {log : Log} {record : Record} {uuids : UuidSupply}
  {w w' : KafkaWorld} {out : Except Exc Bool}

theorem Quiet.trans {a b c : KafkaWorld} (hab : Quiet a b) (hbc : Quiet b c) : Quiet a c :=
  ⟨hbc.1.trans hab.1, hbc.2.trans hab.2⟩

/-- A dead letter after a quiet start is one from the start. -/
theorem DeadLettered.of_quiet {rt : Runtime} {v : KafkaWorld} (h : DeadLettered rt record v w')
    (hquiet : Quiet w v) : DeadLettered rt record w w' where
  deadLetterable := h.deadLetterable
  published := by
    obtain ⟨message, hdescribes, hsent⟩ := h.published
    exact ⟨message, hdescribes, hquiet.2 ▸ hsent⟩
  recorded := by
    obtain ⟨item, hrecords, htable⟩ := h.recorded
    exact ⟨item, hrecords, hquiet.1 ▸ htable⟩

theorem DeadLettered.moved {rt : Runtime} (h : DeadLettered rt record w w')
    (hdump : rt.dump record.value = .ok record.value) : MovedToDeadLetters record w w' where
  published := by
    obtain ⟨message, hdescribes, hsent⟩ := h.published
    obtain heq := Except.ok.inj (hdescribes.dump.symm.trans hdump)
    exact ⟨message, heq, hdescribes.topic, hdescribes.partition, hdescribes.offset, hsent⟩
  recorded := h.recorded

/-- A dead letter holds the value as it was, only if the dump leaves it so. -/
theorem DeadLettered.dump_eq {rt : Runtime} (h : DeadLettered rt record w w')
    (hmoved : MovedToDeadLetters record w w') : rt.dump record.value = .ok record.value := by
  obtain ⟨message, hdescribes, hsent⟩ := h.published
  obtain ⟨message', hvalue, -, -, -, hsent'⟩ := hmoved.published
  obtain ⟨-, rfl⟩ : _ ∧ message = message' := by
    have heq := List.append_cancel_left (hsent.symm.trans hsent')
    exact Prod.mk.inj (List.singleton_inj.mp heq)
  rw [hdescribes.dump, hvalue]

/-- The calls before the last one leave an invalid record to another attempt. -/
theorem Calls.quiet {e : Exc} {n : Nat} (hcalls : Calls worker log record n w out w')
    (hw : Sane uuids w) (hids : ∀ k tp offset, uuids.draw k ≠ deadLetterId tp offset)
    (hinvalid : EnvelopeFields.validate worker.runtime record.value = .error e)
    (hn : w.attemptsAt record + n < worker.maxProcessingAttempts) :
    Sane uuids w' ∧ w'.attemptsAt record = w.attemptsAt record + n ∧ Quiet w w' := by
  -- one call, from a world that leaves another one
  have step : ∀ {v v' : KafkaWorld} {out},
      (kafka worker.runtime log .none).Ends (worker.processRecordWithRetry record) v out v' →
      Sane uuids v → v.attemptsAt record + 1 < worker.maxProcessingAttempts →
      Sane uuids v' ∧ v'.attemptsAt record = v.attemptsAt record + 1 ∧ Quiet v v' := by
    intro v v' out hends hv hlt
    obtain ⟨hextends, -, houtcome⟩ :=
      hends.of_safe (processRecordWithRetry_invalid hv hids hinvalid)
    rcases out with e' | ⟨_ | _⟩
    · exact absurd houtcome.1 (Nat.not_le_of_lt hlt)
    · exact ⟨hextends.sane, houtcome.2⟩
    · exact absurd houtcome.1 (Nat.not_le_of_lt hlt)
  induction hcalls with
  | first hends => exact step hends hw hn
  | @next n w _ v _ _ _ hends ih =>
    obtain ⟨hv, hattempts, hquiet⟩ := ih hw (by omega)
    obtain ⟨hv', hattempts', hquiet'⟩ := step hends hv (by omega)
    exact ⟨hv', by omega, hquiet.trans hquiet'⟩

/-- **The last of the calls** dead-letters an invalid record, or raises, where none can be
built of its value. -/
theorem Calls.last {e : Exc}
    (hcalls : Calls worker log record worker.maxProcessingAttempts w out w')
    (hw : Sane uuids w) (hids : ∀ k tp offset, uuids.draw k ≠ deadLetterId tp offset)
    (hinvalid : EnvelopeFields.validate worker.runtime record.value = .error e)
    (hfirst : w.attemptsAt record = 0) :
    out = .ok true ∧ DeadLettered worker.runtime record w w' ∨
      (∃ e', out = .error e') ∧ ¬ DeadLetterable worker.runtime record.value := by
  obtain ⟨v, hends, hv, hattempts, hquiet⟩ : ∃ v : KafkaWorld,
      (kafka worker.runtime log .none).Ends (worker.processRecordWithRetry record) v out w' ∧
        Sane uuids v ∧ v.attemptsAt record + 1 = worker.maxProcessingAttempts ∧ Quiet w v := by
    generalize hmax : worker.maxProcessingAttempts = n at hcalls
    cases hcalls with
    | first hends => exact ⟨w, hends, hw, by omega, rfl, rfl⟩
    | @next n _ _ v _ _ hcalls hends =>
      obtain ⟨hv, hattempts, hquiet⟩ := hcalls.quiet hw hids hinvalid (by omega)
      exact ⟨v, hends, hv, by omega, hquiet⟩
  obtain ⟨-, -, houtcome⟩ := hends.of_safe (processRecordWithRetry_invalid hv hids hinvalid)
  rcases out with e' | ⟨_ | _⟩
  · rcases houtcome.2 with hnone | ⟨hnot, -⟩
    · cases hnone
    · exact .inr ⟨⟨e', rfl⟩, hnot⟩
  · have hlt := houtcome.1
    omega
  · exact .inl ⟨rfl, houtcome.2.of_quiet hquiet⟩

/-- Any number of calls can be made. -/
theorem exists_calls (worker : KafkaEventWorker) (log : Log) (record : Record) (w : KafkaWorld)
    {n : Nat} (hn : 1 ≤ n) : ∃ out w', Calls worker log record n w out w' := by
  have ends := Machine.ends_execute (M := kafka worker.runtime log .none) []
    (worker.processRecordWithRetry record)
  induction n, hn using Nat.le_induction with
  | base => exact ⟨_, _, .first (ends w)⟩
  | succ n _ ih =>
    obtain ⟨out, w', hcalls⟩ := ih
    exact ⟨_, _, .next hcalls (ends w')⟩

/-- **An invalid record becomes a dead letter** exactly if the dead-letter envelope takes the
fields it has and can be encoded, and the dump leaves its value as it is. -/
theorem movedToDeadLetters_iff {e : Exc} (hw : Sane uuids w)
    (hids : ∀ k tp offset, uuids.draw k ≠ deadLetterId tp offset)
    (hinvalid : EnvelopeFields.validate worker.runtime record.value = .error e)
    (hfirst : w.attemptsAt record = 0) :
    MovedByLastCall worker log record w ↔
    DeadLetterable worker.runtime record.value ∧
      worker.runtime.dump record.value = .ok record.value := by
  constructor
  · intro hall
    obtain ⟨out, w', hcalls⟩ := exists_calls worker log record w worker.one_le
    obtain ⟨hout, hmoved⟩ := hall out w' hcalls
    rcases hcalls.last hw hids hinvalid hfirst with ⟨-, hdead⟩ | ⟨⟨e', herr⟩, -⟩
    · exact ⟨hdead.deadLetterable, hdead.dump_eq hmoved⟩
    · cases hout.symm.trans herr
  · rintro ⟨hdeadLetterable, hdump⟩ out w' hcalls
    rcases hcalls.last hw hids hinvalid hfirst with ⟨hout, hdead⟩ | ⟨-, hnot⟩
    · exact ⟨hout, hdead.moved hdump⟩
    · exact absurd hdeadLetterable hnot

end Calls

namespace Sample

theorem unary_ne_deadLetterId (k : Nat) (tp : TopicPartition) (offset : Nat) :
    UuidSupply.unary.draw k ≠ deadLetterId tp offset :=
  (fresh (log [])).not_deadLetterId k tp offset

theorem sane_start : Sane .unary (.start .unary) :=
  ⟨rfl, fun _ _ => rfl, fun _ _ h => nomatch h⟩

/-- A record of the sample partition with the given value. -/
def record (value : Json) : Record := ⟨partition.topic, partition.partition, 0, none, value⟩

end Sample

theorem movedToDeadLetters_iff_null :
    MovedByLastCall Sample.kafkaWorker (Sample.log []) (Sample.record .null) (.start .unary) :=
  (movedToDeadLetters_iff Sample.sane_start Sample.unary_ne_deadLetterId rfl rfl).mpr
    ⟨⟨⟨_, rfl, rfl⟩, nofun, _, rfl, rfl⟩, rfl⟩

/-- The JSON text of a lone surrogate is no envelope, and its dead letter cannot be encoded. -/
example : ¬ DeadLetterable Sample.runtime (.str (.surrogates [0xD800] rfl)) := by
  rintro ⟨-, -, value, hdump, hencodable⟩
  obtain rfl := Except.ok.inj hdump
  cases hencodable

/-- An event whose id is a number. -/
def numbered : Json := .dict [(.text "event_id", .int 1)]

/-- An invalid record may never become a dead letter. -/
theorem not_movedToDeadLetters : ¬ ∀ worker log record uuids w e, Sane uuids w →
    (∀ k tp offset, uuids.draw k ≠ deadLetterId tp offset) →
    EnvelopeFields.validate worker.runtime record.value = .error e →
    w.attemptsAt record = 0 → MovedByLastCall worker log record w := by
  intro hall
  have hinvalid : EnvelopeFields.validate Sample.runtime numbered =
      .error (.validationError "1 validation error for EventEnvelope") := rfl
  have hmoved := hall Sample.kafkaWorker (Sample.log []) (Sample.record numbered) .unary
    (.start .unary) _ Sample.sane_start Sample.unary_ne_deadLetterId hinvalid rfl
  obtain ⟨out, w', hcalls⟩ := exists_calls Sample.kafkaWorker (Sample.log [])
    (Sample.record numbered) (.start .unary) Sample.kafkaWorker.one_le
  rcases hcalls.last Sample.sane_start Sample.unary_ne_deadLetterId hinvalid rfl with
    ⟨-, hdead⟩ | ⟨⟨e', herr⟩, -⟩
  · obtain ⟨_, hcausation, -⟩ := hdead.deadLetterable.causation
    cases hcausation
  · cases (hmoved out w' hcalls).1.symm.trans herr

end AxSentinel
