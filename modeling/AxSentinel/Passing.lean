import AxSentinel.DeadLetters

/-! # Records the worker gets past

Iterations of the polling loop that start at a record, when the producer and the store accept
everything.  The worker gets past each record of a log within as many iterations as it makes
attempts, exactly if each value decodes, and is valid or can become a dead letter
(`passesEveryRecord_iff`).  Decoding happens in the poll: where it raises, the next iteration
starts at the same record. -/
namespace AxSentinel
open Effects Worker
open Python (Json Str)

section Passing
variable (worker : KafkaEventWorker) (log : Log)

/-- An iteration whose poll fetches from the position of the partition on. -/
def IterationAt (tp : TopicPartition) (w w' : KafkaWorld) : Prop :=
  ∃ (clock : Instant) (plan : Fetch) (n : Nat)
    (choices : List (kafka worker.runtime log .none).Choice),
    (tp, n) ∈ plan.val ∧ 1 ≤ n ∧
      w' = (Machine.execute (((clock, .ok plan), .none) :: choices) worker.pollIteration w).2

/-- Consecutive iterations that start at the offset. -/
inductive IterationsAt (tp : TopicPartition) (offset : Nat) :
    Nat → KafkaWorld → KafkaWorld → Prop
  | refl (w) : IterationsAt tp offset 0 w w
  | step {n w w' w''} : IterationsAt tp offset n w w' → w'.2.positions tp = offset →
      IterationAt worker log tp w' w'' → IterationsAt tp offset (n + 1) w w''

/-- The record is handled, and the position of its partition is past it. -/
def Passed (uuids : UuidSupply) (tp : TopicPartition) (offset : Nat) (raw : RawRecord)
    (w : KafkaWorld) : Prop :=
  offset < w.2.positions tp ∧ ∃ value, deserialize worker.runtime raw.value = .ok value ∧
    Record.Handled worker.runtime uuids ⟨tp.topic, tp.partition, offset, raw.key, value⟩ w

/-- The value decodes, and is valid or can become a dead letter. -/
def Digestible (rt : Runtime) (value : Option ByteArray) : Prop :=
  ∃ json, deserialize rt value = .ok json ∧
    ((∃ fields, EnvelopeFields.validate rt json = .ok fields) ∨ DeadLetterable rt json)

end Passing

section Iterations
variable {worker : KafkaEventWorker} {log : Log} {uuids : UuidSupply} {w w' : KafkaWorld}
  {tp : TopicPartition} {offset : Nat} {raw : RawRecord}

/-- What an iteration does once its poll returned. -/
def KafkaEventWorker.handlePolled (worker : KafkaEventWorker) (batches : Batches) : Worker Unit :=
  tryCatch (do
    let flags ← worker.handleBatches batches false false
    finish flags.1 flags.2) recover

theorem pollIteration_eq : worker.pollIteration = .call (.inr .poll) fun
    | .ok batches => worker.handlePolled batches
    | .error e => KafkaEventWorker.recover e :=
  Program.call_congr (fun _ => rfl) fun _ => rfl

/-- What `_poll` does after an exception changes nothing. -/
theorem ends_recover {e : Exc} {out : Except Exc Unit}
    (h : (kafka worker.runtime log .none).Ends (KafkaEventWorker.recover e) w out w') : w' = w := by
  have hsafe : Safe worker.runtime log .none (fun v => v = w) (KafkaEventWorker.recover e)
      (fun _ _ => True) w := recover_safe rfl
  exact (h.of_safe hsafe).1

/-- An iteration fetches, and then handles what it fetched, or nothing happens. -/
theorem execute_pollIteration (clock : Instant) (plan : Fetch)
    (choices : List (kafka worker.runtime log .none).Choice) (w' : KafkaWorld)
    (hw' : w' = (Machine.execute (((clock, .ok plan), .none) :: choices)
      worker.pollIteration w).2) :
    match fetchBatches worker.runtime log w.2.positions plan.val with
    | .error _ => w' = w
    | .ok batches => ∃ out, (kafka worker.runtime log .none).Ends (worker.handlePolled batches)
        (w.polled plan) out w' := by
  have ends {program : Worker Unit} {v : KafkaWorld} :=
    Machine.ends_execute (M := kafka worker.runtime log .none) choices program v
  rw [pollIteration_eq, Machine.execute_call (M := kafka worker.runtime log .none)] at hw'
  cases hfetch : fetchBatches worker.runtime log w.2.positions plan.val with
  | error e =>
    have hexec : (kafka worker.runtime log .none).exec (.inr .poll) ((clock, .ok plan), .none) w =
        (.error e, w) := by simp [hfetch]
    rw [hexec] at hw'
    exact hw'.trans (ends_recover ends)
  | ok batches =>
    have hexec : (kafka worker.runtime log .none).exec (.inr .poll) ((clock, .ok plan), .none) w =
        (.ok batches, w.polled plan) := by simp [hfetch, KafkaWorld.polled]
    rw [hexec] at hw'
    exact ⟨_, hw' ▸ ends⟩

/-- At the end of an iteration without faults, at most the committed offsets change. -/
theorem finish_unchanged {processedAny batchFailed : Bool} :
    Safe worker.runtime log .none (fun v => ∃ c, v = (w.1, { w.2 with committed := c }))
      (KafkaEventWorker.finish processedAny batchFailed) (fun out _ => out = .ok ()) w := by
  unfold KafkaEventWorker.finish
  split
  · let committed : KafkaWorld := (w.1, { w.2 with committed := w.2.positions })
    rw [← bind_pure (run _)]
    exact safe_perform (v := committed) ⟨_, rfl⟩ (fun _ => rfl) ⟨⟨_, rfl⟩, rfl⟩ nofun
  · split
    · rw [← bind_pure (run _)]
      exact safe_local ⟨_, rfl⟩ (fun _ => rfl) (fun _ => rfl) ⟨⟨_, rfl⟩, rfl⟩
    · exact ⟨⟨_, rfl⟩, rfl⟩

theorem Batch.mem {rt : Runtime} {start stop : Nat} {records : List Record}
    (h : Batch rt log tp start records stop) {record : Record} (hmem : record ∈ records) :
    ∃ raw, log tp record.offset = some raw ∧ deserialize rt raw.value = .ok record.value := by
  induction h with
  | nil => cases hmem
  | cons _ _ hraw hvalue _ ih =>
    rcases List.mem_cons.mp hmem with rfl | hmem
    · exact ⟨_, hraw, hvalue⟩
    · exact ih hmem

/-- What is fetched where every value decodes. -/
theorem recordsFrom_isOk {rt : Runtime}
    (hdecodes : ∀ tp offset raw, log tp offset = some raw →
      ∃ value, deserialize rt raw.value = .ok value)
    (start n : Nat) : ∃ records, recordsFrom rt log tp start n = .ok records := by
  induction n generalizing start with
  | zero => exact ⟨[], rfl⟩
  | succ n ih =>
    obtain ⟨rest, hrest⟩ := ih (start + 1)
    unfold recordsFrom
    cases hraw : log tp start with
    | none => exact ⟨rest, hrest⟩
    | some raw =>
      obtain ⟨value, hvalue⟩ := hdecodes tp start raw hraw
      simp [hvalue, hrest, bind, Except.bind, pure, Except.pure]

theorem fetchBatches_isOk {rt : Runtime}
    (hdecodes : ∀ tp offset raw, log tp offset = some raw →
      ∃ value, deserialize rt raw.value = .ok value)
    (positions : TopicPartition → Nat) (plan : List (TopicPartition × Nat)) :
    ∃ batches, fetchBatches rt log positions plan = .ok batches := by
  induction plan with
  | nil => exact ⟨[], rfl⟩
  | cons fetch plan ih =>
    obtain ⟨rest, hrest⟩ := ih
    obtain ⟨records, hrecords⟩ : ∃ records,
        recordsFrom rt log fetch.1 (positions fetch.1) fetch.2 = .ok records :=
      recordsFrom_isOk hdecodes _ _
    simp [fetchBatches, hrecords, hrest, bind, Except.bind, pure, Except.pure]

/-- What was fetched, when no record of it is stuck. -/
theorem handlePolled_safe {plan : Fetch} {batches : Batches}
    (hfresh : uuids.Fresh worker.runtime log) (hw : Sane uuids w)
    (hfetch : fetchBatches worker.runtime log w.2.positions plan.val = .ok batches)
    (hgood : ∀ tp records, (tp, records) ∈ batches → ∀ record ∈ records,
      ¬ record.Stuck worker.runtime) :
    Safe worker.runtime log .none (fun _ => True) (worker.handlePolled batches) (fun _ w' =>
      Sane uuids w' ∧
        (∀ tp, HandledBetween worker.runtime log uuids w' tp (w.2.positions tp)
          (w'.2.positions tp)) ∧
        ∀ tp records, (tp, records) ∈ batches →
          ∀ record ∈ records.head?, RecordProgress worker record w w') (w.polled plan) := by
  have hids := hfresh.not_deadLetterId
  have hstart : ∀ tp, HandledBetween worker.runtime log uuids w tp (w.2.positions tp)
      (w.2.positions tp) := fun _ _ _ hge hlt => absurd hlt (Nat.not_lt_of_le hge)
  refine Machine.safe_tryCatch (Machine.safe_bind (Machine.safe_mono (handleBatches_safe hfresh
    (hw.polled plan).sane (pending_of_fetch hids hfetch hstart)) (fun _ _ => ⟨⟩) ?_))
  rintro out w₁ hextends ⟨-, hout⟩
  cases out with
  | error e =>
    rcases hout with hnone | ⟨tp, records, hmem, record, hrecord, hstuck⟩
    · cases hnone
    · exact absurd hstuck (hgood tp records hmem record hrecord)
  | ok flags =>
    refine Machine.safe_mono finish_unchanged (fun _ _ => ⟨⟩) ?_
    rintro _ _ ⟨c, rfl⟩ rfl
    have hsane := hextends.sane
    exact ⟨⟨hsane.supply, hsane.undrawn, hsane.versioned⟩,
      fun tp => (hout.1 tp).grows hids (.of_eq rfl rfl), hout.2⟩

theorem recordsFrom_head {rt : Runtime} {start n : Nat} {value : Json} {records : List Record}
    (hn : 1 ≤ n) (hraw : log tp start = some raw) (hvalue : deserialize rt raw.value = .ok value)
    (h : recordsFrom rt log tp start n = .ok records) :
    records.head? = some ⟨tp.topic, tp.partition, start, raw.key, value⟩ := by
  obtain ⟨n, rfl⟩ := Nat.exists_eq_add_of_le' hn
  simp only [recordsFrom, hraw] at h
  obtain ⟨value', hvalue', h⟩ := exists_of_bind h
  obtain rfl := Except.ok.inj (hvalue.symm.trans hvalue')
  obtain ⟨rest, -, h⟩ := exists_of_bind h
  rw [← Except.ok.inj h, List.head?_cons]

/-- The batch of a partition that was fetched starts with the record at its position. -/
theorem exists_batch {rt : Runtime} {positions : TopicPartition → Nat} {plan : Fetch} {n : Nat}
    {batches : Batches} {value : Json} (hplan : (tp, n) ∈ plan.val) (hn : 1 ≤ n)
    (hraw : log tp (positions tp) = some raw) (hvalue : deserialize rt raw.value = .ok value)
    (h : fetchBatches rt log positions plan.val = .ok batches) :
    ∃ records, (tp, records) ∈ batches ∧
      records.head? = some ⟨tp.topic, tp.partition, positions tp, raw.key, value⟩ := by
  obtain ⟨hfst, hmem⟩ := fetchBatches_eq_ok h
  have htp : tp ∈ batches.map Prod.fst := hfst ▸ List.mem_map.mpr ⟨_, hplan, rfl⟩
  obtain ⟨⟨tp, records⟩, hrecords, rfl⟩ := List.mem_map.mp htp
  obtain ⟨n', hn', hfrom⟩ := hmem _ records hrecords
  have hadvance : positions tp + n = positions tp + n' :=
    (advance_of_mem plan.property hplan).symm.trans (advance_of_mem plan.property hn')
  exact ⟨records, hrecords, recordsFrom_head (by omega) hraw hvalue hfrom⟩

/-- **One iteration** that starts at a record of a digestible log passes it, or makes another
attempt of those allowed. -/
theorem IterationAt.progress {record : Record} {value : Json}
    (hfresh : uuids.Fresh worker.runtime log)
    (hgood : ∀ tp offset raw, log tp offset = some raw → Digestible worker.runtime raw.value)
    (hw : Sane uuids w) (hoffset : w.2.positions tp = offset) (hraw : log tp offset = some raw)
    (hvalue : deserialize worker.runtime raw.value = .ok value)
    (hrecord : record = ⟨tp.topic, tp.partition, offset, raw.key, value⟩)
    (h : IterationAt worker log tp w w') : Sane uuids w' ∧
      (Passed worker uuids tp offset raw w' ∨ w'.2.positions tp = offset ∧
        w.attemptsAt record + 1 < worker.maxProcessingAttempts ∧
        w'.attemptsAt record = w.attemptsAt record + 1) := by
  subst hrecord hoffset
  obtain ⟨clock, plan, n, choices, hplan, hn, hw'⟩ := h
  obtain ⟨batches, hfetch⟩ := fetchBatches_isOk
    (fun tp offset raw hraw => (hgood tp offset raw hraw).imp fun _ h => h.1) w.2.positions plan.val
  have hpolled := execute_pollIteration clock plan choices w' hw'
  simp only [hfetch] at hpolled
  obtain ⟨out, hends⟩ := hpolled
  have hpending : Pending worker.runtime log uuids w.2.positions (w.polled plan) batches :=
    pending_of_fetch hfresh.not_deadLetterId hfetch
      fun _ _ _ hge hlt => absurd hlt (Nat.not_lt_of_le hge)
  have hnotStuck : ∀ tp records, (tp, records) ∈ batches → ∀ record ∈ records,
      ¬ record.Stuck worker.runtime := by
    rintro tp records hmem record hrecord ⟨⟨e, hinvalid⟩, hnot⟩
    obtain ⟨_, hbatch, -⟩ := hpending.batch tp records hmem
    obtain ⟨raw, hraw, hdecoded⟩ := hbatch.mem hrecord
    obtain ⟨json, hjson, hvalid⟩ := hgood _ _ raw hraw
    obtain rfl := Except.ok.inj (hjson.symm.trans hdecoded)
    rcases hvalid with ⟨fields, hvalid⟩ | hdeadLetterable
    · cases hvalid.symm.trans hinvalid
    · exact hnot hdeadLetterable
  obtain ⟨-, hsane, hhandled, hprogress⟩ :=
    hends.of_safe (handlePolled_safe hfresh hw hfetch hnotStuck)
  obtain ⟨records, hmem, hhead⟩ := exists_batch hplan hn hraw hvalue hfetch
  refine ⟨hsane, ?_⟩
  rcases hprogress tp records hmem _ hhead with hpast | hagain
  · exact .inl ⟨hpast, hhandled tp _ raw (Nat.le_refl _) hpast hraw⟩
  · exact .inr hagain

/-- **Iterations** that start at a record of a digestible log. -/
theorem IterationsAt.progress {record : Record} {value : Json} {n : Nat}
    (hfresh : uuids.Fresh worker.runtime log)
    (hgood : ∀ tp offset raw, log tp offset = some raw → Digestible worker.runtime raw.value)
    (hw : Sane uuids w) (hoffset : w.2.positions tp = offset) (hraw : log tp offset = some raw)
    (hvalue : deserialize worker.runtime raw.value = .ok value)
    (hrecord : record = ⟨tp.topic, tp.partition, offset, raw.key, value⟩)
    (h : IterationsAt worker log tp offset n w w') : Sane uuids w' ∧
      (Passed worker uuids tp offset raw w' ∨ w'.2.positions tp = offset ∧
        (n = 0 ∨ n < worker.maxProcessingAttempts) ∧ n ≤ w'.attemptsAt record) := by
  induction h with
  | refl w => exact ⟨hw, .inr ⟨hoffset, .inl rfl, Nat.zero_le _⟩⟩
  | @step n w v w' _ hposition hiteration ih =>
    obtain ⟨hv, hprogress⟩ := ih hw hoffset
    obtain ⟨hw', hpassed | ⟨hposition', hlt, hattempts⟩⟩ :=
      hiteration.progress hfresh hgood hv hposition hraw hvalue hrecord
    · exact ⟨hw', .inl hpassed⟩
    · rcases hprogress with ⟨hpast, -⟩ | ⟨-, -, hn⟩
      · omega
      · exact ⟨hw', .inr ⟨hposition', .inr (by omega), by omega⟩⟩

end Iterations

end AxSentinel
