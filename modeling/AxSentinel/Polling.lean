import AxSentinel.Handling

/-! # What one poll leads to

A poll moves the positions past the records it returns before any of them is handled.
`Batch` relates the records of a partition to the offsets they were fetched from;
`handleRecords_safe` and `handleBatches_safe` say where the loops over them leave the
positions: all that was handled below a position is handled up to where it is then, unless an
exception left the loops. -/
namespace AxSentinel
open Effects Worker
open Python (Json Str)

/-- The records of a partition at the offsets from `start` up to `stop`, in order. -/
inductive Batch (rt : Runtime) (log : Log) (tp : TopicPartition) : Nat → List Record → Nat → Prop
  | nil {start stop} : start ≤ stop → (∀ offset, start ≤ offset → offset < stop →
      log tp offset = none) → Batch rt log tp start [] stop
  | cons {start stop offset raw value records} : start ≤ offset →
      (∀ o, start ≤ o → o < offset → log tp o = none) → log tp offset = some raw →
      deserialize rt raw.value = .ok value → Batch rt log tp (offset + 1) records stop →
      Batch rt log tp start (⟨tp.topic, tp.partition, offset, raw.key, value⟩ :: records) stop

section Fetch
variable {rt : Runtime} {log : Log} {tp : TopicPartition}

/-- An offset without a record may be skipped. -/
theorem Batch.skip {start stop : Nat} {records : List Record} (hnone : log tp start = none)
    (h : Batch rt log tp (start + 1) records stop) : Batch rt log tp start records stop := by
  have skipped : ∀ {o}, start ≤ o → (start + 1 ≤ o → log tp o = none) → log tp o = none := by
    intro o ho hrest
    rcases Nat.eq_or_lt_of_le ho with rfl | hlt
    · exact hnone
    · exact hrest hlt
  cases h with
  | nil hle hempty =>
    exact .nil (Nat.le_of_succ_le hle) fun o ho hstop => skipped ho fun h => hempty o h hstop
  | cons hle hempty hraw hvalue hrest =>
    exact .cons (Nat.le_of_succ_le hle) (fun o ho hstop => skipped ho fun h => hempty o h hstop)
      hraw hvalue hrest

theorem batch_of_recordsFrom {n start : Nat} {records : List Record}
    (h : recordsFrom rt log tp start n = .ok records) :
    Batch rt log tp start records (start + n) := by
  induction n generalizing start records with
  | zero =>
    obtain rfl := Except.ok.inj h
    exact .nil (Nat.le_refl _) fun o ho hlt => absurd hlt (Nat.not_lt_of_le ho)
  | succ n ih =>
    rw [Nat.add_comm n 1, ← Nat.add_assoc]
    unfold recordsFrom at h
    cases hraw : log tp start with
    | none =>
      rw [hraw] at h
      exact .skip hraw (ih h)
    | some raw =>
      rw [hraw] at h
      obtain ⟨value, hvalue, h⟩ := exists_of_bind h
      obtain ⟨rest, hrest, h⟩ := exists_of_bind h
      obtain rfl := Except.ok.inj h
      exact .cons (Nat.le_refl _) (fun o ho hlt => absurd hlt (Nat.not_lt_of_le ho)) hraw
        hvalue (ih hrest)

/-- What a poll fetched: a batch for each partition of the plan. -/
theorem fetchBatches_eq_ok {positions : TopicPartition → Nat} {plan : List (TopicPartition × Nat)}
    {batches : Batches} (h : fetchBatches rt log positions plan = .ok batches) :
    batches.map Prod.fst = plan.map Prod.fst ∧ ∀ tp records, (tp, records) ∈ batches →
      ∃ n, (tp, n) ∈ plan ∧ recordsFrom rt log tp (positions tp) n = .ok records := by
  induction plan generalizing batches with
  | nil =>
    obtain rfl := Except.ok.inj h
    exact ⟨rfl, nofun⟩
  | cons fetch plan ih =>
    obtain ⟨tp, n⟩ := fetch
    unfold fetchBatches at h
    obtain ⟨records, hrecords, h⟩ := exists_of_bind h
    obtain ⟨rest, hrest, h⟩ := exists_of_bind h
    obtain rfl := Except.ok.inj h
    obtain ⟨hfst, hmem⟩ := ih hrest
    refine ⟨by rw [List.map_cons, List.map_cons, hfst], fun tp' records' h => ?_⟩
    rcases List.mem_cons.mp h with heq | h
    · obtain ⟨rfl, rfl⟩ := Prod.mk.inj heq
      exact ⟨n, List.mem_cons_self, hrecords⟩
    · obtain ⟨n', hn', hrecords'⟩ := hmem tp' records' h
      exact ⟨n', List.mem_cons_of_mem _ hn', hrecords'⟩

theorem advance_of_mem {positions : TopicPartition → Nat} {plan : List (TopicPartition × Nat)}
    (hnodup : (plan.map Prod.fst).Nodup) {n : Nat} (h : (tp, n) ∈ plan) :
    advance positions plan tp = positions tp + n := by
  induction plan with
  | nil => cases h
  | cons fetch plan ih =>
    obtain ⟨hnotin, hnodup⟩ := List.nodup_cons.mp hnodup
    rcases List.mem_cons.mp h with rfl | h
    · simp [advance]
    · have hne : tp ≠ fetch.1 := fun heq => hnotin (heq ▸ List.mem_map.mpr ⟨_, h, rfl⟩)
      simp [advance, hne, ih hnodup h]

theorem advance_of_notMem {positions : TopicPartition → Nat} {plan : List (TopicPartition × Nat)}
    (h : tp ∉ plan.map Prod.fst) : advance positions plan tp = positions tp := by
  induction plan with
  | nil => rfl
  | cons fetch plan ih =>
    rw [List.map_cons, List.mem_cons, not_or] at h
    simp [advance, h.1, ih h.2]

end Fetch

/-- The records of a partition from an offset up to another are handled. -/
def HandledBetween (rt : Runtime) (log : Log) (uuids : UuidSupply) (w : KafkaWorld)
    (tp : TopicPartition) (first stop : Nat) : Prop :=
  ∀ offset raw, first ≤ offset → offset < stop → log tp offset = some raw → ∃ value,
    deserialize rt raw.value = .ok value ∧
      Record.Handled rt uuids ⟨tp.topic, tp.partition, offset, raw.key, value⟩ w

/-- The record is invalid, and no dead letter can be built of it. -/
def Record.Stuck (rt : Runtime) (record : Record) : Prop :=
  (∃ e, EnvelopeFields.validate rt record.value = .error e) ∧ ¬ DeadLetterable rt record.value

/-- Between the worlds, nothing changed that belongs to other partitions. -/
def OnlyIn (tps : List TopicPartition) (w w' : KafkaWorld) : Prop :=
  ∀ tp ∉ tps, w'.2.positions tp = w.2.positions tp ∧
    ∀ offset, w'.2.attempts (tp.topic, tp.partition, offset) =
      w.2.attempts (tp.topic, tp.partition, offset)

theorem OnlyIn.trans {tps tps' : List TopicPartition} {a b c : KafkaWorld} (hab : OnlyIn tps a b)
    (hbc : OnlyIn tps' b c) : OnlyIn (tps ++ tps') a c := by
  intro tp htp
  rw [List.mem_append, not_or] at htp
  obtain ⟨hpositions, hattempts⟩ := hab tp htp.1
  obtain ⟨hpositions', hattempts'⟩ := hbc tp htp.2
  exact ⟨hpositions'.trans hpositions, fun offset => (hattempts' offset).trans (hattempts offset)⟩

theorem OnlyFor.onlyIn {record : Record} {w w' : KafkaWorld} (h : OnlyFor record w w') :
    OnlyIn [record.topicPartition] w w' := by
  intro tp htp
  refine ⟨congrFun h.positions tp, fun offset => h.attempts _ fun heq => htp ?_⟩
  obtain ⟨htopic, hrest⟩ := Prod.mk.inj heq
  rw [List.mem_singleton, Record.topicPartition, ← htopic, ← (Prod.mk.inj hrest).1]

/-- What an iteration makes of a record it starts at: the position is past it, or at it with
another attempt made of those allowed. -/
def RecordProgress (worker : KafkaEventWorker) (record : Record) (w w' : KafkaWorld) : Prop :=
  record.offset < w'.2.positions record.topicPartition ∨
    w'.2.positions record.topicPartition = record.offset ∧
      w.attemptsAt record + 1 < worker.maxProcessingAttempts ∧
      w'.attemptsAt record = w.attemptsAt record + 1

section Loops
variable {worker : KafkaEventWorker} {log : Log} {faults : Faults} {uuids : UuidSupply}
  {w w' : KafkaWorld} {tp : TopicPartition}

theorem HandledBetween.grows {rt : Runtime} {first stop : Nat}
    (hids : ∀ k tp offset, uuids.draw k ≠ deadLetterId tp offset)
    (h : HandledBetween rt log uuids w tp first stop) (hgrows : w.Grows w') :
    HandledBetween rt log uuids w' tp first stop := by
  intro offset raw hfirst hlt hraw
  obtain ⟨value, hvalue, hhandled⟩ := h offset raw hfirst hlt hraw
  exact ⟨value, hvalue, hhandled.grows hids hgrows⟩

/-- Offsets without records are handled. -/
theorem HandledBetween.extend {rt : Runtime} {first start stop : Nat}
    (h : HandledBetween rt log uuids w tp first start)
    (hempty : ∀ offset, start ≤ offset → offset < stop → log tp offset = none) :
    HandledBetween rt log uuids w tp first stop := by
  intro offset raw hfirst hlt hraw
  rcases Nat.lt_or_ge offset start with hbelow | hge
  · exact h offset raw hfirst hbelow hraw
  · cases (hempty offset hge hlt).symm.trans hraw

/-- The loop over the records of a batch. -/
theorem handleRecords_safe {first start : Nat} {records : List Record} {processedAny : Bool}
    (hfresh : uuids.Fresh worker.runtime log) (hw : Sane uuids w)
    (hbatch : Batch worker.runtime log tp start records (w.2.positions tp))
    (hbelow : HandledBetween worker.runtime log uuids w tp first start) :
    Safe worker.runtime log faults (Extends uuids w) (worker.handleRecords records processedAny)
      (fun out w' => OnlyIn [tp] w w' ∧
        match out with
        | .ok _ => start ≤ w'.2.positions tp ∧
            HandledBetween worker.runtime log uuids w' tp first (w'.2.positions tp) ∧
            ∀ record ∈ records.head?, RecordProgress worker record w w'
        | .error _ => faults = .any ∨ ∃ record ∈ records, record.Stuck worker.runtime) w := by
  generalize hstop : w.2.positions tp = stop at hbatch
  induction hbatch generalizing w processedAny with
  | @nil start stop hle hempty =>
    refine ⟨hw.extends, fun _ _ => ⟨rfl, fun _ => rfl⟩, hstop ▸ hle, ?_, nofun⟩
    rw [hstop]
    exact hbelow.extend hempty
  | @cons start stop offset raw value records hle hempty hraw hvalue hrest ih =>
    let record : Record := ⟨tp.topic, tp.partition, offset, raw.key, value⟩
    have hnamed : ∀ fields k, EnvelopeFields.validate worker.runtime record.value = .ok fields →
        fields.eventId.map worker.runtime.entityId ≠ some (uuids.draw k) := fun fields k hvalid =>
      hfresh.not_named tp offset raw value fields k hraw hvalue hvalid
    have hbefore : HandledBetween worker.runtime log uuids w tp first offset :=
      hbelow.extend hempty
    refine Machine.safe_bind (Machine.safe_mono
      (processRecordWithRetry_safe hw hfresh.not_deadLetterId hnamed) (fun _ h => h) ?_)
    rintro out w₁ hextends ⟨honly, hout⟩
    have honly' : OnlyIn [tp] w w₁ := honly.onlyIn
    have hbefore' := hbefore.grows hfresh.not_deadLetterId hextends.grows
    rcases out with e | ⟨_ | _⟩
    · exact ⟨honly', hout.imp id fun hstuck => ⟨record, List.mem_cons_self, hstuck⟩⟩
    · -- the record is left to another attempt: the position goes back to it
      let sought : KafkaWorld := (w₁.1,
        { w₁.2 with positions := Function.update w₁.2.positions tp offset })
      have hposition : sought.2.positions tp = offset := Function.update_self ..
      have hsought : Extends uuids w sought :=
        hextends.trans (.of_eq hextends.sane rfl rfl rfl rfl rfl)
      have honly'' : OnlyIn [tp] w sought := by
        intro tp' htp'
        obtain ⟨hpositions, hattempts⟩ := honly' tp' htp'
        refine ⟨?_, hattempts⟩
        rw [← hpositions]
        exact Function.update_of_ne (fun heq => htp' (List.mem_singleton.mpr heq)) ..
      refine safe_perform (v := sought) hextends (fun _ => rfl) ?_ fun hany e =>
        ⟨⟨honly', .inl hany⟩, ⟨honly'', .inl hany⟩⟩
      refine ⟨hsought, honly'', ?_, ?_, ?_⟩
      · rw [hposition]
        exact hle
      · rw [hposition]
        exact hbefore'.grows hfresh.not_deadLetterId (.of_eq rfl rfl)
      · rintro _ ⟨⟩
        exact .inr ⟨hposition, hout⟩
    · have hhandled : HandledBetween worker.runtime log uuids w₁ tp first (offset + 1) := by
        intro o raw' hfirst hlt hraw'
        rcases Nat.lt_or_eq_of_le (Nat.le_of_lt_succ hlt) with hbelow | rfl
        · exact hbefore' o raw' hfirst hbelow hraw'
        · obtain rfl := Option.some.inj (hraw.symm.trans hraw')
          exact ⟨value, hvalue, hout⟩
      have hstop' : w₁.2.positions tp = stop := (congrFun honly.positions tp).trans hstop
      refine Machine.safe_mono (ih hextends.sane hhandled hstop') (fun _ => hextends.trans) ?_
      rintro out w₂ - ⟨honly₂, hout₂⟩
      refine ⟨fun tp' htp' => honly'.trans honly₂ tp' (by simpa using htp'), ?_⟩
      cases out with
      | error e =>
        exact hout₂.imp id fun ⟨stuck, hmem, hstuck⟩ => ⟨stuck, List.mem_cons_of_mem _ hmem, hstuck⟩
      | ok flags =>
        obtain ⟨hpast, hbelow₂, -⟩ := hout₂
        refine ⟨Nat.le_trans hle (Nat.le_of_succ_le hpast), hbelow₂, ?_⟩
        rintro _ ⟨⟩
        exact .inl hpast

theorem OnlyIn.attemptsAt {tps : List TopicPartition} {record : Record} (h : OnlyIn tps w w')
    (hrecord : record.topicPartition ∉ tps) : w'.attemptsAt record = w.attemptsAt record :=
  congrArg (·.getD 0) ((h _ hrecord).2 record.offset)

/-- What belongs to other partitions has no part in a record's progress. -/
theorem RecordProgress.before {tps : List TopicPartition} {record : Record} {v : KafkaWorld}
    (h : RecordProgress worker record w w') (hbefore : OnlyIn tps v w)
    (hrecord : record.topicPartition ∉ tps) : RecordProgress worker record v w' := by
  unfold RecordProgress at h ⊢
  rw [← hbefore.attemptsAt hrecord]
  exact h

theorem RecordProgress.after {tps : List TopicPartition} {record : Record} {v : KafkaWorld}
    (h : RecordProgress worker record w w') (hafter : OnlyIn tps w' v)
    (hrecord : record.topicPartition ∉ tps) : RecordProgress worker record w v := by
  unfold RecordProgress at h ⊢
  rw [(hafter _ hrecord).1, hafter.attemptsAt hrecord]
  exact h

theorem Batch.topicPartition_head {rt : Runtime} {start stop : Nat} {records : List Record}
    (h : Batch rt log tp start records stop) : ∀ record ∈ records.head?,
      record.topicPartition = tp := by
  cases h with
  | nil => exact nofun
  | cons =>
    rintro _ ⟨⟩
    rfl

/-- Batches that are still to be handled: from the given offsets on, all else below the
positions is handled, and so is everything a batch starts after. -/
structure Pending (rt : Runtime) (log : Log) (uuids : UuidSupply) (first : TopicPartition → Nat)
    (w : KafkaWorld) (batches : Batches) : Prop where
  nodup : (batches.map Prod.fst).Nodup
  batch : ∀ tp records, (tp, records) ∈ batches → ∃ start,
    Batch rt log tp start records (w.2.positions tp) ∧
      HandledBetween rt log uuids w tp (first tp) start
  others : ∀ tp ∉ batches.map Prod.fst,
    HandledBetween rt log uuids w tp (first tp) (w.2.positions tp)

/-- The loop over the batches. -/
theorem handleBatches_safe {first : TopicPartition → Nat} {batches : Batches}
    {processedAny batchFailed : Bool}
    (hfresh : uuids.Fresh worker.runtime log) (hw : Sane uuids w)
    (hpending : Pending worker.runtime log uuids first w batches) :
    Safe worker.runtime log faults (Extends uuids w)
      (worker.handleBatches batches processedAny batchFailed) (fun out w' =>
        OnlyIn (batches.map Prod.fst) w w' ∧
          match out with
          | .ok _ => (∀ tp, HandledBetween worker.runtime log uuids w' tp (first tp)
                (w'.2.positions tp)) ∧
              ∀ tp records, (tp, records) ∈ batches →
                ∀ record ∈ records.head?, RecordProgress worker record w w'
          | .error _ => faults = .any ∨ ∃ tp records, (tp, records) ∈ batches ∧
              ∃ record ∈ records, record.Stuck worker.runtime) w := by
  induction batches generalizing w processedAny batchFailed with
  | nil =>
    exact ⟨hw.extends, fun _ _ => ⟨rfl, fun _ => rfl⟩,
      fun tp => hpending.others tp List.not_mem_nil, nofun⟩
  | cons head batches ih =>
    obtain ⟨tp, records⟩ := head
    obtain ⟨hnotin, hnodup⟩ := List.nodup_cons.mp hpending.nodup
    obtain ⟨start, hbatch, hbelow⟩ := hpending.batch tp records List.mem_cons_self
    refine Machine.safe_bind (Machine.safe_mono (handleRecords_safe hfresh hw hbatch hbelow)
      (fun _ h => h) ?_)
    rintro out w₁ hextends ⟨honly, hout⟩
    cases out with
    | error e =>
      refine ⟨fun tp' htp' => honly tp' fun h => htp' ?_, hout.imp id fun hstuck =>
        ⟨tp, records, List.mem_cons_self, hstuck⟩⟩
      exact List.mem_cons.mpr (.inl (List.mem_singleton.mp h))
    | ok flags =>
      obtain ⟨-, hbelow₁, hprogress⟩ := hout
      have hother : ∀ {tp'}, tp' ≠ tp → w₁.2.positions tp' = w.2.positions tp' := fun hne =>
        (honly _ (mt List.mem_singleton.mp hne)).1
      have hpending₁ : Pending worker.runtime log uuids first w₁ batches := by
        refine ⟨hnodup, fun tp' records' hmem => ?_, fun tp' htp' => ?_⟩
        · obtain ⟨start', hbatch', hbelow'⟩ :=
            hpending.batch tp' records' (List.mem_cons_of_mem _ hmem)
          have hne : tp' ≠ tp := by
            rintro rfl
            exact hnotin (List.mem_map.mpr ⟨_, hmem, rfl⟩)
          exact ⟨start', hother hne ▸ hbatch',
            hbelow'.grows hfresh.not_deadLetterId hextends.grows⟩
        · by_cases hne : tp' = tp
          · exact hne ▸ hbelow₁
          · rw [hother hne]
            refine (hpending.others tp' fun h => ?_).grows hfresh.not_deadLetterId hextends.grows
            exact (List.mem_cons.mp h).elim hne htp'
      refine Machine.safe_mono (ih hextends.sane hpending₁) (fun _ => hextends.trans) ?_
      rintro out w₂ - ⟨honly₂, hout₂⟩
      refine ⟨honly.trans honly₂, ?_⟩
      cases out with
      | error e =>
        exact hout₂.imp id fun ⟨tp', records', hmem, hstuck⟩ =>
          ⟨tp', records', List.mem_cons_of_mem _ hmem, hstuck⟩
      | ok flags =>
        refine ⟨hout₂.1, fun tp' records' hmem record hrecord => ?_⟩
        rcases List.mem_cons.mp hmem with heq | hrest
        · obtain ⟨rfl, rfl⟩ := Prod.mk.inj heq
          have htp := hbatch.topicPartition_head record hrecord
          exact (hprogress record hrecord).after honly₂ (htp ▸ hnotin)
        · obtain ⟨start', hbatch', -⟩ := hpending.batch tp' records' hmem
          have htp := hbatch'.topicPartition_head record hrecord
          have hne : tp' ∉ [tp] := fun h =>
            hnotin (List.mem_singleton.mp h ▸ List.mem_map.mpr ⟨_, hrest, rfl⟩)
          exact (hout₂.2 tp' records' hrest record hrecord).before honly (htp ▸ hne)

/-- The world after a poll fetched what its plan says. -/
def KafkaWorld.polled (w : KafkaWorld) (plan : Fetch) : KafkaWorld :=
  (w.1, { w.2 with positions := advance w.2.positions plan.val })

@[simp] theorem KafkaWorld.polled_positions (w : KafkaWorld) (plan : Fetch) :
    (w.polled plan).2.positions = advance w.2.positions plan.val := rfl

theorem Sane.polled (hw : Sane uuids w) (plan : Fetch) : Extends uuids w (w.polled plan) :=
  .of_eq hw rfl rfl rfl rfl rfl

/-- What a poll returns is still to be handled. -/
theorem pending_of_fetch {rt : Runtime} {first : TopicPartition → Nat} {plan : Fetch}
    {batches : Batches}
    (hids : ∀ k tp offset, uuids.draw k ≠ deadLetterId tp offset)
    (h : fetchBatches rt log w.2.positions plan.val = .ok batches)
    (hall : ∀ tp, HandledBetween rt log uuids w tp (first tp) (w.2.positions tp)) :
    Pending rt log uuids first (w.polled plan) batches := by
  obtain ⟨hfst, hmem⟩ := fetchBatches_eq_ok h
  have grown : ∀ {tp stop}, HandledBetween rt log uuids w tp (first tp) stop →
      HandledBetween rt log uuids (w.polled plan) tp (first tp) stop := fun hbelow =>
    hbelow.grows hids (.of_eq rfl rfl)
  refine ⟨hfst ▸ plan.property, fun tp records hin => ?_, fun tp htp => ?_⟩
  · obtain ⟨n, hn, hrecords⟩ := hmem tp records hin
    refine ⟨w.2.positions tp, ?_, grown (hall tp)⟩
    rw [KafkaWorld.polled_positions, advance_of_mem plan.property hn]
    exact batch_of_recordsFrom hrecords
  · rw [KafkaWorld.polled_positions, advance_of_notMem (hfst ▸ htp)]
    exact grown (hall tp)

/-- A poll raises and moves nothing, or returns batches that are still to be handled. -/
theorem safe_poll {rt : Runtime} {I : KafkaWorld → Prop} {β : Type}
    {Q : Except Exc β → KafkaWorld → Prop} {f : Batches → Worker β} (hI : I w)
    (hok : ∀ plan batches, fetchBatches rt log w.2.positions plan.val = .ok batches →
      Safe rt log faults I (f batches) Q (w.polled plan))
    (herr : ∀ e, Q (.error e) w) : Safe rt log faults I (run .poll >>= f) Q w := by
  refine Machine.safe_faulty hI (fun c => ?_) fun e c he => ?_
  · obtain ⟨clock, e | plan⟩ := c
    · exact ⟨hI, herr e⟩
    · cases hfetch : fetchBatches rt log w.2.positions plan.val with
      | error e =>
        simp only [hfetch]
        exact ⟨hI, herr e⟩
      | ok batches =>
        simp only [hfetch]
        exact hok plan batches hfetch
  · obtain rfl := Faults.any_of_raises he
    cases he

end Loops
end AxSentinel
