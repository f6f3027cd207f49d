import AxSentinel.Merging
import AxSentinel.Selection
import Mathlib.Data.Rat.Defs

/-! # The live telemetry of a console

`mergeTelemetry` of `web/src/App.tsx`: what comes in is merged by id, sorted with the newest first,
and cut off after a hundred records.  Each snapshot and each message is merged over what the page
shows.  What was cut off would not be among the newest later either, so the page ends up with the
newest records of all, in whatever batches they came (`receiveAll_newest`). -/
namespace AxSentinel

/-- `Telemetry` of the page. -/
structure Telemetry where
  id : String
  equipmentId : String
  sensorType : String
  measuredValue : ℚ
  unit : String
  threshold : ℚ
  status : String
  receivedAt : String
  logExcerpt : String
deriving DecidableEq

section Merge
variable (dateParse : String → Option Int)

/-- The comparison of the sort, `Date.parse(right.received_at) - Date.parse(left.received_at)`, is
not positive.  The difference is not a number if one of the times cannot be read, and the sort takes
that for zero. -/
def newestFirst (left right : Telemetry) : Bool :=
  match dateParse left.receivedAt, dateParse right.receivedAt with
  | some l, some r => r - l ≤ 0
  | _, _ => true

/-- `mergeTelemetry`. -/
def mergeTelemetry (current incoming : List Telemetry) : List Telemetry :=
  ((Merging.merge Telemetry.id current incoming).mergeSort (newestFirst dateParse)).take 100

/-- `records` after the page has merged batches, one after another. -/
def receiveAll (batches : List (List Telemetry)) : List Telemetry :=
  batches.foldl (mergeTelemetry dateParse) []

/-- When a record was received, as the page reads it. -/
def receivedTime (record : Telemetry) : Int := (dateParse record.receivedAt).getD 0

/-- Records of which an id has one only, and ids that differ have different times. -/
structure Collected (records : Finset Telemetry) : Prop where
  sameRecord : ∀ r ∈ records, ∀ s ∈ records, r.id = s.id → r = s
  parsed : ∀ r ∈ records, ∃ time, dateParse r.receivedAt = some time
  distinct : ∀ r ∈ records, ∀ s ∈ records, r.id ≠ s.id →
    dateParse r.receivedAt ≠ dateParse s.receivedAt

end Merge

/-- The batches have the records, and no others. -/
def Delivers (batches : List (List Telemetry)) (records : Finset Telemetry) : Prop :=
  ∀ r, r ∈ records ↔ ∃ batch ∈ batches, r ∈ batch

section Newest
variable {dateParse : String → Option Int} {records : Finset Telemetry}

theorem newestFirst_eq {left right : Telemetry}
    (hleft : ∃ time, dateParse left.receivedAt = some time)
    (hright : ∃ time, dateParse right.receivedAt = some time) :
    newestFirst dateParse left right = Ranking.desc (receivedTime dateParse) left right := by
  obtain ⟨l, hl⟩ := hleft
  obtain ⟨r, hr⟩ := hright
  unfold newestFirst Ranking.desc receivedTime
  rw [hl, hr]
  simp only [Option.getD_some, decide_eq_decide]
  omega

/-- Records with one time are one. -/
theorem Collected.eq_of_receivedTime (h : Collected dateParse records) {r s : Telemetry}
    (hr : r ∈ records) (hs : s ∈ records)
    (htime : receivedTime dateParse r = receivedTime dateParse s) : r = s := by
  obtain ⟨t, ht⟩ := h.parsed r hr
  obtain ⟨u, hu⟩ := h.parsed s hs
  have hsame : dateParse r.receivedAt = dateParse s.receivedAt := by
    unfold receivedTime at htime
    rw [ht, hu] at htime ⊢
    exact congrArg some htime
  by_contra hne
  by_cases hid : r.id = s.id
  · exact hne (h.sameRecord r hr s hs hid)
  · exact h.distinct r hr s hs hid hsame

/-- Where an id has one record, all records are merged. -/
theorem Collected.mem_merge (h : Collected dateParse records) {current incoming : List Telemetry}
    (hcurrent : ∀ r ∈ current, r ∈ records) (hincoming : ∀ r ∈ incoming, r ∈ records)
    {r : Telemetry} :
    r ∈ Merging.merge Telemetry.id current incoming ↔ r ∈ current ∨ r ∈ incoming := by
  constructor
  · intro hr
    exact (Merging.mem_of_mem_merge hr).elim .inr fun hold => .inl hold.1
  · intro hr
    have hmem : r ∈ records := hr.elim (hcurrent r) (hincoming r)
    refine Merging.mem_setAll (hr.imp_left fun hold => ?_) fun s hs hid =>
      h.sameRecord s (hincoming s hs) r hmem hid
    exact Merging.mem_setAll (.inr hold) fun s hs hid =>
      h.sameRecord s (hcurrent s hs) r hmem hid

/-- A merge has the newest of what is shown and what comes in. -/
theorem Collected.mergeTelemetry_top (h : Collected dateParse records)
    {current incoming : List Telemetry} (hcurrent : ∀ r ∈ current, r ∈ records)
    (hincoming : ∀ r ∈ incoming, r ∈ records) :
    Selection.Top (receivedTime dateParse) 100 (current.toFinset ∪ incoming.toFinset)
      (mergeTelemetry dateParse current incoming) := by
  have hmem : ∀ {r}, r ∈ Merging.merge Telemetry.id current incoming ↔
      r ∈ current ∨ r ∈ incoming := h.mem_merge hcurrent hincoming
  have hrecords : ∀ r ∈ Merging.merge Telemetry.id current incoming, r ∈ records := fun r hr =>
    (hmem.mp hr).elim (hcurrent r) (hincoming r)
  have hset : (Merging.merge Telemetry.id current incoming).toFinset =
      current.toFinset ∪ incoming.toFinset := by
    ext r
    rw [List.mem_toFinset, hmem, Finset.mem_union, List.mem_toFinset, List.mem_toFinset]
  -- all times can be read, so the sort is the one by decreasing time
  have hsort : (Merging.merge Telemetry.id current incoming).mergeSort (newestFirst dateParse) =
      Ranking.sortDesc (receivedTime dateParse)
        (Merging.merge Telemetry.id current incoming) := by
    have hmap := List.map_mergeSort (f := id) (s := Ranking.desc (receivedTime dateParse))
      fun r hr s hs => newestFirst_eq (h.parsed r (hrecords r hr)) (h.parsed s (hrecords s hs))
    rwa [List.map_id, List.map_id] at hmap
  unfold mergeTelemetry
  rw [hsort, ← hset]
  refine Selection.top_take_sortDesc (List.Nodup.of_map Telemetry.id Merging.nodup_merge) ?_
  exact fun r hr s hs => h.eq_of_receivedTime (hrecords r hr) (hrecords s hs)

/-- The page shows the newest of the records that were delivered. -/
theorem Collected.receiveAll_top (h : Collected dateParse records) {batches : List (List Telemetry)}
    (hdelivers : Delivers batches records) :
    Selection.Top (receivedTime dateParse) 100 records (receiveAll dateParse batches) := by
  have hbatches : ∀ batch ∈ batches, ∀ r ∈ batch, r ∈ records := fun batch hbatch r hr =>
    (hdelivers r).mpr ⟨batch, hbatch, hr⟩
  have hempty : Selection.Top (receivedTime dateParse) 100 ∅ ([] : List Telemetry) :=
    ⟨rfl, fun _ hr => absurd hr List.not_mem_nil, .nil, fun _ hr => absurd hr List.not_mem_nil⟩
  have hall : ∅ ∪ batches.flatten.toFinset = records := by
    ext r
    rw [Finset.empty_union, List.mem_toFinset, List.mem_flatten, hdelivers]
  have htop := Selection.Top.foldl (fun _ _ => h.mergeTelemetry_top) hbatches
    (Finset.empty_subset records) hempty
  rwa [hall] at htop

end Newest

/-- **The live view.**  In whatever batches the records of a collection come, the page shows the
hundred newest, each once and the newest first, and it shows the same for all such deliveries. -/
theorem receiveAll_newest {dateParse : String → Option Int} {records : Finset Telemetry}
    {batches : List (List Telemetry)} (h : Collected dateParse records)
    (hdelivers : Delivers batches records) :
    Selection.Top (receivedTime dateParse) 100 records (receiveAll dateParse batches) ∧
      ∀ batches', Delivers batches' records →
        receiveAll dateParse batches' = receiveAll dateParse batches :=
  ⟨h.receiveAll_top hdelivers, fun _ hdelivers' =>
    (h.receiveAll_top hdelivers').unique (h.receiveAll_top hdelivers)⟩

namespace Sample

/-- Two samples of a sensor, a second apart. -/
def first : Telemetry :=
  ⟨"telemetry-1", "PRESS-001", "vibration_rms", 6, "mm/s", 10, "normal", "2025-03-09T07:05:01Z",
    "vibration_rms sample received"⟩

def second : Telemetry :=
  ⟨"telemetry-2", "PRESS-001", "vibration_rms", 11, "mm/s", 10, "critical", "2025-03-09T07:05:02Z",
    "vibration_rms threshold exceeded"⟩

/-- `Date.parse` of their times. -/
def dateParse (text : String) : Option Int :=
  if text = "2025-03-09T07:05:01Z" then some 1741503901000
  else if text = "2025-03-09T07:05:02Z" then some 1741503902000
  else none

theorem collected : Collected dateParse {first, second} where
  sameRecord := by decide
  parsed r hr := by
    rcases Finset.mem_insert.mp hr with rfl | hr
    · exact ⟨1741503901000, rfl⟩
    · obtain rfl := Finset.mem_singleton.mp hr
      exact ⟨1741503902000, rfl⟩
  distinct := by decide

/-- The newer sample comes twice, in a message and in a snapshot. -/
theorem delivers : Delivers [[second], [first, second]] {first, second} := by
  intro r
  simp only [Finset.mem_insert, Finset.mem_singleton, List.mem_cons, List.not_mem_nil, or_false,
    exists_eq_or_imp, exists_eq_left]
  tauto

theorem receiveAll_newest_delivers :
    Selection.Top (receivedTime dateParse) 100 {first, second}
        (receiveAll dateParse [[second], [first, second]]) ∧
      ∀ batches', Delivers batches' {first, second} →
        receiveAll dateParse batches' = receiveAll dateParse [[second], [first, second]] :=
  receiveAll_newest collected delivers

end Sample

end AxSentinel
