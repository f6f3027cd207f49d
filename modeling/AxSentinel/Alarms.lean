import AxSentinel.Platform
import AxSentinel.Sequential

/-! # Alarms of a replica

`ingest_telemetry` stores the sample, publishes it, broadcasts it, feeds it to the
detector, and on a trigger lists the incidents and stores a new one.  A step that
fails ends the request, and nothing takes it up again: a stored sample that does not
reach the detector raises no alarm and counts for no streak
(`not_alarmsKept`).  Of the samples that reach the detector, no alarm is lost unless
the listing or the write of the incident fails (`alarm_kept`). -/
namespace AxSentinel
open Effects Service

/-- An unresolved incident for the sensor is stored. -/
def HasUnresolved (V : View) (sensor : String × String) : Prop :=
  ∃ key incident, V.entities key = some (.incident incident) ∧ incident.status ≠ .resolved ∧
    (incident.equipmentId, incident.payload.sensorType) = sensor

/-! ## The parts of a request -/

/-- `_create_automatic_incident`, up to the write of the incident. -/
def detectIncident (replica : Nat) (telemetry : TelemetryRecord) : Service (Option Incident) := do
  let triggerCode ← .perform platformOps (.inr (.evaluate replica telemetry.signal))
  match triggerCode with
  | none => pure none
  | some triggerCode =>
    let existingValues ← list .incident
    let existingIncidents ← Program.ofExcept (existingValues.mapM Incident.modelValidate)
    if existingIncidents.any (·.duplicates telemetry) then
      pure none
    else
      let id ← uuid4
      let detectedAt ← now
      let incident := Incident.automatic telemetry triggerCode id detectedAt
      put .incident incident.id (.incident incident)
      pure (some incident)

/-- The rest of `_create_automatic_incident`. -/
def announceIncident (incident : Option Incident) : Service (Option Incident) :=
  match incident with
  | none => pure none
  | some incident => do
    publish ⟨"incident.detected", .entity (.incident incident), none, none, true⟩
    broadcast "ax-sentinel.incidents" (.incident incident)
    pure (some incident)

/-- The two parts make up `_create_automatic_incident`. -/
theorem createAutomaticIncident_eq (replica : Nat) (telemetry : TelemetryRecord) :
    createAutomaticIncident replica telemetry =
      detectIncident replica telemetry >>= announceIncident := by
  unfold createAutomaticIncident detectIncident
  rw [bind_assoc]
  congr 1
  funext triggerCode
  cases triggerCode with
  | none => rfl
  | some triggerCode =>
    simp only [bind_assoc]
    congr 1
    funext values
    congr 1
    funext incidents
    split
    · rfl
    · simp only [bind_assoc]
      rfl

section Rules
variable {V : View}

theorem ensures_recordTelemetry (request : TelemetryRequest) (principal : Principal) :
    Ensures (recordTelemetry request principal) (fun _ V' => V'.detectors = V.detectors) V := by
  unfold recordTelemetry
  refine ensures_requireRoles (fun _ => ?_) fun _ => rfl
  refine ensures_uuid4 fun id => ensures_now fun receivedAt => ?_
  refine ensures_put ?_ fun _ _ => ⟨rfl, rfl⟩
  exact ensures_publish (ensures_broadcast (ensures_ret rfl) fun _ _ => rfl) fun _ _ => rfl

theorem ensures_announceIncident (incident : Option Incident) :
    Ensures (announceIncident incident) (fun _ V' => V' = V) V := by
  cases incident with
  | none => exact ensures_ret rfl
  | some incident =>
    exact ensures_publish (ensures_broadcast (ensures_ret rfl) fun _ _ => rfl) fun _ _ => rfl

/-- A sample that triggers the detector leaves an unresolved incident for its sensor,
unless the listing or the write fails. -/
theorem ensures_detectIncident (replica : Nat) (telemetry : TelemetryRecord) :
    Ensures (detectIncident replica telemetry) (fun out V' =>
      V'.detectors = (V.evaluate replica telemetry.signal).detectors ∧
        (out.isOk = true → ((V.detectors replica).evaluate telemetry.signal).1.isSome = true →
          HasUnresolved V' telemetry.signal.key)) V := by
  unfold detectIncident
  refine ensures_evaluate ?_
  cases htrigger : ((V.detectors replica).evaluate telemetry.signal).1 with
  | none => exact ensures_ret ⟨rfl, fun _ h => nomatch h⟩
  | some triggerCode =>
    refine ensures_list (fun values hvalues => ?_) fun e _ => ⟨rfl, nofun⟩
    refine ensures_ofExcept (fun incidents hincidents => ?_) fun e _ => ⟨rfl, nofun⟩
    split
    · rename_i hduplicate
      refine ensures_ret ⟨rfl, fun _ _ => ?_⟩
      obtain ⟨incident, hmem, hdup⟩ := List.any_eq_true.mp hduplicate
      have hvalue : Entity.incident incident ∈ values := by
        rw [Incident.values_of_modelValidate hincidents]
        exact List.mem_map_of_mem hmem
      obtain ⟨key, hstored, -⟩ := (hvalues _).mp hvalue
      exact ⟨key, incident, hstored, Incident.duplicates_iff.mp hdup⟩
    · refine ensures_uuid4 fun id => ensures_now fun detectedAt => ?_
      refine ensures_put (ensures_ret ⟨rfl, fun _ _ => ?_⟩) fun e _ => ⟨⟨rfl, nofun⟩, rfl, nofun⟩
      exact ⟨_, _, View.store_self .., nofun, rfl⟩

end Rules

/-! ## Sequences of requests -/

/-- How far a request got: its sample did not reach the detector, or it did and the
listing or the write of an incident failed, or none did. -/
inductive Progress where
  | unrecorded
  | undetected (telemetry : TelemetryRecord)
  | detected (telemetry : TelemetryRecord)

/-- One request to the replica, and how far it got. -/
inductive Ingests (replica : Nat) : platform.World → Progress → platform.World → Prop
  | unrecorded {request principal w w' e} :
      platform.Ends (recordTelemetry request principal) w (.error e) w' →
      Ingests replica w .unrecorded w'
  | undetected {request principal w w₁ w' telemetry e} :
      platform.Ends (recordTelemetry request principal) w (.ok telemetry) w₁ →
      platform.Ends (detectIncident replica telemetry) w₁ (.error e) w' →
      Ingests replica w (.undetected telemetry) w'
  | detected {request principal w w₁ w₂ w' telemetry incident out} :
      platform.Ends (recordTelemetry request principal) w (.ok telemetry) w₁ →
      platform.Ends (detectIncident replica telemetry) w₁ (.ok incident) w₂ →
      platform.Ends (announceIncident incident) w₂ out w' →
      Ingests replica w (.detected telemetry) w'

/-- Every request to `ingest_telemetry` gets somewhere. -/
theorem ingests_of_ends {replica : Nat} {request : TelemetryRequest} {principal : Principal}
    {w w' : platform.World} {out : Except Exc TelemetryRecord}
    (hend : platform.Ends (ingestTelemetry replica request principal) w out w') :
    ∃ progress, Ingests replica w progress w' := by
  rcases hend.of_bind with ⟨telemetry, w₁, hrecord, hrest⟩ | ⟨e, -, hrecord⟩
  · have detects : ∀ {out}, platform.Ends (createAutomaticIncident replica telemetry) w₁ out w' →
        ∃ progress, Ingests replica w progress w' := by
      intro out hcreate
      rw [createAutomaticIncident_eq] at hcreate
      rcases hcreate.of_bind with ⟨incident, w₂, hdetect, hannounce⟩ | ⟨e, -, hdetect⟩
      · exact ⟨_, .detected hrecord hdetect hannounce⟩
      · exact ⟨_, .undetected hrecord hdetect⟩
    rcases hrest.of_bind with ⟨incident, w₂, hcreate, hret⟩ | ⟨e, -, hcreate⟩
    · cases hret
      exact detects hcreate
    · exact detects hcreate
  · exact ⟨_, .unrecorded hrecord⟩

/-- A sequence of requests to the replica. -/
inductive Ingested (replica : Nat) (w₀ : platform.World) : List Progress → platform.World → Prop
  | start : Ingested replica w₀ [] w₀
  | next {steps w progress w'} : Ingested replica w₀ steps w → Ingests replica w progress w' →
      Ingested replica w₀ (steps ++ [progress]) w'

/-- The sample the detector was fed, if the request got that far. -/
def Progress.sample : Progress → Option DetectionSignal
  | unrecorded => none
  | undetected telemetry => some telemetry.signal
  | detected telemetry => some telemetry.signal

/-- A request feeds the detector its sample, or nothing. -/
theorem Ingests.detector {replica : Nat} {w w' : platform.World} {progress : Progress}
    (h : Ingests replica w progress w') :
    w'.2.detectors replica = (w.2.detectors replica).feed progress.sample.toList := by
  have recorded : ∀ {request principal out w₁},
      platform.Ends (recordTelemetry request principal) w out w₁ →
      w₁.2.detectors = w.2.detectors :=
    fun hend => (ensures_recordTelemetry _ _).ends hend
  have detected : ∀ {telemetry out} {w₁ w₂ : platform.World}, w₁.2.detectors = w.2.detectors →
      platform.Ends (detectIncident replica telemetry) w₁ out w₂ →
      w₂.2.detectors replica = (w.2.detectors replica).feed [telemetry.signal] := by
    intro telemetry out w₁ w₂ hsame hend
    have hview := congrFun ((ensures_detectIncident replica telemetry).ends hend).1 replica
    rw [show w₂.2.detectors = (View.of w₂).detectors from rfl, hview, ← hsame]
    exact Function.update_self ..
  cases h with
  | unrecorded hrecord => exact congrFun (recorded hrecord) replica
  | undetected hrecord hdetect => exact detected (recorded hrecord) hdetect
  | detected hrecord hdetect hannounce =>
    have hsame : View.of w' = View.of _ := (ensures_announceIncident _).ends hannounce
    exact (congrFun (congrArg View.detectors hsame) replica).trans
      (detected (recorded hrecord) hdetect)

/-- The detector of a replica is fed the samples that reached it, in order. -/
theorem Ingested.detector {replica : Nat} {w₀ w : platform.World} {steps : List Progress}
    (h : Ingested replica w₀ steps w) :
    w.2.detectors replica = (w₀.2.detectors replica).feed (steps.filterMap Progress.sample) := by
  induction h with
  | start => rfl
  | @next steps w progress w' _ hstep ih =>
    have hsample : [progress].filterMap Progress.sample = progress.sample.toList := by
      cases progress <;> rfl
    rw [hstep.detector, ih, List.filterMap_append, AnomalyDetector.feed_append, hsample]

/-- **Alarms that are not lost.**  After each request whose sample reached the detector
and whose listing and write of an incident did not fail, if a fresh detector fed with
the samples of that sensor that reached the replica's detector, in order, answers the
sample with a trigger code, an unresolved incident for the sensor is stored. -/
theorem alarm_kept {replica : Nat} {w₀ w w' : platform.World} {steps : List Progress}
    {telemetry : TelemetryRecord}
    (hfresh : w₀.2.detectors replica = .new AnomalyDetector.defaultThreshold)
    (hrun : Ingested replica w₀ steps w) (hlast : Ingests replica w (.detected telemetry) w')
    (htrigger : (((AnomalyDetector.new AnomalyDetector.defaultThreshold).feed
      ((steps.filterMap Progress.sample).filter (·.key = telemetry.signal.key))).evaluate
        telemetry.signal).1.isSome = true) :
    HasUnresolved (View.of w') telemetry.signal.key := by
  have hdetector := hrun.detector
  rw [hfresh] at hdetector
  have hagrees := AnomalyDetector.feed_agreesOn telemetry.signal.key
    (.new AnomalyDetector.defaultThreshold) (steps.filterMap Progress.sample)
  rw [← hagrees.evaluate.1, ← hdetector] at htrigger
  cases hlast with
  | @detected _ _ _ w₁ w₂ _ _ _ _ hrecord hdetect hannounce =>
    have hrecorded : w₁.2.detectors = w.2.detectors := (ensures_recordTelemetry _ _).ends hrecord
    have hannounced : View.of w' = View.of w₂ := (ensures_announceIncident _).ends hannounce
    rw [hannounced]
    refine ((ensures_detectIncident replica telemetry).ends hdetect).2 rfl ?_
    rw [show (View.of w₁).detectors = w.2.detectors from hrecorded]
    exact htrigger

namespace Sample

/-- The record of a warning. -/
def warned (id : String) : TelemetryRecord := .received warning id 0

/-- The event broker is down when the sample is published. -/
def brokerDown : List platform.Choice :=
  List.replicate 5 default ++
    [(default, .lost (.other "KafkaTimeoutError" "Failed to update metadata"))]

/-- The replica takes such a sample in; nothing fails. -/
def ingest (telemetry : TelemetryRecord) (incident : Option Incident) (w : platform.World) :
    platform.World :=
  let recorded := Machine.execute [] (recordTelemetry warning manager) w
  let detected := Machine.execute [] (detectIncident 0 telemetry) recorded.2
  (Machine.execute [] (announceIncident incident) detected.2).2

theorem ingests_ingest {telemetry : TelemetryRecord} {incident : Option Incident}
    {w : platform.World}
    (hrecord : (Machine.execute [] (recordTelemetry warning manager) w).1 = .ok telemetry)
    (hdetect : (Machine.execute [] (detectIncident 0 telemetry)
      (Machine.execute [] (recordTelemetry warning manager) w).2).1 = .ok incident) :
    Ingests 0 w (.detected telemetry) (ingest telemetry incident w) := by
  have hrecorded := platform.ends_execute [] (recordTelemetry warning manager) w
  have hdetected := platform.ends_execute [] (detectIncident 0 telemetry)
    (Machine.execute [] (recordTelemetry warning manager) w).2
  rw [hrecord] at hrecorded
  rw [hdetect] at hdetected
  exact .detected hrecorded hdetected (platform.ends_execute ..)

/-- The first warning, a request that fails, and the second warning. -/
def warnedOnce : platform.World := ingest (warned "") none (initialWorld .unary)

def warnedUnpublished : platform.World :=
  (Machine.execute brokerDown (recordTelemetry warning manager) warnedOnce).2

def warnedTwice : platform.World := ingest (warned "aa") none warnedUnpublished

/-- The third warning in a row triggers the detector. -/
def warnedThrice : platform.World :=
  ingest (warned "aaa") (some (.automatic (warned "aaa") "AUTO-WARNING-STREAK" "aaaa" 0))
    warnedTwice

theorem ingested_warnedTwice : Ingested 0 (initialWorld .unary)
    [.detected (warned ""), .unrecorded, .detected (warned "aa")] warnedTwice := by
  have hfailed : platform.Ends (recordTelemetry warning manager) warnedOnce
      (Machine.execute brokerDown (recordTelemetry warning manager) warnedOnce).1
      warnedUnpublished := Machine.ends_execute ..
  rw [show (Machine.execute brokerDown (recordTelemetry warning manager) warnedOnce).1 =
    .error (.other "KafkaTimeoutError" "Failed to update metadata") by decide +kernel] at hfailed
  refine .next (.next (.next .start (ingests_ingest ?_ ?_)) (.unrecorded hfailed))
    (ingests_ingest ?_ ?_)
  all_goals decide +kernel

end Sample

/-- Three warnings, and a request that failed between them. -/
theorem alarm_kept_warned :
    HasUnresolved (View.of Sample.warnedThrice) ("pump-1", "temperature") := by
  have hlast : Ingests 0 Sample.warnedTwice (.detected (Sample.warned "aaa")) Sample.warnedThrice :=
    Sample.ingests_ingest (by decide +kernel) (by decide +kernel)
  exact alarm_kept rfl Sample.ingested_warnedTwice hlast (by decide +kernel)

/-- The record of the critical sample, the first one stored. -/
def criticalRecord : TelemetryRecord := .received Sample.telemetry "" 0

/-- The sample was stored between the two worlds. -/
def Stored (telemetry : TelemetryRecord) (w w' : platform.World) : Prop :=
  entity ⟨.telemetry, telemetry.id⟩ w = none ∧
    entity ⟨.telemetry, telemetry.id⟩ w' = some (.telemetry telemetry)

/-- A sequence of requests to the replica, with the samples that were stored. -/
inductive Stores (replica : Nat) (w₀ : platform.World) :
    List TelemetryRecord → platform.World → Prop
  | start : Stores replica w₀ [] w₀
  | stored {samples w request principal out w' telemetry} : Stores replica w₀ samples w →
      platform.Ends (ingestTelemetry replica request principal) w out w' →
      Stored telemetry w w' → Stores replica w₀ (samples ++ [telemetry]) w'
  | refused {samples w request principal out w'} : Stores replica w₀ samples w →
      platform.Ends (ingestTelemetry replica request principal) w out w' →
      (∀ telemetry, ¬ Stored telemetry w w') → Stores replica w₀ samples w'

/-- No alarm is lost: after each request whose sample was stored, and on which a fresh
detector fed with the stored samples of the sensor answers with a trigger code, an
unresolved incident for the sensor is stored. -/
def AlarmsKept (replica : Nat) (w₀ : platform.World) : Prop :=
  ∀ samples w request principal out w' telemetry, Stores replica w₀ samples w →
    platform.Ends (ingestTelemetry replica request principal) w out w' → Stored telemetry w w' →
    (((AnomalyDetector.new AnomalyDetector.defaultThreshold).feed
      ((samples.map TelemetryRecord.signal).filter (·.key = telemetry.signal.key))).evaluate
        telemetry.signal).1.isSome = true →
    HasUnresolved (View.of w') telemetry.signal.key

/-- The sample is stored, and the event broker is down when it is published. -/
def unpublished : Except Exc TelemetryRecord × platform.World :=
  Machine.execute Sample.brokerDown (ingestTelemetry 0 Sample.telemetry Sample.manager)
    (initialWorld .unary)

/-- Alarms are lost. -/
theorem not_alarmsKept : ¬ ∀ replica uuids, AlarmsKept replica (initialWorld uuids) := by
  intro hall
  have hstored : Stored criticalRecord (initialWorld .unary) unpublished.2 := by
    unfold Stored
    decide +kernel
  have hends : platform.Ends (ingestTelemetry 0 Sample.telemetry Sample.manager)
      (initialWorld .unary) unpublished.1 unpublished.2 := Machine.ends_execute ..
  obtain ⟨key, incident, hincident, -⟩ := hall 0 .unary [] _ _ _ _ _ _ .start hends hstored
    (by decide +kernel)
  have hkeys : unpublished.2.1.keys = [⟨.telemetry, ""⟩] := by decide +kernel
  have hkey := mem_keys_of_entity hincident
  rw [hkeys] at hkey
  obtain rfl := List.mem_singleton.mp hkey
  cases hstored.2.symm.trans hincident

end AxSentinel
