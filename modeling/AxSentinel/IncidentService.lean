import AxSentinel.Service

/-! # The incident service

`services/incident/app/main.py`: telemetry ingestion with automatic detection,
simulated incidents, and status changes. -/
namespace AxSentinel
open Effects Service Python

/-- `Incident.model_validate`. -/
def Incident.modelValidate : Entity → Except Exc Incident
  | .incident i => .ok i
  | _ => .error (.validationError "Incident")

theorem Incident.modelValidate_eq_ok {value : Entity} {incident : Incident} :
    modelValidate value = .ok incident ↔ value = .incident incident := by
  cases value <;> simp [modelValidate]

/-- A list of values validates only if all of them are incidents. -/
theorem Incident.values_of_modelValidate {values : List Entity} {incidents : List Incident}
    (h : values.mapM modelValidate = .ok incidents) : values = incidents.map .incident := by
  induction values generalizing incidents with
  | nil =>
    obtain rfl := Except.ok.inj h
    rfl
  | cons value values ih =>
    rw [List.mapM_cons] at h
    obtain ⟨incident, hvalue, h⟩ := exists_of_bind h
    obtain ⟨rest, hvalues, h⟩ := exists_of_bind h
    obtain rfl := Except.ok.inj h
    rw [List.map_cons, ih hvalues, modelValidate_eq_ok.mp hvalue]

/-- `ALLOWED_TRANSITIONS`. -/
def allowedTransitions : IncidentStatus → List IncidentStatus
  | .detected => [.analyzing]
  | .analyzing => [.reviewRequired, .approved]
  | .reviewRequired => [.approved]
  | .approved => [.inProgress]
  | .inProgress => [.resolved]
  | .resolved => []

/-- The sample a detector sees of a telemetry record. -/
def TelemetryRecord.signal (telemetry : TelemetryRecord) : DetectionSignal :=
  ⟨telemetry.equipmentId, telemetry.sensorType, telemetry.status⟩

/-- The incident is unresolved and about the sensor of the telemetry record. -/
def Incident.duplicates (incident : Incident) (telemetry : TelemetryRecord) : Bool :=
  incident.status ≠ .resolved && incident.equipmentId = telemetry.equipmentId &&
    incident.payload.sensorType = telemetry.sensorType

theorem Incident.duplicates_iff {incident : Incident} {telemetry : TelemetryRecord} :
    incident.duplicates telemetry = true ↔ incident.status ≠ .resolved ∧
      (incident.equipmentId, incident.payload.sensorType) = telemetry.signal.key := by
  simp [duplicates, TelemetryRecord.signal, DetectionSignal.key, and_assoc]

/-- The incident `_create_automatic_incident` builds. -/
def Incident.automatic (telemetry : TelemetryRecord) (triggerCode : String) (id : String)
    (detectedAt : Instant) : Incident where
  id := id
  equipmentId := telemetry.equipmentId
  status := .detected
  severity := if telemetry.status = "critical" then "critical" else "high"
  detectedAt := detectedAt
  payload :=
    { equipmentId := telemetry.equipmentId
      sensorType := telemetry.sensorType
      measuredValue := telemetry.measuredValue
      threshold := telemetry.threshold
      errorCode := triggerCode
      logExcerpt := telemetry.logExcerpt }
  source := "automatic"
  telemetryId := some telemetry.id

/-- `_create_automatic_incident`, in the given replica. -/
def createAutomaticIncident (replica : Nat) (telemetry : TelemetryRecord) :
    Service (Option Incident) := do
  let triggerCode ← .perform platformOps (.inr (.evaluate replica telemetry.signal))
  match triggerCode with
  | none => pure none
  | some triggerCode =>
    let existingValues ← list .incident
    let existingIncidents ← Program.ofExcept (existingValues.mapM Incident.modelValidate)
    if existingIncidents.any (·.duplicates telemetry) then
      pure none
    else
      let id ← uuid4
      let detectedAt ← now
      let incident := Incident.automatic telemetry triggerCode id detectedAt
      put .incident incident.id (.incident incident)
      publish ⟨"incident.detected", .entity (.incident incident), none, none, true⟩
      broadcast "ax-sentinel.incidents" (.incident incident)
      pure (some incident)

/-- The float `1.2`. -/
def criticalRatio : ℚ := Binary64.round 1.2

/-- The status of a sample, from its ratio to the threshold. -/
def telemetryStatus (measuredValue threshold : FiniteFloat) : String :=
  let ratio : PyFloat :=
    if (threshold : ℚ) ≠ 0 then .ofRat (measuredValue / threshold) else .finite 0
  if PyFloat.le (.finite criticalRatio) ratio then "critical"
  else if PyFloat.le (.finite 1) ratio then "warning"
  else "normal"

/-- The record `ingest_telemetry` stores. -/
def TelemetryRecord.received (request : TelemetryRequest) (id : String) (receivedAt : Instant) :
    TelemetryRecord where
  toTelemetryRequest := request
  id := id
  status := telemetryStatus request.measuredValue request.threshold
  receivedAt := receivedAt

/-- `ingest_telemetry`, up to the detection of anomalies: the sample is stored,
published and broadcast. -/
def recordTelemetry (request : TelemetryRequest) (principal : Principal) :
    Service TelemetryRecord := do
  requireRoles [.operatorManager, .systemAdmin] principal
  let id ← uuid4
  let receivedAt ← now
  let telemetry := TelemetryRecord.received request id receivedAt
  put .telemetry telemetry.id (.telemetry telemetry)
  publish ⟨"telemetry.received", .entity (.telemetry telemetry), some telemetry.equipmentId,
    some principal.subject, false⟩
  broadcast "ax-sentinel.telemetry" (.telemetry telemetry)
  pure telemetry

/-- `ingest_telemetry`, in the given replica. -/
def ingestTelemetry (replica : Nat) (request : TelemetryRequest) (principal : Principal) :
    Service TelemetryRecord := do
  let telemetry ← recordTelemetry request principal
  let _ ← createAutomaticIncident replica telemetry
  pure telemetry

/-- The incident `simulate_incident` builds. -/
def Incident.simulated (request : VirtualIncidentRequest) (id : String) (detectedAt : Instant) :
    Incident where
  id := id
  equipmentId := request.equipmentId
  status := .detected
  severity :=
    if PyFloat.le (.ofRat (request.threshold * criticalRatio)) (.finite request.measuredValue) then
      "critical"
    else "high"
  detectedAt := detectedAt
  payload := request
  source := "manual"
  telemetryId := none

/-- `simulate_incident`. -/
def simulateIncident (request : VirtualIncidentRequest) (principal : Principal) :
    Service Incident := do
  requireRoles [.operatorManager, .systemAdmin] principal
  let id ← uuid4
  let detectedAt ← now
  let incident := Incident.simulated request id detectedAt
  put .incident incident.id (.incident incident)
  publish ⟨"incident.detected", .entity (.incident incident), some incident.id,
    some principal.subject, true⟩
  broadcast "ax-sentinel.incidents" (.incident incident)
  pure incident

/-- `update_incident_status`. -/
def updateIncidentStatus (incidentId : String) (update : IncidentStatusUpdate)
    (principal : Principal) : Service Incident := do
  requireRoles [.operatorManager, .fieldWorker, .systemAdmin] principal
  let value ← get .incident incidentId
  match value with
  | none => throw (.http 404 "Incident not found")
  | some value =>
    let incident ← Program.ofExcept (Incident.modelValidate value)
    if update.status ∉ allowedTransitions incident.status then
      throw (.http 409 ("Invalid transition: " ++ incident.status.value ++ " -> " ++
        update.status.value))
    else
      let previousStatus := incident.status
      let incident := { incident with status := update.status }
      put .incident incident.id (.incident incident)
      publish ⟨"incident.status_changed", .statusChanged incident.id incident.id
        incident.equipmentId previousStatus incident.status, some incident.id,
        some principal.subject, false⟩
      broadcast "ax-sentinel.incidents" (.incident incident)
      pure incident

end AxSentinel
