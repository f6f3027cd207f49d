import AxSentinel.Binary64
import AxSentinel.Detection
import AxSentinel.Dynamo
import Mathlib.Data.Rat.Defs

/-! # The records of the services

The Pydantic models of the incident, work-order and AI-analysis services, and
the `Entity` their tables hold.  Numbers the source keeps as floats are
rationals, and floats where it computes with them; times are counts of
microseconds, and a bound on the length of a text is part of its type, so that a
record that validation would refuse cannot be built.
-/
namespace AxSentinel
open Python (PyFloat Str)

/-- A time, in microseconds. -/
abbrev Instant := Nat

/-- A text of at least `lo` and at most `hi` characters. -/
abbrev Text (lo hi : Nat) := {s : String // lo ≤ s.length ∧ s.length ≤ hi}

/-! ## Authentication -/

/-- `shared/auth.py`: the roles a principal may hold. -/
inductive Role where
  | operatorManager | fieldWorker | systemAdmin
deriving DecidableEq, Repr

/-- The authenticated caller. -/
structure Principal where
  subject : String
  username : String
  roles : List Role
deriving DecidableEq, Repr

/-! ## Incident service -/

inductive IncidentStatus where
  | detected | analyzing | reviewRequired | approved | inProgress | resolved
deriving DecidableEq, Repr

def IncidentStatus.value : IncidentStatus → String
  | detected => "detected"
  | analyzing => "analyzing"
  | reviewRequired => "review_required"
  | approved => "approved"
  | inProgress => "in_progress"
  | resolved => "resolved"

structure VirtualIncidentRequest where
  equipmentId : String
  sensorType : String
  measuredValue : Python.FiniteFloat
  threshold : Python.FiniteFloat
  errorCode : String
  logExcerpt : Text 0 2000
deriving DecidableEq, Repr

structure Incident where
  id : String
  equipmentId : String
  status : IncidentStatus
  severity : String
  detectedAt : Instant
  payload : VirtualIncidentRequest
  source : String
  telemetryId : Option String
deriving DecidableEq, Repr

structure IncidentStatusUpdate where
  status : IncidentStatus
deriving DecidableEq, Repr

structure TelemetryRequest where
  equipmentId : String
  sensorType : String
  measuredValue : Python.FiniteFloat
  unit : String
  threshold : Python.FiniteFloat
  logExcerpt : Text 0 2000
deriving DecidableEq, Repr

structure TelemetryRecord extends TelemetryRequest where
  id : String
  status : String
  receivedAt : Instant
deriving DecidableEq, Repr

/-! ## Work-order service -/

inductive ApprovalDecision where
  | approve | approveWithChanges | reject
deriving DecidableEq, Repr

structure ApprovalRequest where
  analysisId : String
  incidentId : String
  decision : ApprovalDecision
  reviewerId : String
  comment : Text 3 2000
  checklist : List String
deriving DecidableEq, Repr

structure ApprovalRecord extends ApprovalRequest where
  id : String
deriving DecidableEq, Repr

structure WorkOrder where
  id : String
  incidentId : String
  analysisId : String
  status : String
  assigneeId : Option String
  checklist : List String
  completedItems : List String
  photoKeys : List String
  fieldNote : Option String
  actualCause : Option String
  recoveryConfirmed : Bool
deriving DecidableEq, Repr

structure WorkOrderCompletion where
  completedItems : List String
  photoKeys : List String
  fieldNote : Text 3 4000
  actualCause : Text 3 2000
  recoveryConfirmed : Bool
  photoKeys_ne_nil : photoKeys ≠ []
deriving DecidableEq, Repr

/-! ## AI-analysis service -/

inductive RiskLevel where
  | low | medium | high | critical
deriving DecidableEq, Repr

structure AnalysisRequest where
  incidentId : String
  equipmentId : String
  sensorSummary : String
  logSummary : String
  relatedDocumentIds : List String
deriving DecidableEq, Repr

/-- Neither below `lo` nor above `hi`; what is no number is neither. -/
abbrev Bounded (lo hi : ℚ) := {x : PyFloat // x.lt (.finite lo) = false ∧
  (PyFloat.finite hi).lt x = false}

structure CauseCandidate where
  cause : Str
  confidence : Bounded 0 1
  evidence : List Str
deriving DecidableEq, Repr

structure ActionStep where
  sequence : Int
  instruction : Str
  hazardous : Bool
  requiresShutdown : Bool
deriving DecidableEq, Repr

structure AnalysisAudit where
  aiProvider : Str
  modelId : Option Str
  promptVersion : Str
  promptHash : Str
  ragProvider : String
  documentVersions : List (String × Str)
  guardrailId : Option String
  guardrailVersion : Option String
  guardrailAction : Str
  requestId : Option Str
  inputTokens : Int
  outputTokens : Int
  createdAt : Instant
deriving DecidableEq, Repr

structure AnalysisResult where
  id : String
  incidentId : String
  riskLevel : RiskLevel
  confidence : PyFloat
  causes : List CauseCandidate
  relatedDocumentIds : List String
  recommendedActions : List ActionStep
  expertReviewRequired : Bool
  managerApprovalRequired : Bool
  reviewReasons : List String
  audit : Option AnalysisAudit
  executable : Bool
deriving DecidableEq, Repr

inductive ReviewStatus where
  | pending | assigned | completed | dismissed
deriving DecidableEq, Repr

structure ExpertReviewCase where
  id : String
  analysisId : String
  incidentId : String
  status : ReviewStatus
  reasons : List String
  riskLevel : RiskLevel
  confidence : PyFloat
  assigneeId : Option String
  resolutionNote : Option String
  createdAt : Instant
  updatedAt : Instant
deriving DecidableEq, Repr

structure ExpertReviewUpdate where
  status : Option ReviewStatus
  assigneeId : Option (Text 0 200)
  resolutionNote : Option (Text 0 4000)
deriving DecidableEq, Repr

/-! ## What the tables hold -/

/-- The data of a stored entity. -/
inductive Entity where
  | telemetry (record : TelemetryRecord)
  | incident (incident : Incident)
  | approval (approval : ApprovalRecord)
  | workOrder (workOrder : WorkOrder)
  | analysis (analysis : AnalysisResult)
  | expertReview (review : ExpertReviewCase)
deriving DecidableEq, Repr

/-- The key an entity is stored under: every service writes a record under its
own type and id. -/
def Entity.key : Entity → Key
  | telemetry r => ⟨.telemetry, r.id⟩
  | incident i => ⟨.incident, i.id⟩
  | approval a => ⟨.approval, a.id⟩
  | workOrder w => ⟨.workOrder, w.id⟩
  | analysis a => ⟨.analysis, a.id⟩
  | expertReview r => ⟨.expertReview, r.id⟩

/-- The status of an incident. -/
def Entity.incidentStatus : Entity → Option IncidentStatus
  | incident i => some i.status
  | _ => none

end AxSentinel
