import AxSentinel.Engine
import AxSentinel.Service

/-! # The AI-analysis service

`services/ai_analysis/app/main.py` and `policy.py`: the review policy, analyses,
and the expert-review queue. -/
namespace AxSentinel
open Effects Service
open Python (Json PyFloat Str)

/-- `ReviewDecision`. -/
structure ReviewDecision where
  expertReviewRequired : Bool
  managerApprovalRequired : Bool
  reasons : List String
deriving DecidableEq, Repr

/-- `0.7`, as a float. -/
def reviewConfidence : ℚ := 6305039478318694 / 2 ^ 53

/-- `value < x`, for a float `x`. -/
def isBelow (value : Json) (x : ℚ) : Except Exc Bool :=
  match value with
  | .bool b => .ok ((if b then 1 else 0 : ℚ) < x)
  | .int n => .ok ((n : ℚ) < x)
  | .float y => .ok (y.lt (.finite x))
  | value => .error (.other "TypeError" ("'<' not supported between instances of '" ++
      value.typeName ++ "' and 'float'"))

/-- `evaluate_review_policy`; nothing says that the confidence is a float. -/
def evaluateReviewPolicy (confidence : Json) (hasRelatedDocuments : Bool) (riskLevel : RiskLevel) :
    Except Exc ReviewDecision := do
  let low ← isBelow confidence reviewConfidence
  let reasons := (if low then ["low_confidence"] else []) ++
    (if hasRelatedDocuments then [] else ["no_related_documents"])
  pure ⟨!reasons.isEmpty, riskLevel ∈ [RiskLevel.high, .critical], reasons⟩

/-- `RiskLevel(value)`. -/
def RiskLevel.ofValue (rt : Runtime) : Json → Except Exc RiskLevel
  | .str (.text "low") => .ok .low
  | .str (.text "medium") => .ok .medium
  | .str (.text "high") => .ok .high
  | .str (.text "critical") => .ok .critical
  | value => .error (.other "ValueError" (rt.repr value ++ " is not a valid RiskLevel"))

/-- The cause in a value, if all of its fields are valid. -/
def CauseCandidate.read (rt : Runtime) (value : Json) : Option CauseCandidate := do
  guard (isDict value)
  let cause ← Field.required (value.get? "cause") Field.str
  let confidence ← Field.required (value.get? "confidence") (Field.bounded rt 0 1)
  let evidence ← Field.required (value.get? "evidence") (Field.list Field.str)
  pure ⟨cause, confidence, evidence⟩

/-- The action in a value, if all of its fields are valid. -/
def ActionStep.read (rt : Runtime) (value : Json) : Option ActionStep := do
  guard (isDict value)
  let sequence ← Field.required (value.get? "sequence") rt.parseInt
  let instruction ← Field.required (value.get? "instruction") Field.str
  let hazardous ← Field.required (value.get? "hazardous") rt.parseBool
  let requiresShutdown ← Field.required (value.get? "requires_shutdown") rt.parseBool
  pure ⟨sequence, instruction, hazardous, requiresShutdown⟩

/-- What was read, or else the exception of the model it was read for. -/
def validated {α : Type} (model : String) : Option α → Except Exc α
  | some value => .ok value
  | none => .error (.validationError model)

/-- `CauseCandidate.model_validate`. -/
def CauseCandidate.modelValidate (rt : Runtime) (value : Json) : Except Exc CauseCandidate :=
  validated "CauseCandidate" (CauseCandidate.read rt value)

/-- `ActionStep.model_validate`. -/
def ActionStep.modelValidate (rt : Runtime) (value : Json) : Except Exc ActionStep :=
  validated "ActionStep" (ActionStep.read rt value)

/-- `[validate(item) for item in generated[name]]`. -/
def validateEach {α : Type} (generated : Json) (name : String)
    (modelValidate : Json → Except Exc α) : Except Exc (List α) := do
  let value ← subscript generated name
  let items ← iterate value
  items.mapM modelValidate

/-- The result `analyze_incident` builds from what `_generate` returned. -/
def AnalysisResult.build (rt : Runtime) (request : AnalysisRequest) (generation : Generation)
    (id : String) : Except Exc AnalysisResult := do
  let generated := generation.generated
  let confidence ← subscript generated "confidence"
  let riskLevel ← subscript generated "risk_level"
  let riskLevel ← RiskLevel.ofValue rt riskLevel
  let decision ← evaluateReviewPolicy confidence (!generation.relatedDocumentIds.isEmpty) riskLevel
  let causes ← validateEach generated "causes" (CauseCandidate.modelValidate rt)
  let recommendedActions ← validateEach generated "recommended_actions"
    (ActionStep.modelValidate rt)
  let confidence ← validated "AnalysisResult" (Field.float rt confidence)
  pure
    { id := id
      incidentId := request.incidentId
      riskLevel := riskLevel
      confidence := confidence
      causes := causes
      relatedDocumentIds := generation.relatedDocumentIds
      recommendedActions := recommendedActions
      expertReviewRequired := decision.expertReviewRequired
      managerApprovalRequired := decision.managerApprovalRequired
      reviewReasons := decision.reasons
      audit := some generation.audit
      executable := false }

/-- An analysis was built from a confidence that is a number and reads as its own, as the policy
decided. -/
structure AnalysisResult.BuiltFrom (result : AnalysisResult) (rt : Runtime)
    (generation : Generation) (confidence : Json) (low : Bool) : Prop where
  given : subscript generation.generated "confidence" = .ok confidence
  below : isBelow confidence reviewConfidence = .ok low
  reads : Field.float rt confidence = some result.confidence
  documents : result.relatedDocumentIds = generation.relatedDocumentIds
  reasons : result.reviewReasons = (if low then ["low_confidence"] else []) ++
    (if generation.relatedDocumentIds = [] then ["no_related_documents"] else [])
  review : result.expertReviewRequired = !result.reviewReasons.isEmpty

theorem validated_eq_ok {α : Type} {model : String} {read : Option α} {value : α} :
    validated model read = .ok value ↔ read = some value := by
  cases read <;> simp [validated]

section Build
variable {rt : Runtime} {request : AnalysisRequest} {generation : Generation} {id : String}
  {result : AnalysisResult}

theorem AnalysisResult.builtFrom_of_build (h : build rt request generation id = .ok result) :
    ∃ confidence low, result.BuiltFrom rt generation confidence low := by
  obtain ⟨confidence, hgiven, h⟩ := exists_of_bind h
  obtain ⟨_, -, h⟩ := exists_of_bind h
  obtain ⟨riskLevel, -, h⟩ := exists_of_bind h
  obtain ⟨decision, hdecision, h⟩ := exists_of_bind h
  obtain ⟨causes, -, h⟩ := exists_of_bind h
  obtain ⟨actions, -, h⟩ := exists_of_bind h
  obtain ⟨read, hread, h⟩ := exists_of_bind h
  obtain rfl := Except.ok.inj h
  obtain ⟨low, hlow, hdecision⟩ := exists_of_bind hdecision
  obtain rfl := Except.ok.inj hdecision
  refine ⟨confidence, low, hgiven, hlow, validated_eq_ok.mp hread, rfl, ?_, rfl⟩
  cases generation.relatedDocumentIds <;> rfl

theorem AnalysisResult.build_id (h : build rt request generation id = .ok result) :
    result.id = id := by
  unfold build at h
  obtain ⟨_, -, h⟩ := exists_of_bind h
  obtain ⟨_, -, h⟩ := exists_of_bind h
  obtain ⟨_, -, h⟩ := exists_of_bind h
  obtain ⟨_, -, h⟩ := exists_of_bind h
  obtain ⟨_, -, h⟩ := exists_of_bind h
  obtain ⟨_, -, h⟩ := exists_of_bind h
  obtain ⟨_, -, h⟩ := exists_of_bind h
  exact Except.ok.inj h ▸ rfl

end Build

/-! ### What the store makes of an analysis

`_dynamodb_value` gives floats as decimals, except the three JSON has no number for. -/

/-- Whether DynamoDB has a number for a float: one from `1E-130` to below `1E+126`, or zero. -/
def hasNumber : PyFloat → Bool
  | .finite q =>
    q = 0 ∨ Binary64.round (1 / 10 ^ 130) ≤ |q| ∧ |q| < Binary64.round (10 ^ 126)
  | _ => false

/-- Whether DynamoDB has a number for an integer: one of at most 38 digits. -/
def hasInteger (n : ℤ) : Bool := |n| < 10 ^ 38

/-- What `put` raises of the numbers of an analysis, after its read. -/
def AnalysisResult.dynamodbValue (result : AnalysisResult) : Except Exc Unit :=
  if hasNumber result.confidence ∧ (∀ cause ∈ result.causes, hasNumber cause.confidence) ∧
      (∀ action ∈ result.recommendedActions, hasInteger action.sequence) ∧
      ∀ audit ∈ result.audit, hasInteger audit.inputTokens ∧ hasInteger audit.outputTokens then
    .ok ()
  else .error (.clientError "ValidationException")

theorem AnalysisResult.dynamodbValue_eq_ok {result : AnalysisResult} :
    result.dynamodbValue = .ok () ↔
      hasNumber result.confidence ∧ (∀ cause ∈ result.causes, hasNumber cause.confidence) ∧
        (∀ action ∈ result.recommendedActions, hasInteger action.sequence) ∧
        ∀ audit ∈ result.audit, hasInteger audit.inputTokens ∧ hasInteger audit.outputTokens := by
  unfold dynamodbValue
  split
  · rename_i h
    exact iff_of_true rfl h
  · rename_i h
    exact iff_of_false nofun h

/-- The review case `analyze_incident` opens. -/
def ExpertReviewCase.opened (result : AnalysisResult) (id : String) (now : Instant) :
    ExpertReviewCase where
  id := id
  analysisId := result.id
  incidentId := result.incidentId
  status := .pending
  reasons := result.reviewReasons
  riskLevel := result.riskLevel
  confidence := result.confidence
  assigneeId := none
  resolutionNote := none
  createdAt := now
  updatedAt := now

/-- `analyze_incident`. -/
def analyzeIncident (rt : Runtime) (request : AnalysisRequest) (principal : Principal) :
    Service AnalysisResult := do
  requireRoles [.operatorManager, .systemAdmin] principal
  let generation ← .perform platformOps (.inr (.generate request))
  let id ← uuid4
  let result ← Program.ofExcept (AnalysisResult.build rt request generation id)
  Program.ofExcept result.dynamodbValue
  put .analysis result.id (.analysis result)
  if result.expertReviewRequired then
    let now ← now
    let id ← uuid4
    let review := ExpertReviewCase.opened result id now
    put .expertReview review.id (.expertReview review)
  publish ⟨"analysis.completed", .entity (.analysis result), some result.incidentId,
    some principal.subject, false⟩
  pure result

/-- `ExpertReviewCase.model_validate`. -/
def ExpertReviewCase.modelValidate : Entity → Except Exc ExpertReviewCase
  | .expertReview r => .ok r
  | _ => .error (.validationError "ExpertReviewCase")

theorem ExpertReviewCase.modelValidate_eq_ok {value : Entity} {review : ExpertReviewCase} :
    modelValidate value = .ok review ↔ value = .expertReview review := by
  cases value <;> simp [modelValidate]

/-- The changes of an update to a review case, before the note is checked. -/
def ExpertReviewCase.updated (review : ExpertReviewCase) (update : ExpertReviewUpdate) :
    ExpertReviewCase :=
  let review :=
    match update.assigneeId with
    | none => review
    | some assignee =>
      { review with
        assigneeId := some assignee.val
        status :=
          if update.status = none ∧ review.status = .pending then .assigned else review.status }
  let review :=
    match update.status with
    | none => review
    | some status => { review with status := status }
  match update.resolutionNote with
  | none => review
  | some note => { review with resolutionNote := some note.val }

@[simp] theorem ExpertReviewCase.updated_id (review : ExpertReviewCase)
    (update : ExpertReviewUpdate) : (review.updated update).id = review.id := by
  obtain ⟨status, assignee, note⟩ := update
  cases status <;> cases assignee <;> cases note <;> rfl

@[simp] theorem ExpertReviewCase.updated_analysisId (review : ExpertReviewCase)
    (update : ExpertReviewUpdate) : (review.updated update).analysisId = review.analysisId := by
  obtain ⟨status, assignee, note⟩ := update
  cases status <;> cases assignee <;> cases note <;> rfl

@[simp] theorem ExpertReviewCase.updated_incidentId (review : ExpertReviewCase)
    (update : ExpertReviewUpdate) : (review.updated update).incidentId = review.incidentId := by
  obtain ⟨status, assignee, note⟩ := update
  cases status <;> cases assignee <;> cases note <;> rfl

/-- `update_expert_review`. -/
def updateExpertReview (reviewId : String) (update : ExpertReviewUpdate) (principal : Principal) :
    Service ExpertReviewCase := do
  requireRoles [.operatorManager, .systemAdmin] principal
  let value ← get .expertReview reviewId
  match value with
  | none => throw (.http 404 "Expert review not found")
  | some value =>
    let review ← Program.ofExcept (ExpertReviewCase.modelValidate value)
    let review := review.updated update
    if review.status = .completed ∧ !isSet review.resolutionNote then
      throw (.http 422 "Completed reviews require a note")
    else
      let now ← now
      let review := { review with updatedAt := now }
      put .expertReview review.id (.expertReview review)
      pure review

end AxSentinel
