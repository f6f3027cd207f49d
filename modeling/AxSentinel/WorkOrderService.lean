import AxSentinel.IncidentService

/-! # The work-order service

`services/work_order/app/main.py`: decisions on action plans, and the completion
of work orders, which resolves the incident too. -/
namespace AxSentinel
open Effects Service

/-- `WorkOrder.model_validate`. -/
def WorkOrder.modelValidate : Entity → Except Exc WorkOrder
  | .workOrder w => .ok w
  | _ => .error (.validationError "WorkOrder")

theorem WorkOrder.modelValidate_eq_ok {value : Entity} {workOrder : WorkOrder} :
    modelValidate value = .ok workOrder ↔ value = .workOrder workOrder := by
  cases value <;> simp [modelValidate]

/-- The checklist of a work order whose approval gives none. -/
def defaultChecklist : List String :=
  ["작업 전 설비 에너지 차단 상태 확인", "권장 점검 항목 수행", "사진과 작업 메모 등록",
    "시험 가동 후 정상 복구 확인"]

/-- The work order `decide_action_plan` opens. -/
def WorkOrder.opened (request : ApprovalRequest) (id : String) : WorkOrder where
  id := id
  incidentId := request.incidentId
  analysisId := request.analysisId
  status := "open"
  assigneeId := none
  checklist := if request.checklist = [] then defaultChecklist else request.checklist
  completedItems := []
  photoKeys := []
  fieldNote := none
  actualCause := none
  recoveryConfirmed := false

/-- What `decide_action_plan` answers with. -/
inductive Decided where
  | workOrder (workOrder : WorkOrder)
  | approval (approval : ApprovalRecord)

/-- The caller may decide on action plans. -/
def mayDecide (principal : Principal) : Bool :=
  principal.roles.any (· ∈ [Role.operatorManager, .systemAdmin])

/-- `decide_action_plan`. -/
def decideActionPlan (request : ApprovalRequest) (principal : Principal) : Service Decided := do
  requireRoles [.operatorManager, .systemAdmin] principal
  let id ← uuid4
  let approval : ApprovalRecord := { toApprovalRequest := request, id := id }
  put .approval approval.id (.approval approval)
  publish ⟨"approval.decided", .entity (.approval approval), some approval.incidentId,
    some principal.subject, false⟩
  if request.decision = .reject then
    pure (.approval approval)
  else if request.decision = .approveWithChanges ∧ request.checklist = [] then
    throw (.http 422 "A modified approval requires an updated checklist")
  else
    let id ← uuid4
    let workOrder := WorkOrder.opened request id
    put .workOrder workOrder.id (.workOrder workOrder)
    publish ⟨"work_order.created", .entity (.workOrder workOrder), some workOrder.incidentId,
      some principal.subject, false⟩
    pure (.workOrder workOrder)

/-- The checklist items the completion does not name. -/
def WorkOrder.missingItems (workOrder : WorkOrder) (completion : WorkOrderCompletion) :
    List String :=
  workOrder.checklist.dedup.filter (· ∉ completion.completedItems)

/-- The work order with the evidence of its completion. -/
def WorkOrder.completed (workOrder : WorkOrder) (completion : WorkOrderCompletion) : WorkOrder :=
  { workOrder with
    status := "resolved"
    completedItems := completion.completedItems
    photoKeys := completion.photoKeys
    fieldNote := some completion.fieldNote
    actualCause := some completion.actualCause
    recoveryConfirmed := true }

/-- The status of the response a handler's outcome is turned into. -/
def responseStatus : Exc → Nat
  | .httpException statusCode _ => statusCode
  | _ => 500

/-- The URL of the incident's status: the id goes into it as it is. -/
def Settings.statusUrl (settings : Settings) (incidentId : String) : String :=
  settings.incidentServiceUrl.getD "" ++ "/api/v1/incidents/" ++ incidentId ++ "/status"

/-- The status code of the answer to a PATCH, on behalf of the same caller. -/
def StatusRoute.answer (status : IncidentStatus) (principal : Principal) :
    StatusRoute → Service Nat
  | incident incidentId =>
    try
      let _ ← updateIncidentStatus incidentId ⟨status⟩ principal
      pure 200
    catch error =>
      pure (responseStatus error)
  | unrouted statusCode _ => pure statusCode

/-- `client.patch` of the incident's status, answered by what its URL reaches, and
`response.raise_for_status()`. -/
def patchIncidentStatus (settings : Settings) (incidentId : String) (status : IncidentStatus)
    (principal : Principal) : Service Unit := do
  let url := settings.statusUrl incidentId
  match settings.statusRoute url with
  | none => throw (.other "InvalidURL" url)
  | some route =>
    .perform platformOps (.inr (.request url))
    let statusCode ← route.answer status principal
    .perform platformOps (.inr .response)
    if 300 ≤ statusCode then
      throw (.httpStatusError statusCode)
    else
      pure ()

/-- `incident["status"] = "resolved"` on a stored incident. -/
def Entity.resolved : Entity → Entity
  | .incident i => .incident { i with status := .resolved }
  | entity => entity

/-- The incident's part of `complete_work_order`: through the incident service
when its address is set, directly in the repository otherwise. -/
def resolveIncident (settings : Settings) (incidentId : String) (principal : Principal) :
    Service Unit := do
  if isSet settings.incidentServiceUrl then
    patchIncidentStatus settings incidentId .resolved principal
  else
    let incident ← get .incident incidentId
    match incident with
    | none => pure ()
    | some incident =>
      put .incident incidentId incident.resolved
      if settings.websocketBroker = "redis" then
        broadcast "ax-sentinel.incidents" incident.resolved
      else
        pure ()

/-- The incident `resolveIncident` turns to: the one the URL reaches, if any, where the address of
the incident service is set. -/
def Settings.reached (settings : Settings) (incidentId : String) : Option String :=
  if isSet settings.incidentServiceUrl then
    (settings.statusRoute (settings.statusUrl incidentId)).bind StatusRoute.incident?
  else some incidentId

theorem Settings.reached_of_route {settings : Settings} {incidentId : String}
    (hset : isSet settings.incidentServiceUrl = true) {route : Option StatusRoute}
    (hroute : settings.statusRoute (settings.statusUrl incidentId) = route) :
    settings.reached incidentId = route.bind StatusRoute.incident? := by
  rw [Settings.reached, if_pos hset, hroute]

/-- `complete_work_order`. -/
def completeWorkOrder (settings : Settings) (workOrderId : String)
    (completion : WorkOrderCompletion) (principal : Principal) : Service WorkOrder := do
  requireRoles [.fieldWorker, .systemAdmin] principal
  let value ← get .workOrder workOrderId
  match value with
  | none => throw (.http 404 "Work order not found")
  | some value =>
    if !completion.recoveryConfirmed then
      throw (.http 409 "Recovery must be confirmed")
    else
      let workOrder ← Program.ofExcept (WorkOrder.modelValidate value)
      let missingItems := workOrder.missingItems completion
      if missingItems ≠ [] then
        throw (.httpException 409
          (.missing "Checklist is incomplete" (missingItems.mergeSort (· ≤ ·))))
      else
        let workOrder := workOrder.completed completion
        put .workOrder workOrder.id (.workOrder workOrder)
        resolveIncident settings workOrder.incidentId principal
        publish ⟨"work_order.completed", .entity (.workOrder workOrder),
          some workOrder.incidentId, some principal.subject, false⟩
        pure workOrder

end AxSentinel
