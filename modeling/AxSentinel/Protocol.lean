import AxSentinel.AnalysisService
import AxSentinel.WorkOrderService

/-! # What a request may write

The requests of the composed services, the program of each, and its protocol:
every write of a request is guarded by the read `put` makes right before it, and
what is written is justified by what the request did before (`Request.Writes`).
`Request.obeys` shows it of every handler.  The properties of interleaved
requests are proved from the protocol alone. -/
namespace AxSentinel
open Effects Service

/-- The requests the composed services answer. -/
inductive Request where
  | simulateIncident (request : VirtualIncidentRequest) (principal : Principal)
  | ingestTelemetry (replica : Nat) (request : TelemetryRequest) (principal : Principal)
  | updateIncidentStatus (incidentId : String) (update : IncidentStatusUpdate)
      (principal : Principal)
  | decideActionPlan (request : ApprovalRequest) (principal : Principal)
  | completeWorkOrder (workOrderId : String) (completion : WorkOrderCompletion)
      (principal : Principal)
  | analyzeIncident (request : AnalysisRequest) (principal : Principal)
  | updateExpertReview (reviewId : String) (update : ExpertReviewUpdate) (principal : Principal)

/-- The handler of a request; what it answers is left out. -/
def Request.code (settings : Settings) : Request → Service Unit
  | simulateIncident request principal => do
      let _ ← AxSentinel.simulateIncident request principal
  | ingestTelemetry replica request principal => do
      let _ ← AxSentinel.ingestTelemetry replica request principal
  | updateIncidentStatus incidentId update principal => do
      let _ ← AxSentinel.updateIncidentStatus incidentId update principal
  | decideActionPlan request principal => do
      let _ ← AxSentinel.decideActionPlan request principal
  | completeWorkOrder workOrderId completion principal => do
      let _ ← AxSentinel.completeWorkOrder settings workOrderId completion principal
  | analyzeIncident request principal => do
      let _ ← AxSentinel.analyzeIncident settings.runtime request principal
  | updateExpertReview reviewId update principal => do
      let _ ← AxSentinel.updateExpertReview reviewId update principal

/-- The moves a request has behind it. -/
abbrev Moves := List (Move platformOps)

/-! ## What a request remembers -/

/-- The entity was read under the key. -/
def Saw (past : Moves) (key : Key) (entity : Entity) : Prop :=
  ∃ item : Item (Attributes Entity), item.attributes.data = entity ∧
    (⟨.inl (.getItem key), .ok (some item)⟩ : Move platformOps) ∈ past

/-- The entity was written under the key. -/
def Put (past : Moves) (key : Key) (entity : Entity) : Prop :=
  ∃ (item : Item (Attributes Entity)) (cond : Condition), item.attributes.data = entity ∧
    (⟨.inl (.putItem key item cond), .ok ()⟩ : Move platformOps) ∈ past

/-- The entities of a type were listed. -/
def Listed (past : Moves) (entityType : EntityType) (values : List Entity) : Prop :=
  ∃ items : List (Attributes Entity), values = items.map Attributes.data ∧
    (⟨.inl (.query entityType), .ok items⟩ : Move platformOps) ∈ past

/-- The id was drawn. -/
def Drew (past : Moves) (id : String) : Prop :=
  (⟨.inr .uuid4, .ok id⟩ : Move platformOps) ∈ past

/-- The entity is new: its id was drawn, and nothing of its type written yet. -/
def Creates (past : Moves) (entity : Entity) : Prop :=
  Drew past entity.key.entityId ∧ ∀ key item cond, ∀ m ∈ past,
    m.op = .inl (.putItem key item cond) → key.entityType ≠ entity.key.entityType

/-- A move to `status` of the incident stored under `incidentId`, which
`update_incident_status` found allowed. -/
def Transition (past : Moves) (incidentId : String) (incident : Incident)
    (status : IncidentStatus) : Prop :=
  Saw past ⟨.incident, incidentId⟩ (.incident incident) ∧
    status ∈ allowedTransitions incident.status

/-- The completion of a work order, which `complete_work_order` found admissible. -/
def Completion (past : Moves) (workOrderId : String) (workOrder : WorkOrder)
    (completion : WorkOrderCompletion) : Prop :=
  Saw past ⟨.workOrder, workOrderId⟩ (.workOrder workOrder) ∧
    completion.recoveryConfirmed = true ∧ workOrder.missingItems completion = []

/-- What a request may write under a key, in view of its past. -/
inductive Request.Writes (settings : Settings) : Request → Moves → Key → Entity → Prop
  | simulated {request principal past id detectedAt} :
      Creates past (.incident (.simulated request id detectedAt)) →
      Writes settings (.simulateIncident request principal) past ⟨.incident, id⟩
        (.incident (.simulated request id detectedAt))
  | received {replica request principal past id receivedAt} :
      Creates past (.telemetry (.received request id receivedAt)) →
      Writes settings (.ingestTelemetry replica request principal) past ⟨.telemetry, id⟩
        (.telemetry (.received request id receivedAt))
  | automatic {replica request principal past telemetryId receivedAt triggerCode values incidents
        id detectedAt} :
      Creates past (.incident (.automatic (.received request telemetryId receivedAt) triggerCode
        id detectedAt)) →
      Listed past .incident values → values.mapM Incident.modelValidate = .ok incidents →
      (incidents.any fun i => i.duplicates (.received request telemetryId receivedAt)) = false →
      Writes settings (.ingestTelemetry replica request principal) past ⟨.incident, id⟩
        (.incident (.automatic (.received request telemetryId receivedAt) triggerCode id
          detectedAt))
  | moved {incidentId update principal past} {incident : Incident} :
      Transition past incidentId incident update.status →
      Writes settings (.updateIncidentStatus incidentId update principal) past
        ⟨.incident, incident.id⟩ (.incident { incident with status := update.status })
  | decided {request principal past id} :
      Creates past (.approval ⟨request, id⟩) →
      Writes settings (.decideActionPlan request principal) past ⟨.approval, id⟩
        (.approval ⟨request, id⟩)
  | opened {request principal past approvalId id} :
      Creates past (.workOrder (.opened request id)) →
      Put past ⟨.approval, approvalId⟩ (.approval ⟨request, approvalId⟩) →
      mayDecide principal = true → request.decision ≠ .reject →
      Writes settings (.decideActionPlan request principal) past ⟨.workOrder, id⟩
        (.workOrder (.opened request id))
  | completed {workOrderId completion principal past} {workOrder : WorkOrder} :
      Completion past workOrderId workOrder completion →
      Writes settings (.completeWorkOrder workOrderId completion principal) past
        ⟨.workOrder, workOrder.id⟩ (.workOrder (workOrder.completed completion))
  | resolvedRemotely {workOrderId completion principal past} {workOrder : WorkOrder}
        {incidentId incident} :
      Saw past ⟨.workOrder, workOrderId⟩ (.workOrder workOrder) →
      Put past ⟨.workOrder, workOrder.id⟩ (.workOrder (workOrder.completed completion)) →
      settings.reached workOrder.incidentId = some incidentId →
      Transition past incidentId incident .resolved →
      Writes settings (.completeWorkOrder workOrderId completion principal) past
        ⟨.incident, incident.id⟩ (.incident { incident with status := .resolved })
  | resolvedDirectly {workOrderId completion principal past} {workOrder : WorkOrder}
        (incident : Entity) :
      Put past ⟨.workOrder, workOrder.id⟩ (.workOrder (workOrder.completed completion)) →
      isSet settings.incidentServiceUrl = false →
      Saw past ⟨.incident, workOrder.incidentId⟩ incident →
      Writes settings (.completeWorkOrder workOrderId completion principal) past
        ⟨.incident, workOrder.incidentId⟩ incident.resolved
  | analyzed {request principal past generation id} {result : AnalysisResult} :
      Creates past (.analysis result) →
      AnalysisResult.build settings.runtime request generation id = .ok result →
      Writes settings (.analyzeIncident request principal) past ⟨.analysis, result.id⟩
        (.analysis result)
  | reviewOpened {request principal past} {result : AnalysisResult} {id now} :
      Creates past (.expertReview (.opened result id now)) →
      Put past ⟨.analysis, result.id⟩ (.analysis result) → result.expertReviewRequired = true →
      Writes settings (.analyzeIncident request principal) past ⟨.expertReview, id⟩
        (.expertReview (.opened result id now))
  | reviewUpdated {reviewId update principal past} {review : ExpertReviewCase} {now} :
      Saw past ⟨.expertReview, reviewId⟩ (.expertReview review) →
      Writes settings (.updateExpertReview reviewId update principal) past
        ⟨.expertReview, (review.updated update).id⟩
        (.expertReview { review.updated update with updatedAt := now })

/-- What a request may do next, in view of its past. -/
def Request.Allowed (settings : Settings) (request : Request) : Moves → platformOps.Op → Prop :=
  WritesOnly fun earlier key attributes => request.Writes settings earlier key attributes.data

/-! ## Rules for handlers

Whatever a protocol allows, a handler obeys it if each of its steps does. -/

section Protocol
variable {α β : Type} {P : Moves → platformOps.Op → Prop} {Q : Moves → Except Exc β → Prop}
  {past : Moves}

theorem obeys_perform {op : platformOps.Op} {f : platformOps.Reply op → Service β}
    (hop : P past op) (herr : ∀ e, Q (past ++ [⟨op, .error e⟩]) (.error e))
    (hok : ∀ r, (f r).Obeys P Q (past ++ [⟨op, .ok r⟩])) :
    (Program.perform platformOps op >>= f).Obeys P Q past := by
  refine ⟨hop, fun r => ?_⟩
  cases r with
  | ok r => exact hok r
  | error e => exact herr e

theorem obeys_get {t : EntityType} {id : String} {f : Option Entity → Service β}
    (hop : P past (.inl (.getItem ⟨t, id⟩)))
    (herr : ∀ e, Q (past ++ [⟨.inl (.getItem ⟨t, id⟩), .error e⟩]) (.error e))
    (hok : ∀ item, (f (item.map fun item => item.attributes.data)).Obeys P Q
      (past ++ [⟨.inl (.getItem ⟨t, id⟩), .ok item⟩])) :
    (Service.get t id >>= f).Obeys P Q past := by
  rw [DynamoRepository.get_left_bind]
  refine ⟨hop, fun r => ?_⟩
  cases r with
  | ok item => exact hok item
  | error e => exact herr e

theorem obeys_list {t : EntityType} {f : List Entity → Service β}
    (hop : P past (.inl (.query t)))
    (herr : ∀ e, Q (past ++ [⟨.inl (.query t), .error e⟩]) (.error e))
    (hok : ∀ items : List (Attributes Entity), (f (items.map Attributes.data)).Obeys P Q
      (past ++ [⟨.inl (.query t), .ok items⟩])) :
    (Service.list t >>= f).Obeys P Q past := by
  rw [DynamoRepository.list_left_bind]
  refine ⟨hop, fun r => ?_⟩
  cases r with
  | ok items => exact hok items
  | error e => exact herr e

/-- The moves of a `put` up to its write. -/
def readMoves (t : EntityType) (id : String) (clock : Nat)
    (current : Option (Item (Attributes Entity))) : Moves :=
  [⟨.inl .now, .ok clock⟩, ⟨.inl (.getItem ⟨t, id⟩), .ok current⟩]

/-- The write of a `put`. -/
abbrev putOp (t : EntityType) (id : String) (v : Entity) (clock : Nat)
    (current : Option (Item (Attributes Entity))) : platformOps.Op :=
  .inl (.putItem ⟨t, id⟩ (DynamoRepository.item t id v clock current) (.unchanged current))

/-- The moves of a `put` that succeeds. -/
def putMoves (t : EntityType) (id : String) (v : Entity) (clock : Nat)
    (current : Option (Item (Attributes Entity))) : Moves :=
  [⟨.inl .now, .ok clock⟩, ⟨.inl (.getItem ⟨t, id⟩), .ok current⟩,
    ⟨putOp t id v clock current, .ok ()⟩]

theorem obeys_put {t : EntityType} {id : String} {v : Entity} {f : Unit → Service β}
    (hnow : P past (.inl .now))
    (hget : ∀ clock, P (past ++ [⟨.inl .now, .ok clock⟩]) (.inl (.getItem ⟨t, id⟩)))
    (hput : ∀ clock current, P (past ++ readMoves t id clock current) (putOp t id v clock current))
    (herr : ∀ more op e e', (e.isHttp = false → e'.isHttp = false) →
      Q (past ++ more ++ [⟨op, .error e⟩]) (.error e'))
    (hok : ∀ clock current, (f ()).Obeys P Q (past ++ putMoves t id v clock current)) :
    (Service.put t id v >>= f).Obeys P Q past := by
  rw [DynamoRepository.put_left_bind]
  refine ⟨hnow, fun r => ?_⟩
  cases r with
  | error e => exact (List.append_nil past).symm ▸ herr [] _ e e fun h => h
  | ok clock =>
    refine ⟨hget clock, fun r => ?_⟩
    cases r with
    | error e => exact herr [_] _ e e fun h => h
    | ok current =>
      have hread : past ++ [⟨.inl .now, .ok clock⟩] ++ [⟨.inl (.getItem ⟨t, id⟩), .ok current⟩] =
        past ++ readMoves t id clock current := List.append_assoc ..
      refine ⟨hread ▸ hput clock current, fun r => ?_⟩
      cases r with
      | error e =>
        exact hread ▸ herr (readMoves t id clock current) _ e _ fun h => not_http_putError h t id
      | ok _ =>
        rw [List.append_assoc, List.append_assoc]
        exact hok clock current

theorem obeys_ofExcept {x : Except Exc α} {f : α → Service β}
    (herr : ∀ e, x = .error e → Q past (.error e))
    (hok : ∀ a, x = .ok a → (f a).Obeys P Q past) : (Program.ofExcept x >>= f).Obeys P Q past := by
  cases x with
  | ok a => exact hok a rfl
  | error e => exact herr e rfl

theorem obeys_requireRoles {roles : List Role} {principal : Principal} {f : Unit → Service β}
    (herr : ∀ e, Q past (.error e))
    (hok : principal.roles.any (· ∈ roles) = true → (f ()).Obeys P Q past) :
    (requireRoles roles principal >>= f).Obeys P Q past := by
  unfold requireRoles
  split
  · rename_i hroles
    exact hok hroles
  · exact herr _

/-- The operations of a PATCH of an incident's status are those of the status update its URL
reaches, between a request and a response. -/
theorem obeys_patchIncidentStatus {settings : Settings} {incidentId : String}
    {status : IncidentStatus} {principal : Principal}
    (hrequest : ∀ past url, P past (.inr (.request url)))
    (hresponse : ∀ past, P past (.inr .response))
    (hupdate : ∀ id past', past <+: past' →
      settings.statusRoute (settings.statusUrl incidentId) = some (.incident id) →
      (updateIncidentStatus id ⟨status⟩ principal).Obeys P (fun _ _ => True) past') :
    (patchIncidentStatus settings incidentId status principal).Obeys P (fun _ _ => True) past := by
  unfold patchIncidentStatus
  dsimp only
  split
  · exact trivial
  · rename_i route hroute
    refine obeys_perform (hrequest _ _) (fun _ => trivial) fun _ =>
      Program.Obeys.bind ?_ fun past' statusCode =>
        obeys_perform (hresponse _) (fun _ => trivial) fun _ => ?_
    · cases route with
      | unrouted statusCode _ => exact trivial
      | incident id =>
        exact Program.Obeys.tryCatch (Program.Obeys.bind
          (hupdate id _ (List.prefix_append _ _) hroute) fun _ _ => trivial) fun _ _ => trivial
    · split <;> exact trivial

end Protocol

/-! ## Rules for writes -/

section Rules
variable {α β : Type} {W : Moves → Key → Entity → Prop} {past : Moves}

/-- A handler that writes only what `W` justifies. -/
abbrev Keeps (W : Moves → Key → Entity → Prop) (past : Moves) (p : Service α) : Prop :=
  p.Obeys (WritesOnly fun earlier key attributes => W earlier key attributes.data)
    (fun _ _ => True) past

theorem keeps_ret (a : α) : Keeps W past (pure a) := trivial

theorem keeps_raise (e : Exc) : Keeps W past (throw e : Service α) := trivial

/-- An operation that is not a write is always allowed. -/
theorem keeps_perform {op : platformOps.Op} {f : platformOps.Reply op → Service β}
    (hop : ∀ key item cond, op ≠ .inl (.putItem key item cond))
    (h : ∀ r, Keeps W (past ++ [⟨op, .ok r⟩]) (f r)) :
    Keeps W past (Program.perform platformOps op >>= f) :=
  obeys_perform (fun key item cond e => absurd e (hop key item cond)) (fun _ => trivial) h

theorem keeps_get {t : EntityType} {id : String} {f : Option Entity → Service β}
    (h : ∀ item, Keeps W (past ++ [⟨.inl (.getItem ⟨t, id⟩), .ok item⟩])
      (f (item.map fun item => item.attributes.data))) :
    Keeps W past (Service.get t id >>= f) :=
  obeys_get (by rintro _ _ _ ⟨⟩) (fun _ => trivial) h

theorem keeps_list {t : EntityType} {f : List Entity → Service β}
    (h : ∀ items : List (Attributes Entity),
      Keeps W (past ++ [⟨.inl (.query t), .ok items⟩]) (f (items.map Attributes.data))) :
    Keeps W past (Service.list t >>= f) :=
  obeys_list (by rintro _ _ _ ⟨⟩) (fun _ => trivial) h

theorem Saw.append {past : Moves} {key : Key} {v : Entity} (hsaw : Saw past key v) (more : Moves) :
    Saw (past ++ more) key v := by
  obtain ⟨item, hdata, hmem⟩ := hsaw
  exact ⟨item, hdata, List.mem_append_left _ hmem⟩

theorem Put.append {past : Moves} {key : Key} {v : Entity} (h : Put past key v) (more : Moves) :
    Put (past ++ more) key v := by
  obtain ⟨item, cond, hv, hmem⟩ := h
  exact ⟨item, cond, hv, List.mem_append_left _ hmem⟩

theorem put_putMoves (past : Moves) (t : EntityType) (id : String) (v : Entity) (clock : Nat)
    (current : Option (Item (Attributes Entity))) :
    Put (past ++ putMoves t id v clock current) ⟨t, id⟩ v :=
  ⟨DynamoRepository.item t id v clock current, .unchanged current, rfl, by simp [putMoves]⟩

/-- A `put` is one guarded write, justified by what came before it. -/
theorem keeps_put {t : EntityType} {id : String} {v : Entity} {f : Unit → Service β}
    (hW : ∀ clock, W (past ++ [⟨.inl .now, .ok clock⟩]) ⟨t, id⟩ v)
    (h : ∀ clock current, Keeps W (past ++ putMoves t id v clock current) (f ())) :
    Keeps W past (Service.put t id v >>= f) := by
  refine obeys_put (by rintro _ _ _ ⟨⟩) (fun _ => by rintro _ _ _ ⟨⟩) ?_
    (fun _ _ _ _ _ => trivial) h
  rintro clock current key item cond ⟨⟩
  exact ⟨past ++ [⟨.inl .now, .ok clock⟩], current, by simp [readMoves], rfl, rfl, hW clock⟩

theorem keeps_ofExcept {x : Except Exc α} {f : α → Service β}
    (h : ∀ a, x = .ok a → Keeps W past (f a)) : Keeps W past (Program.ofExcept x >>= f) :=
  obeys_ofExcept (fun _ _ => trivial) h

theorem keeps_requireRoles {roles : List Role} {principal : Principal} {f : Unit → Service β}
    (h : principal.roles.any (· ∈ roles) = true → Keeps W past (f ())) :
    Keeps W past (requireRoles roles principal >>= f) :=
  obeys_requireRoles (fun _ => trivial) h

theorem keeps_uuid4 {f : String → Service β}
    (h : ∀ id, Keeps W (past ++ [⟨.inr .uuid4, .ok id⟩]) (f id)) :
    Keeps W past (uuid4 >>= f) :=
  keeps_perform (by rintro _ _ _ ⟨⟩) h

theorem keeps_now {f : Instant → Service β}
    (h : ∀ clock, Keeps W (past ++ [⟨.inl .now, .ok clock⟩]) (f clock)) :
    Keeps W past (Service.now >>= f) :=
  keeps_perform (by rintro _ _ _ ⟨⟩) h

theorem keeps_broadcast {channel : String} {m : Entity} {f : Unit → Service β}
    (h : Keeps W (past ++ [⟨.inr (.broadcast channel m), .ok ()⟩]) (f ())) :
    Keeps W past (broadcast channel m >>= f) :=
  keeps_perform (by rintro _ _ _ ⟨⟩) fun _ => h

theorem keeps_publish {p : Publication} {f : Unit → Service β}
    (h : Keeps W (past ++ [⟨.inr (.publish p), .ok ()⟩]) (f ())) :
    Keeps W past (publish p >>= f) :=
  keeps_perform (by rintro _ _ _ ⟨⟩) fun _ => h

end Rules

section Handlers
variable {β : Type} {W : Moves → Key → Entity → Prop} {past : Moves} {f : Incident → Service β}

/-- `update_incident_status` writes the incident once, with a status its own read
allows. -/
theorem keeps_updateIncidentStatus {incidentId : String} {update : IncidentStatusUpdate}
    {principal : Principal}
    (hW : ∀ past' incident, past <+: past' → Transition past' incidentId incident update.status →
      W past' ⟨.incident, incident.id⟩ (.incident { incident with status := update.status })) :
    Keeps W past (updateIncidentStatus incidentId update principal) := by
  unfold updateIncidentStatus
  refine keeps_requireRoles fun _ => (keeps_get fun item => ?_)
  cases item with
  | none => exact keeps_raise _
  | some item =>
    refine keeps_ofExcept fun incident hincident => ?_
    split
    · exact keeps_raise _
    · rename_i hallowed
      refine keeps_put (fun clock => ?_) fun _ _ =>
        keeps_publish (keeps_broadcast (keeps_ret _))
      refine hW _ incident ⟨_, by rw [List.append_assoc]⟩
        ⟨⟨item, Incident.modelValidate_eq_ok.mp hincident, ?_⟩, not_not.mp hallowed⟩
      simp

theorem keeps_simulateIncident {settings : Settings} (request : VirtualIncidentRequest)
    (principal : Principal) :
    Keeps ((Request.simulateIncident request principal).Writes settings) []
      (simulateIncident request principal) := by
  unfold simulateIncident
  refine keeps_requireRoles fun _ => (keeps_uuid4 fun id => keeps_now fun detectedAt => ?_)
  refine keeps_put (fun clock => .simulated ⟨?_, ?_⟩) fun _ _ =>
    keeps_publish (keeps_broadcast (keeps_ret _))
  · simp [Drew, Entity.key, Incident.simulated]
  · simp

theorem keeps_ingestTelemetry {settings : Settings} (replica : Nat) (request : TelemetryRequest)
    (principal : Principal) :
    Keeps ((Request.ingestTelemetry replica request principal).Writes settings) []
      (ingestTelemetry replica request principal) := by
  simp only [ingestTelemetry, recordTelemetry, createAutomaticIncident, bind_assoc]
  refine keeps_requireRoles fun _ => (keeps_uuid4 fun id => keeps_now fun receivedAt => ?_)
  refine keeps_put (fun clock => .received ⟨?_, ?_⟩) fun clock current => ?_
  · simp [Drew, Entity.key, TelemetryRecord.received]
  · simp
  refine keeps_publish (keeps_broadcast (keeps_perform (by rintro _ _ _ ⟨⟩) fun triggerCode => ?_))
  cases triggerCode with
  | none => exact keeps_ret _
  | some triggerCode =>
    simp only [bind_assoc]
    refine keeps_list fun items => keeps_ofExcept fun incidents hincidents => ?_
    split
    · exact keeps_ret _
    · rename_i hduplicate
      simp only [bind_assoc]
      refine keeps_uuid4 fun id => keeps_now fun detectedAt => ?_
      refine keeps_put (fun clock => .automatic ⟨?_, ?_⟩ ⟨items, rfl, ?_⟩ hincidents
        (eq_false_of_ne_true hduplicate)) fun _ _ => keeps_publish (keeps_broadcast (keeps_ret _))
      · simp [Drew, Entity.key, Incident.automatic]
      · simp [putMoves, Entity.key]
      · simp

theorem keeps_decideActionPlan {settings : Settings} (request : ApprovalRequest)
    (principal : Principal) :
    Keeps ((Request.decideActionPlan request principal).Writes settings) []
      (decideActionPlan request principal) := by
  unfold decideActionPlan
  refine keeps_requireRoles fun hroles => (keeps_uuid4 fun approvalId => ?_)
  refine keeps_put (fun clock => .decided ⟨?_, ?_⟩) fun clock current => keeps_publish ?_
  · simp [Drew, Entity.key]
  · simp
  split
  · exact keeps_ret _
  · rename_i hreject
    split
    · exact keeps_raise _
    · refine keeps_uuid4 fun id => ?_
      have hput := put_putMoves [⟨.inr .uuid4, .ok approvalId⟩] .approval approvalId
        (.approval ⟨request, approvalId⟩) clock current
      refine keeps_put (fun _ => .opened ⟨?_, ?_⟩ (((hput.append _).append _).append _) hroles
        hreject)
        fun _ _ => keeps_publish (keeps_ret _)
      · simp [Drew, Entity.key, WorkOrder.opened]
      · simp [putMoves, Entity.key]

/-- The incident's part of a completion writes the incident only. -/
theorem keeps_resolveIncident {settings : Settings} {workOrderId : String}
    {completion : WorkOrderCompletion} {principal : Principal} {workOrder : WorkOrder}
    (hsaw : Saw past ⟨.workOrder, workOrderId⟩ (.workOrder workOrder))
    (hput : Put past ⟨.workOrder, workOrder.id⟩ (.workOrder (workOrder.completed completion))) :
    Keeps ((Request.completeWorkOrder workOrderId completion principal).Writes settings) past
      (resolveIncident settings workOrder.incidentId principal) := by
  unfold resolveIncident
  split
  · rename_i hset
    refine obeys_patchIncidentStatus (fun _ _ => by rintro _ _ _ ⟨⟩) (fun _ => by rintro _ _ _ ⟨⟩)
      fun id _ hpatch hroute => keeps_updateIncidentStatus fun past' incident hpre htrans => ?_
    obtain ⟨more, rfl⟩ := hpatch.trans hpre
    exact .resolvedRemotely (hsaw.append _) (hput.append _)
      (Settings.reached_of_route hset hroute) htrans
  · rename_i hunset
    refine keeps_get fun item => ?_
    cases item with
    | none => exact keeps_ret _
    | some item =>
      refine keeps_put (fun _ => ?_) fun _ _ => ?_
      · refine .resolvedDirectly _ ((hput.append _).append _) (eq_false_of_ne_true hunset)
          ⟨item, rfl, ?_⟩
        simp
      · split
        · rw [← bind_pure (broadcast _ _)]
          exact keeps_broadcast (keeps_ret _)
        · exact keeps_ret _

theorem keeps_completeWorkOrder {settings : Settings} (workOrderId : String)
    (completion : WorkOrderCompletion) (principal : Principal) :
    Keeps ((Request.completeWorkOrder workOrderId completion principal).Writes settings) []
      (completeWorkOrder settings workOrderId completion principal) := by
  unfold completeWorkOrder
  refine keeps_requireRoles fun _ => (keeps_get fun item => ?_)
  cases item with
  | none => exact keeps_raise _
  | some item =>
    simp only [Option.map_some]
    split
    · exact keeps_raise _
    · rename_i hconfirmed
      refine keeps_ofExcept fun workOrder hworkOrder => ?_
      split
      · exact keeps_raise _
      · rename_i hmissing
        have hsaw : Saw ([] ++ [⟨.inl (.getItem ⟨.workOrder, workOrderId⟩), .ok (some item)⟩])
            ⟨.workOrder, workOrderId⟩ (.workOrder workOrder) :=
          ⟨item, WorkOrder.modelValidate_eq_ok.mp hworkOrder, by simp⟩
        have hcompletion : ∀ clock, Completion ([] ++ [⟨.inl (.getItem ⟨.workOrder, workOrderId⟩),
            .ok (some item)⟩] ++ [⟨.inl .now, .ok clock⟩]) workOrderId workOrder completion :=
          fun clock => ⟨hsaw.append _, by simpa using hconfirmed, not_not.mp hmissing⟩
        have hwrites : ∀ clock, (Request.completeWorkOrder workOrderId completion
            principal).Writes settings _ ⟨.workOrder, workOrder.id⟩
            (.workOrder (workOrder.completed completion)) :=
          fun clock => .completed (hcompletion clock)
        refine keeps_put hwrites fun clock current => ?_
        have hput := put_putMoves ([] ++ [⟨.inl (.getItem ⟨.workOrder, workOrderId⟩),
          .ok (some item)⟩]) .workOrder workOrder.id (.workOrder (workOrder.completed completion))
          clock current
        have hresolve := @keeps_resolveIncident _ settings workOrderId completion principal
          workOrder (hsaw.append _) hput
        exact Program.Obeys.bind hresolve fun _ _ => keeps_publish (keeps_ret _)

theorem keeps_analyzeIncident {settings : Settings} (request : AnalysisRequest)
    (principal : Principal) :
    Keeps ((Request.analyzeIncident request principal).Writes settings) []
      (analyzeIncident settings.runtime request principal) := by
  unfold analyzeIncident
  refine keeps_requireRoles fun _ => (keeps_perform (by rintro _ _ _ ⟨⟩) fun generation => ?_)
  refine keeps_uuid4 fun id => keeps_ofExcept fun result hresult => keeps_ofExcept fun _ _ => ?_
  refine keeps_put (fun _ => .analyzed ⟨?_, by simp⟩ hresult) fun clock current => ?_
  · simp [Drew, Entity.key, AnalysisResult.build_id hresult]
  split
  · rename_i hrequired
    refine keeps_now fun now => keeps_uuid4 fun reviewId => ?_
    refine keeps_put (fun _ => .reviewOpened ⟨?_, ?_⟩
      (((Put.append (put_putMoves _ _ _ _ _ _) _).append _).append _) hrequired) fun _ _ =>
      keeps_publish (keeps_ret _)
    · simp [Drew, Entity.key, ExpertReviewCase.opened]
    · simp [putMoves, Entity.key]
  · exact keeps_publish (keeps_ret _)

theorem keeps_updateExpertReview {settings : Settings} (reviewId : String)
    (update : ExpertReviewUpdate) (principal : Principal) :
    Keeps ((Request.updateExpertReview reviewId update principal).Writes settings) []
      (updateExpertReview reviewId update principal) := by
  unfold updateExpertReview
  refine keeps_requireRoles fun _ => (keeps_get fun item => ?_)
  cases item with
  | none => exact keeps_raise _
  | some item =>
    refine keeps_ofExcept fun review hreview => ?_
    dsimp only
    split
    · exact keeps_raise _
    · refine keeps_now fun now => ?_
      refine keeps_put (fun _ => .reviewUpdated
        ⟨item, ExpertReviewCase.modelValidate_eq_ok.mp hreview, ?_⟩) fun _ _ => keeps_ret _
      simp

end Handlers

/-- **Every request keeps to its protocol.** -/
theorem Request.obeys (settings : Settings) (request : Request) :
    (request.code settings).Obeys (request.Allowed settings) (fun _ _ => True) [] := by
  cases request with
  | simulateIncident request principal =>
    exact (keeps_simulateIncident request principal).bind fun _ _ => keeps_ret _
  | ingestTelemetry replica request principal =>
    exact (keeps_ingestTelemetry replica request principal).bind fun _ _ => keeps_ret _
  | updateIncidentStatus incidentId update principal =>
    exact (keeps_updateIncidentStatus fun _ _ _ h => .moved h).bind fun _ _ => keeps_ret _
  | decideActionPlan request principal =>
    exact (keeps_decideActionPlan request principal).bind fun _ _ => keeps_ret _
  | completeWorkOrder workOrderId completion principal =>
    exact (keeps_completeWorkOrder workOrderId completion principal).bind fun _ _ => keeps_ret _
  | analyzeIncident request principal =>
    exact (keeps_analyzeIncident request principal).bind fun _ _ => keeps_ret _
  | updateExpertReview reviewId update principal =>
    exact (keeps_updateExpertReview reviewId update principal).bind fun _ _ => keeps_ret _

end AxSentinel
