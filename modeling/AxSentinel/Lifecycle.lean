import AxSentinel.Platform
import Mathlib.Data.List.Dedup

/-! # The lifecycle of incidents across services

The incident service moves an incident along `ALLOWED_TRANSITIONS` for any
permitted caller; it consults no approvals and no work orders.  So an approved
incident need not have an approval (`not_followsLifecycle`).  It has one, and a
resolved incident a resolved work order, in every run in which status updates
come no earlier than what they need, and completions reach their own incidents
(`followsLifecycle_of_guarded`). -/
namespace AxSentinel
open Effects

/-- An approval of a plan for the incident is stored. -/
def HasApproval (w : platform.World) (incidentId : String) : Prop :=
  ∃ key approval, entity key w = some (.approval approval) ∧ approval.incidentId = incidentId ∧
    approval.decision ≠ .reject

/-- A resolved work order for the incident is stored. -/
def HasResolvedWorkOrder (w : platform.World) (incidentId : String) : Prop :=
  ∃ key workOrder, entity key w = some (.workOrder workOrder) ∧
    workOrder.incidentId = incidentId ∧ workOrder.status = "resolved"

/-- The statuses that come after the manager's approval. -/
def IncidentStatus.isApproved : IncidentStatus → Bool
  | approved | inProgress | resolved => true
  | _ => false

/-- The evidence of a completed work order. -/
structure WorkOrder.Complete (workOrder : WorkOrder) : Prop where
  checklist : ∀ item ∈ workOrder.checklist, item ∈ workOrder.completedItems
  photoKeys : workOrder.photoKeys ≠ []
  fieldNote : ∃ note, workOrder.fieldNote = some note ∧ note ≠ ""
  actualCause : ∃ cause, workOrder.actualCause = some cause ∧ cause ≠ ""
  recoveryConfirmed : workOrder.recoveryConfirmed = true

theorem Text.ne_empty {lo hi : Nat} (text : Text (lo + 1) hi) : text.val ≠ "" := by
  intro h
  have hlength := text.property.1
  rw [h] at hlength
  exact absurd hlength (Nat.not_succ_le_zero lo)

/-- The lifecycle as documented: no incident is approved without an approval, nor
resolved without a resolved work order, nor a work order without its evidence. -/
structure FollowsLifecycle (w : platform.World) : Prop where
  approved : ∀ key incident, entity key w = some (.incident incident) →
    incident.status.isApproved = true → HasApproval w incident.id
  resolved : ∀ key incident, entity key w = some (.incident incident) →
    incident.status = .resolved → HasResolvedWorkOrder w incident.id
  complete : ∀ key workOrder, entity key w = some (.workOrder workOrder) →
    workOrder.status = "resolved" → workOrder.Complete

/-- What the incident service does not check: a status update moves its incident to `approved`
once an approval is stored, to `resolved` once a resolved work order is; and the completion of a
work order reaches no other incident than the work order's. -/
structure Guarded (settings : Settings) (requests : Nat → Option Request) (e : Event platform) :
    Prop where
  approved : ∀ incidentId update principal item,
    requests e.thread = some (.updateIncidentStatus incidentId update principal) →
    e.Wrote ⟨.incident, incidentId⟩ item → update.status = .approved →
    HasApproval e.before incidentId
  resolved : ∀ incidentId update principal item,
    requests e.thread = some (.updateIncidentStatus incidentId update principal) →
    e.Wrote ⟨.incident, incidentId⟩ item → update.status = .resolved →
    HasResolvedWorkOrder e.before incidentId
  completed : ∀ workOrderId completion principal workOrder incidentId,
    requests e.thread = some (.completeWorkOrder workOrderId completion principal) →
    entity ⟨.workOrder, workOrderId⟩ e.before = some (.workOrder workOrder) →
    settings.reached workOrder.incidentId = some incidentId → incidentId = workOrder.incidentId

/-- A completion that `complete_work_order` admits completes the work order. -/
theorem WorkOrder.complete_completed {workOrder : WorkOrder} {completion : WorkOrderCompletion}
    (h : workOrder.missingItems completion = []) : (workOrder.completed completion).Complete where
  checklist item hitem := by
    have hnone := List.filter_eq_nil_iff.mp h item (List.mem_dedup.mpr hitem)
    have hmem : item ∈ completion.completedItems := by simpa using hnone
    exact hmem
  photoKeys := completion.photoKeys_ne_nil
  fieldNote := ⟨_, rfl, Text.ne_empty completion.fieldNote⟩
  actualCause := ⟨_, rfl, Text.ne_empty completion.actualCause⟩
  recoveryConfirmed := rfl

section History
variable {settings : Settings} {requests : Nat → Option Request} {uuids : UuidSupply}
  {h : List (Event platform)} {w : platform.World}

/-- What the services promise of a stored entity, in a guarded run. -/
def Supported (w : platform.World) : Entity → Prop
  | .incident i => (i.status.isApproved = true → HasApproval w i.id) ∧
      (i.status = .resolved → HasResolvedWorkOrder w i.id)
  | .workOrder workOrder =>
      HasApproval w workOrder.incidentId ∧ (workOrder.status = "resolved" → workOrder.Complete)
  | _ => True

/-- Approvals stay. -/
theorem HasApproval.step {w' : platform.World}
    (hevolves : ∀ {key u}, entity key w = some u → ∃ v, entity key w' = some v ∧ u.Evolves v)
    {incidentId : String} (ha : HasApproval w incidentId) : HasApproval w' incidentId := by
  obtain ⟨key, a, hstored, hid, hdecision⟩ := ha
  obtain ⟨v, hv, hav⟩ := hevolves hstored
  cases hav
  exact ⟨key, a, hv, hid, hdecision⟩

/-- Resolved work orders stay resolved. -/
theorem HasResolvedWorkOrder.step {w' : platform.World}
    (hevolves : ∀ {key u}, entity key w = some u → ∃ v, entity key w' = some v ∧ u.Evolves v)
    {incidentId : String} (hwo : HasResolvedWorkOrder w incidentId) :
    HasResolvedWorkOrder w' incidentId := by
  obtain ⟨key, u, hstored, hid, hresolved⟩ := hwo
  obtain ⟨v, hv, huv⟩ := hevolves hstored
  cases huv with
  | workOrder _ hincident _ _ hstays =>
    exact ⟨key, _, hv, hincident.trans hid, hstays hresolved⟩

/-- The promises about an entity are kept by every later step. -/
theorem Supported.step {w' : platform.World}
    (hevolves : ∀ {key u}, entity key w = some u → ∃ v, entity key w' = some v ∧ u.Evolves v)
    {v : Entity} (hv : Supported w v) : Supported w' v := by
  cases v with
  | incident i =>
    exact ⟨fun hs => (hv.1 hs).step hevolves, fun hs => (hv.2 hs).step hevolves⟩
  | workOrder workOrder => exact ⟨hv.1.step hevolves, hv.2⟩
  | _ => trivial

/-- An approved status is reached from an approved one, or is `approved` itself. -/
theorem approved_of_transition {incident : Incident} {status : IncidentStatus}
    (hallowed : status ∈ allowedTransitions incident.status) (hs : status.isApproved = true) :
    status = .approved ∨ incident.status.isApproved = true := by
  revert hallowed hs
  cases incident.status <;> cases status <;> decide

/-- What a request writes is supported, if the write is guarded, and what the request read and
wrote before is supported. -/
theorem supported_write (H : Composed.History settings requests uuids h w) {i : Nat}
    {op : platformOps.Op} (hok : Permitted settings requests i (past i h) op) {c : platform.Choice}
    (hguarded : Guarded settings requests (platform.event i op c w))
    (hsaws : ∀ key v, Saw (past i h) key v → Supported w v)
    (hstoreds : ∀ key v, entity key w = some v → Supported w v)
    {key : Key} {item : Item (Attributes Entity)}
    (hwrote : (platform.event i op c w).Wrote key item)
    (hjust : Justified settings requests h i key item.attributes.data) :
    Supported (platform.exec op c w).2 item.attributes.data := by
  have hevolves : ∀ {key u}, entity key w = some u →
      ∃ v, entity key (platform.exec op c w).2 = some v ∧ u.Evolves v :=
    fun hu => evolves_step H hok c (fun _ _ hs => saw_evolves H hs) hu
  obtain ⟨request, earlier, current, hrequest, hpast, hwrites⟩ := hjust
  have saws : ∀ {key v}, Saw earlier key v → v.key = key ∧ Supported w v := by
    intro key v hsaw
    have hsaw' : Saw (past i h) key v := hpast ▸ hsaw.append _
    exact ⟨(keyed H).2 i key v hsaw', hsaws key v hsaw'⟩
  -- A work order the request resolved is stored, and so is the approval it came from.
  have resolved : ∀ {workOrder : WorkOrder} {completion id},
      Put earlier ⟨.workOrder, workOrder.id⟩ (.workOrder (workOrder.completed completion)) →
      id = workOrder.incidentId → HasApproval w id ∧ HasResolvedWorkOrder w id := by
    rintro workOrder completion _ hput rfl
    obtain ⟨v, hv, hevolved⟩ := put_evolves H (hpast ▸ hput.append _)
    have hsupported := hstoreds _ v hv
    cases hevolved with
    | workOrder _ hincident _ _ hstays =>
      exact ⟨hincident ▸ hsupported.1, _, _, hv, hincident, hstays rfl⟩
  suffices hsupported : Supported w item.attributes.data from hsupported.step hevolves
  revert hwrites hwrote
  generalize hdata : item.attributes.data = v
  intro hwrote hwrites
  cases hwrites with
  | simulated => exact ⟨nofun, nofun⟩
  | automatic => exact ⟨nofun, nofun⟩
  | opened _ hput _ hdecision =>
    obtain ⟨v, hv, hevolved⟩ := put_evolves H (hpast ▸ hput.append _)
    cases hevolved
    exact ⟨⟨_, _, hv, rfl, hdecision⟩, fun hs => by simp [WorkOrder.opened] at hs⟩
  | completed hcompletion =>
    exact ⟨(saws hcompletion.1).2.1, fun _ => WorkOrder.complete_completed hcompletion.2.2⟩
  | @moved incidentId update principal _ incident htrans =>
    obtain ⟨hread, hallowed⟩ := htrans
    obtain ⟨hkey, hbefore⟩ := saws hread
    obtain rfl : incident.id = incidentId := congrArg Key.entityId hkey
    refine ⟨fun hs => ?_, fun hs => hguarded.resolved _ _ _ _ hrequest hwrote hs⟩
    rcases approved_of_transition hallowed hs with hstatus | happroved
    · exact hguarded.approved _ _ _ _ hrequest hwrote hstatus
    · exact hbefore.1 happroved
  | @resolvedRemotely _ _ _ _ workOrder _ incident hsaw hput hreached htrans =>
    -- the work order that was read, and the one that is stored now, are for the same incident
    obtain ⟨v, hv, hevolved⟩ := saw_evolves H (hpast ▸ hsaw.append _)
    have hid : incident.id = workOrder.incidentId := by
      cases hevolved with
      | workOrder _ hincident =>
        rw [← hincident] at hreached ⊢
        have hkey := congrArg Key.entityId (saws htrans.1).1
        exact hkey.trans (hguarded.completed _ _ _ _ _ hrequest hv hreached)
    obtain ⟨happroval, hwo⟩ := resolved hput hid
    exact ⟨fun _ => happroval, fun _ => hwo⟩
  | resolvedDirectly u hput _ hread =>
    obtain ⟨hkey, -⟩ := saws hread
    cases u with
    | incident incident =>
      obtain ⟨happroval, hwo⟩ := resolved hput (congrArg Key.entityId hkey)
      exact ⟨fun _ => happroval, fun _ => hwo⟩
    | _ => cases hkey
  | _ => trivial

/-- Everything stored, and everything read, is supported in a guarded run. -/
theorem supported (H : Composed.History settings requests uuids h w)
    (hguarded : ∀ e ∈ h, Guarded settings requests e) :
    ∀ key v, entity key w = some v → Supported w v := by
  have hinvariant := stored_invariant
    (fun h w _ v => (∀ e ∈ h, Guarded settings requests e) → Supported w v)
    (fun H hok c _ _ hv hall => (hv fun e he => hall e (List.mem_append_left _ he)).step
      fun hu => evolves_step H hok c (fun _ _ hs => saw_evolves H hs) hu)
    (fun H hok hstoreds hsaws _ _ hwrote hjust hall => by
      have hbefore := fun e he => hall e (List.mem_append_left _ he)
      have hlast := hall _ (List.mem_append_right _ (List.mem_singleton.mpr rfl))
      exact supported_write H hok hlast (fun key v hs => hsaws key v hs hbefore)
        (fun key v hs => hstoreds key v hs hbefore) hwrote hjust) H
  exact fun key v hv => hinvariant.1 key v hv hguarded

end History

/-- **The lifecycle, in guarded runs.**  In every run whose steps are guarded, in every state, an
incident in an approved status has an approval, a resolved one a resolved work order, and a
resolved work order its full evidence. -/
theorem followsLifecycle_of_guarded {settings : Settings} {uuids : UuidSupply} {s : Composed}
    (hs : Composed.Reachable settings uuids s)
    (hguarded : ∀ e ∈ s.history, Guarded settings s.request e) : FollowsLifecycle s.world := by
  have hsupported := supported hs.history hguarded
  exact ⟨fun key _ hv => (hsupported key _ hv).1, fun key _ hv => (hsupported key _ hv).2,
    fun key _ hv => (hsupported key _ hv).2⟩

/-! ## Runs -/

section Decidable

/-- The entity is an approval of a plan for the incident. -/
def Entity.approves (incidentId : String) : Entity → Bool
  | .approval a => a.incidentId = incidentId ∧ a.decision ≠ .reject
  | _ => false

/-- The entity is a resolved work order for the incident. -/
def Entity.completes (incidentId : String) : Entity → Bool
  | .workOrder w => w.incidentId = incidentId ∧ w.status = "resolved"
  | _ => false

theorem hasApproval_of_any {w : platform.World} {incidentId : String}
    (h : (w.1.keys.any fun key => (entity key w).any (Entity.approves incidentId)) = true) :
    HasApproval w incidentId := by
  obtain ⟨key, -, hany⟩ := List.any_eq_true.mp h
  obtain ⟨v, hv, happroves⟩ := (Option.any_eq_true _ _).mp hany
  cases v with
  | approval approval =>
    obtain ⟨hid, hdecision⟩ := of_decide_eq_true happroves
    exact ⟨key, approval, hv, hid, hdecision⟩
  | _ => cases happroves

theorem hasResolvedWorkOrder_of_any {w : platform.World} {incidentId : String}
    (h : (w.1.keys.any fun key => (entity key w).any (Entity.completes incidentId)) = true) :
    HasResolvedWorkOrder w incidentId := by
  obtain ⟨key, -, hany⟩ := List.any_eq_true.mp h
  obtain ⟨v, hv, hcompletes⟩ := (Option.any_eq_true _ _).mp hany
  cases v with
  | workOrder workOrder =>
    obtain ⟨hid, hstatus⟩ := of_decide_eq_true hcompletes
    exact ⟨key, workOrder, hv, hid, hstatus⟩
  | _ => cases hcompletes

/-- The incident of a work order is the one its completion turns to, if any. -/
def Entity.reachesOwn (settings : Settings) : Entity → Bool
  | .workOrder w => (settings.reached w.incidentId).all (· = w.incidentId)
  | _ => true

/-- Whether a step is guarded, whatever it may write. -/
def guardedStep (settings : Settings) (requests : Nat → Option Request) (e : Event platform) :
    Bool :=
  match requests e.thread with
  | some (.updateIncidentStatus incidentId update _) => match e.move.op with
    | .inl (.putItem ..) =>
      (update.status ≠ .approved ∨ (e.before.1.keys.any fun key =>
        (entity key e.before).any (Entity.approves incidentId)) = true) ∧
      (update.status ≠ .resolved ∨ (e.before.1.keys.any fun key =>
        (entity key e.before).any (Entity.completes incidentId)) = true)
    | _ => true
  | some (.completeWorkOrder workOrderId _ _) =>
    (entity ⟨.workOrder, workOrderId⟩ e.before).all (Entity.reachesOwn settings)
  | _ => true

theorem guarded_of_step {settings : Settings} {requests : Nat → Option Request}
    {e : Event platform} (h : guardedStep settings requests e = true) :
    Guarded settings requests e where
  approved incidentId update principal item hrequest hwrote hstatus := by
    obtain ⟨cond, hop, -⟩ := hwrote
    rw [guardedStep, hrequest, hop] at h
    obtain ⟨happroved, -⟩ := of_decide_eq_true h
    exact hasApproval_of_any (happroved.resolve_left (not_not.mpr hstatus))
  resolved incidentId update principal item hrequest hwrote hstatus := by
    obtain ⟨cond, hop, -⟩ := hwrote
    rw [guardedStep, hrequest, hop] at h
    obtain ⟨-, hresolved⟩ := of_decide_eq_true h
    exact hasResolvedWorkOrder_of_any (hresolved.resolve_left (not_not.mpr hstatus))
  completed workOrderId completion principal workOrder incidentId hrequest hstored hreached := by
    rw [guardedStep, hrequest] at h
    have hown := (Option.all_eq_true _ _).mp h _ hstored
    rw [Entity.reachesOwn, hreached] at hown
    exact of_decide_eq_true hown

end Decidable

/-- An incident is analyzed, its plan approved, and the incident then moved to `approved` and
`in_progress`, and resolved with its work order, through the incident service.  (The first
incident has an id that no URL reaches.) -/
def guardedRun : Composed :=
  Sample.run Sample.remote
    (.arrive (.simulateIncident Sample.incident Sample.manager) :: Sample.advances 0 7 ++
      (.arrive (.simulateIncident Sample.incident Sample.manager) :: Sample.advances 1 7) ++
      (.arrive (.updateIncidentStatus "a" ⟨.analyzing⟩ Sample.worker) :: Sample.advances 2 6) ++
      (.arrive (.decideActionPlan (Sample.decision "" "a" .approve) Sample.manager) ::
        Sample.advances 3 10) ++
      (.arrive (.updateIncidentStatus "a" ⟨.approved⟩ Sample.worker) :: Sample.advances 4 6) ++
      (.arrive (.updateIncidentStatus "a" ⟨.inProgress⟩ Sample.worker) :: Sample.advances 5 6) ++
      (.arrive (.completeWorkOrder "aaa" Sample.completion Sample.worker) ::
        Sample.advances 6 14))

theorem followsLifecycle_of_guarded_resolved :
    (entity ⟨.incident, "a"⟩ guardedRun.world).bind Entity.incidentStatus = some .resolved ∧
      FollowsLifecycle guardedRun.world :=
  ⟨by decide +kernel, followsLifecycle_of_guarded (Sample.reachable_run _ _) fun _ he =>
    guarded_of_step (List.all_eq_true.mp (show guardedRun.history.all (guardedStep Sample.remote
      guardedRun.request) = true by decide +kernel) _ he)⟩

/-- A field worker moves a detected incident to `resolved` with four status updates. -/
def directUpdates : Composed :=
  Sample.run Sample.remote
    (.arrive (.simulateIncident Sample.incident Sample.manager) :: Sample.advances 0 7 ++
      (.arrive (.simulateIncident Sample.incident Sample.manager) :: Sample.advances 1 7) ++
      (.arrive (.updateIncidentStatus "a" ⟨.analyzing⟩ Sample.worker) :: Sample.advances 2 6) ++
      (.arrive (.updateIncidentStatus "a" ⟨.approved⟩ Sample.worker) :: Sample.advances 3 6) ++
      (.arrive (.updateIncidentStatus "a" ⟨.inProgress⟩ Sample.worker) :: Sample.advances 4 6) ++
      (.arrive (.updateIncidentStatus "a" ⟨.resolved⟩ Sample.worker) :: Sample.advances 5 6))

/-- Incidents are approved without an approval. -/
theorem not_followsLifecycle : ¬ ∀ settings uuids s,
    Composed.Reachable settings uuids s → FollowsLifecycle s.world := by
  intro hall
  have hreach : Composed.Reachable Sample.remote .unary directUpdates := Sample.reachable_run _ _
  have hfollows := hall _ _ directUpdates hreach
  have hstatus : (entity ⟨.incident, "a"⟩ directUpdates.world).bind Entity.incidentStatus =
      some .resolved := by decide +kernel
  have hkeys : (directUpdates.world.1.keys.all fun key => key.entityType = .incident) = true := by
    decide +kernel
  obtain ⟨v, hv, hvstatus⟩ := Option.bind_eq_some_iff.mp hstatus
  cases v with
  | incident incident =>
    obtain ⟨key, approval, happroval, -⟩ :=
      hfollows.approved _ incident hv (Option.some.inj hvstatus ▸ rfl)
    -- the table holds incidents only
    have htype := of_decide_eq_true (List.all_eq_true.mp hkeys _ (mem_keys_of_entity happroval))
    rw [← (keyed hreach.history).1 _ _ happroval] at htype
    cases htype
  | _ => cases hvstatus

end AxSentinel
