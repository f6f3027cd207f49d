import AxSentinel.Creations
import AxSentinel.Lifecycle
import Mathlib.Data.Set.Function

/-! # Work orders, the decisions they stem from, and their evidence

A work order is opened by a decision, under an id of its own, after the record of the decision
was stored, and a decision opens one at most.  So distinct work orders have distinct approval
records (`workOrders_approved`).  Completions rewrite a work order as a whole, but only with what
its creation fixed and a full set of evidence (`resolved_evidenced`). -/
namespace AxSentinel
open Effects

/-- The record approves the plan the work order carries out. -/
structure ApprovalRecord.Backs (approval : ApprovalRecord) (workOrder : WorkOrder) : Prop where
  analysisId : approval.analysisId = workOrder.analysisId
  incidentId : approval.incidentId = workOrder.incidentId
  decision : approval.decision = .approve ∨ approval.decision = .approveWithChanges

/-- The record was written by a decision of a caller who may decide. -/
def ApprovalRecord.Decided (requests : Nat → Option Request) (h : List (Event platform))
    (approval : ApprovalRecord) : Prop :=
  ∃ e ∈ h, (∃ request principal,
      requests e.thread = some (.decideActionPlan request principal) ∧ mayDecide principal = true) ∧
    ∃ item : Item (Attributes Entity), item.attributes.data = .approval approval ∧
      e.Wrote ⟨.approval, approval.id⟩ item

/-- Thread `i` decided, by a caller who may, stored the record and then wrote the work order. -/
structure StemsFrom (requests : Nat → Option Request) (h : List (Event platform))
    (workOrder : WorkOrder) (i : Nat) (approval : ApprovalRecord) : Prop where
  request : ∃ request principal,
    requests i = some (.decideActionPlan request principal) ∧ mayDecide principal = true
  recorded : Put (past i h) ⟨.approval, approval.id⟩ (.approval approval)
  backs : approval.Backs workOrder
  written : ∃ m ∈ past i h, ∃ item cond, m.op = .inl (.putItem ⟨.workOrder, workOrder.id⟩ item cond)
  checklist : workOrder.checklist ≠ []

section History
variable {settings : Settings} {requests : Nat → Option Request} {uuids : UuidSupply}
  {h : List (Event platform)} {w : platform.World}

theorem StemsFrom.snoc {workOrder : WorkOrder} {i : Nat} {approval : ApprovalRecord}
    (hs : StemsFrom requests h workOrder i approval) (e : Event platform) :
    StemsFrom requests (h ++ [e]) workOrder i approval := by
  obtain ⟨hrequest, hrecorded, hbacks, ⟨m, hm, hop⟩, hchecklist⟩ := hs
  refine ⟨hrequest, ?_, hbacks, ⟨m, ?_, hop⟩, hchecklist⟩
  · rw [past_append]
    exact hrecorded.append _
  · rw [past_append]
    exact List.mem_append_left _ hm

/-- What a completion leaves alone is what a work order's origin is about. -/
theorem StemsFrom.completed {workOrder : WorkOrder} {i : Nat} {approval : ApprovalRecord}
    (hs : StemsFrom requests h workOrder i approval) (completion : WorkOrderCompletion) :
    StemsFrom requests h (workOrder.completed completion) i approval :=
  ⟨hs.request, hs.recorded, ⟨hs.backs.analysisId, hs.backs.incidentId, hs.backs.decision⟩,
    hs.written, hs.checklist⟩

/-- An opened work order has a checklist: the default one, if the request gives none. -/
theorem WorkOrder.opened_checklist (request : ApprovalRequest) (id : String) :
    (WorkOrder.opened request id).checklist ≠ [] := by
  by_cases hempty : request.checklist = []
  · simp [WorkOrder.opened, hempty, defaultChecklist]
  · simp [WorkOrder.opened, hempty]

/-- A decision that does not reject approves, with changes or without. -/
theorem ApprovalDecision.approves {decision : ApprovalDecision} (h : decision ≠ .reject) :
    decision = .approve ∨ decision = .approveWithChanges := by
  cases decision with
  | approve => exact .inl rfl
  | approveWithChanges => exact .inr rfl
  | reject => exact absurd rfl h

/-- Every work order stems from a decision. -/
theorem stemsFrom (H : Composed.History settings requests uuids h w) {key : Key}
    {workOrder : WorkOrder} (hstored : entity key w = some (.workOrder workOrder)) :
    ∃ i approval, StemsFrom requests h workOrder i approval := by
  have hinvariant := stored_invariant (fun h _ _ v => ∀ workOrder, v = .workOrder workOrder →
    ∃ i approval, StemsFrom requests h workOrder i approval) ?_ ?_ H
  · exact hinvariant.1 key _ hstored workOrder rfl
  · intro h w i op _ _ c key v hI workOrder hv
    obtain ⟨j, approval, hs⟩ := hI workOrder hv
    exact ⟨j, approval, hs.snoc _⟩
  · intro h w i op c H hok _ hsaws key item hwrote hjust workOrder hv
    obtain ⟨cond, hop, -⟩ := hwrote
    obtain ⟨request, earlier, current, hrequest, hpast, hwrites⟩ := hjust
    rw [hv] at hwrites
    generalize hv : Entity.workOrder workOrder = v at hwrites
    cases hwrites with
    | @opened request principal _ approvalId id _ hput hroles hdecision =>
      obtain rfl := Entity.workOrder.inj hv
      refine ⟨i, ⟨request, approvalId⟩, ⟨request, principal, hrequest, hroles⟩, ?_,
        ⟨rfl, rfl, ApprovalDecision.approves hdecision⟩, ?_, WorkOrder.opened_checklist request id⟩
      · rw [past_append, hpast]
        exact (hput.append _).append _
      · rw [past_snoc_self]
        exact ⟨_, List.mem_append_right _ (List.mem_singleton.mpr rfl), item, cond, hop⟩
    | @completed workOrderId completion principal _ workOrder hcompletion =>
      obtain rfl := Entity.workOrder.inj hv
      obtain ⟨j, approval, hs⟩ := hsaws _ _ (hpast ▸ hcompletion.1.append _) workOrder rfl
      exact ⟨j, approval, (hs.snoc _).completed completion⟩
    | resolvedDirectly v _ _ hsaw =>
      obtain ⟨incident, rfl⟩ := incident_of_saw H (hpast ▸ hsaw.append _)
      cases hv
    | _ => cases hv

/-- The record behind a work order is stored, as it was. -/
theorem StemsFrom.stored (H : Composed.History settings requests uuids h w) {workOrder : WorkOrder}
    {i : Nat} {approval : ApprovalRecord} (hs : StemsFrom requests h workOrder i approval) :
    entity ⟨.approval, approval.id⟩ w = some (.approval approval) := by
  obtain ⟨v, hv, hevolved⟩ := put_evolves H hs.recorded
  cases hevolved
  exact hv

theorem StemsFrom.decided (H : Composed.History settings requests uuids h w) {workOrder : WorkOrder}
    {i : Nat} {approval : ApprovalRecord} (hs : StemsFrom requests h workOrder i approval) :
    approval.Decided requests h := by
  obtain ⟨e, he, rfl, hwrote⟩ := wrote_of_put H hs.recorded
  exact ⟨e, he, hs.request, hwrote⟩

/-- Work orders that stem from one record are one work order. -/
theorem StemsFrom.unique (H : Composed.History settings requests uuids h w)
    {workOrder workOrder' : WorkOrder} {i i' : Nat} {approval approval' : ApprovalRecord}
    (hs : StemsFrom requests h workOrder i approval)
    (hs' : StemsFrom requests h workOrder' i' approval') (hid : approval.id = approval'.id) :
    workOrder.id = workOrder'.id := by
  obtain ⟨request, principal, hrequest, -⟩ := hs.request
  obtain ⟨request', principal', hrequest', -⟩ := hs'.request
  have hdrew : Drew (past i h) approval.id := drew_of_put H hrequest trivial hs.recorded
  have hdrew' : Drew (past i' h) approval'.id := drew_of_put H hrequest' trivial hs'.recorded
  obtain rfl := drawn_unique H hdrew (hid ▸ hdrew')
  obtain ⟨m, hm, item, cond, hop⟩ := hs.written
  obtain ⟨m', hm', item', cond', hop'⟩ := hs'.written
  exact congrArg Key.entityId (written_unique H hrequest trivial hm hm' hop hop' rfl).1

end History

/-- **Every work order stems from its own approving decision.**  In every state the services
reach, the stored work orders map one to one to stored approval records for the same analysis
and incident, which approve and were made by callers who may decide; and every stored work order
has a checklist. -/
theorem workOrders_approved {settings : Settings} {uuids : UuidSupply} {s : Composed}
    (hs : Composed.Reachable settings uuids s) :
    (∃ f : Key → Key,
      Set.InjOn f {key | ∃ workOrder, entity key s.world = some (.workOrder workOrder)} ∧
      ∀ key workOrder, entity key s.world = some (.workOrder workOrder) →
        ∃ approval, entity (f key) s.world = some (.approval approval) ∧
          approval.Backs workOrder ∧ approval.Decided s.request s.history) ∧
    ∀ key workOrder, entity key s.world = some (.workOrder workOrder) →
      workOrder.checklist ≠ [] := by
  have H := hs.history
  have origin : ∀ key, ∃ key' : Key, ∀ workOrder, entity key s.world = some (.workOrder workOrder) →
      ∃ i approval, key' = ⟨.approval, approval.id⟩ ∧
        StemsFrom s.request s.history workOrder i approval := by
    intro key
    by_cases hstored : ∃ workOrder, entity key s.world = some (.workOrder workOrder)
    · obtain ⟨workOrder, hworkOrder⟩ := hstored
      obtain ⟨i, approval, hstems⟩ := stemsFrom H hworkOrder
      refine ⟨⟨.approval, approval.id⟩, fun workOrder' hworkOrder' => ?_⟩
      obtain rfl := Entity.workOrder.inj (Option.some.inj (hworkOrder.symm.trans hworkOrder'))
      exact ⟨i, approval, rfl, hstems⟩
    · exact ⟨key, fun workOrder hworkOrder => absurd ⟨workOrder, hworkOrder⟩ hstored⟩
  choose f hf using origin
  refine ⟨⟨f, ?_, fun key workOrder hworkOrder => ?_⟩, fun key workOrder hworkOrder => ?_⟩
  · rintro key ⟨workOrder, hworkOrder⟩ key' ⟨workOrder', hworkOrder'⟩ heq
    obtain ⟨i, approval, hkey, hstems⟩ := hf key workOrder hworkOrder
    obtain ⟨i', approval', hkey', hstems'⟩ := hf key' workOrder' hworkOrder'
    rw [hkey, hkey'] at heq
    have hid := StemsFrom.unique H hstems hstems' (congrArg Key.entityId heq)
    rw [← (keyed H).1 key _ hworkOrder, ← (keyed H).1 key' _ hworkOrder',
      Entity.key, Entity.key, hid]
  · obtain ⟨i, approval, hkey, hstems⟩ := hf key workOrder hworkOrder
    exact ⟨approval, hkey ▸ hstems.stored H, hstems.backs, hstems.decided H⟩
  · obtain ⟨i, approval, hstems⟩ := stemsFrom H hworkOrder
    exact hstems.checklist

/-- Two plans are approved, and the first work order is completed twice. -/
def completedTwice : Composed :=
  Sample.run Sample.direct
    (.arrive (.decideActionPlan (Sample.decision "a" "i" .approve) Sample.manager) ::
      Sample.advances 0 10 ++
      (.arrive (.decideActionPlan (Sample.decision "b" "i" .approve) Sample.manager) ::
        Sample.advances 1 10) ++
      (.arrive (.completeWorkOrder "a" Sample.completion Sample.worker) :: Sample.advances 2 6) ++
      (.arrive (.completeWorkOrder "a" Sample.completion Sample.worker) :: Sample.advances 3 6))

theorem workOrders_approved_completedTwice : ∃ f : Key → Key,
    Set.InjOn f {key | ∃ workOrder, entity key completedTwice.world = some (.workOrder workOrder)} ∧
    ∀ key workOrder, entity key completedTwice.world = some (.workOrder workOrder) →
      ∃ approval, entity (f key) completedTwice.world = some (.approval approval) ∧
        approval.Backs workOrder ∧
        approval.Decided completedTwice.request completedTwice.history :=
  (workOrders_approved (Sample.reachable_run _ _)).1

/-! ## Evidence -/

/-- A work order as a completion leaves it. -/
structure WorkOrder.Evidenced (workOrder : WorkOrder) : Prop where
  checklist : ∀ item ∈ workOrder.checklist, item ∈ workOrder.completedItems
  photoKeys : workOrder.photoKeys ≠ []
  fieldNote : ∃ note, workOrder.fieldNote = some note ∧ 3 ≤ note.length
  actualCause : ∃ cause, workOrder.actualCause = some cause ∧ 3 ≤ cause.length
  recoveryConfirmed : workOrder.recoveryConfirmed = true

/-- A completion that `complete_work_order` admits leaves the full evidence. -/
theorem WorkOrder.evidenced_completed {workOrder : WorkOrder} {completion : WorkOrderCompletion}
    (h : workOrder.missingItems completion = []) : (workOrder.completed completion).Evidenced where
  checklist := (WorkOrder.complete_completed h).checklist
  photoKeys := completion.photoKeys_ne_nil
  fieldNote := ⟨_, rfl, completion.fieldNote.property.1⟩
  actualCause := ⟨_, rfl, completion.actualCause.property.1⟩
  recoveryConfirmed := rfl

/-- A resolved work order has its evidence. -/
theorem evidenced {settings : Settings} {requests : Nat → Option Request} {uuids : UuidSupply}
    {h : List (Event platform)} {w : platform.World}
    (H : Composed.History settings requests uuids h w) {key : Key} {workOrder : WorkOrder}
    (hstored : entity key w = some (.workOrder workOrder))
    (hresolved : workOrder.status = "resolved") : workOrder.Evidenced := by
  have hinvariant := stored_invariant (fun _ _ _ v => ∀ workOrder, v = .workOrder workOrder →
    workOrder.status = "resolved" → workOrder.Evidenced) (fun _ _ _ _ _ hI => hI) ?_ H
  · exact hinvariant.1 key _ hstored workOrder rfl hresolved
  · intro h w i op c H _ _ hsaws key item _ hjust workOrder hv hresolved
    obtain ⟨request, earlier, current, -, hpast, hwrites⟩ := hjust
    rw [hv] at hwrites
    generalize hv : Entity.workOrder workOrder = v at hwrites
    cases hwrites with
    | opened =>
      -- it is opened as "open"
      obtain rfl := Entity.workOrder.inj hv
      simp [WorkOrder.opened] at hresolved
    | completed hcompletion =>
      obtain rfl := Entity.workOrder.inj hv
      exact WorkOrder.evidenced_completed hcompletion.2.2
    | resolvedDirectly v _ _ hsaw =>
      obtain ⟨incident, rfl⟩ := incident_of_saw H (hpast ▸ hsaw.append _)
      cases hv
    | _ => cases hv

/-- What a completion leaves of a work order as it was created. -/
structure WorkOrder.Continues (workOrder created : WorkOrder) : Prop where
  id : workOrder.id = created.id
  incidentId : workOrder.incidentId = created.incidentId
  analysisId : workOrder.analysisId = created.analysisId
  checklist : workOrder.checklist = created.checklist

/-- **A resolved work order carries its evidence.**  In every state the services reach, every
stored work order that is resolved has its full evidence, and its id, incident, analysis and
checklist are those it was created with. -/
theorem resolved_evidenced {settings : Settings} {uuids : UuidSupply} {s : Composed}
    (hs : Composed.Reachable settings uuids s) {key : Key} {workOrder : WorkOrder}
    (hstored : entity key s.world = some (.workOrder workOrder))
    (hresolved : workOrder.status = "resolved") :
    workOrder.Evidenced ∧ (∃ u, CreatedAs s.history key u) ∧
      ∀ u, CreatedAs s.history key u → ∃ created, u = .workOrder created ∧
        workOrder.Continues created := by
  have H := hs.history
  refine ⟨evidenced H hstored hresolved, exists_createdAs H hstored, fun u hcreated => ?_⟩
  have hevolved := hcreated.evolves H hstored
  cases hevolved with
  | workOrder hid hincident hanalysis hchecklist =>
    exact ⟨_, rfl, hid, hincident, hanalysis, hchecklist⟩

/-- The first work order of the run, completed. -/
def firstWorkOrder : WorkOrder :=
  (WorkOrder.opened (Sample.decision "a" "i" .approve) "a").completed Sample.completion

theorem resolved_evidenced_completedTwice : firstWorkOrder.Evidenced :=
  (@resolved_evidenced _ _ completedTwice (Sample.reachable_run _ _) ⟨.workOrder, "a"⟩
    firstWorkOrder (by decide +kernel) rfl).1

end AxSentinel
