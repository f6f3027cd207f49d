import AxSentinel.Platform
import AxSentinel.Sequential

/-! # Completing a work order

`complete_work_order` stores the work order, then resolves its incident, then
publishes.  Nothing undoes an earlier step when a later one is refused or fails,
so a completion is not all or nothing (`not_completion_allOrNothing`).  What it may
leave behind is bounded: the work order is as it was or complete, and every incident
is as it was but one, which is resolved only if the work order is complete
(`completeWorkOrder_ends`).  That one is the work order's, if the URL of its status
leads there (`Settings.reached`). -/
namespace AxSentinel
open Effects Service

/-- The incident is stored as resolved. -/
def IncidentResolved (w : platform.World) (incidentId : String) : Prop :=
  (entity ⟨.incident, incidentId⟩ w).bind Entity.incidentStatus = some .resolved

/-- The entity stored under the key is the same in both worlds. -/
def Unchanged (key : Key) (w w' : platform.World) : Prop := entity key w' = entity key w

/-- The work order is stored with the evidence of the completion. -/
def CompletionStored (workOrder : WorkOrder) (completion : WorkOrderCompletion)
    (w : platform.World) : Prop :=
  entity ⟨.workOrder, workOrder.id⟩ w = some (.workOrder (workOrder.completed completion))

/-- The handler's own checks let the request pass. -/
def Admissible (workOrder : WorkOrder) (completion : WorkOrderCompletion) (principal : Principal) :
    Prop :=
  principal.roles.any (· ∈ [Role.fieldWorker, .systemAdmin]) = true ∧
    completion.recoveryConfirmed = true ∧ workOrder.missingItems completion = []

/-- Every incident is as before, except that the one the completion turns to may be resolved. -/
def OnlyReachedResolved (settings : Settings) (workOrder : WorkOrder) (w w' : platform.World) :
    Prop :=
  ∀ id, Unchanged ⟨.incident, id⟩ w w' ∨
    settings.reached workOrder.incidentId = some id ∧ IncidentResolved w' id

/-- Either the handler succeeded and both are resolved, or it raised and both are as
before. -/
def AllOrNothing (workOrder : WorkOrder) (w : platform.World) (out : Except Exc WorkOrder)
    (w' : platform.World) : Prop :=
  match out with
  | .ok _ => (∃ workOrder', entity ⟨.workOrder, workOrder.id⟩ w' = some (.workOrder workOrder') ∧
      workOrder'.status = "resolved") ∧ IncidentResolved w' workOrder.incidentId
  | .error _ => Unchanged ⟨.workOrder, workOrder.id⟩ w w' ∧
      Unchanged ⟨.incident, workOrder.incidentId⟩ w w'

/-- Every entity is stored under its own key. -/
def View.Keyed (V : View) : Prop := ∀ key v, V.entities key = some v → v.key = key

/-- The services store every entity under its own key. -/
theorem keyed_of_reachable {settings : Settings} {uuids : UuidSupply} {s : Composed}
    (hs : Composed.Reachable settings uuids s) : (View.of s.world).Keyed :=
  (keyed hs.history).1

section Rules
variable {V : View}

/-- The view after the incident is stored as resolved, if it is there. -/
def View.Resolves (V : View) (incidentId : String) (V' : View) : Prop :=
  ∃ v, V.entities ⟨.incident, incidentId⟩ = some v ∧
    V' = V.store ⟨.incident, incidentId⟩ v.resolved

/-- The view after the incident a completion turns to is stored as resolved. -/
def View.ResolvesReached (V : View) (settings : Settings) (incidentId : String) (V' : View) :
    Prop :=
  ∃ id, settings.reached incidentId = some id ∧ V.Resolves id V'

theorem responseStatus_of_not_http {e : Exc} (h : e.isHttp = false) : responseStatus e = 500 := by
  cases e with
  | httpException => cases h
  | _ => rfl

/-- A status update to `resolved` resolves the incident, or is answered with an error
that may come after the incident was resolved. -/
theorem ensures_updateIncidentStatus (hkeyed : V.Keyed) (incidentId : String)
    (principal : Principal) :
    Ensures (updateIncidentStatus incidentId ⟨.resolved⟩ principal) (fun out V' =>
      match out with
      | .ok _ => V.Resolves incidentId V'
      | .error e => 400 ≤ responseStatus e ∧ (V' = V ∨ V.Resolves incidentId V')) V := by
  have failed : ∀ {e : Exc}, e.isHttp = false → 400 ≤ responseStatus e := by
    intro e he
    rw [responseStatus_of_not_http he]
    decide
  unfold updateIncidentStatus
  refine ensures_requireRoles (fun _ => ?_) fun _ => ⟨by decide, .inl rfl⟩
  refine ensures_get ?_ fun e he => ⟨failed he, .inl rfl⟩
  cases hv : V.entities ⟨.incident, incidentId⟩ with
  | none => exact ensures_raise ⟨by decide, .inl rfl⟩
  | some v =>
    refine ensures_ofExcept (fun incident hincident => ?_) fun e he => ?_
    · have hdata := Incident.modelValidate_eq_ok.mp hincident
      subst hdata
      have hid : incident.id = incidentId := congrArg Key.entityId (hkeyed _ _ hv)
      have resolves : V.Resolves incidentId (V.store ⟨.incident, incidentId⟩
        (.incident { incident with status := .resolved })) := ⟨_, hv, rfl⟩
      split
      · exact ensures_raise ⟨(by decide : 400 ≤ 409), .inl rfl⟩
      · have hkey : (⟨.incident, incident.id⟩ : Key) = ⟨.incident, incidentId⟩ := by rw [hid]
        refine ensures_put ?_ fun e he => ⟨⟨failed he, .inl rfl⟩, failed he, .inr ?_⟩
        · refine ensures_publish (ensures_broadcast (ensures_ret ?_) fun e he => ?_) fun e he => ?_
          · exact hkey ▸ resolves
          · exact ⟨failed he, .inr (hkey ▸ resolves)⟩
          · exact ⟨failed he, .inr (hkey ▸ resolves)⟩
        · exact hkey ▸ resolves
    · refine ⟨?_, .inl rfl⟩
      cases v with
      | incident i => cases he
      | _ => cases he; decide

/-- A PATCH to `resolved` resolves the incident its URL reaches, or raises. -/
theorem ensures_patchIncidentStatus (settings : Settings) (hkeyed : V.Keyed) (incidentId : String)
    (principal : Principal) (hset : isSet settings.incidentServiceUrl = true) :
    Ensures (patchIncidentStatus settings incidentId .resolved principal) (fun out V' =>
      match out with
      | .ok _ => V.ResolvesReached settings incidentId V'
      | .error _ => V' = V ∨ V.ResolvesReached settings incidentId V') V := by
  unfold patchIncidentStatus
  dsimp only
  split
  · exact ensures_raise (.inl rfl)
  · rename_i route hroute
    refine ensures_perform nofun (fun _ => ensures_bind ?_) fun e _ => .inl rfl
    cases route with
    | unrouted statusCode refused =>
      refine ensures_ret (ensures_perform nofun (fun _ => ?_) fun e _ => .inl rfl)
      rw [if_pos refused]
      exact ensures_raise (.inl rfl)
    | incident id =>
      have hreached : settings.reached incidentId = some id :=
        Settings.reached_of_route hset hroute
      refine ensures_tryCatch (ensures_bind ?_)
      refine (ensures_updateIncidentStatus hkeyed id principal).mono fun out V' hout => ?_
      cases out with
      | ok _ =>
        refine ensures_ret (ensures_perform nofun (fun _ => ensures_ret ?_) fun e _ => ?_)
        · exact ⟨id, hreached, hout⟩
        · exact .inr ⟨id, hreached, hout⟩
      | error e =>
        obtain ⟨hstatus, hview⟩ := hout
        have hview' := hview.imp_right fun h => (⟨id, hreached, h⟩ : V.ResolvesReached ..)
        refine ensures_ret (ensures_perform nofun (fun _ => ?_) fun e _ => hview')
        rw [if_pos (by omega)]
        exact ensures_raise hview'

/-- The incident's part of a completion resolves the incident it turns to, if there is one. -/
theorem ensures_resolveIncident (settings : Settings) (hkeyed : V.Keyed) (incidentId : String)
    (principal : Principal) :
    Ensures (resolveIncident settings incidentId principal) (fun out V' =>
      match out with
      | .ok _ => V.ResolvesReached settings incidentId V' ∨
          (V.entities ⟨.incident, incidentId⟩ = none ∧ V' = V ∧
            isSet settings.incidentServiceUrl = false)
      | .error _ => V' = V ∨ V.ResolvesReached settings incidentId V') V := by
  unfold resolveIncident
  split
  · rename_i hset
    refine (ensures_patchIncidentStatus settings hkeyed incidentId principal hset).mono
      fun out V' hout => ?_
    cases out with
    | ok _ => exact .inl hout
    | error e => exact hout
  · rename_i hunset
    have hreached : settings.reached incidentId = some incidentId := if_neg hunset
    refine ensures_get ?_ fun e _ => .inl rfl
    cases hv : V.entities ⟨.incident, incidentId⟩ with
    | none => exact ensures_ret (.inr ⟨rfl, rfl, eq_false_of_ne_true hunset⟩)
    | some v =>
      have resolves : V.ResolvesReached settings incidentId
          (V.store ⟨.incident, incidentId⟩ v.resolved) := ⟨_, hreached, v, hv, rfl⟩
      refine ensures_put ?_ fun e _ => ⟨.inl rfl, .inr resolves⟩
      split
      · rw [← bind_pure (broadcast _ _)]
        exact ensures_broadcast (ensures_ret (.inl resolves)) fun e _ => .inr resolves
      · exact ensures_ret (.inl resolves)

/-- The view after the work order is stored as complete. -/
def View.complete (V : View) (workOrder : WorkOrder) (completion : WorkOrderCompletion) : View :=
  V.store ⟨.workOrder, workOrder.id⟩ (.workOrder (workOrder.completed completion))

theorem View.Keyed.complete (hkeyed : V.Keyed) (workOrder : WorkOrder)
    (completion : WorkOrderCompletion) : (V.complete workOrder completion).Keyed := by
  intro key v hv
  by_cases hkey : key = ⟨.workOrder, workOrder.id⟩
  · subst hkey
    rw [View.complete, View.store_self] at hv
    obtain rfl := Option.some.inj hv
    rfl
  · rw [View.complete, View.store_other hkey] at hv
    exact hkeyed key v hv

/-- How a completion may end. -/
theorem ensures_completeWorkOrder {settings : Settings} {workOrderId : String}
    {completion : WorkOrderCompletion} {principal : Principal} {workOrder : WorkOrder}
    (hkeyed : V.Keyed)
    (hstored : V.entities ⟨.workOrder, workOrderId⟩ = some (.workOrder workOrder)) :
    Ensures (completeWorkOrder settings workOrderId completion principal) (fun out V' =>
      (V' = V ∧ ∃ e, out = .error e) ∨ (Admissible workOrder completion principal ∧
        (match out with
        | .ok _ =>
            (V.complete workOrder completion).ResolvesReached settings workOrder.incidentId V' ∨
            (V.entities ⟨.incident, workOrder.incidentId⟩ = none ∧
              V' = V.complete workOrder completion ∧ isSet settings.incidentServiceUrl = false)
        | .error _ => V' = V.complete workOrder completion ∨
            (V.complete workOrder completion).ResolvesReached settings workOrder.incidentId
              V'))) V := by
  unfold completeWorkOrder
  refine ensures_requireRoles (fun hroles => ?_) fun _ => .inl ⟨rfl, _, rfl⟩
  refine ensures_get ?_ fun e _ => .inl ⟨rfl, e, rfl⟩
  rw [hstored]
  dsimp only
  split
  · exact ensures_raise (.inl ⟨rfl, _, rfl⟩)
  · rename_i hconfirmed
    refine ensures_ofExcept (fun workOrder' hworkOrder => ?_) fun e _ => .inl ⟨rfl, e, rfl⟩
    obtain rfl : workOrder = workOrder' := Except.ok.inj hworkOrder
    split
    · exact ensures_raise (.inl ⟨rfl, _, rfl⟩)
    · rename_i hmissing
      have hadmissible : Admissible workOrder completion principal :=
        ⟨hroles, by simpa using hconfirmed, not_not.mp hmissing⟩
      refine ensures_put (ensures_bind ?_) fun e _ =>
        ⟨.inl ⟨rfl, e, rfl⟩, .inr ⟨hadmissible, .inl rfl⟩⟩
      have hincident :
          (V.complete workOrder completion).entities ⟨.incident, workOrder.incidentId⟩ =
          V.entities ⟨.incident, workOrder.incidentId⟩ := View.store_other (by simp) _ _
      refine (ensures_resolveIncident settings (hkeyed.complete workOrder completion)
        workOrder.incidentId principal).mono fun out V' hout => ?_
      cases out with
      | error e => exact .inr ⟨hadmissible, hout⟩
      | ok _ =>
        rw [hincident] at hout
        refine ensures_publish (ensures_ret (.inr ⟨hadmissible, hout⟩)) fun e _ =>
          .inr ⟨hadmissible, ?_⟩
        rcases hout with hresolves | ⟨-, hsame, -⟩
        · exact .inr hresolves
        · exact .inl hsame

theorem View.complete_workOrder (V : View) (workOrder : WorkOrder)
    (completion : WorkOrderCompletion) :
    (V.complete workOrder completion).entities ⟨.workOrder, workOrder.id⟩ =
      some (.workOrder (workOrder.completed completion)) := View.store_self ..

theorem View.complete_incident (V : View) (workOrder : WorkOrder)
    (completion : WorkOrderCompletion) (id : String) :
    (V.complete workOrder completion).entities ⟨.incident, id⟩ = V.entities ⟨.incident, id⟩ :=
  View.store_other (by simp) _ _

/-- Resolving the incident leaves the work order alone. -/
theorem View.Resolves.workOrder {V' : View} {incidentId : String}
    (h : V.Resolves incidentId V') (id : String) :
    V'.entities ⟨.workOrder, id⟩ = V.entities ⟨.workOrder, id⟩ := by
  obtain ⟨v, -, rfl⟩ := h
  exact View.store_other (by simp) _ _

/-- And the other incidents. -/
theorem View.Resolves.incident {V' : View} {incidentId id : String} (h : V.Resolves incidentId V')
    (hne : id ≠ incidentId) :
    V'.entities ⟨.incident, id⟩ = V.entities ⟨.incident, id⟩ := by
  obtain ⟨v, -, rfl⟩ := h
  exact View.store_other (by simpa using hne) _ _

theorem View.Resolves.resolved {V' : View} {incidentId : String} (hkeyed : V.Keyed)
    (h : V.Resolves incidentId V') :
    (V'.entities ⟨.incident, incidentId⟩).bind Entity.incidentStatus = some .resolved := by
  obtain ⟨v, hv, rfl⟩ := h
  rw [View.store_self, Option.bind_some]
  have hkey := hkeyed _ v hv
  cases v with
  | incident i => rfl
  | _ => cases hkey

end Rules

/-- **What a completion leaves behind.**  If it succeeds, the work order is stored with
the completion's evidence, and the incident it turns to is resolved, or absent where
incidents are resolved directly.  If it raises, the work order is as before or stored with
the evidence, and with the evidence stored that incident may be resolved.  A request the
handler's own checks refuse changes nothing, and no completion another incident. -/
theorem completeWorkOrder_ends {settings : Settings} {workOrderId : String}
    {completion : WorkOrderCompletion} {principal : Principal} {workOrder : WorkOrder}
    {w w' : platform.World} {out : Except Exc WorkOrder} (hkeyed : (View.of w).Keyed)
    (hstored : entity ⟨.workOrder, workOrderId⟩ w = some (.workOrder workOrder))
    (hend : platform.Ends (completeWorkOrder settings workOrderId completion principal) w out w') :
    (∀ result, out = .ok result → CompletionStored workOrder completion w' ∧
      OnlyReachedResolved settings workOrder w w' ∧
      ((∃ id, settings.reached workOrder.incidentId = some id ∧ IncidentResolved w' id) ∨
        (isSet settings.incidentServiceUrl = false ∧
          entity ⟨.incident, workOrder.incidentId⟩ w = none ∧
          Unchanged ⟨.incident, workOrder.incidentId⟩ w w'))) ∧
    (∀ e, out = .error e →
      (Unchanged ⟨.workOrder, workOrder.id⟩ w w' ∧ ∀ id, Unchanged ⟨.incident, id⟩ w w') ∨
      (CompletionStored workOrder completion w' ∧ OnlyReachedResolved settings workOrder w w')) ∧
    (¬ Admissible workOrder completion principal →
      Unchanged ⟨.workOrder, workOrder.id⟩ w w' ∧ ∀ id, Unchanged ⟨.incident, id⟩ w w') := by
  have hview := (ensures_completeWorkOrder hkeyed hstored).ends hend
  have hcomplete := hkeyed.complete workOrder completion
  have hworkOrder := (View.of w).complete_workOrder workOrder completion
  have hincident := (View.of w).complete_incident workOrder completion
  -- The two ways to leave the work order complete.
  have unresolved : View.of w' = (View.of w).complete workOrder completion →
      CompletionStored workOrder completion w' ∧ ∀ id, Unchanged ⟨.incident, id⟩ w w' := by
    intro hsame
    rw [← hsame] at hworkOrder hincident
    exact ⟨hworkOrder, hincident⟩
  have resolved : ∀ {id}, settings.reached workOrder.incidentId = some id →
      ((View.of w).complete workOrder completion).Resolves id (View.of w') →
      CompletionStored workOrder completion w' ∧ IncidentResolved w' id ∧
        OnlyReachedResolved settings workOrder w w' := by
    intro id hreached h
    refine ⟨(h.workOrder workOrder.id).trans hworkOrder, h.resolved hcomplete, fun id' => ?_⟩
    by_cases hid : id' = id
    · exact .inr ⟨hid ▸ hreached, hid ▸ h.resolved hcomplete⟩
    · exact .inl ((h.incident hid).trans (hincident id'))
  rcases hview with ⟨hsame, e, rfl⟩ | ⟨hadmissible, hview⟩
  · have hunchanged : ∀ key, Unchanged key w w' :=
      fun key => congrFun (congrArg View.entities hsame) key
    exact ⟨nofun, fun _ _ => .inl ⟨hunchanged _, fun _ => hunchanged _⟩,
      fun _ => ⟨hunchanged _, fun _ => hunchanged _⟩⟩
  · refine ⟨?_, ?_, fun hrefused => absurd hadmissible hrefused⟩
    · rintro result rfl
      rcases hview with ⟨id, hreached, hresolves⟩ | ⟨hnone, hsame, hunset⟩
      · obtain ⟨hstored, hdone, honly⟩ := resolved hreached hresolves
        exact ⟨hstored, honly, .inl ⟨id, hreached, hdone⟩⟩
      · obtain ⟨hstored, hsame⟩ := unresolved hsame
        exact ⟨hstored, fun id => .inl (hsame id), .inr ⟨hunset, hnone, hsame _⟩⟩
    · rintro e rfl
      rcases hview with hsame | ⟨id, hreached, hresolves⟩
      · exact .inr ⟨(unresolved hsame).1, fun id => .inl ((unresolved hsame).2 id)⟩
      · obtain ⟨hstored, -, honly⟩ := resolved hreached hresolves
        exact .inr ⟨hstored, honly⟩

/-- A detected incident and an open work order for it.  (The first incident has an id that no
URL reaches.) -/
def openWorkOrder : Composed :=
  Sample.run Sample.remote
    ([.arrive (.simulateIncident Sample.incident Sample.manager),
      .arrive (.simulateIncident Sample.incident Sample.manager),
      .arrive (.decideActionPlan (Sample.decision "" "a" .approve) Sample.manager)] ++
      Sample.advances 0 7 ++ Sample.advances 1 7 ++ Sample.advances 2 10)

/-- The work order in `openWorkOrder`. -/
def openedWorkOrder : WorkOrder := .opened (Sample.decision "" "a" .approve) "aaa"

/-- The completion of the work order: the incident service refuses to move a detected
incident to `resolved`. -/
def refusedCompletion : Except Exc WorkOrder × platform.World :=
  Machine.execute [] (completeWorkOrder Sample.remote "aaa" Sample.completion Sample.worker)
    openWorkOrder.world

theorem refusedCompletion_ends : platform.Ends
    (completeWorkOrder Sample.remote "aaa" Sample.completion Sample.worker) openWorkOrder.world
    refusedCompletion.1 refusedCompletion.2 := Machine.ends_execute ..

theorem openedWorkOrder_stored :
    entity ⟨.workOrder, "aaa"⟩ openWorkOrder.world = some (.workOrder openedWorkOrder) := by
  decide +kernel

theorem completeWorkOrder_ends_refused :
    (Unchanged ⟨.workOrder, "aaa"⟩ openWorkOrder.world refusedCompletion.2 ∧
      ∀ id, Unchanged ⟨.incident, id⟩ openWorkOrder.world refusedCompletion.2) ∨
    (CompletionStored openedWorkOrder Sample.completion refusedCompletion.2 ∧
      OnlyReachedResolved Sample.remote openedWorkOrder openWorkOrder.world
        refusedCompletion.2) :=
  (completeWorkOrder_ends (keyed_of_reachable (Sample.reachable_run _ _)) openedWorkOrder_stored
    refusedCompletion_ends).2.1 (.httpStatusError 409) (by decide +kernel)

/-- A completion is not all or nothing. -/
theorem not_completion_allOrNothing : ¬ ∀ settings workOrderId completion principal workOrder w w'
    out, (View.of w).Keyed → entity ⟨.workOrder, workOrderId⟩ w = some (.workOrder workOrder) →
    platform.Ends (completeWorkOrder settings workOrderId completion principal) w out w' →
    AllOrNothing workOrder w out w' := by
  intro hall
  have hends := hall _ _ _ _ _ _ _ _ (keyed_of_reachable (Sample.reachable_run _ _))
    openedWorkOrder_stored refusedCompletion_ends
  have hraised : refusedCompletion.1 = .error (.httpStatusError 409) := by decide +kernel
  rw [hraised] at hends
  have hchanged : ¬ Unchanged ⟨.workOrder, "aaa"⟩ openWorkOrder.world refusedCompletion.2 := by
    unfold Unchanged
    decide +kernel
  exact hchanged hends.1

end AxSentinel
