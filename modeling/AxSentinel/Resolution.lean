import AxSentinel.Completion

/-! # The two ways to resolve an incident

`complete_work_order` resolves the incident through the incident service, which asks
`ALLOWED_TRANSITIONS`, or in the repository itself, which asks nothing and takes an absent
incident for a resolved one.  When nothing fails, and the URL of its status leads to the
incident, the two agree on an incident in progress and on nothing else (`waysAgree_iff`). -/
namespace AxSentinel
open Effects Service

/-- The status of the incident, if it is stored. -/
def storedStatus (incidentId : String) (w : platform.World) : Option IncidentStatus :=
  (entity ⟨.incident, incidentId⟩ w).bind Entity.incidentStatus

/-- The statuses of all incidents. -/
def statuses (w : platform.World) : String → Option IncidentStatus :=
  fun incidentId => storedStatus incidentId w

/-- Every item has a version, as `put` leaves it. -/
def Versioned (w : platform.World) : Prop :=
  ∀ key item, w.1.lookup key = some item → item.version.isSome = true

theorem versioned_of_reachable {settings : Settings} {uuids : UuidSupply} {s : Composed}
    (hs : Composed.Reachable settings uuids s) : Versioned s.world := by
  have H := hs.history
  generalize s.history = h, s.world = w at H
  induction H with
  | nil =>
    intro key item hitem
    cases hitem
  | @snoc h w i op c H hok ih =>
    intro key item hitem
    rcases exec_table i op c w with hsame | ⟨key', item', hwrote⟩
    · have htable : (platform.exec op c w).2.1 = w.1 := hsame
      exact ih key item (htable ▸ hitem)
    · obtain ⟨cond, hop, -, hins⟩ := hwrote
      obtain ⟨request, -, hallowed⟩ := hok
      obtain ⟨_, _, -, -, hversion, -⟩ := hallowed key' item' cond hop
      have htable : (platform.exec op c w).2.1 = w.1.insert key' item' := hins
      rw [htable] at hitem
      by_cases hkey : key = key'
      · subst hkey
        rw [AList.lookup_insert] at hitem
        obtain rfl := Option.some.inj hitem
        rw [hversion]
        rfl
      · rw [AList.lookup_insert_ne hkey] at hitem
        exact ih key item hitem

instance (workOrder : WorkOrder) (completion : WorkOrderCompletion) (principal : Principal) :
    Decidable (Admissible workOrder completion principal) := by
  unfold Admissible
  infer_instance

/-! ## Handlers, when nothing fails -/

section Rules
variable {β : Type} {w : platform.World} {Q : Except Exc β → platform.World → Prop}

theorem wp_get {t : EntityType} {id : String} {f : Option Entity → Service β}
    (h : reliablePlatform.wp (f (entity ⟨t, id⟩ w)) Q w) :
    reliablePlatform.wp (Service.get t id >>= f) Q w := by
  rw [DynamoRepository.get_left_bind]
  intro c
  exact h

/-- Storing an entity over another one, or none. -/
theorem wp_put (hversioned : Versioned w) {t : EntityType} {id : String} {v : Entity}
    {f : Unit → Service β}
    (h : ∀ w', Versioned w' →
      (∀ key, entity key w' = if key = ⟨t, id⟩ then some v else entity key w) →
      reliablePlatform.wp (f ()) Q w') :
    reliablePlatform.wp (Service.put t id v >>= f) Q w := by
  refine wp_put_over (hversioned ⟨t, id⟩) fun clock => ?_
  refine h _ (fun key item' hitem => ?_) (@entity_insert w _ ⟨t, id⟩
    (DynamoRepository.item t id v clock (w.1.lookup ⟨t, id⟩)) rfl)
  by_cases hkey : key = ⟨t, id⟩
  · subst hkey
    rw [AList.lookup_insert] at hitem
    obtain rfl := Option.some.inj hitem
    rfl
  · rw [AList.lookup_insert_ne hkey] at hitem
    exact hversioned key item' hitem

theorem wp_request {url : String} {f : Unit → Service β} (h : reliablePlatform.wp (f ()) Q w) :
    reliablePlatform.wp (Program.perform platformOps (.inr (.request url)) >>= f) Q w :=
  fun _ => h

theorem wp_response {f : Unit → Service β} (h : reliablePlatform.wp (f ()) Q w) :
    reliablePlatform.wp (Program.perform platformOps (.inr .response) >>= f) Q w :=
  fun _ => h

/-- Storing an incident changes its own status. -/
theorem statuses_of_store {w' : platform.World} {id : String} {v : Entity}
    (hstore : ∀ key, entity key w' = if key = ⟨.incident, id⟩ then some v else entity key w) :
    statuses w' = Function.update (statuses w) id v.incidentStatus := by
  funext id'
  rw [statuses, storedStatus, hstore]
  by_cases hid : id' = id
  · subst hid
    rw [if_pos rfl, Function.update_self, Option.bind_some]
  · rw [if_neg (by simpa using hid), Function.update_of_ne hid]
    rfl

/-- Storing another entity changes none. -/
theorem statuses_of_store_other {w' : platform.World} {key : Key} {v : Entity}
    (hstore : ∀ key', entity key' w' = if key' = key then some v else entity key' w)
    (hkey : key.entityType ≠ .incident) : statuses w' = statuses w := by
  funext id
  have hne : (⟨.incident, id⟩ : Key) ≠ key := fun h => hkey (h ▸ rfl)
  rw [statuses, storedStatus, hstore, if_neg hne]
  rfl

theorem keyed_of_store {w' : platform.World} {key : Key} {v : Entity}
    (hstore : ∀ key', entity key' w' = if key' = key then some v else entity key' w)
    (hkeyed : (View.of w).Keyed) (hkey : v.key = key) : (View.of w').Keyed := by
  intro key' u hu
  have hentity : entity key' w' = some u := hu
  rw [hstore key'] at hentity
  split at hentity
  · rename_i heq
    rw [heq, ← hkey, Option.some.inj hentity]
  · exact hkeyed key' u hentity

/-- How the incident service answers a request to resolve an incident. -/
theorem wp_updateIncidentStatus (hversioned : Versioned w) (hkeyed : (View.of w).Keyed)
    {incidentId : String} {principal : Principal}
    (hroles : principal.roles.any (· ∈ [Role.operatorManager, .fieldWorker, .systemAdmin]) = true) :
    reliablePlatform.wp (updateIncidentStatus incidentId ⟨.resolved⟩ principal) (fun out w' =>
      match out with
      | .ok _ => storedStatus incidentId w = some .inProgress ∧
          statuses w' = Function.update (statuses w) incidentId (some .resolved)
      | .error e => 400 ≤ responseStatus e ∧ storedStatus incidentId w ≠ some .inProgress ∧
          statuses w' = statuses w) w := by
  unfold updateIncidentStatus
  have hrequire : requireRoles [.operatorManager, .fieldWorker, .systemAdmin] principal = pure () :=
    if_pos hroles
  rw [hrequire]
  refine wp_get ?_
  cases hv : entity ⟨.incident, incidentId⟩ w with
  | none => exact ⟨by decide, by simp [storedStatus, hv], rfl⟩
  | some v =>
    have hkey := hkeyed _ v hv
    cases v with
    | incident incident =>
      have hid : incident.id = incidentId := congrArg Key.entityId hkey
      have hstatus : storedStatus incidentId w = some incident.status := by
        simp [storedStatus, hv, Entity.incidentStatus]
      change reliablePlatform.wp (ite _ _ _) _ w
      split
      · rename_i hforbidden
        refine ⟨(by decide : 400 ≤ 409), fun hprogress => hforbidden ?_, rfl⟩
        rw [hstatus] at hprogress
        rw [Option.some.inj hprogress]
        decide
      · rename_i hallowed
        refine wp_put hversioned fun w' _ hstore _ _ => ⟨?_, ?_⟩
        · have hallowed := not_not.mp hallowed
          rw [hstatus]
          revert hallowed
          cases incident.status <;> decide
        · exact (statuses_of_store hstore).trans (by rw [hid]; rfl)
    | _ => cases hkey

/-- What the incident's part of a completion does to the statuses, when nothing fails. -/
def Settles (settings : Settings) (incidentId : String)
    (before : String → Option IncidentStatus) (succeeds : Bool)
    (after : String → Option IncidentStatus) : Prop :=
  if isSet settings.incidentServiceUrl = true then
    if ∃ id, settings.reached incidentId = some id ∧ before id = some .inProgress then
      ∃ id, settings.reached incidentId = some id ∧ before id = some .inProgress ∧
        succeeds = true ∧ after = Function.update before id (some .resolved)
    else succeeds = false ∧ after = before
  else succeeds = true ∧
    after = Function.update before incidentId ((before incidentId).map fun _ => .resolved)

/-- The incident service moves the incident the URL reaches, if it is in progress. -/
theorem wp_patchIncidentStatus (settings : Settings) (hversioned : Versioned w)
    (hkeyed : (View.of w).Keyed) {incidentId : String} {principal : Principal}
    (hroles : principal.roles.any (· ∈ [Role.operatorManager, .fieldWorker, .systemAdmin]) = true)
    (hset : isSet settings.incidentServiceUrl = true) :
    reliablePlatform.wp (patchIncidentStatus settings incidentId .resolved principal)
      (fun out w' => Settles settings incidentId (statuses w) out.isOk (statuses w')) w := by
  unfold patchIncidentStatus
  dsimp only
  split
  · rename_i hroute
    refine (if_pos hset).mpr ((if_neg ?_).mpr ⟨rfl, rfl⟩)
    simp [Settings.reached_of_route hset hroute, StatusRoute.incident?]
  · rename_i route hroute
    refine wp_request (Machine.wp_bind.mpr ?_)
    cases route with
    | unrouted statusCode refused =>
      refine wp_response ?_
      rw [if_pos refused]
      refine (if_pos hset).mpr ((if_neg ?_).mpr ⟨rfl, rfl⟩)
      simp [Settings.reached_of_route hset hroute, StatusRoute.incident?]
    | incident id =>
      have hid : settings.reached incidentId = some id := Settings.reached_of_route hset hroute
      refine Machine.wp_tryCatch.mpr (Machine.wp_bind.mpr ?_)
      refine Machine.wp_mono (wp_updateIncidentStatus hversioned hkeyed hroles)
        fun out w' hout => ?_
      cases out with
      | ok incident =>
        obtain ⟨hprogress, hresolved⟩ := hout
        refine wp_response ((if_pos hset).mpr ((if_pos ⟨id, hid, hprogress⟩).mpr ?_))
        exact ⟨id, hid, hprogress, rfl, hresolved⟩
      | error e =>
        obtain ⟨hrefused, hprogress, hsame⟩ := hout
        refine wp_response ?_
        rw [if_pos (by omega)]
        refine (if_pos hset).mpr ((if_neg ?_).mpr ⟨rfl, hsame⟩)
        rintro ⟨id', hid', hprogress'⟩
        obtain rfl := Option.some.inj (hid.symm.trans hid')
        exact hprogress hprogress'

theorem wp_resolveIncident (settings : Settings) (hversioned : Versioned w)
    (hkeyed : (View.of w).Keyed) {incidentId : String} {principal : Principal}
    (hroles : principal.roles.any (· ∈ [Role.operatorManager, .fieldWorker, .systemAdmin]) = true) :
    reliablePlatform.wp (resolveIncident settings incidentId principal) (fun out w' =>
      Settles settings incidentId (statuses w) out.isOk (statuses w')) w := by
  unfold resolveIncident
  by_cases hset : isSet settings.incidentServiceUrl = true
  · rw [if_pos hset]
    exact wp_patchIncidentStatus settings hversioned hkeyed hroles hset
  · rw [if_neg hset]
    refine wp_get ?_
    cases hv : entity ⟨.incident, incidentId⟩ w with
    | none =>
      have hstatus : statuses w incidentId = none := by simp [statuses, storedStatus, hv]
      refine (if_neg hset).mpr ⟨rfl, ?_⟩
      rw [hstatus, Option.map_none, ← hstatus, Function.update_eq_self]
    | some v =>
      have hkey := hkeyed _ v hv
      cases v with
      | incident incident =>
        have hstatus : statuses w incidentId = some incident.status := by
          simp [statuses, storedStatus, hv, Entity.incidentStatus]
        refine wp_put hversioned fun w' _ hstore => ?_
        have hresolved : statuses w' = Function.update (statuses w) incidentId
            ((statuses w incidentId).map fun _ => .resolved) := by
          rw [statuses_of_store hstore, hstatus]
          rfl
        split
        · exact fun _ => (if_neg hset).mpr ⟨rfl, hresolved⟩
        · exact (if_neg hset).mpr ⟨rfl, hresolved⟩
      | _ => cases hkey

/-- What a completion does to the statuses of the incidents, when nothing fails. -/
theorem wp_completeWorkOrder (settings : Settings) (hversioned : Versioned w)
    (hkeyed : (View.of w).Keyed) {workOrderId : String} (completion : WorkOrderCompletion)
    (principal : Principal) {workOrder : WorkOrder}
    (hstored : entity ⟨.workOrder, workOrderId⟩ w = some (.workOrder workOrder)) :
    reliablePlatform.wp (completeWorkOrder settings workOrderId completion principal) (fun out w' =>
      if Admissible workOrder completion principal then
        Settles settings workOrder.incidentId (statuses w) out.isOk (statuses w')
      else out.isOk = false ∧ statuses w' = statuses w) w := by
  unfold completeWorkOrder
  by_cases hroles : principal.roles.any (· ∈ [Role.fieldWorker, .systemAdmin]) = true
  · have hrequire : requireRoles [.fieldWorker, .systemAdmin] principal = pure () := if_pos hroles
    rw [hrequire]
    refine wp_get ?_
    rw [hstored]
    change reliablePlatform.wp (ite _ _ _) _ w
    split
    · rename_i hconfirmed
      exact (if_neg fun h => by simp [h.2.1] at hconfirmed).mpr ⟨rfl, rfl⟩
    · rename_i hconfirmed
      change reliablePlatform.wp (ite _ _ _) _ w
      split
      · rename_i hmissing
        exact (if_neg fun h => hmissing h.2.2).mpr ⟨rfl, rfl⟩
      · rename_i hmissing
        have hadmissible : Admissible workOrder completion principal :=
          ⟨hroles, by simpa using hconfirmed, not_not.mp hmissing⟩
        simp only [if_pos hadmissible]
        refine wp_put hversioned fun w' hversioned' hstore => Machine.wp_bind.mpr ?_
        have hkeyed' : (View.of w').Keyed := keyed_of_store hstore hkeyed rfl
        have hroles' : principal.roles.any
            (· ∈ [Role.operatorManager, .fieldWorker, .systemAdmin]) = true := by
          obtain ⟨role, hrole, hmem⟩ := List.any_eq_true.mp hroles
          refine List.any_eq_true.mpr ⟨role, hrole, ?_⟩
          revert hmem
          cases role <;> decide
        refine Machine.wp_mono (wp_resolveIncident settings hversioned' hkeyed' hroles')
          fun out w'' hsettles => ?_
        rw [statuses_of_store_other hstore nofun] at hsettles
        cases out with
        | ok _ => exact fun _ => hsettles
        | error e => exact hsettles
  · have hrequire : requireRoles [.fieldWorker, .systemAdmin] principal =
        throw (.http 403 "Insufficient role") := if_neg hroles
    rw [hrequire]
    exact (if_neg fun h => hroles h.1).mpr ⟨rfl, rfl⟩

end Rules

/-! ## Agreement -/

/-- A change of the incident's status is one `ALLOWED_TRANSITIONS` allows. -/
def AllowedChange (before after : Option IncidentStatus) : Prop :=
  after = before ∨ ∃ status status', before = some status ∧ after = some status' ∧
    status' ∈ allowedTransitions status

/-- Through the incident service and without it, a completion ends with the same success or
failure and the same status of the incident, reached by an allowed transition. -/
def WaysAgree (remote direct : Settings) (workOrderId incidentId : String)
    (completion : WorkOrderCompletion) (principal : Principal) (w : platform.World) : Prop :=
  ∀ out w' out' w'',
    reliablePlatform.Ends (completeWorkOrder remote workOrderId completion principal) w out w' →
    reliablePlatform.Ends (completeWorkOrder direct workOrderId completion principal) w out' w'' →
    out.isOk = out'.isOk ∧ storedStatus incidentId w' = storedStatus incidentId w'' ∧
      AllowedChange (storedStatus incidentId w) (storedStatus incidentId w') ∧
      AllowedChange (storedStatus incidentId w) (storedStatus incidentId w'')

/-- The handler's own checks refuse the completion, or the incident service is led to an incident
in progress: to the work order's, or to another one where that is not there, or resolved. -/
def RefusedOrReached (remote : Settings) (workOrder : WorkOrder) (completion : WorkOrderCompletion)
    (principal : Principal) (w : platform.World) : Prop :=
  Admissible workOrder completion principal → ∃ id, remote.reached workOrder.incidentId = some id ∧
    storedStatus id w = some .inProgress ∧ (id = workOrder.incidentId ∨
      storedStatus workOrder.incidentId w = none ∨
      storedStatus workOrder.incidentId w = some .resolved)

/-- A completion of the work order of an incident in progress, which both ways resolve. -/
theorem waysAgree_of_resolved {incidentId : String} {w w' w'' : platform.World}
    (hbefore : storedStatus incidentId w = some .inProgress)
    (hremote : statuses w' = Function.update (statuses w) incidentId (some .resolved))
    (hdirect : statuses w'' = Function.update (statuses w) incidentId
      ((statuses w incidentId).map fun _ => .resolved)) :
    storedStatus incidentId w' = storedStatus incidentId w'' ∧
      AllowedChange (storedStatus incidentId w) (storedStatus incidentId w') ∧
      AllowedChange (storedStatus incidentId w) (storedStatus incidentId w'') := by
  have hw' : storedStatus incidentId w' = some .resolved := by
    rw [show storedStatus incidentId w' = statuses w' incidentId from rfl, hremote,
      Function.update_self]
  have hw'' : storedStatus incidentId w'' = some .resolved := by
    rw [show storedStatus incidentId w'' = statuses w'' incidentId from rfl, hdirect,
      Function.update_self, show statuses w incidentId = some .inProgress from hbefore,
      Option.map_some]
  have hallowed : AllowedChange (some .inProgress) (some .resolved) :=
    .inr ⟨_, _, rfl, rfl, by decide⟩
  rw [hw', hw'', hbefore]
  exact ⟨rfl, hallowed, hallowed⟩

/-- **When the two ways agree.**  When nothing fails, the two ways to resolve the incident of
a stored work order agree exactly when the handler's own checks refuse the completion or the
incident service is led to an incident in progress: the work order's own, or, where that is not
there or resolved, another one. -/
theorem waysAgree_iff {remote direct : Settings} (hremote : isSet remote.incidentServiceUrl = true)
    (hdirect : isSet direct.incidentServiceUrl = false) {w : platform.World}
    (hversioned : Versioned w) (hkeyed : (View.of w).Keyed) {workOrderId : String}
    {completion : WorkOrderCompletion} {principal : Principal} {workOrder : WorkOrder}
    (hstored : entity ⟨.workOrder, workOrderId⟩ w = some (.workOrder workOrder)) :
    WaysAgree remote direct workOrderId workOrder.incidentId completion principal w ↔
      RefusedOrReached remote workOrder completion principal w := by
  have spec := fun settings => wp_completeWorkOrder settings hversioned hkeyed
    completion principal hstored
  have hunset : ¬ isSet direct.incidentServiceUrl = true := by simp [hdirect]
  constructor
  · intro hagree hadmissible
    have hends := Machine.ends_execute (M := reliablePlatform) []
      (completeWorkOrder remote workOrderId completion principal) w
    have hends' := Machine.ends_execute (M := reliablePlatform) []
      (completeWorkOrder direct workOrderId completion principal) w
    obtain ⟨hsucceeds, hsame, -⟩ := hagree _ _ _ _ hends hends'
    have hsettles := (if_pos hremote).mp ((if_pos hadmissible).mp (hends.of_wp (spec _)))
    obtain ⟨hok', hafter'⟩ := (if_neg hunset).mp ((if_pos hadmissible).mp (hends'.of_wp (spec _)))
    split at hsettles
    · obtain ⟨id, hid, hprogress, -, hafter⟩ := hsettles
      refine ⟨id, hid, hprogress, ?_⟩
      by_cases hown : id = workOrder.incidentId
      · exact .inl hown
      -- the incident service leaves the work order's own incident as it is, the other way does not
      have hkept : storedStatus workOrder.incidentId _ = storedStatus workOrder.incidentId w :=
        (congrFun hafter workOrder.incidentId).trans (Function.update_of_ne (Ne.symm hown) _ _)
      have hresolved : storedStatus workOrder.incidentId _ =
          (storedStatus workOrder.incidentId w).map fun _ => .resolved :=
        (congrFun hafter' workOrder.incidentId).trans (Function.update_self ..)
      rw [hkept, hresolved] at hsame
      cases hstatus : storedStatus workOrder.incidentId w with
      | none => exact .inr (.inl rfl)
      | some status => exact .inr (.inr (by rw [← hstatus, hsame, hstatus, Option.map_some]))
    · rw [hsettles.1, hok'] at hsucceeds
      cases hsucceeds
  · intro hcondition out w' out' w'' hend hend'
    by_cases hadmissible : Admissible workOrder completion principal
    · obtain ⟨id, hid, hprogress, hown⟩ := hcondition hadmissible
      have hsettles := (if_pos hremote).mp ((if_pos hadmissible).mp (hend.of_wp (spec _)))
      rw [if_pos ⟨id, hid, hprogress⟩] at hsettles
      obtain ⟨id', hid', -, hok, hafter⟩ := hsettles
      obtain rfl := Option.some.inj (hid.symm.trans hid')
      obtain ⟨hok', hafter'⟩ := (if_neg hunset).mp ((if_pos hadmissible).mp (hend'.of_wp (spec _)))
      refine ⟨hok.trans hok'.symm, ?_⟩
      by_cases hne : id = workOrder.incidentId
      · subst hne
        exact waysAgree_of_resolved hprogress hafter hafter'
      · have hunchanged : (storedStatus workOrder.incidentId w).map (fun _ => .resolved) =
            storedStatus workOrder.incidentId w := by
          rcases hown.resolve_left hne with hnone | hresolved
          · rw [hnone, Option.map_none]
          · rw [hresolved, Option.map_some]
        have hkept : storedStatus workOrder.incidentId w' = storedStatus workOrder.incidentId w :=
          (congrFun hafter workOrder.incidentId).trans (Function.update_of_ne (Ne.symm hne) _ _)
        have hkept' : storedStatus workOrder.incidentId w'' = storedStatus workOrder.incidentId w :=
          ((congrFun hafter' workOrder.incidentId).trans (Function.update_self ..)).trans hunchanged
        exact ⟨hkept.trans hkept'.symm, .inl hkept, .inl hkept'⟩
    · obtain ⟨hfails, hsame⟩ := (if_neg hadmissible).mp (hend.of_wp (spec _))
      obtain ⟨hfails', hsame'⟩ := (if_neg hadmissible).mp (hend'.of_wp (spec _))
      have hkept := congrFun hsame workOrder.incidentId
      have hkept' := congrFun hsame' workOrder.incidentId
      exact ⟨hfails.trans hfails'.symm, hkept.trans hkept'.symm, .inl hkept, .inl hkept'⟩

/-- The open work order for a detected incident. -/
theorem waysAgree_iff_detected :
    WaysAgree Sample.remote Sample.direct "aaa" "a" Sample.completion Sample.worker
      openWorkOrder.world ↔
    RefusedOrReached Sample.remote openedWorkOrder Sample.completion Sample.worker
      openWorkOrder.world :=
  have hreach : Composed.Reachable Sample.remote .unary openWorkOrder := Sample.reachable_run _ _
  waysAgree_iff rfl rfl (versioned_of_reachable hreach) (keyed_of_reachable hreach)
    openedWorkOrder_stored

/-- The two ways differ: a detected incident is resolved without the incident service, and not
with it. -/
theorem not_waysAgree : ¬ ∀ remote direct workOrderId completion principal workOrder w,
    isSet remote.incidentServiceUrl = true → isSet direct.incidentServiceUrl = false →
    Versioned w → (View.of w).Keyed →
    entity ⟨.workOrder, workOrderId⟩ w = some (.workOrder workOrder) →
    WaysAgree remote direct workOrderId workOrder.incidentId completion principal w := by
  intro hall
  have hreach : Composed.Reachable Sample.remote .unary openWorkOrder := Sample.reachable_run _ _
  have hagree := hall Sample.remote Sample.direct _ Sample.completion Sample.worker _ _ rfl rfl
    (versioned_of_reachable hreach) (keyed_of_reachable hreach) openedWorkOrder_stored
  have hsame := (hagree _ _ _ _ (Machine.ends_execute (M := reliablePlatform) [] _ _)
    (Machine.ends_execute (M := reliablePlatform) [] _ _)).1
  have hremote : (Machine.execute (M := reliablePlatform) [] (completeWorkOrder Sample.remote "aaa"
      Sample.completion Sample.worker) openWorkOrder.world).1.isOk = false := by decide +kernel
  have hdirect : (Machine.execute (M := reliablePlatform) [] (completeWorkOrder Sample.direct "aaa"
      Sample.completion Sample.worker) openWorkOrder.world).1.isOk = true := by decide +kernel
  rw [hremote, hdirect] at hsame
  cases hsame

end AxSentinel
