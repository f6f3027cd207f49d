import AxSentinel.Console

/-! # The stages of a status update

The stages of a request are the operations of `update_incident_status`: the next operation of the
handler has an effect and an outcome that `perform` has too (`perform_simulates`).  Two steps differ
in grain: `put` reads the clock first, which is no stage, and the broadcast, one operation of the
handler, goes from socket to socket. -/
namespace AxSentinel
open Effects Service ConsoleSystem

/-- The item of the repository is the one of the console system. -/
def SameItem (item : Option (Item (Attributes Entity))) (x : Option Sighting) : Prop :=
  item.map (fun item => (item.version, item.attributes.data)) =
    x.map fun x => (x.version, Entity.incident x.attributes)

/-- The table has the incidents of the world. -/
def IncidentTable.Of (t : IncidentTable) (world : platform.World) : Prop :=
  ∀ id, SameItem (world.1.lookup ⟨.incident, id⟩) (t.item id)

/-! ## What is left to do -/

namespace StatusUpdate
variable (previousStatus : IncidentStatus) (incident : Incident) (principal : Principal)

/-- After the write. -/
def announce : Service Incident := do
  publish ⟨"incident.status_changed", .statusChanged incident.id incident.id
    incident.equipmentId previousStatus incident.status, some incident.id,
    some principal.subject, false⟩
  broadcast "ax-sentinel.incidents" (.incident incident)
  pure incident

/-- After `put` has read the item. -/
def writeBack (clock : Nat) (current : Option (Item (Attributes Entity))) : Service Incident :=
  .call (.inl (.putItem ⟨.incident, incident.id⟩
    (DynamoRepository.item .incident incident.id (.incident incident) clock current)
    (.unchanged current))) fun
    | .error e => .raise (DynamoRepository.putError .incident incident.id e)
    | .ok _ => announce previousStatus incident principal

/-- After `put` has read the clock. -/
def readBack (clock : Nat) : Service Incident :=
  .call (.inl (.getItem ⟨.incident, incident.id⟩)) fun
    | .error e => .raise e
    | .ok current => writeBack previousStatus incident principal clock current

/-- From `put` on. -/
def store : Service Incident :=
  Service.put .incident incident.id (.incident incident) >>= fun _ =>
    announce previousStatus incident principal

theorem store_eq : store previousStatus incident principal = .call (.inl .now) fun
    | .error e => .raise e
    | .ok clock => readBack previousStatus incident principal clock := by
  rw [store, DynamoRepository.put_left_bind]
  refine Program.call_congr (F := platformOps) (fun _ => ?_) fun _ => rfl
  refine Program.call_congr (F := platformOps) (fun _ => ?_) fun _ => rfl
  exact Program.call_congr (F := platformOps) (fun _ => rfl) fun _ => rfl

/-- After the incident is read. -/
def move (status : IncidentStatus) : Option (Item (Attributes Entity)) → Service Incident
  | none => throw (.http 404 "Incident not found")
  | some item => do
    let incident ← Program.ofExcept (Incident.modelValidate item.attributes.data)
    if status ∉ allowedTransitions incident.status then
      throw (.http 409 ("Invalid transition: " ++ incident.status.value ++ " -> " ++
        status.value))
    else
      store incident.status { incident with status := status } principal

/-- The whole request, of a caller with a role. -/
theorem updateIncidentStatus_eq {incidentId : String} {status : IncidentStatus}
    (hroles : principal.roles.any
      (· ∈ [Role.operatorManager, .fieldWorker, .systemAdmin]) = true) :
    updateIncidentStatus incidentId ⟨status⟩ principal =
      .call (.inl (.getItem ⟨.incident, incidentId⟩)) fun
        | .error e => .raise e
        | .ok item => move principal status item := by
  unfold updateIncidentStatus requireRoles
  rw [if_pos hroles]
  refine (DynamoRepository.get_left_bind ..).trans ?_
  refine Program.call_congr (F := platformOps) (fun item => ?_) fun _ => rfl
  cases item with
  | none => rfl
  | some item => rfl

end StatusUpdate

open StatusUpdate

/-- The request at the stage has the program left to do. -/
inductive UpdateStage.Remains : UpdateStage → Service Incident → Prop
  | get {incidentId status principal} :
      principal.roles.any (· ∈ [Role.operatorManager, .fieldWorker, .systemAdmin]) = true →
      Remains (.get incidentId status) (updateIncidentStatus incidentId ⟨status⟩ principal)
  | store {previousStatus incident principal} :
      Remains (.getItem incident) (store previousStatus incident principal)
  | getItem {previousStatus incident principal clock} :
      Remains (.getItem incident) (readBack previousStatus incident principal clock)
  | putItem {previousStatus incident principal clock current x} : SameItem current x →
      Remains (.putItem incident x) (writeBack previousStatus incident principal clock current)
  | publish {previousStatus principal x} :
      Remains (.publish x) (announce previousStatus x.attributes principal)
  | startBroadcast {x} :
      Remains (.startBroadcast x) (broadcast "ax-sentinel.incidents" (.incident x.attributes) >>=
        fun _ => pure x.attributes)
  | returned {incident} : Remains .ended (.ret incident)
  | raised {e} : Remains .ended (.raise e)

/-! ## The operations -/

section Items
variable {item : Option (Item (Attributes Entity))} {x : Option Sighting}

theorem SameItem.versionOf_eq (h : SameItem item x) : versionOf item = versionOf x := by
  cases item with
  | none =>
    cases x with
    | none => rfl
    | some x => cases h
  | some item =>
    cases x with
    | none => cases h
    | some x => exact congrArg (fun p => (p.bind Prod.fst).getD 0) h

theorem SameItem.unchanged_eq (h : SameItem item x) :
    Condition.unchanged item = Condition.unchanged x := by
  have hnone : item.isNone = x.isNone := by
    have h := congrArg Option.isNone h
    rwa [Option.isNone_map, Option.isNone_map] at h
  rw [Condition.unchanged, Condition.unchanged, hnone, h.versionOf_eq]

theorem SameItem.holds_iff (h : SameItem item x) (c : Condition) : c.Holds item ↔ c.Holds x := by
  cases item with
  | none =>
    cases x with
    | none => cases c with
      | attributeNotExists => exact ⟨fun _ => rfl, fun _ => rfl⟩
      | versionIs v => simp [Condition.Holds]
    | some x => cases h
  | some item =>
    cases x with
    | none => cases h
    | some x =>
      obtain ⟨hversion, -⟩ := Prod.mk.inj (Option.some.inj h)
      cases c with
      | attributeNotExists => simp [Condition.Holds]
      | versionIs v => simp [Condition.Holds, hversion]

theorem IncidentTable.Of.of_table {t : IncidentTable} {world world' : platform.World}
    (hof : t.Of world) (hworld : world'.1 = world.1) : t.Of world' := fun id => hworld ▸ hof id

/-- The table with the incident is that of the world with its item. -/
theorem IncidentTable.Of.put {t : IncidentTable} {world world' : platform.World}
    {incident : Incident} {clock : Nat} (hof : t.Of world) (h : SameItem item x)
    (hworld : world'.1 = world.1.insert ⟨.incident, incident.id⟩
      (DynamoRepository.item .incident incident.id (.incident incident) clock item)) :
    (t.put ⟨some (versionOf x + 1), incident⟩).Of world' := by
  intro id
  rw [hworld]
  by_cases hid : id = incident.id
  · subst hid
    rw [AList.lookup_insert, t.put_self ⟨some (versionOf x + 1), incident⟩, ← h.versionOf_eq]
    rfl
  · have hkey : (⟨.incident, id⟩ : Key) ≠ ⟨.incident, incident.id⟩ :=
      fun hkey => hid (congrArg Key.entityId hkey)
    rw [AList.lookup_insert_ne hkey, IncidentTable.put_other hid]
    exact hof id

/-- What holds of the item in the world holds of the incident in the table. -/
theorem IncidentTable.Of.unchanged {t : IncidentTable} {world : platform.World}
    {incident : Incident} (hof : t.Of world) (h : SameItem item x)
    (hholds : (Condition.unchanged item).Holds (world.1.lookup ⟨.incident, incident.id⟩)) :
    (Condition.unchanged x).Holds (t.item incident.id) :=
  h.unchanged_eq ▸ ((hof incident.id).holds_iff _).mp hholds

end Items

namespace ConsoleSystem
variable {w : ConsoleSystem} {k : Nat} {world world' : platform.World}

/-- The request comes to a stage with the program left to do, and the table has the incidents. -/
structure Comes (w : ConsoleSystem) (k : Nat) (p : Service Incident) (world : platform.World) :
    Prop where
  table : w.table.Of world
  remains : ∃ stage, w.requests[k]? = some stage ∧ stage.Remains p

theorem Comes.of_table {p : Service Incident} (h : w.Comes k p world)
    (hworld : world'.1 = world.1) : w.Comes k p world' :=
  ⟨h.table.of_table hworld, h.remains⟩

theorem Comes.setStage {stage stage' : UpdateStage} {p : Service Incident}
    (hk : w.requests[k]? = some stage) (hof : w.table.Of world) (h : stage'.Remains p) :
    (w.setStage k stage').Comes k p world where
  table := hof
  remains := ⟨stage', List.getElem?_set_self (List.getElem?_eq_some_iff.mp hk).1, h⟩

section Stages
variable {incidentId : String} {status previousStatus : IncidentStatus} {incident : Incident}
  {principal : Principal} {clock : Nat} {current : Option (Item (Attributes Entity))}
  {x : Option Sighting} {e : Exc}

theorem perform_get_none {outcome : Outcome} (h : w.table.item incidentId = none) :
    w.perform k outcome (.get incidentId status) = w.setStage k .ended := by
  simp only [perform, h]

theorem perform_get_some {outcome : Outcome} {x : Sighting}
    (h : w.table.item incidentId = some x) :
    w.perform k outcome (.get incidentId status) =
      if outcome = .done ∧ status ∈ allowedTransitions x.attributes.status then
        w.setStage k (.getItem { x.attributes with status := status })
      else w.setStage k .ended := by
  simp only [perform, h]

theorem comes_move (hk : w.requests[k]? = some (.get incidentId status)) (hof : w.table.Of world) :
    (w.perform k .done (.get incidentId status)).Comes k
      (move principal status (world.1.lookup ⟨.incident, incidentId⟩)) world := by
  have hsame := hof incidentId
  cases hx : w.table.item incidentId with
  | none =>
    rw [hx] at hsame
    rw [perform_get_none hx, Option.map_eq_none_iff.mp hsame]
    exact .setStage hk hof .raised
  | some x =>
    rw [hx] at hsame
    obtain ⟨item, hitem, hdata⟩ := Option.map_eq_some_iff.mp hsame
    have hmove : move principal status (some item) =
        if status ∉ allowedTransitions x.attributes.status then
          throw (.http 409 ("Invalid transition: " ++ x.attributes.status.value ++ " -> " ++
            status.value))
        else store x.attributes.status { x.attributes with status := status } principal := by
      rw [move, (Prod.mk.inj hdata).2]
      rfl
    rw [perform_get_some hx, hitem, hmove]
    by_cases hstatus : status ∈ allowedTransitions x.attributes.status
    · rw [if_neg (not_not_intro hstatus), if_pos ⟨rfl, hstatus⟩]
      exact .setStage hk hof .store
    · rw [if_pos hstatus, if_neg fun h => hstatus h.2]
      exact .setStage hk hof .raised

theorem comes_failed_get (hk : w.requests[k]? = some (.get incidentId status))
    (hof : w.table.Of world) :
    (w.perform k .lost (.get incidentId status)).Comes k (.raise e) world := by
  cases hx : w.table.item incidentId with
  | none =>
    rw [perform_get_none hx]
    exact .setStage hk hof .raised
  | some x =>
    rw [perform_get_some hx, if_neg fun h => nomatch h.1]
    exact .setStage hk hof .raised

theorem comes_written (hk : w.requests[k]? = some (.putItem incident x)) (hof : w.table.Of world)
    (hsame : SameItem current x)
    (hholds : (Condition.unchanged current).Holds (world.1.lookup ⟨.incident, incident.id⟩))
    (hworld : world'.1 = world.1.insert ⟨.incident, incident.id⟩
      (DynamoRepository.item .incident incident.id (.incident incident) clock current)) :
    (w.perform k .done (.putItem incident x)).Comes k
      (announce previousStatus incident principal) world' := by
  simp only [perform]
  rw [if_pos ⟨nofun, hof.unchanged hsame hholds⟩]
  exact ⟨hof.put hsame hworld, _, List.getElem?_set_self (List.getElem?_eq_some_iff.mp hk).1,
    .publish⟩

theorem comes_late (hk : w.requests[k]? = some (.putItem incident x)) (hof : w.table.Of world)
    (hsame : SameItem current x)
    (hholds : (Condition.unchanged current).Holds (world.1.lookup ⟨.incident, incident.id⟩))
    (hworld : world'.1 = world.1.insert ⟨.incident, incident.id⟩
      (DynamoRepository.item .incident incident.id (.incident incident) clock current)) :
    (w.perform k .late (.putItem incident x)).Comes k (.raise e) world' := by
  simp only [perform]
  rw [if_pos ⟨nofun, hof.unchanged hsame hholds⟩]
  exact ⟨hof.put hsame hworld, _, List.getElem?_set_self (List.getElem?_eq_some_iff.mp hk).1,
    .raised⟩

theorem comes_unwritten (hk : w.requests[k]? = some (.putItem incident x))
    (hof : w.table.Of world) :
    (w.perform k .lost (.putItem incident x)).Comes k (.raise e) world := by
  simp only [perform]
  rw [if_neg fun h => h.1 rfl]
  exact .setStage hk hof .raised

end Stages

/-- The next operation of the handler, but for the broadcast, does what `perform` does with some
outcome, or reads the clock. -/
theorem perform_simulates {stage : UpdateStage} {op : platformOps.Op}
    {next : Except Exc (platformOps.Reply op) → Service Incident}
    (hk : w.requests[k]? = some stage) (hof : w.table.Of world) (h : stage.Remains (.call op next))
    (hbroadcast : ∀ x, stage ≠ .startBroadcast x) (c : platform.Choice) :
    ∃ w' : ConsoleSystem,
      (op = .inl .now ∧ w' = w ∨ ∃ outcome, w' = w.perform k outcome stage) ∧
      w'.Comes k (next (platform.exec op c world).1) (platform.exec op c world).2 := by
  generalize hp : Program.call op next = p at h
  cases h with
  | @get incidentId status principal hroles =>
    rw [updateIncidentStatus_eq principal hroles] at hp
    obtain ⟨rfl, hnext⟩ := Program.call.inj hp
    obtain rfl := eq_of_heq hnext
    obtain ⟨htable, hlookup⟩ :=
      TableMachine.exec_get (M := platform) ⟨.incident, incidentId⟩ c world
    have hof' := hof.of_table htable
    cases hreply : (platform.exec (.inl (.getItem ⟨.incident, incidentId⟩)) c world).1 with
    | ok item =>
      obtain rfl := hlookup item hreply
      exact ⟨_, .inr ⟨.done, rfl⟩, (comes_move hk hof).of_table htable⟩
    | error e => exact ⟨_, .inr ⟨.lost, rfl⟩, comes_failed_get hk hof'⟩
  | @store previousStatus incident principal =>
    rw [store_eq] at hp
    obtain ⟨rfl, hnext⟩ := Program.call.inj hp
    obtain rfl := eq_of_heq hnext
    rw [exec_infallible rfl]
    exact ⟨w, .inl ⟨rfl, rfl⟩, hof, _, hk, .getItem⟩
  | @getItem previousStatus incident principal clock =>
    obtain ⟨rfl, hnext⟩ := Program.call.inj hp
    obtain rfl := eq_of_heq hnext
    obtain ⟨htable, hlookup⟩ :=
      TableMachine.exec_get (M := platform) ⟨.incident, incident.id⟩ c world
    have hof' := hof.of_table htable
    cases hreply : (platform.exec (.inl (.getItem ⟨.incident, incident.id⟩)) c world).1 with
    | ok current =>
      obtain rfl := hlookup current hreply
      exact ⟨_, .inr ⟨.done, rfl⟩, .setStage hk hof' (.putItem (hof incident.id))⟩
    | error e => exact ⟨_, .inr ⟨.lost, rfl⟩, .setStage hk hof' .raised⟩
  | @putItem previousStatus incident principal clock current x hsame =>
    obtain ⟨rfl, hnext⟩ := Program.call.inj hp
    obtain rfl := eq_of_heq hnext
    rcases TableMachine.exec_put (M := platform) _ _ _ c world with
      ⟨htable, hno⟩ | ⟨hholds, htable⟩
    · generalize platform.exec _ c world = out at htable hno ⊢
      obtain ⟨reply, world'⟩ := out
      cases reply with
      | ok r => exact absurd rfl (hno r)
      | error e => exact ⟨_, .inr ⟨.lost, rfl⟩, comes_unwritten hk (hof.of_table htable)⟩
    · generalize platform.exec _ c world = out at htable ⊢
      obtain ⟨reply, world'⟩ := out
      cases reply with
      | ok r =>
        exact ⟨_, .inr ⟨.done, rfl⟩, comes_written hk hof hsame hholds htable⟩
      | error e =>
        exact ⟨_, .inr ⟨.late, rfl⟩, comes_late hk hof hsame hholds htable⟩
  | @publish previousStatus principal x =>
    obtain ⟨rfl, hnext⟩ := Program.call.inj hp
    obtain rfl := eq_of_heq hnext
    generalize hout : platform.exec _ c world = out
    have hof' : w.table.Of out.2 := hof.of_table (hout ▸ TableMachine.exec_other _ c world)
    obtain ⟨reply, world'⟩ := out
    cases reply with
    | ok r => exact ⟨_, .inr ⟨.done, rfl⟩, .setStage hk hof' .startBroadcast⟩
    | error e => exact ⟨_, .inr ⟨.lost, rfl⟩, .setStage hk hof' .raised⟩
  | startBroadcast => exact absurd rfl (hbroadcast _)
  | returned => cases hp
  | raised => cases hp

end ConsoleSystem
end AxSentinel
