import AxSentinel.Models
import AxSentinel.Ranking
import AxSentinel.Service
import AxSentinel.StoreRules
import AxSentinel.Tokens

/-! # The asset service

`services/asset/app/main.py`: the equipment, of which the one press is stored when it is first asked
for, and the maintenance records of an equipment.  `AssetRequest.follows` says of each handler what
it may write, and what it has read when it answers. -/
namespace AxSentinel
open Effects

/-! ## Records -/

/-- A `datetime`, as a count of microseconds on its own clock, with or without an offset from
UTC. -/
inductive PerformedAt where
  | naive (clock : Int)
  | aware (clock offset : Int)
deriving DecidableEq, Repr

/-- The time has an offset. -/
def PerformedAt.isAware : PerformedAt → Bool
  | naive _ => false
  | aware .. => true

/-- What times of one kind are compared by. -/
def PerformedAt.instant : PerformedAt → Int
  | naive clock => clock
  | aware clock offset => clock - offset

structure Equipment where
  id : String
  name : String
  line : String
  model : String
  status : String
  lastSeenAt : Instant
deriving DecidableEq, Repr

structure MaintenanceRecordRequest where
  performedAt : PerformedAt
  action : Text 3 2000
  actualCause : Option (Text 0 2000)
  technician : Text 2 200
  partsReplaced : List String
  outcome : Text 2 1000
deriving DecidableEq, Repr

structure MaintenanceRecord extends MaintenanceRecordRequest where
  id : String
  equipmentId : String
deriving DecidableEq, Repr

/-- What the table of the asset service holds. -/
inductive AssetEntity where
  | equipment (equipment : Equipment)
  | maintenance (record : MaintenanceRecord)
deriving DecidableEq, Repr

/-- `Equipment.model_validate`. -/
def Equipment.modelValidate : AssetEntity → Except Exc Equipment
  | .equipment equipment => .ok equipment
  | .maintenance _ => .error (.validationError "Equipment")

/-- `MaintenanceRecord.model_validate`. -/
def MaintenanceRecord.modelValidate : AssetEntity → Except Exc MaintenanceRecord
  | .equipment _ => .error (.validationError "MaintenanceRecord")
  | .maintenance record => .ok record

/-- `value.get("equipment_id")`. -/
def AssetEntity.equipmentId? : AssetEntity → Option String
  | .equipment _ => none
  | .maintenance record => some record.equipmentId

/-! ## Operations -/

inductive AssetOp where
  | uuid4
deriving DecidableEq, Repr

/-- The operations of a handler: those on its table, and fresh ids. -/
abbrev assetOps : Signature Exc := (storeOps AssetEntity).sum ⟨AssetOp, fun _ => String⟩

/-- The supply of ids, and how many were issued. -/
structure IssuedIds where
  uuids : UuidSupply
  issued : Nat

/-- The table and the supply of ids, when nothing fails. -/
abbrev reliableAssets : Machine assetOps := (storeMachine AssetEntity).sum
  { World := IssuedIds
    Choice := Unit
    exec := fun .uuid4 _ w => (.ok (w.uuids.draw w.issued), { w with issued := w.issued + 1 }) }

/-- A call of the store may fail with any exception that is not an HTTP one. -/
def assetRaises : assetOps.Op → Exc → Bool
  | .inl .now, _ => false
  | .inl _, e => !e.isHttp
  | .inr .uuid4, _ => false

/-- The asset service's machine. -/
abbrev assets : Machine assetOps := reliableAssets.faulty assetRaises

instance : TableMachine reliableAssets Key.entityType := .beside Key.entityType _ _

instance : TableMachine assets Key.entityType := .faulty reliableAssets assetRaises

instance : ConsistentQueries reliableAssets := .beside Key.entityType _ _

instance : ConsistentQueries assets := .faulty reliableAssets assetRaises

instance : Inhabited assets.Choice := ⟨((0, ()), .none)⟩

/-- The asset service before any request. -/
def noAssets (uuids : UuidSupply) : assets.World := (∅, ⟨uuids, 0⟩)

/-- A program of the asset service. -/
abbrev AssetService (α : Type) := Program assetOps α

namespace AssetService

abbrev get (entityType : EntityType) (entityId : String) : AssetService (Option AssetEntity) :=
  (DynamoRepository.get entityType entityId).left

abbrev put (entityType : EntityType) (entityId : String) (value : AssetEntity) :
    AssetService Unit :=
  (DynamoRepository.put entityType entityId value).left

abbrev list (entityType : EntityType) : AssetService (List AssetEntity) :=
  (DynamoRepository.list entityType).left

def uuid4 : AssetService String := .perform assetOps (.inr .uuid4)

def now : AssetService Instant := .perform assetOps (.inl .now)

end AssetService

/-! ## Handlers -/

open AssetService

/-- The id of the one equipment there is. -/
def pressId : String := "PRESS-001"

/-- The equipment `list_equipment` starts with. -/
def Equipment.seed (lastSeenAt : Instant) : Equipment where
  id := pressId
  name := "1호 프레스"
  line := "프레스 A라인"
  model := "AXP-500"
  status := "warning"
  lastSeenAt := lastSeenAt

/-- `list_equipment`. -/
def listEquipment : AssetService (List Equipment) := do
  let values ← list .equipment
  if values.isEmpty then
    let lastSeenAt ← now
    let seed := Equipment.seed lastSeenAt
    put .equipment seed.id (.equipment seed)
    pure [seed]
  else
    Program.ofExcept (values.mapM Equipment.modelValidate)

/-- `get_equipment`. -/
def getEquipment (equipmentId : String) : AssetService Equipment := do
  let value ← get .equipment equipmentId
  let value ←
    if value.isNone ∧ equipmentId = pressId then do
      let _ ← listEquipment
      get .equipment equipmentId
    else pure value
  match value with
  | none => throw (.http 404 "Equipment not found")
  | some value => Program.ofExcept (Equipment.modelValidate value)

/-- `create_maintenance_record`. -/
def createMaintenanceRecord (equipmentId : String) (request : MaintenanceRecordRequest)
    (principal : Principal) : AssetService MaintenanceRecord := do
  let _ ← Program.ofExcept (requireRolesDependency [.fieldWorker, .operatorManager, .systemAdmin]
    (some principal))
  let _ ← getEquipment equipmentId
  let id ← uuid4
  let record : MaintenanceRecord := ⟨request, id, equipmentId⟩
  put .maintenance record.id (.maintenance record)
  pure record

/-- The times are all of one kind. -/
def Comparable (records : List MaintenanceRecord) : Prop :=
  ∀ a ∈ records, ∀ b ∈ records, a.performedAt.isAware = b.performedAt.isAware

instance (records : List MaintenanceRecord) : Decidable (Comparable records) :=
  inferInstanceAs (Decidable (∀ a ∈ records, ∀ b ∈ records, _))

/-- `sorted(records, key=lambda item: item.performed_at, reverse=True)`.  Among times of both kinds
a sort compares two of different kinds, whatever their order. -/
def sortedByPerformedAt (records : List MaintenanceRecord) : Except Exc (List MaintenanceRecord) :=
  if Comparable records then
    .ok (Ranking.sortDesc (fun record => record.performedAt.instant) records)
  else .error (.other "TypeError" "can't compare offset-naive and offset-aware datetimes")

/-- The records of an equipment, in the order of a list of values. -/
def recordsOf (equipmentId : String) (values : List AssetEntity) :
    Except Exc (List MaintenanceRecord) :=
  (values.filter fun value => value.equipmentId? = some equipmentId).mapM
    MaintenanceRecord.modelValidate

/-- What the values of a listing are made into: the records of an equipment, the latest first. -/
def listedRecords (equipmentId : String) (values : List AssetEntity) :
    Except Exc (List MaintenanceRecord) :=
  recordsOf equipmentId values >>= sortedByPerformedAt

/-- `list_maintenance_records`. -/
def listMaintenanceRecords (equipmentId : String) : AssetService (List MaintenanceRecord) := do
  let values ← list .maintenance
  let records ← Program.ofExcept (recordsOf equipmentId values)
  Program.ofExcept (sortedByPerformedAt records)

/-- A request. -/
inductive AssetRequest where
  | listEquipment
  | getEquipment (equipmentId : String)
  | createMaintenanceRecord (equipmentId : String) (request : MaintenanceRecordRequest)
      (principal : Principal)
  | listMaintenanceRecords (equipmentId : String)

/-- What a request is answered with. -/
inductive AssetAnswer where
  | equipmentList (values : List Equipment)
  | equipment (value : Equipment)
  | created (record : MaintenanceRecord)
  | records (records : List MaintenanceRecord)

/-- The handler of a request. -/
def AssetRequest.code : AssetRequest → AssetService AssetAnswer
  | listEquipment => do
      let values ← AxSentinel.listEquipment
      pure (.equipmentList values)
  | getEquipment equipmentId => do
      let value ← AxSentinel.getEquipment equipmentId
      pure (.equipment value)
  | createMaintenanceRecord equipmentId request principal => do
      let record ← AxSentinel.createMaintenanceRecord equipmentId request principal
      pure (.created record)
  | listMaintenanceRecords equipmentId => do
      let records ← AxSentinel.listMaintenanceRecords equipmentId
      pure (.records records)

/-! ## What a handler may do -/

/-- The moves of a handler. -/
abbrev AssetMoves := List (Move assetOps)

/-- The ids a handler draws. -/
def assetDrawing (uuids : UuidSupply) : Drawing assets String where
  draw := uuids.draw
  injective := uuids.injective
  drawn
    | ⟨.inr .uuid4, .ok id⟩ => some id
    | _ => none
  issued w := w.2.issued
  Supplied w := w.2.uuids = uuids
  supplied op c w h := by
    have hreliable : ∀ c, (reliableAssets.exec op c w).2.2.uuids = uuids := by
      intro c
      cases op with
      | inl op => exact h
      | inr op => exact h
    rcases reliableAssets.faulty_exec assetRaises op c w with hsame | ⟨e, -, -, hsame | hsame⟩
    · rw [hsame]
      exact hreliable c.1
    · rw [hsame]
      exact h
    · rw [hsame]
      exact hreliable c.1
  step op c w h := by
    cases op with
    | inl op =>
      refine .inr ⟨rfl, ?_⟩
      rcases reliableAssets.faulty_exec assetRaises (.inl op) c w with
        hsame | ⟨e, -, -, hsame | hsame⟩ <;> rw [hsame]
    | inr op =>
      cases op with
      | uuid4 =>
        rcases reliableAssets.faulty_exec assetRaises (.inr .uuid4) c w with
          hsame | ⟨e, hraises, -, -⟩
        · rw [hsame]
          exact .inl ⟨congrArg some (congrArg (fun uuids => uuids.draw w.2.issued) h), rfl⟩
        · cases hraises

/-- The key of the press. -/
def pressKey : Key := ⟨.equipment, pressId⟩

/-- The roles that may record maintenance. -/
def mayRecord (principal : Principal) : Bool :=
  principal.roles.any (· ∈ [Role.fieldWorker, .operatorManager, .systemAdmin])

/-- What a request may write, in view of its past. -/
inductive AssetRequest.Writes (uuids : UuidSupply) :
    AssetRequest → AssetMoves → Key → AssetEntity → Prop
  | seeded {request past lastSeenAt} :
      Writes uuids request past pressKey (.equipment (.seed lastSeenAt))
  | recorded {past equipmentId request principal id} :
      Fresh (assetDrawing uuids) past ⟨.maintenance, id⟩ id → Knows past ⟨.equipment, equipmentId⟩ →
      mayRecord principal = true →
      Writes uuids (.createMaintenanceRecord equipmentId request principal) past ⟨.maintenance, id⟩
        (.maintenance ⟨request, id, equipmentId⟩)

/-- What a request may do next. -/
def AssetRequest.Follows (uuids : UuidSupply) (request : AssetRequest) (past : AssetMoves) :
    assetOps.Op → Prop :=
  WritesOnly (fun earlier key a => request.Writes uuids earlier key a.data) past

/-- The answer to a request for an equipment there is not. -/
def equipmentNotFound : Exc := .http 404 "Equipment not found"

/-- There was some equipment, or the press was stored. -/
inductive SeesPress (past : AssetMoves) (values : List Equipment) : Prop
  | listed {items : List (Attributes AssetEntity)} : items ≠ [] →
      (⟨.inl (.query .equipment), .ok items⟩ : Move assetOps) ∈ past →
      (items.map Attributes.data).mapM Equipment.modelValidate = .ok values → SeesPress past values
  | seeded {lastSeenAt} : Knows past pressKey → values = [.seed lastSeenAt] → SeesPress past values

/-- The equipment was read last, and there was none; the press had been seen before. -/
def NotFound (past : AssetMoves) (equipmentId : String) : Prop :=
  ∃ earlier, past = earlier ++ [⟨.inl (.getItem ⟨.equipment, equipmentId⟩), .ok none⟩] ∧
    (equipmentId = pressId → ∃ values, SeesPress earlier values)

/-- The value was read under the key. -/
def AssetRead (past : AssetMoves) (key : Key) (value : AssetEntity) : Prop :=
  ∃ item : Item (Attributes AssetEntity), item.attributes.data = value ∧
    (⟨.inl (.getItem key), .ok (some item)⟩ : Move assetOps) ∈ past

/-- The value was written under the key. -/
def AssetPut (past : AssetMoves) (key : Key) (value : AssetEntity) : Prop :=
  ∃ (item : Item (Attributes AssetEntity)) (cond : Condition), item.attributes.data = value ∧
    (⟨.inl (.putItem key item cond), .ok ()⟩ : Move assetOps) ∈ past

/-- The values are what a query for maintenance records found. -/
def MaintenanceQueried (past : AssetMoves) (values : List AssetEntity) : Prop :=
  ∃ items : List (Attributes AssetEntity), items.map Attributes.data = values ∧
    (⟨.inl (.query .maintenance), .ok items⟩ : Move assetOps) ∈ past

/-- How a request may end. -/
def AssetRequest.Finishes : AssetRequest → AssetMoves → Except Exc AssetAnswer → Prop
  | .listEquipment, past, .ok (.equipmentList values) => SeesPress past values
  | .getEquipment equipmentId, past, .ok (.equipment value) =>
      AssetRead past ⟨.equipment, equipmentId⟩ (.equipment value)
  | .createMaintenanceRecord equipmentId request principal, past, .ok (.created record) =>
      AssetPut past ⟨.maintenance, record.id⟩ (.maintenance record) ∧
        record.toMaintenanceRecordRequest = request ∧ record.equipmentId = equipmentId ∧
        mayRecord principal = true
  | .listMaintenanceRecords equipmentId, past, .ok (.records records) =>
      ∃ values, MaintenanceQueried past values ∧ listedRecords equipmentId values = .ok records
  | .getEquipment equipmentId, past, .error e
  | .createMaintenanceRecord equipmentId _ _, past, .error e =>
      e = equipmentNotFound → NotFound past equipmentId ∨ HttpRaised past
  | .listMaintenanceRecords equipmentId, past, .error e =>
      (⟨.inl (.query .maintenance), .error e⟩ : Move assetOps) ∈ past ∨
        ∃ values, MaintenanceQueried past values ∧ listedRecords equipmentId values = .error e
  | _, _, .error _ => True
  | _, _, .ok _ => False

/-! ## The handlers do -/

/-- No maintenance record was written. -/
def Unrecorded (past : AssetMoves) : Prop :=
  ∀ m ∈ past, ∀ id item cond, m.op ≠ .inl (.putItem ⟨.maintenance, id⟩ item cond)

theorem HttpRaised.last {past : AssetMoves} {op : assetOps.Op} {e : Exc}
    (he : e = equipmentNotFound) : HttpRaised (past ++ [⟨op, .error e⟩]) := by
  subst he
  exact ⟨op, equipmentNotFound, by simp, rfl⟩

/-- An HTTP exception that a `put` raises is one of its last move. -/
theorem HttpRaised.of_put {past : AssetMoves} {op : assetOps.Op} {t : EntityType} {id : String}
    {e e' : Exc} (h : e' = e ∨ e' = DynamoRepository.putError t id e)
    (he' : e' = equipmentNotFound) :
    HttpRaised (past ++ [⟨op, .error e⟩]) := by
  refine ⟨op, e, by simp, ?_⟩
  rcases h with rfl | rfl
  · rw [he']
    rfl
  · by_contra hnot
    rw [Bool.not_eq_true] at hnot
    have hraised := not_http_putError hnot t id
    rw [he'] at hraised
    cases hraised

section Handlers
open DynamoRepository (NoPut putOp putMoves noPut_get noPut_query noPut_now noPut_other obeys_get
  obeys_list obeys_put mem_putMoves writesOnly_putOp knows_putMoves)
variable {uuids : UuidSupply} {request : AssetRequest} {past : AssetMoves}

theorem unrecorded_nil : Unrecorded [] := fun _ hm => absurd hm List.not_mem_nil

theorem Unrecorded.snoc (h : Unrecorded past) {op : assetOps.Op}
    {r : Except Exc (assetOps.Reply op)} (hop : NoPut op) : Unrecorded (past ++ [⟨op, r⟩]) := by
  intro m hm id
  rcases List.mem_append.mp hm with hm | hm
  · exact h m hm id
  · obtain rfl := List.mem_singleton.mp hm
    exact hop ⟨.maintenance, id⟩

/-- A `put` of an equipment is no record. -/
theorem Unrecorded.putMoves (h : Unrecorded past) (id : String) (v : AssetEntity) (clock : Nat)
    (current : Option (Item (Attributes AssetEntity))) :
    Unrecorded (past ++ putMoves _ .equipment id v clock current) := by
  have hmoves : past ++ DynamoRepository.putMoves _ .equipment id v clock current =
      past ++ [⟨.inl .now, .ok clock⟩] ++ [⟨.inl (.getItem ⟨.equipment, id⟩), .ok current⟩] ++
        [⟨putOp _ .equipment id v clock current, .ok ()⟩] := by
    simp [DynamoRepository.putMoves]
  rw [hmoves]
  intro m hm id'
  rcases List.mem_append.mp hm with hm | hm
  · exact (h.snoc noPut_now).snoc (noPut_get _) m hm id'
  · obtain rfl := List.mem_singleton.mp hm
    rintro _ _ ⟨⟩

/-- `list_equipment` stores the press at most, and sees some equipment. -/
theorem obeys_listEquipment (hpast : Unrecorded past) :
    listEquipment.Obeys (request.Follows uuids) (fun past out =>
      match out with
      | .ok values => Unrecorded past ∧ SeesPress past values
      | .error e => e = equipmentNotFound → HttpRaised past) past := by
  unfold listEquipment
  refine obeys_list (noPut_query _).writesOnly (fun _ => .last) fun items => ?_
  have hlisted : Unrecorded (past ++ [⟨.inl (.query .equipment), .ok items⟩]) :=
    hpast.snoc (noPut_query _)
  split
  · refine Program.obeys_perform_bind noPut_now.writesOnly (fun _ => .last) fun lastSeenAt => ?_
    refine obeys_put noPut_now.writesOnly (fun _ => (noPut_get _).writesOnly)
      (writesOnly_putOp fun _ => .seeded) (fun _ _ _ _ => .of_put) fun clock current => ?_
    exact ⟨(hlisted.snoc noPut_now).putMoves _ _ _ _, .seeded (knows_putMoves ..) rfl⟩
  · rename_i hne
    refine Program.obeys_ofExcept ?_
    cases hvalues : (items.map Attributes.data).mapM Equipment.modelValidate with
    | error e =>
      -- a value that is no equipment fails validation, which is no HTTP exception
      rintro rfl
      obtain ⟨value, -, hvalue⟩ := exists_of_mapM_error hvalues
      cases value <;> cases hvalue
    | ok values =>
      refine ⟨hlisted, .listed (fun hnil => hne ?_) (by simp) hvalues⟩
      rw [hnil]
      rfl

/-- What `get_equipment` reads last, when it looks for the equipment. -/
theorem obeys_getEquipment_found {equipmentId : String}
    {item : Option (Item (Attributes AssetEntity))} (hpast : Unrecorded past)
    (hpress : equipmentId = pressId → item = none → ∃ values, SeesPress past values) :
    Program.Obeys (request.Follows uuids) (fun past out =>
      match out with
      | .ok value => Unrecorded past ∧ AssetRead past ⟨.equipment, equipmentId⟩ (.equipment value)
      | .error e => e = equipmentNotFound → NotFound past equipmentId ∨ HttpRaised past)
      (past ++ [⟨.inl (.getItem ⟨.equipment, equipmentId⟩), .ok item⟩])
      (match item.map fun item => item.attributes.data with
        | none => throw equipmentNotFound
        | some value => Program.ofExcept (Equipment.modelValidate value) :
          AssetService Equipment) := by
  cases item with
  | none => exact fun _ => .inl ⟨past, rfl, fun h => hpress h rfl⟩
  | some item =>
    show (Program.ofExcept (Equipment.modelValidate item.attributes.data)).Obeys _ _ _
    cases hvalue : item.attributes.data with
    | equipment value => exact ⟨hpast.snoc (noPut_get _), item, hvalue, by simp⟩
    | maintenance record => exact nofun

theorem obeys_getEquipment (equipmentId : String) (hpast : Unrecorded past) :
    (getEquipment equipmentId).Obeys (request.Follows uuids) (fun past out =>
      match out with
      | .ok value => Unrecorded past ∧ AssetRead past ⟨.equipment, equipmentId⟩ (.equipment value)
      | .error e => e = equipmentNotFound → NotFound past equipmentId ∨ HttpRaised past) past := by
  unfold getEquipment
  refine obeys_get (noPut_get _).writesOnly (fun _ he => .inr (.last he)) fun item => ?_
  split
  · rename_i hseed
    refine Program.obeys_bind.mpr ((obeys_listEquipment (hpast.snoc (noPut_get _))).mono
      (fun _ _ => id) fun past out hout => ?_)
    cases out with
    | error e => exact fun he => .inr (hout he)
    | ok values =>
      refine obeys_get (noPut_get _).writesOnly (fun _ he => .inr (.last he)) fun item => ?_
      exact obeys_getEquipment_found hout.1 fun _ _ => ⟨values, hout.2⟩
  · rename_i hseed
    refine obeys_getEquipment_found hpast fun hid hnone => absurd ⟨?_, hid⟩ hseed
    rw [hnone]
    rfl

theorem obeys_createMaintenanceRecord (equipmentId : String) (request : MaintenanceRecordRequest)
    (principal : Principal) :
    (createMaintenanceRecord equipmentId request principal).Obeys
      ((AssetRequest.createMaintenanceRecord equipmentId request principal).Follows uuids)
      (fun past out =>
        match out with
        | .ok record => AssetPut past ⟨.maintenance, record.id⟩ (.maintenance record) ∧
            record.toMaintenanceRecordRequest = request ∧ record.equipmentId = equipmentId ∧
            mayRecord principal = true
        | .error e => e = equipmentNotFound → NotFound past equipmentId ∨ HttpRaised past) [] := by
  unfold createMaintenanceRecord
  refine Program.obeys_ofExcept_bind (fun e he hnotFound => ?_) fun _ hroles => ?_
  · -- the role is refused with another answer
    rw [hnotFound, requireRolesDependency] at he
    split at he <;> cases he
  have hmay : mayRecord principal = true := by
    rw [requireRolesDependency] at hroles
    split at hroles
    · rename_i hmay
      exact hmay
    · cases hroles
  refine Program.obeys_bind.mpr ((obeys_getEquipment equipmentId unrecorded_nil).mono
    (fun _ _ => id) fun past out hout => ?_)
  cases out with
  | error e => exact hout
  | ok equipment =>
    obtain ⟨hunrecorded, item, -, hread⟩ := hout
    refine Program.obeys_perform_bind (noPut_other _).writesOnly (fun _ he => .inr (.last he))
      fun id => ?_
    have hunwritten : ∀ clock, Unrecorded (past ++ [⟨.inr .uuid4, .ok id⟩] ++
        [⟨.inl .now, .ok clock⟩]) := fun clock =>
      (hunrecorded.snoc (noPut_other _)).snoc noPut_now
    refine obeys_put noPut_now.writesOnly (fun _ => (noPut_get _).writesOnly)
      (writesOnly_putOp fun clock => .recorded
        ⟨⟨⟨.inr .uuid4, .ok id⟩, by simp, rfl⟩, fun m hm => hunwritten clock m hm id⟩
        (.get (List.mem_append_left _ (List.mem_append_left _ hread))) hmay)
      (fun _ _ _ _ h he => .inr (.of_put h he)) fun clock current => ?_
    exact ⟨⟨_, _, rfl, mem_putMoves _ _ _ _ clock current⟩, rfl, rfl, hmay⟩

/-- The records of an equipment can always be read. -/
theorem exists_recordsOf (equipmentId : String) (values : List AssetEntity) :
    ∃ records, recordsOf equipmentId values = .ok records := by
  refine exists_mapM_iff.mpr fun value hvalue => ?_
  cases value with
  | equipment equipment => simp [AssetEntity.equipmentId?] at hvalue
  | maintenance record => exact ⟨record, rfl⟩

theorem obeys_listMaintenanceRecords (equipmentId : String) :
    (listMaintenanceRecords equipmentId).Obeys
      ((AssetRequest.listMaintenanceRecords equipmentId).Follows uuids)
      (fun past out =>
        match out with
        | .ok records => ∃ values, MaintenanceQueried past values ∧
            listedRecords equipmentId values = .ok records
        | .error e => (⟨.inl (.query .maintenance), .error e⟩ : Move assetOps) ∈ past ∨
            ∃ values, MaintenanceQueried past values ∧ listedRecords equipmentId values = .error e)
      [] := by
  unfold listMaintenanceRecords
  refine obeys_list (noPut_query _).writesOnly (fun e => .inl (by simp)) fun items => ?_
  obtain ⟨listed, hlisted⟩ := exists_recordsOf equipmentId (items.map Attributes.data)
  have hlistedRecords : listedRecords equipmentId (items.map Attributes.data) =
      sortedByPerformedAt listed := by rw [listedRecords, hlisted, ok_bind]
  rw [hlisted, Program.ofExcept_ok, Program.ret_bind]
  refine Program.obeys_ofExcept ?_
  cases hsorted : sortedByPerformedAt listed with
  | ok records => exact ⟨_, ⟨items, rfl, by simp⟩, hlistedRecords.trans hsorted⟩
  | error e => exact .inr ⟨_, ⟨items, rfl, by simp⟩, hlistedRecords.trans hsorted⟩

/-- **Every request does what it may, and ends as it may.** -/
theorem AssetRequest.follows (uuids : UuidSupply) (request : AssetRequest) :
    request.code.Obeys (request.Follows uuids) request.Finishes [] := by
  cases request with
  | listEquipment =>
    refine Program.obeys_bind.mpr ((obeys_listEquipment unrecorded_nil).mono (fun _ _ => id)
      fun past out hout => ?_)
    cases out with
    | ok values => exact hout.2
    | error e => trivial
  | getEquipment equipmentId =>
    refine Program.obeys_bind.mpr ((obeys_getEquipment equipmentId unrecorded_nil).mono
      (fun _ _ => id) fun past out hout => ?_)
    cases out with
    | ok value => exact hout.2
    | error e => exact hout
  | createMaintenanceRecord equipmentId request principal =>
    refine Program.obeys_bind.mpr ((obeys_createMaintenanceRecord equipmentId request
      principal).mono (fun _ _ => id) fun past out hout => ?_)
    cases out with
    | ok record => exact hout
    | error e => exact hout
  | listMaintenanceRecords equipmentId =>
    refine Program.obeys_bind.mpr ((obeys_listMaintenanceRecords equipmentId).mono (fun _ _ => id)
      fun past out hout => ?_)
    cases out with
    | ok records => exact hout
    | error e => exact hout

end Handlers

end AxSentinel
