import AxSentinel.VersionedTable

/-! # The repository over a service's table

`DynamoRepository` of `shared/dynamodb.py`.  An item is keyed by its entity type
and id; the source joins the two into one partition key `pk`, which loses nothing
(`Key.pk_injective`).  `put` is a program of two table operations, a consistent
read and a conditional write, and another program may act between them.
-/
namespace AxSentinel
open Effects

/-- What an HTTP error answers with. -/
inductive Detail where
  | text (message : String)
  | missing (message : String) (items : List String)
deriving DecidableEq, Repr

/-- The exceptions the services raise and pass on. -/
inductive Exc where
  | httpException (statusCode : Nat) (detail : Detail)
  | httpStatusError (statusCode : Nat)
  | clientError (code : String)
  | concurrentUpdateError (message : String)
  | validationError (message : String)
  | other (name message : String)
deriving DecidableEq, Repr

/-- `HTTPException(status_code, detail)` with a plain text. -/
abbrev Exc.http (statusCode : Nat) (message : String) : Exc :=
  .httpException statusCode (.text message)

/-- The entity types the services store. -/
inductive EntityType where
  | equipment | maintenance | telemetry | incident | analysis | expertReview
  | evaluationCase | evaluationRun | document | approval | workOrder | feedback
  | processedEvent
deriving DecidableEq, Repr

/-- The entity type as the services write it. -/
def EntityType.name : EntityType → String
  | equipment => "equipment"
  | maintenance => "maintenance"
  | telemetry => "telemetry"
  | incident => "incident"
  | analysis => "analysis"
  | expertReview => "expert_review"
  | evaluationCase => "evaluation_case"
  | evaluationRun => "evaluation_run"
  | document => "document"
  | approval => "approval"
  | workOrder => "work_order"
  | feedback => "feedback"
  | processedEvent => "processed_event"

/-- The key of an entity in its table. -/
structure Key where
  entityType : EntityType
  entityId : String
deriving DecidableEq, Repr

/-- `str.upper()` on the ASCII letters entity types consist of. -/
def upper (s : String) : String := String.ofList (s.toList.map Char.toUpper)

/-- The partition key, `f"{entity_type.upper()}#{entity_id}"`. -/
def Key.pk (key : Key) : String :=
  upper key.entityType.name ++ "#" ++ key.entityId

/-- An upper-case entity type is what stands before the first `#` of a partition
key. -/
theorem EntityType.takeWhile_upper (t : EntityType) (rest : List Char) :
    ((upper t.name).toList ++ '#' :: rest).takeWhile (· ≠ '#') = (upper t.name).toList := by
  have hall : (upper t.name).toList.all (· ≠ '#') = true := by cases t <;> decide
  rw [List.takeWhile_append_of_pos (List.all_eq_true.mp hall)]
  simp

/-- Distinct entities have distinct partition keys, whatever their ids contain. -/
theorem Key.pk_injective : Function.Injective Key.pk := by
  rintro ⟨t, i⟩ ⟨u, j⟩ h
  have hl : (upper t.name).toList ++ '#' :: i.toList =
      (upper u.name).toList ++ '#' :: j.toList := by
    simpa [Key.pk] using congrArg String.toList h
  have hname : (upper t.name).toList = (upper u.name).toList := by
    rw [← t.takeWhile_upper i.toList, hl, u.takeWhile_upper]
  rw [hname, List.append_cancel_left_eq] at hl
  have htu : t = u := by
    revert hname
    cases t <;> cases u <;> decide
  exact htu ▸ congrArg _ (String.toList_injective (List.cons.inj hl).2)

/-- What an item holds besides its key and version. -/
structure Attributes (D : Type) where
  entityType : EntityType
  entityId : String
  updatedAt : Nat
  data : D
deriving DecidableEq, Repr

/-- The operations of a table of entities with data `D`. -/
abbrev storeOps (D : Type) : Signature Exc := tableOps Exc Key EntityType (Attributes D)

/-- The code of the `ClientError` of a conditional write whose condition fails. -/
def conditionalCheckFailed : String := "ConditionalCheckFailedException"

/-- The table, with its index over entity types. -/
abbrev storeMachine (D : Type) : Machine (storeOps D) :=
  tableMachine (Attributes D) Key.entityType (.clientError conditionalCheckFailed)

namespace DynamoRepository
variable {D : Type}

/-- The item `put` writes over `current`. -/
def item (entityType : EntityType) (entityId : String) (value : D) (now : Nat)
    (current : Option (Item (Attributes D))) : Item (Attributes D) :=
  ⟨some (versionOf current + 1), ⟨entityType, entityId, now, value⟩⟩

/-- `DynamoRepository.put`. -/
def put (entityType : EntityType) (entityId : String) (value : D) :
    Program (storeOps D) Unit := do
  let now ← .perform (storeOps D) .now
  let key : Key := ⟨entityType, entityId⟩
  let current ← .perform (storeOps D) (.getItem key)
  let item := item entityType entityId value now current
  try
    if current.isNone then
      .perform (storeOps D) (.putItem key item .attributeNotExists)
    else
      .perform (storeOps D) (.putItem key item (.versionIs (versionOf current)))
  catch error =>
    if error = .clientError conditionalCheckFailed then
      throw (.concurrentUpdateError
        (entityType.name ++ "/" ++ entityId ++ " was updated concurrently"))
    else
      throw error

/-- `DynamoRepository.get`. -/
def get (entityType : EntityType) (entityId : String) : Program (storeOps D) (Option D) := do
  let item ← .perform (storeOps D) (.getItem ⟨entityType, entityId⟩)
  pure (item.map fun item => item.attributes.data)

/-- `DynamoRepository.list`, as one step; what it finds is up to the machine.  Page by page, as the
source does it, a listing that is left alone has what the table has (`listPages_refines_list`);
beside puts it may miss some, and has what was stored at one moment or another
(`stored_of_listed`). -/
def list (entityType : EntityType) : Program (storeOps D) (List D) := do
  let items ← .perform (storeOps D) (.query entityType)
  pure (items.map Attributes.data)

/-! The same operations, as the table of a larger machine sees them. -/

variable {G : Signature Exc} {β : Type}

/-- What `put` raises when its write does. -/
def putError (t : EntityType) (id : String) (e : Exc) : Exc :=
  if e = .clientError conditionalCheckFailed then
    .concurrentUpdateError (t.name ++ "/" ++ id ++ " was updated concurrently")
  else e

theorem get_left_bind (t : EntityType) (id : String)
    (f : Option D → Program ((storeOps D).sum G) β) :
    (get t id).left >>= f = .call (.inl (.getItem ⟨t, id⟩)) fun
      | .ok item => f (item.map fun item => item.attributes.data)
      | .error e => .raise e :=
  Program.call_congr (F := (storeOps D).sum G) (fun _ => rfl) fun _ => rfl

theorem list_left_bind (t : EntityType) (f : List D → Program ((storeOps D).sum G) β) :
    (list t).left >>= f = .call (.inl (.query t)) fun
      | .ok items => f (items.map Attributes.data)
      | .error e => .raise e :=
  Program.call_congr (F := (storeOps D).sum G) (fun _ => rfl) fun _ => rfl

/-- The write of a put is conditional on what was read. -/
theorem put_eq (t : EntityType) (id : String) (v : D) :
    put t id v = .call (F := storeOps D) .now fun
      | .error e => .raise e
      | .ok clock => .call (.getItem ⟨t, id⟩) fun
        | .error e => .raise e
        | .ok current => .call (.putItem ⟨t, id⟩ (item t id v clock current)
            (.unchanged current)) fun
          | .error e => .raise (putError t id e)
          | .ok _ => .ret () := by
  have raised : ∀ e, (if e = .clientError conditionalCheckFailed then
      (.raise (.concurrentUpdateError (t.name ++ "/" ++ id ++ " was updated concurrently")) :
        Program (storeOps D) Unit)
      else .raise e) = .raise (putError t id e) := by
    intro e
    unfold putError
    split <;> rfl
  unfold put
  refine Program.call_congr (fun clock => ?_) fun _ => rfl
  refine Program.call_congr (fun current => ?_) fun _ => rfl
  cases current with
  | none => exact Program.call_congr (fun _ => rfl) raised
  | some item => exact Program.call_congr (fun _ => rfl) raised

theorem put_left (t : EntityType) (id : String) (v : D) :
    (put t id v).left = .call (F := (storeOps D).sum G) (.inl .now) fun
      | .error e => .raise e
      | .ok clock => .call (.inl (.getItem ⟨t, id⟩)) fun
        | .error e => .raise e
        | .ok current => .call (.inl (.putItem ⟨t, id⟩ (item t id v clock current)
            (.unchanged current))) fun
          | .error e => .raise (putError t id e)
          | .ok _ => .ret () := by
  rw [put_eq]
  refine Program.call_congr (F := (storeOps D).sum G) (fun clock => ?_) fun _ => rfl
  refine Program.call_congr (F := (storeOps D).sum G) (fun current => ?_) fun _ => rfl
  exact Program.call_congr (F := (storeOps D).sum G) (fun _ => rfl) fun _ => rfl

theorem put_left_bind (t : EntityType) (id : String) (v : D)
    (f : Unit → Program ((storeOps D).sum G) β) :
    (put t id v).left >>= f = .call (.inl .now) fun
      | .error e => .raise e
      | .ok clock => .call (.inl (.getItem ⟨t, id⟩)) fun
        | .error e => .raise e
        | .ok current => .call (.inl (.putItem ⟨t, id⟩ (item t id v clock current)
            (.unchanged current))) fun
          | .error e => .raise (putError t id e)
          | .ok _ => f () := by
  rw [put_left]
  refine Program.call_congr (F := (storeOps D).sum G) (fun _ => ?_) fun _ => rfl
  refine Program.call_congr (F := (storeOps D).sum G) (fun _ => ?_) fun _ => rfl
  exact Program.call_congr (F := (storeOps D).sum G) (fun _ => rfl) fun _ => rfl

end DynamoRepository
end AxSentinel
