import AxSentinel.Events

/-! # What a request handler can do

The handlers of the services are programs over two kinds of operations: those
on the table of their repository, and the ones below.  All services share one
table here.  Each owns its entity types, so this differs from a table for each
service only where the source itself assumes one table: without
`incident_service_url`, the work-order service reads and writes incidents through
its own repository.

An operation that leaves the process may raise at any point, before or after it
takes effect (`platform`); drawing a fresh id, reading the clock and feeding the
in-process detector may not.
-/
namespace AxSentinel
open Effects
open Python (Json)

/-- What a PATCH of a URL reaches: the status endpoint, with the id in the path, or none, since
the incident service has no other one for PATCH. -/
inductive StatusRoute where
  | incident (incidentId : String)
  | unrouted (statusCode : Nat) (refused : 300 ≤ statusCode)

/-- The id in the path, if the status endpoint is reached. -/
def StatusRoute.incident? : StatusRoute → Option String
  | incident incidentId => some incidentId
  | unrouted .. => none

/-- The settings the handlers read, and how the HTTP client parses, and the incident service
routes, the URL of a PATCH: `statusRoute` is `none` for a URL the client raises on.  `runtime` is
what Pydantic reads values as. -/
structure Settings where
  incidentServiceUrl : Option String
  websocketBroker : String
  statusRoute : String → Option StatusRoute
  runtime : Runtime

/-- What a domain event carries. -/
inductive Payload where
  | entity (entity : Entity)
  | statusChanged (id incidentId equipmentId : String) (previousStatus status : IncidentStatus)
deriving DecidableEq, Repr

/-- A call of `EventPublisher.publish`. -/
structure Publication where
  eventType : String
  payload : Payload
  key : Option String
  actorId : Option String
  alert : Bool
deriving DecidableEq, Repr

/-- What `_generate` returns: the dictionary of the engine, not yet validated, the related
documents and the audit record. -/
structure Generation where
  generated : Json
  relatedDocumentIds : List String
  audit : AnalysisAudit

instance : Inhabited Generation :=
  ⟨.null, [], ⟨.text "", none, .text "", .text "", "", [], none, none, .text "", none, 0, 0, 0⟩⟩

/-- The operations of a handler besides those on its table.  `request` and
`response` are the two halves of an HTTP exchange with another service;
`evaluate` feeds the detector of one replica; `generate` gathers evidence and
calls the model. -/
inductive ServiceOp where
  | publish (publication : Publication)
  | broadcast (channel : String) (message : Entity)
  | request (url : String)
  | response
  | evaluate (replica : Nat) (signal : DetectionSignal)
  | generate (request : AnalysisRequest)
  | uuid4

abbrev serviceOps : Signature Exc where
  Op := ServiceOp
  Reply
    | .publish _ => Unit
    | .broadcast .. => Unit
    | .request _ => Unit
    | .response => Unit
    | .evaluate .. => Option String
    | .generate _ => Generation
    | .uuid4 => String

/-- The ids `uuid4` draws, one after another: it never draws the same id twice. -/
structure UuidSupply where
  draw : Nat → String
  injective : Function.Injective draw

/-- A supply of ids, for runs that are computed. -/
def UuidSupply.unary : UuidSupply where
  draw n := String.ofList (List.replicate n 'a')
  injective m n h := by
    have hlength := congrArg String.length h
    rwa [String.length_ofList, String.length_ofList, List.length_replicate,
      List.length_replicate] at hlength

/-- What the handlers act on besides the table: what was published and broadcast,
the detector of each replica, and how many ids were issued. -/
structure ServiceWorld where
  published : List Publication
  broadcasts : List (String × Entity)
  detectors : Nat → AnomalyDetector
  uuids : UuidSupply
  issued : Nat

/-- The operations of a handler; what the model answers is left open. -/
abbrev serviceMachine : Machine serviceOps where
  World := ServiceWorld
  Choice := Generation
  exec
    | .publish p, _, w => (.ok (), { w with published := w.published ++ [p] })
    | .broadcast channel m, _, w =>
        (.ok (), { w with broadcasts := w.broadcasts ++ [(channel, m)] })
    | .request _, _, w => (.ok (), w)
    | .response, _, w => (.ok (), w)
    | .evaluate r signal, _, w =>
        (.ok ((w.detectors r).evaluate signal).1,
          { w with detectors := Function.update w.detectors r ((w.detectors r).evaluate signal).2 })
    | .generate _, answer, w => (.ok answer, w)
    | .uuid4, _, w => (.ok (w.uuids.draw w.issued), { w with issued := w.issued + 1 })

/-- The operations of a handler. -/
abbrev platformOps : Signature Exc := (storeOps Entity).sum serviceOps

/-- The services' table and the rest of their world, when nothing fails. -/
abbrev reliablePlatform : Machine platformOps := (storeMachine Entity).sum serviceMachine

/-- The operations that leave the process, and so may fail. -/
def fallible : platformOps.Op → Bool
  | .inl .now => false
  | .inl _ => true
  | .inr (.evaluate ..) => false
  | .inr .uuid4 => false
  | .inr _ => true

/-- The services' own answers, `HTTPException`s, are raised by handlers only. -/
def Exc.isHttp : Exc → Bool
  | httpException .. => true
  | _ => false

/-- A `put` makes no answer of what its write raises. -/
theorem not_http_putError {e : Exc} (h : e.isHttp = false) (t : EntityType) (id : String) :
    (DynamoRepository.putError t id e).isHttp = false := by
  unfold DynamoRepository.putError
  split
  · rfl
  · exact h

/-- The exceptions an operation may raise. -/
def raises (op : platformOps.Op) (e : Exc) : Bool := fallible op && !e.isHttp

/-- The services' world, when any step that leaves the process may raise. -/
abbrev platform : Machine platformOps := reliablePlatform.faulty raises

/-- What stays in the process never fails. -/
theorem exec_infallible {op : platformOps.Op} (hop : fallible op = false) (c : platform.Choice)
    (w : platform.World) : platform.exec op c w = reliablePlatform.exec op c.1 w := by
  rcases reliablePlatform.faulty_exec raises op c w with h | ⟨e, he, -⟩
  · exact h
  · simp [raises, hop] at he

instance : TableMachine reliablePlatform Key.entityType :=
  .beside Key.entityType (.clientError conditionalCheckFailed) serviceMachine

instance : TableMachine platform Key.entityType := .faulty reliablePlatform raises

instance : ConsistentQueries reliablePlatform := .beside Key.entityType _ _

instance : ConsistentQueries platform := .faulty reliablePlatform raises

instance : Inhabited reliablePlatform.Choice := ⟨(0, default)⟩
instance : Inhabited platform.Choice := ⟨(default, default)⟩

/-- Empty tables, fresh detectors, and no id issued yet. -/
def initialWorld (uuids : UuidSupply) : platform.World :=
  (∅, ⟨[], [], fun _ => .new AnomalyDetector.defaultThreshold, uuids, 0⟩)

/-- A program of a service. -/
abbrev Service (α : Type) := Program platformOps α

namespace Service

/-- `get_repository().get`. -/
abbrev get (entityType : EntityType) (entityId : String) : Service (Option Entity) :=
  (DynamoRepository.get entityType entityId).left

/-- `get_repository().put`. -/
abbrev put (entityType : EntityType) (entityId : String) (value : Entity) : Service Unit :=
  (DynamoRepository.put entityType entityId value).left

/-- `get_repository().list`. -/
abbrev list (entityType : EntityType) : Service (List Entity) :=
  (DynamoRepository.list entityType).left

/-- `get_event_publisher().publish`. -/
def publish (publication : Publication) : Service Unit :=
  .perform platformOps (.inr (.publish publication))

/-- `_publish_realtime`, and `get_realtime_bus().publish`. -/
def broadcast (channel : String) (message : Entity) : Service Unit :=
  .perform platformOps (.inr (.broadcast channel message))

/-- `str(uuid4())`. -/
def uuid4 : Service String := .perform platformOps (.inr .uuid4)

/-- `datetime.now(UTC)`. -/
def now : Service Instant := .perform platformOps (.inl .now)

/-- `require_roles(*allowed_roles)`, for a caller the middleware let through. -/
def requireRoles (allowedRoles : List Role) (principal : Principal) : Service Unit :=
  if principal.roles.any (· ∈ allowedRoles) then pure ()
  else throw (.http 403 "Insufficient role")

end Service

/-! ## What is stored -/

/-- The entity stored under a key. -/
def entity (key : Key) (w : platform.World) : Option Entity :=
  (stored platform key w).map fun item => item.attributes.data

@[simp] theorem entity_initial (uuids : UuidSupply) (key : Key) :
    entity key (initialWorld uuids) = none := rfl

theorem entity_of_table {w w' : platform.World} (hw : w'.1 = w.1) (key : Key) :
    entity key w' = entity key w := by
  simp only [entity, stored, TableMachine.table, hw]

theorem entity_insert {w w' : platform.World} {key : Key} {item : Item (Attributes Entity)}
    (hw : w'.1 = w.1.insert key item) (key' : Key) :
    entity key' w' = if key' = key then some item.attributes.data else entity key' w := by
  have hlookup : entity key' w' =
      ((w.1.insert key item).lookup key').map fun item => item.attributes.data := by
    rw [← hw]
    rfl
  rw [hlookup]
  split
  · rename_i hkey
    rw [hkey, AList.lookup_insert, Option.map_some]
  · rename_i hkey
    rw [AList.lookup_insert_ne hkey]
    rfl

theorem mem_keys_of_entity {w : platform.World} {key : Key} {v : Entity}
    (hv : entity key w = some v) : key ∈ w.1.keys := by
  obtain ⟨item, hitem, -⟩ := Option.map_eq_some_iff.mp hv
  have hlookup : w.1.lookup key = some item := hitem
  exact AList.mem_keys.mp (AList.lookup_isSome.mp (hlookup ▸ rfl))

/-- Whether an optional setting is set. -/
def isSet (setting : Option String) : Bool := setting.any (· ≠ "")

end AxSentinel
