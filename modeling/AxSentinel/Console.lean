import AxSentinel.IncidentService
import AxSentinel.Merging
import AxSentinel.VersionedTable
import Mathlib.Data.List.Sort

/-! # What a console shows

`update_incident_status` writes an incident, publishes the change, and then sends the incident to
one socket after another; a console merges what its sockets receive, and the snapshots it fetches,
over what it shows, and keeps what came last.  Other requests run between the write and the sends,
so what comes last need not be what was written last (`not_converges`).  The console ends up with
the stored incidents in the runs in which it merges nothing older than what it shows or has missed,
and misses nothing newer than what it shows (`converges_of_inOrder`). -/
namespace AxSentinel
open Effects

/-! ## Incidents and where they are seen -/

abbrev Socket := Nat
abbrev Console := Nat

/-- An incident as it was written or read, with the version its item had then.  Neither responses
nor messages have the version, and only statements look at it. -/
abbrev Sighting := Item Incident

/-- The version of the item. -/
def Sighting.age (x : Sighting) : Int := versionOf (some x)

/-- The incidents of the service. -/
structure IncidentTable where
  item : String → Option Sighting
  keyed : ∀ id x, item id = some x → x.attributes.id = id

/-- The table with an incident written. -/
def IncidentTable.put (t : IncidentTable) (x : Sighting) : IncidentTable where
  item := Function.update t.item x.attributes.id (some x)
  keyed id y h := by
    by_cases hid : id = x.attributes.id
    · subst hid
      rw [Function.update_self] at h
      obtain rfl := Option.some.inj h
      rfl
    · rw [Function.update_of_ne hid] at h
      exact t.keyed id y h

theorem IncidentTable.put_self (t : IncidentTable) (x : Sighting) :
    (t.put x).item x.attributes.id = some x :=
  Function.update_self ..

theorem IncidentTable.put_other {t : IncidentTable} {x : Sighting} {id : String}
    (h : id ≠ x.attributes.id) : (t.put x).item id = t.item id :=
  Function.update_of_ne h ..

/-- `mergeIncidents`, which goes by the ids of the incidents. -/
def mergeIncidents (current incoming : List Sighting) : List Sighting :=
  (Merging.merge (fun x => x.attributes.id) current incoming).insertionSort fun left right =>
    right.attributes.detectedAt ≤ left.attributes.detectedAt

/-- The `incidents` of a console. -/
structure Shown where
  incidents : List Sighting
  nodup : (incidents.map fun x => x.attributes.id).Nodup

/-- The incidents after others are merged. -/
def Shown.merge (shown : Shown) (incoming : List Sighting) : Shown where
  incidents := mergeIncidents shown.incidents incoming
  nodup := ((List.perm_insertionSort _ _).map _).nodup_iff.mpr Merging.nodup_merge

/-! ## Requests, fetches and sockets -/

/-- How far `update_incident_status` has come: the operation that is next, with what the request
remembers. -/
inductive UpdateStage where
  | get (incidentId : String) (status : IncidentStatus)
  | getItem (incident : Incident)
  | putItem (incident : Incident) (current : Option Sighting)
  | publish (item : Sighting)
  | startBroadcast (item : Sighting)
  | send (item : Sighting) (sockets disconnected : List Socket)
  | ended
deriving DecidableEq

/-- How an operation comes out. -/
inductive Outcome where
  | done
  | lost
  | late
deriving DecidableEq, Repr

/-- `refresh` of a console that waits for its snapshot, with the incidents the pages so far had. -/
structure Refresh where
  console : Console
  read : List Sighting
deriving DecidableEq

/-- The incident service, the consoles, and what is under way between them. -/
structure ConsoleSystem where
  table : IncidentTable
  connections : List Socket
  requests : List UpdateStage
  fetches : List (Option Refresh)
  inbox : Socket → List Sighting
  shown : Console → Shown

/-- What happens next.  A broadcast goes through the set of connections in any order, and a page
of a snapshot has any of the incidents. -/
inductive ConsoleAction where
  | request (incidentId : String) (status : IncidentStatus)
  | advance (k : Nat) (outcome : Outcome)
  | start (k : Nat) (sockets : List Socket)
  | connect (socket : Socket)
  | close (socket : Socket)
  | fetch (console : Console)
  | page (k : Nat) (ids : List String)
  | reply (k : Nat)
  | abandon (k : Nat)
  | receive (socket : Socket)
deriving DecidableEq

namespace ConsoleSystem

/-- Nothing has happened yet. -/
def initial (table : IncidentTable) : ConsoleSystem :=
  ⟨table, [], [], [], fun _ => [], fun _ => ⟨[], List.nodup_nil⟩⟩

/-- The request `k` comes to a stage. -/
def setStage (w : ConsoleSystem) (k : Nat) (stage : UpdateStage) : ConsoleSystem :=
  { w with requests := w.requests.set k stage }

/-- The next operation of the request `k`; an operation that raises ends the request, but for a
send, which makes the socket one to disconnect. -/
def perform (w : ConsoleSystem) (k : Nat) (outcome : Outcome) : UpdateStage → ConsoleSystem
  | .get incidentId status =>
      match w.table.item incidentId with
      | none => w.setStage k .ended
      | some x =>
        if outcome = .done ∧ status ∈ allowedTransitions x.attributes.status then
          w.setStage k (.getItem { x.attributes with status := status })
        else w.setStage k .ended
  | .getItem incident =>
      w.setStage k
        (if outcome = .done then .putItem incident (w.table.item incident.id) else .ended)
  | .putItem incident current =>
      if outcome ≠ .lost ∧ (Condition.unchanged current).Holds (w.table.item incident.id) then
        let item : Sighting := ⟨some (versionOf current + 1), incident⟩
        { w with
          table := w.table.put item
          requests := w.requests.set k (if outcome = .done then .publish item else .ended) }
      else w.setStage k .ended
  | .publish item => w.setStage k (if outcome = .done then .startBroadcast item else .ended)
  | .startBroadcast _ => w
  | .send item (socket :: sockets) disconnected =>
      { w with
        inbox := if outcome = .lost then w.inbox
          else Function.update w.inbox socket (w.inbox socket ++ [item])
        requests := w.requests.set k (.send item sockets
          (if outcome = .done then disconnected else disconnected ++ [socket])) }
  | .send _ [] disconnected =>
      { w with
        connections := w.connections.filter (· ∉ disconnected)
        requests := w.requests.set k .ended }
  | .ended => w

/-- `list_incidents`, of the incidents the pages had. -/
def listIncidents (read : List Sighting) : List Sighting :=
  read.insertionSort fun a b => b.attributes.detectedAt ≤ a.attributes.detectedAt

variable (owner : Socket → Console)

/-- One action.  `owner` says which console opens a socket. -/
def step (w : ConsoleSystem) : ConsoleAction → ConsoleSystem
  | .request incidentId status => { w with requests := w.requests ++ [.get incidentId status] }
  | .advance k outcome =>
      match w.requests[k]? with
      | some stage => w.perform k outcome stage
      | none => w
  | .start k sockets =>
      match w.requests[k]? with
      | some (.startBroadcast item) =>
          if sockets.isPerm w.connections then w.setStage k (.send item sockets []) else w
      | _ => w
  | .connect socket =>
      { w with
        connections := if socket ∈ w.connections then w.connections
          else w.connections ++ [socket] }
  | .close socket =>
      { w with
        connections := w.connections.filter (· ≠ socket)
        inbox := Function.update w.inbox socket [] }
  | .fetch console => { w with fetches := w.fetches ++ [some ⟨console, []⟩] }
  | .page k ids =>
      match w.fetches[k]? with
      | some (some f) =>
          { w with
            fetches := w.fetches.set k (some ⟨f.console, f.read ++ ids.filterMap w.table.item⟩) }
      | _ => w
  | .reply k =>
      match w.fetches[k]? with
      | some (some f) =>
          { w with
            fetches := w.fetches.set k none
            shown := Function.update w.shown f.console
              ((w.shown f.console).merge (listIncidents f.read)) }
      | _ => w
  | .abandon k => { w with fetches := w.fetches.set k none }
  | .receive socket =>
      match w.inbox socket with
      | item :: items =>
          { w with
            inbox := Function.update w.inbox socket items
            shown := Function.update w.shown (owner socket)
              ((w.shown (owner socket)).merge [item]) }
      | [] => w

/-- The system after actions. -/
def run (table : IncidentTable) (actions : List ConsoleAction) : ConsoleSystem :=
  actions.foldl (step owner) (initial table)

/-- No request is in flight, and all that was sent is merged. -/
structure Quiescent (w : ConsoleSystem) : Prop where
  requests : ∀ stage ∈ w.requests, stage = .ended
  fetches : ∀ f ∈ w.fetches, f = none
  inbox : ∀ socket, w.inbox socket = []

/-- What a console shows of an incident has the stored status. -/
def Converged (w : ConsoleSystem) : Prop :=
  ∀ console, ∀ y ∈ (w.shown console).incidents, ∃ x, w.table.item y.attributes.id = some x ∧
    y.attributes.status = x.attributes.status

/-- An action merges the incident into what the console shows. -/
inductive Merges (w : ConsoleSystem) : ConsoleAction → Console → Sighting → Prop
  | message {socket x items} : w.inbox socket = x :: items →
      Merges w (.receive socket) (owner socket) x
  | snapshot {k f x} : w.fetches[k]? = some (some f) → x ∈ f.read → Merges w (.reply k) f.console x

/-- An action leaves the console out of an update: the request that wrote it ends before it is
broadcast, the broadcast starts without a socket of the console, the send to its socket fails, or
that is closed with the message unread. -/
inductive LeavesOut (w : ConsoleSystem) : ConsoleAction → Console → Sighting → Prop
  | unpublished {k incident current} (console) :
      w.requests[k]? = some (.putItem incident current) →
      (Condition.unchanged current).Holds (w.table.item incident.id) →
      LeavesOut w (.advance k .late) console ⟨some (versionOf current + 1), incident⟩
  | unbroadcast {k outcome x} (console) : w.requests[k]? = some (.publish x) → outcome ≠ .done →
      LeavesOut w (.advance k outcome) console x
  | unconnected {k sockets x console} : w.requests[k]? = some (.startBroadcast x) →
      sockets.isPerm w.connections → (∀ socket ∈ w.connections, owner socket ≠ console) →
      LeavesOut w (.start k sockets) console x
  | unsent {k x socket sockets disconnected} :
      w.requests[k]? = some (.send x (socket :: sockets) disconnected) →
      LeavesOut w (.advance k .lost) (owner socket) x
  | unread {socket x} : x ∈ w.inbox socket → LeavesOut w (.close socket) (owner socket) x

end ConsoleSystem

end AxSentinel
