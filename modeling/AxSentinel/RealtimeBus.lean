import Mathlib.Data.List.Nodup
import Mathlib.Logic.Function.Basic

/-! # The Redis fan-out

With Redis as its broker the incident service publishes telemetry and incidents on a bus, and each
replica listens to it: it takes one message after the other, and sends each to the sockets its
connection manager has at that moment, one socket after another, before it takes the next.  Sockets
come and go meanwhile, and a send may fail before or after the message arrived.

So a socket receives a block of its channel without a gap, in the order of the bus, whatever its
replica; and while it stays connected, everything its replica took since it connected (`fansOut`).
What carries this is where each socket is in the broadcast under way (`SocketSound`). -/
namespace AxSentinel

/-- The channels of the bus: `ax-sentinel.telemetry` and `ax-sentinel.incidents`. -/
inductive Channel where
  | telemetry | incidents
deriving DecidableEq

/-- A message as it was published. -/
structure BusMessage (M : Type) where
  channel : Channel
  payload : M

/-- A WebSocket: the replica that accepted it, the channel of its endpoint, and a number. -/
structure WebSocket where
  replica : Nat
  channel : Channel
  number : Nat
deriving DecidableEq

/-- `broadcast` under way: the sockets it has yet to send to, and those it could not send to. -/
structure Broadcast (M : Type) where
  channel : Channel
  message : M
  sockets : List WebSocket
  disconnected : List WebSocket

/-- What the listener of a replica does; an exception the broadcast does not handle ends it, and so
does a subscription that breaks. -/
inductive Listener (M : Type) where
  | notStarted
  | waiting
  | broadcasting (b : Broadcast M)
  | ended

/-- A replica of the service: how many messages of the bus its listener has taken or missed, what
the listener does, and the sockets of both connection managers. -/
structure Replica (M : Type) where
  position : Nat
  listener : Listener M
  connections : List WebSocket

/-- The bus, the replicas, what the sockets have received, and how much of its channel was on the
bus before its replica's position when a socket connected. -/
structure Fanout (M : Type) where
  bus : List (BusMessage M)
  replica : Nat → Replica M
  received : WebSocket → List M
  since : WebSocket → Option Nat

/-- How a send comes out. -/
inductive SendOutcome where
  | sent
  | failed
  | failedLate
deriving DecidableEq

/-- What happens next.  A broadcast goes through the set of connections in any order. -/
inductive FanoutAction (M : Type) where
  | publish (message : BusMessage M)
  | start (r : Nat)
  | take (r : Nat) (sockets : List WebSocket)
  | advance (r : Nat) (outcome : SendOutcome)
  | escape (r : Nat)
  | connect (socket : WebSocket)
  | disconnect (socket : WebSocket)

namespace Fanout
variable {M : Type}

/-- Nothing has happened yet. -/
def initial : Fanout M := ⟨[], fun _ => ⟨0, .notStarted, []⟩, fun _ => [], fun _ => none⟩

/-- The messages on a channel among some on the bus. -/
def onChannel (c : Channel) (bus : List (BusMessage M)) : List M :=
  (bus.filter (·.channel = c)).map (·.payload)

/-- What the replica of a socket has taken of its channel, or missed before it listened. -/
def heard (w : Fanout M) (socket : WebSocket) : List M :=
  onChannel socket.channel (w.bus.take (w.replica socket.replica).position)

/-- The system with another replica. -/
def setReplica (w : Fanout M) (r : Nat) (replica : Replica M) : Fanout M :=
  { w with replica := Function.update w.replica r replica }

/-- A send to the next socket. -/
def sendNext (w : Fanout M) (r : Nat) (outcome : SendOutcome) (b : Broadcast M)
    (socket : WebSocket) (sockets : List WebSocket) : Fanout M :=
  { w.setReplica r { w.replica r with
      listener := .broadcasting { b with
        sockets := sockets
        disconnected :=
          if outcome = .sent then b.disconnected else b.disconnected ++ [socket] } } with
    received := if outcome = .failed then w.received
      else Function.update w.received socket (w.received socket ++ [b.message]) }

/-- The next operation of a broadcast: a send to the next socket, or, after the last, the removal
of the sockets it could not send to. -/
def perform (w : Fanout M) (r : Nat) (outcome : SendOutcome) (b : Broadcast M) : Fanout M :=
  match b.sockets with
  | socket :: sockets => w.sendNext r outcome b socket sockets
  | [] => w.setReplica r { w.replica r with
      listener := .waiting
      connections := (w.replica r).connections.filter (· ∉ b.disconnected) }

/-- The listener takes the next message, and starts its broadcast. -/
def takeNext (w : Fanout M) (r : Nat) (message : BusMessage M) (sockets : List WebSocket) :
    Fanout M :=
  w.setReplica r { w.replica r with
    position := (w.replica r).position + 1
    listener := .broadcasting ⟨message.channel, message.payload, sockets, []⟩ }

/-- `connect`: a socket joins the connections of its replica. -/
def accept (w : Fanout M) (socket : WebSocket) : Fanout M :=
  { w.setReplica socket.replica { w.replica socket.replica with
      connections := (w.replica socket.replica).connections ++ [socket] } with
    since := Function.update w.since socket (some (w.heard socket).length) }

/-- One action. -/
def step (w : Fanout M) : FanoutAction M → Fanout M
  | .publish message => { w with bus := w.bus ++ [message] }
  | .start r =>
      match (w.replica r).listener with
      | .notStarted =>
          w.setReplica r { w.replica r with position := w.bus.length, listener := .waiting }
      | _ => w
  | .take r sockets =>
      match (w.replica r).listener, w.bus[(w.replica r).position]? with
      | .waiting, some message =>
          if sockets.isPerm ((w.replica r).connections.filter (·.channel = message.channel)) then
            w.takeNext r message sockets
          else w
      | _, _ => w
  | .advance r outcome =>
      match (w.replica r).listener with
      | .broadcasting b => w.perform r outcome b
      | _ => w
  | .escape r =>
      match (w.replica r).listener with
      | .notStarted => w
      | _ => w.setReplica r { w.replica r with listener := .ended }
  | .connect socket =>
      match w.since socket, (w.replica socket.replica).listener with
      | some _, _ => w
      | none, .notStarted => w
      | none, _ => w.accept socket
  | .disconnect socket =>
      w.setReplica socket.replica { w.replica socket.replica with
        connections := (w.replica socket.replica).connections.filter (· ≠ socket) }

/-- The system after actions. -/
def run (actions : List (FanoutAction M)) : Fanout M := actions.foldl step initial

/-! ## What a socket receives -/

/-- What a replica keeps of its sockets and its broadcast. -/
structure ReplicaSound (busLength : Nat) (since : WebSocket → Option Nat) (r : Nat)
    (x : Replica M) : Prop where
  position : x.position ≤ busLength
  nodup : x.connections.Nodup
  connected : ∀ socket ∈ x.connections, socket.replica = r ∧ (since socket).isSome = true
  notStarted : x.listener = .notStarted → ∀ socket : WebSocket, socket.replica = r →
    since socket = none
  broadcast : ∀ b, x.listener = .broadcasting b → (b.sockets ++ b.disconnected).Nodup ∧
    ∀ socket ∈ b.sockets ++ b.disconnected, socket.replica = r ∧ socket.channel = b.channel ∧
      (since socket).isSome = true

/-- What is so of a socket and what it has received. -/
structure SocketSound (w : Fanout M) (socket : WebSocket) : Prop where
  fresh : w.since socket = none → w.received socket = []
  block : ∀ k, w.since socket = some k → ∃ stop, k ≤ stop ∧ stop ≤ (w.heard socket).length ∧
    w.received socket = ((w.heard socket).take stop).drop k
  pending : ∀ k b, w.since socket = some k →
    (w.replica socket.replica).listener = .broadcasting b → socket ∈ b.sockets →
    ∃ earlier, w.heard socket = earlier ++ [b.message] ∧ k ≤ earlier.length ∧
      w.received socket = earlier.drop k
  served : ∀ k, w.since socket = some k → socket ∈ (w.replica socket.replica).connections →
    (w.replica socket.replica).listener ≠ .ended →
    (∀ b, (w.replica socket.replica).listener = .broadcasting b →
      socket ∉ b.sockets ++ b.disconnected) →
    w.received socket = (w.heard socket).drop k

section Frame
variable {w w' : Fanout M} {r : Nat} {socket : WebSocket}

@[simp] theorem setReplica_bus (x : Replica M) : (w.setReplica r x).bus = w.bus := rfl

@[simp] theorem setReplica_received (x : Replica M) :
    (w.setReplica r x).received = w.received := rfl

@[simp] theorem setReplica_since (x : Replica M) : (w.setReplica r x).since = w.since := rfl

@[simp] theorem setReplica_self (x : Replica M) : (w.setReplica r x).replica r = x :=
  Function.update_self ..

theorem setReplica_other {r' : Nat} (h : r' ≠ r) (x : Replica M) :
    (w.setReplica r x).replica r' = w.replica r' := Function.update_of_ne h ..

/-- What was heard depends on the bus and the position. -/
theorem heard_congr (hbus : w'.bus = w.bus)
    (hposition : (w'.replica socket.replica).position = (w.replica socket.replica).position) :
    w'.heard socket = w.heard socket := by
  rw [heard, heard, hbus, hposition]

/-- Nothing has changed for the socket. -/
theorem SocketSound.congr (h : SocketSound w socket) (hsince : w'.since socket = w.since socket)
    (hreceived : w'.received socket = w.received socket)
    (hheard : w'.heard socket = w.heard socket)
    (hreplica : w'.replica socket.replica = w.replica socket.replica) : SocketSound w' socket where
  fresh := by
    rw [hsince, hreceived]
    exact h.fresh
  block := by
    rw [hsince, hreceived, hheard]
    exact h.block
  pending := by
    rw [hsince, hreceived, hheard, hreplica]
    exact h.pending
  served := by
    rw [hsince, hreceived, hheard, hreplica]
    exact h.served

end Frame

/-- What is so of every replica and every socket. -/
structure Sound (w : Fanout M) : Prop where
  replica : ∀ r, ReplicaSound w.bus.length w.since r (w.replica r)
  socket : ∀ socket, SocketSound w socket

section Steps
variable {w : Fanout M} {r : Nat}

/-- A step of one replica leaves the others sound. -/
theorem Sound.setReplica (h : Sound w) {x : Replica M}
    (hx : ReplicaSound w.bus.length w.since r x) (r' : Nat) :
    ReplicaSound w.bus.length w.since r' ((w.setReplica r x).replica r') := by
  by_cases hr : r' = r
  · subst hr
    rw [setReplica_self]
    exact hx
  · rw [setReplica_other hr]
    exact h.replica r'

/-- A step of one replica that sends nothing leaves the sockets of the others sound. -/
theorem Sound.socket_other (h : Sound w) (x : Replica M) {socket : WebSocket}
    (hr : socket.replica ≠ r) : SocketSound (w.setReplica r x) socket :=
  (h.socket socket).congr rfl rfl (heard_congr rfl (by rw [setReplica_other hr]))
    (setReplica_other hr _)

theorem Sound.publish (h : Sound w) (message : BusMessage M) :
    Sound { w with bus := w.bus ++ [message] } where
  replica r :=
    ⟨Nat.le_trans (h.replica r).position (by simp), (h.replica r).nodup, (h.replica r).connected,
      (h.replica r).notStarted, (h.replica r).broadcast⟩
  socket socket := by
    refine (h.socket socket).congr rfl rfl ?_ rfl
    rw [heard, heard, List.take_append_of_le_length (h.replica socket.replica).position]

theorem Sound.start (h : Sound w) (hstart : (w.replica r).listener = .notStarted) :
    Sound (w.setReplica r { w.replica r with position := w.bus.length, listener := .waiting }) := by
  have hnone := (h.replica r).notStarted hstart
  refine ⟨h.setReplica ⟨Nat.le_refl _, (h.replica r).nodup, (h.replica r).connected, nofun, nofun⟩,
    fun socket => ?_⟩
  by_cases hr : socket.replica = r
  · have hsince : w.since socket = none := hnone socket hr
    refine ⟨(h.socket socket).fresh, ?_, ?_, ?_⟩
    · intro k hk
      cases hsince.symm.trans hk
    · intro k b hk
      cases hsince.symm.trans hk
    · intro k hk
      cases hsince.symm.trans hk
  · exact h.socket_other _ hr

/-- What the replica of a socket has heard once its listener takes a message. -/
theorem heard_takeNext {message : BusMessage M} (sockets : List WebSocket)
    (hnext : w.bus[(w.replica r).position]? = some message) {socket : WebSocket}
    (hr : socket.replica = r) : (w.takeNext r message sockets).heard socket =
      w.heard socket ++ if message.channel = socket.channel then [message.payload] else [] := by
  subst hr
  simp only [heard, takeNext, setReplica_self, setReplica_bus, List.take_add_one, hnext,
    onChannel, Option.toList_some, List.filter_append, List.map_append, List.filter_cons,
    List.filter_nil, decide_eq_true_eq]
  split <;> rfl

theorem Sound.takeNext (h : Sound w) {message : BusMessage M} {sockets : List WebSocket}
    (hwaiting : (w.replica r).listener = .waiting)
    (hnext : w.bus[(w.replica r).position]? = some message)
    (hperm : sockets.Perm ((w.replica r).connections.filter (·.channel = message.channel))) :
    Sound (w.takeNext r message sockets) := by
  have hmem : ∀ socket, socket ∈ sockets ↔
      socket ∈ (w.replica r).connections ∧ socket.channel = message.channel := by
    intro socket
    rw [hperm.mem_iff]
    simp
  refine ⟨h.setReplica ⟨?_, (h.replica r).nodup, (h.replica r).connected, nofun, ?_⟩,
    fun socket => ?_⟩
  · exact (List.getElem?_eq_some_iff.mp hnext).1
  · rintro _ ⟨⟩
    rw [List.append_nil]
    refine ⟨hperm.nodup_iff.mpr ((h.replica r).nodup.filter _), fun socket hsocket => ?_⟩
    obtain ⟨hconnected, hchannel⟩ := (hmem socket).mp hsocket
    obtain ⟨hreplica, hsince⟩ := (h.replica r).connected socket hconnected
    exact ⟨hreplica, hchannel, hsince⟩
  · by_cases hr : socket.replica = r
    · have hheard := heard_takeNext sockets hnext hr
      have hserved : ∀ k, w.since socket = some k → socket ∈ (w.replica r).connections →
          w.received socket = (w.heard socket).drop k := by
        intro k hk hconnected
        refine (h.socket socket).served k hk (hr ▸ hconnected) ?_ ?_
        · rw [hr, hwaiting]
          exact nofun
        · rw [hr, hwaiting]
          exact nofun
      refine ⟨(h.socket socket).fresh, fun k hk => ?_, fun k b hk hb hsocket => ?_,
        fun k hk hconnected _ hnot => ?_⟩
      · obtain ⟨stop, hle, hstop, hreceived⟩ := (h.socket socket).block k hk
        refine ⟨stop, hle, ?_, ?_⟩
        · rw [hheard, List.length_append]
          exact Nat.le_trans hstop (Nat.le_add_right _ _)
        · rw [hheard, List.take_append_of_le_length hstop]
          exact hreceived
      · rw [hr, Fanout.takeNext, setReplica_self] at hb
        obtain rfl := Listener.broadcasting.inj hb
        obtain ⟨hconnected, hchannel⟩ := (hmem socket).mp hsocket
        obtain ⟨stop, hle, hstop, -⟩ := (h.socket socket).block k hk
        refine ⟨w.heard socket, ?_, Nat.le_trans hle hstop, hserved k hk hconnected⟩
        rw [hheard, if_pos hchannel.symm]
      · rw [hr, Fanout.takeNext, setReplica_self] at hconnected
        have hchannel : message.channel ≠ socket.channel := by
          intro hchannel
          refine hnot _ (by rw [hr, Fanout.takeNext, setReplica_self]) ?_
          exact List.mem_append_left _ ((hmem socket).mpr ⟨hconnected, hchannel.symm⟩)
        rw [hheard, if_neg hchannel, List.append_nil]
        exact hserved k hk hconnected
    · exact h.socket_other _ hr

section Send
variable {b : Broadcast M} {socket : WebSocket} {sockets : List WebSocket} {outcome : SendOutcome}

theorem sendNext_received_self : (w.sendNext r outcome b socket sockets).received socket =
    if outcome = .failed then w.received socket else w.received socket ++ [b.message] := by
  by_cases hfailed : outcome = .failed
  · simp [sendNext, hfailed]
  · simp [sendNext, hfailed]

theorem sendNext_received_other {other : WebSocket} (h : other ≠ socket) :
    (w.sendNext r outcome b socket sockets).received other = w.received other := by
  by_cases hfailed : outcome = .failed
  · simp [sendNext, hfailed]
  · simp [sendNext, hfailed, h]

theorem sendNext_replica : (w.sendNext r outcome b socket sockets).replica r = { w.replica r with
    listener := .broadcasting { b with
      sockets := sockets
      disconnected := if outcome = .sent then b.disconnected else b.disconnected ++ [socket] } } :=
  setReplica_self _

theorem sendNext_heard (other : WebSocket) :
    (w.sendNext r outcome b socket sockets).heard other = w.heard other := by
  refine heard_congr rfl ?_
  by_cases hr : other.replica = r
  · rw [hr, sendNext_replica]
  · exact congrArg Replica.position (setReplica_other hr _)

/-- The socket that is next has heard all but the message, and then the message too or nothing more
of the broadcast. -/
theorem SocketSound.sendNext_self (h : SocketSound w socket) (hr : socket.replica = r)
    (hsince : (w.since socket).isSome = true) (hb : (w.replica r).listener = .broadcasting b)
    (hmem : socket ∈ b.sockets)
    (hnot : socket ∉ sockets) : SocketSound (w.sendNext r outcome b socket sockets) socket := by
  have hpending := fun k (hk : w.since socket = some k) => h.pending k b hk (hr ▸ hb) hmem
  refine ⟨fun hnone => ?_, fun k hk => ?_, fun k b' hk hb' hmem' => ?_,
    fun k hk _ _ hout => ?_⟩
  · rw [show w.since socket = none from hnone] at hsince
    cases hsince
  · obtain ⟨earlier, hheard, hle, hreceived⟩ := hpending k hk
    rw [sendNext_heard, sendNext_received_self]
    split
    · refine ⟨earlier.length, hle, by simp [hheard], ?_⟩
      rw [hheard, List.take_left']
      · exact hreceived
      · rfl
    · refine ⟨(w.heard socket).length, by simp [hheard]; omega, Nat.le_refl _, ?_⟩
      rw [List.take_length, hheard, hreceived, List.drop_append_of_le_length hle]
  · rw [hr, sendNext_replica] at hb'
    obtain rfl := Listener.broadcasting.inj hb'
    exact absurd hmem' hnot
  · obtain ⟨earlier, hheard, hle, hreceived⟩ := hpending k hk
    have hin := hout _ (by rw [hr, sendNext_replica])
    have hsent : outcome = .sent := by
      by_contra hne
      exact hin (by simp [hne])
    rw [sendNext_heard, sendNext_received_self, if_neg (by rw [hsent]; exact nofun), hheard,
      hreceived, List.drop_append_of_le_length hle]

/-- A send to another socket. -/
theorem SocketSound.sendNext_other {other : WebSocket} (h : SocketSound w other)
    (hne : other ≠ socket) (hb : (w.replica r).listener = .broadcasting b)
    (hsockets : b.sockets = socket :: sockets) :
    SocketSound (w.sendNext r outcome b socket sockets) other := by
  by_cases hr : other.replica = r
  · refine ⟨?_, ?_, fun k b' hk hb' hmem => ?_, fun k hk hconnected _ hout => ?_⟩
    · rw [sendNext_received_other hne]
      exact h.fresh
    · rw [sendNext_heard, sendNext_received_other hne]
      exact h.block
    · rw [hr, sendNext_replica] at hb'
      obtain rfl := Listener.broadcasting.inj hb'
      rw [sendNext_heard, sendNext_received_other hne]
      exact h.pending k b hk (hr ▸ hb) (hsockets ▸ List.mem_cons_of_mem _ hmem)
    · rw [hr, sendNext_replica] at hconnected
      have hnot := hout _ (by rw [hr, sendNext_replica])
      rw [sendNext_heard, sendNext_received_other hne]
      refine h.served k hk (hr ▸ hconnected) (by rw [hr, hb]; exact nofun) fun b' hb' hmem => ?_
      obtain rfl : b = b' := Listener.broadcasting.inj (hb.symm.trans (hr ▸ hb'))
      rw [hsockets] at hmem
      refine hnot (List.mem_append.mpr ?_)
      rcases List.mem_append.mp hmem with hmem | hmem
      · exact .inl ((List.mem_cons.mp hmem).resolve_left hne)
      · refine .inr ?_
        split
        · exact hmem
        · exact List.mem_append_left _ hmem
  · exact h.congr rfl (sendNext_received_other hne) (sendNext_heard other) (setReplica_other hr _)

/-- A send, however it comes out. -/
theorem Sound.sendNext (h : Sound w) (hb : (w.replica r).listener = .broadcasting b)
    (hsockets : b.sockets = socket :: sockets) : Sound (w.sendNext r outcome b socket sockets) := by
  obtain ⟨hnodup, hall⟩ := (h.replica r).broadcast b hb
  rw [hsockets, List.cons_append] at hnodup hall
  obtain ⟨hnot, hrest⟩ := List.nodup_cons.mp hnodup
  obtain ⟨hreplica, -, hsince⟩ := hall socket List.mem_cons_self
  refine ⟨h.setReplica ⟨(h.replica r).position, (h.replica r).nodup, (h.replica r).connected,
    nofun, ?_⟩, fun other => ?_⟩
  · -- the socket leaves the broadcast, or moves behind the ones that failed
    rintro _ ⟨⟩
    dsimp only
    split
    · exact ⟨hrest, fun x hx => hall x (List.mem_cons_of_mem _ hx)⟩
    · rw [← List.append_assoc]
      have hperm := List.perm_append_singleton socket (sockets ++ b.disconnected)
      exact ⟨hperm.nodup_iff.mpr hnodup, fun x hx => hall x (hperm.mem_iff.mp hx)⟩
  · by_cases hother : other = socket
    · subst hother
      exact (h.socket other).sendNext_self hreplica hsince hb (hsockets ▸ List.mem_cons_self)
        fun hmem => hnot (List.mem_append_left _ hmem)
    · exact (h.socket other).sendNext_other hother hb hsockets

end Send

/-- A replica hears nothing new, starts no broadcast, and may drop connections. -/
theorem Sound.settle (h : Sound w) {x : Replica M}
    (hposition : x.position = (w.replica r).position)
    (hconnections : x.connections.Sublist (w.replica r).connections)
    (hstarted : x.listener = .notStarted → (w.replica r).listener = .notStarted)
    (hbroadcast : ∀ b, x.listener = .broadcasting b → (w.replica r).listener = .broadcasting b)
    (hserved : ∀ socket ∈ x.connections, x.listener ≠ .ended →
      (∀ b, x.listener = .broadcasting b → socket ∉ b.sockets ++ b.disconnected) →
      (w.replica r).listener ≠ .ended ∧ ∀ b, (w.replica r).listener = .broadcasting b →
        socket ∉ b.sockets ++ b.disconnected) : Sound (w.setReplica r x) := by
  have hr := h.replica r
  refine ⟨h.setReplica ⟨hposition ▸ hr.position, hr.nodup.sublist hconnections,
    fun socket hmem => hr.connected socket (hconnections.subset hmem),
    fun hx => hr.notStarted (hstarted hx), fun b hb => hr.broadcast b (hbroadcast b hb)⟩,
    fun socket => ?_⟩
  by_cases hreplica : socket.replica = r
  · have hs := h.socket socket
    have hheard : (w.setReplica r x).heard socket = w.heard socket :=
      heard_congr rfl (by rw [hreplica, setReplica_self, hposition])
    refine ⟨hs.fresh, fun k hk => ?_, fun k b hk hb hmem => ?_,
      fun k hk hconnected hended hout => ?_⟩
    · rw [hheard]
      exact hs.block k hk
    · rw [hreplica, setReplica_self] at hb
      rw [hheard]
      exact hs.pending k b hk (hreplica ▸ hbroadcast b hb) hmem
    · rw [hreplica, setReplica_self] at hconnected hended hout
      obtain ⟨hlistens, hnot⟩ := hserved socket hconnected hended hout
      rw [hheard]
      exact hs.served k hk (hreplica ▸ hconnections.subset hconnected) (hreplica ▸ hlistens)
        (hreplica ▸ hnot)
  · exact h.socket_other _ hreplica

theorem Sound.perform (h : Sound w) {b : Broadcast M}
    (hb : (w.replica r).listener = .broadcasting b) (outcome : SendOutcome) :
    Sound (w.perform r outcome b) := by
  unfold Fanout.perform
  split
  · rename_i socket sockets hsockets
    exact h.sendNext hb hsockets
  · rename_i hsockets
    refine h.settle rfl List.filter_sublist nofun nofun fun socket hmem _ _ => ?_
    have hnot : socket ∉ b.disconnected := by simpa using (List.mem_filter.mp hmem).2
    refine ⟨by rw [hb]; exact nofun, fun b' hb' => ?_⟩
    obtain rfl : b = b' := Listener.broadcasting.inj (hb.symm.trans hb')
    rwa [hsockets, List.nil_append]

section Accept
variable {socket other : WebSocket}

theorem accept_since_self : (w.accept socket).since socket = some (w.heard socket).length :=
  Function.update_self ..

theorem accept_since_other (h : other ≠ socket) : (w.accept socket).since other = w.since other :=
  Function.update_of_ne h ..

theorem accept_replica_self : (w.accept socket).replica socket.replica =
    { w.replica socket.replica with
      connections := (w.replica socket.replica).connections ++ [socket] } :=
  setReplica_self _

theorem accept_replica_other {r : Nat} (h : r ≠ socket.replica) :
    (w.accept socket).replica r = w.replica r := setReplica_other h _

theorem accept_heard : (w.accept socket).heard other = w.heard other := by
  refine heard_congr rfl ?_
  by_cases hreplica : other.replica = socket.replica
  · rw [hreplica, accept_replica_self]
  · rw [accept_replica_other hreplica]

/-- Who had connected still has. -/
theorem accept_isSome (h : (w.since other).isSome = true) :
    ((w.accept socket).since other).isSome = true := by
  by_cases hsame : other = socket
  · rw [hsame, accept_since_self]
    rfl
  · rwa [accept_since_other hsame]

/-- The new socket has heard nothing. -/
theorem Sound.accept_self (h : Sound w) (hnone : w.since socket = none) :
    SocketSound (w.accept socket) socket := by
  have hempty : (w.accept socket).received socket = [] := (h.socket socket).fresh hnone
  refine ⟨fun _ => hempty, fun k hk => ?_, fun k b _ hb hmem => ?_, fun k hk _ _ _ => ?_⟩
  · obtain rfl := Option.some.inj (accept_since_self.symm.trans hk)
    refine ⟨_, Nat.le_refl _, Nat.le_of_eq (by rw [accept_heard]), ?_⟩
    rw [hempty, accept_heard, List.take_length, List.drop_length]
  · rw [accept_replica_self] at hb
    have hsince :=
      (((h.replica socket.replica).broadcast b hb).2 socket (List.mem_append_left _ hmem)).2.2
    rw [hnone] at hsince
    cases hsince
  · obtain rfl := Option.some.inj (accept_since_self.symm.trans hk)
    rw [hempty, accept_heard, List.drop_length]

/-- The others stay as they are. -/
theorem Sound.accept_other (h : Sound w) (hsame : other ≠ socket) :
    SocketSound (w.accept socket) other := by
  have hs := h.socket other
  by_cases hreplica : other.replica = socket.replica
  · have hsince := @accept_since_other _ w _ _ hsame
    refine ⟨fun hfresh => hs.fresh (hsince ▸ hfresh), fun k hk => ?_, fun k b hk hb hmem => ?_,
      fun k hk hconnected hended hout => ?_⟩
    · rw [accept_heard]
      exact hs.block k (hsince ▸ hk)
    · rw [hreplica, accept_replica_self] at hb
      rw [accept_heard]
      exact hs.pending k b (hsince ▸ hk) (hreplica ▸ hb) hmem
    · rw [hreplica, accept_replica_self] at hconnected hended hout
      rw [accept_heard]
      refine hs.served k (hsince ▸ hk) ?_ (hreplica ▸ hended) (hreplica ▸ hout)
      rcases List.mem_append.mp hconnected with hmem | hmem
      · exact hreplica ▸ hmem
      · exact absurd (List.mem_singleton.mp hmem) hsame
  · exact hs.congr (accept_since_other hsame) rfl accept_heard (accept_replica_other hreplica)

theorem Sound.accept (h : Sound w) (hnone : w.since socket = none)
    (hstarted : (w.replica socket.replica).listener ≠ .notStarted) : Sound (w.accept socket) := by
  refine ⟨fun r => ?_, fun other => ?_⟩
  · have hr := h.replica r
    have hbroadcast : ∀ b, (w.replica r).listener = .broadcasting b →
        (b.sockets ++ b.disconnected).Nodup ∧ ∀ other ∈ b.sockets ++ b.disconnected,
          other.replica = r ∧ other.channel = b.channel ∧
            ((w.accept socket).since other).isSome = true := fun b hb =>
      (hr.broadcast b hb).imp_right fun hall other hmem =>
        (hall other hmem).imp_right (And.imp_right accept_isSome)
    by_cases hsame : r = socket.replica
    · subst hsame
      have hnot : socket ∉ (w.replica socket.replica).connections := by
        intro hmem
        have hsince := (hr.connected socket hmem).2
        rw [hnone] at hsince
        cases hsince
      rw [accept_replica_self]
      refine ⟨hr.position, ?_, fun other hmem => ?_, fun hx => absurd hx hstarted, hbroadcast⟩
      · exact (List.perm_append_singleton socket _).nodup_iff.mpr (List.nodup_cons.mpr
          ⟨hnot, hr.nodup⟩)
      · rcases List.mem_append.mp hmem with hmem | hmem
        · exact (hr.connected other hmem).imp_right accept_isSome
        · obtain rfl := List.mem_singleton.mp hmem
          exact ⟨rfl, by rw [accept_since_self]; rfl⟩
    · rw [accept_replica_other hsame]
      refine ⟨hr.position, hr.nodup, fun other hmem => (hr.connected other hmem).imp_right
        accept_isSome, fun hx other hother => ?_, hbroadcast⟩
      have hne : other ≠ socket := by
        rintro rfl
        exact hsame hother.symm
      rw [accept_since_other hne]
      exact hr.notStarted hx other hother
  · by_cases hsame : other = socket
    · subst hsame
      exact h.accept_self hnone
    · exact h.accept_other hsame

end Accept

end Steps

/-- **Every step keeps the fan-out sound.** -/
theorem Sound.step {w : Fanout M} (h : Sound w) (action : FanoutAction M) :
    Sound (w.step action) := by
  cases action with
  | publish message => exact h.publish message
  | start r =>
    simp only [Fanout.step]
    split
    · rename_i hstart
      exact h.start hstart
    · exact h
  | take r sockets =>
    simp only [Fanout.step]
    split
    · rename_i message hwaiting hnext
      split
      · rename_i hperm
        exact h.takeNext hwaiting hnext (List.isPerm_iff.mp hperm)
      · exact h
    · exact h
  | advance r outcome =>
    simp only [Fanout.step]
    split
    · rename_i b hb
      exact h.perform hb outcome
    · exact h
  | escape r =>
    simp only [Fanout.step]
    split
    · exact h
    · rename_i hstarted
      exact h.settle rfl (List.Sublist.refl _) nofun nofun fun _ _ hended => absurd rfl hended
  | connect socket =>
    simp only [Fanout.step]
    split
    · exact h
    · exact h
    · rename_i hnone hstarted
      exact h.accept hnone hstarted
  | disconnect socket =>
    exact h.settle rfl List.filter_sublist id (fun _ => id) fun _ _ hended hout => ⟨hended, hout⟩

theorem sound_initial : Sound (initial : Fanout M) where
  replica _ := ⟨Nat.zero_le _, List.nodup_nil, nofun, fun _ _ _ => rfl, nofun⟩
  socket _ := ⟨fun _ => rfl, nofun, nofun, nofun⟩

theorem sound_run (actions : List (FanoutAction M)) : Sound (run actions) :=
  List.foldlRecOn actions step sound_initial fun _ h action _ => h.step action

/-! ## Blocks -/

/-- A replica has heard the beginning of the channel. -/
theorem isPrefix_heard (w : Fanout M) (socket : WebSocket) :
    w.heard socket <+: onChannel socket.channel w.bus :=
  ((List.take_prefix _ w.bus).filter _).map _

/-- What the sockets have received: each a block of its channel as it was published, and, while it
is connected and its listener waits, all that its replica took since it connected; that is all that
was published since, if the listener has caught up. -/
structure FansOut (w : Fanout M) : Prop where
  block : ∀ socket, ∃ start stop,
    w.received socket = ((onChannel socket.channel w.bus).take stop).drop start
  all : ∀ socket k, w.since socket = some k → socket ∈ (w.replica socket.replica).connections →
    (w.replica socket.replica).listener = .waiting → w.received socket = (w.heard socket).drop k
  caughtUp : ∀ socket k, w.since socket = some k →
    socket ∈ (w.replica socket.replica).connections →
    (w.replica socket.replica).listener = .waiting →
    (w.replica socket.replica).position = w.bus.length →
    w.received socket = (onChannel socket.channel w.bus).drop k

/-- **The fan-out**, in every run. -/
theorem fansOut (actions : List (FanoutAction M)) : FansOut (run actions) := by
  have h := sound_run actions
  generalize run actions = w at h
  have hall : ∀ socket k, w.since socket = some k →
      socket ∈ (w.replica socket.replica).connections →
      (w.replica socket.replica).listener = .waiting →
      w.received socket = (w.heard socket).drop k := by
    intro socket k hk hconnected hwaiting
    refine (h.socket socket).served k hk hconnected ?_ ?_
    · rw [hwaiting]
      exact nofun
    · rw [hwaiting]
      exact nofun
  refine ⟨fun socket => ?_, hall, fun socket k hk hconnected hwaiting hposition => ?_⟩
  · cases hsince : w.since socket with
    | none => exact ⟨0, 0, by simpa using (h.socket socket).fresh hsince⟩
    | some k =>
      obtain ⟨stop, -, hstop, hreceived⟩ := (h.socket socket).block k hsince
      refine ⟨k, stop, ?_⟩
      rw [hreceived, List.prefix_iff_eq_take.mp (isPrefix_heard w socket), List.take_take,
        Nat.min_eq_left hstop]
  · rw [hall socket k hk hconnected hwaiting, heard, hposition, List.take_length]

/-- A socket that connects during a broadcast waits for the next message. -/
example : (run [.start 0, .connect ⟨0, .incidents, 1⟩, .publish ⟨.incidents, "a"⟩,
    .take 0 [⟨0, .incidents, 1⟩], .connect ⟨0, .incidents, 2⟩, .advance 0 .sent, .advance 0 .sent,
    .publish ⟨.incidents, "b"⟩, .take 0 [⟨0, .incidents, 2⟩, ⟨0, .incidents, 1⟩],
    .advance 0 .sent]).received ⟨0, .incidents, 2⟩ = ["b"] := by decide

end Fanout
end AxSentinel
