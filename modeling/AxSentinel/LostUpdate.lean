import AxSentinel.Platform

/-! # Concurrent updates of one entity

Three handlers read an entity with `get`, change what they read, and write it
with `put`.  `put` reads the entity again and writes on the condition that its
version is still the one of this second read.  So no write is lost between the
second read and the write; between the handler's own `get` and the second read
the version check sees nothing (`keepsUpdates_iff`). -/
namespace AxSentinel
open Effects

/-- The requests that read an entity, change it and write it back. -/
def Request.readModifyWrite : Request → Bool
  | updateIncidentStatus .. | completeWorkOrder .. | updateExpertReview .. => true
  | _ => false

/-- The event at `n` is a read of `key` by thread `i`. -/
def ReadAt (h : List (Event platform)) (i : Nat) (key : Key) (n : Nat) : Prop :=
  ∃ e ∈ h[n]?, e.thread = i ∧ e.move.op = .inl (.getItem key)

/-- The operation is a read of `key`. -/
def reads (key : Key) : platformOps.Op → Bool
  | .inl (.getItem key') => key' = key
  | _ => false

theorem reads_iff {key : Key} {op : platformOps.Op} :
    reads key op = true ↔ op = .inl (.getItem key) := by
  unfold reads
  split
  · simp
  · rename_i hop
    exact ⟨fun h => absurd h Bool.false_ne_true, fun h => absurd h (hop key)⟩

instance (h : List (Event platform)) (i : Nat) (key : Key) (n : Nat) :
    Decidable (ReadAt h i key n) :=
  decidable_of_iff ((h[n]?).any fun e => e.thread = i ∧ reads key e.move.op) (by
    simp [ReadAt, Option.any_eq_true, reads_iff])

/-- The thread's own `get` of the entity is its first read of it, at `m`. -/
def OwnGet (h : List (Event platform)) (i : Nat) (key : Key) (m : Nat) : Prop :=
  ReadAt h i key m ∧ ∀ k, k < m → ¬ ReadAt h i key k

/-- No accepted update is lost: between the own `get` of a request and a write of the
request that takes effect, no other write to the entity does. -/
def KeepsUpdates (s : Composed) : Prop :=
  ∀ n e key item m, s.history[n]? = some e → e.Wrote key item →
    (s.request e.thread).any Request.readModifyWrite = true →
    OwnGet s.history e.thread key m → Undisturbed s.history e.thread key m n

/-- Between the own `get` of a request and the `get_item` of its `put`, no other write
to the entity takes effect. -/
def ReadsStayCurrent (s : Composed) : Prop :=
  ∀ n e key item m, s.history[n]? = some e → e.Wrote key item →
    (s.request e.thread).any Request.readModifyWrite = true →
    OwnGet s.history e.thread key m →
    ∃ k, m < k ∧ GuardsAt s.history e.thread key k n ∧ Undisturbed s.history e.thread key m k

section History
variable {settings : Settings} {requests : Nat → Option Request} {uuids : UuidSupply}
  {h : List (Event platform)} {w : platform.World}

/-- What a read-modify-write request writes, it read before. -/
theorem Request.Writes.update {request : Request} {past : Moves} {key : Key} {v : Entity}
    (hwrites : request.Writes settings past key v) (hrequest : request.readModifyWrite = true) :
    ∃ key' u, Saw past key' u ∧ (u.key = key' → key = key') := by
  cases hwrites with
  | moved htrans => exact ⟨_, _, htrans.1, id⟩
  | completed hcompletion => exact ⟨_, _, hcompletion.1, id⟩
  | resolvedRemotely _ _ _ htrans => exact ⟨_, _, htrans.1, id⟩
  | resolvedDirectly u _ _ hsaw => exact ⟨_, u, hsaw, fun _ => rfl⟩
  | reviewUpdated hsaw => exact ⟨_, _, hsaw, fun hkey => by simpa [Entity.key] using hkey⟩
  | _ => cases hrequest

/-- A request's own `get` comes before the `get_item` of its `put`. -/
theorem ownGet_lt_guard (H : Composed.History settings requests uuids h w) {n k m : Nat}
    {e : Event platform} {key : Key} {item : Item (Attributes Entity)} (hn : h[n]? = some e)
    (hw : e.Wrote key item) (hrequest : (requests e.thread).any Request.readModifyWrite = true)
    (hguard : GuardsAt h e.thread key k n) (hm : OwnGet h e.thread key m) : m < k := by
  obtain ⟨cond, hop, -⟩ := hw
  obtain ⟨-, ⟨request, hreq, hallowed⟩, -⟩ := H.at_position hn
  obtain ⟨earlier, current, hpast, -, -, hwrites⟩ := hallowed key item cond hop
  rw [hreq, Option.any_some] at hrequest
  obtain ⟨key', u, hsaw, hkey⟩ := hwrites.update hrequest
  obtain ⟨d, current', hk, hthread, hmove, hpast'⟩ := hguard.read
  obtain ⟨hearlier, -⟩ := List.append_inj' (hpast.symm.trans hpast') rfl
  obtain ⟨-, hsaws⟩ := keyed (H.at_position hk).1
  rw [hearlier] at hsaw
  obtain rfl := hkey (hsaws _ _ _ hsaw)
  obtain ⟨item', -, hmem⟩ := hsaw
  obtain ⟨j, x, hjk, hj, hx, hxmove⟩ := past_position hmem
  have hread : ReadAt h e.thread key j := ⟨x, hj, hx, by rw [hxmove]⟩
  exact Nat.lt_of_le_of_lt (Nat.le_of_not_lt fun hlt => hm.2 j hlt hread) hjk

end History

/-- **When no update is lost.**  In every state the services reach, no accepted
update has been lost exactly when no write to an entity took effect between a
request's own `get` of it and the `get_item` of the request's `put`. -/
theorem keepsUpdates_iff {settings : Settings} {uuids : UuidSupply} {s : Composed}
    (hs : Composed.Reachable settings uuids s) : KeepsUpdates s ↔ ReadsStayCurrent s := by
  have H := hs.history
  have hguarded : ∀ i past op, Permitted settings s.request i past op → GuardedWrites past op :=
    fun i past op ⟨request, _, hallowed⟩ => hallowed.guarded
  constructor
  · intro hkeeps n e key item m hn hw hrequest hm
    obtain ⟨k, hguard, hiff⟩ := H.undisturbed_iff hguarded hn hw
    exact ⟨k, ownGet_lt_guard H hn hw hrequest hguard hm, hguard,
      (hiff m).mp (hkeeps n e key item m hn hw hrequest hm)⟩
  · intro hcurrent n e key item m hn hw hrequest hm
    obtain ⟨k, hguard, hiff⟩ := H.undisturbed_iff hguarded hn hw
    obtain ⟨k', -, hguard', hund⟩ := hcurrent n e key item m hn hw hrequest hm
    have hkk : k = k' := by
      obtain ⟨d, _, hd, hdthread, -⟩ := hguard.read
      obtain ⟨d', _, hd', hdthread', -⟩ := hguard'.read
      rcases Nat.lt_trichotomy k k' with hlt | heq | hgt
      · exact absurd hdthread' (hguard.last k' d' hlt hguard'.before hd')
      · exact heq
      · exact absurd hdthread (hguard'.last k d hgt hguard.before hd)
    exact (hiff m).mpr (hkk ▸ hund)

/-- A run in which a field worker's status update reads a detected incident, the
incident is then resolved with its work order, and the update writes it back as
`analyzing`. -/
def staleUpdate : Composed :=
  Sample.run Sample.direct
    ([.arrive (.simulateIncident Sample.incident Sample.manager),
      .arrive (.decideActionPlan (Sample.decision "" "" .approve) Sample.manager),
      .arrive (.updateIncidentStatus "" ⟨.analyzing⟩ Sample.worker),
      .arrive (.completeWorkOrder "aa" Sample.completion Sample.worker)] ++
      Sample.advances 0 7 ++ Sample.advances 1 10 ++ Sample.advances 2 1 ++ Sample.advances 3 9 ++
      Sample.advances 2 5)

theorem keepsUpdates_iff_staleUpdate : KeepsUpdates staleUpdate ↔ ReadsStayCurrent staleUpdate :=
  keepsUpdates_iff (Sample.reachable_run _ _)

/-- The event at position `n` is a write of the incident by thread `i` that succeeded,
and `status` is what it wrote. -/
def movesIncident (s : Composed) (n i : Nat) (status : IncidentStatus) : Bool :=
  (s.history[n]?).any fun e => e.thread = i && (accepted e).any fun p =>
    p.1 = ⟨.incident, ""⟩ && p.2.incidentStatus = some status

theorem wrote_of_movesIncident {settings : Settings} {uuids : UuidSupply} {s : Composed}
    (hs : Composed.Reachable settings uuids s) {n i : Nat} {status : IncidentStatus}
    (h : movesIncident s n i status = true) :
    ∃ e item, s.history[n]? = some e ∧ e.thread = i ∧ e.Wrote ⟨.incident, ""⟩ item := by
  simp only [movesIncident, Option.any_eq_true, Bool.and_eq_true, decide_eq_true_eq] at h
  obtain ⟨e, he, hthread, ⟨key, v⟩, haccepted, rfl, -⟩ := h
  obtain ⟨item, -, hwrote⟩ := wrote_of_accepted hs.history (List.mem_of_getElem? he) haccepted
  exact ⟨e, item, he, hthread, hwrote⟩

/-- The resolved incident is written back as `analyzing`. -/
theorem staleUpdate_overwrites : movesIncident staleUpdate 25 3 .resolved = true ∧
    movesIncident staleUpdate 29 2 .analyzing = true ∧
    OwnGet staleUpdate.history 2 ⟨.incident, ""⟩ 17 := by
  unfold OwnGet
  decide +kernel

/-- Updates are lost. -/
theorem not_keepsUpdates : ¬ ∀ settings uuids s,
    Composed.Reachable settings uuids s → KeepsUpdates s := by
  intro hall
  have hreach : Composed.Reachable Sample.direct .unary staleUpdate := Sample.reachable_run _ _
  obtain ⟨hresolved, hupdate, hget⟩ := staleUpdate_overwrites
  obtain ⟨e, item, he, hthread, hwrote⟩ := wrote_of_movesIncident hreach hupdate
  obtain ⟨x, item', hx, hxthread, hxwrote⟩ := wrote_of_movesIncident hreach hresolved
  have hund := hall _ _ _ hreach 29 e _ item 17 he hwrote (by rw [hthread]; decide +kernel)
    (hthread ▸ hget)
  exact hund 25 x item' (by decide) (by decide) hx (by rw [hthread, hxthread]; decide) hxwrote

end AxSentinel
