import AxSentinel.Protocol
import Mathlib.Data.List.Nodup

/-! # Runs of the composed services

The services handle any requests, interleaved in any way, and any operation that
leaves a process may fail.  Every table starts empty.  From the protocol of the
requests alone it follows that an entity is stored under its own key (`keyed`),
that a new entity never replaces another one (`fresh`), and that what a stored
entity has become is an evolution of what it was (`evolves`). -/
namespace AxSentinel
open Effects

/-- What the operations of thread `i` are restricted to when it serves
`requests i`. -/
def Permitted (settings : Settings) (requests : Nat → Option Request) (i : Nat) (past : Moves)
    (op : platformOps.Op) : Prop :=
  ∃ request, requests i = some request ∧ request.Allowed settings past op

/-- A composed system: the tables, the requests under way, and the history. -/
abbrev Composed := System platform Request Unit

/-- The systems some run of the services leads to. -/
abbrev Composed.Reachable (settings : Settings) (uuids : UuidSupply) (s : Composed) : Prop :=
  System.Reachable (Request.code settings) (initialWorld uuids) s

/-- The histories of the composed services. -/
abbrev Composed.History (settings : Settings) (requests : Nat → Option Request)
    (uuids : UuidSupply) (h : List (Event platform)) (w : platform.World) : Prop :=
  platform.History (Permitted settings requests) (initialWorld uuids) h w

theorem Composed.Reachable.history {settings : Settings} {uuids : UuidSupply} {s : Composed}
    (hs : Composed.Reachable settings uuids s) :
    Composed.History settings s.request uuids s.history s.world :=
  (System.Reachable.conforms (Q := fun _ _ _ => True) hs (Request.obeys settings)).history

/-- The write of `v` under `key` by thread `i` is what its request's protocol
justifies. -/
def Justified (settings : Settings) (requests : Nat → Option Request) (h : List (Event platform))
    (i : Nat) (key : Key) (v : Entity) : Prop :=
  ∃ request earlier current, requests i = some request ∧
    past i h = earlier ++ [⟨.inl (.getItem key), .ok current⟩] ∧
    request.Writes settings earlier key v

section History
variable {settings : Settings} {requests : Nat → Option Request} {uuids : UuidSupply}
  {h : List (Event platform)} {w : platform.World}

/-- The two things an operation may do to the table. -/
theorem exec_cases {i : Nat} {op : platformOps.Op}
    (hok : Permitted settings requests i (past i h) op)
    (c : platform.Choice) (w : platform.World) :
    (∀ key, entity key (platform.exec op c w).2 = entity key w) ∨
      ∃ key item, (platform.event i op c w).Wrote key item ∧
        Justified settings requests h i key item.attributes.data ∧
        (∀ key', entity key' (platform.exec op c w).2 =
          if key' = key then some item.attributes.data else entity key' w) := by
  rcases exec_table i op c w with hsame | ⟨key, item, hwrote⟩
  · exact .inl (entity_of_table hsame)
  · have hwrote' := hwrote
    obtain ⟨cond, hop, -, hins⟩ := hwrote'
    obtain ⟨request, hrequest, hallowed⟩ := hok
    obtain ⟨earlier, current, hpast, -, -, hwrites⟩ := hallowed key item cond hop
    refine .inr ⟨key, item, hwrote, ⟨request, earlier, current, hrequest, hpast, hwrites⟩,
      entity_insert hins⟩

/-- The key and the entity an event wrote, if it is a write that succeeded. -/
def accepted (e : Event platform) : Option (Key × Entity) :=
  match e.move with
  | ⟨.inl (.putItem key item _), .ok _⟩ => some (key, item.attributes.data)
  | _ => none

/-- A write that succeeds takes effect. -/
theorem wrote_of_accepted (H : Composed.History settings requests uuids h w) {e : Event platform}
    (he : e ∈ h) {key : Key} {v : Entity} (haccepted : accepted e = some (key, v)) :
    ∃ item : Item (Attributes Entity), item.attributes.data = v ∧ e.Wrote key item := by
  obtain ⟨n, -, -, -, c, hevent⟩ := H.of_mem he
  unfold accepted at haccepted
  split at haccepted
  · rename_i key' item cond reply hmove
    obtain ⟨rfl, rfl⟩ := Prod.mk.inj (Option.some.inj haccepted)
    rw [hmove] at hevent
    have hreply := congrArg Event.move hevent
    rw [hmove] at hreply
    have hok := (eq_of_heq (Move.mk.inj hreply).2).symm
    rcases TableMachine.exec_put (M := platform) key' item cond c e.before with
      ⟨-, hfailed⟩ | ⟨hholds, hins⟩
    · exact absurd hok (hfailed _)
    · refine ⟨item, rfl, cond, by rw [hmove], hholds, ?_⟩
      rw [show e.after = (platform.exec (.inl (.putItem key' item cond)) c e.before).2 from
        congrArg Event.after hevent]
      exact hins
  · cases haccepted

/-- What a thread has read, it read earlier or reads now. -/
theorem saw_snoc {i j : Nat} {op : platformOps.Op} {c : platform.Choice} {key : Key} {v : Entity}
    (hsaw : Saw (past j (h ++ [platform.event i op c w])) key v) :
    Saw (past j h) key v ∨
      (entity key w = some v ∧ entity key (platform.exec op c w).2 = some v) := by
  obtain ⟨item, hdata, hmem⟩ := hsaw
  by_cases hij : j = i
  · subst hij
    rw [past_snoc_self] at hmem
    rcases List.mem_append.mp hmem with hold | hnew
    · exact .inl ⟨item, hdata, hold⟩
    · obtain ⟨rfl, hreply⟩ := Move.mk.inj (List.mem_singleton.mp hnew)
      obtain ⟨hsame, hr⟩ := TableMachine.exec_get (M := platform) key c w
      have hlookup := hr _ (eq_of_heq hreply).symm
      have hread : entity key w = some v := by
        rw [entity, stored, ← hlookup, Option.map_some, hdata]
      exact .inr ⟨hread, (entity_of_table hsame key).trans hread⟩
  · rw [past_snoc_other hij] at hmem
    exact .inl ⟨item, hdata, hmem⟩

/-- What a thread has written, it wrote earlier or writes now. -/
theorem put_snoc {i j : Nat} {op : platformOps.Op} {c : platform.Choice} {key : Key} {v : Entity}
    (hput : Put (past j (h ++ [platform.event i op c w])) key v) :
    Put (past j h) key v ∨ entity key (platform.exec op c w).2 = some v := by
  obtain ⟨item, cond, hdata, hmem⟩ := hput
  by_cases hij : j = i
  · subst hij
    rw [past_snoc_self] at hmem
    rcases List.mem_append.mp hmem with hold | hnew
    · exact .inl ⟨item, cond, hdata, hold⟩
    · obtain ⟨rfl, hreply⟩ := Move.mk.inj (List.mem_singleton.mp hnew)
      rcases TableMachine.exec_put (M := platform) key item cond c w with
        ⟨-, hfailed⟩ | ⟨-, hins⟩
      · exact absurd (eq_of_heq hreply).symm (hfailed _)
      · refine .inr ?_
        rw [entity, stored, hins, AList.lookup_insert, Option.map_some, hdata]
  · rw [past_snoc_other hij] at hmem
    exact .inl ⟨item, cond, hdata, hmem⟩

/-- `v` may be what has become of `u`. -/
inductive Entity.Evolves : Entity → Entity → Prop
  | telemetry (r : TelemetryRecord) : Evolves (.telemetry r) (.telemetry r)
  | incident {i j : Incident} : j = { i with status := j.status } →
      Evolves (.incident i) (.incident j)
  | approval (a : ApprovalRecord) : Evolves (.approval a) (.approval a)
  | workOrder {u v : WorkOrder} : v.id = u.id → v.incidentId = u.incidentId →
      v.analysisId = u.analysisId → v.checklist = u.checklist →
      (u.status = "resolved" → v.status = "resolved") → Evolves (.workOrder u) (.workOrder v)
  | analysis (a : AnalysisResult) : Evolves (.analysis a) (.analysis a)
  | expertReview {r q : ExpertReviewCase} : q.id = r.id → q.analysisId = r.analysisId →
      Evolves (.expertReview r) (.expertReview q)

theorem Entity.Evolves.refl (v : Entity) : v.Evolves v := by
  cases v with
  | telemetry r => exact .telemetry r
  | incident i => exact .incident rfl
  | approval a => exact .approval a
  | workOrder w => exact .workOrder rfl rfl rfl rfl id
  | analysis a => exact .analysis a
  | expertReview r => exact .expertReview rfl rfl

theorem Entity.Evolves.trans {u v x : Entity} (huv : u.Evolves v) (hvx : v.Evolves x) :
    u.Evolves x := by
  cases huv with
  | telemetry r => exact hvx
  | approval a => exact hvx
  | analysis a => exact hvx
  | incident hij =>
    cases hvx with
    | incident hjk => exact .incident (by rw [hjk, hij])
  | workOrder hid hincident hanalysis hchecklist hresolved =>
    cases hvx with
    | workOrder hid' hincident' hanalysis' hchecklist' hresolved' =>
      exact .workOrder (hid'.trans hid) (hincident'.trans hincident) (hanalysis'.trans hanalysis)
        (hchecklist'.trans hchecklist) fun h => hresolved' (hresolved h)
  | expertReview hid hanalysis =>
    cases hvx with
    | expertReview hid' hanalysis' =>
      exact .expertReview (hid'.trans hid) (hanalysis'.trans hanalysis)

/-- What a request writes is a new entity, or an update of one it read, whatever
else has become of that one meanwhile. -/
theorem Request.Writes.new_or_update {request : Request} {past : Moves} {key : Key} {v : Entity}
    (h : request.Writes settings past key v) :
    (Creates past v ∧ key = v.key) ∨ ∃ key' u, Saw past key' u ∧
      (u.key = key' → key = key' ∧ v.key = key ∧ ∀ x, u.Evolves x → x.Evolves v) := by
  cases h with
  | simulated hnew => exact .inl ⟨hnew, rfl⟩
  | received hnew => exact .inl ⟨hnew, rfl⟩
  | automatic hnew => exact .inl ⟨hnew, rfl⟩
  | decided hnew => exact .inl ⟨hnew, rfl⟩
  | opened hnew => exact .inl ⟨hnew, rfl⟩
  | analyzed hnew => exact .inl ⟨hnew, rfl⟩
  | reviewOpened hnew => exact .inl ⟨hnew, rfl⟩
  | moved htrans =>
    refine .inr ⟨_, _, htrans.1, fun hkey => ⟨hkey, rfl, ?_⟩⟩
    intro x hx
    cases hx with
    | incident hx => exact .incident (by rw [hx])
  | resolvedRemotely _ _ _ htrans =>
    refine .inr ⟨_, _, htrans.1, fun hkey => ⟨hkey, rfl, ?_⟩⟩
    intro x hx
    cases hx with
    | incident hx => exact .incident (by rw [hx])
  | resolvedDirectly u _ _ hsaw =>
    refine .inr ⟨_, u, hsaw, fun hkey => ?_⟩
    cases u with
    | incident i =>
      refine ⟨rfl, hkey, ?_⟩
      intro x hx
      cases hx with
      | incident hx => exact .incident (by rw [hx])
    | _ => cases hkey
  | completed hcompletion =>
    refine .inr ⟨_, _, hcompletion.1, fun hkey => ⟨hkey, rfl, ?_⟩⟩
    intro x hx
    cases hx with
    | workOrder hid hincident hanalysis hchecklist =>
      exact .workOrder hid.symm hincident.symm hanalysis.symm hchecklist.symm fun _ => rfl
  | reviewUpdated hsaw =>
    refine .inr ⟨_, _, hsaw, fun hkey => ⟨by simpa [Entity.key] using hkey, rfl, ?_⟩⟩
    intro x hx
    cases hx with
    | expertReview hid hanalysis => exact .expertReview (by simp [hid]) (by simp [hanalysis])

theorem not_saw_nil {key : Key} {v : Entity} : ¬ Saw [] key v := by
  rintro ⟨item, -, hmem⟩
  cases hmem

/-- **Invariants of entities.**  What holds of an entity is kept by every step, and holds
of what is written if it holds of what is stored and of what the writer has read, then
holds of everything that is stored or was read. -/
theorem stored_invariant (I : List (Event platform) → platform.World → Key → Entity → Prop)
    (hkeep : ∀ {h w i op}, Composed.History settings requests uuids h w →
      Permitted settings requests i (past i h) op → ∀ c key v, I h w key v →
      I (h ++ [platform.event i op c w]) (platform.exec op c w).2 key v)
    (hwrite : ∀ {h w i op c}, Composed.History settings requests uuids h w →
      Permitted settings requests i (past i h) op →
      (∀ key v, entity key w = some v → I h w key v) →
      (∀ key v, Saw (past i h) key v → I h w key v) → ∀ key item,
      (platform.event i op c w).Wrote key item →
      Justified settings requests h i key item.attributes.data →
      I (h ++ [platform.event i op c w]) (platform.exec op c w).2 key item.attributes.data)
    (H : Composed.History settings requests uuids h w) :
    (∀ key v, entity key w = some v → I h w key v) ∧
      ∀ i key v, Saw (past i h) key v → I h w key v := by
  induction H with
  | nil => exact ⟨fun key v hv => (by simp at hv), fun i key v hsaw => (not_saw_nil hsaw).elim⟩
  | @snoc h w i op c H hok ih =>
    obtain ⟨ihstored, ihsaw⟩ := ih
    constructor
    · intro key v hv
      rcases exec_cases hok c w with hsame | ⟨key', item, hwrote, hjust, htable⟩
      · exact hkeep H hok c key v (ihstored key v (hsame key ▸ hv))
      · rw [htable key] at hv
        split at hv
        · rename_i hkey
          subst hkey
          obtain rfl := Option.some.inj hv
          exact hwrite H hok ihstored (ihsaw i) key item hwrote hjust
        · exact hkeep H hok c key v (ihstored key v hv)
    · intro j key v hsaw
      rcases saw_snoc hsaw with hold | ⟨hread, -⟩
      · exact hkeep H hok c key v (ihsaw j key v hold)
      · exact hkeep H hok c key v (ihstored key v hread)

/-- An entity is stored, and read, under its own key. -/
theorem keyed (H : Composed.History settings requests uuids h w) :
    (∀ key v, entity key w = some v → v.key = key) ∧
      ∀ i key v, Saw (past i h) key v → v.key = key := by
  refine stored_invariant (fun _ _ key v => v.key = key) (fun _ _ _ _ _ hkey => hkey) ?_ H
  intro h w i op c _ _ _ hsaws key item _ hjust
  obtain ⟨request, earlier, current, -, hpast, hwrites⟩ := hjust
  rcases hwrites.new_or_update with ⟨-, hkey⟩ | ⟨key', u, hsaw, hupdate⟩
  · exact hkey.symm
  · exact (hupdate (hsaws key' u (hpast ▸ hsaw.append _))).2.1

/-- What was read under the key of an incident is an incident. -/
theorem incident_of_saw (H : Composed.History settings requests uuids h w) {i : Nat} {id : String}
    {v : Entity} (hsaw : Saw (past i h) ⟨.incident, id⟩ v) :
    ∃ incident, v = .incident incident := by
  have hkey := (keyed H).2 i _ v hsaw
  cases v with
  | incident incident => exact ⟨incident, rfl⟩
  | _ => cases hkey

/-- What was read is stored still, in some version. -/
theorem saw_stored (H : Composed.History settings requests uuids h w) {i : Nat} {key : Key}
    {v : Entity} (hsaw : Saw (past i h) key v) : ∃ u, entity key w = some u := by
  induction H with
  | nil => exact (not_saw_nil hsaw).elim
  | @snoc h w j op c H hok ih =>
    rcases saw_snoc hsaw with hold | ⟨-, hstored⟩
    · obtain ⟨u, hu⟩ := ih hold
      rcases exec_cases hok c w with hsame | ⟨key', item, -, -, htable⟩
      · exact ⟨u, (hsame key).trans hu⟩
      · rw [htable key]
        split
        · exact ⟨_, rfl⟩
        · exact ⟨u, hu⟩
    · exact ⟨v, hstored⟩

/-- What is stored was written. -/
theorem wrote_of_stored (H : Composed.History settings requests uuids h w) {key : Key} {v : Entity}
    (hv : entity key w = some v) :
    ∃ (n : Nat) (e : Event platform) (item : Item (Attributes Entity)), h[n]? = some e ∧
      e.Wrote key item ∧ item.attributes.data = v := by
  induction H with
  | nil => simp at hv
  | @snoc h w i op c H hok ih =>
    have earlier : entity key w = some v →
        ∃ (n : Nat) (e : Event platform) (item : Item (Attributes Entity)),
          (h ++ [platform.event i op c w])[n]? = some e ∧ e.Wrote key item ∧
            item.attributes.data = v := by
      intro hold
      obtain ⟨n, e, item, hn, hwrote, hdata⟩ := ih hold
      exact ⟨n, e, item, getElem?_append_of_some hn _, hwrote, hdata⟩
    rcases exec_cases hok c w with hsame | ⟨key', item, hwrote, -, htable⟩
    · exact earlier ((hsame key).symm.trans hv)
    · rw [htable key] at hv
      split at hv
      · rename_i hkey
        subst hkey
        exact ⟨h.length, _, item, by simp, hwrote, Option.some.inj hv⟩
      · exact earlier hv

/-! ## Fresh ids -/

/-- The id an event drew, if it drew one. -/
def drawn (e : Event platform) : Option String :=
  match e.move with
  | ⟨.inr .uuid4, .ok id⟩ => some id
  | _ => none

/-- Only a draw counts the issued ids up, and nothing changes the supply. -/
theorem exec_issued (op : platformOps.Op) (c : platform.Choice) (w : platform.World) :
    (platform.exec op c w).2.2.uuids = w.2.uuids ∧
      (op ≠ .inr .uuid4 → (platform.exec op c w).2.2.issued = w.2.issued) := by
  have reliable : (reliablePlatform.exec op c.1 w).2.2.uuids = w.2.uuids ∧
      (op ≠ .inr .uuid4 → (reliablePlatform.exec op c.1 w).2.2.issued = w.2.issued) := by
    match op with
    | .inl _ => exact ⟨rfl, fun _ => rfl⟩
    | .inr (.publish _) => exact ⟨rfl, fun _ => rfl⟩
    | .inr (.broadcast _ _) => exact ⟨rfl, fun _ => rfl⟩
    | .inr (.request _) => exact ⟨rfl, fun _ => rfl⟩
    | .inr .response => exact ⟨rfl, fun _ => rfl⟩
    | .inr (.evaluate _ _) => exact ⟨rfl, fun _ => rfl⟩
    | .inr (.generate _) => exact ⟨rfl, fun _ => rfl⟩
    | .inr .uuid4 => exact ⟨rfl, fun h => absurd rfl h⟩
  rcases reliablePlatform.faulty_exec raises op c w with h | ⟨e, -, -, h | h⟩
  · rw [h]
    exact reliable
  · rw [h]
    exact ⟨rfl, fun _ => rfl⟩
  · rw [h]
    exact reliable

/-- The ids drawn so far are the first ones of the supply. -/
theorem drawn_eq (H : Composed.History settings requests uuids h w) :
    w.2.uuids = uuids ∧ h.filterMap drawn = (List.range w.2.issued).map uuids.draw := by
  induction H with
  | nil => exact ⟨rfl, rfl⟩
  | @snoc h w i op c H hok ih =>
    obtain ⟨ihsupply, ihdrawn⟩ := ih
    obtain ⟨hsupply, hissued⟩ := exec_issued op c w
    refine ⟨hsupply.trans ihsupply, ?_⟩
    rw [List.filterMap_append, ihdrawn]
    by_cases hop : op = .inr .uuid4
    · subst hop
      rw [exec_infallible rfl]
      change _ = (List.range (w.2.issued + 1)).map uuids.draw
      have hdrawn : drawn (platform.event i (.inr .uuid4) c w) =
          some (w.2.uuids.draw w.2.issued) := by
        unfold drawn Machine.event
        rw [exec_infallible rfl]
      rw [List.range_succ, List.map_append, List.filterMap_cons_some hdrawn, ihsupply]
      rfl
    · have hnone : drawn (platform.event i op c w) = none := by
        unfold drawn
        split
        · rename_i hmove
          exact absurd (congrArg Move.op hmove) hop
        · rfl
      rw [hissued hop, List.filterMap_cons_none hnone, List.filterMap_nil, List.append_nil]

/-- No id is drawn twice. -/
theorem drawn_unique (H : Composed.History settings requests uuids h w) {i j : Nat} {id : String}
    (hi : Drew (past i h) id) (hj : Drew (past j h) id) : i = j := by
  have hnodup : (h.filterMap drawn).Nodup := by
    rw [(drawn_eq H).2]
    exact List.nodup_range.map uuids.injective
  obtain ⟨d, hd, rfl, hdm⟩ := mem_past.mp hi
  obtain ⟨e, he, rfl, hem⟩ := mem_past.mp hj
  have hdrawn : drawn d = some id ∧ drawn e = some id := by simp [drawn, hdm, hem]
  by_contra hne
  let R := fun x y : Event platform => ∀ b, drawn x = some b → ∀ b', drawn y = some b' → b ≠ b'
  have hsymm : Std.Symm R := ⟨fun x y hxy b hb b' hb' => (hxy b' hb' b hb).symm⟩
  have hpair : h.Pairwise R := List.pairwise_filterMap.mp hnodup
  exact hpair.forall hd he (fun heq => hne (heq ▸ rfl)) id hdrawn.1 id hdrawn.2 rfl

/-- A stored entity was written by the thread that drew its id. -/
theorem origin (H : Composed.History settings requests uuids h w) {key : Key} {v : Entity}
    (hv : entity key w = some v) : ∃ i, Drew (past i h) key.entityId ∧
      ∃ m ∈ past i h, ∃ item cond, m.op = .inl (.putItem key item cond) := by
  induction H generalizing v with
  | nil => simp at hv
  | @snoc h w i op c H hok ih =>
    have kept : ∀ {u}, entity key w = some u →
        ∃ j, Drew (past j (h ++ [platform.event i op c w])) key.entityId ∧
          ∃ m ∈ past j (h ++ [platform.event i op c w]), ∃ item cond,
            m.op = .inl (.putItem key item cond) := by
      intro u hu
      obtain ⟨j, hdrew, m, hm, hput⟩ := ih hu
      refine ⟨j, ?_⟩
      rw [past_append]
      exact ⟨List.mem_append_left _ hdrew, m, List.mem_append_left _ hm, hput⟩
    rcases exec_cases hok c w with hsame | ⟨key', item, ⟨cond, hop, -⟩, hjust, htable⟩
    · exact kept ((hsame key).symm.trans hv)
    · rw [htable key] at hv
      split at hv
      · rename_i hkey
        subst hkey
        obtain ⟨request, earlier, current, -, hpast, hwrites⟩ := hjust
        rcases hwrites.new_or_update with ⟨hnew, hkey⟩ | ⟨key', u, hsaw, hupdate⟩
        · refine ⟨i, ?_⟩
          rw [past_snoc_self]
          refine ⟨?_, _, List.mem_append_right _ (List.mem_singleton.mpr rfl), item, cond, hop⟩
          rw [hpast, hkey]
          exact List.mem_append_left _ (List.mem_append_left _ hnew.1)
        · have hsaw' : Saw (past i h) key' u := hpast ▸ hsaw.append _
          obtain ⟨x, hx⟩ := saw_stored H hsaw'
          rw [← (hupdate ((keyed H).2 i key' u hsaw')).1] at hx
          exact kept hx
      · exact kept hv

/-- **New entities are new.**  The key of an entity a request creates is not taken. -/
theorem fresh (H : Composed.History settings requests uuids h w) {i : Nat} {earlier : Moves}
    {current : Option (Item (Attributes Entity))} {v : Entity}
    (hpast : past i h = earlier ++ [⟨.inl (.getItem v.key), .ok current⟩])
    (hnew : Creates earlier v) : entity v.key w = none := by
  rw [Option.eq_none_iff_forall_not_mem]
  intro u hu
  obtain ⟨j, hdrew, m, hm, item, cond, hop⟩ := origin H hu
  have hij : i = j := drawn_unique H (hpast ▸ List.mem_append_left _ hnew.1) hdrew
  subst hij
  rw [hpast] at hm
  rcases List.mem_append.mp hm with hm | hm
  · exact hnew.2 _ item cond m hm hop rfl
  · obtain rfl := List.mem_singleton.mp hm
    cases hop

/-! ## What becomes of a stored entity -/

/-- A step turns what is stored into an evolution of it. -/
theorem evolves_step (H : Composed.History settings requests uuids h w) {i : Nat}
    {op : platformOps.Op} (hok : Permitted settings requests i (past i h) op) (c : platform.Choice)
    (hread : ∀ key u, Saw (past i h) key u → ∃ v, entity key w = some v ∧ u.Evolves v)
    {key : Key} {u : Entity} (hu : entity key w = some u) :
    ∃ v, entity key (platform.exec op c w).2 = some v ∧ u.Evolves v := by
  rcases exec_cases hok c w with hsame | ⟨key', item, -, hjust, htable⟩
  · exact ⟨u, (hsame key).trans hu, .refl u⟩
  · rw [htable key]
    split
    · rename_i hkey
      subst hkey
      refine ⟨_, rfl, ?_⟩
      obtain ⟨request, earlier, current, -, hpast, hwrites⟩ := hjust
      rcases hwrites.new_or_update with ⟨hnew, rfl⟩ | ⟨key', x, hsaw, hupdate⟩
      · rw [fresh H hpast hnew] at hu
        cases hu
      · have hsaw' : Saw (past i h) key' x := hpast ▸ hsaw.append _
        obtain ⟨rfl, -, hevolves⟩ := hupdate ((keyed H).2 i key' x hsaw')
        obtain ⟨y, hy, hxy⟩ := hread _ x hsaw'
        obtain rfl := Option.some.inj (hy.symm.trans hu)
        exact hevolves _ hxy
    · exact ⟨u, hu, .refl u⟩

/-- What was read has become an evolution of what it was. -/
theorem saw_evolves (H : Composed.History settings requests uuids h w) {i : Nat} {key : Key}
    {u : Entity} (hsaw : Saw (past i h) key u) : ∃ v, entity key w = some v ∧ u.Evolves v := by
  induction H generalizing i key u with
  | nil => exact (not_saw_nil hsaw).elim
  | @snoc h w j op c H hok ih =>
    rcases saw_snoc hsaw with hold | ⟨-, hstored⟩
    · obtain ⟨v, hv, huv⟩ := ih hold
      obtain ⟨x, hx, hvx⟩ := evolves_step H hok c (fun _ _ hs => ih hs) hv
      exact ⟨x, hx, huv.trans hvx⟩
    · exact ⟨u, hstored, .refl u⟩

/-- What was written has become an evolution of what it was. -/
theorem put_evolves (H : Composed.History settings requests uuids h w) {i : Nat} {key : Key}
    {u : Entity} (hput : Put (past i h) key u) : ∃ v, entity key w = some v ∧ u.Evolves v := by
  induction H generalizing i key u with
  | nil =>
    obtain ⟨item, cond, -, hmem⟩ := hput
    cases hmem
  | @snoc h w j op c H hok ih =>
    rcases put_snoc hput with hold | hstored
    · obtain ⟨v, hv, huv⟩ := ih hold
      obtain ⟨x, hx, hvx⟩ := evolves_step H hok c (fun _ _ hs => saw_evolves H hs) hv
      exact ⟨x, hx, huv.trans hvx⟩
    · exact ⟨u, hstored, .refl u⟩

/-- **Stored entities evolve.**  What is stored after an event is at the end of the
history what it has evolved to. -/
theorem evolves (H : Composed.History settings requests uuids h w) {e : Event platform}
    (he : e ∈ h) {key : Key} {u : Entity} (hu : entity key e.after = some u) :
    ∃ v, entity key w = some v ∧ u.Evolves v := by
  refine H.after_le (fun w w' => ∀ u, entity key w = some u → ∃ v, entity key w' = some v ∧
    u.Evolves v) (fun _ u hu => ⟨u, hu, .refl u⟩) ?_ ?_ he u hu
  · intro a b c hab hbc u hu
    obtain ⟨v, hv, huv⟩ := hab u hu
    obtain ⟨x, hx, hvx⟩ := hbc v hv
    exact ⟨x, hx, huv.trans hvx⟩
  · intro h w H i op c hok u hu
    exact evolves_step H hok c (fun _ _ hs => saw_evolves H hs) hu

end History

/-! ## Requests for computed runs -/

namespace Sample

/-- The routes of the incident service, for ids of letters and digits. -/
def statusRoute (url : String) : Option StatusRoute :=
  let base := "http://incident-service/api/v1/incidents/"
  let incidentId := String.ofList ((url.toList.drop base.length).takeWhile Char.isAlphanum)
  if incidentId ≠ "" ∧ url = base ++ incidentId ++ "/status" then some (.incident incidentId)
  else some (.unrouted 404 (by decide))

/-- Without the address of the incident service: incidents are resolved directly. -/
def directWith (rt : Runtime) : Settings := ⟨none, "memory", statusRoute, rt⟩

/-- So, where answers are not read. -/
def direct : Settings := directWith default

/-- With the address of the incident service, whose status endpoint is called. -/
def remote : Settings := ⟨some "http://incident-service", "memory", statusRoute, default⟩

def manager : Principal := ⟨"1", "manager", [.operatorManager]⟩

def worker : Principal := ⟨"2", "worker", [.fieldWorker]⟩

def incident : VirtualIncidentRequest :=
  ⟨"pump-1", "temperature", ⟨120, by decide +kernel⟩, ⟨100, by decide +kernel⟩, "E-1",
    ⟨"", by decide⟩⟩

/-- A critical sample. -/
def telemetry : TelemetryRequest :=
  ⟨"pump-1", "temperature", ⟨120, by decide +kernel⟩, "C", ⟨100, by decide +kernel⟩,
    ⟨"", by decide⟩⟩

/-- A sample between the threshold and 120 percent of it. -/
def warning : TelemetryRequest := { telemetry with measuredValue := ⟨110, by decide +kernel⟩ }

/-- A decision on the plan of the analysis and incident with the given ids. -/
def decision (analysisId incidentId : String) (decision : ApprovalDecision) : ApprovalRequest :=
  ⟨analysisId, incidentId, decision, "1", ⟨"checked", by decide⟩, ["inspect"]⟩

def completion : WorkOrderCompletion :=
  ⟨["inspect"], ["photo"], ⟨"replaced", by decide⟩, ⟨"wear", by decide⟩, true, by decide⟩

/-- `n` operations of thread `i`, none of which fails. -/
def advances (i n : Nat) : List (Action platform Request) :=
  List.replicate n (.advance i default)

/-- The run of the scheduler from empty tables. -/
def run (settings : Settings) (acts : List (Action platform Request)) : Composed :=
  System.run (Request.code settings) acts (System.start (initialWorld .unary))

theorem reachable_run (settings : Settings) (acts : List (Action platform Request)) :
    Composed.Reachable settings .unary (run settings acts) := ⟨acts, rfl⟩

end Sample
end AxSentinel
