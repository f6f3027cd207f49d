import AxSentinel.Platform

/-! # Requests that create

Simulated incidents, telemetry, decisions and analyses write new entities only: one of each
type at most, under an id the request drew itself.  So what such a request wrote tells which
request it was. -/
namespace AxSentinel
open Effects

/-- The request updates nothing that exists. -/
def Request.createsOnly : Request → Prop
  | simulateIncident .. | ingestTelemetry .. | decideActionPlan .. | analyzeIncident .. => True
  | _ => False

section History
variable {settings : Settings} {requests : Nat → Option Request} {uuids : UuidSupply}
  {h : List (Event platform)} {w : platform.World}

/-- What such a request writes is new. -/
theorem creates_of_createsOnly (H : Composed.History settings requests uuids h w) {n : Nat}
    {e : Event platform} (hn : h[n]? = some e) {request : Request}
    (hrequest : requests e.thread = some request) (hcreates : request.createsOnly) {key : Key}
    {item : Item (Attributes Entity)} {cond : Condition}
    (hop : e.move.op = .inl (.putItem key item cond)) :
    ∃ earlier current, past e.thread (h.take n) =
        earlier ++ [⟨.inl (.getItem key), .ok current⟩] ∧
      Creates earlier item.attributes.data ∧ key = item.attributes.data.key ∧
      request.Writes settings earlier key item.attributes.data := by
  obtain ⟨-, ⟨request', hrequest', hallowed⟩, -⟩ := H.at_position hn
  obtain rfl := Option.some.inj (hrequest.symm.trans hrequest')
  obtain ⟨earlier, current, hpast, -, -, hwrites⟩ := hallowed key item cond hop
  refine ⟨earlier, current, hpast, ?_⟩
  generalize item.attributes.data = v at hwrites
  have hwrites' := hwrites
  cases hwrites with
  | simulated hnew => exact ⟨hnew, rfl, hwrites'⟩
  | received hnew => exact ⟨hnew, rfl, hwrites'⟩
  | automatic hnew => exact ⟨hnew, rfl, hwrites'⟩
  | decided hnew => exact ⟨hnew, rfl, hwrites'⟩
  | opened hnew => exact ⟨hnew, rfl, hwrites'⟩
  | analyzed hnew => exact ⟨hnew, rfl, hwrites'⟩
  | reviewOpened hnew => exact ⟨hnew, rfl, hwrites'⟩
  | _ => exact hcreates.elim

/-- It writes one entity of each type. -/
theorem writes_once (H : Composed.History settings requests uuids h w) {m n : Nat}
    {d e : Event platform} (hm : h[m]? = some d) (hn : h[n]? = some e)
    (hthread : d.thread = e.thread)
    {request : Request} (hrequest : requests e.thread = some request)
    (hcreates : request.createsOnly) {key key' : Key} {item item' : Item (Attributes Entity)}
    {cond cond' : Condition} (hop : d.move.op = .inl (.putItem key item cond))
    (hop' : e.move.op = .inl (.putItem key' item' cond'))
    (htype : key.entityType = key'.entityType) : ¬ m < n := by
  intro hmn
  obtain ⟨earlier, current, hpast, hnew, rfl, -⟩ :=
    creates_of_createsOnly H hn hrequest hcreates hop'
  have hmem : d.move ∈ past e.thread (h.take n) := by
    refine mem_past.mpr ⟨d, List.mem_of_getElem? (i := m) ?_, hthread, rfl⟩
    rw [List.getElem?_take, if_pos hmn, hm]
  rw [hpast] at hmem
  rcases List.mem_append.mp hmem with hmem | hmem
  · exact hnew.2 key item cond d.move hmem hop htype
  · rw [List.mem_singleton.mp hmem] at hop
    cases hop

/-- So its writes of one type are one write. -/
theorem written_unique (H : Composed.History settings requests uuids h w) {i : Nat}
    {request : Request} (hrequest : requests i = some request) (hcreates : request.createsOnly)
    {m m' : Move platformOps} (hm : m ∈ past i h) (hm' : m' ∈ past i h) {key key' : Key}
    {item item' : Item (Attributes Entity)} {cond cond' : Condition}
    (hop : m.op = .inl (.putItem key item cond)) (hop' : m'.op = .inl (.putItem key' item' cond'))
    (htype : key.entityType = key'.entityType) : key = key' ∧ item = item' := by
  obtain ⟨d, hd, rfl, rfl⟩ := mem_past.mp hm
  obtain ⟨e, he, hthread, rfl⟩ := mem_past.mp hm'
  obtain ⟨j, hj⟩ := List.mem_iff_getElem?.mp hd
  obtain ⟨k, hk⟩ := List.mem_iff_getElem?.mp he
  rcases Nat.lt_trichotomy j k with hlt | rfl | hgt
  · exact absurd hlt (writes_once H hj hk hthread.symm (hthread ▸ hrequest) hcreates hop hop' htype)
  · obtain rfl := Option.some.inj (hj.symm.trans hk)
    obtain ⟨rfl, rfl, -⟩ := TableOp.putItem.inj (Sum.inl.inj (hop.symm.trans hop'))
    exact ⟨rfl, rfl⟩
  · exact absurd hgt (writes_once H hk hj hthread hrequest hcreates hop' hop htype.symm)

/-- The id of what it wrote was drawn by the same thread. -/
theorem drew_of_put (H : Composed.History settings requests uuids h w) {i : Nat} {request : Request}
    (hrequest : requests i = some request) (hcreates : request.createsOnly) {key : Key} {v : Entity}
    (hput : Put (past i h) key v) : Drew (past i h) key.entityId := by
  obtain ⟨item, cond, rfl, hmem⟩ := hput
  obtain ⟨d, hd, rfl, hmove⟩ := mem_past.mp hmem
  obtain ⟨j, hj⟩ := List.mem_iff_getElem?.mp hd
  have hop : d.move.op = .inl (.putItem key item cond) := by rw [hmove]
  obtain ⟨earlier, current, hpast, hnew, rfl, -⟩ :=
    creates_of_createsOnly H hj hrequest hcreates hop
  have hdrew : Drew (past d.thread (h.take j)) item.attributes.data.key.entityId :=
    hpast ▸ List.mem_append_left _ hnew.1
  rw [← List.take_append_drop j h, past_append]
  exact List.mem_append_left _ hdrew

/-- A `put` that returned took effect. -/
theorem wrote_of_put (H : Composed.History settings requests uuids h w) {i : Nat} {key : Key}
    {v : Entity} (hput : Put (past i h) key v) :
    ∃ e ∈ h, e.thread = i ∧ ∃ item : Item (Attributes Entity), item.attributes.data = v ∧
      e.Wrote key item := by
  obtain ⟨item, cond, rfl, hmem⟩ := hput
  obtain ⟨e, he, hthread, hmove⟩ := mem_past.mp hmem
  have haccepted : accepted e = some (key, item.attributes.data) := by
    rw [accepted, hmove]
  exact ⟨e, he, hthread, wrote_of_accepted H he haccepted⟩

/-- The entity is what was stored first under the key. -/
def CreatedAs (h : List (Event platform)) (key : Key) (v : Entity) : Prop :=
  ∃ e ∈ h, entity key e.before = none ∧
    ∃ item : Item (Attributes Entity), item.attributes.data = v ∧ e.Wrote key item

theorem CreatedAs.snoc {key : Key} {v : Entity} (hc : CreatedAs h key v) (e : Event platform) :
    CreatedAs (h ++ [e]) key v := by
  obtain ⟨d, hd, hrest⟩ := hc
  exact ⟨d, List.mem_append_left _ hd, hrest⟩

/-- What is stored was created. -/
theorem exists_createdAs (H : Composed.History settings requests uuids h w) {key : Key} {v : Entity}
    (hv : entity key w = some v) : ∃ u, CreatedAs h key u := by
  induction H generalizing v with
  | nil => simp at hv
  | @snoc h w i op c H hok ih =>
    cases hold : entity key w with
    | some u =>
      obtain ⟨u, hu⟩ := ih hold
      exact ⟨u, hu.snoc _⟩
    | none =>
      rcases exec_cases hok c w with hsame | ⟨key', item, hwrote, -, htable⟩
      · rw [hsame key, hold] at hv
        cases hv
      · by_cases hkey : key = key'
        · subst hkey
          exact ⟨_, _, List.mem_append_right _ (List.mem_singleton.mpr rfl),
            hold, item, rfl, hwrote⟩
        · rw [htable key, if_neg hkey, hold] at hv
          cases hv

/-- Nothing is created twice. -/
theorem CreatedAs.unique (H : Composed.History settings requests uuids h w) {key : Key}
    {u v : Entity} (hu : CreatedAs h key u) (hv : CreatedAs h key v) : u = v := by
  obtain ⟨d, hd, hdnone, item, rfl, hdwrote⟩ := hu
  obtain ⟨e, he, henone, item', rfl, hewrote⟩ := hv
  have taken : ∀ {m n : Nat} {x y : Event platform} {item : Item (Attributes Entity)}, m < n →
      h[m]? = some x → h[n]? = some y → x.Wrote key item → entity key y.before ≠ none := by
    intro m n x y item hmn hm hn hwrote hnone
    have hsome : (stored platform key y.before).isSome = true :=
      H.isSome_between hmn hm hn (by rw [hwrote.stored_after]; rfl)
    rw [Option.map_eq_none_iff.mp hnone] at hsome
    cases hsome
  obtain ⟨m, hm⟩ := List.mem_iff_getElem?.mp hd
  obtain ⟨n, hn⟩ := List.mem_iff_getElem?.mp he
  rcases Nat.lt_trichotomy m n with hlt | rfl | hgt
  · exact absurd henone (taken hlt hm hn hdwrote)
  · obtain rfl := Option.some.inj (hm.symm.trans hn)
    have hsame := hdwrote.stored_after.symm.trans hewrote.stored_after
    rw [Option.some.inj hsame]
  · exact absurd hdnone (taken hgt hn hm hewrote)

/-- What is stored has evolved from what it was created as. -/
theorem CreatedAs.evolves (H : Composed.History settings requests uuids h w) {key : Key}
    {u v : Entity} (hc : CreatedAs h key u) (hv : entity key w = some v) : u.Evolves v := by
  obtain ⟨e, he, -, item, rfl, cond, -, -, hafter⟩ := hc
  have hstored : entity key e.after = some item.attributes.data := by
    rw [entity_insert (w := e.before) hafter key, if_pos rfl]
  obtain ⟨x, hx, hux⟩ := AxSentinel.evolves H he hstored
  obtain rfl := Option.some.inj (hx.symm.trans hv)
  exact hux

end History
end AxSentinel
