import AxSentinel.AssetService
import AxSentinel.StoredValues

/-! # The records of the press

Requests to the asset service, interleaved in any way, with any call of the store failing before or
after it takes effect.  There is no other equipment than the press, and every maintenance record is
one of the press, as it was created (`assets_sound`).  Whatever the pages of a listing had of what
was stored, it is answered with such records, or one of their times has an offset and another has
none (`maintenance_listed`); that it misses none is not said, as by pages it may (`Listing`). -/
namespace AxSentinel
open Effects
open DynamoRepository (WasStored value_of_stored isSome_value wrote_of_value lists_of_query
  wasStored_of_consistentQuery)

/-- What is stored under a key. -/
abbrev assetEntity (key : Key) (w : assets.World) : Option AssetEntity :=
  DynamoRepository.value assets key w

/-- Requests under way. -/
abbrev Assets := System assets AssetRequest AssetAnswer

abbrev Assets.Reachable (uuids : UuidSupply) (s : Assets) : Prop :=
  System.Reachable AssetRequest.code (noAssets uuids) s

/-- The histories of the requests. -/
abbrev AssetHistory (uuids : UuidSupply) (requests : Nat → Option AssetRequest)
    (h : List (Event assets)) (w : assets.World) : Prop :=
  assets.History (fun i past op => ∃ request, requests i = some request ∧
    request.Follows uuids past op) (noAssets uuids) h w

theorem Assets.Reachable.conforms {uuids : UuidSupply} {s : Assets}
    (hs : Assets.Reachable uuids s) :
    System.Conforms (AssetRequest.Follows uuids) AssetRequest.Finishes (noAssets uuids) s :=
  System.Reachable.conforms hs (AssetRequest.follows uuids)

/-! ## What is stored -/

section History
variable {uuids : UuidSupply} {requests : Nat → Option AssetRequest} {h : List (Event assets)}
  {w : assets.World}

/-- A write that took effect is one its request may make. -/
theorem writes_of_record (H : AssetHistory uuids requests h w) {n : Nat} {e : Event assets}
    {key : Key} {item : Item (Attributes AssetEntity)} (hn : h[n]? = some e)
    (hw : e.Wrote key item) :
    ∃ request earlier current, requests e.thread = some request ∧
      past e.thread (h.take n) = earlier ++ [⟨.inl (.getItem key), .ok current⟩] ∧
      request.Writes uuids earlier key item.attributes.data :=
  DynamoRepository.writes_of_wrote (W := AssetRequest.Writes uuids) H (fun _ _ _ h => h) hn hw

/-- There is no other equipment than the press. -/
theorem equipment_of_stored (H : AssetHistory uuids requests h w) {id : String} {v : AssetEntity}
    (hv : assetEntity ⟨.equipment, id⟩ w = some v) :
    id = pressId ∧ ∃ lastSeenAt, v = .equipment (.seed lastSeenAt) := by
  obtain ⟨n, e, item, hn, hw, rfl⟩ := wrote_of_value H rfl hv
  obtain ⟨request, earlier, current, -, -, hwrites⟩ := writes_of_record H hn hw
  generalize hkey : (⟨.equipment, id⟩ : Key) = key, item.attributes.data = v at hwrites
  cases hwrites with
  | seeded => exact ⟨congrArg Key.entityId hkey, _, rfl⟩
  | recorded => cases hkey

theorem press_of_isSome (H : AssetHistory uuids requests h w) {id : String}
    (hsome : (stored assets ⟨.equipment, id⟩ w).isSome = true) : id = pressId := by
  obtain ⟨item, hitem⟩ := Option.isSome_iff_exists.mp hsome
  exact (equipment_of_stored H (value_of_stored hitem)).1

/-- A maintenance record is of the press, and as a request created it. -/
theorem record_of_stored (H : AssetHistory uuids requests h w) {id : String} {v : AssetEntity}
    (hv : assetEntity ⟨.maintenance, id⟩ w = some v) :
    ∃ i request principal, requests i = some (.createMaintenanceRecord pressId request principal) ∧
      mayRecord principal = true ∧ v = .maintenance ⟨request, id, pressId⟩ ∧
      (stored assets pressKey w).isSome = true := by
  obtain ⟨n, e, item, hn, hw, rfl⟩ := wrote_of_value H rfl hv
  obtain ⟨request, earlier, current, hrequest, hpast, hwrites⟩ := writes_of_record H hn hw
  generalize hkey : (⟨.maintenance, id⟩ : Key) = key, item.attributes.data = v at hwrites
  cases hwrites with
  | seeded => cases hkey
  | @recorded _ equipmentId request principal id' hfresh hknows hmay =>
    obtain rfl : id = id' := congrArg Key.entityId hkey
    have hpress := H.isSome_of_knows (hknows.mono fun m hm =>
      mem_past_of_take (n := n) (hpast ▸ List.mem_append_left _ hm))
    obtain rfl := press_of_isSome H hpress
    exact ⟨e.thread, request, principal, hrequest, hmay, rfl, hpress⟩

/-- A record is written under a fresh id. -/
theorem fresh_of_wrote (H : AssetHistory uuids requests h w) {id : String} {n : Nat}
    {e : Event assets} {item : Item (Attributes AssetEntity)} (hn : h[n]? = some e)
    (hw : e.Wrote ⟨.maintenance, id⟩ item) :
    Fresh (assetDrawing uuids) (past e.thread (h.take n)) ⟨.maintenance, id⟩ id := by
  obtain ⟨request, earlier, current, -, hpast, hwrites⟩ := writes_of_record H hn hw
  generalize hkey : (⟨.maintenance, id⟩ : Key) = key, item.attributes.data = v at hwrites hpast
  rw [hpast]
  cases hwrites with
  | seeded => cases hkey
  | @recorded _ _ _ _ id' hfresh =>
    obtain rfl : id = id' := congrArg Key.entityId hkey
    exact hfresh.snoc (DynamoRepository.noPut_get _ _)

/-- A record stays as it was written. -/
theorem record_kept (H : AssetHistory uuids requests h w) {id : String} {n : Nat} {e : Event assets}
    {item : Item (Attributes AssetEntity)} (hn : h[n]? = some e)
    (hw : e.Wrote ⟨.maintenance, id⟩ item) : stored assets ⟨.maintenance, id⟩ w = some item :=
  (assetDrawing uuids).stored_of_fresh H rfl (fun _ _ _ => fresh_of_wrote H) hn hw

/-- A record that was stored is stored still. -/
theorem record_kept_since (H : AssetHistory uuids requests h w) {id : String} {v : AssetEntity}
    (hv : WasStored h ⟨.maintenance, id⟩ v) : assetEntity ⟨.maintenance, id⟩ w = some v :=
  hv.kept fun _ _ _ => record_kept H

/-- No operation raises an HTTP exception. -/
theorem not_httpRaised (H : AssetHistory uuids requests h w) (i : Nat) :
    ¬ HttpRaised (past i h) := by
  rintro ⟨op, e, hm, hhttp⟩
  obtain ⟨n, x, c, -, -, hexec⟩ := H.exec_of_mem_past hm
  have hreliable : ∀ c e, (reliableAssets.exec op c x.before).1 = .error e → e.isHttp = false := by
    intro c e he
    match op with
    | .inl (.getItem _) => cases he
    | .inl (.query _) => cases he
    | .inl .now => cases he
    | .inr .uuid4 => cases he
    | .inl (.putItem key item cond) =>
      by_cases hcond : cond.Holds (x.before.1.lookup key)
      · simp [hcond] at he
      · simp only [if_neg hcond] at he
        cases he
        rfl
  rcases reliableAssets.faulty_exec assetRaises op c x.before with hsame | ⟨e', hraises, he', -⟩
  · rw [hreliable c.1 e (hsame ▸ hexec)] at hhttp
    cases hhttp
  · obtain rfl := Except.error.inj (he'.symm.trans hexec)
    match op with
    | .inl (.getItem _) => simp [assetRaises, hhttp] at hraises
    | .inl (.query _) => simp [assetRaises, hhttp] at hraises
    | .inl (.putItem ..) => simp [assetRaises, hhttp] at hraises
    | .inl .now => cases hraises
    | .inr .uuid4 => cases hraises

/-- Who has seen some equipment has seen the press. -/
theorem press_of_sees (H : AssetHistory uuids requests h w) {i : Nat} {values : List Equipment}
    (hsees : SeesPress (past i h) values) :
    (stored assets pressKey w).isSome = true ∧ ∃ lastSeenAt, values = [.seed lastSeenAt] := by
  cases hsees with
  | seeded hknows hvalues => exact ⟨H.isSome_of_knows hknows, _, hvalues⟩
  | @listed items hne hquery hvalues =>
    obtain ⟨n, e, ids, hn, -, hsame, hlists⟩ := lists_of_query H hquery hvalues
    have hpress : ∀ id v, assetEntity ⟨.equipment, id⟩ e.before = some v →
        id = pressId ∧ ∃ lastSeenAt, v = .equipment (.seed lastSeenAt) :=
      fun id v hv => equipment_of_stored (H.at_position hn).1 hv
    cases hlists.listed with
    | nil =>
      have hlength := (forall₂_of_mapM hvalues).length_eq
      exact absurd (List.map_eq_nil_iff.mp (List.length_eq_zero_iff.mp hlength)) hne
    | @cons id value ids values hvalue hrest =>
      obtain ⟨v, hv, hread⟩ := hvalue
      obtain ⟨rfl, lastSeenAt, rfl⟩ := hpress id v hv
      -- another id would be that of the press, too
      obtain rfl : ids = [] := by
        refine List.eq_nil_iff_forall_not_mem.mpr fun id hid => ?_
        obtain ⟨k, hk, rfl⟩ := List.getElem_of_mem hid
        obtain ⟨v, hv, -⟩ := hrest.get hk (hrest.length_eq ▸ hk)
        exact (List.nodup_cons.mp hlists.nodup).1 ((hpress _ v hv).1 ▸ hid)
      cases hrest
      have hsome : (stored assets pressKey e.after).isSome = true := by
        rw [stored, hsame, ← stored, ← isSome_value]
        exact congrArg Option.isSome hv
      exact ⟨H.isSome_kept hn hsome, lastSeenAt, congrArg (fun v => [v]) (Except.ok.inj hread).symm⟩

/-- The press is found. -/
theorem not_notFound (H : AssetHistory uuids requests h w) {i : Nat} :
    ¬ NotFound (past i h) pressId := by
  rintro ⟨earlier, hpast, hsees⟩
  obtain ⟨values, hsees⟩ := hsees rfl
  obtain ⟨k, e, c, hk, -, hexec, rfl⟩ := H.exec_of_past_last hpast
  obtain ⟨hsome, -⟩ := press_of_sees (H.at_position hk).1 hsees
  have hread := (TableMachine.exec_get pressKey c e.before).2 none hexec
  rw [show stored assets pressKey e.before = none from hread.symm] at hsome
  cases hsome

/-! ### What is listed -/

/-- The records of an equipment are among the values. -/
theorem mem_of_recordsOf {equipmentId : String} {values : List AssetEntity}
    {records : List MaintenanceRecord} (hrecords : recordsOf equipmentId values = .ok records)
    {r : MaintenanceRecord} (hr : r ∈ records) :
    .maintenance r ∈ values ∧ r.equipmentId = equipmentId := by
  obtain ⟨value, hvalue, hread⟩ := exists_of_mapM hrecords hr
  obtain ⟨hmem, hequipment⟩ := List.mem_filter.mp hvalue
  cases value with
  | equipment equipment => cases hread
  | maintenance record =>
    obtain rfl := Except.ok.inj hread
    exact ⟨hmem, Option.some.inj (of_decide_eq_true hequipment)⟩

/-- The values were stored, as maintenance records, at some moment. -/
def WereStored (h : List (Event assets)) (values : List AssetEntity) : Prop :=
  ∀ v ∈ values, ∃ id, WasStored h ⟨.maintenance, id⟩ v

/-- A record of values that were stored is of the equipment, and stored. -/
theorem stored_of_recordsOf (H : AssetHistory uuids requests h w) {equipmentId : String}
    {values : List AssetEntity} {listed : List MaintenanceRecord} (hvalues : WereStored h values)
    (hrecords : recordsOf equipmentId values = .ok listed) {r : MaintenanceRecord}
    (hr : r ∈ listed) :
    r.equipmentId = equipmentId ∧ assetEntity ⟨.maintenance, r.id⟩ w = some (.maintenance r) := by
  obtain ⟨hmem, hequipment⟩ := mem_of_recordsOf hrecords hr
  obtain ⟨id, hv⟩ := hvalues _ hmem
  have hstored := record_kept_since H hv
  -- the id of a record is the id it is stored under
  obtain ⟨-, request, -, -, -, hrecord, -⟩ := record_of_stored H hstored
  obtain rfl := AssetEntity.maintenance.inj hrecord
  exact ⟨hequipment, hstored⟩

end History

/-! ## What the service keeps and answers -/

/-- The table has the press at most, and records of it as requests created them; what was created
is stored; and the press is what is listed and found, and never missed. -/
structure AssetsSound (s : Assets) : Prop where
  equipment : ∀ id v, assetEntity ⟨.equipment, id⟩ s.world = some v →
    id = pressId ∧ ∃ lastSeenAt, v = .equipment (.seed lastSeenAt)
  record : ∀ id v, assetEntity ⟨.maintenance, id⟩ s.world = some v → ∃ i request principal,
    s.request i = some (.createMaintenanceRecord pressId request principal) ∧
      mayRecord principal = true ∧ v = .maintenance ⟨request, id, pressId⟩ ∧
      (assetEntity pressKey s.world).isSome = true
  created : ∀ i record, s.outcome i = some (.ok (.created record)) →
    assetEntity ⟨.maintenance, record.id⟩ s.world = some (.maintenance record)
  listed : ∀ i values, s.outcome i = some (.ok (.equipmentList values)) →
    ∃ lastSeenAt, values = [.seed lastSeenAt]
  found : ∀ i id value, s.request i = some (.getEquipment id) →
    s.outcome i = some (.ok (.equipment value)) →
      id = pressId ∧ ∃ lastSeenAt, value = .seed lastSeenAt
  notFound : ∀ i, s.outcome i = some (.error equipmentNotFound) →
    s.request i ≠ some (.getEquipment pressId) ∧
      ∀ request principal, s.request i ≠ some (.createMaintenanceRecord pressId request principal)

/-- **The asset service keeps one press and its records.** -/
theorem assets_sound {uuids : UuidSupply} {s : Assets} (hs : Assets.Reachable uuids s) :
    AssetsSound s where
  equipment _ _ hv := equipment_of_stored hs.conforms.history hv
  record id v hv := by
    obtain ⟨i, request, principal, hrequest, hmay, hvalue, hpress⟩ :=
      record_of_stored hs.conforms.history hv
    exact ⟨i, request, principal, hrequest, hmay, hvalue, by rwa [isSome_value]⟩
  created i record hout := by
    obtain ⟨request, hrequest⟩ := System.request_of_outcome hout
    have hfinishes := hs.conforms.outcome hrequest hout
    cases request with
    | createMaintenanceRecord equipmentId request principal =>
      obtain ⟨⟨item, cond, hdata, hput⟩, -⟩ := hfinishes
      obtain ⟨n, e, hn, -, hw⟩ := hs.conforms.history.wrote_of_replied hput
      exact hdata ▸ value_of_stored (record_kept hs.conforms.history hn hw)
    | _ => cases hfinishes
  listed i values hout := by
    obtain ⟨request, hrequest⟩ := System.request_of_outcome hout
    have hfinishes := hs.conforms.outcome hrequest hout
    cases request with
    | listEquipment => exact (press_of_sees hs.conforms.history hfinishes).2
    | _ => cases hfinishes
  found i id value hrequest hout := by
    obtain ⟨item, hdata, hread⟩ := hs.conforms.outcome hrequest hout
    obtain ⟨n, e, hn, -, hbefore, -⟩ := hs.conforms.history.stored_of_read hread
    obtain ⟨hid, lastSeenAt, hseed⟩ := equipment_of_stored (hs.conforms.history.at_position hn).1
      (hdata ▸ value_of_stored hbefore)
    exact ⟨hid, lastSeenAt, AssetEntity.equipment.inj hseed⟩
  notFound i hout := by
    have hnever : ¬ (NotFound (past i s.history) pressId ∨ HttpRaised (past i s.history)) := by
      rintro (hnotFound | hraised)
      · exact not_notFound hs.conforms.history hnotFound
      · exact not_httpRaised hs.conforms.history i hraised
    refine ⟨fun hrequest => hnever ?_, fun request principal hrequest => hnever ?_⟩
    · exact hs.conforms.outcome hrequest hout rfl
    · exact hs.conforms.outcome hrequest hout rfl

namespace Sample

/-- A maintenance of the press, done at the time. -/
def oiled (performedAt : PerformedAt) : MaintenanceRecordRequest where
  performedAt := performedAt
  action := ⟨"oil", by decide⟩
  actualCause := none
  technician := ⟨"Kim", by decide⟩
  partsReplaced := []
  outcome := ⟨"ok", by decide⟩

/-- The actions by which a request runs alone. -/
def servedAssets (i : Nat) (request : AssetRequest) (steps : Nat) :
    List (Action assets AssetRequest) :=
  .arrive request :: List.replicate steps (.advance i default)

/-- A maintenance is recorded at a local time, and listed; then another at a time with an offset,
and the records are asked for again. -/
def maintained : Assets :=
  System.run AssetRequest.code
    (servedAssets 0 (.createMaintenanceRecord pressId (oiled (.naive 5)) localPrincipal) 11 ++
      servedAssets 1 (.listMaintenanceRecords pressId) 1 ++
      servedAssets 2 (.createMaintenanceRecord pressId (oiled (.aware 7 0)) localPrincipal) 5 ++
      servedAssets 3 (.listMaintenanceRecords pressId) 1)
    (System.start (noAssets .unary))

theorem reachable_maintained : Assets.Reachable .unary maintained := ⟨_, rfl⟩

end Sample

/-- The press was seeded by the first of its records. -/
theorem assets_sound_maintained :
    Sample.maintained.outcome 0 =
        some (.ok (.created ⟨Sample.oiled (.naive 5), "", pressId⟩)) ∧
      AssetsSound Sample.maintained :=
  ⟨by rfl, assets_sound Sample.reachable_maintained⟩

/-- Of two records of the equipment one time has an offset and the other has none. -/
def Mixed (equipmentId : String) (w : assets.World) : Prop :=
  ∃ a b : MaintenanceRecord, assetEntity ⟨.maintenance, a.id⟩ w = some (.maintenance a) ∧
    assetEntity ⟨.maintenance, b.id⟩ w = some (.maintenance b) ∧ a.equipmentId = equipmentId ∧
    b.equipmentId = equipmentId ∧ a.performedAt.isAware ≠ b.performedAt.isAware

/-- An answer with records of the equipment: the latest first, and each as a permitted request
created it and as it is stored. -/
structure MaintenanceListed (s : Assets) (equipmentId : String) (records : List MaintenanceRecord) :
    Prop where
  ordered : records.Pairwise fun a b => b.performedAt.instant ≤ a.performedAt.instant
  comparable : Comparable records
  created : ∀ r ∈ records, ∃ i request principal,
    s.request i = some (.createMaintenanceRecord equipmentId request principal) ∧
      mayRecord principal = true ∧ r = ⟨request, r.id, equipmentId⟩
  stored : ∀ r ∈ records, assetEntity ⟨.maintenance, r.id⟩ s.world = some (.maintenance r)

/-- Whatever a listing has of the values that were stored, in any order and any number, the answer
has stored records, or times of both kinds are stored; and every listing is answered so, unless the
store raised. -/
structure ListingsSound (s : Assets) : Prop where
  listed : ∀ equipmentId values records, WereStored s.history values →
    listedRecords equipmentId values = .ok records → MaintenanceListed s equipmentId records
  raised : ∀ equipmentId values e, WereStored s.history values →
    listedRecords equipmentId values = .error e → Mixed equipmentId s.world
  answered : ∀ i equipmentId out, s.request i = some (.listMaintenanceRecords equipmentId) →
    s.outcome i = some out →
    (∃ e, out = .error e ∧
      (⟨.inl (.query .maintenance), .error e⟩ : Move assetOps) ∈ past i s.history) ∨
    ∃ values, WereStored s.history values ∧
      out = (listedRecords equipmentId values).map .records

/-- **Listings of maintenance records.** -/
theorem maintenance_listed {uuids : UuidSupply} {s : Assets} (hs : Assets.Reachable uuids s) :
    ListingsSound s where
  listed equipmentId values records hvalues hrecords := by
    obtain ⟨listed, hlisted⟩ := exists_recordsOf equipmentId values
    rw [listedRecords, hlisted, ok_bind, sortedByPerformedAt] at hrecords
    split at hrecords
    · rename_i hcomparable
      obtain rfl := Except.ok.inj hrecords
      have hperm := Ranking.perm_sortDesc (fun r => r.performedAt.instant) listed
      have hstored : ∀ r ∈ Ranking.sortDesc (fun r => r.performedAt.instant) listed, _ :=
        fun r hr => stored_of_recordsOf hs.conforms.history hvalues hlisted (hperm.mem_iff.mp hr)
      refine ⟨Ranking.sorted_sortDesc _ _, ?_, fun r hr => ?_, fun r hr => (hstored r hr).2⟩
      · exact fun a ha b hb => hcomparable a (hperm.mem_iff.mp ha) b (hperm.mem_iff.mp hb)
      · obtain ⟨hequipment, hvalue⟩ := hstored r hr
        obtain ⟨j, request, principal, hcreated, hmay, hrecord, -⟩ :=
          record_of_stored hs.conforms.history hvalue
        have hr : r = ⟨request, r.id, pressId⟩ := AssetEntity.maintenance.inj hrecord
        obtain rfl : pressId = equipmentId := by rw [← hequipment, hr]
        exact ⟨j, request, principal, hcreated, hmay, hr⟩
    · cases hrecords
  raised equipmentId values e hvalues hraised := by
    obtain ⟨listed, hlisted⟩ := exists_recordsOf equipmentId values
    rw [listedRecords, hlisted, ok_bind, sortedByPerformedAt] at hraised
    split at hraised
    · cases hraised
    · rename_i hmixed
      simp only [Comparable, not_forall] at hmixed
      obtain ⟨a, ha, b, hb, hne⟩ := hmixed
      obtain ⟨haequipment, hastored⟩ :=
        stored_of_recordsOf hs.conforms.history hvalues hlisted ha
      obtain ⟨hbequipment, hbstored⟩ :=
        stored_of_recordsOf hs.conforms.history hvalues hlisted hb
      exact ⟨a, b, hastored, hbstored, haequipment, hbequipment, hne⟩
  answered i equipmentId out hrequest hout := by
    have queried : ∀ {values}, MaintenanceQueried (past i s.history) values →
        WereStored s.history values := by
      rintro values ⟨items, rfl, hquery⟩ v hv
      exact wasStored_of_consistentQuery hs.conforms.history (fun _ => rfl) hquery hv
    have hfinishes := hs.conforms.outcome hrequest hout
    cases out with
    | ok answer =>
      cases answer with
      | records records =>
        obtain ⟨values, hquery, hlisted⟩ := hfinishes
        exact .inr ⟨values, queried hquery, by rw [hlisted]; rfl⟩
      | _ => cases hfinishes
    | error e =>
      rcases hfinishes with hraised | ⟨values, hquery, hlisted⟩
      · exact .inl ⟨e, rfl, hraised⟩
      · exact .inr ⟨values, queried hquery, by rw [hlisted]; rfl⟩

/-- The first listing of the run returns; the second cannot compare the two times. -/
theorem maintenance_listed_maintained :
    Sample.maintained.outcome 1 =
        some (.ok (.records [⟨Sample.oiled (.naive 5), "", pressId⟩])) ∧
      Sample.maintained.outcome 3 = some (.error (.other "TypeError"
        "can't compare offset-naive and offset-aware datetimes")) ∧
      ListingsSound Sample.maintained := by
  have hsorted : ∀ r : MaintenanceRecord,
      Ranking.sortDesc (fun r => r.performedAt.instant) [r] = [r] :=
    fun r => List.perm_singleton.mp (Ranking.perm_sortDesc _ _)
  refine ⟨?_, rfl, maintenance_listed Sample.reachable_maintained⟩
  rw [← hsorted]
  rfl

end AxSentinel
