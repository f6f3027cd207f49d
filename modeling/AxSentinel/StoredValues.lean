import AxSentinel.LaggingIndex
import AxSentinel.StoreRules

/-! # The values of a table

What the requests to a service may write is what its table holds (`writes_of_wrote`), and a value
that no request overwrites stays (`WasStored.kept`).  What a listing has was stored some time, also
while the index lags (`wasStored_of_query`); how much of the table it has is another question
(`Listing`). -/

namespace Effects

/-- A `mapM` that returns has the result of each item. -/
theorem forall₂_of_mapM {E α β : Type} {f : α → Except E β} {xs : List α} {ys : List β}
    (h : xs.mapM f = .ok ys) : List.Forall₂ (fun x y => f x = .ok y) xs ys := by
  induction xs generalizing ys with
  | nil =>
    obtain rfl := Except.ok.inj (show Except.ok [] = Except.ok ys from h)
    exact .nil
  | cons x xs ih =>
    rw [List.mapM_cons] at h
    obtain ⟨y, hy, h⟩ := exists_of_bind h
    obtain ⟨zs, hzs, h⟩ := exists_of_bind h
    obtain rfl := Except.ok.inj (show Except.ok (y :: zs) = Except.ok ys from h)
    exact .cons hy (ih hzs)

end Effects

namespace AxSentinel.DynamoRepository
open Effects

variable {D : Type} {G : Signature Exc}

/-- The value stored under a key. -/
def value (M : Machine ((storeOps D).sum G)) [TableMachine M Key.entityType] (key : Key)
    (w : M.World) : Option D :=
  (stored M key w).map fun item => item.attributes.data

/-- A listing of a type: ids, each once, and what `f` reads their values as. -/
structure Lists (M : Machine ((storeOps D).sum G)) [TableMachine M Key.entityType] {α : Type}
    (t : EntityType) (f : D → Except Exc α) (w : M.World) (ids : List String) (values : List α) :
    Prop where
  nodup : ids.Nodup
  listed : List.Forall₂ (fun id a => ∃ v, value M ⟨t, id⟩ w = some v ∧ f v = .ok a) ids values

/-- The value was stored under the key at some moment: a write of it took effect. -/
def WasStored {M : Machine ((storeOps D).sum G)} [TableMachine M Key.entityType]
    (h : List (Event M)) (key : Key) (v : D) : Prop :=
  ∃ (n : Nat) (e : Event M) (item : Item (Attributes D)), h[n]? = some e ∧ e.Wrote key item ∧
    item.attributes.data = v

section Histories
variable {M : Machine ((storeOps D).sum G)} [T : TableMachine M Key.entityType]
  {allowed : Nat → List (Move ((storeOps D).sum G)) → ((storeOps D).sum G).Op → Prop}
  {w₀ w : M.World} {h : List (Event M)} {key : Key} {v : D}

theorem value_of_stored {item : Item (Attributes D)} (hs : stored M key w = some item) :
    value M key w = some item.attributes.data := by
  rw [value, hs]
  rfl

theorem isSome_value : (value M key w).isSome = (stored M key w).isSome := Option.isSome_map ..

theorem WasStored.of_take {n : Nat} (hv : WasStored (h.take n) key v) : WasStored h key v := by
  obtain ⟨k, e, item, hk, hw, hdata⟩ := hv
  rw [List.getElem?_take] at hk
  split at hk
  · exact ⟨k, e, item, hk, hw, hdata⟩
  · cases hk

/-- A value that was not there at the start was written. -/
theorem wrote_of_value (H : M.History allowed w₀ h w) (hstart : stored M key w₀ = none)
    (hv : value M key w = some v) : WasStored h key v := by
  obtain ⟨item, hstored, rfl⟩ := Option.map_eq_some_iff.mp hv
  obtain ⟨n, e, hn, hw⟩ := H.wrote_of_stored hstored (by simp [hstart])
  exact ⟨n, e, item, hn, hw, rfl⟩

/-- A write that took effect is one the request of its thread may make, in view of what the thread
had done before the read that guards the write. -/
theorem writes_of_wrote {Req : Type} {requests : Nat → Option Req}
    {P : Req → List (Move ((storeOps D).sum G)) → ((storeOps D).sum G).Op → Prop}
    {W : Req → List (Move ((storeOps D).sum G)) → Key → D → Prop}
    (H : M.History (fun i past op => ∃ request, requests i = some request ∧ P request past op)
      w₀ h w)
    (hwrites : ∀ request past op, P request past op →
      WritesOnly (fun earlier key a => W request earlier key a.data) past op)
    {n : Nat} {e : Event M} {item : Item (Attributes D)} (hn : h[n]? = some e)
    (hw : e.Wrote key item) :
    ∃ request earlier current, requests e.thread = some request ∧
      past e.thread (h.take n) = earlier ++ [⟨.inl (.getItem key), .ok current⟩] ∧
      W request earlier key item.attributes.data := by
  obtain ⟨earlier, current, hpast, -, request, hrequest, hW⟩ :=
    H.justified (W := fun i earlier key a => ∃ request, requests i = some request ∧
      W request earlier key a.data)
      (fun i past op ⟨request, hrequest, hok⟩ key item cond hop => by
        obtain ⟨earlier, current, hpast, hcond, hversion, hW⟩ :=
          hwrites request past op hok key item cond hop
        exact ⟨earlier, current, hpast, hcond, hversion, request, hrequest, hW⟩) hn hw
  exact ⟨request, earlier, current, hrequest, hpast, hW⟩

/-- So was a value that was there before an event. -/
theorem wasStored_of_before (H : M.History allowed w₀ h w) (hstart : stored M key w₀ = none)
    {n : Nat} {e : Event M} (hn : h[n]? = some e) (hv : value M key e.before = some v) :
    WasStored h key v :=
  (wrote_of_value (H.at_position hn).1 hstart hv).of_take

/-- Where every item that was written under the key is the one stored, its value stays. -/
theorem WasStored.kept (hv : WasStored h key v)
    (hkept : ∀ (n : Nat) (e : Event M) (item : Item (Attributes D)), h[n]? = some e →
      e.Wrote key item → stored M key w = some item) : value M key w = some v := by
  obtain ⟨n, e, item, hn, hw, rfl⟩ := hv
  exact value_of_stored (hkept n e item hn hw)

/-- The items of a type, as a query lists them, are stored under different keys. -/
theorem entries_of_type {t : EntityType} (w : M.World) :
    (((T.table w).entries.filter fun x => x.1.entityType = t).map fun x => x.1.entityId).Nodup ∧
      ∀ x ∈ ((T.table w).entries.filter fun x => x.1.entityType = t),
        x.1 = ⟨t, x.1.entityId⟩ ∧ stored M x.1 w = some x.2 := by
  have hkeys : ∀ x ∈ (T.table w).entries.filter fun x => x.1.entityType = t,
      x.1 = ⟨t, x.1.entityId⟩ := by
    intro x hx
    rw [← of_decide_eq_true (List.mem_filter.mp hx).2]
  constructor
  · refine List.Nodup.of_map (Key.mk t) ?_
    rw [List.map_map]
    refine List.map_congr_left (f := Sigma.fst) hkeys ▸ ?_
    exact List.Nodup.sublist (List.filter_sublist.map Sigma.fst) (T.table w).nodupKeys
  · exact fun x hx => ⟨hkeys x hx, AList.mem_lookup_iff.mpr (List.mem_filter.mp hx).1⟩

/-- **Listings.**  What a query found, and `f` could read, lists the type. -/
theorem lists_of_query [ConsistentQueries M] (H : M.History allowed w₀ h w) {i : Nat}
    {t : EntityType} {α : Type} {f : D → Except Exc α} {items : List (Attributes D)}
    {values : List α}
    (hm : (⟨.inl (.query t), .ok items⟩ : Move ((storeOps D).sum G)) ∈ past i h)
    (hvalues : (items.map Attributes.data).mapM f = .ok values) :
    ∃ (n : Nat) (e : Event M) (ids : List String), h[n]? = some e ∧ e.thread = i ∧
      T.table e.after = T.table e.before ∧ Lists M t f e.before ids values := by
  obtain ⟨n, e, hn, hthread, hsame, rfl⟩ := H.entries_of_query hm
  obtain ⟨hnodup, hentries⟩ := entries_of_type (t := t) e.before
  refine ⟨n, e, _, hn, hthread, hsame, hnodup, ?_⟩
  have hread := forall₂_of_mapM hvalues
  rw [List.map_map, List.forall₂_map_left_iff] at hread
  rw [List.forall₂_map_left_iff]
  refine ((List.forall₂_and_left _ _).mpr ⟨fun x hx => hentries x hx, hread⟩).imp ?_
  rintro x a ⟨⟨hkey, hstored⟩, hdata⟩
  exact ⟨x.2.attributes.data, hkey ▸ value_of_stored hstored, hdata⟩

/-- Of a table whose queries find what it has, what a query found was stored. -/
theorem wasStored_of_consistentQuery [ConsistentQueries M] (H : M.History allowed w₀ h w)
    (hstart : ∀ key, stored M key w₀ = none) {i : Nat} {t : EntityType}
    {items : List (Attributes D)}
    (hm : (⟨.inl (.query t), .ok items⟩ : Move ((storeOps D).sum G)) ∈ past i h)
    (hv : v ∈ items.map Attributes.data) : ∃ id, WasStored h ⟨t, id⟩ v := by
  obtain ⟨n, e, hn, -, -, rfl⟩ := H.entries_of_query hm
  obtain ⟨attributes, hitem, rfl⟩ := List.mem_map.mp hv
  obtain ⟨x, hx, rfl⟩ := List.mem_map.mp hitem
  obtain ⟨hkey, hstored⟩ := (entries_of_type (t := t) e.before).2 x hx
  exact ⟨_, hkey ▸ wasStored_of_before H (hstart _) hn (value_of_stored hstored)⟩

/-- So it was, of a table whose index lags. -/
theorem wasStored_of_query [L : LaggingQueries M] (H : M.History allowed w₀ h w)
    (hstart : L.written w₀ = []) {i : Nat} {t : EntityType} {items : List (Attributes D)}
    (hm : (⟨.inl (.query t), .ok items⟩ : Move ((storeOps D).sum G)) ∈ past i h)
    (hv : v ∈ items.map Attributes.data) : ∃ id, WasStored h ⟨t, id⟩ v := by
  obtain ⟨attributes, hitem, rfl⟩ := List.mem_map.mp hv
  obtain ⟨key, n, e, item, rfl, hn, hw, rfl⟩ := H.wrote_of_query hstart hm hitem
  exact ⟨key.entityId, n, e, item, hn, hw, rfl⟩

end Histories
end AxSentinel.DynamoRepository
