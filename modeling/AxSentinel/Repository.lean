import AxSentinel.Interpretation
import AxSentinel.Listing
import AxSentinel.Migration
import Mathlib.Order.WithBot

/-! # The repository is a map

`DynamoRepository`, down to the strings of the keys: an entity is an item under a composed
partition key, a write is conditional on the version read before, and a listing follows the pages
of the index over the attribute `entity_type`, some of which may be empty and still have a cursor.
One call after another, it is a map from pairs of an entity type and an id to data
(`repository_refines_map`).  Its puts and gets are those of `Dynamo` under the strings of the keys
(`put_eq_interpret`), and a listing left alone has the items of the one there (`perm_list`). -/
namespace AxSentinel
open Effects

/-! ## The table -/

/-- A primary key of a table. -/
structure PrimaryKey where
  pk : String
  sk : String
deriving DecidableEq

/-- A table of a service. -/
abbrev EntityTable (D : Type) := Table PrimaryKey (ItemAttributes D)

/-- An item, as the index has it. -/
abbrev EntityItem (D : Type) := PrimaryKey × ItemAttributes D

/-- A place to start a query from: behind a position, or ahead of all. -/
abbrev IndexOrder.Start (order : IndexOrder) : Type := WithTop order.Position

/-- Where an item of the table is in the index. -/
def IndexOrder.place {D : Type} (order : IndexOrder) (x : EntityItem D) : order.Start :=
  ((toLex (x.2.updatedAt, order.rank x.1.pk) : order.Position) : WithTop order.Position)

/-- The operations of the repository on its table. -/
inductive RepositoryOp (order : IndexOrder) (D : Type) where
  | now
  | getItem (key : PrimaryKey)
  | putItem (key : PrimaryKey) (item : Item (ItemAttributes D)) (condition : Condition)
  | queryPage (entityType : String) (limit : Nat) (exclusiveStartKey : Option order.Start)

abbrev repositoryOps (order : IndexOrder) (D : Type) : Signature Exc where
  Op := RepositoryOp order D
  Reply
    | .now => Nat
    | .getItem _ => Option (Item (ItemAttributes D))
    | .putItem .. => Unit
    | .queryPage .. => List (EntityItem D) × Option order.Start

/-- A table, and how many empty pages with a cursor it will yet answer with. -/
structure PagedTable (D : Type) where
  table : EntityTable D
  emptyPages : Nat

variable {D : Type}

/-- The items of an entity type. -/
def itemsOfType (entityType : String) (w : EntityTable D) : List (EntityItem D) :=
  (w.entries.filter fun e => e.2.attributes.entityType = entityType).map fun e =>
    (e.1, e.2.attributes)

/-- What is left open about an operation: the clock, whether a page is empty, how many items it
has otherwise, and whether a last page has a cursor too. -/
structure PageChoice where
  clock : Nat
  empty : Bool
  size : Nat
  more : Bool
deriving Inhabited

/-- The table. -/
abbrev repositoryTable (order : IndexOrder) (D : Type) : Machine (repositoryOps order D) where
  World := PagedTable D
  Choice := PageChoice
  exec
    | .now, c, w => (.ok c.clock, w)
    | .getItem key, _, w => (.ok (w.table.lookup key), w)
    | .putItem key item cond, _, w =>
        if cond.Holds (w.table.lookup key) then
          (.ok (), { w with table := w.table.insert key item })
        else (.error (.clientError conditionalCheckFailed), w)
    | .queryPage entityType limit start, c, w =>
        if c.empty = true ∧ 0 < w.emptyPages then
          (.ok ([], some (start.getD ⊤)), { w with emptyPages := w.emptyPages - 1 })
        else
          (.ok (Paging.page order.place (itemsOfType entityType w.table) start
            (min (c.size + 1) limit) c.more), w)

/-! ## The repository -/

/-- A call of the repository; `V` is what is put. -/
inductive RepositoryCall (V : Type) where
  | put (entityType : EntityType) (entityId : String) (value : V)
  | get (entityType : EntityType) (entityId : String)
  | list (entityType : EntityType)

/-- What a call returns. -/
inductive RepositoryAnswer (D : Type) where
  | done
  | found (data : Option D)
  | listed (items : List D)

namespace Repository
variable {V : Type} (order : IndexOrder) (normalise : V → Except Exc D)

/-- `{"pk": f"{entity_type.upper()}#{entity_id}", "sk": "METADATA"}`. -/
def primaryKey (entityType : EntityType) (entityId : String) : PrimaryKey :=
  ⟨upper entityType.name ++ "#" ++ entityId, "METADATA"⟩

/-- `put`; `normalise` is `_dynamodb_value` of the dumped value. -/
def put (entityType : EntityType) (entityId : String) (value : V) :
    Program (repositoryOps order D) Unit := do
  let now ← .perform (repositoryOps order D) .now
  let key := primaryKey entityType entityId
  let current ← .perform (repositoryOps order D) (.getItem key)
  let data ← Program.ofExcept (normalise value)
  let item : Item (ItemAttributes D) :=
    ⟨some (versionOf current + 1), ⟨entityType.name, entityId, now, data⟩⟩
  try
    if current.isNone then
      .perform (repositoryOps order D) (.putItem key item .attributeNotExists)
    else
      .perform (repositoryOps order D) (.putItem key item (.versionIs (versionOf current)))
  catch error =>
    if error = .clientError conditionalCheckFailed then
      throw (.concurrentUpdateError
        (entityType.name ++ "/" ++ entityId ++ " was updated concurrently"))
    else
      throw error

/-- `get`. -/
def get (entityType : EntityType) (entityId : String) :
    Program (repositoryOps order D) (Option D) := do
  let item ← .perform (repositoryOps order D) (.getItem (primaryKey entityType entityId))
  pure (item.map fun item => item.attributes.data)

/-- `list_page`. -/
def listPage (entityType : EntityType) (limit : Int) (cursor : Option order.Start) :
    Program (repositoryOps order D) (List D × Option order.Start) := do
  let response ← .perform (repositoryOps order D)
    (.queryPage entityType.name (min (max limit 1) 200).toNat cursor)
  pure (response.1.map fun x => x.2.data, response.2)

/-- The loop of `list`; `none` if it is cut off after `fuel` pages. -/
def listPages (entityType : EntityType) :
    Nat → Option order.Start → List D → Program (repositoryOps order D) (Option (List D))
  | 0, _, _ => pure none
  | fuel + 1, cursor, items => do
      let (page, cursor) ← listPage order entityType 200 cursor
      let items := items ++ page
      if cursor.isNone then
        pure (some items)
      else
        listPages entityType fuel cursor items

end Repository

section Calls
variable {V : Type} (order : IndexOrder) (normalise : V → Except Exc D)

/-- The program of a call, with fuel for the pages of a listing. -/
def RepositoryCall.code (fuel : Nat) :
    RepositoryCall V → Program (repositoryOps order D) (Option (RepositoryAnswer D))
  | put entityType entityId value => do
      Repository.put order normalise entityType entityId value
      pure (some .done)
  | get entityType entityId => do
      let data ← Repository.get order entityType entityId
      pure (some (.found data))
  | list entityType => do
      let items ← Repository.listPages order entityType fuel none []
      pure (items.map .listed)

/-- A call made on a table, alone, returns or raises. -/
def RepositoryCall.Returns (call : RepositoryCall V) (w : PagedTable D)
    (result : Except Exc (RepositoryAnswer D)) (w' : PagedTable D) : Prop :=
  ∃ fuel, (repositoryTable order D).Ends (call.code order normalise fuel) w (result.map some) w'

/-- Calls one after another, and what each returned. -/
inductive RepositoryRun (w₀ : PagedTable D) :
    List (RepositoryCall V × Except Exc (RepositoryAnswer D)) → PagedTable D → Prop
  | nil : RepositoryRun w₀ [] w₀
  | snoc {calls w w'} (call) {result} : RepositoryRun w₀ calls w →
      call.Returns order normalise w result w' → RepositoryRun w₀ (calls ++ [(call, result)]) w'

end Calls

/-! ## The map -/

section Map
variable {V : Type} (normalise : V → Except Exc D)

/-- The data of the entities. -/
abbrev EntityMap (D : Type) := Key → Option D

/-- A put sets its pair, if its value can be stored. -/
def RepositoryCall.update (m : EntityMap D) : RepositoryCall V → EntityMap D
  | put entityType entityId value =>
      match normalise value with
      | .ok data => Function.update m ⟨entityType, entityId⟩ (some data)
      | .error _ => m
  | _ => m

/-- The map after calls on an empty one: under every pair is what was put there last. -/
def mapAfter (calls : List (RepositoryCall V)) : EntityMap D :=
  calls.foldl (RepositoryCall.update normalise) fun _ => none

/-- What a call returns in terms of the map before it.  A listing has the data of each id of the
type once. -/
def RepositoryCall.Answers (m : EntityMap D) (result : Except Exc (RepositoryAnswer D)) :
    RepositoryCall V → Prop
  | put _ _ value => result = (normalise value).map fun _ => .done
  | get entityType entityId => result = .ok (.found (m ⟨entityType, entityId⟩))
  | list entityType => ∃ (ids : List String) (items : List D), result = .ok (.listed items) ∧
      ids.Nodup ∧ (∀ id, id ∈ ids ↔ (m ⟨entityType, id⟩).isSome) ∧
        items.map some = ids.map fun id => m ⟨entityType, id⟩

end Map

/-! ## The table represents the map -/

theorem Repository.primaryKey_injective {t u : EntityType} {i j : String}
    (h : primaryKey t i = primaryKey u j) : t = u ∧ i = j := by
  have hkey : (⟨t, i⟩ : Key) = ⟨u, j⟩ := Key.pk_injective (congrArg PrimaryKey.pk h)
  exact ⟨congrArg Key.entityType hkey, congrArg Key.entityId hkey⟩

theorem EntityType.name_injective : Function.Injective EntityType.name := by
  intro t u
  cases t <;> cases u <;> decide

/-- Every item is an entity under its key, with a version, and the data are those of the map. -/
structure Represents (w : EntityTable D) (m : EntityMap D) : Prop where
  entity : ∀ key item, w.lookup key = some item → ∃ t id, key = Repository.primaryKey t id ∧
    item.attributes.entityType = t.name ∧ item.attributes.entityId = id ∧ item.version.isSome = true
  data : ∀ t id, (w.lookup (Repository.primaryKey t id)).map (fun item => item.attributes.data) =
    m ⟨t, id⟩

theorem represents_empty : Represents (∅ : EntityTable D) fun _ => none :=
  ⟨fun _ _ h => (nomatch h), fun _ _ => rfl⟩

section Represents
variable {w : EntityTable D} {m : EntityMap D}

/-- A write under its key is one in the map. -/
theorem Represents.insert (h : Represents w m) (t : EntityType) (id : String) (version : Int)
    (now : Nat) (data : D) :
    Represents (w.insert (Repository.primaryKey t id) ⟨some version, ⟨t.name, id, now, data⟩⟩)
      (Function.update m ⟨t, id⟩ (some data)) := by
  constructor
  · intro key item hitem
    by_cases hkey : key = Repository.primaryKey t id
    · subst hkey
      rw [AList.lookup_insert] at hitem
      obtain rfl := Option.some.inj hitem
      exact ⟨t, id, rfl, rfl, rfl, rfl⟩
    · rw [AList.lookup_insert_ne hkey] at hitem
      exact h.entity key item hitem
  · intro u j
    by_cases hkey : (⟨u, j⟩ : Key) = ⟨t, id⟩
    · obtain ⟨rfl, rfl⟩ := Key.mk.inj hkey
      rw [AList.lookup_insert, Function.update_self]
      rfl
    · have hne : Repository.primaryKey u j ≠ Repository.primaryKey t id := by
        intro heq
        obtain ⟨rfl, rfl⟩ := Repository.primaryKey_injective heq
        exact hkey rfl
      rw [AList.lookup_insert_ne hne, Function.update_of_ne hkey]
      exact h.data u j

/-- The write of a sequential put is not refused. -/
theorem Represents.unchanged (h : Represents w m) (key : PrimaryKey) :
    (Condition.unchanged (w.lookup key)).Holds (w.lookup key) := by
  rw [Condition.unchanged_holds_self]
  intro item hitem
  obtain ⟨-, -, -, -, -, hversion⟩ := h.entity key item hitem
  exact hversion

theorem mem_itemsOfType {entityType : String} {x : EntityItem D} :
    x ∈ itemsOfType entityType w ↔ x.2.entityType = entityType ∧
      ∃ item, w.lookup x.1 = some item ∧ item.attributes = x.2 :=
  mem_filter_entries (p := fun _ (a : ItemAttributes D) => a.entityType = entityType)

/-- An item of the index is the entity of its id. -/
theorem Represents.of_mem (h : Represents w m) {t : EntityType} {x : EntityItem D}
    (hx : x ∈ itemsOfType t.name w) :
    x.1 = Repository.primaryKey t x.2.entityId ∧ m ⟨t, x.2.entityId⟩ = some x.2.data := by
  obtain ⟨htype, item, hitem, hattributes⟩ := mem_itemsOfType.mp hx
  obtain ⟨u, id, hkey, hname, hid, -⟩ := h.entity x.1 item hitem
  rw [hattributes] at hname hid
  obtain rfl := EntityType.name_injective (htype.symm.trans hname)
  subst hid
  refine ⟨hkey, ?_⟩
  rw [← h.data, ← hkey, hitem, Option.map_some, hattributes]

/-- The ids of a type are those of its items. -/
theorem Represents.mem_ids (h : Represents w m) {t : EntityType} {id : String} :
    id ∈ (itemsOfType t.name w).map (fun x => x.2.entityId) ↔ (m ⟨t, id⟩).isSome = true := by
  constructor
  · intro hid
    obtain ⟨x, hx, rfl⟩ := List.mem_map.mp hid
    rw [(h.of_mem hx).2]
    rfl
  · intro hsome
    rw [← h.data, Option.isSome_map, Option.isSome_iff_exists] at hsome
    obtain ⟨item, hitem⟩ := hsome
    obtain ⟨u, j, hkey, hname, hid, -⟩ := h.entity _ item hitem
    obtain ⟨rfl, rfl⟩ := Repository.primaryKey_injective hkey
    exact List.mem_map.mpr ⟨(Repository.primaryKey t id, item.attributes),
      mem_itemsOfType.mpr ⟨hname, item, hitem, rfl⟩, hid⟩

theorem nodup_keys_itemsOfType (entityType : String) (w : EntityTable D) :
    ((itemsOfType entityType w).map Prod.fst).Nodup :=
  nodup_keys_filter_entries (p := fun _ (a : ItemAttributes D) => a.entityType = entityType)

theorem Represents.nodup_ids (h : Represents w m) (t : EntityType) :
    ((itemsOfType t.name w).map fun x => x.2.entityId).Nodup := by
  refine List.Nodup.map_on (fun x hx y hy heq => ?_)
    (.of_map _ (nodup_keys_itemsOfType t.name w))
  refine List.inj_on_of_nodup_map (nodup_keys_itemsOfType t.name w) hx hy ?_
  rw [(h.of_mem hx).1, (h.of_mem hy).1, heq]

/-- The items of a type are in different places of the index. -/
theorem Represents.nodup_place (h : Represents w m) (order : IndexOrder) (t : EntityType) :
    ((itemsOfType t.name w).map order.place).Nodup := by
  refine List.Nodup.map_on (fun x hx y hy heq => ?_)
    (.of_map _ (nodup_keys_itemsOfType t.name w))
  refine List.inj_on_of_nodup_map (nodup_keys_itemsOfType t.name w) hx hy ?_
  have hrank : order.rank x.1.pk = order.rank y.1.pk :=
    congrArg (fun p => (ofLex p).2) (WithTop.coe_injective heq)
  have hpk := order.injective hrank
  rw [(h.of_mem hx).1, (h.of_mem hy).1] at hpk ⊢
  exact congrArg (PrimaryKey.mk · "METADATA") hpk

end Represents

/-! ## Calls -/

section Specs
variable {V : Type} {order : IndexOrder} {normalise : V → Except Exc D} {m : EntityMap D}
  {w : PagedTable D}

/-- The write of a put is conditional on what was read. -/
theorem Repository.put_eq (t : EntityType) (id : String) (value : V) :
    put order normalise t id value = .call .now fun
      | .error e => .raise e
      | .ok now => .call (.getItem (primaryKey t id)) fun
        | .error e => .raise e
        | .ok current => match normalise value with
          | .error e => .raise e
          | .ok data => .call (.putItem (primaryKey t id)
              ⟨some (versionOf current + 1), ⟨t.name, id, now, data⟩⟩ (.unchanged current)) fun
            | .error e => .raise (DynamoRepository.putError t id e)
            | .ok _ => .ret () := by
  have raised : ∀ e, (if e = .clientError conditionalCheckFailed then
      (.raise (.concurrentUpdateError (t.name ++ "/" ++ id ++ " was updated concurrently")) :
        Program (repositoryOps order D) Unit)
      else .raise e) = .raise (DynamoRepository.putError t id e) := by
    intro e
    unfold DynamoRepository.putError
    split <;> rfl
  unfold put
  refine Program.call_congr (fun now => ?_) fun _ => rfl
  refine Program.call_congr (fun current => ?_) fun _ => rfl
  cases hvalue : normalise value with
  | error e => rfl
  | ok data =>
    cases current with
    | none => exact Program.call_congr (fun _ => rfl) raised
    | some item => exact Program.call_congr (fun _ => rfl) raised

/-- A put alone on a table stores its value, if that can be stored, and touches nothing else. -/
theorem wp_put_alone (h : Represents w.table m) (t : EntityType) (id : String) (value : V) :
    (repositoryTable order D).wp (Repository.put order normalise t id value) (fun out w' =>
      out = (normalise value).map (fun _ => ()) ∧
      Represents w'.table ((RepositoryCall.put t id value).update normalise m) ∧
      ∀ key, key ≠ Repository.primaryKey t id → w'.table.lookup key = w.table.lookup key) w := by
  rw [Repository.put_eq]
  intro clock read
  cases hvalue : normalise value with
  | error e =>
    refine ⟨rfl, ?_, fun _ _ => rfl⟩
    simpa only [RepositoryCall.update, hvalue] using h
  | ok data =>
    have hholds := h.unchanged (Repository.primaryKey t id)
    have hstored : Represents (w.table.insert (Repository.primaryKey t id)
        ⟨some (versionOf (w.table.lookup (Repository.primaryKey t id)) + 1),
          ⟨t.name, id, clock.clock, data⟩⟩)
        ((RepositoryCall.put t id value).update normalise m) := by
      simpa only [RepositoryCall.update, hvalue] using h.insert t id _ clock.clock data
    intro c
    simp only [repositoryTable, if_pos hholds]
    exact ⟨rfl, hstored, fun key hkey => AList.lookup_insert_ne hkey⟩

/-- All items are behind the top of the index. -/
theorem rest_getD_top (entries : List (EntityItem D)) (start : Option order.Start) :
    Paging.rest order.place entries (.behind (some (start.getD ⊤))) =
      Paging.rest order.place entries (.behind start) := by
  cases start with
  | some p => rfl
  | none =>
    have hall : ∀ x ∈ entries,
        decide ((Paging.Cursor.past (⊤ : order.Start)).Ahead (order.place x)) =
        decide ((Paging.Cursor.start : Paging.Cursor order.Start).Ahead (order.place x)) := by
      intro x _
      rw [decide_eq_decide]
      exact ⟨fun _ => trivial, fun _ => WithTop.coe_lt_top _⟩
    unfold Paging.rest
    rw [Option.getD_none, Paging.Cursor.behind_some, Paging.Cursor.behind_none,
      List.filter_congr hall]

/-- The loop reads a page, and goes on if that has a cursor. -/
theorem wp_listPages_succ {t : EntityType} {fuel : Nat} {cursor : Option order.Start}
    {items : List D} {Q : Except Exc (Option (List D)) → PagedTable D → Prop}
    (h : ∀ c page w', (repositoryTable order D).exec (.queryPage t.name 200 cursor) c w =
        (.ok page, w') →
      (repositoryTable order D).wp (if page.2.isNone then
          .ret (some (items ++ page.1.map fun x => x.2.data))
        else Repository.listPages order t fuel page.2 (items ++ page.1.map fun x => x.2.data))
        Q w') :
    (repositoryTable order D).wp (Repository.listPages order t (fuel + 1) cursor items) Q w := by
  intro c
  obtain ⟨page, w', hexec⟩ : ∃ page w', (repositoryTable order D).exec
      (.queryPage t.name (min (max (200 : Int) 1) 200).toNat cursor) c w = (.ok page, w') := by
    by_cases hempty : c.empty = true ∧ 0 < w.emptyPages
    · exact ⟨_, _, if_pos hempty⟩
    · exact ⟨_, _, if_neg hempty⟩
  rw [hexec]
  exact h c page w' hexec

/-- The loop of a listing, alone, reads what is ahead of its cursor, or is cut off early; every page
brings it on, or is one of the empty pages. -/
theorem wp_listPages_alone {t : EntityType}
    (hpos : ((itemsOfType t.name w.table).map order.place).Nodup) (fuel : Nat)
    (cursor : Option order.Start) (items : List D) :
    (repositoryTable order D).wp (Repository.listPages order t fuel cursor items) (fun out w' =>
      w'.table = w.table ∧
      (out = .ok (some (items ++ (Paging.rest order.place (itemsOfType t.name w.table)
          (.behind cursor)).map fun x => x.2.data)) ∨
        out = .ok none ∧ fuel ≤ (Paging.rest order.place (itemsOfType t.name w.table)
          (.behind cursor)).length + w.emptyPages)) w := by
  induction fuel generalizing cursor items w with
  | zero => exact ⟨rfl, .inr ⟨rfl, Nat.zero_le _⟩⟩
  | succ fuel ih =>
    refine wp_listPages_succ fun c page w' hexec => ?_
    have hn : 0 < min (c.size + 1) 200 := by omega
    by_cases hempty : c.empty = true ∧ 0 < w.emptyPages
    · -- An empty page: the next one starts where this one did.
      obtain ⟨hpage, rfl⟩ := Prod.mk.inj (hexec.symm.trans (if_pos hempty))
      obtain rfl := Except.ok.inj hpage
      have hnext := ih (w := { w with emptyPages := w.emptyPages - 1 }) hpos (some (cursor.getD ⊤))
        (items ++ [])
      rw [rest_getD_top, List.append_nil] at hnext
      rw [List.map_nil, List.append_nil]
      refine Machine.wp_mono hnext fun out w' hout =>
        ⟨hout.1, hout.2.imp_right fun hcut => ⟨hcut.1, ?_⟩⟩
      have hcut : fuel ≤ (Paging.rest order.place (itemsOfType t.name w.table)
        (.behind cursor)).length + (w.emptyPages - 1) := hcut.2
      omega
    · obtain ⟨hpage, rfl⟩ := Prod.mk.inj (hexec.symm.trans (if_neg hempty))
      obtain rfl := Except.ok.inj hpage
      have hsplit := Paging.page_append_rest hpos hn cursor c.more
      have hless : ∀ {q}, (Paging.page order.place (itemsOfType t.name w'.table) cursor
          (min (c.size + 1) 200) c.more).2 = some q → _ := Paging.length_rest_lt hpos hn
      generalize Paging.page order.place (itemsOfType t.name w'.table) cursor
        (min (c.size + 1) 200) c.more = page at hsplit hless
      obtain ⟨found, next⟩ := page
      rw [← hsplit, List.map_append, ← List.append_assoc]
      cases next with
      | none =>
        rw [Paging.Cursor.upTo_none, Paging.rest_finished, List.map_nil, List.append_nil]
        exact ⟨rfl, .inl rfl⟩
      | some q =>
        have hshorter := hless rfl
        refine Machine.wp_mono (ih hpos (some q) _) fun out w' hout =>
          ⟨hout.1, hout.2.imp_right fun hcut => ⟨hcut.1, ?_⟩⟩
        have hcut := hcut.2
        rw [hsplit]
        rw [Paging.Cursor.behind_some] at hcut
        omega

/-- **Every call, alone, answers as the map says and changes it as the map does**, unless a listing
is cut off; and none is with fuel for the items and the empty pages. -/
theorem wp_call_alone (h : Represents w.table m) (call : RepositoryCall V) (fuel : Nat) :
    (repositoryTable order D).wp (call.code order normalise fuel) (fun out w' =>
      Represents w'.table (call.update normalise m) ∧
      ((∃ result, out = Except.map some result ∧ call.Answers normalise m result) ∨
        out = .ok none ∧ fuel ≤ w.table.entries.length + w.emptyPages)) w := by
  cases call with
  | put t id value =>
    refine Machine.wp_bind.mpr (Machine.wp_mono (wp_put_alone h t id value) ?_)
    rintro out w' ⟨rfl, hrepresents, -⟩
    cases hvalue : normalise value with
    | error e =>
      refine ⟨hrepresents, .inl ⟨.error e, rfl, ?_⟩⟩
      simp only [RepositoryCall.Answers, hvalue, Except.map]
    | ok data =>
      refine ⟨hrepresents, .inl ⟨.ok .done, rfl, ?_⟩⟩
      simp only [RepositoryCall.Answers, hvalue, Except.map]
  | get t id =>
    intro c
    refine ⟨h, .inl ⟨.ok (.found (m ⟨t, id⟩)), ?_, rfl⟩⟩
    rw [← h.data]
    rfl
  | list t =>
    have hperm : (Paging.rest order.place (itemsOfType t.name w.table) .start).Perm
        (itemsOfType t.name w.table) := Paging.rest_start_perm
    refine Machine.wp_bind.mpr (Machine.wp_mono
      (wp_listPages_alone (h.nodup_place order t) fuel none []) ?_)
    rintro out w' ⟨hsame, rfl | ⟨rfl, hfuel⟩⟩
    · refine ⟨hsame ▸ h, .inl ⟨.ok (.listed _), rfl, _, _, rfl,
        ((hperm.map fun x => x.2.entityId).nodup_iff).mpr (h.nodup_ids t), fun id => ?_, ?_⟩⟩
      · rw [(hperm.map fun x => x.2.entityId).mem_iff, h.mem_ids]
      · rw [List.nil_append, List.map_map, List.map_map]
        refine List.map_congr_left fun x hx => ?_
        exact (h.of_mem (hperm.mem_iff.mp hx)).2.symm
    · refine ⟨hsame ▸ h, .inr ⟨rfl, ?_⟩⟩
      have hitems : (itemsOfType t.name w.table).length ≤ w.table.entries.length := by
        rw [itemsOfType, List.length_map]
        exact List.length_filter_le _ _
      rw [Paging.Cursor.behind_none, hperm.length_eq] at hfuel
      omega

end Specs

/-! ## Runs -/

section Runs
variable {V : Type} {order : IndexOrder} {normalise : V → Except Exc D} {emptyPages : Nat}
  {calls : List (RepositoryCall V × Except Exc (RepositoryAnswer D))} {w : PagedTable D}

/-- A call ends: it has executions, and with enough fuel none of them is cut off. -/
def RepositoryCall.Terminates (order : IndexOrder) (normalise : V → Except Exc D)
    (call : RepositoryCall V) (w : PagedTable D) : Prop :=
  ∃ fuel, (∃ out w', (repositoryTable order D).Ends (call.code order normalise fuel) w out w') ∧
    ∀ out w', (repositoryTable order D).Ends (call.code order normalise fuel) w out w' →
      ∃ result, out = Except.map some result

/-- A call that returns answers as the map says. -/
theorem RepositoryCall.Returns.answers {m : EntityMap D} {call : RepositoryCall V}
    {result : Except Exc (RepositoryAnswer D)} {w' : PagedTable D}
    (hreturns : call.Returns order normalise w result w') (h : Represents w.table m) :
    call.Answers normalise m result ∧ Represents w'.table (call.update normalise m) := by
  obtain ⟨fuel, hends⟩ := hreturns
  obtain ⟨hrepresents, ⟨result', hresult, hanswers⟩ | ⟨hcut, -⟩⟩ :=
    hends.of_wp (wp_call_alone h call fuel)
  · have heq : result = result' := by
      cases result <;> cases result' <;> cases hresult <;> rfl
    exact ⟨heq ▸ hanswers, hrepresents⟩
  · cases result <;> cases hcut

/-- After any calls on an empty table, it represents the map. -/
theorem represents_of_run (hrun : RepositoryRun order normalise ⟨∅, emptyPages⟩ calls w) :
    Represents w.table (mapAfter normalise (calls.map Prod.fst)) := by
  induction hrun with
  | nil => exact represents_empty
  | snoc call _ hreturns ih =>
    rw [List.map_append, mapAfter, List.foldl_append]
    exact (hreturns.answers ih).2

/-- The calls so far are a run themselves, and the next one is made on the table they leave. -/
theorem RepositoryRun.at_position {w₀ : PagedTable D}
    (hrun : RepositoryRun order normalise w₀ calls w) {n : Nat} {call : RepositoryCall V}
    {result : Except Exc (RepositoryAnswer D)} (hn : calls[n]? = some (call, result)) :
    ∃ v v', RepositoryRun order normalise w₀ (calls.take n) v ∧
      call.Returns order normalise v result v' := by
  induction hrun with
  | nil => cases hn
  | @snoc calls v v' last answer hrun hreturns ih =>
    rcases getElem?_snoc.mp hn with hn | ⟨rfl, heq⟩
    · have hlt : n < calls.length := (List.getElem?_eq_some_iff.mp hn).1
      rw [List.take_append_of_le_length (Nat.le_of_lt hlt)]
      exact ih hn
    · obtain ⟨rfl, rfl⟩ := Prod.mk.inj heq
      exact ⟨v, v', by rwa [List.take_left], hreturns⟩

/-- **The repository is a map.**  Of calls on an empty table, one after another, each answers as
the map says that the calls before it leave; each call that may come next ends; and a put changes
no item of another pair. -/
theorem repository_refines_map (hrun : RepositoryRun order normalise ⟨∅, emptyPages⟩ calls w) :
    (∀ (n : Nat) (call : RepositoryCall V) (result : Except Exc (RepositoryAnswer D)),
        calls[n]? = some (call, result) →
          call.Answers normalise (mapAfter normalise ((calls.take n).map Prod.fst)) result) ∧
      (∀ call : RepositoryCall V, call.Terminates order normalise w) ∧
      ∀ (t : EntityType) (id : String) (value : V) (result : Except Exc (RepositoryAnswer D))
        (w' : PagedTable D), (RepositoryCall.put t id value).Returns order normalise w result w' →
          ∀ u j, (⟨u, j⟩ : Key) ≠ ⟨t, id⟩ →
            w'.table.lookup (Repository.primaryKey u j) =
              w.table.lookup (Repository.primaryKey u j) := by
  have hrepresents := represents_of_run hrun
  refine ⟨fun n call result hn => ?_, fun call => ?_, ?_⟩
  · obtain ⟨v, v', hearlier, hreturns⟩ := hrun.at_position hn
    exact (hreturns.answers (represents_of_run hearlier)).1
  · refine ⟨w.table.entries.length + w.emptyPages + 1,
      ⟨_, _, Machine.ends_execute [] _ _⟩, fun out w' hends => ?_⟩
    obtain ⟨-, ⟨result, hresult, -⟩ | ⟨-, hfuel⟩⟩ := hends.of_wp (wp_call_alone hrepresents call _)
    · exact ⟨result, hresult⟩
    · exact absurd hfuel (Nat.not_succ_le_self _)
  · rintro t id value result w' ⟨fuel, hends⟩ u j hne
    have hframe : (repositoryTable order D).wp
        ((RepositoryCall.put t id value).code order normalise fuel) (fun _ v =>
          ∀ key, key ≠ Repository.primaryKey t id → v.table.lookup key = w.table.lookup key) w := by
      refine Machine.wp_bind.mpr (Machine.wp_mono (wp_put_alone hrepresents t id value) ?_)
      intro out v hout
      cases out <;> exact hout.2.2
    refine hends.of_wp hframe _ fun heq => hne ?_
    obtain ⟨rfl, rfl⟩ := Repository.primaryKey_injective heq
    rfl

end Runs

/-! ## The repository of `Dynamo` -/

section Dynamo
variable {order : IndexOrder} {t : EntityType} {id : String}
  (queried : (t : EntityType) → Program (repositoryOps order D) (List (Attributes D)))

/-- The operations on a table of entities, under the strings of the keys; whatever a query is. -/
def Repository.carryOut :
    (op : (storeOps D).Op) → Program (repositoryOps order D) ((storeOps D).Reply op)
  | .now => .perform (repositoryOps order D) .now
  | .getItem key => do
      let item ← .perform (repositoryOps order D)
        (.getItem (primaryKey key.entityType key.entityId))
      pure (item.map (viewItem key))
  | .putItem key item cond => .perform (repositoryOps order D)
      (.putItem (primaryKey key.entityType key.entityId) (storeItem item) cond)
  | .query t => queried t

theorem Repository.get_eq_interpret :
    get order t id = (DynamoRepository.get t id).interpret (carryOut queried) := by
  unfold get DynamoRepository.get
  rw [Program.interpret_bind, Program.interpret_perform, carryOut, Program.bind_bind]
  refine congrArg _ (funext fun item => ?_)
  cases item <;> rfl

/-- **The same put.** -/
theorem Repository.put_eq_interpret (value : D) : put order Except.ok t id value =
    (DynamoRepository.put t id value).interpret (carryOut queried) := by
  rw [put_eq, DynamoRepository.put_eq]
  refine Program.call_congr (fun clock => ?_) fun _ => rfl
  refine Program.call_congr (fun current => ?_) fun _ => rfl
  cases current with
  | none => exact Program.call_congr (fun _ => rfl) fun _ => rfl
  | some item => exact Program.call_congr (fun _ => rfl) fun _ => rfl

end Dynamo

/-- **The same listing.**  Of a table with the data of the map, the listing of `Dynamo` has the
items that one page by page has. -/
theorem RepositoryCall.Answers.perm_list {V : Type} {normalise : V → Except Exc D} {m : EntityMap D}
    {w w' : Table Key (Attributes D)} {t : EntityType} {items listed : List D}
    (hsame : ∀ key, (w.lookup key).map (fun item => item.attributes.data) = m key)
    (h : (RepositoryCall.list t).Answers normalise m (.ok (.listed items)))
    (hlist : (storeMachine D).Ends (DynamoRepository.list t) w (.ok listed) w') :
    items.Perm listed := by
  obtain ⟨ids, items', hitems, hnodup, hids, hmap⟩ := h
  obtain rfl := RepositoryAnswer.listed.inj (Except.ok.inj hitems)
  -- what the query finds, by id
  have hlisted : listed = (indexed t w).map fun x => x.2.data := by
    obtain ⟨attributes, w₁, hquery, hret⟩ := hlist.of_bind_ok
    obtain ⟨hret, -⟩ := Machine.Ends.of_ret (M := storeMachine D) hret
    obtain ⟨c, hquery⟩ := hquery.of_perform
    obtain rfl := Except.ok.inj hret
    obtain rfl := Except.ok.inj (congrArg Prod.fst hquery)
    rw [indexed, List.map_map, List.map_map]
    rfl
  have hfound : ∀ x ∈ indexed t w, x.1 = ⟨t, x.1.entityId⟩ ∧ m x.1 = some x.2.data := by
    intro x hx
    obtain ⟨htype, item, hitem, hattributes⟩ := mem_indexed.mp hx
    refine ⟨htype ▸ rfl, ?_⟩
    rw [← hsame, hitem, Option.map_some, hattributes]
  have hperm : ids.Perm ((indexed t w).map fun x => x.1.entityId) := by
    refine (List.perm_ext_iff_of_nodup hnodup ?_).mpr fun id => (hids id).trans ?_
    · refine List.Nodup.map_on (fun x hx y hy heq => ?_) (.of_map _ nodup_keys_indexed)
      refine List.inj_on_of_nodup_map nodup_keys_indexed hx hy ?_
      rw [(hfound x hx).1, (hfound y hy).1, heq]
    · constructor
      · intro hsome
        rw [← hsame, Option.isSome_map, Option.isSome_iff_exists] at hsome
        obtain ⟨item, hitem⟩ := hsome
        exact List.mem_map.mpr ⟨(⟨t, id⟩, item.attributes), mem_indexed.mpr ⟨rfl, item, hitem, rfl⟩,
          rfl⟩
      · intro hid
        obtain ⟨x, hx, rfl⟩ := List.mem_map.mp hid
        obtain ⟨hkey, hdata⟩ := hfound x hx
        rw [← hkey, hdata]
        rfl
  have hdata : (items.map some).Perm (listed.map some) := by
    have hread : ((indexed t w).map fun x => x.1.entityId).map (fun id => m ⟨t, id⟩) =
        listed.map some := by
      rw [hlisted, List.map_map, List.map_map]
      refine List.map_congr_left fun x hx => ?_
      obtain ⟨hkey, hdata⟩ := hfound x hx
      rw [hkey] at hdata
      exact hdata
    rw [hmap, ← hread]
    exact hperm.map _
  have hsome := hdata.filterMap id
  rwa [List.filterMap_map, List.filterMap_map, Function.id_comp, List.filterMap_some,
    List.filterMap_some] at hsome

/-- An execution that is computed. -/
theorem returns_of_execute {V : Type} {order : IndexOrder} {normalise : V → Except Exc D}
    {call : RepositoryCall V} {w w' : PagedTable D} {result : Except Exc (RepositoryAnswer D)}
    (fuel : Nat) (choices : List PageChoice)
    (h : (repositoryTable order D).execute choices (call.code order normalise fuel) w =
      (result.map some, w')) : call.Returns order normalise w result w' := by
  have hends := Machine.ends_execute (M := repositoryTable order D) choices
    (call.code order normalise fuel) w
  rw [h] at hends
  exact ⟨fuel, hends⟩

/-- The table after `A` is put at the time 1. -/
def oneIncident : EntityTable Nat :=
  (∅ : EntityTable Nat).insert ⟨"INCIDENT#A", "METADATA"⟩ ⟨some 1, "incident", "A", 1, 1⟩

/-- The table after `A#B` is put at the time 2. -/
def prefixedIncidents : EntityTable Nat :=
  oneIncident.insert ⟨"INCIDENT#A#B", "METADATA"⟩ ⟨some 1, "incident", "A#B", 2, 2⟩

/-- Two incidents, the id of one of which goes on from the other's, and a listing of both by an
empty page and a page for each. -/
theorem run_prefixedIncidents : RepositoryRun byId (Except.ok (ε := Exc) (α := Nat)) ⟨∅, 1⟩
    [(.put .incident "A" 1, .ok .done), (.put .incident "A#B" 2, .ok .done),
      (.list .incident, .ok (.listed [2, 1]))] ⟨prefixedIncidents, 0⟩ := by
  have hfirst : RepositoryRun byId (Except.ok (ε := Exc) (α := Nat)) ⟨∅, 1⟩
      ([] ++ [(.put .incident "A" 1, .ok .done)]) ⟨oneIncident, 1⟩ :=
    .snoc _ .nil (returns_of_execute 0 [⟨1, false, 0, false⟩] rfl)
  have hsecond : RepositoryRun byId (Except.ok (ε := Exc) (α := Nat)) ⟨∅, 1⟩
      ([(.put .incident "A" 1, .ok .done)] ++ [(.put .incident "A#B" 2, .ok .done)])
      ⟨prefixedIncidents, 1⟩ :=
    .snoc _ hfirst (returns_of_execute 0 [⟨2, false, 0, false⟩] rfl)
  exact .snoc _ hsecond (returns_of_execute 3 [⟨0, true, 0, false⟩, ⟨0, false, 0, false⟩] rfl)

/-- The listing has the data of both. -/
theorem repository_refines_map_prefixed :
    (RepositoryCall.list .incident).Answers (Except.ok (ε := Exc) (α := Nat))
        (mapAfter Except.ok [.put .incident "A" 1, .put .incident "A#B" 2])
          (.ok (.listed [2, 1])) ∧
      (RepositoryCall.list .incident).Terminates byId (Except.ok (ε := Exc) (α := Nat))
        ⟨prefixedIncidents, 0⟩ := by
  obtain ⟨hanswers, hterminates, -⟩ := repository_refines_map run_prefixedIncidents
  exact ⟨hanswers 2 _ _ rfl, hterminates _⟩

end AxSentinel
