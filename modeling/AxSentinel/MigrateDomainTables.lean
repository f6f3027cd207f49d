import AxSentinel.BatchWrites
import AxSentinel.Evidence
import AxSentinel.Migration
import AxSentinel.Paging
import Mathlib.Data.Prod.Lex
import Mathlib.Data.String.Basic

/-! # What the migration copies

`scripts/migrate-domain-tables.py`, of items with any attributes: `scan_all` reads the source page
by page, and a batch writer sends what is put into it twenty-five items at a time, and again what
the store has left unprocessed.  Run alone, `main` leaves the tables as `migrated` says, whatever
the pages and the batches (`tablesOf_main`), and to migrate twice is to migrate once
(`migrated_migrated`).  Of the items `Migration` has the script copies the same (`grouped_eq`). -/
namespace AxSentinel
open Effects
open Python (Json Str)

namespace MigrateDomainTables

/-! ## Items and tables -/

/-- The attributes of an item besides its key. -/
abbrev Fields := String → Option Json

structure StoredItem where
  pk : String
  sk : String
  fields : Fields

/-- The key of an item in its table. -/
def StoredItem.key (item : StoredItem) : String × String := (item.pk, item.sk)

/-- Where an item is in a table. -/
def StoredItem.address (table : String) (item : StoredItem) : Address := ⟨table, item.pk, item.sk⟩

/-- `item.setdefault("version", 1)`. -/
def setVersion (fields : Fields) : Fields := fun name =>
  if name = "version" then some ((fields name).getD (.int 1)) else fields name

/-- `ENTITY_TABLES.get(str(item.get("entity_type", "")))`. -/
def targetTable (rt : Runtime) (fields : Fields) : Option String :=
  match rt.str ((fields "entity_type").getD (.text "")) with
  | .text entityType => entityTables.lookup entityType
  | .surrogates .. => none

/-- All tables. -/
abbrev Tables := AList fun _ : Address => Fields

/-- The items of a table. -/
def itemsIn (table : String) (w : Tables) : List StoredItem :=
  (w.entries.filter fun e => e.1.table = table).map fun e => ⟨e.1.pk, e.1.sk, e.2⟩

/-- The order in which the store scans a table. -/
structure ScanOrder where
  Rank : Type
  [linearOrder : LinearOrder Rank]
  rank : String × String → Rank
  injective : Function.Injective rank

attribute [instance] ScanOrder.linearOrder

/-! ## Operations -/

/-- The requests the script sends. -/
inductive TableOp (order : ScanOrder) where
  | scan (table : String) (exclusiveStartKey : Option order.Rank)
  | batchWriteItem (table : String) (items : List StoredItem)

/-- A scan replies with a page and its `LastEvaluatedKey`, a batch with the unprocessed items. -/
abbrev tableOps (order : ScanOrder) : Signature Exc where
  Op := TableOp order
  Reply
    | .scan .. => List StoredItem × Option order.Rank
    | .batchWriteItem .. => List StoredItem

/-- What is left to the store: how many items a page has, and whether there is a key to go on from
where none are left; and which items of a batch it delays, one of them not. -/
structure StoreChoice where
  pageSize : Nat
  more : Bool
  delayed : String × String → Bool
  processed : Nat

/-- Whether the store processes an item of a batch. -/
def StoreChoice.processes (c : StoreChoice) (items : List StoredItem) (item : StoredItem) : Bool :=
  !c.delayed item.key || (items[c.processed % items.length]?).any fun x => x.key = item.key

/-- The tables after items are written into one. -/
def writeAll (table : String) (items : List StoredItem) (w : Tables) : Tables :=
  items.foldl (fun w item => w.insert (item.address table) item.fields) w

/-- The store, where some tables exist; a batch has at most twenty-five items with distinct keys. -/
abbrev store (order : ScanOrder) (exist : String → Bool) : Machine (tableOps order) where
  World := Tables
  Choice := StoreChoice
  exec
    | .scan table start, c, w =>
        if exist table then
          (.ok (Paging.page (fun item => order.rank item.key) (itemsIn table w) start
            (c.pageSize + 1) c.more), w)
        else (.error resourceNotFound, w)
    | .batchWriteItem table items, c, w =>
        if exist table = false then (.error resourceNotFound, w)
        else if items.length ≤ 25 ∧ (items.map StoredItem.key).Nodup then
          (.ok (items.filter fun item => !c.processes items item),
            writeAll table (items.filter (c.processes items)) w)
        else (.error (.clientError "ValidationException"), w)

/-! ## The script -/

section Script
variable (order : ScanOrder)

/-- A program that is cut off, with `none`, when it runs out of fuel in a loop. -/
abbrev Script (α : Type) := Program (tableOps order) α

/-- `scan_all`, from a key on, with the items found before. -/
def scanAll (table : String) :
    Nat → Option order.Rank → List StoredItem → Script order (Option (List StoredItem))
  | 0, _, _ => pure none
  | fuel + 1, exclusiveStartKey, items => do
      let (page, lastKey) ← .perform (tableOps order) (.scan table exclusiveStartKey)
      let items := items ++ page
      if lastKey.isNone then pure (some items)
      else scanAll table fuel lastKey items

/-- A batch of the buffer is sent; what the store has not processed is put back. -/
def flush (table : String) (buffer : List StoredItem) : Script order (List StoredItem) := do
  let unprocessed ← .perform (tableOps order) (.batchWriteItem table (buffer.take 25))
  pure (buffer.drop 25 ++ unprocessed)

/-- `batch.put_item`. -/
def putItem (table : String) (buffer : List StoredItem) (item : StoredItem) :
    Script order (List StoredItem) :=
  let buffer := BatchWrites.enqueue StoredItem.key buffer item
  if 25 ≤ buffer.length then flush order table buffer else pure buffer

/-- The end of the `with` block: the buffer is sent. -/
def flushAll (table : String) : Nat → List StoredItem → Script order (Option Unit)
  | _, [] => pure (some ())
  | 0, _ :: _ => pure none
  | fuel + 1, buffer => do
      let buffer ← flush order table buffer
      flushAll table fuel buffer

/-- The items of one table are put into its batch writer; `copied` counts them. -/
def copyInto (table : String) (fuel : Nat) :
    List StoredItem → List StoredItem → Nat → Script order (Option Nat)
  | [], buffer, copied => do
      let done ← flushAll order table fuel buffer
      pure (done.map fun _ => copied)
  | item :: items, buffer, copied => do
      let buffer ← putItem order table buffer item
      copyInto table fuel items buffer (copied + 1)

/-- The loop over the tables. -/
def copyAll (fuel : Nat) : List (String × List StoredItem) → Nat → Script order (Option Nat)
  | [], copied => pure (some copied)
  | (table, items) :: grouped, copied => do
      match ← copyInto order table fuel items [] copied with
      | some copied => copyAll fuel grouped copied
      | none => pure none

/-- What the loop over the items does with one: it is skipped, or grouped with a version. -/
def groupItem (rt : Runtime) (acc : List (String × List StoredItem) × Nat) (item : StoredItem) :
    List (String × List StoredItem) × Nat :=
  match targetTable rt item.fields with
  | none => (acc.1, acc.2 + 1)
  | some target => (appendTo target { item with fields := setVersion item.fields } acc.1, acc.2)

/-- What `main` prints. -/
inductive Printed where
  | sourceMissing (source : String)
  | counts (copied skipped : Nat)
deriving DecidableEq

/-- `main`. -/
def main (rt : Runtime) (source : String) (fuel : Nat) : Script order (Option Printed) := do
  let items ←
    try
      some <$> scanAll order source fuel none []
    catch error =>
      if error = resourceNotFound then pure none else throw error
  match items with
  | none => pure (some (.sourceMissing source))
  | some none => pure none
  | some (some items) =>
      let (grouped, skipped) := items.foldl (groupItem rt) ([], 0)
      let copied ← copyAll order fuel grouped 0
      pure (copied.map fun copied => .counts copied skipped)

end Script

/-! ## What the tables hold -/

/-- The item at each address. -/
def tablesOf (w : Tables) : Address → Option Fields := fun address => w.lookup address

/-- The tables after the migration: an item of the source is in the table of its type, with a
version, and nothing else is different. -/
def migrated (rt : Runtime) (source : String) (t : Address → Option Fields) :
    Address → Option Fields := fun address =>
  match t ⟨source, address.pk, address.sk⟩ with
  | some fields =>
      if targetTable rt fields = some address.table then some (setVersion fields) else t address
  | none => t address

section Items
variable {table : String} {w : Tables}

theorem setVersion_version (fields : Fields) :
    setVersion fields "version" = some ((fields "version").getD (.int 1)) := rfl

theorem setVersion_other (fields : Fields) {name : String} (h : name ≠ "version") :
    setVersion fields name = fields name := if_neg h

theorem setVersion_setVersion (fields : Fields) :
    setVersion (setVersion fields) = setVersion fields := by
  funext name
  by_cases hname : name = "version"
  · rw [hname]
    rfl
  · rw [setVersion_other _ hname]

theorem targetTable_setVersion (rt : Runtime) (fields : Fields) :
    targetTable rt (setVersion fields) = targetTable rt fields := by
  unfold targetTable
  rw [setVersion_other _ (by decide)]

/-- **Migrating twice.** -/
theorem migrated_migrated (rt : Runtime) (source : String) (t : Address → Option Fields) :
    migrated rt source (migrated rt source t) = migrated rt source t := by
  funext address
  unfold migrated
  dsimp only
  cases hsource : t ⟨source, address.pk, address.sk⟩ with
  | none => rfl
  | some fields =>
    dsimp only
    by_cases hself : targetTable rt fields = some source
    · -- the item is in the table of its type already, and has a version after the first run
      rw [if_pos hself]
      dsimp only
      rw [targetTable_setVersion, setVersion_setVersion]
      split
      · rfl
      · rfl
    · rw [if_neg hself]
      dsimp only
      split
      · rfl
      · rfl

theorem mem_itemsIn {item : StoredItem} :
    item ∈ itemsIn table w ↔ tablesOf w (item.address table) = some item.fields := by
  unfold itemsIn tablesOf StoredItem.address
  rw [List.mem_map]
  constructor
  · rintro ⟨⟨address, fields⟩, hmem, rfl⟩
    obtain ⟨hentry, htable⟩ := List.mem_filter.mp hmem
    obtain rfl := of_decide_eq_true htable
    exact AList.mem_lookup_iff.mpr hentry
  · intro h
    refine ⟨⟨⟨table, item.pk, item.sk⟩, item.fields⟩, List.mem_filter.mpr ⟨?_, ?_⟩, rfl⟩
    · exact AList.mem_lookup_iff.mp h
    · exact decide_eq_true rfl

/-- A table has one item for each key. -/
theorem nodup_key_itemsIn : ((itemsIn table w).map StoredItem.key).Nodup := by
  have hkeys : ((w.entries.filter fun e => e.1.table = table).map Sigma.fst).Nodup :=
    List.Nodup.sublist (List.filter_sublist.map Sigma.fst) w.nodupKeys
  unfold itemsIn
  rw [List.map_map]
  refine List.Nodup.map_on (fun e he e' he' hkey => ?_) (.of_map _ hkeys)
  have htable : e.1.table = table := of_decide_eq_true (List.mem_filter.mp he).2
  have htable' : e'.1.table = table := of_decide_eq_true (List.mem_filter.mp he').2
  refine List.inj_on_of_nodup_map hkeys he he' ?_
  obtain ⟨hpk, hsk⟩ := Prod.mk.inj hkey
  show (⟨e.1.table, e.1.pk, e.1.sk⟩ : Address) = ⟨e'.1.table, e'.1.pk, e'.1.sk⟩
  rw [htable, htable']
  exact congrArg₂ (Address.mk table) hpk hsk

theorem address_eq_iff {x y : StoredItem} : x.address table = y.address table ↔ x.key = y.key := by
  simp [StoredItem.address, StoredItem.key]

theorem nodup_address {items : List StoredItem} (h : (items.map StoredItem.key).Nodup) :
    (items.map (StoredItem.address table)).Nodup := by
  refine List.Nodup.map_on (fun x hx y hy hxy => ?_) (.of_map _ h)
  exact List.inj_on_of_nodup_map h hx hy (address_eq_iff.mp hxy)

theorem tablesOf_writeAll (items : List StoredItem) : tablesOf (writeAll table items w) =
    BatchWrites.putAll (StoredItem.address table) StoredItem.fields items (tablesOf w) := by
  induction items generalizing w with
  | nil => rfl
  | cons item items ih =>
    have hinsert : tablesOf (w.insert (item.address table) item.fields) =
        Function.update (tablesOf w) (item.address table) (some item.fields) := by
      funext address
      by_cases haddress : address = item.address table
      · rw [haddress, Function.update_self]
        exact AList.lookup_insert w
      · rw [Function.update_of_ne haddress]
        exact AList.lookup_insert_ne haddress
    rw [BatchWrites.putAll_cons, ← hinsert]
    exact ih

end Items

/-! ## The batch writer -/

section Writer
variable {order : ScanOrder} {exist : String → Bool} {table : String} {buffer : List StoredItem}
  {w : Tables}

/-- What the tables are to be once the buffer is written. -/
abbrev pending (table : String) (buffer : List StoredItem) (w : Tables) : Address → Option Fields :=
  BatchWrites.putAll (StoredItem.address table) StoredItem.fields buffer (tablesOf w)

/-- The store processes an item of a batch at least. -/
theorem length_delayed_lt (c : StoreChoice) {items : List StoredItem} (hne : items ≠ []) :
    (items.filter fun item => !c.processes items item).length < items.length := by
  have hpos : 0 < items.length := List.length_pos_iff.mpr hne
  have hlt := Nat.mod_lt c.processed hpos
  rw [List.length_filter_lt_length_iff_exists]
  refine ⟨items[c.processed % items.length], List.getElem_mem hlt, ?_⟩
  unfold StoreChoice.processes
  rw [List.getElem?_eq_getElem hlt]
  simp

/-- A batch of a buffer with distinct keys does not change what is pending, and it fails only where
there is no table. -/
theorem wp_flush (hnodup : (buffer.map StoredItem.key).Nodup) :
    (store order exist).wp (flush order table buffer) (fun out w' =>
      match out with
      | .ok buffer' => (buffer'.map StoredItem.key).Nodup ∧
          pending table buffer' w' = pending table buffer w ∧
            (buffer ≠ [] → buffer'.length < buffer.length)
      | .error _ => exist table = false) w := by
  unfold flush
  refine Machine.wp_bind.mpr (Machine.wp_perform.mpr fun c => ?_)
  by_cases hexist : exist table = false
  · rw [show (store order exist).exec (.batchWriteItem table (buffer.take 25)) c w =
      (.error resourceNotFound, w) from if_pos hexist]
    exact hexist
  · have hbatch : (buffer.take 25).length ≤ 25 ∧
        ((buffer.take 25).map StoredItem.key).Nodup := by
      refine ⟨List.length_take_le .., ?_⟩
      exact hnodup.sublist ((List.take_sublist 25 buffer).map StoredItem.key)
    rw [show (store order exist).exec (.batchWriteItem table (buffer.take 25)) c w =
      (.ok ((buffer.take 25).filter fun item => !c.processes (buffer.take 25) item),
        writeAll table ((buffer.take 25).filter (c.processes (buffer.take 25))) w) from
      (if_neg hexist).trans (if_pos hbatch)]
    have hperm := List.filter_append_perm (c.processes (buffer.take 25)) (buffer.take 25)
    refine ⟨BatchWrites.nodup_flush hnodup hperm, ?_, fun hne => ?_⟩
    · rw [pending, tablesOf_writeAll]
      exact BatchWrites.putAll_flush (nodup_address hnodup) hperm
    · have htake : buffer.take 25 ≠ [] := by simpa using hne
      have hless := length_delayed_lt c htake
      have hlength : (buffer.take 25).length + (buffer.drop 25).length = buffer.length := by
        rw [← List.length_append, List.take_append_drop]
      rw [List.length_append]
      omega

/-- An item that is put is pending in the place of the one with its key. -/
theorem wp_putItem (hnodup : (buffer.map StoredItem.key).Nodup) (item : StoredItem) :
    (store order exist).wp (putItem order table buffer item) (fun out w' =>
      match out with
      | .ok buffer' => (buffer'.map StoredItem.key).Nodup ∧
          pending table buffer' w' = Function.update (pending table buffer w)
            (item.address table) (some item.fields) ∧ buffer'.length ≤ buffer.length + 1
      | .error _ => exist table = false) w := by
  have hqueued : ((BatchWrites.enqueue StoredItem.key buffer item).map StoredItem.key).Nodup :=
    BatchWrites.nodup_enqueue hnodup item
  have hpending : pending table (BatchWrites.enqueue StoredItem.key buffer item) w =
      Function.update (pending table buffer w) (item.address table) (some item.fields) := by
    have hsame : BatchWrites.enqueue StoredItem.key buffer item =
        BatchWrites.enqueue (StoredItem.address table) buffer item := by
      unfold BatchWrites.enqueue
      simp only [ne_eq, address_eq_iff]
    rw [hsame]
    exact BatchWrites.putAll_enqueue item
  have hlength : (BatchWrites.enqueue StoredItem.key buffer item).length ≤ buffer.length + 1 :=
    BatchWrites.length_enqueue_le item
  unfold putItem
  dsimp only
  split
  · refine Machine.wp_mono (wp_flush hqueued) fun out w' hout => ?_
    cases out with
    | error e => exact hout
    | ok buffer' =>
      obtain ⟨hnodup', hsame, hless⟩ := hout
      refine ⟨hnodup', hsame.trans hpending, ?_⟩
      by_cases hnil : BatchWrites.enqueue StoredItem.key buffer item = []
      · simp [BatchWrites.enqueue] at hnil
      · exact Nat.le_trans (Nat.le_of_lt (hless hnil)) hlength
  · exact ⟨hqueued, hpending, hlength⟩

/-- The end of the block writes what is pending, with as much fuel as there are items. -/
theorem wp_flushAll {fuel : Nat} (hnodup : (buffer.map StoredItem.key).Nodup) :
    (store order exist).wp (flushAll order table fuel buffer) (fun out w' =>
      match out with
      | .ok (some _) => tablesOf w' = pending table buffer w
      | .ok none => fuel < buffer.length
      | .error _ => exist table = false ∧ buffer ≠ []) w := by
  induction fuel generalizing buffer w with
  | zero =>
    cases buffer with
    | nil => exact rfl
    | cons item buffer => exact Nat.zero_lt_succ _
  | succ fuel ih =>
    cases buffer with
    | nil => exact rfl
    | cons item buffer =>
      refine Machine.wp_bind.mpr (Machine.wp_mono (wp_flush hnodup) fun out w₁ hout => ?_)
      cases out with
      | error e => exact ⟨hout, List.cons_ne_nil item buffer⟩
      | ok buffer' =>
        obtain ⟨hnodup', hpending, hless⟩ := hout
        refine Machine.wp_mono (ih hnodup') fun out w' hout => ?_
        match out with
        | .error e => exact ⟨hout.1, List.cons_ne_nil item buffer⟩
        | .ok (some _) => exact hout.trans hpending
        | .ok none =>
          have hlt := hless (List.cons_ne_nil item buffer)
          exact Nat.lt_of_lt_of_le (Nat.succ_lt_succ hout) hlt

/-- The items of a table are counted and written, after those in the buffer. -/
theorem wp_copyInto {fuel : Nat} (items : List StoredItem) {copied : Nat}
    (hnodup : (buffer.map StoredItem.key).Nodup) :
    (store order exist).wp (copyInto order table fuel items buffer copied) (fun out w' =>
      match out with
      | .ok (some copied') => copied' = copied + items.length ∧ tablesOf w' =
          BatchWrites.putAll (StoredItem.address table) StoredItem.fields items
            (pending table buffer w)
      | .ok none => fuel < buffer.length + items.length
      | .error _ => exist table = false ∧ (buffer ≠ [] ∨ items ≠ [])) w := by
  induction items generalizing buffer copied w with
  | nil =>
    refine Machine.wp_bind.mpr (Machine.wp_mono (wp_flushAll hnodup) fun out w' hout => ?_)
    match out with
    | .error e => exact ⟨hout.1, .inl hout.2⟩
    | .ok (some _) => exact ⟨rfl, hout⟩
    | .ok none => exact hout
  | cons item items ih =>
    refine Machine.wp_bind.mpr (Machine.wp_mono (wp_putItem hnodup item) fun out w₁ hout => ?_)
    cases out with
    | error e => exact ⟨hout, .inr (List.cons_ne_nil item items)⟩
    | ok buffer' =>
      obtain ⟨hnodup', hpending, hlength⟩ := hout
      refine Machine.wp_mono (ih hnodup') fun out w' hout => ?_
      match out with
      | .error e => exact ⟨hout.1, .inr (List.cons_ne_nil item items)⟩
      | .ok (some copied') =>
        obtain ⟨hcount, htables⟩ := hout
        refine ⟨?_, ?_⟩
        · rw [hcount, List.length_cons]
          omega
        · rw [htables, hpending]
          rfl
      | .ok none =>
        have hfuel : fuel < buffer'.length + items.length := hout
        show fuel < buffer.length + (items.length + 1)
        omega

/-! ## The groups -/

/-- The writes of all groups. -/
def writes (grouped : List (String × List StoredItem)) : List (String × StoredItem) :=
  grouped.flatMap fun group => group.2.map fun item => (group.1, item)

/-- The write of an item of the source, if its type is known. -/
def write? (rt : Runtime) (item : StoredItem) : Option (String × StoredItem) :=
  (targetTable rt item.fields).map fun target =>
    (target, { item with fields := setVersion item.fields })

/-- Where a write goes. -/
def addressOf (write : String × StoredItem) : Address := write.2.address write.1

theorem writes_cons (table : String) (items : List StoredItem)
    (grouped : List (String × List StoredItem)) : writes ((table, items) :: grouped) =
      items.map (fun item => (table, item)) ++ writes grouped :=
  List.flatMap_cons

/-- The tables are written one after another. -/
theorem wp_copyAll {fuel : Nat} (grouped : List (String × List StoredItem)) {copied : Nat} :
    (store order exist).wp (copyAll order fuel grouped copied) (fun out w' =>
      match out with
      | .ok (some copied') => copied' = copied + (writes grouped).length ∧ tablesOf w' =
          BatchWrites.putAll addressOf (fun write => write.2.fields) (writes grouped) (tablesOf w)
      | .ok none => fuel < (writes grouped).length
      | .error _ => ∃ write ∈ writes grouped, exist write.1 = false) w := by
  induction grouped generalizing copied w with
  | nil => exact ⟨rfl, rfl⟩
  | cons group grouped ih =>
    obtain ⟨table, items⟩ := group
    have hgroup : ∀ t, BatchWrites.putAll (StoredItem.address table) StoredItem.fields items t =
        BatchWrites.putAll addressOf (fun write => write.2.fields)
          (items.map fun item => (table, item)) t := by
      intro t
      rw [BatchWrites.putAll_map]
      rfl
    refine Machine.wp_bind.mpr (Machine.wp_mono (wp_copyInto items List.nodup_nil)
      fun out w₁ hout => ?_)
    match out with
    | .error e =>
      obtain ⟨hexist, hnil | hne⟩ := hout
      · exact absurd rfl hnil
      · obtain ⟨item, hitem⟩ := List.exists_mem_of_ne_nil items hne
        refine ⟨(table, item), ?_, hexist⟩
        rw [writes_cons]
        exact List.mem_append_left _ (List.mem_map_of_mem hitem)
    | .ok none =>
      have hfuel : fuel < 0 + items.length := hout
      show fuel < (writes ((table, items) :: grouped)).length
      rw [writes_cons, List.length_append, List.length_map]
      omega
    | .ok (some copied₁) =>
      obtain ⟨hcount₁, htables₁⟩ := hout
      refine Machine.wp_mono ih fun out w' hout => ?_
      match out with
      | .error e =>
        obtain ⟨write, hwrite, hexist⟩ := hout
        refine ⟨write, ?_, hexist⟩
        rw [writes_cons]
        exact List.mem_append_right _ hwrite
      | .ok none =>
        have hfuel : fuel < (writes grouped).length := hout
        show fuel < (writes ((table, items) :: grouped)).length
        rw [writes_cons, List.length_append]
        omega
      | .ok (some copied') =>
        obtain ⟨hcount, htables⟩ := hout
        refine ⟨?_, ?_⟩
        · rw [hcount, hcount₁, writes_cons, List.length_append, List.length_map]
          omega
        · rw [htables, htables₁, hgroup, writes_cons, BatchWrites.putAll_append]
          rfl

end Writer

section Grouping
variable {rt : Runtime} {source : String} {w : Tables}

theorem writes_appendTo (target : String) (item : StoredItem)
    (grouped : List (String × List StoredItem)) :
    (writes (appendTo target item grouped)).Perm ((target, item) :: writes grouped) := by
  induction grouped with
  | nil => exact .refl _
  | cons group grouped ih =>
    obtain ⟨name, items⟩ := group
    unfold appendTo
    by_cases hname : name = target
    · rw [if_pos hname, writes_cons, writes_cons, List.map_append, hname, List.append_assoc]
      exact List.perm_middle
    · rw [if_neg hname, writes_cons, writes_cons]
      exact (ih.append_left _).trans List.perm_middle

/-- An item of the prototype's table, with the text of its time and its data as JSON. -/
def ofSource {D : Type} (isoformat : Nat → String) (dump : D → Json) (item : SourceItem D) :
    StoredItem where
  pk := item.pk
  sk := item.sk
  fields name := ([("version", item.version.map .int),
    ("entity_type", some (.text item.attributes.entityType)),
    ("entity_id", some (.text item.attributes.entityId)),
    ("updated_at", some (.text (isoformat item.attributes.updatedAt))),
    ("data", some (dump item.attributes.data))].lookup name).join

section Source
variable {D : Type} {isoformat : Nat → String} {dump : D → Json}

/-- An item without a version is given the same one. -/
theorem ofSource_setDefault (item : SourceItem D) : ofSource isoformat dump item.setDefault =
    { ofSource isoformat dump item with
      fields := setVersion (ofSource isoformat dump item).fields } := by
  unfold ofSource SourceItem.setDefault setVersion
  congr 1
  funext name
  by_cases hname : name = "version"
  · subst hname
    cases item.version <;> rfl
  · simp [List.lookup_cons, hname, beq_eq_false_iff_ne.mpr hname]

/-- It belongs to the same table. -/
theorem targetTable_ofSource (item : SourceItem D) :
    targetTable rt (ofSource isoformat dump item).fields =
      entityTables.lookup item.attributes.entityType := rfl

theorem map_appendTo {α β : Type} (f : α → β) (target : String) (item : α)
    (grouped : List (String × List α)) :
    (appendTo target item grouped).map (Prod.map id (List.map f)) =
      appendTo target (f item) (grouped.map (Prod.map id (List.map f))) := by
  induction grouped with
  | nil => rfl
  | cons group grouped ih =>
    obtain ⟨name, items⟩ := group
    unfold appendTo
    by_cases hname : name = target
    · simp [hname]
    · simp [hname, ih]

/-- **The same groups.**  What `main` groups of these items is what `migrate` does. -/
theorem grouped_eq (items : List (SourceItem D)) :
    ((items.map (ofSource isoformat dump)).foldl (groupItem rt) ([], 0)).1 =
      (groupItems items).map (Prod.map id (List.map (ofSource isoformat dump))) := by
  induction items using List.reverseRecOn with
  | nil => rfl
  | append_singleton items item ih =>
    rw [List.map_append, List.map_singleton, List.foldl_append, List.foldl_cons, List.foldl_nil,
      groupItems, List.foldl_append, ← groupItems, List.foldl_cons, List.foldl_nil]
    generalize (items.map (ofSource isoformat dump)).foldl (groupItem rt) ([], 0) = acc at ih ⊢
    unfold groupItem
    rw [targetTable_ofSource]
    cases entityTables.lookup item.attributes.entityType with
    | none => exact ih
    | some target =>
      dsimp only
      rw [map_appendTo, ofSource_setDefault, ih]

end Source

/-- The groups have the writes of all items whose type is known, and the others are counted. -/
theorem writes_groupItem (items : List StoredItem) :
    (writes (items.foldl (groupItem rt) ([], 0)).1).Perm (items.filterMap (write? rt)) ∧
      (items.foldl (groupItem rt) ([], 0)).2 +
        (writes (items.foldl (groupItem rt) ([], 0)).1).length = items.length := by
  induction items using List.reverseRecOn with
  | nil => exact ⟨.refl _, rfl⟩
  | append_singleton items item ih =>
    obtain ⟨hperm, hcount⟩ := ih
    rw [List.foldl_append, List.foldl_cons, List.foldl_nil, List.filterMap_append,
      List.length_append, List.length_singleton]
    generalize items.foldl (groupItem rt) ([], 0) = acc at hperm hcount ⊢
    unfold groupItem
    cases htarget : targetTable rt item.fields with
    | none =>
      have hwrite : write? rt item = none := by
        unfold write?
        rw [htarget]
        rfl
      rw [List.filterMap_cons_none hwrite, List.filterMap_nil, List.append_nil]
      refine ⟨hperm, ?_⟩
      dsimp only
      omega
    | some target =>
      have hwrite : write? rt item =
          some (target, { item with fields := setVersion item.fields }) := by
        unfold write?
        rw [htarget]
        rfl
      rw [List.filterMap_cons_some hwrite, List.filterMap_nil]
      have happend := writes_appendTo target { item with fields := setVersion item.fields } acc.1
      refine ⟨happend.trans ?_, ?_⟩
      · exact (hperm.cons _).trans (List.perm_append_singleton _ _).symm
      · have hlength := happend.length_eq
        rw [List.length_cons] at hlength
        dsimp only
        omega

/-- The writes of the items of a table are of keys that differ. -/
theorem nodup_writes :
    (((itemsIn source w).filterMap (write? rt)).map addressOf).Nodup := by
  have hkeys : ∀ items : List StoredItem,
      ((items.filterMap (write? rt)).map fun write => write.2.key).Sublist
        (items.map StoredItem.key) := by
    intro items
    induction items with
    | nil => exact .slnil
    | cons item items ih =>
      cases hwrite : write? rt item with
      | none =>
        rw [List.filterMap_cons_none hwrite]
        exact ih.cons _
      | some write =>
        have hkey : write.2.key = item.key := by
          obtain ⟨target, -, rfl⟩ := Option.map_eq_some_iff.mp hwrite
          rfl
        rw [List.filterMap_cons_some hwrite, List.map_cons, List.map_cons, hkey]
        exact ih.cons_cons _
  have hnodup := (hkeys (itemsIn source w)).nodup nodup_key_itemsIn
  refine List.Nodup.of_map (fun address : Address => (address.pk, address.sk)) ?_
  rw [List.map_map]
  exact hnodup

/-- An address is written if the source has an item of its key and table. -/
theorem mem_writes {address : Address} :
    address ∈ ((itemsIn source w).filterMap (write? rt)).map addressOf ↔
      ∃ fields, tablesOf w ⟨source, address.pk, address.sk⟩ = some fields ∧
        targetTable rt fields = some address.table := by
  rw [List.mem_map]
  constructor
  · rintro ⟨write, hwrite, rfl⟩
    obtain ⟨item, hitem, hsome⟩ := List.mem_filterMap.mp hwrite
    obtain ⟨target, htarget, rfl⟩ := Option.map_eq_some_iff.mp hsome
    exact ⟨item.fields, mem_itemsIn.mp hitem, htarget⟩
  · rintro ⟨fields, hfields, htarget⟩
    refine ⟨(address.table, ⟨address.pk, address.sk, setVersion fields⟩),
      List.mem_filterMap.mpr ⟨⟨address.pk, address.sk, fields⟩, mem_itemsIn.mpr hfields, ?_⟩, rfl⟩
    unfold write?
    rw [htarget]
    rfl

/-- **The writes make the migration.**  In whatever order the items of the source are written. -/
theorem putAll_writes {found : List StoredItem} {ws : List (String × StoredItem)}
    (hfound : found.Perm (itemsIn source w)) (hws : ws.Perm (found.filterMap (write? rt))) :
    BatchWrites.putAll addressOf (fun write => write.2.fields) ws (tablesOf w) =
      migrated rt source (tablesOf w) := by
  have hall : ((itemsIn source w).filterMap (write? rt)).Perm ws :=
    (hws.trans (hfound.filterMap (write? rt))).symm
  rw [← BatchWrites.putAll_perm nodup_writes hall]
  funext address
  unfold migrated
  by_cases hwritten : address ∈ ((itemsIn source w).filterMap (write? rt)).map addressOf
  · obtain ⟨fields, hfields, htarget⟩ := mem_writes.mp hwritten
    rw [hfields]
    dsimp only
    rw [if_pos htarget]
    have hitem : (⟨address.pk, address.sk, fields⟩ : StoredItem) ∈ itemsIn source w :=
      mem_itemsIn.mpr hfields
    have hwrite : (address.table, (⟨address.pk, address.sk, setVersion fields⟩ : StoredItem)) ∈
        (itemsIn source w).filterMap (write? rt) := by
      refine List.mem_filterMap.mpr ⟨_, hitem, ?_⟩
      unfold write?
      rw [htarget]
      rfl
    exact @BatchWrites.putAll_of_mem _ _ _ _ addressOf (fun write => write.2.fields) _ _
      nodup_writes _ hwrite
  · rw [BatchWrites.putAll_of_not_mem hwritten]
    rw [mem_writes] at hwritten
    split
    · rename_i fields hfields
      rw [if_neg fun htarget => hwritten ⟨fields, hfields, htarget⟩]
    · rfl

end Grouping

/-! ## A run -/

section Run
variable {order : ScanOrder} {exist : String → Bool} {rt : Runtime} {source : String} {fuel : Nat}
  {w w' : Tables}

/-- Where an item comes in a scan. -/
def positionOf (order : ScanOrder) (item : StoredItem) : order.Rank := order.rank item.key

theorem nodup_positionOf {table : String} :
    ((itemsIn table w).map (positionOf order)).Nodup := by
  have hkeys := (@nodup_key_itemsIn table w).map order.injective
  rwa [List.map_map] at hkeys

/-- The scan finds what is ahead of its key, in any pages, if its table exists. -/
theorem wp_scanAll {start : Option order.Rank} {items : List StoredItem} :
    (store order exist).wp (scanAll order source fuel start items) (fun out w' =>
      w' = w ∧ match out with
      | .ok (some found) => exist source = true ∧ found =
          items ++ Paging.rest (positionOf order) (itemsIn source w) (.behind start)
      | .ok none =>
          fuel ≤ (Paging.rest (positionOf order) (itemsIn source w) (.behind start)).length
      | .error e => exist source = false ∧ e = resourceNotFound) w := by
  induction fuel generalizing start items with
  | zero => exact ⟨rfl, Nat.zero_le _⟩
  | succ fuel ih =>
    unfold scanAll
    refine Machine.wp_bind.mpr (Machine.wp_perform.mpr fun c => ?_)
    by_cases hexist : exist source = true
    · rw [show (store order exist).exec (.scan source start) c w = (.ok (Paging.page
        (positionOf order) (itemsIn source w) start (c.pageSize + 1) c.more), w) from
          if_pos hexist]
      have hpos := @nodup_positionOf order w source
      have hn : 0 < c.pageSize + 1 := Nat.succ_pos _
      have hsplit := Paging.page_append_rest hpos hn start c.more
      have hless : ∀ {q}, (Paging.page (positionOf order) (itemsIn source w) start
          (c.pageSize + 1) c.more).2 = some q → _ := Paging.length_rest_lt hpos hn
      generalize Paging.page (positionOf order) (itemsIn source w) start (c.pageSize + 1) c.more =
        page at hsplit hless
      obtain ⟨page, lastKey⟩ := page
      cases lastKey with
      | none =>
        refine ⟨rfl, hexist, ?_⟩
        rw [← hsplit, Paging.Cursor.upTo_none, Paging.rest_finished, List.append_nil]
      | some q =>
        refine Machine.wp_mono ih fun out w' hout => ?_
        refine ⟨hout.1, ?_⟩
        match out with
        | .error e => exact hout.2
        | .ok none =>
          exact Nat.lt_of_le_of_lt hout.2 (hless rfl)
        | .ok (some found) =>
          refine ⟨hexist, ?_⟩
          rw [hout.2.2, ← hsplit, List.append_assoc]
          rfl
    · rw [show (store order exist).exec (.scan source start) c w = (.error resourceNotFound, w) from
        if_neg hexist]
      exact ⟨rfl, Bool.eq_false_iff.mpr hexist, rfl⟩

/-- **What `main` does.**  Run alone, it prints counts that add up to the number of items of the
source, and the tables are migrated; it ends if there is fuel for the loops and the tables it writes
to exist. -/
theorem wp_main : (store order exist).wp (main order rt source fuel) (fun out w' =>
    match out with
    | .ok (some (.sourceMissing _)) => exist source = false ∧ w' = w
    | .ok (some (.counts copied skipped)) => exist source = true ∧
        copied + skipped = (itemsIn source w).length ∧
          tablesOf w' = migrated rt source (tablesOf w)
    | .ok none => fuel ≤ (itemsIn source w).length
    | .error _ => ∃ item ∈ itemsIn source w, ∃ target,
        targetTable rt item.fields = some target ∧ exist target = false) w := by
  unfold main
  refine Machine.wp_bind.mpr (Machine.wp_tryCatch.mpr ?_)
  refine Machine.wp_bind.mpr (Machine.wp_mono wp_scanAll fun out w₁ hout => ?_)
  obtain ⟨rfl, hout⟩ := hout
  have hperm : (Paging.rest (positionOf order) (itemsIn source w₁) .start).Perm
      (itemsIn source w₁) := Paging.rest_start_perm
  match out with
  | .error e =>
    obtain ⟨hexist, rfl⟩ := hout
    exact ⟨hexist, rfl⟩
  | .ok none =>
    have hfuel : fuel ≤ (Paging.rest (positionOf order) (itemsIn source w₁) .start).length := hout
    show fuel ≤ _
    rwa [hperm.length_eq] at hfuel
  | .ok (some found) =>
    obtain ⟨hexist, hfound⟩ := hout
    have hitems : found.Perm (itemsIn source w₁) := by
      rw [hfound, List.nil_append]
      exact hperm
    obtain ⟨hwrites, hcount⟩ := @writes_groupItem rt found
    have hlength := hitems.length_eq
    refine Machine.wp_bind.mpr (Machine.wp_mono (wp_copyAll _) fun out w' hout => ?_)
    match out with
    | .error e =>
      obtain ⟨write, hwrite, hmissing⟩ := hout
      obtain ⟨item, hitem, hsome⟩ := List.mem_filterMap.mp (hwrites.mem_iff.mp hwrite)
      obtain ⟨target, htarget, rfl⟩ := Option.map_eq_some_iff.mp hsome
      exact ⟨item, hitems.mem_iff.mp hitem, target, htarget, hmissing⟩
    | .ok none =>
      have hfuel : fuel < _ := hout
      show fuel ≤ (itemsIn source w₁).length
      omega
    | .ok (some copied) =>
      obtain ⟨hcopied, htables⟩ := hout
      refine ⟨hexist, ?_, htables.trans (putAll_writes hitems hwrites)⟩
      omega

/-- Everything is copied, once: each item of a known type is in the table of its type, with its
attributes and a version; whatever is not written over stays; the counts that are printed add up;
and another run changes nothing. -/
structure CopiesEverythingOnce (order : ScanOrder) (exist : String → Bool) (rt : Runtime)
    (source : String) (w : Tables) (printed : Printed) (w' : Tables) : Prop where
  copied : ∀ item ∈ itemsIn source w, ∀ target, targetTable rt item.fields = some target →
    ∃ fields, tablesOf w' (item.address target) = some fields ∧
      fields "version" = some ((item.fields "version").getD (.int 1)) ∧
        ∀ name, name ≠ "version" → fields name = item.fields name
  unchanged : ∀ address, (∀ item ∈ itemsIn source w, ∀ target,
    targetTable rt item.fields = some target → item.address target ≠ address) →
      tablesOf w' address = tablesOf w address
  counted : ∃ copied skipped, printed = .counts copied skipped ∧
    copied + skipped = (itemsIn source w).length
  again : ∀ fuel printed' w'', (store order exist).Ends (main order rt source fuel) w'
    (.ok (some printed')) w'' → tablesOf w'' = tablesOf w'

/-- Run alone, with enough fuel for its loops, `main` ends if the tables it writes to exist. -/
theorem main_returns (hsource : exist source = true) (hfuel : (itemsIn source w).length < fuel)
    (htargets : ∀ item ∈ itemsIn source w, ∀ target, targetTable rt item.fields = some target →
      exist target = true) {out : Except Exc (Option Printed)}
    (hend : (store order exist).Ends (main order rt source fuel) w out w') :
    ∃ copied skipped, out = .ok (some (.counts copied skipped)) := by
  have hout := hend.of_wp wp_main
  match out with
  | .error e =>
    obtain ⟨item, hitem, target, htarget, hmissing⟩ := hout
    rw [htargets item hitem target htarget] at hmissing
    cases hmissing
  | .ok none =>
    have hcut : fuel ≤ _ := hout
    omega
  | .ok (some (.sourceMissing _)) =>
    rw [hsource] at hout
    cases hout.1
  | .ok (some (.counts copied skipped)) => exact ⟨copied, skipped, rfl⟩

/-- A run that ends where there is a source has migrated the tables. -/
theorem tablesOf_main {printed : Printed} (hsource : exist source = true)
    (hend : (store order exist).Ends (main order rt source fuel) w (.ok (some printed)) w') :
    tablesOf w' = migrated rt source (tablesOf w) ∧ ∃ copied skipped,
      printed = .counts copied skipped ∧ copied + skipped = (itemsIn source w).length := by
  have hout := hend.of_wp wp_main
  cases printed with
  | sourceMissing name =>
    rw [hsource] at hout
    cases hout.1
  | counts copied skipped => exact ⟨hout.2.2, copied, skipped, rfl, hout.2.1⟩

/-- **The migration.**  Whatever is in the tables, and however the store splits its scans and
processes its batches, a run of `main` that nothing else interferes with copies everything once. -/
theorem copiesEverythingOnce {printed : Printed} (hsource : exist source = true)
    (hend : (store order exist).Ends (main order rt source fuel) w (.ok (some printed)) w') :
    CopiesEverythingOnce order exist rt source w printed w' := by
  obtain ⟨htables, hcounts⟩ := tablesOf_main hsource hend
  refine ⟨fun item hitem target htarget => ?_, fun address hnot => ?_, hcounts,
    fun fuel' printed' w'' hagain => ?_⟩
  · refine ⟨setVersion item.fields, ?_, setVersion_version _, fun name => setVersion_other _⟩
    have hstored : tablesOf w ⟨source, item.pk, item.sk⟩ = some item.fields :=
      mem_itemsIn.mp hitem
    rw [htables, migrated]
    dsimp only [StoredItem.address]
    rw [hstored]
    exact if_pos htarget
  · rw [htables, migrated]
    split
    · rename_i fields hfields
      refine if_neg fun htarget => ?_
      exact hnot ⟨address.pk, address.sk, fields⟩ (mem_itemsIn.mpr hfields) address.table htarget
        rfl
    · rfl
  · rw [(tablesOf_main hsource hagain).1, htables, migrated_migrated]

end Run

namespace Sample

/-- A store that scans a table by its keys. -/
def byKey : ScanOrder where
  Rank := String ×ₗ String
  rank := toLex
  injective := toLex.injective

instance : Inhabited StoreChoice := ⟨⟨0, false, fun _ => false, 0⟩⟩

/-- The attributes of an incident without a version. -/
def incidentFields : Fields := fun name =>
  if name = "entity_type" then some (.text "incident") else none

/-- The attributes of an item of no known type. -/
def sessionFields : Fields := fun name =>
  if name = "entity_type" then some (.text "session") else none

/-- The prototype's table has an incident and an item of no known type. -/
def prototypeTables : Tables :=
  ((∅ : Tables).insert ⟨"axsentinel-domain", "INCIDENT#1", "METADATA"⟩ incidentFields).insert
    ⟨"axsentinel-domain", "SESSION#1", "METADATA"⟩ sessionFields

/-- The run of `main` on these tables, one item a page. -/
def migration : Except Exc (Option Printed) × Tables :=
  (store byKey fun _ => true).execute [] (main byKey default "axsentinel-domain" 3) prototypeTables

theorem migration_printed : migration.1 = .ok (some (.counts 1 1)) := by rfl

theorem copiesEverythingOnce_migration : CopiesEverythingOnce byKey (fun _ => true) default
    "axsentinel-domain" prototypeTables (.counts 1 1) migration.2 :=
  copiesEverythingOnce rfl (migration_printed ▸ (store byKey fun _ => true).ends_execute [] _ _)

end Sample

end MigrateDomainTables
end AxSentinel
