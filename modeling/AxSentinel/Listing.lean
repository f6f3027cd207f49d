import AxSentinel.Dynamo
import AxSentinel.Paging
import Mathlib.Data.Prod.Lex
import Mathlib.Data.String.Basic

/-! # Listing page by page

`DynamoRepository.list` reads the index of an entity type page by page, from the latest
`updated_at` to the earliest, while `put` gives the items it writes a new `updated_at`.  So an
entity may move from ahead of the listing to behind it between two pages, and is missed, or back,
and is listed again (`complete_iff`); with writers whose clocks agree, only the first
(`complete_iff_of_stampsLater`).  Left alone, a listing is the atomic one of `Dynamo` in another
order (`listPages_refines_list`). -/
namespace AxSentinel
open Effects

/-! ## The index -/

/-- How the index orders items with one `updated_at`. -/
structure IndexOrder where
  Rank : Type
  [linearOrder : LinearOrder Rank]
  rank : String → Rank
  injective : Function.Injective rank

attribute [instance] IndexOrder.linearOrder

/-- A position in the index of an entity type. -/
abbrev IndexOrder.Position (order : IndexOrder) : Type := ℕ ×ₗ order.Rank

/-- An item of the index. -/
abbrev IndexItem (D : Type) := Key × Attributes D

/-- Where an item is. -/
def IndexOrder.position {D : Type} (order : IndexOrder) (x : IndexItem D) : order.Position :=
  toLex (x.2.updatedAt, order.rank x.1.entityId)

/-- A query of one page. -/
inductive IndexOp (order : IndexOrder) where
  | queryPage (entityType : EntityType) (limit : Nat) (exclusiveStartKey : Option order.Position)

/-- A page, and its `LastEvaluatedKey`. -/
abbrev Page (order : IndexOrder) (D : Type) := List (IndexItem D) × Option order.Position

/-- The operations on a table whose index is read page by page. -/
abbrev indexOps (order : IndexOrder) (D : Type) : Signature Exc := (storeOps D).sum
  { Op := IndexOp order
    Reply := fun _ => Page order D }

variable {D : Type}

/-- What the index has of an entity type. -/
def indexed (entityType : EntityType) (w : Table Key (Attributes D)) : List (IndexItem D) :=
  (w.entries.filter fun e => e.1.entityType = entityType).map fun e => (e.1, e.2.attributes)

/-- The table with its index, which every write changes at once.  The store chooses how many
items a page has, at least one and at most the limit, if as many are left. -/
abbrev indexMachine (order : IndexOrder) (D : Type) : Machine (indexOps order D) where
  World := Table Key (Attributes D)
  Choice := Nat × Bool
  exec
    | .inl op, c, w => (storeMachine D).exec op c.1 w
    | .inr (.queryPage entityType limit start), c, w =>
        (.ok (Paging.page order.position (indexed entityType w) start (min (c.1 + 1) limit) c.2), w)

instance (order : IndexOrder) : TableMachine (indexMachine order D) Key.entityType where
  table w := w
  exec_other _ _ _ := rfl
  exec_get _ _ _ := ⟨rfl, fun _ hr => (Except.ok.inj hr).symm⟩
  exec_query _ _ _ := rfl
  exec_now _ _ := rfl
  exec_put key item cond c w := by
    by_cases hc : cond.Holds (w.lookup key)
    · exact .inr ⟨hc, by simp only [if_pos hc]⟩
    · exact .inl (by simp only [if_neg hc]; exact ⟨trivial, nofun⟩)

instance (order : IndexOrder) : Inhabited (indexMachine order D).Choice := ⟨(0, false)⟩

section Index
variable {order : IndexOrder} {entityType : EntityType} {w : Table Key (Attributes D)}

theorem mem_indexed {x : IndexItem D} : x ∈ indexed entityType w ↔
    x.1.entityType = entityType ∧ ∃ item, w.lookup x.1 = some item ∧ item.attributes = x.2 :=
  mem_filter_entries (p := fun (key : Key) _ => key.entityType = entityType)

/-- An entity is indexed once. -/
theorem nodup_keys_indexed : ((indexed entityType w).map Prod.fst).Nodup :=
  nodup_keys_filter_entries (p := fun (key : Key) _ => key.entityType = entityType)

/-- No two entities have one position. -/
theorem nodup_position_indexed : ((indexed entityType w).map order.position).Nodup := by
  refine List.Nodup.map_on (fun x hx y hy heq => ?_) (.of_map _ nodup_keys_indexed)
  refine List.inj_on_of_nodup_map nodup_keys_indexed hx hy ?_
  have hrank : order.rank x.1.entityId = order.rank y.1.entityId :=
    congrArg (fun p => (ofLex p).2) heq
  have htype : x.1.entityType = y.1.entityType :=
    (mem_indexed.mp hx).1.trans (mem_indexed.mp hy).1.symm
  show (⟨x.1.entityType, x.1.entityId⟩ : Key) = ⟨y.1.entityType, y.1.entityId⟩
  rw [htype, order.injective hrank]

end Index

/-! ## The listing -/

namespace DynamoRepository
variable (order : IndexOrder)

/-- `DynamoRepository.list_page`. -/
def listPage (entityType : EntityType) (limit : Int) (cursor : Option order.Position) :
    Program (indexOps order D) (List D × Option order.Position) := do
  let response ← .perform (indexOps order D)
    (.inr (.queryPage entityType (min (max limit 1) 200).toNat cursor))
  pure (response.1.map fun x => x.2.data, response.2)

/-- The loop of `DynamoRepository.list`; `none` if it is cut off after `fuel` pages. -/
def listPages (entityType : EntityType) :
    Nat → Option order.Position → List D → Program (indexOps order D) (Option (List D))
  | 0, _, _ => pure none
  | fuel + 1, cursor, items => do
      let (page, cursor) ← listPage order entityType 200 cursor
      let items := items ++ page
      if cursor.isNone then
        pure (some items)
      else
        listPages entityType fuel cursor items

end DynamoRepository

/-- What the clients of a table do: they list a type, by a loop of at most `fuel` pages, and put
entities. -/
inductive Access (D : Type) where
  | list (entityType : EntityType) (fuel : Nat)
  | put (entityType : EntityType) (entityId : String) (value : D)
deriving DecidableEq

def Access.code (order : IndexOrder) : Access D → Program (indexOps order D) (Option (List D))
  | list entityType fuel => DynamoRepository.listPages order entityType fuel none []
  | put entityType entityId value => do
      (DynamoRepository.put entityType entityId value).left
      pure none

/-! ## A listing left alone -/

section Alone
variable {order : IndexOrder} {entityType : EntityType}

/-- Left alone, the loop reads what is ahead of its cursor and comes to an end. -/
theorem wp_listPages (w : Table Key (Attributes D)) {fuel : Nat} {cursor : Option order.Position}
    {items : List D} (hfuel : (Paging.rest order.position (indexed entityType w)
      (.behind cursor)).length < fuel) :
    (indexMachine order D).wp (DynamoRepository.listPages order entityType fuel cursor items)
      (fun out w' => out = .ok (some (items ++ (Paging.rest order.position (indexed entityType w)
        (.behind cursor)).map fun x => x.2.data)) ∧ w' = w) w := by
  induction fuel generalizing cursor items with
  | zero => exact absurd hfuel (Nat.not_lt_zero _)
  | succ fuel ih =>
    intro d
    have hpos : ((indexed entityType w).map order.position).Nodup := nodup_position_indexed
    have hn : 0 < min (d.1 + 1) 200 := by omega
    show let page := Paging.page order.position (indexed entityType w) cursor
          (min (d.1 + 1) 200) d.2
      (indexMachine order D).wp (if page.2.isNone then
          .ret (some (items ++ page.1.map fun x => x.2.data))
        else DynamoRepository.listPages order entityType fuel page.2
          (items ++ page.1.map fun x => x.2.data)) _ w
    intro page
    have hsplit : page.1 ++ Paging.rest order.position (indexed entityType w) (.upTo page.2) = _ :=
      Paging.page_append_rest hpos hn cursor d.2
    have hless : ∀ {q}, page.2 = some q → _ := Paging.length_rest_lt hpos hn
    clear_value page
    obtain ⟨found, next⟩ := page
    rw [← hsplit, List.map_append, ← List.append_assoc]
    cases next with
    | none =>
      rw [Paging.Cursor.upTo_none, Paging.rest_finished, List.map_nil, List.append_nil]
      exact ⟨rfl, rfl⟩
    | some q =>
      have hleft : (Paging.rest order.position (indexed entityType w) (.behind (some q))).length <
          _ := hless rfl
      exact ih (Nat.lt_of_lt_of_le hleft (Nat.le_of_lt_succ hfuel))

/-- **A listing left alone** is the atomic listing, in another order. -/
theorem listPages_refines_list {w w' : Table Key (Attributes D)} {fuel : Nat}
    (hfuel : (indexed entityType w).length < fuel) {out : Except Exc (Option (List D))}
    (hend : (indexMachine order D).Ends
      (DynamoRepository.listPages order entityType fuel none []) w out w') :
    ∃ items listed, out = .ok (some items) ∧
      (storeMachine D).Ends (DynamoRepository.list entityType) w (.ok listed) w' ∧
        items.Perm listed := by
  have hperm : (Paging.rest order.position (indexed entityType w) .start).Perm
      (indexed entityType w) := Paging.rest_start_perm
  have hrest : (Paging.rest order.position (indexed entityType w) (.behind none)).length < fuel :=
    hperm.length_eq ▸ hfuel
  obtain ⟨rfl, rfl⟩ := Machine.wp_iff_ends.mp (wp_listPages w hrest) out w' hend
  refine ⟨_, (indexed entityType w').map fun x => x.2.data, rfl, ?_, ?_⟩
  swap
  · rw [List.nil_append]
    exact hperm.map _
  have hlist : (storeMachine D).Ends (DynamoRepository.list entityType) w' _ w' :=
    .call _ _ (0 : Nat) (.ret _ _)
  rw [indexed, List.map_map]
  rwa [List.map_map] at hlist

end Alone

/-! ## What a listing has read -/

section Reading
variable {order : IndexOrder}

/-- The moves an access has behind it. -/
abbrev IndexMoves (order : IndexOrder) (D : Type) := List (Move (indexOps order D))

/-- The page a move read. -/
def pageOf : Move (indexOps order D) → Option (Page order D)
  | ⟨.inr _, .ok page⟩ => some page
  | _ => none

/-- The items of the pages read so far. -/
def listed (past : IndexMoves order D) : List (IndexItem D) :=
  (past.filterMap pageOf).flatMap Prod.fst

/-- How far the pages read so far go. -/
def cursorOf (past : IndexMoves order D) : Paging.Cursor order.Position :=
  match (past.filterMap pageOf).getLast? with
  | none => .start
  | some page => .upTo page.2

@[simp] theorem listed_nil : listed ([] : IndexMoves order D) = [] := rfl

@[simp] theorem cursorOf_nil : cursorOf ([] : IndexMoves order D) = .start := rfl

theorem listed_snoc (past : IndexMoves order D) (op : IndexOp order) (page : Page order D) :
    listed (past ++ [⟨.inr op, .ok page⟩]) = listed past ++ page.1 := by
  simp [listed, pageOf]

theorem cursorOf_snoc (past : IndexMoves order D) (op : IndexOp order) (page : Page order D) :
    cursorOf (past ++ [⟨.inr op, .ok page⟩]) = .upTo page.2 := by
  simp [cursorOf, pageOf]

/-- What a listing may do next: it reads the page from where it is. -/
def Lists (entityType : EntityType) (past : IndexMoves order D) : (indexOps order D).Op → Prop
  | .inr (.queryPage entityType' limit start) =>
      entityType' = entityType ∧ 0 < limit ∧ cursorOf past = .behind start
  | .inl _ => False

/-- What an access may do next. -/
def Access.Does (access : Access D) (past : IndexMoves order D) (op : (indexOps order D).Op) :
    Prop :=
  match access with
  | list entityType _ => Lists entityType past op
  | put .. => True

/-- How a listing ends: it returns what it has read, once it has read the last page. -/
def Access.Returns (access : Access D) (past : IndexMoves order D)
    (out : Except Exc (Option (List D))) : Prop :=
  match access with
  | list .. => ∀ items, out = .ok (some items) →
      items = (listed past).map (fun x => x.2.data) ∧ cursorOf past = .finished
  | put .. => True

theorem lists_listPages (entityType : EntityType) (fuel fuel' : Nat)
    {cursor : Option order.Position} {items : List D} {past : IndexMoves order D}
    (hcursor : cursorOf past = .behind cursor)
    (hitems : items = (listed past).map fun x => x.2.data) :
    (DynamoRepository.listPages order entityType fuel cursor items).Obeys (Lists entityType)
      ((Access.list entityType fuel').Returns) past := by
  induction fuel generalizing cursor items past with
  | zero => nofun
  | succ fuel ih =>
    refine ⟨⟨rfl, by decide, hcursor⟩, fun r => ?_⟩
    cases r with
    | error e => nofun
    | ok page =>
      obtain ⟨found, next⟩ := page
      have hread : items ++ found.map (fun x => x.2.data) =
          (listed (past ++ [⟨.inr (.queryPage entityType 200 cursor), .ok (found, next)⟩])).map
            fun x => x.2.data := by
        rw [listed_snoc, List.map_append, hitems]
      cases next with
      | none =>
        rintro _ ⟨⟩
        exact ⟨hread, cursorOf_snoc ..⟩
      | some p => exact ih (cursorOf_snoc ..) hread

/-- **Every access keeps to its protocol.** -/
theorem Access.does (access : Access D) :
    (access.code order).Obeys access.Does access.Returns [] := by
  cases access with
  | list entityType fuel => exact lists_listPages entityType fuel fuel rfl rfl
  | put entityType entityId value =>
    exact (Program.obeys_true _ _).mono (fun _ _ => id) fun _ _ => id

end Reading

/-! ## Entities on the move -/

section Crossing
variable {order : IndexOrder} {c : Paging.Cursor order.Position} {i : Nat} {key : Key}
  {w : Table Key (Attributes D)}

/-- The entity is stored ahead of the cursor. -/
def Awaits (c : Paging.Cursor order.Position) (key : Key) (w : Table Key (Attributes D)) : Prop :=
  ∃ item ∈ w.lookup key, c.Ahead (order.position (key, item.attributes))

/-- The entity is stored behind the cursor. -/
def LiesBehind (c : Paging.Cursor order.Position) (key : Key) (w : Table Key (Attributes D)) :
    Prop :=
  ∃ item ∈ w.lookup key, ¬ c.Ahead (order.position (key, item.attributes))

instance : Decidable (Awaits c key w) :=
  inferInstanceAs (Decidable (∃ item ∈ w.lookup key, _))

instance : Decidable (LiesBehind c key w) :=
  inferInstanceAs (Decidable (∃ item ∈ w.lookup key, _))

theorem liesBehind_iff (hstored : (w.lookup key).isSome = true) :
    LiesBehind c key w ↔ ¬ Awaits c key w := by
  obtain ⟨item, hitem⟩ := Option.isSome_iff_exists.mp hstored
  simp [LiesBehind, Awaits, hitem]

theorem awaits_start (hstored : (w.lookup key).isSome = true) :
    Awaits (.start : Paging.Cursor order.Position) key w := by
  obtain ⟨item, hitem⟩ := Option.isSome_iff_exists.mp hstored
  exact ⟨item, hitem, trivial⟩

theorem not_liesBehind_start : ¬ LiesBehind (.start : Paging.Cursor order.Position) key w := by
  rintro ⟨item, -, hbehind⟩
  exact hbehind trivial

theorem not_awaits_finished : ¬ Awaits (.finished : Paging.Cursor order.Position) key w := by
  rintro ⟨item, -, hahead⟩
  exact hahead

/-- A page has an entity once if it is ahead before the page and no longer after it, and else
not. -/
theorem count_page (key : Key) (w : Table Key (Attributes D)) (start : Option order.Position)
    {n : Nat} (hn : 0 < n) (more : Bool) :
    let page := Paging.page order.position (indexed key.entityType w) start n more
    (page.1.map Prod.fst).count key =
      if Awaits (.behind start) key w ∧ ¬ Awaits (.upTo page.2) key w then 1 else 0 := by
  intro page
  have hpos : ((indexed key.entityType w).map order.position).Nodup := nodup_position_indexed
  have hmem : ∀ {x}, x ∈ page.1 ↔ _ := Paging.mem_page hpos hn
  have hnodup : (page.1.map Prod.fst).Nodup := by
    refine List.Nodup.map_on (fun x hx y hy heq => ?_) (Paging.nodup_page hpos hn)
    exact List.inj_on_of_nodup_map nodup_keys_indexed (hmem.mp hx).1 (hmem.mp hy).1 heq
  have hiff : key ∈ page.1.map Prod.fst ↔
      Awaits (.behind start) key w ∧ ¬ Awaits (.upTo page.2) key w := by
    constructor
    · intro hkey
      obtain ⟨⟨_, a⟩, hx, rfl⟩ := List.mem_map.mp hkey
      obtain ⟨hindexed, hahead, hbehind⟩ := hmem.mp hx
      obtain ⟨-, item, hitem, rfl⟩ := mem_indexed.mp hindexed
      refine ⟨⟨item, hitem, hahead⟩, ?_⟩
      rintro ⟨item', hitem', hahead'⟩
      obtain rfl := Option.some.inj (hitem.symm.trans hitem')
      exact hbehind hahead'
    · rintro ⟨⟨item, hitem, hahead⟩, hnot⟩
      refine List.mem_map.mpr ⟨(key, item.attributes), hmem.mpr ⟨?_, hahead, ?_⟩, rfl⟩
      · exact mem_indexed.mpr ⟨rfl, item, hitem, rfl⟩
      · exact fun hahead' => hnot ⟨item, hitem, hahead'⟩
  rw [hnodup.count]
  exact if_congr hiff rfl rfl

/-- A page leaves nothing ahead that was not ahead before. -/
theorem awaits_of_page (start : Option order.Position) {n : Nat} (hn : 0 < n) (more : Bool)
    (h : Awaits (.upTo (Paging.page order.position (indexed key.entityType w) start n more).2)
      key w) : Awaits (.behind start) key w := by
  obtain ⟨item, hitem, hahead⟩ := h
  exact ⟨item, hitem, Paging.ahead_of_page nodup_position_indexed hn hahead⟩

/-- The step moves the entity from ahead of the listing of thread `i` to behind it. -/
def CarriesPast (i : Nat) (key : Key) (h : List (Event (indexMachine order D)))
    (e : Event (indexMachine order D)) : Prop :=
  Awaits (cursorOf (past i h)) key e.before ∧ LiesBehind (cursorOf (past i h)) key e.after

/-- The step moves the entity from behind the listing of thread `i` to ahead of it. -/
def CarriesBack (i : Nat) (key : Key) (h : List (Event (indexMachine order D)))
    (e : Event (indexMachine order D)) : Prop :=
  LiesBehind (cursorOf (past i h)) key e.before ∧ Awaits (cursorOf (past i h)) key e.after

instance (h : List (Event (indexMachine order D))) (e : Event (indexMachine order D)) :
    Decidable (CarriesPast i key h e) := inferInstanceAs (Decidable (_ ∧ _))

instance (h : List (Event (indexMachine order D))) (e : Event (indexMachine order D)) :
    Decidable (CarriesBack i key h e) := inferInstanceAs (Decidable (_ ∧ _))

/-- How often the entity was moved behind the listing of thread `i`, and back. -/
def carriedPast (i : Nat) (key : Key) (h : List (Event (indexMachine order D))) : Nat :=
  tally (CarriesPast i key) h

def carriedBack (i : Nat) (key : Key) (h : List (Event (indexMachine order D))) : Nat :=
  tally (CarriesBack i key) h

theorem Awaits.not_liesBehind {w' : Table Key (Attributes D)} (h : Awaits c key w)
    (hsame : w'.lookup key = w.lookup key) : ¬ LiesBehind c key w' := by
  obtain ⟨x, hx, hahead⟩ := h
  rintro ⟨y, hy, hbehind⟩
  obtain rfl : x = y := Option.some.inj (hx.symm.trans (hsame.symm.trans hy))
  exact hbehind hahead

/-- Only a write of the entity moves it, and only across a cursor that a page has left. -/
theorem wrote_of_moved {allowed : Nat → IndexMoves order D → (indexOps order D).Op → Prop}
    {w₀ : Table Key (Attributes D)} {h : List (Event (indexMachine order D))}
    (H : (indexMachine order D).History allowed w₀ h w) {n : Nat}
    {e : Event (indexMachine order D)} (hn : h[n]? = some e)
    (hmoved : CarriesPast i key (h.take n) e ∨ CarriesBack i key (h.take n) e) :
    ∃ item p, e.Wrote key item ∧ cursorOf (past i (h.take n)) = .past p := by
  obtain ⟨-, -, d, hevent⟩ := H.at_position hn
  have hafter : ((indexMachine order D).exec e.move.op d e.before).2 = e.after :=
    (congrArg Event.after hevent).symm
  obtain ⟨item, hw⟩ : ∃ item, e.Wrote key item := by
    rw [hevent]
    refine wrote_of_changed fun hsame => ?_
    change ((indexMachine order D).exec e.move.op d e.before).2.lookup key = _ at hsame
    rw [hafter] at hsame
    rcases hmoved with ⟨hawaits, hpassed⟩ | ⟨hpassed, hawaits⟩
    · exact hawaits.not_liesBehind hsame hpassed
    · exact hawaits.not_liesBehind hsame.symm hpassed
  cases hcursor : cursorOf (past i (h.take n)) with
  | past p => exact ⟨item, p, hw, rfl⟩
  | start =>
    rw [CarriesPast, CarriesBack, hcursor] at hmoved
    exact (hmoved.elim (fun h => not_liesBehind_start h.2) fun h => not_liesBehind_start h.1).elim
  | finished =>
    rw [CarriesPast, CarriesBack, hcursor] at hmoved
    exact (hmoved.elim (fun h => not_awaits_finished h.1) fun h => not_awaits_finished h.2).elim

end Crossing

/-! ## The account of an entity -/

section Balance
variable {order : IndexOrder} {i : Nat} {key : Key}
  {allowed : Nat → IndexMoves order D → (indexOps order D).Op → Prop}
  {w₀ w : Table Key (Attributes D)} {h : List (Event (indexMachine order D))}

/-- How often the listing of thread `i` has the entity so far. -/
def listedCount (i : Nat) (key : Key) (h : List (Event (indexMachine order D))) : Nat :=
  ((listed (past i h)).map Prod.fst).count key

/-- Before its first page a listing has listed nothing, and nothing is behind it. -/
theorem unmoved_of_silent (key : Key) (hp : past i h = []) :
    listedCount i key h = 0 ∧ carriedPast i key h = 0 ∧ carriedBack i key h = 0 := by
  have hcursor : ∀ n, cursorOf (past i (h.take n)) = .start := by
    intro n
    have hsplit : past i (h.take n) ++ past i (h.drop n) = [] := by
      rw [← past_append, List.take_append_drop, hp]
    rw [(List.append_eq_nil_iff.mp hsplit).1, cursorOf_nil]
  refine ⟨by rw [listedCount, hp]; rfl, tally_eq_zero.mpr ?_, tally_eq_zero.mpr ?_⟩
  · rintro n e - ⟨-, hpassed⟩
    exact not_liesBehind_start (hcursor n ▸ hpassed)
  · rintro n e - ⟨hpassed, -⟩
    exact not_liesBehind_start (hcursor n ▸ hpassed)

/-- A page has what the listing comes past by it. -/
theorem page_step {op : (indexOps order D).Op} (hop : Lists key.entityType (past i h) op)
    (d : (indexMachine order D).Choice) :
    ((indexMachine order D).exec op d w).2 = w ∧
      listedCount i key (h ++ [(indexMachine order D).event i op d w]) +
          (if Awaits (cursorOf (past i (h ++ [(indexMachine order D).event i op d w]))) key w
            then 1 else 0) =
        listedCount i key h + if Awaits (cursorOf (past i h)) key w then 1 else 0 := by
  obtain op | ⟨entityType, limit, start⟩ := op
  · exact hop.elim
  obtain ⟨rfl, hlimit, hcursor⟩ := hop
  refine ⟨rfl, ?_⟩
  have hn : 0 < min (d.1 + 1) limit := by omega
  have hpage := count_page key w start hn d.2
  have hmono : Awaits _ key w → Awaits _ key w := awaits_of_page start hn d.2
  rw [listedCount, listedCount, past_snoc_self, listed_snoc, cursorOf_snoc, hcursor,
    List.map_append, List.count_append, hpage]
  by_cases hafter : Awaits (.upTo (Paging.page order.position (indexed key.entityType w) start
      (min (d.1 + 1) limit) d.2).2) key w
  · rw [if_neg fun h => h.2 hafter, if_pos hafter, if_pos (hmono hafter)]
  · by_cases hbefore : Awaits (.behind start) key w
    · rw [if_pos ⟨hbefore, hafter⟩, if_neg hafter, if_pos hbefore]
    · rw [if_neg fun h => hbefore h.1, if_neg hafter, if_neg hbefore]

/-- What is not ahead any more after a step of another thread was moved behind, and what is
ahead only then was moved back. -/
theorem moved_step (i : Nat) (h : List (Event (indexMachine order D))) (j : Nat)
    (op : (indexOps order D).Op) (d : (indexMachine order D).Choice)
    (hstored : (w.lookup key).isSome = true) :
    (if Awaits (cursorOf (past i h)) key ((indexMachine order D).exec op d w).2 then 1 else 0) +
        carriedPast i key (h ++ [(indexMachine order D).event j op d w]) + carriedBack i key h =
      (if Awaits (cursorOf (past i h)) key w then 1 else 0) + carriedPast i key h +
        carriedBack i key (h ++ [(indexMachine order D).event j op d w]) := by
  have hstored' : (((indexMachine order D).exec op d w).2.lookup key).isSome = true :=
    isSome_step (M := indexMachine order D) op d hstored
  have hpast : CarriesPast i key h ((indexMachine order D).event j op d w) ↔
      Awaits (cursorOf (past i h)) key w ∧
        ¬ Awaits (cursorOf (past i h)) key ((indexMachine order D).exec op d w).2 :=
    and_congr_right' (liesBehind_iff hstored')
  have hback : CarriesBack i key h ((indexMachine order D).event j op d w) ↔
      ¬ Awaits (cursorOf (past i h)) key w ∧
        Awaits (cursorOf (past i h)) key ((indexMachine order D).exec op d w).2 :=
    and_congr_left' (liesBehind_iff hstored)
  rw [carriedPast, carriedPast, carriedBack, carriedBack, tally_snoc, tally_snoc,
    if_congr hpast rfl rfl, if_congr hback rfl rfl]
  generalize ((indexMachine order D).exec op d w).2 = w'
  by_cases hbefore : Awaits (cursorOf (past i h)) key w
  · by_cases hafter : Awaits (cursorOf (past i h)) key w'
    · simp [hbefore, hafter]
    · simp [hbefore, hafter]
      omega
  · by_cases hafter : Awaits (cursorOf (past i h)) key w'
    · simp [hbefore, hafter]
      omega
    · simp [hbefore, hafter]

/-- **The account of an entity.**  From the first page on, an entity is in the pages, or was
moved behind the listing, or is still ahead of it, once more than it was moved back. -/
theorem balanced (H : (indexMachine order D).History allowed w₀ h w)
    (hlists : ∀ past op, allowed i past op → Lists key.entityType past op)
    (hlive : ((firstWorld i h w).lookup key).isSome = true) :
    (w.lookup key).isSome = true ∧
      listedCount i key h + carriedPast i key h +
        (if Awaits (cursorOf (past i h)) key w then 1 else 0) = carriedBack i key h + 1 := by
  induction H with
  | nil =>
    change (w₀.lookup key).isSome = true at hlive
    refine ⟨hlive, ?_⟩
    rw [if_pos (show Awaits (cursorOf (past i [])) key w₀ from awaits_start hlive)]
    rfl
  | @snoc h w j op d H hok ih =>
    by_cases hj : j = i
    · subst hj
      rw [firstWorld_snoc_self] at hlive
      obtain ⟨hstored, hbalance⟩ := ih hlive
      obtain ⟨hsame, hpage⟩ := page_step (w := w) (hlists _ _ hok) d
      have hmoved := moved_step j h j op d hstored
      rw [hsame] at hmoved ⊢
      exact ⟨hstored, by omega⟩
    · have hpast := past_snoc_other (Ne.symm hj) h op d w
      by_cases hp : past i h = []
      · -- the listing has not begun, and the entity may come to be stored by this step
        rw [firstWorld_of_silent (hpast.trans hp)] at hlive
        obtain ⟨hlisted, hmoved, hback⟩ := unmoved_of_silent key (hpast.trans hp)
        rw [hlisted, hmoved, hback, hpast, hp, cursorOf_nil, if_pos (awaits_start hlive)]
        exact ⟨hlive, rfl⟩
      · rw [firstWorld_append hp _ w] at hlive
        obtain ⟨hstored, hbalance⟩ := ih hlive
        refine ⟨isSome_step (M := indexMachine order D) op d hstored, ?_⟩
        have hmoved := moved_step i h j op d hstored
        rw [listedCount, hpast, ← listedCount]
        omega

end Balance

/-! ## Runs -/

section Runs
variable {order : IndexOrder} {w₀ : Table Key (Attributes D)}
  {s : System (indexMachine order D) (Access D) (Option (List D))}

/-- The systems some run of the accesses leads to, from any table. -/
abbrev Accessed (w₀ : Table Key (Attributes D))
    (s : System (indexMachine order D) (Access D) (Option (List D))) : Prop :=
  System.Reachable (Access.code order) w₀ s

/-- The entity exists when thread `i` reads its first page, and so, as none is ever deleted,
from then on. -/
def ExistsThroughout (s : System (indexMachine order D) (Access D) (Option (List D))) (i : Nat)
    (key : Key) : Prop :=
  ((firstWorld i s.history s.world).lookup key).isSome = true

/-- The result of thread `i` is what its pages had; every entity that exists during the whole
call is there exactly once, and with a value it had during the call. -/
structure Complete (s : System (indexMachine order D) (Access D) (Option (List D))) (i : Nat)
    (entityType : EntityType) (items : List D) : Prop where
  read : items = (listed (past i s.history)).map fun x => x.2.data
  once : ∀ key, key.entityType = entityType → ExistsThroughout s i key →
    listedCount i key s.history = 1
  values : ∀ x ∈ listed (past i s.history), ∃ e ∈ s.history, e.thread = i ∧
    ∃ item, e.before.lookup x.1 = some item ∧ item.attributes = x.2

/-- The thread that serves a listing does what a listing may do. -/
theorem lists_of_request {i fuel : Nat} {entityType : EntityType}
    (hreq : s.request i = some (.list entityType fuel)) (past : IndexMoves order D)
    (op : (indexOps order D).Op) (h : ∃ req, s.request i = some req ∧ req.Does past op) :
    Lists entityType past op := by
  obtain ⟨req, hreq', hdoes⟩ := h
  obtain rfl := Option.some.inj (hreq.symm.trans hreq')
  exact hdoes

/-- What a page had was stored when it was read. -/
theorem stored_of_listed (hs : Accessed w₀ s) {i : Nat} {x : IndexItem D}
    (hx : x ∈ listed (past i s.history)) : ∃ e ∈ s.history, e.thread = i ∧
      ∃ item, e.before.lookup x.1 = some item ∧ item.attributes = x.2 := by
  obtain ⟨page, hpage, hx⟩ := List.mem_flatMap.mp hx
  obtain ⟨m, hm, hmpage⟩ := List.mem_filterMap.mp hpage
  obtain ⟨e, he, hi, rfl⟩ := mem_past.mp hm
  refine ⟨e, he, hi, ?_⟩
  obtain ⟨n, -, -, -, d, hevent⟩ := (System.Reachable.conforms hs Access.does).history.of_mem he
  have hmove : e.move = ⟨e.move.op, ((indexMachine order D).exec e.move.op d e.before).1⟩ :=
    congrArg Event.move hevent
  generalize e.move.op = op at hmove
  rw [hmove] at hmpage
  obtain op | ⟨entityType, limit, start⟩ := op
  · cases hmpage
  · obtain rfl := Option.some.inj hmpage
    exact (mem_indexed.mp (Paging.mem_entries_of_mem_page hx)).2

/-- **Listing page by page.**  A listing that returns is complete exactly if each entity that
exists during the whole call was moved from ahead of the listing to behind it as often as it was
moved back. -/
theorem complete_iff (hs : Accessed w₀ s) {i fuel : Nat} {entityType : EntityType}
    {items : List D} (hreq : s.request i = some (.list entityType fuel))
    (hout : s.outcome i = some (.ok (some items))) :
    Complete s i entityType items ↔ ∀ key, key.entityType = entityType →
      ExistsThroughout s i key → carriedPast i key s.history = carriedBack i key s.history := by
  have hconforms := System.Reachable.conforms hs Access.does
  obtain ⟨hitems, hfinished⟩ : items = _ ∧ _ := hconforms.outcome hreq hout items rfl
  have account : ∀ key, key.entityType = entityType → ExistsThroughout s i key →
      listedCount i key s.history + carriedPast i key s.history =
        carriedBack i key s.history + 1 := by
    rintro key rfl hlive
    have hbalance := (balanced hconforms.history (lists_of_request hreq) hlive).2
    rwa [hfinished, if_neg not_awaits_finished, Nat.add_zero] at hbalance
  constructor
  · intro hcomplete key htype hlive
    have hone := hcomplete.once key htype hlive
    have := account key htype hlive
    omega
  · intro hbalanced
    refine ⟨hitems, fun key htype hlive => ?_, fun x hx => stored_of_listed hs hx⟩
    have := account key htype hlive
    have := hbalanced key htype hlive
    omega

/-! ### Writers with one clock -/

/-- Every put gives its item a later `updated_at` than all that are stored. -/
def StampsLater (h : List (Event (indexMachine order D))) : Prop :=
  ∀ e ∈ h, ∀ key item, e.Wrote key item →
    ∀ key' item', e.before.lookup key' = some item' →
      item'.attributes.updatedAt < item.attributes.updatedAt

/-- Some item is as late as the cursor of a listing: the one the cursor was taken from, or what
has been put since. -/
theorem late_as_cursor {allowed : Nat → IndexMoves order D → (indexOps order D).Op → Prop}
    {w : Table Key (Attributes D)} {h : List (Event (indexMachine order D))} {i : Nat}
    {entityType : EntityType} (H : (indexMachine order D).History allowed w₀ h w)
    (hlists : ∀ past op, allowed i past op → Lists entityType past op) (hlater : StampsLater h)
    {p : order.Position} (hcursor : cursorOf (past i h) = .past p) :
    ∃ key item, w.lookup key = some item ∧ (ofLex p).1 ≤ item.attributes.updatedAt := by
  induction H generalizing p with
  | nil => cases hcursor
  | @snoc h w j op d H hok ih =>
    have hearlier : StampsLater h := fun e he => hlater e (List.mem_append_left _ he)
    by_cases hj : j = i
    · subst hj
      obtain op | ⟨entityType', limit, start⟩ := op
      · exact (hlists _ _ hok).elim
      rw [past_snoc_self, cursorOf_snoc] at hcursor
      cases hnext : (Paging.page order.position (indexed entityType' w) start
          (min (d.1 + 1) limit) d.2).2 with
      | none =>
        rw [hnext] at hcursor
        cases hcursor
      | some q =>
        rw [hnext] at hcursor
        cases hcursor
        obtain ⟨x, hx, rfl⟩ := Paging.exists_of_next hnext
        obtain ⟨-, item, hitem, hattributes⟩ := mem_indexed.mp (Paging.mem_entries_of_mem_page hx)
        exact ⟨x.1, item, hitem, by rw [hattributes]; exact Nat.le_refl _⟩
    · rw [past_snoc_other (Ne.symm hj)] at hcursor
      obtain ⟨key, item, hitem, hle⟩ := ih hearlier hcursor
      by_cases hsame : ((indexMachine order D).exec op d w).2.lookup key = w.lookup key
      · exact ⟨key, item, hsame.trans hitem, hle⟩
      · obtain ⟨item', hw⟩ : ∃ item', ((indexMachine order D).event j op d w).Wrote key item' :=
          wrote_of_changed hsame
        have hlt := hlater _ (List.mem_append_right _ (List.mem_singleton.mpr rfl)) key item' hw
          key item hitem
        exact ⟨key, item', hw.stored_after, Nat.le_of_lt (Nat.lt_of_le_of_lt hle hlt)⟩

/-- **Listings beside such writers.**  If every put has the latest `updated_at`, a listing is
complete exactly if no entity that exists during the whole call is put after the first page and
before the listing has come to it. -/
theorem complete_iff_of_stampsLater (hs : Accessed w₀ s) (hlater : StampsLater s.history)
    {i fuel : Nat} {entityType : EntityType} {items : List D}
    (hreq : s.request i = some (.list entityType fuel))
    (hout : s.outcome i = some (.ok (some items))) :
    Complete s i entityType items ↔ ∀ key, key.entityType = entityType →
      ExistsThroughout s i key → ∀ (n : Nat) e item, s.history[n]? = some e → e.Wrote key item →
        cursorOf (past i (s.history.take n)) ≠ .start →
          ¬ Awaits (cursorOf (past i (s.history.take n))) key e.before := by
  have H := (System.Reachable.conforms hs Access.does).history
  -- what is put lands behind the cursor
  have behind : ∀ {n : Nat} {e key item p}, s.history[n]? = some e → e.Wrote key item →
      cursorOf (past i (s.history.take n)) = .past p →
        ¬ (Paging.Cursor.past p).Ahead (order.position (key, item.attributes)) := by
    intro n e key item p hn hw hcursor hahead
    have hearlier : StampsLater (s.history.take n) := fun e he => hlater e (List.mem_of_mem_take he)
    obtain ⟨key', item', hitem', hle⟩ :=
      late_as_cursor (H.at_position hn).1 (lists_of_request hreq) hearlier hcursor
    have hlt := hlater e (List.mem_of_getElem? hn) key item hw key' item' hitem'
    have hlast : item.attributes.updatedAt ≤ (ofLex p).1 :=
      Prod.Lex.monotone_fst _ _ (le_of_lt hahead)
    omega
  rw [complete_iff hs hreq hout]
  refine forall_congr' fun key => forall_congr' fun htype => forall_congr' fun hlive => ?_
  have hback : carriedBack i key s.history = 0 := by
    refine tally_eq_zero.mpr fun n e hn hcarries => ?_
    obtain ⟨item, p, hw, hcursor⟩ := wrote_of_moved H hn (.inr hcarries)
    obtain ⟨item', hitem', hahead⟩ := hcarries.2
    obtain rfl := Option.some.inj (hw.stored_after.symm.trans hitem')
    exact behind hn hw hcursor (hcursor ▸ hahead)
  rw [hback, carriedPast, tally_eq_zero]
  constructor
  · intro hnone n e item hn hw hbegun hawaits
    refine hnone n e hn ⟨hawaits, item, hw.stored_after, fun hahead => ?_⟩
    cases hcursor : cursorOf (past i (s.history.take n)) with
    | start => exact hbegun hcursor
    | past p => exact behind hn hw hcursor (hcursor ▸ hahead)
    | finished => exact not_awaits_finished (hcursor ▸ hawaits)
  · intro hnone n e hn hcarries
    obtain ⟨item, p, hw, hcursor⟩ := wrote_of_moved H hn (.inl hcarries)
    exact hnone n e item hn hw (hcursor ▸ nofun) hcarries.1

end Runs

/-! ## Computed runs -/

/-- The index orders items with one `updated_at` by their ids. -/
def byId : IndexOrder where
  Rank := String
  rank := id
  injective := Function.injective_id

/-- Two incidents, the second updated later than the first. -/
def twoIncidents : Table Key (Attributes String) :=
  ((∅ : Table Key (Attributes String)).insert ⟨.incident, "1"⟩
    ⟨some 1, .incident, "1", 1, "first"⟩).insert ⟨.incident, "2"⟩
    ⟨some 1, .incident, "2", 2, "second"⟩

/-- The incidents are listed in pages of one item, and between the pages one is put. -/
def putBetweenPages (id value : String) :
    System (indexMachine byId String) (Access String) (Option (List String)) :=
  System.run (Access.code byId)
    [.arrive (.list .incident 3), .advance 0 (0, false), .arrive (.put .incident id value),
      .advance 1 (3, false), .advance 1 (3, false), .advance 1 (3, false),
      .advance 0 (0, false)]
    (System.start twoIncidents)

theorem accessed_putBetweenPages (id value : String) :
    Accessed twoIncidents (putBetweenPages id value) := ⟨_, rfl⟩

/-- The incident that was listed is put, and so is not moved across the cursor. -/
theorem complete_putListed :
    Complete (putBetweenPages "2" "updated") 0 .incident ["second", "first"] := by
  have hreq : (putBetweenPages "2" "updated").request 0 = some (.list .incident 3) := by
    decide +kernel
  refine (complete_iff (accessed_putBetweenPages _ _) hreq (by decide +kernel)).mpr ?_
  intro key _ hexists
  have hkey : key ∈ twoIncidents.keys := by
    have hfirst : firstWorld 0 (putBetweenPages "2" "updated").history
        (putBetweenPages "2" "updated").world = twoIncidents := rfl
    rw [ExistsThroughout, hfirst] at hexists
    exact AList.lookup_isSome.mp hexists
  have hall : ∀ key ∈ twoIncidents.keys,
      carriedPast 0 key (putBetweenPages "2" "updated").history =
        carriedBack 0 key (putBetweenPages "2" "updated").history := by decide +kernel
  exact hall key hkey

/-- The incident that was not listed yet is put: it moves behind the cursor and is missed. -/
theorem not_complete : ¬ ∀ (order : IndexOrder) (w₀ : Table Key (Attributes String))
    (s : System (indexMachine order String) (Access String) (Option (List String))),
    Accessed w₀ s → ∀ i entityType fuel items, s.request i = some (.list entityType fuel) →
      s.outcome i = some (.ok (some items)) → Complete s i entityType items := by
  intro hall
  have hcomplete := hall byId twoIncidents (putBetweenPages "1" "updated")
    (accessed_putBetweenPages _ _) 0 .incident 3 ["second"] (by decide +kernel) (by decide +kernel)
  have hone := hcomplete.once ⟨.incident, "1"⟩ rfl (show _ = true by decide +kernel)
  exact absurd hone (by decide +kernel)

end AxSentinel
