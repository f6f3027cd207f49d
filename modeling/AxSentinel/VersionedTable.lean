import AxSentinel.Interleaving
import Mathlib.Data.List.AList

/-! # Tables with versioned items and conditional writes

A table maps keys to items; an item is its attributes and, unless it is an old
one, an integer version.  Programs read items one at a time, or all those of one
index value, and write an item under a condition that the table evaluates
atomically with the write.

Optimistic concurrency is a discipline of the writers (`GuardedWrites`): a
program writes a key only right after reading it, on the condition that the item
is still the one it read, and with the next version.  Under this discipline
items only ever get newer (`History.newer_between`), and so the condition does
what it is for: no write to the key lies between the read and the write it
guards (`History.protected_window`).  What it does not do is protect a read the
program made earlier: `History.undisturbed_iff` says exactly what is left to the
program.
-/
namespace Effects

variable {E : Type} {K I A : Type} [DecidableEq K]

/-- A stored item.  Items written before versions were introduced have none. -/
structure Item (A : Type) where
  version : Option Int
  attributes : A
deriving DecidableEq, Repr

/-- The contents of a table, most recently written item first. -/
abbrev Table (K A : Type) [DecidableEq K] := AList fun _ : K => Item A

/-- The condition of a write. -/
inductive Condition where
  | attributeNotExists
  | versionIs (v : Int)
deriving DecidableEq, Repr

section Entries
variable {t : AList fun _ : K => Item A} {p : K → A → Prop} [∀ key a, Decidable (p key a)]

/-- The attributes of the items that `p` holds of, under their keys. -/
theorem mem_filter_entries {x : K × A} :
    x ∈ (t.entries.filter fun e => p e.1 e.2.attributes).map (fun e => (e.1, e.2.attributes)) ↔
      p x.1 x.2 ∧ ∃ item, t.lookup x.1 = some item ∧ item.attributes = x.2 := by
  obtain ⟨key, a⟩ := x
  simp only [List.mem_map, List.mem_filter, decide_eq_true_eq]
  constructor
  · rintro ⟨⟨key', item⟩, ⟨hmem, hp⟩, heq⟩
    obtain ⟨rfl, rfl⟩ := Prod.mk.inj heq
    exact ⟨hp, item, AList.mem_lookup_iff.mpr hmem, rfl⟩
  · rintro ⟨hp, item, hlookup, rfl⟩
    exact ⟨⟨key, item⟩, ⟨AList.mem_lookup_iff.mp hlookup, hp⟩, rfl⟩

omit [DecidableEq K] in
theorem nodup_keys_filter_entries :
    (((t.entries.filter fun e => p e.1 e.2.attributes).map fun e =>
      (e.1, e.2.attributes)).map Prod.fst).Nodup := by
  rw [List.map_map]
  exact List.Nodup.sublist (List.filter_sublist.map Sigma.fst) t.nodupKeys

end Entries

/-- A condition on the item stored under a key.  An equality on a missing
attribute is false. -/
def Condition.Holds : Condition → Option (Item A) → Prop
  | attributeNotExists, item => item = none
  | versionIs v, item => ∃ x, item = some x ∧ x.version = some v

instance (c : Condition) (item : Option (Item A)) : Decidable (c.Holds item) :=
  match c, item with
  | .attributeNotExists, none => isTrue rfl
  | .attributeNotExists, some _ => isFalse nofun
  | .versionIs _, none => isFalse fun ⟨_, h, _⟩ => nomatch h
  | .versionIs v, some x =>
      if h : x.version = some v then isTrue ⟨x, rfl, h⟩
      else isFalse fun ⟨_, hx, hv⟩ => h (Option.some.inj hx ▸ hv)

/-- The operations on a table, and the clock its writers stamp items with. -/
inductive TableOp (K I A : Type) where
  | getItem (key : K)
  | putItem (key : K) (item : Item A) (condition : Condition)
  | query (index : I)
  | now

/-- The signature of a table with keys `K`, an index of type `I` and items with
attributes `A`. -/
abbrev tableOps (E K I A : Type) : Signature E where
  Op := TableOp K I A
  Reply
    | .getItem _ => Option (Item A)
    | .putItem .. => Unit
    | .query _ => List A
    | .now => Nat

/-- A table whose items are indexed by `index`; a write whose condition fails
raises `conditionFailed`. -/
abbrev tableMachine [DecidableEq I] (A : Type) (index : K → I) (conditionFailed : E) :
    Machine (tableOps E K I A) where
  World := Table K A
  Choice := Nat
  exec
    | .getItem key, _, t => (.ok (t.lookup key), t)
    | .putItem key item c, _, t =>
        if c.Holds (t.lookup key) then (.ok (), t.insert key item) else (.error conditionFailed, t)
    | .query i, _, t =>
        (.ok ((t.entries.filter fun e => index e.1 = i).map fun e => e.2.attributes), t)
    | .now, clock, t => (.ok clock, t)

/-! ## Machines with a table

A service has more operations than those on its table, and some of them may
fail.  `TableMachine` is what the results below need of it. -/

/-- A machine over the table operations and others that holds a table: only a
write whose condition holds changes it, and a read replies with what the table says. -/
class TableMachine {G : Signature E} (M : Machine ((tableOps E K I A).sum G))
    (index : outParam (K → I)) where
  table : M.World → Table K A
  exec_other : ∀ op c w, table (M.exec (.inr op) c w).2 = table w
  exec_get : ∀ key c w, table (M.exec (.inl (.getItem key)) c w).2 = table w ∧
    ∀ r, (M.exec (.inl (.getItem key)) c w).1 = .ok r → r = (table w).lookup key
  exec_query : ∀ i c w, table (M.exec (.inl (.query i)) c w).2 = table w
  exec_now : ∀ c w, table (M.exec (.inl .now) c w).2 = table w
  exec_put : ∀ key item cond c w,
    (table (M.exec (.inl (.putItem key item cond)) c w).2 = table w ∧
      ∀ r, (M.exec (.inl (.putItem key item cond)) c w).1 ≠ .ok r) ∨
    (cond.Holds ((table w).lookup key) ∧
      table (M.exec (.inl (.putItem key item cond)) c w).2 = (table w).insert key item)

/-- A table beside another machine. -/
instance TableMachine.beside [DecidableEq I] (index : K → I) (conditionFailed : E)
    {G : Signature E} (N : Machine G) :
    TableMachine ((tableMachine A index conditionFailed).sum N) index where
  table w := w.1
  exec_other _ _ _ := rfl
  exec_get _ _ _ := ⟨rfl, fun _ hr => (Except.ok.inj hr).symm⟩
  exec_query _ _ _ := rfl
  exec_now _ _ := rfl
  exec_put key item cond c w := by
    simp only [tableMachine]
    by_cases hc : cond.Holds (w.1.lookup key)
    · exact .inr ⟨hc, by rw [if_pos hc]⟩
    · exact .inl (by rw [if_neg hc]; exact ⟨rfl, nofun⟩)

/-- A machine with a table, any of whose operations may fail. -/
instance TableMachine.faulty {index : K → I} {G : Signature E}
    (M : Machine ((tableOps E K I A).sum G))
    [T : TableMachine M index] (raises : ((tableOps E K I A).sum G).Op → E → Bool) :
    TableMachine (M.faulty raises) index where
  table w := T.table w
  exec_other op c w := by
    rcases M.faulty_exec raises (.inr op) c w with h | ⟨e, -, -, h | h⟩
    · rw [h, T.exec_other]
    · rw [h]
    · rw [h, T.exec_other]
  exec_get key c w := by
    rcases M.faulty_exec raises (.inl (.getItem key)) c w with h | ⟨e, -, he, h⟩
    · rw [h]
      exact T.exec_get key c.1 w
    · refine ⟨?_, fun r hr => nomatch he.symm.trans hr⟩
      rcases h with h | h <;> rw [h]
      exact (T.exec_get key c.1 w).1
  exec_query i c w := by
    rcases M.faulty_exec raises (.inl (.query i)) c w with h | ⟨e, -, -, h | h⟩
    · rw [h, T.exec_query]
    · rw [h]
    · rw [h, T.exec_query]
  exec_now c w := by
    rcases M.faulty_exec raises (.inl .now) c w with h | ⟨e, -, -, h | h⟩
    · rw [h, T.exec_now]
    · rw [h]
    · rw [h, T.exec_now]
  exec_put key item cond c w := by
    rcases M.faulty_exec raises (.inl (.putItem key item cond)) c w with h | ⟨e, -, he, h⟩
    · rw [h]
      exact T.exec_put key item cond c.1 w
    · have raised : ∀ r, ((M.faulty raises).exec (.inl (.putItem key item cond)) c w).1 ≠
          .ok r := fun r hr => nomatch he.symm.trans hr
      rcases h with h | h
      · exact .inl ⟨by rw [h], raised⟩
      · rcases T.exec_put key item cond c.1 w with ⟨hsame, -⟩ | ⟨hc, hins⟩
        · exact .inl ⟨by rw [h, hsame], raised⟩
        · exact .inr ⟨hc, by rw [h, hins]⟩

/-- A query that replies finds what the table has then. -/
class ConsistentQueries [DecidableEq I] {G : Signature E} (M : Machine ((tableOps E K I A).sum G))
    {index : outParam (K → I)} [T : TableMachine M index] : Prop where
  found : ∀ i c w r, (M.exec (.inl (.query i)) c w).1 = .ok r →
    r = ((T.table w).entries.filter fun e => index e.1 = i).map fun e => e.2.attributes

instance ConsistentQueries.beside [DecidableEq I] (index : K → I) (conditionFailed : E)
    {G : Signature E} (N : Machine G) :
    ConsistentQueries ((tableMachine A index conditionFailed).sum N) where
  found _ _ _ _ hr := (Except.ok.inj hr).symm

instance ConsistentQueries.faulty [DecidableEq I] {index : K → I} {G : Signature E}
    (M : Machine ((tableOps E K I A).sum G)) [T : TableMachine M index] [C : ConsistentQueries M]
    (raises : ((tableOps E K I A).sum G).Op → E → Bool) :
    ConsistentQueries (M.faulty raises) where
  found i c w r hr := by
    rcases M.faulty_exec raises (.inl (.query i)) c w with h | ⟨e, -, he, -⟩
    · exact C.found i c.1 w r (h ▸ hr)
    · cases he.symm.trans hr

/-! ## Guarded writes -/

/-- The version the next write of an item starts from: 0 when it is absent or has
none. -/
def versionOf (current : Option (Item A)) : Int :=
  (current.bind Item.version).getD 0

/-- The condition that the item is still `current`. -/
def Condition.unchanged (current : Option (Item A)) : Condition :=
  if current.isNone then attributeNotExists else versionIs (versionOf current)

omit [DecidableEq K] in
/-- An item that is still the one that was read has its version. -/
theorem Condition.Holds.versionOf_eq {current stored : Option (Item A)}
    (h : (Condition.unchanged current).Holds stored) : versionOf stored = versionOf current := by
  cases current with
  | none =>
    obtain rfl : stored = none := h
    rfl
  | some item =>
    obtain ⟨x, rfl, hx⟩ : ∃ x, stored = some x ∧ x.version = some (versionOf (some item)) := h
    simp [versionOf, hx]

omit [DecidableEq K] in
/-- The condition that nothing has changed holds of what was read, unless that is an item
without a version. -/
theorem Condition.unchanged_holds_self {current : Option (Item A)} :
    (Condition.unchanged current).Holds current ↔
      ∀ item, current = some item → item.version.isSome = true := by
  cases current with
  | none => simp [Condition.unchanged, Condition.Holds]
  | some item =>
    cases hv : item.version <;>
      simp [Condition.unchanged, Condition.Holds, versionOf, hv]

/-- A program writes a key only right after reading it, on the condition that the
item is still the one it read, and with the next version. -/
def GuardedWrites {G : Signature E} (past : List (Move ((tableOps E K I A).sum G)))
    (op : ((tableOps E K I A).sum G).Op) : Prop :=
  ∀ key item cond, op = .inl (.putItem key item cond) →
    ∃ earlier current, past = earlier ++ [⟨.inl (.getItem key), .ok current⟩] ∧
      cond = .unchanged current ∧ item.version = some (versionOf current + 1)

/-- Guarded writes of what `W` justifies by the moves before the read that guards the
write. -/
def WritesOnly {G : Signature E} (W : List (Move ((tableOps E K I A).sum G)) → K → A → Prop)
    (past : List (Move ((tableOps E K I A).sum G))) (op : ((tableOps E K I A).sum G).Op) : Prop :=
  ∀ key item cond, op = .inl (.putItem key item cond) →
    ∃ earlier current, past = earlier ++ [⟨.inl (.getItem key), .ok current⟩] ∧
      cond = .unchanged current ∧ item.version = some (versionOf current + 1) ∧
      W earlier key item.attributes

omit [DecidableEq K] in
theorem WritesOnly.guarded {G : Signature E}
    {W : List (Move ((tableOps E K I A).sum G)) → K → A → Prop}
    {past : List (Move ((tableOps E K I A).sum G))} {op : ((tableOps E K I A).sum G).Op}
    (h : WritesOnly W past op) : GuardedWrites past op := by
  intro key item cond hop
  obtain ⟨earlier, current, hpast, hc, hv, -⟩ := h key item cond hop
  exact ⟨earlier, current, hpast, hc, hv⟩

/-- `b` is a newer item than `a`: it has a version, and `a`, if present, a smaller
one. -/
def Newer (a b : Option (Item A)) : Prop :=
  ∃ y v, b = some y ∧ y.version = some v ∧ ∀ x, a = some x → ∃ u, x.version = some u ∧ u < v

theorem Newer.trans {a b c : Option (Item A)} (hab : Newer a b) (hbc : Newer b c) : Newer a c := by
  obtain ⟨y, v, rfl, hy, hab⟩ := hab
  obtain ⟨z, w, rfl, hz, hbc⟩ := hbc
  obtain ⟨v', hv', hvw⟩ := hbc y rfl
  obtain rfl := Option.some.inj (hy.symm.trans hv')
  refine ⟨z, w, rfl, hz, fun x hx => ?_⟩
  obtain ⟨u, hu, huv⟩ := hab x hx
  exact ⟨u, hu, Int.lt_trans huv hvw⟩

/-- A newer item fails the condition that nothing has changed. -/
theorem Newer.not_unchanged {a b : Option (Item A)} (h : Newer a b) :
    ¬ (Condition.unchanged a).Holds b := by
  obtain ⟨y, v, rfl, hy, hlt⟩ := h
  cases a with
  | none => simp [Condition.unchanged, Condition.Holds]
  | some x =>
    obtain ⟨u, hu, huv⟩ := hlt x rfl
    have hv : versionOf (some x) = u := by simp [versionOf, hu]
    simp only [Condition.unchanged, Condition.Holds, hv, Option.isNone_some]
    rintro ⟨z, hz, hzu⟩
    obtain rfl := Option.some.inj hz
    rw [hy] at hzu
    exact Int.ne_of_gt huv (Option.some.inj hzu)

/-- An item that is unchanged since it was read is older than what a guarded write
stores. -/
theorem Newer.of_unchanged {current stored : Option (Item A)} {item : Item A}
    (hc : (Condition.unchanged current).Holds stored)
    (hv : item.version = some (versionOf current + 1)) : Newer stored (some item) := by
  refine ⟨item, _, rfl, hv, fun x hx => ?_⟩
  cases current with
  | none =>
    rw [hx] at hc
    simp [Condition.unchanged, Condition.Holds] at hc
  | some y =>
    simp only [Condition.unchanged, Condition.Holds, Option.isNone_some] at hc
    obtain ⟨z, hz, hver⟩ := hc
    obtain rfl := Option.some.inj (hx.symm.trans hz)
    exact ⟨_, hver, Int.lt_succ _⟩

/-! ## What guarded histories keep -/

section Guarded
variable {G : Signature E} {M : Machine ((tableOps E K I A).sum G)} {index : K → I}
  [T : TableMachine M index]

/-- The item stored under `key` in a world. -/
abbrev stored (M : Machine ((tableOps E K I A).sum G)) [T : TableMachine M index] (key : K)
    (w : M.World) : Option (Item A) := (T.table w).lookup key

/-- The event is a write of `item` to `key` that took effect. -/
def Event.Wrote (e : Event M) (key : K) (item : Item A) : Prop :=
  ∃ cond, e.move.op = .inl (.putItem key item cond) ∧ cond.Holds (stored M key e.before) ∧
    T.table e.after = (T.table e.before).insert key item

/-- After a write that took effect its item is stored. -/
theorem Event.Wrote.stored_after {e : Event M} {key : K} {item : Item A}
    (hw : e.Wrote key item) : stored M key e.after = some item := by
  obtain ⟨-, -, -, hins⟩ := hw
  rw [stored, hins, AList.lookup_insert]

/-- An operation either leaves the table alone or is a write that took effect. -/
theorem exec_table (i : Nat) (op : ((tableOps E K I A).sum G).Op) (c : M.Choice) (w : M.World) :
    T.table (M.exec op c w).2 = T.table w ∨
      ∃ key item, (M.event i op c w).Wrote key item := by
  match op with
  | .inr op => exact .inl (T.exec_other op c w)
  | .inl (.getItem key) => exact .inl (T.exec_get key c w).1
  | .inl (.query i) => exact .inl (T.exec_query i c w)
  | .inl .now => exact .inl (T.exec_now c w)
  | .inl (.putItem key item cond) =>
    rcases T.exec_put key item cond c w with ⟨h, -⟩ | ⟨hc, h⟩
    · exact .inl h
    · exact .inr ⟨key, item, cond, rfl, hc, h⟩

variable {allowed : Nat → List (Move ((tableOps E K I A).sum G)) →
  ((tableOps E K I A).sum G).Op → Prop} {w₀ w : M.World} {h : List (Event M)}

/-- The item under a key is another one after a step only if the step wrote it. -/
theorem wrote_of_changed {i : Nat} {op : ((tableOps E K I A).sum G).Op} {c : M.Choice}
    {w : M.World} {key : K} (hne : stored M key (M.exec op c w).2 ≠ stored M key w) :
    ∃ item, (M.event i op c w).Wrote key item := by
  rcases exec_table i op c w with hsame | ⟨key', item, hw⟩
  · exact absurd (by rw [stored, hsame]) hne
  · have hins : T.table (M.exec op c w).2 = (T.table w).insert key' item := hw.choose_spec.2.2
    by_cases hk : key = key'
    · exact ⟨item, hk ▸ hw⟩
    · exact absurd (by rw [stored, stored, hins, AList.lookup_insert_ne hk]) hne

/-- An item that was stored is stored still, in some version. -/
theorem isSome_step (op : ((tableOps E K I A).sum G).Op) (c : M.Choice) {w : M.World} {key : K}
    (hsome : (stored M key w).isSome = true) :
    (stored M key (M.exec op c w).2).isSome = true := by
  by_cases hsame : stored M key (M.exec op c w).2 = stored M key w
  · rw [hsame]
    exact hsome
  · obtain ⟨item, hw⟩ := wrote_of_changed (i := 0) hsame
    rw [show stored M key (M.exec op c w).2 = some item from hw.stored_after]
    rfl

theorem Machine.History.isSome_between (H : M.History allowed w₀ h w) {key : K} {m n : Nat}
    {d e : Event M} (hmn : m < n) (hm : h[m]? = some d) (hn : h[n]? = some e)
    (hsome : (stored M key d.after).isSome = true) : (stored M key e.before).isSome = true :=
  H.after_le_before (fun w w' => (stored M key w).isSome = true → (stored M key w').isSome = true)
    (fun _ => id) (fun hab hbc => hbc ∘ hab) (fun _ _ op c _ => isSome_step op c) hmn hm hn hsome

/-- An item that has changed since the start was written. -/
theorem Machine.History.wrote_since_start (H : M.History allowed w₀ h w) (key : K)
    (hne : stored M key w ≠ stored M key w₀) :
    ∃ (k : Nat) (e : Event M) (item : Item A), h[k]? = some e ∧ e.Wrote key item := by
  induction H with
  | nil => exact absurd rfl hne
  | @snoc h w i op c H hok ih =>
    by_cases hsame : stored M key (M.exec op c w).2 = stored M key w
    · obtain ⟨k, e, item, hk, hw⟩ := ih (hsame ▸ hne)
      exact ⟨k, e, item, getElem?_append_of_some hk _, hw⟩
    · obtain ⟨item, hw⟩ := wrote_of_changed (i := i) hsame
      exact ⟨h.length, _, item, List.getElem?_concat_length, hw⟩

/-- An item that has changed since an event was written later. -/
theorem Machine.History.wrote_since (H : M.History allowed w₀ h w) {key : K} {m : Nat}
    {d : Event M} (hm : h[m]? = some d) (hne : stored M key w ≠ stored M key d.after) :
    ∃ (k : Nat) (e : Event M) (item : Item A), m < k ∧ h[k]? = some e ∧ e.Wrote key item := by
  induction H with
  | nil => simp at hm
  | @snoc h w i op c H hok ih =>
    rcases getElem?_snoc.mp hm with hm | ⟨-, rfl⟩
    · by_cases hsame : stored M key (M.exec op c w).2 = stored M key w
      · obtain ⟨k, e, item, hmk, hk, hw⟩ := ih hm (hsame ▸ hne)
        exact ⟨k, e, item, hmk, getElem?_append_of_some hk _, hw⟩
      · obtain ⟨item, hw⟩ := wrote_of_changed (i := i) hsame
        exact ⟨h.length, _, item, (List.getElem?_eq_some_iff.mp hm).1,
          List.getElem?_concat_length, hw⟩
    · exact absurd rfl hne

/-- An item that has changed between two events was written in between. -/
theorem Machine.History.wrote_between (H : M.History allowed w₀ h w) (key : K) {m n : Nat}
    {d e : Event M} (hmn : m < n) (hm : h[m]? = some d) (hn : h[n]? = some e)
    (hne : stored M key e.before ≠ stored M key d.after) :
    ∃ (k : Nat) (x : Event M) (item : Item A), m < k ∧ k < n ∧ h[k]? = some x ∧
      x.Wrote key item := by
  have hm' : (h.take n)[m]? = some d := by rw [List.getElem?_take, if_pos hmn, hm]
  obtain ⟨k, x, item, hmk, hk, hw⟩ := (H.at_position hn).1.wrote_since hm' hne
  rw [List.getElem?_take] at hk
  split at hk
  · exact ⟨k, x, item, hmk, ‹_›, hk, hw⟩
  · cases hk

/-- A guarded write makes the item newer. -/
theorem Event.Wrote.newer {i : Nat} {op : ((tableOps E K I A).sum G).Op} {c : M.Choice}
    {past : List (Move ((tableOps E K I A).sum G))} (hg : GuardedWrites past op) {key : K}
    {item : Item A} (hw : (M.event i op c w).Wrote key item) :
    Newer (stored M key w) (some item) := by
  obtain ⟨cond, hop, hc, -⟩ := hw
  obtain ⟨_, current, -, rfl, hv⟩ := hg key item cond hop
  exact .of_unchanged hc hv

/-- Under guarded writes, the item under any key is the same or newer after each
step. -/
theorem newer_step (i : Nat) {op : ((tableOps E K I A).sum G).Op} {c : M.Choice}
    {past : List (Move ((tableOps E K I A).sum G))} (hg : GuardedWrites past op) (key : K) :
    stored M key (M.exec op c w).2 = stored M key w ∨
      Newer (stored M key w) (stored M key (M.exec op c w).2) := by
  by_cases hsame : stored M key (M.exec op c w).2 = stored M key w
  · exact .inl hsame
  · obtain ⟨item, hw⟩ := wrote_of_changed (i := i) hsame
    refine .inr ?_
    rw [show stored M key (M.exec op c w).2 = some item from hw.stored_after]
    exact hw.newer hg

variable (hallowed : ∀ i past op, allowed i past op → GuardedWrites past op)
include hallowed

/-- Between two events, the item under a key is unchanged or has become newer. -/
theorem Machine.History.newer_between (H : M.History allowed w₀ h w) (key : K) {m n : Nat}
    {d e : Event M} (hmn : m < n) (hm : h[m]? = some d) (hn : h[n]? = some e) :
    stored M key d.after = stored M key e.before ∨
      Newer (stored M key d.after) (stored M key e.before) := by
  refine H.after_le_before (fun w w' => stored M key w = stored M key w' ∨
    Newer (stored M key w) (stored M key w')) (fun _ => .inl rfl) ?_ ?_ hmn hm hn
  · rintro a b c (hab | hab) (hbc | hbc)
    · exact .inl (hab.trans hbc)
    · exact .inr (hab ▸ hbc)
    · exact .inr (hbc ▸ hab)
    · exact .inr (hab.trans hbc)
  · intro h w H i op c hok
    exact (newer_step i (hallowed _ _ _ hok) key).imp Eq.symm id

/-- The event at `k` is the read of `key` that guards the write its thread performs
at `n`: the last event of the thread before `n`. -/
structure GuardsAt (h : List (Event M)) (i : Nat) (key : K) (k n : Nat) : Prop where
  read : ∃ d current, h[k]? = some d ∧ d.thread = i ∧ d.move = ⟨.inl (.getItem key), .ok current⟩ ∧
    past i (h.take n) = past i (h.take k) ++ [d.move]
  before : k < n
  last : ∀ j x, k < j → j < n → h[j]? = some x → x.thread ≠ i

/-- Every guarded write has a read that guards it, and finds the item as that read
left it. -/
theorem Machine.History.guarding_read (H : M.History allowed w₀ h w) {n : Nat} {e : Event M}
    (hn : h[n]? = some e) {key : K} {item : Item A} (hw : e.Wrote key item) :
    ∃ k d, GuardsAt h e.thread key k n ∧ h[k]? = some d ∧
      (Condition.unchanged (stored M key d.after)).Holds (stored M key e.before) := by
  obtain ⟨cond, hop, hc, -⟩ := hw
  obtain ⟨-, hok, -⟩ := H.at_position hn
  obtain ⟨earlier, current, hpast, rfl, -⟩ := hallowed _ _ _ hok key item cond hop
  obtain ⟨k, d, hk, hthread, hmove, hearlier, hlast⟩ := past_last hpast
  rw [List.getElem?_take] at hk
  split at hk
  · rename_i hkn
    rw [List.take_take, Nat.min_eq_left (Nat.le_of_lt hkn)] at hearlier
    obtain ⟨-, -, c, hd⟩ := H.at_position hk
    have hread : current = stored M key d.after := by
      have hdop : d.move.op = .inl (.getItem key) := by rw [hmove]
      rw [hdop] at hd
      have hreply := congrArg Event.move hd
      rw [hmove] at hreply
      obtain ⟨hsame, hr⟩ := T.exec_get key c d.before
      have hafter : d.after = (M.exec (.inl (.getItem key)) c d.before).2 := congrArg Event.after hd
      rw [stored, hafter, hsame]
      exact hr current (eq_of_heq (Move.mk.inj hreply).2).symm
    refine ⟨k, d, ⟨⟨d, current, hk, hthread, hmove, ?_⟩, hkn, ?_⟩, hk, hread ▸ hc⟩
    · rw [hpast, hearlier, hmove]
    · intro j x hkj hjn hx
      exact hlast j x hkj (by rw [List.getElem?_take, if_pos hjn, hx])
  · cases hk

/-- **The window a condition protects.**  No write to the key takes effect between
the read that guards a write and the write. -/
theorem Machine.History.protected_window (H : M.History allowed w₀ h w) {n : Nat} {e : Event M}
    (hn : h[n]? = some e) {key : K} {item : Item A} (hw : e.Wrote key item) :
    ∃ k, GuardsAt h e.thread key k n ∧
      ∀ j x item', k < j → j < n → h[j]? = some x → ¬ x.Wrote key item' := by
  obtain ⟨k, d, hguard, hk, hc⟩ := H.guarding_read hallowed hn hw
  refine ⟨k, hguard, fun j x item' hkj hjn hx hwx => ?_⟩
  obtain ⟨-, hok, c, hxe⟩ := H.at_position hx
  have hins : stored M key x.after = some item' := hwx.stored_after
  have hnew : Newer (stored M key x.before) (stored M key x.after) := by
    rw [hins]
    exact Event.Wrote.newer (hallowed _ _ _ hok) (hxe ▸ hwx)
  have hdx := H.newer_between hallowed key hkj hk hx
  have hxe := H.newer_between hallowed key hjn hx hn
  have hde : Newer (stored M key d.after) (stored M key e.before) := by
    have hda : Newer (stored M key d.after) (stored M key x.after) := by
      rcases hdx with h | h
      · exact h ▸ hnew
      · exact h.trans hnew
    rcases hxe with h | h
    · exact h ▸ hda
    · exact hda.trans h
  exact hde.not_unchanged hc

end Guarded

/-! ## Reads a program made earlier -/

section Undisturbed
variable {G : Signature E} {M : Machine ((tableOps E K I A).sum G)} {index : K → I}
  [T : TableMachine M index]

/-- No write of another thread to `key` takes effect between positions `m` and `n`. -/
def Undisturbed (h : List (Event M)) (i : Nat) (key : K) (m n : Nat) : Prop :=
  ∀ k x item, m < k → k < n → h[k]? = some x → x.thread ≠ i → ¬ x.Wrote key item

variable {allowed : Nat → List (Move ((tableOps E K I A).sum G)) →
  ((tableOps E K I A).sum G).Op → Prop} {w₀ w : M.World} {h : List (Event M)}

/-- **What a condition does not protect.**  From any position on, a write is
undisturbed exactly when the read that guards it is. -/
theorem Machine.History.undisturbed_iff (H : M.History allowed w₀ h w)
    (hallowed : ∀ i past op, allowed i past op → GuardedWrites past op) {n : Nat} {e : Event M}
    (hn : h[n]? = some e) {key : K} {item : Item A} (hw : e.Wrote key item) :
    ∃ k, GuardsAt h e.thread key k n ∧
      ∀ m, Undisturbed h e.thread key m n ↔ Undisturbed h e.thread key m k := by
  obtain ⟨k, hguard, hwindow⟩ := H.protected_window hallowed hn hw
  refine ⟨k, hguard, fun m => ⟨fun hall j x item' hmj hjk => ?_, fun hread j x item' hmj hjn => ?_⟩⟩
  · exact hall j x item' hmj (Nat.lt_trans hjk hguard.before)
  · intro hx hother
    rcases Nat.lt_trichotomy j k with hjk | rfl | hkj
    · exact hread j x item' hmj hjk hx hother
    · obtain ⟨d, current, hd, hthread, -⟩ := hguard.read
      obtain rfl := Option.some.inj (hd.symm.trans hx)
      exact absurd hthread hother
    · exact hwindow j x item' hkj hjn hx

end Undisturbed
end Effects
