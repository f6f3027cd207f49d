import AxSentinel.Supplies
import AxSentinel.VersionedTable

/-! # Where stored items come from

Every item of a table was there at the start or was written by an event of the history
(`wrote_of_stored`), so what the writes of the threads have in common the stored items have
(`stored_invariant`).  A thread that has written or read an item knows that its key has one from
then on (`Knows`).  A key that carries a fresh value is written once, by the thread that drew the
value, and keeps its item (`stored_of_fresh`). -/
namespace Effects

variable {E : Type} {K I A : Type} [DecidableEq K] {G : Signature E}

/-- A write of an item under the key replied, or a read of it found one. -/
inductive Knows (past : List (Move ((tableOps E K I A).sum G))) (key : K) : Prop
  | put {item cond} :
      (⟨.inl (.putItem key item cond), .ok ()⟩ : Move ((tableOps E K I A).sum G)) ∈ past →
      Knows past key
  | get {item} :
      (⟨.inl (.getItem key), .ok (some item)⟩ : Move ((tableOps E K I A).sum G)) ∈ past →
      Knows past key

omit [DecidableEq K] in
theorem Knows.mono {past past' : List (Move ((tableOps E K I A).sum G))} {key : K}
    (h : Knows past key) (hsub : past ⊆ past') : Knows past' key := by
  cases h with
  | put hput => exact .put (hsub hput)
  | get hget => exact .get (hsub hget)

section Histories
variable {M : Machine ((tableOps E K I A).sum G)} {index : K → I} [T : TableMachine M index]
  {allowed : Nat → List (Move ((tableOps E K I A).sum G)) → ((tableOps E K I A).sum G).Op → Prop}
  {w₀ w : M.World} {h : List (Event M)} {key : K} {item : Item A}

/-- A write that replied took effect. -/
theorem Machine.History.wrote_of_replied (H : M.History allowed w₀ h w) {i : Nat} {cond : Condition}
    (hm : (⟨.inl (.putItem key item cond), .ok ()⟩ : Move ((tableOps E K I A).sum G)) ∈ past i h) :
    ∃ (n : Nat) (e : Event M), h[n]? = some e ∧ e.thread = i ∧ e.Wrote key item := by
  obtain ⟨n, e, c, hn, hevent, hexec⟩ := H.exec_of_mem_past hm
  rcases T.exec_put key item cond c e.before with ⟨-, hraised⟩ | ⟨hcond, hins⟩
  · exact absurd hexec (hraised ())
  · refine ⟨n, e, hn, by rw [hevent]; rfl, ?_⟩
    rw [hevent]
    exact ⟨cond, rfl, hcond, hins⟩

/-- A read that replied found what was stored. -/
theorem Machine.History.stored_of_read (H : M.History allowed w₀ h w) {i : Nat}
    {current : Option (Item A)}
    (hm : (⟨.inl (.getItem key), .ok current⟩ : Move ((tableOps E K I A).sum G)) ∈ past i h) :
    ∃ (n : Nat) (e : Event M), h[n]? = some e ∧ e.thread = i ∧ stored M key e.before = current ∧
      stored M key e.after = current := by
  obtain ⟨n, e, c, hn, hevent, hexec⟩ := H.exec_of_mem_past hm
  obtain ⟨hsame, hread⟩ := T.exec_get key c e.before
  have hbefore : stored M key e.before = current := (hread current hexec).symm
  have hafter : T.table e.after = T.table e.before := by
    rw [hevent]
    exact hsame
  exact ⟨n, e, hn, by rw [hevent]; rfl, hbefore, by rw [stored, hafter]; exact hbefore⟩

/-- A query that replied found the items of the index value. -/
theorem Machine.History.entries_of_query [DecidableEq I] [C : ConsistentQueries M]
    (H : M.History allowed w₀ h w) {i : Nat} {t : I} {items : List A}
    (hm : (⟨.inl (.query t), .ok items⟩ : Move ((tableOps E K I A).sum G)) ∈ past i h) :
    ∃ (n : Nat) (e : Event M), h[n]? = some e ∧ e.thread = i ∧ T.table e.after = T.table e.before ∧
      items = ((T.table e.before).entries.filter fun x => index x.1 = t).map
        fun x => x.2.attributes := by
  obtain ⟨n, e, c, hn, hevent, hexec⟩ := H.exec_of_mem_past hm
  refine ⟨n, e, hn, by rw [hevent]; rfl, ?_, C.found t c e.before items hexec⟩
  rw [hevent]
  exact T.exec_query t c e.before

/-- An item that was stored after an event is stored still, in some version. -/
theorem Machine.History.isSome_kept (H : M.History allowed w₀ h w) {n : Nat} {e : Event M}
    (hn : h[n]? = some e) (hsome : (stored M key e.after).isSome = true) :
    (stored M key w).isSome = true :=
  H.after_le (fun w w' => (stored M key w).isSome = true → (stored M key w').isSome = true)
    (fun _ => id) (fun hab hbc => hbc ∘ hab) (fun _ _ op c _ => isSome_step op c)
    (List.mem_of_getElem? hn) hsome

/-- A thread that knows of an item is right. -/
theorem Machine.History.isSome_of_knows (H : M.History allowed w₀ h w) {i : Nat}
    (hknows : Knows (past i h) key) : (stored M key w).isSome = true := by
  cases hknows with
  | put hput =>
    obtain ⟨n, e, hn, -, hwrote⟩ := H.wrote_of_replied hput
    exact H.isSome_kept hn (by rw [hwrote.stored_after]; rfl)
  | get hget =>
    obtain ⟨n, e, hn, -, -, hafter⟩ := H.stored_of_read hget
    exact H.isSome_kept hn (by rw [hafter]; rfl)

/-- A stored item that was not there at the start was written. -/
theorem Machine.History.wrote_of_stored (H : M.History allowed w₀ h w)
    (hs : stored M key w = some item) (hstart : stored M key w₀ ≠ some item) :
    ∃ (n : Nat) (e : Event M), h[n]? = some e ∧ e.Wrote key item := by
  induction H with
  | nil => exact absurd hs hstart
  | @snoc h w i op c H hok ih =>
    by_cases hsame : stored M key (M.exec op c w).2 = stored M key w
    · obtain ⟨n, e, hn, hw⟩ := ih (hsame ▸ hs)
      exact ⟨n, e, getElem?_append_of_some hn _, hw⟩
    · obtain ⟨item', hw⟩ := wrote_of_changed (i := i) hsame
      have hafter : stored M key (M.exec op c w).2 = some item' := hw.stored_after
      obtain rfl := Option.some.inj (hafter.symm.trans hs)
      exact ⟨h.length, _, List.getElem?_concat_length, hw⟩

/-- A write that took effect was justified by the moves before the read that guards it. -/
theorem Machine.History.justified (H : M.History allowed w₀ h w)
    {W : Nat → List (Move ((tableOps E K I A).sum G)) → K → A → Prop}
    (hallowed : ∀ i past op, allowed i past op → WritesOnly (W i) past op) {n : Nat} {e : Event M}
    (hn : h[n]? = some e) (hw : e.Wrote key item) :
    ∃ earlier current, past e.thread (h.take n) = earlier ++ [⟨.inl (.getItem key), .ok current⟩] ∧
      item.version = some (versionOf current + 1) ∧ W e.thread earlier key item.attributes := by
  obtain ⟨-, hok, -⟩ := H.at_position hn
  obtain ⟨cond, hop, -⟩ := hw
  obtain ⟨earlier, current, hpast, -, hversion, hW⟩ := hallowed _ _ _ hok key item cond hop
  exact ⟨earlier, current, hpast, hversion, hW⟩

/-- What holds of the items at the start and of every item that is written holds of all that are
stored. -/
theorem Machine.History.stored_invariant (H : M.History allowed w₀ h w) {J : K → Item A → Prop}
    (hstart : ∀ key item, stored M key w₀ = some item → J key item)
    (hwrite : ∀ (n : Nat) (e : Event M) key item, h[n]? = some e → e.Wrote key item → J key item)
    (hs : stored M key w = some item) : J key item := by
  by_cases hold : stored M key w₀ = some item
  · exact hstart key item hold
  · obtain ⟨n, e, hn, hw⟩ := H.wrote_of_stored hs hold
    exact hwrite n e key item hn hw

/-- An item that is written only once stays as it was written. -/
theorem Machine.History.stored_of_wrote (H : M.History allowed w₀ h w) {n : Nat} {e : Event M}
    (hn : h[n]? = some e) (hw : e.Wrote key item)
    (honce : ∀ (k : Nat) (d : Event M) item', n < k → h[k]? = some d → ¬ d.Wrote key item') :
    stored M key w = some item := by
  by_cases hsame : stored M key w = stored M key e.after
  · rw [hsame]
    exact hw.stored_after
  · obtain ⟨k, d, item', hnk, hk, hd⟩ := H.wrote_since hn hsame
    exact absurd hd (honce k d item' hnk hk)

end Histories

/-! ## Keys that carry a fresh value -/

/-- The thread has drawn the value and has not written the key. -/
structure Fresh {B : Type} {M : Machine ((tableOps E K I A).sum G)} (D : Drawing M B)
    (past : List (Move ((tableOps E K I A).sum G))) (key : K) (b : B) : Prop where
  drawn : ∃ m ∈ past, D.drawn m = some b
  unwritten : ∀ m ∈ past, ∀ item cond, m.op ≠ .inl (.putItem key item cond)

omit [DecidableEq K] in
theorem Fresh.snoc {B : Type} {M : Machine ((tableOps E K I A).sum G)} {D : Drawing M B}
    {past : List (Move ((tableOps E K I A).sum G))} {key : K} {b : B} (h : Fresh D past key b)
    {m : Move ((tableOps E K I A).sum G)} (hm : ∀ item cond, m.op ≠ .inl (.putItem key item cond)) :
    Fresh D (past ++ [m]) key b := by
  obtain ⟨⟨x, hx, hxb⟩, hunwritten⟩ := h
  refine ⟨⟨x, List.mem_append_left _ hx, hxb⟩, fun y hy => ?_⟩
  rcases List.mem_append.mp hy with hy | hy
  · exact hunwritten y hy
  · obtain rfl := List.mem_singleton.mp hy
    exact hm

section Once
variable {B : Type} {M : Machine ((tableOps E K I A).sum G)} {index : K → I}
  [T : TableMachine M index]
  {allowed : Nat → List (Move ((tableOps E K I A).sum G)) → ((tableOps E K I A).sum G).Op → Prop}
  {w₀ w : M.World} {h : List (Event M)} {key : K} {b : B}

/-- The key is written once. -/
theorem Drawing.wrote_unique (D : Drawing M B) (H : M.History allowed w₀ h w)
    (hstart : D.Supplied w₀)
    (hfresh : ∀ (n : Nat) (e : Event M) item, h[n]? = some e → e.Wrote key item →
      Fresh D (past e.thread (h.take n)) key b)
    {m n : Nat} {d e : Event M} {item item' : Item A} (hm : h[m]? = some d) (hn : h[n]? = some e)
    (hd : d.Wrote key item) (he : e.Wrote key item') : m = n := by
  have hthread : d.thread = e.thread := by
    obtain ⟨x, hx, hxb⟩ := (hfresh m d item hm hd).drawn
    obtain ⟨y, hy, hyb⟩ := (hfresh n e item' hn he).drawn
    exact D.thread_unique H hstart (mem_past_of_take hx) hxb (mem_past_of_take hy) hyb
  -- of two writes the later one would find the earlier one in its past
  have hnone : ∀ {m n : Nat} {d e : Event M} {item item' : Item A}, h[m]? = some d →
      h[n]? = some e → d.Wrote key item → e.Wrote key item' → d.thread = e.thread → ¬ m < n := by
    intro m n d e item item' hm hn hd he hthread hlt
    obtain ⟨cond, hop, -⟩ := hd
    exact (hfresh n e item' hn he).unwritten d.move (mem_past_of_lt hm hthread hlt) item cond hop
  rcases Nat.lt_trichotomy m n with hlt | heq | hgt
  · exact absurd hlt (hnone hm hn hd he hthread)
  · exact heq
  · exact absurd hgt (hnone hn hm he hd hthread.symm)

/-- **What is written under a fresh key stays.** -/
theorem Drawing.stored_of_fresh (D : Drawing M B) (H : M.History allowed w₀ h w)
    (hstart : D.Supplied w₀)
    (hfresh : ∀ (n : Nat) (e : Event M) item, h[n]? = some e → e.Wrote key item →
      Fresh D (past e.thread (h.take n)) key b)
    {n : Nat} {e : Event M} {item : Item A} (hn : h[n]? = some e) (he : e.Wrote key item) :
    stored M key w = some item := by
  refine H.stored_of_wrote hn he fun k d item' hnk hk hd => ?_
  have heq := D.wrote_unique H hstart hfresh hn hk he hd
  omega

end Once
end Effects
