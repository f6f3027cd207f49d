import AxSentinel.StoredItems

/-! # Tables whose index lags

A listing of an index value is read page by page, between the writes of others, and from an index
that follows the table with a delay.  So what it has are items as they were written some time, in
any order, one perhaps in two versions and none of them sure to be there (`laggingMachine`).  What
can be said of it is that it has nothing that was not written (`History.wrote_of_query`).
-/
namespace Effects

variable {E : Type} {K I A : Type} [DecidableEq K] {G : Signature E}

/-- A table of which a query finds whatever was ever written; it keeps all that was, and the choice
says which of it. -/
abbrev laggingMachine [DecidableEq I] (A : Type) (index : K → I) (conditionFailed : E) :
    Machine (tableOps E K I A) where
  World := Table K A × List (K × A)
  Choice := Nat × List Nat
  exec
    | .getItem key, _, w => (.ok (w.1.lookup key), w)
    | .putItem key item cond, _, w =>
        if cond.Holds (w.1.lookup key) then
          (.ok (), (w.1.insert key item, w.2 ++ [(key, item.attributes)]))
        else (.error conditionFailed, w)
    | .query i, c, w =>
        (.ok (((c.2.filterMap fun n => w.2[n]?).filter fun x => index x.1 = i).map Prod.snd), w)
    | .now, c, w => (.ok c.1, w)

instance TableMachine.besideLagging [DecidableEq I] (index : K → I) (conditionFailed : E)
    (N : Machine G) : TableMachine ((laggingMachine A index conditionFailed).sum N) index where
  table w := w.1.1
  exec_other _ _ _ := rfl
  exec_get _ _ _ := ⟨rfl, fun _ hr => (Except.ok.inj hr).symm⟩
  exec_query _ _ _ := rfl
  exec_now _ _ := rfl
  exec_put key item cond c w := by
    simp only [laggingMachine]
    by_cases hc : cond.Holds (w.1.1.lookup key)
    · exact .inr ⟨hc, by rw [if_pos hc]⟩
    · exact .inl (by rw [if_neg hc]; exact ⟨rfl, nofun⟩)

/-- A query that replies has only what was written. -/
class LaggingQueries (M : Machine ((tableOps E K I A).sum G)) {index : outParam (K → I)}
    [T : TableMachine M index] where
  written : M.World → List (K × A)
  written_step : ∀ op c w, ∀ x ∈ written (M.exec op c w).2, x ∈ written w ∨
    ∃ (item : Item A) (cond : Condition), op = .inl (.putItem x.1 item cond) ∧
      cond.Holds ((T.table w).lookup x.1) ∧
      T.table (M.exec op c w).2 = (T.table w).insert x.1 item ∧ item.attributes = x.2
  found : ∀ i c w (r : List A), (M.exec (.inl (.query i)) c w).1 = .ok r →
    ∀ a ∈ r, ∃ key, index key = i ∧ (key, a) ∈ written w

instance LaggingQueries.beside [DecidableEq I] (index : K → I) (conditionFailed : E)
    (N : Machine G) : LaggingQueries ((laggingMachine A index conditionFailed).sum N) where
  written w := w.1.2
  written_step op c w x hx := by
    match op with
    | .inr _ => exact .inl hx
    | .inl (.getItem _) => exact .inl hx
    | .inl (.query _) => exact .inl hx
    | .inl .now => exact .inl hx
    | .inl (.putItem key item cond) =>
      simp only [laggingMachine] at hx ⊢
      by_cases hc : cond.Holds (w.1.1.lookup key)
      · rw [if_pos hc] at hx ⊢
        rcases List.mem_append.mp hx with hx | hx
        · exact .inl hx
        · obtain rfl := List.mem_singleton.mp hx
          exact .inr ⟨item, cond, rfl, hc, rfl, rfl⟩
      · rw [if_neg hc] at hx
        exact .inl hx
  found i c w r hr a ha := by
    obtain rfl := Except.ok.inj hr
    obtain ⟨x, hx, rfl⟩ := List.mem_map.mp ha
    obtain ⟨hx, hindex⟩ := List.mem_filter.mp hx
    obtain ⟨n, -, hn⟩ := List.mem_filterMap.mp hx
    exact ⟨x.1, of_decide_eq_true hindex, List.mem_of_getElem? hn⟩

instance LaggingQueries.faulty {index : K → I} (M : Machine ((tableOps E K I A).sum G))
    [T : TableMachine M index] [L : LaggingQueries M]
    (raises : ((tableOps E K I A).sum G).Op → E → Bool) : LaggingQueries (M.faulty raises) where
  written w := L.written w
  written_step op c w x hx := by
    have hstep := L.written_step op c.1 w x
    rcases M.faulty_exec raises op c w with h | ⟨e, -, -, h | h⟩
    · rw [h] at hx ⊢
      exact hstep hx
    · exact .inl (h ▸ hx)
    · rw [h] at hx ⊢
      exact hstep hx
  found i c w r hr := by
    rcases M.faulty_exec raises (.inl (.query i)) c w with h | ⟨e, -, he, -⟩
    · exact L.found i c.1 w r (h ▸ hr)
    · cases he.symm.trans hr

/-! ## What listings have -/

section Histories
variable {M : Machine ((tableOps E K I A).sum G)} {index : K → I} [T : TableMachine M index]
  [L : LaggingQueries M]
  {allowed : Nat → List (Move ((tableOps E K I A).sum G)) → ((tableOps E K I A).sum G).Op → Prop}
  {w₀ w : M.World} {h : List (Event M)}

/-- All that was written was written by an event. -/
theorem Machine.History.wrote_of_written (H : M.History allowed w₀ h w)
    (hstart : L.written w₀ = []) {x : K × A} (hx : x ∈ L.written w) :
    ∃ (n : Nat) (e : Event M) (item : Item A), h[n]? = some e ∧ e.Wrote x.1 item ∧
      item.attributes = x.2 := by
  induction H with
  | nil =>
    rw [hstart] at hx
    cases hx
  | @snoc h w i op c H hok ih =>
    rcases L.written_step op c w x hx with hx | ⟨item, cond, hop, hholds, hins, hattributes⟩
    · obtain ⟨n, e, item, hn, hw, hattributes⟩ := ih hx
      exact ⟨n, e, item, getElem?_append_of_some hn _, hw, hattributes⟩
    · exact ⟨h.length, M.event i op c w, item, List.getElem?_concat_length,
        ⟨cond, hop, hholds, hins⟩, hattributes⟩

/-- A query that replied has only what was written under its index value. -/
theorem Machine.History.wrote_of_query (H : M.History allowed w₀ h w)
    (hstart : L.written w₀ = []) {i : Nat} {t : I} {items : List A}
    (hm : (⟨.inl (.query t), .ok items⟩ : Move ((tableOps E K I A).sum G)) ∈ past i h) {a : A}
    (ha : a ∈ items) : ∃ (key : K) (n : Nat) (e : Event M) (item : Item A), index key = t ∧
      h[n]? = some e ∧ e.Wrote key item ∧ item.attributes = a := by
  obtain ⟨n, e, c, hn, -, hexec⟩ := H.exec_of_mem_past hm
  obtain ⟨key, hkey, hwritten⟩ := L.found t c e.before items hexec a ha
  obtain ⟨k, d, item, hk, hw, hattributes⟩ := (H.at_position hn).1.wrote_of_written hstart hwritten
  rw [List.getElem?_take] at hk
  split at hk
  · exact ⟨key, k, d, item, hkey, hk, hw, hattributes⟩
  · cases hk

end Histories
end Effects
