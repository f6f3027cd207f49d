import Mathlib.Data.List.Nodup

/-! # Merging items by key

A map that keeps the order in which its keys came, as a list of the items under their keys: a
later item takes the place of the one with its key (`set`).  Merging items into others one by one
keeps the last item of each key (`mem_of_mem_merge`, `mem_merge`). -/
namespace Merging

variable {A K : Type} [DecidableEq K] (key : A → K)

/-- The items with `a` under its key. -/
def set (items : List A) (a : A) : List A :=
  if items.any fun x => key x = key a then items.map fun x => if key x = key a then a else x
  else items ++ [a]

/-- The items with others set one by one. -/
def setAll (items others : List A) : List A := others.foldl (set key) items

/-- Items and others, the last one of each key. -/
def merge (items others : List A) : List A := setAll key (setAll key [] items) others

variable {key} {items others : List A} {a x : A}

theorem mem_set : x ∈ set key items a ↔ x = a ∨ x ∈ items ∧ key x ≠ key a := by
  unfold set
  by_cases hany : (items.any fun y => key y = key a) = true
  · rw [if_pos hany, List.mem_map]
    obtain ⟨z, hz, hkey⟩ := List.any_eq_true.mp hany
    have hkey : key z = key a := of_decide_eq_true hkey
    constructor
    · rintro ⟨y, hy, rfl⟩
      by_cases hya : key y = key a
      · exact .inl (if_pos hya)
      · rw [if_neg hya]
        exact .inr ⟨hy, hya⟩
    · rintro (rfl | ⟨hx, hne⟩)
      · exact ⟨z, hz, if_pos hkey⟩
      · exact ⟨x, hx, if_neg hne⟩
  · rw [if_neg hany, List.mem_append, List.mem_singleton]
    constructor
    · rintro (hx | rfl)
      · refine .inr ⟨hx, fun hkey => hany ?_⟩
        exact List.any_eq_true.mpr ⟨x, hx, decide_eq_true hkey⟩
      · exact .inl rfl
    · rintro (rfl | ⟨hx, -⟩)
      · exact .inr rfl
      · exact .inl hx

theorem map_key_set : (set key items a).map key =
    if key a ∈ items.map key then items.map key else items.map key ++ [key a] := by
  unfold set
  by_cases hany : (items.any fun y => key y = key a) = true
  · obtain ⟨z, hz, hkey⟩ := List.any_eq_true.mp hany
    have hmem : key a ∈ items.map key :=
      of_decide_eq_true hkey ▸ List.mem_map_of_mem hz
    rw [if_pos hany, if_pos hmem, List.map_map]
    refine List.map_congr_left fun y _ => ?_
    by_cases hya : key y = key a
    · simp [hya]
    · simp [hya]
  · have hmem : key a ∉ items.map key := by
      intro hmem
      obtain ⟨z, hz, hkey⟩ := List.mem_map.mp hmem
      exact hany (List.any_eq_true.mpr ⟨z, hz, decide_eq_true hkey⟩)
    rw [if_neg hany, if_neg hmem, List.map_append]
    rfl

/-- A key is there once. -/
theorem nodup_set (h : (items.map key).Nodup) : ((set key items a).map key).Nodup := by
  rw [map_key_set]
  split
  · exact h
  · next hmem => exact List.nodup_append_comm.mp (List.nodup_cons.mpr ⟨hmem, h⟩)

theorem nodup_setAll (h : (items.map key).Nodup) : ((setAll key items others).map key).Nodup := by
  induction others generalizing items with
  | nil => exact h
  | cons a others ih => exact ih (nodup_set h)

theorem nodup_merge : ((merge key items others).map key).Nodup :=
  nodup_setAll (nodup_setAll List.nodup_nil)

/-- An item that is set was there under a key that is not set, or is one of the others. -/
theorem mem_of_mem_setAll (h : x ∈ setAll key items others) :
    x ∈ others ∨ x ∈ items ∧ ∀ y ∈ others, key y ≠ key x := by
  induction others generalizing items with
  | nil => exact .inr ⟨h, fun _ hy => nomatch hy⟩
  | cons a others ih =>
    rcases ih h with hmem | ⟨hmem, hne⟩
    · exact .inl (List.mem_cons_of_mem _ hmem)
    · rcases mem_set.mp hmem with rfl | ⟨hx, hxa⟩
      · exact .inl List.mem_cons_self
      · exact .inr ⟨hx, List.forall_mem_cons.mpr ⟨hxa.symm, hne⟩⟩

/-- An item stays if no other item is set under its key. -/
theorem mem_setAll (h : x ∈ items ∨ x ∈ others) (hsame : ∀ y ∈ others, key y = key x → y = x) :
    x ∈ setAll key items others := by
  induction others generalizing items with
  | nil => exact h.resolve_right List.not_mem_nil
  | cons a others ih =>
    obtain ⟨ha, hsame⟩ := List.forall_mem_cons.mp hsame
    refine ih ?_ hsame
    rcases h with hx | hx
    · by_cases hkey : key a = key x
      · exact .inl (mem_set.mpr (.inl (ha hkey).symm))
      · exact .inl (mem_set.mpr (.inr ⟨hx, fun h => hkey h.symm⟩))
    · rcases List.mem_cons.mp hx with rfl | hx
      · exact .inl (mem_set.mpr (.inl rfl))
      · exact .inr hx

/-- A merged item is one of the others, or an item whose key none of them has. -/
theorem mem_of_mem_merge (h : x ∈ merge key items others) :
    x ∈ others ∨ x ∈ items ∧ ∀ y ∈ others, key y ≠ key x := by
  refine (mem_of_mem_setAll h).imp_right fun ⟨hx, hne⟩ => ⟨?_, hne⟩
  exact (mem_of_mem_setAll hx).resolve_right fun hnil => nomatch hnil.1

/-- Of items with distinct keys, one stays if no other item is merged under its key. -/
theorem mem_merge (hitems : (items.map key).Nodup) (h : x ∈ items ∨ x ∈ others)
    (hsame : ∀ y ∈ others, key y = key x → y = x) : x ∈ merge key items others := by
  refine mem_setAll (h.imp_left fun hx => mem_setAll (.inr hx) fun y hy hkey => ?_) hsame
  exact List.inj_on_of_nodup_map hitems hy hx hkey

end Merging
