import AxSentinel.Ranking
import Mathlib.Data.Finset.Card
import Mathlib.Data.Set.Function

/-! # The greatest of a set, from batches

`Top key k S xs`: the list has the `k` greatest items of a finite set, the greatest first.  There is
one such list (`Top.unique`), a sort finds it (`top_take_sortDesc`), and it can be kept up to date:
what was cut off from one part is not among the greatest of a greater part (`Top.union`).  So a
merge that keeps the `k` greatest of what it gets has those of all items in the end, whatever the
batches and their order (`Top.foldl`). -/
namespace Selection

variable {α κ : Type} [DecidableEq α] [LinearOrder κ] {key : α → κ} {k : Nat}

/-- The list has the `k` greatest items of the set, in decreasing order. -/
structure Top (key : α → κ) (k : Nat) (S : Finset α) (xs : List α) : Prop where
  length : xs.length = min k S.card
  subset : ∀ x ∈ xs, x ∈ S
  ordered : xs.Pairwise fun x y => key y < key x
  optimal : ∀ x ∈ xs, ∀ y ∈ S, y ∉ xs → key y < key x

namespace Top
variable {S T : Finset α} {xs ys : List α}

omit [DecidableEq α] in
theorem nodup (h : Top key k S xs) : xs.Nodup := by
  refine h.ordered.imp fun hlt heq => ?_
  rw [heq] at hlt
  exact lt_irrefl _ hlt

theorem card_toFinset (h : Top key k S xs) : xs.toFinset.card = min k S.card := by
  rw [List.toFinset_card_of_nodup h.nodup, h.length]

theorem toFinset_subset (h : Top key k S xs) : xs.toFinset ⊆ S :=
  fun x hx => h.subset x (List.mem_toFinset.mp hx)

/-- Nothing is left out of a set that is small enough. -/
theorem toFinset_eq (h : Top key k S xs) (hcard : S.card ≤ k) : xs.toFinset = S := by
  refine Finset.eq_of_subset_of_card_le h.toFinset_subset ?_
  rw [h.card_toFinset]
  omega

/-- Where something is left out, there are `k` items. -/
theorem card_of_not_mem (h : Top key k S xs) {y : α} (hy : y ∈ S) (hnot : y ∉ xs) :
    xs.toFinset.card = k := by
  by_cases hcard : S.card ≤ k
  · rw [← h.toFinset_eq hcard] at hy
    exact absurd (List.mem_toFinset.mp hy) hnot
  · rw [h.card_toFinset]
    omega

/-- **What was cut off stays off.**  The greatest of a set together with other items are among the
greatest of the set and the other items. -/
theorem union (h : Top key k S xs) (h' : Top key k (xs.toFinset ∪ T) ys) :
    Top key k (S ∪ T) ys := by
  have hparts : xs.toFinset ∪ T ⊆ S ∪ T := Finset.union_subset_union_left h.toFinset_subset
  refine ⟨?_, fun y hy => hparts (h'.subset y hy), h'.ordered, fun x hx y hy hnot => ?_⟩
  · rw [h'.length]
    by_cases hcard : S.card ≤ k
    · rw [h.toFinset_eq hcard]
    · -- the list is full already
      have hfull : xs.toFinset.card = k := by
        rw [h.card_toFinset]
        omega
      have hleft : xs.toFinset.card ≤ (xs.toFinset ∪ T).card :=
        Finset.card_le_card Finset.subset_union_left
      have hright := Finset.card_le_card hparts
      omega
  · by_cases hkept : y ∈ xs.toFinset ∪ T
    · exact h'.optimal x hx y hkept hnot
    · -- `y` was cut off before: `k` greater items were there, and `x` is one that beats them
      rw [Finset.mem_union, not_or, List.mem_toFinset] at hkept
      have hyS : y ∈ S := (Finset.mem_union.mp hy).resolve_right hkept.2
      by_contra hle
      have hxy : key x ≤ key y := not_lt.mp hle
      have hgreater : ∀ z ∈ xs, key x < key z := fun z hz =>
        hxy.trans_lt (h.optimal z hz y hyS hkept.1)
      have hall : xs.toFinset ⊆ ys.toFinset := by
        intro z hz
        have hzxs := List.mem_toFinset.mp hz
        by_contra hzys
        have hbeaten := h'.optimal x hx z (Finset.mem_union_left _ hz)
          fun hmem => hzys (List.mem_toFinset.mpr hmem)
        exact lt_asymm hbeaten (hgreater z hzxs)
      have hmore : (insert x xs.toFinset).card ≤ ys.toFinset.card :=
        Finset.card_le_card (Finset.insert_subset (List.mem_toFinset.mpr hx) hall)
      have hnew : x ∉ xs.toFinset := fun hmem =>
        lt_irrefl _ (hgreater x (List.mem_toFinset.mp hmem))
      rw [Finset.card_insert_of_notMem hnew, h.card_of_not_mem hyS hkept.1,
        h'.card_toFinset] at hmore
      omega

/-- There is one such list. -/
theorem unique (h : Top key k S xs) (h' : Top key k S ys) : xs = ys := by
  have hsub : xs.toFinset ⊆ ys.toFinset := by
    intro x hx
    rw [List.mem_toFinset] at hx ⊢
    by_contra hnot
    -- another item would stand in the place of `x`
    have hcard := h'.card_of_not_mem (h.subset x hx) hnot
    have hle : xs.toFinset.card ≤ ys.toFinset.card := by
      rw [h.card_toFinset, h'.card_toFinset]
    have hproper : ¬ ys.toFinset ⊆ xs.toFinset := fun hback => by
      have heq := Finset.eq_of_subset_of_card_le hback hle
      exact hnot (List.mem_toFinset.mp (heq ▸ List.mem_toFinset.mpr hx))
    obtain ⟨y, hy, hyx⟩ := Finset.not_subset.mp hproper
    rw [List.mem_toFinset] at hy hyx
    exact lt_asymm (h.optimal x hx y (h'.subset y hy) hyx)
      (h'.optimal y hy x (h.subset x hx) hnot)
  have heq : xs.toFinset = ys.toFinset :=
    Finset.eq_of_subset_of_card_le hsub (by rw [h.card_toFinset, h'.card_toFinset])
  have hperm : xs.Perm ys := (List.perm_ext_iff_of_nodup h.nodup h'.nodup).mpr fun x => by
    rw [← List.mem_toFinset, heq, List.mem_toFinset]
  exact hperm.eq_of_pairwise (fun x y _ _ hxy hyx => absurd hxy (lt_asymm hyx)) h.ordered h'.ordered

end Top

/-- The first items of a sort are the greatest, if they are distinct and their keys are. -/
theorem top_take_sortDesc {zs : List α} (hnodup : zs.Nodup)
    (hinj : ∀ x ∈ zs, ∀ y ∈ zs, key x = key y → x = y) :
    Top key k zs.toFinset ((Ranking.sortDesc key zs).take k) := by
  have hperm := Ranking.perm_sortDesc key zs
  have hmem : ∀ {x}, x ∈ Ranking.sortDesc key zs ↔ x ∈ zs := hperm.mem_iff
  have hstrict : (Ranking.sortDesc key zs).Pairwise fun x y => key y < key x := by
    have hsorted := (Ranking.sorted_sortDesc key zs).and (hperm.nodup_iff.mpr hnodup)
    refine hsorted.imp_of_mem fun hx hy hxy => hxy.1.lt_of_ne fun heq => ?_
    exact hxy.2 (hinj _ (hmem.mp hy) _ (hmem.mp hx) heq).symm
  refine ⟨?_, fun x hx => ?_, hstrict.sublist (List.take_sublist ..), fun x hx y hy hnot => ?_⟩
  · rw [List.length_take, hperm.length_eq, List.toFinset_card_of_nodup hnodup]
  · exact List.mem_toFinset.mpr (hmem.mp (List.mem_of_mem_take hx))
  · have hsplit : y ∈ (Ranking.sortDesc key zs).take k ++ (Ranking.sortDesc key zs).drop k := by
      rw [List.take_append_drop]
      exact hmem.mpr (List.mem_toFinset.mp hy)
    rw [← List.take_append_drop k (Ranking.sortDesc key zs), List.pairwise_append] at hstrict
    exact hstrict.2.2 x hx y ((List.mem_append.mp hsplit).resolve_left hnot)

/-- **Batches in any order.**  A merge that keeps the `k` greatest items of what it gets, as long as
all come from one set, has the greatest of all items in the end. -/
theorem Top.foldl {U : Finset α} {merge : List α → List α → List α}
    (hmerge : ∀ current incoming, (∀ x ∈ current, x ∈ U) → (∀ x ∈ incoming, x ∈ U) →
      Top key k (current.toFinset ∪ incoming.toFinset) (merge current incoming))
    {batches : List (List α)} (hbatches : ∀ batch ∈ batches, ∀ x ∈ batch, x ∈ U) {S : Finset α}
    (hS : S ⊆ U) {current : List α} (h : Top key k S current) :
    Top key k (S ∪ batches.flatten.toFinset) (batches.foldl merge current) := by
  induction batches generalizing S current with
  | nil => simpa using h
  | cons batch batches ih =>
    obtain ⟨hbatch, hbatches⟩ := List.forall_mem_cons.mp hbatches
    have hsub : batch.toFinset ⊆ U := fun x hx => hbatch x (List.mem_toFinset.mp hx)
    have hnext : Top key k (S ∪ batch.toFinset) (merge current batch) :=
      h.union (hmerge current batch (fun x hx => hS (h.subset x hx)) hbatch)
    have hall := ih hbatches (Finset.union_subset hS hsub) hnext
    rwa [Finset.union_assoc, ← List.toFinset_append, ← List.flatten_cons] at hall

end Selection
