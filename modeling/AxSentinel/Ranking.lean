import Mathlib.Data.List.Sort
import Mathlib.Data.List.FinRange

/-! # The best of a list

A stable sort by decreasing key, cut off after the first `k`.  What it selects is said by positions,
so that equal items are told apart: `Best` are the positions of the `k` best items, best first, and
`exists_best` finds them in what the sort returns. -/
namespace Ranking

variable {α β κ : Type} [LinearOrder κ]

/-- The comparison of the sort: the first item need not come after the second. -/
def desc (key : α → κ) (x y : α) : Bool := key y ≤ key x

/-- The items by decreasing key, those with the same key in the order of the list. -/
def sortDesc (key : α → κ) (xs : List α) : List α := xs.mergeSort (desc key)

/-- The positions of the `k` best items among those with a property, best first: of two of them the
first has the greater key, or the same key and an earlier position; no item left out has a greater
key. -/
structure Best (key : α → κ) (p : α → Bool) (k : Nat) (xs : List α)
    (positions : List (Fin xs.length)) : Prop where
  length : positions.length = min k (xs.countP p)
  selected : ∀ i ∈ positions, p xs[i] = true
  ordered : positions.Pairwise fun i j => key xs[j] < key xs[i] ∨ key xs[j] = key xs[i] ∧ i < j
  optimal : ∀ i ∈ positions, ∀ j ∉ positions, p xs[j] = true → key xs[j] ≤ key xs[i]

section Stability
variable (key : α → κ)

theorem desc_trans (x y z : α) (hxy : desc key x y = true) (hyz : desc key y z = true) :
    desc key x z = true :=
  decide_eq_true ((of_decide_eq_true hyz).trans (of_decide_eq_true hxy))

theorem desc_total (x y : α) : (desc key x y || desc key y x) = true := by
  simpa [desc] using le_total (key y) (key x)

theorem perm_sortDesc (xs : List α) : (sortDesc key xs).Perm xs := List.mergeSort_perm ..

theorem sorted_sortDesc (xs : List α) :
    (sortDesc key xs).Pairwise fun x y => key y ≤ key x :=
  (List.pairwise_mergeSort (desc_trans key) (desc_total key) xs).imp of_decide_eq_true

theorem sortDesc_map (f : β → α) (xs : List β) :
    sortDesc key (xs.map f) = (sortDesc (fun x => key (f x)) xs).map f :=
  Eq.symm (List.map_mergeSort (f := f) fun _ _ _ _ => rfl)

/-- **The sort is stable.**  The items with one key come in the order of the list. -/
theorem filter_sortDesc (xs : List α) (c : κ) :
    (sortDesc key xs).filter (fun x => key x = c) = xs.filter fun x => key x = c := by
  have hties : (xs.filter fun x => key x = c).Sublist (sortDesc key xs) := by
    apply List.sublist_mergeSort (desc_trans key) (desc_total key) _ List.filter_sublist
    rw [List.pairwise_iff_forall_sublist]
    intro x y hxy
    have hkeys : ∀ z ∈ [x, y], key z = c := fun z hz =>
      of_decide_eq_true (List.mem_filter.mp (hxy.subset hz)).2
    simp [desc, hkeys]
  have hfiltered := hties.filter fun x => key x = c
  rw [List.filter_filter] at hfiltered
  simp only [Bool.and_self] at hfiltered
  exact (hfiltered.eq_of_length ((perm_sortDesc key xs).filter _).length_eq.symm).symm

/-- Of two items with one key, the one that comes first came first. -/
theorem sublist_of_sortDesc {xs : List α} {x y : α} (h : [x, y].Sublist (sortDesc key xs))
    (hkey : key y = key x) : [x, y].Sublist xs := by
  have hboth : [x, y].filter (fun z => key z = key x) = [x, y] := by simp [hkey]
  have hfiltered := h.filter fun z => key z = key x
  rw [hboth, filter_sortDesc] at hfiltered
  exact hfiltered.trans List.filter_sublist

end Stability

/-- **The first `k` items of the sort are the best.** -/
theorem exists_best (key : α → κ) (p : α → Bool) (k : Nat) (xs : List α) :
    ∃ positions, Best key p k xs positions ∧
      (sortDesc key (xs.filter p)).take k = positions.map fun i => xs[i] := by
  -- Everything is done with positions instead of items: those with the property, sorted.
  let candidates := (List.finRange xs.length).filter fun i => p xs[i]
  let ranked := sortDesc (fun i : Fin xs.length => key xs[i]) candidates
  have hitems : xs.filter p = candidates.map fun i => xs[i] := by
    conv_lhs => rw [← List.map_get_finRange xs, List.filter_map]
    rfl
  have hranked : sortDesc key (xs.filter p) = ranked.map fun i => xs[i] := by
    rw [hitems, sortDesc_map]
  have hperm : ranked.Perm candidates := perm_sortDesc ..
  have hsorted : ranked.Pairwise fun i j => key xs[j] ≤ key xs[i] := sorted_sortDesc ..
  refine ⟨ranked.take k, ⟨?_, ?_, ?_, ?_⟩, by rw [hranked, List.map_take]⟩
  · rw [List.length_take, hperm.length_eq, List.countP_eq_length_filter, hitems, List.length_map]
  · intro i hi
    exact (List.mem_filter.mp (hperm.mem_iff.mp (List.mem_of_mem_take hi))).2
  · -- ties are in the order of the positions, as the sort is stable
    apply List.Pairwise.sublist (List.take_sublist k ranked)
    rw [List.pairwise_iff_forall_sublist]
    intro i j hij
    have hle : key xs[j] ≤ key xs[i] := List.pairwise_iff_forall_sublist.mp hsorted hij
    refine hle.lt_or_eq.imp_right fun heq => ⟨heq, ?_⟩
    have hstore := sublist_of_sortDesc (fun i : Fin xs.length => key xs[i]) hij heq
    exact List.pairwise_iff_forall_sublist.mp (List.pairwise_lt_finRange _)
      (hstore.trans List.filter_sublist)
  · -- what is left out was cut off, behind everything that was not
    intro i hi j hj hp
    have hmem : j ∈ ranked.take k ++ ranked.drop k := by
      rw [List.take_append_drop, hperm.mem_iff]
      exact List.mem_filter.mpr ⟨List.mem_finRange j, hp⟩
    have hdropped : j ∈ ranked.drop k := (List.mem_append.mp hmem).resolve_left hj
    rw [← List.take_append_drop k ranked, List.pairwise_append] at hsorted
    exact hsorted.2.2 i hi j hdropped

end Ranking
