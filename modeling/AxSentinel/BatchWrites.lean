import Mathlib.Data.List.Nodup
import Mathlib.Logic.Function.Basic

/-! # Writing to a map in batches

Items are put under their keys; the order in which items with distinct keys are put does not matter
(`putAll_perm`).  A writer may keep items back in a buffer that has one item for each key, and send
some of them at a time: what the map would be with the buffer put into it changes with the items
that are added only (`putAll_enqueue`), and not with the batches that are sent, though the store
leaves part of a batch unprocessed (`putAll_flush`). -/
namespace BatchWrites

variable {A K V : Type} [DecidableEq K] {key : A → K} {value : A → V}

/-- The map after items are put under their keys, one after another. -/
def putAll (key : A → K) (value : A → V) (xs : List A) (t : K → Option V) : K → Option V :=
  xs.foldl (fun t x => Function.update t (key x) (some (value x))) t

/-- The buffer after an item is added, in the place of the one with its key. -/
def enqueue (key : A → K) (buffer : List A) (a : A) : List A :=
  buffer.filter (fun x => key x ≠ key a) ++ [a]

section Put
variable {xs ys : List A} {t : K → Option V} {k : K}

@[simp] theorem putAll_nil : putAll key value [] t = t := rfl

@[simp] theorem putAll_cons (x : A) : putAll key value (x :: xs) t =
    putAll key value xs (Function.update t (key x) (some (value x))) := rfl

theorem putAll_append :
    putAll key value (xs ++ ys) t = putAll key value ys (putAll key value xs t) :=
  List.foldl_append

theorem putAll_map {B : Type} (f : B → A) (xs : List B) : putAll key value (xs.map f) t =
    putAll (fun x => key (f x)) (fun x => value (f x)) xs t :=
  List.foldl_map

/-- What is put under a key depends on what was there and on the items only. -/
theorem putAll_congr {t' : K → Option V} (h : t k = t' k) :
    putAll key value xs t k = putAll key value xs t' k := by
  induction xs generalizing t t' with
  | nil => exact h
  | cons x xs ih =>
    rw [putAll_cons, putAll_cons]
    refine ih ?_
    by_cases hk : k = key x
    · rw [hk, Function.update_self, Function.update_self]
    · rw [Function.update_of_ne hk, Function.update_of_ne hk, h]

theorem putAll_of_not_mem (h : k ∉ xs.map key) : putAll key value xs t k = t k := by
  induction xs generalizing t with
  | nil => rfl
  | cons x xs ih =>
    rw [List.map_cons, List.mem_cons, not_or] at h
    rw [putAll_cons, ih h.2, Function.update_of_ne h.1]

theorem putAll_of_mem (hnodup : (xs.map key).Nodup) {x : A} (hx : x ∈ xs) :
    putAll key value xs t (key x) = some (value x) := by
  induction xs generalizing t with
  | nil => exact absurd hx List.not_mem_nil
  | cons y xs ih =>
    rw [List.map_cons, List.nodup_cons] at hnodup
    rw [putAll_cons]
    rcases List.mem_cons.mp hx with rfl | hx
    · rw [putAll_of_not_mem hnodup.1, Function.update_self]
    · exact ih hnodup.2 hx

/-- **The order of the writes.**  Items with distinct keys can be put in any order. -/
theorem putAll_perm (hnodup : (xs.map key).Nodup) (h : xs.Perm ys) :
    putAll key value xs t = putAll key value ys t := by
  have hnodup' : (ys.map key).Nodup := (h.map key).nodup_iff.mp hnodup
  funext k
  by_cases hk : k ∈ xs.map key
  · obtain ⟨x, hx, rfl⟩ := List.mem_map.mp hk
    rw [putAll_of_mem hnodup hx, putAll_of_mem hnodup' (h.mem_iff.mp hx)]
  · rw [putAll_of_not_mem hk, putAll_of_not_mem fun hk' => hk ((h.map key).mem_iff.mpr hk')]

end Put

section Buffer
variable {buffer processed unprocessed : List A} {t : K → Option V} {n : Nat}

theorem nodup_enqueue (h : (buffer.map key).Nodup) (a : A) :
    ((enqueue key buffer a).map key).Nodup := by
  unfold enqueue
  rw [List.map_append, List.map_cons, List.map_nil]
  refine List.nodup_append_comm.mp (List.nodup_cons.mpr ⟨fun hmem => ?_, ?_⟩)
  · obtain ⟨x, hx, hkey⟩ := List.mem_map.mp hmem
    exact of_decide_eq_true (List.mem_filter.mp hx).2 hkey
  · exact h.sublist (List.filter_sublist.map key)

theorem length_enqueue_le (a : A) : (enqueue key buffer a).length ≤ buffer.length + 1 := by
  rw [enqueue, List.length_append, List.length_singleton]
  exact Nat.succ_le_succ (List.length_filter_le ..)

/-- An item that is added is put last; the one it replaces makes no difference. -/
theorem putAll_enqueue (a : A) : putAll key value (enqueue key buffer a) t =
    Function.update (putAll key value buffer t) (key a) (some (value a)) := by
  have hrest : ∀ k ≠ key a, putAll key value (buffer.filter fun x => key x ≠ key a) t k =
      putAll key value buffer t k := by
    intro k hk
    induction buffer generalizing t with
    | nil => rfl
    | cons x buffer ih =>
      by_cases hx : key x = key a
      · rw [List.filter_cons_of_neg (by simpa using hx), putAll_cons, ih]
        exact putAll_congr (Function.update_of_ne (hx ▸ hk) ..).symm
      · rw [List.filter_cons_of_pos (by simpa using hx), putAll_cons, putAll_cons, ih]
  funext k
  rw [enqueue, putAll_append, putAll_cons, putAll_nil]
  by_cases hk : k = key a
  · rw [hk, Function.update_self, Function.update_self]
  · rw [Function.update_of_ne hk, Function.update_of_ne hk, hrest k hk]

/-- What is left of the buffer after a batch, with what the store did not process. -/
theorem flush_perm (h : (processed ++ unprocessed).Perm (buffer.take n)) :
    (processed ++ (buffer.drop n ++ unprocessed)).Perm buffer := by
  have hall : (buffer.take n ++ buffer.drop n).Perm buffer := by rw [List.take_append_drop]
  have hswap : (processed ++ (buffer.drop n ++ unprocessed)).Perm
      (processed ++ unprocessed ++ buffer.drop n) := by
    rw [List.append_assoc]
    exact List.perm_append_comm.append_left processed
  exact (hswap.trans (h.append_right _)).trans hall

omit [DecidableEq K] in
theorem nodup_flush (hnodup : (buffer.map key).Nodup)
    (h : (processed ++ unprocessed).Perm (buffer.take n)) :
    ((buffer.drop n ++ unprocessed).map key).Nodup := by
  have hall := ((flush_perm h).map key).nodup_iff.mpr hnodup
  rw [List.map_append] at hall
  exact (List.nodup_append.mp hall).2.1

/-- **A batch.**  Whatever part of it the store processes, the map and the buffer together stay the
same. -/
theorem putAll_flush (hnodup : (buffer.map key).Nodup)
    (h : (processed ++ unprocessed).Perm (buffer.take n)) :
    putAll key value (buffer.drop n ++ unprocessed) (putAll key value processed t) =
      putAll key value buffer t := by
  rw [← putAll_append]
  have hperm := flush_perm h
  exact putAll_perm ((hperm.map key).nodup_iff.mpr hnodup) hperm

end Buffer
end BatchWrites
