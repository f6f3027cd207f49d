import Mathlib.Algebra.Field.Rat
import Mathlib.Algebra.Order.BigOperators.Group.List
import Mathlib.Algebra.Order.Field.Basic
import Mathlib.Algebra.Order.Ring.Rat
import Mathlib.Tactic.Linarith

/-! # Shares and means

The share of the items of a list with a property, and the mean of figures.  Two properties of which
one implies the other have the same share only if they agree on the list (`share_eq_iff`), and
figures that are nowhere smaller have the same mean only if they are the same (`mean_eq_iff`). -/
namespace Shares

variable {α : Type}

/-- The share of the items with a property. -/
def share (p : α → Bool) (xs : List α) : ℚ := xs.countP p / xs.length

/-- The mean of the figures of the items. -/
def mean (f : α → ℚ) (xs : List α) : ℚ := (xs.map f).sum / xs.length

/-- Figures that are equal when divided by the length of a list are equal, unless it is empty. -/
theorem eq_of_div_length {xs : List α} {a b : ℚ} (hnil : xs = [] → a = b)
    (h : a / xs.length = b / xs.length) : a = b := by
  by_cases hempty : xs = []
  · exact hnil hempty
  · have hpos : (xs.length : ℚ) ≠ 0 := by
      exact_mod_cast (List.length_pos_iff.mpr hempty).ne'
    exact (div_left_inj' hpos).mp h

section Share
variable {p q : α → Bool} {xs : List α}

theorem share_eq_zero (h : ∀ x ∈ xs, p x = false) : share p xs = 0 := by
  have hnone : xs.countP p = 0 := List.countP_eq_zero.mpr fun x hx hp => by
    rw [h x hx] at hp
    cases hp
  rw [share, hnone]
  simp

theorem share_eq_one (hne : xs ≠ []) (h : ∀ x ∈ xs, p x = true) : share p xs = 1 := by
  have hall : xs.countP p = xs.length := List.countP_eq_length.mpr h
  have hpos : 0 < xs.length := List.length_pos_iff.mpr hne
  rw [share, hall]
  exact div_self (by exact_mod_cast hpos.ne')

/-- Two counts over one list are equal if the properties agree on it. -/
theorem countP_eq_iff (hle : ∀ x ∈ xs, p x = true → q x = true) :
    xs.countP p = xs.countP q ↔ ∀ x ∈ xs, q x = true → p x = true := by
  induction xs with
  | nil => simp
  | cons x xs ih =>
    obtain ⟨hx, hxs⟩ := List.forall_mem_cons.mp hle
    have hmono : xs.countP p ≤ xs.countP q := List.countP_mono_left hxs
    rw [List.countP_cons, List.countP_cons, List.forall_mem_cons, ← ih hxs]
    by_cases hq : q x = true
    · by_cases hp : p x = true
      · simp [hp, hq]
      · -- the other count is greater by this item
        simp only [hp, hq]
        refine iff_of_false ?_ fun h => absurd (h.1 trivial) (by simp)
        simp only [Bool.false_eq_true, if_false, if_true]
        omega
    · have hp : ¬ p x = true := fun hp => hq (hx hp)
      simp [hp, hq]

theorem share_mono (hle : ∀ x ∈ xs, p x = true → q x = true) : share p xs ≤ share q xs := by
  have hcount : (xs.countP p : ℚ) ≤ xs.countP q := by
    exact_mod_cast List.countP_mono_left hle
  exact div_le_div_of_nonneg_right hcount (Nat.cast_nonneg _)

theorem share_nonneg : 0 ≤ share p xs := div_nonneg (Nat.cast_nonneg _) (Nat.cast_nonneg _)

theorem share_le_one : share p xs ≤ 1 :=
  div_le_one_of_le₀ (by exact_mod_cast List.countP_le_length) (Nat.cast_nonneg _)

/-- **Equal shares.** -/
theorem share_eq_iff (hle : ∀ x ∈ xs, p x = true → q x = true) :
    share p xs = share q xs ↔ ∀ x ∈ xs, q x = true → p x = true := by
  rw [← countP_eq_iff hle]
  constructor
  · intro h
    have hcounts : (xs.countP p : ℚ) = xs.countP q :=
      eq_of_div_length (fun hnil => by rw [hnil]; rfl) h
    exact_mod_cast hcounts
  · intro h
    rw [share, share, h]

end Share

section Mean
variable {f g : α → ℚ} {xs : List α}

/-- The mean depends on the figures only. -/
theorem mean_congr {β : Type} {f' : β → ℚ} {ys : List β} (h : ys.map f' = xs.map f) :
    mean f' ys = mean f xs := by
  have hlength : ys.length = xs.length := by
    simpa using congrArg List.length h
  rw [mean, mean, h, hlength]

theorem le_mean {a : ℚ} (hne : xs ≠ []) (h : ∀ x ∈ xs, a ≤ f x) : a ≤ mean f xs := by
  have hpos : (0 : ℚ) < xs.length := by exact_mod_cast List.length_pos_iff.mpr hne
  have hsum := List.card_nsmul_le_sum (xs.map f) a (List.forall_mem_map.mpr h)
  rw [List.length_map, nsmul_eq_mul] at hsum
  rw [mean, le_div_iff₀ hpos]
  linarith

theorem mean_le {b : ℚ} (hne : xs ≠ []) (h : ∀ x ∈ xs, f x ≤ b) : mean f xs ≤ b := by
  have hpos : (0 : ℚ) < xs.length := by exact_mod_cast List.length_pos_iff.mpr hne
  have hsum := List.sum_le_card_nsmul (xs.map f) b (List.forall_mem_map.mpr h)
  rw [List.length_map, nsmul_eq_mul] at hsum
  rw [mean, div_le_iff₀ hpos]
  linarith

/-- Two sums are equal if no figure is greater. -/
theorem sum_eq_iff (hle : ∀ x ∈ xs, f x ≤ g x) :
    (xs.map f).sum = (xs.map g).sum ↔ ∀ x ∈ xs, f x = g x := by
  induction xs with
  | nil => simp
  | cons x xs ih =>
    obtain ⟨hx, hxs⟩ := List.forall_mem_cons.mp hle
    have hsum := List.sum_le_sum hxs
    rw [List.map_cons, List.map_cons, List.sum_cons, List.sum_cons, List.forall_mem_cons, ← ih hxs]
    constructor
    · intro h
      exact ⟨by linarith, by linarith⟩
    · rintro ⟨hfirst, hrest⟩
      rw [hfirst, hrest]

/-- **Equal means.** -/
theorem mean_eq_iff (hle : ∀ x ∈ xs, f x ≤ g x) :
    mean f xs = mean g xs ↔ ∀ x ∈ xs, f x = g x := by
  rw [← sum_eq_iff hle]
  constructor
  · intro h
    exact eq_of_div_length (fun hnil => by rw [hnil]; rfl) h
  · intro h
    rw [mean, mean, h]

end Mean

end Shares
