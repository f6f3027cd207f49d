import Mathlib.Algebra.Group.Nat.Defs
import Mathlib.Data.Char
import Mathlib.Data.List.Forall2
import Mathlib.Data.List.Lex
import Mathlib.Order.Lattice

/-! # Numbers of a fixed width

Texts are compared character by character.  Numbers padded with zeros to one width are in the order
of their texts, and so are records of such numbers: the first numbers that differ decide
(`digits_lt_iff`, `record_lt_iff`). -/
namespace FixedWidth

/-! ## The order of texts -/

/-- What follows two texts of the same length decides only where these are the same. -/
theorem append_lt_append_iff {α : Type} [LinearOrder α] {a b x y : List α}
    (h : a.length = b.length) : a ++ x < b ++ y ↔ a < b ∨ a = b ∧ x < y := by
  induction a generalizing b with
  | nil =>
    obtain rfl := List.length_eq_zero_iff.mp h.symm
    simp
  | cons c a ih =>
    cases b with
    | nil => cases h
    | cons d b =>
      have hrest := ih (Nat.succ.inj h)
      rw [List.cons_append, List.cons_append, List.cons_lt_cons_iff, List.cons_lt_cons_iff, hrest]
      simp only [List.cons.injEq]
      tauto

/-- The digit characters are in the order of the digits. -/
theorem digitChar_lt_iff {m n : Nat} (hm : m < 10) (hn : n < 10) :
    m.digitChar < n.digitChar ↔ m < n := by
  have hdigits : ∀ m n : Fin 10, m.1.digitChar < n.1.digitChar ↔ m.1 < n.1 := by decide
  exact hdigits ⟨m, hm⟩ ⟨n, hn⟩

/-! ## Numbers -/

/-- The last digits of a number, as many as the width. -/
def digits : (width n : Nat) → List Char
  | 0, _ => []
  | width + 1, n => digits width (n / 10) ++ [(n % 10).digitChar]

@[simp] theorem length_digits (width n : Nat) : (digits width n).length = width := by
  induction width generalizing n with
  | zero => rfl
  | succ width ih => rw [digits, List.length_append, ih, List.length_singleton]

/-- Where the order of texts is that of numbers, different numbers have different texts. -/
theorem eq_iff_of_lt_iff {α β : Type} [LinearOrder α] [LinearOrder β] {a b : α} {x y : β}
    (hlt : x < y ↔ a < b) (hgt : y < x ↔ b < a) : x = y ↔ a = b := by
  rw [← not_iff_not, ← Ne, ← Ne, ne_iff_lt_or_gt, ne_iff_lt_or_gt, hlt, hgt]

/-- **Numbers that fit into the width are in the order of their digits.** -/
theorem digits_lt_iff {width m n : Nat} (hm : m < 10 ^ width) (hn : n < 10 ^ width) :
    digits width m < digits width n ↔ m < n := by
  induction width generalizing m n with
  | zero =>
    obtain rfl : m = 0 := Nat.lt_one_iff.mp hm
    obtain rfl : n = 0 := Nat.lt_one_iff.mp hn
    simp
  | succ width ih =>
    -- All digits but the last are those of the tenth part.
    have hm' : m / 10 < 10 ^ width := by rw [Nat.pow_succ] at hm; omega
    have hn' : n / 10 < 10 ^ width := by rw [Nat.pow_succ] at hn; omega
    have hinj := eq_iff_of_lt_iff (ih hm' hn') (ih hn' hm')
    have hlast : [(m % 10).digitChar] < [(n % 10).digitChar] ↔ m % 10 < n % 10 := by
      rw [List.cons_lt_cons_iff, digitChar_lt_iff (by omega) (by omega)]
      simp
    rw [digits, digits, append_lt_append_iff (by simp), ih hm' hn', hinj, hlast]
    omega

/-! ## Records -/

/-- The numbers of a record, each with the width and the separator that its format gives. -/
def record : (format : List (Nat × List Char)) → List Nat → List Char
  | (width, separator) :: format, n :: ns => digits width n ++ (separator ++ record format ns)
  | _, _ => []

/-- The numbers fit into the widths of the format. -/
def Fits (format : List (Nat × List Char)) (ns : List Nat) : Prop :=
  List.Forall₂ (fun field n => n < 10 ^ field.1) format ns

theorem length_record {format : List (Nat × List Char)} {ms ns : List Nat} (hms : Fits format ms)
    (hns : Fits format ns) : (record format ms).length = (record format ns).length := by
  induction hms generalizing ns with
  | nil =>
    cases hns
    rfl
  | cons hm hms ih =>
    cases hns with
    | cons hn hns => simp [record, ih hns]

/-- **Records are in the order of their numbers.** -/
theorem record_lt_iff {format : List (Nat × List Char)} {ms ns : List Nat} (hms : Fits format ms)
    (hns : Fits format ns) : record format ms < record format ns ↔ ms < ns := by
  induction hms generalizing ns with
  | nil =>
    cases hns
    exact iff_of_false (lt_irrefl _) (lt_irrefl _)
  | cons hm hms ih =>
    cases hns with
    | cons hn hns =>
      -- the separators are the same, so the first number decides, and then the rest
      have hinj := eq_iff_of_lt_iff (digits_lt_iff hm hn) (digits_lt_iff hn hm)
      rw [record, record, append_lt_append_iff (by simp), append_lt_append_iff rfl,
        digits_lt_iff hm hn, hinj, ih hns, List.cons_lt_cons_iff]
      simp

theorem record_inj {format : List (Nat × List Char)} {ms ns : List Nat} (hms : Fits format ms)
    (hns : Fits format ns) : record format ms = record format ns ↔ ms = ns :=
  eq_iff_of_lt_iff (record_lt_iff hms hns) (record_lt_iff hns hms)

end FixedWidth
