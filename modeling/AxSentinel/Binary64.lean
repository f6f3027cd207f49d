import AxSentinel.Json
import Mathlib.Algebra.Order.Field.Power
import Mathlib.Data.Int.Log
import Mathlib.Data.Rat.Floor
import Mathlib.Tactic.FieldSimp
import Mathlib.Tactic.Linarith
import Mathlib.Tactic.NormNum
import Mathlib.Tactic.Positivity
import Mathlib.Tactic.Ring

/-! # Rounding to binary64

The results of float arithmetic: the exact result, rounded to the nearest number of 53 significant
bits, and to the even one of two (`Binary64.round`).  What is needed of it is that it keeps the
order to the numbers it rounds to (`le_round`, `round_le`); so a quotient is at least 1 just where
the dividend is at least the divisor (`one_le_round_div_iff`). -/
namespace Binary64

/-! ## Integers -/

/-- The nearest integer, and the even one of two. -/
def roundEven (x : ℚ) : ℤ :=
  if x - ⌊x⌋ < 1 / 2 ∨ x - ⌊x⌋ = 1 / 2 ∧ ⌊x⌋ % 2 = 0 then ⌊x⌋ else ⌊x⌋ + 1

/-- What is rounded up to `n` is above the half before it, or at it, if `n` is even. -/
theorem le_roundEven_iff {n : ℤ} {x : ℚ} :
    n ≤ roundEven x ↔ (n : ℚ) - 1 / 2 < x ∨ x = n - 1 / 2 ∧ n % 2 = 0 := by
  have hfloor := Int.floor_le x
  have hlt := Int.lt_floor_add_one x
  unfold roundEven
  rcases lt_trichotomy n (⌊x⌋ + 1) with hn | rfl | hn
  · have hle : (n : ℚ) ≤ ⌊x⌋ := by exact_mod_cast Int.lt_add_one_iff.mp hn
    refine iff_of_true ?_ (.inl (by linarith))
    split <;> omega
  · push_cast
    split
    · rename_i hdown
      refine iff_of_false (by omega) ?_
      rintro (h | ⟨h, heven⟩)
      · rcases hdown with hdown | ⟨hdown, -⟩ <;> linarith
      · rcases hdown with hdown | ⟨-, hdown⟩
        · linarith
        · omega
    · rename_i hup
      refine iff_of_true le_rfl ?_
      push Not at hup
      rcases hup.1.lt_or_eq with h | h
      · exact .inl (by linarith)
      · exact .inr ⟨by linarith, by have := hup.2 h.symm; omega⟩
  · have hle : (⌊x⌋ : ℚ) + 2 ≤ n := by exact_mod_cast (show ⌊x⌋ + 2 ≤ n by omega)
    refine iff_of_false (by split <;> omega) ?_
    rintro (h | ⟨h, -⟩) <;> linarith

theorem le_roundEven {n : ℤ} {x : ℚ} (h : (n : ℚ) ≤ x) : n ≤ roundEven x :=
  le_roundEven_iff.mpr (.inl (by linarith))

theorem roundEven_le {n : ℤ} {x : ℚ} (h : x ≤ n) : roundEven x ≤ n := by
  by_contra hlt
  have hle : n + 1 ≤ roundEven x := by omega
  rw [le_roundEven_iff] at hle
  push_cast at hle
  rcases hle with hle | ⟨hle, -⟩ <;> linarith

/-! ## Floats -/

/-- The exponent of the last bit a result is rounded to. -/
def exponent (x : ℚ) : ℤ := max (Int.log 2 |x| - 52) (-1074)

/-- The last bit. -/
def ulp (x : ℚ) : ℚ := 2 ^ exponent x

/-- The result of an operation whose exact result is `x`; it is infinite from `overflow` on. -/
def round (x : ℚ) : ℚ := roundEven (x / ulp x) * ulp x

def overflow : ℚ := 2 ^ 1024

/-- The numbers that are rounded to: at most 53 bits, the last no lower than `2 ^ -1074`. -/
def Representable (y : ℚ) : Prop := ∃ m e : ℤ, |m| < 2 ^ 53 ∧ -1074 ≤ e ∧ y = m * 2 ^ e

theorem Representable.neg {y : ℚ} (h : Representable y) : Representable (-y) := by
  obtain ⟨m, e, hm, he, rfl⟩ := h
  exact ⟨-m, e, by rwa [abs_neg], he, by push_cast; ring⟩

theorem two_zpow_pos (e : ℤ) : (0 : ℚ) < 2 ^ e := zpow_pos (by norm_num) e

theorem ulp_pos (x : ℚ) : 0 < ulp x := two_zpow_pos _

@[simp] theorem round_zero : round 0 = 0 := by
  have hzero : roundEven 0 = 0 := le_antisymm (roundEven_le (by simp)) (le_roundEven (by simp))
  rw [round, zero_div, hzero]
  simp

/-- Above the last exponent, a result has all its 53 bits. -/
theorem le_abs_of_lt_exponent {x : ℚ} (hx : x ≠ 0) (h : -1074 < exponent x) :
    2 ^ 52 * ulp x ≤ |x| := by
  have hlog : exponent x = Int.log 2 |x| - 52 := by
    unfold exponent at h ⊢
    omega
  calc 2 ^ 52 * ulp x = 2 ^ (52 : ℤ) * 2 ^ exponent x := rfl
    _ = 2 ^ Int.log 2 |x| := by rw [← zpow_add₀ (by norm_num), hlog]; congr 1; ring
    _ ≤ |x| := by exact_mod_cast Int.zpow_log_le_self (b := 2) (by norm_num) (abs_pos.mpr hx)

/-- A number that is rounded to is a multiple of the last bit, or nearer to 0 than all with all
their bits, by half of the last at least. -/
theorem Representable.cases {y x : ℚ} (h : Representable y) (hx : x ≠ 0) :
    (∃ n : ℤ, y = n * ulp x) ∨ |y| + ulp x / 2 ≤ 2 ^ 52 * ulp x ∧ 2 ^ 52 * ulp x ≤ |x| := by
  obtain ⟨m, e, hm, he, rfl⟩ := h
  rcases le_or_gt (exponent x) e with hle | hlt
  · refine .inl ⟨m * 2 ^ (e - exponent x).toNat, ?_⟩
    have hsum : e = ((e - exponent x).toNat : ℤ) + exponent x := by omega
    conv_lhs => rw [hsum, zpow_add₀ (by norm_num), zpow_natCast]
    push_cast
    rw [ulp]
    ring
  · refine .inr ⟨?_, le_abs_of_lt_exponent hx (by omega)⟩
    have hm' : |(m : ℚ)| + 1 ≤ 2 ^ 53 := by
      have : |m| + 1 ≤ 2 ^ 53 := hm
      exact_mod_cast this
    -- the number's own last bit is at most half of the last of `x`
    have hhalf : (2 : ℚ) ^ e ≤ ulp x / 2 := by
      have : (2 : ℚ) ^ (e + 1) ≤ ulp x := zpow_le_zpow_right₀ (by norm_num) (by omega)
      rw [zpow_add_one₀ (by norm_num)] at this
      linarith
    have hnonneg : (0 : ℚ) ≤ 2 ^ 53 - 1 := by norm_num
    calc |(m : ℚ) * 2 ^ e| + ulp x / 2 = |(m : ℚ)| * 2 ^ e + ulp x / 2 := by
          rw [abs_mul, abs_of_pos (two_zpow_pos e)]
      _ ≤ (2 ^ 53 - 1) * 2 ^ e + ulp x / 2 := by
          have := mul_le_mul_of_nonneg_right (show |(m : ℚ)| ≤ 2 ^ 53 - 1 by linarith)
            (two_zpow_pos e).le
          linarith
      _ ≤ (2 ^ 53 - 1) * (ulp x / 2) + ulp x / 2 := by
          have := mul_le_mul_of_nonneg_left hhalf hnonneg
          linarith
      _ = 2 ^ 52 * ulp x := by ring

/-- Rounding goes past none of the numbers that are rounded to, upwards. -/
theorem le_round {y x : ℚ} (h : Representable y) (hle : y ≤ x) : y ≤ round x := by
  rcases eq_or_ne x 0 with rfl | hx
  · rwa [round_zero]
  have hmultiple : ∀ n : ℤ, n * ulp x ≤ x → n * ulp x ≤ round x := by
    intro n hn
    refine mul_le_mul_of_nonneg_right ?_ (ulp_pos x).le
    exact_mod_cast le_roundEven ((le_div_iff₀ (ulp_pos x)).mpr hn)
  rcases h.cases hx with ⟨n, rfl⟩ | ⟨hsmall, hlarge⟩
  · exact hmultiple n hle
  · -- the number with all bits that is nearest to 0 is in between
    have hulp := ulp_pos x
    have hx' : 2 ^ 52 * ulp x ≤ x := by
      rcases abs_cases x with ⟨habs, -⟩ | ⟨habs, -⟩
      · rwa [habs] at hlarge
      · linarith [neg_abs_le y]
    have hround := hmultiple (2 ^ 52) (by exact_mod_cast hx')
    push_cast at hround
    linarith [le_abs_self y]

/-- And downwards. -/
theorem round_le {y x : ℚ} (h : Representable y) (hle : x ≤ y) : round x ≤ y := by
  rcases eq_or_ne x 0 with rfl | hx
  · rwa [round_zero]
  have hmultiple : ∀ n : ℤ, x ≤ n * ulp x → round x ≤ n * ulp x := by
    intro n hn
    refine mul_le_mul_of_nonneg_right ?_ (ulp_pos x).le
    exact_mod_cast roundEven_le ((div_le_iff₀ (ulp_pos x)).mpr hn)
  rcases h.cases hx with ⟨n, rfl⟩ | ⟨hsmall, hlarge⟩
  · exact hmultiple n hle
  · have hulp := ulp_pos x
    have hx' : x ≤ -2 ^ 52 * ulp x := by
      rcases abs_cases x with ⟨habs, -⟩ | ⟨habs, -⟩
      · linarith [le_abs_self y]
      · linarith
    have hround := hmultiple (-2 ^ 52) (by exact_mod_cast hx')
    push_cast at hround
    linarith [neg_abs_le y]

/-- A positive result is rounded to `y` or below where it is above `y` by less than half of its
last bit, or by that half, and `y` is even. -/
theorem round_le_iff {y x : ℚ} (h : Representable y) (hx : 0 < x) :
    round x ≤ y ↔ x - y < ulp x / 2 ∨ x - y = ulp x / 2 ∧ ∃ k : ℤ, y = 2 * k * ulp x := by
  have hulp := ulp_pos x
  rcases h.cases hx.ne' with ⟨n, rfl⟩ | ⟨hsmall, hlarge⟩
  · have heven : (∃ k : ℤ, (n : ℚ) * ulp x = 2 * k * ulp x) ↔ n % 2 = 0 := by
      constructor
      · rintro ⟨k, hk⟩
        have : n = 2 * k := by exact_mod_cast mul_right_cancel₀ hulp.ne' hk
        omega
      · intro hmod
        refine ⟨n / 2, ?_⟩
        have : n = 2 * (n / 2) := by omega
        conv_lhs => rw [this]
        push_cast
        ring
    have hup : round x ≤ n * ulp x ↔ ¬ n + 1 ≤ roundEven (x / ulp x) := by
      rw [round, mul_le_mul_iff_left₀ hulp, Int.cast_le]
      omega
    rw [hup, le_roundEven_iff, heven]
    push_cast
    rw [lt_div_iff₀ hulp, div_eq_iff hulp.ne']
    constructor
    · intro hnot
      push Not at hnot
      rcases hnot.1.lt_or_eq with hlt | heq
      · exact .inl (by linarith)
      · have := hnot.2 (by linarith)
        exact .inr ⟨by linarith, by omega⟩
    · rintro (hlt | ⟨heq, hmod⟩) (hgt | ⟨heq', hmod'⟩)
      · linarith
      · linarith
      · linarith
      · omega
  · -- the number is below all with all their bits, the result is not
    rw [abs_of_pos hx] at hlarge
    have hbits : Representable (2 ^ 52 * ulp x) :=
      ⟨2 ^ 52, exponent x, by norm_num, le_max_right _ _, by push_cast; rfl⟩
    have hround := le_round hbits hlarge
    have hy := le_abs_self y
    refine iff_of_false (by linarith) ?_
    rintro (hlt | ⟨heq, k, hk⟩)
    · linarith
    · -- an even multiple with a result half a bit above it is not half a bit below
      have hk' : ((2 * k : ℤ) : ℚ) * ulp x = y := by rw [hk]; push_cast; ring
      have hlo : (2 ^ 52 : ℤ) ≤ 2 * k + 1 := by
        have : ((2 ^ 52 : ℤ) : ℚ) * ulp x ≤ ((2 * k + 1 : ℤ) : ℚ) * ulp x := by
          push_cast at hk' ⊢
          linarith
        exact_mod_cast (mul_le_mul_iff_left₀ hulp).mp this
      have hhi : 2 * k + 1 ≤ (2 ^ 52 : ℤ) := by
        have : ((2 * k : ℤ) : ℚ) * ulp x < ((2 ^ 52 : ℤ) : ℚ) * ulp x := by
          push_cast at hk' ⊢
          linarith
        have : (2 * k : ℤ) < 2 ^ 52 := by exact_mod_cast (mul_lt_mul_iff_left₀ hulp).mp this
        omega
      omega

theorem representable_of_round_eq {y : ℚ} (h : round y = y) : Representable y := by
  rcases eq_or_ne y 0 with rfl | hy
  · exact ⟨0, 0, by norm_num, by norm_num, by norm_num⟩
  refine ⟨roundEven (y / ulp y), exponent y, ?_, le_max_right _ _, h.symm⟩
  have habs : |(roundEven (y / ulp y) : ℚ)| * ulp y = |y| := by
    rw [← abs_of_pos (ulp_pos y), ← abs_mul, abs_of_pos (ulp_pos y)]
    exact congrArg _ h
  have hlog : |y| < 2 ^ (53 + exponent y) := by
    refine lt_of_lt_of_le (b := (2 : ℚ) ^ (Int.log 2 |y| + 1))
      (by exact_mod_cast Int.lt_zpow_succ_log_self (b := 2) (by norm_num) |y|) ?_
    refine zpow_le_zpow_right₀ (by norm_num) ?_
    have := le_max_left (Int.log 2 |y| - 52) (-1074)
    unfold exponent
    omega
  rw [← habs, zpow_add₀ (by norm_num), ← ulp, mul_lt_mul_iff_left₀ (ulp_pos y)] at hlog
  exact_mod_cast hlog

/-! ## Quotients -/

/-- Between two numbers that are rounded to is more than a rounding error. -/
theorem le_mul_of_lt {m t : ℚ} (hm : Representable m) (ht : Representable t) (hpos : 0 < t)
    (h : m < t) : m ≤ t * (1 - 1 / 2 ^ 53) := by
  obtain ⟨b, j, hb, -, rfl⟩ := hm
  obtain ⟨a, i, ha, -, rfl⟩ := ht
  have hb' : (b : ℚ) ≤ 2 ^ 53 - 1 := by
    have := (abs_lt.mp hb).2
    have : b ≤ 2 ^ 53 - 1 := by omega
    exact_mod_cast this
  have ha' : (a : ℚ) ≤ 2 ^ 53 := by exact_mod_cast (abs_lt.mp ha).2.le
  rcases le_or_gt i j with hij | hji
  · -- both are multiples of the divisor's last bit
    obtain ⟨k, rfl⟩ : ∃ k : ℕ, j = k + i := ⟨(j - i).toNat, by omega⟩
    rw [zpow_add₀ (by norm_num), zpow_natCast, ← mul_assoc] at h ⊢
    have hlt : (b : ℚ) * 2 ^ k < a := lt_of_mul_lt_mul_right h (two_zpow_pos i).le
    have hle : (b : ℚ) * 2 ^ k ≤ a - 1 := by
      have : b * 2 ^ k ≤ a - 1 := by
        have : b * 2 ^ k < a := by exact_mod_cast hlt
        omega
      exact_mod_cast this
    calc (b : ℚ) * 2 ^ k * 2 ^ i ≤ (a * (1 - 1 / 2 ^ 53)) * 2 ^ i :=
          mul_le_mul_of_nonneg_right (by linarith) (two_zpow_pos i).le
      _ = a * 2 ^ i * (1 - 1 / 2 ^ 53) := by ring
  · -- both are multiples of the dividend's, which has at most 53 bits
    obtain ⟨k, rfl⟩ : ∃ k : ℕ, i = k + j := ⟨(i - j).toNat, by omega⟩
    rw [zpow_add₀ (by norm_num), zpow_natCast, ← mul_assoc] at h ⊢
    have hlt : (b : ℚ) < a * 2 ^ k := lt_of_mul_lt_mul_right h (two_zpow_pos j).le
    have hle : (b : ℚ) ≤ a * 2 ^ k - 1 := by
      have : b ≤ a * 2 ^ k - 1 := by
        have : b < a * 2 ^ k := by exact_mod_cast hlt
        omega
      exact_mod_cast this
    have hmul : (b : ℚ) ≤ a * 2 ^ k * (1 - 1 / 2 ^ 53) := by
      rcases le_total ((a : ℚ) * 2 ^ k) (2 ^ 53) with hsmall | hlarge
      · linarith
      · linarith
    calc (b : ℚ) * 2 ^ j ≤ a * 2 ^ k * (1 - 1 / 2 ^ 53) * 2 ^ j :=
          mul_le_mul_of_nonneg_right hmul (two_zpow_pos j).le
      _ = a * 2 ^ k * 2 ^ j * (1 - 1 / 2 ^ 53) := by ring

/-- A quotient is at least 1 just where the dividend is at least the divisor. -/
theorem one_le_round_div_iff {m t : ℚ} (hm : Representable m) (ht : Representable t)
    (hpos : 0 < t) : 1 ≤ round (m / t) ↔ t ≤ m := by
  constructor
  · intro h
    by_contra hlt
    have hle : m / t ≤ 1 - 1 / 2 ^ 53 := by
      rw [div_le_iff₀ hpos, mul_comm]
      exact le_mul_of_lt hm ht hpos (lt_of_not_ge hlt)
    have hbelow : Representable (1 - 1 / 2 ^ 53) :=
      ⟨2 ^ 53 - 1, -53, by norm_num, by norm_num, by norm_num⟩
    have := round_le hbelow hle
    norm_num at this
    linarith
  · intro h
    exact le_round ⟨1, 0, by norm_num, by norm_num, by norm_num⟩ ((one_le_div hpos).mpr h)

/-- Between 1 and 2 a result is rounded up to an odd number of last bits just above the half
before it. -/
theorem le_round_iff_of_odd {n : ℤ} (hodd : n % 2 = 1) (hlo : 2 ^ 52 < n) (hhi : n < 2 ^ 53)
    {x : ℚ} : (n : ℚ) / 2 ^ 52 ≤ round x ↔ (n : ℚ) / 2 ^ 52 - 1 / 2 ^ 53 < x := by
  have hlo' : (2 : ℚ) ^ 52 + 1 ≤ n := by exact_mod_cast hlo
  have hhi' : (n : ℚ) + 1 ≤ 2 ^ 53 := by exact_mod_cast hhi
  have hone : Representable 1 := ⟨1, 0, by norm_num, by norm_num, by norm_num⟩
  have htwo : Representable 2 := ⟨2, 0, by norm_num, by norm_num, by norm_num⟩
  rcases lt_or_ge x 1 with hx | hx
  · refine iff_of_false ?_ ?_
    · have := round_le hone hx.le
      rw [not_le, lt_div_iff₀ (by norm_num)]
      linarith
    · rw [not_lt, le_sub_iff_add_le, le_div_iff₀ (by norm_num)]
      linarith
  rcases lt_or_ge x 2 with hx' | hx'
  · have hlog : Int.log 2 |x| = 0 := by
      rw [abs_of_nonneg (by linarith)]
      refine le_antisymm ?_ ?_
      · have := (Int.lt_zpow_iff_log_lt (b := 2) (by norm_num) (x := 1) (by linarith : 0 < x)).mp
          (by simpa using hx')
        omega
      · exact (Int.zpow_le_iff_le_log (b := 2) (by norm_num) (x := 0) (by linarith : 0 < x)).mp
          (by simpa using hx)
    have hexponent : exponent x = -52 := by
      rw [exponent, hlog]
      rfl
    have hulp : ulp x = 1 / 2 ^ 52 := by
      rw [ulp, hexponent]
      norm_num
    rw [round, hulp, div_div_eq_mul_div, div_one, mul_one_div,
      div_le_div_iff_of_pos_right (by norm_num), Int.cast_le, le_roundEven_iff]
    constructor
    · rintro (h | ⟨-, heven⟩)
      · rw [sub_lt_iff_lt_add, div_lt_iff₀ (by norm_num)]
        linarith
      · omega
    · intro h
      rw [sub_lt_iff_lt_add, div_lt_iff₀ (by norm_num)] at h
      exact .inl (by linarith)
  · refine iff_of_true ?_ ?_
    · have := le_round htwo hx'
      rw [div_le_iff₀ (by norm_num)]
      linarith
    · rw [sub_lt_iff_lt_add, div_lt_iff₀ (by norm_num)]
      linarith

end Binary64

/-! ## Python's floats -/

namespace Python

/-- A finite float. -/
abbrev FiniteFloat := {x : ℚ // Binary64.round x = x ∧ |x| < Binary64.overflow}

theorem FiniteFloat.representable (x : FiniteFloat) : Binary64.Representable x :=
  Binary64.representable_of_round_eq x.2.1

namespace PyFloat

/-- The float of a result. -/
def ofRat (x : ℚ) : PyFloat :=
  if Binary64.overflow ≤ |Binary64.round x| then .infinity (x < 0) else .finite (Binary64.round x)

/-- `x <= y`. -/
def le : PyFloat → PyFloat → Bool
  | nan, _ => false
  | _, nan => false
  | infinity true, _ => true
  | _, infinity false => true
  | finite x, finite y => x ≤ y
  | infinity false, finite _ => false
  | finite _, infinity true => false
  | infinity false, infinity true => false

/-- `x < y`. -/
def lt (x y : PyFloat) : Bool := x.le y && !y.le x

/-- A result is its rounded value, or infinite on the side of it. -/
theorem ofRat_cases (x : ℚ) : ofRat x = .finite (Binary64.round x) ∨
    ofRat x = .infinity true ∧ Binary64.round x ≤ -Binary64.overflow ∨
    ofRat x = .infinity false ∧ Binary64.overflow ≤ Binary64.round x := by
  have hzero : Binary64.Representable 0 := ⟨0, 0, by norm_num, by norm_num, by norm_num⟩
  unfold ofRat
  split
  · rename_i hlarge
    rcases lt_or_ge x 0 with hneg | hnonneg
    · rw [abs_of_nonpos (Binary64.round_le hzero hneg.le)] at hlarge
      exact .inr (.inl ⟨by simp [hneg], by linarith⟩)
    · rw [abs_of_nonneg (Binary64.le_round hzero hnonneg)] at hlarge
      exact .inr (.inr ⟨by simp [hnonneg], hlarge⟩)
  · exact .inl rfl

/-- A finite float is compared with a result as with its rounded value. -/
theorem le_ofRat {y : ℚ} (hy : |y| < Binary64.overflow) (x : ℚ) :
    le (.finite y) (ofRat x) = true ↔ y ≤ Binary64.round x := by
  obtain ⟨hlo, hhi⟩ := abs_lt.mp hy
  rcases ofRat_cases x with h | ⟨h, hlarge⟩ | ⟨h, hlarge⟩
  · simp [h, le]
  · exact iff_of_false (by simp [h, le]) (by linarith)
  · exact iff_of_true (by simp [h, le]) (by linarith)

theorem ofRat_le {y : ℚ} (hy : |y| < Binary64.overflow) (x : ℚ) :
    le (ofRat x) (.finite y) = true ↔ Binary64.round x ≤ y := by
  obtain ⟨hlo, hhi⟩ := abs_lt.mp hy
  rcases ofRat_cases x with h | ⟨h, hlarge⟩ | ⟨h, hlarge⟩
  · simp [h, le]
  · exact iff_of_true (by simp [h, le]) (by linarith)
  · exact iff_of_false (by simp [h, le]) (by linarith)

end PyFloat

end Python
