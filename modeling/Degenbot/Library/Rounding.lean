import Mathlib.Data.Nat.Sqrt
import Mathlib.Tactic

/-! # Rounded divisions and roots -/

/-! ## Division rounded down and up

Floor division of integers is `/` for a positive divisor. `ceilDiv` rounds up; each
rounding is characterised by its adjunction with multiplication, and every bound in
the development is derived from these. -/

namespace Degenbot.Library

section Division

/-- The quotient rounded up, for a positive divisor. -/
def ceilDiv (a b : ℤ) : ℤ := -(-a / b)

variable {a b c : ℤ}

theorem ceilDiv_le_iff (hb : 0 < b) : ceilDiv a b ≤ c ↔ a ≤ c * b := by
  rw [ceilDiv, neg_le, Int.le_ediv_iff_mul_le hb]
  constructor <;> intro h <;> linarith

theorem lt_ceilDiv_iff (hb : 0 < b) : c < ceilDiv a b ↔ c * b < a := by
  rw [← not_le, ceilDiv_le_iff hb, not_le]

theorem le_ceilDiv_mul (hb : 0 < b) : a ≤ ceilDiv a b * b := (ceilDiv_le_iff hb).mp le_rfl

theorem ceilDiv_nonneg (ha : 0 ≤ a) (hb : 0 < b) : 0 ≤ ceilDiv a b := by
  by_contra hneg
  have hle := (ceilDiv_le_iff (a := a) (c := -1) hb).mp (by omega)
  omega

@[simp] theorem zero_ceilDiv (b : ℤ) : ceilDiv 0 b = 0 := by simp [ceilDiv]

theorem ediv_le_ceilDiv (hb : 0 < b) : a / b ≤ ceilDiv a b := by
  have hfloor := Int.ediv_mul_le a hb.ne'
  exact le_of_mul_le_mul_right (hfloor.trans (le_ceilDiv_mul hb)) hb

/-- Python's `x // y + (x % y > 0)`. -/
theorem fdiv_add_fmod_pos (hb : 0 < b) :
    a.fdiv b + (if a.fmod b > 0 then 1 else 0) = ceilDiv a b := by
  rw [Int.fdiv_eq_ediv_of_nonneg _ hb.le, Int.fmod_eq_emod_of_nonneg _ hb.le]
  have hmod := Int.emod_nonneg a hb.ne'
  have hlt := Int.emod_lt_of_pos a hb
  have hdecomp := Int.mul_ediv_add_emod a b
  apply le_antisymm
  · by_contra hgt
    have hle := (ceilDiv_le_iff (a := a) (c := a / b + (if a % b > 0 then 1 else 0) - 1) hb).mp
      (by omega)
    split_ifs at hle <;> nlinarith
  · rw [ceilDiv_le_iff hb]
    split_ifs <;> nlinarith

/-- The quotient of naturals with one added for a remainder. -/
theorem div_add_one_le_iff {a b c : ℕ} (hb : 0 < b) :
    a / b + (if a % b = 0 then 0 else 1) ≤ c ↔ a ≤ c * b := by
  have hdecomp := Nat.div_add_mod a b
  have hmod := Nat.mod_lt a hb
  split_ifs with hexact
  · rw [add_zero, Nat.div_le_iff_le_mul_add_pred hb]
    constructor
    · intro h
      have hquotient : a / b ≤ c := by
        rw [Nat.div_le_iff_le_mul_add_pred hb]
        exact h
      nlinarith
    · intro h
      have hcomm := mul_comm b c
      omega
  · rw [Nat.add_one_le_iff, Nat.div_lt_iff_lt_mul hb]
    constructor
    · exact Nat.le_of_lt
    · intro h
      apply lt_of_le_of_ne h
      rintro rfl
      exact hexact (Nat.mul_mod_left c b)

end Division

/-! ## Newton's iteration for the integer square root -/

section IntegerSqrt

theorem sqrt_le_newton (n : ℕ) {x : ℕ} (hx : 0 < x) : n.sqrt ≤ (x + n / x) / 2 := by
  rw [Nat.le_div_iff_mul_le Nat.two_pos]
  have hdiv : n.sqrt * 2 - x ≤ n / x := by
    rw [Nat.le_div_iff_mul_le hx]
    rcases Nat.le_total (n.sqrt * 2) x with hfar | hnear
    · rw [Nat.sub_eq_zero_of_le hfar, Nat.zero_mul]
      exact Nat.zero_le n
    · refine le_trans ?_ (Nat.sqrt_le n)
      zify [hnear]
      nlinarith [sq_nonneg ((n.sqrt : ℤ) - x)]
  omega

/-- The iteration stops at the root. -/
theorem eq_sqrt_of_le_newton {n x : ℕ} (hroot : n.sqrt ≤ x) (hstop : x ≤ (x + n / x) / 2) :
    x = n.sqrt := by
  apply le_antisymm _ hroot
  rcases Nat.eq_zero_or_pos x with rfl | hx
  · exact Nat.zero_le _
  · rw [Nat.le_sqrt, ← Nat.le_div_iff_mul_le hx]
    omega

/-- From a start below `n / 2 + 1` no sum exceeds `n`, or `n` is small. -/
theorem newton_sum_le {n x : ℕ} (hroot : n.sqrt ≤ x) (hhalf : x ≤ n / 2 + 1) :
    x + n / x ≤ max n 24 := by
  rcases Nat.lt_or_ge x 4 with hsmall | hlarge
  · have hn : n < 4 * 4 := Nat.sqrt_lt.mp (by omega)
    have hdiv : n / x ≤ n := Nat.div_le_self n x
    omega
  · have hdiv : n / x ≤ n / 4 := Nat.div_le_div_left hlarge (by decide)
    omega

/-! ## Quadratic inequalities -/

/-- The integer quadratic formula gives the largest solution. -/
theorem le_quadratic_root_iff {a b c x : ℕ} (ha : 0 < a) :
    x ≤ ((b * b + 4 * a * c).sqrt - b) / (2 * a) ↔ a * (x * x) + b * x ≤ c := by
  have hroot : b ≤ (b * b + 4 * a * c).sqrt := Nat.le_sqrt.mpr (Nat.le_add_right _ _)
  have hsquare : (x * (2 * a) + b) * (x * (2 * a) + b) =
      b * b + 4 * a * (a * (x * x) + b * x) := by ring
  rw [Nat.le_div_iff_mul_le (by omega), Nat.le_sub_iff_add_le hroot, Nat.le_sqrt, hsquare,
    Nat.add_le_add_iff_left]
  exact Nat.mul_le_mul_left_iff (by omega)

theorem le_sqrt_sub_iff {h c x : ℕ} : x ≤ (h * h + c).sqrt - h ↔ x * x + 2 * h * x ≤ c := by
  have hroot : h ≤ (h * h + c).sqrt := Nat.le_sqrt.mpr (Nat.le_add_right _ _)
  have hsquare : (x + h) * (x + h) = h * h + (x * x + 2 * h * x) := by ring
  rw [Nat.le_sub_iff_add_le hroot, Nat.le_sqrt, hsquare, Nat.add_le_add_iff_left]

end IntegerSqrt

end Degenbot.Library
