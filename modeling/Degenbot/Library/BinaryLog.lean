import Mathlib.Analysis.SpecialFunctions.Log.Basic
import Mathlib.Analysis.SpecialFunctions.Log.Deriv
import Mathlib.Data.Int.Bitwise
import Mathlib.Tactic

/-! # Logarithms in fixed point -/

/-! ## Logarithms of rounded quotients

Fixed-point products and quotients are followed on a logarithmic scale, where every
rounding is an additive error. -/

namespace Degenbot.Library

theorem log_le_of_le_one_add {x η : ℝ} (hx : 0 < x) (h : x ≤ 1 + η) : Real.log x ≤ η := by
  have hlog := Real.log_le_sub_one_of_pos hx
  linarith

/-- A ratio close to one has a logarithm close to zero. -/
theorem abs_log_div_le {a b η : ℝ} (ha : 0 < a) (hb : 0 < b) (hab : a ≤ b * (1 + η))
    (hba : b ≤ a * (1 + η)) : |Real.log a - Real.log b| ≤ η := by
  rw [← Real.log_div ha.ne' hb.ne', abs_le]
  constructor
  · have hinv : Real.log (b / a) ≤ η :=
      log_le_of_le_one_add (by positivity) (by rw [div_le_iff₀ ha]; linarith)
    rw [← inv_div, Real.log_inv] at hinv
    linarith
  · exact log_le_of_le_one_add (by positivity) (by rw [div_le_iff₀ hb]; linarith)

section Quotient

variable {a b k : ℕ}

theorem log_natDiv_le (hb : 0 < b) (hpos : 0 < a / b) :
    Real.log ((a / b : ℕ) : ℝ) ≤ Real.log a - Real.log b := by
  have ha : 0 < a := by
    by_contra h0
    simp [Nat.eq_zero_of_not_pos h0] at hpos
  rw [← Real.log_div (by positivity) (by positivity)]
  exact Real.log_le_log (by exact_mod_cast hpos) Nat.cast_div_le

/-- Rounding a quotient of at least `k` down costs at most `1 / k`. -/
theorem le_log_natDiv (hb : 0 < b) (hk : 0 < k) (hle : k ≤ a / b) :
    Real.log a - Real.log b - 1 / k ≤ Real.log ((a / b : ℕ) : ℝ) := by
  have hq : 0 < a / b := hk.trans_le hle
  have ha : 0 < a := by
    by_contra h0
    simp [Nat.eq_zero_of_not_pos h0] at hq
  have hqR : (0 : ℝ) < (a / b : ℕ) := by exact_mod_cast hq
  have hlt : (a : ℝ) < ((a / b : ℕ) + 1) * b := by
    exact_mod_cast (Nat.lt_mul_of_div_lt (Nat.lt_succ_self _) hb)
  have hratio : (a : ℝ) / b / (a / b : ℕ) ≤ 1 + 1 / k := by
    have hkle : 1 / ((a / b : ℕ) : ℝ) ≤ 1 / k :=
      one_div_le_one_div_of_le (by exact_mod_cast hk) (by exact_mod_cast hle)
    have hdiv : (a : ℝ) / b / (a / b : ℕ) ≤ 1 + 1 / ((a / b : ℕ) : ℝ) := by
      rw [div_div, div_le_iff₀ (by positivity)]
      have hexpand : (1 + 1 / ((a / b : ℕ) : ℝ)) * (b * (a / b : ℕ)) =
          ((a / b : ℕ) + 1) * b := by field_simp
      rw [hexpand]
      exact hlt.le
    linarith
  have hlog := log_le_of_le_one_add (by positivity) hratio
  rw [Real.log_div (by positivity) hqR.ne', Real.log_div (by positivity) (by positivity)] at hlog
  linarith

/-- Rounding a quotient of at least `k` up costs at most `1 / k`. -/
theorem log_ceil_bounds {q : ℕ} (hb : 0 < b) (hk : 0 < k) (hle : k * b ≤ a) (hq : a ≤ q * b)
    (hq' : q * b < a + b) :
    Real.log a - Real.log b ≤ Real.log q ∧ Real.log q ≤ Real.log a - Real.log b + 1 / k := by
  have ha : 0 < a := (Nat.mul_pos hk hb).trans_le hle
  have hqpos : 0 < q := by
    by_contra h0
    simp [Nat.eq_zero_of_not_pos h0] at hq
    omega
  have haR : (0 : ℝ) < a := by exact_mod_cast ha
  have hbR : (0 : ℝ) < b := by exact_mod_cast hb
  have hkR : (0 : ℝ) < k := by exact_mod_cast hk
  have hqR : (0 : ℝ) < q := by exact_mod_cast hqpos
  rw [← Real.log_div haR.ne' hbR.ne']
  constructor
  · apply Real.log_le_log (by positivity)
    rw [div_le_iff₀ hbR]
    exact_mod_cast hq
  · have hratio : (q : ℝ) / (a / b) ≤ 1 + 1 / k := by
      rw [div_div_eq_mul_div, div_le_iff₀ haR]
      have hle' : (k : ℝ) * b ≤ a := by exact_mod_cast hle
      have hlt' : (q : ℝ) * b ≤ a + b := by exact_mod_cast hq'.le
      have hb' : (b : ℝ) ≤ 1 / k * a := by
        rw [one_div_mul_eq_div, le_div_iff₀ hkR]
        linarith
      linarith
    have hlog := log_le_of_le_one_add (by positivity) hratio
    rw [Real.log_div hqR.ne' (by positivity)] at hlog
    linarith

end Quotient

/-! ## Binary logarithms by repeated squaring

A mantissa `r` with `w` fraction bits stands for `r / 2 ^ w`, which lies in `[1, 2)`.
Squaring it doubles its logarithm; the integer part of the result is the next binary
digit. -/

/-- The logarithm of a mantissa with `w` fraction bits. -/
noncomputable def mantissaLog (w r : ℕ) : ℝ := Real.log r - w * Real.log (2 : ℕ)

theorem mantissaLog_eq (w r : ℕ) : mantissaLog w r = Real.log r - w * Real.log 2 := by
  rw [mantissaLog, Nat.cast_ofNat]

/-- A mantissa in `[1, 2)`. -/
def IsMantissa (w r : ℕ) : Prop := 2 ^ w ≤ r ∧ r < 2 ^ (w + 1)

theorem log_two_pow (w : ℕ) : Real.log ((2 ^ w : ℕ) : ℝ) = w * Real.log 2 := by
  rw [Nat.cast_pow, Real.log_pow]
  norm_num

theorem IsMantissa.log_bounds {w r : ℕ} (h : IsMantissa w r) :
    0 ≤ mantissaLog w r ∧ mantissaLog w r ≤ Real.log 2 := by
  have hr : (0 : ℝ) < r := by exact_mod_cast lt_of_lt_of_le (Nat.two_pow_pos w) h.1
  have hlow : Real.log ((2 ^ w : ℕ) : ℝ) ≤ Real.log r :=
    Real.log_le_log (by positivity) (by exact_mod_cast h.1)
  have hhigh : Real.log r ≤ Real.log ((2 ^ (w + 1) : ℕ) : ℝ) :=
    Real.log_le_log hr (by exact_mod_cast h.2.le)
  rw [log_two_pow] at hlow hhigh
  push_cast at hhigh
  rw [mantissaLog_eq]
  constructor <;> linarith

/-- Shifting a value to a mantissa loses at most the last bit. -/
theorem log_shiftRight_bounds {w n s : ℕ} (h : 2 ^ w ≤ n >>> s) :
    Real.log n - s * Real.log 2 - 1 / 2 ^ w ≤ Real.log (n >>> s : ℕ) ∧
      Real.log (n >>> s : ℕ) ≤ Real.log n - s * Real.log 2 := by
  rw [Nat.shiftRight_eq_div_pow] at *
  have hupper := log_natDiv_le (Nat.two_pow_pos s) (lt_of_lt_of_le (Nat.two_pow_pos w) h)
  have hlower := le_log_natDiv (Nat.two_pow_pos s) (Nat.two_pow_pos w) h
  rw [log_two_pow] at hupper hlower
  push_cast at hlower
  exact ⟨hlower, hupper⟩

/-- One digit: the square of a mantissa is a digit and a mantissa, and the logarithm is
doubled up to the two truncations. -/
theorem IsMantissa.square {w r : ℕ} (h : IsMantissa w r) :
    let square := (r * r) >>> w
    let digit := square >>> (w + 1)
    digit ≤ 1 ∧ IsMantissa w (square >>> digit) ∧
      2 * mantissaLog w r - 2 / 2 ^ w ≤ digit * Real.log 2 + mantissaLog w (square >>> digit) ∧
      digit * Real.log 2 + mantissaLog w (square >>> digit) ≤ 2 * mantissaLog w r := by
  intro square digit
  have hsq : 2 ^ w ≤ square ∧ square < 2 ^ (w + 2) := by
    simp only [square, Nat.shiftRight_eq_div_pow]
    constructor
    · rw [Nat.le_div_iff_mul_le (Nat.two_pow_pos w)]
      exact Nat.mul_le_mul h.1 h.1
    · rw [Nat.div_lt_iff_lt_mul (Nat.two_pow_pos w)]
      calc r * r < 2 ^ (w + 1) * 2 ^ (w + 1) := Nat.mul_lt_mul'' h.2 h.2
        _ = 2 ^ (w + 2) * 2 ^ w := by ring
  have hdigit : digit ≤ 1 := by
    simp only [digit, Nat.shiftRight_eq_div_pow]
    have hlt : square / 2 ^ (w + 1) < 2 := by
      rw [Nat.div_lt_iff_lt_mul (Nat.two_pow_pos _)]
      calc square < 2 ^ (w + 2) := hsq.2
        _ = 2 * 2 ^ (w + 1) := by ring
    omega
  have hmant : IsMantissa w (square >>> digit) := by
    rcases Nat.le_one_iff_eq_zero_or_eq_one.mp hdigit with hzero | hone
    · have hlt : square < 2 ^ (w + 1) := by
        by_contra hge
        have hpos : 0 < square / 2 ^ (w + 1) := Nat.div_pos (not_lt.mp hge) (Nat.two_pow_pos _)
        simp only [digit, Nat.shiftRight_eq_div_pow] at hzero
        omega
      rw [hzero]
      exact ⟨hsq.1, hlt⟩
    · have hge : 2 ^ (w + 1) ≤ square := by
        by_contra hlt
        simp only [digit, Nat.shiftRight_eq_div_pow,
          Nat.div_eq_of_lt (not_le.mp hlt)] at hone
        cases hone
      rw [hone, Nat.shiftRight_eq_div_pow, pow_one]
      constructor
      · rw [Nat.le_div_iff_mul_le (by norm_num)]
        calc 2 ^ w * 2 = 2 ^ (w + 1) := by ring
          _ ≤ square := hge
      · rw [Nat.div_lt_iff_lt_mul (by norm_num)]
        calc square < 2 ^ (w + 2) := hsq.2
          _ = 2 ^ (w + 1) * 2 := by ring
  have hr : (0 : ℝ) < r := by exact_mod_cast lt_of_lt_of_le (Nat.two_pow_pos w) h.1
  have hlogsq : Real.log ((r * r : ℕ) : ℝ) = 2 * Real.log r := by
    rw [Nat.cast_mul, Real.log_mul hr.ne' hr.ne']
    ring
  obtain ⟨hlow, hhigh⟩ := log_shiftRight_bounds (n := r * r) (s := w) hsq.1
  obtain ⟨hlow', hhigh'⟩ := log_shiftRight_bounds (n := square) (s := digit) hmant.1
  rw [hlogsq] at hlow hhigh
  refine ⟨hdigit, hmant, ?_, ?_⟩
  · rw [mantissaLog_eq, mantissaLog_eq]
    have htwo : (2 : ℝ) / 2 ^ w = 1 / 2 ^ w + 1 / 2 ^ w := by ring
    rw [htwo]
    linarith
  · rw [mantissaLog_eq, mantissaLog_eq]
    linarith

/-! ## Setting a bit of a signed number -/

theorem lor_zero (a : ℤ) : Int.lor a 0 = a := by
  cases a with
  | ofNat n => simp [Int.lor]
  | negSucc n => simp [Int.lor, Nat.ldiff]

/-- Or-ing a digit below the lowest set bit adds it. -/
theorem lor_digit_eq_add {digit : ℕ} (hdigit : digit ≤ 1) (k : ℕ) (b : ℤ) :
    Int.lor (b * 2 ^ (k + 1)) ((digit <<< k : ℕ) : ℤ) = b * 2 ^ (k + 1) + digit * 2 ^ k := by
  induction k with
  | zero =>
      have hleft : b * 2 ^ (0 + 1) = Int.bit false b := by simp [Int.bit]; ring
      have hright : ((digit <<< 0 : ℕ) : ℤ) = Int.bit (digit == 1) 0 := by
        rcases Nat.le_one_iff_eq_zero_or_eq_one.mp hdigit with rfl | rfl <;> simp [Int.bit]
      rw [hright, hleft, Int.lor_bit, lor_zero, ← hleft]
      rcases Nat.le_one_iff_eq_zero_or_eq_one.mp hdigit with rfl | rfl <;> simp [Int.bit] <;> ring
  | succ k ih =>
      have hleft : b * 2 ^ (k + 1 + 1) = Int.bit false (b * 2 ^ (k + 1)) := by
        simp [Int.bit]
        ring
      have hright : ((digit <<< (k + 1) : ℕ) : ℤ) = Int.bit false ((digit <<< k : ℕ) : ℤ) := by
        simp [Int.bit, Nat.shiftLeft_eq]
        ring
      rw [hleft, hright, Int.lor_bit, ih]
      simp [Int.bit]
      ring

end Degenbot.Library
