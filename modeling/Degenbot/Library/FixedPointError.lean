import Mathlib.Analysis.SpecialFunctions.Log.Deriv
import Mathlib.Analysis.Complex.Exponential
import Mathlib.Tactic.FieldSimp
import Mathlib.Tactic.LinearCombination

/-! # Rounding errors of fixed-point series

Integer quotients against real ones, relative errors measured by logarithms, and series whose
terms are rounded down one after another. -/

namespace Degenbot.Library

open Real

/-! ## Integer quotients -/

theorem fdiv_le_div {x y : ℤ} (hy : 0 < y) : (x.fdiv y : ℝ) ≤ x / y := by
  have hy' : (0 : ℝ) < y := by exact_mod_cast hy
  rw [le_div_iff₀ hy']
  have h : x.fdiv y * y ≤ x := by
    rw [Int.fdiv_eq_ediv_of_nonneg x hy.le]
    exact Int.ediv_mul_le x hy.ne'
  exact_mod_cast h

theorem div_lt_fdiv_add_one {x y : ℤ} (hy : 0 < y) : (x / y : ℝ) < x.fdiv y + 1 := by
  have hy' : (0 : ℝ) < y := by exact_mod_cast hy
  rw [div_lt_iff₀ hy']
  have h : x < (x.fdiv y + 1) * y := by
    rw [Int.fdiv_eq_ediv_of_nonneg x hy.le]
    exact Int.lt_ediv_add_one_mul_self x hy
  exact_mod_cast h

/-- A quotient that is rounded down is within one of any estimate of the exact one, plus its
error. -/
theorem abs_fdiv_sub_le {x y : ℤ} {v e : ℝ} (hy : 0 < y) (h : |(x / y : ℝ) - v| ≤ e) :
    |(x.fdiv y : ℝ) - v| ≤ e + 1 := by
  have hle := fdiv_le_div (x := x) hy
  have hlt := div_lt_fdiv_add_one (x := x) hy
  rw [abs_le] at h ⊢
  constructor <;> linarith

/-- A rounded product of two rounded factors; `f` bounds the error of the second one. -/
theorem abs_fdiv_mul_sub_le {N Q one : ℤ} {p q f : ℝ} (hone : 0 < one) (hN : |N - one * p| ≤ 2)
    (hQ : |Q - one * q| ≤ f) (hp : |p| * f ≤ 1 / 4) (hsmall : |(Q / one : ℝ)| ≤ 3 / 8) :
    |((N * Q).fdiv one : ℝ) - one * (p * q)| ≤ 2 := by
  have hone' : (one : ℝ) ≠ 0 := by exact_mod_cast hone.ne'
  have hsplit : ((N * Q : ℤ) / one : ℝ) - one * (p * q) =
      (N - one * p) * (Q / one) + p * (Q - one * q) := by
    push_cast
    field_simp
    ring
  have herror : |((N * Q : ℤ) / one : ℝ) - one * (p * q)| ≤ 2 * (3 / 8) + 1 / 4 := by
    rw [hsplit]
    refine (abs_add_le _ _).trans (add_le_add ?_ ?_)
    · rw [abs_mul]
      exact mul_le_mul hN hsmall (abs_nonneg _) (by norm_num)
    · rw [abs_mul]
      exact (mul_le_mul_of_nonneg_left hQ (abs_nonneg _)).trans hp
  exact (abs_fdiv_sub_le hone herror).trans (by norm_num)

theorem abs_fdiv_small_sub_le {N one d : ℤ} {p : ℝ} (hd : 2 ≤ d) (hN : |N - one * p| ≤ 2) :
    |(N.fdiv d : ℝ) - one * (p / d)| ≤ 2 := by
  have hd' : (2 : ℝ) ≤ d := by exact_mod_cast hd
  have herror : |(N / d : ℝ) - one * (p / d)| ≤ 1 := by
    rw [← mul_div_assoc, ← sub_div, abs_div, abs_of_pos (by linarith : (0 : ℝ) < d),
      div_le_one (by linarith)]
    linarith
  exact (abs_fdiv_sub_le (by omega) herror).trans (by norm_num)

/-! ## Relative errors -/

theorem log_sub_log_le {v w : ℝ} (hv : 0 < v) (hw : 0 < w) : log v - log w ≤ (v - w) / w := by
  rw [← log_div hv.ne' hw.ne', sub_div, div_self hw.ne']
  exact log_le_sub_one_of_pos (div_pos hv hw)

theorem abs_log_sub_log_le {v w m : ℝ} (hm : 0 < m) (hv : m ≤ v) (hw : m ≤ w) :
    |log v - log w| ≤ |v - w| / m := by
  have hv' := hm.trans_le hv
  have hw' := hm.trans_le hw
  have hbound : ∀ a b : ℝ, 0 < b → m ≤ b → (a - b) / b ≤ |a - b| / m := fun a b hb hmb =>
    calc (a - b) / b ≤ |a - b| / b := by gcongr; exact le_abs_self _
      _ ≤ |a - b| / m := by gcongr
  rw [abs_le]
  constructor
  · have h := (log_sub_log_le hw' hv').trans (hbound w v hv' hv)
    rw [abs_sub_comm] at h
    linarith
  · exact (log_sub_log_le hv' hw').trans (hbound v w hw' hw)

/-- Rounding down a quotient of at least `m` costs at most `1 / m` in its logarithm. -/
theorem log_mul_fdiv_within {a b c m : ℤ} (ha : 0 < a) (hb : 0 < b) (hc : 0 < c) (hm : 0 < m)
    (h : m * c ≤ a * b) :
    m ≤ (a * b).fdiv c ∧
      |log ((a * b).fdiv c) - (log a + log b - log c)| ≤ 1 / m := by
  have hfloor : m ≤ (a * b).fdiv c := by
    rw [Int.fdiv_eq_ediv_of_nonneg _ hc.le]
    exact Int.le_ediv_of_mul_le hc h
  refine ⟨hfloor, ?_⟩
  have ha' : (a : ℝ) ≠ 0 := by exact_mod_cast ha.ne'
  have hb' : (b : ℝ) ≠ 0 := by exact_mod_cast hb.ne'
  have hc' : (c : ℝ) ≠ 0 := by exact_mod_cast hc.ne'
  have hm' : (0 : ℝ) < m := by exact_mod_cast hm
  have hfloor' : (m : ℝ) ≤ (a * b).fdiv c := by exact_mod_cast hfloor
  have hle := fdiv_le_div (x := a * b) hc
  have hlt := div_lt_fdiv_add_one (x := a * b) hc
  have hlog : log ((a * b : ℤ) / c : ℝ) = log a + log b - log c := by
    rw [Int.cast_mul, log_div (mul_ne_zero ha' hb') hc', log_mul ha' hb']
  rw [← hlog]
  refine (abs_log_sub_log_le hm' hfloor' (hfloor'.trans hle)).trans ?_
  refine div_le_div_of_nonneg_right ?_ hm'.le
  rw [abs_le]
  constructor <;> linarith

/-! ## The logarithm by odd powers -/

theorem sum_range_sub_sum_range_neg (z : ℝ) (n : ℕ) :
    ∑ i ∈ Finset.range (2 * n), z ^ (i + 1) / (i + 1) -
        ∑ i ∈ Finset.range (2 * n), (-z) ^ (i + 1) / (i + 1) =
      2 * ∑ k ∈ Finset.range n, z ^ (2 * k + 1) / (2 * k + 1) := by
  induction n with
  | zero => simp
  | succ n ih =>
      rw [Nat.mul_succ, Finset.sum_range_succ, Finset.sum_range_succ, Finset.sum_range_succ,
        Finset.sum_range_succ, Finset.sum_range_succ, mul_add, ← ih]
      have hodd : (-z) ^ (2 * n + 1) = -z ^ (2 * n + 1) := Odd.neg_pow ⟨n, rfl⟩ z
      have heven : (-z) ^ (2 * n + 1 + 1) = z ^ (2 * n + 1 + 1) :=
        Even.neg_pow ⟨n + 1, by ring⟩ z
      rw [hodd, heven]
      push_cast
      ring

/-- `log ((1 + z) / (1 - z))` by the first odd powers of `z`. -/
theorem abs_log_sub_odd_sum_le {z : ℝ} (hz : |z| < 1) (n : ℕ) :
    |log ((1 + z) / (1 - z)) - 2 * ∑ k ∈ Finset.range n, z ^ (2 * k + 1) / (2 * k + 1)| ≤
      2 * (|z| ^ (2 * n + 1) / (1 - |z|)) := by
  have hplus := abs_log_sub_add_sum_range_le hz (2 * n)
  have hminus := abs_log_sub_add_sum_range_le (x := -z) (by rwa [abs_neg]) (2 * n)
  rw [abs_neg, sub_neg_eq_add] at hminus
  have h1 : 1 - z ≠ 0 := by
    have := (abs_lt.mp hz).2
    linarith
  have h2 : 1 + z ≠ 0 := by
    have := (abs_lt.mp hz).1
    linarith
  rw [log_div h2 h1, ← sum_range_sub_sum_range_neg]
  rw [abs_le] at hplus hminus ⊢
  constructor <;> linarith

end Degenbot.Library
