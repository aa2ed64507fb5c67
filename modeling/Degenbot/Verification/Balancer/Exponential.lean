import Degenbot.Library.Outcome
import Degenbot.Verification.Balancer.Constants

/-! # The error of `exp`

Deducting `x_n` and multiplying by `a_n` keeps `log product + x`, up to the error of the table
and of one rounding. -/

namespace Degenbot.LogExpMath

open Library

/-! ## The decomposition -/

theorem lnTable_entry : ∀ entry ∈ lnTable, Entry entry := by
  intro entry hentry
  have hrange : ∀ entry ∈ lnTable, 0 ≤ entry.1 ∧ 10 ^ 20 ≤ entry.2 := by decide
  have hstep : stepError entry - 1 / 10 ^ 20 = (2 + entry.1 / 10 ^ 20) / 10 ^ 20 := by
    unfold stepError
    ring
  exact ⟨hstep ▸ expWithin_table entry hentry, hrange entry hentry⟩

theorem expTable_entry : ∀ entry ∈ expTable, Entry entry := fun entry hentry =>
  lnTable_entry entry (List.mem_append_left _ hentry)

theorem stepError_nonneg {entry : ℤ × ℤ} (h : Entry entry) : 0 ≤ stepError entry := by
  have hx : (0 : ℝ) ≤ entry.1 := by exact_mod_cast h.2.1
  unfold stepError
  positivity

theorem expStep_potential {state entry : ℤ × ℤ} (hentry : Entry entry) (hproduct : 10 ^ 20 ≤ state.2) :
    10 ^ 20 ≤ (expStep python state entry).2 ∧
      |potential (expStep python state entry).2 (expStep python state entry).1 -
        potential state.2 state.1| ≤ stepError entry := by
  unfold expStep
  by_cases hpresent : state.1 ≥ entry.1
  · rw [if_pos hpresent]
    have hentryPos : 0 < entry.2 := lt_of_lt_of_le (by decide) hentry.2.2
    have hstatePos : 0 < state.2 := lt_of_lt_of_le (by decide) hproduct
    obtain ⟨hfloor, hround⟩ := log_mul_fdiv_within hstatePos hentryPos (by decide : 0 < one20)
      (by decide) (mul_le_mul hproduct hentry.2.2 (by decide) hstatePos.le)
    refine ⟨hfloor, ?_⟩
    have htable := hentry.1.2
    have hentryNe : (entry.2 : ℝ) ≠ 0 := by exact_mod_cast hentryPos.ne'
    rw [Real.log_div hentryNe (by norm_num)] at htable
    unfold potential
    simp only [python]
    norm_num only [one20] at hround ⊢
    push_cast
    rw [abs_le] at hround htable ⊢
    norm_num only at hround htable ⊢
    constructor <;> linarith
  · rw [if_neg hpresent, sub_self, abs_zero]
    exact ⟨hproduct, stepError_nonneg hentry⟩

theorem expFold_potential (table : List (ℤ × ℤ)) (htable : ∀ entry ∈ table, Entry entry)
    (state : ℤ × ℤ) (hproduct : 10 ^ 20 ≤ state.2) :
    10 ^ 20 ≤ (table.foldl (expStep python) state).2 ∧
      |potential (table.foldl (expStep python) state).2 (table.foldl (expStep python) state).1 -
          potential state.2 state.1| ≤
        (table.map stepError).sum := by
  induction table generalizing state with
  | nil => simpa using hproduct
  | cons entry table ih =>
      obtain ⟨hnext, hstep⟩ := expStep_potential (htable entry (by simp)) hproduct
      obtain ⟨hlast, hrest⟩ := ih (fun e he => htable e (by simp [he])) _ hnext
      refine ⟨hlast, ?_⟩
      rw [List.foldl_cons, List.map_cons, List.sum_cons]
      rw [abs_le] at hstep hrest ⊢
      constructor <;> linarith

/-! ## The remainder -/

/-- Each power is at least half of the one before. -/
def Halving : ℤ → List (ℤ × ℤ) → Prop
  | _, [] => True
  | b, entry :: table => b ≤ 2 * entry.1 ∧ Halving entry.1 table

def lastPower : ℤ → List (ℤ × ℤ) → ℤ
  | b, [] => b
  | _, entry :: table => lastPower entry.1 table

theorem expFold_remainder (table : List (ℤ × ℤ)) {b : ℤ} (hhalving : Halving b table)
    (state : ℤ × ℤ) (hnonneg : 0 ≤ state.1) (hlt : state.1 < b) :
    0 ≤ (table.foldl (expStep python) state).1 ∧
      (table.foldl (expStep python) state).1 < lastPower b table := by
  induction table generalizing state b with
  | nil => exact ⟨hnonneg, hlt⟩
  | cons entry table ih =>
      rw [List.foldl_cons]
      unfold Halving at hhalving
      refine ih hhalving.2 _ ?_ ?_
      all_goals
        unfold expStep
        split <;> omega

/-! ## The series -/

theorem expSum_eq (x : ℝ) :
    expSum x [2, 3, 4, 5, 6, 7, 8, 9, 10, 11, 12] x (1 + x) =
      ∑ m ∈ Finset.range 13, x ^ m / m.factorial := by
  simp only [expSum, Finset.sum_range_succ, Finset.sum_range_zero, Nat.factorial]
  push_cast
  ring

theorem expSeries_error {x : ℤ} (hx : 0 ≤ x) (hx' : x < 25 * 10 ^ 18) :
    |(expSeries python x : ℝ) - 10 ^ 20 * Real.exp (x / 10 ^ 20)| ≤ 300 := by
  have hx0 : (0 : ℝ) ≤ x := by exact_mod_cast hx
  have hx1 : (x : ℝ) ≤ 25 * 10 ^ 18 := by exact_mod_cast hx'.le
  have hone : ((one20 : ℤ) : ℝ) = 10 ^ 20 := by norm_num [one20]
  have hratio : |(x / 10 ^ 20 : ℝ)| ≤ 1 / 4 := by
    rw [abs_of_nonneg (by positivity), div_le_iff₀ (by norm_num)]
    linarith
  have hterm : |(x : ℝ) - one20 * (x / 10 ^ 20)| ≤ 2 := by
    rw [hone, mul_div_cancel₀ _ (by norm_num), sub_self, abs_zero]
    norm_num
  have hsum : |((one20 + x : ℤ) : ℝ) - one20 * (1 + x / 10 ^ 20)| ≤ 0 := by
    refine (abs_eq_zero.mpr ?_).le
    push_cast [hone]
    ring
  have hrounding := expSeries_fold_error hx hx'.le [2, 3, 4, 5, 6, 7, 8, 9, 10, 11, 12] (by decide)
    hterm hsum
  rw [hone, expSum_eq] at hrounding
  have htaylor : |Real.exp (x / 10 ^ 20) - ∑ m ∈ Finset.range 13, (x / 10 ^ 20 : ℝ) ^ m / m.factorial| ≤
      278 / 10 ^ 20 := by
    refine (Real.exp_bound (hratio.trans (by norm_num)) (n := 13) (by norm_num)).trans ?_
    calc |(x / 10 ^ 20 : ℝ)| ^ 13 * ((13 : ℕ).succ / ((13 : ℕ).factorial * (13 : ℕ))) ≤
        (1 / 4) ^ 13 * ((13 : ℕ).succ / ((13 : ℕ).factorial * (13 : ℕ))) := by gcongr
      _ ≤ 278 / 10 ^ 20 := by norm_num [Nat.factorial]
  have hseries : (expSeries python x : ℝ) = (([2, 3, 4, 5, 6, 7, 8, 9, 10, 11, 12].foldl
      (fun (state : ℤ × ℤ) n =>
        let term := python.quotient (python.quotient (state.1 * x) one20) n
        (term, state.2 + term)) (x, one20 + x)).2 : ℝ) := rfl
  rw [hseries]
  norm_num only [List.length_cons, List.length_nil] at hrounding
  rw [abs_le] at hrounding htaylor ⊢
  constructor <;> linarith

theorem expSeries_within {x : ℤ} (hx : 0 ≤ x) (hx' : x < 25 * 10 ^ 18) :
    99 * 10 ^ 18 ≤ expSeries python x ∧
      |Real.log (expSeries python x) - (Real.log (10 ^ 20) + x / 10 ^ 20)| ≤ 4 / 10 ^ 18 := by
  have hx0 : (0 : ℝ) ≤ x := by exact_mod_cast hx
  have herror := expSeries_error hx hx'
  have hexp : 1 ≤ Real.exp (x / 10 ^ 20 : ℝ) := Real.one_le_exp (by positivity)
  have hlow : (99 * 10 ^ 18 : ℝ) ≤ expSeries python x := by
    have := (abs_le.mp herror).1
    linarith
  refine ⟨by exact_mod_cast hlow, ?_⟩
  have hlog := abs_log_sub_log_le (by norm_num : (0 : ℝ) < 99 * 10 ^ 18) hlow
    (by linarith : (99 * 10 ^ 18 : ℝ) ≤ 10 ^ 20 * Real.exp (x / 10 ^ 20))
  rw [Real.log_mul (by norm_num) (Real.exp_pos _).ne', Real.log_exp] at hlog
  refine hlog.trans ?_
  rw [div_le_iff₀ (by norm_num)]
  exact herror.trans (by norm_num)

/-! ## `exp` -/

theorem firstExponent_cases {x : ℤ} (hx : 0 ≤ x) (hx' : x ≤ maxNaturalExponent) :
    0 ≤ (firstExponent x).1 ∧ (firstExponent x).1 < 64 * 10 ^ 18 ∧ 1 ≤ (firstExponent x).2 ∧
      |Real.log (firstExponent x).2 - (x - (firstExponent x).1) / 10 ^ 18| ≤ 140 / 10 ^ 20 := by
  have hmax : maxNaturalExponent = 130 * 10 ^ 18 := rfl
  have h0 : x0 = 128 * 10 ^ 18 := rfl
  have h1 : x1 = 64 * 10 ^ 18 := rfl
  unfold firstExponent
  split_ifs with hfirst hsecond
  · refine ⟨by dsimp only; omega, by dsimp only; omega, (by decide : 1 ≤ a0), ?_⟩
    have hpower : ((x : ℝ) - (x - x0 : ℤ)) / 10 ^ 18 = 128 := by
      push_cast
      rw [sub_sub_cancel, h0]
      norm_num
    rw [hpower]
    exact expWithin_a0.2
  · refine ⟨by dsimp only; omega, by dsimp only; omega, (by decide : 1 ≤ a1), ?_⟩
    have hpower : ((x : ℝ) - (x - x1 : ℤ)) / 10 ^ 18 = 64 := by
      push_cast
      rw [sub_sub_cancel, h1]
      norm_num
    rw [hpower]
    exact expWithin_a1.2.trans (by norm_num)
  · refine ⟨hx, by dsimp only; omega, le_rfl, ?_⟩
    rw [Int.cast_one, Real.log_one, sub_self, zero_div, sub_zero, abs_zero]
    positivity

theorem sum_stepError_expTable : (expTable.map stepError).sum ≤ 1 / 10 ^ 18 := by
  norm_num [expTable, stepError]

theorem expNonneg_within {x : ℤ} (hx : 0 ≤ x) (hx' : x ≤ maxNaturalExponent) :
    ExpWithin (1 / 10 ^ 17) (x / 10 ^ 18) (expNonneg python x / 10 ^ 18) := by
  obtain ⟨hfirst, hfirstLt, hfactor, hfactorLog⟩ := firstExponent_cases hx hx'
  obtain ⟨hproduct, hpotential⟩ := expFold_potential expTable expTable_entry
    ((firstExponent x).1 * 100, one20) le_rfl
  obtain ⟨hremainder, hremainderLt⟩ := expFold_remainder expTable (b := 64 * 10 ^ 20)
    (by norm_num [Halving, expTable]) ((firstExponent x).1 * 100, one20)
    (by dsimp only; omega) (by dsimp only; omega)
  unfold expNonneg
  dsimp only
  generalize expTable.foldl (expStep python) ((firstExponent x).1 * 100, one20) = state
    at hproduct hpotential hremainder hremainderLt ⊢
  obtain ⟨hseries, hseriesLog⟩ := expSeries_within hremainder hremainderLt
  have hproductPos : 0 < state.2 := lt_of_lt_of_le (by decide) hproduct
  have hseriesPos : 0 < expSeries python state.1 := lt_of_lt_of_le (by decide) hseries
  obtain ⟨hinner, hinnerLog⟩ := log_mul_fdiv_within hproductPos hseriesPos
    (by decide : 0 < one20) (m := 99 * 10 ^ 18) (by decide)
    (by rw [mul_comm]; exact mul_le_mul hproduct hseries (by decide) hproductPos.le)
  obtain ⟨hresult, hresultLog⟩ := log_mul_fdiv_within (lt_of_lt_of_le (by decide) hinner)
    (lt_of_lt_of_le one_pos hfactor) (by decide : (0 : ℤ) < 100) (m := 99 * 10 ^ 16) (by decide)
    (by nlinarith)
  have hresultPos : (0 : ℝ) < python.quotient (python.quotient (state.2 * expSeries python state.1)
      one20 * (firstExponent x).2) 100 := by
    exact_mod_cast lt_of_lt_of_le (by decide) hresult
  refine ⟨by positivity, ?_⟩
  have hsum := hpotential.trans sum_stepError_expTable
  have hlog20 : Real.log (10 ^ 20 : ℝ) = 20 * Real.log 10 := by
    rw [Real.log_pow]
    norm_num
  have hlog18 : Real.log (10 ^ 18 : ℝ) = 18 * Real.log 10 := by
    rw [Real.log_pow]
    norm_num
  have hlog2 : Real.log (100 : ℝ) = 2 * Real.log 10 := by
    rw [show (100 : ℝ) = 10 ^ 2 by norm_num, Real.log_pow]
    norm_num
  have hone : ((one20 : ℤ) : ℝ) = 10 ^ 20 := by norm_num [one20]
  have hhundred : ((100 : ℤ) : ℝ) = 100 := by norm_num
  unfold potential at hsum
  rw [Real.log_div hresultPos.ne' (by norm_num), hlog18]
  simp only [python] at *
  rw [hhundred, hlog2] at hresultLog
  rw [hone, hlog20] at hinnerLog
  rw [hlog20] at hseriesLog
  push_cast [hone] at hsum hresultLog hinnerLog
  rw [hlog20] at hsum
  rw [abs_le] at *
  constructor <;> norm_num at * <;> linarith

end Degenbot.LogExpMath

/-! ## The errors of `_ln` and `_ln_36`

Dividing by `a_n` and adding `x_n` keeps `log a + sum`, up to the error of the table and of one
rounding. What is left is close to one, and its logarithm is a series of odd powers. -/

namespace Degenbot.LogExpMath

open Library

/-! ## The decomposition -/

theorem lnStep_potential {state entry : ℤ × ℤ} (hentry : Entry entry) (hvalue : 10 ^ 20 ≤ state.1) :
    10 ^ 20 ≤ (lnStep python state entry).1 ∧
      |potential (lnStep python state entry).1 (lnStep python state entry).2 -
        potential state.1 state.2| ≤ stepError entry := by
  unfold lnStep
  by_cases hpresent : state.1 ≥ entry.2
  · rw [if_pos hpresent]
    have hentryPos : 0 < entry.2 := lt_of_lt_of_le (by decide) hentry.2.2
    have hstatePos : 0 < state.1 := lt_of_lt_of_le (by decide) hvalue
    obtain ⟨hfloor, hround⟩ := log_mul_fdiv_within hstatePos (by decide : 0 < one20) hentryPos
      (m := 10 ^ 20) (by decide) (by rw [mul_comm]; exact mul_le_mul_of_nonneg_right hpresent (by decide))
    refine ⟨hfloor, ?_⟩
    have htable := hentry.1.2
    have hentryNe : (entry.2 : ℝ) ≠ 0 := by exact_mod_cast hentryPos.ne'
    rw [Real.log_div hentryNe (by norm_num)] at htable
    unfold potential
    simp only [python]
    norm_num only [one20] at hround ⊢
    push_cast
    rw [abs_le] at hround htable ⊢
    norm_num only at hround htable ⊢
    constructor <;> linarith
  · rw [if_neg hpresent, sub_self, abs_zero]
    exact ⟨hvalue, stepError_nonneg hentry⟩

theorem lnFold_potential (table : List (ℤ × ℤ)) (htable : ∀ entry ∈ table, Entry entry)
    (state : ℤ × ℤ) (hvalue : 10 ^ 20 ≤ state.1) :
    10 ^ 20 ≤ (table.foldl (lnStep python) state).1 ∧
      |potential (table.foldl (lnStep python) state).1 (table.foldl (lnStep python) state).2 -
        potential state.1 state.2| ≤ (table.map stepError).sum := by
  induction table generalizing state with
  | nil => simpa using hvalue
  | cons entry table ih =>
      obtain ⟨hnext, hstep⟩ := lnStep_potential (htable entry (by simp)) hvalue
      obtain ⟨hlast, hrest⟩ := ih (fun e he => htable e (by simp [he])) _ hnext
      refine ⟨hlast, ?_⟩
      rw [List.foldl_cons, List.map_cons, List.sum_cons]
      rw [abs_le] at hstep hrest ⊢
      constructor <;> linarith

/-- The largest value after a step from values up to `b`. -/
def lnBound (b : ℤ) (entry : ℤ × ℤ) : ℤ := max entry.2 ((b * one20).fdiv entry.2)

theorem lnFold_le (table : List (ℤ × ℤ)) (htable : ∀ entry ∈ table, Entry entry) {b : ℤ}
    (state : ℤ × ℤ) (hle : state.1 ≤ b) :
    (table.foldl (lnStep python) state).1 ≤ table.foldl lnBound b := by
  induction table generalizing state b with
  | nil => exact hle
  | cons entry table ih =>
      refine ih (fun e he => htable e (by simp [he])) _ ?_
      have hentryPos : 0 < entry.2 := lt_of_lt_of_le (by decide) (htable entry (by simp)).2.2
      unfold lnStep lnBound
      split
      · refine le_max_of_le_right ?_
        simp only [python]
        rw [Int.fdiv_eq_ediv_of_nonneg _ hentryPos.le, Int.fdiv_eq_ediv_of_nonneg _ hentryPos.le]
        exact Int.ediv_le_ediv hentryPos (mul_le_mul_of_nonneg_right hle (by decide))
      · exact le_max_of_le_left (by omega)

/-! ## The series -/

theorem oddSum_twelve (z : ℝ) :
    oddSum (z ^ 2) [3, 5, 7, 9, 11] z z =
      ∑ k ∈ Finset.range 6, z ^ (2 * k + 1) / (2 * k + 1) := by
  simp only [oddSum, Finset.sum_range_succ, Finset.sum_range_zero]
  push_cast
  ring

theorem oddSum_sixteen (z : ℝ) :
    oddSum (z ^ 2) [3, 5, 7, 9, 11, 13, 15] z z =
      ∑ k ∈ Finset.range 8, z ^ (2 * k + 1) / (2 * k + 1) := by
  simp only [oddSum, Finset.sum_range_succ, Finset.sum_range_zero]
  push_cast
  ring

/-- The series at the rounded `z = (a - 1) / (a + 1)`, for any number of odd powers. -/
theorem oddSeries_log {one a : ℤ} {z : ℝ} (hone : 1000 ≤ one) (ha : 0 < a)
    (hz : z = (a - one) / (a + one)) (hsmall : |z| ≤ 1 / 10) {ds : List ℤ} (hds : ∀ d ∈ ds, 2 ≤ d)
    {n : ℕ} (hsum : oddSum (z ^ 2) ds z z = ∑ k ∈ Finset.range n, z ^ (2 * k + 1) / (2 * k + 1)) :
    |(oddSeries python one (python.quotient ((a - one) * one) (a + one)) ds * 2 : ℝ) -
        one * Real.log (a / one)| ≤
      2 + 4 * ds.length + one * (2 * (|z| ^ (2 * n + 1) / (1 - |z|))) := by
  have hone' : (1000 : ℝ) ≤ one := by exact_mod_cast hone
  have ha' : (0 : ℝ) < a := by exact_mod_cast ha
  have hden : (0 : ℝ) < a + one := by linarith
  have hZ : |(python.quotient ((a - one) * one) (a + one) : ℝ) - one * z| ≤ 1 := by
    have hexact : |(((a - one) * one : ℤ) / (a + one : ℤ) : ℝ) - one * z| ≤ 0 := by
      refine (abs_eq_zero.mpr ?_).le
      rw [hz]
      push_cast
      ring
    exact (abs_fdiv_sub_le (by omega) hexact).trans (by norm_num)
  have hseries := oddSeries_error hone hZ hsmall ds hds
  have hlog := abs_log_sub_odd_sum_le (hsmall.trans_lt (by norm_num)) n
  have hratio : (1 + z) / (1 - z) = a / one := by
    have hplus : 1 + z = 2 * a / (a + one) := by
      rw [hz]
      field_simp
      ring
    have hminus : 1 - z = 2 * one / (a + one) := by
      rw [hz]
      field_simp
      ring
    rw [hplus, hminus]
    field_simp
  rw [hratio, ← hsum] at hlog
  have hscaled : |(one : ℝ) * (Real.log (a / one) - 2 * oddSum (z ^ 2) ds z z)| ≤
      one * (2 * (|z| ^ (2 * n + 1) / (1 - |z|))) := by
    rw [abs_mul, abs_of_pos (by linarith : (0 : ℝ) < one)]
    exact mul_le_mul_of_nonneg_left hlog (by linarith)
  rw [abs_le] at hseries hscaled ⊢
  constructor <;> linarith

/-! ## `_ln` -/

theorem firstLogarithm_within {a : ℤ} (ha : 10 ^ 18 ≤ a) (ha' : a < 2 ^ 255) :
    10 ^ 18 ≤ (firstLogarithm python a).1 ∧ (firstLogarithm python a).1 ≤ a1 * one18 ∧
      |Real.log (firstLogarithm python a).1 + (firstLogarithm python a).2 / 10 ^ 18 - Real.log a| ≤
        24 / 10 ^ 19 := by
  have hpos : 0 < a := by omega
  have hdivided : ∀ c m : ℤ, 0 < c → m * c ≤ a → 0 < m →
      m ≤ a.fdiv c ∧ |Real.log (a.fdiv c) - (Real.log a - Real.log c)| ≤ 1 / m := by
    intro c m hc hle hm
    have h := log_mul_fdiv_within hpos one_pos hc hm (by rwa [mul_one])
    rwa [mul_one, Int.cast_one, Real.log_one, add_zero] at h
  unfold firstLogarithm
  by_cases hfirst : a ≥ a0 * one18
  · obtain ⟨hlow, hround⟩ := hdivided a0 (10 ^ 18) (by decide) (by rw [mul_comm]; exact hfirst)
      (by decide)
    have hhigh : a.fdiv a0 < a1 * one18 := by
      rw [Int.fdiv_eq_ediv_of_nonneg _ (by decide)]
      exact Int.ediv_lt_of_lt_mul (by decide) (ha'.trans (by decide))
    simp only [if_pos hfirst, python, if_neg (not_le.mpr hhigh)]
    refine ⟨hlow, hhigh.le, ?_⟩
    have hconstant := expWithin_a0.2
    have hx : ((x0 : ℤ) : ℝ) / 10 ^ 18 = 128 := by norm_num [x0]
    rw [hx]
    norm_num only at hround ⊢
    rw [abs_le] at hround hconstant ⊢
    constructor <;> linarith
  · simp only [if_neg hfirst]
    by_cases hsecond : a ≥ a1 * one18
    · obtain ⟨hlow, hround⟩ := hdivided a1 (10 ^ 18) (by decide) (by rw [mul_comm]; exact hsecond)
        (by decide)
      have hhigh : a.fdiv a1 < a1 * one18 := by
        rw [Int.fdiv_eq_ediv_of_nonneg _ (by decide)]
        exact Int.ediv_lt_of_lt_mul (by decide) ((not_le.mp hfirst).trans (by decide))
      simp only [if_pos hsecond, python]
      refine ⟨hlow, hhigh.le, ?_⟩
      have hconstant := expWithin_a1.2
      have hx : ((0 + x1 : ℤ) : ℝ) / 10 ^ 18 = 64 := by norm_num [x1]
      rw [hx]
      norm_num only at hround ⊢
      rw [abs_le] at hround hconstant ⊢
      constructor <;> linarith
    · simp only [if_neg hsecond]
      refine ⟨ha, by omega, ?_⟩
      simp
      positivity

theorem sum_stepError_lnTable : (lnTable.map stepError).sum ≤ 94 / 10 ^ 20 := by
  norm_num [lnTable, expTable, stepError]

/-- What is left after the last entry. -/
theorem lnTable_bound :
    lnTable.foldl lnBound (a1 * one18 * 100) ≤ 106449445891785942957 := by decide

/-- The series of `_ln` for what is left, in units of `10 ** -20`. -/
theorem remainder_log {a : ℤ} (ha : 10 ^ 20 ≤ a) (ha' : a ≤ 106449445891785942957) :
    |(oddSeries python one20 (python.quotient ((a - one20) * one20) (a + one20)) [3, 5, 7, 9, 11] * 2 : ℝ) -
        10 ^ 20 * (Real.log a - Real.log (10 ^ 20))| ≤ 28 := by
  have hlow : (10 ^ 20 : ℝ) ≤ a := by exact_mod_cast ha
  have hhigh : (a : ℝ) ≤ 106449445891785942957 := by exact_mod_cast ha'
  have hone : ((one20 : ℤ) : ℝ) = 10 ^ 20 := by norm_num [one20]
  have hz0 : (0 : ℝ) ≤ (a - one20) / (a + one20) := by
    rw [hone]
    exact div_nonneg (by linarith) (by linarith)
  have hz : |((a - one20) / (a + one20) : ℝ)| ≤ 1 / 32 := by
    rw [abs_of_nonneg hz0, hone, div_le_iff₀ (by linarith)]
    linarith
  have hseries := oddSeries_log (by decide : 1000 ≤ one20) (by omega : 0 < a) rfl
    (hz.trans (by norm_num)) (by decide : ∀ d ∈ ([3, 5, 7, 9, 11] : List ℤ), 2 ≤ d) (oddSum_twelve _)
  have htail : |((a - one20) / (a + one20) : ℝ)| ^ (2 * 6 + 1) /
      (1 - |((a - one20) / (a + one20) : ℝ)|) ≤ (1 / 32) ^ (2 * 6 + 1) / (1 - 1 / 32) := by
    gcongr
  rw [hone, Real.log_div (by linarith) (by norm_num)] at hseries
  rw [hone] at htail
  refine hseries.trans ?_
  norm_num at htail ⊢
  linarith

theorem lnLarge_within {a : ℤ} (ha : 10 ^ 18 ≤ a) (ha' : a < 2 ^ 255) :
    LogWithin (5 / 10 ^ 18) (a / 10 ^ 18) (lnLarge python a) := by
  obtain ⟨hfirst, hfirstLe, hfirstLog⟩ := firstLogarithm_within ha ha'
  generalize hpair : firstLogarithm python a = first at hfirst hfirstLe hfirstLog
  obtain ⟨hvalue, hpotential⟩ := lnFold_potential lnTable lnTable_entry (first.1 * 100, first.2 * 100)
    (by dsimp only; omega)
  have hbound := (lnFold_le lnTable lnTable_entry (first.1 * 100, first.2 * 100)
    (mul_le_mul_of_nonneg_right hfirstLe (by decide))).trans lnTable_bound
  unfold lnLarge
  simp only [hpair]
  generalize lnTable.foldl (lnStep python) (first.1 * 100, first.2 * 100) = state
    at hvalue hpotential hbound ⊢
  have hseries := remainder_log hvalue hbound
  generalize oddSeries python one20 (python.quotient ((state.1 - one20) * one20) (state.1 + one20))
    [3, 5, 7, 9, 11] = series at hseries ⊢
  have hround : |((state.2 + series * 2).fdiv 100 : ℝ) - (state.2 + series * 2) / 100| ≤ 0 + 1 := by
    refine abs_fdiv_sub_le (by decide) (abs_eq_zero.mpr ?_).le
    push_cast
    ring
  have hsum := hpotential.trans sum_stepError_lnTable
  have ha18 : (0 : ℝ) < a := by exact_mod_cast lt_of_lt_of_le (by decide) ha
  have hfirst18 : (0 : ℝ) < first.1 := by exact_mod_cast lt_of_lt_of_le (by decide) hfirst
  have hlog20 : Real.log (10 ^ 20 : ℝ) = 20 * Real.log 10 := by
    rw [Real.log_pow]
    norm_num
  have hlog18 : Real.log (10 ^ 18 : ℝ) = 18 * Real.log 10 := by
    rw [Real.log_pow]
    norm_num
  have hlog2 : Real.log (100 : ℝ) = 2 * Real.log 10 := by
    rw [show (100 : ℝ) = 10 ^ 2 by norm_num, Real.log_pow]
    norm_num
  unfold LogWithin
  unfold potential at hsum
  simp only [python]
  push_cast at hsum hround ⊢
  rw [Real.log_mul hfirst18.ne' (by norm_num), hlog2] at hsum
  rw [hlog20] at hseries
  rw [Real.log_div ha18.ne' (by norm_num), hlog18]
  rw [abs_le] at hround hsum hseries hfirstLog ⊢
  norm_num at hround hsum hseries hfirstLog ⊢
  constructor <;> linarith

theorem lnCore_within {x lnx : ℤ} (hx : 0 < x) (hx' : x < 2 ^ 255) (h : lnCore python x = .ok lnx) :
    LogWithin (6 / 10 ^ 18) (x / 10 ^ 18) lnx := by
  unfold lnCore at h
  by_cases hlarge : x < one18
  · rw [if_pos hlarge, if_neg (by omega), divide, if_neg hx.ne', ok_bind] at h
    have hinverse := log_mul_fdiv_within (by decide : 0 < one18) (by decide : 0 < one18) hx
      (m := 10 ^ 18) (by decide) (mul_le_mul_of_nonneg_left hlarge.le (by decide))
    have hbound : (one18 * one18).fdiv x < 2 ^ 255 := by
      rw [Int.fdiv_eq_ediv_of_nonneg _ hx.le]
      exact (Int.ediv_le_self _ (by decide)).trans_lt (by decide)
    have hln := lnLarge_within hinverse.1 hbound
    have hx18 : (0 : ℝ) < x := by exact_mod_cast hx
    have hinvPos : (0 : ℝ) < (one18 * one18).fdiv x := by
      exact_mod_cast lt_of_lt_of_le (by decide) hinverse.1
    have hround := hinverse.2
    have hone : ((one18 : ℤ) : ℝ) = 10 ^ 18 := by norm_num [one18]
    rw [← Except.ok.inj h]
    unfold LogWithin at hln ⊢
    simp only [python] at hln ⊢
    rw [Real.log_div hinvPos.ne' (by norm_num)] at hln
    rw [Real.log_div hx18.ne' (by norm_num)]
    rw [hone] at hround
    push_cast at hround ⊢
    rw [abs_le] at hln hround ⊢
    norm_num at hln hround ⊢
    constructor <;> linarith
  · rw [if_neg hlarge] at h
    rw [← Except.ok.inj h]
    have hlow : 10 ^ 18 ≤ x := not_lt.mp hlarge
    exact (lnLarge_within hlow hx').trans (by norm_num)

/-! ## Relative errors -/

theorem lnCore_relative {x lnx : ℤ} (hx : 0 < x) (hx' : x < 2 ^ 255) (hfar : ¬NearOne x)
    (h : lnCore python x = .ok lnx) : LogRelative (x / 10 ^ 18) (lnx / 10 ^ 18) := by
  have hwithin := lnCore_within hx hx' h
  have hx18 : (0 : ℝ) < x := by exact_mod_cast hx
  have hlog : 1 / 11 ≤ |Real.log (x / 10 ^ 18 : ℝ)| := by
    have hcases : x ≤ 9 * 10 ^ 17 ∨ 11 * 10 ^ 17 ≤ x := by
      unfold NearOne at hfar
      norm_num [ln36LowerBound, ln36UpperBound, one18] at hfar
      omega
    rcases hcases with hlow | hhigh
    · have hlow' : (x / 10 ^ 18 : ℝ) ≤ 9 / 10 := by
        have : (x : ℝ) ≤ 9 * 10 ^ 17 := by exact_mod_cast hlow
        rw [div_le_iff₀ (by norm_num)]
        linarith
      have h := Real.log_le_sub_one_of_pos (by positivity : (0 : ℝ) < x / 10 ^ 18)
      exact le_abs.mpr (.inr (by linarith))
    · have hhigh' : (11 / 10 : ℝ) ≤ x / 10 ^ 18 := by
        have : (11 * 10 ^ 17 : ℝ) ≤ x := by exact_mod_cast hhigh
        rw [le_div_iff₀ (by norm_num)]
        linarith
      have h := Real.one_sub_inv_le_log_of_pos (by positivity : (0 : ℝ) < x / 10 ^ 18)
      have hinv : (x / 10 ^ 18 : ℝ)⁻¹ ≤ 10 / 11 := by
        rw [inv_le_comm₀ (by positivity) (by norm_num)]
        linarith
      exact le_abs.mpr (.inl (by linarith))
  have htriangle := abs_sub_abs_le_abs_sub (Real.log (x / 10 ^ 18 : ℝ)) (lnx / 10 ^ 18)
  rw [abs_sub_comm] at htriangle
  unfold LogWithin at hwithin
  unfold LogRelative
  linarith

/-! ## `_ln_36` -/

theorem oddArgument_bounds {x : ℤ} (hnear : NearOne x) :
    |oddArgument x| ≤ 1 / 19 ∧ (x ≠ 10 ^ 18 → 1 / (21 * 10 ^ 17) ≤ |oddArgument x|) := by
  obtain ⟨hlow, hhigh⟩ := hnear
  have hlow' : (9 * 10 ^ 17 : ℝ) < x := by exact_mod_cast hlow
  have hhigh' : (x : ℝ) < 11 * 10 ^ 17 := by exact_mod_cast hhigh
  have hden : (0 : ℝ) < x + 10 ^ 18 := by linarith
  unfold oddArgument
  rw [abs_div, abs_of_pos hden]
  refine ⟨?_, fun hne => ?_⟩
  · rw [div_le_iff₀ hden, abs_le]
    constructor <;> linarith
  · have hdistance : (1 : ℝ) ≤ |(x : ℝ) - 10 ^ 18| := by
      have h : 1 ≤ |x - 10 ^ 18| := Int.one_le_abs (sub_ne_zero.mpr hne)
      exact_mod_cast h
    exact div_le_div₀ (abs_nonneg _) hdistance hden (by linarith)

theorem ln36_error {x : ℤ} (hnear : NearOne x) :
    |(ln36 python x / 10 ^ 36 : ℝ) - Real.log (x / 10 ^ 18)| ≤
      30 / 10 ^ 36 + |oddArgument x| / 10 ^ 20 := by
  have hx : 0 < x := lt_trans (by decide) hnear.1
  have hbound := (oddArgument_bounds hnear).1
  have hone : ((one36 : ℤ) : ℝ) = 10 ^ 36 := by norm_num [one36]
  have hargument : oddArgument x = ((x * one18 : ℤ) - one36) / ((x * one18 : ℤ) + one36) := by
    have hx' : (0 : ℝ) < x := by exact_mod_cast hx
    unfold oddArgument
    push_cast [hone]
    norm_num [one18]
    field_simp
    ring
  have hseries := oddSeries_log (by decide : 1000 ≤ one36) (mul_pos hx (by decide : 0 < one18))
    hargument (hbound.trans (by norm_num))
    (by decide : ∀ d ∈ ([3, 5, 7, 9, 11, 13, 15] : List ℤ), 2 ≤ d) (oddSum_sixteen _)
  have htail : |oddArgument x| ^ (2 * 8 + 1) / (1 - |oddArgument x|) ≤
      |oddArgument x| * ((1 / 19) ^ 16 / (1 - 1 / 19)) := by
    rw [show 2 * 8 + 1 = 16 + 1 from rfl, pow_succ', mul_div_assoc]
    gcongr
  have hratio : (((x * one18 : ℤ) : ℝ) / one36) = x / 10 ^ 18 := by
    push_cast [hone]
    norm_num [one18]
    field_simp
    norm_num
  have hvalue : (ln36 python x : ℝ) = (oddSeries python one36 (python.quotient
      ((x * one18 - one36) * one36) (x * one18 + one36)) [3, 5, 7, 9, 11, 13, 15] * 2 : ℝ) := by
    unfold ln36
    push_cast
    rfl
  rw [hratio, hone, ← hvalue] at hseries
  have hscale : (ln36 python x / 10 ^ 36 : ℝ) - Real.log (x / 10 ^ 18) =
      (ln36 python x - 10 ^ 36 * Real.log (x / 10 ^ 18)) / 10 ^ 36 := by
    field_simp
  rw [hscale, abs_div, abs_of_pos (by norm_num : (0 : ℝ) < 10 ^ 36), div_le_iff₀ (by norm_num)]
  refine hseries.trans ?_
  norm_num at htail ⊢
  have hnonneg := abs_nonneg (oddArgument x)
  linarith

theorem oddArgument_le_log {x : ℤ} (hnear : NearOne x) :
    19 / 10 * |oddArgument x| ≤ |Real.log (x / 10 ^ 18 : ℝ)| := by
  have hbound := (oddArgument_bounds hnear).1
  have hx : (0 : ℝ) < x := by exact_mod_cast lt_trans (by decide) hnear.1
  have hseries := abs_log_sub_odd_sum_le (hbound.trans_lt (by norm_num)) 1
  have hratio : (1 + oddArgument x) / (1 - oddArgument x) = x / 10 ^ 18 := by
    have hden : (0 : ℝ) < x + 10 ^ 18 := by linarith
    have hplus : 1 + oddArgument x = 2 * x / (x + 10 ^ 18) := by
      unfold oddArgument
      field_simp
      ring
    have hminus : 1 - oddArgument x = 2 * 10 ^ 18 / (x + 10 ^ 18) := by
      unfold oddArgument
      field_simp
      ring
    rw [hplus, hminus]
    field_simp
  have htail : |oddArgument x| ^ (2 * 1 + 1) / (1 - |oddArgument x|) ≤
      |oddArgument x| * ((1 / 19) ^ 2 / (1 - 1 / 19)) := by
    rw [show 2 * 1 + 1 = 2 + 1 from rfl, pow_succ', mul_div_assoc]
    gcongr
  rw [hratio, Finset.sum_range_one] at hseries
  norm_num at hseries htail
  have htriangle := abs_sub_abs_le_abs_sub (2 * oddArgument x) (Real.log (x / 10 ^ 18 : ℝ))
  rw [abs_mul, abs_two, abs_sub_comm] at htriangle
  norm_num at htriangle
  have hnonneg := abs_nonneg (oddArgument x)
  linarith

theorem ln36_relative {x : ℤ} (hnear : NearOne x) :
    LogRelative (x / 10 ^ 18) (ln36 python x / 10 ^ 36) := by
  unfold LogRelative
  by_cases hone : x = 10 ^ 18
  · have hzero : ln36 python (10 ^ 18) = 0 := by decide
    rw [hone, hzero]
    norm_num
  · have herror := ln36_error hnear
    have hlow := (oddArgument_bounds hnear).2 hone
    have hlog := oddArgument_le_log hnear
    have htriangle := abs_sub_abs_le_abs_sub (Real.log (x / 10 ^ 18 : ℝ)) (ln36 python x / 10 ^ 36)
    rw [abs_sub_comm] at htriangle
    norm_num at herror hlow hlog htriangle ⊢
    linarith

end Degenbot.LogExpMath
