import Degenbot.Algorithm.WeightedMath
import Degenbot.Verification.Balancer.Exponential

/-! # Directed powers bracket the real power

The exponent `y * ln x` is within `90 / 10^16` of the exact one, and the result of `exp` within
this part of itself and one unit. `MAX_POW_RELATIVE_ERROR` covers both. -/

namespace Degenbot.LogExpMath

open Library

/-! ## The exponent -/

theorem logTimes_within {x y product : ℤ} (hx : x ≠ 0) (hx' : x < 2 ^ 255)
    (h : logTimes python x y = .ok product) :
    0 < x ∧ ∃ v, LogRelative (x / 10 ^ 18) v ∧
      |(product / 10 ^ 36 : ℝ) - v * (y / 10 ^ 18)| ≤ 1 / 10 ^ 36 := by
  have hone : ((one18 : ℤ) : ℝ) = 10 ^ 18 := by norm_num [one18]
  unfold logTimes at h
  by_cases hnear : NearOne x
  · rw [if_pos hnear] at h
    refine ⟨lt_trans (by decide) hnear.1, _, ln36_relative hnear, ?_⟩
    rw [← Except.ok.inj h]
    generalize ln36 python x = l
    -- the digits of the logarithm are multiplied in two parts
    have hparts : (l.fmod one18 : ℝ) = l - 10 ^ 18 * l.fdiv one18 := by
      have := Int.fmod_add_mul_fdiv l one18
      rw [← hone]
      exact_mod_cast eq_sub_of_add_eq this
    have hround : |((l.fmod one18 * y).fdiv one18 : ℝ) - l.fmod one18 * y / 10 ^ 18| ≤ 0 + 1 := by
      refine abs_fdiv_sub_le (by decide) (abs_eq_zero.mpr ?_).le
      push_cast [hone]
      ring
    have hscale : ((l.fdiv one18 * y + (l.fmod one18 * y).fdiv one18 : ℤ) / 10 ^ 36 : ℝ) -
        l / 10 ^ 36 * (y / 10 ^ 18) =
          ((l.fmod one18 * y).fdiv one18 - l.fmod one18 * y / 10 ^ 18) / 10 ^ 36 := by
      push_cast
      rw [hparts]
      ring
    simp only [python]
    rw [hscale, abs_div, abs_of_pos (by norm_num : (0 : ℝ) < 10 ^ 36)]
    gcongr
    linarith
  · rw [if_neg hnear, bind_eq_ok] at h
    obtain ⟨lnx, hlnx, h⟩ := h
    have hpos : 0 < x := by
      by_contra hneg
      unfold lnCore at hlnx
      rw [if_pos (by unfold one18; omega), if_pos (by omega)] at hlnx
      cases hlnx
    refine ⟨hpos, _, lnCore_relative hpos hx' hnear hlnx, ?_⟩
    rw [← Except.ok.inj h]
    have hexact : ((lnx * y : ℤ) / 10 ^ 36 : ℝ) - lnx / 10 ^ 18 * (y / 10 ^ 18) = 0 := by
      push_cast
      ring
    rw [hexact, abs_zero]
    positivity

theorem exponent_within {x y product : ℤ} (hx : x ≠ 0) (hx' : x < 2 ^ 255)
    (h : logTimes python x y = .ok product)
    (hrange : minNaturalExponent ≤ product.fdiv one18 ∧ product.fdiv one18 ≤ maxNaturalExponent) :
    |(product.fdiv one18 / 10 ^ 18 : ℝ) - Real.log (x / 10 ^ 18) * (y / 10 ^ 18)| ≤
      88 / 10 ^ 16 := by
  obtain ⟨-, v, hv, hproduct⟩ := logTimes_within hx hx' h
  have hround : |(product.fdiv one18 : ℝ) - product / 10 ^ 18| ≤ 0 + 1 := by
    refine abs_fdiv_sub_le (by decide) (abs_eq_zero.mpr ?_).le
    norm_num [one18]
  have hscaled : |(product.fdiv one18 / 10 ^ 18 : ℝ) - product / 10 ^ 36| ≤ 1 / 10 ^ 18 := by
    have hsplit : (product.fdiv one18 / 10 ^ 18 : ℝ) - product / 10 ^ 36 =
        (product.fdiv one18 - product / 10 ^ 18) / 10 ^ 18 := by ring
    rw [hsplit, abs_div, abs_of_pos (by norm_num : (0 : ℝ) < 10 ^ 18)]
    gcongr
    linarith
  generalize product.fdiv one18 = exponent at hrange hscaled ⊢
  have hlow : (-41 * 10 ^ 18 : ℝ) ≤ exponent := by exact_mod_cast hrange.1
  have hhigh : (exponent : ℝ) ≤ 130 * 10 ^ 18 := by exact_mod_cast hrange.2
  have hsmall : |v * (y / 10 ^ 18)| ≤ 131 - 9 / 10 := by
    rw [abs_le] at hproduct hscaled ⊢
    norm_num at hproduct hscaled hlow hhigh ⊢
    constructor <;> linarith
  have hlog : |v * (y / 10 ^ 18) - Real.log (x / 10 ^ 18) * (y / 10 ^ 18)| ≤
      67 / 10 ^ 18 * (131 - 9 / 10) := by
    have hsplit : v * (y / 10 ^ 18) - Real.log (x / 10 ^ 18) * (y / 10 ^ 18) =
        (v - Real.log (x / 10 ^ 18)) * (y / 10 ^ 18) := by ring
    calc |v * (y / 10 ^ 18) - Real.log (x / 10 ^ 18) * (y / 10 ^ 18)| =
          |v - Real.log (x / 10 ^ 18)| * |(y / 10 ^ 18 : ℝ)| := by rw [hsplit, abs_mul]
      _ ≤ 67 / 10 ^ 18 * |v| * |(y / 10 ^ 18 : ℝ)| := by
          exact mul_le_mul_of_nonneg_right hv (abs_nonneg _)
      _ = 67 / 10 ^ 18 * |v * (y / 10 ^ 18)| := by rw [mul_assoc, abs_mul]
      _ ≤ 67 / 10 ^ 18 * (131 - 9 / 10) := by gcongr
  rw [abs_le] at hproduct hscaled hlog ⊢
  norm_num at hproduct hscaled hlog ⊢
  constructor <;> linarith

/-! ## The result of `exp` -/

/-- `raw` is within the part `e` of `p`, and one unit. -/
def Brackets (e p : ℝ) (raw : ℤ) : Prop :=
  0 < raw ∧ raw * (1 - e) ≤ p ∧ p * (1 - e) ≤ raw + 1

/-- A value whose logarithm is close brackets the exponential. -/
theorem brackets_of_log {e t : ℝ} {raw : ℤ} {v : ℝ} (hv : 0 < v) (hraw : 0 < raw)
    (hlow : raw ≤ 10 ^ 18 * v) (hhigh : 10 ^ 18 * v ≤ raw + 1) (hlog : |Real.log v - t| ≤ e) :
    Brackets e (10 ^ 18 * Real.exp t) raw := by
  have he : 1 - e ≤ Real.exp (-e) := by
    have := Real.add_one_le_exp (-e)
    linarith
  rw [abs_le] at hlog
  have hupper : v * Real.exp (-e) ≤ Real.exp t := by
    rw [← Real.exp_log hv, ← Real.exp_add]
    exact Real.exp_le_exp.mpr (by linarith)
  have hlower : Real.exp t * Real.exp (-e) ≤ v := by
    rw [← Real.exp_add, ← Real.le_log_iff_exp_le hv]
    linarith
  have hraw' : (0 : ℝ) < raw := by exact_mod_cast hraw
  refine ⟨hraw, ?_, ?_⟩
  · calc (raw : ℝ) * (1 - e) ≤ raw * Real.exp (-e) := by gcongr
      _ ≤ 10 ^ 18 * v * Real.exp (-e) := by gcongr
      _ = 10 ^ 18 * (v * Real.exp (-e)) := by ring
      _ ≤ 10 ^ 18 * Real.exp t := by gcongr
  · calc 10 ^ 18 * Real.exp t * (1 - e) ≤ 10 ^ 18 * Real.exp t * Real.exp (-e) := by gcongr
      _ = 10 ^ 18 * (Real.exp t * Real.exp (-e)) := by ring
      _ ≤ 10 ^ 18 * v := by gcongr
      _ ≤ raw + 1 := hhigh

/-- The largest exponential of a negated exponent still has a reciprocal. -/
theorem expNonneg_le {x : ℤ} (hx : 0 ≤ x) (hx' : x ≤ 41 * 10 ^ 18) :
    expNonneg python x ≤ 10 ^ 36 := by
  have hwithin := expNonneg_within hx (hx'.trans (by decide))
  have hbound : (x : ℝ) ≤ 41 * 10 ^ 18 := by exact_mod_cast hx'
  have hlog : Real.log (expNonneg python x / 10 ^ 18 : ℝ) ≤ 41 + 1 / 4 := by
    have := (abs_le.mp hwithin.2).2
    norm_num at this ⊢
    linarith
  have hexp : Real.exp (41 + 1 / 4) ≤ 10 ^ 18 := by
    have he : Real.exp 1 ≤ 2.7182818286 := Real.exp_one_lt_d9.le
    have hquarter : Real.exp (1 / 4) ≤ 4 / 3 := by
      have h := Real.add_one_le_exp (-(1 / 4))
      rw [Real.exp_neg, le_inv_comm₀ (by norm_num) (Real.exp_pos _)] at h
      norm_num at h
      exact h
    have hpower : Real.exp 41 = Real.exp 1 ^ 41 := by
      rw [← Real.exp_nat_mul]
      norm_num
    rw [Real.exp_add, hpower]
    calc Real.exp 1 ^ 41 * Real.exp (1 / 4) ≤ 2.7182818286 ^ 41 * (4 / 3) := by gcongr
      _ ≤ 10 ^ 18 := by norm_num
  have hvalue := (Real.log_le_iff_le_exp hwithin.1).mp hlog
  rw [div_le_iff₀ (by norm_num)] at hvalue
  have hreal : (expNonneg python x : ℝ) ≤ 10 ^ 36 := by
    refine hvalue.trans ?_
    calc Real.exp (41 + 1 / 4) * 10 ^ 18 ≤ 10 ^ 18 * 10 ^ 18 := by gcongr
      _ = 10 ^ 36 := by norm_num
  exact_mod_cast hreal

theorem exp_brackets {x raw : ℤ} {t : ℝ} (h : exp python x = .ok raw)
    (ht : |(x / 10 ^ 18 : ℝ) - t| ≤ 88 / 10 ^ 16) :
    Brackets (9 / 10 ^ 15) (10 ^ 18 * Real.exp t) raw := by
  unfold exp at h
  split at h
  · cases h
  rename_i hrange
  rw [not_not] at hrange
  split at h
  · rename_i hneg
    have hneg' : 0 ≤ -x := by omega
    have hmin : minNaturalExponent = -(41 * 10 ^ 18) := rfl
    have hwithin := expNonneg_within hneg' (by unfold maxNaturalExponent; omega)
    have hle := expNonneg_le hneg' (by omega)
    have hpos : (0 : ℝ) < expNonneg python (-x) := by
      have := hwithin.1
      rwa [lt_div_iff₀ (by norm_num), zero_mul] at this
    have hpos' : 0 < expNonneg python (-x) := by exact_mod_cast hpos
    rw [divide, if_neg hpos'.ne'] at h
    have hraw := Except.ok.inj h
    have hlow := fdiv_le_div (x := one18 * one18) hpos'
    have hhigh := div_lt_fdiv_add_one (x := one18 * one18) hpos'
    have hraw' : raw = (one18 * one18).fdiv (expNonneg python (-x)) := hraw.symm
    rw [← hraw'] at hlow hhigh
    have hscale : ((one18 * one18 : ℤ) / expNonneg python (-x) : ℝ) =
        10 ^ 18 * (10 ^ 18 / expNonneg python (-x)) := by
      norm_num [one18]
      ring
    rw [hscale] at hlow hhigh
    have hone : 1 ≤ raw := by
      rw [hraw', Int.fdiv_eq_ediv_of_nonneg _ hpos'.le]
      exact Int.le_ediv_of_mul_le hpos' (by rw [one_mul]; exact hle)
    refine brackets_of_log (by positivity) hone hlow hhigh.le ?_
    have hlog := hwithin.2
    rw [Real.log_div hpos.ne' (by norm_num)] at hlog
    rw [Real.log_div (by norm_num) hpos.ne']
    push_cast at hlog
    rw [abs_le] at hlog ht ⊢
    norm_num at hlog ht ⊢
    constructor <;> linarith
  · rename_i hnonneg
    rw [← Except.ok.inj h]
    have hwithin := expNonneg_within (not_lt.mp hnonneg) hrange.2
    have hpos : (0 : ℝ) < expNonneg python x := by
      have := hwithin.1
      rwa [lt_div_iff₀ (by norm_num), zero_mul] at this
    have hscale : (10 ^ 18 * (expNonneg python x / 10 ^ 18) : ℝ) = expNonneg python x := by ring
    refine brackets_of_log hwithin.1 (by exact_mod_cast hpos) hscale.ge (by rw [hscale]; linarith) ?_
    have hlog := hwithin.2
    rw [abs_le] at hlog ht ⊢
    norm_num at hlog ht ⊢
    constructor <;> linarith

/-! ## `pow` -/

theorem pow_brackets {x y raw : ℤ} (h : pow python x y = .ok raw) :
    (x = 0 ∧ y ≠ 0 ∧ raw = 0) ∨ Brackets (9 / 10 ^ 15) (realPow x y) raw := by
  unfold pow at h
  by_cases hy : y = 0
  · rw [if_pos hy] at h
    refine .inr ⟨?_, ?_, ?_⟩ <;> rw [← Except.ok.inj h] <;> norm_num [one18, realPow, hy]
  rw [if_neg hy] at h
  by_cases hx : x = 0
  · rw [if_pos hx] at h
    exact .inl ⟨hx, hy, (Except.ok.inj h).symm⟩
  rw [if_neg hx] at h
  simp only [ite_error_eq_ok, bind_eq_ok, not_le, ge_iff_le] at h
  obtain ⟨hx', -, product, hproduct, hrange, hexp⟩ := h
  rw [not_not] at hrange
  have hpos := (logTimes_within hx hx' hproduct).1
  have hbase : (0 : ℝ) < x / 10 ^ 18 := by
    have : (0 : ℝ) < x := by exact_mod_cast hpos
    positivity
  have hbrackets := exp_brackets hexp (exponent_within hx hx' hproduct hrange)
  rw [← Real.rpow_def_of_pos hbase] at hbrackets
  exact .inr hbrackets

end Degenbot.LogExpMath
