import Mathlib.Analysis.SpecialFunctions.Pow.Real
import Mathlib.Topology.Order.IntermediateValue

/-! # The StableSwap equation over the reals

With an amplification `α` of the sum, balances `xs` and an invariant `D`. Both sides of a trade
are solutions of the equation: the invariant for given balances, and one balance for a given
invariant. -/

namespace Degenbot.Library.StableSwap

/-- `α S + D = α D + D ^ (n + 1) / (n ^ n P)`, for the sum `S` and the product `P`. -/
def Equation (α : ℝ) (xs : List ℝ) (D : ℝ) : Prop :=
  α * xs.sum + D = α * D + D ^ (xs.length + 1) / (xs.length ^ xs.length * xs.prod)

/-! ## One entry of a list -/

section Entry

variable {xs : List ℝ} {j : ℕ} {x : ℝ}

theorem sum_set (h : xs[j]? = some x) (z : ℝ) : (xs.set j z).sum = xs.sum - x + z := by
  induction xs generalizing j with
  | nil => simp at h
  | cons head xs ih =>
      cases j with
      | zero =>
          rw [List.getElem?_cons_zero, Option.some.injEq] at h
          subst h
          simp only [List.set_cons_zero, List.sum_cons]
          ring
      | succ j =>
          rw [List.getElem?_cons_succ] at h
          rw [List.set_cons_succ, List.sum_cons, List.sum_cons, ih h]
          ring

theorem prod_set (h : xs[j]? = some x) (hx : x ≠ 0) (z : ℝ) :
    (xs.set j z).prod = xs.prod / x * z := by
  induction xs generalizing j with
  | nil => simp at h
  | cons head xs ih =>
      cases j with
      | zero =>
          rw [List.getElem?_cons_zero, Option.some.injEq] at h
          subst h
          simp only [List.set_cons_zero, List.prod_cons]
          field_simp
      | succ j =>
          rw [List.getElem?_cons_succ] at h
          rw [List.set_cons_succ, List.prod_cons, List.prod_cons, ih h]
          ring

end Entry

theorem prod_pos {xs : List ℝ} (hxs : ∀ x ∈ xs, 0 < x) : 0 < xs.prod := List.prod_pos hxs

/-! ## One balance for a given invariant -/

section Balance

variable {α D x z : ℝ} {xs : List ℝ} {j : ℕ}

/-- The coefficient `b` of the equation of one balance, `z² + (b - D) z = c`. -/
noncomputable def coefficientB (α : ℝ) (xs : List ℝ) (x D : ℝ) : ℝ := xs.sum - x + D / α

/-- The coefficient `c`; `x` is replaced, so that its value does not matter. -/
noncomputable def coefficientC (α : ℝ) (xs : List ℝ) (x D : ℝ) : ℝ :=
  D ^ (xs.length + 1) / (α * xs.length ^ xs.length * (xs.prod / x))

theorem equation_set_iff (hα : 0 < α) (hxs : ∀ x ∈ xs, 0 < x) (hj : xs[j]? = some x)
    (hz : 0 < z) : Equation α (xs.set j z) D ↔
      z * z + (coefficientB α xs x D - D) * z = coefficientC α xs x D := by
  have hx : 0 < x := hxs x (List.mem_of_getElem? hj)
  have hprod := prod_pos hxs
  have hlength : 0 < (xs.length : ℝ) := by
    rw [Nat.cast_pos]
    exact List.length_pos_of_mem (List.mem_of_getElem? hj)
  have hpower : 0 < (xs.length : ℝ) ^ xs.length := pow_pos hlength _
  rw [Equation, List.length_set, sum_set hj, prod_set hj hx.ne', coefficientB, coefficientC]
  generalize (xs.length : ℝ) ^ xs.length = power at *
  generalize D ^ (xs.length + 1) = numerator at *
  generalize xs.prod = product at *
  generalize xs.sum = sum at *
  constructor
  · intro h
    field_simp at h ⊢
    nlinarith
  · intro h
    field_simp at h ⊢
    nlinarith

theorem coefficientC_pos (hα : 0 < α) (hD : 0 < D) (hxs : ∀ x ∈ xs, 0 < x) (hx : x ∈ xs) :
    0 < coefficientC α xs x D := by
  have hlength : 0 < (xs.length : ℝ) := by
    rw [Nat.cast_pos]
    exact List.length_pos_of_mem hx
  have hprod := prod_pos hxs
  have hxpos := hxs x hx
  rw [coefficientC]
  positivity

/-- A quadratic equation with a negative value at zero has one positive root. -/
theorem existsUnique_root (B : ℝ) {c : ℝ} (hc : 0 < c) : ∃! z, 0 < z ∧ z * z + B * z = c := by
  have hdisc : 0 < B ^ 2 + 4 * c := by nlinarith [sq_nonneg B]
  have hroot : B < √(B ^ 2 + 4 * c) := by
    apply Real.lt_sqrt_of_sq_lt
    linarith
  have hsq : √(B ^ 2 + 4 * c) ^ 2 = B ^ 2 + 4 * c := Real.sq_sqrt hdisc.le
  refine ⟨(√(B ^ 2 + 4 * c) - B) / 2, ⟨by linarith, by nlinarith⟩, ?_⟩
  rintro z ⟨hz, hzc⟩
  have hfactor : (2 * z + B - √(B ^ 2 + 4 * c)) * (2 * z + B + √(B ^ 2 + 4 * c)) = 0 := by
    nlinarith
  have hzB : -B < z + z := by nlinarith
  rcases mul_eq_zero.mp hfactor with h | h
  · linarith
  · have hnonneg := Real.sqrt_nonneg (B ^ 2 + 4 * c)
    linarith

theorem existsUnique_balance (hα : 0 < α) (hD : 0 < D) (hxs : ∀ x ∈ xs, 0 < x)
    (hj : xs[j]? = some x) : ∃! z, 0 < z ∧ Equation α (xs.set j z) D := by
  obtain ⟨z, ⟨hz, hroot⟩, hunique⟩ := existsUnique_root (coefficientB α xs x D - D)
    (coefficientC_pos hα hD hxs (List.mem_of_getElem? hj))
  refine ⟨z, ⟨hz, (equation_set_iff hα hxs hj hz).mpr hroot⟩, ?_⟩
  rintro z' ⟨hz', hequation⟩
  exact hunique z' ⟨hz', (equation_set_iff hα hxs hj hz').mp hequation⟩

/-- A value at which the quadratic is not negative is not below the root. -/
theorem root_le {B c y : ℝ} (hy : 0 < y) (hc : 0 < c) (hvalue : c ≤ y * y + B * y) (hz : 0 < z)
    (hroot : z * z + B * z = c) : z ≤ y := by
  by_contra hlt
  rw [not_le] at hlt
  have hslope : c / y ≤ y + B := by
    rw [div_le_iff₀ hy]
    linarith
  have hrootSlope : c / z = z + B := by
    rw [div_eq_iff hz.ne']
    linarith
  have hanti : c / z < c / y := div_lt_div_of_pos_left hc hy hlt
  linarith

/-- One step of Newton's method, rounded up, from any point with a positive slope: with
coefficients on the safe side the result is not below the root. -/
theorem root_le_newton (hα : 0 < α) (hD : 0 < D) (hxs : ∀ x ∈ xs, 0 < x) (hj : xs[j]? = some x)
    {b c p y : ℝ} (hb : b ≤ coefficientB α xs x D) (hc : coefficientC α xs x D ≤ c)
    (hslope : 0 < 2 * p + b - D) (hstep : p * p + c ≤ y * (2 * p + b - D)) (hz : 0 < z)
    (hequation : Equation α (xs.set j z) D) : z ≤ y := by
  have hcpos := coefficientC_pos hα hD hxs (List.mem_of_getElem? hj)
  have hy : 0 < y := by
    by_contra hle
    have hnonpos : y * (2 * p + b - D) ≤ 0 :=
      mul_nonpos_of_nonpos_of_nonneg (not_lt.mp hle) hslope.le
    nlinarith [mul_self_nonneg p]
  refine root_le hy hcpos ?_ hz ((equation_set_iff hα hxs hj hz).mp hequation)
  have hsquare := mul_self_nonneg (y - p)
  have hmono : b * y ≤ coefficientB α xs x D * y := mul_le_mul_of_nonneg_right hb hy.le
  nlinarith

end Balance

/-! ## The invariant of given balances -/

section Invariant

variable {α D D' d z z' : ℝ} {xs : List ℝ} {j : ℕ}

/-- The product term `D ^ (n + 1) / (n ^ n P)` of the equation. -/
noncomputable def productTerm (xs : List ℝ) (D : ℝ) : ℝ :=
  D ^ (xs.length + 1) / (xs.length ^ xs.length * xs.prod)

theorem equation_iff : Equation α xs D ↔ (α - 1) * D + productTerm xs D = α * xs.sum := by
  rw [Equation, productTerm]
  constructor <;> intro h <;> linarith

theorem scale_pos (hxs : ∀ x ∈ xs, 0 < x) : 0 < (xs.length : ℝ) ^ xs.length * xs.prod := by
  refine mul_pos ?_ (prod_pos hxs)
  cases xs with
  | nil => simp
  | cons head xs =>
      rw [List.length_cons]
      positivity

theorem productTerm_pos (hxs : ∀ x ∈ xs, 0 < x) (hD : 0 < D) : 0 < productTerm xs D :=
  div_pos (pow_pos hD _) (scale_pos hxs)

theorem productTerm_lt (hxs : ∀ x ∈ xs, 0 < x) (hD : 0 ≤ D) (h : D < D') :
    productTerm xs D < productTerm xs D' :=
  div_lt_div_of_pos_right (pow_lt_pow_left₀ h hD (Nat.succ_ne_zero _)) (scale_pos hxs)

theorem value_lt (hα : 1 < α) (hxs : ∀ x ∈ xs, 0 < x) (hD : 0 ≤ D) (h : D < D') :
    (α - 1) * D + productTerm xs D < (α - 1) * D' + productTerm xs D' :=
  add_lt_add (mul_lt_mul_of_pos_left h (by linarith)) (productTerm_lt hxs hD h)

/-- A value below the equation lies below the invariant. -/
theorem lt_invariant (hα : 1 < α) (hxs : ∀ x ∈ xs, 0 < x) (hD : 0 < D) (h : Equation α xs D)
    (hvalue : (α - 1) * d + productTerm xs d < α * xs.sum) : d < D := by
  by_contra hle
  rcases (not_lt.mp hle).eq_or_lt with rfl | hlt
  · exact hvalue.ne (equation_iff.mp h)
  · have hmono := value_lt hα hxs hD.le hlt
    rw [equation_iff.mp h] at hmono
    exact absurd hvalue hmono.not_gt

/-- A value above the equation lies above the invariant. -/
theorem invariant_lt (hα : 1 < α) (hxs : ∀ x ∈ xs, 0 < x) (hd : 0 ≤ d) (h : Equation α xs D)
    (hvalue : α * xs.sum < (α - 1) * d + productTerm xs d) : D < d := by
  by_contra hle
  rcases (not_lt.mp hle).eq_or_lt with rfl | hlt
  · exact hvalue.ne' (equation_iff.mp h)
  · have hmono := value_lt hα hxs hd hlt
    rw [equation_iff.mp h] at hmono
    exact absurd hvalue hmono.not_gt

theorem existsUnique_invariant (hα : 1 < α) (hxs : ∀ x ∈ xs, 0 < x) (hne : xs ≠ []) :
    ∃! D, 0 < D ∧ Equation α xs D := by
  have hsum : 0 < α * xs.sum := mul_pos (by linarith) (List.sum_pos xs hxs hne)
  have hcontinuous : Continuous fun D => (α - 1) * D + productTerm xs D := by
    unfold productTerm
    fun_prop
  have hzero : (α - 1) * 0 + productTerm xs 0 = 0 := by
    rw [productTerm, zero_pow (Nat.succ_ne_zero _), zero_div, mul_zero, add_zero]
  set top := α * xs.sum / (α - 1) with htop
  have htopPos : 0 < top := div_pos hsum (by linarith)
  have hreach : α * xs.sum ≤ (α - 1) * top + productTerm xs top := by
    rw [htop, mul_div_cancel₀ _ (by linarith : α - 1 ≠ 0), ← htop]
    linarith [productTerm_pos hxs htopPos]
  obtain ⟨D, ⟨hD, -⟩, hvalue⟩ := intermediate_value_Icc htopPos.le hcontinuous.continuousOn
    ⟨hzero.trans_le hsum.le, hreach⟩
  have hDpos : 0 < D := by
    refine lt_of_le_of_ne hD ?_
    rintro rfl
    exact hsum.ne (hzero.symm.trans hvalue)
  refine ⟨D, ⟨hDpos, equation_iff.mpr hvalue⟩, ?_⟩
  rintro D' ⟨hD', hequation⟩
  rcases lt_trichotomy D' D with hlt | rfl | hlt
  · have hmono := value_lt hα hxs hD'.le hlt
    exact absurd ((equation_iff.mp hequation).trans hvalue.symm) hmono.ne
  · rfl
  · have hmono := value_lt hα hxs hDpos.le hlt
    exact absurd (hvalue.trans (equation_iff.mp hequation).symm) hmono.ne

/-- More of one token does not lower the invariant. -/
theorem invariant_mono (hα : 1 < α) (hxs : ∀ x ∈ xs, 0 < x) {x : ℝ} (hj : xs[j]? = some x)
    (hz : 0 < z) (hle : z ≤ z') (hD : 0 < D) (hD' : 0 < D') (h : Equation α (xs.set j z) D)
    (h' : Equation α (xs.set j z') D') : D ≤ D' := by
  have hx : 0 < x := hxs x (List.mem_of_getElem? hj)
  have hset : ∀ w, 0 < w → ∀ y ∈ xs.set j w, 0 < y := by
    intro w hw y hy
    rcases List.mem_or_eq_of_mem_set hy with hmem | rfl
    · exact hxs y hmem
    · exact hw
  by_contra hlt
  have hvalue := value_lt hα (hset z' (hz.trans_le hle)) hD'.le (not_le.mp hlt)
  rw [equation_iff.mp h'] at hvalue
  have hterm : productTerm (xs.set j z') D ≤ productTerm (xs.set j z) D := by
    unfold productTerm
    simp only [List.length_set]
    have hpositive := scale_pos (hset z hz)
    rw [List.length_set] at hpositive
    refine div_le_div_of_nonneg_left (pow_pos hD _).le hpositive ?_
    rw [prod_set hj hx.ne', prod_set hj hx.ne']
    have hprod := prod_pos hxs
    gcongr
  have hsum : (xs.set j z).sum ≤ (xs.set j z').sum := by
    rw [sum_set hj, sum_set hj]
    linarith
  have hscaled := mul_le_mul_of_nonneg_left hsum (by linarith : (0 : ℝ) ≤ α)
  have hequation := equation_iff.mp h
  linarith

/-- Where one token is scarce, a unit of it carries more than a unit of the invariant. -/
theorem add_le_invariant_of_scarce (hα : 1 < α) (hxs : ∀ x ∈ xs, 0 < x) {x : ℝ}
    (hj : xs[j]? = some x) (hz : 1 < z) (hD : 0 < D) (hd : 0 < d)
    (h : Equation α (xs.set j z) D) (h' : Equation α (xs.set j (z - 1)) d)
    (hscarce : (xs.length + 1) * α * z ≤ (α - 1) * D) : d + (1 + 1 / (α - 1)) ≤ D := by
  have hx : 0 < x := hxs x (List.mem_of_getElem? hj)
  have hαpos : 0 < α - 1 := by linarith
  have hinverse : 0 < 1 / (α - 1) := by positivity
  by_contra hlt
  -- then the product term of the lower point is not the smaller one
  have hratio : 1 + ((xs.length + 1 : ℕ) : ℝ) * (d / D - 1) ≤ (d / D) ^ (xs.length + 1) := by
    have hbernoulli := one_add_mul_le_pow (a := d / D - 1) (by
      have hpos : 0 < d / D := div_pos hd hD
      linarith) (xs.length + 1)
    rwa [add_sub_cancel] at hbernoulli
  have hfraction : 1 - 1 / z ≤ 1 + ((xs.length + 1 : ℕ) : ℝ) * (d / D - 1) := by
    have hgap : ((xs.length + 1 : ℕ) : ℝ) * (1 - d / D) ≤ 1 / z := by
      have hshort : 1 - d / D ≤ α / ((α - 1) * D) := by
        rw [div_mul_eq_div_div, le_div_iff₀ hD, sub_mul, div_mul_cancel₀ _ hD.ne', one_mul]
        have hvalue : α / (α - 1) = 1 + 1 / (α - 1) := by field_simp; ring
        linarith
      calc ((xs.length + 1 : ℕ) : ℝ) * (1 - d / D)
          ≤ ((xs.length + 1 : ℕ) : ℝ) * (α / ((α - 1) * D)) :=
            mul_le_mul_of_nonneg_left hshort (by positivity)
        _ ≤ 1 / z := by
            rw [← mul_div_assoc, div_le_div_iff₀ (by positivity) (by linarith), one_mul]
            push_cast
            exact hscarce
    linarith
  have hpower : D ^ (xs.length + 1) * (z - 1) ≤ d ^ (xs.length + 1) * z := by
    have hle := hfraction.trans hratio
    rw [div_pow, le_div_iff₀ (pow_pos hD _)] at hle
    have hz' : 0 < z := by linarith
    calc D ^ (xs.length + 1) * (z - 1) = (1 - 1 / z) * D ^ (xs.length + 1) * z := by
          field_simp
      _ ≤ d ^ (xs.length + 1) * z := mul_le_mul_of_nonneg_right hle hz'.le
  have hterm : productTerm (xs.set j z) D ≤ productTerm (xs.set j (z - 1)) d := by
    have hprod := prod_pos hxs
    have hscale := scale_pos hxs
    have hlength : 0 < (xs.length : ℝ) ^ xs.length := by
      by_contra hnonpos
      exact absurd hscale (mul_nonpos_of_nonpos_of_nonneg (not_lt.mp hnonpos) hprod.le).not_gt
    rw [productTerm, productTerm, List.length_set, List.length_set, prod_set hj hx.ne',
      prod_set hj hx.ne', ← mul_assoc, ← mul_assoc,
      div_le_div_iff₀ (mul_pos (mul_pos hlength (div_pos hprod hx)) (by linarith))
        (mul_pos (mul_pos hlength (div_pos hprod hx)) (by linarith))]
    have hfactor : 0 < (xs.length : ℝ) ^ xs.length * (xs.prod / x) :=
      mul_pos hlength (div_pos hprod hx)
    nlinarith
  have hupper := equation_iff.mp h
  have hlower := equation_iff.mp h'
  rw [sum_set hj] at hupper hlower
  have hdrop : α ≤ (α - 1) * (D - d) := by linarith
  have hvalue : (α - 1) * (1 + 1 / (α - 1)) = α := by field_simp; ring
  have hcancel : (α - 1) * (1 + 1 / (α - 1)) ≤ (α - 1) * (D - d) := by rw [hvalue]; exact hdrop
  have hbound := le_of_mul_le_mul_left hcancel hαpos
  linarith

/-- A step of Newton's method for the invariant does not end below it. -/
theorem invariant_le_newton (hxs : ∀ x ∈ xs, 0 < x) (h : Equation α xs D) (hD : 0 < D)
    (hd : 0 < d) : D * ((α - 1) * d + (xs.length + 1) * productTerm xs d) ≤
      (α * xs.sum + xs.length * productTerm xs d) * d := by
  have hbernoulli := one_add_mul_le_pow (a := D / d - 1) (by
    have hratio : 0 < D / d := div_pos hD hd
    linarith) (xs.length + 1)
  rw [add_sub_cancel, div_pow, le_div_iff₀ (pow_pos hd _)] at hbernoulli
  have hproduct : productTerm xs D * d + xs.length * productTerm xs d * d ≥
      (xs.length + 1) * productTerm xs d * D := by
    have hscale := scale_pos hxs
    have hcleared : (1 + ((xs.length + 1 : ℕ) : ℝ) * (D / d - 1)) * d ^ (xs.length + 1) * d =
        ((xs.length + 1) * D - xs.length * d) * d ^ (xs.length + 1) := by
      push_cast
      field_simp
      ring
    have hscaled := mul_le_mul_of_nonneg_right hbernoulli hd.le
    rw [hcleared] at hscaled
    have hdivided := div_le_div_of_nonneg_right hscaled hscale.le
    rw [productTerm, productTerm]
    have hleft : ((xs.length + 1) * D - xs.length * d) * d ^ (xs.length + 1) /
        ((xs.length : ℝ) ^ xs.length * xs.prod) =
          (xs.length + 1) * (d ^ (xs.length + 1) / ((xs.length : ℝ) ^ xs.length * xs.prod)) * D -
            xs.length * (d ^ (xs.length + 1) / ((xs.length : ℝ) ^ xs.length * xs.prod)) * d := by
      ring
    have hright : D ^ (xs.length + 1) * d / ((xs.length : ℝ) ^ xs.length * xs.prod) =
        D ^ (xs.length + 1) / ((xs.length : ℝ) ^ xs.length * xs.prod) * d := by
      ring
    rw [hleft, hright] at hdivided
    linarith
  rw [← equation_iff.mp h]
  nlinarith

/-- A step with coefficients rounded down, from a value next to its result. The result falls
short of the invariant by its own rounding and by that of the first coefficient. -/
theorem invariant_lt_rounded (hα : 1 < α) (hxs : ∀ x ∈ xs, 0 < x) (h : Equation α xs D)
    (hD : 0 < D) (hd : 0 < d) {A B p next : ℝ} (hA : α * xs.sum - 1 < A) (hAnonneg : 0 ≤ A)
    (hB : B ≤ (α - 1) * d) (hp : 0 ≤ p) (hple : p ≤ productTerm xs d)
    (hsum : xs.length + 1 ≤ α * xs.sum) (hne : 0 < (xs.length : ℝ))
    (hpositive : 0 < B + (xs.length + 1) * p)
    (hstep : (A + xs.length * p) * d < (next + 1) * (B + (xs.length + 1) * p))
    (hclose : d ≤ next + 1) : D < next + 1 + 1 / (α - 1) := by
  have hαpos : 0 < α - 1 := by linarith
  have hinverse : 0 < 1 / (α - 1) := by positivity
  have hterm := productTerm_pos hxs hd
  set n : ℝ := (xs.length : ℝ) with hn
  set P := productTerm xs d with hP
  by_cases hcase : n * ((α - 1) * d) ≤ (n + 1) * A
  · -- the rounded step is not below the exact one, but for the first coefficient
    have hnewton := invariant_le_newton hxs h hD hd
    rw [← hn, ← hP] at hnewton
    set Q := (α - 1) * d + (n + 1) * P with hQ
    have hQpos : 0 < Q := by positivity
    have hcross : (A + n * P) * (B + (n + 1) * p) ≤ (A + n * p) * Q := by
      have hgap : 0 ≤ (P - p) * ((n + 1) * A - n * ((α - 1) * d)) :=
        mul_nonneg (by linarith) (by linarith)
      have hmono : (A + n * P) * (B + (n + 1) * p) ≤
          (A + n * P) * ((α - 1) * d + (n + 1) * p) :=
        mul_le_mul_of_nonneg_left (by linarith) (by positivity)
      nlinarith
    have hbound : (A + n * P) * d < (next + 1) * Q := by
      have hscaled : (A + n * P) * d * (B + (n + 1) * p) < (next + 1) * Q * (B + (n + 1) * p) :=
        calc (A + n * P) * d * (B + (n + 1) * p)
            = (A + n * P) * (B + (n + 1) * p) * d := by ring
          _ ≤ (A + n * p) * Q * d := mul_le_mul_of_nonneg_right hcross hd.le
          _ = (A + n * p) * d * Q := by ring
          _ < (next + 1) * (B + (n + 1) * p) * Q := mul_lt_mul_of_pos_right hstep hQpos
          _ = (next + 1) * Q * (B + (n + 1) * p) := by ring
      exact lt_of_mul_lt_mul_right hscaled hpositive.le
    have hshort : (D - next - 1) * Q < d := by nlinarith
    have hslope : (α - 1) * d ≤ Q := by
      rw [hQ]
      nlinarith
    by_contra hge
    have hgap : 1 / (α - 1) ≤ D - next - 1 := by linarith
    have hfactor : d ≤ (D - next - 1) * Q :=
      calc d = 1 / (α - 1) * ((α - 1) * d) := by field_simp
        _ ≤ (D - next - 1) * Q := mul_le_mul hgap hslope (by positivity) (by linarith)
    linarith
  · -- so far above the invariant the result is, too
    have hequation := equation_iff.mp h
    have hDterm := productTerm_pos hxs hD
    have habove : n * ((α - 1) * D) < n * ((α - 1) * d) := by nlinarith
    have hDd : D < d := lt_of_mul_lt_mul_left (lt_of_mul_lt_mul_left habove hne.le) hαpos.le
    linarith

end Invariant

end Degenbot.Library.StableSwap
