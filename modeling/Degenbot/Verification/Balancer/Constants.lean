import Degenbot.Algorithm.LogExpMath
import Degenbot.Library.FixedPointError
import Mathlib.Analysis.Complex.ExponentialBounds
import Mathlib.Analysis.SpecialFunctions.Pow.Real

/-! # The series of `exp`, `_ln` and `_ln_36`

Every term is within two units of its real value, so a sum is within two units for each term. -/

namespace Degenbot.LogExpMath

open Library

/-! ## Odd powers -/

/-- The sum of `_ln` and `_ln_36` in real numbers, from a power `p` and a sum `s`. -/
noncomputable def oddSum (zz : ℝ) : List ℤ → ℝ → ℝ → ℝ
  | [], _, s => s
  | d :: ds, p, s => oddSum zz ds (p * zz) (s + p * zz / d)

theorem oddSeries_fold_error {one zSquared : ℤ} {zz : ℝ} (hone : 0 < one)
    (hzSquared : |zSquared - one * zz| ≤ 2) (hzz : |zz| ≤ 1)
    (hsmall : |(zSquared / one : ℝ)| ≤ 3 / 8) (ds : List ℤ) (hds : ∀ d ∈ ds, 2 ≤ d)
    {num sum : ℤ} {p s c : ℝ} (hnum : |num - one * p| ≤ 2) (hp : |p| ≤ 1 / 8)
    (hsum : |sum - one * s| ≤ c) :
    |((ds.foldl (fun (state : ℤ × ℤ) d =>
        let num := python.quotient (state.1 * zSquared) one
        (num, state.2 + python.quotient num d)) (num, sum)).2 : ℝ) - one * oddSum zz ds p s| ≤
      c + 2 * ds.length := by
  induction ds generalizing num sum p s c with
  | nil => simpa [oddSum] using hsum
  | cons d ds ih =>
      have hnext : |((num * zSquared).fdiv one : ℝ) - one * (p * zz)| ≤ 2 :=
        abs_fdiv_mul_sub_le hone hnum hzSquared (by linarith) hsmall
      have hterm : |(((num * zSquared).fdiv one).fdiv d : ℝ) - one * (p * zz / d)| ≤ 2 :=
        abs_fdiv_small_sub_le (hds d (by simp)) hnext
      have hp' : |p * zz| ≤ 1 / 8 := by
        rw [abs_mul]
        exact (mul_le_of_le_one_right (abs_nonneg p) hzz).trans hp
      have hsum' : |((sum + ((num * zSquared).fdiv one).fdiv d : ℤ) : ℝ) -
          one * (s + p * zz / d)| ≤ c + 2 := by
        have hsplit : ((sum + ((num * zSquared).fdiv one).fdiv d : ℤ) : ℝ) -
            one * (s + p * zz / d) = (sum - one * s) +
              ((((num * zSquared).fdiv one).fdiv d : ℝ) - one * (p * zz / d)) := by
          push_cast
          ring
        rw [hsplit]
        exact (abs_add_le _ _).trans (add_le_add hsum hterm)
      have hrest := ih (fun e he => hds e (by simp [he])) hnext hp' hsum'
      rw [List.foldl_cons, oddSum]
      refine hrest.trans (le_of_eq ?_)
      push_cast [List.length_cons]
      ring

/-- The series at a rounded `z`. -/
theorem oddSeries_error {one Z : ℤ} {z : ℝ} (hone : 1000 ≤ one) (hZ : |Z - one * z| ≤ 1)
    (hz : |z| ≤ 1 / 10) (ds : List ℤ) (hds : ∀ d ∈ ds, 2 ≤ d) :
    |(oddSeries python one Z ds : ℝ) - one * oddSum (z ^ 2) ds z z| ≤ 1 + 2 * ds.length := by
  have hone' : (1000 : ℝ) ≤ one := by exact_mod_cast hone
  have hpos : 0 < one := by omega
  have hzz : z ^ 2 ≤ 1 / 100 := by
    rw [← sq_abs]
    nlinarith [abs_nonneg z]
  have hratio : |(Z / one : ℝ) - z| ≤ 1 / 1000 := by
    have hsplit : (Z / one : ℝ) - z = (Z - one * z) / one := by field_simp
    rw [hsplit, abs_div, abs_of_pos (by linarith : (0 : ℝ) < one)]
    exact div_le_div₀ zero_le_one hZ (by norm_num) hone'
  have hsquare : |(python.quotient (Z * Z) one : ℝ) - one * z ^ 2| ≤ 2 := by
    have hsplit : ((Z * Z : ℤ) / one : ℝ) - one * z ^ 2 = (Z - one * z) * (Z / one + z) := by
      push_cast
      field_simp
      ring
    have hfactor : |(Z / one + z : ℝ)| ≤ 1 := by
      rw [abs_le] at hratio hz ⊢
      constructor <;> linarith
    have herror : |((Z * Z : ℤ) / one : ℝ) - one * z ^ 2| ≤ 1 := by
      rw [hsplit, abs_mul]
      exact mul_le_one₀ hZ (abs_nonneg _) hfactor
    exact (abs_fdiv_sub_le hpos herror).trans (by norm_num)
  have hsmall : |(python.quotient (Z * Z) one / one : ℝ)| ≤ 3 / 8 := by
    have hbound : |(python.quotient (Z * Z) one : ℝ)| ≤ 2 + one * (1 / 100) := by
      have htriangle := abs_add_le ((python.quotient (Z * Z) one : ℝ) - one * z ^ 2) (one * z ^ 2)
      rw [sub_add_cancel, abs_of_nonneg (by positivity : (0 : ℝ) ≤ one * z ^ 2)] at htriangle
      nlinarith
    rw [abs_div, abs_of_pos (by linarith : (0 : ℝ) < one), div_le_iff₀ (by linarith)]
    linarith
  refine oddSeries_fold_error hpos hsquare ?_ hsmall ds hds (hZ.trans (by norm_num))
    (hz.trans (by norm_num)) hZ
  rw [abs_of_nonneg (sq_nonneg z)]
  linarith

/-! ## Powers over factorials -/

/-- The sum of `exp` in real numbers. -/
noncomputable def expSum (x : ℝ) : List ℤ → ℝ → ℝ → ℝ
  | [], _, s => s
  | n :: ns, t, s => expSum x ns (t * x / n) (s + t * x / n)

theorem expSeries_fold_error {x : ℤ} (hx : 0 ≤ x) (hx' : x ≤ 25 * 10 ^ 18) (ns : List ℤ)
    (hns : ∀ n ∈ ns, 2 ≤ n) {term sum : ℤ} {t s c : ℝ} (hterm : |term - one20 * t| ≤ 2)
    (hsum : |sum - one20 * s| ≤ c) :
    |((ns.foldl (fun (state : ℤ × ℤ) n =>
        let term := python.quotient (python.quotient (state.1 * x) one20) n
        (term, state.2 + term)) (term, sum)).2 : ℝ) - one20 * expSum (x / one20) ns t s| ≤
      c + 2 * ns.length := by
  induction ns generalizing term sum t s c with
  | nil => simpa [expSum] using hsum
  | cons n ns ih =>
      have hone : (0 : ℝ) < one20 := by norm_num [one20]
      have hratio : |(x / one20 : ℝ)| ≤ 3 / 8 := by
        have hx0 : (0 : ℝ) ≤ x := by exact_mod_cast hx
        have hx1 : (x : ℝ) ≤ 25 * 10 ^ 18 := by exact_mod_cast hx'
        rw [abs_of_nonneg (by positivity), div_le_iff₀ hone]
        norm_num [one20]
        linarith
      have hexact : |(x : ℝ) - one20 * (x / one20)| ≤ 0 := by
        rw [mul_div_cancel₀ _ hone.ne', sub_self, abs_zero]
      have hproduct : |((term * x).fdiv one20 : ℝ) - one20 * (t * (x / one20))| ≤ 2 :=
        abs_fdiv_mul_sub_le (by decide) hterm hexact (by norm_num) hratio
      have hnext : |(((term * x).fdiv one20).fdiv n : ℝ) - one20 * (t * (x / one20) / n)| ≤ 2 :=
        abs_fdiv_small_sub_le (hns n (by simp)) hproduct
      have hsum' : |((sum + ((term * x).fdiv one20).fdiv n : ℤ) : ℝ) -
          one20 * (s + t * (x / one20) / n)| ≤ c + 2 := by
        have hsplit : ((sum + ((term * x).fdiv one20).fdiv n : ℤ) : ℝ) -
            one20 * (s + t * (x / one20) / n) = (sum - one20 * s) +
              ((((term * x).fdiv one20).fdiv n : ℝ) - one20 * (t * (x / one20) / n)) := by
          push_cast
          ring
        rw [hsplit]
        exact (abs_add_le _ _).trans (add_le_add hsum hnext)
      have hrest := ih (fun e he => hns e (by simp [he])) hnext hsum'
      rw [List.foldl_cons, expSum]
      refine hrest.trans (le_of_eq ?_)
      push_cast [List.length_cons]
      ring

end Degenbot.LogExpMath

/-! ## Exponentials: the table and the accuracy -/

/-! ## The table of exponentials

Every `a_n` is `e^(x_n)` up to an error of `(2 + x_n) / 10^20` in its logarithm: from a bound for
`e` itself, each power of two by squaring its neighbour. -/

namespace Degenbot.LogExpMath

open Library

/-- `a` is the exponential of `x` up to an error `e` in the exponent. -/
def ExpWithin (e x a : ℝ) : Prop := 0 < a ∧ |Real.log a - x| ≤ e

theorem abs_log_sub_log_le_of_ratio {v w r : ℝ} (hw : 0 < w) (hr : r ≤ 1 / 2)
    (hvw : |v - w| ≤ r * w) : |Real.log v - Real.log w| ≤ 2 * r := by
  have hv : w / 2 ≤ v := by
    have := (abs_le.mp hvw).1
    nlinarith
  refine (abs_log_sub_log_le (half_pos hw) hv (by linarith)).trans ?_
  rw [div_le_iff₀ (half_pos hw)]
  linarith

theorem ExpWithin.double {e r x a b : ℝ} (ha : ExpWithin e x a) (hb : 0 < b) (hr : r ≤ 1 / 2)
    (hsquare : |b - a ^ 2| ≤ r * a ^ 2) : ExpWithin (2 * e + 2 * r) (2 * x) b := by
  have hlog := abs_log_sub_log_le_of_ratio (pow_pos ha.1 2) hr hsquare
  rw [Real.log_pow] at hlog
  have hpower := ha.2
  rw [abs_le] at hlog hpower
  refine ⟨hb, abs_le.mpr ⟨?_, ?_⟩⟩ <;> push_cast at hlog <;> linarith

theorem ExpWithin.halve {e r x a b : ℝ} (ha : ExpWithin e x a) (hb : 0 < b) (hr : r ≤ 1 / 2)
    (hsquare : |a - b ^ 2| ≤ r * b ^ 2) : ExpWithin (e / 2 + r) (x / 2) b := by
  have hlog := abs_log_sub_log_le_of_ratio (pow_pos hb 2) hr hsquare
  rw [Real.log_pow] at hlog
  have hpower := ha.2
  rw [abs_le] at hlog hpower
  refine ⟨hb, abs_le.mpr ⟨?_, ?_⟩⟩ <;> push_cast at hlog <;> linarith

theorem ExpWithin.mono {e e' x x' a a' : ℝ} (h : ExpWithin e x a) (he : e ≤ e') (hx : x = x')
    (ha : a = a') : ExpWithin e' x' a' := by
  subst hx ha
  exact ⟨h.1, h.2.trans he⟩

theorem expWithin_a7 : ExpWithin (6 / 10 ^ 21) 1 (271828182845904523536 / 10 ^ 20) := by
  refine ⟨by norm_num, ?_⟩
  have hnear := Real.exp_one_near_20
  have hclose : |(271828182845904523536 / 10 ^ 20 : ℝ) - Real.exp 1| ≤ 16 / 10 ^ 21 := by
    rw [abs_le] at hnear ⊢
    constructor <;> norm_num at hnear ⊢ <;> linarith
  have hexp : (27 / 10 : ℝ) ≤ Real.exp 1 := by
    have := Real.exp_one_gt_d9
    norm_num at this ⊢
    linarith
  have hlog := abs_log_sub_log_le (by norm_num : (0 : ℝ) < 27 / 10)
    (by norm_num : (27 / 10 : ℝ) ≤ 271828182845904523536 / 10 ^ 20) hexp
  rw [Real.log_exp] at hlog
  refine hlog.trans ?_
  rw [div_le_iff₀ (by norm_num)]
  refine hclose.trans ?_
  norm_num

/-! ## The powers of two above and below one -/

theorem expWithin_table : ∀ entry ∈ lnTable,
    ExpWithin ((2 + entry.1 / 10 ^ 20) / 10 ^ 20) (entry.1 / 10 ^ 20) (entry.2 / 10 ^ 20) := by
  have h7 := expWithin_a7
  have h6 : ExpWithin (13 / 10 ^ 21) 2 (738905609893065022723 / 10 ^ 20) := by
    refine (h7.double (r := 2 / 10 ^ 22) ?_ ?_ ?_).mono ?_ ?_ rfl
    all_goals norm_num [abs_le]
  have h5 : ExpWithin (27 / 10 ^ 21) 4 (5459815003314423907810 / 10 ^ 20) := by
    refine (h6.double (r := 1 / 10 ^ 22) ?_ ?_ ?_).mono ?_ ?_ rfl
    all_goals norm_num [abs_le]
  have h4 : ExpWithin (56 / 10 ^ 21) 8 (298095798704172827474000 / 10 ^ 20) := by
    refine (h5.double (r := 9 / 10 ^ 22) ?_ ?_ ?_).mono ?_ ?_ rfl
    all_goals norm_num [abs_le]
  have h3 : ExpWithin (117 / 10 ^ 21) 16 (888611052050787263676000000 / 10 ^ 20) := by
    refine (h4.double (r := 21 / 10 ^ 22) ?_ ?_ ?_).mono ?_ ?_ rfl
    all_goals norm_num [abs_le]
  have h2 : ExpWithin (237 / 10 ^ 21) 32 (7896296018268069516100000000000000 / 10 ^ 20) := by
    refine (h3.double (r := 10 / 10 ^ 22) ?_ ?_ ?_).mono ?_ ?_ rfl
    all_goals norm_num [abs_le]
  have h8 : ExpWithin (5 / 10 ^ 21) (1 / 2) (164872127070012814685 / 10 ^ 20) := by
    refine (h7.halve (r := 18 / 10 ^ 22) ?_ ?_ ?_).mono ?_ ?_ rfl
    all_goals norm_num [abs_le]
  have h9 : ExpWithin (9 / 10 ^ 21) (1 / 4) (128402541668774148407 / 10 ^ 20) := by
    refine (h8.halve (r := 62 / 10 ^ 22) ?_ ?_ ?_).mono ?_ ?_ rfl
    all_goals norm_num [abs_le]
  have h10 : ExpWithin (9 / 10 ^ 21) (1 / 8) (113314845306682631683 / 10 ^ 20) := by
    refine (h9.halve (r := 45 / 10 ^ 22) ?_ ?_ ?_).mono ?_ ?_ rfl
    all_goals norm_num [abs_le]
  have h11 : ExpWithin (12 / 10 ^ 21) (1 / 16) (106449445891785942956 / 10 ^ 20) := by
    refine (h10.halve (r := 73 / 10 ^ 22) ?_ ?_ ?_).mono ?_ ?_ rfl
    all_goals norm_num [abs_le]
  simp only [lnTable, expTable, List.cons_append, List.nil_append, List.forall_mem_cons]
  refine ⟨h2.mono ?_ ?_ ?_, h3.mono ?_ ?_ ?_, h4.mono ?_ ?_ ?_, h5.mono ?_ ?_ ?_, h6.mono ?_ ?_ ?_,
    h7.mono ?_ ?_ ?_, h8.mono ?_ ?_ ?_, h9.mono ?_ ?_ ?_, h10.mono ?_ ?_ ?_, h11.mono ?_ ?_ ?_, ?_⟩
  all_goals norm_num

theorem expWithin_a1 : ExpWithin (69 / 10 ^ 20) 64 a1 := by
  have h2 := expWithin_table (3200000000000000000000, 7896296018268069516100000000000000)
    (by decide)
  refine (h2.double (b := a1) (r := 5 / 10 ^ 22) ?_ ?_ ?_).mono ?_ ?_ rfl
  all_goals norm_num [a1, abs_le]

theorem expWithin_a0 : ExpWithin (140 / 10 ^ 20) 128 a0 := by
  refine (expWithin_a1.double (r := 10 / 10 ^ 22) ?_ ?_ ?_).mono ?_ ?_ rfl
  all_goals norm_num [a0, a1, abs_le]

/-! ## What the fixed-point functions approximate -/

/-- The error of one step: that of the table entry and a rounded product. -/
noncomputable def stepError (entry : ℤ × ℤ) : ℝ := (3 + entry.1 / 10 ^ 20) / 10 ^ 20

/-- An entry of the table, not below one. -/
def Entry (entry : ℤ × ℤ) : Prop :=
  ExpWithin (stepError entry - 1 / 10 ^ 20) (entry.1 / 10 ^ 20) (entry.2 / 10 ^ 20) ∧
    0 ≤ entry.1 ∧ 10 ^ 20 ≤ entry.2

/-- The logarithm of a value times a power of `e`. -/
noncomputable def potential (value exponent : ℤ) : ℝ := Real.log value + exponent / 10 ^ 20

/-- `v` is the logarithm of `u`, with 18 decimals, up to `e`. -/
def LogWithin (e u : ℝ) (v : ℤ) : Prop := |(v / 10 ^ 18 : ℝ) - Real.log u| ≤ e

/-- `v` is the logarithm of `u` up to a small part of itself. -/
def LogRelative (u v : ℝ) : Prop := |v - Real.log u| ≤ 67 / 10 ^ 18 * |v|

/-- The argument of the series, for a number near one. -/
noncomputable def oddArgument (x : ℤ) : ℝ := (x - 10 ^ 18) / (x + 10 ^ 18)

/-- `x ^ y` for fixed-point numbers. -/
noncomputable def realPow (x y : ℤ) : ℝ := 10 ^ 18 * (x / 10 ^ 18 : ℝ) ^ (y / 10 ^ 18 : ℝ)

end Degenbot.LogExpMath
