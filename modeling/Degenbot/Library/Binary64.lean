import Mathlib.Algebra.Order.Floor.Ring
import Mathlib.Data.Int.Log
import Mathlib.Data.Rat.Floor
import Mathlib.Tactic.Linarith
import Mathlib.Tactic.NormNum
import Mathlib.Tactic.FieldSimp
import Mathlib.Tactic.Ring

/-! # Rounding of positive rationals to doubles -/

namespace Degenbot.Library

/-- The nearest integer, and the even one of two. -/
def roundHalfEven (q : ℚ) : ℤ :=
  if q - ⌊q⌋ < 1 / 2 then ⌊q⌋
  else if 1 / 2 < q - ⌊q⌋ then ⌊q⌋ + 1
  else if ⌊q⌋ % 2 = 0 then ⌊q⌋ else ⌊q⌋ + 1

/-- The exponent of the binade, not below that of the subnormal numbers. -/
def binade (q : ℚ) : ℤ := max (Int.log 2 q) (-1022)

/-- The unit in the last place. -/
def ulp (q : ℚ) : ℚ := 2 ^ (binade q - 52)

/-- The rounding with exponents unbounded above. -/
def nearest (q : ℚ) : ℚ := roundHalfEven (q / ulp q) * ulp q

/-- The double, and none where it overflows. -/
def binary64 (q : ℚ) : Option ℚ := if nearest q < 2 ^ 1024 then some (nearest q) else none

/-! ## Rounding to integers -/

theorem roundHalfEven_bounds (q : ℚ) :
    q - 1 / 2 ≤ roundHalfEven q ∧ roundHalfEven q ≤ q + 1 / 2 := by
  have hlow := Int.floor_le q
  have hhigh := Int.lt_floor_add_one q
  unfold roundHalfEven
  split_ifs
  all_goals push_cast; constructor <;> linarith

/-- Integers are not crossed. -/
theorem le_roundHalfEven {q : ℚ} {n : ℤ} (h : (n : ℚ) ≤ q) : n ≤ roundHalfEven q := by
  have hfloor : n ≤ ⌊q⌋ := Int.le_floor.mpr h
  unfold roundHalfEven
  split_ifs <;> omega

theorem roundHalfEven_le {q : ℚ} {n : ℤ} (h : q ≤ n) : roundHalfEven q ≤ n := by
  have hfloor : ⌊q⌋ ≤ n := Int.floor_le_iff.mpr (by linarith)
  rcases hfloor.lt_or_eq with hlt | heq
  · unfold roundHalfEven
    split_ifs <;> omega
  · have hq : q - ⌊q⌋ < 1 / 2 := by
      rw [heq]
      linarith
    rw [roundHalfEven, if_pos hq, heq]

theorem roundHalfEven_mono {p q : ℚ} (h : p ≤ q) : roundHalfEven p ≤ roundHalfEven q := by
  have hfloor : ⌊p⌋ ≤ ⌊q⌋ := Int.floor_le_floor h
  rcases hfloor.lt_or_eq with hlt | heq
  · -- A whole number lies between the two.
    have hp : roundHalfEven p ≤ ⌊p⌋ + 1 := by
      unfold roundHalfEven
      split_ifs <;> omega
    have hq : ⌊q⌋ ≤ roundHalfEven q := le_roundHalfEven (Int.floor_le q)
    omega
  · unfold roundHalfEven
    rw [heq]
    split_ifs <;> first | omega | linarith

/-! ## Rounding to doubles -/

theorem ulp_pos (q : ℚ) : 0 < ulp q := zpow_pos (by norm_num) _

theorem exists_multiple {x : ℚ} {k : ℤ} (hk : binade x - 52 ≤ k) :
    ∃ n : ℕ, (2 : ℚ) ^ k = ((2 ^ n : ℤ) : ℚ) * ulp x := by
  obtain ⟨n, hn⟩ := Int.eq_ofNat_of_zero_le (sub_nonneg.mpr hk)
  refine ⟨n, ?_⟩
  push_cast
  rw [ulp, ← zpow_natCast, ← zpow_add₀ (by norm_num)]
  congr 1
  omega

/-- A power of two that the unit divides is not crossed. -/
theorem nearest_le {x : ℚ} {k : ℤ} (hk : binade x - 52 ≤ k) (h : x ≤ 2 ^ k) :
    nearest x ≤ 2 ^ k := by
  obtain ⟨n, hn⟩ := exists_multiple hk
  rw [hn] at h ⊢
  refine mul_le_mul_of_nonneg_right ?_ (ulp_pos x).le
  exact_mod_cast roundHalfEven_le ((div_le_iff₀ (ulp_pos x)).mpr h)

theorem le_nearest {x : ℚ} {k : ℤ} (hk : binade x - 52 ≤ k) (h : 2 ^ k ≤ x) :
    2 ^ k ≤ nearest x := by
  obtain ⟨n, hn⟩ := exists_multiple hk
  rw [hn] at h ⊢
  refine mul_le_mul_of_nonneg_right ?_ (ulp_pos x).le
  exact_mod_cast le_roundHalfEven ((le_div_iff₀ (ulp_pos x)).mpr h)

theorem nearest_mono {x y : ℚ} (hx : 0 < x) (h : x ≤ y) : nearest x ≤ nearest y := by
  have hy : 0 < y := hx.trans_le h
  have hlog : Int.log 2 x ≤ Int.log 2 y := Int.log_mono_right hx h
  have hbinade : binade x ≤ binade y := max_le_max hlog le_rfl
  rcases hbinade.lt_or_eq with hlt | heq
  · -- A power of two lies between them.
    have hlogx : Int.log 2 x ≤ binade x := le_max_left _ _
    have hlogy : Int.log 2 y = binade y := by
      have hnormal : -1022 < binade y := (le_max_right _ _ : -1022 ≤ binade x).trans_lt hlt
      rw [binade] at hnormal ⊢
      omega
    have hexponent : Int.log 2 x + 1 ≤ binade y := by omega
    have hself : x < 2 ^ (Int.log 2 x + 1) := Int.lt_zpow_succ_log_self (by norm_num) x
    have hxpow : x ≤ 2 ^ binade y :=
      hself.le.trans (zpow_le_zpow_right₀ (by norm_num) hexponent)
    have hypow : (2 : ℚ) ^ binade y ≤ y := by
      rw [← hlogy]
      exact Int.zpow_log_le_self (by norm_num) hy
    exact (nearest_le (by omega) hxpow).trans (le_nearest (by omega) hypow)
  · have hulp : ulp x = ulp y := by rw [ulp, ulp, heq]
    rw [nearest, nearest, hulp]
    refine mul_le_mul_of_nonneg_right ?_ (ulp_pos y).le
    exact_mod_cast roundHalfEven_mono (div_le_div_of_nonneg_right h (ulp_pos y).le)

/-- The relative error is at most a sixteenth. -/
theorem nearest_bounds {x : ℚ} (h : 1 / 1024 ≤ x) :
    x - x / 16 ≤ nearest x ∧ nearest x ≤ x + x / 16 := by
  have hx : 0 < x := by linarith
  have hlog : -10 ≤ Int.log 2 x := by
    have hsmall : Int.log 2 (1 / 1024 : ℚ) = -10 := by
      have hpow : (1 / 1024 : ℚ) = ((2 : ℕ) : ℚ) ^ (-10 : ℤ) := by norm_num
      rw [hpow, Int.log_zpow (by norm_num)]
    rw [← hsmall]
    exact Int.log_mono_right (by norm_num) h
  have hulp : ulp x ≤ x / 16 := by
    have hself : (2 : ℚ) ^ Int.log 2 x ≤ x := Int.zpow_log_le_self (by norm_num) hx
    have hbinade : binade x = Int.log 2 x := by
      rw [binade]
      omega
    have hsplit : ulp x = 2 ^ Int.log 2 x * 2 ^ (-52 : ℤ) := by
      rw [ulp, hbinade, sub_eq_add_neg, zpow_add₀ (by norm_num)]
    have hsmall : (2 : ℚ) ^ (-52 : ℤ) ≤ 1 / 16 := by norm_num
    rw [hsplit]
    calc (2 : ℚ) ^ Int.log 2 x * 2 ^ (-52 : ℤ)
        ≤ x * (1 / 16) := mul_le_mul hself hsmall (by positivity) hx.le
      _ = x / 16 := by ring
  have hpos := ulp_pos x
  have hround := roundHalfEven_bounds (x / ulp x)
  have hcancel : x / ulp x * ulp x = x := div_mul_cancel₀ x hpos.ne'
  have hlow := mul_le_mul_of_nonneg_right hround.1 hpos.le
  have hhigh := mul_le_mul_of_nonneg_right hround.2 hpos.le
  rw [sub_mul, hcancel] at hlow
  rw [add_mul, hcancel] at hhigh
  rw [nearest]
  constructor <;> linarith

theorem nearest_one : nearest 1 = 1 := by
  have hlog : Int.log 2 (1 : ℚ) = 0 := Int.log_one_right 2
  have hbinade : binade 1 = 0 := by
    rw [binade, hlog]
    rfl
  have hone : (2 : ℚ) ^ (0 : ℤ) = 1 := zpow_zero 2
  have hlow : 2 ^ (0 : ℤ) ≤ nearest 1 := le_nearest (by rw [hbinade]; norm_num) hone.le
  have hhigh : nearest 1 ≤ 2 ^ (0 : ℤ) := nearest_le (by rw [hbinade]; norm_num) hone.ge
  exact le_antisymm (hhigh.trans_eq hone) (hone.symm.trans_le hlow)

theorem one_le_nearest {x : ℚ} (h : 1 ≤ x) : 1 ≤ nearest x :=
  nearest_one.symm.trans_le (nearest_mono zero_lt_one h)

/-! ## Overflow -/

theorem binary64_eq_some {x y : ℚ} : binary64 x = some y ↔ nearest x < 2 ^ 1024 ∧ nearest x = y := by
  rw [binary64, Option.ite_none_right_eq_some, Option.some_inj]

/-- No number below one that does not overflow does. -/
theorem binary64_of_le {x y z : ℚ} (hx : 0 < x) (h : x ≤ y) (hy : binary64 y = some z) :
    binary64 x = some (nearest x) :=
  binary64_eq_some.mpr ⟨(nearest_mono hx h).trans_lt (binary64_eq_some.mp hy).1, rfl⟩

end Degenbot.Library
