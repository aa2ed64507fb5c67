import Degenbot.Verification.Balancer.Power

/-! # `pow_down`, `pow_up` and `_calc_out_given_in` -/

namespace Degenbot.WeightedMath

open Library LogExpMath

theorem one_cast : ((one : ℤ) : ℝ) = 10 ^ 18 := by norm_num [one]

/-! ## Fixed point -/

theorem mulDown_le {a b r : ℤ} (h : mulDown python a b = .ok r) : (r : ℝ) ≤ a * b / 10 ^ 18 := by
  unfold mulDown at h
  simp only [ite_error_eq_ok] at h
  have hr : (a * b).fdiv one = r := Except.ok.inj h.2.2
  have hle := fdiv_le_div (x := a * b) (by decide : 0 < one)
  rw [hr, one_cast] at hle
  exact_mod_cast hle

theorem mulDown_nonneg {a b r : ℤ} (ha : 0 ≤ a) (hb : 0 ≤ b) (h : mulDown python a b = .ok r) :
    0 ≤ r := by
  unfold mulDown at h
  simp only [ite_error_eq_ok] at h
  rw [← Except.ok.inj h.2.2]
  exact Int.fdiv_nonneg (mul_nonneg ha hb) (by decide)

theorem le_mulUp {a b r : ℤ} (h : mulUp python a b = .ok r) : (a * b / 10 ^ 18 : ℝ) ≤ r := by
  unfold mulUp at h
  by_cases hzero : a * b = 0
  · have hzero' : (a : ℝ) * b = 0 := by exact_mod_cast hzero
    rw [if_pos hzero] at h
    rw [← Except.ok.inj h, hzero']
    norm_num
  · rw [if_neg hzero, ite_error_eq_ok] at h
    have hr : (a * b - 1).fdiv one + 1 = r := Except.ok.inj h.2
    -- the quotient of the next smaller product is below by at least one unit
    have hceil : a * b ≤ r * one := by
      have hdiv : a * b - 1 < (r - 1 + 1) * one := by
        rw [← hr, add_sub_cancel_right, Int.fdiv_eq_ediv_of_nonneg _ (by decide)]
        exact Int.lt_ediv_add_one_mul_self _ (by decide)
      rw [sub_add_cancel] at hdiv
      omega
    rw [div_le_iff₀ (by norm_num), ← one_cast]
    exact_mod_cast hceil

theorem mulDown_error {a b : ℤ} {e : Exn} (h : mulDown python a b = .error e) : e = mulOverflow := by
  unfold mulDown at h
  dsimp only at h
  split at h
  · exact (Except.error.inj h).symm
  · split at h
    · exact (Except.error.inj h).symm
    · cases h

theorem mulUp_error {a b : ℤ} {e : Exn} (h : mulUp python a b = .error e) : e = mulOverflow := by
  unfold mulUp at h
  dsimp only at h
  split at h
  · cases h
  · split at h
    · exact (Except.error.inj h).symm
    · cases h

/-! ## The error term -/

/-- The error term is the relative error of the result, at least one unit of it where the result
is not zero, and one unit more. -/
theorem maxError_ok {raw m : ℤ} (hraw : 0 ≤ raw) (h : maxError python raw = .ok m) :
    (raw / 10 ^ 14 + 1 : ℝ) ≤ m ∧ (0 < raw → 2 ≤ m) ∧ m ≤ raw + 2 := by
  unfold maxError add at h
  rw [bind_eq_ok] at h
  obtain ⟨error, herror, h⟩ := h
  rw [ite_error_eq_ok] at h
  have hm := Except.ok.inj h.2
  have hle := le_mulUp herror
  have hrelative : (raw * maxPowRelativeError / 10 ^ 18 : ℝ) = raw / 10 ^ 14 := by
    norm_num [maxPowRelativeError]
    ring
  rw [hrelative] at hle
  refine ⟨?_, fun hpos => ?_, ?_⟩
  · rw [← hm]
    push_cast
    linarith
  · have hraw' : (0 : ℝ) < raw := by exact_mod_cast hpos
    have herrorPos : (0 : ℝ) < error := lt_of_lt_of_le (by positivity) hle
    have : 0 < error := by exact_mod_cast herrorPos
    omega
  · unfold mulUp at herror
    dsimp only at herror
    split at herror
    · have := Except.ok.inj herror
      omega
    · rw [ite_error_eq_ok] at herror
      have := Except.ok.inj herror.2
      have hsmall : (raw * maxPowRelativeError - 1).fdiv one ≤ raw := by
        rw [Int.fdiv_eq_ediv_of_nonneg _ (by decide)]
        refine Int.ediv_le_of_le_mul (by decide) ?_
        unfold maxPowRelativeError one
        omega
      simp only [python] at this
      omega

/-- Subtracting the error term gives a lower bound. -/
theorem sub_le_of_brackets {p : ℝ} {raw m : ℤ} (h : LogExpMath.Brackets (9 / 10 ^ 15) p raw)
    (hm : (raw / 10 ^ 14 + 1 : ℝ) ≤ m) : ((raw - m : ℤ) : ℝ) ≤ p := by
  obtain ⟨hraw, hle, -⟩ := h
  have hraw' : (0 : ℝ) < raw := by exact_mod_cast hraw
  push_cast
  norm_num at hle hm ⊢
  linarith

/-- Adding it gives an upper bound: the term is at least two units, and the relative error. -/
theorem le_add_of_brackets {p : ℝ} {raw m : ℤ} (h : LogExpMath.Brackets (9 / 10 ^ 15) p raw)
    (hm : (raw / 10 ^ 14 + 1 : ℝ) ≤ m) (hm' : 2 ≤ m) : p ≤ ((raw + m : ℤ) : ℝ) := by
  obtain ⟨hraw, -, hle⟩ := h
  have htwo : (2 : ℝ) ≤ m := by exact_mod_cast hm'
  have hraw' : (0 : ℝ) < raw := by exact_mod_cast hraw
  push_cast
  norm_num at hle hm ⊢
  nlinarith

/-! ## Powers of one, two and four -/

theorem realPow_one (x : ℤ) : realPow x one = x := by
  have hexponent : ((one : ℤ) / 10 ^ 18 : ℝ) = 1 := by norm_num [one]
  rw [realPow, hexponent, Real.rpow_one]
  ring

theorem realPow_two (x : ℤ) : realPow x two = x * x / 10 ^ 18 := by
  have hexponent : ((two : ℤ) / 10 ^ 18 : ℝ) = (2 : ℕ) := by norm_num [two]
  rw [realPow, hexponent, Real.rpow_natCast]
  ring

theorem realPow_four (x : ℤ) :
    realPow x four = (x * x / 10 ^ 18 : ℝ) * (x * x / 10 ^ 18) / 10 ^ 18 := by
  have hexponent : ((four : ℤ) / 10 ^ 18 : ℝ) = (4 : ℕ) := by norm_num [four]
  rw [realPow, hexponent, Real.rpow_natCast]
  ring

theorem realPow_nonneg {x : ℤ} (hx : 0 ≤ x) (y : ℤ) : 0 ≤ realPow x y := by
  have hx' : (0 : ℝ) ≤ x := by exact_mod_cast hx
  unfold realPow
  positivity

theorem realPow_zero {y : ℤ} (hy : y ≠ 0) : realPow 0 y = 0 := by
  have hy' : (y / 10 ^ 18 : ℝ) ≠ 0 := div_ne_zero (by exact_mod_cast hy) (by norm_num)
  rw [realPow, Int.cast_zero, zero_div, Real.zero_rpow hy', mul_zero]

/-! ## Directed powers -/

theorem powDown_le {x y d : ℤ} (hx : 0 ≤ x) (h : powDown python x y = .ok d) :
    (d : ℝ) ≤ realPow x y := by
  unfold powDown at h
  split_ifs at h with hone htwo hfour
  · rw [hone, realPow_one, Except.ok.inj h]
  · rw [htwo, realPow_two]
    exact mulDown_le h
  · rw [bind_eq_ok] at h
    obtain ⟨square, hsquare, h⟩ := h
    have hsquare0 : (0 : ℝ) ≤ square := by exact_mod_cast mulDown_nonneg hx hx hsquare
    have hle := mulDown_le hsquare
    rw [hfour, realPow_four]
    refine (mulDown_le h).trans ?_
    gcongr
  · simp only [bind_eq_ok] at h
    obtain ⟨raw, hraw, m, hm, h⟩ := h
    have hbrackets := pow_brackets hraw
    have hraw0 : 0 ≤ raw := by
      rcases hbrackets with ⟨-, -, hzero⟩ | hbrackets
      · exact hzero.ge
      · exact hbrackets.1.le
    have hmax := maxError_ok hraw0 hm
    split at h
    · rw [← Except.ok.inj h, Int.cast_zero]
      exact realPow_nonneg hx y
    · rename_i hle
      unfold sub at h
      rw [ite_error_eq_ok] at h
      rw [← Except.ok.inj h.2]
      rcases hbrackets with ⟨-, -, hzero⟩ | hbrackets
      · have hm := hmax.1
        rw [hzero, Int.cast_zero, zero_div, zero_add] at hm
        have hm' : 1 ≤ m := by exact_mod_cast hm
        omega
      · exact sub_le_of_brackets hbrackets hmax.1

theorem le_powUp {x y u : ℤ} (hx : 0 ≤ x) (h : powUp python x y = .ok u) :
    realPow x y ≤ u := by
  unfold powUp at h
  split_ifs at h with hone htwo hfour
  · rw [hone, realPow_one, Except.ok.inj h]
  · rw [htwo, realPow_two]
    exact le_mulUp h
  · rw [bind_eq_ok] at h
    obtain ⟨square, hsquare, h⟩ := h
    have hx' : (0 : ℝ) ≤ x := by exact_mod_cast hx
    have hle := le_mulUp hsquare
    rw [hfour, realPow_four]
    refine le_trans ?_ (le_mulUp h)
    have hsquare0 : (0 : ℝ) ≤ square := le_trans (by positivity) hle
    gcongr
  · simp only [bind_eq_ok] at h
    obtain ⟨raw, hraw, m, hm, h⟩ := h
    unfold add at h
    rw [ite_error_eq_ok] at h
    rw [← Except.ok.inj h.2]
    rcases pow_brackets hraw with ⟨hxZero, hy, hzero⟩ | hbrackets
    · have hmax := (maxError_ok hzero.ge hm).1
      rw [hxZero, realPow_zero hy]
      rw [hzero, Int.cast_zero, zero_div, zero_add] at hmax
      rw [hzero, zero_add]
      linarith
    · have hmax := maxError_ok hbrackets.1.le hm
      exact le_add_of_brackets hbrackets hmax.1 (hmax.2.1 hbrackets.1)

/-! ## Reverts -/

theorem maxError_error {raw : ℤ} {e : Exn} (h : maxError python raw = .error e) :
    e = mulOverflow := by
  unfold maxError at h
  refine error_of_bind (p := (· = mulOverflow)) h (fun _ => mulUp_error) fun error herror hadd => ?_
  have hsmall : error + 1 ≤ maxUint256 := by
    unfold mulUp at herror
    dsimp only at herror
    split at herror
    · rw [← Except.ok.inj herror]
      decide
    · rw [ite_error_eq_ok] at herror
      have hresult : (raw * maxPowRelativeError - 1).fdiv one + 1 = error :=
        Except.ok.inj herror.2
      have hquotient : (raw * maxPowRelativeError - 1).fdiv one ≤ maxUint256 - 2 := by
        rw [Int.fdiv_eq_ediv_of_nonneg _ (by decide)]
        refine Int.ediv_le_of_le_mul (by decide) ?_
        have hproduct := herror.1
        have hmax : maxUint256 ≤ (maxUint256 - 2) * one := by decide
        omega
      omega
  rw [add, if_neg (not_lt.mpr hsmall)] at hadd
  cases hadd

theorem powDown_error {x y raw : ℤ} {e : Exn} (hraw : pow python x y = .ok raw)
    (h : powDown python x y = .error e) : e = mulOverflow := by
  unfold powDown at h
  split_ifs at h with hone htwo hfour
  · exact mulDown_error h
  · exact error_of_bind (p := (· = mulOverflow)) h (fun _ => mulDown_error) fun _ _ => mulDown_error
  · rw [hraw, ok_bind] at h
    refine error_of_bind (p := (· = mulOverflow)) h (fun _ => maxError_error) fun m _ hm => ?_
    split at hm
    · cases hm
    · rename_i hle
      rw [sub, if_neg hle] at hm
      cases hm

theorem powUp_error {x y raw : ℤ} {e : Exn} (hraw : pow python x y = .ok raw)
    (h : powUp python x y = .error e) : e = mulOverflow := by
  unfold powUp at h
  split_ifs at h with hone htwo hfour
  · exact mulUp_error h
  · exact error_of_bind (p := (· = mulOverflow)) h (fun _ => mulUp_error) fun _ _ => mulUp_error
  · rw [hraw, ok_bind] at h
    refine error_of_bind (p := (· = mulOverflow)) h (fun _ => maxError_error) fun m hm hadd => ?_
    have hraw0 : 0 ≤ raw := by
      rcases pow_brackets hraw with ⟨-, -, hzero⟩ | hbrackets
      · exact hzero.ge
      · exact hbrackets.1.le
    have hle := (maxError_ok hraw0 hm).2.2
    have hfits : raw * maxPowRelativeError ≤ maxUint256 := by
      unfold maxError mulUp at hm
      rw [bind_eq_ok] at hm
      obtain ⟨error, herror, -⟩ := hm
      dsimp only at herror
      split at herror
      · rename_i hzero
        rw [hzero]
        decide
      · rw [ite_error_eq_ok] at herror
        exact not_lt.mp herror.1
    rw [add, if_neg ?_] at hadd
    · cases hadd
    · unfold maxPowRelativeError maxUint256 at hfits
      unfold maxUint256
      omega

/-! ## Swaps -/

theorem le_divUp {a b r : ℤ} (hb : 0 ≤ b) (h : divUp python a b = .ok r) :
    0 < b ∧ (a / b : ℝ) ≤ r / 10 ^ 18 := by
  unfold divUp at h
  rw [ite_error_eq_ok] at h
  have hpos : 0 < b := by omega
  have hb' : (0 : ℝ) < b := by exact_mod_cast hpos
  refine ⟨hpos, ?_⟩
  by_cases ha : a = 0
  · rw [if_pos ha] at h
    rw [ha, ← Except.ok.inj h.2]
    norm_num
  · rw [if_neg ha, ite_error_eq_ok] at h
    have hr : (a * one - 1).fdiv b + 1 = r := Except.ok.inj h.2.2
    have hceil : a * one ≤ r * b := by
      have hdiv : a * one - 1 < (r - 1 + 1) * b := by
        rw [← hr, add_sub_cancel_right, Int.fdiv_eq_ediv_of_nonneg _ hpos.le]
        exact Int.lt_ediv_add_one_mul_self _ hpos
      rw [sub_add_cancel] at hdiv
      omega
    have hceil' : (a * 10 ^ 18 : ℝ) ≤ r * b := by
      rw [← one_cast]
      exact_mod_cast hceil
    rw [div_le_div_iff₀ hb' (by norm_num)]
    linarith

theorem divDown_le {a b r : ℤ} (ha : 0 ≤ a) (hb : 0 ≤ b) (h : divDown python a b = .ok r) :
    0 ≤ r ∧ (r / 10 ^ 18 : ℝ) ≤ a / b := by
  unfold divDown at h
  rw [ite_error_eq_ok] at h
  have hpos : 0 < b := by omega
  have hb' : (0 : ℝ) < b := by exact_mod_cast hpos
  by_cases hzero : a = 0
  · rw [if_pos hzero] at h
    rw [hzero, ← Except.ok.inj h.2]
    norm_num
  · rw [if_neg hzero, ite_error_eq_ok] at h
    have hr : (a * one).fdiv b = r := Except.ok.inj h.2.2
    have hle := fdiv_le_div (x := a * one) hpos
    rw [hr, Int.cast_mul, one_cast] at hle
    refine ⟨?_, ?_⟩
    · rw [← hr]
      exact Int.fdiv_nonneg (mul_nonneg ha (by decide)) hb
    · rw [div_le_iff₀ (by norm_num)]
      refine hle.trans (le_of_eq ?_)
      ring

/-- The power of a smaller base, not above one, with a larger exponent. -/
theorem rpow_le_realPow {base exponent : ℤ} {b w : ℝ} (hb : 0 ≤ b) (hb' : b ≤ 1)
    (hbase : b ≤ base / 10 ^ 18) (hexponent : 0 ≤ exponent) (hw : exponent / 10 ^ 18 ≤ w) :
    10 ^ 18 * b ^ w ≤ realPow base exponent := by
  have hexponent' : (0 : ℝ) ≤ exponent / 10 ^ 18 := by
    have : (0 : ℝ) ≤ exponent := by exact_mod_cast hexponent
    positivity
  unfold realPow
  gcongr
  calc b ^ w ≤ b ^ (exponent / 10 ^ 18 : ℝ) :=
        Real.rpow_le_rpow_of_exponent_ge' hb hb' hexponent' hw
    _ ≤ (base / 10 ^ 18 : ℝ) ^ (exponent / 10 ^ 18 : ℝ) := by gcongr

theorem calcOutGivenIn_le (balanceIn weightIn balanceOut weightOut amountIn : ℕ) {out : ℤ}
    (h : calcOutGivenIn python balanceIn weightIn balanceOut weightOut amountIn = .ok out) :
    (out : ℝ) ≤ balanceOut * (1 -
      (balanceIn / (balanceIn + amountIn) : ℝ) ^ (weightIn / weightOut : ℝ)) := by
  unfold calcOutGivenIn at h
  simp only [bind_eq_ok, ite_error_eq_ok] at h
  obtain ⟨-, -, -, base, hbase, exponent, hexponent, power, hpower, h⟩ := h
  obtain ⟨hden, hbase⟩ := le_divUp (by positivity) hbase
  obtain ⟨hexponent0, hexponent⟩ := divDown_le (by positivity) (by positivity) hexponent
  push_cast at hbase hexponent
  have hden' : (0 : ℝ) < balanceIn + amountIn := by exact_mod_cast hden
  have hratio : (0 : ℝ) ≤ balanceIn / (balanceIn + amountIn) := by positivity
  have hratio' : (balanceIn / (balanceIn + amountIn) : ℝ) ≤ 1 := by
    rw [div_le_one hden']
    have : (0 : ℝ) ≤ amountIn := Nat.cast_nonneg _
    linarith
  have hbase0 : 0 ≤ base := by
    have : (0 : ℝ) ≤ base := by
      have := hratio.trans hbase
      rwa [le_div_iff₀ (by norm_num), zero_mul] at this
    exact_mod_cast this
  have hpowerLe := (rpow_le_realPow hratio hratio' hbase hexponent0 hexponent).trans
    (le_powUp hbase0 hpower)
  have hone : (balanceIn / (balanceIn + amountIn) : ℝ) ^ (weightIn / weightOut : ℝ) ≤ 1 :=
    Real.rpow_le_one hratio hratio' (by positivity)
  have hcomplement : (complement power : ℝ) ≤ 10 ^ 18 * (1 -
      (balanceIn / (balanceIn + amountIn) : ℝ) ^ (weightIn / weightOut : ℝ)) := by
    unfold complement
    split
    · push_cast [one_cast]
      linarith
    · rw [Int.cast_zero]
      exact mul_nonneg (by norm_num) (by linarith)
  refine (mulDown_le h).trans ?_
  push_cast
  rw [div_le_iff₀ (by norm_num)]
  calc (balanceOut : ℝ) * complement power ≤ balanceOut * (10 ^ 18 * (1 -
        (balanceIn / (balanceIn + amountIn) : ℝ) ^ (weightIn / weightOut : ℝ))) := by gcongr
    _ = _ := by ring

/-! ## Every accepted power -/

theorem nonneg_of_pow {x y raw : ℤ} (h : pow python x y = .ok raw) : 0 ≤ x ∨ y = 0 := by
  unfold pow at h
  by_cases hy : y = 0
  · exact .inr hy
  · rw [if_neg hy] at h
    by_cases hx : x = 0
    · exact .inl hx.ge
    · rw [if_neg hx] at h
      simp only [ite_error_eq_ok, bind_eq_ok, not_le, ge_iff_le] at h
      obtain ⟨hx', -, product, hproduct, -⟩ := h
      exact .inl (logTimes_within hx hx' hproduct).1.le

/-- The power zero does not depend on the base. -/
theorem realPow_exponent_zero (x : ℤ) : realPow x 0 = realPow 0 0 := by
  simp [realPow]

theorem powDown_exponent_zero (x : ℤ) : powDown python x 0 = powDown python 0 0 := by
  simp [powDown, pow, one, two, four]

theorem powUp_exponent_zero (x : ℤ) : powUp python x 0 = powUp python 0 0 := by
  simp [powUp, pow, one, two, four]

theorem powDown_brackets {x y raw : ℤ} (hraw : pow python x y = .ok raw) :
    (∃ d, powDown python x y = .ok d ∧ (d : ℝ) ≤ realPow x y) ∨
      powDown python x y = .error mulOverflow := by
  cases h : powDown python x y with
  | error e =>
      rw [powDown_error hraw h]
      exact .inr rfl
  | ok d =>
      refine .inl ⟨d, rfl, ?_⟩
      rcases nonneg_of_pow hraw with hx | hy
      · exact powDown_le hx h
      · rw [hy, powDown_exponent_zero] at h
        rw [hy, realPow_exponent_zero]
        exact powDown_le le_rfl h

theorem powUp_brackets {x y raw : ℤ} (hraw : pow python x y = .ok raw) :
    (∃ u, powUp python x y = .ok u ∧ realPow x y ≤ u) ∨
      powUp python x y = .error mulOverflow := by
  cases h : powUp python x y with
  | error e =>
      rw [powUp_error hraw h]
      exact .inr rfl
  | ok u =>
      refine .inl ⟨u, rfl, ?_⟩
      rcases nonneg_of_pow hraw with hx | hy
      · exact le_powUp hx h
      · rw [hy, powUp_exponent_zero] at h
        rw [hy, realPow_exponent_zero]
        exact le_powUp le_rfl h

/-- The directed powers bracket the real one unless they overflow, and a swap never pays out more
than the exact weighted product. -/
theorem directedPowers_bracket :
    (∀ x y raw : ℤ, pow python x y = .ok raw →
      ((∃ d : ℤ, powDown python x y = .ok d ∧
          d ≤ (10 ^ 18 * (x / 10 ^ 18 : ℝ) ^ (y / 10 ^ 18 : ℝ) : ℝ)) ∨
        powDown python x y = .error mulOverflow) ∧
      ((∃ u : ℤ, powUp python x y = .ok u ∧
          (10 ^ 18 * (x / 10 ^ 18 : ℝ) ^ (y / 10 ^ 18 : ℝ) : ℝ) ≤ u) ∨
        powUp python x y = .error mulOverflow)) ∧
    ∀ (balanceIn weightIn balanceOut weightOut amountIn : ℕ) (out : ℤ),
      calcOutGivenIn python balanceIn weightIn balanceOut weightOut amountIn = .ok out →
        (out : ℝ) ≤ balanceOut * (1 -
          (balanceIn / (balanceIn + amountIn) : ℝ) ^ (weightIn / weightOut : ℝ)) :=
  ⟨fun _ _ _ hraw => ⟨powDown_brackets hraw, powUp_brackets hraw⟩, fun _ _ _ _ _ _ h =>
    calcOutGivenIn_le _ _ _ _ _ h⟩

theorem directedPowers_bracket_sample :
    ((1414213562373080903 : ℤ) : ℝ) ≤
        10 ^ 18 * ((2 * 10 ^ 18 : ℤ) / 10 ^ 18 : ℝ) ^ ((5 * 10 ^ 17 : ℤ) / 10 ^ 18 : ℝ) ∧
      10 ^ 18 * ((2 * 10 ^ 18 : ℤ) / 10 ^ 18 : ℝ) ^ ((5 * 10 ^ 17 : ℤ) / 10 ^ 18 : ℝ) ≤
        ((1414213562373109191 : ℤ) : ℝ) ∧
      ((13092638198885939000 : ℤ) : ℝ) ≤ ((500 * 10 ^ 18 : ℕ) : ℝ) * (1 -
        ((1000 * 10 ^ 18 : ℕ) / ((1000 * 10 ^ 18 : ℕ) + (10 ^ 19 : ℕ)) : ℝ) ^
          ((8 * 10 ^ 17 : ℕ) / (3 * 10 ^ 17 : ℕ) : ℝ)) := by
  have hraw : pow python (2 * 10 ^ 18) (5 * 10 ^ 17) = .ok 1414213562373095047 := by decide
  have hdown : powDown python (2 * 10 ^ 18) (5 * 10 ^ 17) = .ok 1414213562373080903 := by
    decide
  have hup : powUp python (2 * 10 ^ 18) (5 * 10 ^ 17) = .ok 1414213562373109191 := by
    decide
  obtain ⟨hpowers, hswaps⟩ := directedPowers_bracket
  obtain ⟨hlow, hhigh⟩ := hpowers _ _ _ hraw
  refine ⟨?_, ?_, hswaps _ _ _ _ _ _ (by decide)⟩
  · rcases hlow with ⟨d, hd, hle⟩ | herror
    · rw [hdown] at hd
      rwa [Except.ok.inj hd]
    · rw [hdown] at herror
      cases herror
  · rcases hhigh with ⟨u, hu, hle⟩ | herror
    · rw [hup] at hu
      rwa [Except.ok.inj hu]
    · rw [hup] at herror
      cases herror

/-- `pow` accepts a result to which the error term cannot be added. -/
theorem powUp_overflow :
    (pow python (2 * 10 ^ 73) (10 ^ 18 + 1)).isOk = true ∧
      powDown python (2 * 10 ^ 73) (10 ^ 18 + 1) = .error mulOverflow ∧
      powUp python (2 * 10 ^ 73) (10 ^ 18 + 1) = .error mulOverflow := by
  decide

end Degenbot.WeightedMath
