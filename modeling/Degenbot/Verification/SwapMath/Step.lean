import Degenbot.Verification.SwapMath.Deltas

/-! # One swap step of the V3 library

The price reached by a partial step, and the three facts a caller relies on: the price
stays between the current price and the target, the amounts stay within what remains,
and a step that stops short of its target exhausts what remains. -/

namespace Degenbot

open Library

/-- The price after `amount` of input, rounded against the swapper. The last branch of
the first case is the failsafe for products beyond 256 bits. -/
def priceFromInput (zeroForOne : Bool) (current liquidity amount : ℤ) : ℤ :=
  let numerator1 := liquidity * q96
  if zeroForOne then
    if amount = 0 then current
    else if amount * current < maxUint256 then
      ceilDiv (numerator1 * current) (numerator1 + amount * current)
    else ceilDiv numerator1 (numerator1 / current + amount)
  else current + amount * q96 / liquidity

/-- The price after `amount` of output, rounded against the swapper. -/
def priceFromOutput (zeroForOne : Bool) (current liquidity amount : ℤ) : ℤ :=
  let numerator1 := liquidity * q96
  if zeroForOne then current - ceilDiv (amount * q96) liquidity
  else ceilDiv (numerator1 * current) (numerator1 - amount * current)

/-- The exact-input amount after the fee. -/
def lessFee (remaining fee : ℤ) : ℤ := remaining * (1000000 - fee) / 1000000

/-! ## Partial steps stop short of the target -/

section Partial

variable {current target liquidity amount : ℤ}

/-- The exact quotient for an amount that cannot pay for the target lies above it. -/
theorem lt_exactQuotient (hL : 0 < liquidity) (hc : 0 < current) (ht : 0 < target)
    (ha : 0 ≤ amount) (hlt : amount < inputAmount true liquidity current target) :
    target < ceilDiv (liquidity * q96 * current) (liquidity * q96 + amount * current) := by
  simp only [inputAmount, if_true, lt_ceilDiv_iff ht, lt_ceilDiv_iff hc] at hlt
  have hN : 0 < liquidity * q96 := mul_pos hL q96_pos
  have hden : 0 < liquidity * q96 + amount * current := by positivity
  rw [lt_ceilDiv_iff hden]
  linarith

theorem exactQuotient_le (hL : 0 < liquidity) (hc : 0 < current) (ha : 0 ≤ amount) :
    ceilDiv (liquidity * q96 * current) (liquidity * q96 + amount * current) ≤ current := by
  have hN : 0 < liquidity * q96 := mul_pos hL q96_pos
  have hden : 0 < liquidity * q96 + amount * current := by positivity
  rw [ceilDiv_le_iff hden]
  have hsq : 0 ≤ current * (amount * current) := by positivity
  linarith

/-- An amount that cannot pay for the target leaves the price strictly above it. -/
theorem lt_priceFromInput_down (hL : 0 < liquidity) (hc : 0 < current) (ht : 0 < target)
    (ha : 0 ≤ amount) (hlt : amount < inputAmount true liquidity current target) :
    target < priceFromInput true current liquidity amount := by
  have hquot := lt_exactQuotient hL hc ht ha hlt
  simp only [inputAmount, if_true, lt_ceilDiv_iff ht, lt_ceilDiv_iff hc] at hlt
  have hN : 0 < liquidity * q96 := mul_pos hL q96_pos
  simp only [priceFromInput, if_true]
  split_ifs with hzero hfit
  · subst hzero
    nlinarith
  · exact hquot
  · have hfloor : 0 ≤ liquidity * q96 / current := Int.ediv_nonneg hN.le hc.le
    have hden : 0 < liquidity * q96 / current + amount := by omega
    rw [lt_ceilDiv_iff hden]
    have hmul := Int.ediv_mul_le (liquidity * q96) hc.ne'
    have hscaled : target * (liquidity * q96 / current + amount) * current <
        liquidity * q96 * current := by nlinarith
    exact lt_of_mul_lt_mul_right hscaled hc.le

theorem priceFromInput_down_le (hL : 0 < liquidity) (hc : 0 < current) (ha : 0 ≤ amount) :
    priceFromInput true current liquidity amount ≤ current := by
  have hN : 0 < liquidity * q96 := mul_pos hL q96_pos
  simp only [priceFromInput, if_true]
  split_ifs with hzero hfit
  · exact le_rfl
  · exact exactQuotient_le hL hc ha
  · have hfloor : 0 ≤ liquidity * q96 / current := Int.ediv_nonneg hN.le hc.le
    have hden : 0 < liquidity * q96 / current + amount := by omega
    rw [ceilDiv_le_iff hden]
    have hlt := Int.lt_ediv_add_one_mul_self (liquidity * q96) hc
    have hone : 1 ≤ amount := by omega
    nlinarith

theorem priceFromInput_up_lt (hL : 0 < liquidity)
    (hlt : amount < inputAmount false liquidity current target) :
    priceFromInput false current liquidity amount < target := by
  simp only [inputAmount, Bool.false_eq_true, if_false, lt_ceilDiv_iff q96_pos] at hlt
  simp only [priceFromInput, Bool.false_eq_true, if_false]
  have hquot : amount * q96 / liquidity < target - current := by
    rw [Int.ediv_lt_iff_lt_mul hL]
    linarith
  linarith

theorem le_priceFromInput_up (hL : 0 < liquidity) (ha : 0 ≤ amount) :
    current ≤ priceFromInput false current liquidity amount := by
  simp only [priceFromInput, Bool.false_eq_true, if_false]
  have hquot : 0 ≤ amount * q96 / liquidity :=
    Int.ediv_nonneg (mul_nonneg ha q96_pos.le) hL.le
  linarith

theorem le_priceFromOutput_down (hL : 0 < liquidity)
    (hlt : amount < outputAmount true liquidity current target) :
    target ≤ priceFromOutput true current liquidity amount := by
  simp only [outputAmount, if_true] at hlt
  have hmul : (amount + 1) * q96 ≤ liquidity * (current - target) :=
    (Int.le_ediv_iff_mul_le q96_pos).mp hlt
  simp only [priceFromOutput, if_true]
  have hceil : ceilDiv (amount * q96) liquidity ≤ current - target := by
    rw [ceilDiv_le_iff hL]
    linarith [q96_pos]
  linarith

theorem priceFromOutput_up_le (hc : 0 < current) (ht : 0 < target)
    (hden : amount * current < liquidity * q96)
    (hlt : amount < outputAmount false liquidity current target) :
    priceFromOutput false current liquidity amount ≤ target := by
  simp only [outputAmount, Bool.false_eq_true, if_false] at hlt
  have hmul : (amount + 1) * current ≤ liquidity * q96 * (target - current) / target :=
    (Int.le_ediv_iff_mul_le hc).mp hlt
  have hmul' := (Int.le_ediv_iff_mul_le ht).mp hmul
  simp only [priceFromOutput, Bool.false_eq_true, if_false]
  rw [ceilDiv_le_iff (by linarith)]
  have hpos : 0 < current * target := mul_pos hc ht
  linarith

theorem le_priceFromOutput_up (hc : 0 < current) (ha : 0 ≤ amount)
    (hden : amount * current < liquidity * q96) :
    current ≤ priceFromOutput false current liquidity amount := by
  simp only [priceFromOutput, Bool.false_eq_true, if_false]
  have hpos : 0 < liquidity * q96 - amount * current := by linarith
  have hmul := le_ceilDiv_mul (a := liquidity * q96 * current) hpos
  have hle : current * (liquidity * q96 - amount * current) ≤
      ceilDiv (liquidity * q96 * current) (liquidity * q96 - amount * current) *
        (liquidity * q96 - amount * current) := by
    have hsq : 0 ≤ current * (amount * current) := by positivity
    linarith
  exact le_of_mul_le_mul_right hle hpos

/-! ## The price after an output releases at least that output -/

theorem le_outputAmount_priceFromOutput_down (hL : 0 < liquidity) :
    amount ≤ outputAmount true liquidity current
      (priceFromOutput true current liquidity amount) := by
  simp only [outputAmount, priceFromOutput, if_true]
  rw [Int.le_ediv_iff_mul_le q96_pos]
  have hceil := le_ceilDiv_mul (a := amount * q96) hL
  linarith

theorem le_outputAmount_priceFromOutput_up (hc : 0 < current) (ha : 0 ≤ amount)
    (hden : amount * current < liquidity * q96) :
    amount ≤ outputAmount false liquidity current
      (priceFromOutput false current liquidity amount) := by
  have hge := le_priceFromOutput_up hc ha hden
  have hnext : 0 < priceFromOutput false current liquidity amount := by linarith
  simp only [outputAmount, Bool.false_eq_true, if_false]
  rw [Int.le_ediv_iff_mul_le hc, Int.le_ediv_iff_mul_le hnext]
  simp only [priceFromOutput, Bool.false_eq_true, if_false]
  have hceil := le_ceilDiv_mul (a := liquidity * q96 * current)
    (b := liquidity * q96 - amount * current) (by linarith)
  linarith

end Partial

namespace V3

/-! ## The price functions -/

theorem getNextSqrtPriceFromInput_eq_ok {current liquidity amount next : ℤ} {z : Bool}
    (ha : 0 ≤ amount)
    (h : getNextSqrtPriceFromInput current liquidity amount z = .ok next) :
    0 < current ∧ 0 < liquidity ∧ next = priceFromInput z current liquidity amount := by
  simp only [getNextSqrtPriceFromInput, ite_error_eq_ok, not_not] at h
  obtain ⟨hc, hL, h⟩ := h
  refine ⟨hc, hL, ?_⟩
  have hN : 0 < liquidity * q96 := mul_pos hL q96_pos
  cases z with
  | true =>
      have hprod : 0 ≤ amount * current := mul_nonneg ha hc.le
      simp only [if_true, getNextSqrtPriceFromAmount0RoundingUp, ge_iff_le,
        le_add_iff_nonneg_right, hprod, and_true] at h
      simp only [priceFromInput, if_true]
      split_ifs at h ⊢ with hzero hfit
      · exact (Except.ok.inj h).symm
      · exact (muldivRoundingUp_eq_ok_iff.mp h).2.2.2.1
      · simp only [floorDivide, hc.ne', if_false, ok_bind, Except.ok.injEq,
          Int.fdiv_eq_ediv_of_nonneg _ hc.le] at h
        have hfloor : 0 ≤ liquidity * q96 / current := Int.ediv_nonneg hN.le hc.le
        rw [← h, divRoundingUp_eq (by omega)]
  | false =>
      simp only [Bool.false_eq_true, if_false, getNextSqrtPriceFromAmount1RoundingDown, if_true,
        bind_eq_ok, toUint160_eq_ok_iff] at h
      obtain ⟨q, hq, rfl, -⟩ := h
      simp only [priceFromInput, Bool.false_eq_true, if_false, add_right_inj]
      split_ifs at hq with hfit
      · simp only [floorDivide, hL.ne', if_false, Except.ok.injEq,
          Int.fdiv_eq_ediv_of_nonneg _ hL.le] at hq
        exact hq.symm
      · exact (muldiv_eq_ok_iff.mp hq).2.2.2.1

theorem getNextSqrtPriceFromOutput_eq_ok {current liquidity amount next : ℤ} {z : Bool}
    (ha : 0 < amount)
    (h : getNextSqrtPriceFromOutput current liquidity amount z = .ok next) :
    0 < current ∧ 0 < liquidity ∧ next = priceFromOutput z current liquidity amount ∧
      (z = true → 0 < next) ∧ (z = false → amount * current < liquidity * q96) := by
  simp only [getNextSqrtPriceFromOutput, ite_error_eq_ok, not_not] at h
  obtain ⟨hc, hL, h⟩ := h
  refine ⟨hc, hL, ?_⟩
  cases z with
  | true =>
      simp only [if_true, getNextSqrtPriceFromAmount1RoundingDown, Bool.false_eq_true, if_false,
        bind_eq_ok, ite_error_eq_ok, not_not, Except.ok.injEq] at h
      obtain ⟨q, hq, hpos, rfl⟩ := h
      refine ⟨?_, fun _ => by linarith, by simp⟩
      simp only [priceFromOutput, if_true, sub_right_inj]
      split_ifs at hq with hfit
      · rw [Except.ok.injEq, divRoundingUp_eq hL] at hq
        exact hq.symm
      · exact (muldivRoundingUp_eq_ok_iff.mp hq).2.2.2.1
  | false =>
      simp only [Bool.false_eq_true, if_false, getNextSqrtPriceFromAmount0RoundingUp, ha.ne',
        ite_error_eq_ok, not_not, bind_eq_ok, toUint160_eq_ok_iff,
        muldivRoundingUp_eq_ok_iff] at h
      obtain ⟨hgt, q, ⟨-, -, -, rfl, -⟩, rfl, -⟩ := h
      exact ⟨by simp [priceFromOutput], by simp, fun _ => hgt⟩

/-- The price after an output moves towards the target, and releases at least the
requested output. -/
theorem getNextSqrtPriceFromOutput_toward {current target liquidity amount next : ℤ} {z : Bool}
    (hdir : Toward z current target) (ha : 0 < amount)
    (hlt : amount < outputAmount z liquidity current target)
    (h : getNextSqrtPriceFromOutput current liquidity amount z = .ok next) :
    0 < next ∧ Toward z current next ∧ Toward z next target ∧
      amount ≤ outputAmount z liquidity current next := by
  obtain ⟨hc, hL, rfl, hpos, hden⟩ := getNextSqrtPriceFromOutput_eq_ok ha h
  cases z with
  | true =>
      have hge : target ≤ priceFromOutput true current liquidity amount :=
        le_priceFromOutput_down hL hlt
      have hle : priceFromOutput true current liquidity amount ≤ current := by
        simp only [priceFromOutput, if_true]
        have hnn := ceilDiv_nonneg (a := amount * q96) (b := liquidity)
          (mul_nonneg ha.le q96_pos.le) hL
        linarith
      exact ⟨hpos rfl, by simpa [Toward] using hle, by simpa [Toward] using hge,
        le_outputAmount_priceFromOutput_down hL⟩
  | false =>
      have hle : current ≤ target := by simpa [Toward] using hdir
      have hge := le_priceFromOutput_up hc ha.le (hden rfl)
      have hle' := priceFromOutput_up_le hc (hc.trans_le hle) (hden rfl) hlt
      exact ⟨hc.trans_le hge, by simpa [Toward] using hge, by simpa [Toward] using hle',
        le_outputAmount_priceFromOutput_up hc ha.le (hden rfl)⟩

/-! ## The step -/

/-- The two outcomes of an exact-input step: the target is paid for, or the input left
after the fee is spent and the price stops strictly before the target. -/
theorem computeSwapStep_exactIn {current target liquidity remaining fee : ℤ} {step : SwapStep}
    (hrem : 0 ≤ remaining)
    (h : computeSwapStep current target liquidity remaining fee = .ok step) :
    let z := decide (current ≥ target)
    let less := remaining * (1000000 - fee) / 1000000
    0 ≤ liquidity ∧ 0 < current ∧ 0 < target ∧
      ((inputAmount z liquidity current target ≤ less ∧ (0 ≤ fee ∧ fee < 1000000) ∧
          step = ⟨target, inputAmount z liquidity current target,
            outputAmount z liquidity current target,
            ceilDiv (inputAmount z liquidity current target * fee) (1000000 - fee)⟩) ∨
        (0 ≤ less ∧ less < inputAmount z liquidity current target ∧ 0 < liquidity ∧
          priceFromInput z current liquidity less ≠ target ∧
          Toward z current (priceFromInput z current liquidity less) ∧
          Toward z (priceFromInput z current liquidity less) target ∧
          step = ⟨priceFromInput z current liquidity less,
            inputAmount z liquidity current (priceFromInput z current liquidity less),
            outputAmount z liquidity current (priceFromInput z current liquidity less),
            remaining - inputAmount z liquidity current
              (priceFromInput z current liquidity less)⟩)) := by
  intro z less
  have hdir : Toward z current target := toward_of_ge current target
  simp only [computeSwapStep, ite_error_eq_ok, not_not, bind_eq_ok] at h
  obtain ⟨hL, ⟨atTarget, next⟩, hprice, amountIn, hin, amountOut, hout, feeAmount, hfee, h⟩ := h
  have hexact : decide (remaining ≥ 0) = true := by simpa using hrem
  simp only [hexact, computeNextPrice, if_true, bind_eq_ok, muldiv_eq_ok_iff] at hprice
  obtain ⟨less', ⟨-, ⟨hfee1, -⟩, -, rfl, -⟩, atTarget', htarget, hprice⟩ := hprice
  change inputDelta z _ _ _ = _ at htarget
  obtain ⟨htpos, rfl⟩ := inputDelta_eq_ok hdir htarget
  have hless : 0 ≤ less := Int.ediv_nonneg (mul_nonneg hrem hfee1) (by norm_num)
  change (if less ≥ _ then _ else _) = _ at hprice
  by_cases hreach : less ≥ inputAmount z liquidity current target
  · simp only [hreach, if_true, Except.ok.injEq, Prod.mk.injEq] at hprice
    obtain ⟨rfl, rfl⟩ := hprice
    simp only [hexact, decide_true, Bool.and_self, if_true, Except.ok.injEq] at hin
    subst hin
    simp only [hexact, Bool.not_true, Bool.and_false, Bool.false_eq_true, if_false] at hout
    change outputDelta z _ _ _ = _ at hout
    obtain ⟨hcpos, rfl⟩ := outputDelta_eq_ok hdir hout
    simp only [ne_eq, not_true_eq_false, decide_false, Bool.and_false, Bool.false_eq_true,
      if_false, muldivRoundingUp_eq_ok_iff] at hfee
    obtain ⟨-, ⟨hfee0, -⟩, ⟨hfee1', -⟩, rfl, -⟩ := hfee
    simp only [hexact, Bool.not_true, Bool.false_and, Bool.false_eq_true, if_false,
      Except.ok.injEq] at h
    have hpos : 0 < current ∧ 0 < target := by
      cases hz : z with
      | true =>
          have hle : target ≤ current := by simpa [hz, Toward] using hdir
          exact ⟨(htpos hz).trans_le hle, htpos hz⟩
      | false =>
          have hle : current ≤ target := by simpa [hz, Toward] using hdir
          exact ⟨hcpos hz, (hcpos hz).trans_le hle⟩
    exact ⟨hL, hpos.1, hpos.2, .inl ⟨hreach, ⟨hfee0, by linarith⟩, h.symm⟩⟩
  · simp only [hreach, if_false, bind_eq_ok, Except.ok.injEq, Prod.mk.injEq] at hprice
    obtain ⟨next', hnext, rfl, rfl⟩ := hprice
    obtain ⟨hc, hLpos, rfl⟩ := getNextSqrtPriceFromInput_eq_ok hless hnext
    have hlt : less < inputAmount z liquidity current target := not_le.mp hreach
    change (if (decide (target = priceFromInput z current liquidity less) && _) = true then _
      else inputDelta z _ (priceFromInput z current liquidity less) _) = _ at hin
    change (if (decide (target = priceFromInput z current liquidity less) && _) = true then _
      else outputDelta z _ (priceFromInput z current liquidity less) _) = _ at hout
    have hstop : priceFromInput z current liquidity less ≠ target ∧
        Toward z current (priceFromInput z current liquidity less) ∧
        Toward z (priceFromInput z current liquidity less) target ∧ 0 < target := by
      cases hz : z with
      | true =>
          rw [hz] at hlt
          have hgt := lt_priceFromInput_down hLpos hc (htpos hz) hless hlt
          have hle : priceFromInput true current liquidity less ≤ current :=
            priceFromInput_down_le hLpos hc hless
          exact ⟨hgt.ne', by simpa [Toward] using hle, by simpa [Toward] using hgt.le, htpos hz⟩
      | false =>
          rw [hz] at hlt
          have hlt' := priceFromInput_up_lt hLpos hlt
          have hge : current ≤ priceFromInput false current liquidity less :=
            le_priceFromInput_up hLpos hless
          exact ⟨hlt'.ne, by simpa [Toward] using hge, by simpa [Toward] using hlt'.le,
            by linarith⟩
    obtain ⟨hne, hdir', hdir'', ht⟩ := hstop
    simp only [hne.symm, decide_false, Bool.false_and, Bool.false_eq_true, if_false] at hin hout
    obtain ⟨-, rfl⟩ := inputDelta_eq_ok hdir' hin
    obtain ⟨-, rfl⟩ := outputDelta_eq_ok hdir' hout
    change (if (decide (remaining ≥ 0) && decide (priceFromInput z current liquidity less ≠ target))
      = true then _ else _) = _ at hfee
    simp only [hexact, hne, ne_eq, not_false_eq_true, decide_true, Bool.and_self, if_true,
      Except.ok.injEq] at hfee
    subst hfee
    simp only [hexact, Bool.not_true, Bool.false_and, Bool.false_eq_true, if_false,
      Except.ok.injEq] at h
    exact ⟨hL, hc, ht, .inr ⟨hless, hlt, hLpos, hne, hdir', hdir'', h.symm⟩⟩

/-- The two outcomes of an exact-output step: the target releases no more than asked, or
the price stops where the whole output has been released. -/
theorem computeSwapStep_exactOut {current target liquidity remaining fee : ℤ} {step : SwapStep}
    (hrem : remaining < 0)
    (h : computeSwapStep current target liquidity remaining fee = .ok step) :
    let z := decide (current ≥ target)
    let next := step.sqrtRatioNextX96
    0 ≤ liquidity ∧ 0 < current ∧ 0 < next ∧ Toward z current next ∧ Toward z next target ∧
      (0 ≤ fee ∧ fee < 1000000) ∧ step.amountIn = inputAmount z liquidity current next ∧
      step.feeAmount = ceilDiv (inputAmount z liquidity current next * fee) (1000000 - fee) ∧
      ((outputAmount z liquidity current target ≤ -remaining ∧ next = target ∧
          step.amountOut = outputAmount z liquidity current target) ∨
        (-remaining < outputAmount z liquidity current target ∧ 0 < liquidity ∧
          next = priceFromOutput z current liquidity (-remaining) ∧
          step.amountOut = -remaining)) := by
  intro z next
  have hdir : Toward z current target := toward_of_ge current target
  simp only [computeSwapStep, ite_error_eq_ok, not_not, bind_eq_ok] at h
  obtain ⟨hL, ⟨atTarget, next'⟩, hprice, amountIn, hin, amountOut, hout, feeAmount, hfee, h⟩ := h
  have hexact : decide (remaining ≥ 0) = false := by simpa using hrem
  simp only [hexact, Bool.and_false, Bool.false_eq_true, if_false] at hin
  simp only [hexact, Bool.false_and, Bool.false_eq_true, if_false,
    muldivRoundingUp_eq_ok_iff] at hfee
  obtain ⟨-, ⟨hfee0, -⟩, ⟨hfee1, -⟩, rfl, -⟩ := hfee
  simp only [hexact, Bool.not_false, Bool.true_and, Except.ok.injEq] at h
  have hnext : next = next' := by simp [next, ← h]
  simp only [hexact, computeNextPrice, Bool.false_eq_true, if_false, bind_eq_ok] at hprice
  obtain ⟨atTarget', htarget, hprice⟩ := hprice
  change outputDelta z _ _ _ = _ at htarget
  obtain ⟨hcpos, rfl⟩ := outputDelta_eq_ok hdir htarget
  change inputDelta z _ _ _ = _ at hin
  by_cases hreach : -remaining ≥ outputAmount z liquidity current target
  · simp only [hreach, if_true, Except.ok.injEq, Prod.mk.injEq] at hprice
    obtain ⟨rfl, rfl⟩ := hprice
    simp only [hexact, decide_true, Bool.not_false, Bool.and_self, if_true,
      Except.ok.injEq] at hout
    subst hout
    obtain ⟨htpos, rfl⟩ := inputDelta_eq_ok hdir hin
    have hpos : 0 < current ∧ 0 < target := by
      cases hz : z with
      | true =>
          have hle : target ≤ current := by simpa [hz, Toward] using hdir
          exact ⟨(htpos hz).trans_le hle, htpos hz⟩
      | false =>
          have hle : current ≤ target := by simpa [hz, Toward] using hdir
          exact ⟨hcpos hz, (hcpos hz).trans_le hle⟩
    rw [hnext]
    refine ⟨hL, hpos.1, hpos.2, hdir, toward_refl z target, ⟨hfee0, by linarith⟩, ?_, ?_,
      .inl ⟨hreach, rfl, ?_⟩⟩
    · simp [← h]
    · simp [← h]
    · simp [← h, not_lt.mpr hreach]
  · have hlt : -remaining < outputAmount z liquidity current target := not_le.mp hreach
    simp only [hreach, if_false, bind_eq_ok, Except.ok.injEq, Prod.mk.injEq] at hprice
    obtain ⟨next'', hprice, rfl, rfl⟩ := hprice
    obtain ⟨hc, hLpos, hclosed, -, -⟩ :=
      getNextSqrtPriceFromOutput_eq_ok (by linarith) hprice
    change next'' = priceFromOutput z current liquidity (-remaining) at hclosed
    obtain ⟨hpos, hdir', hdir'', hreleased⟩ :=
      getNextSqrtPriceFromOutput_toward hdir (by linarith) hlt hprice
    obtain ⟨-, rfl⟩ := inputDelta_eq_ok hdir' hin
    have hcap : -remaining ≤ amountOut := by
      by_cases heq : target = next''
      · simp only [hexact, heq, decide_true, Bool.not_false, Bool.and_self, if_true,
          Except.ok.injEq] at hout
        linarith [heq ▸ hlt]
      · simp only [heq, decide_false, Bool.false_and, Bool.false_eq_true, if_false] at hout
        obtain ⟨-, rfl⟩ := outputDelta_eq_ok hdir' hout
        exact hreleased
    rw [hnext]
    refine ⟨hL, hc, hpos, hdir', hdir'', ⟨hfee0, by linarith⟩, ?_, ?_,
      .inr ⟨hlt, hLpos, hclosed, ?_⟩⟩
    · simp [← h]
    · simp [← h]
    · rw [← h]
      simp only [decide_eq_true_eq]
      split_ifs with hgt <;> linarith

/-- What a successful step guarantees. -/
structure StepSpec (current target remaining : ℤ) (step : SwapStep) : Prop where
  current_pos : 0 < current
  next_pos : 0 < step.sqrtRatioNextX96
  between : let z := decide (current ≥ target)
    Toward z current step.sqrtRatioNextX96 ∧ Toward z step.sqrtRatioNextX96 target
  input_nonneg : 0 ≤ remaining → 0 ≤ step.amountIn + step.feeAmount
  input_le : 0 ≤ remaining → step.amountIn + step.feeAmount ≤ remaining
  output_le : remaining < 0 → step.amountOut ≤ -remaining
  input_exhausted : 0 ≤ remaining → step.sqrtRatioNextX96 ≠ target →
    step.amountIn + step.feeAmount = remaining
  output_exhausted : remaining < 0 → step.sqrtRatioNextX96 ≠ target →
    step.amountOut = -remaining

/-- The fee on a fully paid step fits into what the fee left over. -/
theorem amountIn_add_fee_le {remaining amountIn fee : ℤ} (hfee : fee < 1000000)
    (h : amountIn ≤ remaining * (1000000 - fee) / 1000000) :
    amountIn + ceilDiv (amountIn * fee) (1000000 - fee) ≤ remaining := by
  have hmul := (Int.le_ediv_iff_mul_le (by norm_num : (0 : ℤ) < 1000000)).mp h
  have hceil : ceilDiv (amountIn * fee) (1000000 - fee) ≤ remaining - amountIn := by
    rw [ceilDiv_le_iff (by linarith)]
    linarith
  linarith

theorem computeSwapStep_spec {current target liquidity remaining fee : ℤ} {step : SwapStep}
    (h : computeSwapStep current target liquidity remaining fee = .ok step) :
    StepSpec current target remaining step := by
  rcases le_or_gt 0 remaining with hrem | hrem
  · obtain ⟨hL, hc, ht, ⟨hless, hfee, rfl⟩ | ⟨-, -, -, hne, hdir, hdir', rfl⟩⟩ :=
      computeSwapStep_exactIn hrem h
    · have hin := inputAmount_nonneg hL hc ht (toward_of_ge current target)
      have hcharge := ceilDiv_nonneg (mul_nonneg hin hfee.1) (by omega : 0 < 1000000 - fee)
      refine ⟨hc, ht, ⟨toward_of_ge _ _, toward_refl _ _⟩, fun _ => add_nonneg hin hcharge,
        fun _ => amountIn_add_fee_le hfee.2 hless, fun h => absurd h (not_lt.mpr hrem), ?_,
        fun h => absurd h (not_lt.mpr hrem)⟩
      exact fun _ hne => absurd rfl hne
    · have hpos := pos_of_toward hc ht hdir hdir'
      refine ⟨hc, hpos, ⟨hdir, hdir'⟩, fun _ => ?_, fun _ => ?_,
        fun h => absurd h (not_lt.mpr hrem), fun _ _ => ?_,
        fun h => absurd h (not_lt.mpr hrem)⟩ <;> simp [hrem]
  · obtain ⟨-, hc, hpos, hdir, hdir', -, -, -, ⟨hle, hnext, hout⟩ | ⟨-, -, -, hout⟩⟩ :=
      computeSwapStep_exactOut hrem h
    · refine ⟨hc, hpos, ⟨hdir, hdir'⟩, fun h => absurd hrem (not_lt.mpr h),
        fun h => absurd hrem (not_lt.mpr h), fun _ => hout.trans_le hle, fun h => absurd hrem (not_lt.mpr h), ?_⟩
      exact fun _ hne => absurd hnext hne
    · exact ⟨hc, hpos, ⟨hdir, hdir'⟩, fun h => absurd hrem (not_lt.mpr h),
        fun h => absurd hrem (not_lt.mpr h), fun _ => hout.le,
        fun h => absurd hrem (not_lt.mpr h), fun _ _ => hout⟩

end V3

end Degenbot

/-! ## One swap step of the V4 library

Unlike the comparison of the ports, which needs prices and liquidity of their on-chain
widths, these facts hold for every non-negative liquidity. -/

namespace Degenbot.V4

open Library

/-! ## Amounts -/

theorem getAmount0DeltaRounded_nonneg {a b liquidity r : ℤ} (ha : 0 < a) (hb : 0 < b)
    (hL : 0 ≤ liquidity) (h : getAmount0DeltaRounded a b liquidity true = .ok r) : 0 ≤ r := by
  have hN : 0 ≤ liquidity * q96 := mul_nonneg hL q96_pos.le
  simp only [getAmount0DeltaRounded, if_true, ite_error_eq_ok, bind_eq_ok,
    muldivRoundingUp_eq_ok_iff, Except.ok.injEq] at h
  split_ifs at h with hgt
  · obtain ⟨-, q, ⟨-, rfl, -⟩, rfl⟩ := h
    rw [divRoundingUp_eq hb]
    exact ceilDiv_nonneg (ceilDiv_nonneg (mul_nonneg hN (by omega)) ha) hb
  · obtain ⟨-, q, ⟨-, rfl, -⟩, rfl⟩ := h
    rw [divRoundingUp_eq ha]
    exact ceilDiv_nonneg (ceilDiv_nonneg (mul_nonneg hN (by omega)) hb) ha

theorem getAmount1DeltaRounded_eq_ok {a b liquidity r : ℤ}
    (h : getAmount1DeltaRounded a b liquidity true = .ok r) :
    r = ceilDiv (liquidity * |a - b|) q96 := by
  simp only [getAmount1DeltaRounded, bind_eq_ok, muldiv_eq_ok_iff, and_true,
    Except.ok.injEq] at h
  obtain ⟨q, ⟨-, rfl, -⟩, rfl⟩ := h
  have hceil := fdiv_add_fmod_pos (a := liquidity * |a - b|) q96_pos
  rw [Int.fdiv_eq_ediv_of_nonneg _ q96_pos.le] at hceil
  simpa [mulmod, q96_pos.ne'] using hceil

/-- An input is never negative, also between prices in the wrong order. -/
theorem inputDelta_nonneg {z : Bool} {current price liquidity r : ℤ} (hL : 0 ≤ liquidity)
    (hpos : z = true → 0 < current ∧ 0 < price)
    (h : inputDelta z current price liquidity = .ok r) : 0 ≤ r := by
  cases z with
  | true =>
      obtain ⟨hc, hp⟩ := hpos rfl
      exact getAmount0DeltaRounded_nonneg hp hc hL h
  | false =>
      rw [getAmount1DeltaRounded_eq_ok h]
      exact ceilDiv_nonneg (mul_nonneg hL (abs_nonneg _)) q96_pos

theorem inputDelta_eq_ok {z : Bool} {current price liquidity r : ℤ}
    (hdir : Toward z current price) (hpos : z = true → 0 < price)
    (h : inputDelta z current price liquidity = .ok r) :
    r = inputAmount z liquidity current price := by
  cases z with
  | true =>
      have hle : price ≤ current := by simpa [Toward] using hdir
      have hp := hpos rfl
      simp only [inputDelta, if_true, getAmount0Delta, getAmount0DeltaRounded, not_lt.mpr hle,
        if_false, hp.ne', bind_eq_ok, muldivRoundingUp_eq_ok_iff, Except.ok.injEq] at h
      obtain ⟨q, ⟨-, rfl, -⟩, rfl⟩ := h
      simp [inputAmount, divRoundingUp_eq hp]
  | false =>
      have hle : current ≤ price := by simpa [Toward] using hdir
      have habs : |current - price| = price - current := by
        rw [abs_sub_comm]
        exact abs_of_nonneg (by omega)
      rw [getAmount1DeltaRounded_eq_ok h, habs]
      simp [inputAmount]

/-! ## Prices -/

/-- An input that cannot pay for the target leaves the price before it. -/
theorem getNextSqrtPriceFromInput_toward {z : Bool} {current target liquidity amount next : ℤ}
    (hL : 0 ≤ liquidity) (ht : 0 < target) (hdir : Toward z current target) (ha : 0 ≤ amount)
    (hlt : amount < inputAmount z liquidity current target)
    (h : getNextSqrtPriceFromInput current liquidity amount z = .ok next) :
    Toward z current next ∧ Toward z next target := by
  simp only [getNextSqrtPriceFromInput, ite_error_eq_ok, not_or] at h
  obtain ⟨⟨hne, hLne⟩, h⟩ := h
  have hLpos : 0 < liquidity := lt_of_le_of_ne hL (Ne.symm hLne)
  have hN : 0 < liquidity * q96 := mul_pos hLpos q96_pos
  cases z with
  | true =>
      have hle : target ≤ current := by simpa [Toward] using hdir
      have hc : 0 < current := ht.trans_le hle
      have hprod : 0 ≤ amount * current := mul_nonneg ha hc.le
      simp only [Toward, if_true]
      simp only [if_true, getNextSqrtPriceFromAmount0RoundingUp, ge_iff_le,
        le_add_iff_nonneg_right, hprod, and_true] at h
      split_ifs at h with hzero hfit
      · cases h
        exact ⟨le_rfl, hle⟩
      · obtain ⟨-, rfl, -⟩ := muldivRoundingUp_eq_ok_iff.mp h
        exact ⟨exactQuotient_le hLpos hc ha, (lt_exactQuotient hLpos hc ht ha hlt).le⟩
      · -- the failsafe for large products is the one of the V3 formula
        have hfloor : 0 ≤ liquidity * q96 / current := Int.ediv_nonneg hN.le hc.le
        simp only [floorDivide, hne, if_false, ok_bind, Except.ok.injEq,
          Int.fdiv_eq_ediv_of_nonneg _ hc.le] at h
        rw [divRoundingUp_eq (by omega)] at h
        have hformula : priceFromInput true current liquidity amount = next := by
          have hbig : ¬amount * current < maxUint256 := by omega
          simpa [priceFromInput, hzero, hbig] using h
        rw [← hformula]
        exact ⟨priceFromInput_down_le hLpos hc ha,
          (lt_priceFromInput_down hLpos hc ht ha hlt).le⟩
  | false =>
      simp only [Bool.false_eq_true, if_false, getNextSqrtPriceFromAmount1RoundingDown, if_true,
        bind_eq_ok, ite_error_eq_ok, Except.ok.injEq] at h
      obtain ⟨q, hq, -, hnext⟩ := h
      have hquot : q = amount * q96 / liquidity := by
        split_ifs at hq
        · simpa [floorDivide, hLne, Int.fdiv_eq_ediv_of_nonneg _ hLpos.le, eq_comm] using hq
        · exact (muldiv_eq_ok_iff.mp hq).2.1
      have hformula : priceFromInput false current liquidity amount = next := by
        simp [priceFromInput, ← hnext, hquot]
      rw [← hformula]
      simp only [Toward, Bool.false_eq_true, if_false]
      exact ⟨le_priceFromInput_up hLpos ha, (priceFromInput_up_lt hLpos hlt).le⟩

/-! ## Steps -/

section Step

variable {current target liquidity remaining fee : ℤ} {step : SwapStep}

/-- The two outcomes of an exact input step. -/
theorem computeSwapStep_input_cases (hrem : remaining < 0)
    (h : computeSwapStep current target liquidity remaining fee = .ok step) :
    let z := decide (current ≥ target)
    let less := -remaining * (maxSwapFee - fee) / maxSwapFee
    ∃ amountIn amountOut, inputDelta z current target liquidity = .ok amountIn ∧
      ((amountIn ≤ less ∧ ∃ feeAmount, step = ⟨target, amountIn, amountOut, feeAmount⟩ ∧
          (fee = maxSwapFee ∧ feeAmount = amountIn ∨
            fee ≠ maxSwapFee ∧
              muldivRoundingUp amountIn fee (maxSwapFee - fee) = .ok feeAmount)) ∨
        (less < amountIn ∧ ∃ next, step = ⟨next, less, amountOut, -remaining - less⟩ ∧
          getNextSqrtPriceFromInput current liquidity less z = .ok next)) := by
  intro z less
  simp only [computeSwapStep, hrem, if_true, bind_eq_ok, muldiv_eq_ok_iff] at h
  obtain ⟨less', ⟨-, rfl, -⟩, amountIn, hin, h⟩ := h
  by_cases hreach : amountIn ≤ less
  · rw [if_pos hreach] at h
    obtain ⟨feeAmount, hcharge, h⟩ := bind_eq_ok.mp h
    obtain ⟨amountOut, -, h⟩ := bind_eq_ok.mp h
    cases h
    refine ⟨amountIn, amountOut, hin, .inl ⟨hreach, feeAmount, rfl, ?_⟩⟩
    by_cases hall : fee = maxSwapFee
    · rw [if_pos hall] at hcharge
      cases hcharge
      exact .inl ⟨hall, rfl⟩
    · rw [if_neg hall] at hcharge
      exact .inr ⟨hall, hcharge⟩
  · rw [if_neg hreach] at h
    obtain ⟨next, hnext, h⟩ := bind_eq_ok.mp h
    obtain ⟨amountOut, -, h⟩ := bind_eq_ok.mp h
    cases h
    exact ⟨amountIn, amountOut, hin, .inr ⟨not_le.mp hreach, next, rfl, hnext⟩⟩

/-- What an exact input step guarantees: the price stays between the current one and the
target, and a step that stops short of the target takes all that remains. -/
structure InputSpec (current target remaining : ℤ) (step : SwapStep) : Prop where
  between : let z := decide (current ≥ target)
    Toward z current step.sqrtRatioNextX96 ∧ Toward z step.sqrtRatioNextX96 target
  total_le : step.amountIn + step.feeAmount ≤ -remaining
  exhausted : step.sqrtRatioNextX96 ≠ target → step.amountIn + step.feeAmount = -remaining

theorem computeSwapStep_input (hrem : remaining < 0) (hL : 0 ≤ liquidity) (ht : 0 < target)
    (hfee : 0 ≤ fee ∧ fee ≤ maxSwapFee)
    (h : computeSwapStep current target liquidity remaining fee = .ok step) :
    InputSpec current target remaining step := by
  have hmax : maxSwapFee = 1000000 := by norm_num [maxSwapFee]
  have hdir := toward_of_ge current target
  obtain ⟨amountIn, amountOut, hin, hcases⟩ := computeSwapStep_input_cases hrem h
  have hamount := inputDelta_eq_ok hdir (fun _ => ht) hin
  rcases hcases with ⟨hreach, feeAmount, rfl, hcharge⟩ | ⟨hshort, next, rfl, hnext⟩
  · refine ⟨⟨hdir, toward_refl _ _⟩, ?_, fun hne => absurd rfl hne⟩
    rcases hcharge with ⟨hall, rfl⟩ | ⟨hall, hmul⟩
    · -- at a fee of 100 % nothing is left to pay for the way
      rw [hall, sub_self, mul_zero, Int.zero_ediv] at hreach
      simp only
      omega
    · obtain ⟨-, rfl, -⟩ := muldivRoundingUp_eq_ok_iff.mp hmul
      rw [hmax] at hreach hfee hall ⊢
      exact V3.amountIn_add_fee_le (by omega) hreach
  · have hnonneg : 0 ≤ -remaining * (maxSwapFee - fee) / maxSwapFee := by
      rw [hmax] at hfee ⊢
      exact Int.ediv_nonneg (mul_nonneg (by omega) (by omega)) (by norm_num)
    refine ⟨?_, by simp, fun _ => by simp⟩
    exact getNextSqrtPriceFromInput_toward hL ht hdir hnonneg (hamount ▸ hshort) hnext

/-- The price after an output towards lower prices stays positive. -/
theorem getNextSqrtPriceFromOutput_pos {amount next : ℤ}
    (h : getNextSqrtPriceFromOutput current liquidity amount true = .ok next) : 0 < next := by
  simp only [getNextSqrtPriceFromOutput, ite_error_eq_ok, if_true,
    getNextSqrtPriceFromAmount1RoundingDown, Bool.false_eq_true, if_false, bind_eq_ok,
    Except.ok.injEq] at h
  obtain ⟨-, q, -, hlt, rfl⟩ := h
  omega

/-- No step pays the swapper on the side of the input. -/
theorem computeSwapStep_total_nonneg (hL : 0 ≤ liquidity) (ht : 0 < target) (hfee : 0 ≤ fee)
    (h : computeSwapStep current target liquidity remaining fee = .ok step) :
    0 ≤ step.amountIn + step.feeAmount := by
  have hpos : decide (current ≥ target) = true → 0 < current := fun hge => by
    have hle : current ≥ target := by simpa using hge
    omega
  have hcharge {amountIn feeAmount : ℤ} (hin : 0 ≤ amountIn)
      (hmul : muldivRoundingUp amountIn fee (maxSwapFee - fee) = .ok feeAmount) :
      0 ≤ amountIn + feeAmount := by
    obtain ⟨hden, rfl, -⟩ := muldivRoundingUp_eq_ok_iff.mp hmul
    have := ceilDiv_nonneg (mul_nonneg hin hfee) hden
    omega
  by_cases hrem : remaining < 0
  · obtain ⟨amountIn, amountOut, hin, hcases⟩ := computeSwapStep_input_cases hrem h
    have hnonneg := inputDelta_nonneg hL (fun hz => ⟨hpos hz, ht⟩) hin
    rcases hcases with ⟨-, feeAmount, rfl, ⟨-, rfl⟩ | ⟨-, hmul⟩⟩ | ⟨-, next, rfl, -⟩
    · simp only
      omega
    · exact hcharge hnonneg hmul
    · simp only
      omega
  · simp only [computeSwapStep, hrem, if_false, bind_eq_ok] at h
    obtain ⟨amountOut, -, ⟨amountOut', next⟩, hnext, amountIn, hin, feeAmount, hmul, h⟩ := h
    cases h
    refine hcharge (inputDelta_nonneg hL (fun hz => ⟨hpos hz, ?_⟩) hin) hmul
    split at hnext
    · cases hnext
      exact ht
    · obtain ⟨price, hprice, hnext⟩ := bind_eq_ok.mp hnext
      cases hnext
      rw [hz] at hprice
      exact getNextSqrtPriceFromOutput_pos hprice

end Step

end Degenbot.V4
