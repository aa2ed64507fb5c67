import Degenbot.Verification.SwapMath.Step
import Degenbot.Algorithm.TickMath

/-! # The V3 and V4 ports of a swap step

On prices of 160 bits and liquidity of 128 bits the amount deltas of both ports are the
exact rounded amounts, so the steps differ only where they compute a price after an
input of token 0. -/

namespace Degenbot

open Library

/-- A price that fits in 160 bits. -/
def PriceBounds (price : ℤ) : Prop := 0 < price ∧ price ≤ maxUint160

/-- A liquidity that fits in 128 bits. -/
def LiquidityBounds (liquidity : ℤ) : Prop := 0 ≤ liquidity ∧ liquidity ≤ maxUint128

theorem numerator1_bounds {liquidity : ℤ} (h : LiquidityBounds liquidity) :
    0 ≤ liquidity * q96 ∧ liquidity * q96 ≤ maxUint256 := by
  have hq : q96 = 79228162514264337593543950336 := by norm_num [q96]
  simp only [LiquidityBounds, maxUint128, maxUint256, hq] at *
  omega

theorem PriceBounds.le_maxUint256 {price : ℤ} (h : PriceBounds price) : price ≤ maxUint256 := by
  simp only [PriceBounds, maxUint160, maxUint256] at *
  omega

/-- A price between two bounded ones is bounded. -/
theorem PriceBounds.of_toward {z : Bool} {current price target : ℤ} (hc : PriceBounds current)
    (ht : PriceBounds target) (hp : Toward z current price) (hp' : Toward z price target) :
    PriceBounds price := by
  have hpos := pos_of_toward hc.1 ht.1 hp hp'
  refine ⟨hpos, ?_⟩
  have hc' := hc.2
  have ht' := ht.2
  cases z <;> simp only [Toward, if_true, Bool.false_eq_true, if_false] at hp hp' <;> omega

/-! ## Sizes of the amounts -/

section Sizes

variable {liquidity a b : ℤ}

theorem muldiv0_le (hL : LiquidityBounds liquidity) (ha : 0 < a) (hab : a ≤ b) :
    ceilDiv (liquidity * q96 * (b - a)) b ≤ maxUint256 ∧
      liquidity * q96 * (b - a) / b ≤ maxUint256 := by
  have hN := numerator1_bounds hL
  have hb : 0 < b := ha.trans_le hab
  have hle : ceilDiv (liquidity * q96 * (b - a)) b ≤ maxUint256 := by
    refine le_trans ?_ hN.2
    rw [ceilDiv_le_iff hb]
    exact mul_le_mul_of_nonneg_left (by omega) hN.1
  exact ⟨hle, (ediv_le_ceilDiv hb).trans hle⟩

theorem muldiv1_le (hL : LiquidityBounds liquidity) (ha : 0 < a) (hb : PriceBounds b) :
    ceilDiv (liquidity * (b - a)) q96 ≤ maxUint256 ∧
      liquidity * (b - a) / q96 ≤ maxUint256 := by
  have hle : ceilDiv (liquidity * (b - a)) q96 ≤ maxUint256 := by
    rw [ceilDiv_le_iff q96_pos]
    have hb' := hb.2
    calc liquidity * (b - a) ≤ liquidity * maxUint160 :=
          mul_le_mul_of_nonneg_left (by omega) hL.1
      _ ≤ maxUint128 * maxUint160 := mul_le_mul_of_nonneg_right hL.2 (by decide)
      _ ≤ maxUint256 * q96 := by norm_num [maxUint128, maxUint160, maxUint256, q96]
  exact ⟨hle, (ediv_le_ceilDiv q96_pos).trans hle⟩

end Sizes

/-! ## The deltas of both ports -/

section Deltas

variable {z : Bool} {current price liquidity : ℤ}

theorem V3.inputDelta_of_bounds (hL : LiquidityBounds liquidity) (hc : PriceBounds current)
    (hp : PriceBounds price) (hdir : Toward z current price) :
    V3.inputDelta z current price liquidity = .ok (inputAmount z liquidity current price) := by
  cases z with
  | true =>
      have hle : price ≤ current := by simpa [Toward] using hdir
      have hmul := V3.muldivRoundingUp_eq_ok_iff.mpr ⟨numerator1_bounds hL,
        ⟨by omega, by have := hc.le_maxUint256; have := hp.1; omega⟩,
        ⟨hc.1, hc.le_maxUint256⟩, rfl, (muldiv0_le hL hp.1 hle).1⟩
      simp [V3.inputDelta, V3.getAmount0Delta, V3.getAmount0DeltaRounded, not_lt.mpr hle,
        not_le.mpr hp.1, hmul, V3.divRoundingUp_eq hp.1, inputAmount]
  | false =>
      have hle : current ≤ price := by simpa [Toward] using hdir
      have hmul := V3.muldivRoundingUp_eq_ok_iff.mpr ⟨⟨hL.1, hL.2.trans (by decide)⟩,
        ⟨by omega, by have := hp.le_maxUint256; have := hc.1; omega⟩,
        ⟨q96_pos, by decide⟩, rfl, (muldiv1_le hL hc.1 hp).1⟩
      simp [V3.inputDelta, V3.getAmount1Delta, V3.getAmount1DeltaRounded, not_lt.mpr hle,
        not_lt.mpr hL.1, hmul, inputAmount]

theorem V3.outputDelta_of_bounds (hL : LiquidityBounds liquidity) (hc : PriceBounds current)
    (hp : PriceBounds price) (hdir : Toward z current price) :
    V3.outputDelta z current price liquidity = .ok (outputAmount z liquidity current price) := by
  cases z with
  | true =>
      have hle : price ≤ current := by simpa [Toward] using hdir
      have hmul := V3.muldiv_eq_ok_iff.mpr ⟨⟨hL.1, hL.2.trans (by decide)⟩,
        ⟨by omega, by have := hc.le_maxUint256; have := hp.1; omega⟩,
        ⟨q96_pos, by decide⟩, rfl, (muldiv1_le hL hp.1 hc).2⟩
      simp [V3.outputDelta, V3.getAmount1Delta, V3.getAmount1DeltaRounded, not_lt.mpr hle,
        not_lt.mpr hL.1, hmul, outputAmount]
  | false =>
      have hle : current ≤ price := by simpa [Toward] using hdir
      have hmul := V3.muldiv_eq_ok_iff.mpr ⟨numerator1_bounds hL,
        ⟨by omega, by have := hp.le_maxUint256; have := hc.1; omega⟩,
        ⟨hp.1, hp.le_maxUint256⟩, rfl, (muldiv0_le hL hc.1 hle).2⟩
      simp [V3.outputDelta, V3.getAmount0Delta, V3.getAmount0DeltaRounded, not_lt.mpr hle,
        not_le.mpr hc.1, hmul, outputAmount, Int.fdiv_eq_ediv_of_nonneg _ hc.1.le]

theorem V4.inputDelta_of_bounds (hL : LiquidityBounds liquidity) (hc : PriceBounds current)
    (hp : PriceBounds price) (hdir : Toward z current price) :
    V4.inputDelta z current price liquidity = .ok (inputAmount z liquidity current price) := by
  cases z with
  | true =>
      have hle : price ≤ current := by simpa [Toward] using hdir
      have hmul := V4.muldivRoundingUp_eq_ok_iff.mpr
        ⟨hc.1, rfl, (muldiv0_le hL hp.1 hle).1⟩
      simp [V4.inputDelta, V4.getAmount0Delta, V4.getAmount0DeltaRounded, not_lt.mpr hle,
        hp.1.ne', hmul, V4.divRoundingUp_eq hp.1, inputAmount]
  | false =>
      have hle : current ≤ price := by simpa [Toward] using hdir
      have hmul := V4.muldiv_eq_ok_iff.mpr ⟨q96_pos, rfl, (muldiv1_le hL hc.1 hp).2⟩
      have habs : |current - price| = price - current := by
        rw [abs_sub_comm]
        exact abs_of_nonneg (by omega)
      have hceil := fdiv_add_fmod_pos (a := liquidity * (price - current)) q96_pos
      rw [Int.fdiv_eq_ediv_of_nonneg _ q96_pos.le] at hceil
      simpa [V4.inputDelta, V4.getAmount1Delta, V4.getAmount1DeltaRounded, habs, hmul, V4.mulmod,
        q96_pos.ne', inputAmount] using hceil

theorem V4.outputDelta_of_bounds (hL : LiquidityBounds liquidity) (hc : PriceBounds current)
    (hp : PriceBounds price) (hdir : Toward z current price) :
    V4.outputDelta z current price liquidity = .ok (outputAmount z liquidity current price) := by
  cases z with
  | true =>
      have hle : price ≤ current := by simpa [Toward] using hdir
      have hmul := V4.muldiv_eq_ok_iff.mpr ⟨q96_pos, rfl, (muldiv1_le hL hp.1 hc).2⟩
      have habs : |price - current| = current - price := by
        rw [abs_sub_comm]
        exact abs_of_nonneg (by omega)
      simp [V4.outputDelta, V4.getAmount1Delta, V4.getAmount1DeltaRounded, habs, hmul,
        outputAmount]
  | false =>
      have hle : current ≤ price := by simpa [Toward] using hdir
      have hmul := V4.muldiv_eq_ok_iff.mpr ⟨hp.1, rfl, (muldiv0_le hL hc.1 hle).2⟩
      simp [V4.outputDelta, V4.getAmount0Delta, V4.getAmount0DeltaRounded, not_lt.mpr hle,
        hc.1.ne', hmul, outputAmount, Int.fdiv_eq_ediv_of_nonneg _ hc.1.le]

end Deltas

/-! ## The price after an input -/

/-- Both ports compute the price after an input of token 0 by the same formula. V3 takes
the exact quotient below `2 ^ 256 - 1` and rejects a denominator beyond 256 bits; V4
takes the exact quotient up to `2 ^ 256 - 1` and admits any denominator. -/
def SamePriceFormula (current liquidity amount : ℤ) : Prop :=
  (amount * current < maxUint256 ∧ liquidity * q96 + amount * current ≤ maxUint256) ∨
    maxUint256 < amount * current ∨
    (amount * current = maxUint256 ∧
      ceilDiv (liquidity * q96 * current) (liquidity * q96 + amount * current) =
        ceilDiv (liquidity * q96) (liquidity * q96 / current + amount))

section Price

variable {current target liquidity amount : ℤ}

theorem numerator1_pos (hLpos : 0 < liquidity) : 0 < liquidity * q96 := mul_pos hLpos q96_pos

theorem V3.getNextSqrtPriceFromInput_down (hL : LiquidityBounds liquidity)
    (hLpos : 0 < liquidity) (hc : PriceBounds current) (ha : 0 ≤ amount)
    (hsame : SamePriceFormula current liquidity amount) :
    V3.getNextSqrtPriceFromInput current liquidity amount true =
      .ok (priceFromInput true current liquidity amount) := by
  have hN := numerator1_bounds hL
  have hNpos := numerator1_pos hLpos
  have hprod : 0 ≤ amount * current := mul_nonneg ha hc.1.le
  have hle := priceFromInput_down_le hLpos hc.1 ha
  simp only [V3.getNextSqrtPriceFromInput, hc.1, hLpos, not_true_eq_false, if_false, if_true,
    V3.getNextSqrtPriceFromAmount0RoundingUp, gt_iff_lt, ge_iff_le, le_add_iff_nonneg_right,
    hprod, and_true]
  simp only [priceFromInput, if_true] at hle ⊢
  split_ifs at hle ⊢ with hzero hfit
  · rfl
  · have hden : liquidity * q96 + amount * current ≤ maxUint256 := by
      rcases hsame with ⟨-, hden⟩ | hgt | ⟨heq, -⟩
      · exact hden
      · omega
      · omega
    exact V3.muldivRoundingUp_eq_ok_iff.mpr ⟨hN, ⟨hc.1.le, hc.le_maxUint256⟩,
      ⟨by omega, hden⟩, rfl, hle.trans hc.le_maxUint256⟩
  · have hfloor : 0 ≤ liquidity * q96 / current := Int.ediv_nonneg hN.1 hc.1.le
    simp only [floorDivide, hc.1.ne', if_false, ok_bind,
      Int.fdiv_eq_ediv_of_nonneg _ hc.1.le]
    rw [V3.divRoundingUp_eq (by omega)]

theorem V4.getNextSqrtPriceFromInput_down (hLpos : 0 < liquidity)
    (hc : PriceBounds current) (ha : 0 ≤ amount) :
    ∃ next, V4.getNextSqrtPriceFromInput current liquidity amount true = .ok next ∧
      (amount * current ≠ maxUint256 → next = priceFromInput true current liquidity amount) ∧
      (amount * current = maxUint256 → next =
        ceilDiv (liquidity * q96 * current) (liquidity * q96 + amount * current)) := by
  have hNpos := numerator1_pos hLpos
  have hprod : 0 ≤ amount * current := mul_nonneg ha hc.1.le
  simp only [V4.getNextSqrtPriceFromInput, hc.1.ne', hLpos.ne', or_self, if_false, if_true,
    V4.getNextSqrtPriceFromAmount0RoundingUp, ge_iff_le, le_add_iff_nonneg_right,
    hprod, and_true]
  by_cases hzero : amount = 0
  · refine ⟨current, by simp [hzero], fun _ => by simp [priceFromInput, hzero], fun heq => ?_⟩
    simp [hzero, maxUint256] at heq
  · rw [if_neg hzero]
    have hden : 0 < liquidity * q96 + amount * current := by omega
    by_cases hfit : amount * current ≤ maxUint256
    · rw [if_pos hfit]
      have hle := exactQuotient_le hLpos hc.1 ha
      refine ⟨_, V4.muldivRoundingUp_eq_ok_iff.mpr ⟨hden, rfl, hle.trans hc.le_maxUint256⟩,
        fun hne => ?_, fun _ => rfl⟩
      have hlt : amount * current < maxUint256 := by omega
      simp [priceFromInput, hzero, hlt]
    · rw [if_neg hfit]
      have hfloor : 0 ≤ liquidity * q96 / current := Int.ediv_nonneg hNpos.le hc.1.le
      refine ⟨ceilDiv (liquidity * q96) (liquidity * q96 / current + amount), ?_, fun _ => ?_,
        fun heq => absurd heq.le hfit⟩
      · simp only [floorDivide, hc.1.ne', if_false, ok_bind,
          Int.fdiv_eq_ediv_of_nonneg _ hc.1.le]
        rw [V4.divRoundingUp_eq (by omega)]
      · have hlt : ¬amount * current < maxUint256 := by omega
        simp [priceFromInput, hzero, hlt]

theorem V4.getNextSqrtPriceFromInput_down_same (hLpos : 0 < liquidity)
    (hc : PriceBounds current) (ha : 0 ≤ amount)
    (hsame : SamePriceFormula current liquidity amount) :
    V4.getNextSqrtPriceFromInput current liquidity amount true =
      .ok (priceFromInput true current liquidity amount) := by
  obtain ⟨next, hok, hne, heq⟩ := V4.getNextSqrtPriceFromInput_down hLpos hc ha
  by_cases hmax : amount * current = maxUint256
  · rw [hok, heq hmax]
    rcases hsame with ⟨hlt, -⟩ | hgt | ⟨-, hquot⟩
    · omega
    · omega
    · have hpos : amount ≠ 0 := by
        rintro rfl
        simp [maxUint256] at hmax
      have hlt : ¬amount * current < maxUint256 := by omega
      simp [priceFromInput, hpos, hlt, hquot]
  · rw [hok, hne hmax]

/-- Upwards both ports agree whenever the price stays below a bounded target. -/
theorem getNextSqrtPriceFromInput_up (hLpos : 0 < liquidity) (hL : LiquidityBounds liquidity)
    (hc : PriceBounds current) (ht : PriceBounds target) (ha : 0 ≤ amount)
    (hmax : amount ≤ maxUint256)
    (hlt : priceFromInput false current liquidity amount < target) :
    V3.getNextSqrtPriceFromInput current liquidity amount false =
        .ok (priceFromInput false current liquidity amount) ∧
      V4.getNextSqrtPriceFromInput current liquidity amount false =
        .ok (priceFromInput false current liquidity amount) := by
  simp only [priceFromInput, Bool.false_eq_true, if_false] at hlt ⊢
  have htmax := ht.2
  have hfit : current + amount * q96 / liquidity ≤ maxUint160 := by omega
  have hq : amount * q96 / liquidity ≤ maxUint256 := by
    have h160 : maxUint160 ≤ maxUint256 := by decide
    have hcpos := hc.1
    omega
  have hLmax : liquidity ≤ maxUint256 := hL.2.trans (by decide)
  constructor
  · have hmul := V3.muldiv_eq_ok_iff.mpr ⟨⟨ha, hmax⟩, ⟨q96_pos.le, by decide⟩,
      ⟨hLpos, hLmax⟩, rfl, hq⟩
    simp only [V3.getNextSqrtPriceFromInput, hc.1, hLpos, gt_iff_lt, not_true_eq_false, if_false,
      Bool.false_eq_true, V3.getNextSqrtPriceFromAmount1RoundingDown, if_true, floorDivide,
      hLpos.ne', Int.fdiv_eq_ediv_of_nonneg _ hLpos.le, hmul, ite_self, ok_bind]
    exact V3.toUint160_eq_ok_iff.mpr ⟨rfl, hfit⟩
  · have hmul := V4.muldiv_eq_ok_iff.mpr ⟨hLpos, rfl, hq⟩
    simp only [V4.getNextSqrtPriceFromInput, hc.1.ne', hLpos.ne', or_self, if_false,
      Bool.false_eq_true, V4.getNextSqrtPriceFromAmount1RoundingDown, if_true, floorDivide,
      Int.fdiv_eq_ediv_of_nonneg _ hLpos.le, hmul, ite_self, ok_bind, not_lt.mpr hfit,
      gt_iff_lt]

/-! ## The price after an output -/

theorem getNextSqrtPriceFromOutput_ports {z : Bool} {next : ℤ} (hL : LiquidityBounds liquidity)
    (hc : PriceBounds current) (ha : 0 < amount) (hmax : amount ≤ maxUint256) :
    V3.getNextSqrtPriceFromOutput current liquidity amount z = .ok next ↔
      V4.getNextSqrtPriceFromOutput current liquidity amount z = .ok next := by
  by_cases hLpos : 0 < liquidity
  · have hN := numerator1_bounds hL
    have hLmax : liquidity ≤ maxUint256 := hL.2.trans (by decide)
    cases z with
    | true =>
        have hquot : ∀ q, (if amount ≤ maxUint160 then
              Except.ok (V3.divRoundingUp (amount * q96) liquidity)
            else V3.muldivRoundingUp amount q96 liquidity) = .ok q ↔
            (if amount ≤ maxUint160 then Except.ok (V4.divRoundingUp (amount * q96) liquidity)
            else V4.muldivRoundingUp amount q96 liquidity) = .ok q := by
          intro q
          split_ifs
          · rw [V3.divRoundingUp_eq hLpos, V4.divRoundingUp_eq hLpos]
          · exact muldivRoundingUp_v3_iff_v4 ⟨ha.le, hmax⟩ ⟨q96_pos.le, by decide⟩ hLmax
        simp only [V3.getNextSqrtPriceFromOutput, V4.getNextSqrtPriceFromOutput, hc.1, hc.1.ne',
          hLpos, hLpos.ne', gt_iff_lt, not_true_eq_false, or_self, if_false, if_true,
          V3.getNextSqrtPriceFromAmount1RoundingDown,
          V4.getNextSqrtPriceFromAmount1RoundingDown, Bool.false_eq_true, bind_eq_ok, hquot,
          not_lt, ite_error_eq_ok]
    | false =>
        have hexact : (amount * current).fdiv amount = current := by
          rw [Int.fdiv_eq_ediv_of_nonneg _ ha.le, Int.mul_ediv_cancel_left _ ha.ne']
        have hprod : 0 ≤ amount * current := mul_nonneg ha.le hc.1.le
        have hmul : ∀ r, V3.muldivRoundingUp (liquidity * q96) current
              (liquidity * q96 - amount * current) = .ok r ↔
            V4.muldivRoundingUp (liquidity * q96) current
              (liquidity * q96 - amount * current) = .ok r := fun r =>
          muldivRoundingUp_v3_iff_v4 hN ⟨hc.1.le, hc.le_maxUint256⟩ (by linarith [hN.2])
        simp only [V3.getNextSqrtPriceFromOutput, V4.getNextSqrtPriceFromOutput, hc.1, hc.1.ne',
          hLpos, hLpos.ne', gt_iff_lt, not_true_eq_false, or_self, if_false, Bool.false_eq_true,
          V3.getNextSqrtPriceFromAmount0RoundingUp, V4.getNextSqrtPriceFromAmount0RoundingUp,
          ha.ne', hexact, ne_eq, false_or, not_lt, ite_error_eq_ok, bind_eq_ok, hmul,
          V3.toUint160_eq_ok_iff, Except.ok.injEq]
        constructor
        · rintro ⟨hgt, r, hr, rfl, hfit⟩
          exact ⟨hgt, next, hr, hfit, rfl⟩
        · rintro ⟨hgt, r, hr, hfit, rfl⟩
          exact ⟨hgt, r, hr, rfl, hfit⟩
  · have hzero : liquidity = 0 := le_antisymm (not_lt.mp hLpos) hL.1
    simp [V3.getNextSqrtPriceFromOutput, V4.getNextSqrtPriceFromOutput, hc.1, hzero]

end Price

/-! ## The steps -/

/-- The steps end at the same price and exchange the same totals. In a partial step the
ports split the same input differently between amount and fee. -/
structure SameStep (step3 step4 : SwapStep) : Prop where
  next : step3.sqrtRatioNextX96 = step4.sqrtRatioNextX96
  total : step3.amountIn + step3.feeAmount = step4.amountIn + step4.feeAmount
  out : step3.amountOut = step4.amountOut

/-- The condition under which a step of both ports takes the same branch: an exact input
is admitted by both or by neither, and a partial step towards lower prices uses the same
formula. -/
def SameBranch (current target liquidity remaining fee : ℤ) : Prop :=
  0 < remaining →
    (remaining ≤ maxUint256 ∨ maxUint256 < lessFee remaining fee) ∧
    (target ≤ current → lessFee remaining fee < inputAmount true liquidity current target →
      SamePriceFormula current liquidity (lessFee remaining fee))

section Step

variable {current target liquidity remaining fee : ℤ}

theorem lessFee_bounds (hrem : 0 < remaining) (hfee : 0 ≤ fee ∧ fee < 1000000) :
    0 ≤ lessFee remaining fee ∧ lessFee remaining fee ≤ remaining := by
  unfold lessFee
  constructor
  · exact Int.ediv_nonneg (mul_nonneg hrem.le (by omega)) (by norm_num)
  · have hle : remaining * (1000000 - fee) ≤ remaining * 1000000 :=
      mul_le_mul_of_nonneg_left (by omega) hrem.le
    calc remaining * (1000000 - fee) / 1000000 ≤ remaining * 1000000 / 1000000 :=
          Int.ediv_le_ediv (by norm_num) hle
      _ = remaining := Int.mul_ediv_cancel _ (by norm_num)

/-- The amounts of a step are far below 256 bits. -/
theorem inputAmount_le (hL : LiquidityBounds liquidity) (hc : PriceBounds current)
    {z : Bool} {price : ℤ} (hp : PriceBounds price) (hmin : minSqrtRatio ≤ price)
    (hdir : Toward z current price) : inputAmount z liquidity current price ≤ 2 ^ 200 := by
  cases z with
  | true =>
      have hle : price ≤ current := by simpa [Toward] using hdir
      have hN := numerator1_bounds hL
      simp only [inputAmount, if_true]
      rw [ceilDiv_le_iff hp.1, ceilDiv_le_iff hc.1]
      have hq : q96 = 79228162514264337593543950336 := by norm_num [q96]
      have hnum : liquidity * q96 ≤ 2 ^ 200 * price := by
        simp only [LiquidityBounds, maxUint128, minSqrtRatio, hq] at *
        omega
      calc liquidity * q96 * (current - price) ≤ liquidity * q96 * current :=
            mul_le_mul_of_nonneg_left (by have := hp.1; omega) hN.1
        _ ≤ 2 ^ 200 * price * current := mul_le_mul_of_nonneg_right hnum hc.1.le
  | false =>
      simp only [inputAmount, Bool.false_eq_true, if_false]
      rw [ceilDiv_le_iff q96_pos]
      have hpmax := hp.2
      have hcpos := hc.1
      calc liquidity * (price - current) ≤ liquidity * maxUint160 :=
            mul_le_mul_of_nonneg_left (by omega) hL.1
        _ ≤ maxUint128 * maxUint160 := mul_le_mul_of_nonneg_right hL.2 (by decide)
        _ ≤ 2 ^ 200 * q96 := by norm_num [maxUint128, maxUint160, q96]

/-- The fee on a bounded amount. -/
theorem fee_le {amountIn : ℤ} (hin : amountIn ≤ 2 ^ 200)
    (hfee : 0 ≤ fee ∧ fee < 1000000) :
    ceilDiv (amountIn * fee) (1000000 - fee) ≤ 2 ^ 220 := by
  rw [ceilDiv_le_iff (by omega)]
  nlinarith

theorem fee_le_maxUint256 {amountIn : ℤ} (hin : amountIn ≤ 2 ^ 200)
    (hfee : 0 ≤ fee ∧ fee < 1000000) :
    ceilDiv (amountIn * fee) (1000000 - fee) ≤ maxUint256 :=
  (fee_le hin hfee).trans (by norm_num [maxUint256])

/-- Without liquidity nothing has to be paid. -/
theorem liquidity_pos_of_lt {z : Bool} {price amount : ℤ} (hL : LiquidityBounds liquidity)
    (ha : 0 ≤ amount) (hlt : amount < inputAmount z liquidity current price) :
    0 < liquidity := by
  by_contra hle
  have hzero : liquidity = 0 := le_antisymm (not_lt.mp hle) hL.1
  cases z <;> simp [inputAmount, hzero, zero_ceilDiv] at hlt <;> omega

/-- Prices and liquidity of a step between ticks of the pool. -/
structure StepBounds (current target liquidity fee : ℤ) : Prop where
  liquidity_mem : LiquidityBounds liquidity
  current_mem : PriceBounds current
  target_mem : PriceBounds target
  current_ge : minSqrtRatio ≤ current
  target_ge : minSqrtRatio ≤ target
  fee_mem : 0 ≤ fee ∧ fee < 1000000

namespace StepBounds

theorem inputAmount_mem {z : Bool} {price : ℤ} (hb : StepBounds current target liquidity fee)
    (hp : Toward z current price) (hp' : Toward z price target) :
    PriceBounds price ∧ 0 ≤ inputAmount z liquidity current price ∧
      inputAmount z liquidity current price ≤ 2 ^ 200 := by
  have hprice := hb.current_mem.of_toward hb.target_mem hp hp'
  have hmin : minSqrtRatio ≤ price := by
    have hc := hb.current_ge
    have ht := hb.target_ge
    cases z <;> simp only [Toward, if_true, Bool.false_eq_true, if_false] at hp hp' <;> omega
  exact ⟨hprice, inputAmount_nonneg hb.liquidity_mem.1 hb.current_mem.1 hprice.1 hp,
    inputAmount_le hb.liquidity_mem hb.current_mem hprice hmin hp⟩

theorem v3_fee {z : Bool} {price : ℤ} (hb : StepBounds current target liquidity fee)
    (hp : Toward z current price) (hp' : Toward z price target) :
    V3.muldivRoundingUp (inputAmount z liquidity current price) fee (1000000 - fee) =
      .ok (ceilDiv (inputAmount z liquidity current price * fee) (1000000 - fee)) := by
  obtain ⟨-, hnn, hle⟩ := hb.inputAmount_mem hp hp'
  have hfee := hb.fee_mem
  have hmax : (1000000 : ℤ) ≤ maxUint256 := by decide
  exact V3.muldivRoundingUp_eq_ok_iff.mpr ⟨⟨hnn, hle.trans (by norm_num [maxUint256])⟩,
    ⟨hfee.1, by omega⟩, ⟨by omega, by omega⟩, rfl, fee_le_maxUint256 hle hfee⟩

theorem v4_fee {z : Bool} {price : ℤ} (hb : StepBounds current target liquidity fee)
    (hp : Toward z current price) (hp' : Toward z price target) :
    V4.muldivRoundingUp (inputAmount z liquidity current price) fee (V4.maxSwapFee - fee) =
      .ok (ceilDiv (inputAmount z liquidity current price * fee) (1000000 - fee)) := by
  obtain ⟨-, -, hle⟩ := hb.inputAmount_mem hp hp'
  have hfee := hb.fee_mem
  have hmax : V4.maxSwapFee = 1000000 := by norm_num [V4.maxSwapFee]
  rw [hmax]
  exact V4.muldivRoundingUp_eq_ok_iff.mpr ⟨by omega, rfl, fee_le_maxUint256 hle hfee⟩

end StepBounds

/-! ### Exact input -/

section ExactIn

/-- The step both ports take when the input pays for the target. -/
def reachedStep (z : Bool) (current target liquidity fee : ℤ) : SwapStep :=
  ⟨target, inputAmount z liquidity current target, outputAmount z liquidity current target,
    ceilDiv (inputAmount z liquidity current target * fee) (1000000 - fee)⟩

variable {z : Bool}

theorem V3.computeSwapStep_input_reached (hb : StepBounds current target liquidity fee)
    (hz : decide (current ≥ target) = z) (hrem : 0 < remaining) (hmax : remaining ≤ maxUint256)
    (hreach : inputAmount z liquidity current target ≤ lessFee remaining fee) :
    V3.computeSwapStep current target liquidity remaining fee =
      .ok (reachedStep z current target liquidity fee) := by
  have hdir : Toward z current target := hz ▸ toward_of_ge current target
  have hfee := hb.fee_mem
  have hbounds := lessFee_bounds hrem hfee
  have hless : V3.muldiv remaining (1000000 - fee) 1000000 = .ok (lessFee remaining fee) :=
    V3.muldiv_eq_ok_iff.mpr ⟨⟨hrem.le, hmax⟩, ⟨by omega, by norm_num [maxUint256]; omega⟩,
      ⟨by norm_num, by decide⟩, rfl, hbounds.2.trans hmax⟩
  have hin := V3.inputDelta_of_bounds hb.liquidity_mem hb.current_mem hb.target_mem hdir
  have hout := V3.outputDelta_of_bounds hb.liquidity_mem hb.current_mem hb.target_mem hdir
  have hcharge := hb.v3_fee hdir (toward_refl z target)
  simp [V3.computeSwapStep, V3.computeNextPrice, hz, hrem.le, hb.liquidity_mem.1, hless, hin,
    hreach, hout, hcharge, reachedStep]

theorem V4.computeSwapStep_input_reached (hb : StepBounds current target liquidity fee)
    (hz : decide (current ≥ target) = z) (hrem : 0 < remaining)
    (hmax : lessFee remaining fee ≤ maxUint256)
    (hreach : inputAmount z liquidity current target ≤ lessFee remaining fee) :
    V4.computeSwapStep current target liquidity (-remaining) fee =
      .ok (reachedStep z current target liquidity fee) := by
  have hdir : Toward z current target := hz ▸ toward_of_ge current target
  have hfee := hb.fee_mem
  have hless : V4.muldiv remaining (V4.maxSwapFee - fee) V4.maxSwapFee =
      .ok (lessFee remaining fee) :=
    V4.muldiv_eq_ok_iff.mpr ⟨by decide, by simp [lessFee, V4.maxSwapFee], hmax⟩
  have hin := V4.inputDelta_of_bounds hb.liquidity_mem hb.current_mem hb.target_mem hdir
  have hout := V4.outputDelta_of_bounds hb.liquidity_mem hb.current_mem hb.target_mem hdir
  have hcharge := hb.v4_fee hdir (toward_refl z target)
  have hne : fee ≠ V4.maxSwapFee := by
    simp only [V4.maxSwapFee]
    omega
  simp [V4.computeSwapStep, hz, hrem, hless, hin, hreach, hout, hcharge, hne, reachedStep]

/-- V3 rejects an input beyond 256 bits. -/
theorem V3.computeSwapStep_ne_ok_of_lt {step : SwapStep} (hrem : 0 < remaining)
    (hbig : maxUint256 < remaining) :
    V3.computeSwapStep current target liquidity remaining fee ≠ .ok step := by
  intro h
  simp only [V3.computeSwapStep, V3.computeNextPrice, ge_iff_le, hrem.le, decide_true, if_true,
    ite_error_eq_ok, bind_eq_ok, V3.muldiv_eq_ok_iff] at h
  obtain ⟨-, price, ⟨less, ⟨⟨-, hmax⟩, -⟩, -⟩, -⟩ := h
  omega

/-- V4 rejects an input whose part after the fee is beyond 256 bits. -/
theorem V4.computeSwapStep_ne_ok_of_lt {step : SwapStep} (hrem : 0 < remaining)
    (hbig : maxUint256 < lessFee remaining fee) :
    V4.computeSwapStep current target liquidity (-remaining) fee ≠ .ok step := by
  intro h
  simp only [V4.computeSwapStep, Left.neg_neg_iff, hrem, if_true, neg_neg, bind_eq_ok,
    V4.muldiv_eq_ok_iff] at h
  obtain ⟨less, ⟨-, hless, hmax⟩, -⟩ := h
  simp only [V4.maxSwapFee] at hless
  norm_num at hless
  rw [hless, ← lessFee] at hmax
  omega

/-- An input that cannot pay for the target stops strictly before it. -/
theorem StepBounds.priceFromInput_toward (hb : StepBounds current target liquidity fee)
    {amount : ℤ} (hdir : Toward z current target) (ha : 0 ≤ amount)
    (hlt : amount < inputAmount z liquidity current target) :
    priceFromInput z current liquidity amount ≠ target ∧
      Toward z current (priceFromInput z current liquidity amount) ∧
      Toward z (priceFromInput z current liquidity amount) target := by
  have hLpos := liquidity_pos_of_lt hb.liquidity_mem ha hlt
  cases z with
  | true =>
      have hgt := lt_priceFromInput_down hLpos hb.current_mem.1 hb.target_mem.1 ha hlt
      have hle : priceFromInput true current liquidity amount ≤ current :=
        priceFromInput_down_le hLpos hb.current_mem.1 ha
      exact ⟨hgt.ne', by simpa [Toward] using hle, by simpa [Toward] using hgt.le⟩
  | false =>
      have hlt' := priceFromInput_up_lt hLpos hlt
      have hge : current ≤ priceFromInput false current liquidity amount :=
        le_priceFromInput_up hLpos ha
      exact ⟨hlt'.ne, by simpa [Toward] using hge, by simpa [Toward] using hlt'.le⟩

theorem V3.computeSwapStep_input_partial (hb : StepBounds current target liquidity fee)
    (hz : decide (current ≥ target) = z) (hrem : 0 < remaining) (hmax : remaining ≤ maxUint256)
    (hshort : lessFee remaining fee < inputAmount z liquidity current target) {next : ℤ}
    (hnext : V3.getNextSqrtPriceFromInput current liquidity (lessFee remaining fee) z = .ok next)
    (hne : next ≠ target) (hdir' : Toward z current next) (hdir'' : Toward z next target) :
    V3.computeSwapStep current target liquidity remaining fee =
      .ok ⟨next, inputAmount z liquidity current next, outputAmount z liquidity current next,
        remaining - inputAmount z liquidity current next⟩ := by
  have hdir : Toward z current target := hz ▸ toward_of_ge current target
  have hfee := hb.fee_mem
  have hbounds := lessFee_bounds hrem hfee
  have hless : V3.muldiv remaining (1000000 - fee) 1000000 = .ok (lessFee remaining fee) :=
    V3.muldiv_eq_ok_iff.mpr ⟨⟨hrem.le, hmax⟩, ⟨by omega, by norm_num [maxUint256]; omega⟩,
      ⟨by norm_num, by decide⟩, rfl, hbounds.2.trans hmax⟩
  have hprice := hb.current_mem.of_toward hb.target_mem hdir' hdir''
  have htarget := V3.inputDelta_of_bounds hb.liquidity_mem hb.current_mem hb.target_mem hdir
  have hin := V3.inputDelta_of_bounds hb.liquidity_mem hb.current_mem hprice hdir'
  have hout := V3.outputDelta_of_bounds hb.liquidity_mem hb.current_mem hprice hdir'
  simp [V3.computeSwapStep, V3.computeNextPrice, hz, hrem.le, hb.liquidity_mem.1, hless, htarget,
    not_le.mpr hshort, hnext, hne, hne.symm, hin, hout]

theorem V4.computeSwapStep_input_partial (hb : StepBounds current target liquidity fee)
    (hz : decide (current ≥ target) = z) (hrem : 0 < remaining)
    (hshort : lessFee remaining fee < inputAmount z liquidity current target) {next : ℤ}
    (hnext : V4.getNextSqrtPriceFromInput current liquidity (lessFee remaining fee) z = .ok next)
    (hdir' : Toward z current next) (hdir'' : Toward z next target) :
    V4.computeSwapStep current target liquidity (-remaining) fee =
      .ok ⟨next, lessFee remaining fee, outputAmount z liquidity current next,
        remaining - lessFee remaining fee⟩ := by
  have hdir : Toward z current target := hz ▸ toward_of_ge current target
  have htle := (hb.inputAmount_mem hdir (toward_refl z target)).2.2
  have hless : V4.muldiv remaining (V4.maxSwapFee - fee) V4.maxSwapFee =
      .ok (lessFee remaining fee) :=
    V4.muldiv_eq_ok_iff.mpr ⟨by decide, by simp [lessFee, V4.maxSwapFee],
      (hshort.le.trans htle).trans (by norm_num [maxUint256])⟩
  have hprice := hb.current_mem.of_toward hb.target_mem hdir' hdir''
  have htarget := V4.inputDelta_of_bounds hb.liquidity_mem hb.current_mem hb.target_mem hdir
  have hout := V4.outputDelta_of_bounds hb.liquidity_mem hb.current_mem hprice hdir'
  simp [V4.computeSwapStep, hz, hrem, hless, htarget, not_le.mpr hshort, hnext, hout]

end ExactIn

/-! ### Exact output -/

section ExactOut

variable {z : Bool}

/-- The step both ports take for an output that ends at `next`. -/
def outputStep (z : Bool) (current next liquidity amountOut fee : ℤ) : SwapStep :=
  ⟨next, inputAmount z liquidity current next, amountOut,
    ceilDiv (inputAmount z liquidity current next * fee) (1000000 - fee)⟩

/-- The released amounts are far below 256 bits as well. -/
theorem outputAmount_le (hb : StepBounds current target liquidity fee)
    (hdir : Toward z current target) : outputAmount z liquidity current target ≤ 2 ^ 200 := by
  have hL := hb.liquidity_mem
  have hc := hb.current_mem
  have ht := hb.target_mem
  cases z with
  | true =>
      simp only [outputAmount, if_true]
      have hle : liquidity * (current - target) ≤ 2 ^ 200 * q96 :=
        calc liquidity * (current - target) ≤ liquidity * maxUint160 :=
              mul_le_mul_of_nonneg_left (by have := hc.2; have := ht.1; omega) hL.1
          _ ≤ maxUint128 * maxUint160 := mul_le_mul_of_nonneg_right hL.2 (by decide)
          _ ≤ 2 ^ 200 * q96 := by norm_num [maxUint128, maxUint160, q96]
      exact Int.ediv_le_of_le_mul q96_pos hle
  | false =>
      have hle : current ≤ target := by simpa [Toward] using hdir
      have hN := numerator1_bounds hL
      simp only [outputAmount, Bool.false_eq_true, if_false]
      have hinner : liquidity * q96 * (target - current) / target ≤ liquidity * q96 :=
        Int.ediv_le_of_le_mul ht.1 (mul_le_mul_of_nonneg_left (by have := hc.1; omega) hN.1)
      refine Int.ediv_le_of_le_mul hc.1 (hinner.trans ?_)
      have hq : q96 = 79228162514264337593543950336 := by norm_num [q96]
      have hmin := hb.current_ge
      simp only [LiquidityBounds, maxUint128, minSqrtRatio, hq] at *
      omega

theorem computeSwapStep_output_reached (hb : StepBounds current target liquidity fee)
    (hz : decide (current ≥ target) = z) (hrem : remaining < 0)
    (hreach : outputAmount z liquidity current target ≤ -remaining) :
    V3.computeSwapStep current target liquidity remaining fee =
        .ok (outputStep z current target liquidity (outputAmount z liquidity current target) fee) ∧
      V4.computeSwapStep current target liquidity (-remaining) fee =
        .ok (outputStep z current target liquidity (outputAmount z liquidity current target) fee) := by
  have hdir : Toward z current target := hz ▸ toward_of_ge current target
  have hneg : ¬0 ≤ remaining := not_le.mpr hrem
  constructor
  · have hin := V3.inputDelta_of_bounds hb.liquidity_mem hb.current_mem hb.target_mem hdir
    have hout := V3.outputDelta_of_bounds hb.liquidity_mem hb.current_mem hb.target_mem hdir
    have hcharge := hb.v3_fee hdir (toward_refl z target)
    simp [V3.computeSwapStep, V3.computeNextPrice, hz, hneg, hb.liquidity_mem.1, hin, hout,
      hreach, not_lt.mpr hreach, hcharge, outputStep]
  · have hin := V4.inputDelta_of_bounds hb.liquidity_mem hb.current_mem hb.target_mem hdir
    have hout := V4.outputDelta_of_bounds hb.liquidity_mem hb.current_mem hb.target_mem hdir
    have hcharge := hb.v4_fee hdir (toward_refl z target)
    simp [V4.computeSwapStep, hz, not_lt.mpr hrem.le, hin, hout, hreach, hcharge, outputStep]

theorem computeSwapStep_output_partial (hb : StepBounds current target liquidity fee)
    (hz : decide (current ≥ target) = z) (hrem : remaining < 0)
    (hshort : -remaining < outputAmount z liquidity current target) {next : ℤ}
    (hnext : V3.getNextSqrtPriceFromOutput current liquidity (-remaining) z = .ok next)
    (hnext' : V4.getNextSqrtPriceFromOutput current liquidity (-remaining) z = .ok next) :
    V3.computeSwapStep current target liquidity remaining fee =
        .ok (outputStep z current next liquidity (-remaining) fee) ∧
      V4.computeSwapStep current target liquidity (-remaining) fee =
        .ok (outputStep z current next liquidity (-remaining) fee) := by
  have hdir : Toward z current target := hz ▸ toward_of_ge current target
  have hneg : ¬0 ≤ remaining := not_le.mpr hrem
  obtain ⟨hpos, hdir', hdir'', hreleased⟩ :=
    V3.getNextSqrtPriceFromOutput_toward hdir (by omega) hshort hnext
  have hprice := hb.current_mem.of_toward hb.target_mem hdir' hdir''
  constructor
  · have htarget := V3.outputDelta_of_bounds hb.liquidity_mem hb.current_mem hb.target_mem hdir
    have hin := V3.inputDelta_of_bounds hb.liquidity_mem hb.current_mem hprice hdir'
    have hout := V3.outputDelta_of_bounds hb.liquidity_mem hb.current_mem hprice hdir'
    have hcharge := hb.v3_fee hdir' hdir''
    -- whichever price the output is read at, it covers the request and is capped to it
    have hcap : ∀ out, -remaining ≤ out → (if -remaining < out then -remaining else out) =
        -remaining := by
      intro out hle
      split_ifs <;> omega
    by_cases heq : target = next
    · subst heq
      simp [V3.computeSwapStep, V3.computeNextPrice, hz, hneg, hb.liquidity_mem.1, hin, htarget,
        hnext, hcharge, outputStep, hshort]
    · simp [V3.computeSwapStep, V3.computeNextPrice, hz, hneg, hb.liquidity_mem.1, hin, htarget,
        not_le.mpr hshort, hnext, hcharge, outputStep, hout, heq, hcap _ hreleased]
  · have htarget := V4.outputDelta_of_bounds hb.liquidity_mem hb.current_mem hb.target_mem hdir
    have hin := V4.inputDelta_of_bounds hb.liquidity_mem hb.current_mem hprice hdir'
    have hcharge := hb.v4_fee hdir' hdir''
    simp [V4.computeSwapStep, hz, not_lt.mpr hrem.le, hin, htarget, not_le.mpr hshort, hnext',
      hcharge, outputStep]

end ExactOut

/-! ### Both ports -/

/-- Amounts that pass every cast of the V4 loop. -/
structure SafeAmounts (step : SwapStep) : Prop where
  total_mem : 0 ≤ step.amountIn + step.feeAmount ∧ step.amountIn + step.feeAmount ≤ 2 ^ 221
  out_mem : 0 ≤ step.amountOut ∧ step.amountOut ≤ 2 ^ 221

/-- What is left before a partial step is bounded by what the target costs. -/
theorem remaining_le_of_lessFee {cost : ℤ} (hfee : 0 ≤ fee ∧ fee < 1000000)
    (hrem : 0 < remaining) (hcost : cost ≤ 2 ^ 200) (hlt : lessFee remaining fee < cost) :
    remaining ≤ 2 ^ 221 := by
  unfold lessFee at hlt
  rw [Int.ediv_lt_iff_lt_mul (by norm_num)] at hlt
  have hone : remaining * 1 ≤ remaining * (1000000 - fee) :=
    mul_le_mul_of_nonneg_left (by omega) hrem.le
  norm_num at hcost ⊢
  omega

section Charge

variable {z : Bool} {price : ℤ}

theorem StepBounds.charge_mem (hb : StepBounds current target liquidity fee)
    (hp : Toward z current price) (hp' : Toward z price target) :
    0 ≤ inputAmount z liquidity current price +
        ceilDiv (inputAmount z liquidity current price * fee) (1000000 - fee) ∧
      inputAmount z liquidity current price +
        ceilDiv (inputAmount z liquidity current price * fee) (1000000 - fee) ≤ 2 ^ 221 := by
  obtain ⟨-, hnn, hle⟩ := hb.inputAmount_mem hp hp'
  have hfee := hb.fee_mem
  have hcharge := fee_le hle hfee
  have hcharge' := ceilDiv_nonneg (mul_nonneg hnn hfee.1) (by omega : 0 < 1000000 - fee)
  norm_num at hle hcharge ⊢
  omega

end Charge

/-- An exact-input step of both ports. -/
theorem computeSwapStep_input_ports (hb : StepBounds current target liquidity fee)
    (hrem : 0 < remaining) (hsame : SameBranch current target liquidity remaining fee) :
    ExceptRel (fun _ _ => True) (fun step3 step4 => SameStep step3 step4 ∧ SafeAmounts step4)
      (V3.computeSwapStep current target liquidity remaining fee)
      (V4.computeSwapStep current target liquidity (-remaining) fee) := by
  obtain ⟨hbranch, hprice⟩ := hsame hrem
  obtain ⟨z, hz⟩ : ∃ z, decide (current ≥ target) = z := ⟨_, rfl⟩
  have hdir : Toward z current target := hz ▸ toward_of_ge current target
  have hless := lessFee_bounds hrem hb.fee_mem
  have hcost := (hb.inputAmount_mem hdir (toward_refl z target)).2.2
  rcases hbranch with hmax | hbig
  · rcases le_or_gt (inputAmount z liquidity current target) (lessFee remaining fee) with
      hreach | hshort
    · rw [V3.computeSwapStep_input_reached hb hz hrem hmax hreach,
        V4.computeSwapStep_input_reached hb hz hrem (hless.2.trans hmax) hreach]
      exact .ok ⟨⟨rfl, rfl, rfl⟩, hb.charge_mem hdir (toward_refl z target),
        outputAmount_nonneg hb.liquidity_mem.1 hb.current_mem.1 hb.target_mem.1 hdir,
        (outputAmount_le hb hdir).trans (by norm_num)⟩
    · have hLpos := liquidity_pos_of_lt hb.liquidity_mem hless.1 hshort
      obtain ⟨hne, hdir', hdir''⟩ := hb.priceFromInput_toward hdir hless.1 hshort
      -- both ports compute the same price
      have hnext : V3.getNextSqrtPriceFromInput current liquidity (lessFee remaining fee) z =
            .ok (priceFromInput z current liquidity (lessFee remaining fee)) ∧
          V4.getNextSqrtPriceFromInput current liquidity (lessFee remaining fee) z =
            .ok (priceFromInput z current liquidity (lessFee remaining fee)) := by
        cases z with
        | true =>
            have hle : target ≤ current := by simpa using hz
            have hformula := hprice hle hshort
            exact ⟨V3.getNextSqrtPriceFromInput_down hb.liquidity_mem hLpos hb.current_mem
              hless.1 hformula, V4.getNextSqrtPriceFromInput_down_same hLpos hb.current_mem
              hless.1 hformula⟩
        | false =>
            exact getNextSqrtPriceFromInput_up hLpos hb.liquidity_mem hb.current_mem
              hb.target_mem hless.1 (hless.2.trans hmax) (priceFromInput_up_lt hLpos hshort)
      have hmem := hb.current_mem.of_toward hb.target_mem hdir' hdir''
      have hb' : StepBounds current (priceFromInput z current liquidity (lessFee remaining fee))
          liquidity fee := by
        refine ⟨hb.liquidity_mem, hb.current_mem, hmem, hb.current_ge, ?_, hb.fee_mem⟩
        have hc := hb.current_ge
        have ht := hb.target_ge
        cases z <;>
          simp only [Toward, if_true, Bool.false_eq_true, if_false] at hdir' hdir'' <;> omega
      rw [V3.computeSwapStep_input_partial hb hz hrem hmax hshort hnext.1 hne hdir' hdir'',
        V4.computeSwapStep_input_partial hb hz hrem hshort hnext.2 hdir' hdir'']
      refine .ok ⟨⟨rfl, by ring, rfl⟩, ⟨by simpa using hrem.le, ?_⟩,
        outputAmount_nonneg hb.liquidity_mem.1 hb.current_mem.1 hmem.1 hdir',
        (outputAmount_le hb' hdir').trans (by norm_num)⟩
      simpa using remaining_le_of_lessFee hb.fee_mem hrem hcost hshort
  · exact .of_failures (fun _ => V3.computeSwapStep_ne_ok_of_lt hrem (hbig.trans_le hless.2))
      fun _ => V4.computeSwapStep_ne_ok_of_lt hrem hbig

/-- An exact-output step of both ports. -/
theorem computeSwapStep_output_ports (hb : StepBounds current target liquidity fee)
    (hrem : remaining < 0) :
    ExceptRel (fun _ _ => True) (fun step3 step4 => SameStep step3 step4 ∧ SafeAmounts step4)
      (V3.computeSwapStep current target liquidity remaining fee)
      (V4.computeSwapStep current target liquidity (-remaining) fee) := by
  obtain ⟨z, hz⟩ : ∃ z, decide (current ≥ target) = z := ⟨_, rfl⟩
  have hdir : Toward z current target := hz ▸ toward_of_ge current target
  have hout := outputAmount_le hb hdir
  rcases le_or_gt (outputAmount z liquidity current target) (-remaining) with hreach | hshort
  · obtain ⟨h3, h4⟩ := computeSwapStep_output_reached hb hz hrem hreach
    rw [h3, h4]
    exact .ok ⟨⟨rfl, rfl, rfl⟩, hb.charge_mem hdir (toward_refl z target),
      outputAmount_nonneg hb.liquidity_mem.1 hb.current_mem.1 hb.target_mem.1 hdir,
      hout.trans (by norm_num)⟩
  · have hports (next : ℤ) :
        V3.getNextSqrtPriceFromOutput current liquidity (-remaining) z = .ok next ↔
          V4.getNextSqrtPriceFromOutput current liquidity (-remaining) z = .ok next :=
      getNextSqrtPriceFromOutput_ports hb.liquidity_mem hb.current_mem (by omega)
        ((hshort.le.trans hout).trans (by norm_num [maxUint256]))
    cases h3 : V3.getNextSqrtPriceFromOutput current liquidity (-remaining) z with
    | ok next =>
        have h4 := (hports next).mp h3
        obtain ⟨-, hdir', hdir'', -⟩ :=
          V3.getNextSqrtPriceFromOutput_toward hdir (by omega) hshort h3
        obtain ⟨h3', h4'⟩ := computeSwapStep_output_partial hb hz hrem hshort h3 h4
        rw [h3', h4']
        refine .ok ⟨⟨rfl, rfl, rfl⟩, hb.charge_mem hdir' hdir'', ?_⟩
        simp only [outputStep]
        norm_num at hout ⊢
        omega
    | error e =>
        cases h4 : V4.getNextSqrtPriceFromOutput current liquidity (-remaining) z with
        | ok next =>
            rw [(hports next).mpr h4] at h3
            cases h3
        | error e' =>
            have hrem' := not_le.mpr hrem
            refine .of_failures (fun step h => ?_) fun step h => ?_
            · simp only [V3.computeSwapStep, V3.computeNextPrice, ge_iff_le, hrem', decide_false,
                Bool.false_eq_true, if_false, ite_error_eq_ok, bind_eq_ok] at h
              obtain ⟨-, price, ⟨out, htarget, hprice⟩, -⟩ := h
              rw [hz, V3.outputDelta_of_bounds hb.liquidity_mem hb.current_mem hb.target_mem hdir]
                at htarget
              cases htarget
              rw [if_neg (not_le.mpr hshort), hz, h3] at hprice
              cases hprice
            · simp only [V4.computeSwapStep, ge_iff_le, neg_lt_zero, not_lt.mpr hrem.le, if_false,
                bind_eq_ok] at h
              obtain ⟨out, htarget, price, hprice, -⟩ := h
              rw [hz, V4.outputDelta_of_bounds hb.liquidity_mem hb.current_mem hb.target_mem hdir]
                at htarget
              cases htarget
              rw [if_neg (not_le.mpr hshort), hz, h4] at hprice
              cases hprice

/-! ### Where the ports part -/

/-- V3 rejects the exact quotient when its denominator does not fit. -/
theorem V3.getNextSqrtPriceFromInput_ne_ok {amount next : ℤ} (hc : 0 < current)
    (ha : 0 < amount) (hfit : amount * current < maxUint256)
    (hden : maxUint256 < liquidity * q96 + amount * current) :
    V3.getNextSqrtPriceFromInput current liquidity amount true ≠ .ok next := by
  intro h
  have hprod : 0 ≤ amount * current := mul_nonneg ha.le hc.le
  simp only [V3.getNextSqrtPriceFromInput, ite_error_eq_ok, if_true,
    V3.getNextSqrtPriceFromAmount0RoundingUp, ha.ne', if_false, hfit, ge_iff_le,
    le_add_iff_nonneg_right, hprod, and_self, V3.muldivRoundingUp_eq_ok_iff] at h
  omega

/-- A partial step towards lower prices whose price the ports compute differently: V4
spends the whole input, V3 fails or ends at another price. -/
theorem computeSwapStep_input_gap (hb : StepBounds current target liquidity fee)
    (hrem : 0 < remaining) (hle : target ≤ current)
    (hshort : lessFee remaining fee < inputAmount true liquidity current target)
    (hgap : ¬SamePriceFormula current liquidity (lessFee remaining fee)) :
    ∃ step4, V4.computeSwapStep current target liquidity (-remaining) fee = .ok step4 ∧
      step4.amountIn + step4.feeAmount = remaining ∧ SafeAmounts step4 ∧
      target < step4.sqrtRatioNextX96 ∧ step4.sqrtRatioNextX96 ≤ current ∧
      ∀ step3, V3.computeSwapStep current target liquidity remaining fee = .ok step3 →
        step3.sqrtRatioNextX96 ≠ target ∧
          step3.sqrtRatioNextX96 ≠ step4.sqrtRatioNextX96 := by
  have hz : decide (current ≥ target) = true := by simpa using hle
  have hdir : Toward true current target := hz ▸ toward_of_ge current target
  have hless := lessFee_bounds hrem hb.fee_mem
  have hLpos := liquidity_pos_of_lt hb.liquidity_mem hless.1 hshort
  have hcost := (hb.inputAmount_mem hdir (toward_refl true target)).2.2
  obtain ⟨next, hnext, hne, heq⟩ :=
    V4.getNextSqrtPriceFromInput_down hLpos hb.current_mem hless.1
  simp only [SamePriceFormula, not_or, not_and, not_lt, not_le] at hgap
  obtain ⟨hden, hprod, hquot⟩ := hgap
  have hLN := numerator1_bounds hb.liquidity_mem
  have hpos : 0 < lessFee remaining fee := by
    by_contra hnonpos
    have hzero : lessFee remaining fee = 0 := by omega
    rw [hzero] at hden
    simp only [zero_mul, add_zero] at hden
    have := hden (by decide)
    omega
  -- V4 takes the exact quotient in both cases
  have hexact : next = ceilDiv (liquidity * q96 * current)
      (liquidity * q96 + lessFee remaining fee * current) := by
    by_cases hmax' : lessFee remaining fee * current = maxUint256
    · exact heq hmax'
    · have hlt : lessFee remaining fee * current < maxUint256 := by omega
      rw [hne hmax']
      simp [priceFromInput, hpos.ne', hlt]
  have hgt : target < next :=
    hexact ▸ lt_exactQuotient hLpos hb.current_mem.1 hb.target_mem.1 hless.1 hshort
  have hle' : next ≤ current := hexact ▸ exactQuotient_le hLpos hb.current_mem.1 hless.1
  have hdir' : Toward true current next := by simpa [Toward] using hle'
  have hdir'' : Toward true next target := by simpa [Toward] using hgt.le
  have hmem := hb.current_mem.of_toward hb.target_mem hdir' hdir''
  have hb' : StepBounds current next liquidity fee :=
    ⟨hb.liquidity_mem, hb.current_mem, hmem, hb.current_ge, hb.target_ge.trans hgt.le, hb.fee_mem⟩
  refine ⟨_, V4.computeSwapStep_input_partial hb hz hrem hshort hnext hdir' hdir'', by simp,
    ⟨⟨by simpa using hrem.le, by
      simpa using remaining_le_of_lessFee hb.fee_mem hrem hcost hshort⟩,
    outputAmount_nonneg hb.liquidity_mem.1 hb.current_mem.1 hmem.1 hdir',
    (outputAmount_le hb' hdir').trans (by norm_num)⟩, hgt, hle', fun step3 h3 => ?_⟩
  by_cases hmax' : lessFee remaining fee * current = maxUint256
  · have hunfit : ¬lessFee remaining fee * current < maxUint256 := by omega
    obtain ⟨-, -, -, ⟨hreach, -⟩ | ⟨-, -, -, hshort3, -, -, hstep⟩⟩ :=
      V3.computeSwapStep_exactIn hrem.le h3
    · rw [hz, ← lessFee] at hreach
      omega
    · rw [hz, ← lessFee] at hstep hshort3
      refine ⟨by rw [hstep]; exact hshort3, fun hsame => hquot hmax' ?_⟩
      rw [hstep] at hsame
      simp only [priceFromInput, if_true, hpos.ne', if_false, hunfit] at hsame
      rw [← hexact, hsame]
  · have hlt : lessFee remaining fee * current < maxUint256 := by omega
    simp only [V3.computeSwapStep, V3.computeNextPrice, ge_iff_le, hrem.le, decide_true, if_true,
      ite_error_eq_ok, bind_eq_ok] at h3
    obtain ⟨-, price, ⟨less, hmul, cost, hin, hprice⟩, -⟩ := h3
    obtain ⟨-, -, -, rfl, -⟩ := V3.muldiv_eq_ok_iff.mp hmul
    rw [hz, V3.inputDelta_of_bounds hb.liquidity_mem hb.current_mem hb.target_mem hdir] at hin
    cases hin
    rw [← lessFee, if_neg (not_le.mpr hshort)] at hprice
    obtain ⟨next3, hnext3, -⟩ := bind_eq_ok.mp hprice
    rw [hz] at hnext3
    exact absurd hnext3
      (V3.getNextSqrtPriceFromInput_ne_ok hb.current_mem.1 hpos hlt (hden hlt))

end Step

end Degenbot
