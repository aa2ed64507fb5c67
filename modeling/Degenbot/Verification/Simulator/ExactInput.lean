import Degenbot.Verification.Simulator.Viability
import Degenbot.Verification.Simulator.Rate

/-! # The passes of an exact input

Amounts add up along a move up to their roundings, and the price after an input is the
farthest price that the input pays for. A pass either pays for its target or spends all
that is left. -/

namespace Degenbot

open Library

/-! ## Amounts along a move -/

section Amounts

variable {z : Bool} {liquidity current middle price amount : ℤ}

theorem inputAmount_le_iff (hc : 0 < current) (hp : 0 < price) :
    inputAmount z liquidity current price ≤ amount ↔
      if z then liquidity * q96 * (current - price) ≤ amount * price * current
      else liquidity * (price - current) ≤ amount * q96 := by
  cases z with
  | true =>
      simp only [inputAmount, if_true]
      rw [ceilDiv_le_iff hp, ceilDiv_le_iff hc]
  | false =>
      simp only [inputAmount, Bool.false_eq_true, if_false]
      rw [ceilDiv_le_iff q96_pos]

theorem le_outputAmount_iff (hc : 0 < current) (hp : 0 < price) :
    amount ≤ outputAmount z liquidity current price ↔
      if z then amount * q96 ≤ liquidity * (current - price)
      else amount * current * price ≤ liquidity * q96 * (price - current) := by
  cases z with
  | true =>
      simp only [outputAmount, if_true]
      rw [Int.le_ediv_iff_mul_le q96_pos]
  | false =>
      simp only [outputAmount, Bool.false_eq_true, if_false]
      rw [Int.le_ediv_iff_mul_le hc, Int.le_ediv_iff_mul_le hp]

/-- A move costs at most the sum of its parts. -/
theorem inputAmount_triangle (hc : 0 < current) (hm : 0 < middle) (hp : 0 < price) :
    inputAmount z liquidity current price ≤
      inputAmount z liquidity current middle + inputAmount z liquidity middle price := by
  rw [inputAmount_le_iff hc hp]
  have hfirst := (@inputAmount_le_iff z liquidity current middle _ hc hm).mp le_rfl
  have hsecond := (@inputAmount_le_iff z liquidity middle price _ hm hp).mp le_rfl
  generalize inputAmount z liquidity current middle = first at hfirst ⊢
  generalize inputAmount z liquidity middle price = second at hsecond ⊢
  cases z with
  | true =>
      simp only [if_true] at hfirst hsecond ⊢
      apply le_of_mul_le_mul_right _ hm
      calc liquidity * q96 * (current - price) * middle
          = liquidity * q96 * (current - middle) * price +
              liquidity * q96 * (middle - price) * current := by ring
        _ ≤ first * middle * current * price + second * price * middle * current :=
            add_le_add (mul_le_mul_of_nonneg_right hfirst hp.le)
              (mul_le_mul_of_nonneg_right hsecond hc.le)
        _ = (first + second) * price * current * middle := by ring
  | false =>
      simp only [Bool.false_eq_true, if_false] at hfirst hsecond ⊢
      linarith

/-- A move releases at least the sum of its parts. -/
theorem outputAmount_triangle (hc : 0 < current) (hm : 0 < middle) (hp : 0 < price) :
    outputAmount z liquidity current middle + outputAmount z liquidity middle price ≤
      outputAmount z liquidity current price := by
  rw [le_outputAmount_iff hc hp]
  have hfirst := (@le_outputAmount_iff z liquidity current middle _ hc hm).mp le_rfl
  have hsecond := (@le_outputAmount_iff z liquidity middle price _ hm hp).mp le_rfl
  generalize outputAmount z liquidity current middle = first at hfirst ⊢
  generalize outputAmount z liquidity middle price = second at hsecond ⊢
  cases z with
  | true =>
      simp only [if_true] at hfirst hsecond ⊢
      linarith
  | false =>
      simp only [Bool.false_eq_true, if_false] at hfirst hsecond ⊢
      apply le_of_mul_le_mul_right _ hm
      calc (first + second) * current * price * middle
          = first * current * middle * price + second * middle * price * current := by ring
        _ ≤ liquidity * q96 * (middle - current) * price +
              liquidity * q96 * (price - middle) * current :=
            add_le_add (mul_le_mul_of_nonneg_right hfirst hp.le)
              (mul_le_mul_of_nonneg_right hsecond hc.le)
        _ = liquidity * q96 * (price - current) * middle := by ring

/-- A longer move releases at least as much. -/
theorem outputAmount_mono (hL : 0 ≤ liquidity) (hc : 0 < current) (hm : 0 < middle)
    (hp : 0 < price) (hdir : Toward z middle price) :
    outputAmount z liquidity current middle ≤ outputAmount z liquidity current price :=
  le_trans (le_add_of_nonneg_right (outputAmount_nonneg hL hm hp hdir))
    (outputAmount_triangle hc hm hp)

/-- A longer move costs at least as much. -/
theorem inputAmount_mono (hL : 0 ≤ liquidity) (hc : 0 < current) (hm : 0 < middle)
    (hp : 0 < price) (hmove : Toward z current middle) (hdir : Toward z middle price) :
    inputAmount z liquidity current middle ≤ inputAmount z liquidity current price := by
  have hbase : 0 ≤ liquidity * q96 := mul_nonneg hL q96_pos.le
  rw [inputAmount_le_iff hc hm]
  have hfar := (@inputAmount_le_iff z liquidity current price _ hc hp).mp le_rfl
  generalize inputAmount z liquidity current price = cost at hfar ⊢
  cases z with
  | true =>
      simp only [if_true, Toward] at hfar hmove hdir ⊢
      apply le_of_mul_le_mul_right _ hp
      calc liquidity * q96 * (current - middle) * price
          ≤ liquidity * q96 * (current - price) * middle := by
            have hgap : (current - middle) * price ≤ (current - price) * middle := by nlinarith
            have hscaled := mul_le_mul_of_nonneg_left hgap hbase
            linarith
        _ ≤ cost * price * current * middle := mul_le_mul_of_nonneg_right hfar hm.le
        _ = cost * middle * current * price := by ring
  | false =>
      simp only [Bool.false_eq_true, if_false, Toward] at hfar hdir ⊢
      have hscaled := mul_le_mul_of_nonneg_left (sub_le_sub_right hdir current) hL
      linarith

end Amounts

/-! ## The price after an input -/

section Price

variable {z : Bool} {liquidity current price amount amount' : ℤ}

/-- No price that the input pays for lies beyond the price after the input. -/
theorem toward_priceFromInput (hL : 0 < liquidity) (hc : 0 < current) (hp : 0 < price)
    (ha : 0 ≤ amount) (hexact : z = true → amount * current < maxUint256)
    (hpays : inputAmount z liquidity current price ≤ amount) :
    Toward z price (priceFromInput z current liquidity amount) := by
  have hN : 0 < liquidity * q96 := mul_pos hL q96_pos
  rw [inputAmount_le_iff hc hp] at hpays
  cases z with
  | true =>
      simp only [if_true] at hpays
      simp only [Toward, priceFromInput, if_true]
      have hdirect : liquidity * q96 * current ≤ price * (liquidity * q96 + amount * current) := by
        linarith
      by_cases hzero : amount = 0
      · rw [if_pos hzero]
        rw [hzero, zero_mul, add_zero, mul_comm price] at hdirect
        exact le_of_mul_le_mul_left hdirect hN
      · have hden : 0 < liquidity * q96 + amount * current := by positivity
        rw [if_neg hzero, if_pos (hexact rfl), ceilDiv_le_iff hden]
        exact hdirect
  | false =>
      simp only [Bool.false_eq_true, if_false] at hpays
      simp only [Toward, priceFromInput, Bool.false_eq_true, if_false]
      have hquot : price - current ≤ amount * q96 / liquidity := by
        rw [Int.le_ediv_iff_mul_le hL]
        linarith
      linarith

theorem priceFromInput_pos (hL : 0 < liquidity) (hc : 0 < current) (ha : 0 ≤ amount) :
    0 < priceFromInput z current liquidity amount := by
  have hN : 0 < liquidity * q96 := mul_pos hL q96_pos
  cases z with
  | true =>
      simp only [priceFromInput, if_true]
      split_ifs with hzero hfit
      · exact hc
      · rw [lt_ceilDiv_iff (by positivity)]
        rw [zero_mul]
        exact mul_pos hN hc
      · have hfloor : 0 ≤ liquidity * q96 / current := Int.ediv_nonneg hN.le hc.le
        rw [lt_ceilDiv_iff (by omega), zero_mul]
        exact hN
  | false => exact hc.trans_le (le_priceFromInput_up hL ha)

/-- A larger input moves the price at least as far, in either branch. -/
theorem priceFromInput_mono (hL : 0 < liquidity) (hc : 0 < current) (ha : 0 ≤ amount)
    (hle : amount ≤ amount') :
    Toward z (priceFromInput z current liquidity amount)
      (priceFromInput z current liquidity amount') := by
  have hpos := priceFromInput_pos (z := z) hL hc ha
  have hpays := V3.inputAmount_priceFromInput_le hL hc ha hpos
  by_cases hexact : z = true → amount' * current < maxUint256
  · exact toward_priceFromInput hL hc hpos (ha.trans hle) hexact (hpays.trans hle)
  · -- the failsafe rounds one divisor down, which is less than one unit of the input
    rw [Classical.not_imp] at hexact
    obtain ⟨rfl, hfail⟩ := hexact
    rcases hle.eq_or_lt with rfl | hlt
    · exact toward_refl true _
    · have hN : 0 < liquidity * q96 := mul_pos hL q96_pos
      have hfloor : 0 ≤ liquidity * q96 / current := Int.ediv_nonneg hN.le hc.le
      have hnext := Int.lt_ediv_add_one_mul_self (liquidity * q96) hc
      rw [inputAmount_le_iff hc hpos, if_pos rfl] at hpays
      have hfar : priceFromInput true current liquidity amount' =
          ceilDiv (liquidity * q96) (liquidity * q96 / current + amount') := by
        simp only [priceFromInput, if_true]
        rw [if_neg (by omega), if_neg hfail]
      simp only [Toward, if_true]
      rw [hfar, ceilDiv_le_iff (by omega)]
      generalize priceFromInput true current liquidity amount = near at hpos hpays ⊢
      apply le_of_mul_le_mul_right _ hc
      calc liquidity * q96 * current
          ≤ near * (liquidity * q96 + amount * current) := by linarith
        _ ≤ near * ((liquidity * q96 / current + 1) * current + amount * current) :=
            mul_le_mul_of_nonneg_left (by linarith) hpos.le
        _ = near * (liquidity * q96 / current + (amount + 1)) * current := by ring
        _ ≤ near * (liquidity * q96 / current + amount') * current :=
            mul_le_mul_of_nonneg_right
              (mul_le_mul_of_nonneg_left (by omega) hpos.le) hc.le

end Price

/-! ## Searches that start closer to the stop -/

/-- The next stop is the same from every tick that lies before it. -/
theorem IsNextStop.of_between {tickData : LiquidityMap} {tickSpacing tick tick' next : ℤ} {z : Bool}
    (hs : 0 < tickSpacing) (h : IsNextStop tickData tickSpacing z tick next)
    (hbetween : if z then next ≤ tick' ∧ tick' ≤ tick else tick ≤ tick' ∧ tick' < next) :
    IsNextStop tickData tickSpacing z tick' next := by
  cases z with
  | true =>
      simp only [if_true] at hbetween
      obtain ⟨q, hq, hle, hlt⟩ := boundaryTick_down_spec hs tick
      have hbehind : boundaryTick tickSpacing true tick ≤ next := h.2 ⟨.inr rfl, hle⟩
      have hsame : boundaryTick tickSpacing true tick' = boundaryTick tickSpacing true tick :=
        boundaryTick_down_eq hs hq (by omega) (by omega)
      refine ⟨⟨?_, hbetween.1⟩, ?_⟩
      · rw [hsame]
        exact h.1.1
      · rintro t ⟨ht, hta⟩
        rw [hsame] at ht
        exact h.2 ⟨ht, hta.trans hbetween.2⟩
  | false =>
      simp only [Bool.false_eq_true, if_false] at hbetween
      obtain ⟨q, hq, hle, hlt⟩ := boundaryTick_up_spec hs tick
      have hbehind : next ≤ boundaryTick tickSpacing false tick := h.2 ⟨.inr rfl, hlt⟩
      have hsame : boundaryTick tickSpacing false tick' = boundaryTick tickSpacing false tick :=
        boundaryTick_up_eq hs hq (by omega) (by omega)
      refine ⟨⟨?_, hbetween.2⟩, ?_⟩
      · rw [hsame]
        exact h.1.1
      · rintro t ⟨ht, hta⟩
        rw [hsame] at ht
        exact h.2 ⟨ht, hbetween.1.trans_lt hta⟩

/-! ## What the fee leaves -/

section Fee

variable {remaining remaining' fee amountIn amountIn' : ℤ}

/-- An input with the fee that is charged on it. -/
def withFee (amountIn fee : ℤ) : ℤ := amountIn + ceilDiv (amountIn * fee) (1000000 - fee)

theorem lessFee_mono (hfee : fee ≤ 1000000) (hle : remaining ≤ remaining') :
    lessFee remaining fee ≤ lessFee remaining' fee :=
  Int.ediv_le_ediv (by norm_num) (mul_le_mul_of_nonneg_right hle (by omega))

theorem lessFee_add_le (remaining remaining' fee : ℤ) :
    lessFee remaining fee + lessFee remaining' fee ≤ lessFee (remaining + remaining') fee := by
  unfold lessFee
  have hfirst := Int.ediv_mul_le (remaining * (1000000 - fee)) (by norm_num : (1000000 : ℤ) ≠ 0)
  have hsecond := Int.ediv_mul_le (remaining' * (1000000 - fee)) (by norm_num : (1000000 : ℤ) ≠ 0)
  rw [Int.le_ediv_iff_mul_le (by norm_num)]
  linarith

theorem withFee_lessFee_le (hfee : fee < 1000000) :
    withFee (lessFee remaining fee) fee ≤ remaining :=
  V3.amountIn_add_fee_le hfee le_rfl

/-- Fees of parts sum up to at least the fee of the whole. -/
theorem withFee_add_le (hfee0 : 0 ≤ fee) (hfee : fee < 1000000) {total : ℤ}
    (htotal : total ≤ amountIn + amountIn') :
    withFee total fee ≤ withFee amountIn fee + withFee amountIn' fee := by
  have hfirst := le_ceilDiv_mul (a := amountIn * fee) (b := 1000000 - fee) (by omega)
  have hsecond := le_ceilDiv_mul (a := amountIn' * fee) (b := 1000000 - fee) (by omega)
  have hmul : total * fee ≤ (amountIn + amountIn') * fee := mul_le_mul_of_nonneg_right htotal hfee0
  have hceil : ceilDiv (total * fee) (1000000 - fee) ≤
      ceilDiv (amountIn * fee) (1000000 - fee) + ceilDiv (amountIn' * fee) (1000000 - fee) := by
    rw [ceilDiv_le_iff (by omega)]
    linarith
  unfold withFee
  linarith

end Fee

namespace V3

/-! ## Steps -/

section Step

variable {z : Bool} {liquidity current target remaining fee : ℤ} {step : SwapStep}

/-- An exact-input step pays for its target, or spends what the fee leaves and stops short. -/
inductive Spends (z : Bool) (liquidity current target remaining fee : ℤ) : SwapStep → Prop
  | full (hpaid : inputAmount z liquidity current target ≤ lessFee remaining fee)
      (hfee0 : 0 ≤ fee) (hfee : fee < 1000000) :
      Spends z liquidity current target remaining fee
        ⟨target, inputAmount z liquidity current target, outputAmount z liquidity current target,
          ceilDiv (inputAmount z liquidity current target * fee) (1000000 - fee)⟩
  | short (hL : 0 < liquidity)
      (hshort : lessFee remaining fee < inputAmount z liquidity current target)
      (hne : priceFromInput z current liquidity (lessFee remaining fee) ≠ target)
      (hmoved : Toward z current (priceFromInput z current liquidity (lessFee remaining fee)))
      (hrest : Toward z (priceFromInput z current liquidity (lessFee remaining fee)) target) :
      Spends z liquidity current target remaining fee
        ⟨priceFromInput z current liquidity (lessFee remaining fee),
          inputAmount z liquidity current
            (priceFromInput z current liquidity (lessFee remaining fee)),
          outputAmount z liquidity current
            (priceFromInput z current liquidity (lessFee remaining fee)),
          remaining - inputAmount z liquidity current
            (priceFromInput z current liquidity (lessFee remaining fee))⟩

theorem computeSwapStep_spends (hrem : 0 ≤ remaining) (hdir : Toward z current target)
    (h : computeSwapStep current target liquidity remaining fee = .ok step) :
    (0 ≤ liquidity ∧ 0 < current ∧ 0 < target ∧ 0 ≤ lessFee remaining fee) ∧
      Spends z liquidity current target remaining fee step := by
  obtain ⟨hL, hc, ht, hcases⟩ := computeSwapStep_exactIn hrem h
  rcases toward_decide hdir with hz | heq
  · rw [hz] at hcases
    rcases hcases with ⟨hpaid, ⟨hfee0, hfee⟩, rfl⟩ | ⟨hless, hshort, hLpos, hne, hmoved, hrest, rfl⟩
    · exact ⟨⟨hL, hc, ht, (inputAmount_nonneg hL hc ht hdir).trans hpaid⟩,
        .full hpaid hfee0 hfee⟩
    · exact ⟨⟨hL, hc, ht, hless⟩, .short hLpos hshort hne hmoved hrest⟩
  · -- nowhere to go: the amounts vanish in either direction
    subst heq
    have hin : ∀ z, inputAmount z liquidity current current = 0 := by
      intro z
      cases z <;> simp [inputAmount]
    rw [hin] at hcases
    rcases hcases with ⟨hpaid, ⟨hfee0, hfee⟩, rfl⟩ | ⟨hless, hshort, -⟩
    · refine ⟨⟨hL, hc, ht, hpaid⟩, ?_⟩
      have hfull := @Spends.full z liquidity current current remaining fee
        (by rw [hin]; exact hpaid) hfee0 hfee
      simpa only [hin, outputAmount_self] using hfull
    · omega

end Step

/-! ## Passes -/

/-- The prices at which a pass ends: the target, or a price before it. -/
def SwapArgs.targetOf (args : SwapArgs) (stop : ℤ) : ℤ :=
  getSqrtPriceTarget args.zeroForOne (sqrtRatio (clampTick args.zeroForOne stop))
    args.sqrtPriceLimitX96

/-- A pass of an exact input. -/
structure SwapArgs.ExactPass (args : SwapArgs) (state : SwapState) (stop : ℤ) (step : SwapStep)
    (state' : SwapState) : Prop where
  next_stop : IsNextStop args.snapshot.tickData args.snapshot.tickSpacing args.zeroForOne
    state.tick stop
  toward_target : Toward args.zeroForOne state.sqrtPriceX96 (args.targetOf stop)
  target_limit : Toward args.zeroForOne (args.targetOf stop) args.sqrtPriceLimitX96
  target_stop : Toward args.zeroForOne (args.targetOf stop)
    (sqrtRatio (clampTick args.zeroForOne stop))
  stop_valid : ValidTick (clampTick args.zeroForOne stop)
  liquidity_nonneg : 0 ≤ state.liquidity
  price_pos : 0 < state.sqrtPriceX96
  target_pos : 0 < args.targetOf stop
  less_nonneg : 0 ≤ lessFee state.amountSpecifiedRemaining args.fee
  spends : Spends args.zeroForOne state.liquidity state.sqrtPriceX96 (args.targetOf stop)
    state.amountSpecifiedRemaining args.fee step
  moved : Toward args.zeroForOne state.sqrtPriceX96 step.sqrtRatioNextX96
  price_eq : state'.sqrtPriceX96 = step.sqrtRatioNextX96
  remaining_eq : state'.amountSpecifiedRemaining =
    state.amountSpecifiedRemaining - (step.amountIn + step.feeAmount)
  calculated_eq : state'.amountCalculated = state.amountCalculated - step.amountOut
  tick_reached : step.sqrtRatioNextX96 = sqrtRatio (clampTick args.zeroForOne stop) →
    state'.tick = advance args.zeroForOne (clampTick args.zeroForOne stop)
  liquidity_short : step.sqrtRatioNextX96 ≠ sqrtRatio (clampTick args.zeroForOne stop) →
    state'.liquidity = state.liquidity
  tick_short : step.sqrtRatioNextX96 ≠ sqrtRatio (clampTick args.zeroForOne stop) →
    (step.sqrtRatioNextX96 = state.sqrtPriceX96 ∧ state'.tick = state.tick) ∨
      (step.sqrtRatioNextX96 ≠ state.sqrtPriceX96 ∧ IsTickOf step.sqrtRatioNextX96 state'.tick)

section Pass

variable {args : SwapArgs} {state state' : SwapState} {stop : ℤ} {step : SwapStep}

theorem SwapArgs.body_exactInput (hs : 0 < args.snapshot.tickSpacing)
    (hexact : args.exactInput = true) (hinv : args.Inv state)
    (hiter : Iterates args.guard args.body state state') :
    ∃ stop step, args.ExactPass state stop step state' := by
  obtain ⟨hguard, hbody⟩ := hiter
  obtain ⟨⟨stop, ticks⟩, hnextTick, hmove⟩ := bind_eq_ok.mp hbody
  obtain ⟨hstop, -, -⟩ := SwapArgs.nextTick_spec hs (hinv.walk hguard) hnextTick
  obtain ⟨sqrtPriceNext, step, hnext, hstep, hfinish⟩ := SwapArgs.moveTo_eq_ok hmove
  obtain ⟨hrem, hcalc, hprice, -⟩ := finishStep_frame hfinish
  rw [SwapArgs.applyAmounts_sqrtPriceX96] at hprice
  simp only [SwapArgs.applyAmounts, hexact, if_true] at hrem hcalc
  have hdir := SwapArgs.toward_stop hinv hstop hnext
  obtain ⟨hvalidStop, rfl⟩ := getSqrtRatioAtTick_eq_ok_iff.mp hnext
  obtain ⟨htarget, htlimit, htstop⟩ := toward_getSqrtPriceTarget hdir hinv.within_limit
  have hsign := hinv.signKept
  simp only [SwapArgs.SignKept, hexact, if_true] at hsign
  obtain ⟨⟨hL, hc, ht, hless⟩, hspends⟩ := computeSwapStep_spends hsign htarget hstep
  have hmoved := ((computeSwapStep_spec hstep).toward htarget).1
  refine ⟨stop.1, step, ⟨hstop, htarget, htlimit, htstop, hvalidStop, hL, hc, ht, hless, hspends,
    hmoved, hprice, hrem, hcalc, ?_, ?_, ?_⟩⟩
  · intro hreached
    rcases finishStep_cases hfinish with ⟨-, liquidity, -, rfl⟩ | ⟨hne, -⟩ | ⟨hne, -⟩
    · simp only [advance]
    · exact absurd (by simpa using hreached) hne
    · exact absurd (by simpa using hreached) hne
  · intro hshort
    rcases finishStep_cases hfinish with ⟨heq, -⟩ | ⟨-, -, tick, -, rfl⟩ | ⟨-, -, rfl⟩
    · exact absurd (by simpa using heq) hshort
    · simp
    · simp
  · intro hshort
    rcases finishStep_cases hfinish with ⟨heq, -⟩ | ⟨-, hmoved, tick, htick, rfl⟩ | ⟨-, hsame, rfl⟩
    · exact absurd (by simpa using heq) hshort
    · rw [SwapArgs.applyAmounts_sqrtPriceX96] at hmoved htick
      exact .inr ⟨hmoved, (getTickAtSqrtRatio_eq_ok_iff.mp htick).2.2⟩
    · exact .inl ⟨by simpa using hsame, by simp⟩

/-- The two ends of a pass, in terms of the states. -/
theorem SwapArgs.ExactPass.ends (h : args.ExactPass state stop step state') :
    (inputAmount args.zeroForOne state.liquidity state.sqrtPriceX96 (args.targetOf stop) ≤
        lessFee state.amountSpecifiedRemaining args.fee ∧ 0 ≤ args.fee ∧ args.fee < 1000000 ∧
      step.sqrtRatioNextX96 = args.targetOf stop ∧
      state'.amountSpecifiedRemaining = state.amountSpecifiedRemaining - withFee
        (inputAmount args.zeroForOne state.liquidity state.sqrtPriceX96 (args.targetOf stop))
        args.fee) ∨
    (0 < state.liquidity ∧
      lessFee state.amountSpecifiedRemaining args.fee <
        inputAmount args.zeroForOne state.liquidity state.sqrtPriceX96 (args.targetOf stop) ∧
      step.sqrtRatioNextX96 = priceFromInput args.zeroForOne state.sqrtPriceX96 state.liquidity
        (lessFee state.amountSpecifiedRemaining args.fee) ∧
      step.sqrtRatioNextX96 ≠ args.targetOf stop ∧
      Toward args.zeroForOne step.sqrtRatioNextX96 (args.targetOf stop) ∧
      state'.amountSpecifiedRemaining = 0) := by
  have hrem := h.remaining_eq
  have hspends := h.spends
  clear h
  cases hspends with
  | full hpaid hfee0 hfee => exact .inl ⟨hpaid, hfee0, hfee, rfl, hrem⟩
  | short hL hshort hne hmoved hrest =>
      refine .inr ⟨hL, hshort, rfl, hne, hrest, ?_⟩
      rw [hrem]
      ring

theorem SwapArgs.ExactPass.amountOut_eq (h : args.ExactPass state stop step state') :
    step.amountOut = outputAmount args.zeroForOne state.liquidity state.sqrtPriceX96
      step.sqrtRatioNextX96 := by
  have hspends := h.spends
  clear h
  cases hspends with
  | full => rfl
  | short => rfl

theorem SwapArgs.ExactPass.toward_next (h : args.ExactPass state stop step state') :
    Toward args.zeroForOne step.sqrtRatioNextX96 (args.targetOf stop) := by
  rcases h.ends with ⟨-, -, -, hnext, -⟩ | ⟨-, -, -, -, hrest, -⟩
  · rw [hnext]
    exact toward_refl _ _
  · exact hrest

theorem SwapArgs.ExactPass.next_pos (h : args.ExactPass state stop step state') :
    0 < step.sqrtRatioNextX96 :=
  pos_of_toward h.price_pos h.target_pos h.moved h.toward_next

theorem SwapArgs.ExactPass.amountOut_nonneg (h : args.ExactPass state stop step state') :
    0 ≤ step.amountOut := by
  rw [h.amountOut_eq]
  exact outputAmount_nonneg h.liquidity_nonneg h.price_pos h.next_pos h.moved

/-- Two passes that end on the stop end on the same tick. -/
theorem SwapArgs.ExactPass.limit_or_tick (h : args.ExactPass state stop step state')
    (hnext : step.sqrtRatioNextX96 = args.targetOf stop) :
    state'.sqrtPriceX96 = args.sqrtPriceLimitX96 ∨
      state'.tick = advance args.zeroForOne (clampTick args.zeroForOne stop) := by
  rw [h.price_eq, hnext]
  by_cases hlimit : args.targetOf stop = args.sqrtPriceLimitX96
  · exact .inl hlimit
  · right
    apply h.tick_reached
    rw [hnext]
    unfold SwapArgs.targetOf getSqrtPriceTarget at hlimit ⊢
    split_ifs at hlimit ⊢ with hbeyond
    · exact absurd rfl hlimit
    · rfl

theorem SwapArgs.ExactPass.before_stop (h : args.ExactPass state stop step state')
    (hne : step.sqrtRatioNextX96 ≠ args.targetOf stop) :
    step.sqrtRatioNextX96 ≠ sqrtRatio (clampTick args.zeroForOne stop) := by
  intro heq
  have hrest := h.toward_next
  have hbeyond := h.target_stop
  rw [← heq] at hbeyond
  cases hz : args.zeroForOne <;>
    simp only [hz, Toward, if_true, Bool.false_eq_true, if_false] at hrest hbeyond <;> omega

/-- Stopping before the target leaves the next stop as it is. -/
theorem SwapArgs.ExactPass.next_stop_short (h : args.ExactPass state stop step state')
    (hs : 0 < args.snapshot.tickSpacing) (hinv : args.Inv state) (hinv' : args.Inv state')
    (hne : step.sqrtRatioNextX96 ≠ args.targetOf stop) :
    IsNextStop args.snapshot.tickData args.snapshot.tickSpacing args.zeroForOne state'.tick
      stop := by
  obtain ⟨hv, hv', hlow, hhigh⟩ := priceWithinTick_iff.mp hinv.price_within
  obtain ⟨hvt, hvt', hlow', hhigh'⟩ := priceWithinTick_iff.mp hinv'.price_within
  have hstop := h.next_stop
  have hbeyond := h.target_stop
  have hvs := h.stop_valid
  have htick := h.tick_short
  have hmove := h.moved
  have hrest := h.toward_next
  have hshort := h.before_stop hne
  rw [h.price_eq] at hlow' hhigh'
  apply hstop.of_between hs
  cases hz : args.zeroForOne with
  | true =>
      simp only [hz, Toward, if_true] at hrest hbeyond hvs htick hmove hshort ⊢
      have hlt : clampTick true stop < state'.tick + 1 :=
        (sqrtRatio_lt_iff hvs hvt').mp (by omega)
      simp only [clampTick, if_true] at hlt
      refine ⟨by omega, ?_⟩
      rcases htick hshort with ⟨-, hsame⟩ | ⟨hstrict, htickOf⟩
      · exact hsame.le
      · have hratio := htickOf.ratio_le
        have hnext : state'.tick < state.tick + 1 := (sqrtRatio_lt_iff hvt hv').mp (by omega)
        omega
  | false =>
      simp only [hz, Toward, Bool.false_eq_true, if_false] at hrest hbeyond hvs htick hmove hshort ⊢
      have hlt : state'.tick < clampTick false stop := (sqrtRatio_lt_iff hvt hvs).mp (by omega)
      simp only [clampTick, Bool.false_eq_true, if_false] at hlt
      refine ⟨?_, by omega⟩
      rcases htick hshort with ⟨-, hsame⟩ | ⟨-, htickOf⟩
      · exact hsame.ge
      · have hratio := htickOf.lt_ratio
        have hnext : state.tick < state'.tick + 1 := (sqrtRatio_lt_iff hv hvt').mp (by omega)
        omega

end Pass

end V3

end Degenbot
