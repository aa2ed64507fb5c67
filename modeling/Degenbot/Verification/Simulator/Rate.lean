import Degenbot.Verification.Simulator.Invariant

/-! # A V3 swap pays out at most the marginal rate

The rate of the price where the swap starts, less the fee, bounds the rate of every step: the
price only gets worse, and every rounding is for the pool. -/

namespace Degenbot.V3

open Library

/-- The rate of exchange at a price, for the token that is paid out. -/
def marginalRate (zeroForOne : Bool) (price : ℤ) : ℚ :=
  if zeroForOne then ((price : ℚ) / q96) ^ 2 else ((q96 : ℚ) / price) ^ 2

/-- What is left of an input after a fee in millionths. -/
def afterFee (fee : ℤ) : ℚ := (1000000 - fee : ℚ) / 1000000

theorem marginalRate_nonneg (z : Bool) (price : ℤ) : 0 ≤ marginalRate z price := by
  unfold marginalRate
  split <;> positivity

/-- The rate falls along a swap. -/
theorem marginalRate_le {z : Bool} {start price : ℤ} (hstart : 0 < start) (hprice : 0 < price)
    (h : Toward z start price) : marginalRate z price ≤ marginalRate z start := by
  have hq : (0 : ℚ) < q96 := by exact_mod_cast q96_pos
  have hs : (0 : ℚ) < start := by exact_mod_cast hstart
  have hp : (0 : ℚ) < price := by exact_mod_cast hprice
  cases z with
  | true =>
      have hle : (price : ℚ) ≤ start := by exact_mod_cast (by simpa [Toward] using h)
      simp only [marginalRate, if_true]
      gcongr
  | false =>
      have hle : (start : ℚ) ≤ price := by exact_mod_cast (by simpa [Toward] using h)
      simp only [marginalRate, Bool.false_eq_true, if_false]
      gcongr

/-! ## Amounts -/

section Amounts

variable {z : Bool} {liquidity current price amount : ℤ}

theorem outputAmount_mul_le_down (hL : 0 ≤ liquidity) (hc : 0 < current) (hp : 0 < price)
    (hdir : price ≤ current) :
    outputAmount true liquidity current price * q96 ^ 2 ≤
      inputAmount true liquidity current price * current ^ 2 := by
  have hin := inputAmount_nonneg (z := true) hL hc hp (by simpa [Toward] using hdir)
  simp only [outputAmount, inputAmount, if_true] at hin ⊢
  have hout := Int.ediv_mul_le (liquidity * (current - price)) q96_pos.ne'
  have hfirst := le_ceilDiv_mul (a := liquidity * q96 * (current - price)) hc
  have hsecond := le_ceilDiv_mul
    (a := ceilDiv (liquidity * q96 * (current - price)) current) hp
  set out := liquidity * (current - price) / q96
  set once := ceilDiv (liquidity * q96 * (current - price)) current
  set paid := ceilDiv once price
  calc out * q96 ^ 2 = out * q96 * q96 := by ring
    _ ≤ liquidity * (current - price) * q96 := mul_le_mul_of_nonneg_right hout q96_pos.le
    _ = liquidity * q96 * (current - price) := by ring
    _ ≤ once * current := hfirst
    _ ≤ paid * price * current := mul_le_mul_of_nonneg_right hsecond hc.le
    _ ≤ paid * current * current :=
        mul_le_mul_of_nonneg_right (mul_le_mul_of_nonneg_left hdir hin) hc.le
    _ = paid * current ^ 2 := by ring

theorem outputAmount_mul_le_up (hL : 0 ≤ liquidity) (hc : 0 < current) (hp : 0 < price)
    (hdir : current ≤ price) :
    outputAmount false liquidity current price * current ^ 2 ≤
      inputAmount false liquidity current price * q96 ^ 2 := by
  have hnonneg := outputAmount_nonneg (z := false) hL hc hp (by simpa [Toward] using hdir)
  simp only [outputAmount, inputAmount, Bool.false_eq_true, if_false] at hnonneg ⊢
  have hfirst := Int.ediv_mul_le (liquidity * q96 * (price - current)) hp.ne'
  have hsecond := Int.ediv_mul_le (liquidity * q96 * (price - current) / price) hc.ne'
  have hin := le_ceilDiv_mul (a := liquidity * (price - current)) q96_pos
  set once := liquidity * q96 * (price - current) / price
  set out := once / current
  set paid := ceilDiv (liquidity * (price - current)) q96
  calc out * current ^ 2 = out * current * current := by ring
    _ ≤ out * current * price :=
        mul_le_mul_of_nonneg_left hdir (mul_nonneg hnonneg hc.le)
    _ ≤ once * price := mul_le_mul_of_nonneg_right hsecond hp.le
    _ ≤ liquidity * q96 * (price - current) := hfirst
    _ = liquidity * (price - current) * q96 := by ring
    _ ≤ paid * q96 * q96 := mul_le_mul_of_nonneg_right hin q96_pos.le
    _ = paid * q96 ^ 2 := by ring

/-- The output between two prices is worth at most the input, at the rate of the first one. -/
theorem outputAmount_le_rate (hL : 0 ≤ liquidity) (hc : 0 < current) (hp : 0 < price)
    (hdir : Toward z current price) :
    (outputAmount z liquidity current price : ℚ) ≤
      inputAmount z liquidity current price * marginalRate z current := by
  have hq : (0 : ℚ) < q96 := by exact_mod_cast q96_pos
  have hc' : (0 : ℚ) < current := by exact_mod_cast hc
  cases z with
  | true =>
      have hmul := outputAmount_mul_le_down hL hc hp (by simpa [Toward] using hdir)
      simp only [marginalRate, if_true, div_pow, ← mul_div_assoc]
      rw [le_div_iff₀ (by positivity)]
      exact_mod_cast hmul
  | false =>
      have hmul := outputAmount_mul_le_up hL hc hp (by simpa [Toward] using hdir)
      simp only [marginalRate, Bool.false_eq_true, if_false, div_pow, ← mul_div_assoc]
      rw [le_div_iff₀ (by positivity)]
      exact_mod_cast hmul

/-- The price after an input is rounded so that the input pays for it. -/
theorem inputAmount_priceFromInput_le (hL : 0 < liquidity) (hc : 0 < current) (ha : 0 ≤ amount)
    (hnext : 0 < priceFromInput z current liquidity amount) :
    inputAmount z liquidity current (priceFromInput z current liquidity amount) ≤ amount := by
  have hN : 0 < liquidity * q96 := mul_pos hL q96_pos
  cases z with
  | true =>
      set next := priceFromInput true current liquidity amount with hdef
      have hpays : liquidity * q96 * current ≤
          next * (liquidity * q96 + amount * current) := by
        simp only [priceFromInput, if_true] at hdef
        split_ifs at hdef with hzero hfit
        · rw [hdef, hzero]
          linarith
        · rw [hdef]
          exact le_ceilDiv_mul (by positivity)
        · have hfloor : 0 ≤ liquidity * q96 / current := Int.ediv_nonneg hN.le hc.le
          have hden : 0 < liquidity * q96 / current + amount := by omega
          have hceil := le_ceilDiv_mul (a := liquidity * q96) hden
          rw [← hdef] at hceil
          have hmul := Int.ediv_mul_le (liquidity * q96) hc.ne'
          calc liquidity * q96 * current
              ≤ next * (liquidity * q96 / current + amount) * current :=
                mul_le_mul_of_nonneg_right hceil hc.le
            _ = next * (liquidity * q96 / current * current + amount * current) := by ring
            _ ≤ next * (liquidity * q96 + amount * current) := by
                exact mul_le_mul_of_nonneg_left (by linarith) hnext.le
      simp only [inputAmount, if_true]
      rw [ceilDiv_le_iff hnext, ceilDiv_le_iff hc]
      linarith
  | false =>
      simp only [inputAmount, priceFromInput, Bool.false_eq_true, if_false]
      rw [ceilDiv_le_iff q96_pos]
      have hmul := Int.ediv_mul_le (amount * q96) hL.ne'
      linarith

end Amounts

/-! ## Steps -/

section Step

variable {z : Bool} {current target liquidity remaining fee : ℤ} {step : SwapStep}

/-- What an exact-input step takes and pays out. -/
structure StepRate (z : Bool) (current fee : ℤ) (step : SwapStep) : Prop where
  fee_le : fee ≤ 1000000
  out_nonneg : 0 ≤ step.amountOut
  out_le : (step.amountOut : ℚ) ≤
    (step.amountIn + step.feeAmount : ℤ) * afterFee fee * marginalRate z current

/-- The input that is charged a fee in full leaves at least what the fee says. -/
theorem amountIn_le_afterFee {amountIn : ℤ} (hfee : fee < 1000000) :
    (amountIn : ℚ) ≤
      (amountIn + ceilDiv (amountIn * fee) (1000000 - fee) : ℤ) * afterFee fee := by
  have hceil := le_ceilDiv_mul (a := amountIn * fee) (by omega : 0 < 1000000 - fee)
  have hmul : amountIn * 1000000 ≤
      (amountIn + ceilDiv (amountIn * fee) (1000000 - fee)) * (1000000 - fee) := by
    linarith
  rw [afterFee, ← mul_div_assoc, le_div_iff₀ (by norm_num)]
  exact_mod_cast hmul

theorem less_le_afterFee :
    ((remaining * (1000000 - fee) / 1000000 : ℤ) : ℚ) ≤ remaining * afterFee fee := by
  have hfloor := Int.ediv_mul_le (remaining * (1000000 - fee)) (by norm_num : (1000000 : ℤ) ≠ 0)
  rw [afterFee, ← mul_div_assoc, le_div_iff₀ (by norm_num)]
  exact_mod_cast hfloor

/-- A step against the direction of the swap has nowhere to go. -/
theorem toward_decide (hdir : Toward z current target) :
    decide (current ≥ target) = z ∨ current = target := by
  cases z with
  | true =>
      left
      simpa [Toward] using hdir
  | false =>
      simp only [Toward, Bool.false_eq_true, if_false] at hdir
      by_cases heq : current = target
      · exact .inr heq
      · left
        simp
        omega

theorem computeSwapStep_rate (hrem : 0 < remaining) (hdir : Toward z current target)
    (h : computeSwapStep current target liquidity remaining fee = .ok step) :
    StepRate z current fee step := by
  obtain ⟨hL, hc, ht, hcases⟩ := computeSwapStep_exactIn hrem.le h
  rcases toward_decide hdir with hz | heq
  · rw [hz] at hcases
    rcases hcases with ⟨-, ⟨-, hfee⟩, rfl⟩ | ⟨hless, -, hLpos, -, hmoved, hrest, rfl⟩
    · refine ⟨hfee.le, outputAmount_nonneg hL hc ht hdir, ?_⟩
      calc (outputAmount z liquidity current target : ℚ)
          ≤ inputAmount z liquidity current target * marginalRate z current :=
            outputAmount_le_rate hL hc ht hdir
        _ ≤ _ := mul_le_mul_of_nonneg_right (amountIn_le_afterFee hfee)
            (marginalRate_nonneg z current)
    · have hnext := pos_of_toward hc ht hmoved hrest
      set less := remaining * (1000000 - fee) / 1000000
      have hfee : fee ≤ 1000000 := by
        have hmul := (Int.le_ediv_iff_mul_le (by norm_num : (0 : ℤ) < 1000000)).mp hless
        by_contra hgt
        nlinarith
      refine ⟨hfee, outputAmount_nonneg hL hc hnext hmoved, ?_⟩
      have hpaid : (inputAmount z liquidity current (priceFromInput z current liquidity less) : ℚ) ≤
          less := by
        exact_mod_cast inputAmount_priceFromInput_le hLpos hc hless hnext
      calc (outputAmount z liquidity current (priceFromInput z current liquidity less) : ℚ)
          ≤ inputAmount z liquidity current (priceFromInput z current liquidity less) *
              marginalRate z current := outputAmount_le_rate hL hc hnext hmoved
        _ ≤ remaining * afterFee fee * marginalRate z current :=
            mul_le_mul_of_nonneg_right (hpaid.trans less_le_afterFee)
              (marginalRate_nonneg z current)
        _ = _ := by
            congr 3
            ring
  · subst heq
    have hin : inputAmount true liquidity current current = 0 := by simp [inputAmount]
    have hout : outputAmount true liquidity current current = 0 := by simp [outputAmount]
    simp only [ge_iff_le, le_refl, decide_true, hin, hout] at hcases
    rcases hcases with ⟨-, ⟨-, hfee⟩, rfl⟩ | ⟨hless, hlt, -⟩
    · exact ⟨hfee.le, le_rfl, by simp⟩
    · omega

end Step

/-! ## Swaps -/

section Swap

variable {args : SwapArgs} {state state' : SwapState}

/-- What holds whenever the guard of the loop is evaluated. Liquidity plays no part in it. -/
structure SwapArgs.RateInv (args : SwapArgs) (state : SwapState) : Prop where
  signKept : args.SignKept state
  moved : Toward args.zeroForOne args.sqrtPriceX96Start state.sqrtPriceX96
  within_limit : Toward args.zeroForOne state.sqrtPriceX96 args.sqrtPriceLimitX96
  price_within : args.guard state = true → PriceWithinTick state.sqrtPriceX96 state.tick
  walk : args.guard state = true → args.WalkAt state.ticks state.tick
  fee_le : state.amountSpecifiedRemaining < args.amountSpecified → args.fee ≤ 1000000
  out_nonneg : 0 ≤ -state.amountCalculated
  out_le : ((-state.amountCalculated : ℤ) : ℚ) ≤
    (args.amountSpecified - state.amountSpecifiedRemaining : ℤ) * afterFee args.fee *
      marginalRate args.zeroForOne args.sqrtPriceX96Start

/-- On the stop that the price has reached, the tick is the one just past it. -/
theorem priceWithinTick_advance {z : Bool} {stop price : ℤ} (hlow : -887272 < stop ∨ z = false)
    (hhigh : stop < 887272 ∨ z = true) (hprice : getSqrtRatioAtTick stop = .ok price) :
    PriceWithinTick price (advance z stop) := by
  obtain ⟨hv, rfl⟩ := getSqrtRatioAtTick_eq_ok_iff.mp hprice
  rw [priceWithinTick_iff]
  cases z with
  | true =>
      have hgt : -887272 < stop := by simpa using hlow
      have hv' : ValidTick (stop - 1) := ⟨by omega, by have := hv.2; omega⟩
      have hsucc : stop - 1 + 1 = stop := by ring
      simp only [advance, if_true, hsucc]
      exact ⟨hv', hv, by exact_mod_cast sqrtRatio_mono hv' hv (by omega), le_rfl⟩
  | false =>
      have hlt : stop < 887272 := by simpa using hhigh
      have hv' : ValidTick (stop + 1) := ⟨by have := hv.1; omega, by omega⟩
      simp only [advance, Bool.false_eq_true, if_false]
      exact ⟨hv, hv', le_rfl, by exact_mod_cast sqrtRatio_mono hv hv' (by omega)⟩

theorem SwapArgs.body_rateInv (hvalid : args.Valid) (hs : 0 < args.snapshot.tickSpacing)
    (hamount : 0 < args.amountSpecified) (hstart : 0 < args.sqrtPriceX96Start)
    (hinv : args.RateInv state) (hiter : Iterates args.guard args.body state state') :
    args.RateInv state' := by
  obtain ⟨hguard, hbody⟩ := hiter
  obtain ⟨⟨stop, ticks⟩, hnextTick, hmove⟩ := bind_eq_ok.mp hbody
  obtain ⟨hstop, -, hwalk⟩ := SwapArgs.nextTick_spec hs (hinv.walk hguard) hnextTick
  have hsign : args.SignKept { state with ticks } := hinv.signKept
  have hguard' : args.guard { state with ticks } = true := hguard
  obtain ⟨sqrtPriceNext, step, hnext, hstep, hfinish⟩ := SwapArgs.moveTo_eq_ok hmove
  obtain ⟨hrem, hcalc, hprice, hticks⟩ := finishStep_frame hfinish
  rw [SwapArgs.applyAmounts_sqrtPriceX96] at hprice
  rw [SwapArgs.applyAmounts_ticks] at hticks
  obtain ⟨hvn, rfl⟩ := getSqrtRatioAtTick_eq_ok_iff.mp hnext
  have hdir := (hinv.price_within hguard).toward_stop hstop hvn
  obtain ⟨htarget, htlimit, -⟩ := toward_getSqrtPriceTarget hdir hinv.within_limit
  have hspec := computeSwapStep_spec hstep
  obtain ⟨hmoved, hshort⟩ := hspec.toward htarget
  have hexact : args.exactInput = true := by simpa [SwapArgs.exactInput] using hamount
  have hrempos : 0 < state.amountSpecifiedRemaining := by
    have hnonneg : 0 ≤ state.amountSpecifiedRemaining := by
      simpa [SwapArgs.SignKept, hexact] using hinv.signKept
    have hne := (SwapArgs.guard_iff.mp hguard).1
    omega
  have hrate := computeSwapStep_rate hrempos htarget hstep
  simp only [SwapArgs.applyAmounts, hexact, if_true] at hrem hcalc
  refine ⟨SwapArgs.moveTo_signKept hsign hguard' hmove, ?_, ?_, fun hcont => ?_, fun hcont => ?_,
    fun _ => hrate.fee_le, ?_, ?_⟩
  · rw [hprice]
    exact toward_trans hinv.moved hmoved
  · rw [hprice]
    exact toward_trans hshort htlimit
  · obtain ⟨-, hlow, hhigh, hreached, hadvance⟩ :=
      SwapArgs.moveTo_continues hvalid hsign hguard' hmove hcont
    rw [hadvance]
    exact priceWithinTick_advance hlow hhigh hreached
  · obtain ⟨-, -, -, -, hadvance⟩ := SwapArgs.moveTo_continues hvalid hsign hguard' hmove hcont
    rw [hticks, hadvance]
    exact hwalk
  · have hbefore := hinv.out_nonneg
    have hstepOut := hrate.out_nonneg
    rw [hcalc]
    omega
  · -- the rate of this step is below the rate at the start
    have hworse := marginalRate_le hstart hspec.current_pos hinv.moved
    have hfee : 0 ≤ afterFee args.fee := by
      have hle : (args.fee : ℚ) ≤ 1000000 := by exact_mod_cast hrate.fee_le
      unfold afterFee
      linarith
    have hpaid : (0 : ℚ) ≤ (step.amountIn + step.feeAmount : ℤ) := by
      exact_mod_cast hspec.input_nonneg hrempos.le
    have hout : (step.amountOut : ℚ) ≤ (step.amountIn + step.feeAmount : ℤ) * afterFee args.fee *
        marginalRate args.zeroForOne args.sqrtPriceX96Start :=
      hrate.out_le.trans (mul_le_mul_of_nonneg_left hworse (mul_nonneg hpaid hfee))
    have hbefore := hinv.out_le
    rw [hcalc, hrem]
    push_cast at hbefore hout ⊢
    linarith

theorem SwapArgs.initial_rateInv (hvalid : args.Valid) (hs : 0 < args.snapshot.tickSpacing)
    (hwithin : PriceWithinTick args.sqrtPriceX96Start args.tickStart)
    (hamount : 0 < args.amountSpecified) : args.RateInv args.initialState where
  signKept := by
    simpa [SwapArgs.SignKept, SwapArgs.exactInput, hamount, SwapArgs.initialState] using hamount.le
  moved := toward_refl _ _
  within_limit := by
    cases hz : args.zeroForOne with
    | true => simpa [Toward, SwapArgs.initialState] using (hvalid.limit_down hz).2.le
    | false => simpa [Toward, SwapArgs.initialState] using (hvalid.limit_up hz).1.le
  price_within _ := hwithin
  walk _ := SwapArgs.walkAt_initial hs
  fee_le h := absurd h (lt_irrefl _)
  out_nonneg := by simp [SwapArgs.initialState]
  out_le := by simp [SwapArgs.initialState]

/-- The amounts of an exact-input swap. -/
theorem calculateSwap_rate {fuel : ℕ} {result : SwapResult} {amountIn amountOut : ℤ}
    (hs : 0 < args.snapshot.tickSpacing)
    (hwithin : PriceWithinTick args.sqrtPriceX96Start args.tickStart)
    (hamount : 0 < args.amountSpecified) (h : calculateSwap fuel args = some (.ok result))
    (hamounts : (amountIn, amountOut) = if args.zeroForOne then (result.amount0, -result.amount1)
      else (result.amount1, -result.amount0)) :
    amountIn ≤ args.amountSpecified ∧ (0 < amountIn → args.fee ≤ 1000000) ∧ 0 ≤ amountOut ∧
      (amountOut : ℚ) ≤ amountIn * afterFee args.fee *
        marginalRate args.zeroForOne args.sqrtPriceX96Start := by
  unfold calculateSwap at h
  cases hcheck : args.check with
  | error e => simp [hcheck] at h
  | ok u =>
      have hvalid := SwapArgs.check_eq_ok_iff.mp hcheck
      have hstart : 0 < args.sqrtPriceX96Start := by
        have hmin := hwithin.mem.1
        have hpos : 0 < minSqrtRatio := by decide
        omega
      simp only [hcheck, Option.map_eq_some_iff] at h
      obtain ⟨outcome, hloop, hresult⟩ := h
      cases outcome with
      | error e => cases hresult
      | ok final =>
          cases hresult
          have hinv := (whileLoop_invariant
            (fun s s' hinv hiter => SwapArgs.body_rateInv hvalid hs hamount hstart hinv hiter)
            (SwapArgs.initial_rateInv hvalid hs hwithin hamount) hloop).1
          have hexact : args.exactInput = true := by simpa [SwapArgs.exactInput] using hamount
          obtain ⟨rfl, rfl⟩ : amountIn = args.amountSpecified - final.amountSpecifiedRemaining ∧
              amountOut = -final.amountCalculated := by
            cases hz : args.zeroForOne <;>
              simpa [SwapArgs.result, hexact, hz] using hamounts
          have hsign : 0 ≤ final.amountSpecifiedRemaining := by
            simpa [SwapArgs.SignKept, hexact] using hinv.signKept
          exact ⟨by omega, fun hpos => hinv.fee_le (by omega), hinv.out_nonneg, hinv.out_le⟩

end Swap

end Degenbot.V3
