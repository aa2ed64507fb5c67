import Degenbot.Verification.Simulator.Splitting
import Degenbot.Verification.Simulator.Progress
import Degenbot.Verification.Simulator.Agreement

/-! # Exact output and exact input

The input that an exact-output swap reports pays for its whole output. Both runs make the
same passes; in the last one the input buys at least what is left to deliver. -/

namespace Degenbot.V3

open Library

/-! ## The fee upside down -/

section Fee

variable {remaining fee amountIn : ℤ}

theorem le_lessFee_of_withFee_le (hfee : fee < 1000000) (h : withFee amountIn fee ≤ remaining) :
    amountIn ≤ lessFee remaining fee := by
  have hceil := le_ceilDiv_mul (a := amountIn * fee) (b := 1000000 - fee) (by omega)
  have hscaled := mul_le_mul_of_nonneg_right h (by omega : 0 ≤ 1000000 - fee)
  unfold withFee at hscaled
  rw [lessFee, Int.le_ediv_iff_mul_le (by norm_num)]
  linarith

/-- The fee charged on an amount leaves exactly that amount. -/
theorem lessFee_withFee (hfee0 : 0 ≤ fee) (hfee : fee < 1000000) :
    lessFee (withFee amountIn fee) fee = amountIn := by
  apply le_antisymm _ (le_lessFee_of_withFee_le hfee le_rfl)
  have hceil := (lt_ceilDiv_iff (by omega : 0 < 1000000 - fee)).mp
    (sub_one_lt (ceilDiv (amountIn * fee) (1000000 - fee)))
  rw [← Int.lt_add_one_iff, lessFee, Int.ediv_lt_iff_lt_mul (by norm_num)]
  unfold withFee
  linarith

end Fee

/-! ## Steps of an exact output -/

section Step

variable {z : Bool} {liquidity current price target remaining fee : ℤ} {step : SwapStep}

/-- What releases something costs something. -/
theorem inputAmount_pos (hc : 0 < current) (hp : 0 < price)
    (hout : 0 < outputAmount z liquidity current price) :
    0 < inputAmount z liquidity current price := by
  by_contra hfree
  have hcost := (inputAmount_le_iff hc hp).mp (not_lt.mp hfree)
  have hgain := (le_outputAmount_iff hc hp).mp hout
  have hq := q96_pos
  cases z with
  | true =>
      simp only [if_true] at hcost hgain
      have hscaled : 0 < liquidity * (current - price) * q96 := mul_pos (by linarith) hq
      linarith
  | false =>
      simp only [Bool.false_eq_true, if_false] at hcost hgain
      have hscaled : liquidity * (price - current) * q96 ≤ 0 :=
        mul_nonpos_of_nonpos_of_nonneg (by linarith) hq.le
      have hpos := mul_pos hc hp
      linarith

/-- An exact-output step releases all up to its target, or what was asked for. -/
structure Releases (z : Bool) (liquidity current target remaining fee : ℤ) (step : SwapStep) :
    Prop where
  liquidity_nonneg : 0 ≤ liquidity
  current_pos : 0 < current
  next_pos : 0 < step.sqrtRatioNextX96
  moved : Toward z current step.sqrtRatioNextX96
  toward_target : Toward z step.sqrtRatioNextX96 target
  fee_mem : 0 ≤ fee ∧ fee < 1000000
  cost_eq : step.amountIn + step.feeAmount =
    withFee (inputAmount z liquidity current step.sqrtRatioNextX96) fee
  out_le : step.amountOut ≤ outputAmount z liquidity current step.sqrtRatioNextX96
  ends : (step.sqrtRatioNextX96 = target ∧
      step.amountOut = outputAmount z liquidity current target) ∨ step.amountOut = -remaining

theorem computeSwapStep_releases (hrem : remaining < 0) (ht : 0 < target)
    (hdir : Toward z current target)
    (h : computeSwapStep current target liquidity remaining fee = .ok step) :
    Releases z liquidity current target remaining fee step := by
  obtain ⟨hL, hc, hn, hmoved, hrest, hfee, hin, hcharge, hcases⟩ := computeSwapStep_exactOut hrem h
  have hcost : step.amountIn + step.feeAmount =
      withFee (inputAmount (decide (current ≥ target)) liquidity current
        step.sqrtRatioNextX96) fee := by
    rw [hin, hcharge, withFee]
  rcases toward_decide hdir with hz | heq
  · rw [hz] at hmoved hrest hcost hcases
    refine ⟨hL, hc, hn, hmoved, hrest, hfee, hcost, ?_, ?_⟩
    · rcases hcases with ⟨-, hnext, hout⟩ | ⟨hlt, hLpos, hnext, hout⟩
      · rw [hout, hnext]
      · rw [hout, hnext]
        cases z with
        | true => exact le_outputAmount_priceFromOutput_down hLpos
        | false =>
            have hreleased := (le_outputAmount_iff hc ht).mp hlt.le
            simp only [Bool.false_eq_true, if_false] at hreleased
            have hscaled : -remaining * current * target < liquidity * q96 * target := by
              have hgap := mul_pos (mul_pos hLpos q96_pos) hc
              linarith
            exact le_outputAmount_priceFromOutput_up hc (by omega)
              (lt_of_mul_lt_mul_right hscaled ht.le)
    · rcases hcases with ⟨-, hnext, hout⟩ | ⟨-, -, -, hout⟩
      · exact .inl ⟨hnext, hout⟩
      · exact .inr hout
  · -- nowhere to go: nothing is released
    subst heq
    have hself : step.sqrtRatioNextX96 = current := by
      simp only [ge_iff_le, le_refl, decide_true, Toward, if_true] at hmoved hrest
      omega
    rw [hself] at hcost
    have hfree : ∀ z, inputAmount z liquidity current current = 0 := by
      intro z
      cases z <;> simp [inputAmount]
    rw [hfree] at hcost
    have hnone : step.amountOut = 0 := by
      rcases hcases with ⟨-, -, hout⟩ | ⟨hlt, -⟩
      · simpa using hout
      · simp at hlt
        omega
    refine ⟨hL, hc, hn, ?_, ?_, hfee, ?_, ?_, .inl ⟨hself, ?_⟩⟩
    · rw [hself]
      exact toward_refl _ _
    · rw [hself]
      exact toward_refl _ _
    · rw [hself, hfree, hcost]
    · rw [hself, hnone, outputAmount_self]
    · rw [hnone, outputAmount_self]

end Step

/-! ## Passes of an exact output -/

/-- A pass of an exact output. -/
structure SwapArgs.OutputPass (args : SwapArgs) (state : SwapState) (stop : ℤ × Bool)
    (step : SwapStep) (state' : SwapState) : Prop where
  next_tick : args.snapshot.nextTick args.zeroForOne state = .ok (stop, state'.ticks)
  next_stop : IsNextStop args.snapshot.tickData args.snapshot.tickSpacing args.zeroForOne
    state.tick stop.1
  toward_target : Toward args.zeroForOne state.sqrtPriceX96 (args.targetOf stop.1)
  target_mem : PriceInRange (args.targetOf stop.1)
  releases : Releases args.zeroForOne state.liquidity state.sqrtPriceX96 (args.targetOf stop.1)
    state.amountSpecifiedRemaining args.fee step
  price_eq : state'.sqrtPriceX96 = step.sqrtRatioNextX96
  remaining_eq : state'.amountSpecifiedRemaining =
    state.amountSpecifiedRemaining + step.amountOut
  calculated_eq : state'.amountCalculated = state.amountCalculated + withFee
    (inputAmount args.zeroForOne state.liquidity state.sqrtPriceX96 step.sqrtRatioNextX96) args.fee

section Pass

variable {args : SwapArgs} {state state' : SwapState}

/-- The target of a pass lies in the range of the tick math. -/
theorem SwapArgs.targetOf_mem {stop : ℤ} (hvalid : args.Valid) (hinv : args.Inv state)
    (hclamp : ValidTick (clampTick args.zeroForOne stop)) : PriceInRange (args.targetOf stop) := by
  obtain ⟨hlow, hhigh⟩ := sqrtRatio_mem hclamp
  obtain ⟨hplow, hphigh⟩ := hinv.price_within.mem
  have hdown := hvalid.limit_down
  have hup := hvalid.limit_up
  have hwithin := hinv.within_limit
  unfold SwapArgs.targetOf getSqrtPriceTarget PriceInRange
  cases hz : args.zeroForOne with
  | true =>
      rw [hz] at hwithin
      have hlimit := hdown hz
      simp only [Toward, if_true] at hwithin
      split_ifs <;> simp only [hz] at * <;> omega
  | false =>
      rw [hz] at hwithin
      have hlimit := hup hz
      simp only [Toward, Bool.false_eq_true, if_false] at hwithin
      split_ifs <;> simp only [hz] at * <;> omega

theorem SwapArgs.body_exactOutput (hvalid : args.Valid) (hs : 0 < args.snapshot.tickSpacing)
    (hexact : args.exactInput = false) (hinv : args.Inv state)
    (hiter : Iterates args.guard args.body state state') :
    ∃ stop step, args.OutputPass state stop step state' := by
  obtain ⟨hguard, hbody⟩ := hiter
  obtain ⟨⟨stop, ticks⟩, hnextTick, hmove⟩ := bind_eq_ok.mp hbody
  obtain ⟨hstop, -, -⟩ := SwapArgs.nextTick_spec hs (hinv.walk hguard) hnextTick
  obtain ⟨sqrtPriceNext, step, hnext, hstep, hfinish⟩ := SwapArgs.moveTo_eq_ok hmove
  obtain ⟨hrem, hcalc, hprice, hticks⟩ := finishStep_frame hfinish
  rw [SwapArgs.applyAmounts_sqrtPriceX96] at hprice
  rw [SwapArgs.applyAmounts_ticks] at hticks
  simp only [SwapArgs.applyAmounts, hexact, Bool.false_eq_true, if_false] at hrem hcalc
  have hdir := SwapArgs.toward_stop hinv hstop hnext
  obtain ⟨hclamp, rfl⟩ := getSqrtRatioAtTick_eq_ok_iff.mp hnext
  obtain ⟨htarget, -, -⟩ := toward_getSqrtPriceTarget hdir hinv.within_limit
  have hmem := SwapArgs.targetOf_mem hvalid hinv hclamp
  have hsign := hinv.signKept
  simp only [SwapArgs.SignKept, hexact, Bool.false_eq_true, if_false] at hsign
  have hneg := lt_of_le_of_ne hsign (SwapArgs.guard_iff.mp hguard).1
  have hreleases := computeSwapStep_releases hneg
    (lt_of_lt_of_le (by decide : 0 < minSqrtRatio) hmem.1) htarget hstep
  refine ⟨stop, step, ⟨?_, hstop, htarget, hmem, hreleases, hprice, hrem, ?_⟩⟩
  · rw [hticks]
    exact hnextTick
  · rw [hcalc, hreleases.cost_eq]

/-- What a pass releases and costs. -/
theorem SwapArgs.OutputPass.cost_bounds {stop : ℤ × Bool} {step : SwapStep}
    (hpass : args.OutputPass state stop step state') (hinv : args.Inv state)
    (hL : LiquidityBounds state.liquidity) :
    state.amountCalculated ≤ state'.amountCalculated ∧
      state'.amountCalculated ≤ state.amountCalculated + 2 ^ 221 ∧
      (state.amountSpecifiedRemaining < state'.amountSpecifiedRemaining →
        state.amountCalculated < state'.amountCalculated) := by
  have hreleases := hpass.releases
  obtain ⟨hplow, hphigh⟩ := hinv.price_within.mem
  obtain ⟨htlow, hthigh⟩ := hpass.target_mem
  have hfee := hreleases.fee_mem
  have hbounds : StepBounds state.sqrtPriceX96 (args.targetOf stop.1) state.liquidity args.fee :=
    ⟨hL, priceBounds_of_mem hplow hphigh, priceBounds_of_mem htlow hthigh, hplow, htlow, hfee⟩
  obtain ⟨-, hnn, hle⟩ := hbounds.inputAmount_mem hreleases.moved hreleases.toward_target
  have hcalc := hpass.calculated_eq
  have hrem := hpass.remaining_eq
  have hcharge := ceilDiv_nonneg (mul_nonneg hnn hfee.1) (by omega : 0 < 1000000 - args.fee)
  have hcharge' := fee_le hle hfee
  unfold withFee at hcalc
  refine ⟨by linarith, by linarith, fun hmore => ?_⟩
  have hpos := inputAmount_pos hreleases.current_pos hreleases.next_pos
    (lt_of_lt_of_le (by linarith) hreleases.out_le)
  linarith

end Pass

/-! ## The cost of a run -/

section Run

variable {args : SwapArgs} {state final : SwapState} {fuel : ℕ}

theorem SwapArgs.Bounded.liquidity (hbounded : args.Bounded) (hinv : args.Inv state) :
    LiquidityBounds state.liquidity := by
  rw [hinv.liquidity_eq]
  exact hbounded.liquidity_mem _

/-- An exact output costs no more than its passes can, and something if it delivers. -/
theorem cost_bounds (hvalid : args.Valid) (hbounded : args.Bounded)
    (hexact : args.exactInput = false) (hinv : args.Inv state)
    (hrun : whileLoop args.guard args.body fuel state = some (.ok final)) :
    state.amountCalculated ≤ final.amountCalculated ∧
      final.amountCalculated ≤ state.amountCalculated + room args state * 2 ^ 221 ∧
      (state.amountSpecifiedRemaining < final.amountSpecifiedRemaining →
        state.amountCalculated < final.amountCalculated) := by
  have hs := hbounded.spacing_pos
  induction fuel generalizing state with
  | zero => cases hrun
  | succ fuel ih =>
      have hroom := room_nonneg args state
      rcases run_cases hrun with ⟨-, rfl⟩ | ⟨next, rest, hfuel, hiter, hrun⟩
      · exact ⟨le_rfl, by linarith, fun hlt => absurd hlt (lt_irrefl _)⟩
      · cases hfuel
        have hnext := SwapArgs.body_inv hvalid hs hinv hiter
        obtain ⟨stop, step, hpass⟩ := SwapArgs.body_exactOutput hvalid hs hexact hinv hiter
        obtain ⟨hnn, hle, hpos⟩ := hpass.cost_bounds hinv (hbounded.liquidity hinv)
        obtain ⟨hnn', hle', hpos'⟩ := ih hnext hrun
        have hfewer := room_step hvalid hs hinv hiter
        refine ⟨by linarith, by linarith, fun hlt => ?_⟩
        rcases lt_or_ge state.amountSpecifiedRemaining next.amountSpecifiedRemaining with hmore | hsame
        · linarith [hpos hmore]
        · linarith [hpos' (by linarith)]

end Run

/-! ## Steps of an exact input that succeed -/

/-- An exact-input step succeeds where the price formula for token 0 does not overflow. -/
theorem computeSwapStep_input_ok {z : Bool} {current target liquidity remaining fee : ℤ}
    (hb : StepBounds current target liquidity fee) (hdir : Toward z current target)
    (hrem : 0 < remaining) (hmax : remaining ≤ maxUint256)
    (hfits : z = true → lessFee remaining fee < inputAmount true liquidity current target →
      lessFee remaining fee * current < maxUint256 ∧
        liquidity * q96 + lessFee remaining fee * current ≤ maxUint256) :
    ∃ step, computeSwapStep current target liquidity remaining fee = .ok step := by
  have hless := lessFee_bounds hrem hb.fee_mem
  rcases toward_decide hdir with hz | heq
  · by_cases hreach : inputAmount z liquidity current target ≤ lessFee remaining fee
    · exact ⟨_, computeSwapStep_input_reached hb hz hrem hmax hreach⟩
    · have hshort := not_le.mp hreach
      have hL := liquidity_pos_of_lt hb.liquidity_mem hless.1 hshort
      obtain ⟨hne, hmoved, hrest⟩ := hb.priceFromInput_toward hdir hless.1 hshort
      have hnext : getNextSqrtPriceFromInput current liquidity (lessFee remaining fee) z =
          .ok (priceFromInput z current liquidity (lessFee remaining fee)) := by
        cases z with
        | true =>
            exact getNextSqrtPriceFromInput_down hb.liquidity_mem hL hb.current_mem hless.1
              (.inl (hfits rfl hshort))
        | false =>
            have hlt := lt_of_le_of_ne (by simpa [Toward] using hrest) hne
            exact (getNextSqrtPriceFromInput_up hL hb.liquidity_mem hb.current_mem hb.target_mem
              hless.1 (hless.2.trans hmax) hlt).1
      exact ⟨_, computeSwapStep_input_partial hb hz hrem hmax hshort hnext hne hmoved hrest⟩
  · subst heq
    refine ⟨_, computeSwapStep_input_reached (z := true) hb (by simp) hrem hmax ?_⟩
    have hfree : inputAmount true liquidity current current = 0 := by simp [inputAmount]
    rw [hfree]
    exact hless.1

/-! ## Side by side -/

/-- The token 0 price formula of an exact input keeps its denominators within 256 bits. -/
def SwapArgs.NoOverflow (args : SwapArgs) : Prop :=
  args.zeroForOne = true → ∀ state stop, Visits args.guard args.body args.initialState state →
    args.guard state = true →
    IsNextStop args.snapshot.tickData args.snapshot.tickSpacing true state.tick stop →
    lessFee state.amountSpecifiedRemaining args.fee <
      inputAmount true state.liquidity state.sqrtPriceX96 (args.targetOf stop) →
    state.liquidity * q96 + lessFee state.amountSpecifiedRemaining args.fee * state.sqrtPriceX96 ≤
      maxUint256

/-- The second state is at the place of the first one and holds the cost of the rest of its
run, which ends in `final`. -/
structure Pays (state state' final : SwapState) : Prop where
  price_eq : state'.sqrtPriceX96 = state.sqrtPriceX96
  tick_eq : state'.tick = state.tick
  ticks_eq : state'.ticks = state.ticks
  remaining_eq : state'.amountSpecifiedRemaining =
    final.amountCalculated - state.amountCalculated

section Covering

variable {args : SwapArgs} {a : ℤ} {state state' final : SwapState} {fuel : ℕ}

theorem SwapArgs.Bounded.withAmount (hbounded : args.Bounded) (amount : ℤ) :
    (args.withAmount amount).Bounded :=
  ⟨⟨hbounded.spacing_pos, hbounded.liquidity_eq, hbounded.price_within⟩, hbounded.liquidity_mem,
    hbounded.fee_mem⟩

theorem Pays.nextTick_eq (hpays : Pays state state' final) :
    args.snapshot.nextTick args.zeroForOne state' = args.snapshot.nextTick args.zeroForOne state := by
  unfold LiquidityMapSnapshot.nextTick
  rw [hpays.ticks_eq, hpays.tick_eq]

/-- The tick and the walk after a pass that is followed by another one. -/
theorem SwapArgs.body_walk {next : SwapState} (hvalid : args.Valid) (hinv : args.Inv state)
    (hiter : Iterates args.guard args.body state next) :
    ∃ stop, args.snapshot.nextTick args.zeroForOne state = .ok (stop, next.ticks) ∧
      (args.guard next = true → next.tick = advance args.zeroForOne stop.1) := by
  obtain ⟨hguard, hbody⟩ := hiter
  obtain ⟨⟨stop, ticks⟩, hnextTick, hmove⟩ := bind_eq_ok.mp hbody
  obtain ⟨sqrtPriceNext, step, -, -, hfinish⟩ := SwapArgs.moveTo_eq_ok hmove
  have hticks := (finishStep_frame hfinish).2.2.2
  rw [SwapArgs.applyAmounts_ticks] at hticks
  refine ⟨stop, by rw [hticks]; exact hnextTick, fun hguard' => ?_⟩
  have hkept : args.SignKept { state with ticks } := hinv.signKept
  have hguarded : args.guard { state with ticks } = true := hguard
  exact (SwapArgs.moveTo_continues hvalid hkept hguarded hmove hguard').2.2.2.2

/-- The pass of the exact input beside one of the exact output. -/
theorem Pays.body_exists {next : SwapState} {stop : ℤ × Bool} {step : SwapStep}
    (hvalid : (args.withAmount a).Valid) (hbounded : args.Bounded)
    (hstays : (args.withAmount a).StaysExact) (hfits : (args.withAmount a).NoOverflow)
    (hpays : Pays state state' final) (hinv' : (args.withAmount a).Inv state')
    (hvisits : Visits (args.withAmount a).guard (args.withAmount a).body
      (args.withAmount a).initialState state')
    (hguard' : (args.withAmount a).guard state' = true)
    (hmax : 0 < state'.amountSpecifiedRemaining ∧ state'.amountSpecifiedRemaining ≤ maxUint256)
    (hpass : args.OutputPass state stop step next) :
    ∃ next', (args.withAmount a).body state' = .ok next' := by
  have hs := hbounded.spacing_pos
  have hL := (hbounded.withAmount a).liquidity hinv'
  obtain ⟨hplow, hphigh⟩ := hinv'.price_within.mem
  obtain ⟨htlow, hthigh⟩ := hpass.target_mem
  have hdir := hpass.toward_target
  rw [← hpays.price_eq] at hdir
  have hbounds : StepBounds state'.sqrtPriceX96 (args.targetOf stop.1) state'.liquidity args.fee :=
    ⟨hL, priceBounds_of_mem hplow hphigh, priceBounds_of_mem htlow hthigh, hplow, htlow,
      hbounded.fee_mem⟩
  have hstep := computeSwapStep_input_ok hbounds hdir hmax.1 hmax.2 (fun hz hshort => by
    have hstop := hpass.next_stop
    rw [hz, ← hpays.tick_eq] at hstop
    exact ⟨hstays hz state' stop.1 hvisits hguard' hstop hshort,
      hfits hz state' stop.1 hvisits hguard' hstop hshort⟩)
  obtain ⟨step', hstep⟩ := hstep
  exact SwapArgs.body_exists hvalid hs hinv' hguard' (hpays.nextTick_eq.trans hpass.next_tick) hstep

/-- What that pass buys, in the terms of the pass of the exact output. -/
theorem Pays.pass {next next' : SwapState} {stop : ℤ × Bool} {step : SwapStep}
    (hs : 0 < args.snapshot.tickSpacing) (ha : 0 < a) (hpays : Pays state state' final)
    (hinv : args.Inv state) (hinv' : (args.withAmount a).Inv state')
    (hpass : args.OutputPass state stop step next)
    (hiter' : Iterates (args.withAmount a).guard (args.withAmount a).body state' next') :
    0 < next'.sqrtPriceX96 ∧
      gained state' next' = outputAmount args.zeroForOne state.liquidity state.sqrtPriceX96
        next'.sqrtPriceX96 ∧
      ((inputAmount args.zeroForOne state.liquidity state.sqrtPriceX96 (args.targetOf stop.1) ≤
          lessFee state'.amountSpecifiedRemaining args.fee ∧
        next'.sqrtPriceX96 = args.targetOf stop.1 ∧
        next'.amountSpecifiedRemaining = state'.amountSpecifiedRemaining - withFee
          (inputAmount args.zeroForOne state.liquidity state.sqrtPriceX96 (args.targetOf stop.1))
          args.fee) ∨
      (0 < state.liquidity ∧ lessFee state'.amountSpecifiedRemaining args.fee <
          inputAmount args.zeroForOne state.liquidity state.sqrtPriceX96 (args.targetOf stop.1) ∧
        next'.sqrtPriceX96 = priceFromInput args.zeroForOne state.sqrtPriceX96 state.liquidity
          (lessFee state'.amountSpecifiedRemaining args.fee) ∧
        next'.amountSpecifiedRemaining = 0)) := by
  obtain ⟨stop', step', hpass'⟩ :=
    @SwapArgs.body_exactInput (args.withAmount a) _ _ hs (args.exactInput_withAmount ha) hinv'
      hiter'
  have hstop' := hpass'.next_stop
  rw [hpays.tick_eq] at hstop'
  obtain rfl : stop' = stop.1 := hstop'.unique hpass.next_stop
  have hliq : state'.liquidity = state.liquidity := by
    rw [hinv'.liquidity_eq, hinv.liquidity_eq, hpays.tick_eq]
    rfl
  have hout := hpass'.amountOut_eq
  have hends := hpass'.ends
  rw [hliq, hpays.price_eq] at hout hends
  have hcalc := hpass'.calculated_eq
  refine ⟨hpass'.price_eq ▸ hpass'.next_pos, ?_, ?_⟩
  · rw [gained, hcalc, hout, hpass'.price_eq]
    exact sub_sub_cancel _ _
  · rw [hpass'.price_eq]
    rcases hends with ⟨hpaid, -, -, hto, hrem⟩ | ⟨hL, hshort, hto, -, -, hrem⟩
    · exact .inl ⟨hpaid, hto, hrem⟩
    · exact .inr ⟨hL, hshort, hto, hrem⟩

/-- By induction on the passes of the exact output. -/
theorem Pays.covers (hvalid : args.Valid) (hvalid' : (args.withAmount a).Valid)
    (hbounded : args.Bounded) (hexact : args.exactInput = false) (ha : 0 < a)
    (hstays : (args.withAmount a).StaysExact) (hfits : (args.withAmount a).NoOverflow)
    (hpays : Pays state state' final) (hinv : args.Inv state)
    (hinv' : (args.withAmount a).Inv state')
    (hvisits : Visits (args.withAmount a).guard (args.withAmount a).body
      (args.withAmount a).initialState state')
    (hzero : final.amountSpecifiedRemaining = 0)
    (hrun : whileLoop args.guard args.body fuel state = some (.ok final)) :
    ∃ fuel' final', whileLoop (args.withAmount a).guard (args.withAmount a).body fuel' state' =
      some (.ok final') ∧ -state.amountSpecifiedRemaining ≤ gained state' final' := by
  have hs := hbounded.spacing_pos
  have hexact' := args.exactInput_withAmount ha
  induction fuel generalizing state state' with
  | zero => cases hrun
  | succ fuel ih =>
      have hrunBounds := cost_bounds hvalid hbounded hexact hinv hrun
      have hroom := @room_le args state hinv.price_within
      rcases run_cases hrun with ⟨-, rfl⟩ | ⟨next, rest, hfuel, hiter, hrest⟩
      · have hrem' := hpays.remaining_eq
        rw [sub_self] at hrem'
        have hexit : (args.withAmount a).guard state' = false := by
          rw [Bool.eq_false_iff, ne_eq, SwapArgs.guard_iff]
          tauto
        refine ⟨1, state', whileLoop_exit 0 hexit, ?_⟩
        rw [hzero, gained]
        omega
      · cases hfuel
        -- what is left to deliver costs something, so the second run goes on
        have hsign := hinv.signKept
        simp only [SwapArgs.SignKept, hexact, Bool.false_eq_true, if_false] at hsign
        obtain ⟨hrem, hlimit⟩ := SwapArgs.guard_iff.mp hiter.1
        have hcost := hrunBounds.2.2 (by omega)
        have hremPos : 0 < state'.amountSpecifiedRemaining := by
          rw [hpays.remaining_eq]
          omega
        have hremMax : state'.amountSpecifiedRemaining ≤ maxUint256 := by
          have hle := hrunBounds.2.1
          rw [hpays.remaining_eq]
          unfold maxUint256
          norm_num at hle hroom ⊢
          omega
        have hguard' : (args.withAmount a).guard state' = true := by
          rw [SwapArgs.guard_iff, hpays.price_eq]
          exact ⟨hremPos.ne', hlimit⟩
        obtain ⟨stop, step, hpass⟩ := SwapArgs.body_exactOutput hvalid hs hexact hinv hiter
        obtain ⟨next', hbody'⟩ := hpays.body_exists hvalid' hbounded hstays hfits hinv' hvisits
          hguard' ⟨hremPos, hremMax⟩ hpass
        have hiter' : Iterates (args.withAmount a).guard (args.withAmount a).body state' next' :=
          ⟨hguard', hbody'⟩
        obtain ⟨hpos', hgained, hends⟩ := hpays.pass hs ha hinv hinv' hpass hiter'
        have hnext := SwapArgs.body_inv hvalid hs hinv hiter
        have hnext' := SwapArgs.body_inv hvalid' hs hinv' hiter'
        have hrestBounds := cost_bounds hvalid hbounded hexact hnext hrest
        have hreleases := hpass.releases
        have hcalc := hpass.calculated_eq
        have hremNext := hpass.remaining_eq
        have hpaid : state'.amountSpecifiedRemaining = withFee (inputAmount args.zeroForOne
            state.liquidity state.sqrtPriceX96 step.sqrtRatioNextX96) args.fee +
              (final.amountCalculated - next.amountCalculated) := by
          rw [hpays.remaining_eq, hcalc]
          ring
        have hless := le_lessFee_of_withFee_le hreleases.fee_mem.2
          (by rw [hpaid]; exact le_add_of_nonneg_right (by linarith [hrestBounds.1]) :
            withFee _ args.fee ≤ state'.amountSpecifiedRemaining)
        -- the second run ends with this pass
        have hended : next'.amountSpecifiedRemaining = 0 →
            step.amountOut ≤ gained state' next' → step.amountOut = -state.amountSpecifiedRemaining →
            ∃ fuel' final', whileLoop (args.withAmount a).guard (args.withAmount a).body fuel'
              state' = some (.ok final') ∧
                -state.amountSpecifiedRemaining ≤ gained state' final' := by
          intro hdone hmore hall
          have hexit : (args.withAmount a).guard next' = false := by
            rw [Bool.eq_false_iff, ne_eq, SwapArgs.guard_iff]
            tauto
          refine ⟨2, next', ?_, hall ▸ hmore⟩
          rw [whileLoop_step 1 hguard' hbody', whileLoop_exit 0 hexit]
        rcases hreleases.ends with ⟨hto, hout⟩ | hout
        · rw [hto] at hpaid hless
          rcases hends with ⟨-, hto', hrem'⟩ | ⟨-, hshort, -⟩
          · have hsame : gained state' next' = step.amountOut := by rw [hgained, hto', hout]
            cases hguardNext : args.guard next with
            | false =>
                obtain rfl := Except.ok.inj (whileLoop_eq_of_exit hguardNext hrest)
                apply hended _ hsame.ge (by omega)
                rw [hrem', hpaid]
                ring
            | true =>
                obtain ⟨hremNe, hlimitNe⟩ := SwapArgs.guard_iff.mp hguardNext
                have hsignNext := hnext.signKept
                simp only [SwapArgs.SignKept, hexact, Bool.false_eq_true, if_false] at hsignNext
                have hcostNext := hrestBounds.2.2 (by omega)
                have hremEq : next'.amountSpecifiedRemaining =
                    final.amountCalculated - next.amountCalculated := by
                  rw [hrem', hpaid]
                  ring
                have hprices : next'.sqrtPriceX96 = next.sqrtPriceX96 := by
                  rw [hto', hpass.price_eq, hto]
                have hguardNext' : (args.withAmount a).guard next' = true := by
                  rw [SwapArgs.guard_iff, hprices]
                  exact ⟨by omega, hlimitNe⟩
                obtain ⟨stopO, hstopO, htickO⟩ := SwapArgs.body_walk hvalid hinv hiter
                obtain ⟨stopI, hstopI, htickI⟩ := SwapArgs.body_walk hvalid' hinv' hiter'
                have hstops : (stopI, next'.ticks) = (stopO, next.ticks) :=
                  Except.ok.inj (hstopI.symm.trans (hpays.nextTick_eq.trans hstopO))
                obtain ⟨rfl, hticks⟩ := Prod.mk.inj hstops
                have hpays' : Pays next next' final :=
                  ⟨hprices, (htickI hguardNext').trans (htickO hguardNext).symm, hticks, hremEq⟩
                obtain ⟨fuel', final', hrun', hle⟩ :=
                  ih hpays' hnext hnext' (hvisits.tail hiter') hrest
                refine ⟨fuel' + 1, final', ?_, ?_⟩
                · rw [whileLoop_step fuel' hguard' hbody', hrun']
                · unfold gained at hle hsame ⊢
                  linarith
          · omega
        · obtain rfl := final_eq (.inl (by omega)) hrest
          rw [sub_self, add_zero] at hpaid
          have hexactLess := congrArg (fun amount => lessFee amount args.fee) hpaid
          simp only [lessFee_withFee hreleases.fee_mem.1 hreleases.fee_mem.2] at hexactLess
          have hmono := inputAmount_mono hreleases.liquidity_nonneg hreleases.current_pos
            hreleases.next_pos (lt_of_lt_of_le (by decide : 0 < minSqrtRatio) hpass.target_mem.1)
            hreleases.moved hreleases.toward_target
          have hfar : Toward args.zeroForOne step.sqrtRatioNextX96 next'.sqrtPriceX96 →
              step.amountOut ≤ gained state' next' := by
            intro hdir
            rw [hgained]
            exact hreleases.out_le.trans (outputAmount_mono hreleases.liquidity_nonneg
              hreleases.current_pos hreleases.next_pos hpos' hdir)
          rcases hends with ⟨hpaid', hto', hrem'⟩ | ⟨hL, hshort, hto', hrem'⟩
          · apply hended _ (hfar (hto' ▸ hreleases.toward_target)) hout
            rw [hexactLess] at hpaid'
            rw [hrem', hpaid, le_antisymm hpaid' hmono, sub_self]
          · apply hended hrem' (hfar ?_) hout
            rw [hto']
            refine toward_priceFromInput hL hreleases.current_pos hreleases.next_pos
              (hexactLess ▸ inputAmount_nonneg hreleases.liquidity_nonneg hreleases.current_pos
                hreleases.next_pos hreleases.moved) ?_ hexactLess.ge
            intro hz
            have hstop := hpass.next_stop
            rw [hz, ← hpays.tick_eq] at hstop
            have hliq : state'.liquidity = state.liquidity := by
              rw [hinv'.liquidity_eq, hinv.liquidity_eq, hpays.tick_eq]
              rfl
            have hexactFit := hstays hz state' stop.1 hvisits hguard' hstop
            rw [hliq, hpays.price_eq] at hexactFit
            rw [hz] at hshort
            exact hexactFit hshort

/-- A run that succeeds goes on to its end from every state it visits. -/
theorem whileReturns_of_visits (hreturns : WhileReturns args.guard args.body state final)
    (hvisits : Visits args.guard args.body state state') :
    WhileReturns args.guard args.body state' final := by
  induction hvisits with
  | refl => exact hreturns
  | tail _ hiter ih => exact (whileReturns_step hiter.1 hiter.2).mp ih

/-- A run that succeeds has not met an overflow. -/
theorem SwapArgs.noOverflow_of_run (hvalid : args.Valid) (hbounded : args.Bounded)
    (hexact : args.exactInput = true) (hstays : args.StaysExact)
    (hrun : WhileReturns args.guard args.body args.initialState final) : args.NoOverflow := by
  have hs := hbounded.spacing_pos
  intro hz state stop hvisits hguard hstop hshort
  have hstep : ∀ s s', args.Inv s → Iterates args.guard args.body s s' → args.Inv s' :=
    fun s s' hinv hiter => SwapArgs.body_inv hvalid hs hinv hiter
  have hinv : args.Inv state := by
    clear hguard hstop hshort
    induction hvisits with
    | refl => exact SwapArgs.initial_inv hvalid hbounded.toConsistent
    | tail _ hiter ih => exact hstep _ _ ih hiter
  have hfit := hstays hz state stop hvisits hguard hstop hshort
  obtain ⟨fuel, hrest⟩ := whileReturns_of_visits hrun hvisits
  rcases run_cases hrest with ⟨hfalse, -⟩ | ⟨next, rest, -, hiter, -⟩
  · rw [hguard] at hfalse
    cases hfalse
  obtain ⟨stop', step', hpass⟩ := SwapArgs.body_exactInput hs hexact hinv hiter
  have hstop' := hpass.next_stop
  rw [hz] at hstop'
  obtain rfl := hstop'.unique hstop
  have htarget := hpass.toward_target
  have hne : step'.sqrtRatioNextX96 ≠ args.targetOf stop' := by
    rcases hpass.ends with ⟨hpaid, -⟩ | ⟨-, -, -, hne, -⟩
    · rw [hz] at hpaid
      omega
    · exact hne
  -- the step of the pass has computed the price after the input
  obtain ⟨hguard, hbody⟩ := hiter
  obtain ⟨⟨stop, ticks⟩, hnextTick, hmove⟩ := bind_eq_ok.mp hbody
  obtain ⟨hfirst, -, -⟩ := SwapArgs.nextTick_spec hs (hinv.walk hguard) hnextTick
  rw [hz] at hfirst
  obtain rfl : stop.1 = stop' := hfirst.unique hstop
  obtain ⟨sqrtPriceNext, step, hnext, hstep, hfinish⟩ := SwapArgs.moveTo_eq_ok hmove
  obtain ⟨-, rfl⟩ := getSqrtRatioAtTick_eq_ok_iff.mp hnext
  have hprice := (finishStep_frame hfinish).2.2.1
  rw [SwapArgs.applyAmounts_sqrtPriceX96, hpass.price_eq] at hprice
  have hpos := remaining_pos hexact hinv hguard
  obtain ⟨-, hinput, -⟩ := computeSwapStep_short hpos.le hstep
    (fun heq => hne (hprice.trans heq))
  have hdown : decide (state.sqrtPriceX96 ≥ args.targetOf stop.1) = true := by
    simpa [Toward, hz] using htarget
  change getNextSqrtPriceFromInput _ _ _ (decide (state.sqrtPriceX96 ≥ args.targetOf stop.1)) = _
    at hinput
  rw [hdown] at hinput
  by_contra hover
  have hN := numerator1_bounds (hbounded.liquidity hinv)
  have hlessNN := hpass.less_nonneg
  rcases hlessNN.eq_or_lt with hzero | hlessPos
  · rw [← hzero, zero_mul, add_zero] at hover
    exact hover hN.2
  · exact getNextSqrtPriceFromInput_ne_ok hpass.price_pos hlessPos hfit (not_le.mp hover) hinput

/-! ## Whole swaps -/

/-- The input that a swap takes. -/
def SwapArgs.inputOf (args : SwapArgs) (result : SwapResult) : ℤ :=
  if args.zeroForOne then result.amount0 else result.amount1

theorem SwapArgs.result_exactOutput (hexact : args.exactInput = false) (final : SwapState) :
    args.inputOf (args.result final) = final.amountCalculated ∧
      args.outputOf (args.result final) =
        final.amountSpecifiedRemaining - args.amountSpecified := by
  cases hz : args.zeroForOne <;>
    simp [SwapArgs.inputOf, SwapArgs.outputOf, SwapArgs.result, hexact, hz]

/-- The input that an exact output reports buys at least that output, where the token 0 price
formula does not overflow; elsewhere the swap of that input fails. -/
theorem calculateSwap_covers {o : ℤ} {delivered : SwapResult} (hbounded : args.Bounded)
    (ho : 0 < o) (hrun : calculateSwap fuel (args.withAmount (-o)) = some (.ok delivered))
    (hout : args.outputOf delivered = o)
    (hstays : (args.withAmount (args.inputOf delivered)).StaysExact) :
    (∃ fuel' result, calculateSwap fuel' (args.withAmount (args.inputOf delivered)) =
        some (.ok result) ∧ o ≤ args.outputOf result) ↔
      (args.withAmount (args.inputOf delivered)).NoOverflow := by
  have hexact : (args.withAmount (-o)).exactInput = false := by
    simp [SwapArgs.exactInput, SwapArgs.withAmount, ho.le]
  obtain ⟨hvalid, final, hloop, rfl⟩ := calculateSwap_eq_ok hrun
  obtain ⟨hinput, houtput⟩ := (args.withAmount (-o)).result_exactOutput hexact final
  change args.inputOf _ = _ at hinput
  change args.outputOf _ = _ at houtput
  have hzero : final.amountSpecifiedRemaining = 0 := by
    have hamount : (args.withAmount (-o)).amountSpecified = -o := rfl
    rw [houtput, hamount] at hout
    omega
  have hbounded' := hbounded.withAmount (-o)
  have hinv := SwapArgs.initial_inv hvalid hbounded'.toConsistent
  have hcost := (cost_bounds hvalid hbounded' hexact hinv hloop).2.2
    (by rw [hzero]; change -o < 0; omega)
  change 0 < final.amountCalculated at hcost
  rw [hinput] at hstays ⊢
  have hexactIn := args.exactInput_withAmount hcost
  constructor
  · rintro ⟨fuel', result, hresult, -⟩
    obtain ⟨hvalid', final', hloop', -⟩ := calculateSwap_eq_ok hresult
    exact SwapArgs.noOverflow_of_run hvalid' (hbounded.withAmount _) hexactIn hstays
      ⟨fuel', hloop'⟩
  · intro hfits
    have hvalid' : (args.withAmount final.amountCalculated).Valid :=
      ⟨hvalid.liquidity_nonneg, hcost.ne', hvalid.limit_down, hvalid.limit_up⟩
    have hinv' := SwapArgs.initial_inv hvalid' (hbounded.withAmount _).toConsistent
    have hpays : Pays (args.withAmount (-o)).initialState
        (args.withAmount final.amountCalculated).initialState final :=
      ⟨rfl, rfl, rfl, (sub_zero _).symm⟩
    obtain ⟨fuel', final', hloop', hle⟩ := hpays.covers hvalid hvalid' hbounded' hexact hcost
      hstays hfits hinv hinv' .refl hzero hloop
    refine ⟨fuel', (args.withAmount final.amountCalculated).result final', ?_, ?_⟩
    · change whileLoop (args.withAmount final.amountCalculated).guard
        (args.withAmount final.amountCalculated).body fuel'
        (args.withAmount final.amountCalculated).initialState = _ at hloop'
      rw [calculateSwap, SwapArgs.check_eq_ok_iff.mpr hvalid']
      simp only [hloop', Option.map_some, Except.map]
    · have hgained := SwapArgs.outputOf_exactInput hexactIn final'
      change args.outputOf _ = _ at hgained
      rw [hgained]
      change -(-o) ≤ _ at hle
      rw [neg_neg] at hle
      exact hle

end Covering

/-- 500 of token 1 out of the pool of `sampleSwapDown` cost 503 of token 0. -/
theorem calculateSwap_covers_sample :
    calculateSwap 3 (sampleSwapDown.withAmount (-500)) =
        some (.ok ⟨503, -500, 79228162514264297979462693203, 10 ^ 18, -1⟩) ∧
      ((∃ fuel' result, calculateSwap fuel' (sampleSwapDown.withAmount 503) = some (.ok result) ∧
          500 ≤ sampleSwapDown.outputOf result) ↔
        (sampleSwapDown.withAmount 503).NoOverflow) := by
  have hbounded : sampleSwapDown.Bounded :=
    ⟨⟨sampleSwap_bounded.spacing_pos, sampleSwap_bounded.liquidity_eq,
      sampleSwap_bounded.price_within⟩, sampleSwap_bounded.liquidity_mem,
      sampleSwap_bounded.fee_mem⟩
  have hrun : calculateSwap 3 (sampleSwapDown.withAmount (-500)) =
      some (.ok ⟨503, -500, 79228162514264297979462693203, 10 ^ 18, -1⟩) := by decide +kernel
  have hstays : (sampleSwapDown.withAmount 503).StaysExact := by
    apply SwapArgs.staysExact_of_lt _ (hbounded.withAmount 503).toConsistent (by decide)
      (by decide) (by decide)
    exact SwapArgs.check_eq_ok_iff.mp (by decide)
  exact ⟨hrun, calculateSwap_covers hbounded (by decide) hrun (by decide) hstays⟩

/-- On the pool of `gapSwap`, a swap of the input that an exact output reports raises: the
formula stays exact, but its denominator has 257 bits. -/
theorem calculateSwap_not_covers :
    gapSwap.Bounded ∧
      calculateSwap 3 (gapSwap.withAmount (-1329227995783706947084192447882854400)) =
        some (.ok ⟨1465899335335600774942330560476708261341622989620,
          -1329227995783706947084192447882854400, 72057594037926936, 2 ^ 120, -554546⟩) ∧
      (gapSwap.withAmount 1465899335335600774942330560476708261341622989620).StaysExact ∧
      ¬∃ fuel result, calculateSwap fuel (gapSwap.withAmount
        1465899335335600774942330560476708261341622989620) = some (.ok result) := by
  -- the first pass only crosses the tick of the price
  have hfirst : ((gapSwap.withAmount 1465899335335600774942330560476708261341622989620).body
      (gapSwap.withAmount 1465899335335600774942330560476708261341622989620).initialState).map
        (fun state => (state.amountSpecifiedRemaining, state.sqrtPriceX96)) =
      .ok (1465899335335600774942330560476708261341622989620, 2 ^ 96) := by decide +kernel
  have hsecond : (gapSwap.withAmount 1465899335335600774942330560476708261341622989620).body
      (gapSwap.withAmount 1465899335335600774942330560476708261341622989620).initialState >>=
        (gapSwap.withAmount 1465899335335600774942330560476708261341622989620).body =
      .error (.evmRevertError "Invalid value for denominator.") := by decide +kernel
  have hfit : lessFee 1465899335335600774942330560476708261341622989620 3000 * 2 ^ 96 <
      maxUint256 := by decide +kernel
  cases hbody : (gapSwap.withAmount 1465899335335600774942330560476708261341622989620).body
      (gapSwap.withAmount 1465899335335600774942330560476708261341622989620).initialState with
  | error e =>
      rw [hbody] at hfirst
      cases hfirst
  | ok crossed =>
      rw [hbody] at hfirst hsecond
      obtain ⟨hrem, hprice⟩ := Prod.mk.inj (Except.ok.inj hfirst)
      rw [ok_bind] at hsecond
      refine ⟨gapSwap_bounded, by decide +kernel, ?_, ?_⟩
      · intro hz state stop hvisits hguard hstop hshort
        rcases visits_of_step hbody hvisits with rfl | hvisits
        · exact hfit
        · rcases hvisits.cases_head with rfl | ⟨next, ⟨-, hiter⟩, -⟩
          · rw [hrem, hprice]
            exact hfit
          · rw [hsecond] at hiter
            cases hiter
      · rintro ⟨fuel, result, hresult⟩
        obtain ⟨-, final, hloop, -⟩ := calculateSwap_eq_ok hresult
        rcases run_cases hloop with ⟨hfalse, -⟩ | ⟨next, rest, -, ⟨-, hiter⟩, hrest⟩
        · revert hfalse
          decide +kernel
        · obtain rfl : crossed = next := Except.ok.inj (hbody.symm.trans hiter)
          rcases run_cases hrest with ⟨hfalse, -⟩ | ⟨next', rest', -, ⟨-, hiter'⟩, -⟩
          · have hguard : (gapSwap.withAmount
                1465899335335600774942330560476708261341622989620).guard crossed = true := by
              rw [SwapArgs.guard_iff, hrem, hprice]
              decide
            rw [hguard] at hfalse
            cases hfalse
          · rw [hsecond] at hiter'
            cases hiter'

end Degenbot.V3
