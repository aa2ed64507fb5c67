import Degenbot.Verification.Simulator.ExactInput
import Degenbot.Verification.SwapMath.Ports

/-! # Passes that succeed

How many passes a swap can still make, and when a pass ends without an error. -/

namespace Degenbot.V3

open Library

variable {args : SwapArgs} {state : SwapState}

/-! ## The passes that are left -/

/-- The passes that are left, at most. -/
def room (args : SwapArgs) (state : SwapState) : ℤ :=
  if args.guard state then args.distance state else 0

theorem room_nonneg (args : SwapArgs) (state : SwapState) : 0 ≤ room args state := by
  unfold room
  split_ifs
  · exact Int.natCast_nonneg _
  · exact le_rfl

theorem room_of_guard (hinv : args.Inv state) (hguard : args.guard state = true) :
    1 ≤ room args state ∧ room args state = args.distance state := by
  obtain ⟨hv, hv', -, -⟩ := priceWithinTick_iff.mp hinv.price_within
  obtain ⟨hlow, -⟩ := hv
  obtain ⟨-, hhigh⟩ := hv'
  have hroom : room args state = args.distance state := if_pos hguard
  refine ⟨?_, hroom⟩
  rw [hroom, SwapArgs.distance]
  split_ifs <;> omega

/-- The outputs of all passes fit, whatever their number. -/
theorem room_step {state' : SwapState} (hvalid : args.Valid) (hs : 0 < args.snapshot.tickSpacing)
    (hinv : args.Inv state) (hiter : Iterates args.guard args.body state state') :
    room args state' + 1 ≤ room args state := by
  obtain ⟨hpos, hroom⟩ := room_of_guard hinv hiter.1
  cases hguard' : args.guard state' with
  | false =>
      have hzero : room args state' = 0 := by simp [room, hguard']
      omega
  | true =>
      have hlt := SwapArgs.distance_lt hvalid hs hinv hiter hguard'
      have hroom' : room args state' = args.distance state' := if_pos hguard'
      omega

/-- At no time are there more than `2 ^ 21` passes left. -/
theorem room_le (hwithin : PriceWithinTick state.sqrtPriceX96 state.tick) :
    room args state ≤ 2 ^ 21 := by
  obtain ⟨hv, hv', -, -⟩ := priceWithinTick_iff.mp hwithin
  obtain ⟨hlow, hhigh⟩ := hv
  have hdistance : (args.distance state : ℤ) ≤ 2 ^ 21 := by
    rw [SwapArgs.distance]
    split_ifs <;> omega
  unfold room
  split_ifs
  · exact hdistance
  · norm_num

/-- A swap begins with fewer than `2 ^ 21` passes. -/
theorem room_initial_le (hcons : args.Consistent) : room args args.initialState ≤ 2 ^ 21 :=
  room_le hcons.price_within

/-! ## The end of a pass -/

/-- A stop whose price is admitted by the limit was not clamped. -/
theorem clampTick_of_within {stop : ℤ} (hvalid : args.Valid)
    (hlimit : Toward args.zeroForOne (sqrtRatio (clampTick args.zeroForOne stop))
      args.sqrtPriceLimitX96) : clampTick args.zeroForOne stop = stop := by
  cases hz : args.zeroForOne with
  | true =>
      rw [hz] at hlimit
      simp only [Toward, clampTick, if_true] at hlimit ⊢
      by_contra hne
      have hbottom : max (-887272) stop = -887272 := by omega
      rw [hbottom, sqrtRatio_minTick] at hlimit
      have hlow := (hvalid.limit_down hz).1
      omega
  | false =>
      rw [hz] at hlimit
      simp only [Toward, clampTick, Bool.false_eq_true, if_false] at hlimit ⊢
      by_contra hne
      have htop : min 887272 stop = 887272 := by omega
      rw [htop, sqrtRatio_maxTick] at hlimit
      have hhigh := (hvalid.limit_up hz).2
      omega

/-- A price between the start and the limit ends a pass without an error. -/
theorem finishStep_exists {stop : ℤ × Bool} {start : ℤ} (moved : SwapState) (hvalid : args.Valid)
    (hflag : stop.2 = true ↔ stop.1 ∈ args.snapshot.tickData)
    (hstart : minSqrtRatio ≤ start ∧ start ≤ maxSqrtRatio)
    (hmoved : Toward args.zeroForOne start moved.sqrtPriceX96)
    (hlimit : Toward args.zeroForOne moved.sqrtPriceX96 args.sqrtPriceLimitX96) :
    ∃ state', args.snapshot.finishStep getTickAtSqrtRatio args.zeroForOne stop.2
      (clampTick args.zeroForOne stop.1) (sqrtRatio (clampTick args.zeroForOne stop.1)) start
      moved = .ok state' := by
  rw [LiquidityMapSnapshot.finishStep]
  by_cases hreached : moved.sqrtPriceX96 = sqrtRatio (clampTick args.zeroForOne stop.1)
  · rw [if_pos hreached]
    rw [hreached] at hlimit
    have hclamp := clampTick_of_within hvalid hlimit
    by_cases hinit : stop.2 = true
    · obtain ⟨info, hinfo⟩ :=
        Option.isSome_iff_exists.mp (AList.lookup_isSome.mpr (hflag.mp hinit))
      rw [if_pos hinit, LiquidityMapSnapshot.crossTick, hclamp, hinfo]
      exact ⟨_, rfl⟩
    · rw [if_neg hinit]
      exact ⟨_, rfl⟩
  · rw [if_neg hreached]
    by_cases hstill : moved.sqrtPriceX96 = start
    · rw [if_neg (not_not.mpr hstill)]
      exact ⟨_, rfl⟩
    · rw [if_pos hstill]
      have hrange : minSqrtRatio ≤ moved.sqrtPriceX96 ∧ moved.sqrtPriceX96 < maxSqrtRatio := by
        cases hz : args.zeroForOne with
        | true =>
            rw [hz] at hmoved hlimit
            simp only [Toward, if_true] at hmoved hlimit
            have hlow := (hvalid.limit_down hz).1
            omega
        | false =>
            rw [hz] at hmoved hlimit
            simp only [Toward, Bool.false_eq_true, if_false] at hmoved hlimit
            have hhigh := (hvalid.limit_up hz).2
            omega
      obtain ⟨tick, htick, -⟩ := V3.getTickAtSqrtRatio_eq hrange.1 hrange.2
      rw [htick]
      exact ⟨_, rfl⟩

/-- Whatever step is found for the next stop, the pass goes through. -/
theorem SwapArgs.body_exists {stop : ℤ × Bool} {ticks : Option TickGen} {step : SwapStep}
    (hvalid : args.Valid) (hs : 0 < args.snapshot.tickSpacing) (hinv : args.Inv state)
    (hguard : args.guard state = true)
    (hnext : args.snapshot.nextTick args.zeroForOne state = .ok (stop, ticks))
    (hstep : computeSwapStep state.sqrtPriceX96 (args.targetOf stop.1) state.liquidity
      state.amountSpecifiedRemaining args.fee = .ok step) :
    ∃ state', args.body state = .ok state' := by
  obtain ⟨hstop, hflag, -⟩ := SwapArgs.nextTick_spec hs (hinv.walk hguard) hnext
  obtain ⟨hv, hv', -, -⟩ := priceWithinTick_iff.mp hinv.price_within
  have hclamp : ValidTick (clampTick args.zeroForOne stop.1) := by
    obtain ⟨hlow, -⟩ := hv
    obtain ⟨-, hhigh⟩ := hv'
    cases hz : args.zeroForOne with
    | true =>
        rw [hz] at hstop
        have hle := hstop.le_tick
        simp only [clampTick, if_true]
        exact ⟨by omega, by omega⟩
    | false =>
        rw [hz] at hstop
        have hlt := hstop.tick_lt
        simp only [clampTick, Bool.false_eq_true, if_false]
        exact ⟨by omega, by omega⟩
  have hratio := getSqrtRatioAtTick_eq_ok_iff.mpr ⟨hclamp, rfl⟩
  have hahead := hinv.price_within.toward_stop hstop hclamp
  obtain ⟨htarget, htlimit, -⟩ := toward_getSqrtPriceTarget hahead hinv.within_limit
  obtain ⟨hmoved, hrest⟩ := (computeSwapStep_spec hstep).toward htarget
  have hrange : ¬¬(tickRange args.zeroForOne (clampTick args.zeroForOne stop.1)
      args.snapshot.tickSpacing).1 < (tickRange args.zeroForOne
        (clampTick args.zeroForOne stop.1) args.snapshot.tickSpacing).2 := by
    rw [not_not]
    unfold tickRange
    split_ifs <;> simp only <;> omega
  obtain ⟨state', hfinish⟩ := @finishStep_exists args stop state.sqrtPriceX96
    (args.applyAmounts { state with ticks } step) hvalid hflag hinv.price_within.mem
    (by
      rw [SwapArgs.applyAmounts_sqrtPriceX96]
      exact hmoved)
    (by
      rw [SwapArgs.applyAmounts_sqrtPriceX96]
      exact toward_trans hrest htlimit)
  refine ⟨state', ?_⟩
  rw [SwapArgs.body, hnext, ok_bind]
  dsimp only
  unfold SwapArgs.moveTo
  dsimp only
  rw [hratio, ok_bind, if_neg hrange]
  change (computeSwapStep state.sqrtPriceX96 (args.targetOf stop.1) state.liquidity
    state.amountSpecifiedRemaining args.fee >>= fun step => _) = _
  rw [hstep, ok_bind]
  exact hfinish

/-! ## Steps that stop before their target -/

section Short

variable {current target liquidity remaining fee : ℤ} {step : SwapStep}

/-- A step that stops short has computed the price after the whole input, and the amount at
its target within 256 bits. -/
theorem computeSwapStep_short (hrem : 0 ≤ remaining)
    (h : computeSwapStep current target liquidity remaining fee = .ok step)
    (hne : step.sqrtRatioNextX96 ≠ target) :
    remaining ≤ maxUint256 ∧
      getNextSqrtPriceFromInput current liquidity (lessFee remaining fee)
        (decide (current ≥ target)) = .ok step.sqrtRatioNextX96 ∧
      (target ≤ current → liquidity * q96 ≤ maxUint256) := by
  simp only [computeSwapStep, ite_error_eq_ok, bind_eq_ok] at h
  obtain ⟨-, ⟨atTarget, next⟩, hprice, amountIn, -, amountOut, -, feeAmount, -, h⟩ := h
  obtain rfl := (Except.ok.inj h).symm
  have hexact : decide (remaining ≥ 0) = true := by simpa using hrem
  simp only [hexact, computeNextPrice, if_true, bind_eq_ok, muldiv_eq_ok_iff] at hprice
  obtain ⟨less, ⟨⟨-, hmax⟩, -, -, rfl, -⟩, cost, htarget, hprice⟩ := hprice
  refine ⟨hmax, ?_, fun hge => ?_⟩
  · split_ifs at hprice with hreach
    · cases hprice
      exact absurd rfl hne
    · obtain ⟨next', hnext, hprice⟩ := bind_eq_ok.mp hprice
      cases hprice
      exact hnext
  · simp only [ge_iff_le, hge, decide_true, inputDelta, if_true, getAmount0Delta,
      getAmount0DeltaRounded, gt_iff_lt, not_lt.mpr hge, if_false, ite_error_eq_ok, bind_eq_ok,
      muldivRoundingUp_eq_ok_iff] at htarget
    obtain ⟨-, quotient, ⟨⟨-, hN⟩, -⟩, -⟩ := htarget
    exact hN

end Short

/-! ## Amounts that fit -/

section Amounts

variable {z : Bool} {liquidity current price amount fee : ℤ}

/-- A price inside the range of the tick math. -/
def PriceInRange (price : ℤ) : Prop := minSqrtRatio ≤ price ∧ price ≤ maxSqrtRatio

theorem PriceInRange.bounds (h : PriceInRange price) : 2 ^ 32 ≤ price ∧ price < 2 ^ 160 := by
  obtain ⟨hlow, hhigh⟩ := h
  simp only [minSqrtRatio] at hlow
  simp only [maxSqrtRatio] at hhigh
  norm_num
  omega

end Amounts

end Degenbot.V3
