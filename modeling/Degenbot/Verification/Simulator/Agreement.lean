import Degenbot.Verification.Simulator.Invariant
import Degenbot.Verification.SwapMath.Ports

/-! # The V3 and the V4 simulator on one swap

The V4 loop runs in lockstep with the V3 loop on mirrored amounts, up to the first pass
in which the ports compute a price differently. -/

namespace Degenbot

open Library

/-- The same swap as a V4 call: the amount changes its sign, and there is no protocol fee. -/
def V3.SwapArgs.toV4 (args : V3.SwapArgs) : V4.SwapArgs where
  snapshot := args.snapshot
  zeroForOne := args.zeroForOne
  amountSpecified := -args.amountSpecified
  sqrtPriceX96Limit := args.sqrtPriceLimitX96
  lpFee := args.fee
  protocolFee := 0
  liquidityStart := args.liquidityStart
  sqrtPriceX96Start := args.sqrtPriceX96Start
  tickStart := args.tickStart

/-- The loop state with both amounts negated. -/
def SwapState.mirror (state : SwapState) : SwapState :=
  { state with
    amountSpecifiedRemaining := -state.amountSpecifiedRemaining
    amountCalculated := -state.amountCalculated }

/-- A consistent pool: the partial sums of the nets are liquidities of 128 bits, and the
fee is below 100 %. -/
structure V3.SwapArgs.Bounded (args : V3.SwapArgs) : Prop extends args.Consistent where
  liquidity_mem : ∀ tick, LiquidityBounds (liquidityAt args.snapshot.tickData tick)
  fee_mem : 0 ≤ args.fee ∧ args.fee < 1000000

/-! ## Prices of ticks -/

theorem priceBounds_of_mem {price : ℤ} (hmin : minSqrtRatio ≤ price)
    (hmax : price ≤ maxSqrtRatio) : PriceBounds price := by
  simp only [PriceBounds, minSqrtRatio, maxSqrtRatio, maxUint160] at *
  omega

theorem getSqrtPriceAtTick_ports (tick : ℤ) :
    ExceptRel (fun _ _ => True) (· = ·) (V3.getSqrtRatioAtTick tick)
      (V4.getSqrtPriceAtTick tick) := by
  rw [exceptRel_eq_iff]
  intro r
  rw [V3.getSqrtRatioAtTick_eq_ok_iff, V4.getSqrtPriceAtTick_eq_ok_iff]

theorem getTickAtSqrtPrice_ports {price : ℤ} (hmin : minSqrtRatio ≤ price)
    (hmax : price < maxSqrtRatio) :
    ∃ tick, V3.getTickAtSqrtRatio price = .ok tick ∧ V4.getTickAtSqrtPrice price = .ok tick := by
  obtain ⟨tick, h3, htick⟩ := V3.getTickAtSqrtRatio_eq hmin hmax
  obtain ⟨tick', h4, htick'⟩ := V4.getTickAtSqrtPrice_eq hmin hmax
  exact ⟨tick, h3, htick'.unique htick ▸ h4⟩

theorem getSqrtPriceTarget_ports (z : Bool) (next limit : ℤ) :
    V4.getSqrtPriceTarget z next limit = V3.getSqrtPriceTarget z next limit := by
  cases z <;> simp only [V4.getSqrtPriceTarget, V3.getSqrtPriceTarget, if_true, true_and,
    Bool.false_eq_true, if_false, false_and, or_false, not_true_eq_false, not_false_eq_true,
    false_or] <;> split_ifs <;> omega

/-! ## One pass -/

section Pass

variable {args : V3.SwapArgs} {state : SwapState}

theorem V3.SwapArgs.toV4_swapFee : args.toV4.swapFee = args.fee := if_pos rfl

theorem V3.SwapArgs.guard_mirror : args.toV4.guard state.mirror = args.guard state := by
  simp [V3.SwapArgs.guard, V4.SwapArgs.guard, SwapState.mirror, V3.SwapArgs.toV4]

theorem SafeAmounts.casts {step : SwapStep} (h : SafeAmounts step) :
    V4.safeCast (step.amountIn + step.feeAmount) = .ok () ∧
      V4.safeCast step.amountOut = .ok () := by
  obtain ⟨htotal, hout⟩ := h
  norm_num at htotal hout
  simp only [V4.safeCast, minInt256, maxInt256]
  norm_num
  omega

theorem V3.SwapArgs.applyAmounts_mirror {step3 step4 : SwapStep}
    (hsame : SameStep step3 step4) (hsafe : SafeAmounts step4) :
    args.toV4.applyAmounts state.mirror step4 =
      .ok (args.applyAmounts state step3).mirror := by
  obtain ⟨htotal, hout⟩ := hsafe.casts
  have hsum := hsame.total
  by_cases hpos : 0 < args.amountSpecified
  · simp only [V4.SwapArgs.applyAmounts, V3.SwapArgs.toV4, Left.neg_neg_iff, hpos, if_true, htotal,
      hout, ok_bind, V3.SwapArgs.applyAmounts, V3.SwapArgs.exactInput, decide_true,
      SwapState.mirror, hsame.next, hsame.out, hsum]
    congr 2 <;> ring
  · simp only [V4.SwapArgs.applyAmounts, V3.SwapArgs.toV4, Left.neg_neg_iff, hpos, if_false,
      htotal, hout, ok_bind, V3.SwapArgs.applyAmounts, V3.SwapArgs.exactInput,
      decide_false, Bool.false_eq_true, SwapState.mirror, hsame.next, hsame.out, hsum]
    congr 2 <;> ring

/-- The end of a pass commutes with the mirror where both ports know the tick. -/
theorem finishStep_mirror {snapshot : LiquidityMapSnapshot} {getTick getTick' : ℤ → Except Exn ℤ}
    {z initialized : Bool} {tickNext next start : ℤ}
    (htick : state.sqrtPriceX96 ≠ next → state.sqrtPriceX96 ≠ start →
      ∃ tick, getTick state.sqrtPriceX96 = .ok tick ∧ getTick' state.sqrtPriceX96 = .ok tick) :
    snapshot.finishStep getTick' z initialized tickNext next start state.mirror =
      (snapshot.finishStep getTick z initialized tickNext next start state).map
        SwapState.mirror := by
  unfold LiquidityMapSnapshot.finishStep
  by_cases hnext : state.sqrtPriceX96 = next
  · have hnext' : state.mirror.sqrtPriceX96 = next := hnext
    rw [if_pos hnext, if_pos hnext']
    cases initialized with
    | false => rfl
    | true =>
        simp only [if_true, LiquidityMapSnapshot.crossTick]
        cases snapshot.tickData.lookup tickNext <;> rfl
  · have hnext' : ¬state.mirror.sqrtPriceX96 = next := hnext
    rw [if_neg hnext, if_neg hnext']
    by_cases hstart : state.sqrtPriceX96 = start
    · have hstart' : state.mirror.sqrtPriceX96 = start := hstart
      rw [if_neg (not_not.mpr hstart), if_neg (not_not.mpr hstart')]
      rfl
    · have hstart' : ¬state.mirror.sqrtPriceX96 = start := hstart
      obtain ⟨tick, h, h'⟩ := htick hnext hstart
      have h'' : getTick' state.mirror.sqrtPriceX96 = .ok tick := h'
      rw [if_pos hstart, if_pos hstart', h, h'']
      rfl

/-- The bounds of a pass follow from the invariant of the loop. -/
theorem V3.SwapArgs.stepBounds (hvalid : args.Valid) (hbounded : args.Bounded)
    (hinv : args.Inv state) {tick sqrtPriceNext : ℤ}
    (hnext : V3.getSqrtRatioAtTick tick = .ok sqrtPriceNext) :
    StepBounds state.sqrtPriceX96
      (V3.getSqrtPriceTarget args.zeroForOne sqrtPriceNext args.sqrtPriceLimitX96)
      state.liquidity args.fee := by
  obtain ⟨hv, rfl⟩ := V3.getSqrtRatioAtTick_eq_ok_iff.mp hnext
  obtain ⟨hmin, hmax⟩ := hinv.price_within.mem
  obtain ⟨hmin', hmax'⟩ := sqrtRatio_mem hv
  have hstart := hbounded.price_within.mem
  have hlimit : minSqrtRatio ≤ args.sqrtPriceLimitX96 ∧
      args.sqrtPriceLimitX96 ≤ maxSqrtRatio := by
    cases hz : args.zeroForOne with
    | true =>
        have := hvalid.limit_down hz
        omega
    | false =>
        have := hvalid.limit_up hz
        omega
  have htarget : minSqrtRatio ≤
        V3.getSqrtPriceTarget args.zeroForOne (sqrtRatio tick) args.sqrtPriceLimitX96 ∧
      V3.getSqrtPriceTarget args.zeroForOne (sqrtRatio tick) args.sqrtPriceLimitX96 ≤
        maxSqrtRatio := by
    unfold V3.getSqrtPriceTarget
    split_ifs
    · exact hlimit
    · exact ⟨hmin', hmax'⟩
  refine ⟨?_, priceBounds_of_mem hmin hmax, priceBounds_of_mem htarget.1 htarget.2, hmin,
    htarget.1, hbounded.fee_mem⟩
  rw [hinv.liquidity_eq]
  exact hbounded.liquidity_mem state.tick

/-- Both ports know the tick of the price a pass ends at. -/
theorem V3.SwapArgs.moved_tick (hvalid : args.Valid) (hbounded : args.Bounded)
    (hinv : args.Inv state) {stop : ℤ × Bool} {sqrtPriceNext price : ℤ}
    (hstop : IsNextStop args.snapshot.tickData args.snapshot.tickSpacing args.zeroForOne
      state.tick stop.1)
    (hnext : V3.getSqrtRatioAtTick (clampTick args.zeroForOne stop.1) = .ok sqrtPriceNext)
    (hmoved : Toward args.zeroForOne state.sqrtPriceX96 price)
    (hshort : Toward args.zeroForOne price
      (V3.getSqrtPriceTarget args.zeroForOne sqrtPriceNext args.sqrtPriceLimitX96))
    (hne : price ≠ state.sqrtPriceX96) :
    ∃ tick, V3.getTickAtSqrtRatio price = .ok tick ∧
      V4.getTickAtSqrtPrice price = .ok tick := by
  have hb := V3.SwapArgs.stepBounds hvalid hbounded hinv hnext
  have hdir := V3.SwapArgs.toward_stop hinv hstop hnext
  have hlimit := (V3.toward_getSqrtPriceTarget hdir hinv.within_limit).2.1
  have hmax := hinv.price_within.mem.2
  have hcurrent := hb.current_ge
  have htarget := hb.target_ge
  cases hz : args.zeroForOne with
  | true =>
      simp only [hz, Toward, if_true] at hmoved hshort htarget
      exact getTickAtSqrtPrice_ports (by omega) (by omega)
  | false =>
      have hup := (hvalid.limit_up hz).2
      simp only [hz, Toward, Bool.false_eq_true, if_false] at hmoved hshort hlimit
      exact getTickAtSqrtPrice_ports (by omega) (by omega)

/-- Before the pass from `state`, the ports are bound to the same branch. -/
def V3.SwapArgs.SameBranchAt (args : V3.SwapArgs) (state : SwapState) : Prop :=
  ∀ stop ticks sqrtPriceNext,
    args.snapshot.nextTick args.zeroForOne state = .ok (stop, ticks) →
    V3.getSqrtRatioAtTick (clampTick args.zeroForOne stop.1) = .ok sqrtPriceNext →
    SameBranch state.sqrtPriceX96
      (V3.getSqrtPriceTarget args.zeroForOne sqrtPriceNext args.sqrtPriceLimitX96)
      state.liquidity state.amountSpecifiedRemaining args.fee

theorem SwapState.mirror_ticks (ticks : Option TickGen) :
    { state.mirror with ticks } = SwapState.mirror { state with ticks } := rfl

/-- Whatever the V3 library does with a step, V4 does with the mirrored one. -/
theorem V3.SwapArgs.computeSwapStep_mirror (hvalid : args.Valid) (hbounded : args.Bounded)
    (hinv : args.Inv state) (hguard : args.guard state = true) {stop : ℤ × Bool}
    {ticks : Option TickGen} {sqrtPriceNext : ℤ} (hsame : args.SameBranchAt state)
    (hstop : args.snapshot.nextTick args.zeroForOne state = .ok (stop, ticks))
    (hnext : V3.getSqrtRatioAtTick (clampTick args.zeroForOne stop.1) = .ok sqrtPriceNext) :
    ExceptRel (fun _ _ => True) (fun step3 step4 => SameStep step3 step4 ∧ SafeAmounts step4)
      (V3.computeSwapStep state.sqrtPriceX96
        (V3.getSqrtPriceTarget args.zeroForOne sqrtPriceNext args.sqrtPriceLimitX96)
        state.liquidity state.amountSpecifiedRemaining args.fee)
      (V4.computeSwapStep state.sqrtPriceX96
        (V3.getSqrtPriceTarget args.zeroForOne sqrtPriceNext args.sqrtPriceLimitX96)
        state.liquidity (-state.amountSpecifiedRemaining) args.fee) := by
  have hb := V3.SwapArgs.stepBounds hvalid hbounded hinv hnext
  rcases lt_or_gt_of_ne (V3.SwapArgs.guard_iff.mp hguard).1 with hneg | hpos
  · exact computeSwapStep_output_ports hb hneg
  · exact computeSwapStep_input_ports hb hpos (hsame stop ticks sqrtPriceNext hstop hnext)

theorem V3.SwapArgs.tickRange_lt (hs : 0 < args.snapshot.tickSpacing) (tickNext : ℤ) :
    (tickRange args.zeroForOne tickNext args.snapshot.tickSpacing).1 <
      (tickRange args.zeroForOne tickNext args.snapshot.tickSpacing).2 := by
  unfold tickRange
  split <;> simp only <;> omega

/-- A V4 pass over the mirrored state, in the terms of the V3 arguments. -/
theorem V3.SwapArgs.toV4_moveTo (hs : 0 < args.snapshot.tickSpacing) (stop : ℤ × Bool) :
    args.toV4.moveTo stop state.mirror =
      (do
        let sqrtPriceNext ← V4.getSqrtPriceAtTick (clampTick args.zeroForOne stop.1)
        let step ← V4.computeSwapStep state.sqrtPriceX96
          (V3.getSqrtPriceTarget args.zeroForOne sqrtPriceNext args.sqrtPriceLimitX96)
          state.liquidity (-state.amountSpecifiedRemaining) args.fee
        let moved ← args.toV4.applyAmounts state.mirror step
        let finished ← args.snapshot.finishStep V4.getTickAtSqrtPrice args.zeroForOne stop.2
          (clampTick args.zeroForOne stop.1) sqrtPriceNext state.sqrtPriceX96 moved
        if ¬finished.liquidity ≥ 0 then .error .assertionError else .ok finished) := by
  have hrange : ¬¬(tickRange args.toV4.zeroForOne (clampTick args.toV4.zeroForOne stop.1)
      args.toV4.snapshot.tickSpacing).1 < (tickRange args.toV4.zeroForOne
      (clampTick args.toV4.zeroForOne stop.1) args.toV4.snapshot.tickSpacing).2 :=
    not_not.mpr (V3.SwapArgs.tickRange_lt hs _)
  simp only [V4.SwapArgs.moveTo, if_neg hrange, getSqrtPriceTarget_ports,
    V3.SwapArgs.toV4_swapFee]
  rfl

/-- One pass of V4 mirrors the pass of V3. -/
theorem V3.SwapArgs.body_mirror (hvalid : args.Valid) (hbounded : args.Bounded)
    (hinv : args.Inv state) (hguard : args.guard state = true)
    (hsame : args.SameBranchAt state) :
    ExceptRel (fun _ _ => True) (fun s t => t = s.mirror) (args.body state)
      (args.toV4.body state.mirror) := by
  have hs := hbounded.spacing_pos
  have hbody : ∀ s', args.body state = .ok s' → args.Inv s' := fun s' h =>
    V3.SwapArgs.body_inv hvalid hs hinv ⟨hguard, h⟩
  unfold V3.SwapArgs.body at hbody ⊢
  unfold V4.SwapArgs.body
  change ExceptRel _ _ _ (args.snapshot.nextTick args.zeroForOne state >>= _)
  cases hnexttick : args.snapshot.nextTick args.zeroForOne state with
  | error e => exact .error trivial
  | ok pair =>
      obtain ⟨stop, ticks⟩ := pair
      obtain ⟨hstop, -, -⟩ := V3.SwapArgs.nextTick_spec hs (hinv.walk hguard) hnexttick
      simp only [hnexttick, ok_bind, SwapState.mirror_ticks,
        V3.SwapArgs.toV4_moveTo hs] at hbody ⊢
      unfold V3.SwapArgs.moveTo at hbody ⊢
      refine .bind (getSqrtPriceAtTick_ports _) fun sqrtPriceNext next' hnext _ heq => ?_
      subst heq
      have hdir := V3.SwapArgs.toward_stop hinv hstop hnext
      have htarget := (V3.toward_getSqrtPriceTarget hdir hinv.within_limit).1
      simp only [hnext, ok_bind, V3.SwapArgs.tickRange_lt hs, not_true_eq_false,
        if_false] at hbody ⊢
      refine .bind (V3.SwapArgs.computeSwapStep_mirror hvalid hbounded hinv hguard hsame
        hnexttick hnext) fun step3 step4 h3 _ hstep => ?_
      obtain ⟨hmoved, hshort⟩ := (V3.computeSwapStep_spec h3).toward htarget
      simp only [h3, ok_bind] at hbody
      rw [V3.SwapArgs.applyAmounts_mirror hstep.1 hstep.2, ok_bind,
        @finishStep_mirror _ _ V3.getTickAtSqrtRatio _ _ _ _ _ _ fun _ hne => by
          simp only [V3.SwapArgs.applyAmounts_sqrtPriceX96] at hne ⊢
          exact V3.SwapArgs.moved_tick hvalid hbounded hinv hstop hnext hmoved hshort hne]
      cases hfinish : args.snapshot.finishStep V3.getTickAtSqrtRatio args.zeroForOne stop.2
          (clampTick args.zeroForOne stop.1) sqrtPriceNext state.sqrtPriceX96
          (args.applyAmounts { state with ticks } step3) with
      | error e => exact .error trivial
      | ok s' =>
          have hnn : s'.mirror.liquidity ≥ 0 := by
            change s'.liquidity ≥ 0
            rw [(hbody s' hfinish).liquidity_eq]
            exact (hbounded.liquidity_mem _).1
          change ExceptRel _ _ _ (if ¬s'.mirror.liquidity ≥ 0 then _ else _)
          rw [if_neg (not_not.mpr hnn)]
          exact .ok rfl

/-- A pass in which the ports part: V4 spends its whole input, and V3 fails or ends at
another price. -/
theorem V3.SwapArgs.body_gap (hvalid : args.Valid) (hbounded : args.Bounded)
    (hinv : args.Inv state) (hguard : args.guard state = true)
    (hmax : state.amountSpecifiedRemaining ≤ maxUint256) (hgap : ¬args.SameBranchAt state) :
    ∃ t, args.toV4.body state.mirror = .ok t ∧ args.toV4.guard t = false ∧
      ∀ s', args.body state = .ok s' →
        args.guard s' = false ∧ s'.sqrtPriceX96 ≠ t.sqrtPriceX96 := by
  have hs := hbounded.spacing_pos
  unfold V3.SwapArgs.SameBranchAt at hgap
  push Not at hgap
  obtain ⟨stop, ticks, sqrtPriceNext, hnexttick, hnext, hgap⟩ := hgap
  unfold SameBranch at hgap
  push Not at hgap
  obtain ⟨hrem, hgap⟩ := hgap
  obtain ⟨hle, hshort, hformula⟩ := hgap (.inl hmax)
  obtain ⟨hstop, -, -⟩ := V3.SwapArgs.nextTick_spec hs (hinv.walk hguard) hnexttick
  have hb := V3.SwapArgs.stepBounds hvalid hbounded hinv hnext
  have hdir := V3.SwapArgs.toward_stop hinv hstop hnext
  obtain ⟨htarget, -, hbefore⟩ := V3.toward_getSqrtPriceTarget hdir hinv.within_limit
  obtain ⟨step4, h4, htotal, hsafe, hgt, hle4, hpart⟩ :=
    computeSwapStep_input_gap hb hrem hle hshort hformula
  have hexact : args.exactInput = true := by
    by_contra hout
    have hsign := hinv.signKept
    simp only [V3.SwapArgs.SignKept, hout, if_false] at hsign
    omega
  have hz : args.zeroForOne = true := by
    by_contra hup
    simp only [Toward, hup, if_false] at htarget
    have heq := le_antisymm hle htarget
    rw [heq] at hshort
    have hnn := (lessFee_bounds hrem hbounded.fee_mem).1
    simp [inputAmount, zero_ceilDiv] at hshort
    omega
  have hmoved : Toward args.zeroForOne state.sqrtPriceX96 step4.sqrtRatioNextX96 := by
    simpa [Toward, hz] using hle4
  have hshort4 : Toward args.zeroForOne step4.sqrtRatioNextX96
      (V3.getSqrtPriceTarget args.zeroForOne sqrtPriceNext args.sqrtPriceLimitX96) := by
    simpa [Toward, hz] using hgt.le
  have hne4 : step4.sqrtRatioNextX96 ≠ sqrtPriceNext := by
    simp only [Toward, hz, if_true] at hbefore hgt
    omega
  -- the amounts of V4 pass its casts and leave nothing
  obtain ⟨hcast, hcast'⟩ := hsafe.casts
  rw [htotal] at hcast
  obtain ⟨moved, happly, hzero, hprice, hliq⟩ : ∃ moved,
      args.toV4.applyAmounts (SwapState.mirror { state with ticks }) step4 = .ok moved ∧
        moved.amountSpecifiedRemaining = 0 ∧ moved.sqrtPriceX96 = step4.sqrtRatioNextX96 ∧
        moved.liquidity = state.liquidity := by
    have hneg : args.toV4.amountSpecified < 0 := by
      simpa [V3.SwapArgs.toV4, V3.SwapArgs.exactInput] using hexact
    simp [V4.SwapArgs.applyAmounts, hneg, hcast, hcast', SwapState.mirror, htotal]
  obtain ⟨t, hfinish, hliq'⟩ : ∃ t,
      args.snapshot.finishStep V4.getTickAtSqrtPrice args.zeroForOne stop.2
        (clampTick args.zeroForOne stop.1) sqrtPriceNext state.sqrtPriceX96 moved = .ok t ∧
        t.liquidity = moved.liquidity := by
    unfold LiquidityMapSnapshot.finishStep
    rw [← hprice] at hne4 hmoved hshort4
    rw [if_neg hne4]
    by_cases hstart : moved.sqrtPriceX96 = state.sqrtPriceX96
    · exact ⟨moved, by rw [if_neg (not_not.mpr hstart)], rfl⟩
    · obtain ⟨tick, -, htick⟩ :=
        V3.SwapArgs.moved_tick hvalid hbounded hinv hstop hnext hmoved hshort4 hstart
      exact ⟨{ moved with tick }, by rw [if_pos hstart, htick]; rfl, rfl⟩
  obtain ⟨hrem', -, hprice', -⟩ := V3.finishStep_frame hfinish
  refine ⟨t, ?_, ?_, fun s' hbody => ?_⟩
  · have hnext4 := V4.getSqrtPriceAtTick_eq_ok_iff.mpr (V3.getSqrtRatioAtTick_eq_ok_iff.mp hnext)
    have hnn : ¬¬t.liquidity ≥ 0 := by
      rw [not_not, hliq', hliq, hinv.liquidity_eq]
      exact (hbounded.liquidity_mem _).1
    unfold V4.SwapArgs.body
    change (args.snapshot.nextTick args.zeroForOne state >>= _) = _
    simp only [hnexttick, ok_bind, SwapState.mirror_ticks, V3.SwapArgs.toV4_moveTo hs, hnext4,
      h4, happly, hfinish, if_neg hnn]
  · simp [V4.SwapArgs.guard, hrem', hzero]
  · obtain ⟨⟨stop', ticks'⟩, hnexttick', hmove⟩ := bind_eq_ok.mp hbody
    rw [hnexttick] at hnexttick'
    cases hnexttick'
    have hsign : args.SignKept { state with ticks } := hinv.signKept
    have hguard' : args.guard { state with ticks } = true := hguard
    obtain ⟨sqrtPriceNext', step3, hnext', h3, hfinish3⟩ := V3.SwapArgs.moveTo_eq_ok hmove
    rw [hnext] at hnext'
    cases hnext'
    obtain ⟨hshort3, hne⟩ := hpart step3 h3
    have hexhausted := (V3.SwapArgs.applyAmounts_spec hsign hguard' h3).2 hshort3
    obtain ⟨hrem3, -, hprice3, -⟩ := V3.finishStep_frame hfinish3
    constructor
    · simp [V3.SwapArgs.guard, hrem3, hexhausted]
    · rw [hprice3, V3.SwapArgs.applyAmounts_sqrtPriceX96, hprice', hprice]
      exact hne

end Pass

/-! ## Whole swaps -/

/-- Results at the same price, tick and liquidity with opposite amounts. -/
structure Opposite (result3 result4 : SwapResult) : Prop where
  amount0 : result4.amount0 = -result3.amount0
  amount1 : result4.amount1 = -result3.amount1
  sqrtPrice : result4.sqrtPriceX96 = result3.sqrtPriceX96
  tick : result4.tick = result3.tick
  liquidity : result4.liquidity = result3.liquidity

instance (result3 result4 : SwapResult) : Decidable (Opposite result3 result4) :=
  decidable_of_iff (result4.amount0 = -result3.amount0 ∧ result4.amount1 = -result3.amount1 ∧
      result4.sqrtPriceX96 = result3.sqrtPriceX96 ∧ result4.tick = result3.tick ∧
      result4.liquidity = result3.liquidity)
    ⟨fun ⟨h0, h1, hp, ht, hl⟩ => ⟨h0, h1, hp, ht, hl⟩,
      fun ⟨h0, h1, hp, ht, hl⟩ => ⟨h0, h1, hp, ht, hl⟩⟩

/-- Both simulators return, and either both fail or their results are opposite. -/
def V3.SwapArgs.PortsAgree (args : V3.SwapArgs) : Prop :=
  ∃ fuel outcome3 outcome4, V3.calculateSwap fuel args = some outcome3 ∧
    V4.calculateSwap fuel args.toV4 = some outcome4 ∧
    ExceptRel (fun _ _ => True) Opposite outcome3 outcome4

/-- The ports take the same branch in every pass of the V3 loop. -/
def V3.SwapArgs.SameBranches (args : V3.SwapArgs) : Prop :=
  ∀ state, Visits args.guard args.body args.initialState state → args.guard state = true →
    args.SameBranchAt state

section Swap

variable {args : V3.SwapArgs}

theorem V3.SwapArgs.toV4_check (hvalid : args.Valid) : args.toV4.check = .ok () := by
  cases hz : args.zeroForOne with
  | true =>
      have hlimit := hvalid.limit_down hz
      simp only [V4.SwapArgs.check, V3.SwapArgs.toV4, hz, if_true]
      rw [if_neg (by omega), if_neg (by omega)]
  | false =>
      have hlimit := hvalid.limit_up hz
      simp only [V4.SwapArgs.check, V3.SwapArgs.toV4, hz, Bool.false_eq_true, if_false]
      rw [if_neg (by omega), if_neg (by omega)]

/-- Accepted arguments reach the loop in both simulators. -/
theorem V3.SwapArgs.calculateSwap_loops (hvalid : args.Valid) (hbounded : args.Bounded)
    (fuel : ℕ) :
    V3.calculateSwap fuel args =
        (whileLoop args.guard args.body fuel args.initialState).map (·.map args.result) ∧
      V4.calculateSwap fuel args.toV4 =
        (whileLoop args.toV4.guard args.toV4.body fuel args.initialState.mirror).map
          (·.map args.toV4.result) := by
  have hfee := hbounded.fee_mem
  constructor
  · simp only [V3.calculateSwap, V3.SwapArgs.check_eq_ok_iff.mpr hvalid]
  · have hstart : args.toV4.initialState = args.initialState.mirror := by
      simp only [V4.SwapArgs.initialState, V3.SwapArgs.initialState, SwapState.mirror, neg_zero]
      rfl
    have hL : args.toV4.liquidityStart ≥ 0 := hvalid.liquidity_nonneg
    have hne : ¬args.toV4.amountSpecified = 0 := by
      simpa [V3.SwapArgs.toV4] using hvalid.amount_ne
    have hcap : ¬(args.toV4.swapFee ≥ V4.maxSwapFee ∧ args.toV4.amountSpecified > 0) := by
      rw [V3.SwapArgs.toV4_swapFee, V4.maxSwapFee]
      omega
    unfold V4.calculateSwap
    rw [if_neg (not_not.mpr hL), if_neg hcap, if_neg hne, V3.SwapArgs.toV4_check hvalid, hstart]

theorem V3.SwapArgs.result_mirror (hne : args.amountSpecified ≠ 0) (state : SwapState) :
    Opposite (args.result state) (args.toV4.result state.mirror) := by
  rcases lt_or_gt_of_ne hne with hneg | hpos
  · have hnlt : ¬0 < args.amountSpecified := not_lt.mpr hneg.le
    cases hz : args.zeroForOne <;> constructor <;>
      simp [V3.SwapArgs.result, V4.SwapArgs.result, V3.SwapArgs.toV4, V3.SwapArgs.exactInput,
        SwapState.mirror, hz, hnlt] <;> ring
  · cases hz : args.zeroForOne <;> constructor <;>
      simp [V3.SwapArgs.result, V4.SwapArgs.result, V3.SwapArgs.toV4, V3.SwapArgs.exactInput,
        SwapState.mirror, hz, hpos] <;> ring

/-- The loops from `state` end in agreement. -/
def V3.SwapArgs.LoopsAgree (args : V3.SwapArgs) (state : SwapState) : Prop :=
  ∃ fuel outcome3 outcome4, whileLoop args.guard args.body fuel state = some outcome3 ∧
    whileLoop args.toV4.guard args.toV4.body fuel state.mirror = some outcome4 ∧
    ExceptRel (fun _ _ => True) (fun s t => Opposite (args.result s) (args.toV4.result t))
      outcome3 outcome4

theorem exceptRel_map_iff {α β : Type} {f : α → SwapResult} {g : β → SwapResult}
    {x : Except Exn α} {y : Except Exn β} :
    ExceptRel (fun _ _ => True) Opposite (x.map f) (y.map g) ↔
      ExceptRel (fun _ _ => True) (fun a b => Opposite (f a) (g b)) x y := by
  constructor
  · intro h
    cases x <;> cases y <;> cases h
    · exact .error trivial
    · exact .ok ‹_›
  · intro h
    cases h with
    | error he => exact .error he
    | ok hab => exact .ok hab

theorem V3.SwapArgs.portsAgree_iff_loopsAgree (hvalid : args.Valid) (hbounded : args.Bounded) :
    args.PortsAgree ↔ args.LoopsAgree args.initialState := by
  have hloops := V3.SwapArgs.calculateSwap_loops hvalid hbounded
  constructor
  · rintro ⟨fuel, outcome3, outcome4, h3, h4, hagree⟩
    rw [(hloops fuel).1, Option.map_eq_some_iff] at h3
    rw [(hloops fuel).2, Option.map_eq_some_iff] at h4
    obtain ⟨final3, h3, rfl⟩ := h3
    obtain ⟨final4, h4, rfl⟩ := h4
    exact ⟨fuel, final3, final4, h3, h4, exceptRel_map_iff.mp hagree⟩
  · rintro ⟨fuel, final3, final4, h3, h4, hagree⟩
    refine ⟨fuel, final3.map args.result, final4.map args.toV4.result, ?_, ?_,
      exceptRel_map_iff.mpr hagree⟩
    · rw [(hloops fuel).1, h3, Option.map_some]
    · rw [(hloops fuel).2, h4, Option.map_some]

/-- Where every pass takes the same branch, the loops run in lockstep to the end. -/
theorem V3.SwapArgs.loopsAgree_of_sameBranches (hvalid : args.Valid) (hbounded : args.Bounded)
    (hsame : args.SameBranches) : args.LoopsAgree args.initialState := by
  have hs := hbounded.spacing_pos
  have hinit := V3.SwapArgs.initial_inv hvalid hbounded.toConsistent
  have hstep : ∀ s s', args.Inv s → Iterates args.guard args.body s s' → args.Inv s' :=
    fun s s' hinv hiter => V3.SwapArgs.body_inv hvalid hs hinv hiter
  obtain ⟨outcome3, h3⟩ := whileLoop_terminates args.distance hstep
    (fun s s' hinv hiter hguard' => V3.SwapArgs.distance_lt hvalid hs hinv hiter hguard')
    hinit le_rfl
  -- lockstep over the states that the V3 loop visits
  let Lockstep (s t : SwapState) : Prop :=
    t = s.mirror ∧ args.Inv s ∧ Visits args.guard args.body args.initialState s
  have hguards : ∀ s t, Lockstep s t → args.guard s = args.toV4.guard t := by
    rintro s t ⟨rfl, -⟩
    exact V3.SwapArgs.guard_mirror.symm
  have hbodies : ∀ s t, Lockstep s t → args.guard s = true →
      ExceptRel (fun _ _ => True) Lockstep (args.body s) (args.toV4.body t) := by
    rintro s t ⟨rfl, hinv, hvisit⟩ hguard
    have hmirror := V3.SwapArgs.body_mirror hvalid hbounded hinv hguard (hsame s hvisit hguard)
    cases hb : args.body s with
    | error e =>
        rw [hb] at hmirror
        generalize args.toV4.body s.mirror = y at hmirror ⊢
        cases hmirror
        exact .error trivial
    | ok s' =>
        rw [hb] at hmirror
        obtain ⟨t', ht', rfl⟩ := hmirror.ok_left
        rw [ht']
        exact .ok ⟨rfl, hstep s s' hinv ⟨hguard, hb⟩, hvisit.tail ⟨hguard, hb⟩⟩
  have hstart : Lockstep args.initialState args.initialState.mirror := ⟨rfl, hinit, .refl⟩
  have hrel := whileLoop_rel hguards hbodies (args.distance args.initialState + 2) hstart
  rw [h3] at hrel
  generalize h4 : whileLoop args.toV4.guard args.toV4.body _ args.initialState.mirror = y at hrel
  cases hrel with
  | some hrel =>
      refine ⟨_, outcome3, _, h3, h4, ?_⟩
      cases hrel with
      | error he => exact .error he
      | ok hab =>
          obtain ⟨rfl, -⟩ := hab
          exact .ok (V3.SwapArgs.result_mirror hvalid.amount_ne _)

/-- An amount of 256 bits stays one. -/
theorem V3.SwapArgs.body_remaining_le {state state' : SwapState}
    (hinv : args.Inv state) (hinv' : args.Inv state')
    (hmax : state.amountSpecifiedRemaining ≤ maxUint256)
    (hiter : Iterates args.guard args.body state state') :
    state'.amountSpecifiedRemaining ≤ maxUint256 := by
  by_cases hexact : args.exactInput = true
  · obtain ⟨⟨stop, ticks⟩, -, hmove⟩ := bind_eq_ok.mp hiter.2
    obtain ⟨sqrtPriceNext, step, -, hstep, hfinish⟩ := V3.SwapArgs.moveTo_eq_ok hmove
    obtain ⟨hrem, -, -, -⟩ := V3.finishStep_frame hfinish
    have hsign := hinv.signKept
    simp only [V3.SwapArgs.SignKept, hexact, if_true] at hsign
    have hnn := (V3.computeSwapStep_spec hstep).input_nonneg hsign
    rw [hrem]
    simp only [V3.SwapArgs.applyAmounts, hexact, if_true]
    omega
  · have hsign := hinv'.signKept
    simp only [V3.SwapArgs.SignKept, hexact, Bool.false_eq_true, if_false] at hsign
    exact hsign.trans (by decide)

/-- Agreement from a state on forces the same branch in it, and agreement after it. -/
theorem V3.SwapArgs.LoopsAgree.step {state : SwapState} (hvalid : args.Valid)
    (hbounded : args.Bounded) (hinv : args.Inv state) (hguard : args.guard state = true)
    (hmax : state.amountSpecifiedRemaining ≤ maxUint256) (h : args.LoopsAgree state) :
    args.SameBranchAt state ∧
      ∀ state', args.body state = .ok state' → args.LoopsAgree state' := by
  obtain ⟨fuel, outcome3, outcome4, h3, h4, hagree⟩ := h
  obtain ⟨fuel, rfl⟩ : ∃ n, fuel = n + 1 := by
    cases fuel with
    | zero => simp at h3
    | succ n => exact ⟨n, rfl⟩
  have hguard4 : args.toV4.guard state.mirror = true := V3.SwapArgs.guard_mirror.trans hguard
  have hsame : args.SameBranchAt state := by
    by_contra hgap
    obtain ⟨t, ht, hstop, hpart⟩ :=
      V3.SwapArgs.body_gap hvalid hbounded hinv hguard hmax hgap
    rw [whileLoop_step fuel hguard4 ht] at h4
    cases fuel with
    | zero => simp at h4
    | succ fuel =>
        rw [whileLoop_exit fuel hstop] at h4
        cases h4
        cases hb : args.body state with
        | error e =>
            rw [whileLoop_error _ hguard hb] at h3
            cases h3
            cases hagree
        | ok s' =>
            obtain ⟨hstop3, hne⟩ := hpart s' hb
            rw [whileLoop_step _ hguard hb, whileLoop_exit fuel hstop3] at h3
            cases h3
            cases hagree with
            | ok hopp => exact hne hopp.sqrtPrice.symm
  refine ⟨hsame, fun state' hb => ?_⟩
  have hmirror := V3.SwapArgs.body_mirror hvalid hbounded hinv hguard hsame
  rw [hb] at hmirror
  obtain ⟨t, ht, rfl⟩ := hmirror.ok_left
  rw [whileLoop_step fuel hguard hb] at h3
  rw [whileLoop_step fuel hguard4 ht] at h4
  exact ⟨fuel, outcome3, outcome4, h3, h4, hagree⟩

/-- Every state that the V3 loop visits satisfies the invariant. -/
theorem V3.SwapArgs.visits_inv {state : SwapState} (hvalid : args.Valid)
    (hbounded : args.Bounded) (hmax : args.amountSpecified ≤ maxUint256)
    (hvisit : Visits args.guard args.body args.initialState state) :
    args.Inv state ∧ state.amountSpecifiedRemaining ≤ maxUint256 := by
  induction hvisit with
  | refl => exact ⟨V3.SwapArgs.initial_inv hvalid hbounded.toConsistent, hmax⟩
  | tail _ hiter ih =>
      have hinv' := V3.SwapArgs.body_inv hvalid hbounded.spacing_pos ih.1 hiter
      exact ⟨hinv', V3.SwapArgs.body_remaining_le ih.1 hinv' ih.2 hiter⟩

theorem V3.SwapArgs.sameBranches_of_loopsAgree (hvalid : args.Valid) (hbounded : args.Bounded)
    (hmax : args.amountSpecified ≤ maxUint256) (h : args.LoopsAgree args.initialState) :
    args.SameBranches := by
  have hagree : ∀ state, Visits args.guard args.body args.initialState state →
      args.LoopsAgree state := by
    intro state hvisit
    induction hvisit with
    | refl => exact h
    | tail hvisit hiter ih =>
        obtain ⟨hinv, hle⟩ := V3.SwapArgs.visits_inv hvalid hbounded hmax hvisit
        exact (ih.step hvalid hbounded hinv hiter.1 hle).2 _ hiter.2
  intro state hvisit hguard
  obtain ⟨hinv, hle⟩ := V3.SwapArgs.visits_inv hvalid hbounded hmax hvisit
  exact ((hagree state hvisit).step hvalid hbounded hinv hguard hle).1

/-- Towards higher prices the ports never part. -/
theorem V3.SwapArgs.sameBranches_of_up (hvalid : args.Valid) (hbounded : args.Bounded)
    (hmax : args.amountSpecified ≤ maxUint256) (hup : args.zeroForOne = false) :
    args.SameBranches := by
  intro state hvisit hguard stop ticks sqrtPriceNext hnexttick hnext hrem
  obtain ⟨hinv, hle⟩ := V3.SwapArgs.visits_inv hvalid hbounded hmax hvisit
  refine ⟨.inl hle, fun hdown hshort => ?_⟩
  obtain ⟨hstop, -, -⟩ :=
    V3.SwapArgs.nextTick_spec hbounded.spacing_pos (hinv.walk hguard) hnexttick
  have hdir := V3.SwapArgs.toward_stop hinv hstop hnext
  have htarget := (V3.toward_getSqrtPriceTarget hdir hinv.within_limit).1
  -- a target below the current price would be the current price itself
  have hnn := (lessFee_bounds hrem hbounded.fee_mem).1
  simp only [Toward, hup, Bool.false_eq_true, if_false] at htarget hdown hshort
  rw [le_antisymm hdown htarget] at hshort
  simp only [inputAmount, if_true, sub_self, mul_zero, zero_ceilDiv] at hshort
  omega

/-- The simulators agree on a swap whose passes all take the same branch; for an amount
of at most 256 bits they agree on no other. -/
theorem portsAgree_of_sameBranches (hvalid : args.Valid) (hbounded : args.Bounded) :
    (args.SameBranches → args.PortsAgree) ∧
      (args.amountSpecified ≤ maxUint256 → args.PortsAgree → args.SameBranches) := by
  rw [V3.SwapArgs.portsAgree_iff_loopsAgree hvalid hbounded]
  exact ⟨V3.SwapArgs.loopsAgree_of_sameBranches hvalid hbounded,
    V3.SwapArgs.sameBranches_of_loopsAgree hvalid hbounded⟩

theorem liquidityAt_pair {tickData : LiquidityMap} {lower upper : ℤ} (hlt : lower < upper)
    (hkeys : tickData.keys.toFinset = {lower, upper}) (tick : ℤ) :
    liquidityAt tickData tick = (if lower ≤ tick then netAt tickData lower else 0) +
      if upper ≤ tick then netAt tickData upper else 0 := by
  rw [liquidityAt, hkeys, Finset.sum_filter, Finset.sum_pair hlt.ne]

theorem sampleSwap_bounded : sampleSwap.Bounded where
  spacing_pos := by decide
  liquidity_eq := by decide +kernel
  price_within := ⟨2 ^ 96, 79232123823359799118286999568, by decide +kernel, by decide +kernel,
      by decide +kernel, by decide +kernel⟩
  liquidity_mem tick := by
    have hlower : netAt sampleTickData (-60) = 10 ^ 18 := by decide +kernel
    have hupper : netAt sampleTickData 60 = -10 ^ 18 := by decide +kernel
    change LiquidityBounds (liquidityAt sampleTickData tick)
    rw [liquidityAt_pair (by decide : (-60 : ℤ) < 60) (by decide +kernel), hlower, hupper]
    simp only [LiquidityBounds, maxUint128]
    split_ifs
    all_goals
      norm_num
      try omega
  fee_mem := by decide

theorem portsAgree_of_sameBranches_sample : sampleSwap.PortsAgree := by
  have hvalid : sampleSwap.Valid := V3.SwapArgs.check_eq_ok_iff.mp (by decide +kernel)
  exact (portsAgree_of_sameBranches hvalid sampleSwap_bounded).1
    (V3.SwapArgs.sameBranches_of_up hvalid sampleSwap_bounded (by decide +kernel) rfl)

end Swap

/-! ## A swap on which the ports part

One position of 2^120 over nearly the whole range, and an input whose product with the
price is just below 256 bits. -/

def gapTickData : LiquidityMap :=
  (AList.insert (-884682) ⟨2 ^ 120, 2 ^ 120, 0, by decide, by decide⟩ ∅).insert 884682
    ⟨-2 ^ 120, 2 ^ 120, 0, by decide, by decide⟩

def gapTickBitmap : InitializedTickMap :=
  (AList.insert (-1) ⟨2 ^ 202, 0, by norm_num⟩ ∅).insert 0 ⟨2 ^ 54, 0, by norm_num⟩

def gapSwap : V3.SwapArgs where
  snapshot := ⟨gapTickData, gapTickBitmap, 16383, false⟩
  zeroForOne := true
  amountSpecified := 1465899335336913659181228518271096308581677575703
  sqrtPriceLimitX96 := minSqrtRatio + 1
  fee := 3000
  liquidityStart := 2 ^ 120
  sqrtPriceX96Start := 2 ^ 96
  tickStart := 0

theorem gapSwap_bounded : gapSwap.Bounded where
  spacing_pos := by decide
  liquidity_eq := by decide +kernel
  price_within := ⟨2 ^ 96, 79232123823359799118286999568, by decide +kernel, by decide +kernel,
      by decide +kernel, by decide +kernel⟩
  liquidity_mem tick := by
    have hlower : netAt gapTickData (-884682) = 2 ^ 120 := by decide +kernel
    have hupper : netAt gapTickData 884682 = -2 ^ 120 := by decide +kernel
    change LiquidityBounds (liquidityAt gapTickData tick)
    rw [liquidityAt_pair (by decide : (-884682 : ℤ) < 884682) (by decide +kernel), hlower, hupper]
    simp only [LiquidityBounds, maxUint128]
    split_ifs
    all_goals
      norm_num
      try omega
  fee_mem := by decide

/-- V3 raises on the denominator of 257 bits where V4 returns. -/
theorem gapSwap_parts : gapSwap.Valid ∧ gapSwap.Bounded ∧
    V3.calculateSwap 3 gapSwap =
      some (.error (.evmRevertError "Invalid value for denominator.")) ∧
    V4.calculateSwap 3 gapSwap.toV4 =
      some (.ok ⟨-1465899335336913659181228518271096308581677575703,
        1329227995783706947084193530600488960, 72057594037862401, 2 ^ 120, -554546⟩) ∧
    ¬gapSwap.PortsAgree := by
  have hvalid : gapSwap.Valid := V3.SwapArgs.check_eq_ok_iff.mp (by decide +kernel)
  have h3 : V3.calculateSwap 3 gapSwap =
      some (.error (.evmRevertError "Invalid value for denominator.")) := by decide +kernel
  have h4 : V4.calculateSwap 3 gapSwap.toV4 =
      some (.ok ⟨-1465899335336913659181228518271096308581677575703,
        1329227995783706947084193530600488960, 72057594037862401, 2 ^ 120, -554546⟩) := by
    decide +kernel
  refine ⟨hvalid, gapSwap_bounded, h3, h4, ?_⟩
  rintro ⟨fuel, outcome3, outcome4, h3', h4', hagree⟩
  rw [(V3.SwapArgs.calculateSwap_loops hvalid gapSwap_bounded _).1, Option.map_eq_some_iff]
    at h3 h3'
  rw [(V3.SwapArgs.calculateSwap_loops hvalid gapSwap_bounded _).2, Option.map_eq_some_iff]
    at h4 h4'
  obtain ⟨final3, hloop3, hres3⟩ := h3
  obtain ⟨final3', hloop3', rfl⟩ := h3'
  obtain ⟨final4, hloop4, hres4⟩ := h4
  obtain ⟨final4', hloop4', rfl⟩ := h4'
  rw [whileLoop_deterministic hloop3' hloop3, hres3, whileLoop_deterministic hloop4' hloop4,
    hres4] at hagree
  cases hagree

end Degenbot
