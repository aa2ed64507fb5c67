import Degenbot.Verification.Simulator.Invariant
import Degenbot.Verification.SwapMath.Step

/-! # V4 swaps that move nothing

An exact input leaves price, tick and liquidity unchanged only in its first pass: a pass
that ends before its stop is the last one, and a pass that reaches its stop moves the tick
past it for good. -/

namespace Degenbot.V4

open Library

/-- An exact input that passes the checks before the loop, in a pool with valid fees. -/
structure SwapArgs.ExactInput (args : SwapArgs) : Prop where
  amount_neg : args.amountSpecified < 0
  liquidity_nonneg : 0 ≤ args.liquidityStart
  limit_down : args.zeroForOne = true →
    minSqrtRatio < args.sqrtPriceX96Limit ∧ args.sqrtPriceX96Limit < args.sqrtPriceX96Start
  limit_up : args.zeroForOne = false →
    args.sqrtPriceX96Start < args.sqrtPriceX96Limit ∧ args.sqrtPriceX96Limit < maxSqrtRatio
  limit_pos : 0 < args.sqrtPriceX96Limit
  spacing_pos : 0 < args.snapshot.tickSpacing
  fee_mem : 0 ≤ args.swapFee ∧ args.swapFee ≤ maxSwapFee

/-- The first step ends where it started, short of the next stop: the input is too small
to move the price. -/
def SwapArgs.Stays (args : SwapArgs) : Prop :=
  ∃ stop sqrtPriceNext step,
    args.snapshot.nextInitializedTick args.tickStart args.zeroForOne = .ok stop ∧
    getSqrtPriceAtTick (clampTick args.zeroForOne stop.1) = .ok sqrtPriceNext ∧
    computeSwapStep args.sqrtPriceX96Start
      (getSqrtPriceTarget args.zeroForOne sqrtPriceNext args.sqrtPriceX96Limit)
      args.liquidityStart args.amountSpecified args.swapFee = .ok step ∧
    step.sqrtRatioNextX96 = args.sqrtPriceX96Start ∧ args.sqrtPriceX96Start ≠ sqrtPriceNext

/-- The same walk along the ticks as a V3 call. -/
def SwapArgs.toV3 (args : SwapArgs) : V3.SwapArgs where
  snapshot := args.snapshot
  zeroForOne := args.zeroForOne
  amountSpecified := -args.amountSpecified
  sqrtPriceLimitX96 := args.sqrtPriceX96Limit
  fee := args.swapFee
  liquidityStart := args.liquidityStart
  sqrtPriceX96Start := args.sqrtPriceX96Start
  tickStart := args.tickStart

theorem InputSpec.mem {current target remaining : ℤ} {step : SwapStep}
    (h : InputSpec current target remaining step) :
    min current target ≤ step.sqrtRatioNextX96 ∧ step.sqrtRatioNextX96 ≤ max current target := by
  obtain ⟨hmoved, hshort⟩ := h.between
  by_cases hge : current ≥ target
  · simp only [hge, decide_true, Toward, if_true] at hmoved hshort
    omega
  · simp only [hge, decide_false, Toward, Bool.false_eq_true, if_false] at hmoved hshort
    omega

theorem SwapArgs.guard_eq_false_iff {args : SwapArgs} {state : SwapState} :
    args.guard state = false ↔
      state.amountSpecifiedRemaining = 0 ∨ state.sqrtPriceX96 = args.sqrtPriceX96Limit := by
  simp [SwapArgs.guard, or_iff_not_imp_left]

/-! ## One pass -/

section Pass

variable {args : SwapArgs} {stop : ℤ × Bool} {ticks : Option TickGen} {state state' : SwapState}

theorem SwapArgs.moveTo_eq_ok (h : args.moveTo stop state = .ok state') :
    ∃ sqrtPriceNext step moved,
      getSqrtPriceAtTick (clampTick args.zeroForOne stop.1) = .ok sqrtPriceNext ∧
      computeSwapStep state.sqrtPriceX96
        (getSqrtPriceTarget args.zeroForOne sqrtPriceNext args.sqrtPriceX96Limit)
        state.liquidity state.amountSpecifiedRemaining args.swapFee = .ok step ∧
      args.applyAmounts state step = .ok moved ∧
      args.snapshot.finishStep getTickAtSqrtPrice args.zeroForOne stop.2
        (clampTick args.zeroForOne stop.1) sqrtPriceNext state.sqrtPriceX96 moved = .ok state' ∧
      0 ≤ state'.liquidity := by
  simp only [SwapArgs.moveTo, bind_eq_ok, ite_error_eq_ok, not_not, Except.ok.injEq] at h
  obtain ⟨sqrtPriceNext, hnext, -, step, hstep, moved, hmoved, finished, hfinish, hL, rfl⟩ := h
  exact ⟨sqrtPriceNext, step, moved, hnext, hstep, hmoved, hfinish, hL⟩

theorem SwapArgs.applyAmounts_input {step : SwapStep} {moved : SwapState}
    (hneg : args.amountSpecified < 0) (h : args.applyAmounts state step = .ok moved) :
    moved = { state with
      amountSpecifiedRemaining :=
        state.amountSpecifiedRemaining + (step.amountIn + step.feeAmount)
      amountCalculated := state.amountCalculated + step.amountOut
      sqrtPriceX96 := step.sqrtRatioNextX96 } := by
  simp only [SwapArgs.applyAmounts, hneg, if_true, bind_eq_ok, Except.ok.injEq] at h
  obtain ⟨-, -, -, -, rfl⟩ := h
  rfl

/-- What holds whenever the guard of an exact input is evaluated. -/
structure SwapArgs.Running (args : SwapArgs) (state : SwapState) : Prop where
  remaining_nonpos : state.amountSpecifiedRemaining ≤ 0
  liquidity_nonneg : 0 ≤ state.liquidity
  within_limit : Toward args.zeroForOne state.sqrtPriceX96 args.sqrtPriceX96Limit

/-- The ends of a pass. Only the first one can be followed by another pass. -/
inductive SwapArgs.PassEnd (args : SwapArgs) (stop sqrtPriceNext : ℤ)
    (state state' : SwapState) : Prop where
  | reached (hprice : state'.sqrtPriceX96 = sqrtPriceNext)
      (htick : state'.tick = advance args.zeroForOne stop)
      (hwithin : V3.PriceWithinTick state'.sqrtPriceX96 state'.tick)
  | moved (hshort : state'.sqrtPriceX96 ≠ sqrtPriceNext)
      (hmoved : state'.sqrtPriceX96 ≠ state.sqrtPriceX96)
      (htick : getTickAtSqrtPrice state'.sqrtPriceX96 = .ok state'.tick)
      (hlast : args.guard state' = false)
  | stayed (hshort : state'.sqrtPriceX96 ≠ sqrtPriceNext)
      (hprice : state'.sqrtPriceX96 = state.sqrtPriceX96) (htick : state'.tick = state.tick)
      (hliquidity : state'.liquidity = state.liquidity) (hlast : args.guard state' = false)

/-- A stop reached within the limit was not clamped, and its price borders on the tick
behind it. -/
theorem SwapArgs.reached_within {sqrtPriceNext : ℤ} (hargs : args.ExactInput)
    (hnext : getSqrtPriceAtTick (clampTick args.zeroForOne stop.1) = .ok sqrtPriceNext)
    (hlimit : Toward args.zeroForOne sqrtPriceNext args.sqrtPriceX96Limit) :
    clampTick args.zeroForOne stop.1 = stop.1 ∧
      V3.PriceWithinTick sqrtPriceNext (advance args.zeroForOne stop.1) := by
  obtain ⟨hv, rfl⟩ := getSqrtPriceAtTick_eq_ok_iff.mp hnext
  rw [V3.priceWithinTick_iff]
  cases hz : args.zeroForOne with
  | true =>
      have hlow := (hargs.limit_down hz).1
      simp only [hz, Toward, if_true, clampTick] at hlimit hv ⊢
      have hinside : -887272 < stop.1 := by
        by_contra hle
        rw [max_eq_left (by omega), sqrtRatio_minTick] at hlimit
        omega
      have hclamp : max (-887272) stop.1 = stop.1 := by omega
      rw [hclamp] at hv ⊢
      have hv' : ValidTick (stop.1 - 1) := ⟨by omega, by have := hv.2; omega⟩
      simp only [advance, if_true, sub_add_cancel]
      exact ⟨trivial, hv', hv, by exact_mod_cast sqrtRatio_mono hv' hv (by omega), le_rfl⟩
  | false =>
      have hhigh := (hargs.limit_up hz).2
      simp only [hz, Toward, Bool.false_eq_true, if_false, clampTick] at hlimit hv ⊢
      have hinside : stop.1 < 887272 := by
        by_contra hge
        rw [min_eq_left (by omega), sqrtRatio_maxTick] at hlimit
        omega
      have hclamp : min 887272 stop.1 = stop.1 := by omega
      rw [hclamp] at hv ⊢
      have hv' : ValidTick (stop.1 + 1) := ⟨by have := hv.1; omega, by omega⟩
      simp only [advance, Bool.false_eq_true, if_false]
      exact ⟨trivial, hv, hv', le_rfl, by exact_mod_cast sqrtRatio_mono hv hv' (by omega)⟩

theorem SwapArgs.target_pos {sqrtPriceNext : ℤ} (hlimit : 0 < args.sqrtPriceX96Limit)
    (hnext : getSqrtPriceAtTick (clampTick args.zeroForOne stop.1) = .ok sqrtPriceNext) :
    0 < getSqrtPriceTarget args.zeroForOne sqrtPriceNext args.sqrtPriceX96Limit := by
  obtain ⟨hv, rfl⟩ := getSqrtPriceAtTick_eq_ok_iff.mp hnext
  have hmin := (sqrtRatio_mem hv).1
  simp only [minSqrtRatio] at hmin
  unfold getSqrtPriceTarget
  split <;> omega

/-- One pass of an exact input. -/
theorem SwapArgs.moveTo_passEnd (hargs : args.ExactInput) (hrun : args.Running state)
    (hguard : args.guard state = true) (h : args.moveTo stop { state with ticks } = .ok state') :
    args.Running state' ∧ state'.ticks = ticks ∧ ∃ sqrtPriceNext step,
      getSqrtPriceAtTick (clampTick args.zeroForOne stop.1) = .ok sqrtPriceNext ∧
      computeSwapStep state.sqrtPriceX96
        (getSqrtPriceTarget args.zeroForOne sqrtPriceNext args.sqrtPriceX96Limit)
        state.liquidity state.amountSpecifiedRemaining args.swapFee = .ok step ∧
      InputSpec state.sqrtPriceX96
        (getSqrtPriceTarget args.zeroForOne sqrtPriceNext args.sqrtPriceX96Limit)
        state.amountSpecifiedRemaining step ∧
      state'.sqrtPriceX96 = step.sqrtRatioNextX96 ∧
      args.PassEnd stop.1 sqrtPriceNext state state' := by
  obtain ⟨sqrtPriceNext, step, moved, hnext, hstep, hmoved, hfinish, hL⟩ :=
    SwapArgs.moveTo_eq_ok h
  have hmoved := SwapArgs.applyAmounts_input hargs.amount_neg hmoved
  obtain ⟨hrem', -, hprice', hticks'⟩ := V3.finishStep_frame hfinish
  have hguard : ¬(state.amountSpecifiedRemaining = 0 ∨
      state.sqrtPriceX96 = args.sqrtPriceX96Limit) := by
    simpa [SwapArgs.guard] using hguard
  have hneg : state.amountSpecifiedRemaining < 0 :=
    lt_of_le_of_ne hrun.remaining_nonpos fun heq => hguard (.inl heq)
  have hspec := computeSwapStep_input hneg hrun.liquidity_nonneg (SwapArgs.target_pos hargs.limit_pos hnext)
    hargs.fee_mem hstep
  obtain ⟨hlow, hhigh⟩ := hspec.mem
  have htotal := hspec.total_le
  have hlimit : Toward args.zeroForOne step.sqrtRatioNextX96 args.sqrtPriceX96Limit := by
    have hwithin := hrun.within_limit
    cases hz : args.zeroForOne <;>
      simp only [hz, Toward, getSqrtPriceTarget, if_true, Bool.false_eq_true, if_false] at * <;>
      omega
  rw [hmoved] at hrem' hprice' hticks'
  simp only at hrem' hprice' hticks'
  -- before the stop either the limit is reached or all of the input is spent
  have hlast (hshort : step.sqrtRatioNextX96 ≠ sqrtPriceNext) : args.guard state' = false := by
    rw [SwapArgs.guard_eq_false_iff, hrem', hprice']
    by_cases htarget : step.sqrtRatioNextX96 =
        getSqrtPriceTarget args.zeroForOne sqrtPriceNext args.sqrtPriceX96Limit
    · right
      unfold getSqrtPriceTarget at htarget
      split at htarget <;> omega
    · left
      have := hspec.exhausted htarget
      omega
  refine ⟨⟨by omega, hL, hprice' ▸ hlimit⟩, hticks', sqrtPriceNext, step, hnext, hstep, hspec,
    hprice', ?_⟩
  rcases finishStep_cases hfinish with ⟨hreached, liquidity, -, hstate⟩ |
    ⟨hshort, hmove, tick, htick, hstate⟩ | ⟨hshort, hstay, hstate⟩
  · have hreached' : step.sqrtRatioNextX96 = sqrtPriceNext := by simpa [hmoved] using hreached
    obtain ⟨hclamp, hwithin⟩ := SwapArgs.reached_within hargs hnext (hreached' ▸ hlimit)
    have htick : state'.tick = advance args.zeroForOne stop.1 := by
      rw [hstate, hclamp]
      rfl
    exact .reached (hprice'.trans hreached') htick (by rwa [hprice', hreached', htick])
  · have hshort' : step.sqrtRatioNextX96 ≠ sqrtPriceNext := by simpa [hmoved] using hshort
    have hmove' : step.sqrtRatioNextX96 ≠ state.sqrtPriceX96 := by simpa [hmoved] using hmove
    refine .moved (hprice' ▸ hshort') (hprice' ▸ hmove') ?_ (hlast hshort')
    rw [hstate]
    exact htick
  · have hshort' : step.sqrtRatioNextX96 ≠ sqrtPriceNext := by simpa [hmoved] using hshort
    have hstay' : step.sqrtRatioNextX96 = state.sqrtPriceX96 := by simpa [hmoved] using hstay
    refine .stayed (hprice' ▸ hshort') (hprice'.trans hstay') ?_ ?_ (hlast hshort') <;>
      simp [hstate, hmoved]

/-! ## Passes after a stop was reached -/

/-- The loop has passed a stop: the tick is beyond its start, and stays there. -/
structure SwapArgs.Passed (args : SwapArgs) (state : SwapState) : Prop
    extends args.Running state where
  price_within : V3.PriceWithinTick state.sqrtPriceX96 state.tick
  walk : args.guard state = true → args.toV3.WalkAt state.ticks state.tick
  tick_beyond : Before args.zeroForOne args.tickStart state.tick

theorem SwapArgs.nextTick_spec (hs : 0 < args.snapshot.tickSpacing)
    (hwalk : args.toV3.WalkAt state.ticks state.tick)
    (h : args.snapshot.nextTick args.zeroForOne state = .ok (stop, ticks)) :
    IsNextStop args.snapshot.tickData args.snapshot.tickSpacing args.zeroForOne state.tick
        stop.1 ∧
      (stop.2 = true ↔ stop.1 ∈ args.snapshot.tickData) ∧
      args.toV3.WalkAt ticks (advance args.zeroForOne stop.1) :=
  @V3.SwapArgs.nextTick_spec args.toV3 state stop ticks hs hwalk h

/-- Reaching the next stop moves the tick beyond every tick that was not passed yet. -/
theorem before_advance {tickData : LiquidityMap} {tickSpacing tick next start : ℤ} {z : Bool}
    (hstop : IsNextStop tickData tickSpacing z tick next)
    (hstart : tick = start ∨ Before z start tick) : Before z start (advance z next) := by
  cases z with
  | true =>
      have hle := hstop.le_tick
      simp only [Before, advance, if_true] at hstart ⊢
      omega
  | false =>
      have hlt := hstop.tick_lt
      simp only [Before, advance, Bool.false_eq_true, if_false] at hstart ⊢
      omega

/-- A price that moves on within the limit keeps its tick beyond the start. -/
theorem SwapArgs.moved_beyond {sqrtPrice tick : ℤ} (hargs : args.ExactInput)
    (hpassed : args.Passed state) (hmoved : Toward args.zeroForOne state.sqrtPriceX96 sqrtPrice)
    (hne : sqrtPrice ≠ state.sqrtPriceX96)
    (hlimit : Toward args.zeroForOne sqrtPrice args.sqrtPriceX96Limit)
    (htick : getTickAtSqrtPrice sqrtPrice = .ok tick) :
    IsTickOf sqrtPrice tick ∧ Before args.zeroForOne args.tickStart tick := by
  obtain ⟨hv, hv', hlow, hhigh⟩ := V3.priceWithinTick_iff.mp hpassed.price_within
  obtain ⟨hmin, hmax⟩ := hpassed.price_within.mem
  have hbeyond := hpassed.tick_beyond
  have hrange : minSqrtRatio ≤ sqrtPrice ∧ sqrtPrice < maxSqrtRatio := by
    cases hz : args.zeroForOne with
    | true =>
        have := (hargs.limit_down hz).1
        simp only [hz, Toward, if_true] at hmoved hlimit
        omega
    | false =>
        have := (hargs.limit_up hz).2
        simp only [hz, Toward, Bool.false_eq_true, if_false] at hmoved hlimit
        omega
  obtain ⟨tick', hok, htickof⟩ := getTickAtSqrtPrice_eq hrange.1 hrange.2
  rw [hok] at htick
  cases htick
  refine ⟨htickof, ?_⟩
  have hle := htickof.ratio_le
  have hlt := htickof.lt_ratio
  cases hz : args.zeroForOne with
  | true =>
      simp only [hz, Toward, Before, if_true] at hmoved hbeyond ⊢
      have hbelow : tick < state.tick + 1 :=
        (V3.sqrtRatio_lt_iff htickof.valid hv').mp (by omega)
      omega
  | false =>
      simp only [hz, Toward, Before, Bool.false_eq_true, if_false] at hmoved hbeyond ⊢
      have habove : state.tick < tick + 1 :=
        (V3.sqrtRatio_lt_iff hv htickof.valid_succ).mp (by omega)
      omega

theorem toward_getSqrtPriceTarget {z : Bool} {current next limit : ℤ}
    (hnext : Toward z current next) (hlimit : Toward z current limit) :
    Toward z current (getSqrtPriceTarget z next limit) := by
  cases z <;>
    simp only [Toward, getSqrtPriceTarget, if_true, Bool.false_eq_true, if_false] at * <;> omega

/-- No pass brings the tick back. -/
theorem SwapArgs.Passed.body (hargs : args.ExactInput) (hpassed : args.Passed state)
    (hiter : Iterates args.guard args.body state state') : args.Passed state' := by
  obtain ⟨hguard, hbody⟩ := hiter
  obtain ⟨⟨stop, ticks⟩, hnexttick, hmove⟩ := bind_eq_ok.mp hbody
  obtain ⟨hstop, -, hwalk⟩ := SwapArgs.nextTick_spec hargs.spacing_pos (hpassed.walk hguard)
    hnexttick
  obtain ⟨hrun', hticks', sqrtPriceNext, step, hnext, -, hspec, hprice', hend⟩ :=
    SwapArgs.moveTo_passEnd hargs hpassed.toRunning hguard hmove
  cases hend with
  | reached hprice htick hwithin =>
      refine ⟨hrun', hwithin, fun _ => ?_, ?_⟩
      · rw [hticks', htick]
        exact hwalk
      · rw [htick]
        exact before_advance hstop (.inr hpassed.tick_beyond)
  | moved hshort hmoved htick hlast =>
      obtain ⟨hvn, rfl⟩ := getSqrtPriceAtTick_eq_ok_iff.mp hnext
      have htarget := toward_getSqrtPriceTarget
        (hpassed.price_within.toward_stop hstop hvn) hpassed.within_limit
      have hdir := (V3.toward_of_between hspec.between.1 hspec.between.2 htarget).1
      obtain ⟨htickof, hbeyond⟩ := SwapArgs.moved_beyond hargs hpassed (hprice' ▸ hdir) hmoved
        hrun'.within_limit htick
      refine ⟨hrun', V3.priceWithinTick_iff.mpr ⟨htickof.valid, htickof.valid_succ,
        htickof.ratio_le, htickof.lt_ratio.le⟩, fun hcont => ?_, hbeyond⟩
      rw [hlast] at hcont
      cases hcont
  | stayed hshort hprice htick hliquidity hlast =>
      refine ⟨hrun', ?_, fun hcont => ?_, ?_⟩
      · rw [hprice, htick]
        exact hpassed.price_within
      · rw [hlast] at hcont
        cases hcont
      · rw [htick]
        exact hpassed.tick_beyond

/-! ## Whole swaps -/

/-- The first stop of a swap is the next initialized tick, from either kind of map. -/
theorem SwapArgs.nextTick_initial
    (h : args.snapshot.nextTick args.zeroForOne args.initialState = .ok (stop, ticks)) :
    args.snapshot.nextInitializedTick args.tickStart args.zeroForOne = .ok stop := by
  unfold LiquidityMapSnapshot.nextTick SwapArgs.initialState
    LiquidityMapSnapshot.ticksAlongPath at h
  by_cases hsparse : args.snapshot.sparse = true
  · simp only [hsparse, if_true, Except.toOption] at h
    obtain ⟨next, hnext, h⟩ := bind_eq_ok.mp h
    cases h
    exact hnext
  · simp only [hsparse, if_false, Except.toOption, Bool.false_eq_true] at h
    cases h
    simp [LiquidityMapSnapshot.nextInitializedTick, hsparse]

theorem SwapArgs.running_initial (hargs : args.ExactInput) :
    args.Running args.initialState where
  remaining_nonpos := hargs.amount_neg.le
  liquidity_nonneg := hargs.liquidity_nonneg
  within_limit := by
    cases hz : args.zeroForOne with
    | true => simpa [Toward, SwapArgs.initialState] using (hargs.limit_down hz).2.le
    | false => simpa [Toward, SwapArgs.initialState] using (hargs.limit_up hz).1.le

theorem SwapArgs.guard_initial (hargs : args.ExactInput) :
    args.guard args.initialState = true := by
  have hneg := hargs.amount_neg
  have hne : args.sqrtPriceX96Start ≠ args.sqrtPriceX96Limit := by
    cases hz : args.zeroForOne with
    | true => exact (hargs.limit_down hz).2.ne'
    | false => exact (hargs.limit_up hz).1.ne
  simp [SwapArgs.guard, SwapArgs.initialState, hneg.ne, hne]

/-- The first pass moves nothing and is the last one, or something has moved for good. -/
theorem SwapArgs.first_pass (hargs : args.ExactInput)
    (h : args.body args.initialState = .ok state') :
    (args.Stays ∧ args.guard state' = false ∧ state'.sqrtPriceX96 = args.sqrtPriceX96Start ∧
        state'.tick = args.tickStart ∧ state'.liquidity = args.liquidityStart) ∨
      (¬args.Stays ∧ ((args.guard state' = false ∧
        state'.sqrtPriceX96 ≠ args.sqrtPriceX96Start) ∨ args.Passed state')) := by
  obtain ⟨⟨stop, ticks⟩, hnexttick, hmove⟩ := bind_eq_ok.mp h
  have hinitial : args.toV3.WalkAt args.initialState.ticks args.tickStart :=
    V3.SwapArgs.walkAt_initial hargs.spacing_pos
  obtain ⟨hstop, -, hwalk⟩ := SwapArgs.nextTick_spec hargs.spacing_pos hinitial hnexttick
  obtain ⟨hrun', hticks', sqrtPriceNext, step, hnext, hstep, -, hprice', hend⟩ :=
    SwapArgs.moveTo_passEnd hargs (SwapArgs.running_initial hargs)
      (SwapArgs.guard_initial hargs) hmove
  have hfirst := SwapArgs.nextTick_initial hnexttick
  have hstays : args.Stays ↔ step.sqrtRatioNextX96 = args.sqrtPriceX96Start ∧
      args.sqrtPriceX96Start ≠ sqrtPriceNext := by
    constructor
    · rintro ⟨stop', sqrtPriceNext', step', hfirst', hnext', hstep', hstay⟩
      cases hfirst.symm.trans hfirst'
      cases hnext.symm.trans hnext'
      cases hstep.symm.trans hstep'
      exact hstay
    · exact fun hstay => ⟨stop, sqrtPriceNext, step, hfirst, hnext, hstep, hstay⟩
  rw [hstays, ← hprice']
  cases hend with
  | reached hprice htick hwithin =>
      refine .inr ⟨fun hstay => hstay.2 (hstay.1.symm.trans hprice), .inr ⟨hrun', hwithin,
        fun _ => ?_, ?_⟩⟩
      · rw [hticks', htick]
        exact hwalk
      · rw [htick]
        exact before_advance hstop (.inl rfl)
  | moved hshort hmoved htick hlast =>
      exact .inr ⟨fun hstay => hmoved hstay.1, .inl ⟨hlast, hmoved⟩⟩
  | stayed hshort hprice htick hliquidity hlast =>
      exact .inl ⟨⟨hprice, fun heq => hshort (hprice.trans heq)⟩, hlast, hprice, htick,
        hliquidity⟩

end Pass

theorem SwapArgs.loop_stationary_iff {args : SwapArgs} {fuel : ℕ} {final : SwapState}
    (hargs : args.ExactInput)
    (h : whileLoop args.guard args.body fuel args.initialState = some (.ok final)) :
    (final.sqrtPriceX96 = args.sqrtPriceX96Start ∧ final.tick = args.tickStart ∧
      final.liquidity = args.liquidityStart) ↔ args.Stays := by
  have hguard := SwapArgs.guard_initial hargs
  cases fuel with
  | zero => cases h
  | succ fuel =>
      cases hbody : args.body args.initialState with
      | error e => simp [whileLoop_error fuel hguard hbody] at h
      | ok state' =>
          rw [whileLoop_step fuel hguard hbody] at h
          rcases SwapArgs.first_pass hargs hbody with ⟨hstays, hlast, hsame⟩ |
            ⟨hmoves, ⟨hlast, hprice⟩ | hpassed⟩
          · cases whileLoop_eq_of_exit hlast h
            exact ⟨fun _ => hstays, fun _ => hsame⟩
          · cases whileLoop_eq_of_exit hlast h
            exact ⟨fun hsame => absurd hsame.1 hprice, fun hstays => absurd hstays hmoves⟩
          · obtain ⟨hfinal, -⟩ := whileLoop_invariant
              (fun s s' hs hiter => SwapArgs.Passed.body hargs hs hiter) hpassed h
            refine ⟨fun hsame => ?_, fun hstays => absurd hstays hmoves⟩
            have hbeyond := hfinal.tick_beyond
            rw [hsame.2.1] at hbeyond
            exact absurd hbeyond before_irrefl

theorem SwapArgs.exactInput_of_check {args : SwapArgs} (hneg : args.amountSpecified < 0)
    (hL : 0 ≤ args.liquidityStart) (hlimit : 0 < args.sqrtPriceX96Limit)
    (hs : 0 < args.snapshot.tickSpacing) (hfee : 0 ≤ args.swapFee ∧ args.swapFee ≤ maxSwapFee)
    (hcheck : args.check = .ok ()) : args.ExactInput := by
  unfold SwapArgs.check at hcheck
  refine ⟨hneg, hL, fun hz => ?_, fun hz => ?_, hlimit, hs, hfee⟩
  · simp only [hz, if_true, ite_error_eq_ok, not_le, and_true] at hcheck
    exact ⟨hcheck.2, hcheck.1⟩
  · simp only [hz, Bool.false_eq_true, if_false, ite_error_eq_ok, not_le, and_true] at hcheck
    exact hcheck

/-- An exact input leaves the pool where it was exactly when its first step stays. -/
theorem calculateSwap_stationary_iff {args : SwapArgs} {fuel : ℕ} {result : SwapResult}
    (hneg : args.amountSpecified < 0) (hlimit : 0 < args.sqrtPriceX96Limit)
    (hs : 0 < args.snapshot.tickSpacing) (hfee : 0 ≤ args.swapFee ∧ args.swapFee ≤ maxSwapFee)
    (h : calculateSwap fuel args = some (.ok result)) :
    (result.sqrtPriceX96 = args.sqrtPriceX96Start ∧ result.tick = args.tickStart ∧
      result.liquidity = args.liquidityStart) ↔ args.Stays := by
  unfold calculateSwap at h
  split at h
  · cases h
  rename_i hL
  rw [if_neg (by omega), if_neg hneg.ne] at h
  cases hcheck : args.check with
  | error e =>
      rw [hcheck] at h
      cases h
  | ok u =>
      rw [hcheck] at h
      have hargs := SwapArgs.exactInput_of_check hneg (not_not.mp hL) hlimit hs hfee hcheck
      simp only [Option.map_eq_some_iff] at h
      obtain ⟨outcome, hloop, hresult⟩ := h
      cases outcome with
      | error e => cases hresult
      | ok final =>
          cases hresult
          exact SwapArgs.loop_stationary_iff hargs hloop

end Degenbot.V4
