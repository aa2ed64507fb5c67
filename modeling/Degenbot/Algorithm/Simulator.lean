import Degenbot.Algorithm.TickBitmap
import Degenbot.Algorithm.TickMath
import Degenbot.Algorithm.SwapMath
import Degenbot.Library.WhileLoop

/-! # `concentrated/`: the liquidity map snapshot and the two swap simulators

The `while` loop of `calculate_swap` runs with a step budget, see `Library.whileLoop`. -/

namespace Degenbot

open Library

/-! ## `liquidity_map.py` -/

structure LiquidityMapSnapshot where
  tickData : LiquidityMap
  tickBitmap : InitializedTickMap
  tickSpacing : ℤ
  sparse : Bool

def LiquidityMapSnapshot.nextInitializedTick (snapshot : LiquidityMapSnapshot) (tick : ℤ)
    (zeroForOne : Bool) : Except Exn (ℤ × Bool) :=
  if snapshot.sparse then
    match nextInitializedTickWithinOneWord snapshot.tickBitmap snapshot.tickData tick
      snapshot.tickSpacing zeroForOne with
    | .error (.liquidityMapWordMissing word) => .error (.missingLiquidityData word)
    | outcome => outcome
  else .ok (genTicks snapshot.tickData tick snapshot.tickSpacing zeroForOne).next.1

/-- The generator that `ticks_along_path` delegates to. -/
def LiquidityMapSnapshot.ticksAlongPath (snapshot : LiquidityMapSnapshot) (tickStart : ℤ)
    (zeroForOne : Bool) : Except Exn TickGen :=
  if snapshot.sparse then
    .error (.runtimeError "ticks_along_path requires a non-sparse map")
  else .ok (genTicks snapshot.tickData tickStart snapshot.tickSpacing zeroForOne)

/-! ## Loop state shared by both simulators -/

/-- `SwapResult` of `concentrated/types.py`. -/
structure SwapResult where
  amount0 : ℤ
  amount1 : ℤ
  sqrtPriceX96 : ℤ
  liquidity : ℤ
  tick : ℤ
deriving DecidableEq, Repr

/-- The variables of the loop; `ticks` is the running generator of a full map. -/
structure SwapState where
  amountSpecifiedRemaining : ℤ
  amountCalculated : ℤ
  sqrtPriceX96 : ℤ
  tick : ℤ
  liquidity : ℤ
  ticks : Option TickGen
deriving DecidableEq

/-- `next(ticks)` for a full map, `next_initialized_tick` for a sparse one. -/
def LiquidityMapSnapshot.nextTick (snapshot : LiquidityMapSnapshot) (zeroForOne : Bool)
    (state : SwapState) : Except Exn ((ℤ × Bool) × Option TickGen) :=
  match state.ticks with
  | some ticks => .ok (ticks.next.1, some ticks.next.2)
  | none => do
      let next ← snapshot.nextInitializedTick state.tick zeroForOne
      .ok (next, none)

/-- `max(-887272, tick)` going down, `min(887272, tick)` going up. -/
def clampTick (zeroForOne : Bool) (tick : ℤ) : ℤ :=
  if zeroForOne then max (-887272) tick else min 887272 tick

/-- The range `(tick_lower, tick_upper)` that the step asserts to be non-empty. -/
def tickRange (zeroForOne : Bool) (tickNext tickSpacing : ℤ) : ℤ × ℤ :=
  if zeroForOne then (tickNext, tickNext + tickSpacing) else (tickNext - tickSpacing, tickNext)

/-- The active liquidity after crossing an initialized tick. -/
def LiquidityMapSnapshot.crossTick (snapshot : LiquidityMapSnapshot) (zeroForOne : Bool)
    (tickNext liquidity : ℤ) : Except Exn ℤ :=
  match snapshot.tickData.lookup tickNext with
  | none => .error .keyError
  | some tickInfo =>
      .ok (liquidity + if zeroForOne then -tickInfo.liquidityNet else tickInfo.liquidityNet)

/-- The price and tick bookkeeping at the end of a step. -/
def LiquidityMapSnapshot.finishStep (snapshot : LiquidityMapSnapshot)
    (getTick : ℤ → Except Exn ℤ) (zeroForOne initialized : Bool)
    (tickNext sqrtPriceNextX96 sqrtPriceStartX96 : ℤ) (state : SwapState) :
    Except Exn SwapState :=
  if state.sqrtPriceX96 = sqrtPriceNextX96 then do
    let liquidity ← (if initialized then
        snapshot.crossTick zeroForOne tickNext state.liquidity
      else .ok state.liquidity)
    .ok { state with liquidity, tick := if zeroForOne then tickNext - 1 else tickNext }
  else if state.sqrtPriceX96 ≠ sqrtPriceStartX96 then do
    let tick ← getTick state.sqrtPriceX96
    .ok { state with tick }
  else .ok state

/-! ## `v3_simulator.py` -/

namespace V3

/-- The keyword arguments of `calculate_swap`. -/
structure SwapArgs where
  snapshot : LiquidityMapSnapshot
  zeroForOne : Bool
  amountSpecified : ℤ
  sqrtPriceLimitX96 : ℤ
  fee : ℤ
  liquidityStart : ℤ
  sqrtPriceX96Start : ℤ
  tickStart : ℤ

def getSqrtPriceTarget (zeroForOne : Bool) (sqrtPriceNextX96 sqrtPriceLimitX96 : ℤ) : ℤ :=
  if (zeroForOne ∧ sqrtPriceNextX96 < sqrtPriceLimitX96) ∨
      (¬zeroForOne ∧ sqrtPriceNextX96 > sqrtPriceLimitX96) then sqrtPriceLimitX96
  else sqrtPriceNextX96

def SwapArgs.exactInput (args : SwapArgs) : Bool := args.amountSpecified > 0

def SwapArgs.guard (args : SwapArgs) (state : SwapState) : Bool :=
  state.amountSpecifiedRemaining ≠ 0 ∧ state.sqrtPriceX96 ≠ args.sqrtPriceLimitX96

/-- The amounts of one step enter the running totals. -/
def SwapArgs.applyAmounts (args : SwapArgs) (state : SwapState) (step : SwapStep) : SwapState :=
  if args.exactInput then
    { state with
      amountSpecifiedRemaining :=
        state.amountSpecifiedRemaining - (step.amountIn + step.feeAmount)
      amountCalculated := state.amountCalculated - step.amountOut
      sqrtPriceX96 := step.sqrtRatioNextX96 }
  else
    { state with
      amountSpecifiedRemaining := state.amountSpecifiedRemaining + step.amountOut
      amountCalculated := state.amountCalculated + (step.amountIn + step.feeAmount)
      sqrtPriceX96 := step.sqrtRatioNextX96 }

/-- One pass of the loop, once the next tick is known. -/
def SwapArgs.moveTo (args : SwapArgs) (stop : ℤ × Bool) (state : SwapState) :
    Except Exn SwapState := do
  let tickNext := clampTick args.zeroForOne stop.1
  let sqrtPriceNextX96 ← getSqrtRatioAtTick tickNext
  let range := tickRange args.zeroForOne tickNext args.snapshot.tickSpacing
  if ¬range.1 < range.2 then .error .assertionError
  else do
    let step ← computeSwapStep state.sqrtPriceX96
      (getSqrtPriceTarget args.zeroForOne sqrtPriceNextX96 args.sqrtPriceLimitX96)
      state.liquidity state.amountSpecifiedRemaining args.fee
    args.snapshot.finishStep getTickAtSqrtRatio args.zeroForOne stop.2 tickNext
      sqrtPriceNextX96 state.sqrtPriceX96 (args.applyAmounts state step)

def SwapArgs.body (args : SwapArgs) (state : SwapState) : Except Exn SwapState := do
  let (stop, ticks) ← args.snapshot.nextTick args.zeroForOne state
  args.moveTo stop { state with ticks }

/-- The checks before the loop. -/
def SwapArgs.check (args : SwapArgs) : Except Exn Unit :=
  if ¬args.liquidityStart ≥ 0 then .error .assertionError
  else if args.amountSpecified = 0 then .error (.evmRevertError "AS")
  else if args.zeroForOne ∧ ¬(minSqrtRatio < args.sqrtPriceLimitX96 ∧
      args.sqrtPriceLimitX96 < args.sqrtPriceX96Start) then .error (.evmRevertError "SPL")
  else if ¬args.zeroForOne ∧ ¬(args.sqrtPriceX96Start < args.sqrtPriceLimitX96 ∧
      args.sqrtPriceLimitX96 < maxSqrtRatio) then .error (.evmRevertError "SPL")
  else .ok ()

def SwapArgs.initialState (args : SwapArgs) : SwapState where
  amountSpecifiedRemaining := args.amountSpecified
  amountCalculated := 0
  sqrtPriceX96 := args.sqrtPriceX96Start
  tick := args.tickStart
  liquidity := args.liquidityStart
  ticks := (args.snapshot.ticksAlongPath args.tickStart args.zeroForOne).toOption

def SwapArgs.result (args : SwapArgs) (state : SwapState) : SwapResult :=
  let consumed := args.amountSpecified - state.amountSpecifiedRemaining
  let (amount0, amount1) := if args.zeroForOne = args.exactInput then
      (consumed, state.amountCalculated)
    else (state.amountCalculated, consumed)
  ⟨amount0, amount1, state.sqrtPriceX96, state.liquidity, state.tick⟩

def calculateSwap (fuel : ℕ) (args : SwapArgs) : Option (Except Exn SwapResult) :=
  match args.check with
  | .error e => some (.error e)
  | .ok _ => (whileLoop args.guard args.body fuel args.initialState).map (·.map args.result)

end V3

/-! ## `v4_simulator.py` -/

namespace V4

/-- The keyword arguments of `calculate_swap`; a negative amount is an exact input. -/
structure SwapArgs where
  snapshot : LiquidityMapSnapshot
  zeroForOne : Bool
  amountSpecified : ℤ
  sqrtPriceX96Limit : ℤ
  lpFee : ℤ
  protocolFee : ℤ
  liquidityStart : ℤ
  sqrtPriceX96Start : ℤ
  tickStart : ℤ

def calculateSwapFee (protocolFee lpFee : ℤ) : ℤ :=
  let lpFee := Int.land lpFee 0xFFFFFF
  (protocolFee + lpFee) - (protocolFee * lpFee).fdiv 1000000

def SwapArgs.swapFee (args : SwapArgs) : ℤ :=
  if args.protocolFee = 0 then args.lpFee else calculateSwapFee args.protocolFee args.lpFee

def SwapArgs.guard (args : SwapArgs) (state : SwapState) : Bool :=
  ¬(state.amountSpecifiedRemaining = 0 ∨ state.sqrtPriceX96 = args.sqrtPriceX96Limit)

def safeCast (x : ℤ) : Except Exn Unit :=
  if ¬(minInt256 ≤ x ∧ x ≤ maxInt256) then .error (.evmRevertError "SafeCastOverflow")
  else .ok ()

def SwapArgs.applyAmounts (args : SwapArgs) (state : SwapState) (step : SwapStep) :
    Except Exn SwapState :=
  let total := step.amountIn + step.feeAmount
  if args.amountSpecified < 0 then do
    safeCast total
    safeCast step.amountOut
    .ok { state with
          amountSpecifiedRemaining := state.amountSpecifiedRemaining + total
          amountCalculated := state.amountCalculated + step.amountOut
          sqrtPriceX96 := step.sqrtRatioNextX96 }
  else do
    safeCast step.amountOut
    safeCast total
    .ok { state with
          amountSpecifiedRemaining := state.amountSpecifiedRemaining - step.amountOut
          amountCalculated := state.amountCalculated - total
          sqrtPriceX96 := step.sqrtRatioNextX96 }

/-- One pass of the loop, once the next tick is known. The protocol's share is taken from
a local `fee_amount` that nothing reads afterwards. -/
def SwapArgs.moveTo (args : SwapArgs) (stop : ℤ × Bool) (state : SwapState) :
    Except Exn SwapState := do
  let tickNext := clampTick args.zeroForOne stop.1
  let sqrtPriceNextX96 ← getSqrtPriceAtTick tickNext
  let range := tickRange args.zeroForOne tickNext args.snapshot.tickSpacing
  if ¬range.1 < range.2 then .error .assertionError
  else do
    let step ← computeSwapStep state.sqrtPriceX96
      (getSqrtPriceTarget args.zeroForOne sqrtPriceNextX96 args.sqrtPriceX96Limit)
      state.liquidity state.amountSpecifiedRemaining args.swapFee
    let moved ← args.applyAmounts state step
    let finished ← args.snapshot.finishStep getTickAtSqrtPrice args.zeroForOne stop.2
      tickNext sqrtPriceNextX96 state.sqrtPriceX96 moved
    if ¬finished.liquidity ≥ 0 then .error .assertionError else .ok finished

def SwapArgs.body (args : SwapArgs) (state : SwapState) : Except Exn SwapState := do
  let (stop, ticks) ← args.snapshot.nextTick args.zeroForOne state
  args.moveTo stop { state with ticks }

/-- The checks before the loop. -/
def SwapArgs.check (args : SwapArgs) : Except Exn Unit :=
  if args.zeroForOne then
    if args.sqrtPriceX96Limit ≥ args.sqrtPriceX96Start then
      .error (.evmRevertError "PriceLimitAlreadyExceeded")
    else if args.sqrtPriceX96Limit ≤ minSqrtRatio then
      .error (.evmRevertError "PriceLimitOutOfBounds")
    else .ok ()
  else if args.sqrtPriceX96Limit ≤ args.sqrtPriceX96Start then
    .error (.evmRevertError "PriceLimitAlreadyExceeded")
  else if args.sqrtPriceX96Limit ≥ maxSqrtRatio then
    .error (.evmRevertError "PriceLimitOutOfBounds")
  else .ok ()

def SwapArgs.initialState (args : SwapArgs) : SwapState where
  amountSpecifiedRemaining := args.amountSpecified
  amountCalculated := 0
  sqrtPriceX96 := args.sqrtPriceX96Start
  tick := args.tickStart
  liquidity := args.liquidityStart
  ticks := (args.snapshot.ticksAlongPath args.tickStart args.zeroForOne).toOption

def SwapArgs.result (args : SwapArgs) (state : SwapState) : SwapResult :=
  let consumed := args.amountSpecified - state.amountSpecifiedRemaining
  let (amount0, amount1) := if args.zeroForOne ≠ decide (args.amountSpecified < 0) then
      (state.amountCalculated, consumed)
    else (consumed, state.amountCalculated)
  ⟨amount0, amount1, state.sqrtPriceX96, state.liquidity, state.tick⟩

def calculateSwap (fuel : ℕ) (args : SwapArgs) : Option (Except Exn SwapResult) :=
  if ¬args.liquidityStart ≥ 0 then some (.error .assertionError)
  else if args.swapFee ≥ maxSwapFee ∧ args.amountSpecified > 0 then
    some (.error (.evmRevertError "InvalidFeeForExactOut"))
  else if args.amountSpecified = 0 then
    some (.ok ⟨0, 0, args.sqrtPriceX96Start, args.liquidityStart, args.tickStart⟩)
  else match args.check with
    | .error e => some (.error e)
    | .ok _ => (whileLoop args.guard args.body fuel args.initialState).map (·.map args.result)

end V4

end Degenbot
