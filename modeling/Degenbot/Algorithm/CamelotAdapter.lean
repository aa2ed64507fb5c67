import Degenbot.Algorithm.SwapMath
import Degenbot.Algorithm.TickMath

/-! # `execution_adapters/camelot_v3_adapter.py`: swaps inside one tick range

`to_checksum_address` belongs to a package and is a parameter. -/

namespace Degenbot.CamelotV3

/-- `CamelotV3PoolState`, without the address and block that no calculation reads. -/
structure CamelotV3PoolState where
  sqrtPriceX96 : ℤ
  tick : ℤ
  liquidity : ℤ
  feePips : ℤ
  tickSpacing : ℤ
deriving DecidableEq, Repr

structure CamelotV3Pool where
  address : String
  token0 : String
  token1 : String
  state : CamelotV3PoolState

/-- What the adapter raises; `raised` passes on the error of a library. -/
inductive Failure where
  | valueError (msg : String)
  | multiTickCrossingNotSupported (msg : String)
  | raised (e : Exn)
deriving DecidableEq, Repr

/-- The checks of `CamelotV3Pool.__init__`. -/
def CamelotV3PoolState.check (state : CamelotV3PoolState) : Except Failure Unit :=
  if state.sqrtPriceX96 ≤ 0 then .error (.valueError "sqrt_price_x96 must be positive")
  else if state.liquidity < 0 then .error (.valueError "liquidity must be non-negative")
  else if state.feePips < 0 ∨ state.feePips ≥ 1000000 then
    .error (.valueError ("fee_pips must be in [0, 1000000), got " ++ toString state.feePips))
  else if state.tickSpacing ≤ 0 then
    .error (.valueError ("tick_spacing must be positive, got " ++ toString state.tickSpacing))
  else .ok ()

/-- The direction of a swap of `token_in`. -/
def CamelotV3Pool.zeroForOne (toChecksumAddress : String → Except Exn String)
    (pool : CamelotV3Pool) (tokenIn : String) : Except Failure Bool := do
  let tokenInCs ← (toChecksumAddress tokenIn).mapError .raised
  if tokenInCs = pool.token0 then .ok true
  else if tokenInCs = pool.token1 then .ok false
  else .error (.valueError ("token_in " ++ tokenInCs ++ " matches neither pool token (" ++
    pool.token0 ++ ", " ++ pool.token1 ++ ")"))

/-- The tick at which the swap would leave the range. -/
def CamelotV3PoolState.targetTick (state : CamelotV3PoolState) (zeroForOne : Bool) :
    Except Exn ℤ := do
  let compressed ← floorDivide state.tick state.tickSpacing
  let compressed :=
    if state.tick < 0 ∧ state.tick.fmod state.tickSpacing ≠ 0 then compressed - 1 else compressed
  .ok (if zeroForOne then compressed * state.tickSpacing
    else (compressed + 1) * state.tickSpacing)

/-- The only step of the swap, with the tick and the price that it may not reach. -/
def CamelotV3PoolState.swapStep (state : CamelotV3PoolState) (zeroForOne : Bool)
    (tokenInQuantity : ℤ) : Except Exn (ℤ × ℤ × SwapStep) := do
  let targetTick ← state.targetTick zeroForOne
  let sqrtRatioTarget ← V3.getSqrtRatioAtTick targetTick
  let step ← V3.computeSwapStep state.sqrtPriceX96 sqrtRatioTarget state.liquidity
    tokenInQuantity state.feePips
  .ok (targetTick, sqrtRatioTarget, step)

def CamelotV3Pool.crossingMessage (pool : CamelotV3Pool) (state : CamelotV3PoolState)
    (targetTick : ℤ) : String :=
  "swap on pool " ++ pool.address ++ " would cross tick " ++ toString targetTick ++
    " (current tick " ++ toString state.tick ++ ", spacing " ++ toString state.tickSpacing ++
    "); fall back to Algebra QuoterV2 or wait for upstream-PR TickTree port (CLAUDE.md Q-5)"

def CamelotV3Pool.calculateTokensOutFromTokensIn
    (toChecksumAddress : String → Except Exn String) (pool : CamelotV3Pool) (tokenIn : String)
    (tokenInQuantity : ℤ) (overrideState : Option CamelotV3PoolState) : Except Failure ℤ :=
  if tokenInQuantity ≤ 0 then
    .error (.valueError ("token_in_quantity must be positive, got " ++ toString tokenInQuantity))
  else do
    let zeroForOne ← pool.zeroForOne toChecksumAddress tokenIn
    let state := overrideState.getD pool.state
    if state.liquidity = 0 then
      .error (.valueError ("pool " ++ pool.address ++ " has zero liquidity at tick " ++
        toString state.tick ++ " — swap would revert"))
    else do
      let (targetTick, sqrtRatioTarget, step) ←
        (state.swapStep zeroForOne tokenInQuantity).mapError .raised
      -- a price on the target says that the swap may have to go on behind it
      if step.sqrtRatioNextX96 = sqrtRatioTarget then
        .error (.multiTickCrossingNotSupported (pool.crossingMessage state targetTick))
      else .ok step.amountOut

end Degenbot.CamelotV3
