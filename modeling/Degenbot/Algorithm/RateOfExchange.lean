import Degenbot.Algorithm.LpCycle
import Degenbot.Algorithm.RegistrySimulator

/-! # `arbitrage/uniswap_lp_cycle.py`: the check before a calculation

`helperOf` gives the pool helper behind each pool of a cycle, with the state that overrides
its own, if there is one. -/

namespace Degenbot

/-- `Fraction(numerator, denominator)` -/
def fraction (numerator denominator : ℤ) : Except Exn ℚ :=
  if denominator = 0 then .error .zeroDivisionError else .ok (numerator / denominator)

/-- `str` of a `Fraction`. -/
def fractionText (q : ℚ) : String :=
  if q.den = 1 then toString q.num else toString q.num ++ "/" ++ toString q.den

/-- `FEE_DENOMINATOR` of the V3 and V4 pools. -/
def feeDenominator : ℤ := 1000000

def exchangeRateFromSqrtPriceX96 (sqrtPriceX96 : ℤ) : ℚ :=
  (sqrtPriceX96 * sqrtPriceX96 : ℤ) /
    6277101735386680763835789423207666416102355444464034512896

/-! ## `get_absolute_exchange_rate` -/

def unknownToken (token : Erc20Token) : Exn :=
  .degenbotValueError ("Unknown token " ++ token.symbol)

/-- The rate of a pool with reserves. -/
def reservesExchangeRate (token0 token1 : Erc20Token) (state : ReservesState)
    (token : Erc20Token) : Except Exn ℚ :=
  if ¬(token.same token0 ∨ token.same token1) then .error (unknownToken token)
  else if token.same token1 then fraction state.reservesToken1 state.reservesToken0
  else fraction state.reservesToken0 state.reservesToken1

/-- The rate of a pool with concentrated liquidity. -/
def sqrtPriceExchangeRate (token0 token1 : Erc20Token) (state : OverrideState)
    (token : Erc20Token) : Except Exn ℚ :=
  if ¬(token.same token0 ∨ token.same token1) then .error (unknownToken token)
  else
    let rate := exchangeRateFromSqrtPriceX96 state.sqrtPriceX96
    if token.same token1 then .ok rate
    else if rate = 0 then .error .zeroDivisionError
    else .ok (1 / rate)

/-! ## Pool helpers of a cycle -/

/-- The named classes, each with the state that overrides its own. `fee` is the fee in the key
of a V4 pool. -/
inductive CycleHelper where
  | aerodromeV2 (pool : AerodromeV2Pool) (overrideState : Option ReservesState)
  | uniswapV2 (pool : UniswapV2Pool) (overrideState : Option ReservesState)
  | uniswapV3 (pool : UniswapV3Pool) (provider : Provider) (overrideState : Option OverrideState)
  | uniswapV4 (pool : UniswapV4Pool) (provider : Provider) (fee : ℤ)
      (overrideState : Option OverrideState)

namespace CycleHelper

def isOverridden : CycleHelper → Bool
  | .aerodromeV2 _ overrideState | .uniswapV2 _ overrideState => overrideState.isSome
  | .uniswapV3 _ _ overrideState | .uniswapV4 _ _ _ overrideState => overrideState.isSome

/-- `calculate_tokens_out_from_tokens_in` -/
def calculateTokensOutFromTokensIn (attempts fuel : ℕ) (tokenIn : Erc20Token)
    (tokenInQuantity : ℤ) : CycleHelper → Option (Except Exn ℤ)
  | .aerodromeV2 pool overrideState =>
      some (pool.calculateTokensOutFromTokensIn tokenIn tokenInQuantity overrideState)
  | .uniswapV2 pool overrideState =>
      some (pool.calculateTokensOutFromTokensIn tokenIn tokenInQuantity overrideState)
  | .uniswapV3 pool provider overrideState =>
      Ipc.calculateV3 pool provider attempts fuel tokenIn tokenInQuantity overrideState
  | .uniswapV4 pool provider _ overrideState =>
      pool.calculateTokensOutFromTokensIn provider attempts fuel tokenIn tokenInQuantity
        overrideState

/-! ## `_check_pool_viability` -/

/-- `swap_is_viable` of the pools with reserves. -/
def reservesViable (state : ReservesState) (vector : SwapVector) : Bool :=
  if state.reservesToken0 = 0 ∨ state.reservesToken1 = 0 then false
  else if vector.zeroForOne then state.reservesToken1 > 1 else state.reservesToken0 > 1

/-- `swap_is_viable` of the pools with concentrated liquidity. -/
def concentratedViable (sparseLiquidityMap : Bool) (state : OverrideState) (vector : SwapVector) :
    Except Exn Bool :=
  let ticks := state.tickData.keys
  if sparseLiquidityMap then .ok true
  else match ticks.min?, ticks.max? with
    | some lowest, some highest =>
        if state.sqrtPriceX96 = 0 then .ok false
        else if (vector.zeroForOne ∧ state.sqrtPriceX96 ≤ minSqrtRatio + 1) ∨
            (¬vector.zeroForOne ∧ state.sqrtPriceX96 ≥ maxSqrtRatio - 1) then .ok false
        else if vector.zeroForOne then do
          let ratio ← V3.getSqrtRatioAtTick lowest
          .ok (ratio < state.sqrtPriceX96)
        else do
          let ratio ← V3.getSqrtRatioAtTick highest
          .ok (ratio > state.sqrtPriceX96)
    | _, _ => .ok false

/-- `_pool_is_viable` at the state that the check reads. -/
def isViable (vector : SwapVector) : CycleHelper → Except Exn Bool
  | .aerodromeV2 pool overrideState => .ok (reservesViable (overrideState.getD pool.state) vector)
  | .uniswapV2 pool overrideState => .ok (reservesViable (overrideState.getD pool.state) vector)
  | .uniswapV3 pool _ overrideState =>
      concentratedViable pool.sparseLiquidityMap (pool.startState overrideState) vector
  | .uniswapV4 pool _ _ overrideState =>
      concentratedViable pool.sparseLiquidityMap (pool.startState overrideState) vector

/-! ## `_pre_calculation_check` -/

def swapMultiplier (tokenOut : Erc20Token) : CycleHelper → Except Exn ℚ
  | .aerodromeV2 pool overrideState =>
      reservesExchangeRate pool.token0 pool.token1 (overrideState.getD pool.state) tokenOut
  | .uniswapV2 pool overrideState =>
      reservesExchangeRate pool.token0 pool.token1 (overrideState.getD pool.state) tokenOut
  | .uniswapV3 pool _ overrideState =>
      sqrtPriceExchangeRate pool.token0 pool.token1 (pool.startState overrideState) tokenOut
  | .uniswapV4 pool _ _ overrideState =>
      sqrtPriceExchangeRate pool.token0 pool.token1 (pool.startState overrideState) tokenOut

/-- `fee` in the direction of the vector; an `AerodromeV2Pool` has one for both. -/
def fee (zeroForOne : Bool) : CycleHelper → ℚ
  | .aerodromeV2 pool _ => pool.fee
  | .uniswapV2 pool _ => if zeroForOne then pool.feeToken0 else pool.feeToken1
  | .uniswapV3 pool _ _ => pool.fee / feeDenominator
  | .uniswapV4 _ _ fee _ => fee / feeDenominator

def feeMultiplier (zeroForOne : Bool) (helper : CycleHelper) : ℚ :=
  let fee := helper.fee zeroForOne
  ((fee.den - fee.num : ℤ) : ℚ) / fee.den

end CycleHelper

namespace UniswapLpCycle

variable (helperOf : LiquidityPool → CycleHelper)

/-- The cached viability counts for a pool that is not overridden. -/
def checkPoolViability :
    List LiquidityPool → List SwapVector → List Bool → Except Exn Unit
  | pool :: pools, vector :: vectors, cached :: viability => do
      let viable ← if (helperOf pool).isOverridden then (helperOf pool).isViable vector
        else .ok cached
      if ¬viable then .error (.arbitrageError "Pool is not viable")
      else checkPoolViability pools vectors viability
  | _, _, _ => .ok ()

/-- `exchange_rate_multipliers` -/
def exchangeRateMultipliers : List LiquidityPool → List SwapVector → Except Exn (List ℚ)
  | pool :: pools, vector :: vectors => do
      let swapMultiplier ← (helperOf pool).swapMultiplier vector.tokenOut
      let multipliers ← exchangeRateMultipliers pools vectors
      .ok (swapMultiplier :: (helperOf pool).feeMultiplier vector.zeroForOne :: multipliers)
  | [], [] => .ok []
  | [], _ :: _ => .error (.valueError "zip() argument 2 is longer than argument 1")
  | _ :: _, [] => .error (.valueError "zip() argument 2 is shorter than argument 1")

/-- `net_rate_of_exchange` -/
def netRateOfExchange (pools : List LiquidityPool) (vectors : List SwapVector) :
    Except Exn ℚ := do
  let multipliers ← exchangeRateMultipliers helperOf pools vectors
  .ok (((multipliers.map Rat.num).prod : ℚ) / ((multipliers.map Rat.den).prod : ℚ))

def preCalculationCheck (cycle : UniswapLpCycle) (minRateOfExchange : ℚ) : Except Exn Unit := do
  checkPoolViability helperOf cycle.swapPools cycle.swapVectors cycle.poolViability
  let rate ← netRateOfExchange helperOf cycle.swapPools cycle.swapVectors
  if rate < minRateOfExchange then
    .error (.arbitrageError ("Rate of exchange " ++ fractionText rate ++ " below minimum."))
  else .ok ()

end UniswapLpCycle

end Degenbot
