import Degenbot.Algorithm.Pool
import Degenbot.Algorithm.Simulator
import Degenbot.Algorithm.Types

/-! # `simulate_*`: swaps simulated by the pool helpers

Simulations take a state override and report a final state. Addresses of states are left
out. -/

namespace Degenbot

/-- `UniswapSimulationResult`. -/
structure PoolSimulationResult (State : Type) where
  amount0Delta : ℤ
  amount1Delta : ℤ
  initialState : State
  finalState : State

/-- `SimulationResult` of `pool_protocols.py`. -/
structure SimulationResult (State : Type) where
  amountIn : ℤ
  amountOut : ℤ
  initialState : State
  finalState : State

/-! ## `v2_liquidity_pool.py` -/

/-- `UniswapV2PoolState` and `AerodromeV2PoolState`. -/
structure ReservesState where
  reservesToken0 : ℤ
  reservesToken1 : ℤ
  block : Option ℕ
deriving DecidableEq

def constantProductCalcExactIn (amountIn reservesIn reservesOut : ℤ) (fee : ℚ) : Except Exn ℤ :=
  floorDivide (amountIn * (fee.den - fee.num) * reservesOut)
    (reservesIn * fee.den + amountIn * (fee.den - fee.num))

def constantProductCalcExactOut (amountOut reservesIn reservesOut : ℤ) (fee : ℚ) :
    Except Exn ℤ := do
  let quotient ← floorDivide (reservesIn * amountOut * fee.den)
    ((reservesOut - amountOut) * (fee.den - fee.num))
  .ok (1 + quotient)

structure UniswapV2Pool where
  token0 : Erc20Token
  token1 : Erc20Token
  feeToken0 : ℚ
  feeToken1 : ℚ
  state : ReservesState

namespace UniswapV2Pool

def calculateTokensInFromTokensOut (pool : UniswapV2Pool) (tokenOutQuantity : ℤ)
    (tokenOut : Erc20Token) (overrideState : Option ReservesState) : Except Exn ℤ :=
  let state := overrideState.getD pool.state
  let calculate (reservesIn reservesOut : ℤ) (fee : ℚ) : Except Exn ℤ :=
    if tokenOutQuantity > reservesOut - 1 then
      .error (.liquidityPoolError ("Requested amount out (" ++ toString tokenOutQuantity ++
        ") >= pool reserves (" ++ toString reservesOut ++ ")"))
    else constantProductCalcExactOut tokenOutQuantity reservesIn reservesOut fee
  if tokenOutQuantity ≤ 0 then .error .invalidSwapInputAmount
  else if tokenOut.same pool.token1 then
    calculate state.reservesToken0 state.reservesToken1 pool.feeToken0
  else if tokenOut.same pool.token0 then
    calculate state.reservesToken1 state.reservesToken0 pool.feeToken1
  else .error (.degenbotValueError ("Could not identify token_out: " ++ tokenOut.symbol ++
    "! This pool holds: " ++ pool.token0.symbol ++ " " ++ pool.token1.symbol))

def calculateTokensOutFromTokensIn (pool : UniswapV2Pool) (tokenIn : Erc20Token)
    (tokenInQuantity : ℤ) (overrideState : Option ReservesState) : Except Exn ℤ :=
  let state := overrideState.getD pool.state
  if tokenInQuantity ≤ 0 then .error .invalidSwapInputAmount
  else if tokenIn.same pool.token0 then
    constantProductCalcExactIn tokenInQuantity state.reservesToken0 state.reservesToken1
      pool.feeToken0
  else if tokenIn.same pool.token1 then
    constantProductCalcExactIn tokenInQuantity state.reservesToken1 state.reservesToken0
      pool.feeToken1
  else .error (.degenbotValueError ("Could not identify token_in: " ++ tokenIn.symbol ++
    "! Pool holds: " ++ pool.token0.symbol ++ " " ++ pool.token1.symbol))

/-- The result that both simulations build: the deltas are added to the pool's own
reserves. -/
def simulated (pool : UniswapV2Pool) (token0Delta token1Delta : ℤ)
    (overrideState : Option ReservesState) : PoolSimulationResult ReservesState where
  amount0Delta := token0Delta
  amount1Delta := token1Delta
  initialState := overrideState.getD pool.state
  finalState :=
    { reservesToken0 := pool.state.reservesToken0 + token0Delta
      reservesToken1 := pool.state.reservesToken1 + token1Delta
      block := if overrideState.isSome then pool.state.block else none }

def simulateExactInputSwap (pool : UniswapV2Pool) (tokenIn : Erc20Token) (tokenInQuantity : ℤ)
    (overrideState : Option ReservesState) :
    Except Exn (PoolSimulationResult ReservesState) :=
  if ¬(tokenIn.same pool.token0 ∨ tokenIn.same pool.token1) then
    .error (.degenbotValueError "token_in is unknown.")
  else do
    let zeroForOne := tokenIn.same pool.token0
    let tokenOutQuantity ←
      pool.calculateTokensOutFromTokensIn tokenIn tokenInQuantity overrideState
    .ok (pool.simulated (if zeroForOne then tokenInQuantity else -tokenOutQuantity)
      (if zeroForOne then -tokenOutQuantity else tokenInQuantity) overrideState)

def simulateExactOutputSwap (pool : UniswapV2Pool) (tokenOut : Erc20Token)
    (tokenOutQuantity : ℤ) (overrideState : Option ReservesState) :
    Except Exn (PoolSimulationResult ReservesState) :=
  if ¬(tokenOut.same pool.token0 ∨ tokenOut.same pool.token1) then
    .error (.degenbotValueError "token_out is unknown.")
  else do
    let zeroForOne := tokenOut.same pool.token1
    let tokenInQuantity ←
      pool.calculateTokensInFromTokensOut tokenOutQuantity tokenOut overrideState
    .ok (pool.simulated (if zeroForOne then tokenInQuantity else -tokenOutQuantity)
      (if zeroForOne then -tokenOutQuantity else tokenInQuantity) overrideState)

end UniswapV2Pool

/-- The token of a pool at an address, for the methods of `SimulationResult`. -/
def tokenAt (token0 token1 : Erc20Token) (address : ℕ) (message : String) :
    Except Exn Erc20Token :=
  if address = token0.address then .ok token0
  else if address = token1.address then .ok token1
  else .error (.degenbotValueError message)

section Report

variable {State : Type}

/-- `simulate_swap` on top of an exact input simulation. -/
def reportInput (token0 : Erc20Token) (tokenIn : Erc20Token) (amountIn : ℤ)
    (result : PoolSimulationResult State) : SimulationResult State where
  amountIn := amountIn
  amountOut := if tokenIn.same token0 then -result.amount1Delta else -result.amount0Delta
  initialState := result.initialState
  finalState := result.finalState

/-- `simulate_swap_for_output` on top of an exact output simulation. -/
def reportOutput (token1 : Erc20Token) (tokenOut : Erc20Token) (amountOut : ℤ)
    (result : PoolSimulationResult State) : SimulationResult State where
  amountIn := if tokenOut.same token1 then result.amount0Delta else result.amount1Delta
  amountOut := amountOut
  initialState := result.initialState
  finalState := result.finalState

end Report

namespace UniswapV2Pool

def simulateSwap (pool : UniswapV2Pool) (tokenIn : ℕ) (amountIn : ℤ)
    (stateOverride : Option ReservesState) : Except Exn (SimulationResult ReservesState) := do
  let token ← tokenAt pool.token0 pool.token1 tokenIn
    ("token_in " ++ toString tokenIn ++ " not in pool")
  let result ← pool.simulateExactInputSwap token amountIn stateOverride
  .ok (reportInput pool.token0 token amountIn result)

def simulateSwapForOutput (pool : UniswapV2Pool) (tokenOut : ℕ) (amountOut : ℤ)
    (stateOverride : Option ReservesState) : Except Exn (SimulationResult ReservesState) := do
  let token ← tokenAt pool.token0 pool.token1 tokenOut
    ("token_out " ++ toString tokenOut ++ " not in pool")
  let result ← pool.simulateExactOutputSwap token amountOut stateOverride
  .ok (reportOutput pool.token1 token amountOut result)

end UniswapV2Pool

/-! ## `solidly_functions.py`, `aerodrome/functions.py` -/

def raiseIfInvalidUint256 (number : ℤ) : Except Exn Unit :=
  if ¬(0 ≤ number ∧ number ≤ maxUint256) then .error (.evmRevertError "Not a valid uint256")
  else .ok ()

def generalCalcD (x0 y : ℤ) : ℤ :=
  (3 * x0 * (y * y).fdiv (10 ^ 18)).fdiv (10 ^ 18) +
    ((x0 * x0).fdiv (10 ^ 18) * x0).fdiv (10 ^ 18)

/-- `general_calc_k`, which `_k_aerodrome` repeats. -/
def generalCalcK (balance0 balance1 decimals0 decimals1 : ℤ) : Except Exn ℤ := do
  let x ← floorDivide (balance0 * 10 ^ 18) decimals0
  let y ← floorDivide (balance1 * 10 ^ 18) decimals1
  let a := (x * y).fdiv (10 ^ 18)
  let b := (x * x).fdiv (10 ^ 18) + (y * y).fdiv (10 ^ 18)
  raiseIfInvalidUint256 (a * b)
  .ok ((a * b).fdiv (10 ^ 18))

def fAerodrome (x0 y : ℤ) : ℤ :=
  let a := (x0 * y).fdiv (10 ^ 18)
  let b := (x0 * x0).fdiv (10 ^ 18) + (y * y).fdiv (10 ^ 18)
  (a * b).fdiv (10 ^ 18)

/-- One round of `_get_y_aerodrome`: the value to return, or the next `y`. -/
def getYAerodromeRound (x0 xy y decimals0 decimals1 : ℤ) : Except Exn (ℤ ⊕ ℤ) := do
  let k := fAerodrome x0 y
  if k < xy then do
    let dy ← floorDivide ((xy - k) * 10 ^ 18) (generalCalcD x0 y)
    if dy = 0 then do
      if k = xy then .ok (.inl y)
      else do
        let above ← generalCalcK x0 (y + 1) decimals0 decimals1
        if above > xy then .ok (.inl (y + 1)) else .ok (.inr (y + 1))
    else .ok (.inr (y + dy))
  else do
    let dy ← floorDivide ((k - xy) * 10 ^ 18) (generalCalcD x0 y)
    if dy = 0 then
      if k = xy ∨ fAerodrome x0 (y - 1) < xy then .ok (.inl y) else .ok (.inr (y - 1))
    else .ok (.inr (y - dy))

/-- `_get_y_aerodrome` with its remaining rounds. -/
def getYAerodrome (x0 xy decimals0 decimals1 : ℤ) : ℕ → ℤ → Except Exn ℤ
  | 0, _ => .error (.evmRevertError "Failed to converge on a value for y")
  | rounds + 1, y => do
      let outcome ← getYAerodromeRound x0 xy y decimals0 decimals1
      match outcome with
      | .inl y => .ok y
      | .inr y => getYAerodrome x0 xy decimals0 decimals1 rounds y

/-- The `except ZeroDivisionError` clause. -/
def divisionByZero : Except Exn ℤ → Except Exn ℤ
  | .error .zeroDivisionError => .error (.evmRevertError "Division by zero")
  | outcome => outcome

/-- `general_calc_exact_in_stable`; `firstToken` says that the input is token 0. -/
def generalCalcExactInStable (kFunc : ℤ → ℤ → ℤ → ℤ → Except Exn ℤ)
    (getYFunc : ℤ → ℤ → ℤ → ℤ → ℤ → Except Exn ℤ) (amountIn : ℤ) (firstToken : Bool)
    (reserves0 reserves1 decimals0 decimals1 : ℤ) (fee : ℚ) : Except Exn ℤ :=
  divisionByZero do
    let amountInAfterFee := amountIn - (amountIn * fee.num).fdiv fee.den
    let xy ← kFunc reserves0 reserves1 decimals0 decimals1
    let scaledReserves0 ← floorDivide (reserves0 * 10 ^ 18) decimals0
    let scaledReserves1 ← floorDivide (reserves1 * 10 ^ 18) decimals1
    let (reservesA, reservesB) := if firstToken then (scaledReserves0, scaledReserves1)
      else (scaledReserves1, scaledReserves0)
    let amountInAfterFee ← floorDivide (amountInAfterFee * 10 ^ 18)
      (if firstToken then decimals0 else decimals1)
    let newReservesB ← getYFunc (amountInAfterFee + reservesA) xy reservesB decimals0 decimals1
    .ok (((reservesB - newReservesB) * (if firstToken then decimals1 else decimals0)).fdiv
      (10 ^ 18))

def calcExactInStable (amountIn : ℤ) (firstToken : Bool)
    (reserves0 reserves1 decimals0 decimals1 : ℤ) (fee : ℚ) : Except Exn ℤ :=
  generalCalcExactInStable generalCalcK
    (fun x0 xy y decimals0 decimals1 => getYAerodrome x0 xy decimals0 decimals1 255 y)
    amountIn firstToken reserves0 reserves1 decimals0 decimals1 fee

def generalCalcExactInVolatile (amountIn : ℤ) (firstToken : Bool) (reserves0 reserves1 : ℤ)
    (fee : ℚ) : Except Exn ℤ :=
  let amountInAfterFee := amountIn - (amountIn * fee.num).fdiv fee.den
  let (reservesA, reservesB) := if firstToken then (reserves0, reserves1)
    else (reserves1, reserves0)
  floorDivide (amountInAfterFee * reservesB) (reservesA + amountInAfterFee)

/-! ## `aerodrome/pools.py` -/

structure AerodromeV2Pool where
  token0 : Erc20Token
  token1 : Erc20Token
  stable : Bool
  fee : ℚ
  state : ReservesState

namespace AerodromeV2Pool

def calculateTokensInFromTokensOut (pool : AerodromeV2Pool) (tokenOutQuantity : ℤ)
    (tokenOut : Erc20Token) (overrideState : Option ReservesState) : Except Exn ℤ :=
  let state := overrideState.getD pool.state
  let calculate (reservesIn reservesOut : ℤ) : Except Exn ℤ :=
    if tokenOutQuantity > reservesOut - 1 then
      .error (.liquidityPoolError ("Requested amount out (" ++ toString tokenOutQuantity ++
        ") >= pool reserves (" ++ toString reservesOut ++ ")"))
    else if pool.stable then .error .notImplementedError
    else constantProductCalcExactOut tokenOutQuantity reservesIn reservesOut pool.fee
  if tokenOutQuantity ≤ 0 then .error .invalidSwapInputAmount
  else if tokenOut.same pool.token1 then
    calculate state.reservesToken0 state.reservesToken1
  else if tokenOut.same pool.token0 then
    calculate state.reservesToken1 state.reservesToken0
  else .error (.degenbotValueError ("Could not identify token_out: " ++ tokenOut.symbol ++
    "! This pool holds: " ++ pool.token0.symbol ++ " " ++ pool.token1.symbol))

def calculateTokensOutFromTokensIn (pool : AerodromeV2Pool) (tokenIn : Erc20Token)
    (tokenInQuantity : ℤ) (overrideState : Option ReservesState) : Except Exn ℤ :=
  let state := overrideState.getD pool.state
  let firstToken := tokenIn.same pool.token0
  if ¬(tokenIn.same pool.token0 ∨ tokenIn.same pool.token1) then
    .error (.degenbotValueError "token_in not recognized.")
  else if tokenInQuantity ≤ 0 then .error .invalidSwapInputAmount
  else if pool.stable then
    calcExactInStable tokenInQuantity firstToken state.reservesToken0 state.reservesToken1
      (10 ^ pool.token0.decimals) (10 ^ pool.token1.decimals) pool.fee
  else
    generalCalcExactInVolatile tokenInQuantity firstToken state.reservesToken0
      state.reservesToken1 pool.fee

def simulateSwap (pool : AerodromeV2Pool) (tokenIn : ℕ) (amountIn : ℤ)
    (stateOverride : Option ReservesState) : Except Exn (SimulationResult ReservesState) := do
  let token ← tokenAt pool.token0 pool.token1 tokenIn
    ("token_in " ++ toString tokenIn ++ " not in pool")
  let initialState := stateOverride.getD pool.state
  let amountOut ← pool.calculateTokensOutFromTokensIn token amountIn stateOverride
  .ok ⟨amountIn, amountOut, initialState, initialState⟩

def simulateSwapForOutput (pool : AerodromeV2Pool) (tokenOut : ℕ) (amountOut : ℤ)
    (stateOverride : Option ReservesState) : Except Exn (SimulationResult ReservesState) := do
  let token ← tokenAt pool.token0 pool.token1 tokenOut
    ("token_out " ++ toString tokenOut ++ " not in pool")
  let initialState := stateOverride.getD pool.state
  let amountIn ← pool.calculateTokensInFromTokensOut amountOut token stateOverride
  .ok ⟨amountIn, amountOut, initialState, initialState⟩

end AerodromeV2Pool

/-! ## `_calculate_swap` of the concentrated-liquidity pools -/

/-- A state as simulations take and return it: unlike a cached one it may have no block. -/
structure OverrideState where
  liquidity : ℤ
  sqrtPriceX96 : ℤ
  tick : ℤ
  tickBitmap : InitializedTickMap
  tickData : LiquidityMap
  block : Option ℕ
deriving DecidableEq

def PoolState.toOverride (state : PoolState) : OverrideState :=
  ⟨state.liquidity, state.sqrtPriceX96, state.tick, state.tickBitmap, state.tickData,
    some state.block⟩

namespace Pool

/-- The state that a swap starts from. -/
def startState (pool : Pool) (overrideState : Option OverrideState) : OverrideState :=
  overrideState.getD pool.state.toOverride

def snapshot (pool : Pool) (state : OverrideState) : LiquidityMapSnapshot :=
  ⟨state.tickData, state.tickBitmap, pool.tickSpacing, pool.sparseLiquidityMap⟩

/-- A missing word is fetched into copies of the snapshot's dictionaries. -/
def fetchWord (pool : Pool) (provider : Provider) (word : ℤ) (snapshot : LiquidityMapSnapshot) :
    Except Exn LiquidityMapSnapshot := do
  let (tickBitmap, tickData) ← pool.fetchAndPopulateInitializedTicks provider word
    snapshot.tickBitmap snapshot.tickData pool.updateBlock
  .ok ⟨tickData, tickBitmap, pool.tickSpacing, true⟩

/-- The `while True` loop of a sparse map, with a budget of attempts. The snapshot of the
last attempt is returned along with its result. -/
def retrySwap (pool : Pool) (provider : Provider)
    (swap : LiquidityMapSnapshot → Option (Except Exn SwapResult)) :
    ℕ → LiquidityMapSnapshot → Option (Except Exn (LiquidityMapSnapshot × SwapResult))
  | 0, _ => none
  | attempts + 1, snapshot =>
      match swap snapshot with
      | none => none
      | some (.ok result) => some (.ok (snapshot, result))
      | some (.error (.missingLiquidityData word)) =>
          match pool.fetchWord provider word snapshot with
          | .error e => some (.error e)
          | .ok snapshot => pool.retrySwap provider swap attempts snapshot
      | some (.error e) => some (.error e)

/-- The swap with its snapshot: a full map is tried once. -/
def attemptSwap (pool : Pool) (provider : Provider) (attempts : ℕ)
    (swap : LiquidityMapSnapshot → Option (Except Exn SwapResult)) (state : OverrideState) :
    Option (Except Exn (LiquidityMapSnapshot × SwapResult)) :=
  if pool.sparseLiquidityMap then pool.retrySwap provider swap attempts (pool.snapshot state)
  else (swap (pool.snapshot state)).map (·.map (pool.snapshot state, ·))

end Pool

/-- `LiquidityPoolError(f"Simulated execution reverted: ...")` for a revert. -/
def revertToPoolError : Exn → Exn
  | .evmRevertError error => .liquidityPoolError ("Simulated execution reverted: EVM Revert" ++
      if error = "" then "" else ": " ++ error)
  | e => e

/-! ## `v3_liquidity_pool.py` -/

structure UniswapV3Pool extends Pool where
  token0 : Erc20Token
  token1 : Erc20Token
  fee : ℤ

namespace UniswapV3Pool

def swapArgs (pool : UniswapV3Pool) (zeroForOne : Bool) (amountSpecified sqrtPriceLimitX96 : ℤ)
    (state : OverrideState) (snapshot : LiquidityMapSnapshot) : V3.SwapArgs where
  snapshot := snapshot
  zeroForOne := zeroForOne
  amountSpecified := amountSpecified
  sqrtPriceLimitX96 := sqrtPriceLimitX96
  fee := pool.fee
  liquidityStart := state.liquidity
  sqrtPriceX96Start := state.sqrtPriceX96
  tickStart := state.tick

/-- `_calculate_swap`, with budgets for the attempts and for the loop of each. -/
def calculateSwap (pool : UniswapV3Pool) (provider : Provider) (attempts fuel : ℕ)
    (zeroForOne : Bool) (amountSpecified sqrtPriceLimitX96 : ℤ)
    (overrideState : Option OverrideState) :
    Option (Except Exn (LiquidityMapSnapshot × SwapResult)) :=
  let state := pool.startState overrideState
  pool.attemptSwap provider attempts
    (fun snapshot => V3.calculateSwap fuel
      (pool.swapArgs zeroForOne amountSpecified sqrtPriceLimitX96 state snapshot)) state

def sqrtPriceLimit (zeroForOne : Bool) (sqrtPriceLimitX96 : Option ℤ) : ℤ :=
  sqrtPriceLimitX96.getD (if zeroForOne then minSqrtRatio + 1 else maxSqrtRatio - 1)

/-- The result that both simulations build: the end of the swap replaces the values of the
pool's own state. -/
def simulated (pool : UniswapV3Pool) (overrideState : Option OverrideState)
    (result : SwapResult) : PoolSimulationResult OverrideState where
  amount0Delta := result.amount0
  amount1Delta := result.amount1
  initialState := pool.startState overrideState
  finalState :=
    { pool.state.toOverride with
      liquidity := result.liquidity
      sqrtPriceX96 := result.sqrtPriceX96
      tick := result.tick
      block := if overrideState.isNone then some pool.updateBlock else none }

/-- The common part of both simulations. -/
def simulate (pool : UniswapV3Pool) (provider : Provider) (attempts fuel : ℕ)
    (zeroForOne : Bool) (amountSpecified : ℤ) (sqrtPriceLimitX96 : Option ℤ)
    (overrideState : Option OverrideState) :
    Option (Except Exn (PoolSimulationResult OverrideState)) :=
  (pool.calculateSwap provider attempts fuel zeroForOne amountSpecified
    (sqrtPriceLimit zeroForOne sqrtPriceLimitX96) overrideState).map fun outcome =>
      (outcome.mapError revertToPoolError).map fun swap => pool.simulated overrideState swap.2

def simulateExactInputSwap (pool : UniswapV3Pool) (provider : Provider) (attempts fuel : ℕ)
    (tokenIn : Erc20Token) (tokenInQuantity : ℤ) (sqrtPriceLimitX96 : Option ℤ)
    (overrideState : Option OverrideState) :
    Option (Except Exn (PoolSimulationResult OverrideState)) :=
  if ¬(tokenIn.same pool.token0 ∨ tokenIn.same pool.token1) then
    some (.error (.degenbotValueError ("Unknown token " ++ tokenIn.symbol)))
  else pool.simulate provider attempts fuel (tokenIn.same pool.token0) tokenInQuantity
    sqrtPriceLimitX96 overrideState

def simulateExactOutputSwap (pool : UniswapV3Pool) (provider : Provider) (attempts fuel : ℕ)
    (tokenOut : Erc20Token) (tokenOutQuantity : ℤ) (sqrtPriceLimitX96 : Option ℤ)
    (overrideState : Option OverrideState) :
    Option (Except Exn (PoolSimulationResult OverrideState)) :=
  if ¬(tokenOut.same pool.token0 ∨ tokenOut.same pool.token1) then
    some (.error (.degenbotValueError ("Unknown token " ++ tokenOut.symbol)))
  else pool.simulate provider attempts fuel (tokenOut.same pool.token1) (-tokenOutQuantity)
    sqrtPriceLimitX96 overrideState

def simulateSwap (pool : UniswapV3Pool) (provider : Provider) (attempts fuel : ℕ)
    (tokenIn : ℕ) (amountIn : ℤ) (stateOverride : Option OverrideState) :
    Option (Except Exn (SimulationResult OverrideState)) :=
  match tokenAt pool.token0 pool.token1 tokenIn
    ("token_in " ++ toString tokenIn ++ " not in pool") with
  | .error e => some (.error e)
  | .ok token =>
      (pool.simulateExactInputSwap provider attempts fuel token amountIn none stateOverride).map
        (·.map (reportInput pool.token0 token amountIn))

def simulateSwapForOutput (pool : UniswapV3Pool) (provider : Provider) (attempts fuel : ℕ)
    (tokenOut : ℕ) (amountOut : ℤ) (stateOverride : Option OverrideState) :
    Option (Except Exn (SimulationResult OverrideState)) :=
  match tokenAt pool.token0 pool.token1 tokenOut
    ("token_out " ++ toString tokenOut ++ " not in pool") with
  | .error e => some (.error e)
  | .ok token =>
      (pool.simulateExactOutputSwap provider attempts fuel token amountOut none
        stateOverride).map (·.map (reportOutput pool.token1 token amountOut))

end UniswapV3Pool

/-! ## `v4_liquidity_pool.py` -/

/-- The hooks that may change the outcome of a swap, and the others. -/
inductive Hooks where
  | beforeInitialize
  | afterInitialize
  | beforeAddLiquidity
  | afterAddLiquidity
  | beforeRemoveLiquidity
  | afterRemoveLiquidity
  | beforeSwap
  | afterSwap
  | beforeDonate
  | afterDonate
  | beforeSwapReturnsDelta
  | afterSwapReturnsDelta
  | afterAddLiquidityReturnsDelta
  | afterRemoveLiquidityReturnsDelta
deriving DecidableEq

structure UniswapV4Pool extends Pool where
  token0 : Erc20Token
  token1 : Erc20Token
  lpFee : ℤ
  protocolFeeZeroForOne : ℤ
  protocolFeeOneForZero : ℤ
  activeHooks : List Hooks

namespace UniswapV4Pool

def swapArgs (pool : UniswapV4Pool) (zeroForOne : Bool) (amountSpecified sqrtPriceX96Limit : ℤ)
    (state : OverrideState) (snapshot : LiquidityMapSnapshot) : V4.SwapArgs where
  snapshot := snapshot
  zeroForOne := zeroForOne
  amountSpecified := amountSpecified
  sqrtPriceX96Limit := sqrtPriceX96Limit
  lpFee := pool.lpFee
  protocolFee := if zeroForOne then pool.protocolFeeZeroForOne else pool.protocolFeeOneForZero
  liquidityStart := state.liquidity
  sqrtPriceX96Start := state.sqrtPriceX96
  tickStart := state.tick

/-- `_calculate_swap`: the `SwapDelta` and the end of the swap. The fees that it also
returns are not read by any caller below. -/
def calculateSwap (pool : UniswapV4Pool) (provider : Provider) (attempts fuel : ℕ)
    (zeroForOne : Bool) (amountSpecified sqrtPriceX96Limit : ℤ)
    (overrideState : Option OverrideState) :
    Option (Except Exn (LiquidityMapSnapshot × SwapResult)) :=
  let state := pool.startState overrideState
  if amountSpecified = 0 then
    some (.ok (pool.snapshot state, ⟨0, 0, state.sqrtPriceX96, state.liquidity, state.tick⟩))
  else pool.attemptSwap provider attempts
    (fun snapshot => V4.calculateSwap fuel
      (pool.swapArgs zeroForOne amountSpecified sqrtPriceX96Limit state snapshot)) state

/-- `SwapDelta.amount_in`. -/
def amountIn (result : SwapResult) : ℤ := -min result.amount0 result.amount1

/-- `SwapDelta.amount_out`. -/
def amountOut (result : SwapResult) : ℤ := max result.amount0 result.amount1

def conflictingHooks (pool : UniswapV4Pool) : Bool :=
  pool.activeHooks.any fun hook =>
    hook ∈ [.afterSwap, .afterSwapReturnsDelta, .beforeSwap, .beforeSwapReturnsDelta]

/-- The checks after an exact input swap. -/
def checkInput (pool : UniswapV4Pool) (tokenInQuantity : ℤ) (result : SwapResult) :
    Except Exn ℤ :=
  if ¬amountIn result ≤ tokenInQuantity then .error .assertionError
  else if pool.conflictingHooks then
    .error (.possibleInaccurateResult (amountIn result) (amountOut result))
  else if amountIn result < tokenInQuantity then
    .error (.incompleteSwap (amountIn result) (amountOut result))
  else .ok (amountOut result)

def calculateTokensOutFromTokensIn (pool : UniswapV4Pool) (provider : Provider)
    (attempts fuel : ℕ) (tokenIn : Erc20Token) (tokenInQuantity : ℤ)
    (overrideState : Option OverrideState) : Option (Except Exn ℤ) :=
  if ¬(tokenIn.same pool.token0 ∨ tokenIn.same pool.token1) then
    some (.error (.degenbotValueError "token_in not found!"))
  else
    let zeroForOne := tokenIn.same pool.token0
    (pool.calculateSwap provider attempts fuel zeroForOne (-tokenInQuantity)
      (if zeroForOne then minSqrtRatio + 1 else maxSqrtRatio - 1) overrideState).map
        fun outcome => (outcome.mapError revertToPoolError).bind fun swap =>
          pool.checkInput tokenInQuantity swap.2

def simulateSwap (pool : UniswapV4Pool) (provider : Provider) (attempts fuel : ℕ)
    (tokenIn : ℕ) (amountIn : ℤ) (stateOverride : Option OverrideState) :
    Option (Except Exn (SimulationResult OverrideState)) :=
  match tokenAt pool.token0 pool.token1 tokenIn
    ("token_in " ++ toString tokenIn ++ " not in pool") with
  | .error e => some (.error e)
  | .ok token =>
      let initialState := pool.startState stateOverride
      (pool.calculateTokensOutFromTokensIn provider attempts fuel token amountIn
        stateOverride).map (·.map fun amountOut => ⟨amountIn, amountOut, initialState,
          initialState⟩)

end UniswapV4Pool

end Degenbot
