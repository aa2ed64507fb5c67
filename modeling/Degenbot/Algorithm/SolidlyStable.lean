import Degenbot.Algorithm.Simulation

/-! # Stable pools of the Solidly family

The pool of `solidly_adapter.py`, and the Camelot pool, which runs a quote and a solver of its
own. -/

namespace Degenbot

/-! ## `solidly_adapter.py` -/

def solidlyF (x0 y : ℤ) : ℤ :=
  let a := (x0 * y).fdiv (10 ^ 18)
  let b := (x0 * x0).fdiv (10 ^ 18) + (y * y).fdiv (10 ^ 18)
  (a * b).fdiv (10 ^ 18)

/-- One round of `_solidly_get_y`: the value to return, or the next `y`. -/
def solidlyGetYRound (x0 xy y decimals0 decimals1 : ℤ) : Except Exn (ℤ ⊕ ℤ) := do
  let k := solidlyF x0 y
  if k < xy then do
    let dy ← floorDivide ((xy - k) * 10 ^ 18) (generalCalcD x0 y)
    if dy = 0 then do
      if k = xy then .ok (.inl y)
      else do
        let above ← generalCalcK x0 (y + 1) decimals0 decimals1
        if above > xy then .ok (.inl (y + 1)) else .ok (.inr (y + 1))
    else .ok (.inr (y + dy))
  else do
    let dy ← floorDivide ((k - xy) * 10 ^ 18) (generalCalcD x0 y)
    if dy = 0 then
      if k = xy ∨ solidlyF x0 (y - 1) < xy then .ok (.inl y) else .ok (.inr (y - 1))
    else .ok (.inr (y - dy))

/-- `_solidly_get_y` with its remaining rounds. -/
def solidlyGetY (x0 xy decimals0 decimals1 : ℤ) : ℕ → ℤ → Except Exn ℤ
  | 0, _ => .error (.evmRevertError "Solidly y-solver did not converge in 255 iterations")
  | rounds + 1, y => do
      let outcome ← solidlyGetYRound x0 xy y decimals0 decimals1
      match outcome with
      | .inl y => .ok y
      | .inr y => solidlyGetY x0 xy decimals0 decimals1 rounds y

/-- The decimals are the factors `10 ^ d`. -/
structure SolidlyV1Pool where
  token0 : String
  token1 : String
  decimalsToken0 : ℤ
  decimalsToken1 : ℤ
  fee : ℚ
  stable : Bool
  state : ReservesState

/-- The checks of `SolidlyV1Pool.__init__`. -/
def SolidlyV1Pool.check (pool : SolidlyV1Pool) : Except Exn Unit :=
  if pool.state.reservesToken0 < 0 ∨ pool.state.reservesToken1 < 0 then
    .error (.valueError "reserves must be non-negative")
  else if pool.decimalsToken0 ≤ 0 ∨ pool.decimalsToken1 ≤ 0 then
    .error (.valueError "decimals scalars must be positive")
  else if pool.fee < 0 ∨ pool.fee ≥ 1 then
    .error (.valueError ("fee must be in [0, 1), got " ++ toString pool.fee))
  else .ok ()

/-- `to_checksum_address` may reject its argument. -/
def SolidlyV1Pool.calculateTokensOutFromTokensIn
    (toChecksumAddress : String → Except Exn String) (pool : SolidlyV1Pool) (tokenIn : String)
    (tokenInQuantity : ℤ) (overrideState : Option ReservesState) : Except Exn ℤ :=
  if tokenInQuantity ≤ 0 then
    .error (.valueError ("token_in_quantity must be positive, got " ++ toString tokenInQuantity))
  else do
    let tokenInCs ← toChecksumAddress tokenIn
    if ¬(tokenInCs = pool.token0 ∨ tokenInCs = pool.token1) then
      .error (.valueError ("token_in " ++ tokenInCs ++ " matches neither pool token (" ++
        pool.token0 ++ ", " ++ pool.token1 ++ ")"))
    else
      let firstToken := decide (tokenInCs = pool.token0)
      let state := overrideState.getD pool.state
      if pool.stable then
        generalCalcExactInStable generalCalcK
          (fun x0 xy y decimals0 decimals1 => solidlyGetY x0 xy decimals0 decimals1 255 y)
          tokenInQuantity firstToken state.reservesToken0 state.reservesToken1
          pool.decimalsToken0 pool.decimalsToken1 pool.fee
      else
        generalCalcExactInVolatile tokenInQuantity firstToken state.reservesToken0
          state.reservesToken1 pool.fee

/-! ## `camelot/functions.py` -/

def fCamelot (x0 y : ℤ) : ℤ :=
  (x0 * ((y * y).fdiv (10 ^ 18) * y).fdiv (10 ^ 18)).fdiv (10 ^ 18) +
    (((x0 * x0).fdiv (10 ^ 18) * x0).fdiv (10 ^ 18) * y).fdiv (10 ^ 18)

/-- `get_y_camelot` with its remaining rounds. -/
def getYCamelot (x0 xy : ℤ) : ℕ → ℤ → Except Exn ℤ
  | 0, y => .ok y
  | rounds + 1, yPrev => do
      let k := fCamelot x0 yPrev
      let y ← (if k < xy then do
          let dy ← floorDivide ((xy - k) * 10 ^ 18) (generalCalcD x0 yPrev)
          .ok (yPrev + dy)
        else do
          let dy ← floorDivide ((k - xy) * 10 ^ 18) (generalCalcD x0 yPrev)
          .ok (yPrev - dy))
      if y > yPrev then
        if y - yPrev ≤ 1 then .ok y else getYCamelot x0 xy rounds y
      else if yPrev - y ≤ 1 then .ok y
      else getYCamelot x0 xy rounds y

def kCamelot (balance0 balance1 decimals0 decimals1 : ℤ) : Except Exn ℤ := do
  let x ← floorDivide (balance0 * 10 ^ 18) decimals0
  let y ← floorDivide (balance1 * 10 ^ 18) decimals1
  let a := (x * y).fdiv (10 ^ 18)
  let b := (x * x).fdiv (10 ^ 18) + (y * y).fdiv (10 ^ 18)
  raiseIfInvalidUint256 (a * b)
  .ok ((a * b).fdiv (10 ^ 18))

/-! ## `camelot/pools.py` -/

structure CamelotLiquidityPool extends UniswapV2Pool where
  feeDenominator : ℤ
  stableSwap : Bool

namespace CamelotLiquidityPool

/-- `_calculate_tokens_out_from_tokens_in_stable_swap`. -/
def calculateTokensOutFromTokensInStableSwap (pool : CamelotLiquidityPool)
    (tokenIn : Erc20Token) (tokenInQuantity : ℤ) (overrideState : Option ReservesState) :
    Except Exn ℤ :=
  if tokenInQuantity ≤ 0 then
    .error (.degenbotValueError "token_in_quantity must be positive")
  else do
    let precisionMultiplierToken0 : ℤ := 10 ^ pool.token0.decimals
    let precisionMultiplierToken1 : ℤ := 10 ^ pool.token1.decimals
    let firstToken := tokenIn.same pool.token0
    let feePercent : ℚ := pool.feeDenominator *
      if firstToken then pool.feeToken0 else pool.feeToken1
    let state := overrideState.getD pool.state
    if pool.feeDenominator = 0 then .error .zeroDivisionError
    else do
      let tokenInQuantity :=
        tokenInQuantity - ⌊tokenInQuantity * feePercent / pool.feeDenominator⌋
      let xy ← kCamelot state.reservesToken0 state.reservesToken1 precisionMultiplierToken0
        precisionMultiplierToken1
      let reservesToken0 ← floorDivide (state.reservesToken0 * 10 ^ 18) precisionMultiplierToken0
      let reservesToken1 ← floorDivide (state.reservesToken1 * 10 ^ 18) precisionMultiplierToken1
      let (reserveA, reserveB) := if firstToken then (reservesToken0, reservesToken1)
        else (reservesToken1, reservesToken0)
      let tokenInQuantity ← floorDivide (tokenInQuantity * 10 ^ 18)
        (if firstToken then precisionMultiplierToken0 else precisionMultiplierToken1)
      let newReserveB ← getYCamelot (tokenInQuantity + reserveA) xy 255 reserveB
      .ok (((reserveB - newReserveB) *
        if firstToken then precisionMultiplierToken1 else precisionMultiplierToken0).fdiv
          (10 ^ 18))

def calculateTokensOutFromTokensIn (pool : CamelotLiquidityPool) (tokenIn : Erc20Token)
    (tokenInQuantity : ℤ) (overrideState : Option ReservesState) : Except Exn ℤ :=
  if pool.stableSwap then
    pool.calculateTokensOutFromTokensInStableSwap tokenIn tokenInQuantity overrideState
  else pool.toUniswapV2Pool.calculateTokensOutFromTokensIn tokenIn tokenInQuantity overrideState

end CamelotLiquidityPool

end Degenbot
