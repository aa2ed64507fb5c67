import Degenbot.Algorithm.CyclePayloads

/-! # `arbitrage/uniswap_lp_cycle.py`: profit and optimal input

The quotes of the pools, at their states or the overriding ones, are a parameter. So are the
Rust optimiser and `minimize_scalar`. -/

namespace Degenbot

/-- `EVMRevertError` and the classes below `LiquidityPoolError`. -/
def Exn.isSwapFailure : Exn → Bool
  | .evmRevertError _ | .liquidityPoolError _ | .invalidSwapInputAmount |
    .liquidityMapWordMissing _ | .missingLiquidityData _ | .incompleteSwap _ _ |
    .possibleInaccurateResult _ _ | .noPoolStateAvailable _ | .lateUpdateError |
    .externalUpdateError _ => true
  | _ => false

namespace UniswapLpCycle

/-! ## `_arb_profit` -/

/-- The loop of `_arb_profit`: `token_out_quantity` when it ends or raises. A pool of no named
class hands on the last output. -/
def arbProfitLoop (quotes : Quotes) :
    ℤ → ℤ → List LiquidityPool → List SwapVector → ℤ × Option Exn
  | tokenOutQuantity, _, [], [] => (tokenOutQuantity, none)
  | tokenOutQuantity, tokenInQuantity, pool :: pools, vector :: vectors =>
      match pool.kind with
      | .other _ _ => arbProfitLoop quotes tokenOutQuantity tokenOutQuantity pools vectors
      | _ =>
        match quotes pool vector.tokenIn tokenInQuantity with
        | .error e => (tokenOutQuantity, some e)
        | .ok quantity => arbProfitLoop quotes quantity quantity pools vectors
  | tokenOutQuantity, _, [], _ :: _ =>
      (tokenOutQuantity, some (.valueError "zip() argument 2 is longer than argument 1"))
  | tokenOutQuantity, _, _ :: _, [] =>
      (tokenOutQuantity, some (.valueError "zip() argument 2 is shorter than argument 1"))

/-- `_arb_profit` of an input that is rounded down, before the conversion to `float`. The
handler sets `token_in_quantity`, which is not read again. -/
def arbProfit (quotes : Quotes) (x : ℤ) (pools : List LiquidityPool) (vectors : List SwapVector) :
    Except Exn ℤ :=
  match arbProfitLoop quotes 0 x pools vectors with
  | (tokenOutQuantity, none) => .ok (tokenOutQuantity - x)
  | (tokenOutQuantity, some e) =>
      if e.isSwapFailure then .ok (tokenOutQuantity - x) else .error e

/-! ## `_calculate` -/

def extractInputAmount : SwapAmount → Except Exn ℤ
  | .uniswapV2 _ amountsIn _ => .ok (max amountsIn.1 amountsIn.2)
  | .uniswapV3 _ amountIn _ _ _ _ => .ok amountIn
  | .uniswapV4 _ _ amountIn _ _ _ _ => .ok amountIn
  | .curve .. => .error (.degenbotValueError "Unsupported swap amount type")

def extractOutputAmount (swapAmount : SwapAmount) (inputSwapAmount : ℤ) : Except Exn ℤ :=
  match swapAmount with
  | .uniswapV2 _ _ amountsOut => .ok (max amountsOut.1 amountsOut.2 - inputSwapAmount)
  | .uniswapV3 _ _ amountOut _ _ _ => .ok (amountOut - inputSwapAmount)
  | .uniswapV4 _ _ _ amountOut _ _ _ => .ok (amountOut - inputSwapAmount)
  | .curve .. => .error (.degenbotValueError "Unsupported swap amount type")

/-- What `_calculate` asks of the pools: quotes, the reserves and the fees on the two tokens of
a V2 pool and the snapshot of a V3 pool, at the overriding state if there is one. -/
structure PoolData where
  quotes : Quotes
  v2Reserves : LiquidityPool → ℤ × ℤ
  v2Fees : LiquidityPool → ℚ × ℚ
  v3SnapshotJson : LiquidityPool → Except Exn String
  stateBlock : Option ℕ

/-- `_v2_fee_bps`. -/
def v2FeeBps (data : PoolData) (pool : LiquidityPool) (tokenIn : Erc20Token) : ℤ :=
  let fee := if pool.token0.same tokenIn then (data.v2Fees pool).1 else (data.v2Fees pool).2
  fee.num * 10000 / fee.den

/-- The arguments of `optimal_input_2pool_v3`; the reserves are passed as text. -/
structure RustArguments where
  pool1 : String
  zeroForOne : Bool
  pool2 : Option String
  v2 : Option (ℤ × ℤ × ℤ)
deriving DecidableEq

/-- The arguments for the pairs of pools that are handed to the optimiser. -/
def rustArguments (data : PoolData) (inputToken : Erc20Token) (pools : List LiquidityPool) :
    Except Exn (Option RustArguments) :=
  match pools with
  | [p1, p2] =>
      let zeroForOne := p1.token0.same inputToken
      if p1.kind.isV3 ∧ p2.kind.isV3 then do
        let json1 ← data.v3SnapshotJson p1
        let json2 ← data.v3SnapshotJson p2
        .ok (some ⟨json1, zeroForOne, some json2, none⟩)
      else if p1.kind.isV3 ∧ p2.kind.isUniswapV2 then do
        let json1 ← data.v3SnapshotJson p1
        let reserves := data.v2Reserves p2
        let rIn := if p2.token0.same p1.token1 then reserves.1 else reserves.2
        let rOut := if p2.token0.same p1.token1 then reserves.2 else reserves.1
        .ok (some ⟨json1, zeroForOne, none, some (rIn, rOut, v2FeeBps data p2 p1.token1)⟩)
      else .ok none
  | _ => .ok none

structure ArbitrageCalculationResult where
  inputToken : Erc20Token
  profitToken : Erc20Token
  inputAmount : ℤ
  profitAmount : ℤ
  swapAmounts : List SwapAmount
  stateBlock : Option ℕ

/-- `__post_init__` -/
def ArbitrageCalculationResult.validate (result : ArbitrageCalculationResult) :
    Except Exn ArbitrageCalculationResult :=
  if result.inputAmount = 0 then .error .assertionError else .ok result

/-- The input that the optimiser finds, as `int(res_str)`. Every exception is dropped. -/
def rustOptimalX (optimiser : Option (RustArguments → Except Exn ℤ)) (data : PoolData)
    (cycle : UniswapLpCycle) : Option ℤ :=
  match optimiser, rustArguments data cycle.inputToken cycle.swapPools with
  | some optimiser, .ok (some arguments) => (optimiser arguments).toOption
  | _, _ => none

def calculate (optimiser : Option (RustArguments → Except Exn ℤ))
    (minimizeScalar : (ℤ → Except Exn ℤ) → Except Exn ℤ) (data : PoolData)
    (cycle : UniswapLpCycle) : Except Exn ArbitrageCalculationResult := do
  let optimalX ← match rustOptimalX optimiser data cycle with
    | some x => .ok x
    | none => minimizeScalar fun x =>
        arbProfit data.quotes x cycle.swapPools cycle.swapVectors
  let optimalAmounts ← buildSwapAmounts data.quotes 0 optimalX cycle.swapPools cycle.swapVectors
  match optimalAmounts.head?, optimalAmounts.tail.getLast? with
  | some inputSwap, some outputSwap => do
      let inputSwapAmount ← extractInputAmount inputSwap
      let bestProfitAmount ← extractOutputAmount outputSwap inputSwapAmount
      ArbitrageCalculationResult.validate ⟨cycle.inputToken, cycle.inputToken, inputSwapAmount,
        bestProfitAmount, optimalAmounts, data.stateBlock⟩
  | _, _ => .error (.valueError "not enough values to unpack (expected at least 2)")

end UniswapLpCycle

end Degenbot
