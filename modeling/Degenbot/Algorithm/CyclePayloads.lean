import Degenbot.Algorithm.Arbitrage
import Degenbot.Algorithm.TickMath

/-! # `arbitrage/`: swap amounts and payloads of a cycle

`_build_swap_amounts` and `generate_payloads` of `UniswapLpCycle` and `UniswapCurveCycle`.
What a pool quotes, the discount on a Curve quote and the allowances of the sender are
parameters; the names of pools and amounts are left out of the messages. -/

namespace Degenbot

/-! ## Pools, vectors and amounts -/

/-- A `CurveStableswapPool`, with the fields that a path reads. -/
structure CurvePathPool where
  address : ℕ
  tokens : List Erc20Token
  hasBasePool : Bool
  tokensUnderlying : List Erc20Token

/-- `CurveOrUniswapPool` -/
inductive CurveOrUniswapPool where
  | uniswap (pool : LiquidityPool)
  | curve (pool : CurvePathPool)

def CurveOrUniswapPool.address : CurveOrUniswapPool → ℕ
  | .uniswap pool => pool.address
  | .curve pool => pool.address

/-- `isinstance(pool, UniswapV3Pool)`, of which `AerodromeV3Pool` is a subclass. -/
def PoolKind.isV3 : PoolKind → Bool
  | .uniswapV3 | .aerodromeV3 => true
  | _ => false

/-- `isinstance(pool, UniswapV2Pool)`, of which `AerodromeV2Pool` is no subclass. -/
def PoolKind.isUniswapV2 (kind : PoolKind) : Bool := kind = .uniswapV2

/-- `isinstance(pool, AerodromeV2Pool | UniswapV2Pool)` -/
def PoolKind.isV2 (kind : PoolKind) : Bool := kind = .aerodromeV2 ∨ kind = .uniswapV2

/-- `UniswapPoolSwapVector` or `CurveStableSwapPoolVector` -/
inductive CurveOrUniswapVector where
  | uniswap (vector : SwapVector)
  | curve (tokenIn tokenOut : Erc20Token)

/-- The classes of `arbitrage/types.py`, less the optional recipient. -/
inductive SwapAmount where
  | uniswapV2 (pool : ℕ) (amountsIn amountsOut : ℤ × ℤ)
  | uniswapV3 (pool : ℕ) (amountIn amountOut amountSpecified : ℤ) (zeroForOne : Bool)
      (sqrtPriceLimitX96 : ℤ)
  | uniswapV4 (address : ℕ) (id : Option ℕ) (amountIn amountOut amountSpecified : ℤ)
      (zeroForOne : Bool) (sqrtPriceLimitX96 : ℤ)
  | curve (tokenIn : Erc20Token) (tokenInIndex : ℕ) (tokenOut : Erc20Token) (tokenOutIndex : ℕ)
      (amountIn minAmountOut : ℤ) (underlying : Bool)

/-- `__post_init__` -/
def SwapAmount.validate (amounts : SwapAmount) : Except Exn SwapAmount :=
  match amounts with
  | .uniswapV2 _ amountsIn amountsOut =>
      if amountsIn = (0, 0) ∨ amountsOut = (0, 0) ∨ ¬(amountsIn.1 = 0 ∨ amountsIn.2 = 0) ∨
          ¬(amountsOut.1 = 0 ∨ amountsOut.2 = 0) then .error .assertionError
      else .ok amounts
  | .uniswapV3 _ _ _ amountSpecified _ _ | .uniswapV4 _ _ _ _ amountSpecified _ _ =>
      if amountSpecified = 0 then .error .assertionError else .ok amounts
  | .curve tokenIn _ tokenOut _ _ _ _ =>
      if tokenIn.same tokenOut then .error .assertionError else .ok amounts

/-- The amounts of a V2 swap, in the order of the pool's tokens. -/
def uniswapV2Amounts (pool : LiquidityPool) (vector : SwapVector) (tokenIn tokenOut : ℤ) :
    SwapAmount :=
  .uniswapV2 pool.address (if vector.zeroForOne then (tokenIn, 0) else (0, tokenIn))
    (if vector.zeroForOne then (0, tokenOut) else (tokenOut, 0))

def sqrtPriceLimit (zeroForOne : Bool) : ℤ :=
  if zeroForOne then minSqrtRatio + 1 else maxSqrtRatio - 1

def uniswapV3Amounts (pool : LiquidityPool) (vector : SwapVector) (tokenIn tokenOut : ℤ) :
    SwapAmount :=
  .uniswapV3 pool.address tokenIn tokenOut tokenIn vector.zeroForOne
    (sqrtPriceLimit vector.zeroForOne)

def uniswapV4Amounts (pool : LiquidityPool) (vector : SwapVector) (tokenIn tokenOut : ℤ) :
    SwapAmount :=
  .uniswapV4 pool.address pool.poolId tokenIn tokenOut tokenIn vector.zeroForOne
    (sqrtPriceLimit vector.zeroForOne)

/-- `except LiquidityPoolError as exc: raise ArbitrageError(message=str(exc))` -/
def raiseArbitrageError {α : Type} : Except Exn α → Except Exn α
  | .error (.liquidityPoolError message) => .error (.arbitrageError message)
  | .error .invalidSwapInputAmount => .error (.arbitrageError "The swap input is invalid.")
  | .error (.liquidityMapWordMissing word) | .error (.missingLiquidityData word) =>
      .error (.arbitrageError ("Word " ++ toString word ++ " is unknown."))
  | .error (.incompleteSwap amountIn amountOut) =>
      .error (.arbitrageError ("(" ++ toString amountIn ++ ", " ++ toString amountOut ++ ")"))
  | outcome => outcome

/-! ## Payloads -/

/-- The function and the arguments of an encoded call; the last argument of both `swap`
functions is empty. -/
inductive Calldata where
  | transfer (recipient : ℕ) (amount : ℤ)
  | approve (spender : ℕ) (amount : ℤ)
  | swapV2 (amount0Out amount1Out : ℤ) (recipient : ℕ)
  | swapV3 (recipient : ℕ) (zeroForOne : Bool) (amountSpecified sqrtPriceLimitX96 : ℤ)
  | exchange (i j dx minDy : ℤ)
  | exchangeUnderlying (i j dx minDy : ℤ)
deriving DecidableEq

def isUint256 (n : ℤ) : Bool := 0 ≤ n ∧ n ≤ maxUint256
def isInt256 (n : ℤ) : Bool := minInt256 ≤ n ∧ n ≤ maxInt256
def isInt128 (n : ℤ) : Bool := minInt128 ≤ n ∧ n ≤ maxInt128
def isUint160 (n : ℤ) : Bool := 0 ≤ n ∧ n ≤ maxUint160

/-- The arguments are in the ranges of their ABI types. -/
def Calldata.encodes : Calldata → Bool
  | .transfer _ amount | .approve _ amount => isUint256 amount
  | .swapV2 amount0Out amount1Out _ => isUint256 amount0Out && isUint256 amount1Out
  | .swapV3 _ _ amountSpecified limit => isInt256 amountSpecified && isUint160 limit
  | .exchange i j dx minDy | .exchangeUnderlying i j dx minDy =>
      isInt128 i && isInt128 j && isUint256 dx && isUint256 minDy

/-- A call to an address, or the `V4PoolKey` of a V4 pool, less its fee, tick spacing and
hooks. -/
inductive Payload where
  | call (address : ℕ) (calldata : Calldata) (msgValue : ℕ)
  | v4PoolKey (currency0 currency1 : ℕ)
deriving DecidableEq

/-- `(address, selector + eth_abi.abi.encode(types, args), msg_value)` -/
def encodeCall (address : ℕ) (calldata : Calldata) : Except Exn Payload :=
  if calldata.encodes then .ok (.call address calldata 0)
  else .error (.valueError "value out of bounds")

/-- `for i, (swap_pool, amounts) in enumerate(zip(swap_pools, pool_swap_amounts, strict=True))`,
with the next pool of the path. -/
def payloadsFrom {P : Type} (hop : ℕ → P → Option P → SwapAmount → Except Exn (List Payload)) :
    ℕ → List P → List SwapAmount → Except Exn (List Payload)
  | _, [], [] => .ok []
  | i, pool :: pools, amounts :: rest => do
      let here ← hop i pool pools.head? amounts
      let later ← payloadsFrom hop (i + 1) pools rest
      .ok (here ++ later)
  | _, [], _ :: _ => .error (.valueError "zip() argument 2 is longer than argument 1")
  | _, _ :: _, [] => .error (.valueError "zip() argument 2 is shorter than argument 1")

/-! ## `uniswap_lp_cycle.py` -/

namespace UniswapLpCycle

/-- What each pool quotes for an input of one of its tokens. -/
abbrev Quotes := LiquidityPool → Erc20Token → ℤ → Except Exn ℤ

/-- The loop of `_build_swap_amounts`. A pool of no named class adds nothing and hands on
the last output. -/
def buildSwapAmounts (quotes : Quotes) :
    ℤ → ℤ → List LiquidityPool → List SwapVector → Except Exn (List SwapAmount)
  | _, _, [], [] => .ok []
  | tokenOutQuantity, tokenInQuantity, pool :: pools, vector :: vectors =>
      let add (amounts : ℤ → SwapAmount) : Except Exn (List SwapAmount) := do
        let quantity ← raiseArbitrageError (quotes pool vector.tokenIn tokenInQuantity)
        let amounts ← (amounts quantity).validate
        let rest ← buildSwapAmounts quotes quantity quantity pools vectors
        .ok (amounts :: rest)
      if tokenInQuantity = 0 then
        .error (.arbitrageError "A swap would result in an output of zero.")
      else match pool.kind with
        | .aerodromeV2 | .uniswapV2 => add (uniswapV2Amounts pool vector tokenInQuantity)
        | .uniswapV3 | .aerodromeV3 => add (uniswapV3Amounts pool vector tokenInQuantity)
        | .uniswapV4 => add (uniswapV4Amounts pool vector tokenInQuantity)
        | .other _ _ => buildSwapAmounts quotes tokenOutQuantity tokenOutQuantity pools vectors
  | _, _, [], _ :: _ => .error (.valueError "zip() argument 2 is longer than argument 1")
  | _, _, _ :: _, [] => .error (.valueError "zip() argument 2 is shorter than argument 1")

/-- A V2 pool that comes next receives the output directly. -/
def destination (fromAddress : ℕ) : Option LiquidityPool → ℕ
  | some next => if next.kind.isV2 then next.address else fromAddress
  | none => fromAddress

/-- The payloads for one pool. Tokens are transferred to a first V2 pool before its swap. -/
def hopPayloads (inputToken : Erc20Token) (fromAddress : ℕ) (swapAmount : ℤ) (i : ℕ)
    (swapPool : LiquidityPool) (next : Option LiquidityPool) (amounts : SwapAmount) :
    Except Exn (List Payload) :=
  let recipient := destination fromAddress next
  match swapPool.kind, amounts with
  | .aerodromeV2, .uniswapV2 _ _ amountsOut | .uniswapV2, .uniswapV2 _ _ amountsOut =>
      if i = 0 then do
        let transfer ← encodeCall inputToken.address (.transfer swapPool.address swapAmount)
        let swap ← encodeCall swapPool.address (.swapV2 amountsOut.1 amountsOut.2 recipient)
        .ok [transfer, swap]
      else do
        let swap ← encodeCall swapPool.address (.swapV2 amountsOut.1 amountsOut.2 recipient)
        .ok [swap]
  | .uniswapV3, .uniswapV3 _ _ _ amountSpecified zeroForOne limit
  | .aerodromeV3, .uniswapV3 _ _ _ amountSpecified zeroForOne limit => do
      let swap ← encodeCall swapPool.address (.swapV3 recipient zeroForOne amountSpecified limit)
      .ok [swap]
  | .uniswapV4, .uniswapV4 .. =>
      .ok [.v4PoolKey swapPool.token0.address swapPool.token1.address]
  | _, _ => .error (.degenbotValueError "Could not identify pool and swap amounts.")

def generatePayloads (inputToken : Erc20Token) (swapPools : List LiquidityPool) (fromAddress : ℕ)
    (swapAmount : ℤ) (poolSwapAmounts : List SwapAmount) : Except Exn (List Payload) :=
  payloadsFrom (hopPayloads inputToken fromAddress swapAmount) 0 swapPools poolSwapAmounts

end UniswapLpCycle

/-! ## `uniswap_curve_cycle.py` -/

namespace UniswapCurveCycle

/-- The quotes of the pools of a path, and the discount `int(factor * quote)`. -/
structure Quotes where
  uniswap : LiquidityPool → Erc20Token → ℤ → Except Exn ℤ
  curve : CurvePathPool → Erc20Token → Erc20Token → ℤ → Except Exn ℤ
  discount : ℤ → ℤ

def zeroOutput (address : ℕ) : Exn :=
  .arbitrageError ("Zero-output swap through pool @ " ++ toString address)

def indexOf (tokens : List Erc20Token) (token : Erc20Token) : Except Exn ℕ :=
  match tokens.findIdx? (·.same token) with
  | none => .error (.valueError "tuple.index(x): x not in tuple")
  | some index => .ok index

/-- The output and the amounts of one swap. -/
def hopAmounts (quotes : Quotes) (pool : CurveOrUniswapPool) (vector : CurveOrUniswapVector)
    (tokenIn : ℤ) : Except Exn (ℤ × SwapAmount) :=
  let quoted (amounts : LiquidityPool → SwapVector → ℤ → ℤ → SwapAmount) (pool : LiquidityPool)
      (vector : SwapVector) : Except Exn (ℤ × SwapAmount) := do
    let tokenOut ← quotes.uniswap pool vector.tokenIn tokenIn
    if tokenOut = 0 then .error (zeroOutput pool.address)
    else do
      let amounts ← (amounts pool vector tokenIn tokenOut).validate
      .ok (tokenOut, amounts)
  match pool, vector with
  | .uniswap pool, .uniswap vector =>
      if pool.kind.isUniswapV2 then quoted uniswapV2Amounts pool vector
      else if pool.kind.isV3 then quoted uniswapV3Amounts pool vector
      else .error (.degenbotValueError "Could not process pool and override")
  | .curve pool, .curve vectorIn vectorOut => do
      let quote ← quotes.curve pool vectorIn vectorOut tokenIn
      if quotes.discount quote = 0 then .error (zeroOutput pool.address)
      else do
        let tokenInIndex ← indexOf pool.tokens vectorIn
        let tokenOutIndex ← indexOf pool.tokens vectorOut
        let amounts ← (SwapAmount.curve vectorIn tokenInIndex vectorOut tokenOutIndex tokenIn
          (quotes.discount quote) (pool.hasBasePool && (pool.tokensUnderlying.any (·.same vectorIn) ||
            pool.tokensUnderlying.any (·.same vectorOut)))).validate
        .ok (quotes.discount quote, amounts)
  | _, _ => .error (.degenbotValueError "Could not process pool and override")

/-- The loop of `_build_swap_amounts`. -/
def buildSwapAmounts (quotes : Quotes) : ℤ → List CurveOrUniswapPool →
    List CurveOrUniswapVector → Except Exn (List SwapAmount)
  | _, [], [] => .ok []
  | tokenIn, pool :: pools, vector :: vectors =>
      if tokenIn = 0 then .error (.arbitrageError "Zero amount swap")
      else do
        let (tokenOut, amounts) ← raiseArbitrageError (hopAmounts quotes pool vector tokenIn)
        let rest ← buildSwapAmounts quotes tokenOut pools vectors
        .ok (amounts :: rest)
  | _, [], _ :: _ => .error (.valueError "zip() argument 2 is longer than argument 1")
  | _, _ :: _, [] => .error (.valueError "zip() argument 2 is shorter than argument 1")

/-- The sending address keeps what goes to a V3 or Curve pool next, and the last output. -/
def destination (fromAddress : ℕ) : Option CurveOrUniswapPool → Except Exn ℕ
  | some (.uniswap next) =>
      if next.kind.isUniswapV2 then .ok next.address
      else if next.kind.isV3 then .ok fromAddress
      else .error (.degenbotValueError "Unknown pool type")
  | some (.curve _) => .ok fromAddress
  | none => .ok fromAddress

/-- The allowance that a Curve swap asks for, when the current one is too small. -/
def amountToApprove (infiniteApproval : Bool) (currentApproval amountIn : ℤ) : Option ℤ :=
  if infiniteApproval ∧ currentApproval ≠ maxUint256 then some maxUint256
  else if ¬infiniteApproval ∧ currentApproval < amountIn then some amountIn
  else none

/-- The arguments of `generate_payloads` that every pool reads, and the allowances that the
sending address has given. -/
structure Sender where
  inputToken : Erc20Token
  fromAddress : ℕ
  swapAmount : ℤ
  infiniteApproval : Bool
  getApproval : Erc20Token → ℕ → ℤ

/-- Approval, exchange and, to a V2 pool that comes next, transfer. -/
def curvePayloads (sender : Sender) (swapPool : CurvePathPool)
    (next : Option CurveOrUniswapPool) (tokenIn : Erc20Token) (tokenInIndex : ℕ)
    (tokenOut : Erc20Token) (tokenOutIndex : ℕ) (amountIn minAmountOut : ℤ) (underlying : Bool) :
    Except Exn (List Payload) := do
  let approval ← (amountToApprove sender.infiniteApproval
      (sender.getApproval tokenIn swapPool.address) amountIn).toList.mapM fun amount =>
    encodeCall tokenIn.address (.approve swapPool.address amount)
  let exchange ← encodeCall swapPool.address (if underlying then
      .exchangeUnderlying tokenInIndex tokenOutIndex amountIn minAmountOut
    else .exchange tokenInIndex tokenOutIndex amountIn minAmountOut)
  let transfer ← (match next with
    | some (.uniswap next) => if next.kind.isUniswapV2 then [next.address] else []
    | _ => []).mapM fun address =>
      encodeCall tokenOut.address (.transfer address minAmountOut)
  .ok (approval ++ exchange :: transfer)

/-- The payloads for one pool. The first case takes a first pool of type V2. -/
def hopPayloads (sender : Sender) (i : ℕ) (swapPool : CurveOrUniswapPool)
    (next : Option CurveOrUniswapPool) (amounts : SwapAmount) : Except Exn (List Payload) := do
  let recipient ← destination sender.fromAddress next
  match swapPool, amounts with
  | .uniswap pool, amounts =>
      if i = 0 ∧ pool.kind.isUniswapV2 then do
        let transfer ← encodeCall sender.inputToken.address (.transfer pool.address sender.swapAmount)
        .ok [transfer]
      else match pool.kind, amounts with
        | .uniswapV2, .uniswapV2 _ _ amountsOut => do
            let swap ← encodeCall pool.address (.swapV2 amountsOut.1 amountsOut.2 recipient)
            .ok [swap]
        | .uniswapV3, .uniswapV3 _ _ _ amountSpecified zeroForOne limit
        | .aerodromeV3, .uniswapV3 _ _ _ amountSpecified zeroForOne limit => do
            let swap ← encodeCall pool.address (.swapV3 recipient zeroForOne amountSpecified limit)
            .ok [swap]
        | _, _ => .error (.degenbotValueError "Could not identify pool and amounts")
  | .curve pool, .curve tokenIn tokenInIndex tokenOut tokenOutIndex amountIn minAmountOut
      underlying =>
      curvePayloads sender pool next tokenIn tokenInIndex tokenOut tokenOutIndex amountIn
        minAmountOut underlying
  | _, _ => .error (.degenbotValueError "Could not identify pool and amounts")

def generatePayloads (sender : Sender) (swapPools : List CurveOrUniswapPool)
    (poolSwapAmounts : List SwapAmount) : Except Exn (List Payload) :=
  payloadsFrom (hopPayloads sender) 0 swapPools poolSwapAmounts

end UniswapCurveCycle

end Degenbot
