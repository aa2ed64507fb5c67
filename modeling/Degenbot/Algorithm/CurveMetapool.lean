import Degenbot.Algorithm.CurveStableswap

/-! # `curve/curve_stableswap_liquidity_pool.py`: metapools

A metapool trades one coin against the LP token of its base pool, and through it against the
coins of the base pool. -/

namespace Degenbot.Curve

open Library

/-- `xs[i] = x` -/
def setItem (xs : List ℤ) (i : ℕ) (x : ℤ) : Except Exn (List ℤ) :=
  if i < xs.length then .ok (xs.set i x) else .error .indexError

namespace Contract

variable (contract : Contract)

/-- `calc_token_amount` at the balances of the override, or the cached ones. -/
def calcTokenAmount (poolBalances amounts : List ℤ) (deposit : Bool) (blockIdentifier : Option ℕ) :
    Except Exn ℤ := do
  let block ← contract.blockNumber blockIdentifier
  let xp0 ← xp contract.rateMultipliers poolBalances
  let amp ← contract.aAtBlock block
  let d0 ← contract.getD xp0 amp
  let changed ← (List.range contract.nCoins).foldlM (fun balances i => do
    let balance ← item balances i
    let amount ← item amounts i
    .ok (balances.set i (if deposit then balance + amount else balance - amount))) poolBalances
  let xp1 ← xp contract.rateMultipliers changed
  let d1 ← contract.getD xp1 amp
  let tokenAmount ← contract.chain.totalSupply block
  let diff := if deposit then d1 - d0 else d0 - d1
  floorDivide (diff * tokenAmount) d0

/-- `calc_withdraw_one_coin`. It takes no override; `balances` are the cached ones. -/
def calcWithdrawOneCoin (balances : List ℤ) (tokenAmount : ℤ) (i : ℕ) (blockIdentifier : Option ℕ) :
    Except Exn (ℤ × ℤ × ℤ) := do
  let block ← contract.blockNumber blockIdentifier
  let n : ℤ := contract.nCoins
  let amp ← contract.aAtBlock block
  let totalSupply ← contract.chain.totalSupply block
  let xp ← xp contract.rateMultipliers balances
  let d0 ← contract.getD xp amp
  let burned ← floorDivide (tokenAmount * d0) totalSupply
  let d1 := d0 - burned
  let newY ← contract.getYD amp i xp d1
  let xpi ← item xp i
  let precision ← item contract.precisionMultipliers i
  let dy0 ← floorDivide (xpi - newY) precision
  let fee ← floorDivide (contract.fee * n) (4 * (n - 1))
  let xpReduced ← (List.range contract.nCoins).foldlM (fun reduced j => do
    let xpj ← item xp j
    let kept ← floorDivide (xpj * d1) d0
    let dxExpected := if j = i then kept - newY else xpj - kept
    let reducedJ ← item reduced j
    .ok (reduced.set j (reducedJ - (fee * dxExpected).fdiv feeDenominator))) xp
  let reducedI ← item xpReduced i
  let y ← contract.getYD amp i xpReduced d1
  let dy ← floorDivide (reducedI - y - 1) precision
  .ok (dy, dy0 - dy, totalSupply)

end Contract

/-! ## Pools and states -/

/-- A metapool holds the LP token of its base pool at index 1. -/
structure Metapool where
  contract : Contract
  base : Contract
  variant : MetaVariant
  isMetapool : contract.metapool = some variant
  coins : contract.nCoins = 2

/-- `CurveStableswapPoolState`, less its address and block. `base` is the state of the base pool,
whose own `base` is not read. -/
structure PoolState where
  balances : List ℤ
  base : Option (List ℤ)

/-- The cached balances of a pool object and of its base pool. -/
structure Cached (pool : Metapool) where
  balances : List ℤ
  baseBalances : List ℤ
  length : balances.length = pool.contract.nCoins
  baseLength : baseBalances.length = pool.base.nCoins

/-- The exceptions of `calculate_tokens_out_from_tokens_in`. The calculations below it raise no
`NoLiquidity`. -/
inductive SwapError where
  | noLiquidity (message : String)
  | raised (exn : Exn)
deriving DecidableEq

namespace Metapool

variable (pool : Metapool) (cached : Cached pool) (overrideState : Option PoolState)

def poolBalances : List ℤ :=
  match overrideState with
  | none => cached.balances
  | some state => state.balances

/-- The balances with which the base pool is called: those of `override_state.base`, or its own. -/
def basePoolBalances : List ℤ :=
  match overrideState with
  | some { base := some balances, .. } => balances
  | _ => cached.baseBalances

def tokensUnderlying : List Erc20Token := pool.contract.tokens.take 1 ++ pool.base.tokens

def maxCoin : ℕ := pool.contract.nCoins - 1

/-! ## `_get_dy_underlying` -/

/-- The LP tokens for a deposit of one coin of the base pool, at the virtual price. -/
def depositedValue (baseI : ℕ) (dx vpRate : ℤ) (block : ℕ) : Except Exn ℤ := do
  let baseInputs ← setItem (List.replicate pool.base.nCoins 0) baseI dx
  let amount ← pool.base.calcTokenAmount (pool.basePoolBalances cached overrideState) baseInputs true
    (some block)
  let x := (amount * vpRate).fdiv precision
  .ok (x - (x * pool.base.fee).fdiv (2 * feeDenominator))

/-- The common steps of the branches. `amountIn` is the input of a coin of the metapool in the
units of `xp`, `scaleOut` brings the output back from them. With two coins the tests `i != 0` and
`base_i >= 0` are the same. -/
def dyUnderlying (xp : List ℤ) (vpRate : ℤ) (i j : ℕ) (dx : ℤ) (amountIn : Except Exn ℤ)
    (scaleOut : ℤ → Except Exn ℤ) (block : ℕ) (baseBlock : Option ℕ) : Except Exn ℤ :=
  let maxCoin := pool.maxCoin
  if i ≥ maxCoin ∧ j ≥ maxCoin then
    pool.base.getDy (pool.basePoolBalances cached overrideState) (i - maxCoin) (j - maxCoin) dx
      baseBlock
  else do
    let x ← (if i < maxCoin then do
        let xpi ← item xp i
        let amount ← amountIn
        .ok (xpi + amount)
      else do
        let value ← pool.depositedValue cached overrideState (i - maxCoin) dx vpRate block
        let xpMax ← item xp maxCoin
        .ok (value + xpMax))
    let metaJ := min j maxCoin
    let y ← pool.contract.getY (min i maxCoin) metaJ x xp
    let xpj ← item xp metaJ
    let dy := pool.contract.chargeFee (xpj - y - 1)
    if j < maxCoin then scaleOut dy
    else do
      let tokenAmount ← floorDivide (dy * precision) vpRate
      let (dy, _) ← pool.base.calcWithdrawOneCoin cached.baseBalances tokenAmount (j - maxCoin)
        (some block)
      .ok dy

def getDyUnderlying (i j : ℕ) (dx : ℤ) (blockIdentifier : Option ℕ) : Except Exn ℤ := do
  let contract := pool.contract
  let block ← contract.blockNumber blockIdentifier
  let balances := pool.poolBalances cached overrideState
  match pool.variant with
  | .redemption => do
      let redemptionPrice ← contract.chain.scaledRedemptionPrice block
      let vpRate ← contract.chain.virtualPrice block
      let xp ← Contract.xp [redemptionPrice, vpRate] balances
      -- the base pool is called without the block
      pool.dyUnderlying cached overrideState xp vpRate i j dx
        (.ok ((dx * redemptionPrice).fdiv precision))
        (fun dy => floorDivide (dy * precision) redemptionPrice) block none
  | .precisionRate | .precisionUnderlying => do
      let vpRate ← contract.chain.virtualPrice block
      let xp ← Contract.xp [precision, vpRate] balances
      pool.dyUnderlying cached overrideState xp vpRate i j dx
        (.ok (dx * precision.fdiv (10 ^ 18)))
        (fun dy => floorDivide dy (precision.fdiv (10 ^ 18))) block (some block)
  | .default => do
      let vpRate ← contract.chain.virtualPrice block
      let workingRates ← setItem contract.rateMultipliers (contract.rateMultipliers.length - 1) vpRate
      let xp ← Contract.xp workingRates balances
      pool.dyUnderlying cached overrideState xp vpRate i j dx
        (do
          let multiplier ← item contract.precisionMultipliers i
          .ok (dx * multiplier))
        (fun dy => do
          let multiplier ← item contract.precisionMultipliers j
          floorDivide dy multiplier) block (some block)

/-! ## `calculate_tokens_out_from_tokens_in` -/

def contains (tokens : List Erc20Token) (token : Erc20Token) : Bool := tokens.any (·.same token)

/-- `tokens.index(token)` -/
def tokenIndex (tokens : List Erc20Token) (token : Erc20Token) : Except Exn ℕ :=
  if contains tokens token then .ok (tokens.findIdx (·.same token))
  else .error (.valueError "tuple.index(x): x not in tuple")

/-- `any(balance == 0 for balance in balances)` -/
def anyZero (balances : List ℤ) : Bool := balances.any (· = 0)

/-- The check of one token of the route, if the pool holds it. -/
def checkToken (tokens : List Erc20Token) (balances : List ℤ) (token : Erc20Token) :
    Except SwapError Unit :=
  if contains tokens token then
    match item balances (tokens.findIdx (·.same token)) with
    | .error e => .error (.raised e)
    | .ok balance =>
        if balance = 0 then .error (.noLiquidity (token.symbol ++ " has a zero balance."))
        else .ok ()
  else .ok ()

/-- An exception of a calculation is not caught. -/
def raising {α : Type} (x : Except Exn α) : Except SwapError α := x.mapError .raised

def noTokenLiquidity : SwapError := .noLiquidity "One or more of the tokens has a zero balance."

def noBaseLiquidity : SwapError :=
  .noLiquidity "One or more of the base pool tokens has a zero balance."

/-- The index that `_get_dy_underlying` takes for a token. -/
def routeIndex (token : Erc20Token) : Except Exn ℕ :=
  if contains pool.contract.tokens token then tokenIndex pool.contract.tokens token
  else tokenIndex pool.tokensUnderlying token

def calculateTokensOutFromTokensIn (tokenIn tokenOut : Erc20Token) (tokenInQuantity : ℤ)
    (blockIdentifier : Option ℕ) : Except SwapError ℤ := do
  let tokens := pool.contract.tokens
  let baseTokens := pool.base.tokens
  let block ← raising (pool.contract.blockNumber blockIdentifier)
  if tokenInQuantity ≤ 0 then .error (.raised .invalidSwapInputAmount)
  else if contains tokens tokenIn ∧ contains tokens tokenOut then
    if anyZero cached.balances then .error noTokenLiquidity
    else raising do
      let i ← tokenIndex tokens tokenIn
      let j ← tokenIndex tokens tokenOut
      pool.contract.getDy (pool.poolBalances cached overrideState) i j tokenInQuantity (some block)
  else if (contains tokens tokenIn ∨ contains tokens tokenOut) ∧
      (contains baseTokens tokenIn ∨ contains baseTokens tokenOut) then
    if anyZero cached.baseBalances then .error noBaseLiquidity
    else if anyZero cached.balances then .error noTokenLiquidity
    else do
      checkToken tokens cached.balances tokenIn
      checkToken tokens cached.balances tokenOut
      checkToken baseTokens cached.baseBalances tokenIn
      checkToken baseTokens cached.baseBalances tokenOut
      raising do
        let i ← pool.routeIndex tokenIn
        let j ← pool.routeIndex tokenOut
        pool.getDyUnderlying cached overrideState i j tokenInQuantity (some block)
  else if contains baseTokens tokenIn ∧ contains baseTokens tokenOut then
    raising do
      let i ← tokenIndex pool.tokensUnderlying tokenIn
      let j ← tokenIndex pool.tokensUnderlying tokenOut
      pool.getDyUnderlying cached overrideState i j tokenInQuantity (some block)
  else .error (.raised (.degenbotValueError "Tokens not held by pool or in underlying base pool"))

end Metapool

end Degenbot.Curve
