import Degenbot.Algorithm.Types

/-! # `arbitrage/`: swap vectors of a path

The constructors of `UniswapLpCycle` and `ArbitragePath`. What they ask of a pool beside
its tokens, whether a swap is viable and its hop state, is a parameter. -/

namespace Degenbot

/-! ## Pools and vectors -/

/-- The class of a pool; `UniswapLpCycle` accepts the five named ones. -/
inductive PoolKind where
  | aerodromeV2
  | aerodromeV3
  | uniswapV2
  | uniswapV3
  | uniswapV4
  | other (typeName typeRepr : String)
deriving DecidableEq

def PoolKind.typeName : PoolKind → String
  | .aerodromeV2 => "AerodromeV2Pool"
  | .aerodromeV3 => "AerodromeV3Pool"
  | .uniswapV2 => "UniswapV2Pool"
  | .uniswapV3 => "UniswapV3Pool"
  | .uniswapV4 => "UniswapV4Pool"
  | .other typeName _ => typeName

/-- A pool of two tokens on its chain. A V4 pool is told apart by its id as well. -/
structure LiquidityPool where
  kind : PoolKind
  address : ℕ
  poolId : Option ℕ
  chainId : ℕ
  token0 : Erc20Token
  token1 : Erc20Token
  token0_chain : token0.chainId = chainId
  token1_chain : token1.chainId = chainId

namespace LiquidityPool

/-- `__eq__` and `__hash__`. -/
def key (pool : LiquidityPool) : ℕ × Option ℕ := (pool.address, pool.poolId)

/-- `address in pool.tokens`. -/
def holds (pool : LiquidityPool) (address : ℕ) : Bool :=
  pool.token0.address = address ∨ pool.token1.address = address

end LiquidityPool

structure SwapVector where
  tokenIn : Erc20Token
  tokenOut : Erc20Token
  zeroForOne : Bool

/-- `UniswapPoolSwapVector` checks its tokens. -/
def uniswapPoolSwapVector (tokenIn tokenOut : Erc20Token) (zeroForOne : Bool) :
    Except Exn SwapVector :=
  if tokenIn.same tokenOut then .error .assertionError else .ok ⟨tokenIn, tokenOut, zeroForOne⟩

/-! ## `uniswap_lp_cycle.py` -/

structure UniswapLpCycle where
  inputToken : Erc20Token
  swapPools : List LiquidityPool
  maxInput : ℤ
  swapVectors : List SwapVector
  poolViability : List Bool

namespace UniswapLpCycle

def validatePools (pools : List LiquidityPool) : Except Exn Unit :=
  if ¬(pools.map LiquidityPool.key).Nodup then
    .error (.degenbotValueError "Swap pools must not contain duplicates.")
  else pools.forM fun pool =>
    match pool.kind with
    | .other _ typeRepr => .error (.degenbotValueError
        ("Incompatible pool type (" ++ typeRepr ++ ") provided."))
    | _ => .ok ()

/-- The `match` on the input token of one pool. Both guarded cases look up the wrapped
native token of the chain first. -/
def swapVector (inputToken : Erc20Token) (pool : LiquidityPool) : Except Exn SwapVector :=
  if inputToken.same pool.token0 then
    uniswapPoolSwapVector pool.token0 pool.token1 (pool.token0.same inputToken)
  else if inputToken.same pool.token1 then
    uniswapPoolSwapVector pool.token1 pool.token0 (pool.token0.same inputToken)
  else match wrappedNativeTokens pool.chainId with
    | none => .error .keyError
    | some wrappedNativeToken =>
        if inputToken.isEther ∧ pool.holds wrappedNativeToken then
          uniswapPoolSwapVector
            (if pool.token0.address = wrappedNativeToken then pool.token0 else pool.token1)
            (if pool.token0.address = wrappedNativeToken then pool.token1 else pool.token0)
            (pool.token0.address = wrappedNativeToken)
        else if inputToken.address = wrappedNativeToken ∧ pool.holds zeroAddress then
          uniswapPoolSwapVector
            (if pool.token0.address = zeroAddress then pool.token0 else pool.token1)
            (if pool.token0.address = zeroAddress then pool.token1 else pool.token0)
            (pool.token1.address = zeroAddress)
        else .error (.degenbotValueError ("Token " ++ inputToken.symbol ++
          " could not be matched. Pool holds " ++ pool.token0.symbol ++ " & " ++
          pool.token1.symbol))

/-- Each pool after the first takes the output token of the previous vector. -/
def buildSwapVectors : Erc20Token → List LiquidityPool → Except Exn (List SwapVector)
  | _, [] => .ok []
  | inputToken, pool :: pools => do
      let vector ← swapVector inputToken pool
      let vectors ← buildSwapVectors vector.tokenOut pools
      .ok (vector :: vectors)

/-- The default maximum input is 100 WETH. -/
def checkMaxInput : Option ℤ → Except Exn ℤ
  | none => .ok (100 * 10 ^ 18)
  | some maxInput =>
      if maxInput ≤ 0 then .error (.degenbotValueError "Maximum input must be positive.")
      else .ok maxInput

def init (poolIsViable : LiquidityPool → SwapVector → Except Exn Bool) (inputToken : Erc20Token)
    (swapPools : List LiquidityPool) (maxInput : Option ℤ) : Except Exn UniswapLpCycle := do
  validatePools swapPools
  let maxInput ← checkMaxInput maxInput
  let swapVectors ← buildSwapVectors inputToken swapPools
  let poolViability ← (swapPools.zip swapVectors).mapM fun hop => poolIsViable hop.1 hop.2
  .ok ⟨inputToken, swapPools, maxInput, swapVectors, poolViability⟩

end UniswapLpCycle

/-! ## `arbitrage_path.py` -/

/-- `PoolCompatibility`; no check produces its third member. -/
inductive PoolCompatibility where
  | compatible
  | incompatibleInvariant
deriving DecidableEq

structure ArbitragePath (Hop : Type) where
  pools : List LiquidityPool
  inputToken : Erc20Token
  maxInput : Option ℤ
  swapVectors : List SwapVector
  hopStates : List Hop

namespace ArbitragePath

variable {Hop : Type}

def checkPoolCompatibility (toHopState : LiquidityPool → Bool → Except Exn Hop)
    (pool : LiquidityPool) : Except Exn PoolCompatibility :=
  match toHopState pool true with
  | .error .incompatiblePoolInvariant => .ok .incompatibleInvariant
  | .error (.typeError _) => .ok .incompatibleInvariant
  | .error (.attributeError _) => .ok .incompatibleInvariant
  | .error e => .error e
  | .ok _ => .ok .compatible

def checkCompatible (toHopState : LiquidityPool → Bool → Except Exn Hop) (i : ℕ)
    (pool : LiquidityPool) : Except Exn Unit := do
  let compat ← checkPoolCompatibility toHopState pool
  match compat with
  | .compatible => .ok ()
  | .incompatibleInvariant => .error (.pathValidationError ("Pool " ++ toString i ++ " (" ++
      pool.kind.typeName ++ ") is not Mobius-compatible: 2"))

/-- The tokens through which the path enters and leaves each pool. -/
def chainTokens (allPools : List LiquidityPool) :
    Erc20Token → List LiquidityPool → Except Exn (List (Erc20Token × Erc20Token))
  | _, [] => .ok []
  | current, pool :: pools =>
      if tokensEquivalent current pool.token0 then do
        let tokens ← chainTokens allPools pool.token1 pools
        .ok ((pool.token0, pool.token1) :: tokens)
      else if tokensEquivalent current pool.token1 then do
        let tokens ← chainTokens allPools pool.token0 pools
        .ok ((pool.token1, pool.token0) :: tokens)
      else .error (.pathValidationError ("Token chain broken at pool " ++
        toString (allPools.findIdx (·.key = pool.key)) ++ ": expected input " ++
        current.symbol ++ ", pool has " ++ pool.token0.symbol ++ "/" ++ pool.token1.symbol))

def validatePools (toHopState : LiquidityPool → Bool → Except Exn Hop)
    (pools : List LiquidityPool) (inputToken : Erc20Token) : Except Exn Unit := do
  pools.zipIdx.forM fun hop => checkCompatible toHopState hop.2 hop.1
  let tokens ← chainTokens pools inputToken pools
  match tokens.getLast? with
  | none => .error .indexError
  | some (_, finalOutput) =>
      if ¬tokensEquivalent finalOutput inputToken then
        .error (.pathValidationError ("Path is not cyclic: starts with " ++ inputToken.symbol ++
          ", ends with " ++ finalOutput.symbol))
      else .ok ()

def buildSwapVectors : Erc20Token → List LiquidityPool → List SwapVector
  | _, [] => []
  | current, pool :: pools =>
      let zeroForOne := tokensEquivalent current pool.token0
      let tokenOut := if zeroForOne then pool.token1 else pool.token0
      ⟨current, tokenOut, zeroForOne⟩ :: buildSwapVectors tokenOut pools

def init (toHopState : LiquidityPool → Bool → Except Exn Hop) (pools : List LiquidityPool)
    (inputToken : Erc20Token) (maxInput : Option ℤ) : Except Exn (ArbitragePath Hop) :=
  if pools.length < 2 then
    .error (.pathValidationError "Arbitrage path requires at least 2 pools")
  else do
    validatePools toHopState pools inputToken
    let swapVectors := buildSwapVectors inputToken pools
    let hopStates ← (pools.zip swapVectors).mapM fun hop => toHopState hop.1 hop.2.zeroForOne
    .ok ⟨pools, inputToken, maxInput, swapVectors, hopStates⟩

end ArbitragePath

end Degenbot
