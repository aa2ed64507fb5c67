import Degenbot.Algorithm.PoolRegistry
import Degenbot.Algorithm.Simulation

/-! # `connection/ipc.py`: the simulator backed by the pool registry

The registry holds references to pools, and `pools` says which pool each reference stands
for. States are threaded between the steps of a path through a dictionary of overrides. -/

namespace Degenbot.Ipc

open Registry

/-! ## `adapters/ipc.py` -/

/-- `RECOGNIZED_DEX_KINDS`. -/
inductive DexKind where
  | uniswapV2
  | uniswapV3
  | uniswapV4
  | uniswapUniversalRouter
  | aggregatorV6
  | oneInchV6
  | zeroX
  | paraSwap
  | odos
  | kyberSwap
  | openOcean
  | sushiSwapV2
  | sushiSwapV3
  | pancakeSwapV2
  | pancakeSwapV3
  | camelotV2
  | camelotV3
  | camelotAlgebraV4
  | algebra
  | fraxSwap
  | aerodrome
  | curve
  | curveNG
  | balancerV2
  | balancerV3
  | dodoPmm
  | maverickV2
  | fluidDex
  | solidly
  | ramsesV2
  | kyberElastic
  | lfjLiquidityBook
  | gmxV2
  | wombat
  | morphoBlue
deriving DecidableEq

/-- `ADDRESS_KEYED_DEGENBOT_DEX_KINDS` -/
def addressKeyedDegenbotDexKinds : List DexKind :=
  [.uniswapV2, .uniswapV3, .sushiSwapV2, .sushiSwapV3, .pancakeSwapV2, .pancakeSwapV3, .camelotV2,
    .camelotV3, .aerodrome, .curve, .curveNG, .balancerV2, .dodoPmm, .solidly]

/-- `POOL_ID_REQUIRED_DEX_KINDS` -/
def poolIdRequiredDexKinds : List DexKind := [.uniswapV4]

/-! ## Pools -/

/-- A state that a simulation reported, as the dictionary holds it. -/
inductive StoredState where
  | reserves (state : ReservesState)
  | concentrated (state : OverrideState)

def StoredState.typeName : StoredState → String
  | .reserves _ => "UniswapV2PoolState"
  | .concentrated _ => "UniswapV3PoolState"

/-- `AttributeError` for a state of another pool class. -/
def StoredState.noAttribute (state : StoredState) (name : String) : Exn :=
  .attributeError ("'" ++ state.typeName ++ "' object has no attribute '" ++ name ++ "'")

/-- `CurveStableswapPool`. The amount out at a state is a parameter: `get_dy` reads rates and
balances in more than twenty ways. -/
structure CurveStableswapPool (State : Type) where
  tokens : List Erc20Token
  state : State
  getDy : State → Erc20Token → Erc20Token → ℤ → Except Exn ℤ

def CurveStableswapPool.calculateTokensOutFromTokensIn {State : Type}
    (pool : CurveStableswapPool State) (tokenIn tokenOut : Erc20Token) (tokenInQuantity : ℤ)
    (overrideState : Option StoredState) : Except Exn ℤ :=
  if tokenInQuantity ≤ 0 then .error .invalidSwapInputAmount
  else match overrideState with
    | some state => .error (state.noAttribute "balances")
    | none => pool.getDy pool.state tokenIn tokenOut tokenInQuantity

/-- `calculate_tokens_out_from_tokens_in` of the V3 pool. -/
def calculateV3 (pool : UniswapV3Pool) (provider : Provider) (attempts fuel : ℕ)
    (tokenIn : Erc20Token) (tokenInQuantity : ℤ) (overrideState : Option OverrideState) :
    Option (Except Exn ℤ) :=
  if ¬(tokenIn.same pool.token0 ∨ tokenIn.same pool.token1) then
    some (.error (.degenbotValueError "token_in not found!"))
  else
    let zeroForOne := tokenIn.same pool.token0
    (pool.calculateSwap provider attempts fuel zeroForOne tokenInQuantity
      (UniswapV3Pool.sqrtPriceLimit zeroForOne none) overrideState).map fun outcome =>
        (outcome.mapError revertToPoolError).bind fun swap =>
          let (amountIn, amountOut) := if zeroForOne then (swap.2.amount0, -swap.2.amount1)
            else (swap.2.amount1, -swap.2.amount0)
          if amountIn < tokenInQuantity then .error (.incompleteSwap amountIn amountOut)
          else .ok amountOut

/-- The pool classes, with the provider of each concentrated pool. -/
inductive PoolHelper (CurveState : Type) where
  | v2 (pool : UniswapV2Pool)
  | v3 (pool : UniswapV3Pool) (provider : Provider)
  | v4 (pool : UniswapV4Pool) (provider : Provider)
  | curve (pool : CurveStableswapPool CurveState)

namespace PoolHelper

variable {CurveState : Type}

/-- The attributes `token0`, `token1` and `tokens`, in the order of the search for a token. -/
def searchedTokens : PoolHelper CurveState → List Erc20Token
  | .v2 pool => [pool.token0, pool.token1]
  | .v3 pool _ => [pool.token0, pool.token1]
  | .v4 pool _ => [pool.token0, pool.token1]
  | .curve pool => pool.tokens

/-- `getattr(pool, "token0", None)` -/
def token0 : PoolHelper CurveState → Option Erc20Token
  | .v2 pool => some pool.token0
  | .v3 pool _ => some pool.token0
  | .v4 pool _ => some pool.token0
  | .curve _ => none

/-- The V2 pool reads the reserve of `token_in` first. -/
def reservesOverride (pool : UniswapV2Pool) (tokenIn : Erc20Token) (tokenInQuantity : ℤ) :
    Option StoredState → Except Exn (Option ReservesState)
  | none => .ok none
  | some (.reserves state) => .ok (some state)
  | some (.concentrated state) =>
      if tokenInQuantity ≤ 0 then .error .invalidSwapInputAmount
      else .error (StoredState.noAttribute (.concentrated state)
        (if tokenIn.same pool.token0 then "reserves_token0" else "reserves_token1"))

def concentratedOverride : Option StoredState → Except Exn (Option OverrideState)
  | none => .ok none
  | some (.concentrated state) => .ok (some state)
  | some (.reserves state) => .error (StoredState.noAttribute (.reserves state) "tick_data")

/-- `simulate_exact_input_swap`, for the pool classes that have it. -/
def simulateExactInputSwap (attempts fuel : ℕ) (tokenIn : Erc20Token) (tokenInQuantity : ℤ)
    (overrideState : Option StoredState) :
    PoolHelper CurveState → Option (Option (Except Exn (PoolSimulationResult StoredState)))
  | .v2 pool => some <| some do
      let overrideState ← reservesOverride pool tokenIn tokenInQuantity overrideState
      let result ← pool.simulateExactInputSwap tokenIn tokenInQuantity overrideState
      .ok ⟨result.amount0Delta, result.amount1Delta, .reserves result.initialState,
        .reserves result.finalState⟩
  | .v3 pool provider => some <|
      match concentratedOverride overrideState with
      | .error e => some (.error e)
      | .ok overrideState =>
          (pool.simulateExactInputSwap provider attempts fuel tokenIn tokenInQuantity none
            overrideState).map (·.map fun result =>
              ⟨result.amount0Delta, result.amount1Delta, .concentrated result.initialState,
                .concentrated result.finalState⟩)
  | .v4 _ _ => none
  | .curve _ => none

/-- The `TypeError` of a method that has no parameter `token_out`. -/
def unexpectedTokenOut : Exn := .typeError "got an unexpected keyword argument 'token_out'"

/-- `calculate_tokens_out_from_tokens_in`, with or without the keyword `token_out`. -/
def calculateTokensOutFromTokensIn (attempts fuel : ℕ) (tokenIn : Erc20Token)
    (tokenInQuantity : ℤ) (overrideState : Option StoredState) :
    PoolHelper CurveState → Option Erc20Token → Option (Except Exn ℤ)
  | .v2 _, some _ => some (.error unexpectedTokenOut)
  | .v2 pool, none => some do
      let overrideState ← reservesOverride pool tokenIn tokenInQuantity overrideState
      pool.calculateTokensOutFromTokensIn tokenIn tokenInQuantity overrideState
  | .v3 _ _, some _ => some (.error unexpectedTokenOut)
  | .v3 pool provider, none =>
      match concentratedOverride overrideState with
      | .error e => some (.error e)
      | .ok overrideState =>
          calculateV3 pool provider attempts fuel tokenIn tokenInQuantity overrideState
  | .v4 _ _, some _ => some (.error unexpectedTokenOut)
  | .v4 pool provider, none =>
      match concentratedOverride overrideState with
      | .error e => some (.error e)
      | .ok overrideState =>
          pool.calculateTokensOutFromTokensIn provider attempts fuel tokenIn tokenInQuantity
            overrideState
  | .curve pool, some tokenOut => some
      (pool.calculateTokensOutFromTokensIn tokenIn tokenOut tokenInQuantity overrideState)
  | .curve _, none => some (.error (.typeError
      "missing 1 required positional argument: 'token_out'"))

end PoolHelper

/-- A pool with what `__eq__` and `__hash__` of the V4 pools read. -/
structure HeldPool (Address PoolId CurveState : Type) where
  address : Address
  poolId : Option PoolId
  helper : PoolHelper CurveState

/-! ## Steps -/

/-- The wire `PoolKey`. -/
structure PoolKey (Address : Type) where
  currency0 : Address
  currency1 : Address
  fee : ℤ
  tickSpacing : ℤ
  hooks : Address
deriving DecidableEq

/-- The fields of a step that the simulator reads; the others are copied. -/
structure SwapStep (Address : Type) where
  pool : Address
  tokenIn : Address
  tokenOut : Address
  amountIn : ℤ
  amountOutMin : ℤ
  dex : DexKind
  poolKey : Option (PoolKey Address)
deriving DecidableEq

structure SimulationResult (Address : Type) where
  amountIn : ℤ
  amountOut : ℤ
  path : List (SwapStep Address)
deriving DecidableEq

/-- The reasons of a `SimulationUnavailableError`, and the exceptions that pass through. -/
inductive SimulationError (Address : Type) where
  | noEnabledAdapter (dex : DexKind)
  | requiresPoolKey (dex : DexKind)
  | multiplePoolManagers (dex : DexKind)
  | poolNotLoaded (pool : Address)
  | tokenNotInPool (token : Address)
  | simulationFailed (pool : Address) (exc : Exn)
  | invalidAmountOut (pool : Address)
  | amountOutBelowMin (amountOut amountOutMin : ℤ) (pool : Address)
  | raised (exc : Exn)
deriving DecidableEq

/-- `_amount_out_from_delta`; its error is caught by the handler of the pool's failures. -/
def amountOutFromDelta (result : PoolSimulationResult StoredState) (tokenOutIndex : ℕ) :
    Except Exn ℤ :=
  let delta := if tokenOutIndex = 1 then result.amount1Delta else result.amount0Delta
  if delta ≥ 0 then
    .error (.runtimeError "degenbot simulation did not produce negative output delta")
  else .ok (-delta)

/-! ## `RegistryBackedDegenbotSimulator` -/

/-- What the simulator runs on: the registry, the pools behind its references, and the
functions of texts. `attempts` and `fuel` bound the loops of the concentrated pools. -/
structure RegistryBackedDegenbotSimulator (Address PoolId CurveState : Type) where
  chainId : ℕ
  spell : Spellings Address PoolId
  /-- `str.lower` -/
  lower : Address → Address
  /-- The text of a token's address. -/
  tokenText : ℕ → Address
  /-- `_v4_pool_id_from_pool_key` -/
  v4PoolIdFromPoolKey : PoolKey Address → Except Exn PoolId
  poolRegistry : PoolRegistry Address PoolId ℕ
  pools : ℕ → HeldPool Address PoolId CurveState
  attempts : ℕ
  fuel : ℕ

namespace RegistryBackedDegenbotSimulator

variable {Address PoolId CurveState : Type} [DecidableEq Address] [DecidableEq PoolId]

/-- A computation that may run out of its budget. -/
abbrev Outcome (Address α : Type) := ExceptT (SimulationError Address) Option α

variable (simulator : RegistryBackedDegenbotSimulator Address PoolId CurveState)

/-- An exception that no handler of `_simulate_step` is around. -/
def uncaught {α : Type} : Except Exn α → Except (SimulationError Address) α :=
  Except.mapError .raised

/-- `_v4_registry_key_matches_pool_id` -/
def v4RegistryKeyMatchesPoolId (key : ℕ × Address × PoolId) (poolId : PoolId) : Bool :=
  decide (key.1 = simulator.chainId ∧ simulator.spell.hexBytes key.2.2 = .ok poolId)

/-- `dict.fromkeys`: the first of the pools that are equal. -/
def fromKeys : List ℕ → List ℕ
  | [] => []
  | reference :: rest => reference :: (fromKeys rest).filter fun other =>
      ¬((simulator.pools other).address = (simulator.pools reference).address ∧
        (simulator.pools other).poolId = (simulator.pools reference).poolId)

/-- The scan of the V4 registry for a pool id; the latest entry of a `Dict` comes first. -/
def scanPoolId (dex : DexKind) (poolId : PoolId) :
    Except (SimulationError Address) (Option ℕ) :=
  let candidates := simulator.poolRegistry.v4PoolRegistry.allV4Pools.entries.reverse.filter
    fun entry => simulator.v4RegistryKeyMatchesPoolId entry.1 poolId
  match simulator.fromKeys (candidates.map (·.2)) with
  | [] => .ok none
  | [reference] => .ok (some reference)
  | _ :: _ :: _ => .error (.multiplePoolManagers dex)

/-- `_resolve_registry_pool` -/
def resolveRegistryPool (step : SwapStep Address) :
    Except (SimulationError Address) (Option ℕ) :=
  if step.dex ∉ poolIdRequiredDexKinds then
    uncaught (simulator.poolRegistry.get simulator.spell simulator.chainId step.pool none)
  else match step.poolKey with
    | none => .error (.requiresPoolKey step.dex)
    | some poolKey => do
        let poolId ← uncaught (simulator.v4PoolIdFromPoolKey poolKey)
        let pool ← uncaught
          (simulator.poolRegistry.get simulator.spell simulator.chainId step.pool (some poolId))
        match pool with
        | some reference => .ok (some reference)
        | none => simulator.scanPoolId step.dex poolId

/-- `_resolve_pool_token` -/
def resolvePoolToken (helper : PoolHelper CurveState) (tokenAddress : Address) :
    Except (SimulationError Address) Erc20Token :=
  match helper.searchedTokens.find? fun token =>
    simulator.lower (simulator.tokenText token.address) = simulator.lower tokenAddress with
  | some token => .ok token
  | none => .error (.tokenNotInPool tokenAddress)

/-- The check at the end of `_simulate_step`. -/
def checkAmountOut (pool : Address) (amountOut : ℤ) : Except (SimulationError Address) ℤ :=
  if amountOut < 0 then .error (.invalidAmountOut pool) else .ok amountOut

/-- The handlers of `_simulate_step`: after a `TypeError` the amount is calculated without
`token_out`, and what this raises passes through. -/
def handle (helper : PoolHelper CurveState) (step : SwapStep Address) (tokenIn : Erc20Token)
    (overrideState : Option StoredState) : Exn → Option (Except (SimulationError Address) ℤ)
  | .typeError _ =>
      (helper.calculateTokensOutFromTokensIn simulator.attempts simulator.fuel tokenIn
        step.amountIn overrideState none).map fun outcome => do
          let amountOut ← uncaught outcome
          checkAmountOut step.pool amountOut
  | exc => some (.error (.simulationFailed step.pool exc))

/-- The body of the `try` statement with its handlers: the amount and the final state that
was reported, if any. -/
def swapStep (helper : PoolHelper CurveState) (step : SwapStep Address)
    (tokenIn tokenOut : Erc20Token) (overrideState : Option StoredState) :
    Option (Except (SimulationError Address) (ℤ × Option StoredState)) :=
  let handled (exc : Exn) :=
    (simulator.handle helper step tokenIn overrideState exc).map (·.map (·, none))
  match helper.simulateExactInputSwap simulator.attempts simulator.fuel tokenIn step.amountIn
    overrideState with
  | some none => none
  | some (some (.error exc)) => handled exc
  | some (some (.ok result)) =>
      let tokenOutIndex := if helper.token0.any (tokenOut.same ·) then 0 else 1
      match amountOutFromDelta result tokenOutIndex with
      | .error exc => handled exc
      | .ok amountOut => some (.ok (amountOut, some result.finalState))
  | none =>
      match helper.calculateTokensOutFromTokensIn simulator.attempts simulator.fuel tokenIn
        step.amountIn overrideState (some tokenOut) with
      | none => none
      | some (.error exc) => handled exc
      | some (.ok amountOut) => some ((checkAmountOut step.pool amountOut).map (·, none))

/-- `_simulate_step` -/
def simulateStep (step : SwapStep Address) (overrideStates : Dict Address StoredState) :
    Outcome Address (ℤ × Dict Address StoredState) := do
  let pool ← ExceptT.mk (some (simulator.resolveRegistryPool step))
  match pool with
  | none => throw (.poolNotLoaded step.pool)
  | some reference =>
      let helper := (simulator.pools reference).helper
      let tokenIn ← ExceptT.mk (some (simulator.resolvePoolToken helper step.tokenIn))
      let tokenOut ← ExceptT.mk (some (simulator.resolvePoolToken helper step.tokenOut))
      let key := simulator.lower step.pool
      let (amountOut, finalState) ← ExceptT.mk
        (simulator.swapStep helper step tokenIn tokenOut (overrideStates.lookup key))
      match finalState with
      | none => pure (amountOut, overrideStates)
      | some state => pure (amountOut, overrideStates.insert key state)

/-- The loop of `simulate_exact_input_path`: the last amount and the normalized steps. -/
def simulateSteps : List (SwapStep Address) → ℤ → Dict Address StoredState →
    Outcome Address (ℤ × List (SwapStep Address))
  | [], runningAmount, _ => pure (runningAmount, [])
  | rawStep :: path, runningAmount, overrideStates =>
      if rawStep.dex ∉ addressKeyedDegenbotDexKinds ∧ rawStep.dex ∉ poolIdRequiredDexKinds then
        throw (.noEnabledAdapter rawStep.dex)
      else do
        let step := { rawStep with amountIn := runningAmount }
        let (runningAmount, overrideStates) ← simulator.simulateStep step overrideStates
        if runningAmount < step.amountOutMin then
          throw (.amountOutBelowMin runningAmount step.amountOutMin step.pool)
        else do
          let (amountOut, normalizedSteps) ← simulateSteps path runningAmount overrideStates
          pure (amountOut, step :: normalizedSteps)

def simulateExactInputPath (path : List (SwapStep Address)) (amountIn : ℤ) :
    Outcome Address (SimulationResult Address) := do
  let (amountOut, normalizedSteps) ← simulator.simulateSteps path amountIn ∅
  pure ⟨amountIn, amountOut, normalizedSteps⟩

end RegistryBackedDegenbotSimulator

end Degenbot.Ipc
