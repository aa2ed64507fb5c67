import Degenbot.Algorithm.SolidlyStable
import Degenbot.Algorithm.TickRanges

/-! # Hops of the solver

The hop types and the two builders of `solver_hop_builders.py`. The virtual reserves of a
concentrated-liquidity pool are computed with floats and stand as a parameter. -/

namespace Degenbot

/-! ## `hop_types.py` -/

structure ConstantProductHop where
  reserveIn : ℤ
  reserveOut : ℤ
  fee : ℚ
  feeOut : Option ℚ

structure BoundedProductHop where
  reserveIn : ℤ
  reserveOut : ℤ
  fee : ℚ
  liquidity : ℤ
  sqrtPrice : ℤ
  tickLower : ℤ
  tickUpper : ℤ
  tickRanges : Option (List V3TickRangeInfo)
  currentRangeIndex : ℕ
  zeroForOne : Bool

structure SolidlyStableHop where
  reserveIn : ℤ
  reserveOut : ℤ
  fee : ℚ
  decimalsIn : ℕ
  decimalsOut : ℕ
  swapFn : Option (ℤ → Except Exn ℤ)

/-- The types that the builders return. -/
inductive HopType where
  | constantProduct (hop : ConstantProductHop)
  | boundedProduct (hop : BoundedProductHop)
  | solidlyStable (hop : SolidlyStableHop)

/-! ## `solver_hop_builders.py` -/

/-- The pools that the builders take. The fee of a V4 pool is that of its key. -/
inductive SolverPool where
  | v2 (pool : UniswapV2Pool)
  | aerodrome (pool : AerodromeV2Pool)
  | v3 (address : String) (pool : UniswapV3Pool)
  | v4 (address : String) (fee : ℤ) (pool : UniswapV4Pool)
  | camelot (pool : CamelotLiquidityPool)

/-- The states that a pool can be overridden with. -/
def SolverPool.State : SolverPool → Type
  | .v2 _ | .aerodrome _ | .camelot _ => ReservesState
  | .v3 _ _ | .v4 _ _ _ => OverrideState

/-- `pool.fee`, which `UniswapV2Pool` sets neither on the class nor on the instance. -/
def missingFee {α : Type} (className : String) : Except Exn α :=
  .error (.attributeError ("'" ++ className ++ "' object has no attribute 'fee'"))

/-- The reserves, in the direction of the swap. -/
def ReservesState.oriented (state : ReservesState) (zeroForOne : Bool) : ℤ × ℤ :=
  if zeroForOne then (state.reservesToken0, state.reservesToken1)
  else (state.reservesToken1, state.reservesToken0)

/-- `_aerodrome_stable_swap_fn`. -/
def aerodromeStableSwapFn (pool : AerodromeV2Pool) (zeroForOne : Bool) (amountIn : ℤ) :
    Except Exn ℤ :=
  calcExactInStable amountIn zeroForOne pool.state.reservesToken0 pool.state.reservesToken1
    (10 ^ pool.token0.decimals) (10 ^ pool.token1.decimals) pool.fee

/-- `get_y_camelot` as the generic quote calls it, with the decimals. -/
def getYCamelotCall (_x0 _xy _y _decimals0 _decimals1 : ℤ) : Except Exn ℤ :=
  .error (.typeError "get_y_camelot() takes 3 positional arguments but 5 were given")

/-- `_camelot_stable_swap_fn`, with the fee that it binds. -/
def camelotStableSwapFn (pool : CamelotLiquidityPool) (zeroForOne : Bool) (fee : ℚ)
    (amountIn : ℤ) : Except Exn ℤ :=
  generalCalcExactInStable kCamelot getYCamelotCall amountIn zeroForOne
    pool.state.reservesToken0 pool.state.reservesToken1 (10 ^ pool.token0.decimals)
    (10 ^ pool.token1.decimals) fee

/-- The `SolidlyStableHop` of a pool with the two tokens. -/
def solidlyStableHop (token0 token1 : Erc20Token) (state : ReservesState) (zeroForOne : Bool)
    (fee : ℚ) (swapFn : Option (ℤ → Except Exn ℤ)) : HopType :=
  .solidlyStable
    { reserveIn := (state.oriented zeroForOne).1
      reserveOut := (state.oriented zeroForOne).2
      fee
      decimalsIn := if zeroForOne then token0.decimals else token1.decimals
      decimalsOut := if zeroForOne then token1.decimals else token0.decimals
      swapFn }

def constantProductHop (state : ReservesState) (zeroForOne : Bool) (fee : ℚ)
    (feeOut : Option ℚ) : HopType :=
  .constantProduct ⟨(state.oriented zeroForOne).1, (state.oriented zeroForOne).2, fee, feeOut⟩

section Builders

-- `_v3_virtual_reserves`, of the liquidity, the price and the direction
variable (v3VirtualReserves : ℤ → ℤ → Bool → Except Exn (ℤ × ℤ))

/-- The branch that both builders repeat for V3 and V4 pools. The tick ranges are those of the
pool's own state. -/
def boundedProductHop (address : String) (pool : Pool) (fee liquidity sqrtPriceX96 tick : ℤ)
    (zeroForOne : Bool) (tickRangeCache : TickRangeCache) :
    Except Exn HopType × TickRangeCache :=
  match v3VirtualReserves liquidity sqrtPriceX96 zeroForOne with
  | .error e => (.error e, tickRangeCache)
  | .ok (reserveIn, reserveOut) =>
      let (tickRangesResult, tickRangeCache) :=
        getCachedTickRanges address pool tickRangeCache zeroForOne 3
      (tickRangesResult.map fun result => .boundedProduct
        { reserveIn
          reserveOut
          fee := fee / 1000000
          liquidity
          sqrtPrice := sqrtPriceX96
          tickLower := tick
          tickUpper := tick
          tickRanges := result.map (·.1)
          currentRangeIndex := result.elim 0 (·.2)
          zeroForOne }, tickRangeCache)

def poolToHop (pool : SolverPool) (inputToken : Erc20Token) (tickRangeCache : TickRangeCache) :
    Except Exn HopType × TickRangeCache :=
  match pool with
  | .camelot pool =>
      let zeroForOne := inputToken.same pool.token0
      let hop : Except Exn HopType :=
        if pool.stableSwap then do
          let fee ← missingFee (α := ℚ) "CamelotLiquidityPool"
          .ok (solidlyStableHop pool.token0 pool.token1 pool.state zeroForOne fee
            (some (camelotStableSwapFn pool zeroForOne fee)))
        else do
          let feeTuple ← missingFee (α := ℚ × ℚ) "CamelotLiquidityPool"
          .ok (constantProductHop pool.state zeroForOne
            (if zeroForOne then feeTuple.1 else feeTuple.2)
            (some (if zeroForOne then feeTuple.2 else feeTuple.1)))
      (hop, tickRangeCache)
  | .aerodrome pool =>
      let zeroForOne := inputToken.same pool.token0
      (.ok (if pool.stable then
          solidlyStableHop pool.token0 pool.token1 pool.state zeroForOne pool.fee
            (some (aerodromeStableSwapFn pool zeroForOne))
        else constantProductHop pool.state zeroForOne pool.fee none), tickRangeCache)
  | .v3 address pool =>
      boundedProductHop v3VirtualReserves address pool.toPool pool.fee pool.state.liquidity
        pool.state.sqrtPriceX96 pool.state.tick (inputToken.same pool.token0) tickRangeCache
  | .v4 address fee pool =>
      boundedProductHop v3VirtualReserves address pool.toPool fee pool.state.liquidity
        pool.state.sqrtPriceX96 pool.state.tick (inputToken.same pool.token0) tickRangeCache
  | .v2 pool =>
      (do
        let fee ← missingFee "UniswapV2Pool"
        .ok (constantProductHop pool.state (inputToken.same pool.token0) fee none),
        tickRangeCache)

def poolStateToHop (pool : SolverPool) (inputToken : Erc20Token)
    (stateOverride : Option pool.State) (tickRangeCache : TickRangeCache) :
    Except Exn HopType × TickRangeCache :=
  match pool, stateOverride with
  | .aerodrome pool, stateOverride =>
      let state : ReservesState := stateOverride.getD pool.state
      let zeroForOne := inputToken.same pool.token0
      (.ok (if pool.stable then
          solidlyStableHop pool.token0 pool.token1 state zeroForOne pool.fee none
        else constantProductHop state zeroForOne pool.fee none), tickRangeCache)
  | .v3 address pool, stateOverride =>
      let state : OverrideState := stateOverride.getD pool.state.toOverride
      boundedProductHop v3VirtualReserves address pool.toPool pool.fee state.liquidity
        state.sqrtPriceX96 state.tick (inputToken.same pool.token0) tickRangeCache
  | .v4 address fee pool, stateOverride =>
      let state : OverrideState := stateOverride.getD pool.state.toOverride
      boundedProductHop v3VirtualReserves address pool.toPool fee state.liquidity
        state.sqrtPriceX96 state.tick (inputToken.same pool.token0) tickRangeCache
  | .v2 pool, stateOverride =>
      let state : ReservesState := stateOverride.getD pool.state
      (do
        let fee ← missingFee "UniswapV2Pool"
        .ok (constantProductHop state (inputToken.same pool.token0) fee none), tickRangeCache)
  | .camelot pool, stateOverride =>
      let state : ReservesState := stateOverride.getD pool.state
      (do
        let fee ← missingFee "CamelotLiquidityPool"
        .ok (constantProductHop state (inputToken.same pool.token0) fee none), tickRangeCache)

end Builders

end Degenbot
