import Degenbot.Verification.Simulation.Reserves
import Degenbot.Verification.Simulation.Retry

/-! # Simulations of pools with concentrated liquidity

The V3 pool returns the end of the swap in its own state, the V4 pool the state it started
from. -/

namespace Degenbot

open Library

/-- The state after a swap: the tick map stays as it is. -/
def OverrideState.advanced (state : OverrideState) (swap : SwapResult) : OverrideState :=
  { state with
    liquidity := swap.liquidity
    sqrtPriceX96 := swap.sqrtPriceX96
    tick := swap.tick }

/-- The pool with another state, at its own block. -/
def Pool.withState (pool : Pool) (state : OverrideState) : Pool :=
  { pool with
    stateMgr :=
      { pool.stateMgr with
        newest := ⟨state.liquidity, state.sqrtPriceX96, state.tick, state.tickBitmap,
          state.tickData, pool.state.block⟩ } }

theorem Pool.sameMap_withState (pool : Pool) (state : OverrideState) :
    pool.SameMap (pool.withState state) :=
  ⟨rfl, rfl, rfl⟩

theorem Pool.startState_withState (pool : Pool) {a b : OverrideState} (h : a.Same b) :
    (pool.startState (some a)).Same ((pool.withState b).startState none) :=
  ⟨h.liquidity, h.sqrtPriceX96, h.tick, h.tickBitmap, h.tickData⟩

/-- The swap that a simulation ran: its amounts are reported, and the simulation composes
with the next one. -/
def SwapComposes {Request Report : Type}
    (calculated : Option (Except Exn (LiquidityMapSnapshot × SwapResult)))
    (reported : SwapResult → Prop) (onTop afterwards : OverrideState → Request → Report)
    (start initial final : OverrideState) : Prop :=
  ∃ snapshot swap, calculated = some (.ok (snapshot, swap)) ∧ reported swap ∧
    Composes OverrideState.Same onTop afterwards start (start.advanced swap) initial final

/-! ## `v3_liquidity_pool.py` -/

namespace UniswapV3Pool

/-- The pool with another state, at its own block. -/
def withState (pool : UniswapV3Pool) (state : OverrideState) : UniswapV3Pool :=
  { pool with toPool := pool.toPool.withState state }

section Runs

variable (pool : UniswapV3Pool) (provider : Provider) (attempts fuel : ℕ)

/-- The results of the `simulate_*` methods: the swap they run, how its amounts are
reported, and the two states. `simulate_swap` repeats the amount that was asked for. -/
inductive Simulates (overrideState : Option OverrideState) : Bool → ℤ → ℤ →
    (SwapResult → Prop) → OverrideState → OverrideState → Prop where
  | exactInput {token : Erc20Token} {quantity : ℤ} {limit : Option ℤ}
      {result : PoolSimulationResult OverrideState}
      (h : pool.simulateExactInputSwap provider attempts fuel token quantity limit
        overrideState = some (.ok result)) :
      Simulates overrideState (token.same pool.token0) quantity
        (sqrtPriceLimit (token.same pool.token0) limit)
        (fun swap => result.amount0Delta = swap.amount0 ∧ result.amount1Delta = swap.amount1)
        result.initialState result.finalState
  | exactOutput {token : Erc20Token} {quantity : ℤ} {limit : Option ℤ}
      {result : PoolSimulationResult OverrideState}
      (h : pool.simulateExactOutputSwap provider attempts fuel token quantity limit
        overrideState = some (.ok result)) :
      Simulates overrideState (token.same pool.token1) (-quantity)
        (sqrtPriceLimit (token.same pool.token1) limit)
        (fun swap => result.amount0Delta = swap.amount0 ∧ result.amount1Delta = swap.amount1)
        result.initialState result.finalState
  | swap {tokenIn : ℕ} {amountIn : ℤ} {report : SimulationResult OverrideState}
      (h : pool.simulateSwap provider attempts fuel tokenIn amountIn overrideState =
        some (.ok report)) :
      Simulates overrideState (tokenIn = pool.token0.address) amountIn
        (sqrtPriceLimit (tokenIn = pool.token0.address) none)
        (fun swap => report.amountOut =
          -if tokenIn = pool.token0.address then swap.amount1 else swap.amount0)
        report.initialState report.finalState
  | swapForOutput {tokenOut : ℕ} {amountOut : ℤ} {report : SimulationResult OverrideState}
      (h : pool.simulateSwapForOutput provider attempts fuel tokenOut amountOut overrideState =
        some (.ok report)) :
      Simulates overrideState (tokenOut = pool.token1.address) (-amountOut)
        (sqrtPriceLimit (tokenOut = pool.token1.address) none)
        (fun swap => report.amountIn =
          if tokenOut = pool.token1.address then swap.amount0 else swap.amount1)
        report.initialState report.finalState

/-- The amounts of a swap with a price limit. -/
def amounts (overrideState : Option OverrideState) :
    SwapRequest × Option ℤ → Option (Except Exn (ℤ × ℤ))
  | (.exactInput token quantity, limit) =>
      (pool.simulateExactInputSwap provider attempts fuel token quantity limit
        overrideState).map (·.map fun result => (result.amount0Delta, result.amount1Delta))
  | (.exactOutput token quantity, limit) =>
      (pool.simulateExactOutputSwap provider attempts fuel token quantity limit
        overrideState).map (·.map fun result => (result.amount0Delta, result.amount1Delta))

def SimulationComposes (overrideState : Option OverrideState) (zeroForOne : Bool)
    (amountSpecified limit : ℤ) (reported : SwapResult → Prop) (initial final : OverrideState) :
    Prop :=
  SwapComposes
    (pool.calculateSwap provider attempts fuel zeroForOne amountSpecified limit overrideState)
    reported (fun state => pool.amounts provider attempts fuel (some state))
    (fun state => (pool.withState state).amounts provider attempts fuel none)
    (pool.startState overrideState) initial final

end Runs

variable {pool : UniswapV3Pool} {provider : Provider} {attempts fuel : ℕ}

/-- A swap reads neither the block of its state nor the order of the dictionaries. -/
theorem calculateSwap_same {a b : OverrideState} (h : a.Same b) (z : Bool)
    (amountSpecified limit : ℤ) :
    (pool.calculateSwap provider attempts fuel z amountSpecified limit (some a)).map
        (Except.map Prod.snd) =
      ((pool.withState b).calculateSwap provider attempts fuel z amountSpecified limit none).map
        (Except.map Prod.snd) := by
  have hstate := pool.toPool.startState_withState h
  refine attemptSwap_same (pool.sameMap_withState b) (fun snapshot snapshot' hsame => ?_) hstate
  have hargs : (pool.withState b).swapArgs z amountSpecified limit
      ((pool.withState b).startState none) snapshot' =
        pool.swapArgs z amountSpecified limit (pool.startState (some a)) snapshot' := by
    simp only [swapArgs, hstate.liquidity, hstate.sqrtPriceX96, hstate.tick]
    rfl
  rw [hargs]
  exact V3.calculateSwap_same hsame fuel (pool.swapArgs z amountSpecified limit _ snapshot')

/-- The amounts of a simulation are those of its swap. -/
theorem simulate_amounts (z : Bool) (amountSpecified : ℤ) (limit : Option ℤ)
    (overrideState : Option OverrideState) :
    (pool.simulate provider attempts fuel z amountSpecified limit overrideState).map
        (Except.map fun result => (result.amount0Delta, result.amount1Delta)) =
      ((pool.calculateSwap provider attempts fuel z amountSpecified (sqrtPriceLimit z limit)
        overrideState).map (Except.map Prod.snd)).map fun outcome =>
          (outcome.mapError revertToPoolError).map fun swap => (swap.amount0, swap.amount1) := by
  unfold simulate
  cases pool.calculateSwap provider attempts fuel z amountSpecified (sqrtPriceLimit z limit)
    overrideState with
  | none => rfl
  | some outcome => cases outcome <;> rfl

theorem amounts_same {a b : OverrideState} (h : a.Same b) :
    pool.amounts provider attempts fuel (some a) =
      (pool.withState b).amounts provider attempts fuel none := by
  have hsimulate (z : Bool) (amountSpecified : ℤ) (limit : Option ℤ) :
      (pool.simulate provider attempts fuel z amountSpecified limit (some a)).map
          (Except.map fun result => (result.amount0Delta, result.amount1Delta)) =
        ((pool.withState b).simulate provider attempts fuel z amountSpecified limit none).map
          (Except.map fun result => (result.amount0Delta, result.amount1Delta)) := by
    rw [simulate_amounts, simulate_amounts, calculateSwap_same h]
  funext ⟨request, limit⟩
  cases request with
  | exactInput token quantity =>
      by_cases hknown : token.same pool.token0 = true ∨ token.same pool.token1 = true
      · have hknown' : token.same (pool.withState b).token0 = true ∨
            token.same (pool.withState b).token1 = true := hknown
        simp only [amounts, simulateExactInputSwap, hknown, hknown', not_true_eq_false, if_false]
        exact hsimulate _ _ _
      · have hknown' : ¬(token.same (pool.withState b).token0 = true ∨
            token.same (pool.withState b).token1 = true) := hknown
        simp only [amounts, simulateExactInputSwap, hknown, hknown', not_false_eq_true, if_true]
  | exactOutput token quantity =>
      by_cases hknown : token.same pool.token0 = true ∨ token.same pool.token1 = true
      · have hknown' : token.same (pool.withState b).token0 = true ∨
            token.same (pool.withState b).token1 = true := hknown
        simp only [amounts, simulateExactOutputSwap, hknown, hknown', not_true_eq_false, if_false]
        exact hsimulate _ _ _
      · have hknown' : ¬(token.same (pool.withState b).token0 = true ∨
            token.same (pool.withState b).token1 = true) := hknown
        simp only [amounts, simulateExactOutputSwap, hknown, hknown', not_false_eq_true, if_true]

/-- A simulation returns the end of its swap in the pool's own state. -/
theorem simulate_eq_ok {z : Bool} {amountSpecified : ℤ} {limit : Option ℤ}
    {overrideState : Option OverrideState} {result : PoolSimulationResult OverrideState}
    (h : pool.simulate provider attempts fuel z amountSpecified limit overrideState =
      some (.ok result)) :
    ∃ snapshot swap, pool.calculateSwap provider attempts fuel z amountSpecified
        (sqrtPriceLimit z limit) overrideState = some (.ok (snapshot, swap)) ∧
      result = pool.simulated overrideState swap := by
  simp only [simulate, Option.map_eq_some_iff] at h
  obtain ⟨outcome, hswap, h⟩ := h
  cases outcome with
  | error e => cases h
  | ok outcome =>
      cases h
      exact ⟨outcome.1, outcome.2, hswap, rfl⟩

theorem simulateExactInputSwap_eq_ok {token : Erc20Token} {quantity : ℤ} {limit : Option ℤ}
    {overrideState : Option OverrideState} {result : PoolSimulationResult OverrideState}
    (h : pool.simulateExactInputSwap provider attempts fuel token quantity limit overrideState =
      some (.ok result)) :
    ∃ snapshot swap, pool.calculateSwap provider attempts fuel (token.same pool.token0) quantity
        (sqrtPriceLimit (token.same pool.token0) limit) overrideState =
          some (.ok (snapshot, swap)) ∧
      result = pool.simulated overrideState swap := by
  unfold simulateExactInputSwap at h
  split at h
  · cases h
  · exact simulate_eq_ok h

theorem simulateExactOutputSwap_eq_ok {token : Erc20Token} {quantity : ℤ} {limit : Option ℤ}
    {overrideState : Option OverrideState} {result : PoolSimulationResult OverrideState}
    (h : pool.simulateExactOutputSwap provider attempts fuel token quantity limit overrideState =
      some (.ok result)) :
    ∃ snapshot swap, pool.calculateSwap provider attempts fuel (token.same pool.token1)
        (-quantity) (sqrtPriceLimit (token.same pool.token1) limit) overrideState =
          some (.ok (snapshot, swap)) ∧
      result = pool.simulated overrideState swap := by
  unfold simulateExactOutputSwap at h
  split at h
  · cases h
  · exact simulate_eq_ok h

/-- Every method runs one swap from the state in use and reports its end. -/
theorem Simulates.exists_swap {overrideState : Option OverrideState} {z : Bool}
    {amountSpecified limit : ℤ} {reported : SwapResult → Prop} {initial final : OverrideState}
    (h : pool.Simulates provider attempts fuel overrideState z amountSpecified limit reported
      initial final) :
    ∃ snapshot swap, pool.calculateSwap provider attempts fuel z amountSpecified limit
        overrideState = some (.ok (snapshot, swap)) ∧ reported swap ∧
      initial = pool.startState overrideState ∧
      final = (pool.simulated overrideState swap).finalState := by
  cases h with
  | exactInput h =>
      obtain ⟨snapshot, swap, hswap, rfl⟩ := simulateExactInputSwap_eq_ok h
      exact ⟨snapshot, swap, hswap, ⟨rfl, rfl⟩, rfl, rfl⟩
  | exactOutput h =>
      obtain ⟨snapshot, swap, hswap, rfl⟩ := simulateExactOutputSwap_eq_ok h
      exact ⟨snapshot, swap, hswap, ⟨rfl, rfl⟩, rfl, rfl⟩
  | @swap tokenIn amountIn report h =>
      unfold simulateSwap at h
      split at h
      · cases h
      · rename_i token htoken
        obtain ⟨-, rfl⟩ := tokenAt_address htoken
        obtain ⟨inner, hinner, rfl⟩ := map_map_eq_some_ok h
        obtain ⟨snapshot, swap, hswap, rfl⟩ := simulateExactInputSwap_eq_ok hinner
        refine ⟨snapshot, swap, hswap, ?_, rfl, rfl⟩
        by_cases hz : token.address = pool.token0.address <;>
          simp [reportInput, simulated, Erc20Token.same, hz]
  | @swapForOutput tokenOut amountOut report h =>
      unfold simulateSwapForOutput at h
      split at h
      · cases h
      · rename_i token htoken
        obtain ⟨-, rfl⟩ := tokenAt_address htoken
        obtain ⟨inner, hinner, rfl⟩ := map_map_eq_some_ok h
        obtain ⟨snapshot, swap, hswap, rfl⟩ := simulateExactOutputSwap_eq_ok hinner
        refine ⟨snapshot, swap, hswap, ?_, rfl, rfl⟩
        by_cases hz : token.address = pool.token1.address <;>
          simp [reportOutput, simulated, Erc20Token.same, hz]

/-- The final state of a V3 simulation is right exactly when the tick map of the state in
use is the pool's own. -/
theorem simulationComposes_iff {overrideState : Option OverrideState} {z : Bool}
    {amountSpecified limit : ℤ} {reported : SwapResult → Prop} {initial final : OverrideState}
    (h : pool.Simulates provider attempts fuel overrideState z amountSpecified limit reported
      initial final) :
    pool.SimulationComposes provider attempts fuel overrideState z amountSpecified limit reported
        initial final ↔
      SameEntries (pool.startState overrideState).tickBitmap pool.state.tickBitmap ∧
        SameEntries (pool.startState overrideState).tickData pool.state.tickData := by
  obtain ⟨snapshot, swap, hswap, hreported, rfl, rfl⟩ := h.exists_swap
  constructor
  · rintro ⟨snapshot', swap', hswap', -, hcomposes⟩
    exact ⟨hcomposes.final_same.tickBitmap.symm, hcomposes.final_same.tickData.symm⟩
  · rintro ⟨hbitmap, hdata⟩
    have hsame : (pool.simulated overrideState swap).finalState.Same
        ((pool.startState overrideState).advanced swap) :=
      ⟨rfl, rfl, rfl, hbitmap.symm, hdata.symm⟩
    exact ⟨snapshot, swap, hswap, hreported, rfl, hsame, amounts_same hsame⟩

end UniswapV3Pool

/-! ## `v4_liquidity_pool.py` -/

namespace UniswapV4Pool

/-- The pool with another state, at its own block. -/
def withState (pool : UniswapV4Pool) (state : OverrideState) : UniswapV4Pool :=
  { pool with toPool := pool.toPool.withState state }

/-- `swap_fee` of `_calculate_swap`. -/
def swapFee (pool : UniswapV4Pool) (zeroForOne : Bool) : ℤ :=
  let protocolFee :=
    if zeroForOne then pool.protocolFeeZeroForOne else pool.protocolFeeOneForZero
  if protocolFee = 0 then pool.lpFee else V4.calculateSwapFee protocolFee pool.lpFee

/-- The price limit that a simulation passes. -/
def sqrtPriceLimit (zeroForOne : Bool) : ℤ :=
  if zeroForOne then minSqrtRatio + 1 else maxSqrtRatio - 1

/-- What the pool manager guarantees of every pool: fees are parts per million. -/
structure WellFormed (pool : UniswapV4Pool) : Prop where
  spacing_pos : 0 < pool.tickSpacing
  lpFee_mem : 0 ≤ pool.lpFee ∧ pool.lpFee ≤ 1000000
  protocolFeeZeroForOne_mem : 0 ≤ pool.protocolFeeZeroForOne ∧
    pool.protocolFeeZeroForOne ≤ 1000000
  protocolFeeOneForZero_mem : 0 ≤ pool.protocolFeeOneForZero ∧
    pool.protocolFeeOneForZero ≤ 1000000

/-- The input is too small to move the price: the first step of the swap ends where it
started, short of the first stop. -/
def Stays (pool : UniswapV4Pool) (provider : Provider) (zeroForOne : Bool) (amountIn : ℤ)
    (state : OverrideState) : Prop :=
  ∃ stop sqrtPriceNext step,
    pool.firstStop provider zeroForOne state = .ok stop ∧
    V4.getSqrtPriceAtTick (clampTick zeroForOne stop.1) = .ok sqrtPriceNext ∧
    V4.computeSwapStep state.sqrtPriceX96
      (V4.getSqrtPriceTarget zeroForOne sqrtPriceNext (sqrtPriceLimit zeroForOne))
      state.liquidity (-amountIn) (pool.swapFee zeroForOne) = .ok step ∧
    step.sqrtRatioNextX96 = state.sqrtPriceX96 ∧ state.sqrtPriceX96 ≠ sqrtPriceNext

section Runs

variable (pool : UniswapV4Pool) (provider : Provider) (attempts fuel : ℕ)

def amounts (stateOverride : Option OverrideState) (request : ℕ × ℤ) :
    Option (Except Exn (ℤ × ℤ)) :=
  (pool.simulateSwap provider attempts fuel request.1 request.2 stateOverride).map
    (Except.map fun report => (report.amountIn, report.amountOut))

def SimulationComposes (stateOverride : Option OverrideState) (tokenIn : ℕ)
    (requested : ℤ) (report : SimulationResult OverrideState) : Prop :=
  let zeroForOne := decide (tokenIn = pool.token0.address)
  SwapComposes
    (pool.calculateSwap provider attempts fuel zeroForOne (-requested)
      (sqrtPriceLimit zeroForOne) stateOverride)
    (fun swap => report.amountIn = amountIn swap ∧ report.amountOut = amountOut swap)
    (fun state => pool.amounts provider attempts fuel (some state))
    (fun state => (pool.withState state).amounts provider attempts fuel none)
    (pool.startState stateOverride) report.initialState report.finalState

end Runs

variable {pool : UniswapV4Pool} {provider : Provider} {attempts fuel : ℕ}

theorem swapFee_mem (h : pool.WellFormed) (z : Bool) :
    0 ≤ pool.swapFee z ∧ pool.swapFee z ≤ V4.maxSwapFee := by
  have hmax : V4.maxSwapFee = 1000000 := by norm_num [V4.maxSwapFee]
  have hlp := h.lpFee_mem
  have hfee {protocolFee : ℤ} (hmem : 0 ≤ protocolFee ∧ protocolFee ≤ 1000000) :
      0 ≤ V4.calculateSwapFee protocolFee pool.lpFee ∧
        V4.calculateSwapFee protocolFee pool.lpFee ≤ 1000000 := by
    have hland : Int.land pool.lpFee 0xFFFFFF = pool.lpFee := by
      obtain ⟨lpFee, hlpFee⟩ := Int.eq_ofNat_of_zero_le hlp.1
      rw [hlpFee] at hlp ⊢
      exact congrArg Int.ofNat
        (Nat.and_two_pow_sub_one_of_lt_two_pow (n := 24) (by norm_num; omega))
    have hle : protocolFee * pool.lpFee / 1000000 ≤ protocolFee :=
      Int.ediv_le_of_le_mul (by norm_num) (mul_le_mul_of_nonneg_left hlp.2 hmem.1)
    have hge : protocolFee + pool.lpFee - 1000000 ≤ protocolFee * pool.lpFee / 1000000 := by
      rw [Int.le_ediv_iff_mul_le (by norm_num)]
      nlinarith
    simp only [V4.calculateSwapFee, hland, Int.fdiv_eq_ediv_of_nonneg _ (by norm_num : (0 : ℤ) ≤ 1000000)]
    omega
  rw [hmax]
  unfold swapFee
  cases z <;> simp only [if_true, Bool.false_eq_true, if_false] <;> split_ifs
  · exact hlp
  · exact hfee h.protocolFeeOneForZero_mem
  · exact hlp
  · exact hfee h.protocolFeeZeroForOne_mem

theorem calculateSwap_same {a b : OverrideState} (h : a.Same b) (z : Bool)
    (amountSpecified limit : ℤ) :
    (pool.calculateSwap provider attempts fuel z amountSpecified limit (some a)).map
        (Except.map Prod.snd) =
      ((pool.withState b).calculateSwap provider attempts fuel z amountSpecified limit none).map
        (Except.map Prod.snd) := by
  have hstate := pool.toPool.startState_withState h
  unfold calculateSwap
  split_ifs with hzero
  · have hfields : (⟨0, 0, a.sqrtPriceX96, a.liquidity, a.tick⟩ : SwapResult) =
        ⟨0, 0, b.sqrtPriceX96, b.liquidity, b.tick⟩ := by
      rw [h.sqrtPriceX96, h.liquidity, h.tick]
    exact congrArg (fun swap => some (Except.ok swap)) hfields
  · refine attemptSwap_same (pool.sameMap_withState b) (fun snapshot snapshot' hsame => ?_) hstate
    have hargs : (pool.withState b).swapArgs z amountSpecified limit
        ((pool.withState b).startState none) snapshot' =
          pool.swapArgs z amountSpecified limit (pool.startState (some a)) snapshot' := by
      simp only [swapArgs, hstate.liquidity, hstate.sqrtPriceX96, hstate.tick]
      rfl
    rw [hargs]
    exact V4.calculateSwap_same hsame fuel (pool.swapArgs z amountSpecified limit _ snapshot')

/-- The reported output is a function of the swap alone. -/
theorem calculateTokensOutFromTokensIn_same {a b : OverrideState} (h : a.Same b)
    (token : Erc20Token) (quantity : ℤ) :
    pool.calculateTokensOutFromTokensIn provider attempts fuel token quantity (some a) =
      (pool.withState b).calculateTokensOutFromTokensIn provider attempts fuel token quantity
        none := by
  -- a refused token is refused in any state
  have hcheck (outcome : Option (Except Exn (LiquidityMapSnapshot × SwapResult))) :
      (outcome.map fun outcome => (outcome.mapError revertToPoolError).bind fun swap =>
          pool.checkInput quantity swap.2) =
        (outcome.map (Except.map Prod.snd)).map fun outcome =>
          (outcome.mapError revertToPoolError).bind fun swap => pool.checkInput quantity swap := by
    cases outcome with
    | none => rfl
    | some outcome => cases outcome <;> rfl
  by_cases hknown : token.same pool.token0 = true ∨ token.same pool.token1 = true
  · have hknown' : token.same (pool.withState b).token0 = true ∨
        token.same (pool.withState b).token1 = true := hknown
    simp only [calculateTokensOutFromTokensIn, hknown, hknown', not_true_eq_false, if_false]
    rw [hcheck, calculateSwap_same h]
    exact (hcheck _).symm
  · have hknown' : ¬(token.same (pool.withState b).token0 = true ∨
        token.same (pool.withState b).token1 = true) := hknown
    simp only [calculateTokensOutFromTokensIn, hknown, hknown', not_false_eq_true, if_true]

theorem amounts_same {a b : OverrideState} (h : a.Same b) :
    pool.amounts provider attempts fuel (some a) =
      (pool.withState b).amounts provider attempts fuel none := by
  funext ⟨tokenIn, amountIn⟩
  have htoken : tokenAt (pool.withState b).token0 (pool.withState b).token1 tokenIn
      ("token_in " ++ toString tokenIn ++ " not in pool") =
        tokenAt pool.token0 pool.token1 tokenIn
          ("token_in " ++ toString tokenIn ++ " not in pool") := rfl
  simp only [amounts, simulateSwap, htoken]
  split
  · rfl
  · rw [calculateTokensOutFromTokensIn_same h, Option.map_map, Option.map_map]
    congr 1
    funext outcome
    cases outcome <;> rfl

/-- A simulation consumes the whole input and returns the state it started from. -/
theorem simulateSwap_eq_ok {tokenIn : ℕ} {requested : ℤ} {stateOverride : Option OverrideState}
    {report : SimulationResult OverrideState}
    (h : pool.simulateSwap provider attempts fuel tokenIn requested stateOverride =
      some (.ok report)) :
    ∃ snapshot swap,
      pool.calculateSwap provider attempts fuel (decide (tokenIn = pool.token0.address))
        (-requested) (sqrtPriceLimit (decide (tokenIn = pool.token0.address))) stateOverride =
          some (.ok (snapshot, swap)) ∧
      amountIn swap = requested ∧ report = ⟨requested, amountOut swap,
        pool.startState stateOverride, pool.startState stateOverride⟩ := by
  unfold simulateSwap at h
  split at h
  · cases h
  · rename_i token htoken
    obtain ⟨-, rfl⟩ := tokenAt_address htoken
    obtain ⟨out, hout, rfl⟩ := map_map_eq_some_ok h
    unfold calculateTokensOutFromTokensIn at hout
    split at hout
    · cases hout
    · simp only [Option.map_eq_some_iff] at hout
      obtain ⟨outcome, hswap, hout⟩ := hout
      cases outcome with
      | error e => cases hout
      | ok outcome =>
          simp only [Except.mapError, Except.bind, checkInput, ite_error_eq_ok, not_not,
            Except.ok.injEq] at hout
          obtain ⟨hle, -, hge, rfl⟩ := hout
          exact ⟨outcome.1, outcome.2, hswap, by omega, rfl⟩

theorem sqrtPriceLimit_pos (z : Bool) : 0 < sqrtPriceLimit z := by
  cases z <;> decide

/-- The swap of an amount that is not zero, as a run of the simulator on the map that the
last attempt had. -/
theorem calculateSwap_firstStop {z : Bool} {amountSpecified : ℤ}
    {stateOverride : Option OverrideState} {snapshot : LiquidityMapSnapshot} {swap : SwapResult}
    (hs : 0 < pool.tickSpacing) (hne : amountSpecified ≠ 0)
    (h : pool.calculateSwap provider attempts fuel z amountSpecified (sqrtPriceLimit z)
      stateOverride = some (.ok (snapshot, swap))) :
    let args := pool.swapArgs z amountSpecified (sqrtPriceLimit z)
      (pool.startState stateOverride) snapshot
    V4.calculateSwap fuel args = some (.ok swap) ∧ 0 < snapshot.tickSpacing ∧
      ∃ stop stop', pool.firstStop provider z (pool.startState stateOverride) = .ok stop ∧
        snapshot.nextInitializedTick args.tickStart z = .ok stop' ∧ stop'.1 = stop.1 := by
  intro args
  unfold calculateSwap at h
  rw [if_neg hne] at h
  have hsearch : SearchesFirst z (pool.startState stateOverride).tick fun snapshot =>
      V4.calculateSwap fuel (pool.swapArgs z amountSpecified (sqrtPriceLimit z)
        (pool.startState stateOverride) snapshot) :=
    V4.searchesFirst (fun _ => rfl) (fun _ => rfl) (fun _ => rfl) fun _ => hne
  obtain ⟨hswap, hspacing, hstops⟩ := attemptSwap_firstStop hsearch hs h
  exact ⟨hswap, hspacing ▸ hs, hstops⟩

theorem same_advanced_iff {z : Bool} {requested : ℤ} {stateOverride : Option OverrideState}
    {snapshot : LiquidityMapSnapshot} {swap : SwapResult} (hpool : pool.WellFormed)
    (h : pool.calculateSwap provider attempts fuel z (-requested) (sqrtPriceLimit z)
      stateOverride = some (.ok (snapshot, swap)))
    (hin : amountIn swap = requested) :
    (pool.startState stateOverride).Same ((pool.startState stateOverride).advanced swap) ↔
      requested = 0 ∨ pool.Stays provider z requested (pool.startState stateOverride) := by
  by_cases hzero : requested = 0
  · rw [calculateSwap, if_pos (by omega)] at h
    cases h
    exact ⟨fun _ => .inl hzero, fun _ => ⟨rfl, rfl, rfl, SameEntries.refl _, SameEntries.refl _⟩⟩
  · obtain ⟨hrun, hspacing, stop, stop', hfirst, hstop', hstop⟩ :=
      calculateSwap_firstStop hpool.spacing_pos (by omega) h
    let args := pool.swapArgs z (-requested) (sqrtPriceLimit z) (pool.startState stateOverride)
      snapshot
    have hfee : 0 ≤ args.swapFee ∧ args.swapFee ≤ V4.maxSwapFee := swapFee_mem hpool z
    have hlimit : 0 < args.sqrtPriceX96Limit := sqrtPriceLimit_pos z
    have hamount : args.amountSpecified = -requested := rfl
    -- a negative input would be an exact output, and fail the check of what was consumed
    have hpos : 0 < requested := by
      by_contra hneg
      have hpays := V4.calculateSwap_output_pays (by omega) hlimit hfee.1 hrun
      unfold amountIn at hin
      omega
    have hstationary := V4.calculateSwap_stationary_iff (by omega) hlimit hspacing hfee hrun
    have hstays : args.Stays ↔
        pool.Stays provider z requested (pool.startState stateOverride) := by
      constructor
      · rintro ⟨stop'', sqrtPriceNext, step, hstop'', hnext, hrest⟩
        cases hstop'.symm.trans hstop''
        exact ⟨stop, sqrtPriceNext, step, hfirst, hstop ▸ hnext, hrest⟩
      · rintro ⟨stop'', sqrtPriceNext, step, hfirst', hnext, hrest⟩
        cases hfirst.symm.trans hfirst'
        exact ⟨stop', sqrtPriceNext, step, hstop', hstop.symm ▸ hnext, hrest⟩
    rw [hstays] at hstationary
    constructor
    · intro hsame
      exact .inr (hstationary.mp ⟨hsame.sqrtPriceX96.symm, hsame.tick.symm, hsame.liquidity.symm⟩)
    · intro hcond
      obtain ⟨hprice, htick, hliquidity⟩ := hstationary.mpr (hcond.resolve_left hzero)
      exact ⟨hliquidity.symm, hprice.symm, htick.symm, SameEntries.refl _, SameEntries.refl _⟩

/-- The final state of a V4 simulation is right exactly when nothing is swapped, or the
input is too small to move the price. -/
theorem simulationComposes_iff {tokenIn : ℕ} {requested : ℤ}
    {stateOverride : Option OverrideState} {report : SimulationResult OverrideState}
    (hpool : pool.WellFormed)
    (h : pool.simulateSwap provider attempts fuel tokenIn requested stateOverride =
      some (.ok report)) :
    pool.SimulationComposes provider attempts fuel stateOverride tokenIn requested report ↔
      requested = 0 ∨ pool.Stays provider (decide (tokenIn = pool.token0.address)) requested
        (pool.startState stateOverride) := by
  obtain ⟨snapshot, swap, hswap, hin, rfl⟩ := simulateSwap_eq_ok h
  generalize hz : decide (tokenIn = pool.token0.address) = z at hswap ⊢
  have hsame := same_advanced_iff hpool hswap hin
  constructor
  · rintro ⟨snapshot', swap', hswap', -, hcomposes⟩
    rw [hz, hswap] at hswap'
    cases hswap'
    exact hsame.mp hcomposes.final_same
  · intro hstays
    refine ⟨snapshot, swap, hz ▸ hswap, ⟨hin.symm, rfl⟩, rfl, hsame.mpr hstays, ?_⟩
    exact amounts_same (hsame.mpr hstays)

end UniswapV4Pool

end Degenbot
