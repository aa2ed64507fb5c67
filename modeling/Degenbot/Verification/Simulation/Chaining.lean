import Degenbot.Verification.Simulation.Concentrated
import Mathlib.Logic.Relation
import Mathlib.Tactic

/-! # When simulations compose

For each pool, the exact condition under which the final state of a simulation can be
passed to the next one. -/

namespace Degenbot

deriving instance DecidableEq for PoolSimulationResult
deriving instance DecidableEq for SimulationResult

/-- The final state is the state in use, advanced by the swap: for V2 exactly over the
pool's own reserves, for Aerodrome never, for V3 exactly over the pool's own tick map, and
for V4 exactly when the swap moves nothing. -/
theorem simulationComposes_iff_of_pools (provider : Provider) (attempts fuel : ℕ) :
    (∀ (pool : UniswapV2Pool) (overrideState : Option ReservesState)
        (result : PoolSimulationResult ReservesState), pool.Simulates overrideState result →
      (pool.SimulationComposes overrideState result ↔
        (overrideState.getD pool.state).SameReserves pool.state)) ∧
    (∀ (pool : AerodromeV2Pool) (stateOverride : Option ReservesState)
        (result : PoolSimulationResult ReservesState), pool.Simulates stateOverride result →
      ¬pool.SimulationComposes stateOverride result) ∧
    (∀ (pool : UniswapV3Pool) (overrideState : Option OverrideState) (zeroForOne : Bool) (amountSpecified limit : ℤ)
        (reported : SwapResult → Prop) (initial final : OverrideState),
      pool.Simulates provider attempts fuel overrideState zeroForOne amountSpecified limit
        reported initial final →
      (pool.SimulationComposes provider attempts fuel overrideState zeroForOne amountSpecified
          limit reported initial final ↔
        SameEntries (pool.startState overrideState).tickBitmap pool.state.tickBitmap ∧
          SameEntries (pool.startState overrideState).tickData pool.state.tickData)) ∧
    (∀ (pool : UniswapV4Pool) (stateOverride : Option OverrideState) (tokenIn : ℕ) (amountIn : ℤ)
        (report : SimulationResult OverrideState), pool.WellFormed →
      pool.simulateSwap provider attempts fuel tokenIn amountIn stateOverride =
        some (.ok report) →
      (pool.SimulationComposes provider attempts fuel stateOverride tokenIn amountIn report ↔
        amountIn = 0 ∨ pool.Stays provider (decide (tokenIn = pool.token0.address)) amountIn
          (pool.startState stateOverride))) := by
  refine ⟨?_, ?_, ?_, ?_⟩
  · intro pool overrideState result h
    exact UniswapV2Pool.simulationComposes_iff h
  · intro pool stateOverride result h
    exact AerodromeV2Pool.not_simulationComposes h
  · intro pool overrideState zeroForOne amountSpecified limit reported initial final h
    exact UniswapV3Pool.simulationComposes_iff h
  · intro pool stateOverride tokenIn amountIn report hpool h
    exact UniswapV4Pool.simulationComposes_iff hpool h

/-! ## Samples -/

def sampleToken (address : ℕ) : Erc20Token := ⟨address, 1, "T", 18⟩

def sampleFee : ℚ := ⟨3, 1000, by decide, by decide⟩

def sampleV2Pool : UniswapV2Pool :=
  ⟨sampleToken 1, sampleToken 2, sampleFee, sampleFee, ⟨1000000, 1000000, some 1⟩⟩

def sampleAerodromePool : AerodromeV2Pool :=
  ⟨sampleToken 1, sampleToken 2, false, sampleFee, ⟨1000000, 1000000, some 1⟩⟩

/-- The position of `sampleSwap`, as a pool. -/
def samplePool : Pool where
  stateMgr := .init ⟨10 ^ 18, 2 ^ 96, 0, sampleTickBitmap, sampleTickData, 1⟩ 8
  initialStateBlock := 1
  tickSpacing := 60
  sparseLiquidityMap := false

def sampleV3Pool : UniswapV3Pool :=
  { samplePool with token0 := sampleToken 1, token1 := sampleToken 2, fee := 3000 }

def sampleV4Pool : UniswapV4Pool :=
  { samplePool with
    token0 := sampleToken 1
    token1 := sampleToken 2
    lpFee := 3000
    protocolFeeZeroForOne := 0
    protocolFeeOneForZero := 0
    activeHooks := [] }

/-- A provider that is never asked: the map of `samplePool` is full. -/
def offline : Provider :=
  ⟨.error .keyError, fun _ _ => .error .keyError, fun _ _ => .error .keyError,
    fun _ => .error .keyError, fun _ => .error .keyError⟩

theorem attemptSwap_full {pool : Pool} {provider : Provider} {attempts : ℕ}
    {swap : LiquidityMapSnapshot → Option (Except Exn SwapResult)} {state : OverrideState}
    {result : SwapResult} (hfull : pool.sparseLiquidityMap = false)
    (h : swap (pool.snapshot state) = some (.ok result)) :
    pool.attemptSwap provider attempts swap state = some (.ok (pool.snapshot state, result)) := by
  simp only [Pool.attemptSwap, hfull, h, Bool.false_eq_true, if_false]
  rfl

theorem sampleV3Pool_run :
    sampleV3Pool.simulateExactInputSwap offline 1 3 (sampleToken 2) 1000 none none =
      some (.ok ⟨-996, 1000, samplePool.state.toOverride,
        { samplePool.state.toOverride with sqrtPriceX96 := 79228162514264416584021977057 }⟩) := by
  have hswap : V3.calculateSwap 3 (sampleV3Pool.swapArgs false 1000 (maxSqrtRatio - 1)
      samplePool.state.toOverride (samplePool.snapshot samplePool.state.toOverride)) =
        some (.ok ⟨-996, 1000, 79228162514264416584021977057, 10 ^ 18, 0⟩) := by
    decide
  have hattempt : sampleV3Pool.calculateSwap offline 1 3 false 1000 (maxSqrtRatio - 1) none =
      some (.ok (_, _)) := attemptSwap_full rfl hswap
  rw [UniswapV3Pool.simulateExactInputSwap, if_neg (by decide)]
  change Option.map _
    (sampleV3Pool.calculateSwap offline 1 3 false 1000 (maxSqrtRatio - 1) none) = _
  rw [hattempt]
  rfl

theorem sampleV4Pool_run : sampleV4Pool.simulateSwap offline 1 3 2 1 none =
    some (.ok ⟨1, 0, samplePool.state.toOverride, samplePool.state.toOverride⟩) := by
  have hswap : V4.calculateSwap 3 (sampleV4Pool.swapArgs false (-1) (maxSqrtRatio - 1)
      samplePool.state.toOverride (samplePool.snapshot samplePool.state.toOverride)) =
        some (.ok ⟨0, -1, 2 ^ 96, 10 ^ 18, 0⟩) := by
    decide
  have hattempt : sampleV4Pool.calculateSwap offline 1 3 false (-1) (maxSqrtRatio - 1) none =
      some (.ok (samplePool.snapshot samplePool.state.toOverride,
        ⟨0, -1, 2 ^ 96, 10 ^ 18, 0⟩)) := by
    rw [UniswapV4Pool.calculateSwap, if_neg (by decide)]
    exact attemptSwap_full rfl hswap
  have hout : sampleV4Pool.calculateTokensOutFromTokensIn offline 1 3 (sampleToken 2) 1 none =
      some (.ok 0) := by
    rw [UniswapV4Pool.calculateTokensOutFromTokensIn, if_neg (by decide)]
    change Option.map _
      (sampleV4Pool.calculateSwap offline 1 3 false (-1) (maxSqrtRatio - 1) none) = _
    rw [hattempt]
    decide
  change Option.map _
    (sampleV4Pool.calculateTokensOutFromTokensIn offline 1 3 (sampleToken 2) 1 none) = _
  rw [hout]
  rfl

/-- Without an override the V2 and the V3 pool compose, and so does a V4 swap of one unit,
which its fee consumes; the Aerodrome pool does not. -/
theorem simulationComposes_iff_of_pools_sample :
    sampleV2Pool.SimulationComposes none
        ⟨1000, -996, ⟨1000000, 1000000, some 1⟩, ⟨1001000, 999004, none⟩⟩ ∧
      ¬sampleAerodromePool.SimulationComposes none
        ⟨1000, -996, ⟨1000000, 1000000, some 1⟩, ⟨1000000, 1000000, some 1⟩⟩ ∧
      sampleV3Pool.SimulationComposes offline 1 3 none false 1000 (maxSqrtRatio - 1)
        (fun swap => -996 = swap.amount0 ∧ 1000 = swap.amount1) samplePool.state.toOverride
        { samplePool.state.toOverride with sqrtPriceX96 := 79228162514264416584021977057 } ∧
      sampleV4Pool.SimulationComposes offline 1 3 none 2 1
        ⟨1, 0, samplePool.state.toOverride, samplePool.state.toOverride⟩ := by
  obtain ⟨hV2, haerodrome, hV3, hV4⟩ := simulationComposes_iff_of_pools offline 1 3
  refine ⟨?_, ?_, ?_, ?_⟩
  · have hrun : sampleV2Pool.simulateExactInputSwap (sampleToken 1) 1000 none =
        .ok ⟨1000, -996, ⟨1000000, 1000000, some 1⟩, ⟨1001000, 999004, none⟩⟩ := by
      decide
    exact (hV2 _ _ _ (.exactInput hrun)).mpr ⟨rfl, rfl⟩
  · have hrun : sampleAerodromePool.simulateSwap 1 1000 none =
        .ok ⟨1000, 996, ⟨1000000, 1000000, some 1⟩, ⟨1000000, 1000000, some 1⟩⟩ := by
      decide
    exact haerodrome _ _ _ (.swap hrun)
  · exact (hV3 _ _ _ _ _ _ _ _ (.exactInput sampleV3Pool_run)).mpr
      ⟨SameEntries.refl _, SameEntries.refl _⟩
  · have hpool : sampleV4Pool.WellFormed :=
      ⟨by decide, by decide, by decide, by decide⟩
    refine (hV4 _ _ _ _ _ hpool sampleV4Pool_run).mpr (.inr ⟨(60, true),
      79466191966197645195421774833, ⟨2 ^ 96, 0, 0, 1⟩, ?_, ?_, ?_, ?_, ?_⟩) <;>
    decide

/-- On an override with twice the reserves, the final state goes back to the pool's own. -/
theorem simulateExactInputSwap_override_not_composes :
    sampleV2Pool.simulateExactInputSwap (sampleToken 1) 1000 (some ⟨2000000, 2000000, none⟩) =
        .ok ⟨1000, -996, ⟨2000000, 2000000, none⟩, ⟨1001000, 999004, some 1⟩⟩ ∧
      ¬sampleV2Pool.SimulationComposes (some ⟨2000000, 2000000, none⟩)
        ⟨1000, -996, ⟨2000000, 2000000, none⟩, ⟨1001000, 999004, some 1⟩⟩ := by
  refine ⟨by decide, fun hcomposes => ?_⟩
  exact absurd hcomposes.final_same.1 (by decide)

/-! ## Runs of swaps -/

namespace UniswapV2Pool

open Library

/-- What a swap leaves in place of `reservesIn` and `reservesOut`: nothing is drained, and the
product does not fall. -/
structure KeepsProduct (reservesIn reservesOut reservesIn' reservesOut' : ℤ) : Prop where
  in_pos : 0 < reservesIn'
  out_pos : 0 < reservesOut'
  product_le : reservesIn * reservesOut ≤ reservesIn' * reservesOut'

section Product

variable {amountIn amountOut reservesIn reservesOut : ℤ} {fee : ℚ}

theorem share_bounds (hfee0 : 0 ≤ fee) (hfee1 : fee < 1) :
    0 < (fee.den : ℤ) - fee.num ∧ (fee.den : ℤ) - fee.num ≤ fee.den := by
  have hnum := Rat.num_nonneg.mpr hfee0
  have hlt : fee.num < fee.den := by
    have := Rat.lt_iff fee 1
    simpa using this.mp hfee1
  omega

theorem constantProductCalcExactIn_keepsProduct (hamount : 0 < amountIn) (hin : 0 < reservesIn)
    (hout : 0 < reservesOut) (hfee0 : 0 ≤ fee) (hfee1 : fee < 1)
    (h : constantProductCalcExactIn amountIn reservesIn reservesOut fee = .ok amountOut) :
    KeepsProduct reservesIn reservesOut (reservesIn + amountIn) (reservesOut - amountOut) := by
  obtain ⟨hshare, hle⟩ := share_bounds hfee0 hfee1
  have hden : (0 : ℤ) < fee.den := by exact_mod_cast fee.den_pos
  simp only [constantProductCalcExactIn, floorDivide] at h
  generalize (fee.den : ℤ) - fee.num = share at *
  generalize (fee.den : ℤ) = den at *
  have hpaid : 0 < amountIn * share := mul_pos hamount hshare
  have hheld : 0 < reservesIn * den := mul_pos hin hden
  have hsum : 0 < reservesIn * den + amountIn * share := add_pos hheld hpaid
  rw [if_neg hsum.ne', Int.fdiv_eq_ediv_of_nonneg _ hsum.le] at h
  cases h
  have hfloor := Int.ediv_mul_le (amountIn * share * reservesOut) hsum.ne'
  set out := amountIn * share * reservesOut / (reservesIn * den + amountIn * share)
  -- what is left of the output reserve, at the scale of the division
  have hleft : reservesIn * den * reservesOut ≤
      (reservesIn * den + amountIn * share) * (reservesOut - out) := by
    linarith
  have hleftPos : 0 < reservesOut - out :=
    (mul_pos_iff_of_pos_left hsum).mp ((mul_pos hheld hout).trans_le hleft)
  refine ⟨add_pos hin hamount, hleftPos, ?_⟩
  have hscale : reservesIn * den + amountIn * share ≤ (reservesIn + amountIn) * den := by
    have := mul_le_mul_of_nonneg_left hle hamount.le
    linarith
  have hscaled : den * (reservesIn * reservesOut) ≤
      den * ((reservesIn + amountIn) * (reservesOut - out)) := by
    calc den * (reservesIn * reservesOut) = reservesIn * den * reservesOut := by ring
      _ ≤ (reservesIn * den + amountIn * share) * (reservesOut - out) := hleft
      _ ≤ (reservesIn + amountIn) * den * (reservesOut - out) :=
          mul_le_mul_of_nonneg_right hscale hleftPos.le
      _ = den * ((reservesIn + amountIn) * (reservesOut - out)) := by ring
  exact le_of_mul_le_mul_left hscaled hden

theorem constantProductCalcExactOut_keepsProduct (hamount : 0 < amountOut)
    (hless : amountOut < reservesOut) (hin : 0 < reservesIn) (hfee0 : 0 ≤ fee) (hfee1 : fee < 1)
    (h : constantProductCalcExactOut amountOut reservesIn reservesOut fee = .ok amountIn) :
    KeepsProduct reservesIn reservesOut (reservesIn + amountIn) (reservesOut - amountOut) := by
  obtain ⟨hshare, hle⟩ := share_bounds hfee0 hfee1
  have hden : (0 : ℤ) < fee.den := by exact_mod_cast fee.den_pos
  simp only [constantProductCalcExactOut, floorDivide, bind_eq_ok, Except.ok.injEq] at h
  obtain ⟨quotient, hquotient, rfl⟩ := h
  generalize (fee.den : ℤ) - fee.num = share at *
  generalize (fee.den : ℤ) = den at *
  have hleft : 0 < reservesOut - amountOut := by omega
  have hscale : 0 < (reservesOut - amountOut) * share := mul_pos hleft hshare
  rw [if_neg hscale.ne', Int.fdiv_eq_ediv_of_nonneg _ hscale.le] at hquotient
  cases hquotient
  have hwanted : 0 ≤ reservesIn * amountOut * den :=
    mul_nonneg (mul_nonneg hin.le hamount.le) hden.le
  have hceil := (Int.lt_ediv_add_one_mul_self (reservesIn * amountOut * den) hscale).le
  have hquotient0 := Int.ediv_nonneg hwanted hscale.le
  set quotient := reservesIn * amountOut * den / ((reservesOut - amountOut) * share)
  refine ⟨by omega, hleft, ?_⟩
  have hpaid : reservesIn * amountOut ≤ (1 + quotient) * (reservesOut - amountOut) := by
    have hscaled : reservesIn * amountOut * den ≤
        (1 + quotient) * (reservesOut - amountOut) * den := by
      calc reservesIn * amountOut * den ≤
          (quotient + 1) * ((reservesOut - amountOut) * share) := hceil
        _ = (1 + quotient) * (reservesOut - amountOut) * share := by ring
        _ ≤ (1 + quotient) * (reservesOut - amountOut) * den :=
            mul_le_mul_of_nonneg_left hle (mul_nonneg (by omega) hleft.le)
    exact le_of_mul_le_mul_right hscaled hden
  linarith

end Product

/-- Fees from zero to one, and reserves of both tokens. -/
structure Stocked (pool : UniswapV2Pool) : Prop where
  fee0_nonneg : 0 ≤ pool.feeToken0
  fee0_lt : pool.feeToken0 < 1
  fee1_nonneg : 0 ≤ pool.feeToken1
  fee1_lt : pool.feeToken1 < 1
  reserves0_pos : 0 < pool.state.reservesToken0
  reserves1_pos : 0 < pool.state.reservesToken1

def product (pool : UniswapV2Pool) : ℤ := pool.state.reservesToken0 * pool.state.reservesToken1

/-- A swap that is simulated on the pool's own state, and then made. -/
inductive Swaps (pool : UniswapV2Pool) : UniswapV2Pool → Prop where
  | made {result : PoolSimulationResult ReservesState} (h : pool.Simulates none result) :
      Swaps pool { pool with state := result.finalState }

theorem KeepsProduct.swap {a b a' b' : ℤ} (h : KeepsProduct a b a' b') :
    KeepsProduct b a b' a' where
  in_pos := h.out_pos
  out_pos := h.in_pos
  product_le := by
    rw [mul_comm b, mul_comm b']
    exact h.product_le

theorem exactInput_keepsProduct {pool : UniswapV2Pool} (hpool : pool.Stocked)
    {token : Erc20Token} {quantity : ℤ} {result : PoolSimulationResult ReservesState}
    (h : pool.simulateExactInputSwap token quantity none = .ok result) :
    KeepsProduct pool.state.reservesToken0 pool.state.reservesToken1
      result.finalState.reservesToken0 result.finalState.reservesToken1 := by
  simp only [simulateExactInputSwap, calculateTokensOutFromTokensIn, ite_error_eq_ok, bind_eq_ok,
    Except.ok.injEq, Option.getD_none, not_not] at h
  obtain ⟨hknown, out, ⟨hquantity, hout⟩, rfl⟩ := h
  by_cases h0 : token.same pool.token0 = true
  · rw [if_pos h0] at hout
    simpa [simulated, h0, ← sub_eq_add_neg] using constantProductCalcExactIn_keepsProduct
      (not_le.mp hquantity) hpool.reserves0_pos hpool.reserves1_pos hpool.fee0_nonneg
      hpool.fee0_lt hout
  · rw [if_neg h0, if_pos (hknown.resolve_left h0)] at hout
    simpa [simulated, h0, ← sub_eq_add_neg] using (constantProductCalcExactIn_keepsProduct
      (not_le.mp hquantity) hpool.reserves1_pos hpool.reserves0_pos hpool.fee1_nonneg
      hpool.fee1_lt hout).swap

theorem exactOutput_keepsProduct {pool : UniswapV2Pool} (hpool : pool.Stocked)
    {token : Erc20Token} {quantity : ℤ} {result : PoolSimulationResult ReservesState}
    (h : pool.simulateExactOutputSwap token quantity none = .ok result) :
    KeepsProduct pool.state.reservesToken0 pool.state.reservesToken1
      result.finalState.reservesToken0 result.finalState.reservesToken1 := by
  simp only [simulateExactOutputSwap, calculateTokensInFromTokensOut, ite_error_eq_ok, bind_eq_ok,
    Except.ok.injEq, Option.getD_none, not_not] at h
  obtain ⟨hknown, amountIn, ⟨hquantity, hin⟩, rfl⟩ := h
  by_cases h1 : token.same pool.token1 = true
  · rw [if_pos h1, ite_error_eq_ok] at hin
    simpa [simulated, h1, ← sub_eq_add_neg] using constantProductCalcExactOut_keepsProduct
      (not_le.mp hquantity) (by omega) hpool.reserves0_pos hpool.fee0_nonneg hpool.fee0_lt hin.2
  · rw [if_neg h1, if_pos (hknown.resolve_right h1), ite_error_eq_ok] at hin
    simpa [simulated, h1, ← sub_eq_add_neg] using (constantProductCalcExactOut_keepsProduct
      (not_le.mp hquantity) (by omega) hpool.reserves1_pos hpool.fee1_nonneg hpool.fee1_lt
      hin.2).swap

/-- The reports of `simulate_swap` and `simulate_swap_for_output` are of a swap of the same
pool. -/
theorem Simulates.keepsProduct {pool : UniswapV2Pool} (hpool : pool.Stocked)
    {result : PoolSimulationResult ReservesState} (h : pool.Simulates none result) :
    KeepsProduct pool.state.reservesToken0 pool.state.reservesToken1
      result.finalState.reservesToken0 result.finalState.reservesToken1 := by
  cases h with
  | exactInput h => exact exactInput_keepsProduct hpool h
  | exactOutput h => exact exactOutput_keepsProduct hpool h
  | swap h =>
      simp only [simulateSwap, bind_eq_ok, Except.ok.injEq] at h
      obtain ⟨token, -, inner, hinner, rfl⟩ := h
      have hkeeps := exactInput_keepsProduct hpool hinner
      exact hkeeps
  | swapForOutput h =>
      simp only [simulateSwapForOutput, bind_eq_ok, Except.ok.injEq] at h
      obtain ⟨token, -, inner, hinner, rfl⟩ := h
      have hkeeps := exactOutput_keepsProduct hpool hinner
      exact hkeeps

theorem Swaps.keepsProduct {pool pool' : UniswapV2Pool} (hpool : pool.Stocked)
    (h : pool.Swaps pool') : pool'.Stocked ∧ pool.product ≤ pool'.product := by
  cases h with
  | made h =>
      have hkeeps := h.keepsProduct hpool
      exact ⟨{ hpool with reserves0_pos := hkeeps.in_pos, reserves1_pos := hkeeps.out_pos },
        hkeeps.product_le⟩

/-- No run of swaps drains the pool or lowers the product of its reserves, and a run that takes
tokens of one kind leaves tokens of the other. -/
theorem swaps_keep_product {pool pool' : UniswapV2Pool} (hpool : pool.Stocked)
    (hrun : Relation.ReflTransGen Swaps pool pool') :
    pool'.Stocked ∧ pool.product ≤ pool'.product ∧
      (pool'.state.reservesToken0 < pool.state.reservesToken0 →
        pool.state.reservesToken1 < pool'.state.reservesToken1) ∧
      (pool'.state.reservesToken1 < pool.state.reservesToken1 →
        pool.state.reservesToken0 < pool'.state.reservesToken0) := by
  have hkept : pool'.Stocked ∧ pool.product ≤ pool'.product := by
    induction hrun with
    | refl => exact ⟨hpool, le_refl _⟩
    | tail _ hswap ih =>
        obtain ⟨hstocked, hle⟩ := hswap.keepsProduct ih.1
        exact ⟨hstocked, ih.2.trans hle⟩
  obtain ⟨hstocked, hle⟩ := hkept
  refine ⟨hstocked, hle, fun hless => ?_, fun hless => ?_⟩ <;> by_contra! hnot
  · exact absurd hle (not_le.mpr (mul_lt_mul hless hnot hstocked.reserves1_pos
      hpool.reserves0_pos.le))
  · exact absurd hle (not_le.mpr (mul_lt_mul' hnot hless hstocked.reserves1_pos.le
      hpool.reserves0_pos))

end UniswapV2Pool

/-- A swap of 1000 for 996, and one of 501 for 500 back. -/
theorem UniswapV2Pool.swaps_keep_product_sample :
    sampleV2Pool.product ≤
      ({ sampleV2Pool with state := ⟨1000500, 999505, none⟩ } : UniswapV2Pool).product := by
  have hpool : sampleV2Pool.Stocked :=
    ⟨by decide, by decide, by decide, by decide, by decide, by decide⟩
  have hfirst : sampleV2Pool.simulateExactInputSwap (sampleToken 1) 1000 none =
      .ok ⟨1000, -996, ⟨1000000, 1000000, some 1⟩, ⟨1001000, 999004, none⟩⟩ := by decide
  have hsecond : ({ sampleV2Pool with state := ⟨1001000, 999004, none⟩ } :
      UniswapV2Pool).simulateExactOutputSwap (sampleToken 1) 500 none =
        .ok ⟨-500, 501, ⟨1001000, 999004, none⟩, ⟨1000500, 999505, none⟩⟩ := by decide
  exact (UniswapV2Pool.swaps_keep_product hpool
    ((Relation.ReflTransGen.single (.made (.exactInput hfirst))).tail
      (.made (.exactOutput hsecond)))).2.1

end Degenbot
