import Degenbot.Algorithm.RateOfExchange
import Degenbot.Verification.Arbitrage.Profit
import Degenbot.Verification.Arbitrage.SwapVectors
import Degenbot.Verification.Simulation.Retry
import Degenbot.Verification.Simulator.Rate

/-! # A cycle that the check discards is not profitable

Each pool pays out at most its input at the rate and the fee multiplier that the check takes
for it, and these bounds compose along the path. -/

namespace Degenbot

open Library

/-! ## Pools -/

namespace CycleHelper

/-- The tokens of a helper. -/
def tokens : CycleHelper → Erc20Token × Erc20Token
  | .aerodromeV2 pool _ => (pool.token0, pool.token1)
  | .uniswapV2 pool _ => (pool.token0, pool.token1)
  | .uniswapV3 pool _ _ => (pool.token0, pool.token1)
  | .uniswapV4 pool _ _ _ => (pool.token0, pool.token1)

/-- A V2 pool with reserves, whose fees are shares of the input, or a V3 pool whose price
belongs to its tick. -/
def Consistent : CycleHelper → Prop
  | .uniswapV2 pool overrideState =>
      0 < (overrideState.getD pool.state).reservesToken0 ∧
        0 < (overrideState.getD pool.state).reservesToken1 ∧
        pool.feeToken0 ≤ 1 ∧ pool.feeToken1 ≤ 1
  | .uniswapV3 pool _ overrideState =>
      0 < pool.tickSpacing ∧ V3.PriceWithinTick (pool.startState overrideState).sqrtPriceX96
        (pool.startState overrideState).tick
  | _ => False

theorem feeMultiplier_eq (zeroForOne : Bool) (helper : CycleHelper) :
    helper.feeMultiplier zeroForOne = 1 - helper.fee zeroForOne := by
  have hden : ((helper.fee zeroForOne).den : ℚ) ≠ 0 := by
    exact_mod_cast (helper.fee zeroForOne).den_nz
  have hfee := Rat.mul_den_eq_num (helper.fee zeroForOne)
  simp only [feeMultiplier]
  rw [div_eq_iff hden]
  push_cast
  linarith

end CycleHelper

/-- What a swap of `amount` pays out at most. -/
structure HopBound (amount out : ℤ) (swapMultiplier feeMultiplier : ℚ) : Prop where
  swap_nonneg : 0 ≤ swapMultiplier
  fee_nonneg : 0 ≤ feeMultiplier
  out_nonneg : 0 ≤ out
  out_le : (out : ℚ) ≤ amount * (swapMultiplier * feeMultiplier)

/-! ## V2 -/

section Reserves

variable {amount reservesIn reservesOut out : ℤ} {fee : ℚ}

theorem constantProductCalcExactIn_bound (hamount : 0 < amount) (hin : 0 < reservesIn)
    (hout : 0 < reservesOut) (hfee : fee ≤ 1)
    (h : constantProductCalcExactIn amount reservesIn reservesOut fee = .ok out) :
    HopBound amount out (reservesOut / reservesIn) (1 - fee) := by
  simp only [constantProductCalcExactIn, floorDivide] at h
  have hden : (0 : ℚ) < fee.den := by exact_mod_cast fee.den_pos
  have hshare : ((fee.den - fee.num : ℤ) : ℚ) = (1 - fee) * fee.den := by
    have hnum := Rat.mul_den_eq_num fee
    push_cast
    linarith
  have hshare0 : 0 ≤ (fee.den : ℤ) - fee.num := by
    have hcast : (0 : ℚ) ≤ ((fee.den - fee.num : ℤ) : ℚ) := by
      rw [hshare]
      exact mul_nonneg (by linarith) hden.le
    exact_mod_cast hcast
  set share := (fee.den : ℤ) - fee.num
  have hdenominator : 0 < reservesIn * fee.den + amount * share := by
    have hfirst : 0 < reservesIn * fee.den := mul_pos hin (by exact_mod_cast fee.den_pos)
    have hsecond : 0 ≤ amount * share := mul_nonneg hamount.le hshare0
    omega
  rw [if_neg hdenominator.ne', Int.fdiv_eq_ediv_of_nonneg _ hdenominator.le] at h
  cases h
  have hnumerator : 0 ≤ amount * share * reservesOut :=
    mul_nonneg (mul_nonneg hamount.le hshare0) hout.le
  have hin' : (0 : ℚ) < reservesIn := by exact_mod_cast hin
  have hout' : (0 : ℚ) < reservesOut := by exact_mod_cast hout
  refine ⟨by positivity, by linarith, Int.ediv_nonneg hnumerator hdenominator.le, ?_⟩
  -- the amount that is already paid in is left out of the denominator
  have hfloor := Int.ediv_mul_le (amount * share * reservesOut) hdenominator.ne'
  have hnonneg := Int.ediv_nonneg hnumerator hdenominator.le
  set out := amount * share * reservesOut / (reservesIn * fee.den + amount * share)
  have hdrop : out * (reservesIn * fee.den) ≤ amount * share * reservesOut := by
    have hextra : 0 ≤ out * (amount * share) := mul_nonneg hnonneg (mul_nonneg hamount.le hshare0)
    linarith
  have hcast : (out : ℚ) * (reservesIn * fee.den) ≤ amount * ((1 - fee) * fee.den) * reservesOut := by
    rw [← hshare]
    exact_mod_cast hdrop
  have hcancel : (out : ℚ) * reservesIn ≤ amount * (1 - fee) * reservesOut := by
    refine le_of_mul_le_mul_right ?_ hden
    linarith
  calc (out : ℚ) ≤ amount * (1 - fee) * reservesOut / reservesIn := by
        rwa [le_div_iff₀ hin']
    _ = amount * (reservesOut / reservesIn * (1 - fee)) := by ring

end Reserves

theorem fraction_eq_ok {numerator denominator : ℤ} {q : ℚ}
    (h : fraction numerator denominator = .ok q) : q = numerator / denominator := by
  simp only [fraction, ite_error_eq_ok, Except.ok.injEq] at h
  exact h.2.symm

section Hop

variable {pool : LiquidityPool} {vector : SwapVector} {amount out : ℤ} {swapMultiplier : ℚ}

/-- The two ways through a pool. -/
theorem HopConsistent.cases (hop : HopConsistent pool vector) :
    (vector.zeroForOne = true ∧ vector.tokenIn.same pool.token0 = true ∧
        vector.tokenOut.same pool.token1 = true) ∨
      (vector.zeroForOne = false ∧ vector.tokenIn.same pool.token0 = false ∧
        vector.tokenIn.same pool.token1 = true ∧ vector.tokenOut.same pool.token0 = true ∧
        vector.tokenOut.same pool.token1 = false) := by
  have htokens := hop.tokens
  have hdirection := hop.direction
  simp only [Erc20Token.same, decide_eq_true_eq, decide_eq_false_iff_not] at htokens hdirection ⊢
  by_cases hfirst : vector.tokenIn.address = pool.token0.address
  · refine .inl ⟨hdirection.mpr hfirst, hfirst, ?_⟩
    rcases htokens with ⟨-, hout⟩ | ⟨hin, hout⟩
    · exact hout
    · rw [hout, ← hfirst, hin]
  · have hzero : vector.zeroForOne = false := by
      rw [Bool.eq_false_iff]
      exact fun h => hfirst (hdirection.mp h)
    rcases htokens with ⟨hin, -⟩ | ⟨hin, hout⟩
    · exact absurd hin hfirst
    · exact .inr ⟨hzero, hfirst, hin, hout, fun heq => hfirst (by rw [hin, ← heq, hout])⟩

theorem uniswapV2_bound {v2 : UniswapV2Pool} {overrideState : Option ReservesState}
    (hcons : (CycleHelper.uniswapV2 v2 overrideState).Consistent)
    (htokens : (v2.token0, v2.token1) = (pool.token0, pool.token1))
    (hop : HopConsistent pool vector)
    (hcalc : v2.calculateTokensOutFromTokensIn vector.tokenIn amount overrideState = .ok out)
    (hswap : reservesExchangeRate v2.token0 v2.token1 (overrideState.getD v2.state)
      vector.tokenOut = .ok swapMultiplier) :
    HopBound amount out swapMultiplier
      (1 - (if vector.zeroForOne then v2.feeToken0 else v2.feeToken1)) := by
  obtain ⟨h0, h1, hfee0, hfee1⟩ := hcons
  obtain ⟨htoken0, htoken1⟩ := Prod.mk.inj htokens
  simp only [UniswapV2Pool.calculateTokensOutFromTokensIn, ite_error_eq_ok, not_le] at hcalc
  obtain ⟨hamount, hcalc⟩ := hcalc
  simp only [reservesExchangeRate, ite_error_eq_ok] at hswap
  have hswap := hswap.2
  rw [htoken0, htoken1] at hcalc
  rw [htoken1] at hswap
  rcases hop.cases with ⟨hzero, hin, hout⟩ | ⟨hzero, hnot, hin, -, hout⟩
  · simp only [hin, hout, hzero, if_true] at hcalc hswap ⊢
    rw [fraction_eq_ok hswap]
    exact constantProductCalcExactIn_bound hamount h0 h1 hfee0 hcalc
  · simp only [hnot, hin, hout, hzero, if_true, Bool.false_eq_true, if_false] at hcalc hswap ⊢
    rw [fraction_eq_ok hswap]
    exact constantProductCalcExactIn_bound hamount h1 h0 hfee1 hcalc

/-! ## V3 -/

/-- The swap that is returned ran on a map with the tick spacing of the pool. -/
theorem attemptSwap_spacing {pool : Pool} {provider : Provider} {attempts : ℕ}
    {swap : LiquidityMapSnapshot → Option (Except Exn SwapResult)} {state : OverrideState}
    {snapshot' : LiquidityMapSnapshot} {result : SwapResult}
    (h : pool.attemptSwap provider attempts swap state = some (.ok (snapshot', result))) :
    swap snapshot' = some (.ok result) ∧ snapshot'.tickSpacing = pool.tickSpacing := by
  unfold Pool.attemptSwap at h
  by_cases hsparse : pool.sparseLiquidityMap = true
  · rw [if_pos hsparse] at h
    have hspacing : (pool.snapshot state).tickSpacing = pool.tickSpacing := rfl
    generalize pool.snapshot state = snapshot at h hspacing
    induction attempts generalizing snapshot with
    | zero => cases h
    | succ attempts ih =>
        obtain ⟨attempts', hattempts, ⟨hswap, rfl⟩ | ⟨word, fetched, -, hfetch, hrest⟩⟩ :=
          retrySwap_cases h
        · exact ⟨hswap, hspacing⟩
        · cases hattempts
          exact ih fetched hrest (fetchWord_spec hfetch).spacing_eq
  · rw [if_neg hsparse] at h
    obtain ⟨outcome, hswap, h⟩ := Option.map_eq_some_iff.mp h
    cases outcome with
    | error e => cases h
    | ok result' =>
        cases h
        exact ⟨hswap, rfl⟩

theorem exchangeRate_eq_marginalRate (price : ℤ) :
    exchangeRateFromSqrtPriceX96 price = V3.marginalRate true price ∧
      1 / exchangeRateFromSqrtPriceX96 price = V3.marginalRate false price := by
  have hq : (q96 : ℚ) ^ 2 = 6277101735386680763835789423207666416102355444464034512896 := by
    norm_num [q96]
  have hrate : exchangeRateFromSqrtPriceX96 price = ((price : ℚ) / q96) ^ 2 := by
    rw [exchangeRateFromSqrtPriceX96, div_pow, hq]
    push_cast
    ring
  refine ⟨by simpa [V3.marginalRate] using hrate, ?_⟩
  rw [hrate]
  simp only [V3.marginalRate, Bool.false_eq_true, if_false]
  rw [one_div, ← inv_pow, inv_div]

theorem uniswapV3_bound {v3 : UniswapV3Pool} {provider : Provider} {attempts fuel : ℕ}
    {overrideState : Option OverrideState}
    (hcons : (CycleHelper.uniswapV3 v3 provider overrideState).Consistent)
    (htokens : (v3.token0, v3.token1) = (pool.token0, pool.token1))
    (hop : HopConsistent pool vector) (hamount : 0 < amount)
    (hcalc : Ipc.calculateV3 v3 provider attempts fuel vector.tokenIn amount overrideState =
      some (.ok out))
    (hswap : sqrtPriceExchangeRate v3.token0 v3.token1 (v3.startState overrideState)
      vector.tokenOut = .ok swapMultiplier) :
    HopBound amount out swapMultiplier (1 - v3.fee / feeDenominator) := by
  obtain ⟨hs, hwithin⟩ := hcons
  obtain ⟨htoken0, htoken1⟩ := Prod.mk.inj htokens
  have hdirection : vector.tokenIn.same v3.token0 = vector.zeroForOne := by
    rw [htoken0]
    rcases hop.cases with ⟨hzero, hin, -⟩ | ⟨hzero, hin, -⟩ <;> rw [hzero, hin]
  have hrate : swapMultiplier =
      V3.marginalRate vector.zeroForOne (v3.startState overrideState).sqrtPriceX96 := by
    obtain ⟨hfirst, hsecond⟩ :=
      exchangeRate_eq_marginalRate (v3.startState overrideState).sqrtPriceX96
    simp only [sqrtPriceExchangeRate, ite_error_eq_ok] at hswap
    have hswap := hswap.2
    rw [htoken1] at hswap
    rcases hop.cases with ⟨hzero, -, hout⟩ | ⟨hzero, -, -, -, hout⟩
    · rw [if_pos hout] at hswap
      cases hswap
      rw [hzero, hfirst]
    · rw [if_neg (by simp [hout]), ite_error_eq_ok] at hswap
      cases hswap.2
      rw [hzero, hsecond]
  -- the swap that is returned takes the whole amount
  unfold Ipc.calculateV3 at hcalc
  split at hcalc
  · cases hcalc
  simp only [hdirection] at hcalc
  obtain ⟨outcome, hattempt, hcalc⟩ := Option.map_eq_some_iff.mp hcalc
  cases outcome with
  | error e => cases hcalc
  | ok swap =>
      obtain ⟨snapshot', result⟩ := swap
      obtain ⟨hrun, hspacing⟩ := attemptSwap_spacing hattempt
      have hswapped : ∃ amountIn, (amountIn, out) = (if vector.zeroForOne then
          (result.amount0, -result.amount1) else (result.amount1, -result.amount0)) ∧
          amount ≤ amountIn := by
        cases hzero : vector.zeroForOne <;>
          simp only [hzero, Bool.false_eq_true, if_true, if_false, Except.mapError, Except.bind,
            ite_error_eq_ok, not_lt, Except.ok.injEq] at hcalc ⊢ <;>
          exact ⟨_, by rw [hcalc.2], hcalc.1⟩
      obtain ⟨amountIn, hamounts, hall⟩ := hswapped
      have hs' : 0 < snapshot'.tickSpacing := by
        rw [hspacing]
        exact hs
      obtain ⟨hin, hfee, hnonneg, hout⟩ :=
        V3.calculateSwap_rate hs' hwithin hamount hrun hamounts
      obtain rfl : amountIn = amount := le_antisymm hin hall
      have hfeeLe : (v3.fee : ℚ) ≤ 1000000 := by exact_mod_cast hfee hamount
      have hafter : V3.afterFee v3.fee = 1 - v3.fee / feeDenominator := by
        simp only [V3.afterFee, feeDenominator]
        push_cast
        ring
      rw [← hafter, hrate]
      refine ⟨V3.marginalRate_nonneg _ _, ?_, hnonneg, ?_⟩
      · unfold V3.afterFee
        linarith
      · have hbound : (out : ℚ) ≤ amountIn * V3.afterFee v3.fee * V3.marginalRate
            vector.zeroForOne (v3.startState overrideState).sqrtPriceX96 := hout
        linarith

end Hop

/-! ## Paths -/

namespace UniswapLpCycle

variable {helperOf : LiquidityPool → CycleHelper} {quotes : Quotes}

/-- A quote is what a run of the helper returns. -/
def QuotesOf (helperOf : LiquidityPool → CycleHelper) (quotes : Quotes) : Prop :=
  ∀ pool token amount out, quotes pool token amount = .ok out →
    ∃ attempts fuel, (helperOf pool).calculateTokensOutFromTokensIn attempts fuel token amount =
      some (.ok out)

/-- The helpers behind the pools hold their tokens, and are consistent. -/
def ConsistentPools (helperOf : LiquidityPool → CycleHelper) (pools : List LiquidityPool) : Prop :=
  ∀ pool ∈ pools, (helperOf pool).tokens = (pool.token0, pool.token1) ∧ (helperOf pool).Consistent

/-- A swap of nothing fails. -/
theorem calculate_zero {helper : CycleHelper} {attempts fuel : ℕ} {token : Erc20Token} {out : ℤ}
    (hcons : helper.Consistent) :
    helper.calculateTokensOutFromTokensIn attempts fuel token 0 ≠ some (.ok out) := by
  intro h
  cases helper with
  | aerodromeV2 => exact hcons
  | uniswapV4 => exact hcons
  | uniswapV2 pool overrideState =>
      simp [CycleHelper.calculateTokensOutFromTokensIn,
        UniswapV2Pool.calculateTokensOutFromTokensIn] at h
  | uniswapV3 pool provider overrideState =>
      simp only [CycleHelper.calculateTokensOutFromTokensIn, Ipc.calculateV3] at h
      split at h
      · cases h
      · obtain ⟨outcome, hattempt, h⟩ := Option.map_eq_some_iff.mp h
        cases outcome with
        | error e => cases h
        | ok swap =>
            have hrun := (attemptSwap_spacing hattempt).1
            unfold V3.calculateSwap at hrun
            split at hrun
            · cases hrun
            · rename_i hcheck
              exact (V3.SwapArgs.check_eq_ok_iff.mp hcheck).amount_ne rfl

theorem hopBound {pool : LiquidityPool} {vector : SwapVector} {amount out : ℤ} {swapMultiplier : ℚ}
    (hquotes : QuotesOf helperOf quotes)
    (htokens : (helperOf pool).tokens = (pool.token0, pool.token1))
    (hcons : (helperOf pool).Consistent) (hop : HopConsistent pool vector) (hamount : 0 ≤ amount)
    (hquote : quotes pool vector.tokenIn amount = .ok out)
    (hswap : (helperOf pool).swapMultiplier vector.tokenOut = .ok swapMultiplier) :
    HopBound amount out swapMultiplier ((helperOf pool).feeMultiplier vector.zeroForOne) := by
  obtain ⟨attempts, fuel, hcalc⟩ := hquotes _ _ _ _ hquote
  have hpos : 0 < amount := by
    refine lt_of_le_of_ne hamount fun hzero => ?_
    exact calculate_zero hcons (hzero ▸ hcalc)
  rw [CycleHelper.feeMultiplier_eq]
  cases hhelper : helperOf pool with
  | aerodromeV2 => simp [hhelper, CycleHelper.Consistent] at hcons
  | uniswapV4 => simp [hhelper, CycleHelper.Consistent] at hcons
  | uniswapV2 v2 overrideState =>
      rw [hhelper] at hcalc hswap htokens hcons
      exact uniswapV2_bound hcons htokens hop (Option.some.inj hcalc) hswap
  | uniswapV3 v3 provider overrideState =>
      rw [hhelper] at hcalc hswap htokens hcons
      exact uniswapV3_bound hcons htokens hop hpos hcalc hswap

/-- The final output is at most the input times all multipliers. -/
theorem arbProfitLoop_le {pools : List LiquidityPool} {vectors : List SwapVector}
    {held amount final : ℤ} {multipliers : List ℚ} (hquotes : QuotesOf helperOf quotes)
    (hpools : ConsistentPools helperOf pools) (hops : List.Forall₂ HopConsistent pools vectors)
    (hnamed : Named pools) (hamount : 0 ≤ amount) (hheld : held ≤ amount)
    (hmultipliers : exchangeRateMultipliers helperOf pools vectors = .ok multipliers)
    (hrun : arbProfitLoop quotes held amount pools vectors = (final, none)) :
    0 ≤ multipliers.prod ∧ (final : ℚ) ≤ amount * multipliers.prod := by
  induction hops generalizing held amount multipliers with
  | nil =>
      cases hmultipliers
      cases hrun
      simp only [List.prod_nil, mul_one, zero_le_one, true_and]
      exact_mod_cast hheld
  | @cons pool vector pools vectors hop hops ih =>
      simp only [exchangeRateMultipliers, bind_eq_ok, Except.ok.injEq] at hmultipliers
      obtain ⟨swapMultiplier, hswap, rest, hrest, rfl⟩ := hmultipliers
      obtain ⟨htokens, hcons⟩ := hpools pool List.mem_cons_self
      cases hquote : quotes pool vector.tokenIn amount with
      | error e => simp [arbProfitLoop_error hnamed hquote] at hrun
      | ok quantity =>
          rw [arbProfitLoop_ok hnamed hquote] at hrun
          have hbound := hopBound hquotes htokens hcons hop hamount hquote hswap
          obtain ⟨hprod, hle⟩ := ih (fun p hp => hpools p (List.mem_cons_of_mem _ hp))
            (fun p hp => hnamed p (List.mem_cons_of_mem _ hp)) hbound.out_nonneg le_rfl hrest hrun
          simp only [List.prod_cons]
          refine ⟨mul_nonneg hbound.swap_nonneg (mul_nonneg hbound.fee_nonneg hprod), ?_⟩
          calc (final : ℚ) ≤ quantity * rest.prod := hle
            _ ≤ amount * (swapMultiplier * (helperOf pool).feeMultiplier vector.zeroForOne) *
                rest.prod := mul_le_mul_of_nonneg_right hbound.out_le hprod
            _ = _ := by ring

/-- The numerators and the denominators are multiplied apart. -/
theorem prod_num_div_den (multipliers : List ℚ) :
    ((multipliers.map Rat.num).prod : ℚ) / ((multipliers.map Rat.den).prod : ℚ) =
      multipliers.prod := by
  induction multipliers with
  | nil => simp
  | cons q rest ih =>
      simp only [List.map_cons, List.prod_cons]
      rw [← ih]
      push_cast
      rw [mul_div_mul_comm, Rat.num_div_den]

/-- A path whose net rate of exchange is below one returns at most what is put in. -/
theorem final_le_of_rate_lt_one (helperOf : LiquidityPool → CycleHelper) (quotes : Quotes)
    (inputToken : Erc20Token) (pools : List LiquidityPool) (vectors : List SwapVector) (rate : ℚ)
    (x final : ℤ) (hquotes : QuotesOf helperOf quotes) (hpools : ConsistentPools helperOf pools)
    (hnamed : Named pools) (hvectors : VectorsConsistent inputToken pools vectors)
    (hrate : netRateOfExchange helperOf pools vectors = .ok rate) (hlt : rate < 1) (hx : 0 < x)
    (hrun : arbProfitLoop quotes 0 x pools vectors = (final, none)) : final ≤ x := by
  obtain ⟨multipliers, hmultipliers, hnet⟩ := bind_eq_ok.mp hrate
  rw [prod_num_div_den] at hnet
  cases hnet
  obtain ⟨-, hle⟩ := arbProfitLoop_le hquotes hpools hvectors.hops hnamed hx.le hx.le
    hmultipliers hrun
  have hx' : (0 : ℚ) ≤ x := by exact_mod_cast hx.le
  have hfinal : (final : ℚ) ≤ x := by
    calc (final : ℚ) ≤ x * multipliers.prod := hle
      _ ≤ x * 1 := mul_le_mul_of_nonneg_left hlt.le hx'
      _ = x := mul_one _
  exact_mod_cast hfinal

/-! ## A cycle of two pools -/

/-- The position of `sampleSwap` at a fee of 0.3 %. -/
def rateV3Pool : UniswapV3Pool where
  stateMgr := .init ⟨10 ^ 18, 2 ^ 96, 0, sampleTickBitmap, sampleTickData, 1⟩ 8
  initialStateBlock := 1
  tickSpacing := 60
  sparseLiquidityMap := false
  token0 := sampleToken 10
  token1 := sampleToken 11
  fee := 3000

def rateV2Pool : UniswapV2Pool where
  token0 := sampleToken 10
  token1 := sampleToken 11
  feeToken0 := 3 / 1000
  feeToken1 := 3 / 1000
  state := ⟨10 ^ 6, 10 ^ 6, none⟩

/-- A provider that is never asked. -/
def rateProvider : Provider :=
  ⟨.error .keyError, fun _ _ => .error .keyError, fun _ _ => .error .keyError,
    fun _ => .error .keyError, fun _ => .error .keyError⟩

def rateHelpers (pool : LiquidityPool) : CycleHelper :=
  if pool.address = 1 then .uniswapV2 rateV2Pool none else .uniswapV3 rateV3Pool rateProvider none

def rateQuotes : Quotes := fun pool token amount =>
  ((rateHelpers pool).calculateTokensOutFromTokensIn 1 3 token amount).getD (.error .keyError)

theorem rateQuotes_of : QuotesOf rateHelpers rateQuotes := by
  intro pool token amount out h
  refine ⟨1, 3, ?_⟩
  unfold rateQuotes at h
  cases hcalc : (rateHelpers pool).calculateTokensOutFromTokensIn 1 3 token amount with
  | none => simp [hcalc] at h
  | some outcome =>
      rw [hcalc, Option.getD_some] at h
      rw [h]

theorem ratePools_consistent :
    ConsistentPools rateHelpers [samplePool .uniswapV2 1, samplePool .uniswapV3 2] := by
  intro pool hpool
  rcases List.mem_pair.mp hpool with rfl | rfl
  · exact ⟨rfl, by decide, by decide, by norm_num [rateV2Pool], by norm_num [rateV2Pool]⟩
  · refine ⟨rfl, by decide, ?_⟩
    exact ⟨2 ^ 96, 79232123823359799118286999568, by decide +kernel, by decide +kernel,
      by decide +kernel, by decide +kernel⟩

theorem sampleVectors_consistent : VectorsConsistent (sampleToken 10)
    [samplePool .uniswapV2 1, samplePool .uniswapV3 2] sampleVectors where
  hops := .cons ⟨.inl ⟨by decide, by decide⟩, by decide⟩
    (.cons ⟨.inr ⟨by decide, by decide⟩, by decide⟩ .nil)
  linked := by
    simp [sampleVectors, tokensEquivalent, Erc20Token.same]
  closed := by
    intro v hv
    cases hv
    decide

theorem final_le_of_rate_lt_one_sample :
    netRateOfExchange rateHelpers [samplePool .uniswapV2 1, samplePool .uniswapV3 2]
        sampleVectors = .ok (994009 / 1000000) ∧
      arbProfitLoop rateQuotes 0 10000 [samplePool .uniswapV2 1, samplePool .uniswapV3 2]
        sampleVectors = (9840, none) ∧ (9840 : ℤ) ≤ 10000 := by
  have hrate : netRateOfExchange rateHelpers [samplePool .uniswapV2 1, samplePool .uniswapV3 2]
      sampleVectors = .ok (994009 / 1000000) := by
    decide +kernel
  have hrun : arbProfitLoop rateQuotes 0 10000
      [samplePool .uniswapV2 1, samplePool .uniswapV3 2] sampleVectors = (9840, none) := by
    decide +kernel
  exact ⟨hrate, hrun, final_le_of_rate_lt_one rateHelpers rateQuotes (sampleToken 10) _
    sampleVectors _ 10000 9840 rateQuotes_of ratePools_consistent
    (samplePools_named _ _ _ _ (.inl rfl) (.inr rfl)) sampleVectors_consistent hrate (by norm_num)
    (by decide) hrun⟩

end UniswapLpCycle

end Degenbot
