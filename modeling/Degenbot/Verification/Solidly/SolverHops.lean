import Degenbot.Algorithm.SolverHops
import Degenbot.Library.Outcome
import Mathlib.Data.Rat.Floor

/-! # Hops of stable pools and the pools they stand for -/

namespace Degenbot

open Library

/-- A stable pool that the solver can be asked about. -/
inductive StablePool where
  | aerodrome (pool : AerodromeV2Pool) (stable : pool.stable = true)
  | camelot (pool : CamelotLiquidityPool) (stable : pool.stableSwap = true)

namespace StablePool

def IsAerodrome : StablePool → Prop
  | aerodrome _ _ => True
  | camelot _ _ => False

/-- The pool's own quote on a state. -/
def quote : StablePool → Erc20Token → ℤ → ReservesState → Except Exn ℤ
  | aerodrome pool _, token, amount, state =>
      pool.calculateTokensOutFromTokensIn token amount (some state)
  | camelot pool _, token, amount, state =>
      pool.calculateTokensOutFromTokensIn token amount (some state)

section Hops

variable (v3VirtualReserves : ℤ → ℤ → Bool → Except Exn (ℤ × ℤ)) (token : Erc20Token)
  (state : ReservesState) (tickRangeCache : TickRangeCache)

/-- The hop that `pool_to_hop` builds when the pool is in the state. -/
def currentHop : StablePool → Except Exn HopType
  | aerodrome pool _ =>
      (poolToHop v3VirtualReserves (.aerodrome { pool with state }) token tickRangeCache).1
  | camelot pool _ =>
      (poolToHop v3VirtualReserves (.camelot { pool with state }) token tickRangeCache).1

/-- The hop that `pool_state_to_hop` builds with the state as its override. -/
def overrideHop : StablePool → Except Exn HopType
  | aerodrome pool _ =>
      (poolStateToHop v3VirtualReserves (.aerodrome pool) token (some state) tickRangeCache).1
  | camelot pool _ =>
      (poolStateToHop v3VirtualReserves (.camelot pool) token (some state) tickRangeCache).1

end Hops

end StablePool

/-- A Solidly hop with a swap function that returns the quote. -/
def StandsFor (hop : Except Exn HopType) (amount out : ℤ) : Prop :=
  ∃ stableHop swapFn, hop = .ok (.solidlyStable stableHop) ∧ stableHop.swapFn = some swapFn ∧
    swapFn amount = .ok out

/-! ## Aerodrome -/

section Aerodrome

variable {v3VirtualReserves : ℤ → ℤ → Bool → Except Exn (ℤ × ℤ)} {pool : AerodromeV2Pool}
  {token : Erc20Token} {state : ReservesState} {tickRangeCache : TickRangeCache} {amount out : ℤ}

/-- The quote of a stable pool is that of the function that the hop binds. -/
theorem aerodromeStableSwapFn_eq_ok (hstable : pool.stable = true)
    (h : pool.calculateTokensOutFromTokensIn token amount (some state) = .ok out) :
    aerodromeStableSwapFn { pool with state } (token.same pool.token0) amount = .ok out := by
  unfold AerodromeV2Pool.calculateTokensOutFromTokensIn at h
  dsimp only at h
  split_ifs at h with htoken hamount
  exact h

theorem standsFor_poolToHop (hstable : pool.stable = true)
    (h : pool.calculateTokensOutFromTokensIn token amount (some state) = .ok out) :
    StandsFor (poolToHop v3VirtualReserves (.aerodrome { pool with state }) token
      tickRangeCache).1 amount out := by
  have hhop : (poolToHop v3VirtualReserves (.aerodrome { pool with state }) token
      tickRangeCache).1 = .ok (solidlyStableHop pool.token0 pool.token1 state
        (token.same pool.token0) pool.fee
        (some (aerodromeStableSwapFn { pool with state } (token.same pool.token0)))) := by
    simp only [poolToHop, hstable, if_true]
  exact ⟨_, _, hhop, rfl, aerodromeStableSwapFn_eq_ok hstable h⟩

/-- The other builder leaves the swap function out. -/
theorem not_standsFor_poolStateToHop (hstable : pool.stable = true) :
    ¬StandsFor (poolStateToHop v3VirtualReserves (.aerodrome pool) token (some state)
      tickRangeCache).1 amount out := by
  rintro ⟨hop, swapFn, hhop, hswapFn, -⟩
  simp only [poolStateToHop, solidlyStableHop, hstable, if_true, Except.ok.injEq,
    HopType.solidlyStable.injEq] at hhop
  subst hhop
  cases hswapFn

end Aerodrome

/-! ## Camelot -/

section Camelot

variable {v3VirtualReserves : ℤ → ℤ → Bool → Except Exn (ℤ × ℤ)} {pool : CamelotLiquidityPool}
  {token : Erc20Token} {state : ReservesState} {tickRangeCache : TickRangeCache} {amount out : ℤ}

theorem not_standsFor_error {e : Exn} : ¬StandsFor (.error e) amount out := by
  rintro ⟨hop, swapFn, hhop, -⟩
  cases hhop

/-- Both builders read the attribute `fee`, which the pool does not have. -/
theorem poolToHop_camelot :
    (poolToHop v3VirtualReserves (.camelot pool) token tickRangeCache).1 =
      missingFee "CamelotLiquidityPool" := by
  cases hstable : pool.stableSwap <;> simp [poolToHop, hstable, missingFee]

theorem poolStateToHop_camelot :
    (poolStateToHop v3VirtualReserves (.camelot pool) token (some state) tickRangeCache).1 =
      missingFee "CamelotLiquidityPool" := rfl

/-- The fee that Camelot takes is that of the generic quote. -/
theorem floor_feePercent {quantity feeDenominator : ℤ} (fee : ℚ) (h : feeDenominator ≠ 0) :
    ⌊(quantity : ℚ) * (feeDenominator * fee) / feeDenominator⌋ =
      (quantity * fee.num).fdiv fee.den := by
  have hne : (feeDenominator : ℚ) ≠ 0 := Int.cast_ne_zero.mpr h
  have hcancel : (quantity : ℚ) * (feeDenominator * fee) / feeDenominator =
      ((quantity * fee.num : ℤ) : ℚ) / ((fee.den : ℕ) : ℚ) := by
    rw [mul_div_assoc, mul_div_cancel_left₀ _ hne, Int.cast_mul, mul_div_assoc,
      Rat.num_div_den]
  rw [hcancel, Rat.floor_intCast_div_natCast, Int.fdiv_eq_ediv_of_nonneg _ (Int.natCast_nonneg _)]

end Camelot

/-! ## Agreement -/

namespace StablePool

/-- Of the two builders only `pool_to_hop` can agree with a pool, and only with an Aerodrome
pool. -/
theorem hops_standFor (v3VirtualReserves : ℤ → ℤ → Bool → Except Exn (ℤ × ℤ))
    (pool : StablePool) (token : Erc20Token) (state : ReservesState)
    (tickRangeCache tickRangeCache' : TickRangeCache) {amount out : ℤ}
    (h : pool.quote token amount state = .ok out) :
    (StandsFor (pool.currentHop v3VirtualReserves token state tickRangeCache) amount out ↔
        pool.IsAerodrome) ∧
      ¬StandsFor (pool.overrideHop v3VirtualReserves token state tickRangeCache') amount out := by
  cases pool with
  | aerodrome pool hstable =>
      exact ⟨⟨fun _ => trivial, fun _ => standsFor_poolToHop hstable h⟩,
        not_standsFor_poolStateToHop hstable⟩
  | camelot pool hstable =>
      refine ⟨⟨fun hstands => ?_, False.elim⟩, ?_⟩
      · rw [currentHop, poolToHop_camelot] at hstands
        exact not_standsFor_error hstands
      · rw [overrideHop, poolStateToHop_camelot]
        exact not_standsFor_error

end StablePool

/-! ## Two pools -/

def sampleUsdc : Erc20Token := ⟨1, 8453, "USDC", 6⟩

def sampleReserves : ReservesState := ⟨2000000000000, 1900000000000000000000000, none⟩

def sampleStableFee : ℚ := ⟨1, 2000, by decide, by decide⟩

def sampleAerodrome : AerodromeV2Pool :=
  ⟨sampleUsdc, ⟨2, 8453, "DAI", 18⟩, true, sampleStableFee, sampleReserves⟩

def sampleCamelot : CamelotLiquidityPool where
  token0 := sampleUsdc
  token1 := ⟨2, 8453, "DAI", 18⟩
  feeToken0 := sampleStableFee
  feeToken1 := sampleStableFee
  state := sampleReserves
  feeDenominator := 100000
  stableSwap := true

theorem sampleAerodrome_quote : (StablePool.aerodrome sampleAerodrome rfl).quote sampleUsdc
    1000000000 sampleReserves = .ok 999465277467027905241 := by
  decide

theorem sampleCamelot_quote : (StablePool.camelot sampleCamelot rfl).quote sampleUsdc
    1000000000 sampleReserves = .ok 999465277467027905241 := by
  have hfee : ⌊((1000000000 : ℤ) : ℚ) * ((100000 : ℤ) * sampleStableFee) / (100000 : ℤ)⌋ =
      500000 := floor_feePercent sampleStableFee (by decide)
  have hfirst : sampleUsdc.same sampleUsdc = true := rfl
  change sampleCamelot.calculateTokensOutFromTokensInStableSwap sampleUsdc 1000000000
    (some sampleReserves) = _
  simp only [CamelotLiquidityPool.calculateTokensOutFromTokensInStableSwap, sampleCamelot,
    hfirst, if_true]
  rw [if_neg (by decide), if_neg (by decide), hfee]
  rfl

/-- Virtual reserves, which no stable pool is asked for. -/
def noVirtualReserves (_liquidity _sqrtPriceX96 : ℤ) (_zeroForOne : Bool) :
    Except Exn (ℤ × ℤ) := .ok (0, 0)

theorem StablePool.hops_standFor_sample :
    StandsFor ((StablePool.aerodrome sampleAerodrome rfl).currentHop noVirtualReserves
        sampleUsdc sampleReserves ∅) 1000000000 999465277467027905241 ∧
      ¬StandsFor ((StablePool.aerodrome sampleAerodrome rfl).overrideHop noVirtualReserves
        sampleUsdc sampleReserves ∅) 1000000000 999465277467027905241 ∧
      ¬StandsFor ((StablePool.camelot sampleCamelot rfl).currentHop noVirtualReserves
        sampleUsdc sampleReserves ∅) 1000000000 999465277467027905241 := by
  have haerodrome := hops_standFor noVirtualReserves _ sampleUsdc sampleReserves ∅ ∅
    sampleAerodrome_quote
  have hcamelot := hops_standFor noVirtualReserves _ sampleUsdc sampleReserves ∅ ∅
    sampleCamelot_quote
  exact ⟨haerodrome.1.mpr trivial, haerodrome.2, fun h => hcamelot.1.mp h⟩

theorem StablePool.not_hops_standFor :
    ¬∀ (v3VirtualReserves : ℤ → ℤ → Bool → Except Exn (ℤ × ℤ)) (pool : StablePool)
        (token : Erc20Token) (state : ReservesState) (tickRangeCache tickRangeCache' :
        TickRangeCache) (amount out : ℤ), pool.quote token amount state = .ok out →
      StandsFor (pool.currentHop v3VirtualReserves token state tickRangeCache) amount out ∧
        StandsFor (pool.overrideHop v3VirtualReserves token state tickRangeCache') amount out :=
  fun h => not_standsFor_poolStateToHop rfl
    (h noVirtualReserves (.aerodrome sampleAerodrome rfl) sampleUsdc sampleReserves ∅ ∅ _ _
      sampleAerodrome_quote).2

end Degenbot
