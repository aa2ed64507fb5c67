import Degenbot.Library.Batch
import Degenbot.Library.Lists
import Degenbot.Verification.Balancer.StableBalance

/-! # The pool's own token among its balances

The quotes of a composable stable pool take the pool's own token, which the vault lists with the
others, for one of the balances of the invariant. -/

namespace Degenbot.StableMath

open Library LogExpMath

/-! ## Scaling the balances -/

section Scaling

variable {amount factor a b : ℤ} {amounts factors : List ℤ} {k : ℕ} {e : Exn}

theorem upscale_error (h : upscale amount factor = .error e) : e = WeightedMath.mulOverflow := by
  unfold upscale WeightedMath.mulDown at h
  dsimp only at h
  split_ifs at h
  · exact (Except.error.inj h).symm
  · exact (Except.error.inj h).symm

theorem upscaleArray_set_congr (hfactor : factors[k]? = some factor)
    (h : upscale a factor = upscale b factor) :
    upscaleArray (amounts.set k a) factors = upscaleArray (amounts.set k b) factors := by
  unfold upscaleArray
  rw [List.length_set, List.length_set, zip_set a hfactor, zip_set b hfactor,
    @mapM_set_congr _ _ _ _ _ (a, factor) (b, factor) h]

/-- Scaling lists of the same length fails in one way only. -/
theorem upscaleArray_error (hlength : amounts.length = factors.length)
    (h : upscaleArray amounts factors = .error e) : e = WeightedMath.mulOverflow := by
  rw [upscaleArray, if_neg (not_not.mpr hlength)] at h
  obtain ⟨pair, -, he⟩ := exists_of_mapM_error h
  exact upscale_error he

/-- A balance that overflows is an overflow of the whole list. -/
theorem upscaleArray_of_overflow (hlength : amounts.length = factors.length)
    (hamount : amounts[k]? = some amount) (hfactor : factors[k]? = some factor)
    (h : upscale amount factor = .error e) : upscaleArray amounts factors = .error WeightedMath.mulOverflow := by
  have hpair : (amount, factor) ∈ amounts.zip factors := by
    refine List.mem_of_getElem? (i := k) ?_
    rw [List.getElem?_zip_eq_some]
    exact ⟨hamount, hfactor⟩
  obtain ⟨e', he'⟩ := exists_error_of_mapM
    (f := fun pair : ℤ × ℤ => upscale pair.1 pair.2) hpair h
  have hrun : upscaleArray amounts factors = .error e' := by
    rw [upscaleArray, if_neg (not_not.mpr hlength), he']
  rw [hrun, upscaleArray_error hlength hrun]

/-- Every balance is scaled by the factor at its place. -/
theorem getElem?_upscaleArray {scaled : List ℤ} (h : upscaleArray amounts factors = .ok scaled)
    (hamount : amounts[k]? = some amount) :
    ∃ factor x, upscale amount factor = .ok x ∧ scaled[k]? = some x := by
  rw [upscaleArray, ite_error_eq_ok, not_not] at h
  obtain ⟨hlength, hrun⟩ := h
  obtain ⟨hlt, hget⟩ := List.getElem?_eq_some_iff.mp hamount
  obtain ⟨hsame, hall⟩ := List.forall₂_iff_get.mp (mapM_eq_ok_iff.mp hrun)
  have hzip : k < (amounts.zip factors).length := by
    rw [List.length_zip, ← hlength, min_self]
    exact hlt
  have hk := hall k hzip (hsame ▸ hzip)
  simp only [List.get_eq_getElem, List.getElem_zip, hget] at hk
  exact ⟨_, _, hk, List.getElem?_eq_getElem _⟩

end Scaling

/-! ## The quotes -/

section Quotes

variable {pool : BalancerV2StablePool} {balances balances' : List ℤ} {tokenIn tokenOut : Erc20Token}
  {tokenInQuantity : ℤ} {k : ℕ}

/-- A quote sees the balances through their scaling. -/
theorem quote_congr
    (h : upscaleArray balances pool.scalingFactors = upscaleArray balances' pool.scalingFactors) :
    pool.calculateTokensOutFromTokensIn balances tokenIn tokenInQuantity tokenOut =
      pool.calculateTokensOutFromTokensIn balances' tokenIn tokenInQuantity tokenOut := by
  unfold BalancerV2StablePool.calculateTokensOutFromTokensIn
  rw [h]

/-- The call fails before the invariant is computed, whatever balance is recorded for the token
at `k`. -/
inductive FailsEarlier (pool : BalancerV2StablePool) (balances : List ℤ) (k : ℕ)
    (tokenIn : Erc20Token) (tokenInQuantity : ℤ) : Prop where
  | fee {e} : subtractSwapFeeAmount tokenInQuantity pool.feePercentage = .error e →
      FailsEarlier pool balances k tokenIn tokenInQuantity
  | length : balances.length ≠ pool.scalingFactors.length →
      FailsEarlier pool balances k tokenIn tokenInQuantity
  | balance {i balance factor e} : i ≠ k → balances[i]? = some balance →
      pool.scalingFactors[i]? = some factor → upscale balance factor = .error e →
      FailsEarlier pool balances k tokenIn tokenInQuantity
  | amount {i amount factor e} : tokenIndex pool.tokens tokenIn = .ok i →
      subtractSwapFeeAmount tokenInQuantity pool.feePercentage = .ok amount →
      pool.scalingFactors[i]? = some factor → upscale amount factor = .error e →
      FailsEarlier pool balances k tokenIn tokenInQuantity

theorem quote_eq_of_length (hlength : balances.length ≠ pool.scalingFactors.length)
    (own own' : ℤ) :
    pool.calculateTokensOutFromTokensIn (balances.set k own) tokenIn tokenInQuantity tokenOut =
      pool.calculateTokensOutFromTokensIn (balances.set k own') tokenIn tokenInQuantity
        tokenOut := by
  refine quote_congr ?_
  rw [upscaleArray, upscaleArray, List.length_set, List.length_set, if_pos hlength, if_pos hlength]

/-- An input that overflows when it is scaled fails as the balances would. -/
theorem quote_of_amount_overflow {i j : ℕ} {amount factor : ℤ} {e : Exn}
    (hlength : balances.length = pool.scalingFactors.length)
    (hi : tokenIndex pool.tokens tokenIn = .ok i) (hj : tokenIndex pool.tokens tokenOut = .ok j)
    (hamount : subtractSwapFeeAmount tokenInQuantity pool.feePercentage = .ok amount)
    (hfactor : pool.scalingFactors[i]? = some factor) (hoverflow : upscale amount factor = .error e) :
    pool.calculateTokensOutFromTokensIn balances tokenIn tokenInQuantity tokenOut =
      .error WeightedMath.mulOverflow := by
  unfold BalancerV2StablePool.calculateTokensOutFromTokensIn
  rw [hi, hj, hamount]
  simp only [ok_bind]
  cases hscaled : upscaleArray balances pool.scalingFactors with
  | error e' => rw [upscaleArray_error hlength hscaled, error_bind]
  | ok scaled =>
      rw [ok_bind, item_eq_ok.mpr hfactor, ok_bind, hoverflow, error_bind,
        upscale_error hoverflow]

theorem FailsEarlier.quote_eq (h : FailsEarlier pool balances k tokenIn tokenInQuantity)
    (own own' : ℤ) :
    pool.calculateTokensOutFromTokensIn (balances.set k own) tokenIn tokenInQuantity tokenOut =
      pool.calculateTokensOutFromTokensIn (balances.set k own') tokenIn tokenInQuantity
        tokenOut := by
  cases h with
  | fee hfee =>
      unfold BalancerV2StablePool.calculateTokensOutFromTokensIn
      rw [hfee]
      rfl
  | length hlength => exact quote_eq_of_length hlength own own'
  | @balance i balance factor e hi hbalance hfactor hoverflow =>
      by_cases hlength : balances.length = pool.scalingFactors.length
      · have hall : ∀ own, upscaleArray (balances.set k own) pool.scalingFactors =
            .error WeightedMath.mulOverflow := by
          intro own
          refine upscaleArray_of_overflow (by rwa [List.length_set]) ?_ hfactor hoverflow
          rw [List.getElem?_set_ne hi.symm]
          exact hbalance
        exact quote_congr ((hall own).trans (hall own').symm)
      · exact quote_eq_of_length hlength own own'
  | @amount i amount factor e hi hamount hfactor hoverflow =>
      by_cases hlength : balances.length = pool.scalingFactors.length
      · cases hj : tokenIndex pool.tokens tokenOut with
        | error e' =>
            unfold BalancerV2StablePool.calculateTokensOutFromTokensIn
            rw [hi, hj]
            rfl
        | ok j =>
            rw [quote_of_amount_overflow (by rwa [List.length_set]) hi hj hamount hfactor hoverflow,
              quote_of_amount_overflow (by rwa [List.length_set]) hi hj hamount hfactor hoverflow]
      · exact quote_eq_of_length hlength own own'

/-- A pool balance of zero leaves no quote. -/
theorem quote_own_zero (hk : k < balances.length) {i : ℕ}
    (hi : tokenIndex pool.tokens tokenIn = .ok i) (hne : i ≠ k) (amount : ℤ) :
    pool.calculateTokensOutFromTokensIn (balances.set k 0) tokenIn tokenInQuantity tokenOut ≠
      .ok amount := by
  intro h
  simp only [BalancerV2StablePool.calculateTokensOutFromTokensIn, bind_eq_ok] at h
  obtain ⟨index, hindex, j, -, fee, -, scaled, hscaled, factor, -, amountIn, -, invariant, -, out,
    hout, -⟩ := h
  obtain rfl := Except.ok.inj (hi.symm.trans hindex)
  obtain ⟨balanceIn, balanceOut, y, -, -, hy, -⟩ := calcOutGivenIn_spec hout
  simp only [getTokenBalanceGivenInvariantAndAllOtherBalances, bind_eq_ok] at hy
  obtain ⟨⟨inv2, b, c⟩, hcoefficients, -⟩ := hy
  -- the scaled balance of the pool is still zero when the other balances are solved for
  refine balances_ne_zero hcoefficients 0 ?_ rfl
  refine List.mem_of_getElem? (i := k) ?_
  rw [List.getElem?_set_ne hne]
  have hzero : (balances.set k 0)[k]? = some 0 := by simp [hk]
  obtain ⟨factor', x, hx, hget⟩ := getElem?_upscaleArray hscaled hzero
  have hnone : upscale 0 factor' = .ok 0 := by simp [upscale, WeightedMath.mulDown, maxUint256]; rfl
  rw [hnone] at hx
  rw [hget, ← Except.ok.inj hx]

theorem same_of_tokenIndex {tokens : List Erc20Token} {token found : Erc20Token} {i : ℕ}
    (h : tokenIndex tokens token = .ok i) (hfound : tokens[i]? = some found) :
    token.same found = true := by
  unfold tokenIndex at h
  split_ifs at h
  obtain rfl := Except.ok.inj h
  obtain ⟨hlt, rfl⟩ := List.getElem?_eq_some_iff.mp hfound
  have hsame := List.findIdx_getElem (w := hlt)
  exact decide_eq_true (of_decide_eq_true hsame).symm

end Quotes

/-! ## Main result -/

/-- Two balances of the pool's own token that scale to the same number. -/
def SameScaled (pool : BalancerV2StablePool) (k : ℕ) (own own' : ℤ) : Prop :=
  ∃ factor, pool.scalingFactors[k]? = some factor ∧ upscale own factor = upscale own' factor

/-- The balance of the pool's own token does not matter where it scales to the same number or the
call fails before the invariant. Where there is a quote, it does matter. -/
theorem ownBalance_ignored {tokens : List Erc20Token} {amplificationParameter : ℤ} {fee : ℕ}
    {rates : List ℤ} {pool : BalancerV2StablePool}
    (hpool : BalancerV2ComposableStablePool.new tokens amplificationParameter fee rates = .ok pool)
    {k : ℕ} {ownToken tokenIn tokenOut : Erc20Token} (hown : tokens[k]? = some ownToken)
    (hin : ¬tokenIn.same ownToken) (balances : List ℤ) (hbalances : balances.length = tokens.length)
    (tokenInQuantity : ℤ) :
    (∀ own own', SameScaled pool k own own' ∨
        FailsEarlier pool balances k tokenIn tokenInQuantity →
      pool.calculateTokensOutFromTokensIn (balances.set k own) tokenIn tokenInQuantity tokenOut =
        pool.calculateTokensOutFromTokensIn (balances.set k own') tokenIn tokenInQuantity
          tokenOut) ∧
    ∀ own amount,
      pool.calculateTokensOutFromTokensIn (balances.set k own) tokenIn tokenInQuantity tokenOut =
        .ok amount →
      ∃ own', pool.calculateTokensOutFromTokensIn (balances.set k own') tokenIn tokenInQuantity
        tokenOut ≠ .ok amount := by
  constructor
  · rintro own own' (⟨factor, hfactor, hsame⟩ | hearlier)
    · exact quote_congr (upscaleArray_set_congr hfactor hsame)
    · exact hearlier.quote_eq own own'
  · intro own amount hquote
    have hk : k < tokens.length := (List.getElem?_eq_some_iff.mp hown).1
    have htokens : pool.tokens = tokens := by
      simp only [BalancerV2ComposableStablePool.new, ite_error_eq_ok, bind_eq_ok] at hpool
      obtain ⟨-, factors, -, hpool⟩ := hpool
      rw [← Except.ok.inj hpool]
      rfl
    have hindex := hquote
    simp only [BalancerV2StablePool.calculateTokensOutFromTokensIn, bind_eq_ok] at hindex
    obtain ⟨i, hi, -⟩ := hindex
    refine ⟨0, quote_own_zero (hbalances ▸ hk) hi ?_ amount⟩
    rintro rfl
    rw [htokens] at hi
    exact hin (same_of_tokenIndex hi hown)

/-! ### A pool with its own token and two others -/

def sampleToken (address : ℕ) : Erc20Token := ⟨address, 1, "", 18⟩

/-- The constructor on three tokens, the first one that of the pool, without rates. -/
def samplePool : BalancerV2StablePool where
  tokens := [sampleToken 1, sampleToken 2, sampleToken 3]
  scalingFactors := [10 ^ 18, 10 ^ 18, 10 ^ 18]
  amplificationParameter := 200000
  fee := mkRat (4 * 10 ^ 14) (10 ^ 18)

theorem samplePool_new : BalancerV2ComposableStablePool.new
    [sampleToken 1, sampleToken 2, sampleToken 3] 200000 (4 * 10 ^ 14)
      [10 ^ 18, 10 ^ 18, 10 ^ 18] = .ok samplePool := by
  have hfactor : ∀ address, WeightedMath.mulDown python
      (computeScalingFactor (sampleToken address)) (10 ^ 18) = .ok (10 ^ 18) := by
    intro address
    exact (by decide : WeightedMath.mulDown python
      (computeScalingFactor (sampleToken 0)) (10 ^ 18) = .ok (10 ^ 18))
  unfold BalancerV2ComposableStablePool.new
  simp only [List.length_cons, List.length_nil, ne_eq, not_true_eq_false, if_false,
    List.zip_cons_cons, List.zip_nil_right, List.mapM_cons, List.mapM_nil, hfactor]
  rfl

theorem ownBalance_ignored_sample :
    (∀ own own', SameScaled samplePool 0 own own' ∨
        FailsEarlier samplePool [0, 1000, 1000] 0 (sampleToken 2) 10 →
      samplePool.calculateTokensOutFromTokensIn [own, 1000, 1000] (sampleToken 2) 10
          (sampleToken 3) =
        samplePool.calculateTokensOutFromTokensIn [own', 1000, 1000] (sampleToken 2) 10
          (sampleToken 3)) ∧
    ∀ own amount,
      samplePool.calculateTokensOutFromTokensIn [own, 1000, 1000] (sampleToken 2) 10
        (sampleToken 3) = .ok amount →
      ∃ own', samplePool.calculateTokensOutFromTokensIn [own', 1000, 1000] (sampleToken 2) 10
        (sampleToken 3) ≠ .ok amount :=
  ownBalance_ignored samplePool_new (k := 0) rfl (by decide) [0, 1000, 1000] rfl 10

/-- Two states that differ in the pool's own balance, with different amounts for one token. -/
theorem not_ownBalance_ignored :
    BalancerV2ComposableStablePool.new [sampleToken 1, sampleToken 2, sampleToken 3] 200000
        (4 * 10 ^ 14) [10 ^ 18, 10 ^ 18, 10 ^ 18] = .ok samplePool ∧
      samplePool.calculateTokensOutFromTokensIn
          [5000000000000000000000, 1000000000000000000000, 1000000000000000000000]
          (sampleToken 2) 1000000000000000000 (sampleToken 3) = .ok 999571516862611875 ∧
      samplePool.calculateTokensOutFromTokensIn
          [6000000000000000000000, 1000000000000000000000, 1000000000000000000000]
          (sampleToken 2) 1000000000000000000 (sampleToken 3) = .ok 999560143202967709 := by
  refine ⟨samplePool_new, ?_, ?_⟩
  · decide +kernel
  · decide +kernel

end Degenbot.StableMath
