import Degenbot.Algorithm.CurveMetapool
import Degenbot.Verification.Curve.Ports

/-! # Which quotes of a metapool depend on the override only

The cached balances are read by the liquidity checks and by `calc_withdraw_one_coin`. -/

namespace Degenbot.Curve.Metapool

open Library

variable {pool : Metapool}

/-- The request is quoted over the metapool's own coins, not only within the base pool. -/
def UsesMetapool (pool : Metapool) (tokenIn tokenOut : Erc20Token) : Prop :=
  contains pool.contract.tokens tokenIn ∧ contains pool.contract.tokens tokenOut ∨
    (contains pool.contract.tokens tokenIn ∨ contains pool.contract.tokens tokenOut) ∧
      (contains pool.base.tokens tokenIn ∨ contains pool.base.tokens tokenOut)

/-- Pool objects that differ in their cached balances only quote the same, or fail the same way. -/
def Isolated (pool : Metapool) (overrideState : PoolState) (tokenIn tokenOut : Erc20Token)
    (tokenInQuantity : ℤ) (blockIdentifier : Option ℕ) : Prop :=
  ∀ cached cached' : Cached pool,
    pool.calculateTokensOutFromTokensIn cached (some overrideState) tokenIn tokenOut tokenInQuantity
        blockIdentifier =
      pool.calculateTokensOutFromTokensIn cached' (some overrideState) tokenIn tokenOut
        tokenInQuantity blockIdentifier

/-! ## Calculations -/

/-- Only a route from the metapool to a coin of the base pool withdraws from the base pool. -/
def Withdraws (pool : Metapool) (i j : ℕ) : Prop := i < pool.maxCoin ∧ pool.maxCoin ≤ j

theorem dyUnderlying_override (cached cached' : Cached pool) (balances baseBalances : List ℤ)
    {xp : List ℤ} {vpRate : ℤ} {i j : ℕ} {dx : ℤ} {amountIn : Except Exn ℤ}
    {scaleOut : ℤ → Except Exn ℤ} {block : ℕ} {baseBlock : Option ℕ}
    (hroute : ¬Withdraws pool i j) :
    pool.dyUnderlying cached (some ⟨balances, some baseBalances⟩) xp vpRate i j dx amountIn scaleOut
        block baseBlock =
      pool.dyUnderlying cached' (some ⟨balances, some baseBalances⟩) xp vpRate i j dx amountIn
        scaleOut block baseBlock := by
  unfold dyUnderlying
  by_cases hbase : i ≥ pool.maxCoin ∧ j ≥ pool.maxCoin
  · simp only [if_pos hbase, basePoolBalances]
  · have hj : j < pool.maxCoin := by
      unfold Withdraws at hroute
      omega
    simp only [if_neg hbase, if_pos hj, depositedValue, basePoolBalances]

theorem getDyUnderlying_override (cached cached' : Cached pool) (balances baseBalances : List ℤ)
    {i j : ℕ} {dx : ℤ} {blockIdentifier : Option ℕ} (hroute : ¬Withdraws pool i j) :
    pool.getDyUnderlying cached (some ⟨balances, some baseBalances⟩) i j dx blockIdentifier =
      pool.getDyUnderlying cached' (some ⟨balances, some baseBalances⟩) i j dx blockIdentifier := by
  unfold getDyUnderlying
  simp only [poolBalances, dyUnderlying_override cached cached' balances baseBalances hroute]

theorem routed_override (cached cached' : Cached pool) (balances baseBalances : List ℤ)
    {x y : Except Exn ℕ} {dx : ℤ} {blockIdentifier : Option ℕ}
    (hroute : ∀ i j, x = .ok i → y = .ok j → ¬Withdraws pool i j) :
    (x >>= fun i => y >>= fun j => pool.getDyUnderlying cached
        (some ⟨balances, some baseBalances⟩) i j dx blockIdentifier) =
      (x >>= fun i => y >>= fun j => pool.getDyUnderlying cached'
        (some ⟨balances, some baseBalances⟩) i j dx blockIdentifier) := by
  cases x with
  | error e => rw [error_bind, error_bind]
  | ok i =>
      cases y with
      | error e => rw [ok_bind, ok_bind, error_bind, error_bind]
      | ok j =>
          rw [ok_bind, ok_bind, ok_bind, ok_bind]
          exact getDyUnderlying_override cached cached' balances baseBalances (hroute i j rfl rfl)

/-! ## Liquidity checks -/

theorem raising_ne_noLiquidity {α : Type} (x : Except Exn α) (message : String) :
    raising x ≠ .error (.noLiquidity message) := by
  cases x with
  | error e => simp [raising, Except.mapError]
  | ok a => simp [raising, Except.mapError]

theorem anyZero_replicate_one (n : ℕ) : anyZero (List.replicate n 1) = false := by
  simp [anyZero]

theorem anyZero_replicate_zero {n : ℕ} (hn : n ≠ 0) : anyZero (List.replicate n 0) = true := by
  simp [anyZero, hn]

/-- Behind the checks of all balances, the check of one token passes. -/
theorem checkToken_ok {tokens : List Erc20Token} {balances : List ℤ} {token : Erc20Token}
    (hlength : balances.length = tokens.length) (hnonzero : anyZero balances = false) :
    checkToken tokens balances token = .ok () := by
  unfold checkToken
  by_cases hmem : contains tokens token = true
  · have hindex : tokens.findIdx (·.same token) < balances.length := by
      rw [hlength, List.findIdx_lt_length]
      exact List.any_eq_true.mp hmem
    have hbalance : balances.get ⟨_, hindex⟩ ≠ 0 := by
      intro hzero
      have hany : anyZero balances = true :=
        List.any_eq_true.mpr ⟨_, List.get_mem balances ⟨_, hindex⟩, by simpa using hzero⟩
      rw [hnonzero] at hany
      cases hany
    have hitem : item balances (tokens.findIdx (·.same token)) = .ok (balances.get ⟨_, hindex⟩) := by
      simp [item, List.getElem?_eq_getElem hindex]
    rw [if_pos hmem, hitem]
    exact if_neg hbalance
  · rw [if_neg hmem]

/-- A pool object whose own tokens are all gone, and one with a unit of each. -/
def drained (pool : Metapool) : Cached pool where
  balances := List.replicate pool.contract.nCoins 0
  baseBalances := List.replicate pool.base.nCoins 1
  length := List.length_replicate
  baseLength := List.length_replicate

def stocked (pool : Metapool) : Cached pool where
  balances := List.replicate pool.contract.nCoins 1
  baseBalances := List.replicate pool.base.nCoins 1
  length := List.length_replicate
  baseLength := List.length_replicate

section Routes

variable {overrideState : Option PoolState} {tokenIn tokenOut : Erc20Token} {quantity : ℤ}
  {blockIdentifier : Option ℕ} {block : ℕ}

theorem drained_noLiquidity (hblock : pool.contract.blockNumber blockIdentifier = .ok block)
    (hquantity : 0 < quantity) (huses : UsesMetapool pool tokenIn tokenOut) :
    pool.calculateTokensOutFromTokensIn (drained pool) overrideState tokenIn tokenOut quantity
      blockIdentifier = .error noTokenLiquidity := by
  have hzero : anyZero (drained pool).balances = true :=
    anyZero_replicate_zero (by rw [pool.coins]; decide)
  have hbase : anyZero (drained pool).baseBalances = false := anyZero_replicate_one _
  simp only [calculateTokensOutFromTokensIn, hblock, raising, Except.mapError, ok_bind,
    if_neg (not_le.mpr hquantity), hzero, hbase, if_true, Bool.false_eq_true, if_false]
  by_cases hboth : contains pool.contract.tokens tokenIn ∧ contains pool.contract.tokens tokenOut
  · rw [if_pos hboth]
  · rw [if_neg hboth, if_pos (huses.resolve_left hboth)]

theorem stocked_ne_noLiquidity (hblock : pool.contract.blockNumber blockIdentifier = .ok block)
    (hquantity : 0 < quantity) :
    pool.calculateTokensOutFromTokensIn (stocked pool) overrideState tokenIn tokenOut quantity
      blockIdentifier ≠ .error noTokenLiquidity := by
  have hpool : anyZero (stocked pool).balances = false := anyZero_replicate_one _
  have hbase : anyZero (stocked pool).baseBalances = false := anyZero_replicate_one _
  have hblock' : raising (pool.contract.blockNumber blockIdentifier) = .ok block := by
    rw [hblock]
    rfl
  simp only [calculateTokensOutFromTokensIn, hblock', ok_bind, if_neg (not_le.mpr hquantity), hpool,
    hbase, checkToken_ok (stocked pool).length hpool, checkToken_ok (stocked pool).baseLength hbase,
    Bool.false_eq_true, if_false]
  split_ifs
  · exact raising_ne_noLiquidity _ _
  · exact raising_ne_noLiquidity _ _
  · exact raising_ne_noLiquidity _ _
  · simp [noTokenLiquidity]

/-- A coin that is the base pool's only is not the first underlying one. -/
theorem maxCoin_le_tokenIndex {token : Erc20Token} {i : ℕ}
    (houtside : ¬contains pool.contract.tokens token)
    (hi : tokenIndex pool.tokensUnderlying token = .ok i) : pool.maxCoin ≤ i := by
  unfold tokenIndex at hi
  split at hi
  · have hmax : pool.maxCoin = (pool.contract.tokens.take 1).length := by
      have hcoins : pool.contract.tokens.length = 2 := pool.coins
      rw [maxCoin, pool.coins, List.length_take, hcoins]
      rfl
    have hfirst : ¬(∃ t ∈ pool.contract.tokens.take 1, t.same token = true) := by
      rintro ⟨t, ht, hsame⟩
      exact houtside (List.any_eq_true.mpr ⟨t, List.mem_of_mem_take ht, hsame⟩)
    rw [← Except.ok.inj hi, hmax, tokensUnderlying, List.findIdx_append]
    rw [← List.findIdx_lt_length] at hfirst
    rw [if_neg hfirst]
    omega
  · cases hi

/-- A route within the base pool reads the override only. -/
theorem base_route_override (cached cached' : Cached pool) (balances baseBalances : List ℤ)
    (houtside : ¬UsesMetapool pool tokenIn tokenOut) :
    pool.calculateTokensOutFromTokensIn cached (some ⟨balances, some baseBalances⟩) tokenIn tokenOut
        quantity blockIdentifier =
      pool.calculateTokensOutFromTokensIn cached' (some ⟨balances, some baseBalances⟩) tokenIn
        tokenOut quantity blockIdentifier := by
  unfold UsesMetapool at houtside
  rw [not_or] at houtside
  simp only [calculateTokensOutFromTokensIn, if_neg houtside.1, if_neg houtside.2]
  by_cases hbase : contains pool.base.tokens tokenIn ∧ contains pool.base.tokens tokenOut
  · simp only [if_pos hbase]
    have hneither : ¬(contains pool.contract.tokens tokenIn ∨ contains pool.contract.tokens tokenOut) :=
      fun hone => houtside.2 ⟨hone, .inl hbase.1⟩
    rw [not_or] at hneither
    have hroute : ∀ i j, tokenIndex pool.tokensUnderlying tokenIn = .ok i →
        tokenIndex pool.tokensUnderlying tokenOut = .ok j → ¬Withdraws pool i j := by
      intro i j hi _ hwithdraws
      exact absurd (maxCoin_le_tokenIndex hneither.1 hi) (not_le.mpr hwithdraws.1)
    simp only [routed_override cached cached' balances baseBalances hroute]
  · simp only [if_neg hbase]

/-- Of pool objects without a zero balance, all quote the same on a route that does not withdraw
from the base pool. -/
theorem nonzero_route_override {cached cached' : Cached pool} (balances baseBalances : List ℤ)
    (hcached : anyZero cached.balances = false ∧ anyZero cached.baseBalances = false)
    (hcached' : anyZero cached'.balances = false ∧ anyZero cached'.baseBalances = false)
    (hroute : ∀ i j, pool.routeIndex tokenIn = .ok i → pool.routeIndex tokenOut = .ok j →
      ¬Withdraws pool i j) :
    pool.calculateTokensOutFromTokensIn cached (some ⟨balances, some baseBalances⟩) tokenIn tokenOut
        quantity blockIdentifier =
      pool.calculateTokensOutFromTokensIn cached' (some ⟨balances, some baseBalances⟩) tokenIn
        tokenOut quantity blockIdentifier := by
  by_cases huses : UsesMetapool pool tokenIn tokenOut
  · simp only [calculateTokensOutFromTokensIn, hcached.1, hcached.2, hcached'.1, hcached'.2,
      checkToken_ok cached.length hcached.1, checkToken_ok cached.baseLength hcached.2,
      checkToken_ok cached'.length hcached'.1, checkToken_ok cached'.baseLength hcached'.2,
      poolBalances, Bool.false_eq_true, if_false, ok_bind]
    by_cases hboth : contains pool.contract.tokens tokenIn ∧ contains pool.contract.tokens tokenOut
    · simp only [if_pos hboth]
    · simp only [if_neg hboth, if_pos (huses.resolve_left hboth)]
      simp only [routed_override cached cached' balances baseBalances hroute]
  · exact base_route_override cached cached' balances baseBalances huses

end Routes

/-- A quote with an override depends on the override alone exactly where no coin of the metapool
is traded. -/
theorem isolated_iff (pool : Metapool) (balances baseBalances : List ℤ)
    (tokenIn tokenOut : Erc20Token) (quantity : ℤ) (blockIdentifier : Option ℕ) :
    Isolated pool ⟨balances, some baseBalances⟩ tokenIn tokenOut quantity blockIdentifier ↔
      (∃ e, pool.contract.blockNumber blockIdentifier = .error e) ∨ quantity ≤ 0 ∨
        ¬UsesMetapool pool tokenIn tokenOut := by
  constructor
  · intro hisolated
    cases hblock : pool.contract.blockNumber blockIdentifier with
    | error e => exact .inl ⟨e, rfl⟩
    | ok block =>
        refine .inr ?_
        by_contra hrequest
        rw [not_or, not_le, not_not] at hrequest
        exact stocked_ne_noLiquidity hblock hrequest.1 ((hisolated (stocked pool) (drained pool)).trans
          (drained_noLiquidity hblock hrequest.1 hrequest.2))
  · rintro (⟨e, hblock⟩ | hquantity | houtside) cached cached'
    · simp only [calculateTokensOutFromTokensIn, hblock, raising, Except.mapError, error_bind]
    · simp only [calculateTokensOutFromTokensIn, if_pos hquantity]
    · exact base_route_override cached cached' balances baseBalances houtside

/-! ## A metapool over a base pool of two coins -/

def sampleToken (address : ℕ) : Erc20Token :=
  { address := address, chainId := 1, symbol := "COIN", decimals := 18 }

def sampleContract : Contract := CurveSimulation.plainContract ⟨[10 ^ 24, 10 ^ 24], 100, 4⟩

def sampleMetapool : Metapool where
  contract := { sampleContract with
    tokens := [sampleToken 1, sampleToken 9]
    metapool := some .default }
  base := { sampleContract with
    tokens := [sampleToken 2, sampleToken 3]
    yDVariant0 := true
    chain := { sampleContract.chain with totalSupply := fun _ => .ok (2 * 10 ^ 24) } }
  variant := .default
  isMetapool := rfl
  coins := rfl

def sampleCached (balances baseBalances : ℤ × ℤ) : Cached sampleMetapool where
  balances := [balances.1, balances.2]
  baseBalances := [baseBalances.1, baseBalances.2]
  length := rfl
  baseLength := rfl

def sampleOverride : PoolState := ⟨[10 ^ 24, 10 ^ 24], some [10 ^ 24, 10 ^ 24]⟩

/-- The withdrawal from the base pool is quoted at its cached balances, and a swap that the
override can fill is refused for a cached balance of zero. -/
theorem override_mixed_with_cached :
    sampleMetapool.calculateTokensOutFromTokensIn (sampleCached (10 ^ 24, 10 ^ 24) (10 ^ 24, 10 ^ 24))
        (some sampleOverride) (sampleToken 1) (sampleToken 2) (10 ^ 21) none = .ok 999387712078713949566 ∧
      sampleMetapool.calculateTokensOutFromTokensIn
        (sampleCached (10 ^ 24, 10 ^ 24) (5 * 10 ^ 23, 2 * 10 ^ 24))
        (some sampleOverride) (sampleToken 1) (sampleToken 2) (10 ^ 21) none = .ok 1221082167325832144253 ∧
      sampleMetapool.calculateTokensOutFromTokensIn (sampleCached (0, 10 ^ 24) (10 ^ 24, 10 ^ 24))
        (some sampleOverride) (sampleToken 1) (sampleToken 2) (10 ^ 21) none =
          .error noTokenLiquidity := by
  decide

end Degenbot.Curve.Metapool
