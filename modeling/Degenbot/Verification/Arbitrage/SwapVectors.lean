import Degenbot.Algorithm.Arbitrage
import Degenbot.Library.Outcome

/-! # Swap vectors

When the vectors that the two constructors compute lead through the pools and back to the
input token. -/

namespace Degenbot

open Library

/-! ## Token equivalence -/

theorem Erc20Token.same_iff {a b : Erc20Token} : a.same b = true ↔ a.address = b.address := by
  simp [same]

theorem tokensEquivalent_of_same {a b : Erc20Token} (h : a.same b = true) :
    tokensEquivalent a b = true := by
  simp [tokensEquivalent, h]

@[simp] theorem tokensEquivalent_refl (a : Erc20Token) : tokensEquivalent a a = true :=
  tokensEquivalent_of_same (by simp [Erc20Token.same])

theorem isEther_eq_false_of_wrapped {chainId : ℕ} {token : Erc20Token}
    (h : wrappedNativeTokens chainId = some token.address) : token.isEther = false := by
  unfold wrappedNativeTokens at h
  split at h
  case h_6 => cases h
  all_goals simp [Erc20Token.isEther, Erc20Token.etherAddresses, ← Option.some.inj h]

/-- Ether is equivalent to the wrapped native token of a chain. -/
theorem tokensEquivalent_wrapped {ether wrapped : Erc20Token} (hether : ether.isEther = true)
    (hwrapped : wrappedNativeTokens wrapped.chainId = some wrapped.address) :
    tokensEquivalent ether wrapped = true := by
  have hplain := isEther_eq_false_of_wrapped hwrapped
  simp [tokensEquivalent, hether, hplain, hwrapped]

/-! ## Consistent vectors -/

/-- A vector swaps between the two tokens of its pool, in the direction it says. -/
structure HopConsistent (pool : LiquidityPool) (vector : SwapVector) : Prop where
  tokens :
    (vector.tokenIn.same pool.token0 = true ∧ vector.tokenOut.same pool.token1 = true) ∨
      (vector.tokenIn.same pool.token1 = true ∧ vector.tokenOut.same pool.token0 = true)
  direction : vector.zeroForOne = true ↔ vector.tokenIn.same pool.token0 = true

/-- A vector that enters its pool with `token0` or with `token1` is consistent when its
direction says which. -/
theorem hopConsistent_side {pool : LiquidityPool} (first : Prop) [Decidable first]
    {zeroForOne : Bool} (hne : pool.token0.address ≠ pool.token1.address) :
    HopConsistent pool ⟨if first then pool.token0 else pool.token1,
      if first then pool.token1 else pool.token0, zeroForOne⟩ ↔
      (zeroForOne = true ↔ first) := by
  by_cases hfirst : first
  · simp only [hfirst, if_true, iff_true]
    refine ⟨fun h => h.direction.mpr (by simp [Erc20Token.same]), fun h => ?_⟩
    exact ⟨.inl (by simp [Erc20Token.same]), by simp [h, Erc20Token.same]⟩
  · have hout : pool.token1.same pool.token0 = false := by simp [Erc20Token.same, hne.symm]
    simp only [hfirst, if_false, iff_false]
    refine ⟨fun h hzero => ?_, fun h => ⟨.inr (by simp [Erc20Token.same]), by simp [h, hout]⟩⟩
    simpa [hout] using h.direction.mp hzero

theorem uniswapPoolSwapVector_side {pool : LiquidityPool} (first : Prop) [Decidable first]
    {zeroForOne : Bool} {vector : SwapVector}
    (h : uniswapPoolSwapVector (if first then pool.token0 else pool.token1)
      (if first then pool.token1 else pool.token0) zeroForOne = .ok vector) :
    pool.token0.address ≠ pool.token1.address ∧
      vector = ⟨if first then pool.token0 else pool.token1,
        if first then pool.token1 else pool.token0, zeroForOne⟩ := by
  simp only [uniswapPoolSwapVector, ite_error_eq_ok, Except.ok.injEq] at h
  obtain ⟨hne, rfl⟩ := h
  refine ⟨fun heq => hne ?_, rfl⟩
  by_cases hfirst : first <;> simp [hfirst, Erc20Token.same, heq]

/-- The vectors of a path lead from pool to pool and end in the input token. -/
structure VectorsConsistent (inputToken : Erc20Token) (pools : List LiquidityPool)
    (vectors : List SwapVector) : Prop where
  hops : List.Forall₂ HopConsistent pools vectors
  linked : vectors.IsChain fun v w => tokensEquivalent v.tokenOut w.tokenIn = true
  closed : ∀ v ∈ vectors.getLast?, tokensEquivalent v.tokenOut inputToken = true

/-- The token that a path starting with `current` ends in. -/
def lastToken (current : Erc20Token) (vectors : List SwapVector) : Erc20Token :=
  (vectors.getLast?.map SwapVector.tokenOut).getD current

@[simp] theorem lastToken_nil (current : Erc20Token) : lastToken current [] = current := rfl

@[simp] theorem lastToken_cons (current : Erc20Token) (v : SwapVector) (vs : List SwapVector) :
    lastToken current (v :: vs) = lastToken v.tokenOut vs := by
  cases hlast : vs.getLast? <;> simp [lastToken, List.getLast?_cons, hlast]

theorem closed_iff_lastToken {inputToken : Erc20Token} {vectors : List SwapVector} :
    (∀ v ∈ vectors.getLast?, tokensEquivalent v.tokenOut inputToken = true) ↔
      tokensEquivalent (lastToken inputToken vectors) inputToken = true := by
  cases hlast : vectors.getLast? <;> simp [lastToken, hlast]

/-! ## `UniswapLpCycle` -/

namespace UniswapLpCycle

/-- The token is wrapped native, while the pool holds Ether in its place. -/
def MeetsEther (token : Erc20Token) (pool : LiquidityPool) : Prop :=
  token.same pool.token0 = false ∧ token.same pool.token1 = false ∧
    wrappedNativeTokens pool.chainId = some token.address ∧ pool.holds zeroAddress = true

/-- The other token of a pool that is entered with `token`, or with its wrapped native
token in place of Ether. -/
def exitToken (token : Erc20Token) (pool : LiquidityPool) : Erc20Token :=
  if token.same pool.token0 then pool.token1
  else if token.same pool.token1 then pool.token0
  else if wrappedNativeTokens pool.chainId = some pool.token0.address then pool.token1
  else pool.token0

/-- No pool meets wrapped native with Ether, and the pools lead from `current` back to the
input token. -/
def LeadsBack (inputToken : Erc20Token) : Erc20Token → List LiquidityPool → Prop
  | current, [] => tokensEquivalent current inputToken = true
  | current, pool :: pools =>
      ¬MeetsEther current pool ∧ LeadsBack inputToken (exitToken current pool) pools

variable {token inputToken : Erc20Token} {pool : LiquidityPool} {pools : List LiquidityPool}
  {vector : SwapVector} {vectors : List SwapVector}

/-- What a vector of `UniswapLpCycle` can be. -/
theorem swapVector_cases (h : swapVector token pool = .ok vector) :
    (¬MeetsEther token pool ∧ HopConsistent pool vector ∧
        vector.tokenOut = exitToken token pool ∧ tokensEquivalent token vector.tokenIn = true) ∨
      (MeetsEther token pool ∧ ¬HopConsistent pool vector) := by
  unfold swapVector at h
  by_cases h0 : token.same pool.token0 = true
  · rw [if_pos h0] at h
    obtain ⟨hne, rfl⟩ := uniswapPoolSwapVector_side True h
    refine .inl ⟨fun hmeets => ?_, (hopConsistent_side True hne).mpr ?_, ?_,
      tokensEquivalent_of_same h0⟩
    · simp [hmeets.1] at h0
    · simp [Erc20Token.same, Erc20Token.same_iff.mp h0]
    · simp [exitToken, h0]
  rw [if_neg h0] at h
  by_cases h1 : token.same pool.token1 = true
  · rw [if_pos h1] at h
    obtain ⟨hne, rfl⟩ := uniswapPoolSwapVector_side False h
    refine .inl ⟨fun hmeets => ?_, (hopConsistent_side False hne).mpr ?_, ?_,
      tokensEquivalent_of_same h1⟩
    · simp [hmeets.2.1] at h1
    · simp [Erc20Token.same, Erc20Token.same_iff.mp h1, hne]
    · simp [exitToken, h0, h1]
  rw [if_neg h1] at h
  rw [Bool.not_eq_true] at h0 h1
  cases hwrapped : wrappedNativeTokens pool.chainId with
  | none => simp [hwrapped] at h
  | some wrapped =>
      simp only [hwrapped] at h
      by_cases hether : token.isEther = true ∧ pool.holds wrapped = true
      · -- Ether enters through the wrapped native token of the pool
        rw [if_pos hether] at h
        obtain ⟨hne, rfl⟩ := uniswapPoolSwapVector_side _ h
        refine .inl ⟨fun hmeets => ?_, (hopConsistent_side _ hne).mpr (by simp), ?_, ?_⟩
        · have hplain := isEther_eq_false_of_wrapped hmeets.2.2.1
          simp [hplain] at hether
        · simp [exitToken, h0, h1, hwrapped, eq_comm]
        · have hholds := hether.2
          simp only [LiquidityPool.holds, decide_eq_true_eq] at hholds
          refine tokensEquivalent_wrapped hether.1 ?_
          by_cases hfirst : pool.token0.address = wrapped
          · simp [hfirst, pool.token0_chain, hwrapped]
          · have hsecond := hholds.resolve_left hfirst
            simp [hfirst, pool.token1_chain, hwrapped, hsecond]
      · rw [if_neg hether, ite_eq_iff] at h
        rcases h with ⟨hzero, h⟩ | ⟨-, h⟩
        · refine .inr ⟨⟨h0, h1, by rw [hwrapped, hzero.1], hzero.2⟩, fun hconsistent => ?_⟩
          obtain ⟨hne, rfl⟩ := uniswapPoolSwapVector_side _ h
          have hside := (hopConsistent_side _ hne).mp hconsistent
          have hholds := hzero.2
          simp only [LiquidityPool.holds, decide_eq_true_eq] at hholds hside
          rcases hholds with hfirst | hsecond
          · exact hne (hfirst.trans (hside.mpr hfirst).symm)
          · exact hne ((hside.mp hsecond).trans hsecond.symm)
        · cases h

theorem buildSwapVectors_cons (h : buildSwapVectors token (pool :: pools) = .ok vectors) :
    ∃ v vs, vectors = v :: vs ∧ swapVector token pool = .ok v ∧
      buildSwapVectors v.tokenOut pools = .ok vs := by
  simp only [buildSwapVectors, bind_eq_ok, Except.ok.injEq] at h
  obtain ⟨v, hv, vs, hvs, rfl⟩ := h
  exact ⟨v, vs, rfl, hv, hvs⟩

/-- Consistent hops are linked: each takes the token that the previous one has left. -/
theorem buildSwapVectors_linked (h : buildSwapVectors token pools = .ok vectors)
    (hops : List.Forall₂ HopConsistent pools vectors) :
    (∀ v ∈ vectors.head?, tokensEquivalent token v.tokenIn = true) ∧
      vectors.IsChain fun v w => tokensEquivalent v.tokenOut w.tokenIn = true := by
  induction pools generalizing token vectors with
  | nil =>
      cases hops
      exact ⟨by simp, .nil⟩
  | cons pool pools ih =>
      obtain ⟨v, vs, rfl, hv, hvs⟩ := buildSwapVectors_cons h
      cases hops with
      | cons hop hops =>
        obtain ⟨hhead, hchain⟩ := ih hvs hops
        refine ⟨?_, List.isChain_cons.mpr ⟨hhead, hchain⟩⟩
        rcases swapVector_cases hv with ⟨-, -, -, hin⟩ | ⟨-, hbad⟩
        · simpa using hin
        · exact absurd hop hbad

theorem buildSwapVectors_hops (h : buildSwapVectors token pools = .ok vectors) :
    (List.Forall₂ HopConsistent pools vectors ∧
        tokensEquivalent (lastToken token vectors) inputToken = true) ↔
      LeadsBack inputToken token pools := by
  induction pools generalizing token vectors with
  | nil =>
      cases h
      simp [LeadsBack]
  | cons pool pools ih =>
      obtain ⟨v, vs, rfl, hv, hvs⟩ := buildSwapVectors_cons h
      rw [List.forall₂_cons, lastToken_cons, and_assoc, ih hvs, LeadsBack]
      rcases swapVector_cases hv with ⟨hmeets, hop, hout, -⟩ | ⟨hmeets, hbad⟩
      · simp only [hop, hmeets, hout, not_false_eq_true, true_and]
      · simp only [hbad, hmeets, not_true_eq_false, false_and]

theorem init_consistent_iff {poolIsViable : LiquidityPool → SwapVector → Except Exn Bool}
    {maxInput : Option ℤ} {cycle : UniswapLpCycle}
    (h : init poolIsViable inputToken pools maxInput = .ok cycle) :
    VectorsConsistent inputToken pools cycle.swapVectors ↔
      LeadsBack inputToken inputToken pools := by
  simp only [init, bind_eq_ok, Except.ok.injEq] at h
  obtain ⟨-, -, _, -, vectors, hvectors, _, -, rfl⟩ := h
  rw [← buildSwapVectors_hops hvectors]
  constructor
  · intro hconsistent
    exact ⟨hconsistent.hops, closed_iff_lastToken.mp hconsistent.closed⟩
  · rintro ⟨hops, hclosed⟩
    exact ⟨hops, (buildSwapVectors_linked hvectors hops).2, closed_iff_lastToken.mpr hclosed⟩

end UniswapLpCycle

/-! ## `ArbitragePath` -/

namespace ArbitragePath

/-- Each pool is entered with a token of its own, `token0` only if the path has it. -/
def EntersOwnTokens : Erc20Token → List LiquidityPool → Prop
  | _, [] => True
  | current, pool :: pools =>
      (current.same pool.token0 = true ∨
          (tokensEquivalent current pool.token0 = false ∧ current.same pool.token1 = true)) ∧
        EntersOwnTokens (if tokensEquivalent current pool.token0 then pool.token1
          else pool.token0) pools

variable {current inputToken : Erc20Token} {pools : List LiquidityPool}

theorem buildSwapVectors_hop (current : Erc20Token) (pool : LiquidityPool) :
    HopConsistent pool ⟨current, if tokensEquivalent current pool.token0 then pool.token1
        else pool.token0, tokensEquivalent current pool.token0⟩ ↔
      (current.same pool.token0 = true ∨
        (tokensEquivalent current pool.token0 = false ∧ current.same pool.token1 = true)) := by
  cases hfirst : tokensEquivalent current pool.token0 with
  | true =>
      simp only [if_true, Bool.true_eq_false, false_and, or_false]
      refine ⟨fun h => h.direction.mp rfl, fun h => ⟨.inl ⟨h, ?_⟩, ?_⟩⟩
      · simp [Erc20Token.same]
      · simp [h]
  | false =>
      have hne : current.same pool.token0 = false := by
        rw [Bool.eq_false_iff]
        intro h
        simp [tokensEquivalent_of_same h] at hfirst
      simp only [hne, Bool.false_eq_true, if_false, true_and, false_or]
      refine ⟨fun h => ?_, fun h => ⟨.inr ⟨h, by simp [Erc20Token.same]⟩, by simp [hne]⟩⟩
      rcases h.tokens with ⟨hin, -⟩ | ⟨hin, -⟩
      · simp [hne] at hin
      · exact hin

theorem buildSwapVectors_hops (current : Erc20Token) (pools : List LiquidityPool) :
    List.Forall₂ HopConsistent pools (buildSwapVectors current pools) ↔
      EntersOwnTokens current pools := by
  induction pools generalizing current with
  | nil => simp [buildSwapVectors, EntersOwnTokens]
  | cons pool pools ih =>
      rw [buildSwapVectors, List.forall₂_cons, buildSwapVectors_hop, ih, EntersOwnTokens]

theorem buildSwapVectors_linked (current : Erc20Token) (pools : List LiquidityPool) :
    (∀ v ∈ (buildSwapVectors current pools).head?, v.tokenIn = current) ∧
      (buildSwapVectors current pools).IsChain
        fun v w => tokensEquivalent v.tokenOut w.tokenIn = true := by
  induction pools generalizing current with
  | nil => exact ⟨by simp [buildSwapVectors], .nil⟩
  | cons pool pools ih =>
      obtain ⟨hhead, hchain⟩ := ih (if tokensEquivalent current pool.token0 then pool.token1
        else pool.token0)
      refine ⟨by simp [buildSwapVectors], List.isChain_cons.mpr ⟨fun w hw => ?_, hchain⟩⟩
      rw [hhead w hw]
      exact tokensEquivalent_refl _

/-- The validation walks the path as the vectors do. -/
theorem chainTokens_eq {allPools : List LiquidityPool} {tokens : List (Erc20Token × Erc20Token)}
    (h : chainTokens allPools current pools = .ok tokens) :
    tokens.map Prod.snd = (buildSwapVectors current pools).map SwapVector.tokenOut := by
  induction pools generalizing current tokens with
  | nil =>
      cases h
      rfl
  | cons pool pools ih =>
      unfold chainTokens at h
      split_ifs at h with hfirst hsecond
      · simp only [bind_eq_ok, Except.ok.injEq] at h
        obtain ⟨rest, hrest, rfl⟩ := h
        simp [buildSwapVectors, hfirst, ih hrest]
      · simp only [bind_eq_ok, Except.ok.injEq] at h
        obtain ⟨rest, hrest, rfl⟩ := h
        simp [buildSwapVectors, hfirst, ih hrest]

theorem validatePools_closed {Hop : Type} {toHopState : LiquidityPool → Bool → Except Exn Hop}
    (h : validatePools toHopState pools inputToken = .ok ()) :
    ∀ v ∈ (buildSwapVectors inputToken pools).getLast?,
      tokensEquivalent v.tokenOut inputToken = true := by
  simp only [validatePools, bind_eq_ok] at h
  obtain ⟨-, -, tokens, htokens, hlast⟩ := h
  intro v hv
  have hout : (tokens.map Prod.snd).getLast? = some v.tokenOut := by
    rw [chainTokens_eq htokens, List.getLast?_map, hv]
    rfl
  rw [List.getLast?_map] at hout
  cases hfinal : tokens.getLast? with
  | none => simp [hfinal] at hout
  | some pair =>
      simp only [hfinal, Option.map_some, Option.some.injEq, ite_error_eq_ok, not_not] at hout hlast
      rw [← hout]
      exact hlast.1

theorem init_consistent_iff {Hop : Type} {toHopState : LiquidityPool → Bool → Except Exn Hop}
    {maxInput : Option ℤ} {path : ArbitragePath Hop}
    (h : init toHopState pools inputToken maxInput = .ok path) :
    VectorsConsistent inputToken pools path.swapVectors ↔ EntersOwnTokens inputToken pools := by
  simp only [init, ite_error_eq_ok, bind_eq_ok, Except.ok.injEq] at h
  obtain ⟨-, _, hvalid, _, -, rfl⟩ := h
  rw [← buildSwapVectors_hops]
  refine ⟨fun hconsistent => hconsistent.hops, fun hops => ⟨hops, ?_, ?_⟩⟩
  · exact (buildSwapVectors_linked inputToken pools).2
  · exact validatePools_closed hvalid

end ArbitragePath

/-- The vectors of a cycle are consistent unless a pool meets wrapped native with Ether or
the cycle does not close, those of a path unless a pool is entered with a foreign token. -/
theorem swapVectors_consistent_iff (inputToken : Erc20Token) (pools : List LiquidityPool) :
    (∀ poolIsViable maxInput cycle,
      UniswapLpCycle.init poolIsViable inputToken pools maxInput = .ok cycle →
      (VectorsConsistent inputToken pools cycle.swapVectors ↔
        UniswapLpCycle.LeadsBack inputToken inputToken pools)) ∧
    (∀ (Hop : Type) (toHopState : LiquidityPool → Bool → Except Exn Hop) maxInput path,
      ArbitragePath.init toHopState pools inputToken maxInput = .ok path →
      (VectorsConsistent inputToken pools path.swapVectors ↔
        ArbitragePath.EntersOwnTokens inputToken pools)) :=
  ⟨fun _ _ _ h => UniswapLpCycle.init_consistent_iff h,
    fun _ _ _ _ h => ArbitragePath.init_consistent_iff h⟩

/-! ## Two cycles between USDC and the native token -/

def usdc : Erc20Token := ⟨0xA0b86991c6218b36c1d19D4a2e9Eb0cE3606eB48, 1, "USDC", 6⟩
def weth : Erc20Token := ⟨0xC02aaA39b223FE8D0A0e5C4F27eAD9083C756Cc2, 1, "WETH", 18⟩
def ether : Erc20Token := ⟨0, 1, "ETH", 18⟩

def usdcWethV2 : LiquidityPool :=
  ⟨.uniswapV2, 0xB4e16d0168e52d35CaCD2c6185b44281Ec28C9Dc, none, 1, usdc, weth, rfl, rfl⟩

def usdcWethV3 : LiquidityPool :=
  ⟨.uniswapV3, 0x88e6A0c2dDD26FEEb64F039a2c41296FcB3f5640, none, 1, usdc, weth, rfl, rfl⟩

def etherUsdcV4 : LiquidityPool :=
  ⟨.uniswapV4, 0x000000000004444c5dc75cB358380D2e3dE08A90, some 1, 1, ether, usdc, rfl, rfl⟩

/-- Two pools of the same tokens. -/
theorem swapVectors_consistent_sample :
    (∃ cycle, UniswapLpCycle.init (fun _ _ => .ok true) usdc [usdcWethV2, usdcWethV3] none =
        .ok cycle ∧ VectorsConsistent usdc [usdcWethV2, usdcWethV3] cycle.swapVectors) ∧
      (∃ path, ArbitragePath.init (fun _ _ => .ok ()) [usdcWethV2, usdcWethV3] usdc none =
        .ok path ∧ VectorsConsistent usdc [usdcWethV2, usdcWethV3] path.swapVectors) := by
  obtain ⟨hcycle, hpath⟩ := swapVectors_consistent_iff usdc [usdcWethV2, usdcWethV3]
  refine ⟨⟨_, rfl, (hcycle (fun _ _ => .ok true) none _ rfl).mpr ?_⟩,
    ⟨_, rfl, (hpath _ (fun _ _ => .ok ()) none _ rfl).mpr ?_⟩⟩
  · refine ⟨fun h => ?_, fun h => ?_, ?_⟩
    · exact absurd h.1 (by decide)
    · exact absurd h.2.1 (by decide)
    · change tokensEquivalent _ _ = true
      decide
  · exact ⟨.inl (by decide), .inr (by decide), trivial⟩

/-- USDC is sold for wrapped native, which buys USDC in a pool of Ether: the cycle has the
second pool swap `token1` for `token0`, the path enters it with a foreign token. -/
theorem swapVectors_unwrap_inconsistent :
    (∃ cycle, UniswapLpCycle.init (fun _ _ => .ok true) usdc [usdcWethV2, etherUsdcV4] none =
        .ok cycle ∧ ¬VectorsConsistent usdc [usdcWethV2, etherUsdcV4] cycle.swapVectors) ∧
      (∃ path, ArbitragePath.init (fun _ _ => .ok ()) [usdcWethV2, etherUsdcV4] usdc none =
        .ok path ∧ ¬VectorsConsistent usdc [usdcWethV2, etherUsdcV4] path.swapVectors) := by
  refine ⟨⟨_, rfl, fun h => ?_⟩, ⟨_, rfl, fun h => ?_⟩⟩
  · obtain ⟨-, hops⟩ := List.forall₂_cons.mp h.hops
    obtain ⟨hop, -⟩ := List.forall₂_cons.mp hops
    exact absurd (hop.direction.mpr (by decide)) (by decide)
  · obtain ⟨-, hops⟩ := List.forall₂_cons.mp h.hops
    obtain ⟨hop, -⟩ := List.forall₂_cons.mp hops
    rcases hop.tokens with ⟨hin, -⟩ | ⟨hin, -⟩
    · exact absurd hin (by decide)
    · exact absurd hin (by decide)

end Degenbot
