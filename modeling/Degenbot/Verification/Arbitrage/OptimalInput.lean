import Degenbot.Verification.Arbitrage.Profit
import Degenbot.Verification.Arbitrage.SwapVectors

/-! # What the Rust optimiser is told about a cycle of two pools

The orientation of the pools is taken from token comparisons of its own, and the amount found
is not compared with the maximum input. -/

namespace Degenbot.UniswapLpCycle

open Library

section Definitions

variable (data : PoolData) (pool : LiquidityPool) (token : Erc20Token)

def reserveOf : ℤ :=
  if pool.token0.same token then (data.v2Reserves pool).1 else (data.v2Reserves pool).2

def feeOn : ℚ := if pool.token0.same token then (data.v2Fees pool).1 else (data.v2Fees pool).2

/-- The arguments are those of the swaps of the two vectors; the fee is in hundredths of a
percent. -/
structure Describes (p2 : LiquidityPool) (v1 v2 : SwapVector) (arguments : RustArguments) :
    Prop where
  direction : arguments.zeroForOne = v1.zeroForOne
  reserves : ∀ rIn rOut fee, arguments.v2 = some (rIn, rOut, fee) →
    rIn = reserveOf data p2 v2.tokenIn ∧ rOut = reserveOf data p2 v2.tokenOut ∧
      (fee : ℚ) / 10000 = feeOn data p2 v2.tokenIn

/-- Whatever the optimiser returns, the input of the result is within the bounds. -/
def InBounds (minimizeScalar : (ℤ → Except Exn ℤ) → Except Exn ℤ) (cycle : UniswapLpCycle) :
    Prop :=
  ∀ x result, calculate (some fun _ => .ok x) minimizeScalar data cycle = .ok result →
    1 ≤ result.inputAmount ∧ result.inputAmount ≤ cycle.maxInput

/-- The pool holds the input token, or holds Ether or its wrapped token instead, but not where
the vector then swaps `token0`. -/
def EntersAsCompared (inputToken : Erc20Token) : Prop :=
  pool.holds inputToken.address = true ∨
    (inputToken.isEther = true → wrappedNativeTokens pool.chainId ≠ some pool.token0.address) ∧
      (wrappedNativeTokens pool.chainId = some inputToken.address →
        pool.token1.address ≠ zeroAddress)

/-- The second pool takes its `token0` exactly when that is `token1` of the first one, and the
fee is a whole number; or both reserves are the same, and the fee on one token rounds down to
the fee on the other. -/
def Oriented (p1 p2 : LiquidityPool) (v2 : SwapVector) : Prop :=
  (p2.token0.same p1.token1 = p2.token0.same v2.tokenIn ∧
      ∃ n : ℤ, feeOn data p2 v2.tokenIn * 10000 = n) ∨
    (p2.token0.same p1.token1 ≠ p2.token0.same v2.tokenIn ∧
      (data.v2Reserves p2).1 = (data.v2Reserves p2).2 ∧
      feeOn data p2 v2.tokenIn * 10000 = ⌊feeOn data p2 p1.token1 * 10000⌋)

/-- The two pools swap the amount, and no swap pays out nothing. -/
def Accepted (p1 p2 : LiquidityPool) (v1 v2 : SwapVector) (x : ℤ) : Prop :=
  x ≠ 0 ∧ ∃ amount, data.quotes p1 v1.tokenIn x = .ok amount ∧ amount ≠ 0 ∧
    ∃ out, data.quotes p2 v2.tokenIn amount = .ok out ∧ (p2.kind.isUniswapV2 = true → out ≠ 0)

end Definitions

/-! ## The direction of the first pool -/

section Direction

variable {inputToken : Erc20Token} {pool : LiquidityPool} {vector : SwapVector}

theorem zeroForOne_eq_iff (h : swapVector inputToken pool = .ok vector) :
    pool.token0.same inputToken = vector.zeroForOne ↔ EntersAsCompared pool inputToken := by
  unfold swapVector at h
  by_cases h0 : inputToken.same pool.token0 = true
  · rw [if_pos h0] at h
    obtain ⟨hne, rfl⟩ := uniswapPoolSwapVector_side True h
    have hholds : pool.holds inputToken.address = true := by
      simp [LiquidityPool.holds, Erc20Token.same_iff.mp h0]
    exact ⟨fun _ => .inl hholds, fun _ => rfl⟩
  rw [if_neg h0] at h
  by_cases h1 : inputToken.same pool.token1 = true
  · rw [if_pos h1] at h
    obtain ⟨hne, rfl⟩ := uniswapPoolSwapVector_side False h
    have hholds : pool.holds inputToken.address = true := by
      simp [LiquidityPool.holds, Erc20Token.same_iff.mp h1]
    exact ⟨fun _ => .inl hholds, fun _ => rfl⟩
  rw [if_neg h1] at h
  rw [Erc20Token.same_iff] at h0 h1
  have hflag : pool.token0.same inputToken = false := by
    simp [Erc20Token.same, Ne.symm h0]
  have hnotHeld : pool.holds inputToken.address = false := by
    simp [LiquidityPool.holds, Ne.symm h0, Ne.symm h1]
  rw [hflag, EntersAsCompared, hnotHeld]
  cases hwrapped : wrappedNativeTokens pool.chainId with
  | none => simp [hwrapped] at h
  | some wrapped =>
      simp only [hwrapped] at h
      by_cases hether : inputToken.isEther = true ∧ pool.holds wrapped = true
      · rw [if_pos hether] at h
        obtain ⟨-, rfl⟩ := uniswapPoolSwapVector_side _ h
        have hplain : wrapped ≠ inputToken.address := by
          intro heq
          have hnot := isEther_eq_false_of_wrapped (heq ▸ hwrapped)
          simp [hnot] at hether
        simp [hether.1, hplain, eq_comm]
      · rw [if_neg hether, ite_eq_iff] at h
        rcases h with ⟨hzero, h⟩ | ⟨-, h⟩
        · obtain ⟨-, rfl⟩ := uniswapPoolSwapVector_side _ h
          have hplain : inputToken.isEther = false :=
            isEther_eq_false_of_wrapped (hzero.1 ▸ hwrapped)
          simp [hplain, hzero.1]
        · cases h

end Direction

/-! ## The V2 pool -/

section Reserves

variable {data : PoolData} {inputToken : Erc20Token} {p1 p2 : LiquidityPool} {v1 v2 : SwapVector}
  {arguments : RustArguments}

/-- What is handed over for the pairs of pools that reach the optimiser. -/
theorem rustArguments_cases
    (h : rustArguments data inputToken [p1, p2] = .ok (some arguments)) :
    p1.kind.isV3 = true ∧ arguments.zeroForOne = p1.token0.same inputToken ∧
      ((p2.kind.isV3 = true ∧ arguments.v2 = none) ∨
        (p2.kind.isUniswapV2 = true ∧ arguments.v2 =
          some (if p2.token0.same p1.token1 then (data.v2Reserves p2).1 else (data.v2Reserves p2).2,
            if p2.token0.same p1.token1 then (data.v2Reserves p2).2 else (data.v2Reserves p2).1,
            v2FeeBps data p2 p1.token1))) := by
  simp only [rustArguments] at h
  by_cases hv3 : p1.kind.isV3 = true ∧ p2.kind.isV3 = true
  · simp only [hv3, and_self, if_true, bind_eq_ok, Except.ok.injEq, Option.some.injEq] at h
    obtain ⟨json1, -, json2, -, rfl⟩ := h
    exact ⟨hv3.1, rfl, .inl ⟨hv3.2, rfl⟩⟩
  · rw [if_neg hv3] at h
    by_cases hv2 : p1.kind.isV3 = true ∧ p2.kind.isUniswapV2 = true
    · rw [if_pos hv2] at h
      simp only [bind_eq_ok, Except.ok.injEq, Option.some.injEq] at h
      obtain ⟨json1, -, rfl⟩ := h
      exact ⟨hv2.1, rfl, .inr ⟨hv2.2, rfl⟩⟩
    · rw [if_neg hv2] at h
      cases h

theorem v2FeeBps_eq_floor (data : PoolData) (pool : LiquidityPool) (token : Erc20Token) :
    v2FeeBps data pool token = ⌊feeOn data pool token * 10000⌋ := by
  have hscaled : feeOn data pool token * 10000 =
      ((feeOn data pool token).num * 10000 : ℤ) / ((feeOn data pool token).den : ℚ) := by
    nth_rewrite 1 [← Rat.num_div_den (feeOn data pool token)]
    push_cast
    ring
  rw [hscaled, Rat.floor_intCast_div_natCast]
  rfl

theorem other_of_side {pool : LiquidityPool} {vector : SwapVector} (first : Prop) [Decidable first]
    {zeroForOne : Bool}
    (h : uniswapPoolSwapVector (if first then pool.token0 else pool.token1)
      (if first then pool.token1 else pool.token0) zeroForOne = .ok vector) :
    pool.token0.same vector.tokenOut = !pool.token0.same vector.tokenIn := by
  obtain ⟨hne, rfl⟩ := uniswapPoolSwapVector_side first h
  by_cases hfirst : first <;> simp [hfirst, Erc20Token.same, hne]

/-- A vector leaves its pool through the other token. -/
theorem other_of_swapVector {token : Erc20Token} {pool : LiquidityPool} {vector : SwapVector}
    (h : swapVector token pool = .ok vector) :
    pool.token0.same vector.tokenOut = !pool.token0.same vector.tokenIn := by
  unfold swapVector at h
  by_cases h0 : token.same pool.token0 = true
  · rw [if_pos h0] at h
    exact other_of_side True h
  rw [if_neg h0] at h
  by_cases h1 : token.same pool.token1 = true
  · rw [if_pos h1] at h
    exact other_of_side False h
  rw [if_neg h1] at h
  cases hwrapped : wrappedNativeTokens pool.chainId with
  | none => simp [hwrapped] at h
  | some wrapped =>
      simp only [hwrapped, ite_eq_iff] at h
      rcases h with ⟨-, h⟩ | ⟨-, ⟨-, h⟩ | ⟨-, h⟩⟩
      · exact other_of_side _ h
      · exact other_of_side _ h
      · cases h

/-- The reserves and the fee are those of the second swap exactly when the pools are
oriented. -/
theorem reserves_iff_oriented (hother : p2.token0.same v2.tokenOut = !p2.token0.same v2.tokenIn) :
    ((if p2.token0.same p1.token1 then (data.v2Reserves p2).1 else (data.v2Reserves p2).2) =
        reserveOf data p2 v2.tokenIn ∧
      (if p2.token0.same p1.token1 then (data.v2Reserves p2).2 else (data.v2Reserves p2).1) =
        reserveOf data p2 v2.tokenOut ∧
      (v2FeeBps data p2 p1.token1 : ℚ) / 10000 = feeOn data p2 v2.tokenIn) ↔
      Oriented data p1 p2 v2 := by
  rw [v2FeeBps_eq_floor, div_eq_iff (by norm_num), eq_comm (a := ((⌊_⌋ : ℤ) : ℚ))]
  unfold Oriented reserveOf
  rw [hother]
  by_cases hsame : p2.token0.same p1.token1 = p2.token0.same v2.tokenIn
  · have hfee : feeOn data p2 p1.token1 = feeOn data p2 v2.tokenIn := by
      simp [feeOn, hsame]
    have hwhole : feeOn data p2 v2.tokenIn * 10000 = ⌊feeOn data p2 v2.tokenIn * 10000⌋ ↔
        ∃ n : ℤ, feeOn data p2 v2.tokenIn * 10000 = n := by
      refine ⟨fun h => ⟨_, h⟩, ?_⟩
      rintro ⟨n, hn⟩
      rw [hn, Int.floor_intCast]
    cases htoken : p2.token0.same v2.tokenIn <;> simp [hsame, htoken, hfee, hwhole]
  · have hnot : p2.token0.same p1.token1 = !p2.token0.same v2.tokenIn :=
      Bool.eq_not_of_ne hsame
    cases htoken : p2.token0.same v2.tokenIn with
    | true => simp [hnot, htoken, eq_comm]
    | false => simp [hnot, htoken, eq_comm]

end Reserves

/-! ## The input of the result -/

section Result

variable {data : PoolData} {p1 p2 : LiquidityPool} {v1 v2 : SwapVector} {x : ℤ}

theorem raiseArbitrageError_eq_ok {outcome : Except Exn ℤ} {quantity : ℤ} :
    raiseArbitrageError outcome = .ok quantity ↔ outcome = .ok quantity := by
  cases outcome with
  | ok a => rfl
  | error e =>
      obtain ⟨e', he'⟩ := raiseArbitrageError_error e
      simp [he']

theorem buildSwapAmounts_zero {quotes : Quotes} {held : ℤ} {pool : LiquidityPool}
    {pools : List LiquidityPool} {vector : SwapVector} {vectors : List SwapVector} :
    ∃ e, buildSwapAmounts quotes held 0 (pool :: pools) (vector :: vectors) = .error e :=
  ⟨_, by rw [buildSwapAmounts, if_pos rfl]⟩

/-- The amounts of a swap are refused only when a V2 pool pays out nothing. -/
theorem validate_hopAmount_iff {pool : LiquidityPool} {vector : SwapVector} {amount quantity : ℤ}
    (hkind : pool.kind.isV3 = true ∨ pool.kind.isUniswapV2 = true) (hamount : amount ≠ 0) :
    (∃ here, (hopAmount pool vector amount quantity).validate = .ok here) ↔
      (pool.kind.isUniswapV2 = true → quantity ≠ 0) := by
  cases hk : pool.kind with
  | uniswapV2 =>
      cases hzero : vector.zeroForOne <;>
        simp [hopAmount, hk, SwapAmount.validate, uniswapV2Amounts, hzero, hamount,
          ite_error_eq_ok, PoolKind.isUniswapV2]
  | uniswapV3 =>
      simp [hopAmount, hk, uniswapV3Amounts, SwapAmount.validate, hamount, PoolKind.isUniswapV2]
  | aerodromeV3 =>
      simp [hopAmount, hk, uniswapV3Amounts, SwapAmount.validate, hamount, PoolKind.isUniswapV2]
  | _ => simp [hk, PoolKind.isV3, PoolKind.isUniswapV2] at hkind

/-- One swap of `_build_swap_amounts`. -/
theorem buildSwapAmounts_cons_iff {quotes : Quotes} {held amount : ℤ} {pool : LiquidityPool}
    {pools : List LiquidityPool} {vector : SwapVector} {vectors : List SwapVector}
    {amounts : List SwapAmount} (hnamed : Named (pool :: pools))
    (hkind : pool.kind.isV3 = true ∨ pool.kind.isUniswapV2 = true) :
    buildSwapAmounts quotes held amount (pool :: pools) (vector :: vectors) = .ok amounts ↔
      amount ≠ 0 ∧ ∃ quantity rest, quotes pool vector.tokenIn amount = .ok quantity ∧
        (pool.kind.isUniswapV2 = true → quantity ≠ 0) ∧
        buildSwapAmounts quotes quantity quantity pools vectors = .ok rest ∧
        amounts = hopAmount pool vector amount quantity :: rest := by
  by_cases hamount : amount = 0
  · subst hamount
    obtain ⟨e, he⟩ : ∃ e, buildSwapAmounts quotes held 0 (pool :: pools) (vector :: vectors) =
      .error e := buildSwapAmounts_zero
    simp [he]
  rw [buildSwapAmounts_named hnamed hamount]
  simp only [bind_eq_ok, Except.ok.injEq, raiseArbitrageError_eq_ok]
  constructor
  · rintro ⟨quantity, hquote, here, hhere, rest, hrest, rfl⟩
    refine ⟨hamount, quantity, rest, hquote, ?_, hrest, by rw [eq_of_validate hhere]⟩
    exact (validate_hopAmount_iff hkind hamount).mp ⟨here, hhere⟩
  · rintro ⟨-, quantity, rest, hquote, hpaid, hrest, rfl⟩
    obtain ⟨here, hhere⟩ : ∃ here, (hopAmount pool vector amount quantity).validate = .ok here :=
      (validate_hopAmount_iff hkind hamount).mpr hpaid
    exact ⟨quantity, hquote, here, hhere, rest, hrest, by rw [eq_of_validate hhere]⟩

theorem buildSwapAmounts_pair {quotes : Quotes} {amounts : List SwapAmount}
    (hkind1 : p1.kind.isV3 = true)
    (hkind2 : p2.kind.isV3 = true ∨ p2.kind.isUniswapV2 = true) :
    buildSwapAmounts quotes 0 x [p1, p2] [v1, v2] = .ok amounts ↔
      x ≠ 0 ∧ ∃ amount, quotes p1 v1.tokenIn x = .ok amount ∧ amount ≠ 0 ∧
        ∃ out, quotes p2 v2.tokenIn amount = .ok out ∧
          (p2.kind.isUniswapV2 = true → out ≠ 0) ∧
          amounts = [hopAmount p1 v1 x amount, hopAmount p2 v2 amount out] := by
  have hnamed : Named [p1, p2] := by
    intro pool hpool typeName typeRepr hkind
    rcases List.mem_pair.mp hpool with rfl | rfl
    · simp [hkind, PoolKind.isV3] at hkind1
    · simp [hkind, PoolKind.isV3, PoolKind.isUniswapV2] at hkind2
  have hnamed2 : Named [p2] := fun pool hpool => hnamed pool (List.mem_cons_of_mem _ hpool)
  have hnotV2 : p1.kind.isUniswapV2 = false := by
    cases hkind : p1.kind <;> simp [hkind, PoolKind.isV3] at hkind1 <;> rfl
  rw [buildSwapAmounts_cons_iff hnamed (.inl hkind1)]
  constructor
  · rintro ⟨hx, amount, rest, hquote, -, hrest, rfl⟩
    obtain ⟨hamount, out, rest', hquote', hpaid, hnil, rfl⟩ :=
      (buildSwapAmounts_cons_iff hnamed2 hkind2).mp hrest
    cases hnil
    exact ⟨hx, amount, hquote, hamount, out, hquote', hpaid, rfl⟩
  · rintro ⟨hx, amount, hquote, hamount, out, hquote', hpaid, rfl⟩
    refine ⟨hx, amount, _, hquote, by simp [hnotV2], ?_, rfl⟩
    exact (buildSwapAmounts_cons_iff hnamed2 hkind2).mpr
      ⟨hamount, out, [], hquote', hpaid, rfl, rfl⟩

/-- What `_calculate` returns for an amount of the optimiser. -/
theorem calculate_inputAmount_iff {minimizeScalar : (ℤ → Except Exn ℤ) → Except Exn ℤ}
    {cycle : UniswapLpCycle} {arguments : RustArguments} {input : ℤ}
    (hpools : cycle.swapPools = [p1, p2]) (hvectors : cycle.swapVectors = [v1, v2])
    (harguments : rustArguments data cycle.inputToken cycle.swapPools = .ok (some arguments)) :
    (∃ result, calculate (some fun _ => .ok x) minimizeScalar data cycle = .ok result ∧
        result.inputAmount = input) ↔
      Accepted data p1 p2 v1 v2 x ∧ input = x := by
  obtain ⟨hkind1, -, hkinds⟩ := rustArguments_cases (hpools ▸ harguments)
  have hkind2 : p2.kind.isV3 = true ∨ p2.kind.isUniswapV2 = true :=
    hkinds.imp And.left And.left
  have hfound : rustOptimalX (some fun _ => .ok x) data cycle = some x := by
    simp [rustOptimalX, harguments, Except.toOption]
  have hinput : ∀ out, extractInputAmount (hopAmount p1 v1 x out) = .ok x := by
    intro out
    cases hkind : p1.kind <;> simp [hkind, PoolKind.isV3] at hkind1 <;>
      simp [hopAmount, hkind, uniswapV3Amounts, extractInputAmount]
  have hprofit : ∀ amount out, ∃ profit,
      extractOutputAmount (hopAmount p2 v2 amount out) x = .ok profit := by
    intro amount out
    unfold hopAmount
    split <;> exact ⟨_, rfl⟩
  simp only [calculate, hfound, hpools, hvectors, ok_bind]
  constructor
  · rintro ⟨result, h, rfl⟩
    obtain ⟨amounts, hbuild, h⟩ := bind_eq_ok.mp h
    obtain ⟨hx, amount, hquote, hamount, out, hquote', hpaid, rfl⟩ :=
      (buildSwapAmounts_pair hkind1 hkind2).mp hbuild
    obtain ⟨profit, hprofit⟩ := hprofit amount out
    simp only [List.head?_cons, List.tail_cons, List.getLast?_singleton, hinput, hprofit, ok_bind,
      ArbitrageCalculationResult.validate, ite_error_eq_ok, Except.ok.injEq] at h
    obtain ⟨-, rfl⟩ := h
    exact ⟨⟨hx, amount, hquote, hamount, out, hquote', hpaid⟩, rfl⟩
  · rintro ⟨⟨hx, amount, hquote, hamount, out, hquote', hpaid⟩, rfl⟩
    obtain ⟨profit, hprofit⟩ := hprofit amount out
    rw [(buildSwapAmounts_pair hkind1 hkind2).mpr
      ⟨hx, amount, hquote, hamount, out, hquote', hpaid, rfl⟩, ok_bind]
    simp only [List.head?_cons, List.tail_cons, List.getLast?_singleton, hinput, hprofit, ok_bind,
      ArbitrageCalculationResult.validate, ite_error_eq_ok, Except.ok.injEq]
    exact ⟨_, ⟨hx, rfl⟩, rfl⟩

/-- The bounds are kept exactly when the pools refuse every amount outside of them. -/
theorem inBounds_iff {minimizeScalar : (ℤ → Except Exn ℤ) → Except Exn ℤ}
    {cycle : UniswapLpCycle} {arguments : RustArguments}
    (hpools : cycle.swapPools = [p1, p2]) (hvectors : cycle.swapVectors = [v1, v2])
    (harguments : rustArguments data cycle.inputToken cycle.swapPools = .ok (some arguments)) :
    InBounds data minimizeScalar cycle ↔
      ∀ x, Accepted data p1 p2 v1 v2 x → 1 ≤ x ∧ x ≤ cycle.maxInput := by
  constructor
  · intro h x haccepted
    obtain ⟨result, hresult, rfl⟩ : ∃ result,
        calculate (some fun _ => .ok x) minimizeScalar data cycle = .ok result ∧
          result.inputAmount = x :=
      (calculate_inputAmount_iff hpools hvectors harguments).mpr ⟨haccepted, rfl⟩
    exact h _ result hresult
  · intro h x result hresult
    obtain ⟨haccepted, hinput⟩ :=
      (calculate_inputAmount_iff hpools hvectors harguments).mp ⟨result, hresult, rfl⟩
    rw [hinput]
    exact h x haccepted

end Result

/-! ## Cycles of two pools -/

theorem swapVectors_of_init {poolIsViable : LiquidityPool → SwapVector → Except Exn Bool}
    {inputToken : Erc20Token} {p1 p2 : LiquidityPool} {maxInput : Option ℤ} {cycle : UniswapLpCycle}
    (h : init poolIsViable inputToken [p1, p2] maxInput = .ok cycle) :
    cycle.inputToken = inputToken ∧ cycle.swapPools = [p1, p2] ∧
      ∃ v1 v2, cycle.swapVectors = [v1, v2] ∧ swapVector inputToken p1 = .ok v1 ∧
        swapVector v1.tokenOut p2 = .ok v2 := by
  simp only [init, bind_eq_ok, Except.ok.injEq] at h
  obtain ⟨-, -, _, -, vectors, hvectors, _, -, rfl⟩ := h
  obtain ⟨v1, tail, rfl, hv1, hrest⟩ := buildSwapVectors_cons hvectors
  obtain ⟨v2, rest, rfl, hv2, hnil⟩ := buildSwapVectors_cons hrest
  cases hnil
  exact ⟨rfl, rfl, v1, v2, rfl, hv1, hv2⟩

/-- The optimiser is told the cycle, and its answer is kept within the bounds, exactly when the
first pool is entered as the comparison assumes, a second V2 pool is oriented, and the pools
refuse what is out of bounds. -/
theorem told_and_bounded_iff (poolIsViable : LiquidityPool → SwapVector → Except Exn Bool)
    (minimizeScalar : (ℤ → Except Exn ℤ) → Except Exn ℤ) (data : PoolData)
    (inputToken : Erc20Token) (p1 p2 : LiquidityPool) (maxInput : Option ℤ) (cycle : UniswapLpCycle)
    (v1 v2 : SwapVector) (arguments : RustArguments)
    (hinit : init poolIsViable inputToken [p1, p2] maxInput = .ok cycle)
    (hvectors : cycle.swapVectors = [v1, v2])
    (harguments : rustArguments data cycle.inputToken cycle.swapPools = .ok (some arguments)) :
    (Describes data p2 v1 v2 arguments ∧ InBounds data minimizeScalar cycle) ↔
      (EntersAsCompared p1 inputToken ∧
        (p2.kind.isUniswapV2 = true → Oriented data p1 p2 v2) ∧
        ∀ x, Accepted data p1 p2 v1 v2 x → 1 ≤ x ∧ x ≤ cycle.maxInput) := by
  obtain ⟨htoken, hpools, w1, w2, hw, hv1, hv2⟩ := swapVectors_of_init hinit
  obtain ⟨rfl, rfl⟩ : v1 = w1 ∧ v2 = w2 := by simpa [hvectors] using hw
  rw [inBounds_iff hpools hvectors harguments, ← and_assoc]
  refine and_congr_left fun _ => ?_
  rw [htoken, hpools] at harguments
  obtain ⟨-, hflag, hv2pool⟩ := rustArguments_cases harguments
  have hdirection : arguments.zeroForOne = v1.zeroForOne ↔ EntersAsCompared p1 inputToken := by
    rw [hflag]
    exact zeroForOne_eq_iff hv1
  have horiented : _ ↔ Oriented data p1 p2 v2 := reserves_iff_oriented (other_of_swapVector hv2)
  rcases hv2pool with ⟨hkind, hnone⟩ | ⟨hkind, hsome⟩
  · have hnotV2 : p2.kind.isUniswapV2 = false := by
      cases hk : p2.kind <;> simp [hk, PoolKind.isV3] at hkind <;> rfl
    constructor
    · intro h
      exact ⟨hdirection.mp h.direction, by simp [hnotV2]⟩
    · intro h
      exact ⟨hdirection.mpr h.1, by simp [hnone]⟩
  · constructor
    · intro h
      exact ⟨hdirection.mp h.direction, fun _ => horiented.mp (h.reserves _ _ _ hsome)⟩
    · intro h
      refine ⟨hdirection.mpr h.1, fun rIn rOut fee heq => ?_⟩
      rw [hsome] at heq
      cases heq
      exact horiented.mpr (h.2 hkind)

/-! ## A V3 pool and a V2 pool -/

/-- The V2 pool holds 1000 of its `token0` and 2000 of its `token1`, at 0.3 %. Nothing above
`limit` is swapped. -/
def sampleData (limit : ℤ) : PoolData where
  quotes _ _ amount :=
    if 0 < amount ∧ amount ≤ limit then .ok amount else .error .invalidSwapInputAmount
  v2Reserves _ := (1000, 2000)
  v2Fees _ := (3 / 1000, 3 / 1000)
  v3SnapshotJson _ := .ok ""
  stateBlock := none

/-- A cycle that enters the V3 pool with `token0`. -/
theorem told_and_bounded_zeroForOne :
    Describes (sampleData 5) (samplePool .uniswapV2 2) ⟨sampleToken 10, sampleToken 11, true⟩
        ⟨sampleToken 11, sampleToken 10, false⟩ ⟨"", true, none, some (2000, 1000, 30)⟩ ∧
      InBounds (sampleData 5) (fun _ => .ok 1) ⟨sampleToken 10,
        [samplePool .uniswapV3 1, samplePool .uniswapV2 2], 5, sampleVectors, [true, true]⟩ := by
  refine (told_and_bounded_iff (fun _ _ => .ok true) (fun _ => .ok 1) (sampleData 5)
    (sampleToken 10) (samplePool .uniswapV3 1) (samplePool .uniswapV2 2) (some 5) _ _ _ _ rfl rfl
    ?_).mpr ⟨.inl (by decide), fun _ => .inl ⟨by decide, 30, by decide +kernel⟩, ?_⟩
  · decide +kernel
  · rintro x ⟨-, amount, hquote, -⟩
    simp only [sampleData] at hquote
    split at hquote
    case isTrue hbounds => exact ⟨hbounds.1, hbounds.2⟩
    case isFalse => cases hquote

/-- A cycle that enters the V3 pool with `token1`: the reserves of the V2 pool are passed the
wrong way round. Any amount that the pools swap is kept. -/
theorem reserves_swapped_unbounded :
    let cycle : UniswapLpCycle := ⟨sampleToken 11,
      [samplePool .uniswapV3 1, samplePool .uniswapV2 2], 5,
      [⟨sampleToken 11, sampleToken 10, false⟩, ⟨sampleToken 10, sampleToken 11, true⟩],
      [true, true]⟩
    init (fun _ _ => .ok true) (sampleToken 11) [samplePool .uniswapV3 1, samplePool .uniswapV2 2]
        (some 5) = .ok cycle ∧
      rustArguments (sampleData 9) cycle.inputToken cycle.swapPools =
        .ok (some ⟨"", false, none, some (2000, 1000, 30)⟩) ∧
      ¬Describes (sampleData 9) (samplePool .uniswapV2 2) ⟨sampleToken 11, sampleToken 10, false⟩
        ⟨sampleToken 10, sampleToken 11, true⟩ ⟨"", false, none, some (2000, 1000, 30)⟩ ∧
      ¬InBounds (sampleData 9) (fun _ => .ok 1) cycle := by
  refine ⟨rfl, by decide +kernel, fun h => ?_, fun h => ?_⟩
  · have hreserve := (h.reserves 2000 1000 30 rfl).1
    exact absurd hreserve (by decide +kernel)
  · have hbounds := (h 9 _ rfl).2
    exact absurd hbounds (by decide +kernel)

end Degenbot.UniswapLpCycle
