import Degenbot.Algorithm.WeightedMath
import Degenbot.Library.WhileLoop
import Mathlib.Data.Rat.Floor

/-! # `balancer/libraries/stable_math.py` and the stable pools

With the helpers of `libraries/math.py` and `libraries/scaling_helpers.py`. -/

namespace Degenbot.StableMath

open Library LogExpMath

/-! ## `libraries/math.py` -/

def add (a b : ℤ) : Except Exn ℤ :=
  let c := a + b
  if c > maxUint256 then .error (.evmRevertError "ADD_OVERFLOW") else .ok c

def sub (a b : ℤ) : Except Exn ℤ :=
  if b > a then .error (.evmRevertError "SUB_OVERFLOW") else .ok (a - b)

def mul (a b : ℤ) : Except Exn ℤ :=
  if a = 0 ∨ b = 0 then .ok 0
  else
    let c := a * b
    if c > maxUint256 ∨ c.fdiv a ≠ b then .error (.evmRevertError "MUL_OVERFLOW") else .ok c

def divDown (a b : ℤ) : Except Exn ℤ :=
  if b = 0 then .error (.evmRevertError "ZERO_DIVISION") else .ok (a.fdiv b)

def divUp (a b : ℤ) : Except Exn ℤ :=
  if b = 0 then .error (.evmRevertError "ZERO_DIVISION")
  else if a = 0 then .ok 0
  else .ok (1 + (a - 1).fdiv b)

/-! ## `stable_math.py` -/

def ampPrecision : ℤ := 1000

/-- `xs[i]` -/
def item (xs : List ℤ) (i : ℕ) : Except Exn ℤ :=
  match xs[i]? with
  | none => .error .indexError
  | some x => .ok x

/-- The test that ends both iterations. -/
def converged (previous next : ℤ) : Bool :=
  if next > previous then next - previous ≤ 1 else previous - next ≤ 1

/-- One pass of the loop over the balances. -/
def nextDp (numTokens invariant dP balance : ℤ) : Except Exn ℤ := do
  let numerator ← mul dP invariant
  let denominator ← mul balance numTokens
  divDown numerator denominator

/-- One round of `_calculateInvariant`. -/
def nextInvariant (ampTimesTotal sumBalances : ℤ) (balances : List ℤ) (invariant : ℤ) :
    Except Exn ℤ := do
  let numTokens : ℤ := balances.length
  let dP ← balances.foldlM (nextDp numTokens invariant) invariant
  let ampSum ← mul ampTimesTotal sumBalances
  let ampSum ← divDown ampSum ampPrecision
  let dPTokens ← mul dP numTokens
  let factor ← add ampSum dPTokens
  let numerator ← mul factor invariant
  let ampInvariant ← mul (ampTimesTotal - ampPrecision) invariant
  let ampInvariant ← divDown ampInvariant ampPrecision
  let dPTokens ← mul (numTokens + 1) dP
  let denominator ← add ampInvariant dPTokens
  divDown numerator denominator

def calculateInvariant (amplificationParameter : ℤ) (balances : List ℤ) : Except Exn ℤ := do
  let numTokens : ℤ := balances.length
  let sumBalances ← balances.foldlM add 0
  if sumBalances = 0 then .ok 0
  else
    converge (nextInvariant (amplificationParameter * numTokens) sumBalances balances) converged
      (.evmRevertError "STABLE_INVARIANT_DIDNT_CONVERGE") 255 sumBalances

/-- One pass of the loop over the other balances; the state is `p_d` and the sum. -/
def nextPd (numTokens invariant : ℤ) (state : ℤ × ℤ) (balance : ℤ) : Except Exn (ℤ × ℤ) := do
  let product ← mul state.1 balance
  let product ← mul product numTokens
  let pD ← divDown product invariant
  let sumBalances ← add state.2 balance
  .ok (pD, sumBalances)

/-- One round of the balance solver. -/
def nextTokenBalance (invariant b c tokenBalance : ℤ) : Except Exn ℤ := do
  let square ← mul tokenBalance tokenBalance
  let numerator ← add square c
  let double ← mul tokenBalance 2
  let total ← add double b
  let denominator ← sub total invariant
  divUp numerator denominator

/-- The squared invariant and the coefficients `b` and `c`. -/
def balanceCoefficients (amplificationParameter : ℤ) (balances : List ℤ) (invariant : ℤ)
    (tokenIndex : ℕ) : Except Exn (ℤ × ℤ × ℤ) := do
  let numTokens : ℤ := balances.length
  let ampTimesTotal := amplificationParameter * numTokens
  let first ← item balances 0
  let (pD, sumBalances) ← balances.tail.foldlM (nextPd numTokens invariant)
    (first * numTokens, first)
  let own ← item balances tokenIndex
  let sumBalances := sumBalances - own
  let inv2 ← mul invariant invariant
  let ampPd ← mul ampTimesTotal pD
  let quotient ← divUp inv2 ampPd
  let quotient ← mul quotient ampPrecision
  let c ← mul quotient own
  let ratio ← divDown invariant ampTimesTotal
  let ratio ← mul ratio ampPrecision
  let b ← add sumBalances ratio
  .ok (inv2, b, c)

def getTokenBalanceGivenInvariantAndAllOtherBalances (amplificationParameter : ℤ)
    (balances : List ℤ) (invariant : ℤ) (tokenIndex : ℕ) : Except Exn ℤ := do
  let (inv2, b, c) ← balanceCoefficients amplificationParameter balances invariant tokenIndex
  let numerator ← add inv2 c
  let denominator ← add invariant b
  let tokenBalance ← divUp numerator denominator
  converge (nextTokenBalance invariant b c) converged
    (.evmRevertError "STABLE_GET_BALANCE_DIDNT_CONVERGE") 255 tokenBalance

/-- The list of balances is changed in place and changed back. -/
def calcOutGivenIn (amplificationParameter : ℤ) (balances : List ℤ)
    (tokenIndexIn tokenIndexOut : ℕ) (tokenAmountIn invariant : ℤ) : Except Exn ℤ := do
  let balanceIn ← item balances tokenIndexIn
  let balanceIn ← add balanceIn tokenAmountIn
  let balances := balances.set tokenIndexIn balanceIn
  let finalBalanceOut ← getTokenBalanceGivenInvariantAndAllOtherBalances amplificationParameter
    balances invariant tokenIndexOut
  let balanceIn ← sub balanceIn tokenAmountIn
  let balances := balances.set tokenIndexIn balanceIn
  let balanceOut ← item balances tokenIndexOut
  let difference ← sub balanceOut finalBalanceOut
  sub difference 1

def calcInGivenOut (amplificationParameter : ℤ) (balances : List ℤ)
    (tokenIndexIn tokenIndexOut : ℕ) (tokenAmountOut invariant : ℤ) : Except Exn ℤ := do
  let balanceOut ← item balances tokenIndexOut
  let balanceOut ← sub balanceOut tokenAmountOut
  let balances := balances.set tokenIndexOut balanceOut
  let finalBalanceIn ← getTokenBalanceGivenInvariantAndAllOtherBalances amplificationParameter
    balances invariant tokenIndexIn
  let balanceOut ← add balanceOut tokenAmountOut
  let balances := balances.set tokenIndexOut balanceOut
  let balanceIn ← item balances tokenIndexIn
  let difference ← sub finalBalanceIn balanceIn
  add difference 1

/-! ## `scaling_helpers.py` -/

def upscale (amount scalingFactor : ℤ) : Except Exn ℤ :=
  WeightedMath.mulDown python amount scalingFactor

def downscaleDown (amount scalingFactor : ℤ) : Except Exn ℤ :=
  WeightedMath.divDown python amount scalingFactor

def upscaleArray (amounts scalingFactors : List ℤ) : Except Exn (List ℤ) :=
  if amounts.length ≠ scalingFactors.length then
    .error (.valueError "amounts and scaling_factors length mismatch")
  else (amounts.zip scalingFactors).mapM fun pair => upscale pair.1 pair.2

/-- Of a token with at most 18 decimals. -/
def computeScalingFactor (token : Erc20Token) : ℤ := WeightedMath.one * 10 ^ (18 - token.decimals)

/-! ## The pools -/

structure BalancerV2StablePool where
  tokens : List Erc20Token
  scalingFactors : List ℤ
  amplificationParameter : ℤ
  fee : ℚ

/-- The constructor; `fee` is the swap fee percentage with 18 decimals. -/
def BalancerV2StablePool.new (tokens : List Erc20Token) (amplificationParameter : ℤ) (fee : ℕ) :
    BalancerV2StablePool where
  tokens
  scalingFactors := tokens.map computeScalingFactor
  amplificationParameter
  fee := mkRat fee (10 ^ 18)

/-- The constructor of `BalancerV2ComposableStablePool`, with the rates read from the chain. -/
def BalancerV2ComposableStablePool.new (tokens : List Erc20Token) (amplificationParameter : ℤ)
    (fee : ℕ) (rates : List ℤ) : Except Exn BalancerV2StablePool := do
  let pool := BalancerV2StablePool.new tokens amplificationParameter fee
  if tokens.length ≠ rates.length then
    .error (.valueError "zip() arguments differ in length")
  else do
    let scalingFactors ← (tokens.zip rates).mapM fun pair =>
      WeightedMath.mulDown python (computeScalingFactor pair.1) pair.2
    .ok { pool with scalingFactors }

/-- `tokens.index(token)` -/
def tokenIndex (tokens : List Erc20Token) (token : Erc20Token) : Except Exn ℕ :=
  if tokens.any (·.same token) then .ok (tokens.findIdx (·.same token))
  else .error (.valueError "tuple.index(x): x not in tuple")

/-- `_subtract_swap_fee_amount` of `weighted_math.py` -/
def subtractSwapFeeAmount (amount feePercentage : ℤ) : Except Exn ℤ := do
  let feeAmount ← WeightedMath.mulUp python amount feePercentage
  .ok (amount - feeAmount)

/-- `int(self.fee * self.FEE_DENOMINATOR)`; `int` drops the fraction. -/
def BalancerV2StablePool.feePercentage (pool : BalancerV2StablePool) : ℤ :=
  (pool.fee * 10 ^ 18).num.tdiv (pool.fee * 10 ^ 18).den

/-- `balances` are those of the override, or else the pool's own. -/
def BalancerV2StablePool.calculateTokensOutFromTokensIn (pool : BalancerV2StablePool)
    (balances : List ℤ) (tokenIn : Erc20Token) (tokenInQuantity : ℤ) (tokenOut : Erc20Token) :
    Except Exn ℤ := do
  let tokenInIndex ← tokenIndex pool.tokens tokenIn
  let tokenOutIndex ← tokenIndex pool.tokens tokenOut
  let amountInAfterFee ← subtractSwapFeeAmount tokenInQuantity pool.feePercentage
  let balances ← upscaleArray balances pool.scalingFactors
  let factorIn ← item pool.scalingFactors tokenInIndex
  let amountInScaled ← upscale amountInAfterFee factorIn
  let invariant ← calculateInvariant pool.amplificationParameter balances
  let amountOutScaled ← calcOutGivenIn pool.amplificationParameter balances tokenInIndex
    tokenOutIndex amountInScaled invariant
  let factorOut ← item pool.scalingFactors tokenOutIndex
  downscaleDown amountOutScaled factorOut

end Degenbot.StableMath
