import Degenbot.Algorithm.Types

/-! # Swap arithmetic of the V3 and V4 libraries -/

/-! ## `full_math.py`, `unsafe_math.py` and the casts of `functions.py`

The V3 and V4 ports reject different inputs. `//` and `%` are `Int.fdiv` and
`Int.fmod`. -/

namespace Degenbot

/-! ## V3 -/

namespace V3

def mulmod (x y k : ℤ) : Except Exn ℤ :=
  if k = 0 then .error (.evmRevertError "division by zero") else .ok ((x * y).fmod k)

def toInt256 (x : ℤ) : Except Exn ℤ :=
  if ¬(minInt256 ≤ x ∧ x ≤ maxInt256) then
    .error (.evmRevertError (toString x ++ " outside range of int256 values"))
  else .ok x

def toUint160 (x : ℤ) : Except Exn ℤ :=
  if x > maxUint160 then
    .error (.evmRevertError (toString x ++ " greater than maximum uint160 value"))
  else .ok x

def muldiv (a b denominator : ℤ) : Except Exn ℤ :=
  if a < 0 ∨ a > maxUint256 then .error (.evmRevertError "Invalid value for a.")
  else if b < 0 ∨ b > maxUint256 then .error (.evmRevertError "Invalid value for b.")
  else if denominator < 0 ∨ denominator > maxUint256 then
    .error (.evmRevertError "Invalid value for denominator.")
  else if denominator = 0 then .error (.evmRevertError "DIVISION BY ZERO")
  else
    let result := (a * b).fdiv denominator
    if ¬(0 ≤ result ∧ result ≤ maxUint256) then
      .error (.evmRevertError "Invalid result, does not fit in uint256")
    else .ok result

def muldivRoundingUp (a b denominator : ℤ) : Except Exn ℤ := do
  let result ← muldiv a b denominator
  let remainder ← mulmod a b denominator
  if remainder > 0 then
    if ¬(0 ≤ result ∧ result < maxUint256) then .error (.evmRevertError "FAIL!")
    else .ok (result + 1)
  else .ok result

def divRoundingUp (x y : ℤ) : ℤ :=
  (if y = 0 then 0 else x.fdiv y) + (if (if y = 0 then 0 else x.fmod y) > 0 then 1 else 0)

end V3

/-! ## V4 -/

namespace V4

def mulmod (x y k : ℤ) : ℤ := if k = 0 then 0 else (x * y).fmod k

def muldiv (a b denominator : ℤ) : Except Exn ℤ :=
  if denominator ≤ 0 then .error (.evmRevertError "required: denominator > 0")
  else
    let result := (a * b).fdiv denominator
    if result > maxUint256 then .error (.evmRevertError "product > MAX_UINT256") else .ok result

def muldivRoundingUp (a b denominator : ℤ) : Except Exn ℤ :=
  if denominator ≤ 0 then .error (.evmRevertError "required: denominator > 0")
  else do
    let quotient ← muldiv a b denominator
    let result := quotient + if mulmod a b denominator > 0 then 1 else 0
    if result > maxUint256 then .error (.evmRevertError "product > MAX_UINT256") else .ok result

def divRoundingUp (x y : ℤ) : ℤ :=
  if y = 0 then 0 else x.fdiv y + if x.fmod y > 0 then 1 else 0

end V4

/-- `//` where nothing keeps the divisor away from zero. -/
def floorDivide (x y : ℤ) : Except Exn ℤ :=
  if y = 0 then .error .zeroDivisionError else .ok (x.fdiv y)

/-! ## `sqrt_price_math.py` of the V3 and V4 libraries

`liquidity << 96` is written as a product. -/

/-- `Q96`, and `1 << Q96_RESOLUTION`. -/
def q96 : ℤ := 2 ^ 96

namespace V3

/-- `get_amount0_delta` with `round_up` given. -/
def getAmount0DeltaRounded (sqrtRatioAX96 sqrtRatioBX96 liquidity : ℤ) (roundUp : Bool) :
    Except Exn ℤ :=
  let (a, b) := if sqrtRatioAX96 > sqrtRatioBX96 then (sqrtRatioBX96, sqrtRatioAX96)
    else (sqrtRatioAX96, sqrtRatioBX96)
  let numerator1 := liquidity * q96
  let numerator2 := b - a
  if ¬a > 0 then .error (.evmRevertError "required: sqrt_ratio_a_x96 > 0")
  else if roundUp then do
    let quotient ← muldivRoundingUp numerator1 numerator2 b
    .ok (divRoundingUp quotient a)
  else do
    let quotient ← muldiv numerator1 numerator2 b
    .ok (quotient.fdiv a)

def getAmount0Delta (sqrtRatioAX96 sqrtRatioBX96 liquidity : ℤ) :
    Option Bool → Except Exn ℤ
  | some roundUp => getAmount0DeltaRounded sqrtRatioAX96 sqrtRatioBX96 liquidity roundUp
  | none =>
      if liquidity < 0 then do
        let amount ← getAmount0DeltaRounded sqrtRatioAX96 sqrtRatioBX96 (-liquidity) false
        toInt256 (-amount) >>= toInt256
      else do
        let amount ← getAmount0DeltaRounded sqrtRatioAX96 sqrtRatioBX96 liquidity true
        toInt256 amount >>= toInt256

/-- `get_amount1_delta` with `round_up` given. -/
def getAmount1DeltaRounded (sqrtRatioAX96 sqrtRatioBX96 liquidity : ℤ) (roundUp : Bool) :
    Except Exn ℤ :=
  if ¬liquidity ≥ 0 then .error (.evmRevertError "required: liquidity >= 0")
  else
    let (a, b) := if sqrtRatioAX96 > sqrtRatioBX96 then (sqrtRatioBX96, sqrtRatioAX96)
      else (sqrtRatioAX96, sqrtRatioBX96)
    if roundUp then muldivRoundingUp liquidity (b - a) q96 else muldiv liquidity (b - a) q96

def getAmount1Delta (sqrtRatioAX96 sqrtRatioBX96 liquidity : ℤ) :
    Option Bool → Except Exn ℤ
  | some roundUp => getAmount1DeltaRounded sqrtRatioAX96 sqrtRatioBX96 liquidity roundUp
  | none =>
      if ¬liquidity ≥ 0 then .error (.evmRevertError "required: liquidity >= 0")
      else if liquidity < 0 then do
        let amount ← getAmount1DeltaRounded sqrtRatioAX96 sqrtRatioBX96 (-liquidity) false
        toInt256 (-amount) >>= toInt256
      else do
        let amount ← getAmount1DeltaRounded sqrtRatioAX96 sqrtRatioBX96 liquidity true
        toInt256 amount >>= toInt256

def getNextSqrtPriceFromAmount0RoundingUp (sqrtPriceX96 liquidity amount : ℤ) (add : Bool) :
    Except Exn ℤ :=
  if amount = 0 then .ok sqrtPriceX96
  else
    let numerator1 := liquidity * q96
    let product := amount * sqrtPriceX96
    if add then
      if product < maxUint256 ∧ numerator1 + product ≥ numerator1 then
        muldivRoundingUp numerator1 sqrtPriceX96 (numerator1 + product)
      else do
        -- the failsafe of the contract, for a product that overflows
        let quotient ← floorDivide numerator1 sqrtPriceX96
        .ok (divRoundingUp numerator1 (quotient + amount))
    else if ¬numerator1 > product then
      .error (.evmRevertError "required: numerator1 > product")
    else muldivRoundingUp numerator1 sqrtPriceX96 (numerator1 - product) >>= toUint160

def getNextSqrtPriceFromAmount1RoundingDown (sqrtPriceX96 liquidity amount : ℤ) (add : Bool) :
    Except Exn ℤ :=
  if add then do
    let quotient ← (if amount ≤ maxUint160 then floorDivide (amount * q96) liquidity
      else muldiv amount q96 liquidity)
    toUint160 (sqrtPriceX96 + quotient)
  else do
    let quotient ← (if amount ≤ maxUint160 then .ok (divRoundingUp (amount * q96) liquidity)
      else muldivRoundingUp amount q96 liquidity)
    if ¬sqrtPriceX96 > quotient then .error (.evmRevertError "require sqrtPX96 > quotient")
    else .ok (sqrtPriceX96 - quotient)

def getNextSqrtPriceFromInput (sqrtPriceX96 liquidity amountIn : ℤ) (zeroForOne : Bool) :
    Except Exn ℤ :=
  if ¬sqrtPriceX96 > 0 then .error (.evmRevertError "required: sqrt_price_x96 > 0")
  else if ¬liquidity > 0 then .error (.evmRevertError "required: liquidity > 0")
  else if zeroForOne then
    getNextSqrtPriceFromAmount0RoundingUp sqrtPriceX96 liquidity amountIn true
  else getNextSqrtPriceFromAmount1RoundingDown sqrtPriceX96 liquidity amountIn true

def getNextSqrtPriceFromOutput (sqrtPriceX96 liquidity amountOut : ℤ) (zeroForOne : Bool) :
    Except Exn ℤ :=
  if ¬sqrtPriceX96 > 0 then .error (.evmRevertError "required: sqrt_price_x96 > 0")
  else if ¬liquidity > 0 then .error (.evmRevertError "required: liquidity must be > 0")
  else if zeroForOne then
    getNextSqrtPriceFromAmount1RoundingDown sqrtPriceX96 liquidity amountOut false
  else getNextSqrtPriceFromAmount0RoundingUp sqrtPriceX96 liquidity amountOut false

end V3

namespace V4

/-- `get_amount0_delta` with `round_up` given. -/
def getAmount0DeltaRounded (sqrtPriceAX96 sqrtPriceBX96 liquidity : ℤ) (roundUp : Bool) :
    Except Exn ℤ :=
  let (a, b) := if sqrtPriceAX96 > sqrtPriceBX96 then (sqrtPriceBX96, sqrtPriceAX96)
    else (sqrtPriceAX96, sqrtPriceBX96)
  if a = 0 then .error (.evmRevertError "InvalidPrice")
  else
    let numerator1 := liquidity * q96
    let numerator2 := b - a
    if roundUp then do
      let quotient ← muldivRoundingUp numerator1 numerator2 b
      .ok (divRoundingUp quotient a)
    else do
      let quotient ← muldiv numerator1 numerator2 b
      .ok (quotient.fdiv a)

def getAmount0Delta (sqrtPriceAX96 sqrtPriceBX96 liquidity : ℤ) :
    Option Bool → Except Exn ℤ
  | some roundUp => getAmount0DeltaRounded sqrtPriceAX96 sqrtPriceBX96 liquidity roundUp
  | none =>
      if liquidity < 0 then
        getAmount0DeltaRounded sqrtPriceAX96 sqrtPriceBX96 (-liquidity) false
      else do
        let amount ← getAmount0DeltaRounded sqrtPriceAX96 sqrtPriceBX96 liquidity true
        .ok (-amount)

/-- `get_amount1_delta` with `round_up` given. -/
def getAmount1DeltaRounded (sqrtPriceAX96 sqrtPriceBX96 liquidity : ℤ) (roundUp : Bool) :
    Except Exn ℤ := do
  let numerator := |sqrtPriceAX96 - sqrtPriceBX96|
  let quotient ← muldiv liquidity numerator q96
  .ok (quotient + if mulmod liquidity numerator q96 > 0 ∧ roundUp = true then 1 else 0)

def getAmount1Delta (sqrtPriceAX96 sqrtPriceBX96 liquidity : ℤ) :
    Option Bool → Except Exn ℤ
  | some roundUp => getAmount1DeltaRounded sqrtPriceAX96 sqrtPriceBX96 liquidity roundUp
  | none =>
      if liquidity < 0 then
        getAmount1DeltaRounded sqrtPriceAX96 sqrtPriceBX96 (-liquidity) false
      else do
        let amount ← getAmount1DeltaRounded sqrtPriceAX96 sqrtPriceBX96 liquidity true
        .ok (-amount)

def getNextSqrtPriceFromAmount0RoundingUp (sqrtPriceX96 liquidity amount : ℤ) (add : Bool) :
    Except Exn ℤ :=
  if amount = 0 then .ok sqrtPriceX96
  else
    let numerator1 := liquidity * q96
    let product := amount * sqrtPriceX96
    if add then
      if product ≤ maxUint256 ∧ numerator1 + product ≥ numerator1 then
        muldivRoundingUp numerator1 sqrtPriceX96 (numerator1 + product)
      else do
        let quotient ← floorDivide numerator1 sqrtPriceX96
        .ok (divRoundingUp numerator1 (quotient + amount))
    else if product.fdiv amount ≠ sqrtPriceX96 ∨ numerator1 ≤ product then
      .error (.evmRevertError "PriceOverflow")
    else do
      let result ← muldivRoundingUp numerator1 sqrtPriceX96 (numerator1 - product)
      if result > maxUint160 then .error (.evmRevertError "Safecast Overflowed: uint160")
      else .ok result

def getNextSqrtPriceFromAmount1RoundingDown (sqrtPriceX96 liquidity amount : ℤ) (add : Bool) :
    Except Exn ℤ :=
  if add then do
    let quotient ← (if amount ≤ maxUint160 then floorDivide (amount * q96) liquidity
      else muldiv amount q96 liquidity)
    let result := sqrtPriceX96 + quotient
    if result > maxUint160 then .error (.evmRevertError "Result overflowed MAX_UINT160")
    else .ok result
  else do
    let quotient ← (if amount ≤ maxUint160 then .ok (divRoundingUp (amount * q96) liquidity)
      else muldivRoundingUp amount q96 liquidity)
    if sqrtPriceX96 ≤ quotient then .error (.evmRevertError "NotEnoughLiquidity")
    else .ok (sqrtPriceX96 - quotient)

def getNextSqrtPriceFromInput (sqrtPriceX96 liquidity amountIn : ℤ) (zeroForOne : Bool) :
    Except Exn ℤ :=
  if sqrtPriceX96 = 0 ∨ liquidity = 0 then .error (.evmRevertError "InvalidPriceOrLiquidity")
  else if zeroForOne then
    getNextSqrtPriceFromAmount0RoundingUp sqrtPriceX96 liquidity amountIn true
  else getNextSqrtPriceFromAmount1RoundingDown sqrtPriceX96 liquidity amountIn true

def getNextSqrtPriceFromOutput (sqrtPriceX96 liquidity amountOut : ℤ) (zeroForOne : Bool) :
    Except Exn ℤ :=
  if sqrtPriceX96 = 0 ∨ liquidity = 0 then .error (.evmRevertError "InvalidPriceOrLiquidity")
  else if zeroForOne then
    getNextSqrtPriceFromAmount1RoundingDown sqrtPriceX96 liquidity amountOut false
  else getNextSqrtPriceFromAmount0RoundingUp sqrtPriceX96 liquidity amountOut false

end V4

/-! ## `swap_math.py` of the V3 and V4 libraries -/

/-- The value of `compute_swap_step`. -/
structure SwapStep where
  sqrtRatioNextX96 : ℤ
  amountIn : ℤ
  amountOut : ℤ
  feeAmount : ℤ
deriving DecidableEq, Repr

namespace V3

/-- The input amount between the current price and another one. -/
def inputDelta (zeroForOne : Bool) (sqrtRatioX96Current sqrtRatioX96 liquidity : ℤ) :
    Except Exn ℤ :=
  if zeroForOne then getAmount0Delta sqrtRatioX96 sqrtRatioX96Current liquidity (some true)
  else getAmount1Delta sqrtRatioX96Current sqrtRatioX96 liquidity (some true)

/-- The output amount between the current price and another one. -/
def outputDelta (zeroForOne : Bool) (sqrtRatioX96Current sqrtRatioX96 liquidity : ℤ) :
    Except Exn ℤ :=
  if zeroForOne then getAmount1Delta sqrtRatioX96 sqrtRatioX96Current liquidity (some false)
  else getAmount0Delta sqrtRatioX96Current sqrtRatioX96 liquidity (some false)

/-- The first half of `compute_swap_step`: the amount computed at the target price, and
the price that is reached. -/
def computeNextPrice (zeroForOne exactIn : Bool)
    (sqrtRatioX96Current sqrtRatioX96Target liquidity amountRemaining feePips : ℤ) :
    Except Exn (ℤ × ℤ) :=
  if exactIn then do
    let amountRemainingMinusFee ← muldiv amountRemaining (1000000 - feePips) 1000000
    let amountIn ← inputDelta zeroForOne sqrtRatioX96Current sqrtRatioX96Target liquidity
    if amountRemainingMinusFee ≥ amountIn then .ok (amountIn, sqrtRatioX96Target)
    else do
      let next ← getNextSqrtPriceFromInput sqrtRatioX96Current liquidity
        amountRemainingMinusFee zeroForOne
      .ok (amountIn, next)
  else do
    let amountOut ← outputDelta zeroForOne sqrtRatioX96Current sqrtRatioX96Target liquidity
    if -amountRemaining ≥ amountOut then .ok (amountOut, sqrtRatioX96Target)
    else do
      let next ← getNextSqrtPriceFromOutput sqrtRatioX96Current liquidity
        (-amountRemaining) zeroForOne
      .ok (amountOut, next)

def computeSwapStep
    (sqrtRatioX96Current sqrtRatioX96Target liquidity amountRemaining feePips : ℤ) :
    Except Exn SwapStep :=
  let zeroForOne : Bool := sqrtRatioX96Current ≥ sqrtRatioX96Target
  let exactIn : Bool := amountRemaining ≥ 0
  if ¬liquidity ≥ 0 then .error .assertionError
  else do
    let (atTarget, next) ← computeNextPrice zeroForOne exactIn sqrtRatioX96Current
      sqrtRatioX96Target liquidity amountRemaining feePips
    let reachedTargetPrice : Bool := sqrtRatioX96Target = next
    -- the amount that decided the price is recomputed when the target was not reached
    let amountIn ← (if reachedTargetPrice && exactIn then .ok atTarget
      else inputDelta zeroForOne sqrtRatioX96Current next liquidity)
    let amountOut ← (if reachedTargetPrice && !exactIn then .ok atTarget
      else outputDelta zeroForOne sqrtRatioX96Current next liquidity)
    let amountOut := if !exactIn && amountOut > -amountRemaining then -amountRemaining
      else amountOut
    let feeAmount ← (if exactIn && next ≠ sqrtRatioX96Target then
        .ok (amountRemaining - amountIn)
      else muldivRoundingUp amountIn feePips (1000000 - feePips))
    .ok ⟨next, amountIn, amountOut, feeAmount⟩

end V3

namespace V4

/-- `MAX_SWAP_FEE` -/
def maxSwapFee : ℤ := 10 ^ 6

def getSqrtPriceTarget (zeroForOne : Bool) (sqrtPriceNextX96 sqrtPriceLimitX96 : ℤ) : ℤ :=
  if zeroForOne then max sqrtPriceNextX96 sqrtPriceLimitX96
  else min sqrtPriceNextX96 sqrtPriceLimitX96

/-- The input amount between the current price and another one. -/
def inputDelta (zeroForOne : Bool) (sqrtRatioX96Current sqrtPriceX96 liquidity : ℤ) :
    Except Exn ℤ :=
  if zeroForOne then getAmount0Delta sqrtPriceX96 sqrtRatioX96Current liquidity (some true)
  else getAmount1Delta sqrtRatioX96Current sqrtPriceX96 liquidity (some true)

/-- The output amount between the current price and another one. -/
def outputDelta (zeroForOne : Bool) (sqrtRatioX96Current sqrtPriceX96 liquidity : ℤ) :
    Except Exn ℤ :=
  if zeroForOne then getAmount1Delta sqrtPriceX96 sqrtRatioX96Current liquidity (some false)
  else getAmount0Delta sqrtRatioX96Current sqrtPriceX96 liquidity (some false)

def computeSwapStep
    (sqrtRatioX96Current sqrtRatioX96Target liquidity amountRemaining feePips : ℤ) :
    Except Exn SwapStep :=
  let zeroForOne : Bool := sqrtRatioX96Current ≥ sqrtRatioX96Target
  if amountRemaining < 0 then do
    let amountRemainingLessFee ← muldiv (-amountRemaining) (maxSwapFee - feePips) maxSwapFee
    let amountIn ← inputDelta zeroForOne sqrtRatioX96Current sqrtRatioX96Target liquidity
    if amountRemainingLessFee ≥ amountIn then do
      let feeAmount ← (if feePips = maxSwapFee then .ok amountIn
        else muldivRoundingUp amountIn feePips (maxSwapFee - feePips))
      let amountOut ← outputDelta zeroForOne sqrtRatioX96Current sqrtRatioX96Target liquidity
      .ok ⟨sqrtRatioX96Target, amountIn, amountOut, feeAmount⟩
    else do
      let next ← getNextSqrtPriceFromInput sqrtRatioX96Current liquidity
        amountRemainingLessFee zeroForOne
      let amountOut ← outputDelta zeroForOne sqrtRatioX96Current next liquidity
      .ok ⟨next, amountRemainingLessFee, amountOut, -amountRemaining - amountRemainingLessFee⟩
  else do
    let amountOut ← outputDelta zeroForOne sqrtRatioX96Current sqrtRatioX96Target liquidity
    -- the output is capped by the target price or by what remains
    let (amountOut, next) ←
      (if amountRemaining ≥ amountOut then .ok (amountOut, sqrtRatioX96Target)
      else do
        let next ← getNextSqrtPriceFromOutput sqrtRatioX96Current liquidity amountRemaining
          zeroForOne
        .ok (amountRemaining, next))
    let amountIn ← inputDelta zeroForOne sqrtRatioX96Current next liquidity
    let feeAmount ← muldivRoundingUp amountIn feePips (maxSwapFee - feePips)
    .ok ⟨next, amountIn, amountOut, feeAmount⟩

end V4

end Degenbot
