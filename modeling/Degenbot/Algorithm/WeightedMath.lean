import Degenbot.Algorithm.LogExpMath

/-! # `balancer/libraries/fixed_point.py` and `balancer/libraries/weighted_math.py` -/

namespace Degenbot.WeightedMath

open LogExpMath

def one : ℤ := 10 ^ 18
def two : ℤ := 2 * 10 ^ 18
def four : ℤ := 4 * 10 ^ 18
def maxPowRelativeError : ℤ := 10000

def maxInRatio : ℤ := 3 * 10 ^ 17
def maxOutRatio : ℤ := 3 * 10 ^ 17

def mulOverflow : Exn := .evmRevertError "MUL_OVERFLOW"

section Functions

variable (ops : Division)

/-! ## Fixed point -/

def add (a b : ℤ) : Except Exn ℤ :=
  if a + b > maxUint256 then .error (.evmRevertError "ADD_OVERFLOW") else .ok (a + b)

def sub (a b : ℤ) : Except Exn ℤ :=
  if b > a then .error (.evmRevertError "SUB_OVERFLOW") else .ok (a - b)

def mulDown (a b : ℤ) : Except Exn ℤ :=
  let product := a * b
  if product > maxUint256 then .error mulOverflow
  else if ¬(a = 0 ∨ ops.quotient product a = b) then .error mulOverflow
  else .ok (ops.quotient product one)

def mulUp (a b : ℤ) : Except Exn ℤ :=
  let product := a * b
  if product = 0 then .ok 0
  else if product > maxUint256 then .error mulOverflow
  else .ok (ops.quotient (product - 1) one + 1)

def divDown (a b : ℤ) : Except Exn ℤ :=
  if b = 0 then .error (.evmRevertError "ZERO_DIVISION")
  else if a = 0 then .ok 0
  else if a * one > maxUint256 then .error (.evmRevertError "DIV_INTERNAL")
  else .ok (ops.quotient (a * one) b)

def divUp (a b : ℤ) : Except Exn ℤ :=
  if b = 0 then .error (.evmRevertError "ZERO_DIVISION")
  else if a = 0 then .ok 0
  else if a * one > maxUint256 then .error (.evmRevertError "DIV_INTERNAL")
  else .ok (ops.quotient (a * one - 1) b + 1)

def maxError (raw : ℤ) : Except Exn ℤ := do
  let error ← mulUp ops raw maxPowRelativeError
  add error 1

def powDown (x y : ℤ) : Except Exn ℤ :=
  if y = one then .ok x
  else if y = two then mulDown ops x x
  else if y = four then do
    let square ← mulDown ops x x
    mulDown ops square square
  else do
    let raw ← pow ops x y
    let maxError ← maxError ops raw
    if raw < maxError then .ok 0 else sub raw maxError

def powUp (x y : ℤ) : Except Exn ℤ :=
  if y = one then .ok x
  else if y = two then mulUp ops x x
  else if y = four then do
    let square ← mulUp ops x x
    mulUp ops square square
  else do
    let raw ← pow ops x y
    let maxError ← maxError ops raw
    add raw maxError

def complement (x : ℤ) : ℤ := if x < one then one - x else 0

/-! ## Weighted math -/

def calcOutGivenIn (balanceIn weightIn balanceOut weightOut amountIn : ℤ) : Except Exn ℤ := do
  let maxIn ← mulDown ops balanceIn maxInRatio
  if amountIn > maxIn then .error (.evmRevertError "MAX_IN_RATIO")
  else do
    let base ← divUp ops balanceIn (balanceIn + amountIn)
    let exponent ← divDown ops weightIn weightOut
    let power ← powUp ops base exponent
    mulDown ops balanceOut (complement power)

def calcInGivenOut (balanceIn weightIn balanceOut weightOut amountOut : ℤ) : Except Exn ℤ := do
  let maxOut ← mulDown ops balanceOut maxOutRatio
  if ¬amountOut ≤ maxOut then .error (.evmRevertError "MAX_OUT_RATIO")
  else do
    let base ← divUp ops balanceOut (balanceOut - amountOut)
    let exponent ← divUp ops weightOut weightIn
    let power ← powUp ops base exponent
    mulUp ops balanceIn (power - one)

end Functions

end Degenbot.WeightedMath
