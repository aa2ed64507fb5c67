import Degenbot.Algorithm.Types

/-! # `balancer/libraries/log_exp_math.py`

The functions are parameters of integer division: the Python code rounds down, the Solidity
library that it ports rounds toward zero. -/

namespace Degenbot.LogExpMath

/-- `//` and `%` -/
structure Division where
  quotient : ℤ → ℤ → ℤ
  remainder : ℤ → ℤ → ℤ

def python : Division := ⟨Int.fdiv, Int.fmod⟩

/-- Division and remainder of `int256`. -/
def solidity : Division := ⟨Int.tdiv, Int.tmod⟩

/-! ## Constants -/

def one18 : ℤ := 10 ^ 18
def one20 : ℤ := 10 ^ 20
def one36 : ℤ := 10 ^ 36

def maxNaturalExponent : ℤ := 130 * 10 ^ 18
def minNaturalExponent : ℤ := -41 * 10 ^ 18

def ln36LowerBound : ℤ := one18 - 10 ^ 17
def ln36UpperBound : ℤ := one18 + 10 ^ 17
def mildExponentBound : ℤ := 2 ^ 254 / one20

def x0 : ℤ := 128000000000000000000
def a0 : ℤ := 38877084059945950922200000000000000000000000000000000000
def x1 : ℤ := 64000000000000000000
def a1 : ℤ := 6235149080811616882910000000

/-- `x2, a2` to `x9, a9`: powers of two and their exponentials, with 20 decimals. -/
def expTable : List (ℤ × ℤ) :=
  [(3200000000000000000000, 7896296018268069516100000000000000),
    (1600000000000000000000, 888611052050787263676000000),
    (800000000000000000000, 298095798704172827474000),
    (400000000000000000000, 5459815003314423907810),
    (200000000000000000000, 738905609893065022723),
    (100000000000000000000, 271828182845904523536),
    (50000000000000000000, 164872127070012814685),
    (25000000000000000000, 128402541668774148407)]

/-- `x2, a2` to `x11, a11`. -/
def lnTable : List (ℤ × ℤ) :=
  expTable ++ [(12500000000000000000, 113314845306682631683),
    (6250000000000000000, 106449445891785942956)]

section Functions

variable (ops : Division)

def divide (x y : ℤ) : Except Exn ℤ :=
  if y = 0 then .error .zeroDivisionError else .ok (ops.quotient x y)

/-! ## `exp` -/

/-- Deducts `x_n` from the exponent if it is present, and accumulates `a_n`. -/
def expStep (state entry : ℤ × ℤ) : ℤ × ℤ :=
  if state.1 ≥ entry.1 then (state.1 - entry.1, ops.quotient (state.2 * entry.2) one20) else state

def expSeries (x : ℤ) : ℤ :=
  ([2, 3, 4, 5, 6, 7, 8, 9, 10, 11, 12].foldl (fun (state : ℤ × ℤ) n =>
    let term := ops.quotient (ops.quotient (state.1 * x) one20) n
    (term, state.2 + term)) (x, one20 + x)).2

/-- `x0` or `x1` deducted, with its exponential. -/
def firstExponent (x : ℤ) : ℤ × ℤ :=
  if x ≥ x0 then (x - x0, a0) else if x ≥ x1 then (x - x1, a1) else (x, 1)

def expNonneg (x : ℤ) : ℤ :=
  let first := firstExponent x
  let state := expTable.foldl (expStep ops) (first.1 * 100, one20)
  ops.quotient (ops.quotient (state.2 * expSeries ops state.1) one20 * first.2) 100

def exp (x : ℤ) : Except Exn ℤ :=
  if ¬(minNaturalExponent ≤ x ∧ x ≤ maxNaturalExponent) then
    .error (.evmRevertError "Invalid exponent")
  else if x < 0 then divide ops (one18 * one18) (expNonneg ops (-x))
  else .ok (expNonneg ops x)

/-! ## `ln` -/

/-- `z + z^3 / 3 + …`: in each step the numerator is multiplied by `z^2`. -/
def oddSeries (one z : ℤ) (denominators : List ℤ) : ℤ :=
  let zSquared := ops.quotient (z * z) one
  (denominators.foldl (fun (state : ℤ × ℤ) d =>
    let num := ops.quotient (state.1 * zSquared) one
    (num, state.2 + ops.quotient num d)) (z, z)).2

/-- Divides by `a_n` if it is present, and accumulates `x_n`. -/
def lnStep (state entry : ℤ × ℤ) : ℤ × ℤ :=
  if state.1 ≥ entry.2 then (ops.quotient (state.1 * one20) entry.2, state.2 + entry.1) else state

/-- The first two terms of the decomposition, by integer division. -/
def firstLogarithm (a : ℤ) : ℤ × ℤ :=
  let state := if a ≥ a0 * one18 then (ops.quotient a a0, x0) else (a, 0)
  if state.1 ≥ a1 * one18 then (ops.quotient state.1 a1, state.2 + x1) else state

/-- `_ln` for arguments that are not below one. -/
def lnLarge (a : ℤ) : ℤ :=
  let first := firstLogarithm ops a
  let state := lnTable.foldl (lnStep ops) (first.1 * 100, first.2 * 100)
  let z := ops.quotient ((state.1 - one20) * one20) (state.1 + one20)
  ops.quotient (state.2 + oddSeries ops one20 z [3, 5, 7, 9, 11] * 2) 100

/-- `_ln`. The recursion for a negative argument does not end. -/
def lnCore (a : ℤ) : Except Exn ℤ :=
  if a < one18 then
    if a < 0 then .error (.runtimeError "maximum recursion depth exceeded")
    else do
      let inverse ← divide ops (one18 * one18) a
      .ok (-lnLarge ops inverse)
  else .ok (lnLarge ops a)

/-- `_ln_36` -/
def ln36 (x : ℤ) : ℤ :=
  let x := x * one18
  let z := ops.quotient ((x - one36) * one36) (x + one36)
  oddSeries ops one36 z [3, 5, 7, 9, 11, 13, 15] * 2

/-- The arguments for which the logarithm is computed with 36 decimals. -/
def NearOne (x : ℤ) : Prop := ln36LowerBound < x ∧ x < ln36UpperBound

instance (x : ℤ) : Decidable (NearOne x) := inferInstanceAs (Decidable (_ ∧ _))

/-- `logx_times_y`, before the last division. -/
def logTimes (x y : ℤ) : Except Exn ℤ :=
  if NearOne x then
    let ln36x := ln36 ops x
    .ok (ops.quotient ln36x one18 * y + ops.quotient (ops.remainder ln36x one18 * y) one18)
  else do
    let lnx ← lnCore ops x
    .ok (lnx * y)

def pow (x y : ℤ) : Except Exn ℤ :=
  if y = 0 then .ok one18
  else if x = 0 then .ok 0
  else if x ≥ 2 ^ 255 then .error (.evmRevertError "X_OUT_OF_BOUNDS")
  else if y ≥ mildExponentBound then .error (.evmRevertError "Y_OUT_OF_BOUNDS")
  else do
    let product ← logTimes ops x y
    let exponent := ops.quotient product one18
    if ¬(minNaturalExponent ≤ exponent ∧ exponent ≤ maxNaturalExponent) then
      .error (.evmRevertError "PRODUCT_OUT_OF_BOUNDS")
    else exp ops exponent

end Functions

end Degenbot.LogExpMath
