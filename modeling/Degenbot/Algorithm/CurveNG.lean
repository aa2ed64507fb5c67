import Degenbot.Algorithm.SwapMath
import Degenbot.Algorithm.Types
import Degenbot.Library.WhileLoop
import Mathlib.Algebra.Ring.Nat

/-! # `simulation/curve.rs`: the StableSwap invariant

Values of `U256` are natural numbers. Every operation that may leave their range is checked,
as in the source. -/

namespace Degenbot.CurveSimulation

open Library

/-- The reports of `amount_out`: a check of its arguments, an operation without a result in
256 bits, and an iteration that does not end. -/
inductive CurveError where
  | invalid (message : String)
  | arithmetic (message : String)
  | notConverged (message : String)
deriving DecidableEq

/-! ## `U256` -/

def uint256Size : ℕ := 2 ^ 256

def checked (value : ℕ) (message : String) : Except CurveError ℕ :=
  if uint256Size ≤ value then .error (.arithmetic message) else .ok value

def checkedAdd (a b : ℕ) (message : String) : Except CurveError ℕ := checked (a + b) message

def checkedMul (a b : ℕ) (message : String) : Except CurveError ℕ := checked (a * b) message

def checkedSub (a b : ℕ) (message : String) : Except CurveError ℕ :=
  if a < b then .error (.arithmetic message) else .ok (a - b)

/-- `mul_div` of `utils/u256.rs`. -/
def mulDiv (a b denom : ℕ) : Except CurveError ℕ :=
  if denom = 0 then .error (.arithmetic "u256::mul_div: denominator is zero")
  else checked (a * b / denom) "u256::mul_div: quotient overflows U256"

def absDiff (a b : ℕ) : ℕ := if a > b then a - b else b - a

/-! ## Newton iterations -/

/-- `d * Π(d / (x_k * n))` -/
def productTerm (n d : ℕ) (xp : List ℕ) : Except CurveError ℕ :=
  xp.foldlM (fun dP x => do
    let denom ← checkedMul x n "curve::get_d: x*n overflow"
    mulDiv dP d denom) d

def getDNext (xp : List ℕ) (n sum ann d : ℕ) : Except CurveError ℕ := do
  let dP ← productTerm n d xp
  let annSum ← checkedMul ann sum "curve::get_d: ann*sum overflow"
  let dPn ← checkedMul dP n "curve::get_d: d_p*n overflow"
  let numeratorLhs ← checkedAdd annSum dPn "curve::get_d: numerator overflow"
  let annLess ← checkedSub ann 1 "curve::get_d: ann < 1"
  let annLessD ← checkedMul annLess d "curve::get_d: (ann-1)*d overflow"
  let nPlus ← checkedAdd n 1 "curve::get_d: n+1 overflow"
  let nPlusDP ← checkedMul nPlus dP "curve::get_d: (n+1)*d_p overflow"
  let denominator ← checkedAdd annLessD nPlusDP "curve::get_d: denominator overflow"
  mulDiv numeratorLhs d denominator

def close (previous next : ℕ) : Bool := absDiff next previous ≤ 1

def getDNotConverged : CurveError :=
  .notConverged "curve::get_d: Newton iteration did not converge"

def getD (xp : List ℕ) (amp : ℕ) : Except CurveError ℕ := do
  let n := xp.length
  let sum ← xp.foldlM (fun sum x => checkedAdd sum x "curve::get_d: balance sum overflow") 0
  if sum = 0 then .ok 0
  else do
    let ann ← checkedMul amp n "curve::get_d: A*n overflow"
    converge (getDNext xp n sum ann) close getDNotConverged 255 sum

/-- The balances after the trade, less the one of `j`. -/
def otherBalances (i j x : ℕ) (xp : List ℕ) : List ℕ :=
  (xp.zipIdx.filter fun entry => entry.2 = i ∨ entry.2 ≠ j).map fun entry =>
    if entry.2 = i then x else entry.1

def getYNext (b c d y : ℕ) : Except CurveError ℕ := do
  let square ← checkedMul y y "curve::get_y: y*y overflow"
  let numerator ← checkedAdd square c "curve::get_y: numerator overflow"
  let double ← checkedMul y 2 "curve::get_y: 2*y overflow"
  let doubleB ← checkedAdd double b "curve::get_y: denominator underflow"
  let denominator ← checkedSub doubleB d "curve::get_y: denominator underflow"
  if denominator = 0 then .error (.arithmetic "curve::get_y: zero denominator")
  else .ok (numerator / denominator)

def getYNotConverged : CurveError :=
  .notConverged "curve::get_y: Newton iteration did not converge"

def getY (i j x : ℕ) (xp : List ℕ) (amp : ℕ) : Except CurveError ℕ := do
  let n := xp.length
  let d ← getD xp amp
  let ann ← checkedMul amp n "curve::get_y: A*n overflow"
  let (s, c) ← (otherBalances i j x xp).foldlM (fun (s, c) xK => do
    let s ← checkedAdd s xK "curve::get_y: balance sum overflow"
    let denom ← checkedMul xK n "curve::get_y: x*n overflow"
    let c ← mulDiv c d denom
    .ok (s, c)) (0, d)
  let annN ← checkedMul ann n "curve::get_y: ann*n overflow"
  let c ← mulDiv c d annN
  let b ← checkedAdd s (d / ann) "curve::get_y: b overflow"
  converge (getYNext b c d) close getYNotConverged 255 d

/-! ## `amount_out` -/

/-- `CurveSnapshot`, less `is_meta`, which nothing reads. -/
structure CurveSnapshot where
  balances : List ℕ
  a : ℕ
  feeBps : ℕ

def amountOut (pool : CurveSnapshot) (i j amountIn : ℕ) : Except CurveError ℕ :=
  let n := pool.balances.length
  if n < 2 then .error (.invalid "curve::amount_out: pool needs >= 2 coins")
  else if i ≥ n ∨ j ≥ n then .error (.invalid "curve::amount_out: token index out of range")
  else if i = j then .error (.invalid "curve::amount_out: i and j must differ")
  else if amountIn = 0 then .error (.invalid "curve::amount_out: amount_in is zero")
  else if pool.feeBps ≥ 10000 then
    .error (.invalid "curve::amount_out: fee_bps must be < 10000")
  else if pool.a = 0 then
    .error (.invalid "curve::amount_out: amplification A must be > 0")
  else if pool.balances.any (· = 0) then
    .error (.invalid "curve::amount_out: pool has an empty balance")
  else do
    let x ← checkedAdd (pool.balances.getD i 0) amountIn
      "curve::amount_out: balance + amount_in overflow"
    let y ← getY i j x pool.balances pool.a
    let dy ← checkedSub (pool.balances.getD j 0) y "curve::amount_out: non-positive output"
    let dy ← checkedSub dy 1 "curve::amount_out: non-positive output"
    let fee ← mulDiv dy pool.feeBps 10000
    checkedSub dy fee "curve::amount_out: fee exceeds output"

end Degenbot.CurveSimulation

/-! ## `execution_adapters/curve_ng_adapter.py`

Addresses are their values. Divisors that a state can make zero are divided by with the error
of Python. -/

namespace Degenbot.CurveNG

open Library

abbrev Address := ℕ

def aPrecision : ℤ := 100
def feeDenominator : ℤ := 10 ^ 10
def maxIter : ℕ := 255

/-- `CurveNGPoolState`, less the address and the block. The amplification is the user-facing
one. -/
structure CurveNGPoolState where
  balances : ℤ × ℤ
  rates : ℤ × ℤ
  amp : ℤ
  feeBps : ℤ

/-- A pool as its constructor accepts it. -/
structure CurveNGPool where
  token0 : Address
  token1 : Address
  state : CurveNGPoolState
  balances_nonneg : 0 ≤ state.balances.1 ∧ 0 ≤ state.balances.2
  rates_pos : 0 < state.rates.1 ∧ 0 < state.rates.2
  amp_pos : 0 < state.amp
  fee_mem : 0 ≤ state.feeBps ∧ state.feeBps < feeDenominator

/-- `pair[index]` -/
def coin (pair : ℤ × ℤ) (index : ℕ) : ℤ := if index = 0 then pair.1 else pair.2

/-! ## The solver -/

def close (previous next : ℤ) : Bool := |next - previous| ≤ 1

/-- One round of `_curve_ng_get_d`. -/
def getDNext (xp : ℤ × ℤ) (s ann d : ℤ) : Except Exn ℤ := do
  let dP ← [xp.1, xp.2].foldlM (fun dP x => floorDivide (dP * d) (x * 2 + 1)) d
  floorDivide (((ann * s).fdiv aPrecision + dP * 2) * d)
    (((ann - aPrecision) * d).fdiv aPrecision + (2 + 1) * dP)

/-- `_curve_ng_get_d` -/
def curveNgGetD (xp : ℤ × ℤ) (amp : ℤ) : Except Exn ℤ :=
  let s := xp.1 + xp.2
  if s = 0 then .ok 0
  else converge (getDNext xp s (amp * 2 ^ 2)) close
    (.evmRevertError "Curve NG D-solver did not converge in 255 iterations") maxIter s

/-- A round of the walk over the coins but `j`. -/
def walk (i j : ℕ) (x : ℤ) (xp : ℤ × ℤ) (d : ℤ) (acc : ℤ × ℤ) (k : ℕ) : Except Exn (ℤ × ℤ) :=
  if k = i ∨ k ≠ j then do
    let xK := if k = i then x else coin xp k
    let c ← floorDivide (acc.2 * d) (xK * 2)
    .ok (acc.1 + xK, c)
  else .ok acc

/-- `_curve_ng_get_y` -/
def curveNgGetY (i j : ℕ) (x : ℤ) (xp : ℤ × ℤ) (amp : ℤ) : Except Exn ℤ := do
  if i = j then .error (.valueError "i and j must differ")
  else if ¬(i < 2 ∧ j < 2) then .error (.valueError "i / j out of range for 2-token pool")
  else
    let d ← curveNgGetD xp amp
    let ann := amp * 2 ^ 2
    let (s, c) ← (List.range 2).foldlM (walk i j x xp d) (0, d)
    let c ← floorDivide (c * d * aPrecision) (ann * 2)
    let share ← floorDivide (d * aPrecision) ann
    let b := s + share
    converge (fun y => floorDivide (y * y + c) (2 * y + b - d)) close
      (.evmRevertError "Curve NG y-solver did not converge in 255 iterations") maxIter d

/-! ## The pool -/

/-- The positions of the coins sold and bought. -/
def CurveNGPool.coinIndices (pool : CurveNGPool) (tokenIn : Address) : Except Exn (ℕ × ℕ) :=
  if tokenIn = pool.token0 then .ok (0, 1)
  else if tokenIn = pool.token1 then .ok (1, 0)
  else .error (.valueError s!"token_in {tokenIn} matches neither pool token ({pool.token0}, {pool.token1})")

def CurveNGPoolState.xp (state : CurveNGPoolState) : ℤ × ℤ :=
  ((state.balances.1 * state.rates.1).fdiv (10 ^ 18),
    (state.balances.2 * state.rates.2).fdiv (10 ^ 18))

def CurveNGPool.calculateTokensOutFromTokensIn (pool : CurveNGPool) (tokenIn : Address)
    (tokenInQuantity : ℤ) (overrideState : Option CurveNGPoolState) : Except Exn ℤ :=
  if tokenInQuantity ≤ 0 then
    .error (.valueError s!"token_in_quantity must be positive, got {tokenInQuantity}")
  else do
    let (i, j) ← pool.coinIndices tokenIn
    let s := overrideState.getD pool.state
    let dxNormalised := (tokenInQuantity * coin s.rates i).fdiv (10 ^ 18)
    let xNew := coin s.xp i + dxNormalised
    let y ← curveNgGetY i j xNew s.xp s.amp
    let dyNormalised := coin s.xp j - y - 1
    let feeAmount := (dyNormalised * s.feeBps).fdiv feeDenominator
    let dyAfterFee := dyNormalised - feeAmount
    floorDivide (dyAfterFee * 10 ^ 18) (coin s.rates j)

end Degenbot.CurveNG
