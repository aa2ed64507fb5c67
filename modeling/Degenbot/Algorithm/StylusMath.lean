import Degenbot.Algorithm.Wide
import Degenbot.Library.Outcome
import Mathlib.Data.Nat.Size

/-! # `stylus/core`: the optimisers of `mega_mev_optimization.rs` and `frontrun_calldata.rs`

The operators of `U256` and `U512` wrap. -/

namespace Degenbot.Stylus

open Library Wide

/-! ## `mega_mev_optimization.rs` -/

inductive V2OptimizationError where
  | emptyPath
  | invalidReserves
  | invalidFeeBps (feeBps : U256)
  | overflow
deriving DecidableEq, Repr

structure V2PoolHop where
  reserveIn : U256
  reserveOut : U256
  feeBps : U256
deriving DecidableEq

def v2FeeDenominatorBps : U256 := 10000

def checkedAddU512 (a b : U512) : Except V2OptimizationError U512 := okOr (checkedAdd a b) .overflow

def checkedMulU512 (a b : U512) : Except V2OptimizationError U512 := okOr (checkedMul a b) .overflow

def narrowU512ToV2 (value : U512) : Except V2OptimizationError U256 :=
  if value > widen (BitVec.allOnes 256) then .error .overflow else .ok (value.setWidth 256)

def validateV2Hop (hop : V2PoolHop) : Except V2OptimizationError Unit :=
  if hop.reserveIn = 0 ∨ hop.reserveOut = 0 then .error .invalidReserves
  else if hop.feeBps ≥ v2FeeDenominatorBps then .error (.invalidFeeBps hop.feeBps)
  else .ok ()

def v2AmountOut (hop : V2PoolHop) (amountIn : U256) : Except V2OptimizationError U256 := do
  validateV2Hop hop
  if amountIn = 0 then .ok 0
  else
    let feeMultiplier := v2FeeDenominatorBps - hop.feeBps
    let amountInAfterFee ← checkedMulU512 (widen amountIn) (widen feeMultiplier)
    let numerator ← checkedMulU512 amountInAfterFee (widen hop.reserveOut)
    let base ← checkedMulU512 (widen hop.reserveIn) (widen v2FeeDenominatorBps)
    let denominator ← checkedAddU512 base amountInAfterFee
    narrowU512ToV2 (numerator / denominator)

def v2RouteOutput (hops : List V2PoolHop) (amountIn : U256) : Except V2OptimizationError U256 :=
  if hops = [] then .error .emptyPath
  else hops.foldlM (fun amount hop => v2AmountOut hop amount) amountIn

/-- The loop body of `v2_route_mobius_coefficients`. -/
def nextCoefficients (coefficients : U512 × U512 × U512) (hop : V2PoolHop) :
    Except V2OptimizationError (U512 × U512 × U512) := do
  validateV2Hop hop
  let (k, m, n) := coefficients
  let feeMultiplier := widen (v2FeeDenominatorBps - hop.feeBps)
  let reserveInTerm ← checkedMulU512 (widen v2FeeDenominatorBps) (widen hop.reserveIn)
  let scaled ← checkedMulU512 feeMultiplier (widen hop.reserveOut)
  let nextK ← checkedMulU512 scaled k
  let fromK ← checkedMulU512 feeMultiplier k
  let fromM ← checkedMulU512 reserveInTerm m
  let nextM ← checkedAddU512 fromK fromM
  let nextN ← checkedMulU512 reserveInTerm n
  .ok (nextK, nextM, nextN)

def v2RouteMobiusCoefficients :
    List V2PoolHop → Except V2OptimizationError (U512 × U512 × U512)
  | [] => .error .emptyPath
  | first :: hops => do
      validateV2Hop first
      let feeMultiplier := widen (v2FeeDenominatorBps - first.feeBps)
      let k ← checkedMulU512 feeMultiplier (widen first.reserveOut)
      let n ← checkedMulU512 (widen v2FeeDenominatorBps) (widen first.reserveIn)
      hops.foldlM nextCoefficients (k, feeMultiplier, n)

/-- The loop is that of the other square roots. At `U512::MAX` its first sum would wrap. -/
def sqrtU512 (x : U512) : U512 := if x ≤ 1 then x else isqrtLoop x x

def optimalV2CycleInput (hops : List V2PoolHop) : Except V2OptimizationError U256 := do
  let (k, m, n) ← v2RouteMobiusCoefficients hops
  if k ≤ n ∨ m = 0 then .ok 0
  else
    let target ← checkedMulU512 k n
    let root := sqrtU512 target
    if root ≤ n then .ok 0 else narrowU512ToV2 ((root - n) / m)

/-- `bit_length`, as a number. -/
def bitLength (x : U256) : ℕ := x.toNat.size

def sqrt (x : U256) : U256 :=
  if x ≤ 1 then x else isqrtLoop x ((1 : U256) <<< ((bitLength x + 1) / 2))

def sqrtUp (x : U256) : U256 :=
  let z := sqrt x
  if z ≠ 0 ∧ z < x / z then z + 1 else z

/-! ## `frontrun_calldata.rs` -/

inductive FrontrunMathError where
  | invalidReserves
  | invalidFeeBps (feeBps : U256)
  | invalidMarginBps (marginBps : U256)
  | overflow
deriving DecidableEq, Repr

def bpsDenominator : U256 := 10000

def frontrunAdd (a b : U256) : Except FrontrunMathError U256 := okOr (checkedAdd a b) .overflow

def frontrunMul (a b : U256) : Except FrontrunMathError U256 := okOr (checkedMul a b) .overflow

def checkedMulDiv (a b denominator : U256) : Except FrontrunMathError U256 :=
  if denominator = 0 then .error .overflow
  else do
    let product ← frontrunMul a b
    .ok (product / denominator)

def checkedMulDiv3 (a b c denominator : U256) : Except FrontrunMathError U256 :=
  if denominator = 0 then .error .overflow
  else do
    let pair ← frontrunMul a b
    let product ← frontrunMul pair c
    .ok (product / denominator)

def getAmountOut (amountIn reserveIn reserveOut feeBps : U256) : Except FrontrunMathError U256 :=
  if amountIn = 0 then .ok 0
  else if reserveIn = 0 ∨ reserveOut = 0 then .error .invalidReserves
  else if feeBps ≥ bpsDenominator then .error (.invalidFeeBps feeBps)
  else do
    let amountInWithFee ← frontrunMul amountIn (bpsDenominator - feeBps)
    let numerator ← frontrunMul amountInWithFee reserveOut
    let base ← frontrunMul reserveIn bpsDenominator
    let denominator ← frontrunAdd base amountInWithFee
    .ok (numerator / denominator)

def optimalV2FrontrunAmount (victimAmountIn victimMinOut reserveIn reserveOut feeBps
    marginBps : U256) : Except FrontrunMathError U256 :=
  if feeBps ≥ bpsDenominator then .error (.invalidFeeBps feeBps)
  else if marginBps ≥ bpsDenominator then .error (.invalidMarginBps marginBps)
  else if reserveIn = 0 ∨ reserveOut = 0 then .error .invalidReserves
  else if victimAmountIn = 0 ∨ victimMinOut = 0 then .ok 0
  else do
    let baselineOut ← getAmountOut victimAmountIn reserveIn reserveOut feeBps
    if baselineOut ≤ victimMinOut then .ok 0
    else
      let gBps := bpsDenominator - feeBps
      let gBpsAv ← frontrunMul gBps victimAmountIn
      let base ← frontrunMul reserveIn bpsDenominator
      let innerFirst ← frontrunAdd base gBpsAv
      let c1Pos ← checkedMulDiv reserveIn innerFirst gBps
      let c1Neg ← checkedMulDiv3 victimAmountIn reserveIn reserveOut victimMinOut
      if c1Neg ≤ c1Pos then .ok 0
      else
        let lhs ← checkedMulDiv reserveIn (bpsDenominator + gBps) gBps
        let scaled ← frontrunMul gBps victimAmountIn
        let b1OverA1 ← frontrunAdd lhs (scaled / bpsDenominator)
        let absC1OverA1 := c1Neg - c1Pos
        let halfB := b1OverA1 / 2
        let halfBSq ← frontrunMul halfB halfB
        let disc ← frontrunAdd halfBSq absC1OverA1
        let sqrtDisc := sqrt disc
        if sqrtDisc ≤ halfB then .ok 0
        else
          let frontrunAmount := sqrtDisc - halfB
          if marginBps ≠ 0 then
            let kept ← frontrunMul frontrunAmount (bpsDenominator - marginBps)
            .ok (kept / bpsDenominator)
          else .ok frontrunAmount

end Degenbot.Stylus
