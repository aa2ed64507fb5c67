import Degenbot.Algorithm.Wide

/-! # `simulation/v2.rs` and `simulation/v2_optimize.rs` -/

namespace Degenbot.V2Simulation

open Wide

/-! ## `v2.rs` -/

def feeDenom : U256 := 10000

/-- `10_000 - fee_bps`, for the fees below 10000 that reach it. -/
def feeNum (feeBps : BitVec 32) : BitVec 64 := 10000 - feeBps.setWidth 64

def validateReserves (reserveIn reserveOut : U256) : Except String Unit :=
  if reserveIn = 0 ∨ reserveOut = 0 then .error "v2: reserves must be non-zero" else .ok ()

def validateFeeBps (feeBps : BitVec 32) : Except String Unit :=
  if 10000 ≤ feeBps then .error "v2: fee_bps must be < 10000" else .ok ()

def amountOut (amountIn reserveIn reserveOut : U256) (feeBps : BitVec 32) :
    Except String U256 := do
  validateReserves reserveIn reserveOut
  validateFeeBps feeBps
  if amountIn = 0 then .error "v2::amount_out: amount_in is zero"
  else do
    let amountInWithFee ← okOrElse (checkedMul amountIn ((feeNum feeBps).setWidth 256))
      "v2::amount_out: amount_in * fee_num overflow"
    let denominator ← okOrElse
      ((checkedMul reserveIn feeDenom).bind fun base => checkedAdd base amountInWithFee)
      "v2::amount_out: denominator overflow"
    mulDiv amountInWithFee reserveOut denominator

def amountInForOut (amountOut reserveIn reserveOut : U256) (feeBps : BitVec 32) :
    Except String U256 := do
  validateReserves reserveIn reserveOut
  validateFeeBps feeBps
  if amountOut = 0 then .error "v2::amount_in_for_out: amount_out is zero"
  else if reserveOut ≤ amountOut then
    .error "v2::amount_in_for_out: amount_out exceeds reserve_out"
  else
    let numerator := widen reserveIn * widen amountOut * widen feeDenom
    let denominator := widen (reserveOut - amountOut) * widen (feeNum feeBps)
    if denominator = 0 then .error "v2::amount_in_for_out: denominator is zero"
    else
      let rounded := numerator / denominator + if numerator % denominator = 0 then 0 else 1
      narrowU512 rounded "v2::amount_in_for_out: required input overflows U256"

/-! ## `v2_optimize.rs` -/

def optimalInput2pool (rA1 rB1 : U256) (feeBps1 : BitVec 32) (rB2 rA2 : U256)
    (feeBps2 : BitVec 32) : Except String U256 :=
  if rA1 = 0 ∨ rB1 = 0 ∨ rB2 = 0 ∨ rA2 = 0 then
    .error "v2_optimize: reserves must be non-zero"
  else
    let g1Num := widen (feeNum feeBps1)
    let g2Num := widen (feeNum feeBps2)
    let d : U512 := 10000
    let k := widen rA1 * widen rB1 * widen rB2 * widen rA2 * g1Num * g2Num
    let sqrtK := isqrtU512 k
    let term1 := sqrtK / d
    let term2 := widen rA1 * widen rB2
    if term1 ≤ term2 then .ok 0
    else
      let numerator := term1 - term2
      let denomScaled := widen rB2 * d + widen rB1 * g1Num
      narrowU512 (numerator * d / denomScaled) "v2_optimize: optimal input overflows U256"

def optimalV2FrontrunAmount (victimAmountIn victimMinOut reserveIn reserveOut : U256)
    (feeBps marginBps : BitVec 32) : Except String U256 :=
  if 10000 ≤ feeBps ∨ 10000 ≤ marginBps then .ok 0
  else if reserveIn = 0 ∨ reserveOut = 0 ∨ victimAmountIn = 0 ∨ victimMinOut = 0 then .ok 0
  else do
    let gBps : U256 := (10000 - feeBps).setWidth 256
    let bpsU256 : U256 := 10000
    let victimFee ← okOrElse (checkedMul victimAmountIn gBps)
      "overflow in optimal_v2_frontrun_amount victim_fee"
    let num ← okOrElse (checkedMul victimFee reserveOut)
      "overflow in optimal_v2_frontrun_amount numerator"
    let denReserve ← okOrElse (checkedMul reserveIn bpsU256)
      "overflow in optimal_v2_frontrun_amount denominator reserve"
    let den ← okOrElse (checkedAdd denReserve victimFee)
      "overflow in optimal_v2_frontrun_amount denominator add"
    let baselineOut := num / den
    if baselineOut ≤ victimMinOut then .ok 0
    else do
      let innerReserve ← okOrElse (checkedMul reserveIn bpsU256)
        "overflow in optimal_v2_frontrun_amount c1 inner reserve"
      let inner ← okOrElse (checkedAdd innerReserve victimFee)
        "overflow in optimal_v2_frontrun_amount c1 inner add"
      let c1PosScaled ← okOrElse (checkedMul reserveIn inner)
        "overflow in optimal_v2_frontrun_amount c1_pos"
      let c1Pos := c1PosScaled / gBps
      let c1NegReserve ← okOrElse (checkedMul victimAmountIn reserveIn)
        "overflow in optimal_v2_frontrun_amount c1_neg reserve"
      let c1NegScaled ← okOrElse (checkedMul c1NegReserve reserveOut)
        "overflow in optimal_v2_frontrun_amount c1_neg out"
      let c1Neg := c1NegScaled / victimMinOut
      if c1Neg ≤ c1Pos then .ok 0
      else do
        let absC1 := c1Neg - c1Pos
        let bpsPlusGamma ← okOrElse (checkedAdd bpsU256 gBps)
          "overflow in optimal_v2_frontrun_amount bps_plus_gamma"
        let b1LhsScaled ← okOrElse (checkedMul reserveIn bpsPlusGamma)
          "overflow in optimal_v2_frontrun_amount b1_lhs"
        let b1RhsScaled ← okOrElse (checkedMul gBps victimAmountIn)
          "overflow in optimal_v2_frontrun_amount b1_rhs"
        let b1 ← okOrElse (checkedAdd (b1LhsScaled / gBps) (b1RhsScaled / bpsU256))
          "overflow in optimal_v2_frontrun_amount b1"
        let halfB := b1 / 2
        let halfBSq ← okOrElse (checkedMul halfB halfB)
          "overflow in optimal_v2_frontrun_amount half_b_sq"
        let disc ← okOrElse (checkedAdd halfBSq absC1)
          "overflow in optimal_v2_frontrun_amount discriminant"
        let sqrtDisc := isqrt disc
        if sqrtDisc ≤ halfB then .ok 0
        else do
          let frontrunAmount := sqrtDisc - halfB
          if 0 < marginBps then do
            let marginFactor ← okOrElse (checkedSub bpsU256 (marginBps.setWidth 256))
              "underflow in optimal_v2_frontrun_amount margin"
            let scaled ← okOrElse (checkedMul frontrunAmount marginFactor)
              "overflow in optimal_v2_frontrun_amount margin mul"
            .ok (scaled / bpsU256)
          else .ok frontrunAmount

/-- The products of `U256` values wrap. `none` is the panic of a division by zero. -/
def v2SandwichMaxSize (victimAmountIn victimMinOut reserveIn reserveOut : U256)
    (feeBps : BitVec 32) : Option (Except String U256) :=
  if 10000 ≤ feeBps then some (.ok 0)
  else if reserveIn = 0 ∨ reserveOut = 0 ∨ victimAmountIn = 0 then some (.ok 0)
  else
    let f : U256 := (10000 - feeBps).setWidth 256
    let d : U256 := 10000
    if reserveIn * d + victimAmountIn * f = 0 then none
    else
      let baselineOut := reserveOut * victimAmountIn * f / (reserveIn * d + victimAmountIn * f)
      if baselineOut ≤ victimMinOut then some (.ok 0)
      else
        let x0d := reserveIn * d
        let vf := victimAmountIn * f
        let l := victimMinOut
        let aCoeff := l * f * d
        let bCoeff := l * (x0d * (d + f) + victimAmountIn * f * f)
        let cPos := l * x0d * (x0d + vf)
        let cNeg := reserveOut * x0d * vf
        if cNeg ≤ cPos then some (.ok 0)
        else
          let negC := cNeg - cPos
          let a512 := widen aCoeff
          let b512 := widen bCoeff
          let c512 := widen negC
          match okOrElse (checkedMul b512 b512) "b_coeff^2 overflow" with
          | .error report => some (.error report)
          | .ok square =>
              match okOrElse (checkedAdd square (4 * a512 * c512)) "disc overflow" with
              | .error report => some (.error report)
              | .ok disc =>
                  let sqrtDisc := isqrtU512 disc
                  if sqrtDisc ≤ b512 then some (.ok 0)
                  else if 2 * a512 = 0 then none
                  else
                    some (narrowU512 ((sqrtDisc - b512) / (2 * a512))
                      "v2_optimize: sandwich max size overflows U256")

end Degenbot.V2Simulation
