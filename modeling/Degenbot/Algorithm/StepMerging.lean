import Degenbot.Library.Digits
import Degenbot.Library.Outcome
import Mathlib.Algebra.Ring.Nat
import Mathlib.Data.BitVec

/-! # `stylus/core`: `step_merging.rs`

`keccak256` is a parameter. -/

namespace Degenbot.StepMerging

abbrev U256 := BitVec 256

/-- `FixedBytes<32>` -/
abbrev Bytes32 := BitVec 256

/-- `FixedBytes::<32>::ZERO` -/
def zeroBytes : Bytes32 := 0

/-- `as_slice` -/
def slice (bytes : Bytes32) : List UInt8 := Library.beBytes 32 bytes.toNat

inductive MergePanic where
  | overflow
  | divisionByZero
deriving DecidableEq, Repr

/-! ## Arithmetic -/

/-- The operators of `U256` wrap. With `reported`, a wrapped sum or product is a failure. -/
inductive Arithmetic where
  | wrapping
  | reported
deriving DecidableEq, Repr

def Arithmetic.add (arithmetic : Arithmetic) (a b : U256) : Except MergePanic U256 :=
  if arithmetic = .reported ∧ 2 ^ 256 ≤ a.toNat + b.toNat then .error .overflow else .ok (a + b)

def Arithmetic.mul (arithmetic : Arithmetic) (a b : U256) : Except MergePanic U256 :=
  if arithmetic = .reported ∧ 2 ^ 256 ≤ a.toNat * b.toNat then .error .overflow else .ok (a * b)

def div (a b : U256) : Except MergePanic U256 :=
  if b = 0 then .error .divisionByZero else .ok (a / b)

/-- `checked_mul`, with `expect`, and a division. -/
def mulDiv (x y denominator : U256) : Except MergePanic U256 :=
  if 2 ^ 256 ≤ x.toNat * y.toNat then .error .overflow else div (x * y) denominator

/-! ## Routes -/

def scale : U256 := 1000000000000000000
def feeBps : U256 := 30
def impactExponent : U256 := 3
def minEffectiveRateFraction : U256 := 10
def mergedGasNumerator : U256 := 62
def mergedGasDenominator : U256 := 100

structure Hop where
  dex : Bytes32
  fromToken : Bytes32
  toToken : Bytes32
  amountIn : U256
  amountOut : U256
  gas : U256
  poolLiquidity : U256
deriving DecidableEq, Inhabited

structure Route where
  hops : List Hop
  totalOutput : U256
  totalGas : U256
deriving DecidableEq, Inhabited

structure MergedGroup where
  signatureHash : Bytes32
  mergedCount : U256
  mergedAmountAtIntermediate : U256
  mergedOutput : U256
  originalBestOutput : U256
  mergedGas : U256
  originalTotalGas : U256
deriving DecidableEq

def simulatePriceImpactU256 (arithmetic : Arithmetic) (amountIn poolLiquidity : U256) :
    Except MergePanic U256 :=
  if poolLiquidity = 0 then .ok 0
  else do
    let denominator ← arithmetic.add poolLiquidity amountIn
    let impactFactor ← mulDiv amountIn scale denominator
    let feeScaled ← arithmetic.mul feeBps scale
    let feePart ← div feeScaled 10000
    let impactPart ← mulDiv impactFactor impactExponent 100
    let penalty ← arithmetic.add feePart impactPart
    let effectiveRate := if scale > penalty then scale - penalty else 0
    let floorRate ← div scale minEffectiveRateFraction
    .ok (if effectiveRate > floorRate then effectiveRate else floorRate)

def makeRoute (arithmetic : Arithmetic) (hops : List Hop) : Except MergePanic Route :=
  match hops.getLast? with
  | none => .ok ⟨[], 0, 0⟩
  | some last => do
      let totalGas ← hops.foldlM (fun sum hop => arithmetic.add sum hop.gas) 0
      .ok ⟨hops, last.amountOut, totalGas⟩

/-- The tokens between the first and the last one, one after the other. -/
def packed (hops : List Hop) : List UInt8 := hops.dropLast.flatMap fun hop => slice hop.toToken

/-! ## Merging -/

section Merging

variable (keccak256 : List UInt8 → Bytes32) (arithmetic : Arithmetic)

def intermediateSignature (hops : List Hop) : Bytes32 :=
  if hops.length < 2 then zeroBytes else keccak256 (packed hops)

/-- The hop `k` places before the end. Merged routes have two hops or more. -/
def Route.fromEnd (route : Route) (k : ℕ) : Hop := route.hops[route.hops.length - k]?.getD default

/-- The amount at the merge, the best final hop so far and its rate. -/
structure BestFinal where
  totalAtMerge : U256
  bestFinal : Hop
  bestRate : U256

/-- One pass of the first loop of `build_merged_route`. -/
def BestFinal.visit (best : BestFinal) (route : Route) : Except MergePanic BestFinal := do
  let totalAtMerge ← arithmetic.add best.totalAtMerge (route.fromEnd 2).amountOut
  let rate ← mulDiv (route.fromEnd 1).amountOut scale (route.fromEnd 1).amountIn
  .ok (if rate > best.bestRate then ⟨totalAtMerge, route.fromEnd 1, rate⟩
    else ⟨totalAtMerge, best.bestFinal, best.bestRate⟩)

/-- One pass of the second loop: the best output and the total of the gas. -/
def visitTotals (totals : U256 × U256) (route : Route) : Except MergePanic (U256 × U256) := do
  let originalTotalGas ← arithmetic.add totals.2 route.totalGas
  .ok (if route.totalOutput > totals.1 then route.totalOutput else totals.1, originalTotalGas)

def buildMergedRoute (routes : List Route) (indexes : List ℕ) (sig finalToken : Bytes32) :
    Except MergePanic (Route × MergedGroup) := do
  let members := indexes.map fun index => routes[index]?.getD default
  let firstRoute := routes[indexes.headD 0]?.getD default
  let firstRate ← mulDiv (firstRoute.fromEnd 1).amountOut scale (firstRoute.fromEnd 1).amountIn
  let best ← members.foldlM (BestFinal.visit arithmetic) ⟨0, firstRoute.fromEnd 1, firstRate⟩
  let effectiveRate ← simulatePriceImpactU256 arithmetic best.totalAtMerge
    best.bestFinal.poolLiquidity
  let mergedAmountOut ← mulDiv best.totalAtMerge effectiveRate scale
  let gasScaled ← arithmetic.mul best.bestFinal.gas mergedGasNumerator
  let mergedGas ← div gasScaled mergedGasDenominator
  let mergedFinal : Hop :=
    { dex := best.bestFinal.dex
      fromToken := (firstRoute.fromEnd 2).toToken
      toToken := finalToken
      amountIn := best.totalAtMerge
      amountOut := mergedAmountOut
      gas := mergedGas
      poolLiquidity := best.bestFinal.poolLiquidity }
  let mergedRoute ← makeRoute arithmetic
    (firstRoute.hops.set (firstRoute.hops.length - 1) mergedFinal)
  let totals ← members.foldlM (visitTotals arithmetic) (0, 0)
  .ok (mergedRoute,
    { signatureHash := sig
      mergedCount := BitVec.ofNat 256 indexes.length
      mergedAmountAtIntermediate := best.totalAtMerge
      mergedOutput := mergedAmountOut
      originalBestOutput := totals.1
      mergedGas := mergedRoute.totalGas
      originalTotalGas := totals.2 })

/-! ## The scan -/

structure Scan where
  used : List Bool
  optimised : List Route
  groups : List MergedGroup

/-- One pass of the inner loop. -/
def collect (sigs : List Bytes32) (sig : Bytes32) (collected : List Bool × List ℕ) (j : ℕ) :
    List Bool × List ℕ :=
  if collected.1[j]?.getD false = false ∧ sigs[j]?.getD zeroBytes = sig then
    (collected.1.set j true, collected.2 ++ [j])
  else collected

/-- One pass of the outer loop. -/
def visit (routes : List Route) (sigs : List Bytes32) (finalToken : Bytes32) (scan : Scan)
    (i : ℕ) : Except MergePanic Scan :=
  if scan.used[i]?.getD false then .ok scan
  else
    let used := scan.used.set i true
    let sig := sigs[i]?.getD zeroBytes
    if sig = zeroBytes then .ok ⟨used, scan.optimised ++ [routes[i]?.getD default], scan.groups⟩
    else
      let collected := (List.range' (i + 1) (routes.length - (i + 1))).foldl (collect sigs sig)
        (used, [i])
      if collected.2.length = 1 then
        .ok ⟨collected.1, scan.optimised ++ [routes[i]?.getD default], scan.groups⟩
      else do
        let merged ← buildMergedRoute arithmetic routes collected.2 sig finalToken
        .ok ⟨collected.1, scan.optimised ++ [merged.1], scan.groups ++ [merged.2]⟩

def mergeStepsByIntermediate (routes : List Route) (finalToken : Bytes32) :
    Except MergePanic (List Route × List MergedGroup) :=
  if routes = [] then .ok ([], [])
  else do
    let sigs := routes.map fun route => intermediateSignature keccak256 route.hops
    let scan ← (List.range routes.length).foldlM (visit arithmetic routes sigs finalToken)
      ⟨List.replicate routes.length false, [], []⟩
    .ok (scan.optimised, scan.groups)

end Merging

end Degenbot.StepMerging
