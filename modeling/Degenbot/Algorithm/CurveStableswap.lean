import Degenbot.Algorithm.SwapMath
import Degenbot.Algorithm.Types
import Degenbot.Library.WhileLoop

/-! # `curve/curve_stableswap_liquidity_pool.py`

The tables of addresses select a variant of each calculation; a contract carries the variants
selected for it. Data read from the chain, by block, is a parameter. -/

namespace Degenbot.Curve

open Library

def precision : ℤ := 10 ^ 18
def feeDenominator : ℤ := 10 ^ 10
def aPrecision : ℤ := 100

/-! ## Contracts -/

/-- `D_VARIANT_GROUP_0` to `D_VARIANT_GROUP_4`. -/
inductive DVariant where
  | default
  | group0
  | group1
  | group2
  | group3
  | group4
deriving DecidableEq

/-- The branches of `get_dy` for pools without a base pool, in their order. -/
inductive DyVariant where
  | default
  | liveBalances
  | tricrypto
  | feeOnOutput
  | unscaled
  | oracleRates
  | cTokenRates
  | cyTokenRates
  | yTokenRates
  | yTokenRatesWithoutMargin
  | aEthRates
  | rEthRates
  | dynamicFee
  | scaledDynamicFee
deriving DecidableEq

/-- The addresses named in the branches for pools with a base pool: `0xC615…`, `0x4606…` and
`0x6187…`. -/
inductive MetaVariant where
  | default
  | precisionRate
  | precisionUnderlying
  | redemption
deriving DecidableEq

/-- What is read from the chain: the per-block caches, the stored rates of the contract's
variant, balances and supply of tokens, and the timestamps of known blocks. -/
structure ChainData where
  latestBlock : Except Exn ℕ
  virtualPrice : ℕ → Except Exn ℤ
  scaledRedemptionPrice : ℕ → Except Exn ℤ
  adminBalances : ℕ → Except Exn (List ℤ)
  liveBalances : ℕ → Except Exn (List ℤ)
  storedRates : ℕ → Except Exn (List ℤ)
  contractD : ℕ → Except Exn ℤ
  gamma : ℕ → Except Exn ℤ
  priceScale : ℕ → Except Exn (List ℤ)
  totalSupply : ℕ → Except Exn ℤ
  blockTimestamp : ℕ → Except Exn ℤ

/-- The values of a ramp of the amplification coefficient. -/
structure Ramp where
  initialACoefficient : ℤ
  initialACoefficientTime : ℤ
  futureACoefficient : ℤ
  futureACoefficientTime : ℤ

/-- A pool object, less its cached balances. `updateBlock` is the block of these. -/
structure Contract where
  tokens : List Erc20Token
  fee : ℤ
  aCoefficient : ℤ
  ramp : Option Ramp
  createTimestamp : ℤ
  rateMultipliers : List ℤ
  precisionMultipliers : List ℤ
  feeGamma : ℤ
  midFee : ℤ
  outFee : ℤ
  offpegFeeMultiplier : ℤ
  dVariant : DVariant
  yVariant0 : Bool
  yVariant1 : Bool
  yDVariant0 : Bool
  dyVariant : DyVariant
  /-- `base_pool is not None`, with the variant of the metapool. -/
  metapool : Option MetaVariant
  chain : ChainData
  updateBlock : ℕ

/-- `xs[i]` -/
def item (xs : List ℤ) (i : ℕ) : Except Exn ℤ :=
  match xs[i]? with
  | none => .error .indexError
  | some x => .ok x

/-- `zip(…, strict=True)` -/
def zipStrict (xs ys : List ℤ) : Except Exn (List (ℤ × ℤ)) :=
  if xs.length = ys.length then .ok (xs.zip ys)
  else .error (.valueError "zip() arguments differ in length")

def assertion (p : Prop) [Decidable p] : Except Exn Unit :=
  if p then .ok () else .error .assertionError

namespace Contract

variable (contract : Contract)

def nCoins : ℕ := contract.tokens.length

/-- `_xp` -/
def xp (rates balances : List ℤ) : Except Exn (List ℤ) := do
  let entries ← zipStrict rates balances
  .ok (entries.map fun entry => (entry.1 * entry.2).fdiv precision)

/-- `_a` -/
def a (timestamp : ℤ) : Except Exn ℤ :=
  match contract.ramp with
  | none => .ok (contract.aCoefficient * aPrecision)
  | some ramp =>
      let a1 := ramp.futureACoefficient
      let t1 := ramp.futureACoefficientTime
      if contract.createTimestamp ≥ t1 then .ok a1
      else if timestamp < t1 then
        let a0 := ramp.initialACoefficient
        let t0 := ramp.initialACoefficientTime
        if a1 > a0 then do
          let change ← floorDivide ((a1 - a0) * (timestamp - t0)) (t1 - t0)
          .ok (a0 + change)
        else do
          let change ← floorDivide ((a0 - a1) * (timestamp - t0)) (t1 - t0)
          .ok (a0 - change)
      else .ok a1

/-- `_a` at a block whose timestamp is known. -/
def aAtBlock (block : ℕ) : Except Exn ℤ := do
  let timestamp ← contract.chain.blockTimestamp block
  contract.a timestamp

/-! ## Newton iterations -/

def close (previous next : ℤ) : Bool :=
  if previous < next then next - previous ≤ 1 else previous - next ≤ 1

def calcD (aNn s d dP n : ℤ) : Except Exn ℤ :=
  floorDivide (((aNn * s).fdiv aPrecision + dP * n) * d)
    (((aNn - aPrecision) * d).fdiv aPrecision + (n + 1) * dP)

def calcDVariantAlpha (aNn s d dP n : ℤ) : Except Exn ℤ :=
  floorDivide ((aNn * s + dP * n) * d) ((aNn - 1) * d + (n + 1) * dP)

def calcDp (n d : ℤ) (xp : List ℤ) : Except Exn ℤ :=
  xp.foldlM (fun dP x => floorDivide (dP * d) (x * n)) d

def calcDpVariantAlpha (n d : ℤ) (xp : List ℤ) : Except Exn ℤ :=
  xp.foldlM (fun dP x => floorDivide (dP * d) (x * n + 1)) d

/-- `d * d // xp[0] * d // xp[1] // divisor`, for the variants beta and gamma. -/
def calcDpVariantBeta (divisor d : ℤ) (xp : List ℤ) : Except Exn ℤ := do
  let x0 ← item xp 0
  let q0 ← floorDivide (d * d) x0
  let x1 ← item xp 1
  let q1 ← floorDivide (q0 * d) x1
  floorDivide q1 divisor

/-- One round of `_get_d`. -/
def getDNext (xp : List ℤ) (s aNn d : ℤ) : Except Exn ℤ := do
  let n : ℤ := contract.nCoins
  let dP ← match contract.dVariant with
    | .default | .group0 => calcDp n d xp
    | .group1 | .group3 => calcDpVariantAlpha n d xp
    | .group2 => calcDpVariantBeta (n ^ 2) d xp
    | .group4 => calcDpVariantBeta (n ^ contract.nCoins) d xp
  match contract.dVariant with
  | .group0 | .group1 => calcDVariantAlpha aNn s d dP n
  | _ => calcD aNn s d dP n

def dNotConverged : Exn := .evmRevertError "D calculation did not converge."

/-- `_get_d` -/
def getD (xp : List ℤ) (amp : ℤ) : Except Exn ℤ :=
  let s := xp.sum
  if s = 0 then .ok 0
  else converge (contract.getDNext xp s (amp * contract.nCoins)) close dNotConverged 255 s

/-- `s += x` and `c = c * d // (x * n)` for the listed coins. -/
def sumAndProduct (n d : ℤ) (coins : List ℕ) (balance : ℕ → Except Exn ℤ) : Except Exn (ℤ × ℤ) :=
  coins.foldlM (fun (s, c) index => do
    let x ← balance index
    let c ← floorDivide (c * d) (x * n)
    .ok (s + x, c)) (0, d)

def getYNext (b c d y : ℤ) : Except Exn ℤ := floorDivide (y * y + c) (2 * y + b - d)

def yNotConverged : Exn := .evmRevertError "y calculation did not converge."

/-- `_get_y` -/
def getY (i j : ℕ) (x : ℤ) (xp : List ℤ) : Except Exn ℤ := do
  let n : ℤ := contract.nCoins
  assertion (i ≠ j)
  assertion (j < contract.nCoins)
  assertion (i < contract.nCoins)
  let amp ← contract.aAtBlock contract.updateBlock
  let amp := if contract.yVariant0 then amp.fdiv aPrecision else amp
  let d ← contract.getD xp amp
  let coins := (List.range contract.nCoins).filter fun index => index = i ∨ index ≠ j
  let (s, c) ← sumAndProduct n d coins fun index => if index = i then .ok x else item xp index
  let aNn := amp * n
  let c ← (if contract.yVariant1 then floorDivide (c * d) (aNn * n)
    else floorDivide (c * d * aPrecision) (aNn * n))
  let share ← (if contract.yVariant1 then floorDivide d aNn
    else floorDivide (d * aPrecision) aNn)
  converge (getYNext (s + share) c d) close yNotConverged 255 d

def yDNotConverged : Exn := .evmRevertError "y_d calculation did not converge."

/-- `_get_y_d` -/
def getYD (amp : ℤ) (i : ℕ) (xp : List ℤ) (d : ℤ) : Except Exn ℤ := do
  let n : ℤ := contract.nCoins
  assertion (i < contract.nCoins)
  let (s, c) ← sumAndProduct n d ((List.range contract.nCoins).filter (· ≠ i)) (item xp)
  let aNn := amp * n
  let scale := if contract.yDVariant0 then aPrecision else 1
  let share ← floorDivide (d * scale) aNn
  let c ← floorDivide (c * d * scale) (aNn * n)
  converge (getYNext (s + share) c d) close yDNotConverged 255 d

/-! ## `get_dy` -/

/-- `get_number_for_block_identifier` -/
def blockNumber : Option ℕ → Except Exn ℕ
  | some block => .ok block
  | none => contract.chain.latestBlock

def chargeFee (dy : ℤ) : ℤ := dy - (contract.fee * dy).fdiv feeDenominator

/-- The common steps of most branches: `y` for the balances at the given rates, with `xp[j]`. -/
def solve (rates balances : List ℤ) (i j : ℕ) (dx : ℤ) : Except Exn (ℤ × ℤ) := do
  let xp ← xp rates balances
  let xpi ← item xp i
  let rate ← item rates i
  let y ← contract.getY i j (xpi + (dx * rate).fdiv precision) xp
  let xpj ← item xp j
  .ok (xpj, y)

/-- The fee is charged before the output is scaled back; `margin` is the 1 that most variants
keep. -/
def dyScaled (margin : ℤ) (rates balances : List ℤ) (i j : ℕ) (dx : ℤ) : Except Exn ℤ := do
  let (xpj, y) ← contract.solve rates balances i j dx
  let rate ← item rates j
  floorDivide (contract.chargeFee (xpj - y - margin) * precision) rate

/-- The fee is charged on the output scaled back. -/
def dyFeeOnOutput (margin : ℤ) (rates balances : List ℤ) (i j : ℕ) (dx : ℤ) : Except Exn ℤ := do
  let (xpj, y) ← contract.solve rates balances i j dx
  let rate ← item rates j
  let dy ← floorDivide ((xpj - y - margin) * precision) rate
  .ok (contract.chargeFee dy)

def dynamicFee (xpi xpj fee feemul : ℤ) : Except Exn ℤ :=
  if feemul ≤ feeDenominator then .ok fee
  else do
    let ratio ← floorDivide ((feemul - feeDenominator) * 4 * xpi * xpj) ((xpi + xpj) ^ 2)
    floorDivide (feemul * fee) (ratio + feeDenominator)

/-- Balances on the chain less the admin balances. -/
def balancesLessAdmin (block : ℕ) : Except Exn (List ℤ) := do
  let live ← contract.chain.liveBalances block
  let admin ← contract.chain.adminBalances block
  let entries ← zipStrict live admin
  .ok (entries.map fun entry => entry.1 - entry.2)

/-- The last two branches, with the balances scaled by `multipliers`. -/
def dyDynamicFee (multipliers balances : List ℤ) (i j : ℕ) (dx : ℤ) : Except Exn ℤ := do
  let entries ← zipStrict balances multipliers
  let xp := entries.map fun entry => entry.1 * entry.2
  let xpi ← item xp i
  let multiplierI ← item multipliers i
  let x := xpi + dx * multiplierI
  let y ← contract.getY i j x xp
  let xpj ← item xp j
  let multiplierJ ← item multipliers j
  let dy ← floorDivide (xpj - y) multiplierJ
  let fee ← dynamicFee ((xpi + x).fdiv 2) ((xpj + y).fdiv 2) contract.fee
    contract.offpegFeeMultiplier
  .ok (dy - (fee * dy).fdiv feeDenominator)

/-- `_reduction_coefficient` -/
def reductionCoefficient (n : ℤ) (x : List ℤ) (feeGamma : ℤ) : Except Exn ℤ := do
  let s := x.sum
  let k ← x.foldlM (fun k xi => floorDivide (k * n * xi) s) (10 ^ 18)
  if feeGamma > 0 then floorDivide (feeGamma * 10 ^ 18) (feeGamma + 10 ^ 18 - k) else .ok k

/-- A round of `_newton_y`: the value to return, or the next `y`. -/
def newtonYRound (ann gamma d n kI sI convergenceLimit y : ℤ) : Except Exn (ℤ ⊕ ℤ) := do
  let k0 ← floorDivide (kI * y * n) d
  let s := sI + y
  let g1k0 := gamma + 10 ^ 18
  let g1k0 := if g1k0 > k0 then g1k0 - k0 + 1 else k0 - g1k0 + 1
  let m1 ← floorDivide (10 ^ 18 * d) gamma
  let m2 ← floorDivide (m1 * g1k0) gamma
  let mul1 ← floorDivide (m2 * g1k0 * aPrecision) ann
  let m3 ← floorDivide (2 * 10 ^ 18 * k0) g1k0
  let mul2 := 10 ^ 18 + m3
  let yfprime := 10 ^ 18 * y + s * mul2 + mul1
  let dyfprime := d * mul2
  if yfprime < dyfprime then .ok (.inr (y.fdiv 2))
  else do
    let yfprime := yfprime - dyfprime
    let fprime ← floorDivide yfprime y
    let yMinus ← floorDivide mul1 fprime
    let plus1 ← floorDivide (yfprime + 10 ^ 18 * d) fprime
    let plus2 ← floorDivide (yMinus * 10 ^ 18) k0
    let minus2 ← floorDivide (10 ^ 18 * s) fprime
    let yPlus := plus1 + plus2
    let yMinus := yMinus + minus2
    let next := if yPlus < yMinus then y.fdiv 2 else yPlus - yMinus
    let diff := if next > y then next - y else y - next
    if diff < max convergenceLimit (next.fdiv (10 ^ 14)) then do
      let frac ← floorDivide (next * 10 ^ 18) d
      assertion (10 ^ 16 - 1 < frac ∧ frac < 10 ^ 20 + 1)
      .ok (.inl next)
    else .ok (.inr next)

/-- `_newton_y` with its remaining rounds. -/
def newtonYLoop (round : ℤ → Except Exn (ℤ ⊕ ℤ)) : ℕ → ℤ → Except Exn ℤ
  | 0, _ => .error (.evmRevertError "_newton_y() did not converge for pool")
  | rounds + 1, y => do
      let outcome ← round y
      match outcome with
      | .inl y => .ok y
      | .inr y => newtonYLoop round rounds y

def newtonY (ann gamma : ℤ) (xp : List ℤ) (d : ℤ) (tokenIndex : ℕ) : Except Exn ℤ := do
  let n : ℤ := contract.nCoins
  assertion (n ^ contract.nCoins * aPrecision - 1 < ann ∧
    ann < 10000 * n ^ contract.nCoins * aPrecision + 1)
  assertion (10 ^ 10 - 1 < gamma ∧ gamma < 10 ^ 16 + 1)
  assertion (10 ^ 17 - 1 < d ∧ d < 10 ^ 15 * 10 ^ 18 + 1)
  (List.range 3).forM fun index =>
    if index = tokenIndex then .ok ()
    else do
      let x ← item xp index
      let frac ← floorDivide (x * 10 ^ 18) d
      assertion (10 ^ 16 - 1 < frac ∧ frac < 10 ^ 20 + 1)
  let sorted := (xp.set tokenIndex 0).mergeSort (· ≥ ·)
  let largest ← item sorted 0
  let convergenceLimit := max (max (largest.fdiv (10 ^ 14)) (d.fdiv (10 ^ 14))) 100
  -- small balances first
  let (sI, y) ← (List.range (contract.nCoins - 1)).foldlM (fun (sI, y) index => do
    let x ← item sorted (contract.nCoins - 2 - index)
    let y ← floorDivide (y * d) (x * n)
    .ok (sI + x, y)) (0, d.fdiv n)
  -- large balances first
  let kI ← (List.range (contract.nCoins - 1)).foldlM (fun k index => do
    let x ← item sorted index
    floorDivide (k * x * n) d) (10 ^ 18)
  newtonYLoop (newtonYRound ann gamma d n kI sI convergenceLimit) 255 y

/-- The branch for the pool of USDT, WBTC and WETH. -/
def dyTricrypto (balances : List ℤ) (i j : ℕ) (dx : ℤ) (block : ℕ) : Except Exn ℤ := do
  assertion (i ≠ j)
  assertion (i < contract.nCoins)
  assertion (j < contract.nCoins)
  assertion (dx > 0)
  let precisions : List ℤ := [10 ^ 12, 10 ^ 10, 1]
  let priceScale ← contract.chain.priceScale block
  let balanceI ← item balances i
  let traded := balances.set i (balanceI + dx)
  let xp ← (List.range contract.nCoins).mapM fun index => do
    let balance ← item traded index
    let multiplier ← item precisions index
    if index = 0 then .ok (balance * multiplier)
    else do
      let scale ← item priceScale (index - 1)
      .ok ((balance * scale * multiplier).fdiv precision)
  let amp ← contract.aAtBlock block
  let gamma ← contract.chain.gamma block
  let d ← contract.chain.contractD block
  let y ← contract.newtonY amp gamma xp d j
  let xpj ← item xp j
  let dy := xpj - y - 1
  let dy ← (if j > 0 then do
      let scale ← item priceScale (j - 1)
      floorDivide (dy * precision) scale
    else .ok dy)
  let multiplier ← item precisions j
  let dy ← floorDivide dy multiplier
  let f ← reductionCoefficient contract.nCoins (xp.set j y) contract.feeGamma
  let feeCalc := (contract.midFee * f + contract.outFee * (10 ^ 18 - f)).fdiv (10 ^ 18)
  .ok (dy - (feeCalc * dy).fdiv (10 ^ 10))

/-- The rates of `get_dy` for a metapool. -/
def metaRates (variant : MetaVariant) (block : ℕ) : Except Exn (List ℤ) := do
  let first ← (match variant with
    | .precisionRate => .ok precision
    | .redemption => contract.chain.scaledRedemptionPrice block
    | _ => item contract.rateMultipliers 0)
  let virtualPrice ← contract.chain.virtualPrice block
  .ok [first, virtualPrice]

/-- `get_dy` at the given balances; `poolBalances` are those of the override, or the cached
ones. -/
def getDy (poolBalances : List ℤ) (i j : ℕ) (dx : ℤ) (blockIdentifier : Option ℕ) :
    Except Exn ℤ := do
  let block ← contract.blockNumber blockIdentifier
  let rates := contract.rateMultipliers
  match contract.metapool, contract.dyVariant with
  | some variant, _ => do
      let rates ← contract.metaRates variant block
      contract.dyScaled 1 rates poolBalances i j dx
  | none, .liveBalances => do
      let balances ← contract.balancesLessAdmin block
      contract.dyScaled 1 rates balances i j dx
  | none, .tricrypto => contract.dyTricrypto poolBalances i j dx block
  | none, .feeOnOutput => contract.dyFeeOnOutput 1 rates poolBalances i j dx
  | none, .unscaled => do
      let xpi ← item poolBalances i
      let y ← contract.getY i j (xpi + dx) poolBalances
      let xpj ← item poolBalances j
      .ok (contract.chargeFee (xpj - y - 1))
  | none, .oracleRates => do
      let balances ← contract.balancesLessAdmin block
      let rates ← contract.chain.storedRates block
      contract.dyScaled 1 rates balances i j dx
  | none, .cTokenRates | none, .yTokenRatesWithoutMargin => do
      let rates ← contract.chain.storedRates block
      contract.dyFeeOnOutput 0 rates poolBalances i j dx
  | none, .cyTokenRates => do
      let rates ← contract.chain.storedRates block
      contract.dyScaled 1 rates poolBalances i j dx
  | none, .yTokenRates => do
      let rates ← contract.chain.storedRates block
      contract.dyFeeOnOutput 1 rates poolBalances i j dx
  | none, .aEthRates | none, .rEthRates => do
      let rates ← contract.chain.storedRates block
      contract.dyScaled 0 rates poolBalances i j dx
  | none, .dynamicFee => do
      let balances ← contract.balancesLessAdmin block
      contract.dyDynamicFee (balances.map fun _ => 1) balances i j dx
  | none, .scaledDynamicFee => do
      let balances ← contract.balancesLessAdmin block
      contract.dyDynamicFee contract.precisionMultipliers balances i j dx
  | none, .default => contract.dyScaled 1 rates poolBalances i j dx

end Contract

end Degenbot.Curve
