import Degenbot.Algorithm.Types

/-! # `aave/libraries` and `aave/processors` -/

/-! ## `aave/libraries/wad_ray_math.py`

The ray operations on unsigned integers. -/

namespace Degenbot.WadRayMath

def ray : ℕ := 10 ^ 27
def halfRay : ℕ := 5 * 10 ^ 26
def maxUint : ℕ := 2 ^ 256 - 1

/-- `EVMRevertError` without a message. -/
def evmRevert : Exn := .evmRevertError ""

def rayMul (a b : ℕ) : Except Exn ℕ :=
  if a * b + halfRay > maxUint then .error evmRevert else .ok ((a * b + halfRay) / ray)

def rayMulFloor (a b : ℕ) : Except Exn ℕ :=
  if a * b > maxUint then .error evmRevert else .ok (a * b / ray)

def rayMulCeil (a b : ℕ) : Except Exn ℕ :=
  if a * b > maxUint then .error evmRevert
  else .ok (a * b / ray + (if a * b % ray ≠ 0 then 1 else 0))

/-- `ray_div` without a rounding mode: half up. -/
def rayDiv (a b : ℕ) : Except Exn ℕ :=
  if b = 0 then .error evmRevert
  else if a * ray + b / 2 > maxUint then .error evmRevert
  else .ok ((a * ray + b / 2) / b)

def rayDivFloor (a b : ℕ) : Except Exn ℕ :=
  if a * ray > maxUint then .error evmRevert
  else if b = 0 then .error evmRevert
  else .ok (a * ray / b)

def rayDivCeil (a b : ℕ) : Except Exn ℕ :=
  if a * ray > maxUint then .error evmRevert
  else if b = 0 then .error evmRevert
  else .ok (a * ray / b + (if a * ray % b ≠ 0 then 1 else 0))

end Degenbot.WadRayMath

/-! ## `aave/processors`: revisions 1 to 3

The processors of aToken and variable debt token events. Revision 2 uses the processor of
revision 1 and revision 3 inherits it. The addresses of debt events are left out. -/

namespace Degenbot.Aave

open WadRayMath

/-- `CollateralMintEvent` and `DebtMintEvent`. -/
structure MintEvent where
  value : ℕ
  balanceIncrease : ℕ
  index : ℕ
  scaledAmount : Option ℕ := none
deriving DecidableEq

/-- `CollateralBurnEvent` and `DebtBurnEvent`. -/
structure BurnEvent where
  value : ℕ
  balanceIncrease : ℕ
  index : ℕ
  scaledAmount : Option ℕ := none
deriving DecidableEq

structure ScaledTokenMintResult where
  balanceDelta : ℤ
  newIndex : ℕ
  isRepay : Bool
deriving DecidableEq

structure ScaledTokenBurnResult where
  balanceDelta : ℤ
  newIndex : ℕ
deriving DecidableEq

/-- The delta of a deposit or a borrow: the scaled amount of the pool if there is one. -/
def mintedDelta (event : MintEvent) : Except Exn ℤ :=
  match event.scaledAmount with
  | some scaledAmount => .ok scaledAmount
  | none => do
      let scaled ← rayDiv (event.value - event.balanceIncrease) event.index
      .ok scaled

namespace CollateralV1Processor

/-- The comparison that comes second covers equality, so that the last branch of the source
is never taken. -/
def processMintEvent (event : MintEvent) : Except Exn ScaledTokenMintResult :=
  if event.balanceIncrease > event.value then do
    let scaled ← rayDiv (event.balanceIncrease - event.value) event.index
    .ok ⟨-scaled, event.index, true⟩
  else if event.value ≥ event.balanceIncrease then do
    let balanceDelta ← mintedDelta event
    .ok ⟨balanceDelta, event.index, false⟩
  else .ok ⟨event.scaledAmount.getD 0, event.index, false⟩

end CollateralV1Processor

namespace DebtV1Processor

def processMintEvent (event : MintEvent) : Except Exn ScaledTokenMintResult :=
  if event.value ≥ event.balanceIncrease then do
    let balanceDelta ← mintedDelta event
    .ok ⟨balanceDelta, event.index, false⟩
  else do
    let scaled ← rayDiv (event.balanceIncrease - event.value) event.index
    .ok ⟨-scaled, event.index, true⟩

end DebtV1Processor

/-- `process_burn_event`, the same in both processors. -/
def processBurnEvent (event : BurnEvent) (scaledDelta : Option ℕ) :
    Except Exn ScaledTokenBurnResult :=
  match scaledDelta with
  | some scaledDelta => .ok ⟨-scaledDelta, event.index⟩
  | none => do
      let scaled ← rayDiv (event.value + event.balanceIncrease) event.index
      .ok ⟨-scaled, event.index⟩

def CollateralV1Processor.processBurnEvent (event : BurnEvent) (scaledDelta : Option ℕ) :
    Except Exn ScaledTokenBurnResult := Aave.processBurnEvent event scaledDelta

def DebtV1Processor.processBurnEvent (event : BurnEvent) (scaledDelta : Option ℕ) :
    Except Exn ScaledTokenBurnResult := Aave.processBurnEvent event scaledDelta

end Degenbot.Aave

/-! ## `aave/libraries/token_math.py` and `aave/libraries/pool_math.py` -/

namespace Degenbot.Aave

open WadRayMath

/-- The protocol `TokenMath`. Every method takes an amount and an index. -/
structure TokenMath where
  getCollateralMintScaledAmount : ℕ → ℕ → Except Exn ℕ
  getCollateralBurnScaledAmount : ℕ → ℕ → Except Exn ℕ
  getCollateralTransferScaledAmount : ℕ → ℕ → Except Exn ℕ
  getCollateralBalance : ℕ → ℕ → Except Exn ℕ
  getDebtMintScaledAmount : ℕ → ℕ → Except Exn ℕ
  getDebtBurnScaledAmount : ℕ → ℕ → Except Exn ℕ
  getDebtBalance : ℕ → ℕ → Except Exn ℕ

def halfUpRoundingMath : TokenMath where
  getCollateralMintScaledAmount := rayDiv
  getCollateralBurnScaledAmount := rayDiv
  getCollateralTransferScaledAmount := rayDiv
  getCollateralBalance := rayMul
  getDebtMintScaledAmount := rayDiv
  getDebtBurnScaledAmount := rayDiv
  getDebtBalance := rayMul

def explicitRoundingMath : TokenMath where
  getCollateralMintScaledAmount := rayDivFloor
  getCollateralBurnScaledAmount := rayDivCeil
  getCollateralTransferScaledAmount := rayDivCeil
  getCollateralBalance := rayMulFloor
  getDebtMintScaledAmount := rayDivCeil
  getDebtBurnScaledAmount := rayDivFloor
  getDebtBalance := rayMulCeil

/-- `TokenMathFactory.get_token_math` -/
def getTokenMath (poolVersion : ℕ) : Except Exn TokenMath :=
  if poolVersion ∈ [1, 2, 3] then .ok halfUpRoundingMath
  else if poolVersion ∈ [4, 5, 6, 7, 8, 9, 10] then .ok explicitRoundingMath
  else .error (.valueError
    ("No TokenMath implementation for pool version " ++ toString poolVersion))

def getTokenMathForTokenRevision (tokenRevision : ℕ) : Except Exn TokenMath :=
  if tokenRevision ≤ 3 then getTokenMath 1
  else if tokenRevision = 4 then getTokenMath 4
  else getTokenMath 5

namespace PoolMath

def getTreasuryMintAmount (accruedToTreasury index poolRevision : ℕ) : Except Exn ℕ :=
  if poolRevision ≥ 9 then rayMulFloor accruedToTreasury index
  else rayMul accruedToTreasury index

def underlyingToScaledCollateral (underlyingAmount liquidityIndex poolRevision : ℕ) :
    Except Exn ℕ :=
  if poolRevision ≥ 9 then rayDivCeil underlyingAmount liquidityIndex
  else rayDiv underlyingAmount liquidityIndex

def underlyingToScaledDebt (underlyingAmount borrowIndex poolRevision : ℕ) : Except Exn ℕ :=
  if poolRevision ≥ 9 then rayDivFloor underlyingAmount borrowIndex
  else rayDiv underlyingAmount borrowIndex

end PoolMath

/-! ## `aave/processors/collateral`: revisions 4 and 5

The two revisions take the precalculated amount from different places. -/

def mintResult (event : MintEvent) (precalculated : Option ℕ) :
    Except Exn ScaledTokenMintResult :=
  if event.balanceIncrease > event.value then do
    let scaled ← rayDiv (event.balanceIncrease - event.value) event.index
    .ok ⟨-scaled, event.index, true⟩
  else if event.value ≥ event.balanceIncrease then
    match precalculated with
    | some scaled => .ok ⟨scaled, event.index, false⟩
    | none => do
        let scaled ← rayDiv (event.value - event.balanceIncrease) event.index
        .ok ⟨scaled, event.index, false⟩
  else .ok ⟨precalculated.getD 0, event.index, false⟩

def burnResult (event : BurnEvent) (precalculated : Option ℕ) :
    Except Exn ScaledTokenBurnResult :=
  match precalculated with
  | some scaled => .ok ⟨-scaled, event.index⟩
  | none => do
      let scaled ← rayDivCeil (event.value + event.balanceIncrease) event.index
      .ok ⟨-scaled, event.index⟩

structure CollateralProcessor where
  processMintEvent : MintEvent → Option ℕ → Except Exn ScaledTokenMintResult
  processBurnEvent : BurnEvent → Option ℕ → Except Exn ScaledTokenBurnResult

def collateralV1Processor : CollateralProcessor where
  processMintEvent event _ := CollateralV1Processor.processMintEvent event
  processBurnEvent := CollateralV1Processor.processBurnEvent

def collateralV4Processor : CollateralProcessor where
  processMintEvent event _ := mintResult event event.scaledAmount
  processBurnEvent event _ := burnResult event event.scaledAmount

def collateralV5Processor : CollateralProcessor where
  processMintEvent := mintResult
  processBurnEvent := burnResult

/-- `TokenProcessorFactory.get_collateral_processor` -/
def getCollateralProcessor (revision : ℕ) : Except Exn CollateralProcessor :=
  if revision ∈ [1, 2, 3] then .ok collateralV1Processor
  else if revision = 4 then .ok collateralV4Processor
  else if revision = 5 then .ok collateralV5Processor
  else .error (.valueError ("No processor for collateral revision " ++ toString revision))

/-! ## `aave/processors/debt`: revisions 4 and 5

Revision 3 inherits the processor of revision 1, and revision 5 repeats the methods of revision
4. -/

def debtMintResult (event : MintEvent) (precalculated : Option ℕ) :
    Except Exn ScaledTokenMintResult :=
  if event.value ≥ event.balanceIncrease then
    match precalculated with
    | some scaled => .ok ⟨scaled, event.index, false⟩
    | none => do
        let scaled ← rayDivCeil (event.value - event.balanceIncrease) event.index
        .ok ⟨scaled, event.index, false⟩
  else do
    let scaled ← rayDivFloor (event.balanceIncrease - event.value) event.index
    .ok ⟨-scaled, event.index, true⟩

def debtBurnResult (event : BurnEvent) (precalculated : Option ℕ) :
    Except Exn ScaledTokenBurnResult :=
  match precalculated with
  | some scaled => .ok ⟨-scaled, event.index⟩
  | none => do
      let scaled ← rayDivFloor (event.value + event.balanceIncrease) event.index
      .ok ⟨-scaled, event.index⟩

structure DebtProcessor where
  processMintEvent : MintEvent → Option ℕ → Except Exn ScaledTokenMintResult
  processBurnEvent : BurnEvent → Option ℕ → Except Exn ScaledTokenBurnResult

def debtV1Processor : DebtProcessor where
  processMintEvent event _ := DebtV1Processor.processMintEvent event
  processBurnEvent := DebtV1Processor.processBurnEvent

def debtV4Processor : DebtProcessor where
  processMintEvent := debtMintResult
  processBurnEvent := debtBurnResult

/-- `TokenProcessorFactory.get_debt_processor` -/
def getDebtProcessor (revision : ℕ) : Except Exn DebtProcessor :=
  if revision ∈ [1, 2, 3] then .ok debtV1Processor
  else if revision ∈ [4, 5] then .ok debtV4Processor
  else .error (.valueError ("No processor for debt revision " ++ toString revision))

end Degenbot.Aave

/-! ## `aave/processors/debt/gho`: revisions 2 and 3

`GhoV2Processor` with the method that it inherits from `GhoV1Processor`. Balances are Python
integers of either sign; percentages, indexes and the fields of events are not negative. -/

namespace Degenbot.Aave.Gho

open WadRayMath

/-! ## `ray_mul`, `ray_div` and `percent_mul` -/

def rayMul (a : ℤ) (b : ℕ) : Except Exn ℤ :=
  if a * b + halfRay > maxUint then .error evmRevert else .ok ((a * b + halfRay) / ray)

def rayDiv (a : ℤ) (b : ℕ) : Except Exn ℤ :=
  if b = 0 then .error evmRevert
  else if a * ray + (b / 2 : ℕ) > maxUint then .error evmRevert
  else .ok ((a * ray + (b / 2 : ℕ)) / b)

def percentageFactor : ℕ := 10 ^ 4
def halfPercentageFactor : ℕ := 5 * 10 ^ 3

def percentMul (value : ℤ) (percentage : ℕ) : Except Exn ℤ :=
  if percentage ≠ 0 ∧ value > ((maxUint - halfPercentageFactor) / percentage : ℕ) then
    .error evmRevert
  else .ok ((value * percentage + halfPercentageFactor) / percentageFactor)

/-! ## `GhoV1Processor.accrue_debt_on_action` -/

/-- The discount on the interest since the previous index, as a scaled amount. -/
def accrueDebtOnAction (previousScaledBalance : ℤ)
    (previousIndex discountPercent currentIndex : ℕ) : Except Exn ℤ := do
  let current ← rayMul previousScaledBalance currentIndex
  let previous ← rayMul previousScaledBalance previousIndex
  let balanceIncrease := current - previous
  if balanceIncrease ≠ 0 ∧ discountPercent ≠ 0 then
    let discount ← percentMul balanceIncrease discountPercent
    rayDiv discount currentIndex
  else .ok 0

/-! ## `GhoV2Processor` -/

inductive GhoUserOperation where
  | ghoBorrow
  | ghoRepay
  | ghoInterestAccrual
deriving DecidableEq, Repr

structure GhoScaledTokenMintResult where
  balanceDelta : ℤ
  newIndex : ℕ
  userOperation : GhoUserOperation
  discountScaled : ℤ
  shouldRefreshDiscount : Bool
deriving DecidableEq

structure GhoScaledTokenBurnResult where
  balanceDelta : ℤ
  newIndex : ℕ
  discountScaled : ℤ
  shouldRefreshDiscount : Bool
deriving DecidableEq

def getDiscountedBalance (scaledBalance : ℤ)
    (previousIndex currentIndex discountPercent : ℕ) : Except Exn ℤ :=
  if scaledBalance = 0 then .ok 0
  else do
    let balance ← rayMul scaledBalance currentIndex
    if currentIndex = previousIndex then .ok balance
    else if discountPercent ≠ 0 then
      let previous ← rayMul scaledBalance previousIndex
      let discount ← percentMul (balance - previous) discountPercent
      .ok (balance - discount)
    else .ok balance

/-- The comparisons leave nothing to the last branch of the source, since the first one
covers equality: an update of the discount is taken for a borrow of nothing. -/
def processMintEvent (event : MintEvent) (previousBalance : ℤ)
    (previousIndex previousDiscount : ℕ) (actualRepayAmount : Option ℤ) :
    Except Exn GhoScaledTokenMintResult := do
  let discountScaled ←
    accrueDebtOnAction previousBalance previousIndex previousDiscount event.index
  if event.value ≥ event.balanceIncrease then
    let requestedAmount : ℤ := event.value - event.balanceIncrease
    let amountScaled ← rayDiv requestedAmount event.index
    let balanceDelta :=
      if amountScaled > discountScaled then amountScaled - discountScaled
      else -(discountScaled - amountScaled)
    .ok ⟨balanceDelta, event.index, .ghoBorrow, discountScaled, true⟩
  else if event.balanceIncrease > event.value then
    let amountRepaid := actualRepayAmount.getD (event.balanceIncrease - event.value)
    let repaymentScaled ← rayDiv amountRepaid event.index
    let balanceBeforeBurn ←
      getDiscountedBalance previousBalance previousIndex event.index previousDiscount
    let balanceDelta :=
      if amountRepaid = balanceBeforeBurn then -previousBalance
      else -(repaymentScaled + discountScaled)
    .ok ⟨balanceDelta, event.index, .ghoRepay, discountScaled, true⟩
  else .ok ⟨-discountScaled, event.index, .ghoInterestAccrual, discountScaled, true⟩

def processBurnEvent (event : BurnEvent) (previousBalance : ℤ)
    (previousIndex previousDiscount : ℕ) : Except Exn GhoScaledTokenBurnResult := do
  let requestedAmount : ℤ := event.value + event.balanceIncrease
  let amountScaled ← rayDiv requestedAmount event.index
  let balanceBeforeBurn ←
    getDiscountedBalance previousBalance previousIndex event.index previousDiscount
  let discountScaled ←
    accrueDebtOnAction previousBalance previousIndex previousDiscount event.index
  let balanceDelta :=
    if requestedAmount = balanceBeforeBurn then -previousBalance
    else -(amountScaled + discountScaled)
  .ok ⟨balanceDelta, event.index, discountScaled, true⟩

end Degenbot.Aave.Gho
