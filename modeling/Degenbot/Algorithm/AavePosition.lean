import Degenbot.Algorithm.AaveProcessors
import Mathlib.Data.Nat.Basic
import Mathlib.Data.Rat.Defs

/-! # Positions and reserves of Aave -/

/-! ## `aave/position_analysis.py`

Health factors of user positions. The final quotient is an exact rational. Records keep
the columns that the analysis reads, and the decimals of the underlying token, which it
does not read. -/

namespace Degenbot.Aave

open WadRayMath

def basisPoints : ℕ := 10000

/-! ## Records -/

structure UnderlyingToken where
  address : ℕ
  symbol : Option String
  decimals : ℕ
deriving DecidableEq

structure EModeCategory where
  ltv : ℕ
  liquidationThreshold : ℕ
deriving DecidableEq

structure AssetConfig where
  ltv : ℕ
  liquidationThreshold : ℕ
  debtCeiling : Option ℕ
deriving DecidableEq

/-- `AaveV3Asset`; the underlying token is a required foreign key. -/
structure Asset where
  id : ℕ
  underlyingToken : UnderlyingToken
  liquidityIndex : ℕ
  borrowIndex : ℕ
  eModeCategoryId : Option ℕ
  eModeCategory : Option EModeCategory
  assetConfig : Option AssetConfig
deriving DecidableEq

structure CollateralPosition where
  asset : Asset
  balance : ℕ
deriving DecidableEq

structure DebtPosition where
  asset : Asset
  balance : ℕ
deriving DecidableEq

structure User where
  address : ℕ
  marketId : ℕ
  eMode : ℕ
  isolationCollateralAsset : Option Asset
  isolationModeDebt : ℕ
deriving DecidableEq

def User.isIsolationMode (user : User) : Bool := user.isolationCollateralAsset.isSome

/-! ## Position data -/

structure CollateralPositionData where
  assetAddress : ℕ
  assetSymbol : Option String
  scaledBalance : ℕ
  actualBalance : ℕ
  liquidationThreshold : ℕ
  ltv : ℕ
  isEnabledAsCollateral : Bool
  inEmode : Bool
  emodeCategoryId : Option ℕ
  price : Option ℕ
deriving DecidableEq

structure DebtPositionData where
  assetAddress : ℕ
  assetSymbol : Option String
  scaledBalance : ℕ
  actualBalance : ℕ
  inEmode : Bool
  emodeCategoryId : Option ℕ
  price : Option ℕ
deriving DecidableEq

def CollateralPositionData.effectiveLiquidationThreshold (position : CollateralPositionData) :
    ℕ := if position.isEnabledAsCollateral then position.liquidationThreshold else 0

/-- `price_adjusted_balance` of both classes; a missing price counts as one. -/
def priceAdjustedBalance (actualBalance : ℕ) (price : Option ℕ) : ℕ :=
  match price with
  | none => actualBalance
  | some price => actualBalance * price

def CollateralPositionData.priceAdjustedBalance (position : CollateralPositionData) : ℕ :=
  Aave.priceAdjustedBalance position.actualBalance position.price

def DebtPositionData.priceAdjustedBalance (position : DebtPositionData) : ℕ :=
  Aave.priceAdjustedBalance position.actualBalance position.price

structure UserPositionSummary where
  userAddress : ℕ
  marketId : ℕ
  emodeCategoryId : Option ℕ
  isIsolationMode : Bool
  collateralPositions : List CollateralPositionData
  debtPositions : List DebtPositionData
  totalCollateralValue : ℕ
  totalDebtValue : ℕ
  healthFactor : Option ℚ
  maxLtvRatio : Option ℚ

def UserPositionSummary.isLiquidatable (summary : UserPositionSummary) : Bool :=
  match summary.healthFactor with
  | none => false
  | some healthFactor => healthFactor < 1

/-! ## Building the data -/

/-- `asset.e_mode_category_id or None`. -/
def Asset.emodeCatId (asset : Asset) : Option ℕ := asset.eModeCategoryId.filter (· ≠ 0)

/-- The category value in e-mode, the configured one otherwise. -/
def Asset.riskParameter (asset : Asset) (emodeCategoryId : Option ℕ) (userEmode : ℕ)
    (ofCategory : EModeCategory → ℕ) (ofConfig : AssetConfig → ℕ) : ℕ :=
  let configured := (asset.assetConfig.map ofConfig).getD 0
  if userEmode > 0 ∧ emodeCategoryId = some userEmode then
    (asset.eModeCategory.map ofCategory).getD configured
  else configured

def getLiquidationThresholdForPosition (asset : Asset) (emodeCategoryId : Option ℕ)
    (userEmode : ℕ) : ℕ :=
  asset.riskParameter emodeCategoryId userEmode EModeCategory.liquidationThreshold
    AssetConfig.liquidationThreshold

def getLtvForPosition (asset : Asset) (emodeCategoryId : Option ℕ) (userEmode : ℕ) : ℕ :=
  asset.riskParameter emodeCategoryId userEmode EModeCategory.ltv AssetConfig.ltv

def buildCollateralPositionData (position : CollateralPosition) (userEmode : ℕ)
    (collateralEnabled : Bool) (price : Option ℕ) : Except Exn CollateralPositionData := do
  let asset := position.asset
  let actualBalance ← rayMulFloor position.balance asset.liquidityIndex
  let emodeCatId := asset.emodeCatId
  .ok
    { assetAddress := asset.underlyingToken.address
      assetSymbol := asset.underlyingToken.symbol
      scaledBalance := position.balance
      actualBalance
      liquidationThreshold := getLiquidationThresholdForPosition asset emodeCatId userEmode
      ltv := getLtvForPosition asset emodeCatId userEmode
      isEnabledAsCollateral := collateralEnabled
      inEmode := userEmode > 0 ∧ emodeCatId = some userEmode
      emodeCategoryId := emodeCatId
      price }

def buildDebtPositionData (position : DebtPosition) (userEmode : ℕ) (price : Option ℕ) :
    Except Exn DebtPositionData := do
  let asset := position.asset
  let actualBalance ← rayMulCeil position.balance asset.borrowIndex
  let emodeCatId := asset.emodeCatId
  .ok
    { assetAddress := asset.underlyingToken.address
      assetSymbol := asset.underlyingToken.symbol
      scaledBalance := position.balance
      actualBalance
      inEmode := userEmode > 0 ∧ emodeCatId = some userEmode
      emodeCategoryId := emodeCatId
      price }

/-! ## Health factor -/

def calculateHealthFactor (collateralPositions : List CollateralPositionData)
    (debtPositions : List DebtPositionData) (isolationModeDebt : ℕ)
    (isolationDebtCeiling : Option ℕ) : Option ℚ :=
  if debtPositions.isEmpty ∧ isolationModeDebt = 0 then none
  else
    let weightedCollateral : ℕ := collateralPositions.foldl (fun weightedCollateral position =>
      if position.isEnabledAsCollateral ∧ position.actualBalance > 0 then
        weightedCollateral +
          position.priceAdjustedBalance * position.effectiveLiquidationThreshold
      else weightedCollateral) 0
    let totalDebt : ℕ := debtPositions.foldl (fun totalDebt position =>
      totalDebt + position.priceAdjustedBalance) 0
    let totalDebt : ℕ := match isolationDebtCeiling with
      | some ceiling => if isolationModeDebt > 0 then min totalDebt ceiling else totalDebt
      | none => totalDebt
    if totalDebt = 0 then none
    else some ((weightedCollateral : ℚ) / ((totalDebt * basisPoints : ℕ) : ℚ))

/-- `collateral_config_map` and `price_map` are read by key only. -/
def analyzeUserPosition (user : User) (collateralPositions : List CollateralPosition)
    (debtPositions : List DebtPosition) (collateralConfigMap : ℕ → Option Bool)
    (priceMap : ℕ → Option ℕ) : Except Exn UserPositionSummary := do
  let userEmode := user.eMode
  let collateralData ← collateralPositions.mapM fun pos =>
    buildCollateralPositionData pos userEmode ((collateralConfigMap pos.asset.id).getD true)
      (priceMap pos.asset.underlyingToken.address)
  let debtData ← debtPositions.mapM fun pos =>
    buildDebtPositionData pos userEmode (priceMap pos.asset.underlyingToken.address)
  let isolationDebtCeiling := do
    let asset ← user.isolationCollateralAsset
    let assetConfig ← asset.assetConfig
    assetConfig.debtCeiling
  let healthFactor := calculateHealthFactor collateralData debtData
    (if user.isIsolationMode then user.isolationModeDebt else 0) isolationDebtCeiling
  let enabled := collateralData.filter (·.isEnabledAsCollateral)
  let totalDebt : ℕ := (debtData.map DebtPositionData.priceAdjustedBalance).sum
  let maxLtvCapacity : ℕ := (enabled.map fun pos => pos.priceAdjustedBalance * pos.ltv).sum
  .ok
    { userAddress := user.address
      marketId := user.marketId
      emodeCategoryId := if userEmode > 0 then some userEmode else none
      isIsolationMode := user.isIsolationMode
      collateralPositions := collateralData
      debtPositions := debtData
      totalCollateralValue := (enabled.map CollateralPositionData.priceAdjustedBalance).sum
      totalDebtValue := totalDebt
      healthFactor
      maxLtvRatio := if totalDebt > 0 ∧ maxLtvCapacity > 0 then
          some (((totalDebt * basisPoints : ℕ) : ℚ) / (maxLtvCapacity : ℚ))
        else none }

/-! ## `cli/aave/event_handlers.py`: the configuration of a reserve -/

/-- `_ReserveConfigurationBitmap`. -/
structure ReserveConfigurationBitmap where
  ltv : ℕ
  liquidationThreshold : ℕ
  liquidationBonus : ℕ
  decimals : ℕ
  isActive : Bool
  isFrozen : Bool
  borrowingEnabled : Bool
  stableRateBorrowingEnabled : Bool
  reserveFactor : ℕ
  borrowCap : ℕ
  supplyCap : ℕ
  debtCeiling : ℕ
  liquidationProtocolFee : ℕ
  unbackedMintCap : ℕ
  eModeCategoryId : Option ℕ
  flashLoanEnabled : Bool
  isolationMode : Bool
  borrowableInIsolation : Bool
deriving DecidableEq, Repr

/-- `bool((config_bitmap >> position) & 1)` -/
def flagAt (configBitmap position : ℕ) : Bool := (configBitmap >>> position) &&& 1 ≠ 0

/-- `_decode_reserve_configuration_bitmap`. -/
def decodeReserveConfigurationBitmap (configBitmap : ℕ) : ReserveConfigurationBitmap :=
  let eModeCategory := (configBitmap >>> 168) &&& 0xFF
  { ltv := configBitmap &&& 0xFFFF
    liquidationThreshold := (configBitmap >>> 16) &&& 0xFFFF
    liquidationBonus := (configBitmap >>> 32) &&& 0xFFFF
    decimals := (configBitmap >>> 48) &&& 0xFF
    isActive := flagAt configBitmap 56
    isFrozen := flagAt configBitmap 57
    borrowingEnabled := flagAt configBitmap 58
    stableRateBorrowingEnabled := flagAt configBitmap 59
    reserveFactor := (configBitmap >>> 64) &&& 0xFFFF
    borrowCap := (configBitmap >>> 80) &&& 0xFFFFFFFF
    supplyCap := (configBitmap >>> 116) &&& 0xFFFFFFFF
    debtCeiling := (configBitmap >>> 212) &&& 0xFFFFFFFFFF
    liquidationProtocolFee := (configBitmap >>> 152) &&& 0xFFFF
    unbackedMintCap := (configBitmap >>> 168) &&& 0xFFFFFFFF
    eModeCategoryId := if eModeCategory > 0 then some eModeCategory else none
    flashLoanEnabled := flagAt configBitmap 63
    isolationMode := flagAt configBitmap 62
    borrowableInIsolation := flagAt configBitmap 61 }

end Degenbot.Aave
