import Degenbot.Algorithm.AavePosition
import Degenbot.Library.Outcome
import Mathlib.Tactic

/-! # Liquidatable positions

The analysis adds balances of different tokens without dividing by their decimals, and
caps the debt of a user in isolation mode. -/

namespace Degenbot.Aave

open WadRayMath Library

/-! ## The contract -/

/-- The arguments of `analyze_user_position`. -/
structure UserPosition where
  user : User
  collateral : List CollateralPosition
  debt : List DebtPosition
  collateralConfigMap : ℕ → Option Bool
  priceMap : ℕ → Option ℕ

namespace UserPosition

variable (p : UserPosition)

def analyze : Except Exn UserPositionSummary :=
  analyzeUserPosition p.user p.collateral p.debt p.collateralConfigMap p.priceMap

/-- Prices are available and balances fit their integers. -/
structure Valid : Prop where
  collateral_priced : ∀ pos ∈ p.collateral, (p.priceMap pos.asset.underlyingToken.address).isSome
  debt_priced : ∀ pos ∈ p.debt, (p.priceMap pos.asset.underlyingToken.address).isSome
  collateral_fits : ∀ pos ∈ p.collateral, pos.balance * pos.asset.liquidityIndex ≤ maxUint
  debt_fits : ∀ pos ∈ p.debt, pos.balance * pos.asset.borrowIndex ≤ maxUint

/-- The value of a collateral position times its liquidation threshold, in units of its own
token. A disabled position does not count. -/
def weightedCollateral (pos : CollateralPosition) : ℕ :=
  pos.balance * pos.asset.liquidityIndex / ray *
    (p.priceMap pos.asset.underlyingToken.address).getD 0 *
    if (p.collateralConfigMap pos.asset.id).getD true then
      getLiquidationThresholdForPosition pos.asset pos.asset.emodeCatId p.user.eMode
    else 0

def debtValue (pos : DebtPosition) : ℕ :=
  (pos.balance * pos.asset.borrowIndex / ray +
      if pos.balance * pos.asset.borrowIndex % ray ≠ 0 then 1 else 0) *
    (p.priceMap pos.asset.underlyingToken.address).getD 0

/-- Aave's definition, every value scaled by the decimals of its token. -/
def AaveLiquidatable : Prop :=
  (p.collateral.map fun pos =>
      (p.weightedCollateral pos : ℚ) / 10 ^ pos.asset.underlyingToken.decimals).sum <
    10000 * (p.debt.map fun pos =>
      (p.debtValue pos : ℚ) / 10 ^ pos.asset.underlyingToken.decimals).sum

/-- The analysis returns and classifies as Aave does. -/
def Classified : Prop :=
  ∃ summary, p.analyze = .ok summary ∧ (summary.isLiquidatable = true ↔ p.AaveLiquidatable)

/-! ## The condition -/

def collateralDecimals : List ℕ := p.collateral.map fun pos => pos.asset.underlyingToken.decimals

def debtDecimals : List ℕ := p.debt.map fun pos => pos.asset.underlyingToken.decimals

/-- The debt ceiling that caps the total debt of the user. -/
def debtCap : Option ℕ := do
  let asset ← p.user.isolationCollateralAsset
  let config ← asset.assetConfig
  let ceiling ← config.debtCeiling
  if p.user.isolationModeDebt > 0 then some ceiling else none

end UserPosition

/-- Every collateral token has the decimals of every debt token, and no ceiling caps a debt
that collateral backs. -/
structure SameUnits (collateralDecimals debtDecimals : List ℕ) (debtCap : Option ℕ) : Prop where
  decimals : ∀ c ∈ collateralDecimals, ∀ d ∈ debtDecimals, c = d
  uncapped : ∀ ceiling, debtCap = some ceiling →
    debtDecimals = [] ∨ (collateralDecimals = [] ∧ 0 < ceiling)

/-! ## The health factor -/

def cappedDebt (debtCap : Option ℕ) (total : ℕ) : ℕ :=
  match debtCap with
  | some ceiling => min total ceiling
  | none => total

theorem foldl_add_eq_sum {α : Type} (f : α → ℕ) (xs : List α) (start : ℕ) :
    xs.foldl (fun total x => total + f x) start = start + (xs.map f).sum := by
  induction xs generalizing start with
  | nil => simp
  | cons x xs ih => rw [List.foldl_cons, ih, List.map_cons, List.sum_cons, Nat.add_assoc]

/-- The weight of a position in the health factor. -/
def CollateralPositionData.weight (position : CollateralPositionData) : ℕ :=
  position.priceAdjustedBalance * position.effectiveLiquidationThreshold

/-- Skipping disabled and empty positions skips nothing that counts. -/
theorem foldl_weight_eq_sum (positions : List CollateralPositionData) (start : ℕ) :
    positions.foldl (fun total position =>
      if position.isEnabledAsCollateral ∧ position.actualBalance > 0 then
        total + position.priceAdjustedBalance * position.effectiveLiquidationThreshold
      else total) start = start + (positions.map CollateralPositionData.weight).sum := by
  rw [← foldl_add_eq_sum]
  congr 1
  funext total position
  by_cases hcounts : position.isEnabledAsCollateral ∧ position.actualBalance > 0
  · rw [if_pos hcounts]
    rfl
  · rw [if_neg hcounts]
    have hzero : position.weight = 0 := by
      by_cases henabled : position.isEnabledAsCollateral
      · have hbalance : position.actualBalance = 0 := by simpa [henabled] using hcounts
        have hvalue : position.priceAdjustedBalance = 0 := by
          unfold CollateralPositionData.priceAdjustedBalance priceAdjustedBalance
          cases position.price <;> simp [hbalance]
        simp [CollateralPositionData.weight, hvalue]
      · simp [CollateralPositionData.weight,
          CollateralPositionData.effectiveLiquidationThreshold, henabled]
    rw [hzero, Nat.add_zero]

theorem quotient_lt_one_iff (weighted total : ℕ) :
    (∃ hf : ℚ, (if total = 0 then none
      else some ((weighted : ℚ) / ((total * basisPoints : ℕ) : ℚ))) = some hf ∧ hf < 1) ↔
      weighted < total * basisPoints := by
  by_cases hzero : total = 0
  · simp [hzero]
  · have hpos : (0 : ℚ) < ((total * basisPoints : ℕ) : ℚ) := by
      have hmul : 0 < total * basisPoints := Nat.mul_pos (Nat.pos_of_ne_zero hzero) (by decide)
      exact_mod_cast hmul
    simp only [if_neg hzero, Option.some.injEq, exists_eq_left', div_lt_one hpos]
    exact Nat.cast_lt

/-- The comparison behind the classification, without the quotient. -/
theorem healthFactor_lt_one_iff (collateral : List CollateralPositionData)
    (debt : List DebtPositionData) (isolationModeDebt : ℕ) (ceiling : Option ℕ) :
    (∃ hf, calculateHealthFactor collateral debt isolationModeDebt ceiling = some hf ∧ hf < 1) ↔
      (collateral.map CollateralPositionData.weight).sum <
        cappedDebt (ceiling.filter fun _ => isolationModeDebt > 0)
          (debt.map DebtPositionData.priceAdjustedBalance).sum * basisPoints := by
  unfold calculateHealthFactor
  simp only [foldl_weight_eq_sum, foldl_add_eq_sum, Nat.zero_add]
  by_cases hempty : debt.isEmpty ∧ isolationModeDebt = 0
  · obtain rfl := List.isEmpty_iff.mp hempty.1
    cases ceiling <;> simp [hempty.2, cappedDebt, Option.filter]
  · rw [if_neg hempty]
    cases ceiling with
    | none => exact quotient_lt_one_iff ..
    | some ceiling =>
        by_cases hdebt : isolationModeDebt > 0
        · simp only [if_pos hdebt, Option.filter, decide_eq_true hdebt, cappedDebt]
          exact quotient_lt_one_iff ..
        · simp only [if_neg hdebt, Option.filter, decide_eq_false hdebt, cappedDebt]
          exact quotient_lt_one_iff ..

/-! ## The analysis -/

section Analysis

variable {p : UserPosition}

/-- The data of a collateral position whose balance fits. -/
def collateralData (p : UserPosition) (pos : CollateralPosition) : CollateralPositionData where
  assetAddress := pos.asset.underlyingToken.address
  assetSymbol := pos.asset.underlyingToken.symbol
  scaledBalance := pos.balance
  actualBalance := pos.balance * pos.asset.liquidityIndex / ray
  liquidationThreshold :=
    getLiquidationThresholdForPosition pos.asset pos.asset.emodeCatId p.user.eMode
  ltv := getLtvForPosition pos.asset pos.asset.emodeCatId p.user.eMode
  isEnabledAsCollateral := (p.collateralConfigMap pos.asset.id).getD true
  inEmode := p.user.eMode > 0 ∧ pos.asset.emodeCatId = some p.user.eMode
  emodeCategoryId := pos.asset.emodeCatId
  price := p.priceMap pos.asset.underlyingToken.address

def debtData (p : UserPosition) (pos : DebtPosition) : DebtPositionData where
  assetAddress := pos.asset.underlyingToken.address
  assetSymbol := pos.asset.underlyingToken.symbol
  scaledBalance := pos.balance
  actualBalance := pos.balance * pos.asset.borrowIndex / ray +
    if pos.balance * pos.asset.borrowIndex % ray ≠ 0 then 1 else 0
  inEmode := p.user.eMode > 0 ∧ pos.asset.emodeCatId = some p.user.eMode
  emodeCategoryId := pos.asset.emodeCatId
  price := p.priceMap pos.asset.underlyingToken.address

theorem weight_collateralData {pos : CollateralPosition}
    (h : (p.priceMap pos.asset.underlyingToken.address).isSome) :
    (collateralData p pos).weight = p.weightedCollateral pos := by
  obtain ⟨price, hprice⟩ := Option.isSome_iff_exists.mp h
  simp [collateralData, CollateralPositionData.weight,
    CollateralPositionData.priceAdjustedBalance, priceAdjustedBalance,
    CollateralPositionData.effectiveLiquidationThreshold, UserPosition.weightedCollateral, hprice]

theorem value_debtData {pos : DebtPosition}
    (h : (p.priceMap pos.asset.underlyingToken.address).isSome) :
    (debtData p pos).priceAdjustedBalance = p.debtValue pos := by
  obtain ⟨price, hprice⟩ := Option.isSome_iff_exists.mp h
  simp [debtData, DebtPositionData.priceAdjustedBalance, priceAdjustedBalance,
    UserPosition.debtValue, hprice]

theorem isLiquidatable_iff (summary : UserPositionSummary) :
    summary.isLiquidatable = true ↔ ∃ hf, summary.healthFactor = some hf ∧ hf < 1 := by
  unfold UserPositionSummary.isLiquidatable
  cases summary.healthFactor with
  | none => simp
  | some hf => simp

/-- The ceiling that the analysis passes on. -/
def UserPosition.debtCeiling (p : UserPosition) : Option ℕ := do
  let asset ← p.user.isolationCollateralAsset
  let assetConfig ← asset.assetConfig
  assetConfig.debtCeiling

theorem debtCap_eq : p.debtCap = p.debtCeiling.filter fun _ =>
    (if p.user.isIsolationMode then p.user.isolationModeDebt else 0) > 0 := by
  unfold UserPosition.debtCap UserPosition.debtCeiling User.isIsolationMode
  cases p.user.isolationCollateralAsset with
  | none => rfl
  | some asset =>
      cases hconfig : asset.assetConfig with
      | none => simp [hconfig]
      | some config =>
          cases hceiling : config.debtCeiling with
          | none => simp [hconfig, hceiling]
          | some ceiling => simp [hconfig, hceiling, Option.filter]

theorem analyze_eq_ok (h : p.Valid) :
    ∃ summary, p.analyze = .ok summary ∧ summary.healthFactor =
      calculateHealthFactor (p.collateral.map (collateralData p)) (p.debt.map (debtData p))
        (if p.user.isIsolationMode then p.user.isolationModeDebt else 0) p.debtCeiling := by
  have hcollateral : p.collateral.mapM (fun pos =>
      buildCollateralPositionData pos p.user.eMode
        ((p.collateralConfigMap pos.asset.id).getD true)
        (p.priceMap pos.asset.underlyingToken.address)) =
      .ok (p.collateral.map (collateralData p)) := by
    refine mapM_eq_ok fun pos hpos => ?_
    have hfits := not_lt.mpr (h.collateral_fits pos hpos)
    simp [buildCollateralPositionData, rayMulFloor, hfits, collateralData]
  have hdebt : p.debt.mapM (fun pos =>
      buildDebtPositionData pos p.user.eMode (p.priceMap pos.asset.underlyingToken.address)) =
      .ok (p.debt.map (debtData p)) := by
    refine mapM_eq_ok fun pos hpos => ?_
    have hfits := not_lt.mpr (h.debt_fits pos hpos)
    simp [buildDebtPositionData, rayMulCeil, hfits, debtData]
  unfold UserPosition.analyze analyzeUserPosition
  simp only [hcollateral, hdebt, ok_bind]
  exact ⟨_, rfl, rfl⟩

/-- A valid position is analysed, and compared without decimals and under the cap. -/
theorem analyze_spec (h : p.Valid) :
    ∃ summary, p.analyze = .ok summary ∧ (summary.isLiquidatable = true ↔
      (p.collateral.map p.weightedCollateral).sum <
        cappedDebt p.debtCap (p.debt.map p.debtValue).sum * basisPoints) := by
  have hweights : (p.collateral.map (collateralData p)).map CollateralPositionData.weight =
      p.collateral.map p.weightedCollateral := by
    rw [List.map_map]
    exact List.map_congr_left fun pos hpos => weight_collateralData (h.collateral_priced pos hpos)
  have hvalues : (p.debt.map (debtData p)).map DebtPositionData.priceAdjustedBalance =
      p.debt.map p.debtValue := by
    rw [List.map_map]
    exact List.map_congr_left fun pos hpos => value_debtData (h.debt_priced pos hpos)
  obtain ⟨summary, hanalyze, hfactor⟩ := analyze_eq_ok h
  refine ⟨summary, hanalyze, ?_⟩
  rw [isLiquidatable_iff, hfactor, healthFactor_lt_one_iff, hweights, hvalues, debtCap_eq]

/-- The classification is right exactly when scaling and the cap do not matter. -/
theorem classified_iff (h : p.Valid) :
    p.Classified ↔ ((p.collateral.map p.weightedCollateral).sum <
        cappedDebt p.debtCap (p.debt.map p.debtValue).sum * basisPoints ↔
      p.AaveLiquidatable) := by
  obtain ⟨summary, hanalyze, hiff⟩ := analyze_spec h
  rw [← hiff]
  constructor
  · rintro ⟨summary', hanalyze', hiff'⟩
    rw [hanalyze] at hanalyze'
    obtain rfl := Except.ok.inj hanalyze'
    exact hiff'
  · exact fun hiff' => ⟨summary, hanalyze, hiff'⟩

end Analysis

/-! ## The condition is enough -/

section Scaling

variable {α : Type} {value decimals : α → ℕ} {xs : List α}

/-- With common decimals, scaling is one division. -/
theorem scaled_sum_eq {e : ℕ} (h : ∀ x ∈ xs, decimals x = e) :
    (xs.map fun x => (value x : ℚ) / 10 ^ decimals x).sum = ((xs.map value).sum : ℕ) / 10 ^ e := by
  induction xs with
  | nil => simp
  | cons x xs ih =>
      rw [List.map_cons, List.sum_cons, h x List.mem_cons_self,
        ih fun y hy => h y (List.mem_cons_of_mem x hy), List.map_cons, List.sum_cons,
        Nat.cast_add, add_div]

theorem scaled_sum_nonneg : 0 ≤ (xs.map fun x => (value x : ℚ) / 10 ^ decimals x).sum := by
  apply List.sum_nonneg
  intro y hy
  obtain ⟨x, _, rfl⟩ := List.mem_map.mp hy
  positivity

theorem scaled_sum_pos_iff :
    0 < (xs.map fun x => (value x : ℚ) / 10 ^ decimals x).sum ↔ 0 < (xs.map value).sum := by
  induction xs with
  | nil => simp
  | cons x xs ih =>
      have hrest : 0 ≤ (xs.map fun x => (value x : ℚ) / 10 ^ decimals x).sum := scaled_sum_nonneg
      rw [List.map_cons, List.sum_cons, List.map_cons, List.sum_cons]
      by_cases hzero : value x = 0
      · simp [hzero, ih]
      · have hpos : (0 : ℚ) < (value x : ℚ) / 10 ^ decimals x := by
          have : 0 < value x := Nat.pos_of_ne_zero hzero
          positivity
        exact iff_of_true (by linarith) (by omega)

end Scaling

theorem classified_of_sameUnits {p : UserPosition} (h : p.Valid)
    (hunits : SameUnits p.collateralDecimals p.debtDecimals p.debtCap) : p.Classified := by
  rw [classified_iff h]
  unfold UserPosition.AaveLiquidatable
  by_cases hdebt : p.debt = []
  · have hcapped : cappedDebt p.debtCap 0 = 0 := by
      cases p.debtCap <;> simp [cappedDebt]
    have hnonneg : 0 ≤ (p.collateral.map fun pos =>
        (p.weightedCollateral pos : ℚ) / 10 ^ pos.asset.underlyingToken.decimals).sum :=
      scaled_sum_nonneg
    simp only [hdebt, List.map_nil, List.sum_nil, hcapped, Nat.zero_mul, mul_zero]
    exact iff_of_false (Nat.not_lt_zero _) (not_lt.mpr hnonneg)
  have hdebt' : p.debtDecimals ≠ [] := by simpa [UserPosition.debtDecimals] using hdebt
  by_cases hcollateral : p.collateral = []
  · have hcapped : 0 < cappedDebt p.debtCap (p.debt.map p.debtValue).sum ↔
        0 < (p.debt.map p.debtValue).sum := by
      cases hcap : p.debtCap with
      | none => rfl
      | some ceiling =>
          rcases hunits.uncapped ceiling hcap with hnil | ⟨_, hpos⟩
          · exact absurd hnil hdebt'
          · simp [cappedDebt, hpos]
    simp only [hcollateral, List.map_nil, List.sum_nil, basisPoints]
    rw [Nat.mul_pos_iff_of_pos_right (by decide), hcapped, mul_pos_iff_of_pos_left (by norm_num),
      scaled_sum_pos_iff]
  · have hcollateral' : p.collateralDecimals ≠ [] := by
      simpa [UserPosition.collateralDecimals] using hcollateral
    have hcap : p.debtCap = none := by
      cases hcap : p.debtCap with
      | none => rfl
      | some ceiling =>
          rcases hunits.uncapped ceiling hcap with hnil | ⟨hnil, _⟩
          · exact absurd hnil hdebt'
          · exact absurd hnil hcollateral'
    obtain ⟨e, he⟩ := List.exists_mem_of_ne_nil _ hdebt'
    obtain ⟨c, hc⟩ := List.exists_mem_of_ne_nil _ hcollateral'
    have hce : c = e := hunits.decimals c hc e he
    have hcommon : ∀ pos ∈ p.collateral, pos.asset.underlyingToken.decimals = e :=
      fun pos hpos => hunits.decimals _ (List.mem_map_of_mem hpos) e he
    have hcommon' : ∀ pos ∈ p.debt, pos.asset.underlyingToken.decimals = e :=
      fun pos hpos => (hunits.decimals c hc _ (List.mem_map_of_mem hpos)).symm.trans hce
    rw [hcap, scaled_sum_eq hcommon, scaled_sum_eq hcommon', ← mul_div_assoc,
      div_lt_div_iff_of_pos_right (by positivity)]
    simp only [cappedDebt, basisPoints]
    rw [Nat.mul_comm]
    exact_mod_cast Iff.rfl

/-! ## The condition is necessary -/

section Necessity

/-- An asset whose indexes are one. -/
def sampleAsset (address decimals threshold : ℕ) (ceiling : Option ℕ) : Asset where
  id := address
  underlyingToken := { address, symbol := none, decimals }
  liquidityIndex := ray
  borrowIndex := ray
  eModeCategoryId := none
  eModeCategory := none
  assetConfig := some { ltv := 0, liquidationThreshold := threshold, debtCeiling := ceiling }

/-- Balances and decimals on both sides, with one price and one threshold for all collateral
and one price for all debt. Collateral tokens have even addresses and debt tokens odd ones. -/
def samplePosition (collateral debt : List (ℕ × ℕ)) (threshold collateralPrice debtPrice : ℕ)
    (cap : Option ℕ) : UserPosition where
  user :=
    { address := 0
      marketId := 0
      eMode := 0
      isolationCollateralAsset := cap.map fun ceiling => sampleAsset 0 0 threshold (some ceiling)
      isolationModeDebt := 1 }
  collateral := collateral.map fun x =>
    { asset := sampleAsset (2 * x.2) x.2 threshold none, balance := x.1 }
  debt := debt.map fun x =>
    { asset := sampleAsset (2 * x.2 + 1) x.2 threshold none, balance := x.1 }
  collateralConfigMap := fun _ => none
  priceMap := fun address => some (if address % 2 = 0 then collateralPrice else debtPrice)

variable {collateral debt : List (ℕ × ℕ)} {threshold collateralPrice debtPrice : ℕ}
  {cap : Option ℕ}

theorem debtCap_samplePosition :
    (samplePosition collateral debt threshold collateralPrice debtPrice cap).debtCap = cap := by
  cases cap <;> simp [UserPosition.debtCap, samplePosition, sampleAsset]

theorem collateralDecimals_samplePosition :
    (samplePosition collateral debt threshold collateralPrice debtPrice cap).collateralDecimals =
      collateral.map Prod.snd := by
  simp [UserPosition.collateralDecimals, samplePosition, sampleAsset]

theorem debtDecimals_samplePosition :
    (samplePosition collateral debt threshold collateralPrice debtPrice cap).debtDecimals =
      debt.map Prod.snd := by
  simp [UserPosition.debtDecimals, samplePosition, sampleAsset]

theorem valid_samplePosition (hcollateral : ∀ x ∈ collateral, x.1 ≤ 1)
    (hdebt : ∀ x ∈ debt, x.1 ≤ 1) :
    (samplePosition collateral debt threshold collateralPrice debtPrice cap).Valid := by
  have hfits : ∀ balance ≤ 1, balance * ray ≤ maxUint := fun balance hbalance =>
    (Nat.mul_le_mul_right ray hbalance).trans (by decide)
  constructor
  · exact fun _ _ => rfl
  · exact fun _ _ => rfl
  · intro pos hpos
    obtain ⟨x, hx, rfl⟩ := List.mem_map.mp hpos
    exact hfits x.1 (hcollateral x hx)
  · intro pos hpos
    obtain ⟨x, hx, rfl⟩ := List.mem_map.mp hpos
    exact hfits x.1 (hdebt x hx)

theorem weightedCollateral_sample (x : ℕ × ℕ) :
    (samplePosition collateral debt threshold collateralPrice debtPrice cap).weightedCollateral
      { asset := sampleAsset (2 * x.2) x.2 threshold none, balance := x.1 } =
      x.1 * (collateralPrice * threshold) := by
  have hray : 0 < ray := by decide
  simp [UserPosition.weightedCollateral, samplePosition, sampleAsset, Nat.mul_div_cancel _ hray,
    getLiquidationThresholdForPosition, Asset.riskParameter, Nat.mul_assoc]

theorem debtValue_sample (x : ℕ × ℕ) :
    (samplePosition collateral debt threshold collateralPrice debtPrice cap).debtValue
      { asset := sampleAsset (2 * x.2 + 1) x.2 threshold none, balance := x.1 } =
      x.1 * debtPrice := by
  have hray : 0 < ray := by decide
  have hodd : (2 * x.2 + 1) % 2 = 1 := by omega
  simp [UserPosition.debtValue, samplePosition, sampleAsset, Nat.mul_div_cancel _ hray, hodd]

theorem classified_samplePosition (hcollateral : ∀ x ∈ collateral, x.1 ≤ 1)
    (hdebt : ∀ x ∈ debt, x.1 ≤ 1) :
    (samplePosition collateral debt threshold collateralPrice debtPrice cap).Classified ↔
      ((collateral.map fun x => x.1 * (collateralPrice * threshold)).sum <
          cappedDebt cap (debt.map fun x => x.1 * debtPrice).sum * basisPoints ↔
        (collateral.map fun x => ((x.1 * (collateralPrice * threshold) : ℕ) : ℚ) / 10 ^ x.2).sum <
          10000 * (debt.map fun x => ((x.1 * debtPrice : ℕ) : ℚ) / 10 ^ x.2).sum) := by
  rw [classified_iff (valid_samplePosition hcollateral hdebt), debtCap_samplePosition]
  have hcollateral' : (samplePosition collateral debt threshold collateralPrice debtPrice
      cap).collateral = collateral.map fun x =>
        { asset := sampleAsset (2 * x.2) x.2 threshold none, balance := x.1 } := rfl
  have hdebt' : (samplePosition collateral debt threshold collateralPrice debtPrice
      cap).debt = debt.map fun x =>
        { asset := sampleAsset (2 * x.2 + 1) x.2 threshold none, balance := x.1 } := rfl
  simp only [UserPosition.AaveLiquidatable, hcollateral', hdebt', List.map_map,
    Function.comp_def, weightedCollateral_sample, debtValue_sample]
  rfl

/-- Balance one in the token with decimals `e`, nothing in those around it. -/
def onlyOne (before : List ℕ) (e : ℕ) (after : List ℕ) : List (ℕ × ℕ) :=
  before.map (fun e' => (0, e')) ++ (1, e) :: after.map fun e' => (0, e')

variable {before after : List ℕ} {e : ℕ}

theorem map_snd_onlyOne : (onlyOne before e after).map Prod.snd = before ++ e :: after := by
  simp [onlyOne, Function.comp_def]

theorem fst_le_of_mem_onlyOne : ∀ x ∈ onlyOne before e after, x.1 ≤ 1 := by
  intro x hx
  simp only [onlyOne, List.mem_append, List.mem_cons, List.mem_map] at hx
  rcases hx with ⟨_, _, rfl⟩ | rfl | ⟨_, _, rfl⟩ <;> simp

theorem sum_onlyOne (value : ℕ) :
    ((onlyOne before e after).map fun x => x.1 * value).sum = value := by
  simp [onlyOne, Function.comp_def]

theorem scaled_sum_onlyOne (value : ℕ) :
    ((onlyOne before e after).map fun x => ((x.1 * value : ℕ) : ℚ) / 10 ^ x.2).sum =
      value / 10 ^ e := by
  simp [onlyOne, Function.comp_def]

end Necessity

/-- Every position with these decimals and this cap is classified right. -/
def AllClassified (collateralDecimals debtDecimals : List ℕ) (debtCap : Option ℕ) : Prop :=
  ∀ p : UserPosition, p.Valid → p.collateralDecimals = collateralDecimals →
    p.debtDecimals = debtDecimals → p.debtCap = debtCap → p.Classified

section Conditions

variable {cs ds : List ℕ} {cap : Option ℕ}

/-- Unit balances of one collateral token and one debt token. -/
theorem AllClassified.pair (h : AllClassified cs ds cap) {c d : ℕ} (hc : c ∈ cs) (hd : d ∈ ds)
    (threshold collateralPrice debtPrice : ℕ) :
    collateralPrice * threshold < cappedDebt cap debtPrice * basisPoints ↔
      ((collateralPrice * threshold : ℕ) : ℚ) / 10 ^ c < 10000 * ((debtPrice : ℕ) / 10 ^ d) := by
  obtain ⟨before, after, rfl⟩ := List.append_of_mem hc
  obtain ⟨before', after', rfl⟩ := List.append_of_mem hd
  have hclassified := h (samplePosition (onlyOne before c after) (onlyOne before' d after')
      threshold collateralPrice debtPrice cap)
    (valid_samplePosition fst_le_of_mem_onlyOne fst_le_of_mem_onlyOne)
    (collateralDecimals_samplePosition.trans map_snd_onlyOne)
    (debtDecimals_samplePosition.trans map_snd_onlyOne) debtCap_samplePosition
  rw [classified_samplePosition fst_le_of_mem_onlyOne fst_le_of_mem_onlyOne] at hclassified
  simpa only [sum_onlyOne, scaled_sum_onlyOne] using hclassified

/-- A unit balance of one debt token, without collateral. -/
theorem AllClassified.bare (h : AllClassified [] ds cap) {d : ℕ} (hd : d ∈ ds) (debtPrice : ℕ) :
    0 < cappedDebt cap debtPrice * basisPoints ↔ (0 : ℚ) < 10000 * ((debtPrice : ℕ) / 10 ^ d) := by
  obtain ⟨before, after, rfl⟩ := List.append_of_mem hd
  have hclassified := h (samplePosition [] (onlyOne before d after) 0 0 debtPrice cap)
    (valid_samplePosition (by simp) fst_le_of_mem_onlyOne)
    collateralDecimals_samplePosition
    (debtDecimals_samplePosition.trans map_snd_onlyOne) debtCap_samplePosition
  rw [classified_samplePosition (by simp) fst_le_of_mem_onlyOne] at hclassified
  simpa only [sum_onlyOne, scaled_sum_onlyOne, List.map_nil, List.sum_nil] using hclassified

/-- Under a ceiling a debt above it is counted short, whatever the collateral is worth. -/
theorem AllClassified.not_capped {ceiling : ℕ} (h : AllClassified cs ds (some ceiling)) {c d : ℕ}
    (hc : c ∈ cs) (hd : d ∈ ds) : False := by
  have hiff := h.pair hc hd 10000 ceiling ((ceiling + 1) * 10 ^ d)
  have hcode : ¬ ceiling * 10000 <
      cappedDebt (some ceiling) ((ceiling + 1) * 10 ^ d) * basisPoints := by
    have hmin : min ((ceiling + 1) * 10 ^ d) ceiling ≤ ceiling := Nat.min_le_right _ _
    simp only [cappedDebt, basisPoints]
    omega
  apply hcode
  rw [hiff]
  have hscaled : (((ceiling + 1) * 10 ^ d : ℕ) : ℚ) / 10 ^ d = ceiling + 1 := by
    push_cast
    exact mul_div_cancel_right₀ _ (by positivity)
  have hle : ((ceiling * 10000 : ℕ) : ℚ) / 10 ^ c ≤ (ceiling * 10000 : ℕ) :=
    div_le_self (by positivity) (one_le_pow₀ (by norm_num))
  rw [hscaled]
  push_cast at hle ⊢
  linarith

theorem AllClassified.decimals_eq (h : AllClassified cs ds none) {c d : ℕ} (hc : c ∈ cs)
    (hd : d ∈ ds) : c = d := by
  have hcpos : (0 : ℚ) < 10 ^ c := by positivity
  have hdpos : (0 : ℚ) < 10 ^ d := by positivity
  rcases Nat.lt_trichotomy c d with hlt | heq | hgt
  · -- one unit of collateral is worth more than one unit of debt
    have hiff := h.pair hc hd 9999 1 1
    have hscaled := hiff.mp (by decide)
    have hpow : (10 : ℚ) ^ c * 10 ≤ 10 ^ d := by
      rw [← pow_succ]
      exact pow_le_pow_right₀ (by norm_num) hlt
    rw [← mul_div_assoc, div_lt_div_iff₀ hcpos hdpos] at hscaled
    push_cast at hscaled
    linarith
  · exact heq
  · -- one unit of collateral is worth less than one unit of debt
    have hiff := h.pair hc hd 10000 1 1
    have hpow : (10 : ℚ) ^ d * 10 ≤ 10 ^ c := by
      rw [← pow_succ]
      exact pow_le_pow_right₀ (by norm_num) hgt
    refine absurd (hiff.mpr ?_) (by decide)
    rw [← mul_div_assoc, div_lt_div_iff₀ hcpos hdpos]
    push_cast
    linarith

theorem AllClassified.sameUnits (h : AllClassified cs ds cap) : SameUnits cs ds cap := by
  constructor
  · intro c hc d hd
    cases cap with
    | none => exact h.decimals_eq hc hd
    | some ceiling => exact (h.not_capped hc hd).elim
  · rintro ceiling rfl
    by_cases hds : ds = []
    · exact .inl hds
    obtain ⟨d, hd⟩ := List.exists_mem_of_ne_nil _ hds
    refine .inr ?_
    have hcs : cs = [] := by
      by_contra hcs
      obtain ⟨c, hc⟩ := List.exists_mem_of_ne_nil _ hcs
      exact h.not_capped hc hd
    subst hcs
    refine ⟨rfl, Nat.pos_of_ne_zero ?_⟩
    rintro rfl
    have hpos : (0 : ℚ) < 10000 * ((1 : ℕ) / 10 ^ d) := by positivity
    exact absurd ((h.bare hd 1).mpr hpos) (by decide)

end Conditions

/-- The analysis agrees with Aave on all positions of given decimals and cap exactly when both
sides are counted in the same units and no ceiling cuts the debt. -/
theorem allClassified_iff_sameUnits (collateralDecimals debtDecimals : List ℕ)
    (debtCap : Option ℕ) :
    AllClassified collateralDecimals debtDecimals debtCap ↔
      SameUnits collateralDecimals debtDecimals debtCap := by
  constructor
  · exact AllClassified.sameUnits
  · rintro hunits p hvalid rfl rfl rfl
    exact classified_of_sameUnits hvalid hunits

/-- One WETH at 2000 against 1900 USDC, threshold 80 %: liquidatable for Aave, and the
analysis reports a health factor above 10¹¹. -/
def wethAgainstUsdc : UserPosition where
  user :=
    { address := 1, marketId := 1, eMode := 0, isolationCollateralAsset := none
      isolationModeDebt := 0 }
  collateral := [
    { asset := { sampleAsset 10 18 8000 none with
        underlyingToken := { address := 10, symbol := some "WETH", decimals := 18 } }
      balance := 10 ^ 18 }]
  debt := [
    { asset := { sampleAsset 11 6 7800 none with
        underlyingToken := { address := 11, symbol := some "USDC", decimals := 6 } }
      balance := 1900 * 10 ^ 6 }]
  collateralConfigMap := fun _ => none
  priceMap := fun address =>
    if address = 10 then some (2000 * 10 ^ 8) else if address = 11 then some (10 ^ 8) else none

theorem wethAgainstUsdc_missed : wethAgainstUsdc.Valid ∧ ¬ wethAgainstUsdc.Classified := by
  have hvalid : wethAgainstUsdc.Valid := by
    constructor <;> decide
  refine ⟨hvalid, ?_⟩
  rw [classified_iff hvalid]
  have hcode : ¬ (wethAgainstUsdc.collateral.map wethAgainstUsdc.weightedCollateral).sum <
      cappedDebt wethAgainstUsdc.debtCap
        (wethAgainstUsdc.debt.map wethAgainstUsdc.debtValue).sum * basisPoints := by
    decide +kernel
  have haave : wethAgainstUsdc.AaveLiquidatable := by
    unfold UserPosition.AaveLiquidatable
    decide +kernel
  exact fun hiff => hcode (hiff.mpr haave)

end Degenbot.Aave
