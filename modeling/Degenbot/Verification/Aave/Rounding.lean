import Degenbot.Algorithm.AaveProcessors
import Degenbot.Library.Outcome
import Mathlib.Tactic

/-! # Rounding of scaled amounts

Each mode pairs the rounding of a displayed balance with the rounding of its conversion back,
so that the whole balance is worth its scaled amount. The aToken processors of revisions 4 and 5
round half up where the token math of these revisions rounds down or up. -/

namespace Degenbot.Aave

open WadRayMath Library

/-! ## A balance and back -/

theorem floor_then_ceil {unit index scaled : ℕ} (hunit : 0 < unit) (hindex : unit ≤ index) :
    scaled * index / unit * unit / index +
      (if scaled * index / unit * unit % index ≠ 0 then 1 else 0) = scaled := by
  have hle := Nat.div_mul_le_self (scaled * index) unit
  have hlt := Nat.lt_div_mul_add hunit (a := scaled * index)
  generalize scaled * index / unit * unit = value at hle hlt ⊢
  have hmod := Nat.mod_lt value (hunit.trans_le hindex)
  have hsplit := Nat.div_add_mod value index
  generalize value / index = whole at hsplit ⊢
  generalize value % index = rest at hmod hsplit ⊢
  by_cases hrest : rest = 0
  · rw [if_neg (by simpa using hrest)]
    have hlower : whole < scaled + 1 := by
      refine Nat.lt_of_mul_lt_mul_left (a := index) ?_
      nlinarith
    have hupper : scaled < whole + 1 := by
      refine Nat.lt_of_mul_lt_mul_left (a := index) ?_
      nlinarith
    omega
  · rw [if_pos hrest]
    have hlower : whole < scaled := by
      refine Nat.lt_of_mul_lt_mul_left (a := index) ?_
      nlinarith [Nat.pos_of_ne_zero hrest]
    have hupper : scaled < whole + 2 := by
      refine Nat.lt_of_mul_lt_mul_left (a := index) ?_
      nlinarith
    omega

theorem ceil_mul_bounds {unit value : ℕ} (hunit : 0 < unit) :
    value ≤ (value / unit + (if value % unit ≠ 0 then 1 else 0)) * unit ∧
      (value / unit + (if value % unit ≠ 0 then 1 else 0)) * unit < value + unit := by
  have hsplit := Nat.div_add_mod value unit
  have hmod := Nat.mod_lt value hunit
  rw [mul_comm] at hsplit
  by_cases hrest : value % unit = 0
  · rw [if_neg (by simpa using hrest), Nat.add_zero]
    omega
  · rw [if_pos hrest, Nat.add_mul, Nat.one_mul]
    omega

theorem ceil_then_floor {unit index scaled : ℕ} (hunit : 0 < unit) (hindex : unit ≤ index) :
    (scaled * index / unit + (if scaled * index % unit ≠ 0 then 1 else 0)) * unit / index =
      scaled := by
  obtain ⟨hle, hlt⟩ := @ceil_mul_bounds unit (scaled * index) hunit
  refine Nat.div_eq_of_lt_le hle ?_
  rw [Nat.succ_mul]
  omega

theorem half_up_bounds {half value : ℕ} (hhalf : 0 < half) :
    (value + half) / (2 * half) * (2 * half) ≤ value + half ∧
      value < (value + half) / (2 * half) * (2 * half) + half := by
  have hle := Nat.div_mul_le_self (value + half) (2 * half)
  have hlt := Nat.lt_div_mul_add (show 0 < 2 * half by omega) (a := value + half)
  omega

theorem half_up_twice {half index scaled : ℕ} (hhalf : 0 < half) (hindex : 2 * half ≤ index) :
    ((scaled * index + half) / (2 * half) * (2 * half) + index / 2) / index = scaled := by
  obtain ⟨hle, hlt⟩ := @half_up_bounds half (scaled * index) hhalf
  refine Nat.div_eq_of_lt_le (by omega) ?_
  rw [Nat.add_mul scaled 1, Nat.one_mul]
  rcases hindex.lt_or_eq with hgt | rfl
  · omega
  · -- at an index of one unit the balance is the scaled amount
    have hamount : (scaled * (2 * half) + half) / (2 * half) = scaled := by
      rw [mul_comm scaled, Nat.mul_add_div (by omega), Nat.div_eq_of_lt (by omega), Nat.add_zero]
    rw [hamount]
    omega

/-! ## The conversions of a mode -/

theorem ray_eq : ray = 2 * halfRay := by decide

theorem halfRay_pos : 0 < halfRay := by decide

theorem ray_pos : 0 < ray := by decide

/-- Converting the scaled amount to its balance and the balance back gives the scaled amount
whenever no product overflows. -/
structure Restores (balance change : ℕ → ℕ → Except Exn ℕ) (scaled index : ℕ) : Prop where
  exact : ∀ {amount changed : ℕ}, balance scaled index = .ok amount →
    change amount index = .ok changed → changed = scaled
  returns : scaled * index + ray + index ≤ maxUint →
    ∃ amount, balance scaled index = .ok amount ∧ change amount index = .ok scaled

variable {scaled index : ℕ}

theorem restores_floor_ceil (hindex : ray ≤ index) :
    Restores rayMulFloor rayDivCeil scaled index := by
  have hround := @floor_then_ceil ray index scaled ray_pos hindex
  constructor
  · intro amount changed hamount hchanged
    rw [rayMulFloor, ite_error_eq_ok, Except.ok.injEq] at hamount
    rw [rayDivCeil, ite_error_eq_ok, ite_error_eq_ok, Except.ok.injEq, ← hamount.2] at hchanged
    exact hchanged.2.2.symm.trans hround
  · intro hfits
    have hle := Nat.div_mul_le_self (scaled * index) ray
    refine ⟨scaled * index / ray, by rw [rayMulFloor, if_neg (by omega)], ?_⟩
    rw [rayDivCeil, if_neg (by omega), if_neg (by have := ray_pos; omega), hround]

theorem restores_ceil_floor (hindex : ray ≤ index) :
    Restores rayMulCeil rayDivFloor scaled index := by
  have hround := @ceil_then_floor ray index scaled ray_pos hindex
  constructor
  · intro amount changed hamount hchanged
    rw [rayMulCeil, ite_error_eq_ok, Except.ok.injEq] at hamount
    rw [rayDivFloor, ite_error_eq_ok, ite_error_eq_ok, Except.ok.injEq, ← hamount.2] at hchanged
    exact hchanged.2.2.symm.trans hround
  · intro hfits
    have hlt := (@ceil_mul_bounds ray (scaled * index) ray_pos).2
    refine ⟨_, by rw [rayMulCeil, if_neg (by omega)], ?_⟩
    rw [rayDivFloor, if_neg (by omega), if_neg (by have := ray_pos; omega), hround]

theorem restores_half_up (hindex : ray ≤ index) : Restores rayMul rayDiv scaled index := by
  have hround : ((scaled * index + halfRay) / ray * ray + index / 2) / index = scaled := by
    rw [ray_eq] at hindex ⊢
    exact half_up_twice halfRay_pos hindex
  constructor
  · intro amount changed hamount hchanged
    rw [rayMul, ite_error_eq_ok, Except.ok.injEq] at hamount
    rw [rayDiv, ite_error_eq_ok, ite_error_eq_ok, Except.ok.injEq, ← hamount.2] at hchanged
    exact hchanged.2.2.symm.trans hround
  · intro hfits
    have hle := Nat.div_mul_le_self (scaled * index + halfRay) ray
    have hray := ray_eq
    refine ⟨_, by rw [rayMul, if_neg (by omega)], ?_⟩
    rw [rayDiv, if_neg (by have := ray_pos; omega), if_neg (by omega), hround]

theorem getTokenMath_cases {poolVersion : ℕ} {tokenMath : TokenMath}
    (h : getTokenMath poolVersion = .ok tokenMath) :
    tokenMath = halfUpRoundingMath ∨ tokenMath = explicitRoundingMath := by
  rw [getTokenMath] at h
  split_ifs at h with hhalf hexplicit
  · exact Or.inl (Except.ok.inj h).symm
  · exact Or.inr (Except.ok.inj h).symm

theorem restores_collateral {poolVersion : ℕ} {tokenMath : TokenMath}
    (h : getTokenMath poolVersion = .ok tokenMath) (hindex : ray ≤ index) :
    Restores tokenMath.getCollateralBalance tokenMath.getCollateralBurnScaledAmount scaled index := by
  rcases getTokenMath_cases h with rfl | rfl
  · simp only [halfUpRoundingMath]
    exact restores_half_up hindex
  · simp only [explicitRoundingMath]
    exact restores_floor_ceil hindex

theorem restores_debt {poolVersion : ℕ} {tokenMath : TokenMath}
    (h : getTokenMath poolVersion = .ok tokenMath) (hindex : ray ≤ index) :
    Restores tokenMath.getDebtBalance tokenMath.getDebtBurnScaledAmount scaled index := by
  rcases getTokenMath_cases h with rfl | rfl
  · simp only [halfUpRoundingMath]
    exact restores_half_up hindex
  · simp only [explicitRoundingMath]
    exact restores_ceil_floor hindex

theorem restores_treasury (poolRevision : ℕ) (hindex : ray ≤ index) :
    Restores (fun accrued index => PoolMath.getTreasuryMintAmount accrued index poolRevision)
      (fun amount index => PoolMath.underlyingToScaledCollateral amount index poolRevision)
      scaled index := by
  by_cases hrevision : poolRevision ≥ 9
  · simp only [PoolMath.getTreasuryMintAmount, PoolMath.underlyingToScaledCollateral,
      if_pos hrevision]
    exact restores_floor_ceil hindex
  · simp only [PoolMath.getTreasuryMintAmount, PoolMath.underlyingToScaledCollateral,
      if_neg hrevision]
    exact restores_half_up hindex

/-! ## Full withdrawals and repayments -/

/-- The scaled balance after a burn of the whole displayed balance. The pool passes the scaled
amount of the burn to the processor of the aToken. -/
def withdrawAll (poolVersion tokenRevision scaled : ℕ) (event : BurnEvent) : Except Exn ℤ := do
  let tokenMath ← getTokenMath poolVersion
  let amount ← tokenMath.getCollateralBalance scaled event.index
  let burned ← tokenMath.getCollateralBurnScaledAmount amount event.index
  let processor ← getCollateralProcessor tokenRevision
  let result ← processor.processBurnEvent { event with scaledAmount := some burned } (some burned)
  .ok (scaled + result.balanceDelta)

/-- The same for the variable debt token. -/
def repayAll (poolVersion tokenRevision scaled : ℕ) (event : BurnEvent) : Except Exn ℤ := do
  let tokenMath ← getTokenMath poolVersion
  let amount ← tokenMath.getDebtBalance scaled event.index
  let burned ← tokenMath.getDebtBurnScaledAmount amount event.index
  let processor ← getDebtProcessor tokenRevision
  let result ← processor.processBurnEvent { event with scaledAmount := some burned } (some burned)
  .ok (scaled + result.balanceDelta)

theorem burn_precalculated {revision burned : ℕ} {processor : CollateralProcessor}
    (h : getCollateralProcessor revision = .ok processor) (event : BurnEvent) :
    processor.processBurnEvent { event with scaledAmount := some burned } (some burned) =
      .ok ⟨-burned, event.index⟩ := by
  rw [getCollateralProcessor] at h
  split_ifs at h
  all_goals obtain rfl := Except.ok.inj h
  all_goals rfl

theorem debtBurn_precalculated {revision burned : ℕ} {processor : DebtProcessor}
    (h : getDebtProcessor revision = .ok processor) (event : BurnEvent) :
    processor.processBurnEvent event (some burned) = .ok ⟨-burned, event.index⟩ := by
  rw [getDebtProcessor] at h
  split_ifs at h
  all_goals obtain rfl := Except.ok.inj h
  all_goals rfl

theorem withdrawAll_eq_zero {poolVersion tokenRevision : ℕ} {event : BurnEvent} {left : ℤ}
    (hindex : ray ≤ event.index)
    (h : withdrawAll poolVersion tokenRevision scaled event = .ok left) : left = 0 := by
  simp only [withdrawAll, bind_eq_ok] at h
  obtain ⟨tokenMath, hmath, amount, hamount, burned, hburned, processor, hprocessor, result,
    hresult, hleft⟩ := h
  rw [burn_precalculated hprocessor] at hresult
  rw [← Except.ok.inj hleft, ← Except.ok.inj hresult,
    (restores_collateral hmath hindex).exact hamount hburned]
  exact add_neg_cancel _

theorem repayAll_eq_zero {poolVersion tokenRevision : ℕ} {event : BurnEvent} {left : ℤ}
    (hindex : ray ≤ event.index)
    (h : repayAll poolVersion tokenRevision scaled event = .ok left) : left = 0 := by
  simp only [repayAll, bind_eq_ok] at h
  obtain ⟨tokenMath, hmath, amount, hamount, burned, hburned, processor, hprocessor, result,
    hresult, hleft⟩ := h
  rw [debtBurn_precalculated hprocessor] at hresult
  rw [← Except.ok.inj hleft, ← Except.ok.inj hresult,
    (restores_debt hmath hindex).exact hamount hburned]
  exact add_neg_cancel _

/-- The pairs of conversions of every revision restore the scaled amount. -/
theorem scaledAmount_restored (hindex : ray ≤ index) :
    (∀ poolVersion tokenMath, getTokenMath poolVersion = .ok tokenMath →
      Restores tokenMath.getCollateralBalance tokenMath.getCollateralBurnScaledAmount
        scaled index ∧
      Restores tokenMath.getDebtBalance tokenMath.getDebtBurnScaledAmount scaled index) ∧
    (∀ poolRevision,
      Restores (fun accrued index => PoolMath.getTreasuryMintAmount accrued index poolRevision)
        (fun amount index => PoolMath.underlyingToScaledCollateral amount index poolRevision)
        scaled index) ∧
    (∀ poolVersion tokenRevision value balanceIncrease left,
      withdrawAll poolVersion tokenRevision scaled ⟨value, balanceIncrease, index, none⟩ =
        .ok left ∨
      repayAll poolVersion tokenRevision scaled ⟨value, balanceIncrease, index, none⟩ =
        .ok left → left = 0) := by
  refine ⟨?_, fun poolRevision => restores_treasury poolRevision hindex, ?_⟩
  · intro poolVersion tokenMath hmath
    exact ⟨restores_collateral hmath hindex, restores_debt hmath hindex⟩
  · rintro poolVersion tokenRevision value balanceIncrease left (hleft | hleft)
    · exact withdrawAll_eq_zero hindex hleft
    · exact repayAll_eq_zero hindex hleft

theorem scaledAmount_restored_sample : ray ≤ 15 * 10 ^ 26 ∧
    Restores halfUpRoundingMath.getCollateralBalance
      halfUpRoundingMath.getCollateralBurnScaledAmount (10 ^ 18 + 1) (15 * 10 ^ 26) :=
  ⟨by decide, ((scaledAmount_restored (by decide)).1 1 halfUpRoundingMath rfl).1⟩

/-! ## Mint events without a precalculated amount -/

/-- Revision 4 takes the precalculated amount from the event, revision 5 from the argument. -/
def Uncalculated (revision : ℕ) (event : MintEvent) (scaledDelta : Option ℕ) : Prop :=
  (revision = 4 ∧ event.scaledAmount = none) ∨ (revision = 5 ∧ scaledDelta = none)

def mintDelta (revision : ℕ) (event : MintEvent) (scaledDelta : Option ℕ) : Except Exn ℤ := do
  let processor ← getCollateralProcessor revision
  let result ← processor.processMintEvent event scaledDelta
  .ok result.balanceDelta

/-- The change of the contract: a withdrawal below the interest is emitted as a mint. -/
def contractMintDelta (revision : ℕ) (event : MintEvent) : Except Exn ℤ := do
  let tokenMath ← getTokenMathForTokenRevision revision
  if event.balanceIncrease > event.value then
    let burned ← tokenMath.getCollateralBurnScaledAmount
      (event.balanceIncrease - event.value) event.index
    .ok (-burned)
  else
    let minted ← tokenMath.getCollateralMintScaledAmount
      (event.value - event.balanceIncrease) event.index
    .ok minted

/-- Rounding half up goes the way of the given direction. -/
def HalfUpAgrees (up : Bool) (amount index : ℕ) : Prop :=
  index = 0 ∨ maxUint < amount * ray ∨ (amount * ray + index / 2 ≤ maxUint ∧
    if up then amount * ray % index = 0 ∨ index ≤ amount * ray % index + index / 2
    else amount * ray % index + index / 2 < index)

theorem half_up_div {value index : ℕ} (hindex : 0 < index) :
    (value + index / 2) / index =
      value / index + (if index ≤ value % index + index / 2 then 1 else 0) := by
  have hsplit := Nat.div_add_mod value index
  have hmod := Nat.mod_lt value hindex
  by_cases hup : index ≤ value % index + index / 2
  · rw [if_pos hup]
    refine Nat.div_eq_of_lt_le ?_ ?_
    · rw [Nat.add_mul, Nat.one_mul, mul_comm]
      omega
    · rw [Nat.add_mul, Nat.add_mul, Nat.one_mul, mul_comm]
      omega
  · rw [if_neg hup, Nat.add_zero]
    refine Nat.div_eq_of_lt_le ?_ ?_
    · rw [mul_comm]
      omega
    · rw [Nat.add_mul, Nat.one_mul, mul_comm]
      omega

theorem rayDiv_eq_floor_iff {amount index : ℕ} :
    rayDiv amount index = rayDivFloor amount index ↔ HalfUpAgrees false amount index := by
  rcases Nat.eq_zero_or_pos index with rfl | hindex
  · simp [rayDiv, rayDivFloor, HalfUpAgrees]
  by_cases hfits : amount * ray > maxUint
  · rw [rayDiv, if_neg hindex.ne', if_pos (by omega), rayDivFloor, if_pos hfits]
    exact iff_of_true rfl (Or.inr (Or.inl hfits))
  · rw [rayDiv, if_neg hindex.ne', rayDivFloor, if_neg hfits, if_neg hindex.ne', half_up_div hindex,
      HalfUpAgrees, if_neg Bool.false_ne_true]
    by_cases hoverflow : amount * ray + index / 2 > maxUint
    · rw [if_pos hoverflow]
      exact iff_of_false (by simp) (by omega)
    · rw [if_neg hoverflow, Except.ok.injEq]
      by_cases hup : index ≤ amount * ray % index + index / 2
      · rw [if_pos hup]
        omega
      · rw [if_neg hup]
        omega

theorem rayDiv_eq_ceil_iff {amount index : ℕ} :
    rayDiv amount index = rayDivCeil amount index ↔ HalfUpAgrees true amount index := by
  rcases Nat.eq_zero_or_pos index with rfl | hindex
  · simp [rayDiv, rayDivCeil, HalfUpAgrees]
  by_cases hfits : amount * ray > maxUint
  · rw [rayDiv, if_neg hindex.ne', if_pos (by omega), rayDivCeil, if_pos hfits]
    exact iff_of_true rfl (Or.inr (Or.inl hfits))
  · rw [rayDiv, if_neg hindex.ne', rayDivCeil, if_neg hfits, if_neg hindex.ne', half_up_div hindex,
      HalfUpAgrees, if_pos rfl]
    by_cases hoverflow : amount * ray + index / 2 > maxUint
    · rw [if_pos hoverflow]
      exact iff_of_false (by simp) (by omega)
    · rw [if_neg hoverflow, Except.ok.injEq]
      by_cases hrest : amount * ray % index = 0
      · have hhalf : ¬index ≤ 0 + index / 2 := by omega
        rw [hrest, if_neg hhalf, if_neg (not_not_intro rfl)]
        exact iff_of_true rfl (Or.inr (Or.inr ⟨by omega, Or.inl rfl⟩))
      · rw [if_pos hrest]
        by_cases hup : index ≤ amount * ray % index + index / 2
        · rw [if_pos hup]
          omega
        · rw [if_neg hup]
          omega

variable {revision : ℕ} {event : MintEvent} {scaledDelta : Option ℕ}

theorem mintDelta_of_uncalculated (h : Uncalculated revision event scaledDelta) :
    mintDelta revision event scaledDelta =
      if event.balanceIncrease > event.value then
        (rayDiv (event.balanceIncrease - event.value) event.index).map
          fun scaled : ℕ => -(scaled : ℤ)
      else
        (rayDiv (event.value - event.balanceIncrease) event.index).map
          fun scaled : ℕ => (scaled : ℤ) := by
  have hresult : mintDelta revision event scaledDelta =
      (mintResult event none).map fun result => result.balanceDelta := by
    rcases h with ⟨rfl, hnone⟩ | ⟨rfl, hnone⟩
    · change (mintResult event event.scaledAmount >>= fun result => .ok result.balanceDelta) = _
      rw [hnone]
      cases mintResult event none <;> rfl
    · change (mintResult event scaledDelta >>= fun result => .ok result.balanceDelta) = _
      rw [hnone]
      cases mintResult event none <;> rfl
  rw [hresult, mintResult]
  by_cases hinterest : event.balanceIncrease > event.value
  · rw [if_pos hinterest, if_pos hinterest]
    cases rayDiv (event.balanceIncrease - event.value) event.index <;> rfl
  · rw [if_neg hinterest, if_neg hinterest, if_pos (by omega)]
    cases rayDiv (event.value - event.balanceIncrease) event.index <;> rfl

theorem contractMintDelta_eq (hrevision : 4 ≤ revision) :
    contractMintDelta revision event =
      if event.balanceIncrease > event.value then
        (rayDivCeil (event.balanceIncrease - event.value) event.index).map
          fun scaled : ℕ => -(scaled : ℤ)
      else
        (rayDivFloor (event.value - event.balanceIncrease) event.index).map
          fun scaled : ℕ => (scaled : ℤ) := by
  have hmath : getTokenMathForTokenRevision revision = .ok explicitRoundingMath := by
    rw [getTokenMathForTokenRevision, if_neg (by omega)]
    split <;> rfl
  rw [contractMintDelta, hmath, ok_bind]
  by_cases hinterest : event.balanceIncrease > event.value
  · rw [if_pos hinterest, if_pos hinterest]
    simp only [explicitRoundingMath]
    cases rayDivCeil (event.balanceIncrease - event.value) event.index <;> rfl
  · rw [if_neg hinterest, if_neg hinterest]
    simp only [explicitRoundingMath]
    cases rayDivFloor (event.value - event.balanceIncrease) event.index <;> rfl

theorem map_eq_map_iff {α β ε : Type} {f : α → β} (hf : Function.Injective f)
    {x y : Except ε α} : x.map f = y.map f ↔ x = y := by
  cases x <;> cases y <;> simp [Except.map, hf.eq_iff]

/-- The processor agrees with the contract exactly when rounding half up does. -/
theorem mintDelta_eq_contract_iff (h : Uncalculated revision event scaledDelta) :
    mintDelta revision event scaledDelta = contractMintDelta revision event ↔
      if event.balanceIncrease > event.value then
        HalfUpAgrees true (event.balanceIncrease - event.value) event.index
      else HalfUpAgrees false (event.value - event.balanceIncrease) event.index := by
  have hrevision : 4 ≤ revision := by
    rcases h with ⟨rfl, -⟩ | ⟨rfl, -⟩ <;> omega
  rw [mintDelta_of_uncalculated h, contractMintDelta_eq hrevision]
  by_cases hinterest : event.balanceIncrease > event.value
  · rw [if_pos hinterest, if_pos hinterest, if_pos hinterest,
      map_eq_map_iff fun a b hab => by simpa using hab, rayDiv_eq_ceil_iff]
  · rw [if_neg hinterest, if_neg hinterest, if_neg hinterest,
      map_eq_map_iff fun a b hab => by simpa using hab, rayDiv_eq_floor_iff]

/-- A deposit of three units at an index of one and a half rays. -/
theorem mintDelta_eq_contract_sample :
    mintDelta 4 ⟨3, 0, 15 * 10 ^ 26, none⟩ none = contractMintDelta 4 ⟨3, 0, 15 * 10 ^ 26, none⟩ :=
  (mintDelta_eq_contract_iff (Or.inl ⟨rfl, rfl⟩)).mpr (by
    rw [if_neg (by decide)]
    exact Or.inr (Or.inr (by decide)))

/-- A deposit of one unit at that index is worth no scaled unit, and the processors add one. -/
theorem mintDelta_ne_contract :
    (Uncalculated 4 ⟨1, 0, 15 * 10 ^ 26, none⟩ none ∧
      mintDelta 4 ⟨1, 0, 15 * 10 ^ 26, none⟩ none = .ok 1 ∧
      contractMintDelta 4 ⟨1, 0, 15 * 10 ^ 26, none⟩ = .ok 0) ∧
    (Uncalculated 5 ⟨1, 0, 15 * 10 ^ 26, none⟩ none ∧
      mintDelta 5 ⟨1, 0, 15 * 10 ^ 26, none⟩ none = .ok 1 ∧
      contractMintDelta 5 ⟨1, 0, 15 * 10 ^ 26, none⟩ = .ok 0) := by
  refine ⟨⟨?_, by decide, by decide⟩, ⟨?_, by decide, by decide⟩⟩
  · exact Or.inl ⟨rfl, rfl⟩
  · exact Or.inr ⟨rfl, rfl⟩

end Degenbot.Aave
