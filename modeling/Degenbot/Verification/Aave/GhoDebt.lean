import Degenbot.Algorithm.AaveProcessors
import Degenbot.Verification.Aave.ScaledBalance
import Mathlib.Tactic

/-! # Tracking discounted debt from events

The variable debt token of GHO, revisions 2 and 3, with the events it emits, and a tracker
that sees the events and the discount in force before each of them. -/

namespace Degenbot.Aave

open WadRayMath Library

/-! ## The token contract -/

namespace GhoToken

/-- The scaled balance of the user, the index of its last operation and its discount. -/
structure State where
  scaledBalance : ℕ
  index : ℕ
  discountPercent : ℕ
deriving DecidableEq

/-- Borrow, repay, and an update of the discount. Each refreshes the discount, and the
strategy may answer anything. -/
inductive Operation where
  | mint (amount index newDiscount : ℕ)
  | burn (amount index newDiscount : ℕ)
  | updateDiscount (index newDiscount : ℕ)
deriving DecidableEq

def percentMul (value percentage : ℕ) : Except Exn ℕ :=
  if percentage ≠ 0 ∧ value > (maxUint - Gho.halfPercentageFactor) / percentage then
    .error evmRevert
  else .ok ((value * percentage + Gho.halfPercentageFactor) / Gho.percentageFactor)

/-- A subtraction of `uint256`. -/
def checkedSub (a b : ℕ) : Except Exn ℕ := if a < b then .error evmRevert else .ok (a - b)

variable (state : State)

/-- `_accrueDebtOnAction`: the interest net of the discount, and the scaled discount. -/
def accrueDebtOnAction (index : ℕ) : Except Exn (ℕ × ℕ) := do
  let current ← rayMul state.scaledBalance index
  let previous ← rayMul state.scaledBalance state.index
  let balanceIncrease ← checkedSub current previous
  if balanceIncrease ≠ 0 ∧ state.discountPercent ≠ 0 then
    let discount ← percentMul balanceIncrease state.discountPercent
    let discountScaled ← rayDiv discount index
    let net ← checkedSub balanceIncrease discount
    .ok (net, discountScaled)
  else .ok (balanceIncrease, 0)

/-- `balanceOf` at the given index. -/
def balanceOf (index : ℕ) : Except Exn ℕ :=
  if state.scaledBalance = 0 then .ok 0
  else do
    let balance ← rayMul state.scaledBalance index
    if index = state.index then .ok balance
    else if state.discountPercent ≠ 0 then
      let previous ← rayMul state.scaledBalance state.index
      let balanceIncrease ← checkedSub balance previous
      let discount ← percentMul balanceIncrease state.discountPercent
      checkedSub balance discount
    else .ok balance

/-- The scaled balance after a borrow, which a large discount can still lower. -/
def balanceAfterMint (amountScaled discountScaled : ℕ) : Except Exn ℕ :=
  if amountScaled > discountScaled then
    .ok (state.scaledBalance + (amountScaled - discountScaled))
  else checkedSub state.scaledBalance (discountScaled - amountScaled)

/-- `_mintScaled`. -/
def mintScaled (amount index newDiscount : ℕ) : Except Exn (State × TokenEvent) := do
  let amountScaled ← rayDiv amount index
  if amountScaled = 0 then .error evmRevert
  else
    let (balanceIncrease, discountScaled) ← accrueDebtOnAction state index
    let scaledBalance ← balanceAfterMint state amountScaled discountScaled
    .ok (⟨scaledBalance, index, newDiscount⟩,
      .mint { value := amount + balanceIncrease, balanceIncrease, index })

/-- The scaled balance after a repayment: nothing after one of exactly the balance. -/
def balanceAfterBurn (amount balanceBeforeBurn amountScaled discountScaled : ℕ) :
    Except Exn ℕ :=
  if amount = balanceBeforeBurn then checkedSub state.scaledBalance state.scaledBalance
  else checkedSub state.scaledBalance (amountScaled + discountScaled)

/-- `_burnScaled`. -/
def burnScaled (amount index newDiscount : ℕ) : Except Exn (State × TokenEvent) := do
  let amountScaled ← rayDiv amount index
  if amountScaled = 0 then .error evmRevert
  else
    let balanceBeforeBurn ← balanceOf state index
    let (balanceIncrease, discountScaled) ← accrueDebtOnAction state index
    let scaledBalance ←
      balanceAfterBurn state amount balanceBeforeBurn amountScaled discountScaled
    let next : State := ⟨scaledBalance, index, newDiscount⟩
    if balanceIncrease > amount then
      .ok (next, .mint { value := balanceIncrease - amount, balanceIncrease, index })
    else .ok (next, .burn { value := amount - balanceIncrease, balanceIncrease, index })

/-- `rebalanceUserDiscountPercent`, and `updateDiscountDistribution` for one of its users. -/
def updateDiscount (index newDiscount : ℕ) : Except Exn (State × TokenEvent) := do
  let (balanceIncrease, discountScaled) ← accrueDebtOnAction state index
  let scaledBalance ← checkedSub state.scaledBalance discountScaled
  .ok (⟨scaledBalance, index, newDiscount⟩,
    .mint { value := balanceIncrease, balanceIncrease, index })

def Operation.index : Operation → ℕ
  | mint _ index _ => index
  | burn _ index _ => index
  | updateDiscount index _ => index

/-- Indexes do not decrease, are at least one ray and are stored in 128 bits. -/
def execute (operation : Operation) : Except Exn (State × TokenEvent) :=
  if operation.index < state.index ∨ operation.index < ray ∨ 2 ^ 128 ≤ operation.index then
    .error evmRevert
  else match operation with
    | .mint amount index newDiscount => mintScaled state amount index newDiscount
    | .burn amount index newDiscount => burnScaled state amount index newDiscount
    | .updateDiscount index newDiscount => updateDiscount state index newDiscount

/-- The operations of a run and the events they emit, each with the discount in force before
it. -/
inductive Emits : State → List (ℕ × TokenEvent) → State → Prop where
  | nil (state : State) : Emits state [] state
  | snoc {first last next : State} {events : List (ℕ × TokenEvent)} {operation : Operation}
      {event : TokenEvent} : Emits first events last →
      execute last operation = .ok (next, event) →
      Emits first (events ++ [(last.discountPercent, event)]) next

end GhoToken

/-! ## The tracker -/

namespace Gho

/-- The tracked scaled balance and index. -/
structure Position where
  balance : ℤ
  lastIndex : ℕ
deriving DecidableEq

/-- The position after an event, without a separate repay amount. -/
def Position.apply (position : Position) (discount : ℕ) :
    TokenEvent → Except Exn Position
  | .mint event => do
      let result ←
        processMintEvent event position.balance position.lastIndex discount none
      .ok ⟨position.balance + result.balanceDelta, result.newIndex⟩
  | .burn event => do
      let result ← processBurnEvent event position.balance position.lastIndex discount
      .ok ⟨position.balance + result.balanceDelta, result.newIndex⟩

def track (position : Position) (events : List (ℕ × TokenEvent)) : Except Exn Position :=
  events.foldlM (fun position event => position.apply event.1 event.2) position

/-! ## The arithmetic of both sides -/

theorem rayMul_natCast {a b c : ℕ} (h : WadRayMath.rayMul a b = .ok c) :
    rayMul a b = .ok (c : ℤ) := by
  unfold WadRayMath.rayMul at h
  obtain ⟨hfits, h⟩ := ite_error_eq_ok.mp h
  cases h
  unfold rayMul
  rw [if_neg (by exact_mod_cast hfits)]
  simp only [Nat.cast_add, Nat.cast_mul, Int.natCast_ediv]

theorem rayDiv_natCast {a b c : ℕ} (h : WadRayMath.rayDiv a b = .ok c) :
    rayDiv a b = .ok (c : ℤ) := by
  unfold WadRayMath.rayDiv at h
  obtain ⟨hzero, h⟩ := ite_error_eq_ok.mp h
  obtain ⟨hfits, h⟩ := ite_error_eq_ok.mp h
  cases h
  unfold rayDiv
  rw [if_neg hzero, if_neg (by exact_mod_cast hfits)]
  simp only [Nat.cast_add, Nat.cast_mul, Int.natCast_ediv]

theorem percentMul_natCast {value percentage c : ℕ}
    (h : GhoToken.percentMul value percentage = .ok c) :
    percentMul value percentage = .ok (c : ℤ) := by
  unfold GhoToken.percentMul at h
  obtain ⟨hfits, h⟩ := ite_error_eq_ok.mp h
  cases h
  unfold percentMul
  rw [if_neg (by exact_mod_cast hfits)]
  simp only [Nat.cast_add, Nat.cast_mul, Int.natCast_ediv]

theorem checkedSub_eq_ok {a b c : ℕ} :
    GhoToken.checkedSub a b = .ok c ↔ b ≤ a ∧ c = a - b := by
  unfold GhoToken.checkedSub
  rw [ite_error_eq_ok, not_lt, Except.ok.injEq, eq_comm (a := c)]

section Operations

variable {state next : GhoToken.State} {index : ℕ}

theorem accrueDebtOnAction_natCast {net discountScaled : ℕ}
    (h : GhoToken.accrueDebtOnAction state index = .ok (net, discountScaled)) :
    accrueDebtOnAction state.scaledBalance state.index state.discountPercent index =
      .ok (discountScaled : ℤ) := by
  unfold GhoToken.accrueDebtOnAction at h
  obtain ⟨current, hcurrent, h⟩ := bind_eq_ok.mp h
  obtain ⟨previous, hprevious, h⟩ := bind_eq_ok.mp h
  obtain ⟨increase, hincrease, h⟩ := bind_eq_ok.mp h
  obtain ⟨hle, rfl⟩ := checkedSub_eq_ok.mp hincrease
  have hcast : (current : ℤ) - previous = ((current - previous : ℕ) : ℤ) := (Nat.cast_sub hle).symm
  simp only [accrueDebtOnAction, rayMul_natCast hcurrent, rayMul_natCast hprevious, ok_bind, hcast]
  by_cases hdiscount : current - previous ≠ 0 ∧ state.discountPercent ≠ 0
  · rw [if_pos hdiscount] at h
    obtain ⟨discount, hpercent, h⟩ := bind_eq_ok.mp h
    obtain ⟨scaled, hscaled, h⟩ := bind_eq_ok.mp h
    obtain ⟨_, -, h⟩ := bind_eq_ok.mp h
    cases h
    rw [if_pos (by exact_mod_cast hdiscount), percentMul_natCast hpercent]
    exact rayDiv_natCast hscaled
  · rw [if_neg hdiscount] at h
    cases h
    rw [if_neg (by exact_mod_cast hdiscount)]
    rfl

theorem getDiscountedBalance_natCast {balance : ℕ}
    (h : GhoToken.balanceOf state index = .ok balance) :
    getDiscountedBalance state.scaledBalance state.index index state.discountPercent =
      .ok (balance : ℤ) := by
  unfold GhoToken.balanceOf at h
  unfold getDiscountedBalance
  by_cases hzero : state.scaledBalance = 0
  · rw [if_pos hzero] at h
    cases h
    rw [if_pos (by exact_mod_cast hzero)]
    rfl
  rw [if_neg hzero] at h
  rw [if_neg (by exact_mod_cast hzero)]
  obtain ⟨current, hcurrent, h⟩ := bind_eq_ok.mp h
  rw [rayMul_natCast hcurrent, ok_bind]
  by_cases hsame : index = state.index
  · rw [if_pos hsame] at h ⊢
    cases h
    rfl
  rw [if_neg hsame] at h ⊢
  by_cases hdiscount : state.discountPercent ≠ 0
  · rw [if_pos hdiscount] at h ⊢
    obtain ⟨previous, hprevious, h⟩ := bind_eq_ok.mp h
    obtain ⟨increase, hincrease, h⟩ := bind_eq_ok.mp h
    obtain ⟨hle, rfl⟩ := checkedSub_eq_ok.mp hincrease
    obtain ⟨discount, hpercent, h⟩ := bind_eq_ok.mp h
    obtain ⟨hfits, rfl⟩ := checkedSub_eq_ok.mp h
    rw [rayMul_natCast hprevious, ok_bind, ← Nat.cast_sub hle, percentMul_natCast hpercent,
      ok_bind, Nat.cast_sub hfits]
  · rw [if_neg hdiscount] at h ⊢
    cases h
    rfl

/-- The tracked position of a contract state. -/
def positionOf (state : GhoToken.State) : Position := ⟨state.scaledBalance, state.index⟩

theorem apply_mintScaled {amount newDiscount : ℕ} {event : TokenEvent}
    (h : GhoToken.mintScaled state amount index newDiscount = .ok (next, event)) :
    (positionOf state).apply state.discountPercent event = .ok (positionOf next) := by
  unfold GhoToken.mintScaled at h
  obtain ⟨amountScaled, hamount, h⟩ := bind_eq_ok.mp h
  obtain ⟨-, h⟩ := ite_error_eq_ok.mp h
  obtain ⟨⟨increase, discountScaled⟩, haccrue, h⟩ := bind_eq_ok.mp h
  obtain ⟨scaledBalance, hbalance, h⟩ := bind_eq_ok.mp h
  cases h
  have hrequested : ((amount + increase : ℕ) : ℤ) - increase = amount := by
    push_cast
    ring
  simp only [Position.apply, positionOf, processMintEvent, accrueDebtOnAction_natCast haccrue,
    ok_bind, ge_iff_le, Nat.le_add_left, if_true, hrequested, rayDiv_natCast hamount]
  unfold GhoToken.balanceAfterMint at hbalance
  refine congrArg (fun balance => Except.ok (⟨balance, index⟩ : Position)) ?_
  by_cases hmore : amountScaled > discountScaled
  · rw [if_pos hmore] at hbalance
    rw [if_pos (by exact_mod_cast hmore)]
    cases hbalance
    push_cast [hmore.le]
    ring
  · rw [if_neg hmore] at hbalance
    rw [if_neg (by exact_mod_cast hmore)]
    obtain ⟨hle, rfl⟩ := checkedSub_eq_ok.mp hbalance
    push_cast [hle, not_lt.mp hmore]
    ring

/-- What a burn takes from the balance, as the processor computes it. -/
theorem burned_eq {amount amountScaled discountScaled balanceBeforeBurn scaledBalance : ℕ}
    (h : GhoToken.balanceAfterBurn state amount balanceBeforeBurn amountScaled discountScaled =
      .ok scaledBalance) :
    (state.scaledBalance : ℤ) + (if (amount : ℤ) = balanceBeforeBurn then
        -(state.scaledBalance : ℤ) else -((amountScaled : ℤ) + discountScaled)) =
      scaledBalance := by
  unfold GhoToken.balanceAfterBurn at h
  by_cases hfull : amount = balanceBeforeBurn
  · rw [if_pos hfull] at h
    rw [if_pos (by exact_mod_cast hfull)]
    obtain ⟨-, rfl⟩ := checkedSub_eq_ok.mp h
    simp
  · rw [if_neg hfull] at h
    rw [if_neg (by exact_mod_cast hfull)]
    obtain ⟨hle, rfl⟩ := checkedSub_eq_ok.mp h
    push_cast [hle]
    ring

theorem apply_burnScaled {amount newDiscount : ℕ} {event : TokenEvent}
    (h : GhoToken.burnScaled state amount index newDiscount = .ok (next, event)) :
    (positionOf state).apply state.discountPercent event = .ok (positionOf next) := by
  unfold GhoToken.burnScaled at h
  obtain ⟨amountScaled, hamount, h⟩ := bind_eq_ok.mp h
  obtain ⟨hnonzero, h⟩ := ite_error_eq_ok.mp h
  obtain ⟨balanceBeforeBurn, hbefore, h⟩ := bind_eq_ok.mp h
  obtain ⟨⟨increase, discountScaled⟩, haccrue, h⟩ := bind_eq_ok.mp h
  obtain ⟨scaledBalance, hbalance, h⟩ := bind_eq_ok.mp h
  have hburned := burned_eq hbalance
  by_cases hinterest : increase > amount
  · -- the interest exceeds the repayment, which the event nets against it
    rw [if_pos hinterest] at h
    cases h
    have hpos := amount_ne_zero hamount hnonzero
    have hmint : ¬increase ≤ increase - amount := by omega
    have hrepaid : (increase : ℤ) - ((increase - amount : ℕ) : ℤ) = amount := by
      push_cast [hinterest.le]
      ring
    simp only [Position.apply, positionOf, processMintEvent, accrueDebtOnAction_natCast haccrue,
      ok_bind, ge_iff_le, if_neg hmint, gt_iff_lt, if_pos (not_le.mp hmint), Option.getD_none,
      hrepaid, rayDiv_natCast hamount, getDiscountedBalance_natCast hbefore, hburned]
  · rw [if_neg hinterest] at h
    cases h
    have hrequested : ((amount - increase : ℕ) : ℤ) + increase = amount := by
      push_cast [not_lt.mp hinterest]
      ring
    simp only [Position.apply, positionOf, processBurnEvent, accrueDebtOnAction_natCast haccrue,
      ok_bind, hrequested, rayDiv_natCast hamount, getDiscountedBalance_natCast hbefore, hburned]

theorem rayDiv_zero (hindex : index ≠ 0) (hfits : index < 2 ^ 128) : rayDiv 0 index = .ok 0 := by
  refine rayDiv_natCast (a := 0) (c := 0) ?_
  have hover : ¬0 * ray + index / 2 > maxUint := by
    have hmax : 2 ^ 128 ≤ maxUint := by decide
    omega
  unfold WadRayMath.rayDiv
  rw [if_neg hindex, if_neg hover, zero_mul, zero_add, Nat.div_eq_of_lt (by omega)]

theorem apply_updateDiscount {newDiscount : ℕ} {event : TokenEvent} (hindex : index ≠ 0)
    (hfits : index < 2 ^ 128)
    (h : GhoToken.updateDiscount state index newDiscount = .ok (next, event)) :
    (positionOf state).apply state.discountPercent event = .ok (positionOf next) := by
  unfold GhoToken.updateDiscount at h
  obtain ⟨⟨increase, discountScaled⟩, haccrue, h⟩ := bind_eq_ok.mp h
  obtain ⟨scaledBalance, hbalance, h⟩ := bind_eq_ok.mp h
  obtain ⟨hle, rfl⟩ := checkedSub_eq_ok.mp hbalance
  cases h
  have hnot : ¬(0 : ℤ) > discountScaled := not_lt.mpr (Int.natCast_nonneg _)
  simp only [Position.apply, positionOf, processMintEvent, accrueDebtOnAction_natCast haccrue,
    ok_bind, ge_iff_le, le_refl, if_true, sub_self, rayDiv_zero hindex hfits, if_neg hnot,
    sub_zero]
  refine congrArg (fun balance => Except.ok (⟨balance, index⟩ : Position)) ?_
  push_cast [hle]
  ring

/-- The event of an operation brings the tracked position to the state of the contract. -/
theorem apply_execute {operation : GhoToken.Operation} {event : TokenEvent}
    (h : GhoToken.execute state operation = .ok (next, event)) :
    (positionOf state).apply state.discountPercent event = .ok (positionOf next) := by
  unfold GhoToken.execute at h
  obtain ⟨hvalid, h⟩ := ite_error_eq_ok.mp h
  push Not at hvalid
  cases operation with
  | mint amount index newDiscount => exact apply_mintScaled h
  | burn amount index newDiscount => exact apply_burnScaled h
  | updateDiscount index newDiscount =>
      have hray : index ≠ 0 := by
        have hpos : 0 < ray := by decide
        exact (hpos.trans_le hvalid.2.1).ne'
      exact apply_updateDiscount hray hvalid.2.2 h

end Operations

/-! ## Runs -/

/-- After every event the tracked balance and index are those of the contract. -/
theorem track_eq_positionOf {first last : GhoToken.State} {events : List (ℕ × TokenEvent)}
    (h : GhoToken.Emits first events last) :
    track (positionOf first) events = .ok (positionOf last) := by
  induction h with
  | nil => rfl
  | snoc _ hexecute ih =>
      unfold track at ih ⊢
      rw [List.foldlM_append, ih]
      simp [apply_execute hexecute]

/-- A borrow at a discount of 20 %, a repayment smaller than the interest since then, an
update of the discount, and a repayment of the whole balance. -/
theorem track_four_operations :
    ∃ events last, GhoToken.Emits ⟨0, 0, 0⟩ events last ∧ events.length = 4 ∧
      last.scaledBalance = 0 ∧ track ⟨0, 0⟩ events = .ok ⟨last.scaledBalance, last.index⟩ := by
  have hborrow : GhoToken.execute ⟨0, 0, 0⟩ (.mint (10 ^ 20) ray 2000) = .ok _ := rfl
  have hsmall : GhoToken.execute ⟨10 ^ 20, ray, 2000⟩ (.burn 1000 (2 * ray) 2000) = .ok _ := rfl
  have hupdate : GhoToken.execute ⟨89999999999999999500, 2 * ray, 2000⟩
      (.updateDiscount (2 * ray) 3000) = .ok _ := rfl
  have hrepay : GhoToken.execute ⟨89999999999999999500, 2 * ray, 3000⟩
      (.burn 179999999999999999000 (2 * ray) 0) = .ok _ := rfl
  have hrun := (((GhoToken.Emits.nil ⟨0, 0, 0⟩).snoc hborrow).snoc hsmall).snoc hupdate |>.snoc
    hrepay
  exact ⟨_, _, hrun, rfl, rfl, track_eq_positionOf hrun⟩

end Gho

end Degenbot.Aave
