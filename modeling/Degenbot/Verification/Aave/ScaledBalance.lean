import Degenbot.Algorithm.AaveProcessors
import Degenbot.Library.Outcome

/-! # Tracking scaled balances from events

The token contract of revisions 1 to 3, with the events it emits, and a tracker that only
sees the events. -/

namespace Degenbot.Aave

open WadRayMath Library

/-! ## The token contract -/

inductive TokenKind where
  | aToken
  | variableDebtToken
deriving DecidableEq

/-- Supply and borrow mint, withdraw and repay burn. -/
inductive Operation where
  | mint (amount index : ℕ)
  | burn (amount index : ℕ)
deriving DecidableEq

/-- The scaled balance of the user and the index of its last operation. -/
structure TokenState where
  scaledBalance : ℕ
  index : ℕ
deriving DecidableEq

inductive TokenEvent where
  | mint (event : MintEvent)
  | burn (event : BurnEvent)
deriving DecidableEq

/-- Interest since the last operation of the user. -/
def TokenState.balanceIncrease (state : TokenState) (index : ℕ) : Except Exn ℕ := do
  let current ← rayMul state.scaledBalance index
  let previous ← rayMul state.scaledBalance state.index
  .ok (current - previous)

/-- `_mintScaled` and `_burnScaled`: indexes do not decrease, and an operation reverts when
its scaled amount is zero or exceeds the balance it is taken from. -/
def TokenState.execute (state : TokenState) : Operation → Except Exn (TokenState × TokenEvent)
  | .mint amount index => do
      let amountScaled ← rayDiv amount index
      let balanceIncrease ← state.balanceIncrease index
      if index < state.index ∨ amountScaled = 0 then .error evmRevert
      else .ok (⟨state.scaledBalance + amountScaled, index⟩,
        .mint { value := amount + balanceIncrease, balanceIncrease, index })
  | .burn amount index => do
      let amountScaled ← rayDiv amount index
      let balanceIncrease ← state.balanceIncrease index
      if index < state.index ∨ amountScaled = 0 ∨ state.scaledBalance < amountScaled then
        .error evmRevert
      else
        let next : TokenState := ⟨state.scaledBalance - amountScaled, index⟩
        if balanceIncrease > amount then
          .ok (next, .mint { value := balanceIncrease - amount, balanceIncrease, index })
        else
          .ok (next, .burn { value := amount - balanceIncrease, balanceIncrease, index })

/-- The operations of a run and the events they emit. -/
inductive Emits : TokenState → List TokenEvent → TokenState → Prop where
  | nil (state : TokenState) : Emits state [] state
  | snoc {first last next : TokenState} {events : List TokenEvent} {operation : Operation}
      {event : TokenEvent} : Emits first events last →
      last.execute operation = .ok (next, event) → Emits first (events ++ [event]) next

/-! ## The tracker -/

/-- The change of the balance that the processor of a token reports for an event. -/
def balanceDelta : TokenKind → TokenEvent → Except Exn ℤ
  | .aToken, .mint event => do
      let result ← CollateralV1Processor.processMintEvent event
      .ok result.balanceDelta
  | .variableDebtToken, .mint event => do
      let result ← DebtV1Processor.processMintEvent event
      .ok result.balanceDelta
  | .aToken, .burn event => do
      let result ← CollateralV1Processor.processBurnEvent event none
      .ok result.balanceDelta
  | .variableDebtToken, .burn event => do
      let result ← DebtV1Processor.processBurnEvent event none
      .ok result.balanceDelta

def track (kind : TokenKind) (balance : ℤ) (events : List TokenEvent) : Except Exn ℤ :=
  events.foldlM (fun balance event => do
    let delta ← balanceDelta kind event
    .ok (balance + delta)) balance

/-! ## One operation -/

theorem balanceDelta_deposit (kind : TokenKind) {amount increase index scaled : ℕ}
    (hscaled : rayDiv amount index = .ok scaled) :
    balanceDelta kind (.mint { value := amount + increase, balanceIncrease := increase, index }) =
      .ok (scaled : ℤ) := by
  cases kind <;>
    simp [balanceDelta, CollateralV1Processor.processMintEvent, DebtV1Processor.processMintEvent,
      mintedDelta, hscaled]

theorem balanceDelta_netted (kind : TokenKind) {amount increase index scaled : ℕ}
    (hpos : amount ≠ 0) (hlt : amount < increase) (hscaled : rayDiv amount index = .ok scaled) :
    balanceDelta kind
        (.mint { value := increase - amount, balanceIncrease := increase, index }) =
      .ok (-(scaled : ℤ)) := by
  have hless : increase - amount < increase := by omega
  have hamount : increase - (increase - amount) = amount := by omega
  cases kind with
  | aToken =>
      simp [balanceDelta, CollateralV1Processor.processMintEvent, hless, hamount, hscaled]
  | variableDebtToken =>
      simp [balanceDelta, DebtV1Processor.processMintEvent, not_le.mpr hless, hamount, hscaled]

theorem balanceDelta_burn (kind : TokenKind) {amount increase index scaled : ℕ}
    (hle : increase ≤ amount) (hscaled : rayDiv amount index = .ok scaled) :
    balanceDelta kind
        (.burn { value := amount - increase, balanceIncrease := increase, index }) =
      .ok (-(scaled : ℤ)) := by
  have hamount : amount - increase + increase = amount := Nat.sub_add_cancel hle
  cases kind <;>
    simp [balanceDelta, CollateralV1Processor.processBurnEvent, DebtV1Processor.processBurnEvent,
      processBurnEvent, hamount, hscaled]

theorem amount_ne_zero {amount index scaled : ℕ} (h : rayDiv amount index = .ok scaled)
    (hscaled : scaled ≠ 0) : amount ≠ 0 := by
  rintro rfl
  unfold rayDiv at h
  split_ifs at h with hindex hoverflow
  have hzero : (0 * ray + index / 2) / index = scaled := Except.ok.inj h
  rw [Nat.zero_mul, Nat.zero_add, Nat.div_eq_of_lt (by omega)] at hzero
  exact hscaled hzero.symm

/-- The event of an operation carries exactly its change of the scaled balance. -/
theorem balanceDelta_execute (kind : TokenKind) {state next : TokenState}
    {operation : Operation} {event : TokenEvent}
    (h : state.execute operation = .ok (next, event)) :
    balanceDelta kind event = .ok ((next.scaledBalance : ℤ) - state.scaledBalance) := by
  cases operation with
  | mint amount index =>
      simp only [TokenState.execute] at h
      obtain ⟨scaled, hscaled, h⟩ := bind_eq_ok.mp h
      obtain ⟨increase, _, h⟩ := bind_eq_ok.mp h
      obtain ⟨_, h⟩ := ite_error_eq_ok.mp h
      obtain ⟨rfl, rfl⟩ := Prod.mk.inj (Except.ok.inj h)
      rw [balanceDelta_deposit kind hscaled]
      simp
  | burn amount index =>
      simp only [TokenState.execute] at h
      obtain ⟨scaled, hscaled, h⟩ := bind_eq_ok.mp h
      obtain ⟨increase, _, h⟩ := bind_eq_ok.mp h
      obtain ⟨hvalid, h⟩ := ite_error_eq_ok.mp h
      push Not at hvalid
      have hdelta : ((state.scaledBalance - scaled : ℕ) : ℤ) - state.scaledBalance = -scaled := by
        omega
      by_cases hinterest : increase > amount
      · rw [if_pos hinterest] at h
        obtain ⟨rfl, rfl⟩ := Prod.mk.inj (Except.ok.inj h)
        rw [balanceDelta_netted kind (amount_ne_zero hscaled hvalid.2.1) hinterest hscaled, hdelta]
      · rw [if_neg hinterest] at h
        obtain ⟨rfl, rfl⟩ := Prod.mk.inj (Except.ok.inj h)
        rw [balanceDelta_burn kind (not_lt.mp hinterest) hscaled, hdelta]

/-! ## Runs -/

/-- After every event the tracked balance is the scaled balance of the contract. -/
theorem track_eq_scaledBalance (kind : TokenKind) {first last : TokenState}
    {events : List TokenEvent} (h : Emits first events last) :
    track kind first.scaledBalance events = .ok (last.scaledBalance : ℤ) := by
  induction h with
  | nil => rfl
  | snoc _ hexecute ih =>
      unfold track at ih ⊢
      rw [List.foldlM_append, ih]
      simp [balanceDelta_execute kind hexecute]

/-- A supply, a withdrawal smaller than the interest since then, and a larger one. -/
theorem track_three_operations :
    ∃ events last, Emits ⟨0, ray⟩ events last ∧ events.length = 3 ∧
      track .aToken 0 events = .ok (last.scaledBalance : ℤ) := by
  have hsupply : TokenState.execute ⟨0, ray⟩ (.mint (10 ^ 20) ray) = .ok _ := rfl
  have hsmall : TokenState.execute ⟨10 ^ 20, ray⟩ (.burn 1000 (2 * ray)) = .ok _ := rfl
  have hlarge : TokenState.execute ⟨10 ^ 20 - 500, 2 * ray⟩ (.burn (2 * 10 ^ 20) (3 * ray)) =
      .ok _ := rfl
  have hrun := ((Emits.nil ⟨0, ray⟩).snoc hsupply).snoc hsmall |>.snoc hlarge
  exact ⟨_, _, hrun, rfl, track_eq_scaledBalance .aToken hrun⟩

end Degenbot.Aave
