import Degenbot.Algorithm.AaveOperations
import Degenbot.Algorithm.AaveProcessors

/-! # `aave/liquidation_patterns.py` and `cli/aave/token_processor.py`: debt events

How the operations of a transaction change the tracked debt. A position is its scaled
balance; the last index, which no modelled function reads, is left out. Handlers of
collateral and of GHO debt are parameters, and so is the enrichment of an event. -/

namespace Degenbot.AaveParser

open WadRayMath

/-! ## Patterns of liquidations -/

inductive LiquidationPattern where
  | single
  | combinedBurn
  | separateBurns
deriving DecidableEq, Repr

/-- Liquidations as `(operation_id, debt_to_cover, log index)`, burns as
`(log index, amount)`. -/
structure LiquidationGroup where
  liquidations : List (ℕ × ℕ × ℕ)
  burnEvents : List (ℕ × ℕ)
deriving DecidableEq

def LiquidationGroup.totalDebtToCover (group : LiquidationGroup) : ℕ :=
  (group.liquidations.map fun liquidation => liquidation.2.1).sum

def LiquidationGroup.detectPattern (group : LiquidationGroup) : LiquidationPattern :=
  if group.liquidations.length = 1 then .single
  else if group.burnEvents.length = 1 then .combinedBurn
  else .separateBurns

/-- The groups, each entry under its user and debt token. -/
structure LiquidationPatternContext where
  liquidations : List ((ℕ × ℕ) × (ℕ × ℕ × ℕ))
  burns : List ((ℕ × ℕ) × (ℕ × ℕ))
deriving DecidableEq

/-- A key without a liquidation has no group. -/
def LiquidationPatternContext.getGroup (context : LiquidationPatternContext)
    (user debtVToken : ℕ) : Option LiquidationGroup :=
  let liquidations := context.liquidations.filter (·.1 = (user, debtVToken))
  if liquidations = [] then none
  else some ⟨liquidations.map Prod.snd,
    (context.burns.filter (·.1 = (user, debtVToken))).map Prod.snd⟩

def LiquidationPatternContext.getPattern (context : LiquidationPatternContext)
    (user debtVToken : ℕ) : Option LiquidationPattern :=
  (context.getGroup user debtVToken).map LiquidationGroup.detectPattern

def OperationType.isLiquidation (operationType : OperationType) : Bool :=
  operationType ∈ [.liquidation, .ghoLiquidation]

/-- The entry of an operation in the first loop of `detect_liquidation_patterns`. -/
def liquidationEntry (market : Market) (op : Operation) :
    Except Exn (Option ((ℕ × ℕ) × (ℕ × ℕ × ℕ))) :=
  if op.operationType.isLiquidation then
    match op.poolEvent with
    | some ⟨logIndex, _, .liquidationCall _ debtAsset user debtToCover⟩ => do
        let debtVToken ← market.getVTokenForAsset debtAsset
        .ok (some ((user, debtVToken), (op.operationId, debtToCover, logIndex)))
    | _ => .ok none
  else .ok none

def detectLiquidationPatterns (market : Market) (operations : List Operation)
    (scaledTokenEvents : List ScaledTokenEvent) : Except Exn LiquidationPatternContext := do
  let entries ← operations.mapM (liquidationEntry market)
  .ok ⟨entries.reduceOption, (scaledTokenEvents.filter isDebtBurn).map fun ev =>
    ((ev.userAddress, ev.event.address), (ev.event.logIndex, ev.amount))⟩

/-! ## Token math and processors -/

/-- `get_token_math_for_token_revision(...).get_debt_burn_scaled_amount(...)` -/
def getDebtBurnScaledAmount (tokenRevision amount borrowIndex : ℕ) : Except Exn ℕ := do
  let tokenMath ← Aave.getTokenMathForTokenRevision tokenRevision
  tokenMath.getDebtBurnScaledAmount amount borrowIndex

/-- What the processor of a revision makes of a burn, as a balance delta. -/
def debtBurnDelta (tokenRevision : ℕ) (event : Aave.BurnEvent) : Except Exn ℤ := do
  let processor ← Aave.getDebtProcessor tokenRevision
  let result ← processor.processBurnEvent event event.scaledAmount
  .ok result.balanceDelta

/-- What the processor of a revision makes of a mint, as a balance delta. -/
def debtMintDelta (tokenRevision : ℕ) (event : Aave.MintEvent) : Except Exn ℤ := do
  let processor ← Aave.getDebtProcessor tokenRevision
  let result ← processor.processMintEvent event event.scaledAmount
  .ok result.balanceDelta

/-! ## Handlers -/

/-- Scaled debt balances by user and debt token. -/
abbrev DebtBalances := ℕ × ℕ → ℤ

def DebtBalances.add (balances : DebtBalances) (key : ℕ × ℕ) (delta : ℤ) : DebtBalances :=
  Function.update balances key (balances key + delta)

/-- What the handlers of debt events rest on: the scaled amount that `enrich` gives, the
delta of the GHO processors, and the handlers of collateral events. -/
structure Handlers where
  enrich : Operation → ScaledTokenEvent → Except Exn (Option ℕ)
  ghoDelta : Operation → ScaledTokenEvent → Except Exn ℤ
  collateral : Operation → ScaledTokenEvent → Except Exn Unit

section Handlers

variable (market : Market) (handlers : Handlers) (events : List Log)
  (patterns : LiquidationPatternContext)

def isGhoVToken (tokenAddress : ℕ) : Bool := market.ghoVTokenAddress = some tokenAddress

def getDebtAsset (tokenAddress : ℕ) : Except Exn AssetRow :=
  assertSome (market.assets.find? (·.vToken = tokenAddress))

/-- The amount of a `Repay` or a `LiquidationCall`. -/
def repaidByPoolEvent (operation : Operation) : Except Exn ℕ := do
  let poolEvent ← assertSome operation.poolEvent
  match poolEvent.data with
  | .repay _ _ amount _ => .ok amount
  | .liquidationCall _ _ _ debtToCover => .ok debtToCover
  | _ => .error (.degenbotValueError "Unsupported debt mint operation type")

/-- The operations in which a mint stands for a burn. -/
def OperationType.repaysDebt (operationType : OperationType) : Bool :=
  operationType ∈ [.ghoLiquidation, .ghoRepay, .liquidation, .repayWithATokens, .repay]

/-- The delta of a mint of a standard debt token. -/
def standardMintDelta (operation : Operation) (ev : ScaledTokenEvent) (scaledAmount : Option ℕ)
    (asset : AssetRow) : Except Exn ℤ := do
  let balanceIncrease ← assertSome ev.balanceIncrease
  let index ← assertSome ev.index
  if operation.operationType.repaysDebt then
    if operation.operationType.isLiquidation ∧
        patterns.getPattern ev.userAddress ev.event.address = some .combinedBurn then .ok 0
    else do
      let repayAmount ← repaidByPoolEvent operation
      let actualScaledBurn ← getDebtBurnScaledAmount asset.vTokenRevision repayAmount index
      debtBurnDelta asset.vTokenRevision
        ⟨actualScaledBurn, balanceIncrease, index, some actualScaledBurn⟩
  else debtMintDelta asset.vTokenRevision ⟨ev.amount, balanceIncrease, index, scaledAmount⟩

/-- The GHO token has processors of its own. -/
def ghoOr (operation : Operation) (ev : ScaledTokenEvent) (standard : Except Exn ℤ) :
    Except Exn ℤ :=
  if isGhoVToken market ev.event.address then handlers.ghoDelta operation ev else standard

def processDebtMintWithMatch (operation : Operation) (ev : ScaledTokenEvent)
    (scaledAmount : Option ℕ) (balances : DebtBalances) : Except Exn DebtBalances := do
  let asset ← getDebtAsset market ev.event.address
  let delta ← ghoOr market handlers operation ev
    (standardMintDelta patterns operation ev scaledAmount asset)
  .ok (balances.add (ev.userAddress, ev.event.address) delta)

def isBadDebtLiquidation (user : ℕ) : Bool :=
  events.any fun event =>
    match event.data with
    | .deficitCreated deficitUser _ => deficitUser = user
    | _ => false

/-- The scaled burn of a liquidation, by its pattern. -/
def liquidationBurn (operation : Operation) (ev : ScaledTokenEvent) (index : ℕ)
    (asset : AssetRow) : Except Exn ℕ :=
  match patterns.getPattern ev.userAddress ev.event.address with
  | some .combinedBurn => do
      let group ← assertSome (patterns.getGroup ev.userAddress ev.event.address)
      getDebtBurnScaledAmount asset.vTokenRevision group.totalDebtToCover index
  | some _ => do
      let debtToCover ← assertSome operation.debtToCover
      getDebtBurnScaledAmount asset.vTokenRevision debtToCover index
  | none => .error (.degenbotValueError "Unsupported liquidation debt burn pattern: None")

/-- The delta of a burn of a standard debt token. -/
def standardBurnDelta (operation : Operation) (ev : ScaledTokenEvent) (scaledAmount : Option ℕ)
    (asset : AssetRow) : Except Exn ℤ := do
  let balanceIncrease ← assertSome ev.balanceIncrease
  let index ← assertSome ev.index
  if operation.operationType.isLiquidation then do
    let burnValue ← liquidationBurn patterns operation ev index asset
    debtBurnDelta asset.vTokenRevision ⟨burnValue, balanceIncrease, index, some burnValue⟩
  else debtBurnDelta asset.vTokenRevision ⟨ev.amount, balanceIncrease, index, scaledAmount⟩

def processDebtBurnWithMatch (operation : Operation) (ev : ScaledTokenEvent)
    (scaledAmount : Option ℕ) (balances : DebtBalances) : Except Exn DebtBalances := do
  let asset ← getDebtAsset market ev.event.address
  if operation.operationType.isLiquidation && isBadDebtLiquidation events ev.userAddress then
    .ok (Function.update balances (ev.userAddress, ev.event.address) 0)
  else do
    let delta ← ghoOr market handlers operation ev
      (standardBurnDelta patterns operation ev scaledAmount asset)
    .ok (balances.add (ev.userAddress, ev.event.address) delta)

/-- One turn of the loop of `_process_operation`. -/
def processScaledEvent (operation : Operation) (balances : DebtBalances) (ev : ScaledTokenEvent) :
    Except Exn DebtBalances := do
  let scaledAmount ← handlers.enrich operation ev
  match ev.eventType with
  | .debtMint | .ghoDebtMint =>
      processDebtMintWithMatch market handlers patterns operation ev scaledAmount balances
  | .debtBurn | .ghoDebtBurn =>
      processDebtBurnWithMatch market handlers events patterns operation ev scaledAmount balances
  | .collateralMint | .collateralBurn | .collateralTransfer | .erc20CollateralTransfer => do
      let _ ← handlers.collateral operation ev
      .ok balances
  | _ => .error (.degenbotValueError "Unsupported scaled token event type")

def processOperation (balances : DebtBalances) (operation : Operation) :
    Except Exn DebtBalances :=
  if operation.operationType = .stkAaveTransfer then .ok balances
  else if operation.operationType = .deficitCoverage then do
    let _ ← operation.scaledTokenEvents.mapM (handlers.collateral operation)
    .ok balances
  else (sortByLogIndex operation.scaledTokenEvents).foldlM
    (processScaledEvent market handlers events patterns operation) balances

end Handlers

/-! ## A transaction -/

/-- `_get_operation_sort_key`; an operation without events raises. -/
def getOperationSortKey (op : Operation) : Except Exn ℕ :=
  match op.poolEvent with
  | some poolEvent => .ok poolEvent.logIndex
  | none => assertSome (op.scaledTokenEvents.map (·.event.logIndex)).min?

def sortOperations (operations : List Operation) : Except Exn (List Operation) := do
  let keyed ← operations.mapM fun op => do
    let key ← getOperationSortKey op
    .ok (key, op)
  .ok ((keyed.insertionSort fun a b => a.1 ≤ b.1).map Prod.snd)

/-- `_process_transaction`, as far as it changes debt balances. -/
def processTransaction (market : Market) (handlers : Handlers) (events : List Log)
    (balances : DebtBalances) : Except Exn DebtBalances := do
  let tx ← parse market events
  let _ ← tx.validate
  let patterns ← detectLiquidationPatterns market tx.operations
    (tx.operations.flatMap Operation.scaledTokenEvents)
  let operations ← sortOperations tx.operations
  operations.foldlM (processOperation market handlers events patterns) balances

end Degenbot.AaveParser
