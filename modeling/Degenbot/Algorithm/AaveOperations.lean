import Degenbot.Algorithm.AaveEvents

/-! # `cli/aave_transaction_operations.py`: operations

`TransactionOperationsParser.parse` and `TransactionOperations.validate`. A set of log
indices is the list of what was added to it. No validator returns an error text, so the
list of validation errors of an operation, which stays empty, is left out. -/

namespace Degenbot.AaveParser

inductive OperationType where
  | supply
  | withdraw
  | borrow
  | repay
  | repayWithATokens
  | liquidation
  | ghoBorrow
  | ghoRepay
  | ghoLiquidation
  | ghoFlashLoan
  | interestAccrual
  | balanceTransfer
  | deficitCoverage
  | mintToTreasury
  | stkAaveTransfer
  | unknown
deriving DecidableEq, Repr

structure Operation where
  operationId : ℕ
  operationType : OperationType
  poolEvent : Option Log
  scaledTokenEvents : List ScaledTokenEvent
  transferEvents : List Log
  balanceTransferEvents : List Log
  mintedToTreasuryAmount : Option ℕ := none
  debtToCover : Option ℕ := none
deriving DecidableEq, Repr

/-- The events of one role that no earlier role has shown. -/
def appendUnseen (events new : List Log) : List Log :=
  events ++ new.filter fun ev => ev.logIndex ∉ events.map Log.logIndex

def Operation.getAllEvents (op : Operation) : List Log :=
  let events := appendUnseen op.poolEvent.toList (op.scaledTokenEvents.map ScaledTokenEvent.event)
  let events := appendUnseen events op.transferEvents
  appendUnseen events op.balanceTransferEvents

def Operation.getEventLogIndices (op : Operation) : List ℕ := op.getAllEvents.map Log.logIndex

/-- `ev.event["logIndex"] not in assigned_indices` -/
def ScaledTokenEvent.unassigned (assigned : List ℕ) (ev : ScaledTokenEvent) : Bool :=
  ev.event.logIndex ∉ assigned

section Builders

variable (market : Market) (scaledEvents : List ScaledTokenEvent) (assigned : List ℕ)

/-! ## Supply and withdraw -/

def isSupplyMint (expectedAToken onBehalfOf supplyAmount : ℕ) (ev : ScaledTokenEvent) : Bool :=
  ev.eventType = .collateralMint ∧ ev.event.address = expectedAToken ∧
    ev.userAddress = onBehalfOf ∧
    ev.balanceIncrease.any fun balanceIncrease =>
      amountsMatch ((ev.amount : ℤ) - balanceIncrease) supplyAmount market.poolRevision

def isSupplyTransfer (onBehalfOf mintAmount : ℕ) (ev : ScaledTokenEvent) : Bool :=
  ev.fromAddress = some zeroAddress ∧ ev.targetAddress = some onBehalfOf ∧
    ev.eventType ∈ [.collateralTransfer, .erc20CollateralTransfer] ∧ ev.amount = mintAmount

def createSupplyOperation (operationId : ℕ) (supplyEvent : Log)
    (reserve onBehalfOf supplyAmount : ℕ) : Except Exn Operation := do
  let expectedAToken ← market.getATokenForAsset reserve
  let collateralMint ← assertSome (scaledEvents.find? fun ev =>
    ev.unassigned assigned && isSupplyMint market expectedAToken onBehalfOf supplyAmount ev)
  let transfer ← assertSome (scaledEvents.find? fun ev =>
    ev.unassigned assigned && isSupplyTransfer onBehalfOf collateralMint.amount ev)
  .ok { operationId, operationType := .supply, poolEvent := some supplyEvent,
        scaledTokenEvents := [collateralMint], transferEvents := [transfer.event],
        balanceTransferEvents := [] }

def isWithdrawBurn (expectedAToken user withdrawAmount : ℕ) (ev : ScaledTokenEvent) : Bool :=
  ev.eventType = .collateralBurn ∧ ev.event.address = expectedAToken ∧ ev.userAddress = user ∧
    ev.balanceIncrease.any fun balanceIncrease =>
      amountsMatch ((ev.amount : ℤ) + balanceIncrease) withdrawAmount market.poolRevision

/-- Neither the user nor the amount is compared. -/
def isWithdrawMint (expectedAToken : ℕ) (ev : ScaledTokenEvent) : Bool :=
  ev.eventType = .collateralMint ∧ ev.event.address = expectedAToken

def isWithdrawTransfer (expectedAToken : ℕ) (ev : ScaledTokenEvent) : Bool :=
  ev.eventType ∈ [.collateralTransfer, .erc20CollateralTransfer] ∧
    ev.event.address = expectedAToken

def withdrawOperation (operationId : ℕ) (withdrawEvent : Log) (adjustment : ScaledTokenEvent)
    (transfer : ScaledTokenEvent) : Operation :=
  { operationId, operationType := .withdraw, poolEvent := some withdrawEvent,
    scaledTokenEvents := [adjustment], transferEvents := [transfer.event],
    balanceTransferEvents := [] }

def createWithdrawOperation (operationId : ℕ) (withdrawEvent : Log)
    (reserve user withdrawAmount : ℕ) : Except Exn Operation := do
  let expectedAToken ← market.getATokenForAsset reserve
  match scaledEvents.find? fun ev =>
    ev.unassigned assigned && isWithdrawBurn market expectedAToken user withdrawAmount ev with
  | some collateralBurn =>
      let transfer ← assertSome (scaledEvents.find? fun ev =>
        ev.unassigned assigned && isWithdrawTransfer expectedAToken ev &&
          ev.targetAddress = some zeroAddress)
      .ok (withdrawOperation operationId withdrawEvent collateralBurn transfer)
  | none =>
      let interestMint ← assertSome (scaledEvents.find? fun ev =>
        ev.unassigned assigned && isWithdrawMint expectedAToken ev)
      let transfer ← assertSome (scaledEvents.find? fun ev =>
        ev.unassigned assigned && isWithdrawTransfer expectedAToken ev)
      .ok (withdrawOperation operationId withdrawEvent interestMint transfer)

/-! ## Borrow -/

def isBorrowMint (isGho : Bool) (onBehalfOf : ℕ) (ev : ScaledTokenEvent) : Bool :=
  ev.userAddress = onBehalfOf ∧ ev.eventType = if isGho then .ghoDebtMint else .debtMint

/-- The reserve of the debt token is looked up and not compared. -/
def matchesBorrow (borrowAmount : ℕ) (ev : ScaledTokenEvent) : Except Exn Bool := do
  let _ ← market.getReserveForDebtToken ev.event.address
  .ok (ev.balanceIncrease.any fun balanceIncrease =>
    amountsMatch ((ev.amount : ℤ) - balanceIncrease) borrowAmount market.poolRevision)

def createBorrowOperation (operationId : ℕ) (borrowEvent : Log)
    (reserve onBehalfOf borrowAmount : ℕ) : Except Exn Operation := do
  let isGho : Bool := reserve = market.ghoTokenAddress
  let debtMint ← scaledEvents.findM? fun ev =>
    if ev.unassigned assigned && isBorrowMint isGho onBehalfOf ev then
      matchesBorrow market borrowAmount ev
    else .ok false
  let debtMint ← assertSome debtMint
  let transfer ← assertSome (scaledEvents.find? fun ev =>
    ev.unassigned assigned && ev.fromAddress = some zeroAddress &&
      ev.targetAddress = some onBehalfOf && ev.amount = debtMint.amount)
  let _ ← assertThat (transfer.eventType ∈ [.debtTransfer, .erc20DebtTransfer, .ghoDebtTransfer])
  .ok { operationId, operationType := if isGho then .ghoBorrow else .borrow,
        poolEvent := some borrowEvent, scaledTokenEvents := [debtMint],
        transferEvents := [transfer.event], balanceTransferEvents := [] }

/-! ## Repay -/

def isPrincipalRepay (isGho : Bool) (ev : ScaledTokenEvent) : Bool :=
  ev.eventType ∈ if isGho then [ScaledTokenEventType.ghoDebtBurn, .ghoDebtMint]
    else [.debtBurn, .debtMint]

/-- The amount repaid by a burn, or by a mint of the interest that was not repaid. -/
def repaidAmount (ev : ScaledTokenEvent) (balanceIncrease : ℕ) : ℤ :=
  if ev.isBurn then (ev.amount : ℤ) + balanceIncrease else (balanceIncrease : ℤ) - ev.amount

/-- As in `matchesBorrow`, the reserve is not compared. -/
def matchesRepay (repayAmount : ℕ) (ev : ScaledTokenEvent) : Except Exn Bool := do
  let _ ← market.getReserveForDebtToken ev.event.address
  let balanceIncrease ← assertSome ev.balanceIncrease
  .ok (amountsMatch (repaidAmount ev balanceIncrease) repayAmount market.poolRevision)

def findPrincipalRepayEvent (repayAmount : ℕ) (isGho : Bool) :
    Except Exn ScaledTokenEvent := do
  let principal ← scaledEvents.findM? fun ev =>
    if ev.unassigned assigned && isPrincipalRepay isGho ev then matchesRepay market repayAmount ev
    else .ok false
  match principal with
  | some ev => .ok ev
  | none => .error (.degenbotValueError
      "No matching debt adjustment event found for repay operation.")

/-- The token that emitted the event is not compared. -/
def isCollateralAdjustment (user expectedAmount : ℕ) (ev : ScaledTokenEvent) : Bool :=
  ev.eventType ∈ [.collateralBurn, .collateralMint] ∧ ev.userAddress = user ∧
    ev.balanceIncrease.any fun balanceIncrease =>
      amountsMatch (repaidAmount ev balanceIncrease) expectedAmount market.poolRevision

def findCollateralAdjustmentEvent (user reserve expectedAmount : ℕ) :
    Except Exn ScaledTokenEvent := do
  let _ ← market.getATokenForAsset reserve
  match scaledEvents.find? fun ev =>
    ev.unassigned assigned && isCollateralAdjustment market user expectedAmount ev with
  | some ev => .ok ev
  | none => .error (.degenbotValueError
      "No matching collateral adjustment event found for repay-with-aTokens operation.")

def findDebtTransferToZero (user amount : ℕ) : List Log :=
  (scaledEvents.find? fun ev =>
    ev.unassigned assigned &&
      ev.eventType ∈ [.debtTransfer, .erc20DebtTransfer, .ghoDebtTransfer] &&
      ev.fromAddress = some user && ev.amount = amount).toList.map ScaledTokenEvent.event

def createStandardRepayOperation (operationId : ℕ) (repayEvent : Log) (user repayAmount : ℕ)
    (isGho : Bool) : Except Exn Operation := do
  let principal ← findPrincipalRepayEvent market scaledEvents assigned repayAmount isGho
  .ok { operationId, operationType := if isGho then .ghoRepay else .repay,
        poolEvent := some repayEvent, scaledTokenEvents := [principal],
        transferEvents := findDebtTransferToZero scaledEvents assigned user principal.amount,
        balanceTransferEvents := [] }

def createRepayWithATokensOperation (operationId : ℕ) (repayEvent : Log)
    (reserve user repayAmount : ℕ) : Except Exn Operation := do
  let principal ← findPrincipalRepayEvent market scaledEvents assigned repayAmount false
  let adjustment ←
    findCollateralAdjustmentEvent market scaledEvents assigned user reserve repayAmount
  .ok { operationId, operationType := .repayWithATokens, poolEvent := some repayEvent,
        scaledTokenEvents := [principal, adjustment], transferEvents := [],
        balanceTransferEvents := [] }

def createRepayOperation (operationId : ℕ) (repayEvent : Log) (reserve user repayAmount : ℕ)
    (useATokens : Bool) : Except Exn Operation :=
  let isGho : Bool := reserve = market.ghoTokenAddress
  if useATokens then do
    let _ ← assertThat !isGho
    createRepayWithATokensOperation market scaledEvents assigned operationId repayEvent reserve
      user repayAmount
  else
    createStandardRepayOperation market scaledEvents assigned operationId repayEvent user
      repayAmount isGho

/-! ## Liquidation -/

/-- The user and the debt asset of a `LiquidationCall`. -/
def Log.liquidation? (log : Log) : Option (ℕ × ℕ) :=
  match log.data with
  | .liquidationCall _ debtAsset user _ => some (user, debtAsset)
  | _ => none

/-- The keys that are counted, one for each liquidation. -/
def analyzeLiquidationScenarios (allEvents : List Log) : Except Exn (List (ℕ × ℕ)) :=
  (allEvents.filterMap Log.liquidation?).mapM fun key => do
    let vTokenAddress ← market.getVTokenForAsset key.2
    .ok (key.1, vTokenAddress)

/-- `counts.get(key, 1)` -/
def countOrOne {α : Type} [DecidableEq α] (keys : List α) (key : α) : ℕ :=
  if key ∈ keys then keys.count key else 1

def analyzeUserLiquidationCount (allEvents : List Log) : List ℕ :=
  (allEvents.filterMap Log.liquidation?).map Prod.fst

/-- Liquidations of the same user and debt asset that come earlier. -/
def liquidationPosition (allEvents : List Log) (liquidationEvent : Log) (user debtAsset : ℕ) : ℕ :=
  allEvents.countP fun ev =>
    ev.liquidation? = some (user, debtAsset) && ev.logIndex < liquidationEvent.logIndex

def isDebtBurn (ev : ScaledTokenEvent) : Bool := ev.eventType ∈ [.debtBurn, .ghoDebtBurn]

/-- Adds the log index of each burn, and its liquidity index. -/
def assignBurns (burns : List ScaledTokenEvent) : Except Exn (List ℕ) :=
  burns.foldlM
    (fun assigned ev => do
      let index ← assertSome ev.index
      let _ ← assertThat (index > 0)
      .ok (assigned ++ [ev.event.logIndex, index]))
    assigned

def collectDebtBurns (user debtVTokenAddress : ℕ) (liquidationAnalysis : List (ℕ × ℕ))
    (userLiquidationCount position : ℕ) : Except Exn (List ScaledTokenEvent × List ℕ) :=
  if userLiquidationCount = 1 then do
    let candidateBurns := sortByLogIndex (scaledEvents.filter fun ev =>
      ev.unassigned assigned && ev.userAddress = user && isDebtBurn ev)
    let assigned ← assignBurns assigned candidateBurns
    .ok (candidateBurns, assigned)
  else
    let liquidationCount := countOrOne liquidationAnalysis (user, debtVTokenAddress)
    let allBurns := sortByLogIndex (scaledEvents.filter fun ev =>
      ev.userAddress = user && isDebtBurn ev && ev.event.address = debtVTokenAddress)
    let candidateBurns := allBurns.filter (ScaledTokenEvent.unassigned assigned)
    if liquidationCount > 1 ∧ candidateBurns ≠ [] then do
      let _ ← assertThat (liquidationCount ≥ allBurns.length)
      if liquidationCount = allBurns.length then do
        let targetBurn ← assertSome allBurns[position]?
        let _ ← assertThat (targetBurn.unassigned assigned)
        let assigned ← assignBurns assigned [targetBurn]
        .ok ([targetBurn], assigned)
      else if position = 0 then do
        let assigned ← assignBurns assigned candidateBurns
        .ok (candidateBurns, assigned)
      else .ok ([], assigned)
    else do
      let assigned ← assignBurns assigned candidateBurns
      .ok (candidateBurns, assigned)

/-- The last burn of the loop is kept, and every transfer. -/
def collectCollateralEvents (user collateralATokenAddress : ℕ) :
    Option ScaledTokenEvent × List ScaledTokenEvent :=
  let candidates := scaledEvents.filter fun ev =>
    ev.unassigned assigned && ev.event.address = collateralATokenAddress && ev.userAddress = user
  ((candidates.filter fun ev => ev.eventType = .collateralBurn).getLast?,
    candidates.filter fun ev => ev.eventType ∈ [.collateralTransfer, .erc20CollateralTransfer])

/-- Fails on a mint of another debt token, and on one that covers the interest. -/
def findLiquidationMint (user debtVTokenAddress : ℕ) (isGho : Bool) :
    Except Exn (Option ScaledTokenEvent) :=
  match scaledEvents.find? fun ev =>
    ev.unassigned assigned && ev.userAddress = user &&
      ev.eventType = if isGho then .ghoDebtMint else .debtMint with
  | none => .ok none
  | some ev => do
      let _ ← assertThat (ev.event.address = debtVTokenAddress)
      let balanceIncrease ← assertSome ev.balanceIncrease
      let _ ← assertThat (balanceIncrease > ev.amount)
      .ok (some ev)

def createLiquidationOperation (operationId : ℕ) (liquidationEvent : Log) (allEvents : List Log)
    (collateralAsset debtAsset user debtToCover : ℕ) : Except Exn (Operation × List ℕ) := do
  let isGho : Bool := debtAsset = market.ghoTokenAddress
  let collateralATokenAddress ← market.getATokenForAsset collateralAsset
  let debtVTokenAddress ← market.getVTokenForAsset debtAsset
  let liquidationAnalysis ← analyzeLiquidationScenarios market allEvents
  let (debtBurns, assigned) ← collectDebtBurns scaledEvents assigned user debtVTokenAddress
    liquidationAnalysis (countOrOne (analyzeUserLiquidationCount allEvents) user)
    (liquidationPosition allEvents liquidationEvent user debtAsset)
  let (collateralBurn, collateralTransfers) :=
    collectCollateralEvents scaledEvents assigned user collateralATokenAddress
  let _ ← assertThat (collateralBurn.isSome || collateralTransfers ≠ [])
  let debtMint ← findLiquidationMint scaledEvents assigned user debtVTokenAddress isGho
  .ok ({ operationId, operationType := if isGho then .ghoLiquidation else .liquidation,
         poolEvent := some liquidationEvent,
         scaledTokenEvents := collateralBurn.toList ++ debtBurns ++ debtMint.toList ++
           collateralTransfers,
         transferEvents := [],
         balanceTransferEvents :=
           (collateralTransfers.filter fun ev => ev.index.any (· > 0)).map ScaledTokenEvent.event,
         debtToCover := some debtToCover }, assigned)

/-- Both branches of the source give `UNKNOWN`. -/
def createDeficitOperation (operationId : ℕ) (deficitEvent : Log) : Operation :=
  { operationId, operationType := .unknown, poolEvent := some deficitEvent,
    scaledTokenEvents := [], transferEvents := [], balanceTransferEvents := [] }

/-- The operation of a pool event, and the set of assigned indices as the builder leaves
it. -/
def createOperationFromPoolEvent (operationId : ℕ) (poolEvent : Log) (allEvents : List Log) :
    Except Exn (Operation × List ℕ) :=
  match poolEvent.data with
  | .supply reserve onBehalfOf amount =>
      (createSupplyOperation market scaledEvents assigned operationId poolEvent reserve
        onBehalfOf amount).map (·, assigned)
  | .withdraw reserve user amount =>
      (createWithdrawOperation market scaledEvents assigned operationId poolEvent reserve user
        amount).map (·, assigned)
  | .borrow reserve onBehalfOf amount =>
      (createBorrowOperation market scaledEvents assigned operationId poolEvent reserve
        onBehalfOf amount).map (·, assigned)
  | .repay reserve user amount useATokens =>
      (createRepayOperation market scaledEvents assigned operationId poolEvent reserve user
        amount useATokens).map (·, assigned)
  | .liquidationCall collateralAsset debtAsset user debtToCover =>
      createLiquidationOperation market scaledEvents assigned operationId poolEvent allEvents
        collateralAsset debtAsset user debtToCover
  | .deficitCreated _ _ => .ok (createDeficitOperation operationId poolEvent, assigned)
  | _ => .error (.degenbotValueError "Unsupported Aave pool event topic")

end Builders

/-! ## Operations without a pool event -/

section Passes

variable (market : Market) (scaledEvents : List ScaledTokenEvent) (startingOperationId : ℕ)

/-- The operations built so far, and the log indices that are taken. -/
structure Progress where
  operations : List Operation
  assigned : List ℕ
deriving DecidableEq

/-! ### Mints to the treasury -/

def isTreasuryMint (ev : ScaledTokenEvent) : Bool :=
  ev.eventType = .collateralMint ∧ ev.callerAddress = some market.poolAddress

/-- The amount of the first `MintedToTreasury` of the reserve. -/
def mintedToTreasuryAmount (mintedToTreasuryEvents : List Log) (underlyingAddr : ℕ) : Option ℕ :=
  mintedToTreasuryEvents.findSome? fun event =>
    match event.data with
    | .mintedToTreasury reserve amount => if reserve = underlyingAddr then some amount else none
    | _ => none

/-- One turn of `_create_mint_to_treasury_operations`. A mint of interest is only marked as
assigned. -/
def mintToTreasuryStep (mintedToTreasuryEvents : List Log) (state : Progress)
    (ev : ScaledTokenEvent) : Except Exn Progress :=
  if ev.unassigned state.assigned && isTreasuryMint market ev then
    if ev.balanceIncrease = some ev.amount then
      .ok { state with assigned := state.assigned ++ [ev.event.logIndex] }
    else do
      let asset ← assertSome (market.getAssetByAToken ev.event.address)
      let operation : Operation :=
        { operationId := startingOperationId + state.operations.length, operationType := .mintToTreasury,
          poolEvent := none, scaledTokenEvents := [ev], transferEvents := [],
          balanceTransferEvents := [],
          mintedToTreasuryAmount :=
            mintedToTreasuryAmount mintedToTreasuryEvents asset.underlyingToken }
      .ok { state with operations := state.operations ++ [operation] }
  else .ok state

def createMintToTreasuryOperations (assigned : List ℕ) (mintedToTreasuryEvents : List Log) :
    Except Exn Progress :=
  scaledEvents.foldlM (mintToTreasuryStep market startingOperationId mintedToTreasuryEvents)
    ⟨[], assigned⟩

/-! ### Deficit coverage -/

/-- Operations of a pass share the assigned set that the pass started with; what they take
is added when it ends. -/
structure LocalProgress where
  operations : List Operation
  localAssigned : List ℕ
deriving DecidableEq

def isPairedBurn (transfer ev : ScaledTokenEvent) : Bool :=
  ev.eventType = .collateralBurn ∧ some ev.userAddress = transfer.targetAddress ∧
    ev.event.address = transfer.event.address

/-- One turn of `_create_deficit_coverage_operations`, for a transfer of the list collected
first. -/
def deficitCoverageStep (assigned : List ℕ) (state : LocalProgress) (btEv : ScaledTokenEvent) :
    Except Exn LocalProgress := do
  let _ ← assertSome btEv.targetAddress
  match scaledEvents.find? fun ev =>
    ev.unassigned (assigned ++ state.localAssigned) && isPairedBurn btEv ev with
  | none => .ok state
  | some pairedBurn =>
      let _ ← assertThat (btEv.eventType = .erc20CollateralTransfer)
      let balanceTransfer := (scaledEvents.find? fun ev =>
        ev.unassigned (assigned ++ state.localAssigned) && ev.eventType = .collateralTransfer &&
          ev.fromAddress = btEv.fromAddress).toList
      let pairedEvents := btEv :: (balanceTransfer ++ [pairedBurn])
      let operation : Operation :=
        { operationId := startingOperationId + state.operations.length, operationType := .deficitCoverage,
          poolEvent := none, scaledTokenEvents := pairedEvents, transferEvents := [],
          balanceTransferEvents :=
            (pairedEvents.filter fun ev => ev.eventType = .collateralTransfer).map
              ScaledTokenEvent.event }
      .ok { operations := state.operations ++ [operation],
            localAssigned := state.localAssigned ++
              balanceTransfer.map (·.event.logIndex) ++
              [btEv.event.logIndex, pairedBurn.event.logIndex] }

def createDeficitCoverageOperations (assigned : List ℕ) : Except Exn Progress := do
  let balanceTransfers := scaledEvents.filter fun ev =>
    ev.unassigned assigned && ev.eventType ∈ [.collateralTransfer, .erc20CollateralTransfer]
  let state ← balanceTransfers.foldlM
    (deficitCoverageStep scaledEvents startingOperationId assigned) ⟨[], []⟩
  .ok ⟨state.operations, assigned ++ state.localAssigned⟩

/-! ### Interest accrual -/

def isAccruedMint (ev : ScaledTokenEvent) : Bool :=
  ev.eventType ∈ [.collateralMint, .debtMint, .ghoDebtMint]

def isAccrualTransfer (mint ev : ScaledTokenEvent) : Bool :=
  ev.eventType ∈ [.collateralTransfer, .erc20CollateralTransfer] ∧
    ev.fromAddress = some zeroAddress ∧ ev.targetAddress = some mint.userAddress ∧
    ev.event.address = mint.event.address ∧ ev.amount ≤ mint.amount

/-- One turn of `_create_interest_accrual_operations`. -/
def interestAccrualStep (assigned : List ℕ) (state : LocalProgress) (ev : ScaledTokenEvent) :
    LocalProgress :=
  if ev.unassigned (assigned ++ state.localAssigned) && isAccruedMint ev then
    let transfer := (scaledEvents.find? fun transferEv =>
      isAccrualTransfer ev transferEv &&
        transferEv.unassigned (assigned ++ state.localAssigned)).toList
    let operation : Operation :=
      { operationId := startingOperationId + state.operations.length, operationType := .interestAccrual,
        poolEvent := none, scaledTokenEvents := [ev],
        transferEvents := transfer.map ScaledTokenEvent.event, balanceTransferEvents := [] }
    { operations := state.operations ++ [operation],
      localAssigned := state.localAssigned ++ transfer.map (·.event.logIndex) }
  else state

def createInterestAccrualOperations (assigned : List ℕ) : List Operation :=
  (scaledEvents.foldl (interestAccrualStep scaledEvents startingOperationId assigned)
    ⟨[], []⟩).operations

/-! ### Transfers -/

def isPartOfBurn (ev : ScaledTokenEvent) : Bool :=
  scaledEvents.any fun other =>
    other.eventType ∈ [.debtBurn, .collateralBurn, .ghoDebtBurn] &&
      some other.userAddress = ev.fromAddress && other.event.address = ev.event.address

def isPartOfMint (ev : ScaledTokenEvent) : Bool :=
  scaledEvents.any fun other =>
    other.eventType ∈ [.collateralMint, .debtMint, .ghoDebtMint] &&
      some other.userAddress = ev.targetAddress && other.event.address = ev.event.address

def isMatchingBalanceTransfer (transfer ev : ScaledTokenEvent) : Bool :=
  ev.index.isSome && ev.fromAddress = transfer.fromAddress &&
    ev.targetAddress = transfer.targetAddress && ev.event.address = transfer.event.address &&
    areCompatibleTransferTypes ev transfer

/-- One turn of `_process_erc20_transfers`. -/
def transferStep (assigned : List ℕ) (state : LocalProgress) (ev : ScaledTokenEvent) :
    Except Exn LocalProgress :=
  if ev.unassigned (assigned ++ state.localAssigned) then do
    let _ ← assertThat (ev.eventType ∈ [.collateralTransfer, .debtTransfer, .discountTransfer,
      .erc20CollateralTransfer, .erc20DebtTransfer, .ghoDebtTransfer])
    let _ ← assertThat ev.index.isNone
    if (ev.targetAddress = some zeroAddress && isPartOfBurn scaledEvents ev) ||
        (ev.fromAddress = some zeroAddress && isPartOfMint scaledEvents ev) then
      .ok { state with localAssigned := state.localAssigned ++ [ev.event.logIndex] }
    else
      let balanceTransfer := (scaledEvents.find? fun btEv =>
        btEv.unassigned (assigned ++ state.localAssigned) &&
          isMatchingBalanceTransfer ev btEv).toList
      let operation : Operation :=
        { operationId := startingOperationId + state.operations.length,
          operationType :=
            if ev.eventType = .discountTransfer then .stkAaveTransfer else .balanceTransfer,
          poolEvent := none, scaledTokenEvents := [ev], transferEvents := [],
          balanceTransferEvents := balanceTransfer.map ScaledTokenEvent.event }
      .ok { operations := state.operations ++ [operation],
            localAssigned := state.localAssigned ++ balanceTransfer.map (·.event.logIndex) }
  else .ok state

def createTransferOperations (assigned : List ℕ) : Except Exn Progress := do
  let state ← scaledEvents.foldlM (transferStep scaledEvents startingOperationId assigned)
    ⟨[], []⟩
  .ok ⟨state.operations, assigned ++ state.localAssigned⟩

end Passes

/-! ## Validation of an operation -/

def assertPoolEvent (op : Operation) (present : Bool) : Except Exn Unit :=
  assertThat (op.poolEvent.isSome = present)

def assertOneEvent (op : Operation) : Except Exn Unit :=
  assertThat (op.scaledTokenEvents.length = 1)

def validateSupply (op : Operation) : Except Exn Unit := do
  let _ ← assertPoolEvent op true
  assertThat ((op.scaledTokenEvents.filter (·.isCollateral)).length = 1)

def validateWithdraw (op : Operation) : Except Exn Unit := do
  let _ ← assertPoolEvent op true
  assertThat ((op.scaledTokenEvents.filter fun ev => ev.isCollateral && ev.isBurn).length ≤ 1)

/-- `_validate_borrow` and `_validate_repay`. -/
def validateDebt (op : Operation) : Except Exn Unit := do
  let _ ← assertPoolEvent op true
  assertThat ((op.scaledTokenEvents.filter (·.isDebt)).length = 1)

def validateGhoBorrow (op : Operation) : Except Exn Unit := do
  let _ ← validateDebt op
  assertThat ((op.scaledTokenEvents.filter (·.eventType = .ghoDebtMint)).length = 1)

def validateRepayWithATokens (op : Operation) : Except Exn Unit := do
  let _ ← validateDebt op
  assertThat ((op.scaledTokenEvents.filter fun ev => ev.isCollateral && ev.isBurn).length ≤ 1)

def validateGhoRepay (op : Operation) : Except Exn Unit := do
  let _ ← validateDebt op
  assertThat ((op.scaledTokenEvents.filter
    (·.eventType ∈ [.ghoDebtBurn, .ghoDebtMint])).length = 1)

def validateLiquidation (op : Operation) : Except Exn Unit := do
  let _ ← assertPoolEvent op true
  assertThat (op.scaledTokenEvents.any (·.isCollateral))

def validateInterestAccrual (op : Operation) : Except Exn Unit := do
  let _ ← assertPoolEvent op false
  assertOneEvent op

def validateBalanceTransfer (op : Operation) : Except Exn Unit := do
  let _ ← assertPoolEvent op false
  let _ ← assertOneEvent op
  assertThat (op.scaledTokenEvents.all (·.eventType ∈ [.collateralTransfer,
    .erc20CollateralTransfer, .debtTransfer, .erc20DebtTransfer, .ghoDebtTransfer]))

/-- An operation without events raises on the subscript. -/
def validateDeficitCoverage (op : Operation) : Except Exn Unit := do
  let _ ← assertPoolEvent op false
  match op.scaledTokenEvents.head?, op.scaledTokenEvents.getLast? with
  | some firstEv, some lastEv => do
      let _ ← assertThat (firstEv.eventType ∈ [.collateralTransfer, .erc20CollateralTransfer])
      let _ ← assertThat (lastEv.eventType = .collateralBurn)
      let _ ← assertThat (firstEv.event.address = lastEv.event.address)
      assertThat (some lastEv.userAddress = firstEv.targetAddress)
  | _, _ => .error .indexError

def validateMintToTreasury (op : Operation) : Except Exn Unit := do
  let _ ← assertPoolEvent op false
  let _ ← assertOneEvent op
  assertThat (op.scaledTokenEvents.all (·.eventType = .collateralMint))

def validateStkAaveTransfer (op : Operation) : Except Exn Unit := do
  let _ ← assertPoolEvent op false
  let _ ← assertOneEvent op
  assertThat (op.scaledTokenEvents.all (·.eventType = .discountTransfer))

def validateOperation (op : Operation) : Except Exn Unit :=
  match op.operationType with
  | .supply => validateSupply op
  | .withdraw => validateWithdraw op
  | .borrow | .repay => validateDebt op
  | .ghoBorrow => validateGhoBorrow op
  | .repayWithATokens => validateRepayWithATokens op
  | .ghoRepay => validateGhoRepay op
  | .liquidation | .ghoLiquidation => validateLiquidation op
  | .interestAccrual => validateInterestAccrual op
  | .deficitCoverage => validateDeficitCoverage op
  | .balanceTransfer => validateBalanceTransfer op
  | .mintToTreasury => validateMintToTreasury op
  | .stkAaveTransfer => validateStkAaveTransfer op
  | .unknown => .ok ()
  | .ghoFlashLoan => .error (.degenbotValueError
      "Unsupported operation type: OperationType.GHO_FLASH_LOAN")

/-! ## Parsing -/

section Parse

variable (market : Market) (events : List Log) (scaledEvents : List ScaledTokenEvent)

def poolEventStep (state : Progress) (poolEvent : Log) : Except Exn Progress := do
  let (operation, assigned) ← createOperationFromPoolEvent market scaledEvents state.assigned
    state.operations.length poolEvent events
  .ok ⟨state.operations ++ [operation], assigned ++ operation.getEventLogIndices⟩

/-- `ev.event["logIndex"] for op in ops for ev in op.scaled_token_events` -/
def scaledLogIndices (operations : List Operation) : List ℕ :=
  operations.flatMap fun op => op.scaledTokenEvents.map (·.event.logIndex)

def transferLogIndices (operations : List Operation) : List ℕ :=
  operations.flatMap fun op => op.transferEvents.map Log.logIndex

def poolEventPass : Except Exn Progress :=
  (extractPoolEvents events).foldlM (poolEventStep market events scaledEvents) ⟨[], []⟩

def mintToTreasuryPass (state : Progress) : Except Exn Progress := do
  let minted := events.filter fun event =>
    match event.data with
    | .mintedToTreasury .. => true
    | _ => false
  let result ← createMintToTreasuryOperations market scaledEvents state.operations.length
    state.assigned minted
  .ok ⟨state.operations ++ result.operations,
    result.assigned ++ scaledLogIndices result.operations⟩

def deficitCoveragePass (state : Progress) : Except Exn Progress := do
  let result ← createDeficitCoverageOperations scaledEvents state.operations.length state.assigned
  .ok ⟨state.operations ++ result.operations,
    result.assigned ++ scaledLogIndices result.operations⟩

def interestAccrualPass (state : Progress) : Progress :=
  let operations :=
    createInterestAccrualOperations scaledEvents state.operations.length state.assigned
  ⟨state.operations ++ operations,
    state.assigned ++ scaledLogIndices operations ++ transferLogIndices operations⟩

def transferPass (state : Progress) : Except Exn Progress := do
  let result ← createTransferOperations scaledEvents state.operations.length state.assigned
  .ok ⟨state.operations ++ result.operations, result.assigned⟩

end Parse

structure TransactionOperations where
  operations : List Operation
  unassignedEvents : List Log
deriving DecidableEq

/-- The passes of `parse`, before the operations are validated. -/
def runPasses (market : Market) (events : List Log) (scaledEvents : List ScaledTokenEvent) :
    Except Exn Progress := do
  let state ← poolEventPass market events scaledEvents
  let state ← mintToTreasuryPass market events scaledEvents state
  let state ← deficitCoveragePass scaledEvents state
  transferPass scaledEvents (interestAccrualPass scaledEvents state)

def parse (market : Market) (events : List Log) : Except Exn TransactionOperations := do
  let _ ← assertThat (events ≠ [])
  let scaledEvents ← extractScaledTokenEvents market events
  let state ← runPasses market events scaledEvents
  let _ ← state.operations.mapM validateOperation
  .ok ⟨state.operations,
    events.filter fun event => event.logIndex ∉ state.assigned && !event.isTransfer⟩

/-! ## Validation of a transaction -/

/-- The log indices of more than one operation, each with the operations that claim it. -/
def ambiguousAssignments : List (ℕ × ℕ) → List (ℕ × ℕ) → List (ℕ × ℕ × ℕ)
  | _, [] => []
  | seen, (logIdx, operationId) :: rest =>
      let errors := ambiguousAssignments ((logIdx, operationId) :: seen) rest
      match seen.lookup logIdx with
      | some other => (logIdx, other, operationId) :: errors
      | none => errors

def TransactionOperations.validate (tx : TransactionOperations) : Except Exn Unit := do
  let _ ← assertThat !(tx.unassignedEvents.any Log.isPoolEvent)
  let _ ← assertThat !(tx.unassignedEvents.any Log.isScaledTokenEvent)
  let allErrors := ambiguousAssignments [] (tx.operations.flatMap fun op =>
    op.getEventLogIndices.map (·, op.operationId))
  if allErrors = [] then .ok () else .error .validationError

end Degenbot.AaveParser
