import Degenbot.Verification.AaveOperations.Events

/-! # What the builders of a pool event return

`PoolOperation` says once what each builder can return, with the searches that led to it. -/

namespace Degenbot.AaveParser

open Library

/-! ## Operations of pool events -/

section Inversion

variable (market : Market) (scaledEvents : List ScaledTokenEvent) (assigned : List ℕ)
  (operationId : ℕ) (poolEvent : Log) (allEvents : List Log)

/-- The operation of a pool event and the assigned set that its builder leaves. -/
inductive PoolOperation : Operation → List ℕ → Prop where
  | supply {reserve onBehalfOf amount aToken : ℕ} {mint transfer : ScaledTokenEvent}
      (hdata : poolEvent.data = .supply reserve onBehalfOf amount)
      (haToken : market.getATokenForAsset reserve = .ok aToken)
      (hmint : scaledEvents.find? (fun ev => ev.unassigned assigned &&
        isSupplyMint market aToken onBehalfOf amount ev) = some mint)
      (htransfer : scaledEvents.find? (fun ev => ev.unassigned assigned &&
        isSupplyTransfer onBehalfOf mint.amount ev) = some transfer) :
      PoolOperation
        { operationId, operationType := .supply, poolEvent := some poolEvent,
          scaledTokenEvents := [mint], transferEvents := [transfer.event],
          balanceTransferEvents := [] } assigned
  | withdrawBurn {reserve user amount aToken : ℕ} {burn transfer : ScaledTokenEvent}
      (hdata : poolEvent.data = .withdraw reserve user amount)
      (haToken : market.getATokenForAsset reserve = .ok aToken)
      (hburn : scaledEvents.find? (fun ev => ev.unassigned assigned &&
        isWithdrawBurn market aToken user amount ev) = some burn)
      (htransfer : scaledEvents.find? (fun ev => ev.unassigned assigned &&
        isWithdrawTransfer aToken ev && ev.targetAddress = some zeroAddress) = some transfer) :
      PoolOperation (withdrawOperation operationId poolEvent burn transfer) assigned
  | withdrawMint {reserve user amount aToken : ℕ} {mint transfer : ScaledTokenEvent}
      (hdata : poolEvent.data = .withdraw reserve user amount)
      (haToken : market.getATokenForAsset reserve = .ok aToken)
      (hburn : scaledEvents.find? (fun ev => ev.unassigned assigned &&
        isWithdrawBurn market aToken user amount ev) = none)
      (hmint : scaledEvents.find? (fun ev => ev.unassigned assigned &&
        isWithdrawMint aToken ev) = some mint)
      (htransfer : scaledEvents.find? (fun ev => ev.unassigned assigned &&
        isWithdrawTransfer aToken ev) = some transfer) :
      PoolOperation (withdrawOperation operationId poolEvent mint transfer) assigned
  | borrow {reserve onBehalfOf amount : ℕ} {isGho : Bool} {mint transfer : ScaledTokenEvent}
      (hdata : poolEvent.data = .borrow reserve onBehalfOf amount)
      (hisGho : isGho = decide (reserve = market.ghoTokenAddress))
      (hmint : scaledEvents.findM? (fun ev =>
        if ev.unassigned assigned && isBorrowMint isGho onBehalfOf ev then
          matchesBorrow market amount ev
        else .ok false) = .ok (some mint))
      (htransfer : scaledEvents.find? (fun ev => ev.unassigned assigned &&
        ev.fromAddress = some zeroAddress && ev.targetAddress = some onBehalfOf &&
        ev.amount = mint.amount) = some transfer)
      (htype : transfer.eventType ∈
        [ScaledTokenEventType.debtTransfer, .erc20DebtTransfer, .ghoDebtTransfer]) :
      PoolOperation
        { operationId, operationType := if isGho then .ghoBorrow else .borrow,
          poolEvent := some poolEvent, scaledTokenEvents := [mint],
          transferEvents := [transfer.event], balanceTransferEvents := [] } assigned
  | repay {reserve user amount : ℕ} {isGho : Bool} {principal : ScaledTokenEvent}
      (hdata : poolEvent.data = .repay reserve user amount false)
      (hisGho : isGho = decide (reserve = market.ghoTokenAddress))
      (hprincipal : findPrincipalRepayEvent market scaledEvents assigned amount isGho =
        .ok principal) :
      PoolOperation
        { operationId, operationType := if isGho then .ghoRepay else .repay,
          poolEvent := some poolEvent, scaledTokenEvents := [principal],
          transferEvents := findDebtTransferToZero scaledEvents assigned user principal.amount,
          balanceTransferEvents := [] } assigned
  | repayWithATokens {reserve user amount : ℕ} {principal adjustment : ScaledTokenEvent}
      (hdata : poolEvent.data = .repay reserve user amount true)
      (hgho : reserve ≠ market.ghoTokenAddress)
      (hprincipal : findPrincipalRepayEvent market scaledEvents assigned amount false =
        .ok principal)
      (hadjustment : scaledEvents.find? (fun ev => ev.unassigned assigned &&
        isCollateralAdjustment market user amount ev) = some adjustment) :
      PoolOperation
        { operationId, operationType := .repayWithATokens, poolEvent := some poolEvent,
          scaledTokenEvents := [principal, adjustment], transferEvents := [],
          balanceTransferEvents := [] } assigned
  | liquidation {collateralAsset debtAsset user debtToCover aToken vToken : ℕ}
      {analysis : List (ℕ × ℕ)} {debtBurns : List ScaledTokenEvent}
      {assigned' : List ℕ} {isGho : Bool} {debtMint : Option ScaledTokenEvent}
      (hdata : poolEvent.data = .liquidationCall collateralAsset debtAsset user debtToCover)
      (hisGho : isGho = decide (debtAsset = market.ghoTokenAddress))
      (haToken : market.getATokenForAsset collateralAsset = .ok aToken)
      (hvToken : market.getVTokenForAsset debtAsset = .ok vToken)
      (hanalysis : analyzeLiquidationScenarios market allEvents = .ok analysis)
      (hburns : collectDebtBurns scaledEvents assigned user vToken analysis
        (countOrOne (analyzeUserLiquidationCount allEvents) user)
        (liquidationPosition allEvents poolEvent user debtAsset) = .ok (debtBurns, assigned'))
      (hmint : findLiquidationMint scaledEvents assigned' user vToken isGho = .ok debtMint) :
      PoolOperation
        { operationId, operationType := if isGho then .ghoLiquidation else .liquidation,
          poolEvent := some poolEvent,
          scaledTokenEvents :=
            (collectCollateralEvents scaledEvents assigned' user aToken).1.toList ++ debtBurns ++
              debtMint.toList ++ (collectCollateralEvents scaledEvents assigned' user aToken).2,
          transferEvents := [],
          balanceTransferEvents :=
            ((collectCollateralEvents scaledEvents assigned' user aToken).2.filter fun ev =>
              ev.index.any (· > 0)).map ScaledTokenEvent.event,
          debtToCover := some debtToCover } assigned'
  | deficit {user debtAsset : ℕ} (hdata : poolEvent.data = .deficitCreated user debtAsset) :
      PoolOperation (createDeficitOperation operationId poolEvent) assigned

variable {market scaledEvents assigned operationId poolEvent allEvents}

private theorem poolOperation_of_withdraw {reserve user amount : ℕ} {op : Operation}
    (hdata : poolEvent.data = .withdraw reserve user amount)
    (h : createWithdrawOperation market scaledEvents assigned operationId poolEvent reserve user
      amount = .ok op) :
    PoolOperation market scaledEvents assigned operationId poolEvent allEvents op assigned := by
  simp only [createWithdrawOperation, bind_eq_ok] at h
  obtain ⟨aToken, haToken, h⟩ := h
  split at h
  case h_1 burn hburn =>
    simp only [bind_eq_ok, assertSome_eq_ok, Except.ok.injEq] at h
    obtain ⟨transfer, htransfer, rfl⟩ := h
    exact .withdrawBurn hdata haToken hburn htransfer
  case h_2 hburn =>
    simp only [bind_eq_ok, assertSome_eq_ok, Except.ok.injEq] at h
    obtain ⟨mint, hmint, transfer, htransfer, rfl⟩ := h
    exact .withdrawMint hdata haToken hburn hmint htransfer

private theorem poolOperation_of_repay {reserve user amount : ℕ} {useATokens : Bool}
    {op : Operation} (hdata : poolEvent.data = .repay reserve user amount useATokens)
    (h : createRepayOperation market scaledEvents assigned operationId poolEvent reserve user
      amount useATokens = .ok op) :
    PoolOperation market scaledEvents assigned operationId poolEvent allEvents op assigned := by
  cases useATokens with
  | false =>
      simp only [createRepayOperation, createStandardRepayOperation, Bool.false_eq_true,
        if_false, bind_eq_ok, Except.ok.injEq] at h
      obtain ⟨principal, hprincipal, rfl⟩ := h
      exact .repay hdata rfl hprincipal
  | true =>
      simp only [createRepayOperation, createRepayWithATokensOperation,
        findCollateralAdjustmentEvent, if_true, bind_eq_ok, assertThat_eq_ok] at h
      obtain ⟨-, hgho, principal, hprincipal, adjustment, ⟨aToken, -, h⟩, hop⟩ := h
      cases hop
      split at h
      case h_1 found hadjustment =>
        cases h
        refine .repayWithATokens hdata ?_ hprincipal hadjustment
        intro heq
        simp [heq] at hgho
      case h_2 => cases h

private theorem poolOperation_of_liquidation
    {collateralAsset debtAsset user debtToCover : ℕ} {op : Operation} {assigned' : List ℕ}
    (hdata : poolEvent.data = .liquidationCall collateralAsset debtAsset user debtToCover)
    (h : createLiquidationOperation market scaledEvents assigned operationId poolEvent allEvents
      collateralAsset debtAsset user debtToCover = .ok (op, assigned')) :
    PoolOperation market scaledEvents assigned operationId poolEvent allEvents op assigned' := by
  simp only [createLiquidationOperation, bind_eq_ok] at h
  obtain ⟨aToken, haToken, vToken, hvToken, analysis, hanalysis, ⟨debtBurns, assigned''⟩, hburns,
    -, -, debtMint, hmint, h⟩ := h
  cases h
  exact .liquidation hdata rfl haToken hvToken hanalysis hburns hmint

theorem poolOperation_of_create {op : Operation} {assigned' : List ℕ}
    (h : createOperationFromPoolEvent market scaledEvents assigned operationId poolEvent
      allEvents = .ok (op, assigned')) :
    PoolOperation market scaledEvents assigned operationId poolEvent allEvents op assigned' := by
  unfold createOperationFromPoolEvent at h
  split at h
  case h_1 reserve onBehalfOf amount hdata =>
    simp only [createSupplyOperation, map_eq_ok, bind_eq_ok, assertSome_eq_ok,
      Except.ok.injEq] at h
    obtain ⟨_, ⟨aToken, haToken, mint, hmint, transfer, htransfer, rfl⟩, hpair⟩ := h
    cases hpair
    exact .supply hdata haToken hmint htransfer
  case h_2 hdata =>
    obtain ⟨op', hop, hpair⟩ := map_eq_ok.mp h
    cases hpair
    exact poolOperation_of_withdraw hdata hop
  case h_3 reserve onBehalfOf amount hdata =>
    simp only [createBorrowOperation, map_eq_ok, bind_eq_ok, assertSome_eq_ok, assertThat_eq_ok,
      Except.ok.injEq] at h
    obtain ⟨_, ⟨_, hmint, mint, rfl, transfer, htransfer, -, htype, rfl⟩, hpair⟩ := h
    cases hpair
    exact .borrow hdata rfl hmint htransfer (of_decide_eq_true htype)
  case h_4 hdata =>
    obtain ⟨op', hop, hpair⟩ := map_eq_ok.mp h
    cases hpair
    exact poolOperation_of_repay hdata hop
  case h_5 hdata => exact poolOperation_of_liquidation hdata h
  case h_6 hdata =>
    cases h
    exact .deficit hdata
  case h_7 => cases h

end Inversion

/-! ## Events of an operation -/

/-- A transfer from or to the zero address. -/
def ScaledTokenEvent.touchesZero (ev : ScaledTokenEvent) : Bool :=
  ev.fromAddress = some zeroAddress || ev.targetAddress = some zeroAddress

/-- A withdrawal with a mint takes any transfer of the token, and a repayment takes any transfer
of debt from the user; they are meant for transfers from and to the zero address. -/
def Operation.recordsAnyTransfer (op : Operation) : Bool :=
  match op.operationType with
  | .withdraw => op.scaledTokenEvents.any fun ev => ev.eventType = .collateralMint
  | .repay | .ghoRepay => true
  | _ => false

/-- Where the events of an operation come from. -/
structure Operation.Drawn (events : List Log) (scaledEvents : List ScaledTokenEvent)
    (op : Operation) : Prop where
  pool : ∀ log ∈ op.poolEvent, log ∈ events ∧ log.isPoolEvent = true
  scaled : ∀ ev ∈ op.scaledTokenEvents, ev ∈ scaledEvents
  transfer : ∀ log ∈ op.transferEvents, ∃ ev ∈ scaledEvents, ev.event = log ∧
    ev.isTransfer = true ∧ (ev.touchesZero = true ∨ op.recordsAnyTransfer = true)
  balanceTransfer : ∀ log ∈ op.balanceTransferEvents,
    ∃ ev ∈ scaledEvents, ev.event = log ∧ ev.isTransfer = true

/-- The scaled events of an operation are unassigned events of the transaction. -/
def Operation.TakenFrom (scaledEvents : List ScaledTokenEvent) (assigned : List ℕ)
    (op : Operation) : Prop :=
  ∀ ev ∈ op.scaledTokenEvents, ev ∈ scaledEvents ∧ ev.unassigned assigned = true

section Burns

variable {scaledEvents burns : List ScaledTokenEvent} {assigned assigned' : List ℕ}

theorem assignBurns_cons {ev : ScaledTokenEvent} :
    assignBurns assigned (ev :: burns) = .ok assigned' ↔
      ∃ index, ev.index = some index ∧ 0 < index ∧
        assignBurns (assigned ++ [ev.event.logIndex, index]) burns = .ok assigned' := by
  simp only [assignBurns, List.foldlM_cons, bind_eq_ok, assertSome_eq_ok, assertThat_eq_ok,
    gt_iff_lt, decide_eq_true_eq, Except.ok.injEq]
  constructor
  · rintro ⟨_, ⟨index, hindex, -, hpos, rfl⟩, h⟩
    exact ⟨index, hindex, hpos, h⟩
  · rintro ⟨index, hindex, hpos, h⟩
    exact ⟨_, ⟨index, hindex, (), hpos, rfl⟩, h⟩

theorem mem_assignBurns (h : assignBurns assigned burns = .ok assigned') {i : ℕ} :
    i ∈ assigned' ↔
      i ∈ assigned ∨ ∃ ev ∈ burns, ev.event.logIndex = i ∨ ev.index = some i := by
  induction burns generalizing assigned with
  | nil =>
      cases h
      simp
  | cons ev burns ih =>
      obtain ⟨index, hindex, -, h⟩ := assignBurns_cons.mp h
      rw [ih h]
      simp only [List.mem_append, List.mem_cons, List.not_mem_nil, or_false, exists_eq_or_imp,
        hindex, Option.some.injEq]
      grind

variable (scaledEvents assigned)

/-- The debt burns of a user that emitted one debt token. -/
def assetBurns (user vToken : ℕ) : List ScaledTokenEvent :=
  sortByLogIndex (scaledEvents.filter fun ev =>
    ev.userAddress = user && isDebtBurn ev && ev.event.address = vToken)

/-- The burns that a liquidation collects, by the branch taken. -/
inductive CollectedBurns (user vToken : ℕ) (analysis : List (ℕ × ℕ)) (count position : ℕ) :
    List ScaledTokenEvent → Prop where
  | ofUser (hcount : count = 1) :
      CollectedBurns user vToken analysis count position
        (sortByLogIndex (scaledEvents.filter fun ev =>
          ev.unassigned assigned && ev.userAddress = user && isDebtBurn ev))
  | separate {target : ScaledTokenEvent} (hcount : count ≠ 1)
      (hmulti : 1 < countOrOne analysis (user, vToken))
      (hlength : countOrOne analysis (user, vToken) = (assetBurns scaledEvents user vToken).length)
      (htarget : (assetBurns scaledEvents user vToken)[position]? = some target)
      (hunassigned : target.unassigned assigned = true) :
      CollectedBurns user vToken analysis count position [target]
  | combined (hcount : count ≠ 1) (hmulti : 1 < countOrOne analysis (user, vToken))
      (hlength : (assetBurns scaledEvents user vToken).length < countOrOne analysis (user, vToken))
      (hposition : position = 0) :
      CollectedBurns user vToken analysis count position
        ((assetBurns scaledEvents user vToken).filter (ScaledTokenEvent.unassigned assigned))
  | leftOver (hcount : count ≠ 1) (hmulti : 1 < countOrOne analysis (user, vToken))
      (hcandidates :
        (assetBurns scaledEvents user vToken).filter (ScaledTokenEvent.unassigned assigned) ≠ [])
      (hlength : (assetBurns scaledEvents user vToken).length < countOrOne analysis (user, vToken))
      (hposition : position ≠ 0) :
      CollectedBurns user vToken analysis count position []
  | ofAsset (hcount : count ≠ 1)
      (hbranch : ¬(countOrOne analysis (user, vToken) > 1 ∧
        (assetBurns scaledEvents user vToken).filter (ScaledTokenEvent.unassigned assigned) ≠ [])) :
      CollectedBurns user vToken analysis count position
        ((assetBurns scaledEvents user vToken).filter (ScaledTokenEvent.unassigned assigned))

variable {scaledEvents assigned}

theorem collectedBurns_of_collect {user vToken : ℕ} {analysis : List (ℕ × ℕ)}
    {count position : ℕ}
    (h : collectDebtBurns scaledEvents assigned user vToken analysis count position =
      .ok (burns, assigned')) :
    CollectedBurns scaledEvents assigned user vToken analysis count position burns ∧
      assignBurns assigned burns = .ok assigned' := by
  unfold collectDebtBurns at h
  by_cases hcount : count = 1
  · rw [if_pos hcount] at h
    obtain ⟨_, hassign, h⟩ := bind_eq_ok.mp h
    cases h
    exact ⟨.ofUser hcount, hassign⟩
  · simp only [if_neg hcount] at h
    split at h
    case isTrue hbranch =>
      simp only [bind_eq_ok, assertThat_eq_ok, decide_eq_true_eq] at h
      obtain ⟨-, hge, h⟩ := h
      split at h
      case isTrue hlength =>
        simp only [bind_eq_ok, assertSome_eq_ok, assertThat_eq_ok, Except.ok.injEq,
          Prod.mk.injEq] at h
        obtain ⟨target, htarget, -, hunassigned, _, hassign, rfl, rfl⟩ := h
        exact ⟨.separate hcount hbranch.1 hlength htarget hunassigned, hassign⟩
      case isFalse hlength =>
        have hlt := lt_of_le_of_ne hge fun heq => hlength heq.symm
        split at h
        case isTrue hposition =>
          obtain ⟨_, hassign, h⟩ := bind_eq_ok.mp h
          cases h
          exact ⟨.combined hcount hbranch.1 hlt hposition, hassign⟩
        case isFalse hposition =>
          cases h
          exact ⟨.leftOver hcount hbranch.1 hbranch.2 hlt hposition, rfl⟩
    case isFalse hbranch =>
      obtain ⟨_, hassign, h⟩ := bind_eq_ok.mp h
      cases h
      exact ⟨.ofAsset hcount hbranch, hassign⟩

theorem mem_assetBurns {user vToken : ℕ} {ev : ScaledTokenEvent} :
    ev ∈ assetBurns scaledEvents user vToken ↔
      ev ∈ scaledEvents ∧ ev.userAddress = user ∧ isDebtBurn ev = true ∧
        ev.event.address = vToken := by
  simp [assetBurns, List.mem_filter, and_assoc]

/-- Whatever the branch, the burns are unassigned debt burns of the user. -/
theorem CollectedBurns.mem {user vToken : ℕ} {analysis : List (ℕ × ℕ)} {count position : ℕ}
    (h : CollectedBurns scaledEvents assigned user vToken analysis count position burns)
    {ev : ScaledTokenEvent} (hev : ev ∈ burns) :
    ev ∈ scaledEvents ∧ ev.unassigned assigned = true ∧ ev.userAddress = user ∧
      isDebtBurn ev = true := by
  have hcandidate : ∀ ev, ev ∈ (assetBurns scaledEvents user vToken).filter
      (ScaledTokenEvent.unassigned assigned) → ev ∈ scaledEvents ∧
      ev.unassigned assigned = true ∧ ev.userAddress = user ∧ isDebtBurn ev = true := by
    intro ev hev
    obtain ⟨hev, hunassigned⟩ := List.mem_filter.mp hev
    obtain ⟨hmem, huser, hburn, -⟩ := mem_assetBurns.mp hev
    exact ⟨hmem, hunassigned, huser, hburn⟩
  cases h with
  | ofUser hcount => simpa [List.mem_filter, and_assoc] using hev
  | separate hcount hmulti hlength htarget hunassigned =>
      rw [List.mem_singleton] at hev
      subst hev
      obtain ⟨hmem, huser, hburn, -⟩ := mem_assetBurns.mp (List.mem_of_getElem? htarget)
      exact ⟨hmem, hunassigned, huser, hburn⟩
  | combined => exact hcandidate ev hev
  | leftOver => simp at hev
  | ofAsset => exact hcandidate ev hev

end Burns

/-! ## Events of a pool operation -/

section Pool

variable {market : Market} {events : List Log} {scaledEvents : List ScaledTokenEvent}
  {assigned assigned' : List ℕ} {operationId : ℕ} {poolEvent : Log} {op : Operation}

theorem findPrincipalRepayEvent_eq_ok {amount : ℕ} {isGho : Bool} {ev : ScaledTokenEvent}
    (h : findPrincipalRepayEvent market scaledEvents assigned amount isGho = .ok ev) :
    ev ∈ scaledEvents ∧ ev.unassigned assigned = true ∧ isPrincipalRepay isGho ev = true ∧
      matchesRepay market amount ev = .ok true := by
  rw [findPrincipalRepayEvent, bind_eq_ok] at h
  obtain ⟨principal, hprincipal, h⟩ := h
  cases principal with
  | none => cases h
  | some found =>
      cases h
      obtain ⟨hmem, htest⟩ := of_findM?_eq_ok hprincipal
      split at htest
      case isTrue hguard =>
        rw [Bool.and_eq_true] at hguard
        exact ⟨hmem, hguard.1, hguard.2, htest⟩
      case isFalse => simp at htest

theorem mem_collectCollateralEvents {user aToken : ℕ} {ev : ScaledTokenEvent}
    (hev : ev ∈ (collectCollateralEvents scaledEvents assigned user aToken).1.toList ∨
      ev ∈ (collectCollateralEvents scaledEvents assigned user aToken).2) :
    ev ∈ scaledEvents ∧ ev.unassigned assigned = true ∧ ev.event.address = aToken ∧
      ev.userAddress = user := by
  have hcandidate : ∀ ev, ev ∈ scaledEvents.filter (fun ev => ev.unassigned assigned &&
      ev.event.address = aToken && ev.userAddress = user) → ev ∈ scaledEvents ∧
      ev.unassigned assigned = true ∧ ev.event.address = aToken ∧ ev.userAddress = user := by
    intro ev hev
    simpa [List.mem_filter, and_assoc] using hev
  rcases hev with hev | hev
  · rw [Option.mem_toList] at hev
    exact hcandidate ev (List.mem_filter.mp (List.mem_of_getLast? hev)).1
  · exact hcandidate ev (List.mem_filter.mp hev).1

theorem findLiquidationMint_eq_ok {user vToken : ℕ} {isGho : Bool} {mint : ScaledTokenEvent}
    (h : findLiquidationMint scaledEvents assigned user vToken isGho = .ok (some mint)) :
    mint ∈ scaledEvents ∧ mint.unassigned assigned = true ∧ mint.userAddress = user ∧
      mint.eventType = (if isGho then .ghoDebtMint else .debtMint) ∧
      mint.event.address = vToken := by
  unfold findLiquidationMint at h
  split at h
  case h_1 => cases h
  case h_2 ev hfind =>
    simp only [bind_eq_ok, assertThat_eq_ok, assertSome_eq_ok, Except.ok.injEq,
      Option.some.injEq] at h
    obtain ⟨-, haddress, balanceIncrease, -, -, -, rfl⟩ := h
    have htest := List.find?_some hfind
    simp only [Bool.and_eq_true, decide_eq_true_eq] at htest haddress
    exact ⟨List.mem_of_find?_eq_some hfind, htest.1.1, htest.1.2, htest.2, haddress⟩

/-- The events that a pool operation attaches were not assigned before. -/
theorem PoolOperation.takenFrom
    (h : PoolOperation market scaledEvents assigned operationId poolEvent events op assigned') :
    op.TakenFrom scaledEvents assigned := by
  have hfind : ∀ {p : ScaledTokenEvent → Bool} {ev : ScaledTokenEvent},
      scaledEvents.find? (fun ev => ev.unassigned assigned && p ev) = some ev →
      ev ∈ scaledEvents ∧ ev.unassigned assigned = true := by
    intro p ev hev
    have htest := List.find?_some hev
    rw [Bool.and_eq_true] at htest
    exact ⟨List.mem_of_find?_eq_some hev, htest.1⟩
  intro ev hev
  cases h with
  | supply hdata haToken hmint htransfer =>
      rw [List.mem_singleton] at hev
      exact hev ▸ hfind hmint
  | withdrawBurn hdata haToken hburn htransfer =>
      rw [withdrawOperation, List.mem_singleton] at hev
      exact hev ▸ hfind hburn
  | withdrawMint hdata haToken hburn hmint htransfer =>
      rw [withdrawOperation, List.mem_singleton] at hev
      exact hev ▸ hfind hmint
  | borrow hdata hisGho hmint htransfer htype =>
      rw [List.mem_singleton] at hev
      subst hev
      obtain ⟨hmem, htest⟩ := of_findM?_eq_ok hmint
      split at htest
      case isTrue hguard => exact ⟨hmem, (Bool.and_eq_true _ _ ▸ hguard).1⟩
      case isFalse => simp at htest
  | repay hdata hisGho hprincipal =>
      rw [List.mem_singleton] at hev
      have hprincipal := findPrincipalRepayEvent_eq_ok hprincipal
      exact hev ▸ ⟨hprincipal.1, hprincipal.2.1⟩
  | repayWithATokens hdata hgho hprincipal hadjustment =>
      rcases List.mem_pair.mp hev with rfl | rfl
      · have hprincipal := findPrincipalRepayEvent_eq_ok hprincipal
        exact ⟨hprincipal.1, hprincipal.2.1⟩
      · exact hfind hadjustment
  | liquidation hdata hisGho haToken hvToken hanalysis hburns hmint =>
      obtain ⟨hcollected, hassign⟩ := collectedBurns_of_collect hburns
      -- the collateral and the mint are sought among what the burns leave
      have hearlier : ∀ ev : ScaledTokenEvent, ev.unassigned assigned' = true →
          ev.unassigned assigned = true := by
        intro ev hev
        simp only [ScaledTokenEvent.unassigned, decide_eq_true_eq] at hev ⊢
        exact fun hmem => hev ((mem_assignBurns hassign).mpr (.inl hmem))
      have hcollateral : ∀ user aToken,
          (ev ∈ (collectCollateralEvents scaledEvents assigned' user aToken).1.toList ∨
            ev ∈ (collectCollateralEvents scaledEvents assigned' user aToken).2) →
          ev ∈ scaledEvents ∧ ev.unassigned assigned = true := by
        intro user aToken hev
        have hmem := mem_collectCollateralEvents hev
        exact ⟨hmem.1, hearlier ev hmem.2.1⟩
      simp only [List.mem_append] at hev
      rcases hev with ((hev | hev) | hev) | hev
      · exact hcollateral _ _ (.inl hev)
      · have hmem := hcollected.mem hev
        exact ⟨hmem.1, hmem.2.1⟩
      · rw [Option.mem_toList] at hev
        subst hev
        have hmem := findLiquidationMint_eq_ok hmint
        exact ⟨hmem.1, hearlier ev hmem.2.1⟩
      · exact hcollateral _ _ (.inr hev)
  | deficit hdata => simp [createDeficitOperation] at hev

theorem PoolOperation.poolEvent_eq
    (h : PoolOperation market scaledEvents assigned operationId poolEvent events op assigned') :
    op.poolEvent = some poolEvent := by
  cases h <;> rfl

theorem PoolOperation.drawn
    (h : PoolOperation market scaledEvents assigned operationId poolEvent events op assigned')
    (hmem : poolEvent ∈ events) (hpool : poolEvent.isPoolEvent = true) :
    op.Drawn events scaledEvents where
  pool := by
    intro log hlog
    rw [h.poolEvent_eq, Option.mem_some_iff] at hlog
    exact hlog ▸ ⟨hmem, hpool⟩
  scaled := fun ev hev => (h.takenFrom ev hev).1
  transfer := by
    intro log hlog
    have hfind : ∀ {p : ScaledTokenEvent → Bool} {ev : ScaledTokenEvent},
        scaledEvents.find? p = some ev → log = ev.event →
        (p ev = true → ev.isTransfer = true ∧
          (ev.touchesZero = true ∨ op.recordsAnyTransfer = true)) →
        ∃ ev ∈ scaledEvents, ev.event = log ∧ ev.isTransfer = true ∧
          (ev.touchesZero = true ∨ op.recordsAnyTransfer = true) := by
      intro p ev hev hlog htype
      exact ⟨ev, List.mem_of_find?_eq_some hev, hlog.symm, htype (List.find?_some hev)⟩
    cases h with
    | supply hdata haToken hmint htransfer =>
        refine hfind htransfer (List.mem_singleton.mp hlog) ?_
        simp only [isSupplyTransfer, ScaledTokenEvent.isTransfer, ScaledTokenEvent.touchesZero]
        grind
    | withdrawBurn hdata haToken hburn htransfer =>
        refine hfind htransfer (List.mem_singleton.mp hlog) ?_
        simp only [isWithdrawTransfer, ScaledTokenEvent.isTransfer, ScaledTokenEvent.touchesZero]
        grind
    | @withdrawMint _ _ _ _ mint transfer hdata haToken hburn hmint htransfer =>
        have hany :
            (withdrawOperation operationId poolEvent mint transfer).recordsAnyTransfer = true := by
          have htest := List.find?_some hmint
          simp only [isWithdrawMint, Bool.and_eq_true, decide_eq_true_eq] at htest
          simp [Operation.recordsAnyTransfer, withdrawOperation, htest.2.1]
        refine hfind htransfer (List.mem_singleton.mp hlog) fun htest => ⟨?_, .inr hany⟩
        revert htest
        simp only [isWithdrawTransfer, ScaledTokenEvent.isTransfer]
        grind
    | borrow hdata hisGho hmint htransfer htype =>
        refine hfind htransfer (List.mem_singleton.mp hlog) ?_
        simp only [ScaledTokenEvent.isTransfer, ScaledTokenEvent.touchesZero]
        grind
    | @repay _ _ _ isGho _ hdata hisGho hprincipal =>
        rw [findDebtTransferToZero, List.mem_map] at hlog
        obtain ⟨ev, hev, rfl⟩ := hlog
        refine hfind (Option.mem_toList.mp hev) rfl fun htest => ⟨?_, .inr ?_⟩
        · revert htest
          simp only [ScaledTokenEvent.isTransfer]
          grind
        · cases isGho <;> rfl
    | repayWithATokens hdata hgho hprincipal hadjustment => simp at hlog
    | liquidation hdata hisGho haToken hvToken hanalysis hburns hmint => simp at hlog
    | deficit hdata => simp [createDeficitOperation] at hlog
  balanceTransfer := by
    intro log hlog
    cases h with
    | supply hdata haToken hmint htransfer => simp at hlog
    | withdrawBurn hdata haToken hburn htransfer => simp [withdrawOperation] at hlog
    | withdrawMint hdata haToken hburn hmint htransfer => simp [withdrawOperation] at hlog
    | borrow hdata hisGho hmint htransfer htype => simp at hlog
    | repay hdata hisGho hprincipal => simp at hlog
    | repayWithATokens hdata hgho hprincipal hadjustment => simp at hlog
    | liquidation hdata hisGho haToken hvToken hanalysis hburns hmint =>
        obtain ⟨ev, hev, rfl⟩ := List.mem_map.mp hlog
        have hev := (List.mem_filter.mp hev).1
        refine ⟨ev, (mem_collectCollateralEvents (.inr hev)).1, rfl, ?_⟩
        have htype := (List.mem_filter.mp hev).2
        simp only [ScaledTokenEvent.isTransfer]
        grind
    | deficit hdata => simp [createDeficitOperation] at hlog

end Pool

end Degenbot.AaveParser
