import Degenbot.Verification.AaveOperations.Accounting

/-! # Every token log in one operation

In an accepted transaction no log is in two operations. A mint, burn or balance transfer is
in one, unless it is a mint of interest by the Pool, a balance transfer that an operation
records as its transfer, or shares its log index with the liquidity index of a debt burn. Only
a withdrawal with a mint and a repayment record a balance transfer between two accounts. -/

namespace Degenbot.AaveParser

open Library

/-- The log is a scaled token event or a balance transfer event of the operation. -/
def Operation.contains (op : Operation) (log : Log) : Bool :=
  log ∈ op.scaledTokenEvents.map ScaledTokenEvent.event || log ∈ op.balanceTransferEvents

/-- The token event that the parser decodes from a log. -/
def Market.decoded (market : Market) (log : Log) : Option ScaledTokenEvent :=
  match decodeScaledTokenEvent market log with
  | .ok ev => ev
  | .error _ => none

/-- The liquidity index of a debt burn. -/
def Market.debtBurnIndex (market : Market) (log : Log) : Option ℕ :=
  ((market.decoded log).filter isDebtBurn).bind ScaledTokenEvent.index

def Market.isInterestByPool (market : Market) (log : Log) : Bool :=
  (market.decoded log).any (isTreasuryInterest market)

def Log.isBalanceTransfer (log : Log) : Bool :=
  match log.data with
  | .balanceTransfer .. => true
  | _ => false

/-- A balance transfer from or to the zero address. -/
def Log.touchesZero (log : Log) : Bool :=
  match log.data with
  | .balanceTransfer fromAddr toAddr _ _ => fromAddr = zeroAddress || toAddr = zeroAddress
  | _ => false

/-- The operation records a balance transfer between two accounts as its transfer. -/
def Operation.recordsMovement (op : Operation) (log : Log) : Bool :=
  log ∈ op.transferEvents && log.isBalanceTransfer && !log.touchesZero

/-! ## No log in two operations -/

theorem keys_nodup_of_ambiguousAssignments {pairs seen : List (ℕ × ℕ)}
    (h : ambiguousAssignments seen pairs = []) :
    (pairs.map Prod.fst).Nodup ∧ ∀ i ∈ pairs.map Prod.fst, i ∉ seen.map Prod.fst := by
  induction pairs generalizing seen with
  | nil => simp
  | cons pair pairs ih =>
      obtain ⟨i, operationId⟩ := pair
      rw [ambiguousAssignments] at h
      split at h
      case h_1 => cases h
      case h_2 hlookup =>
        obtain ⟨hnodup, hfresh⟩ := ih h
        have hi : i ∉ seen.map Prod.fst := by
          intro hmem
          obtain ⟨pair, hpair, rfl⟩ := List.mem_map.mp hmem
          simpa using List.lookup_eq_none_iff.mp hlookup pair hpair
        refine ⟨?_, ?_⟩
        · rw [List.map_cons, List.nodup_cons]
          refine ⟨fun hmem => ?_, hnodup⟩
          exact hfresh i hmem (by simp)
        · intro j hj
          rcases List.mem_cons.mp hj with rfl | hj
          · exact hi
          · exact fun hmem => hfresh j hj (List.mem_cons_of_mem _ hmem)

/-- In lists that share no element, an element is in one list at most. -/
theorem countP_mem_le_one_of_nodup_flatMap {α : Type} {f : α → List ℕ} {xs : List α}
    (h : (xs.flatMap f).Nodup) (i : ℕ) : xs.countP (fun x => i ∈ f x) ≤ 1 := by
  induction xs with
  | nil => simp
  | cons x xs ih =>
      rw [List.flatMap_cons, List.nodup_append] at h
      obtain ⟨-, hrest, hdisjoint⟩ := h
      rw [List.countP_cons]
      by_cases hi : i ∈ f x
      · have hnone : xs.countP (fun x => i ∈ f x) = 0 := by
          rw [List.countP_eq_zero]
          intro y hy hmem
          exact hdisjoint i hi i (List.mem_flatMap.mpr ⟨y, hy, of_decide_eq_true hmem⟩) rfl
        simp [hi, hnone]
      · simpa [hi] using ih hrest

theorem TransactionOperations.validate_eq_ok {tx : TransactionOperations}
    (h : tx.validate = .ok ()) :
    (∀ log ∈ tx.unassignedEvents, log.isScaledTokenEvent = false) ∧
      (tx.operations.flatMap Operation.getEventLogIndices).Nodup := by
  simp only [TransactionOperations.validate, bind_eq_ok, assertThat_eq_ok] at h
  obtain ⟨-, -, -, hscaled, h⟩ := h
  split at h
  case isTrue hambiguous =>
    refine ⟨by simpa using hscaled, ?_⟩
    have hkeys := (keys_nodup_of_ambiguousAssignments hambiguous).1
    rwa [List.map_flatMap, List.flatMap_congr (g := Operation.getEventLogIndices)] at hkeys
    intro op _
    simp [Function.comp_def]
  case isFalse => cases h

theorem Operation.mem_getEventLogIndices_of_contains {op : Operation} {log : Log}
    (h : op.contains log = true) : log.logIndex ∈ op.getEventLogIndices := by
  rw [Operation.contains, Bool.or_eq_true, decide_eq_true_eq, decide_eq_true_eq] at h
  rcases h with h | h
  · obtain ⟨ev, hev, rfl⟩ := List.mem_map.mp h
    exact Operation.mem_getEventLogIndices_of_scaled hev
  · exact mem_getEventLogIndices_of_balanceTransfer h

theorem countP_contains_le_one {tx : TransactionOperations} (h : tx.validate = .ok ())
    (log : Log) : tx.operations.countP (·.contains log) ≤ 1 :=
  le_trans
    (List.countP_mono_left fun _ _ hop =>
      decide_eq_true (Operation.mem_getEventLogIndices_of_contains hop))
    (countP_mem_le_one_of_nodup_flatMap (TransactionOperations.validate_eq_ok h).2 log.logIndex)

/-! ## Every log in an operation -/

section Parse

variable {market : Market} {events : List Log} {tx : TransactionOperations}

theorem parse_eq_ok (h : parse market events = .ok tx) :
    ∃ scaledEvents state, extractScaledTokenEvents market events = .ok scaledEvents ∧
      runPasses market events scaledEvents = .ok state ∧ tx.operations = state.operations ∧
      tx.unassignedEvents = events.filter fun event =>
        event.logIndex ∉ state.assigned && !event.isTransfer := by
  simp only [parse, bind_eq_ok] at h
  obtain ⟨-, -, scaledEvents, hscaled, state, hstate, -, -, h⟩ := h
  cases h
  exact ⟨scaledEvents, state, hscaled, hstate, rfl, rfl⟩

theorem eq_of_logIndex_eq (hdistinct : (events.map Log.logIndex).Nodup) {log log' : Log}
    (hlog : log ∈ events) (hlog' : log' ∈ events) (h : log.logIndex = log'.logIndex) :
    log = log' :=
  List.inj_on_of_nodup_map hdistinct hlog hlog' h

theorem decoded_of_mem {scaledEvents : List ScaledTokenEvent}
    (hscaled : extractScaledTokenEvents market events = .ok scaledEvents) {ev : ScaledTokenEvent}
    (hev : ev ∈ scaledEvents) : market.decoded ev.event = some ev := by
  rw [Market.decoded, (decode_of_mem_extract hscaled hev).2]

/-- A scaled token log with the index of a transfer event is a balance transfer. -/
theorem isBalanceTransfer_of_isTransfer {ev : ScaledTokenEvent}
    (hdecode : decodeScaledTokenEvent market ev.event = .ok (some ev))
    (hscaled : ev.event.isScaledTokenEvent = true) (htransfer : ev.isTransfer = true) :
    ev.event.isBalanceTransfer = true := by
  rcases decodeScaledTokenEvent_cases hdecode with
    ⟨_, _, _, _, _, hdata, htype, -⟩ | ⟨_, _, _, _, _, hdata, htype, -⟩ |
    ⟨_, _, _, _, hdata, -, -⟩ | ⟨_, _, _, hdata, -⟩
  · simp only [ScaledTokenEvent.isTransfer] at htransfer
    grind
  · simp only [ScaledTokenEvent.isTransfer] at htransfer
    grind
  · simp [Log.isBalanceTransfer, hdata]
  · simp [Log.isScaledTokenEvent, hdata] at hscaled

theorem touchesZero_eq {ev : ScaledTokenEvent}
    (hdecode : decodeScaledTokenEvent market ev.event = .ok (some ev))
    (hbalance : ev.event.isBalanceTransfer = true) : ev.event.touchesZero = ev.touchesZero := by
  rcases decodeScaledTokenEvent_cases hdecode with
    ⟨_, _, _, _, _, hdata, -, -⟩ | ⟨_, _, _, _, _, hdata, -, -⟩ |
    ⟨_, _, _, _, hdata, -, -, hfrom, htarget⟩ | ⟨_, _, _, hdata, -⟩
  · simp [Log.isBalanceTransfer, hdata] at hbalance
  · simp [Log.isBalanceTransfer, hdata] at hbalance
  · simp [Log.touchesZero, ScaledTokenEvent.touchesZero, hdata, hfrom, htarget]
  · simp [Log.isBalanceTransfer, hdata] at hbalance

/-- A balance transfer between two accounts is recorded by these operations only. -/
theorem recordsAnyTransfer_of_recordsMovement (hparse : parse market events = .ok tx)
    {log : Log} {op : Operation} (hop : op ∈ tx.operations)
    (hmovement : op.recordsMovement log = true) : op.recordsAnyTransfer = true := by
  obtain ⟨scaledEvents, state, hextract, hstate, hoperations, -⟩ := parse_eq_ok hparse
  rw [hoperations] at hop
  simp only [Operation.recordsMovement, Bool.and_eq_true, decide_eq_true_eq] at hmovement
  obtain ⟨⟨htransfer, hbalance⟩, hzero⟩ := hmovement
  obtain ⟨ev, hev, rfl, -, hrecord⟩ :=
    ((runPasses_accounted hstate).drawn op hop).transfer log htransfer
  rw [touchesZero_eq (decode_of_mem_extract hextract hev).2 hbalance] at hzero
  refine hrecord.resolve_left fun h => ?_
  rw [h] at hzero
  cases hzero

/-- What remains for a scaled token log that no pass lets go. -/
theorem exists_operation_of_accepted (hdistinct : (events.map Log.logIndex).Nodup)
    (hparse : parse market events = .ok tx) (hvalidate : tx.validate = .ok ()) {log : Log}
    (hlog : log ∈ events) (hscaled : log.isScaledTokenEvent = true)
    (hindex : ∀ burn ∈ events, market.debtBurnIndex burn ≠ some log.logIndex)
    (hinterest : market.isInterestByPool log = false) :
    ∃ op ∈ tx.operations,
      op.contains log = true ∨ log.isBalanceTransfer = true ∧ log ∈ op.transferEvents := by
  obtain ⟨scaledEvents, state, hextract, hstate, hoperations, hunassigned⟩ := parse_eq_ok hparse
  have haccounted := runPasses_accounted hstate
  rw [hoperations]
  have hassigned : log.logIndex ∈ state.assigned := by
    by_contra hmem
    have htransfer : log.isTransfer = false := by
      revert hscaled
      unfold Log.isScaledTokenEvent Log.isTransfer
      cases log.data <;> simp
    have hleft := (TransactionOperations.validate_eq_ok hvalidate).1 log (by
      rw [hunassigned, List.mem_filter]
      exact ⟨hlog, by simp [hmem, htransfer]⟩)
    rw [hscaled] at hleft
    cases hleft
  -- an event of the transaction with this log index is the log
  have hsame : ∀ ev ∈ scaledEvents, ev.event.logIndex = log.logIndex → ev.event = log := by
    intro ev hev heq
    exact eq_of_logIndex_eq hdistinct (decode_of_mem_extract hextract hev).1 hlog heq
  cases haccounted.explained _ hassigned with
  | @operation op hop hi =>
      have hdrawn := haccounted.drawn op hop
      refine ⟨op, hop, ?_⟩
      rcases Operation.mem_getEventLogIndices.mp hi with ((hi | hi) | hi) | hi
      · obtain ⟨poolEvent, hpoolEvent, hi⟩ := List.mem_map.mp hi
        obtain ⟨hmem, hpool⟩ := hdrawn.pool poolEvent (Option.mem_toList.mp hpoolEvent)
        have heq := eq_of_logIndex_eq hdistinct hmem hlog hi
        subst heq
        revert hscaled hpool
        unfold Log.isScaledTokenEvent Log.isPoolEvent
        cases poolEvent.data <;> simp
      · obtain ⟨ev, hev, hi⟩ := List.mem_map.mp hi
        have heq := hsame ev (hdrawn.scaled ev hev) hi
        left
        simp only [Operation.contains, Bool.or_eq_true, decide_eq_true_eq]
        exact .inl (List.mem_map.mpr ⟨ev, hev, heq⟩)
      · obtain ⟨transfer, htransfer, hi⟩ := List.mem_map.mp hi
        obtain ⟨ev, hev, rfl, htype, -⟩ := hdrawn.transfer transfer htransfer
        have heq := hsame ev hev hi
        subst heq
        exact .inr ⟨isBalanceTransfer_of_isTransfer (decode_of_mem_extract hextract hev).2
          hscaled htype, htransfer⟩
      · obtain ⟨transfer, htransfer, hi⟩ := List.mem_map.mp hi
        obtain ⟨ev, hev, rfl, -⟩ := hdrawn.balanceTransfer transfer htransfer
        have heq := hsame ev hev hi
        subst heq
        left
        simp [Operation.contains, htransfer]
  | @liquidityIndex ev hev hburn hi =>
      refine absurd ?_ (hindex ev.event (decode_of_mem_extract hextract hev).1)
      simp [Market.debtBurnIndex, decoded_of_mem hextract hev, Option.filter, hburn, hi]
  | @treasuryInterest ev hev hev' hi =>
      have heq := hsame ev hev hi
      subst heq
      simp [Market.isInterestByPool, decoded_of_mem hextract hev, hev'] at hinterest
  | @erc20Transfer ev hev hnone hi =>
      have heq := hsame ev hev hi
      subst heq
      rcases decodeScaledTokenEvent_cases (decode_of_mem_extract hextract hev).2 with
        ⟨_, _, _, _, _, -, -, hev⟩ | ⟨_, _, _, _, _, -, -, hev⟩ | ⟨_, _, _, _, -, -, hev⟩ |
        ⟨_, _, _, hdata, -⟩
      · simp [hev] at hnone
      · simp [hev] at hnone
      · simp [hev] at hnone
      · simp [Log.isScaledTokenEvent, hdata] at hscaled

/-- A mint of interest by the Pool is only taken by the operation of a pool event. -/
theorem poolEvent_of_contains_interest (hparse : parse market events = .ok tx) {log : Log}
    (hlog : log ∈ events)
    (hinterest : market.isInterestByPool log = true) {op : Operation} (hop : op ∈ tx.operations)
    (hcontains : op.contains log = true) : op.poolEvent.isSome = true := by
  obtain ⟨scaledEvents, state, hextract, hstate, hoperations, -⟩ := parse_eq_ok hparse
  have haccounted := runPasses_accounted hstate
  rw [hoperations] at hop
  have hdrawn := haccounted.drawn op hop
  obtain ⟨mint, hmint, hev⟩ : ∃ mint, market.decoded log = some mint ∧
      isTreasuryInterest market mint = true := by
    simpa [Market.isInterestByPool, Option.any_eq_true] using hinterest
  have hcollateral : mint.eventType = .collateralMint := by
    simp only [isTreasuryInterest, isTreasuryMint, Bool.and_eq_true, decide_eq_true_eq] at hev
    exact hev.1.1
  rw [Operation.contains, Bool.or_eq_true, decide_eq_true_eq, decide_eq_true_eq] at hcontains
  by_contra hnone
  rw [Option.not_isSome_iff_eq_none] at hnone
  rcases hcontains with hcontains | hcontains
  · obtain ⟨ev, hev', rfl⟩ := List.mem_map.mp hcontains
    rw [decoded_of_mem hextract (hdrawn.scaled ev hev')] at hmint
    cases hmint
    rw [haccounted.interest op hop hnone mint hev'] at hev
    cases hev
  · obtain ⟨ev, hev', rfl, htype⟩ := hdrawn.balanceTransfer log hcontains
    rw [decoded_of_mem hextract hev'] at hmint
    cases hmint
    simp [ScaledTokenEvent.isTransfer, hcollateral] at htype

end Parse

theorem parse_contains_once (market : Market) (events : List Log) (tx : TransactionOperations)
    (hdistinct : (events.map Log.logIndex).Nodup) (hparse : parse market events = .ok tx)
    (hvalidate : tx.validate = .ok ()) (log : Log) (hlog : log ∈ events)
    (hscaled : log.isScaledTokenEvent = true) :
    tx.operations.countP (·.contains log) ≤ 1 ∧
    (market.isInterestByPool log = true →
      ∀ op ∈ tx.operations, op.contains log = true → op.poolEvent.isSome = true) ∧
    (∀ op ∈ tx.operations, op.recordsMovement log = true → op.recordsAnyTransfer = true) ∧
    ((∀ burn ∈ events, market.debtBurnIndex burn ≠ some log.logIndex) →
      market.isInterestByPool log = false →
      (∀ op ∈ tx.operations, op.recordsMovement log = false) →
      tx.operations.countP (·.contains log) = 1 ∨
        log.touchesZero = true ∧
          tx.operations.countP (fun op => log ∈ op.transferEvents) = 1) := by
  have hmost := countP_contains_le_one hvalidate log
  refine ⟨hmost, ?_, fun op hop => recordsAnyTransfer_of_recordsMovement hparse hop, ?_⟩
  · intro hinterest op hop hcontains
    exact poolEvent_of_contains_interest hparse hlog hinterest hop hcontains
  · intro hindex hinterest hmovement
    obtain ⟨op, hop, hcontains | ⟨hbalance, htransfer⟩⟩ :=
      exists_operation_of_accepted hdistinct hparse hvalidate hlog hscaled hindex hinterest
    · left
      have hpos : 0 < tx.operations.countP (·.contains log) :=
        List.countP_pos_iff.mpr ⟨op, hop, hcontains⟩
      omega
    · right
      have hzero : log.touchesZero = true := by
        simpa [Operation.recordsMovement, htransfer, hbalance] using hmovement op hop
      refine ⟨hzero, le_antisymm ?_ ?_⟩
      · refine le_trans (List.countP_mono_left fun op _ hop => ?_)
          (countP_mem_le_one_of_nodup_flatMap
            (TransactionOperations.validate_eq_ok hvalidate).2 log.logIndex)
        have hmem := of_decide_eq_true hop
        exact decide_eq_true
          (Operation.mem_getEventLogIndices.mpr (.inl (.inr (List.mem_map_of_mem hmem))))
      · exact List.countP_pos_iff.mpr ⟨op, hop, decide_eq_true htransfer⟩

/-! ## Sample transactions -/

/-- Two reserves, with aTokens 11 and 12 and debt tokens 21 and 22; the Pool is 100. -/
def sampleMarket : Market :=
  ⟨[⟨1, 11, 21, 1⟩, ⟨2, 12, 22, 1⟩], 100, 3, 9, some 29, none⟩

/-- The transaction is parsed and passes the validation. -/
def accepted (market : Market) (events : List Log) : Option TransactionOperations :=
  match parse market events with
  | .error _ => none
  | .ok tx =>
      match tx.validate with
      | .ok () => some tx
      | .error _ => none

theorem accepted_eq_some {market : Market} {events : List Log} {tx : TransactionOperations} :
    accepted market events = some tx ↔ parse market events = .ok tx ∧ tx.validate = .ok () := by
  unfold accepted
  split
  case h_1 error herror => simp [herror]
  case h_2 tx' htx' =>
    split
    case h_1 hvalidate =>
      constructor
      · rintro ⟨⟩
        exact ⟨htx', hvalidate⟩
      · rintro ⟨hparse, -⟩
        rw [htx'] at hparse
        cases hparse
        rfl
    case h_2 error hvalidate =>
      constructor
      · rintro ⟨⟩
      · rintro ⟨hparse, hvalidate'⟩
        rw [htx'] at hparse
        cases hparse
        rw [hvalidate'] at hvalidate
        cases hvalidate

/-- The accrued interest of the treasury, minted while the liquidation fee is transferred. -/
def treasuryAccrual : Log := ⟨3, 11, .mint 100 60 7 7 (10 ^ 27)⟩

/-- User 50 is liquidated, and the collateral goes to the treasury 60. -/
def liquidationFeeLogs : List Log :=
  [⟨0, 22, .transfer 50 0 100⟩, ⟨1, 22, .burn 50 0 100 0 (10 ^ 27)⟩,
   ⟨2, 11, .transfer 0 60 7⟩, treasuryAccrual,
   ⟨4, 11, .transfer 50 60 30⟩, ⟨5, 11, .balanceTransfer 50 60 30 (10 ^ 27)⟩,
   ⟨6, 100, .liquidationCall 1 2 50 100⟩]

theorem liquidationFeeLogs_accepted :
    (accepted sampleMarket liquidationFeeLogs).map
      (fun tx => tx.operations.countP (·.contains treasuryAccrual)) = some 0 := by
  decide

def movedBalance : Log := ⟨1, 11, .balanceTransfer 50 51 30 (10 ^ 27)⟩

/-- A transfer, and two withdrawals below the interest that has accrued. -/
def twoWithdrawalsLogs : List Log :=
  [⟨0, 11, .transfer 50 51 30⟩, movedBalance,
   ⟨2, 11, .transfer 0 60 5⟩, ⟨3, 11, .mint 60 60 5 8 (10 ^ 27)⟩, ⟨4, 100, .withdraw 1 60 3⟩,
   ⟨5, 11, .transfer 0 61 5⟩, ⟨6, 11, .mint 61 61 5 8 (10 ^ 27)⟩, ⟨7, 100, .withdraw 1 61 3⟩]

/-- The first withdrawal records the movement from 50 to 51. -/
example : (accepted sampleMarket twoWithdrawalsLogs).map
    (fun tx => (tx.operations.countP (·.contains movedBalance),
      tx.operations.countP (·.recordsMovement movedBalance))) = some (0, 1) := by
  decide

def hiddenMint : Log := ⟨3, 11, .mint 70 70 7 7 (10 ^ 27)⟩

/-- The debt burn has liquidity index 3, which is a log index too. -/
def smallIndexLogs : List Log :=
  [⟨0, 22, .burn 50 0 100 0 3⟩, ⟨1, 11, .transfer 50 60 30⟩, ⟨2, 100, .liquidationCall 1 2 50 100⟩,
   hiddenMint]

example : (accepted sampleMarket smallIndexLogs).map
    (fun tx => tx.operations.countP (·.contains hiddenMint)) = some 0 := by
  decide

theorem parse_contains_once_sample :
    ∃ tx, parse sampleMarket liquidationFeeLogs = .ok tx ∧ tx.validate = .ok () ∧
      tx.operations.countP (·.contains ⟨1, 22, .burn 50 0 100 0 (10 ^ 27)⟩) = 1 := by
  obtain ⟨tx, htx, -⟩ := Option.map_eq_some_iff.mp liquidationFeeLogs_accepted
  obtain ⟨hparse, hvalidate⟩ := accepted_eq_some.mp htx
  refine ⟨tx, hparse, hvalidate, ?_⟩
  have honce := (parse_contains_once sampleMarket liquidationFeeLogs tx (by decide) hparse hvalidate
    ⟨1, 22, .burn 50 0 100 0 (10 ^ 27)⟩ (by decide) (by decide)).2.2.2 (by decide) (by decide)
    fun op _ => by simp [Operation.recordsMovement, Log.isBalanceTransfer]
  rcases honce with honce | ⟨hzero, -⟩
  · exact honce
  · cases hzero

/-- A scaled token log of an accepted transaction that is in no operation. -/
def Drops (market : Market) (events : List Log) (log : Log) : Prop :=
  (events.map Log.logIndex).Nodup ∧ log ∈ events ∧ log.isScaledTokenEvent = true ∧
    ∃ tx, parse market events = .ok tx ∧ tx.validate = .ok () ∧
      tx.operations.countP (·.contains log) = 0

theorem parse_drops_treasuryAccrual : Drops sampleMarket liquidationFeeLogs treasuryAccrual := by
  obtain ⟨tx, htx, hcount⟩ := Option.map_eq_some_iff.mp liquidationFeeLogs_accepted
  obtain ⟨hparse, hvalidate⟩ := accepted_eq_some.mp htx
  exact ⟨by decide, by decide, by decide, tx, hparse, hvalidate, hcount⟩

end Degenbot.AaveParser
