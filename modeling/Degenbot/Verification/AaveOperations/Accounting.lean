import Degenbot.Library.Batch
import Degenbot.Verification.AaveOperations.Builders

/-! # Where assigned log indices come from

Every pass keeps an account of the assigned set: an index in it belongs to an operation, is
the liquidity index of a debt burn, or belongs to an event that a pass leaves out. -/

namespace Degenbot.AaveParser

open Library

/-- A mint that the treasury pass marks as assigned without an operation. -/
def isTreasuryInterest (market : Market) (ev : ScaledTokenEvent) : Bool :=
  isTreasuryMint market ev && ev.balanceIncrease = some ev.amount

/-! ## Operations without a pool event -/

/-- An operation of a later pass, built from what the passes before it left. -/
structure PassOperation (scaledEvents : List ScaledTokenEvent) (assigned : List ℕ)
    (op : Operation) : Prop where
  poolEvent : op.poolEvent = none
  taken : op.TakenFrom scaledEvents assigned
  transfer : ∀ log ∈ op.transferEvents, ∃ ev ∈ scaledEvents, ev.event = log ∧
    ev.isTransfer = true ∧ ev.touchesZero = true
  balanceTransfer : ∀ log ∈ op.balanceTransferEvents,
    ∃ ev ∈ scaledEvents, ev.event = log ∧ ev.isTransfer = true

section Passes

variable {market : Market} {events : List Log} {scaledEvents : List ScaledTokenEvent}
  {startingOperationId : ℕ} {assigned : List ℕ}

theorem PassOperation.drawn {op : Operation} (h : PassOperation scaledEvents assigned op) :
    op.Drawn events scaledEvents where
  pool := by simp [h.poolEvent]
  scaled := fun ev hev => (h.taken ev hev).1
  transfer := by
    intro log hlog
    obtain ⟨ev, hev, heq, htype, hzero⟩ := h.transfer log hlog
    exact ⟨ev, hev, heq, htype, .inl hzero⟩
  balanceTransfer := h.balanceTransfer

theorem unassigned_append {local_ : List ℕ} {ev : ScaledTokenEvent} :
    ev.unassigned (assigned ++ local_) = true ↔
      ev.unassigned assigned = true ∧ ev.event.logIndex ∉ local_ := by
  simp [ScaledTokenEvent.unassigned]

/-! ### Mints to the treasury -/

/-- What the treasury pass keeps. -/
structure TreasuryInv (market : Market) (scaledEvents : List ScaledTokenEvent)
    (assigned : List ℕ) (state : Progress) : Prop where
  operations : ∀ op ∈ state.operations, PassOperation scaledEvents assigned op ∧
    ∀ ev ∈ op.scaledTokenEvents, isTreasuryInterest market ev = false
  assigned_subset : assigned ⊆ state.assigned
  explained : ∀ i ∈ state.assigned, i ∈ assigned ∨
    ∃ ev ∈ scaledEvents, isTreasuryInterest market ev = true ∧ ev.event.logIndex = i

theorem mintToTreasuryStep_inv {minted : List Log} {state state' : Progress}
    {ev : ScaledTokenEvent} (hev : ev ∈ scaledEvents)
    (hinv : TreasuryInv market scaledEvents assigned state)
    (h : mintToTreasuryStep market startingOperationId minted state ev = .ok state') :
    TreasuryInv market scaledEvents assigned state' ∧ state.assigned ⊆ state'.assigned ∧
      (isTreasuryInterest market ev = true → ev.event.logIndex ∈ state'.assigned) := by
  unfold mintToTreasuryStep at h
  split at h
  case isTrue hguard =>
    rw [Bool.and_eq_true] at hguard
    split at h
    case isTrue hinterest =>
      cases h
      refine ⟨⟨hinv.operations, fun i hi => List.mem_append_left _ (hinv.assigned_subset hi), ?_⟩,
        List.subset_append_left _ _, by simp⟩
      intro i hi
      rcases List.mem_append.mp hi with hi | hi
      · exact hinv.explained i hi
      · rw [List.mem_singleton] at hi
        exact .inr ⟨ev, hev, by simp [isTreasuryInterest, hguard.2, hinterest], hi.symm⟩
    case isFalse hinterest =>
      obtain ⟨asset, -, h⟩ := bind_eq_ok.mp h
      cases h
      have hnone : isTreasuryInterest market ev = false := by
        simp [isTreasuryInterest, hinterest]
      refine ⟨⟨?_, hinv.assigned_subset, hinv.explained⟩, List.Subset.refl _, by simp [hnone]⟩
      intro op hop
      rcases List.mem_append.mp hop with hop | hop
      · exact hinv.operations op hop
      · rw [List.mem_singleton] at hop
        subst hop
        refine ⟨⟨rfl, ?_, by simp, by simp⟩, by simpa using hnone⟩
        intro ev' hev'
        rw [List.mem_singleton] at hev'
        subst hev'
        refine ⟨hev, ?_⟩
        simp only [ScaledTokenEvent.unassigned, decide_eq_true_eq] at hguard ⊢
        exact fun hmem => hguard.1 (hinv.assigned_subset hmem)
  case isFalse hguard =>
    cases h
    refine ⟨hinv, List.Subset.refl _, ?_⟩
    intro hinterest
    -- a mint of interest that the step passes over was assigned before
    simp only [isTreasuryInterest, Bool.and_eq_true] at hinterest
    by_contra hmem
    exact hguard (by simp [ScaledTokenEvent.unassigned, hmem, hinterest.1])

/-- After the treasury pass, every mint of interest by the Pool is assigned. -/
theorem createMintToTreasuryOperations_spec {minted : List Log} {result : Progress}
    (h : createMintToTreasuryOperations market scaledEvents startingOperationId assigned minted =
      .ok result) :
    TreasuryInv market scaledEvents assigned result ∧
      ∀ ev ∈ scaledEvents, isTreasuryInterest market ev = true →
        ev.event.logIndex ∈ result.assigned := by
  have hstart : TreasuryInv market scaledEvents assigned ⟨[], assigned⟩ :=
    ⟨by simp, List.Subset.refl _, fun i hi => .inl hi⟩
  have hloop : ∀ (todo : List ScaledTokenEvent) (state : Progress), todo ⊆ scaledEvents →
      TreasuryInv market scaledEvents assigned state →
      todo.foldlM (mintToTreasuryStep market startingOperationId minted) state = .ok result →
      TreasuryInv market scaledEvents assigned result ∧ state.assigned ⊆ result.assigned ∧
        ∀ ev ∈ todo, isTreasuryInterest market ev = true →
          ev.event.logIndex ∈ result.assigned := by
    intro todo
    induction todo with
    | nil =>
        intro state _ hinv h
        cases h
        exact ⟨hinv, List.Subset.refl _, by simp⟩
    | cons ev todo ih =>
        intro state hsubset hinv h
        rw [List.foldlM_cons] at h
        obtain ⟨next, hnext, h⟩ := bind_eq_ok.mp h
        obtain ⟨hinv, hgrow, hev⟩ := mintToTreasuryStep_inv (hsubset List.mem_cons_self) hinv hnext
        obtain ⟨hinv, hrest, htodo⟩ := ih next (List.subset_of_cons_subset hsubset) hinv h
        refine ⟨hinv, List.Subset.trans hgrow hrest, ?_⟩
        intro ev' hev' hinterest
        rcases List.mem_cons.mp hev' with rfl | hev'
        · exact hrest (hev hinterest)
        · exact htodo ev' hev' hinterest
  obtain ⟨hinv, -, hassigned⟩ := hloop scaledEvents _ (List.Subset.refl _) hstart h
  exact ⟨hinv, hassigned⟩

/-! ### Passes with a local set -/

/-- What the other passes keep: the operations take what was left, and an index of the local
set belongs to one of them or to an ERC20 transfer. -/
structure LocalInv (scaledEvents : List ScaledTokenEvent) (assigned : List ℕ)
    (state : LocalProgress) : Prop where
  operations : ∀ op ∈ state.operations, PassOperation scaledEvents assigned op
  explained : ∀ i ∈ state.localAssigned, (∃ op ∈ state.operations, i ∈ op.getEventLogIndices) ∨
    ∃ ev ∈ scaledEvents, ev.index = none ∧ ev.event.logIndex = i

theorem localInv_empty : LocalInv scaledEvents assigned ⟨[], []⟩ := ⟨by simp, by simp⟩

/-- A step that adds one operation and takes only indices of its events. -/
theorem LocalInv.append {state : LocalProgress} (hinv : LocalInv scaledEvents assigned state)
    {op : Operation} {taken : List ℕ} (hop : PassOperation scaledEvents assigned op)
    (htaken : ∀ i ∈ taken, i ∈ op.getEventLogIndices) :
    LocalInv scaledEvents assigned
      ⟨state.operations ++ [op], state.localAssigned ++ taken⟩ where
  operations := by
    intro op' hop'
    rcases List.mem_append.mp hop' with hop' | hop'
    · exact hinv.operations op' hop'
    · rw [List.mem_singleton] at hop'
      exact hop' ▸ hop
  explained := by
    intro i hi
    rcases List.mem_append.mp hi with hi | hi
    · rcases hinv.explained i hi with ⟨op', hop', hi⟩ | hi
      · exact .inl ⟨op', List.mem_append_left _ hop', hi⟩
      · exact .inr hi
    · exact .inl ⟨op, by simp, htaken i hi⟩

theorem mem_getEventLogIndices_of_balanceTransfer {op : Operation} {log : Log}
    (hlog : log ∈ op.balanceTransferEvents) : log.logIndex ∈ op.getEventLogIndices :=
  Operation.mem_getEventLogIndices.mpr (.inr (List.mem_map_of_mem hlog))

theorem deficitCoverageStep_inv {state state' : LocalProgress} {btEv : ScaledTokenEvent}
    (hbtEv : btEv ∈ scaledEvents) (hunassigned : btEv.unassigned assigned = true)
    (hinv : LocalInv scaledEvents assigned state)
    (h : deficitCoverageStep scaledEvents startingOperationId assigned state btEv =
      .ok state') :
    LocalInv scaledEvents assigned state' := by
  rw [deficitCoverageStep, bind_eq_ok] at h
  obtain ⟨-, -, h⟩ := h
  split at h
  case h_1 =>
    cases h
    exact hinv
  case h_2 pairedBurn hburn =>
    obtain ⟨-, -, h⟩ := bind_eq_ok.mp h
    cases h
    rw [List.append_assoc]
    have hother : ∀ ev, ev ∈ (scaledEvents.find? fun ev =>
        ev.unassigned (assigned ++ state.localAssigned) && ev.eventType = .collateralTransfer &&
          ev.fromAddress = btEv.fromAddress).toList → ev ∈ scaledEvents ∧
        ev.unassigned assigned = true ∧ ev.eventType = .collateralTransfer := by
      intro ev hev
      rw [Option.mem_toList] at hev
      have htest := List.find?_some hev
      simp only [Bool.and_eq_true, decide_eq_true_eq, unassigned_append] at htest
      exact ⟨List.mem_of_find?_eq_some hev, htest.1.1.1, htest.1.2⟩
    have hpaired : pairedBurn ∈ scaledEvents ∧ pairedBurn.unassigned assigned = true := by
      have htest := List.find?_some hburn
      simp only [Bool.and_eq_true, unassigned_append] at htest
      exact ⟨List.mem_of_find?_eq_some hburn, htest.1.1⟩
    refine hinv.append ⟨rfl, ?_, by simp, ?_⟩ ?_
    · intro ev hev
      rcases List.mem_cons.mp hev with rfl | hev
      · exact ⟨hbtEv, hunassigned⟩
      · rcases List.mem_append.mp hev with hev | hev
        · exact ⟨(hother ev hev).1, (hother ev hev).2.1⟩
        · rw [List.mem_singleton] at hev
          exact hev ▸ hpaired
    · intro log hlog
      obtain ⟨ev, hev, rfl⟩ := List.mem_map.mp hlog
      obtain ⟨hev, htype⟩ := List.mem_filter.mp hev
      refine ⟨ev, ?_, rfl, by simp_all [ScaledTokenEvent.isTransfer]⟩
      rcases List.mem_cons.mp hev with rfl | hev
      · exact hbtEv
      · rcases List.mem_append.mp hev with hev | hev
        · exact (hother ev hev).1
        · rw [List.mem_singleton] at hev
          exact hev ▸ hpaired.1
    · intro i hi
      have hscaled : ∃ ev ∈ btEv :: ((scaledEvents.find? fun ev =>
          ev.unassigned (assigned ++ state.localAssigned) && ev.eventType = .collateralTransfer &&
            ev.fromAddress = btEv.fromAddress).toList ++ [pairedBurn]), ev.event.logIndex = i := by
        rcases List.mem_append.mp hi with hi | hi
        · obtain ⟨ev, hev, rfl⟩ := List.mem_map.mp hi
          exact ⟨ev, List.mem_cons_of_mem _ (List.mem_append_left _ hev), rfl⟩
        · rcases List.mem_pair.mp hi with rfl | rfl
          · exact ⟨btEv, List.mem_cons_self, rfl⟩
          · exact ⟨pairedBurn, by simp, rfl⟩
      obtain ⟨ev, hev, rfl⟩ := hscaled
      exact Operation.mem_getEventLogIndices_of_scaled hev

theorem interestAccrualStep_inv {state : LocalProgress} {ev : ScaledTokenEvent}
    (hev : ev ∈ scaledEvents) (hinv : LocalInv scaledEvents assigned state) :
    LocalInv scaledEvents assigned
      (interestAccrualStep scaledEvents startingOperationId assigned state ev) := by
  unfold interestAccrualStep
  split
  case isTrue hguard =>
    simp only [Bool.and_eq_true, unassigned_append] at hguard
    refine hinv.append ⟨rfl, ?_, ?_, by simp⟩ ?_
    · intro ev' hev'
      rw [List.mem_singleton] at hev'
      exact hev' ▸ ⟨hev, hguard.1.1⟩
    · intro log hlog
      obtain ⟨transfer, htransfer, rfl⟩ := List.mem_map.mp hlog
      rw [Option.mem_toList] at htransfer
      have htest := List.find?_some htransfer
      simp only [isAccrualTransfer, Bool.and_eq_true, decide_eq_true_eq] at htest
      refine ⟨transfer, List.mem_of_find?_eq_some htransfer, rfl, ?_⟩
      simp only [ScaledTokenEvent.isTransfer, ScaledTokenEvent.touchesZero]
      grind
    · intro i hi
      rw [Operation.mem_getEventLogIndices]
      exact .inl (.inr (by simpa [Function.comp_def] using hi))
  case isFalse => exact hinv

theorem transferStep_inv {state state' : LocalProgress} {ev : ScaledTokenEvent}
    (hev : ev ∈ scaledEvents) (hinv : LocalInv scaledEvents assigned state)
    (h : transferStep scaledEvents startingOperationId assigned state ev = .ok state') :
    LocalInv scaledEvents assigned state' := by
  unfold transferStep at h
  split at h
  case isTrue hguard =>
    rw [unassigned_append] at hguard
    simp only [bind_eq_ok, assertThat_eq_ok, Option.isNone_iff_eq_none] at h
    obtain ⟨-, -, -, hindex, h⟩ := h
    split at h
    · cases h
      refine ⟨hinv.operations, ?_⟩
      intro i hi
      rcases List.mem_append.mp hi with hi | hi
      · exact hinv.explained i hi
      · rw [List.mem_singleton] at hi
        exact .inr ⟨ev, hev, hindex, hi.symm⟩
    · cases h
      refine hinv.append ⟨rfl, ?_, by simp, ?_⟩ ?_
      · intro ev' hev'
        rw [List.mem_singleton] at hev'
        exact hev' ▸ ⟨hev, hguard.1⟩
      · intro log hlog
        obtain ⟨btEv, hbtEv, rfl⟩ := List.mem_map.mp hlog
        rw [Option.mem_toList] at hbtEv
        have htest := List.find?_some hbtEv
        simp only [isMatchingBalanceTransfer, areCompatibleTransferTypes, Bool.and_eq_true,
          decide_eq_true_eq] at htest
        refine ⟨btEv, List.mem_of_find?_eq_some hbtEv, rfl, ?_⟩
        simp only [ScaledTokenEvent.isTransfer]
        grind
      · intro i hi
        obtain ⟨btEv, hbtEv, rfl⟩ := List.mem_map.mp hi
        exact mem_getEventLogIndices_of_balanceTransfer (List.mem_map_of_mem hbtEv)
  case isFalse =>
    cases h
    exact hinv

theorem createDeficitCoverageOperations_spec {result : Progress}
    (h : createDeficitCoverageOperations scaledEvents startingOperationId assigned = .ok result) :
    ∃ state, LocalInv scaledEvents assigned state ∧ result.operations = state.operations ∧
      result.assigned = assigned ++ state.localAssigned := by
  rw [createDeficitCoverageOperations, bind_eq_ok] at h
  obtain ⟨state, hstate, h⟩ := h
  cases h
  refine ⟨state, ?_, rfl, rfl⟩
  apply foldlM_invariant _ localInv_empty hstate
  intro btEv hbtEv before after hinv hstep
  obtain ⟨hmem, hguard⟩ := List.mem_filter.mp hbtEv
  rw [Bool.and_eq_true] at hguard
  exact deficitCoverageStep_inv hmem hguard.1 hinv hstep

theorem createInterestAccrualOperations_spec {op : Operation}
    (hop : op ∈ createInterestAccrualOperations scaledEvents startingOperationId assigned) :
    PassOperation scaledEvents assigned op := by
  have hloop : ∀ (todo : List ScaledTokenEvent) (state : LocalProgress), todo ⊆ scaledEvents →
      LocalInv scaledEvents assigned state → LocalInv scaledEvents assigned
        (todo.foldl (interestAccrualStep scaledEvents startingOperationId assigned) state) := by
    intro todo
    induction todo with
    | nil => exact fun state _ hinv => hinv
    | cons ev todo ih =>
        intro state hsubset hinv
        exact ih _ (List.subset_of_cons_subset hsubset)
          (interestAccrualStep_inv (hsubset List.mem_cons_self) hinv)
  exact (hloop scaledEvents _ (List.Subset.refl _) localInv_empty).operations op hop

theorem createTransferOperations_spec {result : Progress}
    (h : createTransferOperations scaledEvents startingOperationId assigned = .ok result) :
    ∃ state, LocalInv scaledEvents assigned state ∧ result.operations = state.operations ∧
      result.assigned = assigned ++ state.localAssigned := by
  rw [createTransferOperations, bind_eq_ok] at h
  obtain ⟨state, hstate, h⟩ := h
  cases h
  refine ⟨state, ?_, rfl, rfl⟩
  apply foldlM_invariant _ localInv_empty hstate
  intro ev hev before after hinv hstep
  exact transferStep_inv hev hinv hstep

end Passes

/-! ## The account of a whole run -/

/-- Why an index is in the assigned set. -/
inductive Explained (market : Market) (scaledEvents : List ScaledTokenEvent)
    (operations : List Operation) (i : ℕ) : Prop where
  | operation {op : Operation} (hop : op ∈ operations) (hi : i ∈ op.getEventLogIndices)
  | liquidityIndex {ev : ScaledTokenEvent} (hev : ev ∈ scaledEvents)
      (hburn : isDebtBurn ev = true) (hindex : ev.index = some i)
  | treasuryInterest {ev : ScaledTokenEvent} (hev : ev ∈ scaledEvents)
      (hinterest : isTreasuryInterest market ev = true) (hi : ev.event.logIndex = i)
  | erc20Transfer {ev : ScaledTokenEvent} (hev : ev ∈ scaledEvents) (hindex : ev.index = none)
      (hi : ev.event.logIndex = i)

structure Progress.Accounted (market : Market) (events : List Log)
    (scaledEvents : List ScaledTokenEvent) (state : Progress) : Prop where
  drawn : ∀ op ∈ state.operations, op.Drawn events scaledEvents
  explained : ∀ i ∈ state.assigned, Explained market scaledEvents state.operations i
  /-- Mints of interest by the Pool are left to the operations of pool events. -/
  interest : ∀ op ∈ state.operations, op.poolEvent = none →
    ∀ ev ∈ op.scaledTokenEvents, isTreasuryInterest market ev = false

section Run

variable {market : Market} {events : List Log} {scaledEvents : List ScaledTokenEvent}
  {state state' : Progress}

theorem Explained.mono {operations operations' : List Operation} {i : ℕ}
    (h : Explained market scaledEvents operations i) (hsubset : operations ⊆ operations') :
    Explained market scaledEvents operations' i := by
  cases h with
  | operation hop hi => exact .operation (hsubset hop) hi
  | liquidityIndex hev hburn hindex => exact .liquidityIndex hev hburn hindex
  | treasuryInterest hev hinterest hi => exact .treasuryInterest hev hinterest hi
  | erc20Transfer hev hindex hi => exact .erc20Transfer hev hindex hi

/-- Adding operations, with an account of what they assign. -/
theorem Progress.Accounted.append {operations : List Operation} {assigned : List ℕ}
    (hstate : state.Accounted market events scaledEvents)
    (hdrawn : ∀ op ∈ operations, op.Drawn events scaledEvents)
    (hinterest : ∀ op ∈ operations, op.poolEvent = none →
      ∀ ev ∈ op.scaledTokenEvents, isTreasuryInterest market ev = false)
    (hassigned : ∀ i ∈ assigned, i ∈ state.assigned ∨
      Explained market scaledEvents (state.operations ++ operations) i) :
    (Progress.mk (state.operations ++ operations) assigned).Accounted market events
      scaledEvents where
  drawn := by
    intro op hop
    rcases List.mem_append.mp hop with hop | hop
    · exact hstate.drawn op hop
    · exact hdrawn op hop
  explained := by
    intro i hi
    rcases hassigned i hi with hi | hi
    · exact (hstate.explained i hi).mono (List.subset_append_left _ _)
    · exact hi
  interest := by
    intro op hop
    rcases List.mem_append.mp hop with hop | hop
    · exact hstate.interest op hop
    · exact hinterest op hop

theorem explained_scaledLogIndices {before operations : List Operation} {i : ℕ}
    (hi : i ∈ scaledLogIndices operations) :
    Explained market scaledEvents (before ++ operations) i := by
  obtain ⟨op, hop, hi⟩ := List.mem_flatMap.mp hi
  obtain ⟨ev, hev, rfl⟩ := List.mem_map.mp hi
  exact .operation (List.mem_append_right _ hop) (Operation.mem_getEventLogIndices_of_scaled hev)

theorem poolEventStep_eq_ok {poolEvent : Log}
    (h : poolEventStep market events scaledEvents state poolEvent = .ok state') :
    ∃ op assigned', PoolOperation market scaledEvents state.assigned state.operations.length
        poolEvent events op assigned' ∧
      state' = ⟨state.operations ++ [op], assigned' ++ op.getEventLogIndices⟩ := by
  rw [poolEventStep, bind_eq_ok] at h
  obtain ⟨⟨op, assigned'⟩, hcreate, h⟩ := h
  exact ⟨op, assigned', poolOperation_of_create hcreate, (Except.ok.inj h).symm⟩

theorem PoolOperation.explained_assigned {assigned assigned' : List ℕ} {operationId : ℕ}
    {poolEvent : Log} {op : Operation}
    (h : PoolOperation market scaledEvents assigned operationId poolEvent events op assigned')
    {i : ℕ} (hi : i ∈ assigned') :
    i ∈ assigned ∨ i ∈ op.getEventLogIndices ∨
      ∃ ev ∈ scaledEvents, isDebtBurn ev = true ∧ ev.index = some i := by
  cases h with
  | supply | withdrawBurn | withdrawMint | borrow | repay | repayWithATokens | deficit =>
      exact .inl hi
  | liquidation hdata hisGho haToken hvToken hanalysis hburns hmint =>
      obtain ⟨hcollected, hassign⟩ := collectedBurns_of_collect hburns
      rcases (mem_assignBurns hassign).mp hi with hi | ⟨ev, hev, rfl | hindex⟩
      · exact .inl hi
      · refine .inr (.inl (Operation.mem_getEventLogIndices_of_scaled ?_))
        simp [hev]
      · exact .inr (.inr ⟨ev, (hcollected.mem hev).1, (hcollected.mem hev).2.2.2, hindex⟩)

theorem poolEventStep_accounted {poolEvent : Log} (hmem : poolEvent ∈ events)
    (hpool : poolEvent.isPoolEvent = true) (hstate : state.Accounted market events scaledEvents)
    (h : poolEventStep market events scaledEvents state poolEvent = .ok state') :
    state'.Accounted market events scaledEvents := by
  obtain ⟨op, assigned', hop, rfl⟩ := poolEventStep_eq_ok h
  apply hstate.append
  · intro op' hop'
    rw [List.mem_singleton] at hop'
    exact hop' ▸ hop.drawn hmem hpool
  · intro op' hop' hnone
    rw [List.mem_singleton] at hop'
    subst hop'
    rw [hop.poolEvent_eq] at hnone
    cases hnone
  · intro i hi
    have hnew : i ∈ op.getEventLogIndices →
        Explained market scaledEvents (state.operations ++ [op]) i :=
      fun hi => .operation (by simp) hi
    rcases List.mem_append.mp hi with hi | hi
    · rcases hop.explained_assigned hi with hi | hi | ⟨ev, hev, hburn, hindex⟩
      · exact .inl hi
      · exact .inr (hnew hi)
      · exact .inr (.liquidityIndex hev hburn hindex)
    · exact .inr (hnew hi)

theorem mem_extractPoolEvents {log : Log} :
    log ∈ extractPoolEvents events ↔ log ∈ events ∧ log.isPoolEvent = true := by
  rw [extractPoolEvents, List.mem_insertionSort, List.mem_filter]

theorem poolEventPass_accounted (h : poolEventPass market events scaledEvents = .ok state) :
    state.Accounted market events scaledEvents := by
  have hstart : (Progress.mk [] []).Accounted market events scaledEvents :=
    ⟨by simp, by simp, by simp⟩
  apply foldlM_invariant _ hstart h
  intro poolEvent hpoolEvent before after hinv hstep
  obtain ⟨hmem, hpool⟩ := mem_extractPoolEvents.mp hpoolEvent
  exact poolEventStep_accounted hmem hpool hinv hstep

/-- After the treasury pass, nothing is left of the mints of interest by the Pool. -/
def Progress.InterestAssigned (market : Market) (scaledEvents : List ScaledTokenEvent)
    (state : Progress) : Prop :=
  ∀ ev ∈ scaledEvents, isTreasuryInterest market ev = true → ev.event.logIndex ∈ state.assigned

theorem mintToTreasuryPass_accounted (hstate : state.Accounted market events scaledEvents)
    (h : mintToTreasuryPass market events scaledEvents state = .ok state') :
    state'.Accounted market events scaledEvents ∧ state'.InterestAssigned market scaledEvents := by
  rw [mintToTreasuryPass, bind_eq_ok] at h
  obtain ⟨result, hresult, h⟩ := h
  cases h
  obtain ⟨hinv, hinterest⟩ := createMintToTreasuryOperations_spec hresult
  constructor
  · apply hstate.append
    · exact fun op hop => (hinv.operations op hop).1.drawn
    · exact fun op hop _ => (hinv.operations op hop).2
    · intro i hi
      rcases List.mem_append.mp hi with hi | hi
      · rcases hinv.explained i hi with hi | ⟨ev, hev, hinterest, hi⟩
        · exact .inl hi
        · exact .inr (.treasuryInterest hev hinterest hi)
      · exact .inr (explained_scaledLogIndices hi)
  · intro ev hev hev'
    exact List.mem_append_left _ (hinterest ev hev hev')

theorem PassOperation.not_interest {op : Operation}
    (hop : PassOperation scaledEvents state.assigned op)
    (hassigned : state.InterestAssigned market scaledEvents) {ev : ScaledTokenEvent}
    (hev : ev ∈ op.scaledTokenEvents) : isTreasuryInterest market ev = false := by
  obtain ⟨hmem, hunassigned⟩ := hop.taken ev hev
  by_contra hinterest
  rw [Bool.not_eq_false] at hinterest
  simp only [ScaledTokenEvent.unassigned, decide_eq_true_eq] at hunassigned
  exact hunassigned (hassigned ev hmem hinterest)

/-- The indices of a local set, explained by the operations that go with it. -/
theorem LocalInv.explained_append {before : List Operation} {assigned : List ℕ}
    {pass : LocalProgress} (hinv : LocalInv scaledEvents assigned pass) {i : ℕ}
    (hi : i ∈ assigned ++ pass.localAssigned) :
    i ∈ assigned ∨ Explained market scaledEvents (before ++ pass.operations) i := by
  rcases List.mem_append.mp hi with hi | hi
  · exact .inl hi
  · rcases hinv.explained i hi with ⟨op, hop, hi⟩ | ⟨ev, hev, hindex, hi⟩
    · exact .inr (.operation (List.mem_append_right _ hop) hi)
    · exact .inr (.erc20Transfer hev hindex hi)

theorem deficitCoveragePass_accounted (hstate : state.Accounted market events scaledEvents)
    (hassigned : state.InterestAssigned market scaledEvents)
    (h : deficitCoveragePass scaledEvents state = .ok state') :
    state'.Accounted market events scaledEvents ∧ state'.InterestAssigned market scaledEvents := by
  rw [deficitCoveragePass, bind_eq_ok] at h
  obtain ⟨result, hresult, h⟩ := h
  cases h
  obtain ⟨pass, hinv, hoperations, hresultAssigned⟩ := createDeficitCoverageOperations_spec hresult
  rw [hoperations, hresultAssigned]
  constructor
  · apply hstate.append
    · exact fun op hop => (hinv.operations op hop).drawn
    · exact fun op hop _ ev hev => (hinv.operations op hop).not_interest hassigned hev
    · intro i hi
      rcases List.mem_append.mp hi with hi | hi
      · exact hinv.explained_append hi
      · exact .inr (explained_scaledLogIndices hi)
  · intro ev hev hinterest
    simp [hassigned ev hev hinterest]

theorem interestAccrualPass_accounted (hstate : state.Accounted market events scaledEvents)
    (hassigned : state.InterestAssigned market scaledEvents) :
    (interestAccrualPass scaledEvents state).Accounted market events scaledEvents ∧
      (interestAccrualPass scaledEvents state).InterestAssigned market scaledEvents := by
  constructor
  · apply hstate.append
    · exact fun op hop => (createInterestAccrualOperations_spec hop).drawn
    · exact fun op hop _ ev hev =>
        (createInterestAccrualOperations_spec hop).not_interest hassigned hev
    · intro i hi
      rcases List.mem_append.mp hi with hi | hi
      · rcases List.mem_append.mp hi with hi | hi
        · exact .inl hi
        · exact .inr (explained_scaledLogIndices hi)
      · obtain ⟨op, hop, hi⟩ := List.mem_flatMap.mp hi
        exact .inr (.operation (List.mem_append_right _ hop)
          (Operation.mem_getEventLogIndices.mpr (.inl (.inr hi))))
  · intro ev hev hinterest
    simp [interestAccrualPass, hassigned ev hev hinterest]

theorem transferPass_accounted (hstate : state.Accounted market events scaledEvents)
    (hassigned : state.InterestAssigned market scaledEvents)
    (h : transferPass scaledEvents state = .ok state') :
    state'.Accounted market events scaledEvents := by
  rw [transferPass, bind_eq_ok] at h
  obtain ⟨result, hresult, h⟩ := h
  cases h
  obtain ⟨pass, hinv, hoperations, hresultAssigned⟩ := createTransferOperations_spec hresult
  rw [hoperations, hresultAssigned]
  apply hstate.append
  · exact fun op hop => (hinv.operations op hop).drawn
  · exact fun op hop _ ev hev => (hinv.operations op hop).not_interest hassigned hev
  · exact fun i hi => hinv.explained_append hi

theorem runPasses_accounted (h : runPasses market events scaledEvents = .ok state) :
    state.Accounted market events scaledEvents := by
  simp only [runPasses, bind_eq_ok] at h
  obtain ⟨pool, hpool, treasury, htreasury, deficit, hdeficit, h⟩ := h
  obtain ⟨htreasury, hassigned⟩ :=
    mintToTreasuryPass_accounted (poolEventPass_accounted hpool) htreasury
  obtain ⟨hdeficit, hassigned⟩ := deficitCoveragePass_accounted htreasury hassigned hdeficit
  obtain ⟨haccrual, hassigned⟩ := interestAccrualPass_accounted hdeficit hassigned
  exact transferPass_accounted haccrual hassigned h

end Run

end Degenbot.AaveParser
