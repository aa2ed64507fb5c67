import Degenbot.Library.Outcome
import Degenbot.Algorithm.AaveOperations
import Mathlib.Data.List.ReduceOption

/-! # Decoded token events

The events of a parsed transaction against its logs, and the log indices of an operation. -/

namespace Degenbot.AaveParser

open Library

/-! ## Assertions -/

@[simp] theorem assertThat_eq_ok {p : Bool} {u : Unit} : assertThat p = .ok u ↔ p = true := by
  cases p <;> simp [assertThat]

@[simp] theorem assertSome_eq_ok {α : Type} {value : Option α} {a : α} :
    assertSome value = .ok a ↔ value = some a := by
  cases value <;> simp [assertSome]

/-! ## Decoding -/

section Decode

variable {market : Market} {events : List Log} {scaledEvents : List ScaledTokenEvent}

@[simp] theorem mem_sortByLogIndex {xs : List ScaledTokenEvent} {ev : ScaledTokenEvent} :
    ev ∈ sortByLogIndex xs ↔ ev ∈ xs :=
  List.mem_insertionSort _

theorem extractScaledTokenEvents_eq_ok
    (h : extractScaledTokenEvents market events = .ok scaledEvents) :
    ∃ result, events.mapM (decodeScaledTokenEvent market) = .ok result ∧
      scaledEvents = sortByLogIndex result.reduceOption := by
  rw [extractScaledTokenEvents, bind_eq_ok] at h
  obtain ⟨result, hresult, h⟩ := h
  exact ⟨result, hresult, (Except.ok.inj h).symm⟩

theorem decodeScaledTokenEvent_event {log : Log} {ev : ScaledTokenEvent}
    (h : decodeScaledTokenEvent market log = .ok (some ev)) : ev.event = log := by
  unfold decodeScaledTokenEvent at h
  split at h
  · simp only [decodeMintEvent, map_eq_ok, bind_eq_ok, Except.ok.injEq, Option.some.injEq] at h
    obtain ⟨_, ⟨eventType, -, rfl⟩, rfl⟩ := h
    rfl
  · simp only [decodeBurnEvent, map_eq_ok, bind_eq_ok, Except.ok.injEq, Option.some.injEq] at h
    obtain ⟨_, ⟨eventType, -, rfl⟩, rfl⟩ := h
    rfl
  · simp only [decodeBalanceTransferEvent, map_eq_ok, bind_eq_ok, Except.ok.injEq,
      Option.some.injEq] at h
    obtain ⟨_, ⟨eventType, -, rfl⟩, rfl⟩ := h
    rfl
  · simp only [decodeTransferEvent, Except.ok.injEq, Option.map_eq_some_iff] at h
    obtain ⟨eventType, -, rfl⟩ := h
    rfl
  · cases h

/-- An event of the list decodes a log of the transaction. -/
theorem decode_of_mem_extract (h : extractScaledTokenEvents market events = .ok scaledEvents)
    {ev : ScaledTokenEvent} (hev : ev ∈ scaledEvents) :
    ev.event ∈ events ∧ decodeScaledTokenEvent market ev.event = .ok (some ev) := by
  obtain ⟨result, hresult, rfl⟩ := extractScaledTokenEvents_eq_ok h
  rw [mem_sortByLogIndex, List.reduceOption_mem_iff] at hev
  obtain ⟨log, hlog, hdecode⟩ := exists_of_mapM_eq_ok hresult hev
  rw [decodeScaledTokenEvent_event hdecode]
  exact ⟨hlog, hdecode⟩

/-- The types that searches for a `Transfer` accept, `BalanceTransfer` logs included. -/
def ScaledTokenEvent.isTransfer (ev : ScaledTokenEvent) : Bool :=
  ev.eventType ∈ [.collateralTransfer, .debtTransfer, .discountTransfer, .ghoDebtTransfer,
    .erc20CollateralTransfer, .erc20DebtTransfer]

theorem getEventTypeForToken_eq_ok {address : ℕ} {category : EventCategory}
    {eventType : ScaledTokenEventType}
    (h : getEventTypeForToken market address category = .ok eventType) :
    eventType = category.types.1 ∨ eventType = category.types.2 ∨
      category.ghoType = some eventType := by
  have hlookup : getScaledTokenType market address category = .ok eventType →
      eventType = category.types.1 ∨ eventType = category.types.2 := by
    intro h
    unfold getScaledTokenType at h
    split at h
    · exact .inl (Except.ok.inj h).symm
    · exact .inr (Except.ok.inj h).symm
    · cases h
  unfold getEventTypeForToken at h
  split at h
  case h_1 ghoType hghoType =>
    split at h
    · cases h
      exact .inr (.inr hghoType)
    · rcases hlookup h with h | h
      · exact .inl h
      · exact .inr (.inl h)
  case h_2 =>
    rcases hlookup h with h | h
    · exact .inl h
    · exact .inr (.inl h)

/-- The kinds of decoded events, with the fields that the passes compare. -/
theorem decodeScaledTokenEvent_cases {log : Log} {ev : ScaledTokenEvent}
    (h : decodeScaledTokenEvent market log = .ok (some ev)) :
    (∃ caller user amount balanceIncrease index,
      log.data = .mint caller user amount balanceIncrease index ∧
      ev.eventType ∈ [ScaledTokenEventType.collateralMint, .debtMint, .ghoDebtMint] ∧
      ev.index = some index) ∨
    (∃ fromAddr target amount balanceIncrease index,
      log.data = .burn fromAddr target amount balanceIncrease index ∧
      ev.eventType ∈ [ScaledTokenEventType.collateralBurn, .debtBurn, .ghoDebtBurn] ∧
      ev.index = some index) ∨
    (∃ fromAddr toAddr amount index, log.data = .balanceTransfer fromAddr toAddr amount index ∧
      ev.eventType ∈ [ScaledTokenEventType.collateralTransfer, .debtTransfer] ∧
      ev.index = some index ∧ ev.fromAddress = some fromAddr ∧ ev.targetAddress = some toAddr) ∨
    (∃ fromAddr toAddr amount, log.data = .transfer fromAddr toAddr amount ∧
      ev.index = none) := by
  unfold decodeScaledTokenEvent at h
  split at h
  case h_1 hdata =>
    simp only [decodeMintEvent, map_eq_ok, bind_eq_ok, Except.ok.injEq, Option.some.injEq] at h
    obtain ⟨_, ⟨eventType, htype, rfl⟩, rfl⟩ := h
    refine .inl ⟨_, _, _, _, _, hdata, ?_, rfl⟩
    have hcases := getEventTypeForToken_eq_ok htype
    simp only [EventCategory.types, EventCategory.ghoType, Option.some.injEq] at hcases
    grind
  case h_2 hdata =>
    simp only [decodeBurnEvent, map_eq_ok, bind_eq_ok, Except.ok.injEq, Option.some.injEq] at h
    obtain ⟨_, ⟨eventType, htype, rfl⟩, rfl⟩ := h
    refine .inr (.inl ⟨_, _, _, _, _, hdata, ?_, rfl⟩)
    have hcases := getEventTypeForToken_eq_ok htype
    simp only [EventCategory.types, EventCategory.ghoType, Option.some.injEq] at hcases
    grind
  case h_3 hdata =>
    simp only [decodeBalanceTransferEvent, map_eq_ok, bind_eq_ok, Except.ok.injEq,
      Option.some.injEq] at h
    obtain ⟨_, ⟨eventType, htype, rfl⟩, rfl⟩ := h
    refine .inr (.inr (.inl ⟨_, _, _, _, hdata, ?_, rfl, rfl, rfl⟩))
    have hcases := getEventTypeForToken_eq_ok htype
    simp only [EventCategory.types, EventCategory.ghoType, reduceCtorEq, or_false] at hcases
    grind
  case h_4 hdata =>
    simp only [decodeTransferEvent, Except.ok.injEq, Option.map_eq_some_iff] at h
    obtain ⟨eventType, -, rfl⟩ := h
    exact .inr (.inr (.inr ⟨_, _, _, hdata, rfl⟩))
  case h_5 => cases h

/-- The types of mints and burns of the GHO debt token. -/
def ScaledTokenEventType.isGhoDebt (eventType : ScaledTokenEventType) : Bool :=
  eventType ∈ [.ghoDebtBurn, .ghoDebtMint]

theorem ghoVToken_of_getEventTypeForToken {address : ℕ} {category : EventCategory}
    {eventType : ScaledTokenEventType}
    (h : getEventTypeForToken market address category = .ok eventType)
    (htype : eventType.isGhoDebt = true) : market.ghoVTokenAddress = some address := by
  have hlookup : getScaledTokenType market address category ≠ .ok eventType := by
    intro h
    unfold getScaledTokenType at h
    split at h
    · rw [← Except.ok.inj h] at htype
      cases category <;> simp [EventCategory.types, ScaledTokenEventType.isGhoDebt] at htype
    · rw [← Except.ok.inj h] at htype
      cases category <;> simp [EventCategory.types, ScaledTokenEventType.isGhoDebt] at htype
    · cases h
  unfold getEventTypeForToken at h
  split at h
  case h_1 =>
    split at h
    case isTrue hgho => exact hgho
    case isFalse => exact absurd h hlookup
  case h_2 => exact absurd h hlookup

/-- Only the GHO debt token emits mints and burns of its types. -/
theorem ghoVToken_of_isGhoDebt {log : Log} {ev : ScaledTokenEvent}
    (h : decodeScaledTokenEvent market log = .ok (some ev))
    (htype : ev.eventType.isGhoDebt = true) :
    market.ghoVTokenAddress = some ev.event.address := by
  unfold decodeScaledTokenEvent at h
  split at h
  case h_1 =>
    simp only [decodeMintEvent, map_eq_ok, bind_eq_ok, Except.ok.injEq, Option.some.injEq] at h
    obtain ⟨_, ⟨eventType, heventType, rfl⟩, rfl⟩ := h
    exact ghoVToken_of_getEventTypeForToken heventType htype
  case h_2 =>
    simp only [decodeBurnEvent, map_eq_ok, bind_eq_ok, Except.ok.injEq, Option.some.injEq] at h
    obtain ⟨_, ⟨eventType, heventType, rfl⟩, rfl⟩ := h
    exact ghoVToken_of_getEventTypeForToken heventType htype
  case h_3 =>
    simp only [decodeBalanceTransferEvent, map_eq_ok, bind_eq_ok, Except.ok.injEq,
      Option.some.injEq] at h
    obtain ⟨_, ⟨eventType, heventType, rfl⟩, rfl⟩ := h
    exact ghoVToken_of_getEventTypeForToken heventType htype
  case h_4 =>
    simp only [decodeTransferEvent, Except.ok.injEq, Option.map_eq_some_iff] at h
    obtain ⟨eventType, heventType, rfl⟩ := h
    unfold transferEventType at heventType
    split at heventType
    case isTrue hgho => exact hgho
    case isFalse =>
      split at heventType <;> cases heventType <;>
        simp [ScaledTokenEventType.isGhoDebt] at htype
  case h_5 => cases h

end Decode

/-! ## Log indices of an operation -/

theorem mem_logIndices_appendUnseen {events new : List Log} {i : ℕ} :
    i ∈ (appendUnseen events new).map Log.logIndex ↔
      i ∈ events.map Log.logIndex ∨ i ∈ new.map Log.logIndex := by
  rw [appendUnseen, List.map_append, List.mem_append]
  constructor
  · rintro (hi | hi)
    · exact .inl hi
    · obtain ⟨log, hlog, rfl⟩ := List.mem_map.mp hi
      exact .inr (List.mem_map_of_mem (List.mem_filter.mp hlog).1)
  · rintro (hi | hi)
    · exact .inl hi
    · by_cases hseen : i ∈ events.map Log.logIndex
      · exact .inl hseen
      · obtain ⟨log, hlog, rfl⟩ := List.mem_map.mp hi
        exact .inr (List.mem_map_of_mem (List.mem_filter.mpr ⟨hlog, by simpa using hseen⟩))

theorem Operation.mem_getEventLogIndices {op : Operation} {i : ℕ} :
    i ∈ op.getEventLogIndices ↔
      ((i ∈ op.poolEvent.toList.map Log.logIndex ∨
        i ∈ op.scaledTokenEvents.map (·.event.logIndex)) ∨
        i ∈ op.transferEvents.map Log.logIndex) ∨
        i ∈ op.balanceTransferEvents.map Log.logIndex := by
  simp only [Operation.getEventLogIndices, Operation.getAllEvents, mem_logIndices_appendUnseen,
    List.map_map, Function.comp_def]

theorem Operation.mem_getEventLogIndices_of_scaled {op : Operation} {ev : ScaledTokenEvent}
    (hev : ev ∈ op.scaledTokenEvents) : ev.event.logIndex ∈ op.getEventLogIndices :=
  Operation.mem_getEventLogIndices.mpr (.inl (.inl (.inr (List.mem_map_of_mem hev))))

end Degenbot.AaveParser
