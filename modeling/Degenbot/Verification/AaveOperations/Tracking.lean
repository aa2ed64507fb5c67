import Degenbot.Verification.AaveOperations.Accounting

/-! # Mints and burns through the pool events

Log indices identify the events of a transaction, so a mint or a burn is assigned exactly
when an operation attaches it. -/

namespace Degenbot.AaveParser

open Library

section Order

variable {market : Market} {events : List Log} {scaledEvents : List ScaledTokenEvent}

theorem sublist_of_mapM_decode {result : List (Option ScaledTokenEvent)}
    (h : events.mapM (decodeScaledTokenEvent market) = .ok result) :
    (result.reduceOption.map ScaledTokenEvent.event).Sublist events := by
  induction events generalizing result with
  | nil =>
      cases h
      exact List.Sublist.refl _
  | cons log events ih =>
      rw [List.mapM_cons] at h
      obtain ⟨decoded, hdecoded, h⟩ := bind_eq_ok.mp h
      obtain ⟨rest, hrest, h⟩ := bind_eq_ok.mp h
      cases h
      cases decoded with
      | none => exact (ih hrest).cons log
      | some ev =>
          rw [List.reduceOption_cons_of_some, List.map_cons, decodeScaledTokenEvent_event hdecoded]
          exact (ih hrest).cons_cons log

theorem sortByLogIndex_pairwise (xs : List ScaledTokenEvent) :
    (sortByLogIndex xs).Pairwise fun a b => a.event.logIndex ≤ b.event.logIndex :=
  List.pairwise_insertionSort _ xs

theorem sortByLogIndex_eq_self {xs : List ScaledTokenEvent}
    (h : xs.Pairwise fun a b => a.event.logIndex ≤ b.event.logIndex) : sortByLogIndex xs = xs :=
  List.Pairwise.insertionSort_eq h

variable (hdistinct : (events.map Log.logIndex).Nodup)
  (hextract : extractScaledTokenEvents market events = .ok scaledEvents)

include hdistinct hextract

theorem scaledEvents_pairwise :
    scaledEvents.Pairwise fun a b => a.event.logIndex < b.event.logIndex := by
  obtain ⟨result, hresult, rfl⟩ := extractScaledTokenEvents_eq_ok hextract
  have hsublist := (sublist_of_mapM_decode hresult).map Log.logIndex
  have hnodup : (result.reduceOption.map fun ev => ev.event.logIndex).Nodup := by
    rw [List.map_map] at hsublist
    exact hdistinct.sublist hsublist
  have hsorted : ((sortByLogIndex result.reduceOption).map fun ev => ev.event.logIndex).Nodup :=
    (List.Perm.map _ (List.perm_insertionSort _ _)).nodup_iff.mpr hnodup
  have hle := sortByLogIndex_pairwise result.reduceOption
  rw [List.nodup_iff_pairwise_ne, List.pairwise_map] at hsorted
  exact (hle.and hsorted).imp fun h => lt_of_le_of_ne h.1 h.2

theorem eq_of_event_logIndex_eq {ev ev' : ScaledTokenEvent} (hev : ev ∈ scaledEvents)
    (hev' : ev' ∈ scaledEvents) (h : ev.event.logIndex = ev'.event.logIndex) : ev = ev' := by
  obtain ⟨hmem, hdecode⟩ := decode_of_mem_extract hextract hev
  obtain ⟨hmem', hdecode'⟩ := decode_of_mem_extract hextract hev'
  have hlog := List.inj_on_of_nodup_map hdistinct hmem hmem' h
  rw [hlog, hdecode'] at hdecode
  exact (Option.some.inj (Except.ok.inj hdecode)).symm

omit hdistinct in
theorem event_not_poolEvent {ev : ScaledTokenEvent} (hev : ev ∈ scaledEvents) :
    ev.event.isPoolEvent = false := by
  have hdecode := (decode_of_mem_extract hextract hev).2
  unfold decodeScaledTokenEvent at hdecode
  unfold Log.isPoolEvent
  split at hdecode
  case h_5 => cases hdecode
  all_goals simp_all

/-- A mint or a burn has its log index in an operation only as a scaled event. -/
theorem Operation.Drawn.mem_getEventLogIndices_iff {op : Operation}
    (hdrawn : op.Drawn events scaledEvents) {ev : ScaledTokenEvent} (hev : ev ∈ scaledEvents)
    (htransfer : ev.isTransfer = false) :
    ev.event.logIndex ∈ op.getEventLogIndices ↔ ev ∈ op.scaledTokenEvents := by
  have hnotTransfer : ∀ ev' ∈ scaledEvents, ev'.isTransfer = true →
      ev'.event.logIndex ≠ ev.event.logIndex := by
    intro ev' hev' htransfer' heq
    rw [eq_of_event_logIndex_eq hdistinct hextract hev' hev heq, htransfer] at htransfer'
    cases htransfer'
  constructor
  · intro hi
    rcases Operation.mem_getEventLogIndices.mp hi with ((hi | hi) | hi) | hi
    · obtain ⟨poolEvent, hpoolEvent, hi⟩ := List.mem_map.mp hi
      obtain ⟨hmem, hpool⟩ := hdrawn.pool poolEvent (Option.mem_toList.mp hpoolEvent)
      have hlog := List.inj_on_of_nodup_map hdistinct hmem (decode_of_mem_extract hextract hev).1 hi
      rw [hlog, event_not_poolEvent hextract hev] at hpool
      cases hpool
    · obtain ⟨ev', hev', hi⟩ := List.mem_map.mp hi
      rwa [← eq_of_event_logIndex_eq hdistinct hextract (hdrawn.scaled ev' hev') hev hi]
    · obtain ⟨log, hlog, hi⟩ := List.mem_map.mp hi
      obtain ⟨ev', hev', rfl, htransfer', -⟩ := hdrawn.transfer log hlog
      exact absurd hi (hnotTransfer ev' hev' htransfer')
    · obtain ⟨log, hlog, hi⟩ := List.mem_map.mp hi
      obtain ⟨ev', hev', rfl, htransfer'⟩ := hdrawn.balanceTransfer log hlog
      exact absurd hi (hnotTransfer ev' hev' htransfer')
  · exact Operation.mem_getEventLogIndices_of_scaled

end Order

/-! ## One pool event -/

section Step

variable {market : Market} {events : List Log} {scaledEvents : List ScaledTokenEvent}
  {assigned assigned' : List ℕ} {operationId : ℕ} {poolEvent : Log} {op : Operation}

theorem PoolOperation.assigned_subset
    (h : PoolOperation market scaledEvents assigned operationId poolEvent events op assigned') :
    assigned ⊆ assigned' := by
  cases h with
  | supply | withdrawBurn | withdrawMint | borrow | repay | repayWithATokens | deficit =>
      exact List.Subset.refl _
  | liquidation hdata hisGho haToken hvToken hanalysis hburns hmint =>
      intro i hi
      exact (mem_assignBurns (collectedBurns_of_collect hburns).2).mpr (.inl hi)

/-- No debt burn has this log index as its liquidity index. -/
def NoBurnIndex (scaledEvents : List ScaledTokenEvent) (ev : ScaledTokenEvent) : Prop :=
  ∀ burn ∈ scaledEvents, isDebtBurn burn = true → burn.index ≠ some ev.event.logIndex

/-- After the step for a pool event, a mint or a burn is assigned iff it was before or the
operation attaches it. -/
theorem PoolOperation.logIndex_mem_iff
    (h : PoolOperation market scaledEvents assigned operationId poolEvent events op assigned')
    (hdistinct : (events.map Log.logIndex).Nodup)
    (hextract : extractScaledTokenEvents market events = .ok scaledEvents)
    (hmem : poolEvent ∈ events) (hpool : poolEvent.isPoolEvent = true)
    {ev : ScaledTokenEvent} (hev : ev ∈ scaledEvents) (htransfer : ev.isTransfer = false)
    (hindex : NoBurnIndex scaledEvents ev) :
    ev.event.logIndex ∈ assigned' ++ op.getEventLogIndices ↔
      ev.event.logIndex ∈ assigned ∨ ev ∈ op.scaledTokenEvents := by
  have hattached := (h.drawn hmem hpool).mem_getEventLogIndices_iff hdistinct hextract hev htransfer
  rw [List.mem_append, hattached]
  constructor
  · rintro (hi | hi)
    · rcases h.explained_assigned hi with hi | hi | ⟨burn, hburn, hdebt, hi⟩
      · exact .inl hi
      · exact .inr (hattached.mp hi)
      · exact absurd hi (hindex burn hburn hdebt)
    · exact .inr hi
  · rintro (hi | hi)
    · exact .inl (h.assigned_subset hi)
    · exact .inr hi

end Step

/-! ## The list of pool events -/

section PoolEvents

variable {events : List Log}

theorem extractPoolEvents_pairwise (hdistinct : (events.map Log.logIndex).Nodup) :
    (extractPoolEvents events).Pairwise fun a b => a.logIndex < b.logIndex := by
  have hnodup : ((extractPoolEvents events).map Log.logIndex).Nodup := by
    have hperm := (List.perm_insertionSort (fun a b => a.logIndex ≤ b.logIndex)
      (events.filter Log.isPoolEvent)).map Log.logIndex
    refine hperm.nodup_iff.mpr ?_
    exact hdistinct.sublist (List.filter_sublist.map Log.logIndex)
  have hle : (extractPoolEvents events).Pairwise fun a b => a.logIndex ≤ b.logIndex :=
    List.pairwise_insertionSort _ _
  rw [List.nodup_iff_pairwise_ne, List.pairwise_map] at hnodup
  exact (hle.and hnodup).imp fun h => lt_of_le_of_ne h.1 h.2

/-- What holds of pool events only is counted in the sorted list. -/
theorem countP_extractPoolEvents (events : List Log) (p : Log → Bool)
    (hp : ∀ log ∈ events, p log = true → log.isPoolEvent = true) :
    (extractPoolEvents events).countP p = events.countP p := by
  rw [extractPoolEvents, (List.perm_insertionSort _ _).countP_eq, List.countP_filter]
  apply List.countP_congr
  intro log hlog
  have hlog := hp log hlog
  cases hp' : p log <;> simp_all

theorem isPoolEvent_of_liquidation {log : Log} {key : ℕ × ℕ} (h : log.liquidation? = some key) :
    log.isPoolEvent = true := by
  unfold Log.liquidation? at h
  split at h
  case h_1 hdata => simp [Log.isPoolEvent, hdata]
  case h_2 => cases h

/-- The position of a liquidation is the number of those done. -/
theorem liquidationPosition_eq (hdistinct : (events.map Log.logIndex).Nodup) {done todo : List Log}
    {poolEvent : Log} (hsplit : extractPoolEvents events = done ++ poolEvent :: todo)
    (user debtAsset : ℕ) :
    liquidationPosition events poolEvent user debtAsset =
      done.countP fun ev => ev.liquidation? = some (user, debtAsset) := by
  have hpairwise := extractPoolEvents_pairwise hdistinct
  rw [hsplit, List.pairwise_append, List.pairwise_cons] at hpairwise
  obtain ⟨-, ⟨hafter, -⟩, hbefore⟩ := hpairwise
  have hcount := countP_extractPoolEvents events (fun ev =>
    ev.liquidation? = some (user, debtAsset) && ev.logIndex < poolEvent.logIndex) (by
      intro log _ hlog
      simp only [Bool.and_eq_true, decide_eq_true_eq] at hlog
      exact isPoolEvent_of_liquidation hlog.1)
  rw [liquidationPosition, ← hcount, hsplit, List.countP_append]
  have hlater : (poolEvent :: todo).countP (fun ev =>
      ev.liquidation? = some (user, debtAsset) && ev.logIndex < poolEvent.logIndex) = 0 := by
    rw [List.countP_eq_zero]
    intro ev hev
    rcases List.mem_cons.mp hev with rfl | hev
    · simp
    · simp [le_of_lt (hafter ev hev)]
  rw [hlater, Nat.add_zero]
  apply List.countP_congr
  intro ev hev
  simp [hbefore ev hev poolEvent List.mem_cons_self]

end PoolEvents

end Degenbot.AaveParser
