import Degenbot.Algorithm.AaveLiquidations
import Degenbot.Library.Lists
import Degenbot.Verification.AaveOperations.Tracking

/-! # The debt events of a user who is liquidated several times

Every liquidation of the user attaches the next mint. When each of them emitted a burn, it
attaches its own; otherwise the first one attaches every burn. -/

namespace Degenbot.AaveParser

open Library

/-! ## Debt events and liquidations of a user -/

/-- A mint or a burn of a standard debt token of the user. -/
def isDebtOf (user vToken : ℕ) (ev : ScaledTokenEvent) : Bool :=
  ev.userAddress = user && ev.event.address = vToken && ev.eventType ∈ [.debtBurn, .debtMint]

def debtEvents (scaledEvents : List ScaledTokenEvent) (user vToken : ℕ) : List ScaledTokenEvent :=
  scaledEvents.filter (isDebtOf user vToken)

def debtBurns (scaledEvents : List ScaledTokenEvent) (user vToken : ℕ) : List ScaledTokenEvent :=
  scaledEvents.filter fun ev => isDebtOf user vToken ev && ev.eventType = .debtBurn

def debtMints (scaledEvents : List ScaledTokenEvent) (user vToken : ℕ) : List ScaledTokenEvent :=
  scaledEvents.filter fun ev => isDebtOf user vToken ev && ev.eventType = .debtMint

/-- `debtToCover` of a liquidation of the user. -/
def Log.coverOf (user : ℕ) (log : Log) : Option ℕ :=
  match log.data with
  | .liquidationCall _ _ liquidated debtToCover =>
      if liquidated = user then some debtToCover else none
  | _ => none

/-- The debt covered by each liquidation of the user, in the order of their logs. -/
def debtsToCover (events : List Log) (user : ℕ) : List ℕ :=
  (extractPoolEvents events).filterMap (Log.coverOf user)

/-- One user is liquidated several times for the same debt, without bad debt, and each
liquidation emits one mint or burn of the debt token. -/
structure RepeatedLiquidation (market : Market) (events : List Log)
    (scaledEvents : List ScaledTokenEvent) (user debtAsset vToken : ℕ) : Prop where
  distinct : (events.map Log.logIndex).Nodup
  extract : extractScaledTokenEvents market events = .ok scaledEvents
  vToken_eq : market.getVTokenForAsset debtAsset = .ok vToken
  asset_ne_gho : debtAsset ≠ market.ghoTokenAddress
  vToken_ne_gho : market.ghoVTokenAddress ≠ some vToken
  sameDebt : ∀ log ∈ events, ∀ key, log.liquidation? = some key → key.1 = user →
    key.2 = debtAsset
  noBadDebt : isBadDebtLiquidation events user = false
  liquidated : debtsToCover events user ≠ []
  oneEach : (debtEvents scaledEvents user vToken).length = (debtsToCover events user).length

/-- The builder of a `Borrow` or a `Repay` takes a debt event of the user. -/
def takesDebt (market : Market) (scaledEvents : List ScaledTokenEvent) (user vToken : ℕ)
    (assigned : List ℕ) (poolEvent : Log) : Bool :=
  match poolEvent.data with
  | .borrow reserve onBehalfOf amount =>
      match scaledEvents.findM? fun ev =>
        if ev.unassigned assigned &&
            isBorrowMint (reserve = market.ghoTokenAddress) onBehalfOf ev then
          matchesBorrow market amount ev
        else .ok false with
      | .ok (some ev) => isDebtOf user vToken ev
      | _ => false
  | .repay reserve _ amount _ =>
      match findPrincipalRepayEvent market scaledEvents assigned amount
        (reserve = market.ghoTokenAddress) with
      | .ok ev => isDebtOf user vToken ev
      | .error _ => false
  | _ => false

/-- The debt events of the user are left to the liquidations: the pool events before a
`Borrow` or a `Repay` lead to a state in which it takes none, and none has the liquidity index
of a burn as its log index. -/
structure Undisputed (market : Market) (events : List Log) (scaledEvents : List ScaledTokenEvent)
    (user vToken : ℕ) : Prop where
  steps : ∀ done poolEvent todo state, extractPoolEvents events = done ++ poolEvent :: todo →
    done.foldlM (poolEventStep market events scaledEvents) ⟨[], []⟩ = .ok state →
    takesDebt market scaledEvents user vToken state.assigned poolEvent = false
  index : ∀ ev ∈ debtEvents scaledEvents user vToken, NoBurnIndex scaledEvents ev

section Lists

variable {scaledEvents : List ScaledTokenEvent} {user vToken : ℕ} {ev : ScaledTokenEvent}

theorem mem_debtEvents : ev ∈ debtEvents scaledEvents user vToken ↔
    ev ∈ scaledEvents ∧ isDebtOf user vToken ev = true :=
  List.mem_filter

theorem mem_debtBurns : ev ∈ debtBurns scaledEvents user vToken ↔
    ev ∈ debtEvents scaledEvents user vToken ∧ ev.eventType = .debtBurn := by
  simp [debtBurns, debtEvents, List.mem_filter, and_assoc]

theorem mem_debtMints : ev ∈ debtMints scaledEvents user vToken ↔
    ev ∈ debtEvents scaledEvents user vToken ∧ ev.eventType = .debtMint := by
  simp [debtMints, debtEvents, List.mem_filter, and_assoc]

theorem isDebtOf_cases (h : isDebtOf user vToken ev = true) :
    ev.userAddress = user ∧ ev.event.address = vToken ∧
      (ev.eventType = .debtBurn ∨ ev.eventType = .debtMint) := by
  simp only [isDebtOf, Bool.and_eq_true, decide_eq_true_eq, List.mem_cons, List.not_mem_nil,
    or_false] at h
  exact ⟨h.1.1, h.1.2, h.2⟩

theorem isTransfer_of_isDebtOf (h : isDebtOf user vToken ev = true) : ev.isTransfer = false := by
  rcases (isDebtOf_cases h).2.2 with htype | htype <;>
    simp [ScaledTokenEvent.isTransfer, htype]

/-- The events split into burns and mints. -/
theorem debtEvents_perm (scaledEvents : List ScaledTokenEvent) (user vToken : ℕ) :
    (debtEvents scaledEvents user vToken).Perm
      (debtBurns scaledEvents user vToken ++ debtMints scaledEvents user vToken) := by
  have hburns : debtBurns scaledEvents user vToken =
      (debtEvents scaledEvents user vToken).filter fun ev => ev.eventType = .debtBurn := by
    rw [debtBurns, debtEvents, List.filter_filter]
    simp only [Bool.and_comm]
  have hmints : debtMints scaledEvents user vToken =
      (debtEvents scaledEvents user vToken).filter fun ev => !decide (ev.eventType = .debtBurn) := by
    rw [debtMints, debtEvents, List.filter_filter]
    apply List.filter_congr
    intro ev _
    cases hev : isDebtOf user vToken ev with
    | false => simp
    | true =>
        rcases (isDebtOf_cases hev).2.2 with htype | htype <;> simp [htype]
  rw [hburns, hmints]
  exact (List.filter_append_perm _ _).symm

end Lists

/-! ## Other pool events -/

section Other

variable {market : Market} {events : List Log} {scaledEvents : List ScaledTokenEvent}
  {assigned assigned' : List ℕ} {operationId : ℕ} {poolEvent : Log} {op : Operation}
  {user vToken : ℕ}

/-- A collateral event is not a debt event. -/
theorem eventType_of_mem_collectCollateralEvents {aToken : ℕ} {ev : ScaledTokenEvent}
    (hev : ev ∈ (collectCollateralEvents scaledEvents assigned user aToken).1.toList ∨
      ev ∈ (collectCollateralEvents scaledEvents assigned user aToken).2) :
    ev.eventType ∈ [ScaledTokenEventType.collateralBurn, .collateralTransfer,
      .erc20CollateralTransfer] := by
  rcases hev with hev | hev
  · rw [Option.mem_toList] at hev
    have htype := (List.mem_filter.mp (List.mem_of_getLast? hev)).2
    simp_all
  · have htype := (List.mem_filter.mp hev).2
    simp_all

/-- A pool event that is not a liquidation of the user attaches no debt event of the user. -/
theorem PoolOperation.not_mem_of_other
    (h : PoolOperation market scaledEvents assigned operationId poolEvent events op assigned')
    (hother : poolEvent.coverOf user = none) {ev : ScaledTokenEvent}
    (hev : isDebtOf user vToken ev = true)
    (htakes : takesDebt market scaledEvents user vToken assigned poolEvent = false) :
    ev ∉ op.scaledTokenEvents := by
  intro hmem
  obtain ⟨huser, -, htype⟩ := isDebtOf_cases hev
  cases h with
  | supply hdata haToken hmint htransfer =>
      rw [List.mem_singleton] at hmem
      have htest := List.find?_some hmint
      rw [← hmem] at htest
      rcases htype with htype | htype <;> simp [isSupplyMint, htype] at htest
  | withdrawBurn hdata haToken hburn htransfer =>
      rw [withdrawOperation, List.mem_singleton] at hmem
      have htest := List.find?_some hburn
      rw [← hmem] at htest
      rcases htype with htype | htype <;> simp [isWithdrawBurn, htype] at htest
  | withdrawMint hdata haToken hburn hmint htransfer =>
      rw [withdrawOperation, List.mem_singleton] at hmem
      have htest := List.find?_some hmint
      rw [← hmem] at htest
      rcases htype with htype | htype <;> simp [isWithdrawMint, htype] at htest
  | borrow hdata hisGho hmint htransfer htransferType =>
      rw [List.mem_singleton] at hmem
      subst hmem hisGho
      simp only [takesDebt, hdata, hmint, hev] at htakes
      cases htakes
  | repay hdata hisGho hfind =>
      rw [List.mem_singleton] at hmem
      subst hmem hisGho
      simp only [takesDebt, hdata, hfind, hev] at htakes
      cases htakes
  | repayWithATokens hdata hgho hfind hadjustment =>
      rcases List.mem_pair.mp hmem with rfl | rfl
      · rw [← decide_eq_false hgho] at hfind
        simp only [takesDebt, hdata, hfind, hev] at htakes
        cases htakes
      · have htest := List.find?_some hadjustment
        rcases htype with htype | htype <;> simp [isCollateralAdjustment, htype] at htest
  | @liquidation _ _ liquidated _ aToken _ _ _ _ _ _ hdata _ _ _ _ hburns hmint =>
      have hne : liquidated ≠ user := by
        intro heq
        simp [Log.coverOf, hdata, heq] at hother
      simp only [List.mem_append] at hmem
      rcases hmem with ((hmem | hmem) | hmem) | hmem
      · exact hne ((mem_collectCollateralEvents (.inl hmem)).2.2.2.symm.trans huser)
      · have hburn := (collectedBurns_of_collect hburns).1.mem hmem
        exact hne (hburn.2.2.1.symm.trans huser)
      · rw [Option.mem_toList] at hmem
        subst hmem
        exact hne ((findLiquidationMint_eq_ok hmint).2.2.1.symm.trans huser)
      · exact hne ((mem_collectCollateralEvents (.inr hmem)).2.2.2.symm.trans huser)
  | deficit hdata => simp [createDeficitOperation] at hmem

end Other

/-! ## A liquidation of the user -/

/-- The debt events that are attached after `k` of `n` liquidations. -/
def Taken (burns mints : List ScaledTokenEvent) (n k : ℕ) (ev : ScaledTokenEvent) : Prop :=
  ev ∈ mints.take k ∨ if burns.length = n then ev ∈ burns.take k else 0 < k ∧ ev ∈ burns

/-- The debt events that liquidation number `k` attaches. -/
def Attaches (burns mints : List ScaledTokenEvent) (n k : ℕ) (ev : ScaledTokenEvent) : Prop :=
  mints[k]? = some ev ∨ if burns.length = n then burns[k]? = some ev else k = 0 ∧ ev ∈ burns

theorem mem_take_succ {xs : List ScaledTokenEvent} {k : ℕ} {ev : ScaledTokenEvent} :
    ev ∈ xs.take (k + 1) ↔ ev ∈ xs.take k ∨ xs[k]? = some ev := by
  rw [List.take_add_one, List.mem_append, Option.mem_toList]

theorem taken_succ {burns mints : List ScaledTokenEvent} {n k : ℕ} {ev : ScaledTokenEvent} :
    Taken burns mints n (k + 1) ev ↔ Taken burns mints n k ev ∨ Attaches burns mints n k ev := by
  unfold Taken Attaches
  split
  · simp only [mem_take_succ]
    tauto
  · rw [mem_take_succ]
    rcases Nat.eq_zero_or_pos k with rfl | hk
    · simp
    · simp [hk, Nat.pos_iff_ne_zero.mp hk]
      tauto

/-! ## Counts of liquidations -/

section Counts

variable {market : Market} {events : List Log} {scaledEvents : List ScaledTokenEvent}
  {user debtAsset vToken : ℕ}

theorem countOrOne_of_pos {α : Type} [DecidableEq α] [BEq α] [LawfulBEq α] {keys : List α}
    {key : α} (h : 0 < keys.count key) : countOrOne keys key = keys.count key := by
  rw [countOrOne, if_pos (List.count_pos_iff.mp h)]
  congr 1
  exact lawful_beq_subsingleton _ _

theorem coverOf_isSome {log : Log} :
    (log.coverOf user).isSome = true ↔ ∃ debtAsset, log.liquidation? = some (user, debtAsset) := by
  cases hdata : log.data with
  | liquidationCall collateralAsset asset liquidated debtToCover =>
      by_cases heq : liquidated = user <;> simp [Log.coverOf, Log.liquidation?, hdata, heq]
  | _ => simp [Log.coverOf, Log.liquidation?, hdata]

theorem length_filterMap_coverOf {logs : List Log}
    (hsame : ∀ log ∈ logs, ∀ key, log.liquidation? = some key → key.1 = user →
      key.2 = debtAsset) :
    (logs.filterMap (Log.coverOf user)).length =
      logs.countP fun log => log.liquidation? = some (user, debtAsset) := by
  rw [List.length_filterMap_eq_countP]
  apply List.countP_congr
  intro log hlog
  rw [coverOf_isSome, decide_eq_true_eq]
  constructor
  · rintro ⟨asset, hasset⟩
    have hdebt : asset = debtAsset := hsame log hlog _ hasset rfl
    rw [hasset, hdebt]
  · exact fun h => ⟨debtAsset, h⟩

theorem count_analyzeUserLiquidationCount (user : ℕ) (logs : List Log) :
    (analyzeUserLiquidationCount logs).count user =
      (logs.filterMap (Log.coverOf user)).length := by
  induction logs with
  | nil => rfl
  | cons log logs ih =>
      simp only [analyzeUserLiquidationCount] at ih ⊢
      cases hdata : log.data with
      | liquidationCall collateralAsset asset liquidated debtToCover =>
          by_cases heq : liquidated = user <;>
            simp [Log.coverOf, Log.liquidation?, hdata, heq, ih]
      | _ => simp [Log.coverOf, Log.liquidation?, hdata, ih]

theorem count_analyzeLiquidationScenarios (user : ℕ) {keys analysis : List (ℕ × ℕ)}
    (hvToken : market.getVTokenForAsset debtAsset = .ok vToken)
    (hsame : ∀ key ∈ keys, key.1 = user → key.2 = debtAsset)
    (h : (keys.mapM fun key => do
      let vTokenAddress ← market.getVTokenForAsset key.2
      .ok (key.1, vTokenAddress)) = Except.ok analysis) :
    analysis.count (user, vToken) = (keys.map Prod.fst).count user := by
  induction keys generalizing analysis with
  | nil =>
      cases h
      rfl
  | cons key keys ih =>
      rw [List.mapM_cons] at h
      obtain ⟨entry, hentry, h⟩ := bind_eq_ok.mp h
      obtain ⟨rest, hrest, h⟩ := bind_eq_ok.mp h
      obtain ⟨address, haddress, hentry⟩ := bind_eq_ok.mp hentry
      cases h
      cases hentry
      rw [List.map_cons, List.count_cons, List.count_cons,
        ih (fun key hkey => hsame key (List.mem_cons_of_mem _ hkey)) hrest]
      by_cases heq : key.1 = user
      · rw [hsame key List.mem_cons_self heq, hvToken] at haddress
        cases haddress
        simp [heq]
      · simp [heq]

theorem length_debtsToCover (events : List Log) (user : ℕ) :
    (debtsToCover events user).length = (events.filterMap (Log.coverOf user)).length := by
  rw [debtsToCover, List.length_filterMap_eq_countP, List.length_filterMap_eq_countP]
  apply countP_extractPoolEvents
  intro log _ hlog
  obtain ⟨asset, hasset⟩ := coverOf_isSome.mp hlog
  exact isPoolEvent_of_liquidation hasset

variable (hrep : RepeatedLiquidation market events scaledEvents user debtAsset vToken)

include hrep

theorem RepeatedLiquidation.userCount :
    countOrOne (analyzeUserLiquidationCount events) user = (debtsToCover events user).length := by
  have hcount := count_analyzeUserLiquidationCount user events
  rw [← length_debtsToCover] at hcount
  rw [countOrOne_of_pos, hcount]
  rw [hcount]
  exact List.length_pos_of_ne_nil hrep.liquidated

theorem RepeatedLiquidation.assetCount {analysis : List (ℕ × ℕ)}
    (h : analyzeLiquidationScenarios market events = .ok analysis) :
    countOrOne analysis (user, vToken) = (debtsToCover events user).length := by
  have hcount := count_analyzeLiquidationScenarios user hrep.vToken_eq (by
    intro key hkey huser
    obtain ⟨log, hlog, hkey⟩ := List.mem_filterMap.mp hkey
    exact hrep.sameDebt log hlog key hkey huser) h
  have huser := count_analyzeUserLiquidationCount user events
  rw [analyzeUserLiquidationCount, ← hcount, ← length_debtsToCover] at huser
  rw [countOrOne_of_pos, huser]
  rw [huser]
  exact List.length_pos_of_ne_nil hrep.liquidated

theorem RepeatedLiquidation.position_eq {done todo : List Log} {poolEvent : Log}
    (hsplit : extractPoolEvents events = done ++ poolEvent :: todo) :
    liquidationPosition events poolEvent user debtAsset =
      (done.filterMap (Log.coverOf user)).length := by
  rw [liquidationPosition_eq hrep.distinct hsplit, length_filterMap_coverOf]
  intro log hlog
  have hmem : log ∈ extractPoolEvents events := by
    rw [hsplit]
    exact List.mem_append_left _ hlog
  exact hrep.sameDebt log (mem_extractPoolEvents.mp hmem).1

/-- The burns that the parser counts are those of the user's debt token. -/
theorem RepeatedLiquidation.assetBurns_eq :
    assetBurns scaledEvents user vToken = debtBurns scaledEvents user vToken := by
  have hpairwise := scaledEvents_pairwise hrep.distinct hrep.extract
  rw [assetBurns, sortByLogIndex_eq_self ((hpairwise.imp le_of_lt).filter _), debtBurns]
  apply List.filter_congr
  intro ev hev
  have hgho : ev.eventType = .ghoDebtBurn → ev.event.address ≠ vToken := by
    intro htype haddress
    have hvToken := ghoVToken_of_isGhoDebt (decode_of_mem_extract hrep.extract hev).2 (by
      simp [ScaledTokenEventType.isGhoDebt, htype])
    rw [haddress] at hvToken
    exact hrep.vToken_ne_gho hvToken
  rw [Bool.eq_iff_iff]
  simp only [isDebtOf, isDebtBurn, Bool.and_eq_true, decide_eq_true_eq, List.mem_cons,
    List.not_mem_nil, or_false]
  constructor
  · rintro ⟨⟨huser, htype | htype⟩, haddress⟩
    · exact ⟨⟨⟨huser, haddress⟩, .inl htype⟩, htype⟩
    · exact absurd haddress (hgho htype)
  · rintro ⟨⟨⟨huser, haddress⟩, -⟩, htype⟩
    exact ⟨⟨huser, .inl htype⟩, haddress⟩

end Counts

end Degenbot.AaveParser
