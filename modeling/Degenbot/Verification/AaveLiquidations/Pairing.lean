import Degenbot.Verification.AaveLiquidations.Attached
import Degenbot.Verification.AaveOperations.Containment

/-! # Debt events paired with the liquidations that attach them

The pool events are replayed one by one. Of the debt events that no other step takes, those
that are assigned after a step are those of the liquidations done. -/

namespace Degenbot.AaveParser

open Library

/-! ## The events of a liquidation -/

/-- `debtToCover` of the operation, if it is a liquidation of the user. -/
def Operation.coverOf (user : ℕ) (op : Operation) : Option ℕ :=
  op.poolEvent.bind (Log.coverOf user)

/-- The burns that liquidation number `k` of `n` attaches, of those left. -/
def attachedBurns (burns : List ScaledTokenEvent) (left : ScaledTokenEvent → Bool) (n k : ℕ) :
    List ScaledTokenEvent :=
  (if burns.length = n then burns[k]?.toList else if k = 0 then burns else []).filter left

def attached (burns mints : List ScaledTokenEvent) (left : ScaledTokenEvent → Bool) (n k : ℕ) :
    List ScaledTokenEvent :=
  attachedBurns burns left n k ++ (mints.filter left)[k]?.toList

theorem mem_attached {burns mints : List ScaledTokenEvent} {left : ScaledTokenEvent → Bool}
    {n k : ℕ} {ev : ScaledTokenEvent} (hleft : left ev = true) :
    ev ∈ attached burns mints left n k ↔ Attaches burns (mints.filter left) n k ev := by
  unfold attached attachedBurns Attaches
  rw [List.mem_append, Option.mem_toList, or_comm, List.mem_filter, and_iff_left hleft]
  split
  · rw [Option.mem_toList]
  · split
    case isTrue hk => simp [hk]
    case isFalse hk => simp [hk]

theorem not_taken_zero {burns mints : List ScaledTokenEvent} {n : ℕ} {ev : ScaledTokenEvent} :
    ¬Taken burns mints n 0 ev := by
  simp [Taken]

/-- `left` holds of the debt events that liquidations of the user attach, and of no other that
is assigned in the end. -/
structure LeftBy (scaledEvents : List ScaledTokenEvent) (user vToken : ℕ)
    (left : ScaledTokenEvent → Bool) (final : Progress) : Prop where
  attached : ∀ op ∈ final.operations, (op.coverOf user).isSome = true →
    ∀ ev ∈ op.scaledTokenEvents, isDebtOf user vToken ev = true → left ev = true
  only : ∀ ev ∈ debtEvents scaledEvents user vToken, left ev = true →
    ev.event.logIndex ∈ final.assigned →
    ∃ op ∈ final.operations, (op.coverOf user).isSome = true ∧ ev ∈ op.scaledTokenEvents

section Step

variable {market : Market} {events : List Log} {scaledEvents : List ScaledTokenEvent}
  {user debtAsset vToken : ℕ}

/-- Of the debt events left, those that are assigned after `k` liquidations of the user. -/
def Follows (scaledEvents : List ScaledTokenEvent) (user vToken : ℕ)
    (left : ScaledTokenEvent → Bool) (n k : ℕ) (assigned : List ℕ) : Prop :=
  ∀ ev ∈ debtEvents scaledEvents user vToken, left ev = true → (ev.event.logIndex ∈ assigned ↔
    Taken (debtBurns scaledEvents user vToken) ((debtMints scaledEvents user vToken).filter left)
      n k ev)

variable {assigned assigned' : List ℕ} {n k : ℕ} {left : ScaledTokenEvent → Bool}

theorem Follows.unassigned_iff (h : Follows scaledEvents user vToken left n k assigned)
    {ev : ScaledTokenEvent} (hev : ev ∈ debtEvents scaledEvents user vToken)
    (hleft : left ev = true) :
    ev.unassigned assigned = true ↔ ¬Taken (debtBurns scaledEvents user vToken)
      ((debtMints scaledEvents user vToken).filter left) n k ev := by
  rw [ScaledTokenEvent.unassigned, decide_eq_true_eq, h ev hev hleft]

/-- Before the first liquidation every debt event left is unassigned. -/
theorem Follows.unassigned_of_zero (h : Follows scaledEvents user vToken left n 0 assigned)
    {ev : ScaledTokenEvent} (hev : ev ∈ debtEvents scaledEvents user vToken)
    (hleft : left ev = true) : ev.unassigned assigned = true :=
  (h.unassigned_iff hev hleft).mpr not_taken_zero

/-- Before the first liquidation the unassigned burns are those left, if it takes them all. -/
theorem filter_unassigned_of_zero (h : Follows scaledEvents user vToken left n 0 assigned)
    (hleft : ∀ ev ∈ debtBurns scaledEvents user vToken, ev.unassigned assigned = true →
      left ev = true) :
    (debtBurns scaledEvents user vToken).filter (ScaledTokenEvent.unassigned assigned) =
      (debtBurns scaledEvents user vToken).filter left := by
  apply List.filter_congr
  intro ev hev
  rw [Bool.eq_iff_iff]
  exact ⟨hleft ev hev, h.unassigned_of_zero (mem_debtBurns.mp hev).1⟩

theorem filter_isDebtOf_eq_self {evs : List ScaledTokenEvent}
    (h : ∀ ev ∈ evs, ev ∈ debtEvents scaledEvents user vToken) :
    evs.filter (isDebtOf user vToken) = evs := by
  rw [List.filter_eq_self]
  intro ev hev
  exact (mem_debtEvents.mp (h ev hev)).2

/-- A mint and a burn are taken through their own lists. -/
theorem taken_debtMint {ev : ScaledTokenEvent} (hev : ev ∈ debtMints scaledEvents user vToken) :
    Taken (debtBurns scaledEvents user vToken) ((debtMints scaledEvents user vToken).filter left)
        n k ev ↔
      ev ∈ ((debtMints scaledEvents user vToken).filter left).take k := by
  have hburn : ev ∉ debtBurns scaledEvents user vToken := by
    intro hburn
    have htype := (mem_debtMints.mp hev).2
    rw [(mem_debtBurns.mp hburn).2] at htype
    cases htype
  unfold Taken
  split
  · have htake : ev ∉ (debtBurns scaledEvents user vToken).take k :=
      fun hmem => hburn (List.mem_of_mem_take hmem)
    simp [htake]
  · simp [hburn]

theorem isDebtBurn_iff_of_isDebtOf {ev : ScaledTokenEvent} (h : isDebtOf user vToken ev = true) :
    isDebtBurn ev = true ↔ ev.eventType = .debtBurn := by
  rcases (isDebtOf_cases h).2.2 with htype | htype <;> simp [isDebtBurn, htype]

theorem filter_collateral {aToken : ℕ} :
    (collectCollateralEvents scaledEvents assigned user aToken).1.toList.filter
        (isDebtOf user vToken) = [] ∧
      (collectCollateralEvents scaledEvents assigned user aToken).2.filter
        (isDebtOf user vToken) = [] := by
  simp only [List.filter_eq_nil_iff]
  refine ⟨fun ev hev hdebt => ?_, fun ev hev hdebt => ?_⟩
  · have htype := eventType_of_mem_collectCollateralEvents (.inl hev)
    rcases (isDebtOf_cases hdebt).2.2 with hdebt | hdebt <;> simp [hdebt] at htype
  · have htype := eventType_of_mem_collectCollateralEvents (.inr hev)
    rcases (isDebtOf_cases hdebt).2.2 with hdebt | hdebt <;> simp [hdebt] at htype

variable (hrep : RepeatedLiquidation market events scaledEvents user debtAsset vToken)

include hrep

theorem scaledEvents_nodup : scaledEvents.Nodup :=
  (scaledEvents_pairwise hrep.distinct hrep.extract).imp fun h heq => by
    rw [heq] at h
    exact lt_irrefl _ h

theorem debtBurns_nodup : (debtBurns scaledEvents user vToken).Nodup :=
  (scaledEvents_nodup hrep).filter _

/-- A single liquidation collects every unassigned burn of the user. -/
theorem filter_burnsOfUser :
    (sortByLogIndex (scaledEvents.filter fun ev =>
      ev.unassigned assigned && ev.userAddress = user && isDebtBurn ev)).filter
        (isDebtOf user vToken) =
      (debtBurns scaledEvents user vToken).filter (ScaledTokenEvent.unassigned assigned) := by
  have hpairwise := scaledEvents_pairwise hrep.distinct hrep.extract
  rw [sortByLogIndex_eq_self ((hpairwise.imp le_of_lt).filter _), List.filter_filter, debtBurns,
    List.filter_filter]
  apply List.filter_congr
  intro ev _
  cases hdebt : isDebtOf user vToken ev with
  | false => simp
  | true =>
      rw [Bool.eq_iff_iff]
      simp [(isDebtOf_cases hdebt).1, isDebtBurn_iff_of_isDebtOf hdebt]

omit hrep in
/-- The unassigned burns are those left, when the first liquidation attaches them. -/
theorem filter_eq_left_of_zero {evs : List ScaledTokenEvent}
    (hfollows : Follows scaledEvents user vToken left n 0 assigned)
    (hevs : evs.filter (isDebtOf user vToken) =
      (debtBurns scaledEvents user vToken).filter (ScaledTokenEvent.unassigned assigned))
    (hleft : ∀ ev ∈ evs, isDebtOf user vToken ev = true → left ev = true) :
    evs.filter (isDebtOf user vToken) = (debtBurns scaledEvents user vToken).filter left := by
  rw [hevs]
  refine filter_unassigned_of_zero hfollows fun ev hev hunassigned => ?_
  have hmem : ev ∈ evs.filter (isDebtOf user vToken) :=
    hevs ▸ List.mem_filter.mpr ⟨hev, hunassigned⟩
  obtain ⟨hevs, hdebt⟩ := List.mem_filter.mp hmem
  exact hleft ev hevs hdebt

/-- A liquidation attaches no burn when all of them are assigned. -/
theorem attachedBurns_eq_nil_of_assigned
    (hfollows : Follows scaledEvents user vToken left n k assigned)
    (hassigned : ∀ ev ∈ debtBurns scaledEvents user vToken, ¬ev.unassigned assigned = true) :
    attachedBurns (debtBurns scaledEvents user vToken) left n k = [] := by
  have hburns : ∀ ev ∈ debtBurns scaledEvents user vToken,
      ev ∈ debtEvents scaledEvents user vToken := fun ev hev => (mem_debtBurns.mp hev).1
  rw [attachedBurns, List.filter_eq_nil_iff]
  split
  case isTrue hlength =>
    intro burn hburn hburnLeft
    rw [Option.mem_toList] at hburn
    have hmem := List.mem_of_getElem? hburn
    refine hassigned burn hmem ((hfollows.unassigned_iff (hburns _ hmem) hburnLeft).mpr ?_)
    rw [Taken, if_pos hlength, not_or]
    refine ⟨fun hmint => ?_, notMem_take_of_getElem? (debtBurns_nodup hrep) hburn⟩
    have htype := (mem_debtMints.mp (List.mem_of_mem_filter (List.mem_of_mem_take hmint))).2
    rw [(mem_debtBurns.mp hmem).2] at htype
    cases htype
  case isFalse =>
    split
    case isTrue hfirst =>
      subst hfirst
      intro burn hburn hburnLeft
      exact hassigned burn hburn (hfollows.unassigned_of_zero (hburns burn hburn) hburnLeft)
    case isFalse => simp

/-- The burns of the user's debt that a liquidation collects. -/
theorem CollectedBurns.filter_eq {analysis : List (ℕ × ℕ)} {burns : List ScaledTokenEvent}
    (hanalysis : analyzeLiquidationScenarios market events = .ok analysis)
    (h : CollectedBurns scaledEvents assigned user vToken analysis
      (countOrOne (analyzeUserLiquidationCount events) user) k burns)
    (hleft : ∀ ev ∈ burns, isDebtOf user vToken ev = true → left ev = true)
    (hfollows : Follows scaledEvents user vToken left (debtsToCover events user).length k assigned)
    (hk : k < (debtsToCover events user).length) :
    burns.filter (isDebtOf user vToken) =
      attachedBurns (debtBurns scaledEvents user vToken) left
        (debtsToCover events user).length k := by
  have hburns : ∀ ev ∈ debtBurns scaledEvents user vToken,
      ev ∈ debtEvents scaledEvents user vToken := fun ev hev => (mem_debtBurns.mp hev).1
  have hdebt : ∀ ev ∈ debtBurns scaledEvents user vToken, isDebtOf user vToken ev = true :=
    fun ev hev => (mem_debtEvents.mp (hburns ev hev)).2
  cases h with
  | ofUser hcount =>
      rw [hrep.userCount] at hcount
      obtain rfl : k = 0 := by omega
      rw [filter_eq_left_of_zero hfollows (filter_burnsOfUser hrep) hleft, attachedBurns]
      split
      case isTrue hlength =>
        obtain ⟨burn, hburn⟩ := List.length_eq_one_iff.mp (hlength.trans hcount)
        rw [hburn]
        rfl
      case isFalse => rfl
  | separate hcount hmulti hlength htarget hunassigned =>
      rw [hrep.assetCount hanalysis, hrep.assetBurns_eq] at hlength
      rw [hrep.assetBurns_eq] at htarget
      have htargetDebt := hdebt _ (List.mem_of_getElem? htarget)
      rw [attachedBurns, if_pos hlength.symm, htarget, Option.toList_some,
        List.filter_cons_of_pos htargetDebt,
        List.filter_cons_of_pos (hleft _ List.mem_cons_self htargetDebt)]
      rfl
  | combined hcount hmulti hlength hposition =>
      subst hposition
      rw [hrep.assetCount hanalysis, hrep.assetBurns_eq] at hlength
      rw [hrep.assetBurns_eq] at hleft
      have hall := filter_isDebtOf_eq_self fun ev (hev : ev ∈ (debtBurns scaledEvents user vToken).filter
        (ScaledTokenEvent.unassigned assigned)) => hburns ev (List.mem_of_mem_filter hev)
      rw [hrep.assetBurns_eq, filter_eq_left_of_zero hfollows hall hleft, attachedBurns,
        if_neg (by omega), if_pos rfl]
  | leftOver hcount hmulti hcandidates hlength hposition =>
      rw [hrep.assetCount hanalysis, hrep.assetBurns_eq] at hlength
      rw [attachedBurns, if_neg (by omega), if_neg hposition]
      rfl
  | ofAsset hcount hbranch =>
      rw [hrep.assetCount hanalysis, hrep.assetBurns_eq] at hbranch
      rw [hrep.userCount] at hcount
      -- several liquidations, so no burn is unassigned
      have hnone : (debtBurns scaledEvents user vToken).filter
          (ScaledTokenEvent.unassigned assigned) = [] := by
        by_contra hne
        exact hbranch ⟨by omega, hne⟩
      rw [hrep.assetBurns_eq, hnone, List.filter_nil,
        attachedBurns_eq_nil_of_assigned hrep hfollows (List.filter_eq_nil_iff.mp hnone)]

/-- The mint that a liquidation attaches is the next one left. -/
theorem findLiquidationMint_eq {debtMint : Option ScaledTokenEvent}
    (hfollows : Follows scaledEvents user vToken left n k assigned)
    (hsubset : assigned ⊆ assigned')
    (hkept : ∀ ev ∈ debtMints scaledEvents user vToken, left ev = true →
      ev.unassigned assigned = true → ev.unassigned assigned' = true)
    (hleft : ∀ ev ∈ debtMint, isDebtOf user vToken ev = true → left ev = true)
    (h : findLiquidationMint scaledEvents assigned' user vToken false = .ok debtMint) :
    debtMint = ((debtMints scaledEvents user vToken).filter left)[k]? := by
  have hmints : (debtMints scaledEvents user vToken).filter left = scaledEvents.filter fun ev =>
      left ev && (isDebtOf user vToken ev && ev.eventType = .debtMint) := by
    rw [debtMints, List.filter_filter]
  have hnodup : (scaledEvents.filter fun ev =>
      left ev && (isDebtOf user vToken ev && ev.eventType = .debtMint)).Nodup :=
    (scaledEvents_nodup hrep).filter _
  -- among the mints left, the search passes over those that are taken
  have hsearch : ∀ ev ∈ scaledEvents,
      (left ev && (isDebtOf user vToken ev && ev.eventType = .debtMint)) = true →
      ((ev.unassigned assigned' && ev.userAddress = user && ev.eventType = .debtMint) = true ↔
        ev ∉ (scaledEvents.filter fun ev =>
          left ev && (isDebtOf user vToken ev && ev.eventType = .debtMint)).take k) := by
    intro ev hev hmint
    rw [Bool.and_eq_true] at hmint
    have hmem : ev ∈ debtMints scaledEvents user vToken := List.mem_filter.mpr ⟨hev, hmint.2⟩
    have hdebt := (mem_debtMints.mp hmem).1
    have hunassigned : ev.unassigned assigned' = true ↔ ev.unassigned assigned = true := by
      refine ⟨fun h => ?_, hkept ev hmem hmint.1⟩
      simp only [ScaledTokenEvent.unassigned, decide_eq_true_eq] at h ⊢
      exact fun hi => h (hsubset hi)
    rw [← hmints, ← taken_debtMint hmem, ← hfollows.unassigned_iff hdebt hmint.1,
      Bool.and_eq_true, Bool.and_eq_true, hunassigned]
    simp [(isDebtOf_cases (mem_debtEvents.mp hdebt).2).1, (mem_debtMints.mp hmem).2]
  rw [hmints]
  unfold findLiquidationMint at h
  simp only [Bool.false_eq_true, if_false] at h
  split at h
  case h_1 hnone =>
    cases h
    cases hget : (scaledEvents.filter fun ev =>
        left ev && (isDebtOf user vToken ev && ev.eventType = .debtMint))[k]? with
    | none => rfl
    | some mint =>
        have hsome := find?_isSome_of_getElem? hnodup hsearch hget
        rw [hnone] at hsome
        cases hsome
  case h_2 ev hfind =>
    simp only [bind_eq_ok, assertThat_eq_ok, decide_eq_true_eq, assertSome_eq_ok] at h
    obtain ⟨-, haddress, balanceIncrease, -, -, -, h⟩ := h
    cases h
    have htest := List.find?_some hfind
    simp only [Bool.and_eq_true, decide_eq_true_eq] at htest
    have hdebt : isDebtOf user vToken ev = true := by simp [isDebtOf, htest, haddress]
    exact (getElem?_of_find?_eq_some hnodup hsearch hfind (by
      simp [hdebt, htest, hleft ev rfl hdebt])).symm

/-- The operation of the user's liquidation number `k`. -/
structure LiquidationOf (scaledEvents : List ScaledTokenEvent) (user debtAsset vToken : ℕ)
    (left : ScaledTokenEvent → Bool) (n k cover : ℕ) (op : Operation) : Prop where
  operationType : op.operationType = .liquidation
  debtToCover : op.debtToCover = some cover
  poolEvent : ∃ log collateralAsset, op.poolEvent = some log ∧
    log.data = .liquidationCall collateralAsset debtAsset user cover
  filter_eq : op.scaledTokenEvents.filter (isDebtOf user vToken) =
    attached (debtBurns scaledEvents user vToken) (debtMints scaledEvents user vToken) left n k

theorem PoolOperation.liquidationOf {operationId cover : ℕ} {poolEvent : Log} {op : Operation}
    {done todo : List Log} (hsplit : extractPoolEvents events = done ++ poolEvent :: todo)
    (hfollows : Follows scaledEvents user vToken left (debtsToCover events user).length
      (done.filterMap (Log.coverOf user)).length assigned)
    (hleft : ∀ ev ∈ op.scaledTokenEvents, isDebtOf user vToken ev = true → left ev = true)
    (hkept : ∀ ev ∈ debtEvents scaledEvents user vToken, left ev = true →
      ev.unassigned assigned = true → ev.event.logIndex ∈ assigned' → ev ∈ op.scaledTokenEvents)
    (hcover : poolEvent.coverOf user = some cover)
    (h : PoolOperation market scaledEvents assigned operationId poolEvent events op assigned') :
    LiquidationOf scaledEvents user debtAsset vToken left (debtsToCover events user).length
      (done.filterMap (Log.coverOf user)).length cover op := by
  have hk : (done.filterMap (Log.coverOf user)).length < (debtsToCover events user).length := by
    rw [debtsToCover, hsplit, List.filterMap_append, List.length_append,
      List.filterMap_cons_some hcover, List.length_cons]
    omega
  have hevent : poolEvent ∈ events := by
    refine (mem_extractPoolEvents.mp ?_).1
    rw [hsplit]
    exact List.mem_append_right _ List.mem_cons_self
  have hsubset := h.assigned_subset
  cases h with
  | supply hdata => simp [Log.coverOf, hdata] at hcover
  | withdrawBurn hdata => simp [Log.coverOf, hdata] at hcover
  | withdrawMint hdata => simp [Log.coverOf, hdata] at hcover
  | borrow hdata => simp [Log.coverOf, hdata] at hcover
  | repay hdata => simp [Log.coverOf, hdata] at hcover
  | repayWithATokens hdata => simp [Log.coverOf, hdata] at hcover
  | deficit hdata => simp [Log.coverOf, hdata] at hcover
  | @liquidation collateralAsset asset liquidated debtToCover aToken vToken' analysis burns _ isGho
      debtMint hdata hisGho haToken hvToken hanalysis hburns hmint =>
      simp only [Log.coverOf, hdata, Option.ite_none_right_eq_some, Option.some.injEq] at hcover
      obtain ⟨rfl, rfl⟩ := hcover
      have hasset : asset = debtAsset :=
        hrep.sameDebt poolEvent hevent (liquidated, asset) (by simp [Log.liquidation?, hdata]) rfl
      subst hasset
      have hvToken' : vToken' = vToken := Except.ok.inj (hvToken.symm.trans hrep.vToken_eq)
      subst hvToken'
      have hgho : isGho = false := by
        rw [hisGho]
        exact decide_eq_false hrep.asset_ne_gho
      subst hgho
      obtain ⟨hcollected, -⟩ := collectedBurns_of_collect hburns
      rw [hrep.position_eq hsplit] at hcollected
      simp only [List.mem_append] at hleft hkept
      -- a mint that the step assigns is the one that it attaches
      have hmintKept : ∀ ev ∈ debtMints scaledEvents liquidated vToken', left ev = true →
          ev.unassigned assigned = true → ev.unassigned assigned' = true := by
        intro ev hev hevLeft hunassigned
        have htype := (mem_debtMints.mp hev).2
        by_contra hassigned
        have hindex : ev.event.logIndex ∈ assigned' := by
          simpa [ScaledTokenEvent.unassigned] using hassigned
        rcases hkept ev (mem_debtMints.mp hev).1 hevLeft hunassigned hindex with
          ((hmem | hmem) | hmem) | hmem
        · have hcollateral := eventType_of_mem_collectCollateralEvents (.inl hmem)
          simp [htype] at hcollateral
        · have hburn := (hcollected.mem hmem).2.2.2
          simp [isDebtBurn, htype] at hburn
        · rw [Option.mem_toList] at hmem
          subst hmem
          exact hassigned (findLiquidationMint_eq_ok hmint).2.1
        · have hcollateral := eventType_of_mem_collectCollateralEvents (.inr hmem)
          simp [htype] at hcollateral
      have hmintEq := findLiquidationMint_eq hrep hfollows hsubset hmintKept (fun ev hev =>
        hleft ev (.inl (.inr (Option.mem_toList.mpr hev)))) hmint
      refine ⟨rfl, rfl, ⟨poolEvent, collateralAsset, rfl, hdata⟩, ?_⟩
      have hmints : ∀ ev ∈ debtMint.toList, ev ∈ debtEvents scaledEvents liquidated vToken' := by
        intro ev hev
        rw [Option.mem_toList, hmintEq] at hev
        exact (mem_debtMints.mp (List.mem_of_mem_filter (List.mem_of_getElem? hev))).1
      simp only [List.filter_append]
      rw [filter_collateral.1, filter_collateral.2, hcollected.filter_eq hrep hanalysis
        (fun ev hev => hleft ev (.inl (.inl (.inr hev)))) hfollows hk,
        filter_isDebtOf_eq_self hmints, hmintEq, List.nil_append, List.append_nil, attached]

end Step

/-! ## All operations -/

/-- The debt events of the user in an operation, each with the debt that it covers. -/
def Operation.debtPairs (user vToken : ℕ) (op : Operation) : List (ℕ × ScaledTokenEvent) :=
  (op.scaledTokenEvents.filter (isDebtOf user vToken)).map (op.debtToCover.getD 0, ·)

/-- The debt events that the liquidations attach, each with the debt of its liquidation. -/
def pairing (burns mints : List ScaledTokenEvent) (left : ScaledTokenEvent → Bool) (n : ℕ)
    (covers : List ℕ) : List (ℕ × ScaledTokenEvent) :=
  covers.zipIdx.flatMap fun liquidation =>
    (attached burns mints left n liquidation.2).map (liquidation.1, ·)

/-- The operations of the user's liquidations. -/
def liquidationsOf (user : ℕ) (operations : List Operation) : List Operation :=
  operations.filter fun op => (op.coverOf user).isSome

/-- The operations of the user's liquidations, in order, with their debt events. -/
structure Paired (scaledEvents : List ScaledTokenEvent) (user debtAsset vToken : ℕ)
    (left : ScaledTokenEvent → Bool) (n : ℕ) (covers : List ℕ) (operations : List Operation) :
    Prop where
  pairs : (liquidationsOf user operations).flatMap (Operation.debtPairs user vToken) =
    pairing (debtBurns scaledEvents user vToken) (debtMints scaledEvents user vToken) left n covers
  covers_eq : operations.filterMap (Operation.coverOf user) = covers
  liquidation : ∀ op ∈ operations, ∀ cover, op.coverOf user = some cover →
    ∃ k, LiquidationOf scaledEvents user debtAsset vToken left n k cover op

/-- The state after the pool events done. -/
structure PairedAfter (events : List Log) (scaledEvents : List ScaledTokenEvent)
    (user debtAsset vToken : ℕ) (left : ScaledTokenEvent → Bool) (done : List Log)
    (state : Progress) : Prop where
  follows : Follows scaledEvents user vToken left (debtsToCover events user).length
    (done.filterMap (Log.coverOf user)).length state.assigned
  paired : Paired scaledEvents user debtAsset vToken left (debtsToCover events user).length
    (done.filterMap (Log.coverOf user)) state.operations
  assigned : ∀ op ∈ state.operations, ∀ ev ∈ op.scaledTokenEvents,
    ev.event.logIndex ∈ state.assigned

section Passes

variable {market : Market} {events : List Log} {scaledEvents : List ScaledTokenEvent}

theorem PassOperation.mono {assigned assigned' : List ℕ} {op : Operation}
    (h : PassOperation scaledEvents assigned' op) (hsubset : assigned ⊆ assigned') :
    PassOperation scaledEvents assigned op := by
  refine ⟨h.poolEvent, fun ev hev => ?_, h.transfer, h.balanceTransfer⟩
  obtain ⟨hmem, hunassigned⟩ := h.taken ev hev
  refine ⟨hmem, ?_⟩
  simp only [ScaledTokenEvent.unassigned, decide_eq_true_eq] at hunassigned ⊢
  exact fun hi => hunassigned (hsubset hi)

/-- The later passes take what the pool events leave. -/
theorem runPasses_eq_ok {state : Progress} (h : runPasses market events scaledEvents = .ok state) :
    ∃ pool rest, poolEventPass market events scaledEvents = .ok pool ∧
      state.operations = pool.operations ++ rest ∧
      ∀ op ∈ rest, PassOperation scaledEvents pool.assigned op := by
  simp only [runPasses, mintToTreasuryPass, deficitCoveragePass, transferPass, bind_eq_ok,
    Except.ok.injEq] at h
  obtain ⟨pool, hpool, treasury, ⟨minted, hminted, rfl⟩, deficit, ⟨covered, hcovered, rfl⟩,
    transfers, htransfers, rfl⟩ := h
  obtain ⟨htreasury, -⟩ := createMintToTreasuryOperations_spec hminted
  obtain ⟨pass, hdeficit, hcoveredOperations, hcoveredAssigned⟩ :=
    createDeficitCoverageOperations_spec hcovered
  obtain ⟨last, htransfer, htransfersOperations, -⟩ := createTransferOperations_spec htransfers
  -- every pass starts with at least what the pool events assigned
  have hsubset : pool.assigned ⊆ minted.assigned ++ scaledLogIndices minted.operations :=
    fun i hi => List.mem_append_left _ (htreasury.assigned_subset hi)
  have hsubset' : pool.assigned ⊆ covered.assigned ++ scaledLogIndices covered.operations := by
    intro i hi
    rw [hcoveredAssigned]
    exact List.mem_append_left _ (List.mem_append_left _ (hsubset hi))
  refine ⟨pool, minted.operations ++ (covered.operations ++ (createInterestAccrualOperations
    scaledEvents (pool.operations ++ minted.operations ++ covered.operations).length
    (covered.assigned ++ scaledLogIndices covered.operations) ++ transfers.operations)), hpool,
    by simp only [interestAccrualPass, List.append_assoc], ?_⟩
  intro op hop
  simp only [List.mem_append] at hop
  rcases hop with hop | hop | hop | hop
  · exact (htreasury.operations op hop).1
  · rw [hcoveredOperations] at hop
    exact (hdeficit.operations op hop).mono hsubset
  · exact (createInterestAccrualOperations_spec hop).mono hsubset'
  · rw [htransfersOperations] at hop
    refine (htransfer.operations op hop).mono fun i hi => ?_
    exact List.mem_append_left _ (List.mem_append_left _ (hsubset' hi))

/-- Later pool events take what is unassigned. -/
theorem poolEvents_suffix {logs : List Log} {state final : Progress}
    (h : logs.foldlM (poolEventStep market events scaledEvents) state = .ok final) :
    state.assigned ⊆ final.assigned ∧ ∃ later, final.operations = state.operations ++ later ∧
      ∀ op ∈ later, ∀ ev ∈ op.scaledTokenEvents, ev.unassigned state.assigned = true := by
  induction logs generalizing state with
  | nil =>
      cases h
      exact ⟨List.Subset.refl _, [], by simp, by simp⟩
  | cons log logs ih =>
      rw [List.foldlM_cons] at h
      obtain ⟨next, hnext, h⟩ := bind_eq_ok.mp h
      obtain ⟨op, assigned', hop, rfl⟩ := poolEventStep_eq_ok hnext
      have hsubset : state.assigned ⊆ assigned' ++ op.getEventLogIndices :=
        fun i hi => List.mem_append_left _ (hop.assigned_subset hi)
      obtain ⟨hassigned, later, hlater, hunassigned⟩ := ih h
      refine ⟨fun i hi => hassigned (hsubset hi), op :: later, ?_, ?_⟩
      · rw [hlater, List.append_assoc, List.singleton_append]
      · intro op' hop' ev hev
        rcases List.mem_cons.mp hop' with rfl | hop'
        · exact (hop.takenFrom ev hev).2
        · have htaken := hunassigned op' hop' ev hev
          simp only [ScaledTokenEvent.unassigned, decide_eq_true_eq] at htaken ⊢
          exact fun hi => htaken (hsubset hi)

end Passes

section Operations

variable {market : Market} {events : List Log} {scaledEvents : List ScaledTokenEvent}
  {user debtAsset vToken n cover : ℕ} {left : ScaledTokenEvent → Bool} {covers : List ℕ}
  {operations : List Operation} {op : Operation}

/-- A debt event left can only be assigned by a liquidation that attaches it. -/
theorem LeftBy.attached_of_assigned {state final : Progress} {later : List Operation}
    {assigned' : List ℕ} (hleft : LeftBy scaledEvents user vToken left final)
    (hlater : final.operations = state.operations ++ [op] ++ later)
    (hsubset : assigned' ⊆ final.assigned)
    (hunassigned : ∀ op' ∈ later, ∀ ev ∈ op'.scaledTokenEvents, ev.unassigned assigned' = true)
    (hassigned : ∀ op' ∈ state.operations, ∀ ev ∈ op'.scaledTokenEvents,
      ev.event.logIndex ∈ state.assigned)
    {ev : ScaledTokenEvent} (hev : ev ∈ debtEvents scaledEvents user vToken)
    (hevLeft : left ev = true) (hbefore : ev.event.logIndex ∉ state.assigned)
    (hafter : ev.event.logIndex ∈ assigned') :
    (op.coverOf user).isSome = true ∧ ev ∈ op.scaledTokenEvents := by
  obtain ⟨op', hop', hcover, hmem⟩ := hleft.only ev hev hevLeft (hsubset hafter)
  simp only [hlater, List.mem_append, List.mem_singleton] at hop'
  rcases hop' with (hop' | rfl) | hop'
  · exact absurd (hassigned op' hop' ev hmem) hbefore
  · exact ⟨hcover, hmem⟩
  · have htaken := hunassigned op' hop' ev hmem
    simp only [ScaledTokenEvent.unassigned, decide_eq_true_eq] at htaken
    exact absurd hafter htaken

theorem Paired.nil : Paired scaledEvents user debtAsset vToken left n [] [] :=
  ⟨rfl, rfl, by simp⟩

theorem Paired.append_other (h : Paired scaledEvents user debtAsset vToken left n covers operations)
    {others : List Operation} (hothers : ∀ op ∈ others, op.coverOf user = none) :
    Paired scaledEvents user debtAsset vToken left n covers (operations ++ others) where
  pairs := by
    have hnil : liquidationsOf user others = [] := by
      rw [liquidationsOf, List.filter_eq_nil_iff]
      intro op hop
      simp [hothers op hop]
    rw [liquidationsOf, List.filter_append, ← liquidationsOf, ← liquidationsOf, hnil,
      List.append_nil, h.pairs]
  covers_eq := by
    have hnil : others.filterMap (Operation.coverOf user) = [] := by
      rw [List.filterMap_eq_nil_iff]
      exact hothers
    rw [List.filterMap_append, h.covers_eq, hnil, List.append_nil]
  liquidation := by
    intro op hop cover hcover
    rcases List.mem_append.mp hop with hop | hop
    · exact h.liquidation op hop cover hcover
    · rw [hothers op hop] at hcover
      cases hcover

theorem LiquidationOf.coverOf_eq {k : ℕ}
    (h : LiquidationOf scaledEvents user debtAsset vToken left n k cover op) :
    op.coverOf user = some cover := by
  obtain ⟨log, collateralAsset, hlog, hdata⟩ := h.poolEvent
  simp [Operation.coverOf, Log.coverOf, hlog, hdata]

theorem Paired.append_liquidation
    (h : Paired scaledEvents user debtAsset vToken left n covers operations)
    (hop : LiquidationOf scaledEvents user debtAsset vToken left n covers.length cover op) :
    Paired scaledEvents user debtAsset vToken left n (covers ++ [cover]) (operations ++ [op]) := by
  have hcover := hop.coverOf_eq
  refine ⟨?_, ?_, ?_⟩
  · have hlast : pairing (debtBurns scaledEvents user vToken) (debtMints scaledEvents user vToken)
        left n (covers ++ [cover]) = pairing (debtBurns scaledEvents user vToken)
          (debtMints scaledEvents user vToken) left n covers ++
          (attached (debtBurns scaledEvents user vToken) (debtMints scaledEvents user vToken) left n
            covers.length).map (cover, ·) := by
      simp [pairing, List.zipIdx_append, List.flatMap_append]
    have hsplit : liquidationsOf user (operations ++ [op]) =
        liquidationsOf user operations ++ [op] := by
      simp [liquidationsOf, hcover]
    rw [hsplit, List.flatMap_append, h.pairs, hlast, List.flatMap_singleton, Operation.debtPairs,
      hop.filter_eq, hop.debtToCover, Option.getD_some]
  · rw [List.filterMap_append, h.covers_eq, List.filterMap_cons_some hcover, List.filterMap_nil]
  · intro op' hop' cover' hcover'
    rcases List.mem_append.mp hop' with hop' | hop'
    · exact h.liquidation op' hop' cover' hcover'
    · rw [List.mem_singleton] at hop'
      subst hop'
      rw [hcover] at hcover'
      cases hcover'
      exact ⟨covers.length, hop⟩

variable (hrep : RepeatedLiquidation market events scaledEvents user debtAsset vToken)

include hrep

/-- One pool event of a run that ends in `final`. -/
theorem poolEventStep_paired {done todo : List Log} {poolEvent : Log}
    {state state' final : Progress} (hleft : LeftBy scaledEvents user vToken left final)
    (hsplit : extractPoolEvents events = done ++ poolEvent :: todo)
    (h : poolEventStep market events scaledEvents state poolEvent = .ok state')
    (hlast : todo.foldlM (poolEventStep market events scaledEvents) state' = .ok final)
    (hinv : PairedAfter events scaledEvents user debtAsset vToken left done state) :
    PairedAfter events scaledEvents user debtAsset vToken left (done ++ [poolEvent]) state' := by
  obtain ⟨hfollows, hpaired, hassigned⟩ := hinv
  obtain ⟨op, assigned', hop, rfl⟩ := poolEventStep_eq_ok h
  obtain ⟨hsubset, later, hlater, hunassigned⟩ := poolEvents_suffix hlast
  have hopCover : op.coverOf user = poolEvent.coverOf user := by
    rw [Operation.coverOf, hop.poolEvent_eq, Option.bind_some]
  have hopFinal : op ∈ final.operations := by
    rw [hlater]
    exact List.mem_append_left _ (List.mem_append_right _ List.mem_cons_self)
  have hopAssigned : ∀ ev ∈ op.scaledTokenEvents,
      ev.event.logIndex ∈ assigned' ++ op.getEventLogIndices :=
    fun ev hev => List.mem_append_right _ (Operation.mem_getEventLogIndices_of_scaled hev)
  have hnew : ∀ ev ∈ debtEvents scaledEvents user vToken, left ev = true →
      ev.event.logIndex ∉ state.assigned →
      ev.event.logIndex ∈ assigned' ++ op.getEventLogIndices →
      (poolEvent.coverOf user).isSome = true ∧ ev ∈ op.scaledTokenEvents := by
    intro ev hev hevLeft hbefore hafter
    rw [← hopCover]
    exact hleft.attached_of_assigned hlater hsubset hunassigned hassigned hev hevLeft hbefore hafter
  have hassigned' : ∀ op' ∈ state.operations ++ [op], ∀ ev ∈ op'.scaledTokenEvents,
      ev.event.logIndex ∈ assigned' ++ op.getEventLogIndices := by
    intro op' hop' ev hev
    rcases List.mem_append.mp hop' with hop' | hop'
    · exact List.mem_append_left _ (hop.assigned_subset (hassigned op' hop' ev hev))
    · rw [List.mem_singleton] at hop'
      exact hopAssigned ev (hop' ▸ hev)
  have hkeeps : ∀ ev : ScaledTokenEvent, ev.event.logIndex ∈ state.assigned →
      ev.event.logIndex ∈ assigned' ++ op.getEventLogIndices :=
    fun ev hi => List.mem_append_left _ (hop.assigned_subset hi)
  cases hcover : poolEvent.coverOf user with
  | none =>
      have hcovers : (done ++ [poolEvent]).filterMap (Log.coverOf user) =
          done.filterMap (Log.coverOf user) := by
        rw [List.filterMap_append, List.filterMap_cons_none hcover, List.filterMap_nil,
          List.append_nil]
      refine ⟨?_, ?_, hassigned'⟩ <;> rw [hcovers]
      · intro ev hev hevLeft
        rw [← hfollows ev hev hevLeft]
        refine ⟨fun hafter => ?_, hkeeps ev⟩
        by_contra hbefore
        have hsome := (hnew ev hev hevLeft hbefore hafter).1
        rw [hcover] at hsome
        cases hsome
      · refine hpaired.append_other fun op' hop' => ?_
        rw [List.mem_singleton] at hop'
        rw [hop', hopCover, hcover]
  | some cover =>
      have hopLeft : ∀ ev ∈ op.scaledTokenEvents, isDebtOf user vToken ev = true →
          left ev = true :=
        hleft.attached op hopFinal (by rw [hopCover, hcover]; rfl)
      have hkept : ∀ ev ∈ debtEvents scaledEvents user vToken, left ev = true →
          ev.unassigned state.assigned = true → ev.event.logIndex ∈ assigned' →
          ev ∈ op.scaledTokenEvents := by
        intro ev hev hevLeft hbefore hafter
        rw [ScaledTokenEvent.unassigned, decide_eq_true_eq] at hbefore
        exact (hnew ev hev hevLeft hbefore (List.mem_append_left _ hafter)).2
      have hliquidation := hop.liquidationOf hrep hsplit hfollows hopLeft hkept hcover
      have hcovers : (done ++ [poolEvent]).filterMap (Log.coverOf user) =
          done.filterMap (Log.coverOf user) ++ [cover] := by
        rw [List.filterMap_append, List.filterMap_cons_some hcover, List.filterMap_nil]
      refine ⟨?_, hcovers ▸ hpaired.append_liquidation hliquidation, hassigned'⟩
      rw [hcovers]
      intro ev hev hevLeft
      have hattached : ev ∈ op.scaledTokenEvents ↔
          Attaches (debtBurns scaledEvents user vToken)
            ((debtMints scaledEvents user vToken).filter left)
            (debtsToCover events user).length (done.filterMap (Log.coverOf user)).length ev := by
        rw [← mem_attached hevLeft, ← hliquidation.filter_eq, List.mem_filter]
        simp [(mem_debtEvents.mp hev).2]
      rw [List.length_append, List.length_singleton, taken_succ, ← hattached,
        ← hfollows ev hev hevLeft]
      constructor
      · intro hafter
        by_cases hbefore : ev.event.logIndex ∈ state.assigned
        · exact .inl hbefore
        · exact .inr (hnew ev hev hevLeft hbefore hafter).2
      · rintro (hbefore | hmem)
        · exact hkeeps ev hbefore
        · exact hopAssigned ev hmem

theorem poolEventPass_paired {final : Progress} (hleft : LeftBy scaledEvents user vToken left final)
    (h : poolEventPass market events scaledEvents = .ok final) :
    PairedAfter events scaledEvents user debtAsset vToken left (extractPoolEvents events) final := by
  refine foldlM_run_invariant ?_ ⟨?_, Paired.nil, by simp⟩ h
  · intro done poolEvent todo before after hsplit _ hstep hlast hinv
    exact poolEventStep_paired hrep hleft hsplit hstep hlast hinv
  · intro ev _ _
    simp [not_taken_zero]

theorem length_burns_add_mints : (debtBurns scaledEvents user vToken).length +
    (debtMints scaledEvents user vToken).length = (debtsToCover events user).length := by
  rw [← hrep.oneEach, (debtEvents_perm scaledEvents user vToken).length_eq, List.length_append]

/-- The liquidations take every debt event left. -/
theorem taken_of_mem {ev : ScaledTokenEvent} (hev : ev ∈ debtEvents scaledEvents user vToken)
    (hleft : left ev = true) :
    Taken (debtBurns scaledEvents user vToken) ((debtMints scaledEvents user vToken).filter left)
      (debtsToCover events user).length (debtsToCover events user).length ev := by
  have hlength := length_burns_add_mints hrep
  have hfilter := List.length_filter_le left (debtMints scaledEvents user vToken)
  rcases (isDebtOf_cases (mem_debtEvents.mp hev).2).2.2 with htype | htype
  · have hburn := mem_debtBurns.mpr ⟨hev, htype⟩
    right
    split
    case isTrue heq =>
      rw [← heq, List.take_length]
      exact hburn
    case isFalse => exact ⟨List.length_pos_of_ne_nil hrep.liquidated, hburn⟩
  · left
    rw [List.take_of_length_le (by omega)]
    exact List.mem_filter.mpr ⟨mem_debtMints.mpr ⟨hev, htype⟩, hleft⟩

/-- The debt events that liquidations of the user attach. -/
def attachedTo (operations : List Operation) (user : ℕ) (ev : ScaledTokenEvent) : Bool :=
  operations.any fun op => (op.coverOf user).isSome && ev ∈ op.scaledTokenEvents

omit hrep in
theorem attachedTo_iff {ev : ScaledTokenEvent} : attachedTo operations user ev = true ↔
    ∃ op ∈ operations, (op.coverOf user).isSome = true ∧ ev ∈ op.scaledTokenEvents := by
  simp [attachedTo]

/-- The passes after the pool events attach nothing to a liquidation. -/
theorem parse_eq_pool {tx : TransactionOperations} (h : parse market events = .ok tx) :
    ∃ pool rest, poolEventPass market events scaledEvents = .ok pool ∧
      tx.operations = pool.operations ++ rest ∧
      ∀ op ∈ rest, PassOperation scaledEvents pool.assigned op := by
  obtain ⟨scaledEvents', state, hextract, hstate, hoperations, -⟩ := parse_eq_ok h
  have hscaled : scaledEvents' = scaledEvents := Except.ok.inj (hextract.symm.trans hrep.extract)
  subst hscaled
  rw [hoperations]
  exact runPasses_eq_ok hstate

/-- Whatever other steps take, the liquidations attach the rest in their order. -/
theorem parse_paired {tx : TransactionOperations} (h : parse market events = .ok tx) :
    Paired scaledEvents user debtAsset vToken (attachedTo tx.operations user)
      (debtsToCover events user).length (debtsToCover events user) tx.operations := by
  obtain ⟨pool, rest, hpool, hsplit, hrest⟩ := parse_eq_pool hrep h
  have hother : ∀ op ∈ rest, op.coverOf user = none := by
    intro op hop
    rw [Operation.coverOf, (hrest op hop).poolEvent, Option.bind_none]
  have hleft : LeftBy scaledEvents user vToken (attachedTo tx.operations user) pool := by
    constructor
    · intro op hop hcover ev hev _
      exact attachedTo_iff.mpr ⟨op, hsplit ▸ List.mem_append_left _ hop, hcover, hev⟩
    · intro ev _ hevLeft _
      obtain ⟨op, hop, hcover, hev⟩ := attachedTo_iff.mp hevLeft
      rw [hsplit] at hop
      rcases List.mem_append.mp hop with hop | hop
      · exact ⟨op, hop, hcover, hev⟩
      · rw [hother op hop] at hcover
        cases hcover
  have hpaired := (poolEventPass_paired hrep hleft hpool).paired
  rw [← debtsToCover] at hpaired
  have hall := hpaired.append_other hother
  rwa [← hsplit] at hall

end Operations

/-! ## Undisputed debt events -/

section Undisputed

variable {market : Market} {events : List Log} {scaledEvents : List ScaledTokenEvent}
  {user debtAsset vToken : ℕ}

/-- Without a dispute only liquidations of the user attach and assign the debt events. -/
theorem Undisputed.attached_and_assigned
    (hrep : RepeatedLiquidation market events scaledEvents user debtAsset vToken)
    (hund : Undisputed market events scaledEvents user vToken) {final : Progress}
    (h : poolEventPass market events scaledEvents = .ok final) :
    ∀ ev ∈ debtEvents scaledEvents user vToken,
      (∀ op ∈ final.operations, ev ∈ op.scaledTokenEvents → (op.coverOf user).isSome = true) ∧
        (ev.event.logIndex ∈ final.assigned → ∃ op ∈ final.operations,
          ev ∈ op.scaledTokenEvents) := by
  refine foldlM_run_invariant (P := fun _ state => ∀ ev ∈ debtEvents scaledEvents user vToken,
    (∀ op ∈ state.operations, ev ∈ op.scaledTokenEvents → (op.coverOf user).isSome = true) ∧
      (ev.event.logIndex ∈ state.assigned → ∃ op ∈ state.operations,
        ev ∈ op.scaledTokenEvents)) ?_ ?_ h
  · intro done poolEvent todo state state' hsplit hdone hstep _ hinv ev hev
    obtain ⟨hattached, hassigned⟩ := hinv ev hev
    obtain ⟨op, assigned', hop, rfl⟩ := poolEventStep_eq_ok hstep
    have hmem : poolEvent ∈ extractPoolEvents events := by
      rw [hsplit]
      exact List.mem_append_right _ List.mem_cons_self
    obtain ⟨hevent, hpool⟩ := mem_extractPoolEvents.mp hmem
    obtain ⟨hscaled, hdebt⟩ := mem_debtEvents.mp hev
    constructor
    · intro op' hop' hev'
      rcases List.mem_append.mp hop' with hop' | hop'
      · exact hattached op' hop' hev'
      · rw [List.mem_singleton] at hop'
        subst hop'
        rw [Operation.coverOf, hop.poolEvent_eq, Option.bind_some, Option.isSome_iff_ne_none]
        intro hother
        exact hop.not_mem_of_other hother hdebt
          (hund.steps done poolEvent todo state hsplit hdone) hev'
    · intro hafter
      rw [hop.logIndex_mem_iff hrep.distinct hrep.extract hevent hpool hscaled
        (isTransfer_of_isDebtOf hdebt) (hund.index ev hev)] at hafter
      rcases hafter with hbefore | hev'
      · obtain ⟨op', hop', hev'⟩ := hassigned hbefore
        exact ⟨op', List.mem_append_left _ hop', hev'⟩
      · exact ⟨op, List.mem_append_right _ List.mem_cons_self, hev'⟩
  · intro ev _
    exact ⟨by simp, fun hassigned => by cases hassigned⟩

/-- Without a dispute the liquidations attach every debt event of the user, and no other
operation does. -/
theorem Undisputed.attached_by_liquidation
    (hrep : RepeatedLiquidation market events scaledEvents user debtAsset vToken)
    (hund : Undisputed market events scaledEvents user vToken) {tx : TransactionOperations}
    (h : parse market events = .ok tx) {ev : ScaledTokenEvent}
    (hev : ev ∈ debtEvents scaledEvents user vToken) :
    attachedTo tx.operations user ev = true ∧
      ∀ op ∈ tx.operations, ev ∈ op.scaledTokenEvents → (op.coverOf user).isSome = true := by
  obtain ⟨pool, rest, hpool, hsplit, hrest⟩ := parse_eq_pool hrep h
  have hall := hund.attached_and_assigned hrep hpool
  have hleft : LeftBy scaledEvents user vToken (fun _ => true) pool := by
    refine ⟨fun _ _ _ _ _ _ => rfl, fun ev hev _ hassigned => ?_⟩
    obtain ⟨op, hop, hmem⟩ := (hall ev hev).2 hassigned
    exact ⟨op, hop, (hall ev hev).1 op hop hmem, hmem⟩
  have hfollows := (poolEventPass_paired hrep hleft hpool).follows
  rw [← debtsToCover] at hfollows
  have hassigned := (hfollows ev hev rfl).mpr (taken_of_mem hrep hev rfl)
  obtain ⟨op, hop, hcover, hmem⟩ := hleft.only ev hev rfl hassigned
  refine ⟨attachedTo_iff.mpr ⟨op, hsplit ▸ List.mem_append_left _ hop, hcover, hmem⟩, ?_⟩
  intro op' hop' hmem'
  rw [hsplit] at hop'
  rcases List.mem_append.mp hop' with hop' | hop'
  · exact (hall ev hev).1 op' hop' hmem'
  · have hunassigned := ((hrest op' hop').taken ev hmem').2
    simp only [ScaledTokenEvent.unassigned, decide_eq_true_eq] at hunassigned
    exact absurd hassigned hunassigned

end Undisputed

end Degenbot.AaveParser
