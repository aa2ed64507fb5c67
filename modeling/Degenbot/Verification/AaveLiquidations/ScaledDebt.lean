import Degenbot.Verification.Aave.Rounding
import Degenbot.Verification.AaveLiquidations.Pairing
import Mathlib.Algebra.BigOperators.Group.List.Basic
import Mathlib.Algebra.Order.BigOperators.Group.List
import Mathlib.Tactic.Ring

/-! # The scaled debt that repeated liquidations take

The handlers subtract the scaled debt of the liquidation that an event is attached to, except
that a lone burn among several liquidations stands for all of them. -/

namespace Degenbot.AaveParser

open Library WadRayMath

/-! ## Sums over the pairing -/

/-- The burns with their debts: each with its own, or all with that of the first liquidation. -/
def burnPairing (burns : List ScaledTokenEvent) (n : ℕ) (covers : List ℕ) :
    List (ℕ × ScaledTokenEvent) :=
  if burns.length = n then covers.zip burns else burns.map (covers.headD 0, ·)

section Pairing

variable {burns mints : List ScaledTokenEvent} {left : ScaledTokenEvent → Bool} {n : ℕ}
  {covers : List ℕ}

theorem map_snd_burnPairing (burns : List ScaledTokenEvent) (covers : List ℕ) :
    (burnPairing burns covers.length covers).map Prod.snd = burns := by
  unfold burnPairing
  split
  case isTrue heq => exact List.map_snd_zip heq.le
  case isFalse => simp [Function.comp_def]

/-- The burns left, without their debts. -/
theorem map_snd_burnPairing_filter (burns : List ScaledTokenEvent)
    (left : ScaledTokenEvent → Bool) (covers : List ℕ) :
    ((burnPairing burns covers.length covers).filter fun pair => left pair.2).map Prod.snd =
      burns.filter left := by
  conv_rhs => rw [← map_snd_burnPairing burns covers, List.filter_map]
  rfl

theorem flatMap_attachedBurns (hcovers : covers ≠ []) :
    (covers.zipIdx.flatMap fun liquidation =>
      (attachedBurns burns left n liquidation.2).map (liquidation.1, ·)) =
      (burnPairing burns n covers).filter fun pair => left pair.2 := by
  have hfilter : ∀ liquidation : ℕ × ℕ,
      (attachedBurns burns left n liquidation.2).map (liquidation.1, ·) =
        ((if burns.length = n then burns[liquidation.2]?.toList
          else if liquidation.2 = 0 then burns else []).map (liquidation.1, ·)).filter
          fun pair => left pair.2 := by
    intro liquidation
    rw [List.filter_map]
    rfl
  simp only [hfilter]
  rw [← List.filter_flatMap]
  congr 1
  unfold burnPairing
  split
  case isTrue hlength => exact flatMap_zipIdx_eq_zip covers burns
  case isFalse hlength =>
    cases covers with
    | nil => exact absurd rfl hcovers
    | cons cover covers =>
        have hrest : ((covers.zipIdx 1).flatMap fun liquidation =>
            (if liquidation.2 = 0 then burns else []).map (liquidation.1, ·)) = [] := by
          rw [List.flatMap_eq_nil_iff]
          intro liquidation hmem
          have hpos := List.le_snd_of_mem_zipIdx hmem
          rw [if_neg (by omega), List.map_nil]
        rw [List.zipIdx_cons, List.flatMap_cons, hrest, List.append_nil, if_pos rfl,
          List.headD_cons]

theorem pairing_perm (hcovers : covers ≠ []) :
    (pairing burns mints left n covers).Perm
      ((burnPairing burns n covers).filter (fun pair => left pair.2) ++
        covers.zip (mints.filter left)) := by
  rw [← flatMap_attachedBurns hcovers, ← flatMap_zipIdx_eq_zip covers (mints.filter left)]
  refine List.Perm.symm (.trans (List.flatMap_append_perm _ _ _) (.of_eq ?_))
  simp only [pairing, attached, List.map_append]

/-- A sum over the pairing whose terms depend on the debt and on the kind of event only. -/
theorem sum_pairing {M : Type} [AddCommMonoid M] {f : ℕ × ScaledTokenEvent → M} {β μ : ℕ → M}
    (hcovers : covers ≠ [])
    (hburns : ∀ pair ∈ burnPairing burns n covers, f pair = β pair.1)
    (hmints : ∀ cover, ∀ mint ∈ mints, f (cover, mint) = μ cover) :
    ((pairing burns mints left n covers).map f).sum =
      (((burnPairing burns n covers).filter fun pair => left pair.2).map (β ·.1)).sum +
        ((covers.take (mints.filter left).length).map μ).sum := by
  rw [((pairing_perm hcovers).map f).sum_eq, List.map_append, List.sum_append]
  congr 2
  · apply List.map_congr_left
    intro pair hpair
    exact hburns pair (List.mem_filter.mp hpair).1
  · rw [← map_fst_zip_eq_take, List.map_map]
    apply List.map_congr_left
    intro pair hpair
    exact hmints pair.1 pair.2 (List.mem_filter.mp (List.of_mem_zip hpair).2).1

end Pairing

/-! ## The pattern of the liquidations -/

section Patterns

variable {market : Market} {events : List Log} {scaledEvents : List ScaledTokenEvent}
  {user debtAsset vToken n : ℕ} {left : ScaledTokenEvent → Bool} {covers : List ℕ}
  {operations : List Operation} {patterns : LiquidationPatternContext}

/-- The debts that an entry adds to the group of the user. -/
theorem liquidationEntry_debts (hvToken : market.getVTokenForAsset debtAsset = .ok vToken)
    {op : Operation} {entry : Option ((ℕ × ℕ) × (ℕ × ℕ × ℕ))}
    (hop : ∀ cover, op.coverOf user = some cover →
      ∃ k, LiquidationOf scaledEvents user debtAsset vToken left n k cover op)
    (hentry : liquidationEntry market op = .ok entry) :
    (entry.toList.filter (·.1 = (user, vToken))).map (·.2.2.1) = (op.coverOf user).toList := by
  cases hcover : op.coverOf user with
  | some cover =>
      obtain ⟨k, hliquidation⟩ := hop cover hcover
      obtain ⟨log, collateralAsset, hlog, hdata⟩ := hliquidation.poolEvent
      obtain ⟨logIndex, address, data⟩ := log
      cases hdata
      simp only [liquidationEntry, hliquidation.operationType, hlog, hvToken, ok_bind,
        OperationType.isLiquidation] at hentry
      cases hentry
      simp
  | none =>
      unfold liquidationEntry at hentry
      split at hentry
      case isTrue =>
        split at hentry
        case h_1 logIndex address collateralAsset asset liquidated debtToCover hlog =>
          obtain ⟨vToken', -, hentry⟩ := bind_eq_ok.mp hentry
          cases hentry
          have hne : liquidated ≠ user := by
            intro heq
            simp [Operation.coverOf, hlog, Log.coverOf, heq] at hcover
          simp [hne]
        case h_2 =>
          cases hentry
          rfl
      case isFalse =>
        cases hentry
        rfl

theorem debts_of_mapM (hvToken : market.getVTokenForAsset debtAsset = .ok vToken)
    {entries : List (Option ((ℕ × ℕ) × (ℕ × ℕ × ℕ)))}
    (hop : ∀ op ∈ operations, ∀ cover, op.coverOf user = some cover →
      ∃ k, LiquidationOf scaledEvents user debtAsset vToken left n k cover op)
    (h : operations.mapM (liquidationEntry market) = .ok entries) :
    (entries.reduceOption.filter (·.1 = (user, vToken))).map (·.2.2.1) =
      operations.filterMap (Operation.coverOf user) := by
  induction operations generalizing entries with
  | nil =>
      cases h
      rfl
  | cons op operations ih =>
      rw [List.mapM_cons] at h
      obtain ⟨entry, hentry, h⟩ := bind_eq_ok.mp h
      obtain ⟨rest, hrest, h⟩ := bind_eq_ok.mp h
      cases h
      have hfirst := liquidationEntry_debts hvToken (hop op List.mem_cons_self) hentry
      have hsplit : (entry :: rest).reduceOption = entry.toList ++ rest.reduceOption := by
        cases entry <;> simp [List.reduceOption_cons_of_some, List.reduceOption_cons_of_none]
      have hcons : (op :: operations).filterMap (Operation.coverOf user) =
          (op.coverOf user).toList ++ operations.filterMap (Operation.coverOf user) := by
        cases hcover : op.coverOf user <;> simp [hcover]
      rw [hsplit, List.filter_append, List.map_append, hfirst, hcons,
        ih (fun op' hop' => hop op' (List.mem_cons_of_mem _ hop')) hrest]

/-- The debt events of the user that other operations take, each with its operation. -/
def takenDebts (operations : List Operation) (user vToken : ℕ) :
    List (Operation × ScaledTokenEvent) :=
  (operations.filter fun op => !(op.coverOf user).isSome).flatMap fun op =>
    (op.scaledTokenEvents.filter (isDebtOf user vToken)).map (op, ·)

/-- The debt burns of the user among the events of all operations. -/
def burnsFound (operations : List Operation) (user vToken : ℕ) : ℕ :=
  (operations.flatMap Operation.scaledTokenEvents).countP fun ev =>
    isDebtOf user vToken ev && ev.eventType = .debtBurn

theorem operations_perm (operations : List Operation) (user : ℕ) :
    (liquidationsOf user operations ++
      operations.filter fun op => !(op.coverOf user).isSome).Perm operations :=
  List.filter_append_perm _ _

/-- A burn that is found is attached by a liquidation of the user or taken by another operation. -/
theorem burnsFound_eq (hpaired : Paired scaledEvents user debtAsset vToken left n covers operations)
    (hcovers : covers ≠ []) (hlength : covers.length = n) :
    burnsFound operations user vToken =
      ((debtBurns scaledEvents user vToken).filter left).length +
        (takenDebts operations user vToken).countP fun taken => taken.2.eventType = .debtBurn := by
  have hsplit : burnsFound operations user vToken =
      ((liquidationsOf user operations).flatMap (Operation.debtPairs user vToken)).countP
          (fun pair => pair.2.eventType = .debtBurn) +
        (takenDebts operations user vToken).countP
          fun taken => taken.2.eventType = .debtBurn := by
    rw [burnsFound, ← ((operations_perm operations user).flatMap_right _).countP_eq,
      List.flatMap_append, List.countP_append, takenDebts]
    simp only [List.countP_flatMap, Operation.debtPairs, Function.comp_def, List.countP_map,
      List.countP_filter, Bool.and_comm]
  have hmints : (covers.zip ((debtMints scaledEvents user vToken).filter left)).countP
      (fun pair => pair.2.eventType = .debtBurn) = 0 := by
    rw [List.countP_eq_zero]
    intro pair hpair
    have hmint := (List.mem_filter.mp (List.of_mem_zip hpair).2).1
    simp [(mem_debtMints.mp hmint).2]
  subst hlength
  rw [hsplit, hpaired.pairs, (pairing_perm hcovers).countP_eq, List.countP_append, hmints,
    Nat.add_zero, ← map_snd_burnPairing_filter _ _ covers, List.length_map]
  congr 1
  rw [List.countP_eq_length]
  intro pair hpair
  have hburn : pair.2 ∈ debtBurns scaledEvents user vToken := by
    rw [← map_snd_burnPairing (debtBurns scaledEvents user vToken) covers]
    exact List.mem_map_of_mem (List.mem_filter.mp hpair).1
  exact decide_eq_true (mem_debtBurns.mp hburn).2

/-- A mint or burn of the user in the debt token is a standard one. -/
theorem isDebtOf_of_address (hrep : RepeatedLiquidation market events scaledEvents user debtAsset
      vToken) {ev : ScaledTokenEvent} (hev : ev ∈ scaledEvents) (huser : ev.userAddress = user)
    (haddress : ev.event.address = vToken)
    (htype : ev.eventType ∈ [ScaledTokenEventType.debtBurn, .debtMint, .ghoDebtBurn,
      .ghoDebtMint]) : isDebtOf user vToken ev = true := by
  have hgho : ev.eventType.isGhoDebt ≠ true := by
    intro hgho
    have hvToken := ghoVToken_of_isGhoDebt (decode_of_mem_extract hrep.extract hev).2 hgho
    rw [haddress] at hvToken
    exact hrep.vToken_ne_gho hvToken
  simp only [List.mem_cons, List.not_mem_nil, or_false] at htype
  rcases htype with htype | htype | htype | htype
  · simp [isDebtOf, huser, haddress, htype]
  · simp [isDebtOf, huser, haddress, htype]
  · simp [ScaledTokenEventType.isGhoDebt, htype] at hgho
  · simp [ScaledTokenEventType.isGhoDebt, htype] at hgho

/-- What `detect_liquidation_patterns` finds for the user. -/
structure GroupOf (burnCount : ℕ) (covers : List ℕ) (group : LiquidationGroup) : Prop where
  liquidations : group.liquidations.length = covers.length
  total : group.totalDebtToCover = covers.sum
  burnEvents : group.burnEvents.length = burnCount

theorem getGroup_of_paired
    (hrep : RepeatedLiquidation market events scaledEvents user debtAsset vToken)
    (hpaired : Paired scaledEvents user debtAsset vToken left n covers operations)
    (hcovers : covers ≠ [])
    (hscaled : ∀ op ∈ operations, ∀ ev ∈ op.scaledTokenEvents, ev ∈ scaledEvents)
    (h : detectLiquidationPatterns market operations
      (operations.flatMap Operation.scaledTokenEvents) = .ok patterns) :
    ∃ group, patterns.getGroup user vToken = some group ∧
      GroupOf (burnsFound operations user vToken) covers group := by
  obtain ⟨entries, hentries, h⟩ := bind_eq_ok.mp h
  cases h
  have hdebts := debts_of_mapM hrep.vToken_eq hpaired.liquidation hentries
  rw [hpaired.covers_eq] at hdebts
  have hne : entries.reduceOption.filter (·.1 = (user, vToken)) ≠ [] := by
    intro hnil
    rw [hnil, List.map_nil] at hdebts
    exact hcovers hdebts.symm
  refine ⟨_, by rw [LiquidationPatternContext.getGroup, if_neg hne], ?_, ?_, ?_⟩
  · rw [List.length_map, ← hdebts, List.length_map]
  · rw [LiquidationGroup.totalDebtToCover, List.map_map, ← hdebts]
    rfl
  · rw [List.length_map, List.filter_map, List.length_map, List.filter_filter,
      ← List.countP_eq_length_filter, burnsFound]
    apply List.countP_congr
    intro ev hev
    obtain ⟨op, hop, hev⟩ := List.mem_flatMap.mp hev
    simp only [Function.comp_apply, Bool.and_eq_true, decide_eq_true_eq, Prod.mk.injEq]
    constructor
    · rintro ⟨⟨huser, haddress⟩, hburn⟩
      have hdebt := isDebtOf_of_address hrep (hscaled op hop ev hev) huser haddress (by
        simp only [isDebtBurn, decide_eq_true_eq, List.mem_cons, List.not_mem_nil,
          or_false] at hburn
        rcases hburn with hburn | hburn <;> simp [hburn])
      exact ⟨hdebt, (isDebtBurn_iff_of_isDebtOf hdebt).mp hburn⟩
    · rintro ⟨hdebt, htype⟩
      obtain ⟨huser, haddress, -⟩ := isDebtOf_cases hdebt
      exact ⟨⟨huser, haddress⟩, (isDebtBurn_iff_of_isDebtOf hdebt).mpr htype⟩

end Patterns

/-! ## What the handlers subtract -/

/-- The scaled debt that the token burns: rounded half up until revision 3, then down. -/
def scaledDebt (tokenRevision index debt : ℕ) : ℕ :=
  if tokenRevision ≤ 3 then (debt * ray + index / 2) / index else debt * ray / index

/-- The delta for an event that is paired with a debt. -/
def pairDelta (tokenRevision index : ℕ) (group : LiquidationGroup)
    (pair : ℕ × ScaledTokenEvent) : ℤ :=
  if group.detectPattern = .combinedBurn then
    if pair.2.eventType = .debtBurn then -scaledDebt tokenRevision index group.totalDebtToCover
    else 0
  else -scaledDebt tokenRevision index pair.1

/-- The delta of a debt event under the operation that attaches it. -/
def debtDelta (handlers : Handlers) (patterns : LiquidationPatternContext) (asset : AssetRow)
    (op : Operation) (ev : ScaledTokenEvent) : Except Exn ℤ := do
  let scaledAmount ← handlers.enrich op ev
  if ev.eventType = .debtMint then standardMintDelta patterns op ev scaledAmount asset
  else standardBurnDelta patterns op ev scaledAmount asset

/-- The change for a debt event that another operation takes; two kinds are not replayed. -/
def takenDelta (handlers : Handlers) (patterns : LiquidationPatternContext) (asset : AssetRow)
    (taken : Operation × ScaledTokenEvent) : ℤ :=
  if taken.1.operationType ∈ [.stkAaveTransfer, .deficitCoverage] then 0
  else ((debtDelta handlers patterns asset taken.1 taken.2).toOption).getD 0

section Handlers

variable {market : Market} {handlers : Handlers} {events : List Log}
  {patterns : LiquidationPatternContext} {scaledEvents : List ScaledTokenEvent}
  {user debtAsset vToken n k cover index : ℕ} {left : ScaledTokenEvent → Bool}
  {asset : AssetRow} {group : LiquidationGroup}
  {op : Operation} {ev : ScaledTokenEvent} {scaledAmount : Option ℕ} {delta : ℤ}
  {balances balances' : DebtBalances}

/-- Revisions up to 3 round half up, the later ones round each way by name. -/
theorem getTokenMathForTokenRevision_cases {tokenRevision : ℕ} {tokenMath : Aave.TokenMath}
    (h : Aave.getTokenMathForTokenRevision tokenRevision = .ok tokenMath) :
    (tokenRevision ≤ 3 ∧ tokenMath = Aave.halfUpRoundingMath) ∨
      (¬tokenRevision ≤ 3 ∧ tokenMath = Aave.explicitRoundingMath) := by
  unfold Aave.getTokenMathForTokenRevision at h
  split_ifs at h with hold hfour
  · exact .inl ⟨hold, (Except.ok.inj h).symm⟩
  · exact .inr ⟨hold, (Except.ok.inj h).symm⟩
  · exact .inr ⟨hold, (Except.ok.inj h).symm⟩

theorem getDebtBurnScaledAmount_eq_ok {tokenRevision debt scaled : ℕ}
    (h : getDebtBurnScaledAmount tokenRevision debt index = .ok scaled) :
    scaled = scaledDebt tokenRevision index debt := by
  obtain ⟨tokenMath, hmath, h⟩ := bind_eq_ok.mp h
  unfold scaledDebt
  rcases getTokenMathForTokenRevision_cases hmath with ⟨hrevision, rfl⟩ | ⟨hrevision, rfl⟩
  · change rayDiv debt index = .ok scaled at h
    rw [rayDiv, ite_error_eq_ok, ite_error_eq_ok] at h
    rw [if_pos hrevision, ← Except.ok.inj h.2.2]
  · change rayDivFloor debt index = .ok scaled at h
    rw [rayDivFloor, ite_error_eq_ok, ite_error_eq_ok] at h
    rw [if_neg hrevision, ← Except.ok.inj h.2.2]

theorem debtBurnDelta_eq_ok {tokenRevision scaled balanceIncrease : ℕ}
    (h : debtBurnDelta tokenRevision ⟨scaled, balanceIncrease, index, some scaled⟩ = .ok delta) :
    delta = -scaled := by
  obtain ⟨processor, hprocessor, h⟩ := bind_eq_ok.mp h
  obtain ⟨result, hresult, h⟩ := bind_eq_ok.mp h
  rw [Aave.debtBurn_precalculated hprocessor] at hresult
  cases hresult
  exact (Except.ok.inj h).symm

theorem standardMintDelta_of_liquidation
    (hop : LiquidationOf scaledEvents user debtAsset vToken left n k cover op)
    (hdebt : isDebtOf user vToken ev = true) (htype : ev.eventType = .debtMint)
    (hindex : ev.index = some index) (hgroup : patterns.getGroup user vToken = some group)
    (h : standardMintDelta patterns op ev scaledAmount asset = .ok delta) :
    delta = pairDelta asset.vTokenRevision index group (cover, ev) := by
  obtain ⟨huser, haddress, -⟩ := isDebtOf_cases hdebt
  have hrepays : op.operationType.repaysDebt = true := by
    rw [hop.operationType]
    rfl
  have hliquidation : op.operationType.isLiquidation = true := by
    rw [hop.operationType]
    rfl
  have hrepaid : repaidByPoolEvent op = .ok cover := by
    obtain ⟨log, collateralAsset, hlog, hdata⟩ := hop.poolEvent
    simp [repaidByPoolEvent, hlog, hdata, assertSome]
  simp only [standardMintDelta, bind_eq_ok, assertSome_eq_ok, hindex, Option.some.injEq, huser,
    haddress, hrepays, hliquidation, true_and, if_true, LiquidationPatternContext.getPattern,
    hgroup, Option.map_some] at h
  obtain ⟨balanceIncrease, -, _, rfl, h⟩ := h
  unfold pairDelta
  split at h
  case isTrue hcombined =>
    rw [if_pos hcombined, htype, if_neg (by simp)]
    exact (Except.ok.inj h).symm
  case isFalse hseparate =>
    simp only [bind_eq_ok, hrepaid, Except.ok.injEq] at h
    obtain ⟨_, rfl, scaled, hscaled, h⟩ := h
    rw [if_neg hseparate, debtBurnDelta_eq_ok h, getDebtBurnScaledAmount_eq_ok hscaled]

theorem standardBurnDelta_of_liquidation
    (hop : LiquidationOf scaledEvents user debtAsset vToken left n k cover op)
    (hdebt : isDebtOf user vToken ev = true) (htype : ev.eventType = .debtBurn)
    (hindex : ev.index = some index) (hgroup : patterns.getGroup user vToken = some group)
    (h : standardBurnDelta patterns op ev scaledAmount asset = .ok delta) :
    delta = pairDelta asset.vTokenRevision index group (cover, ev) := by
  obtain ⟨huser, haddress, -⟩ := isDebtOf_cases hdebt
  have hliquidation : op.operationType.isLiquidation = true := by
    rw [hop.operationType]
    rfl
  simp only [standardBurnDelta, bind_eq_ok, assertSome_eq_ok, hindex, Option.some.injEq,
    hliquidation, if_true] at h
  obtain ⟨balanceIncrease, -, _, rfl, burnValue, hburn, h⟩ := h
  rw [debtBurnDelta_eq_ok h, pairDelta]
  simp only [liquidationBurn, huser, haddress, LiquidationPatternContext.getPattern, hgroup,
    Option.map_some, assertSome, ok_bind, hop.debtToCover] at hburn
  split at hburn
  case h_1 hcombined =>
    rw [if_pos (Option.some.inj hcombined), if_pos htype, getDebtBurnScaledAmount_eq_ok hburn]
  case h_2 hne hpattern =>
    have hseparate : group.detectPattern ≠ .combinedBurn :=
      fun hcombined => hne ((Option.some.inj hpattern).symm.trans hcombined)
    rw [if_neg hseparate, getDebtBurnScaledAmount_eq_ok hburn]
  case h_3 hnone => cases hnone

theorem debtDelta_of_liquidation
    (hop : LiquidationOf scaledEvents user debtAsset vToken left n k cover op)
    (hdebt : isDebtOf user vToken ev = true) (hindex : ev.index = some index)
    (hgroup : patterns.getGroup user vToken = some group)
    (h : debtDelta handlers patterns asset op ev = .ok delta) :
    delta = pairDelta asset.vTokenRevision index group (cover, ev) := by
  obtain ⟨scaledAmount, -, h⟩ := bind_eq_ok.mp h
  split at h
  case isTrue htype => exact standardMintDelta_of_liquidation hop hdebt htype hindex hgroup h
  case isFalse htype =>
    have hburn : ev.eventType = .debtBurn := (isDebtOf_cases hdebt).2.2.resolve_right htype
    exact standardBurnDelta_of_liquidation hop hdebt hburn hindex hgroup h

theorem DebtBalances.add_apply_of_ne {key key' : ℕ × ℕ} (h : key' ≠ key) :
    balances.add key delta key' = balances key' :=
  Function.update_of_ne h _ _

@[simp] theorem DebtBalances.add_apply_self {key : ℕ × ℕ} :
    balances.add key delta key = balances key + delta :=
  Function.update_self key _ balances

/-- What the handlers do with one event. -/
inductive Processed (market : Market) (handlers : Handlers) (events : List Log)
    (patterns : LiquidationPatternContext) (op : Operation) (balances : DebtBalances)
    (ev : ScaledTokenEvent) : DebtBalances → Prop where
  | collateral (htype : ev.eventType ∈ [ScaledTokenEventType.collateralMint, .collateralBurn,
      .collateralTransfer, .erc20CollateralTransfer]) :
      Processed market handlers events patterns op balances ev balances
  | mint {scaledAmount : Option ℕ} {asset : AssetRow} {delta : ℤ}
      (htype : ev.eventType ∈ [ScaledTokenEventType.debtMint, .ghoDebtMint])
      (henrich : handlers.enrich op ev = .ok scaledAmount)
      (hasset : getDebtAsset market ev.event.address = .ok asset)
      (hdelta : ghoOr market handlers op ev
        (standardMintDelta patterns op ev scaledAmount asset) = .ok delta) :
      Processed market handlers events patterns op balances ev
        (balances.add (ev.userAddress, ev.event.address) delta)
  | badDebt (htype : ev.eventType ∈ [ScaledTokenEventType.debtBurn, .ghoDebtBurn])
      (hbad : isBadDebtLiquidation events ev.userAddress = true) :
      Processed market handlers events patterns op balances ev
        (Function.update balances (ev.userAddress, ev.event.address) 0)
  | burn {scaledAmount : Option ℕ} {asset : AssetRow} {delta : ℤ}
      (htype : ev.eventType ∈ [ScaledTokenEventType.debtBurn, .ghoDebtBurn])
      (henrich : handlers.enrich op ev = .ok scaledAmount)
      (hasset : getDebtAsset market ev.event.address = .ok asset)
      (hdelta : ghoOr market handlers op ev
        (standardBurnDelta patterns op ev scaledAmount asset) = .ok delta) :
      Processed market handlers events patterns op balances ev
        (balances.add (ev.userAddress, ev.event.address) delta)

theorem processed_of_mint (htype : ev.eventType ∈ [ScaledTokenEventType.debtMint, .ghoDebtMint])
    (henrich : handlers.enrich op ev = .ok scaledAmount)
    (h : processDebtMintWithMatch market handlers patterns op ev scaledAmount balances =
      .ok balances') : Processed market handlers events patterns op balances ev balances' := by
  obtain ⟨asset, hasset, h⟩ := bind_eq_ok.mp h
  obtain ⟨delta, hdelta, h⟩ := bind_eq_ok.mp h
  cases h
  exact .mint htype henrich hasset hdelta

theorem processed_of_burn (htype : ev.eventType ∈ [ScaledTokenEventType.debtBurn, .ghoDebtBurn])
    (henrich : handlers.enrich op ev = .ok scaledAmount)
    (h : processDebtBurnWithMatch market handlers events patterns op ev scaledAmount balances =
      .ok balances') : Processed market handlers events patterns op balances ev balances' := by
  obtain ⟨asset, hasset, h⟩ := bind_eq_ok.mp h
  split at h
  case isTrue hbad =>
    cases h
    exact .badDebt htype (Bool.and_eq_true_iff.mp hbad).2
  case isFalse =>
    obtain ⟨delta, hdelta, h⟩ := bind_eq_ok.mp h
    cases h
    exact .burn htype henrich hasset hdelta

theorem processed_of_processScaledEvent
    (h : processScaledEvent market handlers events patterns op balances ev = .ok balances') :
    Processed market handlers events patterns op balances ev balances' := by
  obtain ⟨scaledAmount, henrich, h⟩ := bind_eq_ok.mp h
  cases htype : ev.eventType <;> simp only [htype] at h
  case debtMint => exact processed_of_mint (by simp [htype]) henrich h
  case ghoDebtMint => exact processed_of_mint (by simp [htype]) henrich h
  case debtBurn => exact processed_of_burn (by simp [htype]) henrich h
  case ghoDebtBurn => exact processed_of_burn (by simp [htype]) henrich h
  case debtTransfer => cases h
  case discountTransfer => cases h
  case ghoDebtTransfer => cases h
  case erc20DebtTransfer => cases h
  all_goals
    obtain ⟨-, -, h⟩ := bind_eq_ok.mp h
    cases h
    exact .collateral (by simp [htype])

theorem sum_debtEvents (f : ScaledTokenEvent → ℤ) (user vToken : ℕ) (op : Operation) :
    ((sortByLogIndex op.scaledTokenEvents).map fun ev =>
      if isDebtOf user vToken ev then f ev else 0).sum =
      ((op.scaledTokenEvents.filter (isDebtOf user vToken)).map f).sum := by
  rw [sortByLogIndex, ((List.perm_insertionSort _ op.scaledTokenEvents).map _).sum_eq,
    List.sum_map_ite]
  simp

theorem snd_of_keyed {operations : List Operation} {keyed : List (ℕ × Operation)}
    (h : (operations.mapM fun op => do
      let key ← getOperationSortKey op
      .ok (key, op)) = Except.ok keyed) : keyed.map Prod.snd = operations := by
  induction operations generalizing keyed with
  | nil =>
      cases h
      rfl
  | cons op operations ih =>
      rw [List.mapM_cons] at h
      obtain ⟨entry, hentry, h⟩ := bind_eq_ok.mp h
      obtain ⟨rest, hrest, h⟩ := bind_eq_ok.mp h
      obtain ⟨key, -, hentry⟩ := bind_eq_ok.mp hentry
      cases h
      cases hentry
      rw [List.map_cons, ih hrest]

theorem sortOperations_perm {operations sorted : List Operation}
    (h : sortOperations operations = .ok sorted) : sorted.Perm operations := by
  obtain ⟨keyed, hkeyed, h⟩ := bind_eq_ok.mp h
  cases h
  rw [← snd_of_keyed hkeyed]
  exact (List.perm_insertionSort _ keyed).map Prod.snd

variable {covers : List ℕ} {operations : List Operation}
  (hrep : RepeatedLiquidation market events scaledEvents user debtAsset vToken)

include hrep

/-- Other events leave the debt of the user unchanged. -/
theorem Processed.of_other (hev : ev ∈ scaledEvents) (hdebt : isDebtOf user vToken ev = false)
    (h : Processed market handlers events patterns op balances ev balances') :
    balances' (user, vToken) = balances (user, vToken) := by
  have hkey : ev.eventType ∈ [ScaledTokenEventType.debtBurn, .debtMint, .ghoDebtBurn,
      .ghoDebtMint] → (user, vToken) ≠ (ev.userAddress, ev.event.address) := by
    intro htype hkey
    obtain ⟨huser, haddress⟩ := Prod.mk.inj hkey
    rw [isDebtOf_of_address hrep hev huser.symm haddress.symm htype] at hdebt
    cases hdebt
  cases h with
  | collateral => rfl
  | mint htype => exact DebtBalances.add_apply_of_ne (hkey (by grind))
  | badDebt htype => exact Function.update_of_ne (hkey (by grind)) _ _
  | burn htype => exact DebtBalances.add_apply_of_ne (hkey (by grind))

/-- A debt event changes the debt by its delta. -/
theorem Processed.eq_add_debtDelta (hdebt : isDebtOf user vToken ev = true)
    (hasset : getDebtAsset market vToken = .ok asset)
    (h : Processed market handlers events patterns op balances ev balances') :
    ∃ delta, debtDelta handlers patterns asset op ev = .ok delta ∧
      balances' (user, vToken) = balances (user, vToken) + delta := by
  obtain ⟨huser, haddress, htype⟩ := isDebtOf_cases hdebt
  have hgho : ∀ standard, ghoOr market handlers op ev standard = standard := by
    intro standard
    rw [ghoOr, haddress, isGhoVToken, decide_eq_false hrep.vToken_ne_gho, if_neg (by simp)]
  cases h with
  | collateral hcollateral => rcases htype with htype | htype <;> simp [htype] at hcollateral
  | mint hmint henrich hasset' hdelta =>
      rw [haddress, hasset] at hasset'
      cases hasset'
      rw [hgho] at hdelta
      have htype : ev.eventType = .debtMint := by
        rcases htype with htype | htype
        · simp [htype] at hmint
        · exact htype
      refine ⟨_, ?_, by rw [huser, haddress, DebtBalances.add_apply_self]⟩
      rw [debtDelta, henrich, ok_bind, if_pos htype, hdelta]
  | badDebt _ hbad =>
      rw [huser, hrep.noBadDebt] at hbad
      cases hbad
  | burn hburn henrich hasset' hdelta =>
      rw [haddress, hasset] at hasset'
      cases hasset'
      rw [hgho] at hdelta
      have htype : ev.eventType ≠ .debtMint := by
        intro htype
        simp [htype] at hburn
      refine ⟨_, ?_, by rw [huser, haddress, DebtBalances.add_apply_self]⟩
      rw [debtDelta, henrich, ok_bind, if_neg htype, hdelta]

/-- What an operation changes: a liquidation of the user by its pairs, another operation by
the debt events that it takes. -/
def operationDelta (handlers : Handlers) (patterns : LiquidationPatternContext)
    (asset : AssetRow) (user vToken index : ℕ) (group : LiquidationGroup) (op : Operation) : ℤ :=
  if (op.coverOf user).isSome then
    ((op.debtPairs user vToken).map (pairDelta asset.vTokenRevision index group)).sum
  else ((op.scaledTokenEvents.filter (isDebtOf user vToken)).map fun ev =>
    takenDelta handlers patterns asset (op, ev)).sum

omit hrep in
/-- An operation that the update skips changes nothing. -/
theorem operationDelta_of_skipped
    (hpaired : Paired scaledEvents user debtAsset vToken left n covers operations)
    (hop : op ∈ operations) (htype : op.operationType ∈ [.stkAaveTransfer, .deficitCoverage]) :
    operationDelta handlers patterns asset user vToken index group op = 0 := by
  have hcover : ¬(op.coverOf user).isSome = true := by
    intro hcover
    obtain ⟨cover, hcover⟩ := Option.isSome_iff_exists.mp hcover
    obtain ⟨k, hliquidation⟩ := hpaired.liquidation op hop cover hcover
    simp [hliquidation.operationType] at htype
  rw [operationDelta, if_neg hcover]
  simp [takenDelta, htype]

omit hrep in
/-- The delta of an operation, event by event: in a liquidation of the user through its pairs,
elsewhere as the event alone says. -/
theorem exists_eventDelta
    (hpaired : Paired scaledEvents user debtAsset vToken left n covers operations)
    (hop : op ∈ operations) (hscaled : ∀ ev ∈ op.scaledTokenEvents, ev ∈ scaledEvents)
    (hindex : ∀ ev ∈ debtEvents scaledEvents user vToken, ev.index = some index)
    (hgroup : patterns.getGroup user vToken = some group)
    (hreplayed : op.operationType ∉ [.stkAaveTransfer, .deficitCoverage]) :
    ∃ eventDelta : ScaledTokenEvent → ℤ,
      operationDelta handlers patterns asset user vToken index group op =
        ((op.scaledTokenEvents.filter (isDebtOf user vToken)).map eventDelta).sum ∧
      ∀ ev ∈ op.scaledTokenEvents, isDebtOf user vToken ev = true → ∀ delta,
        debtDelta handlers patterns asset op ev = .ok delta → delta = eventDelta ev := by
  cases hcover : op.coverOf user with
  | some cover =>
      obtain ⟨k, hliquidation⟩ := hpaired.liquidation op hop cover hcover
      refine ⟨fun ev => pairDelta asset.vTokenRevision index group (cover, ev), ?_, ?_⟩
      · rw [operationDelta, hcover, if_pos (by rfl), Operation.debtPairs, List.map_map,
          hliquidation.debtToCover]
        rfl
      · intro ev hev hdebt delta hdelta
        exact debtDelta_of_liquidation hliquidation hdebt
          (hindex ev (mem_debtEvents.mpr ⟨hscaled ev hev, hdebt⟩)) hgroup hdelta
  | none =>
      refine ⟨fun ev => takenDelta handlers patterns asset (op, ev), ?_, ?_⟩
      · rw [operationDelta, hcover, if_neg (by simp)]
      · intro ev _ _ delta hdelta
        simp only [takenDelta, if_neg hreplayed, hdelta, Except.toOption, Option.getD_some]

/-- One operation changes the debt of the user by the deltas of its debt events. -/
theorem processOperation_sum
    (hpaired : Paired scaledEvents user debtAsset vToken left n covers operations)
    (hop : op ∈ operations) (hscaled : ∀ ev ∈ op.scaledTokenEvents, ev ∈ scaledEvents)
    (hindex : ∀ ev ∈ debtEvents scaledEvents user vToken, ev.index = some index)
    (hgroup : patterns.getGroup user vToken = some group)
    (hasset : getDebtAsset market vToken = .ok asset)
    (h : processOperation market handlers events patterns balances op = .ok balances') :
    balances' (user, vToken) = balances (user, vToken) +
      operationDelta handlers patterns asset user vToken index group op := by
  unfold processOperation at h
  split at h
  case isTrue htype =>
    cases h
    rw [operationDelta_of_skipped hpaired hop (by simp [htype]), add_zero]
  case isFalse hstk =>
    split at h
    case isTrue htype =>
      obtain ⟨-, -, h⟩ := bind_eq_ok.mp h
      cases h
      rw [operationDelta_of_skipped hpaired hop (by simp [htype]), add_zero]
    case isFalse hdeficit =>
      have hreplayed : op.operationType ∉ [.stkAaveTransfer, .deficitCoverage] := by
        simp [hstk, hdeficit]
      obtain ⟨eventDelta, hsum, hdelta⟩ :=
        exists_eventDelta hpaired hop hscaled hindex hgroup hreplayed
      rw [hsum, ← sum_debtEvents]
      refine foldlM_add_sum (fun balances => balances (user, vToken))
        (fun ev hev before after hstep => ?_) h
      have hmem : ev ∈ op.scaledTokenEvents := mem_sortByLogIndex.mp hev
      have hprocessed := processed_of_processScaledEvent hstep
      cases hdebt : isDebtOf user vToken ev with
      | false =>
          rw [hprocessed.of_other hrep (hscaled ev hmem) hdebt, if_neg (by simp), add_zero]
      | true =>
          obtain ⟨delta, hok, hchange⟩ := hprocessed.eq_add_debtDelta hrep hdebt hasset
          rw [hchange, hdelta ev hmem hdebt delta hok, if_pos rfl]

omit hrep in
/-- All operations: the pairs of the liquidations, and the debt events taken. -/
theorem sum_operationDelta (operations : List Operation) :
    (operations.map (operationDelta handlers patterns asset user vToken index group)).sum =
      (((liquidationsOf user operations).flatMap (Operation.debtPairs user vToken)).map
        (pairDelta asset.vTokenRevision index group)).sum +
        ((takenDebts operations user vToken).map (takenDelta handlers patterns asset)).sum := by
  rw [← ((operations_perm operations user).map _).sum_eq, List.map_append, List.sum_append,
    takenDebts, List.map_flatMap, List.map_flatMap, List.flatMap_def, List.flatMap_def,
    List.sum_flatten, List.sum_flatten, List.map_map, List.map_map]
  congr 2 <;> apply List.map_congr_left
  · intro op hop
    have hcover := (List.mem_filter.mp hop).2
    simp only [operationDelta, hcover, if_true, Function.comp_apply]
  · intro op hop
    have hcover := (List.mem_filter.mp hop).2
    rw [Bool.not_eq_true'] at hcover
    simp [operationDelta, hcover, Function.comp_def]

end Handlers

/-! ## The debt of the user -/

/-- What the handlers subtract for the debt events that the liquidations attach, when they
leave out those that other operations take; `burnCount` burns are found in all operations. -/
def liquidatedDebt (scaled : ℕ → ℕ) (covers : List ℕ) (burns mints : List ScaledTokenEvent)
    (left : ScaledTokenEvent → Bool) (burnCount : ℕ) : ℕ :=
  if covers.length ≠ 1 ∧ burnCount = 1 then (burns.filter left).length * scaled covers.sum
  else (((burnPairing burns covers.length covers).filter fun pair => left pair.2).map
    (scaled ·.1)).sum + ((covers.take (mints.filter left).length).map scaled).sum

/-- What they subtract for `burnCount` burns when they attach every debt event. -/
def subtractedDebt (scaled : ℕ → ℕ) (covers : List ℕ) (burnCount : ℕ) : ℕ :=
  if burnCount = covers.length then (covers.map scaled).sum
  else if burnCount = 1 then scaled covers.sum
  else burnCount * scaled (covers.headD 0) +
    ((covers.take (covers.length - burnCount)).map scaled).sum

/-- The mixtures of burns and mints for which the handlers subtract what the token burned:
burns only; a lone burn, when scaling the sum of the debts gives the sum of the scaled debts;
any other number of burns, when each of the last debts scales like the first one. -/
def KeepsDebt (scaled : ℕ → ℕ) (covers : List ℕ) (burnCount : ℕ) : Prop :=
  burnCount = covers.length ∨
  (burnCount = 1 ∧ scaled covers.sum = (covers.map scaled).sum) ∨
  (burnCount ≠ 1 ∧ burnCount * scaled (covers.headD 0) =
    ((covers.drop (covers.length - burnCount)).map scaled).sum)

theorem subtractedDebt_eq_iff (scaled : ℕ → ℕ) (covers : List ℕ) (burnCount : ℕ) :
    subtractedDebt scaled covers burnCount = (covers.map scaled).sum ↔
      KeepsDebt scaled covers burnCount := by
  unfold subtractedDebt KeepsDebt
  split
  case isTrue hall => simp [hall]
  case isFalse hmixed =>
    split
    case isTrue hone =>
      rw [hone] at hmixed
      simp [hmixed, hone]
    case isFalse hseveral =>
      have hsplit : (covers.map scaled).sum =
          ((covers.take (covers.length - burnCount)).map scaled).sum +
            ((covers.drop (covers.length - burnCount)).map scaled).sum := by
        rw [← List.sum_append, ← List.map_append, List.take_append_drop]
      simp only [hmixed, hseveral, false_and, false_or, ne_eq, not_false_eq_true, true_and, hsplit]
      omega

section Debt

variable {burns mints : List ScaledTokenEvent} {left : ScaledTokenEvent → Bool}
  {covers : List ℕ} {group : LiquidationGroup} {burnCount tokenRevision index : ℕ}

theorem GroupOf.detectPattern_iff (h : GroupOf burnCount covers group) :
    group.detectPattern = .combinedBurn ↔ covers.length ≠ 1 ∧ burnCount = 1 := by
  unfold LiquidationGroup.detectPattern
  rw [h.liquidations, h.burnEvents]
  split
  case isTrue hone => simp [hone]
  case isFalse hne =>
    split
    case isTrue hburn => simp [hne, hburn]
    case isFalse hburn => simp [hburn]

theorem sum_neg_natCast {α : Type} (xs : List α) (f : α → ℕ) :
    (xs.map fun x => -(f x : ℤ)).sum = -((xs.map f).sum : ℕ) := by
  induction xs with
  | nil => rfl
  | cons x xs ih =>
      rw [List.map_cons, List.sum_cons, ih, List.map_cons, List.sum_cons]
      push_cast
      ring

theorem sum_pairDelta (hgroup : GroupOf burnCount covers group) (hcovers : covers ≠ [])
    (hburns : ∀ burn ∈ burns, burn.eventType = .debtBurn)
    (hmints : ∀ mint ∈ mints, mint.eventType = .debtMint) :
    ((pairing burns mints left covers.length covers).map
      (pairDelta tokenRevision index group)).sum =
      -(liquidatedDebt (scaledDebt tokenRevision index) covers burns mints left burnCount : ℤ) := by
  unfold liquidatedDebt
  by_cases hcombined : group.detectPattern = .combinedBurn
  · have hburnDelta : ∀ pair ∈ burnPairing burns covers.length covers,
        pairDelta tokenRevision index group pair =
          -(scaledDebt tokenRevision index covers.sum : ℤ) := by
      intro pair hpair
      have hburn : pair.2 ∈ burns := by
        rw [← map_snd_burnPairing burns covers]
        exact List.mem_map_of_mem hpair
      rw [pairDelta, if_pos hcombined, if_pos (hburns pair.2 hburn), hgroup.total]
    have hmintDelta : ∀ cover, ∀ mint ∈ mints,
        pairDelta tokenRevision index group (cover, mint) = 0 := by
      intro cover mint hmint
      rw [pairDelta, if_pos hcombined, if_neg (by simp [hmints mint hmint])]
    rw [sum_pairing (β := fun _ => -(scaledDebt tokenRevision index covers.sum : ℤ))
      (μ := fun _ => 0) hcovers hburnDelta hmintDelta,
      if_pos (hgroup.detectPattern_iff.mp hcombined),
      ← map_snd_burnPairing_filter burns left covers, List.length_map]
    simp
  · have hdelta : ∀ pair : ℕ × ScaledTokenEvent, pairDelta tokenRevision index group pair =
        -(scaledDebt tokenRevision index pair.1 : ℤ) := by
      intro pair
      rw [pairDelta, if_neg hcombined]
    rw [sum_pairing (β := fun cover => -(scaledDebt tokenRevision index cover : ℤ))
      (μ := fun cover => -(scaledDebt tokenRevision index cover : ℤ)) hcovers
      (fun pair _ => hdelta pair) (fun cover mint _ => hdelta (cover, mint)),
      sum_neg_natCast, sum_neg_natCast,
      if_neg fun hpattern => hcombined (hgroup.detectPattern_iff.mpr hpattern)]
    push_cast
    ring

/-- When no event is taken by another operation. -/
theorem liquidatedDebt_eq_subtractedDebt {scaled : ℕ → ℕ}
    (hlength : burns.length + mints.length = covers.length)
    (hburns : ∀ burn ∈ burns, left burn = true) (hmints : ∀ mint ∈ mints, left mint = true) :
    liquidatedDebt scaled covers burns mints left burns.length =
      subtractedDebt scaled covers burns.length := by
  have hpairs : (burnPairing burns covers.length covers).filter (fun pair => left pair.2) =
      burnPairing burns covers.length covers := by
    rw [List.filter_eq_self]
    intro pair hpair
    apply hburns
    rw [← map_snd_burnPairing burns covers]
    exact List.mem_map_of_mem hpair
  unfold liquidatedDebt subtractedDebt
  rw [hpairs, List.filter_eq_self.mpr hburns, List.filter_eq_self.mpr hmints, burnPairing]
  by_cases hall : burns.length = covers.length
  · have hnone : mints.length = 0 := by omega
    have hfst : (covers.zip burns).map Prod.fst = covers := List.map_fst_zip (by omega)
    have hscaled : (covers.zip burns).map (scaled ·.1) = covers.map scaled := by
      conv_rhs => rw [← hfst, List.map_map]
      rfl
    rw [if_neg (by omega), if_pos hall, if_pos hall, hscaled, hnone, List.take_zero, List.map_nil,
      List.sum_nil, Nat.add_zero]
  · rw [if_neg hall, if_neg hall]
    by_cases hone : burns.length = 1
    · rw [if_pos ⟨by omega, hone⟩, if_pos hone, hone, Nat.one_mul]
    · have hmintCount : mints.length = covers.length - burns.length := by omega
      rw [if_neg (by tauto), if_neg hone, hmintCount, List.map_map]
      simp [Function.comp_def]

end Debt

section Transaction

variable {market : Market} {handlers : Handlers} {events : List Log}
  {scaledEvents : List ScaledTokenEvent} {user debtAsset vToken index : ℕ} {asset : AssetRow}
  {balances balances' : DebtBalances}

theorem mem_scaledEvents_of_parse
    (hrep : RepeatedLiquidation market events scaledEvents user debtAsset vToken)
    {tx : TransactionOperations} (h : parse market events = .ok tx) {op : Operation}
    (hop : op ∈ tx.operations) : ∀ ev ∈ op.scaledTokenEvents, ev ∈ scaledEvents := by
  obtain ⟨scaledEvents', state, hextract, hstate, hoperations, -⟩ := parse_eq_ok h
  have hscaled : scaledEvents' = scaledEvents := Except.ok.inj (hextract.symm.trans hrep.extract)
  subst hscaled
  rw [hoperations] at hop
  exact ((runPasses_accounted hstate).drawn op hop).scaled

/-- The debt that a transaction takes from the user, whatever other operations take. -/
theorem processTransaction_debt
    (hrep : RepeatedLiquidation market events scaledEvents user debtAsset vToken)
    (hindex : ∀ ev ∈ debtEvents scaledEvents user vToken, ev.index = some index)
    (hasset : getDebtAsset market vToken = .ok asset)
    (h : processTransaction market handlers events balances = .ok balances')
    {tx : TransactionOperations} {patterns : LiquidationPatternContext}
    (hparse : parse market events = .ok tx)
    (hpatterns : detectLiquidationPatterns market tx.operations
      (tx.operations.flatMap Operation.scaledTokenEvents) = .ok patterns) :
    balances' (user, vToken) = balances (user, vToken) +
      (-(liquidatedDebt (scaledDebt asset.vTokenRevision index) (debtsToCover events user)
          (debtBurns scaledEvents user vToken) (debtMints scaledEvents user vToken)
          (attachedTo tx.operations user) (burnsFound tx.operations user vToken) : ℤ) +
        ((takenDebts tx.operations user vToken).map (takenDelta handlers patterns asset)).sum) := by
  simp only [processTransaction, hparse, hpatterns, ok_bind, bind_eq_ok] at h
  obtain ⟨-, -, sorted, hsorted, h⟩ := h
  have hpaired := parse_paired hrep hparse
  have hscaled : ∀ op ∈ tx.operations, ∀ ev ∈ op.scaledTokenEvents, ev ∈ scaledEvents :=
    fun op hop => mem_scaledEvents_of_parse hrep hparse hop
  obtain ⟨group, hgroup, hgroupOf⟩ :=
    getGroup_of_paired hrep hpaired hrep.liquidated hscaled hpatterns
  have hperm := sortOperations_perm hsorted
  have hsum := foldlM_add_sum (fun balances => balances (user, vToken))
    (fun op hop before after hstep => processOperation_sum hrep hpaired (hperm.mem_iff.mp hop)
      (hscaled op (hperm.mem_iff.mp hop)) hindex hgroup hasset hstep) h
  have hburns : ∀ burn ∈ debtBurns scaledEvents user vToken, burn.eventType = .debtBurn :=
    fun burn hburn => (mem_debtBurns.mp hburn).2
  have hmints : ∀ mint ∈ debtMints scaledEvents user vToken, mint.eventType = .debtMint :=
    fun mint hmint => (mem_debtMints.mp hmint).2
  rw [(hperm.map _).sum_eq, sum_operationDelta, hpaired.pairs,
    sum_pairDelta hgroupOf hrep.liquidated hburns hmints] at hsum
  exact hsum

/-- Without a dispute the liquidations attach everything, and nothing is taken. -/
theorem Undisputed.liquidatedDebt_eq
    (hrep : RepeatedLiquidation market events scaledEvents user debtAsset vToken)
    (hund : Undisputed market events scaledEvents user vToken) {tx : TransactionOperations}
    (hparse : parse market events = .ok tx) (scaled : ℕ → ℕ) :
    takenDebts tx.operations user vToken = [] ∧
      liquidatedDebt scaled (debtsToCover events user) (debtBurns scaledEvents user vToken)
        (debtMints scaledEvents user vToken) (attachedTo tx.operations user)
        (burnsFound tx.operations user vToken) =
        subtractedDebt scaled (debtsToCover events user)
          (debtBurns scaledEvents user vToken).length := by
  have hall := @Undisputed.attached_by_liquidation _ _ _ _ _ _ hrep hund _ hparse
  have htaken : takenDebts tx.operations user vToken = [] := by
    rw [takenDebts, List.flatMap_eq_nil_iff]
    intro op hop
    obtain ⟨hop, hcover⟩ := List.mem_filter.mp hop
    rw [List.map_eq_nil_iff, List.filter_eq_nil_iff]
    intro ev hev hdebt
    have hscaled := mem_scaledEvents_of_parse hrep hparse hop ev hev
    have hliquidation := (hall (mem_debtEvents.mpr ⟨hscaled, hdebt⟩)).2 op hop hev
    rw [hliquidation] at hcover
    cases hcover
  have hburns : ∀ burn ∈ debtBurns scaledEvents user vToken,
      attachedTo tx.operations user burn = true :=
    fun burn hburn => (hall (mem_debtBurns.mp hburn).1).1
  have hmints : ∀ mint ∈ debtMints scaledEvents user vToken,
      attachedTo tx.operations user mint = true :=
    fun mint hmint => (hall (mem_debtMints.mp hmint).1).1
  refine ⟨htaken, ?_⟩
  rw [burnsFound_eq (parse_paired hrep hparse) hrep.liquidated rfl, htaken,
    List.filter_eq_self.mpr hburns, List.countP_nil, Nat.add_zero]
  exact liquidatedDebt_eq_subtractedDebt (length_burns_add_mints hrep) hburns hmints

end Transaction

/-- Without a dispute the tracked debt changes by what the token burned exactly for these
mixtures of burns and mints. Otherwise it does so exactly when the liquidations, with the debt
events left to them, subtract what the token burned and what the other operations add. -/
theorem processTransaction_keepsDebt_iff (market : Market) (handlers : Handlers)
    (events : List Log) (scaledEvents : List ScaledTokenEvent) (user debtAsset vToken index : ℕ)
    (asset : AssetRow) (balances balances' : DebtBalances)
    (hrep : RepeatedLiquidation market events scaledEvents user debtAsset vToken)
    (hindex : ∀ ev ∈ debtEvents scaledEvents user vToken, ev.index = some index)
    (hasset : getDebtAsset market vToken = .ok asset)
    (h : processTransaction market handlers events balances = .ok balances') :
    (Undisputed market events scaledEvents user vToken →
      (balances' (user, vToken) - balances (user, vToken) =
          -((((debtsToCover events user).map (scaledDebt asset.vTokenRevision index)).sum : ℕ) :
            ℤ) ↔
        KeepsDebt (scaledDebt asset.vTokenRevision index) (debtsToCover events user)
          (debtBurns scaledEvents user vToken).length)) ∧
    ∀ tx patterns, parse market events = .ok tx →
      detectLiquidationPatterns market tx.operations
        (tx.operations.flatMap Operation.scaledTokenEvents) = .ok patterns →
      (balances' (user, vToken) - balances (user, vToken) =
          -((((debtsToCover events user).map (scaledDebt asset.vTokenRevision index)).sum : ℕ) :
            ℤ) ↔
        (liquidatedDebt (scaledDebt asset.vTokenRevision index) (debtsToCover events user)
            (debtBurns scaledEvents user vToken) (debtMints scaledEvents user vToken)
            (attachedTo tx.operations user) (burnsFound tx.operations user vToken) : ℤ) =
          (((debtsToCover events user).map (scaledDebt asset.vTokenRevision index)).sum : ℕ) +
            ((takenDebts tx.operations user vToken).map
              (takenDelta handlers patterns asset)).sum) := by
  constructor
  · intro hund
    have hprocess := h
    simp only [processTransaction, bind_eq_ok] at hprocess
    obtain ⟨tx, hparse, -, -, patterns, hpatterns, -⟩ := hprocess
    obtain ⟨htaken, hliquidated⟩ := hund.liquidatedDebt_eq hrep hparse
      (scaledDebt asset.vTokenRevision index)
    have hdebt := processTransaction_debt hrep hindex hasset h hparse hpatterns
    rw [htaken, hliquidated, List.map_nil, List.sum_nil] at hdebt
    rw [hdebt, ← subtractedDebt_eq_iff]
    omega
  · intro tx patterns hparse hpatterns
    rw [processTransaction_debt hrep hindex hasset h hparse hpatterns]
    omega

/-! ## Two liquidations -/

/-- Three reserves, with aTokens 11, 12, 13 and debt tokens 21, 22, 23. -/
def liquidationMarket : Market :=
  ⟨[⟨1, 11, 21, 1⟩, ⟨2, 12, 22, 1⟩, ⟨3, 13, 23, 1⟩], 100, 3, 9, some 29, none⟩

/-- A burn is enriched with the scaled amount that its pool event repays. -/
def sampleHandlers : Handlers where
  enrich op ev :=
    match ev.eventType, repaidByPoolEvent op, ev.index with
    | .debtBurn, .ok repaid, some index => (getDebtBurnScaledAmount 1 repaid index).map some
    | _, _, _ => .ok none
  ghoDelta _ _ := .ok 0
  collateral _ _ := .ok ()

/-- User 50 is liquidated twice for one unit of debt; the logs of the first burn are given. -/
def twoLiquidations (first : List Log) : List Log :=
  first ++
    [⟨2, 11, .transfer 50 0 30⟩, ⟨3, 11, .burn 50 60 30 0 (15 * 10 ^ 26)⟩,
     ⟨4, 100, .liquidationCall 1 2 50 1⟩,
     ⟨5, 22, .transfer 50 0 1⟩, ⟨6, 22, .burn 50 0 1 0 (15 * 10 ^ 26)⟩,
     ⟨7, 13, .transfer 50 0 30⟩, ⟨8, 13, .burn 50 60 30 0 (15 * 10 ^ 26)⟩,
     ⟨9, 100, .liquidationCall 3 2 50 1⟩]

/-- Afterwards account 60 repays the same amount of its own debt. -/
def burnLogs : List Log :=
  twoLiquidations [⟨0, 22, .transfer 50 0 1⟩, ⟨1, 22, .burn 50 0 1 0 (15 * 10 ^ 26)⟩] ++
    [⟨10, 22, .transfer 60 0 1⟩, ⟨11, 22, .burn 60 0 1 0 (15 * 10 ^ 26)⟩,
     ⟨12, 100, .repay 2 60 1 false⟩]

/-- The interest of the user exceeds the debt of the first liquidation. -/
def mintLogs : List Log :=
  twoLiquidations [⟨0, 22, .transfer 0 50 9⟩, ⟨1, 22, .mint 50 50 9 10 (15 * 10 ^ 26)⟩]

/-- The repayment of account 60 takes the burn of user 50; the liquidation of 60 attaches both
burns of 60. -/
def takenLogs : List Log :=
  [⟨0, 22, .transfer 50 0 1⟩, ⟨1, 22, .burn 50 0 1 0 (15 * 10 ^ 26)⟩,
   ⟨2, 22, .transfer 60 0 1⟩, ⟨3, 22, .burn 60 0 1 0 (15 * 10 ^ 26)⟩,
   ⟨4, 100, .repay 2 60 1 false⟩,
   ⟨5, 11, .transfer 50 0 30⟩, ⟨6, 11, .burn 50 70 30 0 (15 * 10 ^ 26)⟩,
   ⟨7, 100, .liquidationCall 1 2 50 1⟩,
   ⟨8, 22, .transfer 60 0 1⟩, ⟨9, 22, .burn 60 0 1 0 (15 * 10 ^ 26)⟩,
   ⟨10, 11, .transfer 60 0 30⟩, ⟨11, 11, .burn 60 70 30 0 (15 * 10 ^ 26)⟩,
   ⟨12, 100, .liquidationCall 1 2 60 1⟩]

def scaledEventsOf (events : List Log) : List ScaledTokenEvent :=
  ((extractScaledTokenEvents liquidationMarket events).toOption).getD []

/-- The tracked debt of the user, from 100. -/
def debtAfter (events : List Log) : Option ℤ :=
  ((processTransaction liquidationMarket sampleHandlers events fun _ => 100).toOption).map
    (· (50, 22))

theorem exists_of_debtAfter {events : List Log} {debt : ℤ} (h : debtAfter events = some debt) :
    ∃ balances', processTransaction liquidationMarket sampleHandlers events (fun _ => 100) =
      .ok balances' ∧ balances' (50, 22) = debt := by
  unfold debtAfter at h
  cases hresult : processTransaction liquidationMarket sampleHandlers events fun _ => 100 with
  | error exn => simp [hresult, Except.toOption] at h
  | ok balances' =>
      refine ⟨balances', rfl, ?_⟩
      simpa [hresult, Except.toOption] using h

/-- What a list of logs is checked for. -/
theorem repeatedLiquidation_of_checks {events : List Log}
    (hdistinct : (events.map Log.logIndex).Nodup)
    (hextract : extractScaledTokenEvents liquidationMarket events = .ok (scaledEventsOf events))
    (hsame : ∀ key ∈ events.filterMap Log.liquidation?, key.1 = 50 → key.2 = 2)
    (hbad : isBadDebtLiquidation events 50 = false) (hliquidated : debtsToCover events 50 ≠ [])
    (honeEach : (debtEvents (scaledEventsOf events) 50 22).length =
      (debtsToCover events 50).length) :
    RepeatedLiquidation liquidationMarket events (scaledEventsOf events) 50 2 22 where
  distinct := hdistinct
  extract := hextract
  vToken_eq := by decide
  asset_ne_gho := by decide
  vToken_ne_gho := by decide
  sameDebt := fun log hlog key hkey => hsame key (List.mem_filterMap.mpr ⟨log, hlog, hkey⟩)
  noBadDebt := hbad
  liquidated := hliquidated
  oneEach := honeEach

theorem burnLogs_repeated :
    RepeatedLiquidation liquidationMarket burnLogs (scaledEventsOf burnLogs) 50 2 22 :=
  repeatedLiquidation_of_checks (by decide) (by decide) (by decide)
    (by decide) (by decide) (by decide)

theorem mintLogs_repeated :
    RepeatedLiquidation liquidationMarket mintLogs (scaledEventsOf mintLogs) 50 2 22 :=
  repeatedLiquidation_of_checks (by decide) (by decide) (by decide)
    (by decide) (by decide) (by decide)

theorem takenLogs_repeated :
    RepeatedLiquidation liquidationMarket takenLogs (scaledEventsOf takenLogs) 50 2 22 :=
  repeatedLiquidation_of_checks (by decide) (by decide) (by decide)
    (by decide) (by decide) (by decide)

/-- Pool event number `i` takes no debt event of the user, in the state before it. -/
def leavesDebt (events : List Log) (i : ℕ) : Bool :=
  match ((extractPoolEvents events).take i).foldlM
      (poolEventStep liquidationMarket events (scaledEventsOf events)) ⟨[], []⟩,
    (extractPoolEvents events)[i]? with
  | .ok state, some poolEvent =>
      !takesDebt liquidationMarket (scaledEventsOf events) 50 22 state.assigned poolEvent
  | _, _ => true

theorem undisputed_of_checks {events : List Log}
    (hsteps : ∀ i < (extractPoolEvents events).length, leavesDebt events i = true)
    (hindex : ∀ ev ∈ debtEvents (scaledEventsOf events) 50 22,
      NoBurnIndex (scaledEventsOf events) ev) :
    Undisputed liquidationMarket events (scaledEventsOf events) 50 22 where
  steps := by
    intro done poolEvent todo state hsplit hdone
    have hi : done.length < (extractPoolEvents events).length := by
      simp [hsplit]
    have hleaves := hsteps done.length hi
    simpa [leavesDebt, hsplit, hdone] using hleaves
  index := hindex

theorem burnLogs_undisputed :
    Undisputed liquidationMarket burnLogs (scaledEventsOf burnLogs) 50 22 :=
  undisputed_of_checks (by decide) (by
    unfold NoBurnIndex
    decide)

def operationsOf (events : List Log) : TransactionOperations :=
  ((parse liquidationMarket events).toOption).getD ⟨[], []⟩

def patternsOf (events : List Log) : LiquidationPatternContext :=
  ((detectLiquidationPatterns liquidationMarket (operationsOf events).operations
    ((operationsOf events).operations.flatMap Operation.scaledTokenEvents)).toOption).getD ⟨[], []⟩

theorem processTransaction_keepsDebt_burnLogs :
    (∃ balances', processTransaction liquidationMarket sampleHandlers burnLogs (fun _ => 100) =
      .ok balances' ∧ balances' (50, 22) - 100 = -2) ∧
    ∃ balances', processTransaction liquidationMarket sampleHandlers takenLogs (fun _ => 100) =
      .ok balances' ∧ balances' (50, 22) - 100 = -1 := by
  constructor
  · have hafter : debtAfter burnLogs = some 98 := by decide
    obtain ⟨balances', hprocess, -⟩ := exists_of_debtAfter hafter
    have hscaled : ((debtsToCover burnLogs 50).map (scaledDebt 1 (15 * 10 ^ 26))).sum = 2 := by
      decide
    have hchange := ((processTransaction_keepsDebt_iff liquidationMarket sampleHandlers burnLogs
      (scaledEventsOf burnLogs) 50 2 22 (15 * 10 ^ 26) ⟨2, 12, 22, 1⟩ (fun _ => 100) balances'
      burnLogs_repeated (by decide) (by decide) hprocess).1 burnLogs_undisputed).mpr
      (.inl (by decide))
    rw [hscaled] at hchange
    exact ⟨balances', hprocess, hchange⟩
  · have hafter : debtAfter takenLogs = some 99 := by decide
    obtain ⟨balances', hprocess, -⟩ := exists_of_debtAfter hafter
    have hscaled : ((debtsToCover takenLogs 50).map (scaledDebt 1 (15 * 10 ^ 26))).sum = 1 := by
      decide
    have hchange := ((processTransaction_keepsDebt_iff liquidationMarket sampleHandlers takenLogs
      (scaledEventsOf takenLogs) 50 2 22 (15 * 10 ^ 26) ⟨2, 12, 22, 1⟩ (fun _ => 100) balances'
      takenLogs_repeated (by decide) (by decide) hprocess).2 (operationsOf takenLogs)
      (patternsOf takenLogs) (by decide) (by decide)).mpr (by decide)
    rw [hscaled] at hchange
    exact ⟨balances', hprocess, hchange⟩

/-- A mint and a burn: the debt changes by the scaled sum, which is not the sum of the scaled
debts. -/
theorem mintLogs_debt_ne :
    RepeatedLiquidation liquidationMarket mintLogs (scaledEventsOf mintLogs) 50 2 22 ∧
      (∀ ev ∈ debtEvents (scaledEventsOf mintLogs) 50 22, ev.index = some (15 * 10 ^ 26)) ∧
      getDebtAsset liquidationMarket 22 = .ok ⟨2, 12, 22, 1⟩ ∧
      ∃ balances', processTransaction liquidationMarket sampleHandlers mintLogs (fun _ => 100) =
        .ok balances' ∧ balances' (50, 22) - 100 ≠
          -((((debtsToCover mintLogs 50).map (scaledDebt 1 (15 * 10 ^ 26))).sum : ℕ) : ℤ) := by
  refine ⟨mintLogs_repeated, by decide, by decide, ?_⟩
  have hafter : debtAfter mintLogs = some 99 := by decide
  obtain ⟨balances', hprocess, hdebt⟩ := exists_of_debtAfter hafter
  refine ⟨balances', hprocess, ?_⟩
  have hscaled : ((debtsToCover mintLogs 50).map (scaledDebt 1 (15 * 10 ^ 26))).sum = 2 := by
    decide
  rw [hdebt, hscaled]
  decide

end Degenbot.AaveParser
