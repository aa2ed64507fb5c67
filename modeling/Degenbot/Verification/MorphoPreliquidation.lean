import Degenbot.Algorithm.MorphoPreliquidation
import Degenbot.Library.Batch
import Degenbot.Library.Lists

/-! # Pre-liquidation eligibility and candidates

The terms of an eligible position lie between the bounds of its contract, and the selection keeps
one best candidate for every market and borrower. -/

namespace Degenbot.Morpho

open Library

/-! ## Rounded quotients -/

theorem wad_pos : 0 < wad := by decide

theorem lt_wadDivUp_iff {a b c : ℤ} (hb : 0 < b) : c < wadDivUp a b ↔ c * b < a * wad := by
  rw [wadDivUp, Int.fdiv_eq_ediv_of_nonneg _ hb.le, ← Int.add_one_le_iff,
    Int.le_ediv_iff_mul_le hb, add_mul]
  omega

theorem wadDivUp_le_iff {a b c : ℤ} (hb : 0 < b) : wadDivUp a b ≤ c ↔ a * wad ≤ c * b := by
  rw [← not_lt, lt_wadDivUp_iff hb, not_lt]

theorem le_wadMulDown_iff {a b c : ℤ} : c ≤ wadMulDown a b ↔ c * wad ≤ a * b := by
  rw [wadMulDown, Int.fdiv_eq_ediv_of_nonneg _ wad_pos.le, Int.le_ediv_iff_mul_le wad_pos]

theorem wadMulDown_lt_iff {a b c : ℤ} : wadMulDown a b < c ↔ a * b < c * wad := by
  rw [← not_le, le_wadMulDown_iff, not_le]

/-- A weight between zero and one moves a value at most to the end of its interval. -/
theorem interpolation_bounds {quotient low high : ℤ} (hquotient : 0 ≤ quotient ∧ quotient ≤ wad)
    (h : low ≤ high) :
    low ≤ wadMulDown quotient (high - low) + low ∧
      wadMulDown quotient (high - low) + low ≤ high := by
  have hdiff : 0 ≤ high - low := sub_nonneg.mpr h
  have hlow : 0 ≤ wadMulDown quotient (high - low) := by
    rw [le_wadMulDown_iff, zero_mul]
    exact mul_nonneg hquotient.1 hdiff
  have hhigh : wadMulDown quotient (high - low) < high - low + 1 := by
    rw [wadMulDown_lt_iff]
    have hle : quotient * (high - low) ≤ wad * (high - low) :=
      mul_le_mul_of_nonneg_right hquotient.2 hdiff
    linarith [wad_pos]
  omega

/-! ## Accepted contracts and positions -/

theorem reasonIf_eq_nil {condition : Prop} [Decidable condition] {reason : String} :
    reasonIf condition reason = [] ↔ ¬condition := by
  unfold reasonIf
  split <;> simp_all

/-- What the screening establishes about the numbers of a contract. -/
structure Screened (contract : MorphoPreLiquidationContract) (marketLltv : ℤ) : Prop where
  lltv_pos : 0 < marketLltv
  preLltv_lt : contract.preLltv < marketLltv
  preLif2_le : contract.preLif2 ≤ (wad * wad).fdiv marketLltv
  preLif_le : contract.preLif1 ≤ contract.preLif2
  preLcf_le : contract.preLcf1 ≤ contract.preLcf2

variable {lower : String → String} {contract : MorphoPreLiquidationContract} {marketLltv : ℤ}
  {position : MorphoPreLiquidationPositionSnapshot}

theorem screened_of_no_reasons
    (h : contract.screeningRejectReasons lower marketLltv = []) : Screened contract marketLltv := by
  simp only [MorphoPreLiquidationContract.screeningRejectReasons, List.append_eq_nil_iff,
    reasonIf_eq_nil, not_or, not_lt] at h
  obtain ⟨⟨⟨⟨⟨-, hmarket⟩, hlcf⟩, -⟩, -⟩, hlif⟩ := h
  split_ifs at hmarket with hrange
  rw [not_or, not_le, not_lt] at hrange
  simp only [List.append_eq_nil_iff, reasonIf_eq_nil, not_or, not_lt, not_le, ge_iff_le, gt_iff_lt]
    at hmarket
  exact ⟨hrange.1, hmarket.1, hmarket.2.2, hlif, hlcf⟩

/-- The incentive of a contract, on the greatest debt of the market, is within the collateral. -/
theorem Screened.mul_le {collateralQuoted borrowed preLif : ℤ}
    (h : Screened contract marketLltv) (hborrowed : 0 ≤ borrowed)
    (hmarket : borrowed ≤ wadMulDown collateralQuoted marketLltv)
    (hpreLif : preLif ≤ contract.preLif2) : borrowed * preLif ≤ wad * collateralQuoted := by
  have hlltv := h.lltv_pos
  have hlif : preLif * marketLltv ≤ wad * wad := by
    have hle : preLif ≤ (wad * wad).fdiv marketLltv := hpreLif.trans h.preLif2_le
    rwa [Int.fdiv_eq_ediv_of_nonneg _ hlltv.le, Int.le_ediv_iff_mul_le hlltv] at hle
  have hdebt : borrowed * wad ≤ collateralQuoted * marketLltv := le_wadMulDown_iff.mp hmarket
  have hscaled : borrowed * preLif * marketLltv ≤ wad * collateralQuoted * marketLltv := by
    calc borrowed * preLif * marketLltv = borrowed * (preLif * marketLltv) := by ring
      _ ≤ borrowed * (wad * wad) := mul_le_mul_of_nonneg_left hlif hborrowed
      _ = wad * (borrowed * wad) := by ring
      _ ≤ wad * (collateralQuoted * marketLltv) := mul_le_mul_of_nonneg_left hdebt wad_pos.le
      _ = wad * collateralQuoted * marketLltv := by ring
  exact le_of_mul_le_mul_right hscaled hlltv

/-! ## Eligible positions -/

/-- The terms of a pre-liquidation lie within the bounds of its contract, and the whole debt with
its incentive is worth no more than the collateral. -/
structure WithinBounds (contract : MorphoPreLiquidationContract) (marketLltv : ℤ)
    (position : MorphoPreLiquidationPositionSnapshot)
    (terms : MorphoPreLiquidationEligibility) : Prop where
  ltv : contract.preLltv < terms.ltv ∧ terms.ltv ≤ marketLltv
  quotient : 0 ≤ terms.quotient ∧ terms.quotient ≤ wad
  preLif : contract.preLif1 ≤ terms.preLif ∧ terms.preLif ≤ contract.preLif2
  preLcf : contract.preLcf1 ≤ terms.preLcf ∧ terms.preLcf ≤ contract.preLcf2
  seizure : position.borrowedAssets * terms.preLif ≤ wad * terms.collateralQuoted

theorem within_of_eligible
    (h : (evaluatePreLiquidationEligibility lower contract marketLltv position).eligible) :
    WithinBounds contract marketLltv position
      (evaluatePreLiquidationEligibility lower contract marketLltv position) := by
  unfold evaluatePreLiquidationEligibility at h ⊢
  dsimp only at h ⊢
  split_ifs at h ⊢ with hreasons hquoted hrange hrepayable
  · simp [rejected] at h
  · simp [rejected] at h
  · simp [rejected] at h
  rotate_left
  · exact absurd (of_decide_eq_true h) hrepayable
  simp only [ne_eq, not_not, List.append_eq_nil_iff] at hreasons
  obtain ⟨hcontract, hposition⟩ := hreasons
  have hscreened := screened_of_no_reasons hcontract
  simp only [MorphoPreLiquidationPositionSnapshot.rejectReasons, List.append_eq_nil_iff,
    reasonIf_eq_nil, not_le] at hposition
  obtain ⟨⟨⟨⟨hcollateral, hborrowed⟩, -⟩, hprice⟩, hscale⟩ := hposition
  simp only [ne_eq, not_not, List.append_eq_nil_iff, reasonIf_eq_nil, not_le, gt_iff_lt, not_lt]
    at hrange
  obtain ⟨hmarket, hpre⟩ := hrange
  have hcq : 0 < mulDivDown position.collateralAssets position.collateralPrice
      position.oraclePriceScale := by
    refine lt_of_le_of_ne ?_ (Ne.symm hquoted)
    rw [mulDivDown, Int.fdiv_eq_ediv_of_nonneg _ hscale.le]
    exact Int.ediv_nonneg (mul_nonneg hcollateral.le hprice.le) hscale.le
  set collateralQuoted := mulDivDown position.collateralAssets position.collateralPrice
    position.oraclePriceScale with hquotedDef
  set ltv := wadDivUp position.borrowedAssets collateralQuoted with hltvDef
  have hltv : contract.preLltv < ltv ∧ ltv ≤ marketLltv := by
    constructor
    · rw [hltvDef, lt_wadDivUp_iff hcq]
      linarith [wadMulDown_lt_iff.mp hpre]
    · rw [hltvDef, wadDivUp_le_iff hcq]
      linarith [le_wadMulDown_iff.mp hmarket]
  have hspread : 0 < marketLltv - contract.preLltv := sub_pos.mpr hscreened.preLltv_lt
  have hquotient : 0 ≤ wadDivDown (ltv - contract.preLltv) (marketLltv - contract.preLltv) ∧
      wadDivDown (ltv - contract.preLltv) (marketLltv - contract.preLltv) ≤ wad := by
    rw [wadDivDown, Int.fdiv_eq_ediv_of_nonneg _ hspread.le]
    constructor
    · exact Int.ediv_nonneg (mul_nonneg (sub_nonneg.mpr hltv.1.le) wad_pos.le) hspread.le
    · refine Int.ediv_le_of_le_mul hspread ?_
      rw [mul_comm]
      exact mul_le_mul_of_nonneg_left (sub_le_sub_right hltv.2 _) wad_pos.le
  have hlif := interpolation_bounds hquotient hscreened.preLif_le
  exact ⟨hltv, hquotient, hlif, interpolation_bounds hquotient hscreened.preLcf_le,
    hscreened.mul_le hborrowed.le hmarket hlif.2⟩

/-! ## The choice among the candidates -/

section Choice

variable {candidates : List MorphoPreLiquidationCandidate} {key : String × String}

/-- What is kept under a key: nothing when it was seen, and otherwise the first candidate. -/
theorem filter_keepUnseen (key : String × String) (seen : List (String × String)) :
    (keepUnseen lower seen candidates).filter (fun candidate => candidate.key lower = key) =
      if key ∈ seen then []
      else (candidates.find? fun candidate => candidate.key lower = key).toList := by
  induction candidates generalizing seen with
  | nil => simp [keepUnseen]
  | cons candidate candidates ih =>
      rw [keepUnseen, List.find?_cons]
      by_cases hseen : candidate.key lower ∈ seen
      · rw [if_pos hseen, ih]
        by_cases hkey : candidate.key lower = key
        · rw [if_pos (hkey ▸ hseen), if_pos (hkey ▸ hseen)]
        · simp [hkey]
      · rw [if_neg hseen]
        by_cases hkey : candidate.key lower = key
        · subst hkey
          simp [ih, hseen]
        · have hcons : key ∈ candidate.key lower :: seen ↔ key ∈ seen := by
            simp [Ne.symm hkey]
          simp [ih, hkey, hcons]

theorem sortByRepayable_pairwise : (sortByRepayable candidates).Pairwise fun a b =>
    b.eligibility.repayableShares ≤ a.eligibility.repayableShares := by
  have : Std.Total fun a b : MorphoPreLiquidationCandidate =>
      a.eligibility.repayableShares ≥ b.eligibility.repayableShares := ⟨fun a b => le_total _ _⟩
  have : IsTrans MorphoPreLiquidationCandidate fun a b =>
      a.eligibility.repayableShares ≥ b.eligibility.repayableShares :=
    ⟨fun _ _ _ hab hbc => le_trans hbc hab⟩
  exact List.pairwise_insertionSort _ candidates

theorem mem_sortByRepayable {candidate : MorphoPreLiquidationCandidate} :
    candidate ∈ sortByRepayable candidates ↔ candidate ∈ candidates :=
  (List.perm_insertionSort _ candidates).mem_iff

/-- The first candidate of a key in the order of the selection is a best one. -/
theorem best_of_find? {best : MorphoPreLiquidationCandidate}
    (h : (sortByRepayable candidates).find? (fun candidate => candidate.key lower = key) =
      some best) :
    best ∈ candidates ∧ best.key lower = key ∧
      ∀ other ∈ candidates, other.key lower = key →
        other.eligibility.repayableShares ≤ best.eligibility.repayableShares := by
  obtain ⟨hkey, before, after, hsorted, hbefore⟩ := List.find?_eq_some_iff_append.mp h
  have hpairwise := @sortByRepayable_pairwise candidates
  refine ⟨mem_sortByRepayable.mp (hsorted ▸ by simp), by simpa using hkey, ?_⟩
  intro other hother hotherKey
  rw [hsorted, List.pairwise_append, List.pairwise_cons] at hpairwise
  have hmem : other ∈ before ++ best :: after := hsorted ▸ mem_sortByRepayable.mpr hother
  rcases List.mem_append.mp hmem with hleft | hright
  · have hnot := hbefore other hleft
    simp [hotherKey] at hnot
  · rcases List.mem_cons.mp hright with rfl | hafter
    · exact le_rfl
    · exact hpairwise.2.1.1 other hafter

end Choice

/-! ## The selection -/

/-- The shape that the selection demands of a position. -/
def WellFormed (lower : String → String) (position : MorphoPreLiquidationPositionInput) : Prop :=
  isBytes32 position.marketId ∧ isAddress position.borrower ∧
    lower position.borrower ≠ zeroAddress

/-- `candidate` is a snapshot in a known market with a contract of that market which its borrower
has authorised and for which it is eligible. -/
structure Available (lower : String → String) (contracts : List MorphoPreLiquidationContract)
    (authorizations : List MorphoPreLiquidationAuthorization)
    (positions : List MorphoPreLiquidationPositionInput) (marketLltvById : Dict String ℤ)
    (candidate : MorphoPreLiquidationCandidate) : Prop where
  contract_mem : candidate.contract ∈ contracts
  market : lower candidate.contract.marketId = candidate.marketId
  position_mem : ∃ position ∈ positions, lower position.marketId = candidate.marketId ∧
    position.borrower = candidate.borrower ∧ position.snapshot = candidate.snapshot
  authorized : ∃ authorization ∈ authorizations,
    lower authorization.authorizer = lower candidate.borrower ∧
      lower authorization.authorizee = lower candidate.contract.address ∧
        authorization.chainId = candidate.contract.chainId
  eligible : ∃ marketLltv, marketLltvById.lookup candidate.marketId = some marketLltv ∧
    candidate.eligibility =
      evaluatePreLiquidationEligibility lower candidate.contract marketLltv candidate.snapshot ∧
    candidate.eligibility.eligible = true

variable {contracts : List MorphoPreLiquidationContract}
  {authorizations : List MorphoPreLiquidationAuthorization}
  {positions : List MorphoPreLiquidationPositionInput} {marketLltvById : Dict String ℤ}

theorem candidatesOf_eq_ok_iff {input : MorphoPreLiquidationPositionInput}
    {candidates : List MorphoPreLiquidationCandidate} :
    candidatesOf lower contracts authorizations marketLltvById input = .ok candidates ↔
      WellFormed lower input ∧ candidates =
        ((marketLltvById.lookup (lower input.marketId)).elim [] fun marketLltv =>
          (contractsOfMarket lower contracts (lower input.marketId)).filterMap
            (candidateOf lower authorizations marketLltv input)) := by
  unfold candidatesOf WellFormed
  by_cases hmarket : isBytes32 input.marketId
  · by_cases hborrower : isAddress input.borrower = true ∧ lower input.borrower ≠ zeroAddress
    · rw [if_neg (by simpa using hmarket), if_neg (by simpa using hborrower)]
      cases marketLltvById.lookup (lower input.marketId) with
      | none => simp [hmarket, hborrower, eq_comm]
      | some marketLltv => simp [hmarket, hborrower, eq_comm]
    · rw [if_neg (by simpa using hmarket), if_pos (by tauto)]
      simp only [reduceCtorEq, false_iff, not_and]
      intro hshape
      exact absurd hshape.2 hborrower
  · rw [if_pos (by simpa using hmarket)]
    simp [hmarket]

theorem isAuthorized_iff {borrower : String} :
    isAuthorized lower authorizations borrower contract = true ↔
      ∃ authorization ∈ authorizations, lower authorization.authorizer = lower borrower ∧
        lower authorization.authorizee = lower contract.address ∧
          authorization.chainId = contract.chainId := by
  simp [isAuthorized, and_assoc]

theorem mem_contractsOfMarket {marketId : String} :
    contract ∈ contractsOfMarket lower contracts marketId ↔
      contract ∈ contracts ∧ lower contract.marketId = marketId := by
  simp [contractsOfMarket]

theorem candidateOf_eq_some_iff {input : MorphoPreLiquidationPositionInput}
    {candidate : MorphoPreLiquidationCandidate} :
    candidateOf lower authorizations marketLltv input contract = some candidate ↔
      isAuthorized lower authorizations input.borrower contract = true ∧
        (evaluatePreLiquidationEligibility lower contract marketLltv
          input.snapshot).eligible = true ∧
        candidate = ⟨lower input.marketId, input.borrower, contract, input.snapshot,
          evaluatePreLiquidationEligibility lower contract marketLltv input.snapshot⟩ := by
  unfold candidateOf
  by_cases hauthorized : isAuthorized lower authorizations input.borrower contract = true
  · by_cases heligible : (evaluatePreLiquidationEligibility lower contract marketLltv
        input.snapshot).eligible = true
    · simp [hauthorized, heligible, eq_comm]
    · simp [hauthorized, heligible]
  · simp [hauthorized]

theorem mem_candidatesOf_iff {input : MorphoPreLiquidationPositionInput}
    {candidates : List MorphoPreLiquidationCandidate} {candidate : MorphoPreLiquidationCandidate}
    (h : candidatesOf lower contracts authorizations marketLltvById input = .ok candidates) :
    candidate ∈ candidates ↔
      Available lower contracts authorizations [input] marketLltvById candidate := by
  obtain ⟨-, rfl⟩ := candidatesOf_eq_ok_iff.mp h
  constructor
  · intro hmem
    cases hlltv : marketLltvById.lookup (lower input.marketId) with
    | none => simp [hlltv] at hmem
    | some marketLltv =>
        rw [hlltv, Option.elim_some, List.mem_filterMap] at hmem
        obtain ⟨contract, hcontract, hcandidate⟩ := hmem
        obtain ⟨hauthorized, heligible, rfl⟩ := candidateOf_eq_some_iff.mp hcandidate
        obtain ⟨hcontract, hmarket⟩ := mem_contractsOfMarket.mp hcontract
        refine ⟨hcontract, hmarket, ⟨input, List.mem_singleton_self input, rfl, rfl, rfl⟩,
          isAuthorized_iff.mp hauthorized, marketLltv, hlltv, ?_, ?_⟩
        · dsimp only
        · dsimp only
          exact heligible
  · rintro ⟨hcontract, hmarket, hposition, hauthorized, marketLltv, hlltv, hterms, heligible⟩
    obtain ⟨position, hposition, hid, hborrower, hsnapshot⟩ := hposition
    rw [List.mem_singleton.mp hposition] at hid hborrower hsnapshot
    rw [hid, hlltv, Option.elim_some, List.mem_filterMap]
    rw [hterms, ← hsnapshot] at heligible
    refine ⟨candidate.contract, mem_contractsOfMarket.mpr ⟨hcontract, hmarket⟩,
      candidateOf_eq_some_iff.mpr ⟨isAuthorized_iff.mpr (hborrower ▸ hauthorized), heligible, ?_⟩⟩
    rw [hid, hborrower, hsnapshot, ← hterms]

/-- The selection succeeds on the positions of the demanded shape, and keeps one candidate under
every key from the candidates that are available. -/
theorem select_eq_ok_iff {selected : List MorphoPreLiquidationCandidate} :
    selectPreLiquidationCandidates lower contracts authorizations positions marketLltvById =
        .ok selected ↔
      (∀ position ∈ positions, WellFormed lower position) ∧ ∃ lists,
        List.Forall₂ (fun position candidates =>
          candidatesOf lower contracts authorizations marketLltvById position = .ok candidates)
            positions lists ∧
        selected = keepUnseen lower [] (sortByRepayable lists.flatten) := by
  unfold selectPreLiquidationCandidates
  rw [bind_eq_ok]
  constructor
  · rintro ⟨lists, hlists, hselected⟩
    have hall := mapM_eq_ok_iff.mp hlists
    refine ⟨?_, lists, hall, (Except.ok.inj hselected).symm⟩
    intro position hposition
    obtain ⟨candidates, -, hcandidates⟩ := exists_right_of_forall₂ hall hposition
    exact (candidatesOf_eq_ok_iff.mp hcandidates).1
  · rintro ⟨-, lists, hall, rfl⟩
    exact ⟨lists, mapM_eq_ok_iff.mpr hall, rfl⟩

theorem mem_flatten_iff {lists : List (List MorphoPreLiquidationCandidate)}
    {candidate : MorphoPreLiquidationCandidate}
    (h : List.Forall₂ (fun position candidates =>
      candidatesOf lower contracts authorizations marketLltvById position = .ok candidates)
        positions lists) :
    candidate ∈ lists.flatten ↔
      Available lower contracts authorizations positions marketLltvById candidate := by
  rw [List.mem_flatten]
  constructor
  · rintro ⟨candidates, hcandidates, hmem⟩
    obtain ⟨position, hposition, hrun⟩ := exists_left_of_forall₂ h hcandidates
    have havailable := (mem_candidatesOf_iff hrun).mp hmem
    obtain ⟨input, hinput, hfields⟩ := havailable.position_mem
    rw [List.mem_singleton.mp hinput] at hfields
    exact { havailable with position_mem := ⟨position, hposition, hfields⟩ }
  · intro havailable
    obtain ⟨position, hposition, hfields⟩ := havailable.position_mem
    obtain ⟨candidates, hcandidates, hrun⟩ := exists_right_of_forall₂ h hposition
    refine ⟨candidates, hcandidates, (mem_candidatesOf_iff hrun).mpr ?_⟩
    exact { havailable with
      position_mem := ⟨position, List.mem_singleton_self position, hfields⟩ }

/-- `selected` has one candidate for every market and borrower with an available candidate, and it
repays as many shares as any of theirs. -/
structure OneBestEach (lower : String → String)
    (available : MorphoPreLiquidationCandidate → Prop)
    (selected : List MorphoPreLiquidationCandidate) : Prop where
  mem : ∀ best ∈ selected, available best
  unique : ∀ candidate, available candidate →
    ∃ best, selected.filter (fun other => other.key lower = candidate.key lower) = [best]
  maximal : ∀ best ∈ selected, ∀ candidate, available candidate →
    candidate.key lower = best.key lower →
      candidate.eligibility.repayableShares ≤ best.eligibility.repayableShares

theorem keepUnseen_oneBestEach (candidates : List MorphoPreLiquidationCandidate) :
    OneBestEach lower (· ∈ candidates) (keepUnseen lower [] (sortByRepayable candidates)) := by
  have hfirst : ∀ best ∈ keepUnseen lower [] (sortByRepayable candidates),
      (sortByRepayable candidates).find? (fun other => other.key lower = best.key lower) =
        some best := by
    intro best hbest
    have hmem : best ∈ (keepUnseen lower [] (sortByRepayable candidates)).filter
        fun other => other.key lower = best.key lower := by
      simp [hbest]
    rw [filter_keepUnseen, if_neg List.not_mem_nil] at hmem
    simpa using hmem
  refine ⟨?_, ?_, ?_⟩
  · intro best hbest
    exact (best_of_find? (hfirst best hbest)).1
  · intro candidate hcandidate
    rw [filter_keepUnseen, if_neg List.not_mem_nil]
    cases hfind : (sortByRepayable candidates).find? fun other =>
        other.key lower = candidate.key lower with
    | none =>
        rw [List.find?_eq_none] at hfind
        have hnot := hfind candidate (mem_sortByRepayable.mpr hcandidate)
        simp at hnot
    | some best => exact ⟨best, rfl⟩
  · intro best hbest candidate hcandidate hkey
    exact (best_of_find? (hfirst best hbest)).2.2 candidate hcandidate hkey

/-- An eligible position is pre-liquidated within the bounds of the contract and of its
collateral; the selection accepts exactly the positions of the demanded shape, and chooses one best
contract for every market and borrower that has one. -/
theorem preLiquidation_bounds_and_selection (lower : String → String) :
    (∀ contract marketLltv position,
      (evaluatePreLiquidationEligibility lower contract marketLltv position).eligible = true →
        WithinBounds contract marketLltv position
          (evaluatePreLiquidationEligibility lower contract marketLltv position)) ∧
    ∀ contracts authorizations positions marketLltvById,
      ((∃ selected, selectPreLiquidationCandidates lower contracts authorizations positions
          marketLltvById = .ok selected) ↔ ∀ position ∈ positions, WellFormed lower position) ∧
      ∀ selected, selectPreLiquidationCandidates lower contracts authorizations positions
          marketLltvById = .ok selected →
        OneBestEach lower
          (Available lower contracts authorizations positions marketLltvById) selected := by
  refine ⟨fun contract marketLltv position => within_of_eligible, ?_⟩
  intro contracts authorizations positions marketLltvById
  constructor
  · constructor
    · rintro ⟨selected, hselected⟩
      exact (select_eq_ok_iff.mp hselected).1
    · intro hshape
      have hruns : ∀ position ∈ positions, ∃ candidates,
          candidatesOf lower contracts authorizations marketLltvById position = .ok candidates :=
        fun position hposition =>
          ⟨_, candidatesOf_eq_ok_iff.mpr ⟨hshape position hposition, rfl⟩⟩
      obtain ⟨lists, hlists⟩ := exists_forall₂ hruns
      exact ⟨_, select_eq_ok_iff.mpr ⟨hshape, lists, hlists, rfl⟩⟩
  · intro selected hselected
    obtain ⟨-, lists, hlists, rfl⟩ := select_eq_ok_iff.mp hselected
    have hbest := @keepUnseen_oneBestEach lower lists.flatten
    have hsame : (· ∈ lists.flatten) =
        Available lower contracts authorizations positions marketLltvById :=
      funext fun candidate => propext (mem_flatten_iff hlists)
    exact hsame ▸ hbest

/-- From a tenth of the shares at 5% bonus at 80% to all of them at 10% at the market's 86%. -/
def sampleContract : MorphoPreLiquidationContract where
  chainId := 8453
  marketId := "0x1111111111111111111111111111111111111111111111111111111111111111"
  address := "0x2222222222222222222222222222222222222222"
  preLltv := 8 * 10 ^ 17
  preLcf1 := 10 ^ 17
  preLcf2 := 10 ^ 18
  preLif1 := 105 * 10 ^ 16
  preLif2 := 11 * 10 ^ 17
  preLiquidationOracle := "0x3333333333333333333333333333333333333333"

/-- A debt of 83% of the collateral. -/
def samplePosition : MorphoPreLiquidationPositionInput where
  marketId := sampleContract.marketId
  borrower := "0x4444444444444444444444444444444444444444"
  snapshot := ⟨100 * 10 ^ 18, 83 * 10 ^ 18, 83 * 10 ^ 24, 10 ^ 36, 10 ^ 36⟩

/-- The borrower has authorized the contract. -/
def sampleAuthorization : MorphoPreLiquidationAuthorization :=
  ⟨8453, samplePosition.borrower, sampleContract.address⟩

def sampleMarkets : Dict String ℤ :=
  (∅ : Dict String ℤ).insert sampleContract.marketId (86 * 10 ^ 16)

/-- The one position is eligible, and it is the one that is selected. -/
theorem preLiquidation_bounds_and_selection_sample :
    (evaluatePreLiquidationEligibility id sampleContract (86 * 10 ^ 16)
      samplePosition.snapshot).eligible = true ∧
    WithinBounds sampleContract (86 * 10 ^ 16) samplePosition.snapshot
      (evaluatePreLiquidationEligibility id sampleContract (86 * 10 ^ 16)
        samplePosition.snapshot) ∧
    ∃ best, selectPreLiquidationCandidates id [sampleContract] [sampleAuthorization]
        [samplePosition] sampleMarkets = .ok [best] ∧
      OneBestEach id (Available id [sampleContract] [sampleAuthorization] [samplePosition]
        sampleMarkets) [best] := by
  have heligible : (evaluatePreLiquidationEligibility id sampleContract (86 * 10 ^ 16)
      samplePosition.snapshot).eligible = true := by decide +kernel
  obtain ⟨hbounds, hselection⟩ := preLiquidation_bounds_and_selection id
  have hbest : selectPreLiquidationCandidates id [sampleContract] [sampleAuthorization]
      [samplePosition] sampleMarkets = .ok [⟨sampleContract.marketId, samplePosition.borrower,
        sampleContract, samplePosition.snapshot, evaluatePreLiquidationEligibility id sampleContract
          (86 * 10 ^ 16) samplePosition.snapshot⟩] := by decide +kernel
  exact ⟨heligible, hbounds _ _ _ heligible, _, hbest, (hselection _ _ _ _).2 _ hbest⟩

end Degenbot.Morpho
