import Degenbot.Algorithm.SignedOrder
import Degenbot.Library.Outcome

/-! # Cumulative fills of signed orders

Matches are admitted one after another against the fills recorded so far. The checks of a
single match compose to a guarantee about everything an order was ever filled with. -/

namespace Degenbot.SignedOrder

open Library

/-! ## Runs of admitted matches -/

/-- What each order has been filled with and the shares its maker received. -/
structure Ledger where
  filled : PredictionFxOrder → ℕ
  shares : PredictionFxOrder → ℕ

namespace Ledger

def empty : Ledger := ⟨fun _ => 0, fun _ => 0⟩

def record (ledger : Ledger) (input : PredictionFxMatchInput)
    (preview : PredictionFxMatchPreview) : Ledger where
  filled order := ledger.filled order +
    (if order = input.yesOrder then preview.yesFillAmount else 0) +
    (if order = input.noOrder then preview.noFillAmount else 0)
  shares order := ledger.shares order +
    (if order = input.yesOrder then preview.yesSharesMinted else 0) +
    (if order = input.noOrder then preview.noSharesMinted else 0)

end Ledger

/-- The match reads the fills of the ledger and is found executable. -/
structure Admits (keccak256 : List UInt8 → B256) (ledger : Ledger)
    (input : PredictionFxMatchInput) (preview : PredictionFxMatchPreview) : Prop where
  yesAlreadyFilled : input.yesAlreadyFilled = ledger.filled input.yesOrder
  noAlreadyFilled : input.noAlreadyFilled = ledger.filled input.noOrder
  evaluated : evaluatePredictionFxMatch keccak256 input = .ok preview
  executable : preview.executable = true

/-- Runs, with the previews admitted on the way. -/
inductive Run (keccak256 : List UInt8 → B256) :
    List PredictionFxMatchPreview → Ledger → Prop where
  | start : Run keccak256 [] .empty
  | fill {previews : List PredictionFxMatchPreview} {ledger : Ledger}
      {input : PredictionFxMatchInput} {preview : PredictionFxMatchPreview} :
      Run keccak256 previews ledger → Admits keccak256 ledger input preview →
      Run keccak256 (preview :: previews) (ledger.record input preview)

/-! ## The contract -/

structure PredictionFxOrder.Sound (order : PredictionFxOrder) (filled shares : ℕ) : Prop where
  capacity : filled ≤ order.depositAmount
  minShares : order.minShares * filled ≤ shares * order.depositAmount

/-- The subtractions are exact, so that no component has underflowed. -/
structure PredictionFxFeeSplit.Conserves (split : PredictionFxFeeSplit) : Prop where
  fee : split.fee = split.creatorFee + split.resolverFee
  gross : split.gross = split.net + split.creatorFee + split.resolverFee

/-! ## One match -/

@[simp] theorem violationIf_eq_nil {condition : Bool} {code : PredictionFxViolationCode}
    {message : String} : violationIf condition code message = [] ↔ condition = false := by
  cases condition <;> simp [violationIf]

theorem checkedSub_eq_ok {left right value : ℕ} {context : String}
    (h : checkedSub left right context = .ok value) : left = value + right := by
  unfold checkedSub at h
  split at h
  · obtain rfl := Except.ok.inj h
    omega
  · cases h

theorem splitPredictionFxFees_conserves {gross feeBps creatorFeeBps : ℕ}
    {split : PredictionFxFeeSplit}
    (h : splitPredictionFxFees gross feeBps creatorFeeBps = .ok split) :
    split.gross = gross ∧ split.Conserves := by
  unfold splitPredictionFxFees at h
  obtain ⟨fee, _, h⟩ := bind_eq_ok.mp h
  obtain ⟨creatorFee, _, h⟩ := bind_eq_ok.mp h
  obtain ⟨resolverFee, hresolver, h⟩ := bind_eq_ok.mp h
  obtain ⟨net, hnet, h⟩ := bind_eq_ok.mp h
  obtain rfl := Except.ok.inj h
  have hfee := checkedSub_eq_ok hresolver
  have hgross := checkedSub_eq_ok hnet
  exact ⟨rfl, by simp only; omega, by simp only; omega⟩

theorem proportionalMinShares_met {shares deposit minShares fill : ℕ} {context : String}
    (h : proportionalMinSharesNotMet shares deposit minShares fill context = .ok false) :
    minShares * fill ≤ shares * deposit := by
  unfold proportionalMinSharesNotMet checkedMul at h
  split at h
  · split at h
    · simpa using Except.ok.inj h
    · cases h
  · cases h

theorem le_of_remainingCapacity {deposit filled fill : ℕ} (hpos : fill ≠ 0)
    (h : fill ≤ remainingCapacity deposit filled) : filled + fill ≤ deposit := by
  unfold remainingCapacity at h
  split at h
  · omega
  · omega

/-- What an executable preview guarantees about its input. -/
structure Executable (input : PredictionFxMatchInput) (preview : PredictionFxMatchPreview) :
    Prop where
  yesSide : input.yesOrder.isYes = true
  noSide : input.noOrder.isYes = false
  yesCapacity : input.yesAlreadyFilled + preview.yesFillAmount ≤ input.yesOrder.depositAmount
  noCapacity : input.noAlreadyFilled + preview.noFillAmount ≤ input.noOrder.depositAmount
  yesMinShares : input.yesOrder.minShares * preview.yesFillAmount ≤
    preview.yesSharesMinted * input.yesOrder.depositAmount
  noMinShares : input.noOrder.minShares * preview.noFillAmount ≤
    preview.noSharesMinted * input.noOrder.depositAmount
  yesSplit : preview.yesSide.gross = preview.yesFillAmount ∧ preview.yesSide.Conserves
  noSplit : preview.noSide.gross = preview.noFillAmount ∧ preview.noSide.Conserves

theorem evaluatePredictionFxMatch_executable {keccak256 : List UInt8 → B256}
    {input : PredictionFxMatchInput} {preview : PredictionFxMatchPreview}
    (h : evaluatePredictionFxMatch keccak256 input = .ok preview)
    (hexec : preview.executable = true) : Executable input preview := by
  unfold evaluatePredictionFxMatch at h
  obtain ⟨yesSide, hyes, h⟩ := bind_eq_ok.mp h
  obtain ⟨noSide, hno, h⟩ := bind_eq_ok.mp h
  obtain ⟨minShareViolations, hmin, h⟩ := bind_eq_ok.mp h
  obtain rfl := Except.ok.inj h
  simp only [List.isEmpty_iff, List.append_eq_nil_iff] at hexec
  obtain ⟨hbasic, rfl⟩ := hexec
  unfold collectMinShareViolations at hmin
  obtain ⟨yesNotMet, hyesMin, hmin⟩ := bind_eq_ok.mp hmin
  obtain ⟨noNotMet, hnoMin, hmin⟩ := bind_eq_ok.mp hmin
  have hnone := Except.ok.inj hmin
  simp only [List.append_eq_nil_iff, violationIf_eq_nil] at hnone
  obtain ⟨rfl, rfl⟩ := hnone
  simp only [collectBasicMatchViolations, List.append_eq_nil_iff, violationIf_eq_nil,
    Bool.not_eq_false', decide_eq_false_iff_not, not_or, gt_iff_lt, not_lt] at hbasic
  obtain ⟨⟨⟨⟨⟨⟨⟨⟨⟨⟨⟨_, _⟩, hyesOrder⟩, hnoOrder⟩, _⟩, _⟩, hfill⟩, _⟩, hyesCap⟩, hnoCap⟩, _⟩, _⟩ :=
    hbasic
  exact
    { yesSide := hyesOrder
      noSide := hnoOrder
      yesCapacity := le_of_remainingCapacity hfill.1 hyesCap
      noCapacity := le_of_remainingCapacity hfill.2 hnoCap
      yesMinShares := proportionalMinShares_met hyesMin
      noMinShares := proportionalMinShares_met hnoMin
      yesSplit := splitPredictionFxFees_conserves hyes
      noSplit := splitPredictionFxFees_conserves hno }

/-! ## Whole runs -/

theorem PredictionFxOrder.Sound.add {order : PredictionFxOrder} {filled shares fill minted : ℕ}
    (h : order.Sound filled shares) (hcapacity : filled + fill ≤ order.depositAmount)
    (hshares : order.minShares * fill ≤ minted * order.depositAmount) :
    order.Sound (filled + fill) (shares + minted) := by
  refine ⟨hcapacity, ?_⟩
  calc order.minShares * (filled + fill)
      = order.minShares * filled + order.minShares * fill := Nat.mul_add _ _ _
    _ ≤ shares * order.depositAmount + minted * order.depositAmount :=
        Nat.add_le_add h.minShares hshares
    _ = (shares + minted) * order.depositAmount := (Nat.add_mul _ _ _).symm

theorem record_sound {keccak256 : List UInt8 → B256} {ledger : Ledger}
    {input : PredictionFxMatchInput} {preview : PredictionFxMatchPreview}
    (hsound : ∀ order : PredictionFxOrder, order.Sound (ledger.filled order) (ledger.shares order))
    (h : Admits keccak256 ledger input preview) (order : PredictionFxOrder) :
    order.Sound ((ledger.record input preview).filled order)
      ((ledger.record input preview).shares order) := by
  have hexec := evaluatePredictionFxMatch_executable h.evaluated h.executable
  -- the two orders are on different sides
  have hne : input.yesOrder ≠ input.noOrder := by
    intro heq
    have hside := hexec.yesSide
    rw [heq, hexec.noSide] at hside
    cases hside
  by_cases hyes : order = input.yesOrder
  · subst hyes
    have hcapacity := hexec.yesCapacity
    rw [h.yesAlreadyFilled] at hcapacity
    simpa [Ledger.record, hne] using (hsound _).add hcapacity hexec.yesMinShares
  · by_cases hno : order = input.noOrder
    · subst hno
      have hcapacity := hexec.noCapacity
      rw [h.noAlreadyFilled] at hcapacity
      simpa [Ledger.record, hne.symm] using (hsound _).add hcapacity hexec.noMinShares
    · simpa [Ledger.record, hyes, hno] using hsound order

/-- Along every run no order is filled beyond its deposit or below its price, and every fee
split conserves its gross amount. -/
theorem fills_sound {keccak256 : List UInt8 → B256} {previews : List PredictionFxMatchPreview}
    {ledger : Ledger} (h : Run keccak256 previews ledger) :
    (∀ order : PredictionFxOrder,
      order.Sound (ledger.filled order) (ledger.shares order)) ∧
      ∀ preview ∈ previews,
        (preview.yesSide.gross = preview.yesFillAmount ∧ preview.yesSide.Conserves) ∧
          preview.noSide.gross = preview.noFillAmount ∧ preview.noSide.Conserves := by
  induction h with
  | start => exact ⟨fun order => ⟨Nat.zero_le _, by simp [Ledger.empty]⟩, by simp⟩
  | fill _ hadmits ih =>
      refine ⟨record_sound ih.1 hadmits, ?_⟩
      have hexec := evaluatePredictionFxMatch_executable hadmits.evaluated hadmits.executable
      intro preview hmem
      rcases List.mem_cons.mp hmem with rfl | hmem
      · exact ⟨hexec.yesSplit, hexec.noSplit⟩
      · exact ih.2 preview hmem

/-- Half of a YES order against half of a NO order. -/
def halfFill (alreadyYes alreadyNo : ℕ) : PredictionFxMatchInput where
  yesOrder := ⟨0x1111, true, 100000000, 110000000, 7, 1800000000⟩
  noOrder := ⟨0x2222, false, 120000000, 90000000, 8, 1800000000⟩
  yesFillAmount := 50000000
  noFillAmount := 60000000
  yesAlreadyFilled := alreadyYes
  noAlreadyFilled := alreadyNo
  now := 1700000000
  marketExpiry := 1750000000
  marketResolved := false
  feeBps := 100
  creatorFeeBps := 2500

/-- The two halves fill both orders completely. -/
theorem fills_sound_two_halves :
    ∃ previews ledger, Run beValue previews ledger ∧ previews.length = 2 ∧
      ledger.filled (halfFill 0 0).yesOrder = 100000000 ∧
      (halfFill 0 0).yesOrder.Sound (ledger.filled (halfFill 0 0).yesOrder)
        (ledger.shares (halfFill 0 0).yesOrder) := by
  have hfirst : Admits beValue .empty (halfFill 0 0) _ := ⟨rfl, rfl, rfl, rfl⟩
  have hrun := (Run.start.fill hfirst).fill
    (show Admits _ _ (halfFill 50000000 60000000) _ from ⟨rfl, rfl, rfl, rfl⟩)
  exact ⟨_, _, hrun, rfl, rfl, (fills_sound hrun).1 _⟩

end Degenbot.SignedOrder
