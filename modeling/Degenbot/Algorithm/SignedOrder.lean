import Degenbot.Algorithm.AbiHelpers

/-! # `signed_order_admission.rs`

Admission of a match between a YES order and a NO order. `keccak256` is a parameter. -/

namespace Degenbot.SignedOrder

open Library

def bpsDenominator : ℕ := 10000
def maxSourceFeeBps : ℕ := 1000

inductive AdmissionError where
  | arithmeticOverflow (context : String)
  | arithmeticUnderflow (context : String)
deriving DecidableEq, Repr

structure PredictionFxOrder where
  maker : ℕ
  isYes : Bool
  depositAmount : ℕ
  minShares : ℕ
  nonce : ℕ
  deadline : ℕ
deriving DecidableEq

structure PredictionFxMatchInput where
  yesOrder : PredictionFxOrder
  noOrder : PredictionFxOrder
  yesFillAmount : ℕ
  noFillAmount : ℕ
  yesAlreadyFilled : ℕ
  noAlreadyFilled : ℕ
  now : ℕ
  marketExpiry : ℕ
  marketResolved : Bool
  feeBps : ℕ
  creatorFeeBps : ℕ
deriving DecidableEq

/-! ## Violations -/

inductive PredictionFxViolationCode where
  | marketResolved
  | marketExpired
  | yesOrderWrongSide
  | noOrderWrongSide
  | yesOrderExpired
  | noOrderExpired
  | zeroFill
  | zeroOrderDeposit
  | yesOverfill
  | noOverfill
  | feeBpsOutOfRange
  | creatorFeeBpsOutOfRange
  | yesMinSharesNotMet
  | noMinSharesNotMet
deriving DecidableEq, Repr

def PredictionFxViolationCode.asWire : PredictionFxViolationCode → String
  | marketResolved => "market_resolved"
  | marketExpired => "market_expired"
  | yesOrderWrongSide => "yes_order_wrong_side"
  | noOrderWrongSide => "no_order_wrong_side"
  | yesOrderExpired => "yes_order_expired"
  | noOrderExpired => "no_order_expired"
  | zeroFill => "zero_fill"
  | zeroOrderDeposit => "zero_order_deposit"
  | yesOverfill => "yes_overfill"
  | noOverfill => "no_overfill"
  | feeBpsOutOfRange => "fee_bps_out_of_range"
  | creatorFeeBpsOutOfRange => "creator_fee_bps_out_of_range"
  | yesMinSharesNotMet => "yes_min_shares_not_met"
  | noMinSharesNotMet => "no_min_shares_not_met"

structure PredictionFxViolation where
  code : PredictionFxViolationCode
  message : String
deriving DecidableEq, Repr

structure PredictionFxFeeSplit where
  gross : ℕ
  fee : ℕ
  creatorFee : ℕ
  resolverFee : ℕ
  net : ℕ
deriving DecidableEq

structure PredictionFxMatchPreview where
  yesOrderHash : B256
  noOrderHash : B256
  yesFillAmount : ℕ
  noFillAmount : ℕ
  yesRemainingBefore : ℕ
  noRemainingBefore : ℕ
  yesSide : PredictionFxFeeSplit
  noSide : PredictionFxFeeSplit
  yesSharesMinted : ℕ
  noSharesMinted : ℕ
  executable : Bool
  violations : List PredictionFxViolation
  admissionHash : B256
deriving DecidableEq

/-! ## Hashes -/

section Hashes

variable (keccak256 : List UInt8 → B256)

def predictionFxOrderTypeHash : B256 :=
  keccak256 (strBytes ("Order(address maker,bool isYes,uint256 depositAmount,uint256 minShares," ++
    "uint256 nonce,uint256 deadline)"))

/-- `abi_encode` of a tuple of static values: a word for each. -/
def abiWords (values : List ℕ) : List UInt8 := values.flatMap (beBytes 32)

def hashPredictionFxOrder (order : PredictionFxOrder) : B256 :=
  keccak256 (abiWords [predictionFxOrderTypeHash keccak256, order.maker, order.isYes.toNat,
    order.depositAmount, order.minShares, order.nonce, order.deadline])

def pushOrder (order : PredictionFxOrder) : List UInt8 :=
  addressBytes order.maker ++ boolByte order.isYes ++ pushU256 order.depositAmount ++
    pushU256 order.minShares ++ pushU256 order.nonce ++ pushU256 order.deadline ++
    beBytes 32 (hashPredictionFxOrder keccak256 order)

def hashPredictionFxAdmission (input : PredictionFxMatchInput) (executable : Bool)
    (violations : List PredictionFxViolation) : B256 :=
  keccak256 (pushStr "degenbot-signed-order-admission-v1" ++ pushStr "prediction_fx" ++
    pushOrder keccak256 input.yesOrder ++ pushOrder keccak256 input.noOrder ++
    pushU256 input.yesFillAmount ++ pushU256 input.noFillAmount ++
    pushU256 input.yesAlreadyFilled ++ pushU256 input.noAlreadyFilled ++
    pushU256 input.now ++ pushU256 input.marketExpiry ++ boolByte input.marketResolved ++
    beBytes 2 input.feeBps ++ beBytes 2 input.creatorFeeBps ++ boolByte executable ++
    u64Bytes violations.length ++ violations.flatMap fun violation =>
      pushStr violation.code.asWire)

end Hashes

/-! ## Checked arithmetic -/

def checkedMul (left right : ℕ) (context : String) : Except AdmissionError ℕ :=
  if left * right < 2 ^ 256 then .ok (left * right) else .error (.arithmeticOverflow context)

def checkedSub (left right : ℕ) (context : String) : Except AdmissionError ℕ :=
  if right ≤ left then .ok (left - right) else .error (.arithmeticUnderflow context)

def mulDivFloor (value numerator denominator : ℕ) (context : String) :
    Except AdmissionError ℕ := do
  let product ← checkedMul value numerator context
  .ok (product / denominator)

/-! ## Evaluation -/

def splitPredictionFxFees (gross feeBps creatorFeeBps : ℕ) :
    Except AdmissionError PredictionFxFeeSplit := do
  let fee ← mulDivFloor gross feeBps bpsDenominator "fee"
  let creatorFee ← mulDivFloor fee creatorFeeBps bpsDenominator "creator_fee"
  let resolverFee ← checkedSub fee creatorFee "resolver_fee must not underflow creator_fee"
  let net ← checkedSub gross fee "net amount must not underflow fee"
  .ok { gross, fee, creatorFee, resolverFee, net }

def remainingCapacity (depositAmount alreadyFilled : ℕ) : ℕ :=
  if alreadyFilled ≥ depositAmount then 0 else depositAmount - alreadyFilled

/-- A check that records its violation and goes on. -/
def violationIf (condition : Bool) (code : PredictionFxViolationCode) (message : String) :
    List PredictionFxViolation :=
  if condition then [⟨code, message⟩] else []

def collectBasicMatchViolations (input : PredictionFxMatchInput)
    (yesRemainingBefore noRemainingBefore : ℕ) : List PredictionFxViolation :=
  violationIf input.marketResolved .marketResolved "market is already resolved" ++
  violationIf (input.now ≥ input.marketExpiry) .marketExpired
    "market matching window has expired" ++
  violationIf (!input.yesOrder.isYes) .yesOrderWrongSide
    "expected first order to be YES-side" ++
  violationIf input.noOrder.isYes .noOrderWrongSide "expected second order to be NO-side" ++
  violationIf (input.now > input.yesOrder.deadline) .yesOrderExpired
    "YES order signature deadline has elapsed" ++
  violationIf (input.now > input.noOrder.deadline) .noOrderExpired
    "NO order signature deadline has elapsed" ++
  violationIf (input.yesFillAmount = 0 ∨ input.noFillAmount = 0) .zeroFill
    "both fill amounts must be positive" ++
  violationIf (input.yesOrder.depositAmount = 0 ∨ input.noOrder.depositAmount = 0)
    .zeroOrderDeposit "both orders must have positive deposit amounts" ++
  violationIf (input.yesFillAmount > yesRemainingBefore) .yesOverfill
    "YES fill exceeds remaining order capacity" ++
  violationIf (input.noFillAmount > noRemainingBefore) .noOverfill
    "NO fill exceeds remaining order capacity" ++
  violationIf (input.feeBps > maxSourceFeeBps) .feeBpsOutOfRange
    "fee_bps exceeds policy maximum" ++
  violationIf (input.creatorFeeBps > bpsDenominator) .creatorFeeBpsOutOfRange
    "creator_fee_bps exceeds 100%"

def proportionalMinSharesNotMet (sharesMinted depositAmount minShares fillAmount : ℕ)
    (context : String) : Except AdmissionError Bool := do
  let lhs ← checkedMul sharesMinted depositAmount context
  let rhs ← checkedMul minShares fillAmount context
  .ok (lhs < rhs)

def collectMinShareViolations (input : PredictionFxMatchInput)
    (yesSharesMinted noSharesMinted : ℕ) :
    Except AdmissionError (List PredictionFxViolation) := do
  let yesNotMet ← proportionalMinSharesNotMet yesSharesMinted input.yesOrder.depositAmount
    input.yesOrder.minShares input.yesFillAmount "yes_min_shares"
  let noNotMet ← proportionalMinSharesNotMet noSharesMinted input.noOrder.depositAmount
    input.noOrder.minShares input.noFillAmount "no_min_shares"
  .ok (violationIf yesNotMet .yesMinSharesNotMet
      "YES order proportional min_shares is not met" ++
    violationIf noNotMet .noMinSharesNotMet "NO order proportional min_shares is not met")

def evaluatePredictionFxMatch (keccak256 : List UInt8 → B256) (input : PredictionFxMatchInput) :
    Except AdmissionError PredictionFxMatchPreview := do
  let yesRemainingBefore :=
    remainingCapacity input.yesOrder.depositAmount input.yesAlreadyFilled
  let noRemainingBefore := remainingCapacity input.noOrder.depositAmount input.noAlreadyFilled
  -- a fee out of range is a violation, and the preview goes on without it
  let feeBps := if input.feeBps ≤ maxSourceFeeBps then input.feeBps else 0
  let creatorFeeBps := if input.creatorFeeBps ≤ bpsDenominator then input.creatorFeeBps else 0
  let yesSide ← splitPredictionFxFees input.yesFillAmount feeBps creatorFeeBps
  let noSide ← splitPredictionFxFees input.noFillAmount feeBps creatorFeeBps
  let minShareViolations ← collectMinShareViolations input noSide.net yesSide.net
  let violations :=
    collectBasicMatchViolations input yesRemainingBefore noRemainingBefore ++ minShareViolations
  let executable := violations.isEmpty
  .ok
    { yesOrderHash := hashPredictionFxOrder keccak256 input.yesOrder
      noOrderHash := hashPredictionFxOrder keccak256 input.noOrder
      yesFillAmount := input.yesFillAmount
      noFillAmount := input.noFillAmount
      yesRemainingBefore, noRemainingBefore, yesSide, noSide
      yesSharesMinted := noSide.net
      noSharesMinted := yesSide.net
      executable, violations
      admissionHash := hashPredictionFxAdmission keccak256 input executable violations }

end Degenbot.SignedOrder
