import Degenbot.Algorithm.Types
import Degenbot.Library.HexText

/-! # `execution_adapters/morpho_preliquidation_adapter.py`

The read side: the screening of a contract, the eligibility of a position and the choice of the
candidates. `str.lower` is a parameter. -/

namespace Degenbot.Morpho

open Library

def wad : ℤ := 10 ^ 18
def zeroAddress : String := "0x0000000000000000000000000000000000000000"

/-! ## Rounded operations

`//`, by divisors that the callers have tested. -/

def wadMulDown (a b : ℤ) : ℤ := (a * b).fdiv wad
def wadDivDown (a b : ℤ) : ℤ := (a * wad).fdiv b
def wadDivUp (a b : ℤ) : ℤ := (a * wad + b - 1).fdiv b
def mulDivDown (a b denominator : ℤ) : ℤ := (a * b).fdiv denominator

/-- A full match of `0x` and `digits` hexadecimal digits. -/
def isHexText (digits : ℕ) (value : String) : Bool :=
  value.toList.take 2 = ['0', 'x'] && (value.toList.drop 2).length = digits &&
    (value.toList.drop 2).all isHexDigit

def isAddress (value : String) : Bool := isHexText 40 value
def isBytes32 (value : String) : Bool := isHexText 64 value

/-! ## Records -/

structure MorphoPreLiquidationContract where
  chainId : ℤ
  marketId : String
  address : String
  preLltv : ℤ
  preLcf1 : ℤ
  preLcf2 : ℤ
  preLif1 : ℤ
  preLif2 : ℤ
  preLiquidationOracle : String
deriving DecidableEq

structure MorphoPreLiquidationAuthorization where
  chainId : ℤ
  authorizer : String
  authorizee : String
deriving DecidableEq

structure MorphoPreLiquidationEligibility where
  eligible : Bool
  rejectReasons : List String
  collateralQuoted : ℤ
  ltv : ℤ
  quotient : ℤ
  preLcf : ℤ
  preLif : ℤ
  repayableShares : ℤ
deriving DecidableEq

structure MorphoPreLiquidationPositionSnapshot where
  collateralAssets : ℤ
  borrowedAssets : ℤ
  borrowShares : ℤ
  collateralPrice : ℤ
  oraclePriceScale : ℤ := 10 ^ 36
deriving DecidableEq

structure MorphoPreLiquidationPositionInput where
  marketId : String
  borrower : String
  snapshot : MorphoPreLiquidationPositionSnapshot
deriving DecidableEq

structure MorphoPreLiquidationCandidate where
  marketId : String
  borrower : String
  contract : MorphoPreLiquidationContract
  snapshot : MorphoPreLiquidationPositionSnapshot
  eligibility : MorphoPreLiquidationEligibility
deriving DecidableEq

section Functions

variable (lower : String → String)

/-! ## Eligibility -/

/-- `reasons.append` under a condition. -/
def reasonIf (condition : Prop) [Decidable condition] (reason : String) : List String :=
  if condition then [reason] else []

def MorphoPreLiquidationContract.screeningRejectReasons (contract : MorphoPreLiquidationContract)
    (marketLltv : ℤ) : List String :=
  let maxPreLif := (wad * wad).fdiv marketLltv
  reasonIf (¬isBytes32 contract.marketId) "market_id must be a bytes32 hex string" ++
  reasonIf (¬isAddress contract.address ∨ lower contract.address = zeroAddress)
    "pre-liquidation contract address must be non-zero" ++
  reasonIf (¬isAddress contract.preLiquidationOracle)
    "pre-liquidation oracle must be an address" ++
  (if marketLltv ≤ 0 ∨ marketLltv > wad then ["market LLTV must be in (0, 1e18]"]
    else
      reasonIf (contract.preLltv ≥ marketLltv) "preLLTV must be below market LLTV" ++
      reasonIf (contract.preLif1 > maxPreLif ∨ contract.preLif2 > maxPreLif)
        "preLIF must not exceed 1 / market LLTV") ++
  reasonIf (contract.preLcf1 > contract.preLcf2) "preLCF1 must be <= preLCF2" ++
  reasonIf (contract.preLcf1 > wad) "preLCF1 must be <= 1e18" ++
  reasonIf (contract.preLif1 < wad ∨ contract.preLif2 < wad) "preLIF must be >= 1e18" ++
  reasonIf (contract.preLif1 > contract.preLif2) "preLIF1 must be <= preLIF2"

def MorphoPreLiquidationPositionSnapshot.rejectReasons
    (position : MorphoPreLiquidationPositionSnapshot) : List String :=
  reasonIf (position.collateralAssets ≤ 0) "collateral must be positive" ++
  reasonIf (position.borrowedAssets ≤ 0) "borrowed assets must be positive" ++
  reasonIf (position.borrowShares ≤ 0) "borrow shares must be positive" ++
  reasonIf (position.collateralPrice ≤ 0) "collateral price must be positive" ++
  reasonIf (position.oraclePriceScale ≤ 0) "oracle price scale must be positive"

/-- A result that is not eligible. -/
def rejected (rejectReasons : List String) (collateralQuoted ltv : ℤ) :
    MorphoPreLiquidationEligibility where
  eligible := false
  rejectReasons
  collateralQuoted
  ltv
  quotient := 0
  preLcf := 0
  preLif := 0
  repayableShares := 0

def evaluatePreLiquidationEligibility (contract : MorphoPreLiquidationContract) (marketLltv : ℤ)
    (position : MorphoPreLiquidationPositionSnapshot) : MorphoPreLiquidationEligibility :=
  let reasons := contract.screeningRejectReasons lower marketLltv ++ position.rejectReasons
  if reasons ≠ [] then rejected reasons 0 0
  else
    let collateralQuoted := mulDivDown position.collateralAssets position.collateralPrice
      position.oraclePriceScale
    if collateralQuoted = 0 then rejected ["collateral quoted value is zero"] 0 0
    else
      let rejectReasons :=
        reasonIf (position.borrowedAssets > wadMulDown collateralQuoted marketLltv)
          "position is already standard-liquidatable" ++
        reasonIf (position.borrowedAssets ≤ wadMulDown collateralQuoted contract.preLltv)
          "position is below preLLTV"
      if rejectReasons ≠ [] then
        rejected rejectReasons collateralQuoted
          (wadDivUp position.borrowedAssets collateralQuoted)
      else
        let ltv := wadDivUp position.borrowedAssets collateralQuoted
        let quotient := wadDivDown (ltv - contract.preLltv) (marketLltv - contract.preLltv)
        let preLif := wadMulDown quotient (contract.preLif2 - contract.preLif1) + contract.preLif1
        let preLcf := wadMulDown quotient (contract.preLcf2 - contract.preLcf1) + contract.preLcf1
        let repayableShares := wadMulDown position.borrowShares preLcf
        { eligible := repayableShares > 0
          rejectReasons := if repayableShares > 0 then [] else ["repayable shares is zero"]
          collateralQuoted, ltv, quotient, preLcf, preLif, repayableShares }

/-! ## Candidates -/

/-- `auth_key in authorized_pairs` -/
def isAuthorized (authorizations : List MorphoPreLiquidationAuthorization) (borrower : String)
    (contract : MorphoPreLiquidationContract) : Bool :=
  authorizations.any fun authorization =>
    lower authorization.authorizer = lower borrower &&
      lower authorization.authorizee = lower contract.address &&
      authorization.chainId = contract.chainId

/-- `contracts_by_market.get(market_id, [])` -/
def contractsOfMarket (contracts : List MorphoPreLiquidationContract) (marketId : String) :
    List MorphoPreLiquidationContract :=
  contracts.filter fun contract => lower contract.marketId = marketId

/-- The candidate of a contract, for a position in a known market. -/
def candidateOf (authorizations : List MorphoPreLiquidationAuthorization) (marketLltv : ℤ)
    (position : MorphoPreLiquidationPositionInput) (contract : MorphoPreLiquidationContract) :
    Option MorphoPreLiquidationCandidate :=
  if ¬isAuthorized lower authorizations position.borrower contract then none
  else
    let eligibility := evaluatePreLiquidationEligibility lower contract marketLltv position.snapshot
    if ¬eligibility.eligible then none
    else some ⟨lower position.marketId, position.borrower, contract, position.snapshot, eligibility⟩

/-- One pass of the loop over the positions. -/
def candidatesOf (contracts : List MorphoPreLiquidationContract)
    (authorizations : List MorphoPreLiquidationAuthorization) (marketLltvById : Dict String ℤ)
    (position : MorphoPreLiquidationPositionInput) :
    Except Exn (List MorphoPreLiquidationCandidate) :=
  if ¬isBytes32 position.marketId then
    .error (.valueError "position market_id must be a bytes32 hex string")
  else if ¬isAddress position.borrower ∨ lower position.borrower = zeroAddress then
    .error (.valueError "position borrower must be a non-zero address")
  else
    match marketLltvById.lookup (lower position.marketId) with
    | none => .ok []
    | some marketLltv =>
        .ok ((contractsOfMarket lower contracts (lower position.marketId)).filterMap
          (candidateOf lower authorizations marketLltv position))

/-- The market and the borrower. -/
def MorphoPreLiquidationCandidate.key (candidate : MorphoPreLiquidationCandidate) :
    String × String := (candidate.marketId, lower candidate.borrower)

/-- The first candidate of every key that is not in `seen`. -/
def keepUnseen : List (String × String) → List MorphoPreLiquidationCandidate →
    List MorphoPreLiquidationCandidate
  | _, [] => []
  | seen, candidate :: candidates =>
      if candidate.key lower ∈ seen then keepUnseen seen candidates
      else candidate :: keepUnseen (candidate.key lower :: seen) candidates

/-- Python's sort keeps the order of equal keys, also in reverse. -/
def sortByRepayable (candidates : List MorphoPreLiquidationCandidate) :
    List MorphoPreLiquidationCandidate :=
  candidates.insertionSort fun a b =>
    a.eligibility.repayableShares ≥ b.eligibility.repayableShares

def selectPreLiquidationCandidates (contracts : List MorphoPreLiquidationContract)
    (authorizations : List MorphoPreLiquidationAuthorization)
    (positions : List MorphoPreLiquidationPositionInput) (marketLltvById : Dict String ℤ) :
    Except Exn (List MorphoPreLiquidationCandidate) := do
  let candidates ← positions.mapM (candidatesOf lower contracts authorizations marketLltvById)
  .ok (keepUnseen lower [] (sortByRepayable candidates.flatten))

end Functions

end Degenbot.Morpho
