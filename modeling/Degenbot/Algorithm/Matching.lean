import Degenbot.Algorithm.Types
import Mathlib.Algebra.Ring.Nat
import Mathlib.Data.Nat.Basic

/-! # The internal matchers in both languages -/

/-! ## `matching/price_compat.rs` and `matching/internal_matcher.rs`

The operators of `U256` wrap. -/

namespace Degenbot

/-- `MatchCandidate`, less the fields that the matcher does not read. -/
structure MatchCandidate where
  pairSell : ℕ
  pairBuy : ℕ
  amountSell : ℕ
  amountBuyMin : ℕ
deriving DecidableEq

structure MatchPair where
  o : MatchCandidate
  c : MatchCandidate
  fillAmount : ℕ
  clearingPrice : ℕ
deriving DecidableEq

/-- `SCALE`. -/
def priceScale : ℕ := 10 ^ 18

def wrapU256 (value : ℕ) : ℕ := value % 2 ^ 256

def outboundMinPrice (o : MatchCandidate) : ℕ :=
  if o.amountSell = 0 then 0 else wrapU256 (o.amountBuyMin * priceScale) / o.amountSell

def counterMaxPrice (c : MatchCandidate) : ℕ :=
  if c.amountBuyMin = 0 then 0 else wrapU256 (c.amountSell * priceScale) / c.amountBuyMin

def isOpposingPair (o c : MatchCandidate) : Bool :=
  o.pairSell = c.pairBuy ∧ o.pairBuy = c.pairSell

def isPriceCompatible (o c : MatchCandidate) : Bool :=
  if ¬isOpposingPair o c then false else outboundMinPrice o ≤ counterMaxPrice c

def clearingPrice (o c : MatchCandidate) : ℕ :=
  let lo := outboundMinPrice o
  let hi := counterMaxPrice c
  wrapU256 (lo + hi) / 2

def fillAmount (o c : MatchCandidate) : ℕ :=
  let cMax := counterMaxPrice c
  let cBudgetInOSell := wrapU256 (c.amountBuyMin * cMax) / priceScale
  min o.amountSell cBudgetInOSell

/-- One turn of the inner loop. -/
def tryMatch (o c : MatchCandidate) : Option MatchPair :=
  if ¬isPriceCompatible o c then none
  else
    let fill := fillAmount o c
    if fill = 0 then none else some ⟨o, c, fill, clearingPrice o c⟩

def findMatches (outbound counters : List MatchCandidate) : List MatchPair :=
  outbound.flatMap fun o => counters.filterMap fun c => tryMatch o c

def findBestMatch (outbound counters : List MatchCandidate) : Option MatchPair :=
  (findMatches outbound counters).foldl
    (fun best m => match best with
      | some b => if m.fillAmount > b.fillAmount then some m else best
      | none => some m) none

end Degenbot

/-! ## `matching/price_compat.py` and `matching/internal_matcher.py`

The Python matcher, with amounts in the units of their tokens. -/

namespace Degenbot.PriceCompat

/-- `lower()` of an address. -/
class LowerCase (α : Type) where
  lower : α → α

instance : LowerCase String := ⟨String.toLower⟩

/-- An address that is given by its value has no case. -/
instance : LowerCase (BitVec 160) := ⟨id⟩

inductive Venue where
  | native
  | cow
  | cowCompetition
  | uniswapx
  | across
  | eco
deriving DecidableEq

/-- `MatchCandidate`, less the fields that neither the queue, the matcher nor the encoder reads. -/
structure MatchCandidate (α : Type) where
  id : String
  pairSell : α
  pairBuy : α
  pairSellDecimals : ℤ := 18
  pairBuyDecimals : ℤ := 18
  amountSell : ℤ
  amountBuyMin : ℤ
  sourceVenue : Venue
  sourceExpiresAt : ℤ
deriving DecidableEq

structure MatchPair (α : Type) where
  o : MatchCandidate α
  c : MatchCandidate α
  fillAmount : ℤ
  clearingPrice : ℤ
deriving DecidableEq

def priceScale : ℤ := 10 ^ 18
def maxTokenDecimals : ℤ := 255

/-! ## `price_compat.py` -/

def validateDecimals (decimals : ℤ) : Except Exn Unit :=
  if 0 ≤ decimals ∧ decimals ≤ maxTokenDecimals then .ok ()
  else .error (.valueError ("token decimals must be in range 0.." ++ toString maxTokenDecimals ++
    ": " ++ toString decimals))

def normalizeAmountToWad (amount decimals : ℤ) : Except Exn ℤ :=
  if amount < 0 then .error (.valueError "amount cannot be negative")
  else do
    validateDecimals decimals
    if decimals = 18 then .ok amount
    else if decimals < 18 then .ok (amount * 10 ^ (18 - decimals).toNat)
    else .ok (amount / 10 ^ (decimals - 18).toNat)

def denormalizeAmountFromWad (amountWad decimals : ℤ) : Except Exn ℤ :=
  if amountWad < 0 then .error (.valueError "amount_wad cannot be negative")
  else do
    validateDecimals decimals
    if decimals = 18 then .ok amountWad
    else if decimals < 18 then .ok (amountWad / 10 ^ (18 - decimals).toNat)
    else .ok (amountWad * 10 ^ (decimals - 18).toNat)

def projectSellToBuy (amountSell price sellDecimals buyDecimals : ℤ) : Except Exn ℤ := do
  let sellWad ← normalizeAmountToWad amountSell sellDecimals
  let buyWad := sellWad * price / priceScale
  denormalizeAmountFromWad buyWad buyDecimals

def projectBuyToSell (amountBuy price sellDecimals buyDecimals : ℤ) : Except Exn ℤ :=
  if price = 0 then .error (.valueError "project_buy_to_sell: price cannot be zero")
  else do
    let buyWad ← normalizeAmountToWad amountBuy buyDecimals
    -- the floor of Python, also for a negative price
    let sellWad := (buyWad * priceScale).fdiv price
    denormalizeAmountFromWad sellWad sellDecimals

section Candidates

variable {α : Type} (o c : MatchCandidate α)

def outboundMinPrice : Except Exn ℤ := do
  let amountSellWad ← normalizeAmountToWad o.amountSell o.pairSellDecimals
  if amountSellWad = 0 then
    .error (.valueError "outbound_min_price: amount_sell cannot be zero")
  else do
    let amountBuyMinWad ← normalizeAmountToWad o.amountBuyMin o.pairBuyDecimals
    .ok (amountBuyMinWad * priceScale / amountSellWad)

def counterMaxPrice : Except Exn ℤ := do
  let amountBuyMinWad ← normalizeAmountToWad c.amountBuyMin c.pairBuyDecimals
  if amountBuyMinWad = 0 then
    .error (.valueError "counter_max_price: amount_buy_min cannot be zero")
  else do
    let amountSellWad ← normalizeAmountToWad c.amountSell c.pairSellDecimals
    .ok (amountSellWad * priceScale / amountBuyMinWad)

def clearingPrice : Except Exn ℤ := do
  let lo ← outboundMinPrice o
  let hi ← counterMaxPrice c
  .ok ((lo + hi) / 2)

def fillAmount : Except Exn ℤ := do
  let cp ← clearingPrice o c
  if cp = 0 then .ok 0
  else do
    let cBudgetInOSell ← projectBuyToSell c.amountSell cp o.pairSellDecimals o.pairBuyDecimals
    .ok (min o.amountSell cBudgetInOSell)

variable [DecidableEq α] [LowerCase α]

open LowerCase in
def isOpposingPair : Bool :=
  lower o.pairSell = lower c.pairBuy ∧ lower o.pairBuy = lower c.pairSell

def isPriceCompatible : Except Exn Bool :=
  if ¬isOpposingPair o c then .ok false
  else do
    let minPrice ← outboundMinPrice o
    let maxPrice ← counterMaxPrice c
    .ok (minPrice ≤ maxPrice)

/-! ## `internal_matcher.py` -/

/-- One turn of the inner loop. -/
def tryMatch : Except Exn (Option (MatchPair α)) := do
  let compatible ← isPriceCompatible o c
  if ¬compatible then .ok none
  else do
    let fill ← fillAmount o c
    if fill = 0 then .ok none
    else do
      let price ← clearingPrice o c
      .ok (some ⟨o, c, fill, price⟩)

/-- A generator: what it yields, until it ends or raises. -/
def yieldAll : List (Except Exn (Option (MatchPair α))) → List (MatchPair α) × Except Exn Unit
  | [] => ([], .ok ())
  | .error e :: _ => ([], .error e)
  | .ok none :: turns => yieldAll turns
  | .ok (some pair) :: turns => (pair :: (yieldAll turns).1, (yieldAll turns).2)

def findMatches (outbound inbound uniswapx : List (MatchCandidate α)) :
    List (MatchPair α) × Except Exn Unit :=
  let counters := inbound ++ uniswapx
  yieldAll (outbound.flatMap fun o => counters.map fun c => tryMatch o c)

def findBestMatch (outbound inbound uniswapx : List (MatchCandidate α)) :
    Except Exn (Option (MatchPair α)) := do
  let run := findMatches outbound inbound uniswapx
  run.2
  .ok <| run.1.foldl
    (fun best m => match best with
      | some b => if m.fillAmount > b.fillAmount then some m else best
      | none => some m) none

end Candidates

end Degenbot.PriceCompat
