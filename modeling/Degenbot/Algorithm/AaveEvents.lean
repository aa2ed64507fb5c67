import Degenbot.Algorithm.Types

/-! # `cli/aave_transaction_operations.py`: logs and decoded token events

Logs come with their topics and data decoded; fields that no modelled function reads are
left out. The rows of the market are passed in place of the database session. -/

namespace Degenbot.AaveParser

def zeroAddress : ℕ := 0
def tokenAmountMatchTolerance : ℕ := 2
def scaledAmountPoolRevision : ℕ := 9

/-! ## Logs -/

/-- The first topic of a log, with the fields it announces. -/
inductive EventData where
  | supply (reserve onBehalfOf amount : ℕ)
  | withdraw (reserve user amount : ℕ)
  | borrow (reserve onBehalfOf amount : ℕ)
  | repay (reserve user amount : ℕ) (useATokens : Bool)
  | liquidationCall (collateralAsset debtAsset user debtToCover : ℕ)
  | deficitCreated (user debtAsset : ℕ)
  | mintedToTreasury (reserve amountMinted : ℕ)
  | mint (caller onBehalfOf value balanceIncrease index : ℕ)
  | burn (sender target value balanceIncrease index : ℕ)
  | balanceTransfer (sender recipient value index : ℕ)
  | transfer (sender recipient value : ℕ)
  | other
deriving DecidableEq, Repr

/-- `LogReceipt`. -/
structure Log where
  logIndex : ℕ
  address : ℕ
  data : EventData
deriving DecidableEq, Repr

/-- `_is_required_pool_event`. -/
def Log.isPoolEvent (log : Log) : Bool :=
  match log.data with
  | .supply .. | .withdraw .. | .borrow .. | .repay .. | .liquidationCall .. |
    .deficitCreated .. => true
  | _ => false

/-- The topics of `AaveV3ScaledTokenEvent`. -/
def Log.isScaledTokenEvent (log : Log) : Bool :=
  match log.data with
  | .mint .. | .burn .. | .balanceTransfer .. => true
  | _ => false

def Log.isTransfer (log : Log) : Bool :=
  match log.data with
  | .transfer .. => true
  | _ => false

/-! ## Market -/

/-- The columns of `AaveV3Asset` that are read here; every key is required. -/
structure AssetRow where
  underlyingToken : ℕ
  aToken : ℕ
  vToken : ℕ
  vTokenRevision : ℕ
deriving DecidableEq, Repr

/-- The market of a parser, with its GHO asset. -/
structure Market where
  assets : List AssetRow
  poolAddress : ℕ
  poolRevision : ℕ
  ghoTokenAddress : ℕ
  ghoVTokenAddress : Option ℕ
  vGhoDiscountToken : Option ℕ
deriving DecidableEq, Repr

inductive TokenType where
  | aToken
  | vToken
  | ghoDiscount
deriving DecidableEq, Repr

/-- `str(token_type)` of a lookup that may have failed. -/
def tokenTypeText : Option TokenType → String
  | none => "None"
  | some .aToken => "TokenType.A_TOKEN"
  | some .vToken => "TokenType.V_TOKEN"
  | some .ghoDiscount => "TokenType.GHO_DISCOUNT"

def assertThat (p : Bool) : Except Exn Unit := if p then .ok () else .error .assertionError

/-- `assert value is not None` -/
def assertSome {α : Type} (value : Option α) : Except Exn α :=
  match value with
  | some value => .ok value
  | none => .error .assertionError

namespace Market

variable (market : Market)

def getTokenType (tokenAddress : ℕ) : Option TokenType :=
  if market.assets.any (·.aToken = tokenAddress) then some .aToken
  else if market.assets.any (·.vToken = tokenAddress) then some .vToken
  else if market.vGhoDiscountToken = some tokenAddress then some .ghoDiscount
  else none

def getReserveForDebtToken (debtTokenAddress : ℕ) : Except Exn ℕ := do
  let asset ← assertSome (market.assets.find? (·.vToken = debtTokenAddress))
  .ok asset.underlyingToken

def getATokenForAsset (underlyingAsset : ℕ) : Except Exn ℕ := do
  let asset ← assertSome (market.assets.find? (·.underlyingToken = underlyingAsset))
  .ok asset.aToken

def getVTokenForAsset (underlyingAsset : ℕ) : Except Exn ℕ := do
  let asset ← assertSome (market.assets.find? (·.underlyingToken = underlyingAsset))
  .ok asset.vToken

def getAssetByAToken (aTokenAddress : ℕ) : Option AssetRow :=
  market.assets.find? (·.aToken = aTokenAddress)

end Market

/-! ## Token events -/

/-- The members that the parser produces. -/
inductive ScaledTokenEventType where
  | collateralBurn
  | collateralMint
  | collateralTransfer
  | debtBurn
  | debtMint
  | debtTransfer
  | discountTransfer
  | ghoDebtBurn
  | ghoDebtMint
  | ghoDebtTransfer
  | erc20CollateralTransfer
  | erc20DebtTransfer
deriving DecidableEq, Repr

structure ScaledTokenEvent where
  event : Log
  eventType : ScaledTokenEventType
  userAddress : ℕ
  callerAddress : Option ℕ
  fromAddress : Option ℕ
  targetAddress : Option ℕ
  amount : ℕ
  balanceIncrease : Option ℕ
  index : Option ℕ
deriving DecidableEq, Repr

def ScaledTokenEvent.isCollateral (ev : ScaledTokenEvent) : Bool :=
  ev.eventType ∈ [.collateralBurn, .collateralMint, .collateralTransfer,
    .erc20CollateralTransfer]

def ScaledTokenEvent.isDebt (ev : ScaledTokenEvent) : Bool :=
  ev.eventType ∈ [.debtBurn, .debtMint, .debtTransfer, .ghoDebtBurn, .ghoDebtMint,
    .ghoDebtTransfer, .erc20DebtTransfer]

def ScaledTokenEvent.isBurn (ev : ScaledTokenEvent) : Bool :=
  ev.eventType ∈ [.collateralBurn, .debtBurn, .ghoDebtBurn]

inductive EventCategory where
  | mint
  | burn
  | transfer
deriving DecidableEq, Repr

def EventCategory.text : EventCategory → String
  | .mint => "mint"
  | .burn => "burn"
  | .transfer => "transfer"

/-- The types of a category for aTokens and for debt tokens. -/
def EventCategory.types : EventCategory → ScaledTokenEventType × ScaledTokenEventType
  | .mint => (.collateralMint, .debtMint)
  | .burn => (.collateralBurn, .debtBurn)
  | .transfer => (.collateralTransfer, .debtTransfer)

/-- The GHO debt token is special only in mints and burns. -/
def EventCategory.ghoType : EventCategory → Option ScaledTokenEventType
  | .mint => some .ghoDebtMint
  | .burn => some .ghoDebtBurn
  | .transfer => none

/-- The lookup that follows the GHO check. -/
def getScaledTokenType (market : Market) (tokenAddress : ℕ) (eventCategory : EventCategory) :
    Except Exn ScaledTokenEventType :=
  match market.getTokenType tokenAddress with
  | some .aToken => .ok eventCategory.types.1
  | some .vToken => .ok eventCategory.types.2
  | tokenType => .error (.degenbotValueError ("Unsupported " ++ eventCategory.text ++ " token " ++
      toString tokenAddress ++ ": " ++ tokenTypeText tokenType))

def getEventTypeForToken (market : Market) (tokenAddress : ℕ) (eventCategory : EventCategory) :
    Except Exn ScaledTokenEventType :=
  match eventCategory.ghoType with
  | some ghoType =>
      if market.ghoVTokenAddress = some tokenAddress then .ok ghoType
      else getScaledTokenType market tokenAddress eventCategory
  | none => getScaledTokenType market tokenAddress eventCategory

/-! ## Decoding -/

def decodeMintEvent (market : Market) (event : Log)
    (caller user amount balanceIncrease index : ℕ) : Except Exn ScaledTokenEvent := do
  let eventType ← getEventTypeForToken market event.address .mint
  .ok { event, eventType, userAddress := user, callerAddress := some caller, fromAddress := none,
        targetAddress := none, amount, balanceIncrease := some balanceIncrease,
        index := some index }

def decodeBurnEvent (market : Market) (event : Log)
    (fromAddr target amount balanceIncrease index : ℕ) : Except Exn ScaledTokenEvent := do
  let eventType ← getEventTypeForToken market event.address .burn
  .ok { event, eventType, userAddress := fromAddr, callerAddress := none,
        fromAddress := some fromAddr, targetAddress := some target, amount,
        balanceIncrease := some balanceIncrease, index := some index }

def decodeBalanceTransferEvent (market : Market) (event : Log)
    (fromAddr toAddr amount index : ℕ) : Except Exn ScaledTokenEvent := do
  let eventType ← getEventTypeForToken market event.address .transfer
  .ok { event, eventType, userAddress := fromAddr, callerAddress := none,
        fromAddress := some fromAddr, targetAddress := some toAddr, amount,
        balanceIncrease := some 0, index := some index }

/-- The type of an ERC20 `Transfer`; transfers of other tokens are dropped. -/
def transferEventType (market : Market) (tokenAddress : ℕ) : Option ScaledTokenEventType :=
  if market.ghoVTokenAddress = some tokenAddress then some .ghoDebtTransfer
  else
    match market.getTokenType tokenAddress with
    | some .aToken => some .erc20CollateralTransfer
    | some .vToken => some .erc20DebtTransfer
    | some .ghoDiscount => some .discountTransfer
    | none => none

def decodeTransferEvent (market : Market) (event : Log) (fromAddr toAddr amount : ℕ) :
    Option ScaledTokenEvent :=
  (transferEventType market event.address).map fun eventType =>
    { event, eventType, userAddress := fromAddr, callerAddress := none,
      fromAddress := some fromAddr, targetAddress := some toAddr, amount,
      balanceIncrease := none, index := none }

/-- One turn of the loop of `_extract_scaled_token_events`. -/
def decodeScaledTokenEvent (market : Market) (event : Log) :
    Except Exn (Option ScaledTokenEvent) :=
  match event.data with
  | .mint caller user amount balanceIncrease index =>
      (decodeMintEvent market event caller user amount balanceIncrease index).map some
  | .burn fromAddr target amount balanceIncrease index =>
      (decodeBurnEvent market event fromAddr target amount balanceIncrease index).map some
  | .balanceTransfer fromAddr toAddr amount index =>
      (decodeBalanceTransferEvent market event fromAddr toAddr amount index).map some
  | .transfer fromAddr toAddr amount => .ok (decodeTransferEvent market event fromAddr toAddr amount)
  | _ => .ok none

/-- `sorted(..., key=lambda e: e.event["logIndex"])` -/
def sortByLogIndex (events : List ScaledTokenEvent) : List ScaledTokenEvent :=
  events.insertionSort fun a b => a.event.logIndex ≤ b.event.logIndex

def extractScaledTokenEvents (market : Market) (events : List Log) :
    Except Exn (List ScaledTokenEvent) := do
  let result ← events.mapM (decodeScaledTokenEvent market)
  .ok (sortByLogIndex result.reduceOption)

def extractPoolEvents (events : List Log) : List Log :=
  (events.filter Log.isPoolEvent).insertionSort fun a b => a.logIndex ≤ b.logIndex

/-! ## Comparisons -/

def amountsMatch (calculated expected : ℤ) (poolRevision : ℕ) : Bool :=
  if poolRevision ≥ scaledAmountPoolRevision then
    |calculated - expected| ≤ (tokenAmountMatchTolerance : ℤ)
  else calculated = expected

/-- The set of the two types is one of the two pairs. -/
def areCompatibleTransferTypes (ev₁ ev₂ : ScaledTokenEvent) : Bool :=
  (ev₁.eventType, ev₂.eventType) ∈
    [(.collateralTransfer, .erc20CollateralTransfer), (.erc20CollateralTransfer, .collateralTransfer),
     (.debtTransfer, .erc20DebtTransfer), (.erc20DebtTransfer, .debtTransfer)]

end Degenbot.AaveParser
