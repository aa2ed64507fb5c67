import Degenbot.Algorithm.ExecutionCalldata
import Degenbot.Algorithm.Matching

/-! # `matching/encoder.py`

Addresses are their values, so that comparing them in lower case is equality; hex texts are their
bytes. `eth_abi.encode` rejects values outside the listed types and is the standard encoding
otherwise. -/

namespace Degenbot.InternalMatch

open Library.Abi Abi PriceCompat

abbrev MatchCandidate := PriceCompat.MatchCandidate Address

abbrev MatchPair := PriceCompat.MatchPair Address

/-! ## Records of `decision/types.py` -/

inductive OrderKind where
  | buy
  | sell
deriving DecidableEq

/-- The order of the constructors is the value of `scheme_map`. -/
inductive SigningScheme where
  | eip712
  | ethsign
  | eip1271
  | presign
deriving DecidableEq

structure CowOrderSummary where
  uid : String
  sellToken : Address
  buyToken : Address
  sellAmount : ℤ
  buyAmount : ℤ
  feeAmount : ℤ
  validTo : ℤ
  kind : OrderKind
  partiallyFillable : Bool
  signingScheme : SigningScheme
  signature : List UInt8
  appData : List UInt8
deriving DecidableEq

structure UniswapXOrderSummary where
  inputToken : Address
  outputToken : Address
  inputAmount : ℤ
  outputAmountMin : ℤ
  deadline : ℤ
  encodedOrder : List UInt8
  signature : List UInt8
deriving DecidableEq

/-! ## Encoding -/

/-- `eth_abi.encode`. -/
def abiEncode (types : List Ty) (values : List Value) : Except Exn (List UInt8) :=
  if admitAll types values then .ok (encodeArgs values) else .error .encodingError

/-- A Python integer as an unsigned ABI value. -/
def uintValue (bits : ℕ) (n : ℤ) : Except Exn Value :=
  if 0 ≤ n ∧ n < 2 ^ bits then .ok (.uint bits n.toNat) else .error .encodingError

/-- A `bytes32`, padded on the right. -/
def bytes32Value (data : List UInt8) : Except Exn Value :=
  if data.length ≤ 32 then
    .ok (.uint 256 (Library.beValue (data ++ List.replicate (32 - data.length) 0)))
  else .error .encodingError

def projectOSellToOBuy (pair : MatchPair) (fill : ℤ) : Except Exn ℤ :=
  projectSellToBuy fill pair.clearingPrice pair.o.pairSellDecimals pair.o.pairBuyDecimals

def identifyCowCandidate (pair : MatchPair) (cowOrder : CowOrderSummary) :
    Except Exn MatchCandidate :=
  let isCow (cand : MatchCandidate) : Bool :=
    cand.sourceVenue = .cow ∨ cand.sourceVenue = .cowCompetition ∨
      (cand.pairSell = cowOrder.sellToken ∧ cand.pairBuy = cowOrder.buyToken)
  if isCow pair.o then .ok pair.o
  else if isCow pair.c then .ok pair.c
  else .error (.valueError
    ("encode_match_pair: neither candidate matches CoW order " ++ cowOrder.uid))

def validateOrders (cowOrder : CowOrderSummary) (cowCandidate : MatchCandidate)
    (uniswapxOrder : UniswapXOrderSummary) (uniswapxCandidate : MatchCandidate) :
    Except Exn Unit :=
  if cowOrder.sellToken ≠ cowCandidate.pairSell then
    .error (.valueError "cowOrder.sellToken mismatch")
  else if cowOrder.buyToken ≠ cowCandidate.pairBuy then
    .error (.valueError "cowOrder.buyToken mismatch")
  else if uniswapxOrder.inputToken ≠ uniswapxCandidate.pairSell then
    .error (.valueError "uniswapxOrder.inputToken mismatch")
  else if uniswapxOrder.outputToken ≠ uniswapxCandidate.pairBuy then
    .error (.valueError "uniswapxOrder.outputToken mismatch")
  else .ok ()

def packOrderFlags (order : CowOrderSummary) : ℕ :=
  (if order.kind = .buy then 1 else 0) ||| (if order.partiallyFillable then 1 <<< 1 else 0) |||
    (order.signingScheme.ctorIdx <<< 5)

structure Trade where
  sellTokenIndex : ℕ
  buyTokenIndex : ℕ
  receiver : Address
  sellAmount : ℤ
  buyAmount : ℤ
  validTo : ℤ
  appData : List UInt8
  feeAmount : ℤ
  flags : ℕ
  executedAmount : ℤ
  signature : List UInt8
deriving DecidableEq

/-- The arguments of `settle`; the one interaction is `transferToSettlement` of the payout. -/
structure Settle where
  tokens : List Address
  clearingPrices : List ℤ
  trade : Trade
  executorAddress : Address
  buyTokenPayout : ℤ
deriving DecidableEq

def transferToSettlementSelector : List UInt8 := [0x27, 0x24, 0x62, 0xe0]

def settleSelector : List UInt8 := [0x17, 0x00, 0x68, 0x4f]

def tradeType : Ty :=
  .tuple [.uint 256, .uint 256, .address, .uint 256, .uint 256, .uint 32, .uint 256, .uint 256,
    .uint 256, .uint 256, .bytes]

def interactionType : Ty := .tuple [.address, .uint 256, .bytes]

def Trade.value (trade : Trade) : Except Exn Value := do
  let sellAmount ← uintValue 256 trade.sellAmount
  let buyAmount ← uintValue 256 trade.buyAmount
  let validTo ← uintValue 32 trade.validTo
  let appData ← bytes32Value trade.appData
  let feeAmount ← uintValue 256 trade.feeAmount
  let executedAmount ← uintValue 256 trade.executedAmount
  .ok (.tuple [.uint 256 trade.sellTokenIndex, .uint 256 trade.buyTokenIndex,
    .address trade.receiver.toNat, sellAmount, buyAmount, validTo, appData, feeAmount,
    .uint 256 trade.flags, executedAmount, .bytes trade.signature])

def Settle.calldata (settle : Settle) : Except Exn (List UInt8) := do
  let payout ← uintValue 256 settle.buyTokenPayout
  let transferData ← abiEncode [.address, .uint 256] [.address settle.executorAddress.toNat, payout]
  let interaction : Value := .tuple [.address settle.executorAddress.toNat, .uint 256 0,
    .bytes (transferToSettlementSelector ++ transferData)]
  let prices ← settle.clearingPrices.mapM (uintValue 256)
  let trade ← settle.trade.value
  -- `(address,uint256,bytes)[][3]` has the layout of a tuple of three arrays
  let body ← abiEncode
    [.array .address, .array (.uint 256), .array tradeType,
      .tuple [.array interactionType, .array interactionType, .array interactionType]]
    [.array (settle.tokens.map fun token => .address token.toNat), .array prices, .array [trade],
      .tuple [.array [], .array [interaction], .array []]]
  .ok (settleSelector ++ body)

/-- The arguments that `_encode_cow_settle` encodes. -/
def cowSettle (pair : MatchPair) (cowOrder : CowOrderSummary) (fillAmount : ℤ)
    (executorAddress : Address) (cowOrderIsCounter : Bool) : Except Exn Settle := do
  let projectToBuy (fill : ℤ) : Except Exn ℤ :=
    if cowOrderIsCounter then .ok fill else projectOSellToOBuy pair fill
  let projectToSell (fill : ℤ) : Except Exn ℤ :=
    if ¬cowOrderIsCounter then .ok fill else projectOSellToOBuy pair fill
  let executedAmount ←
    if ¬cowOrder.partiallyFillable then
      .ok (if cowOrder.kind = .sell then cowOrder.sellAmount else cowOrder.buyAmount)
    else if cowOrder.kind = .sell then projectToSell fillAmount
    else projectToBuy fillAmount
  let buyTokenPayout ←
    if cowOrder.partiallyFillable then projectToBuy fillAmount else .ok cowOrder.buyAmount
  .ok {
    tokens := [cowOrder.sellToken, cowOrder.buyToken]
    clearingPrices := [cowOrder.buyAmount, cowOrder.sellAmount]
    trade := {
      sellTokenIndex := 0
      buyTokenIndex := 1
      receiver := 0
      sellAmount := cowOrder.sellAmount
      buyAmount := cowOrder.buyAmount
      validTo := cowOrder.validTo
      appData := cowOrder.appData
      feeAmount := cowOrder.feeAmount
      flags := packOrderFlags cowOrder
      executedAmount := executedAmount
      signature := cowOrder.signature }
    executorAddress := executorAddress
    buyTokenPayout := buyTokenPayout }

def encodeCowSettle (pair : MatchPair) (cowOrder : CowOrderSummary) (fillAmount : ℤ)
    (executorAddress : Address) (cowOrderIsCounter : Bool) :
    Except Exn (List UInt8) := do
  let settle ← cowSettle pair cowOrder fillAmount executorAddress cowOrderIsCounter
  settle.calldata

def executeBatchWithCallbackSelector : List UInt8 := [0x36, 0x4a, 0x27, 0x54]

def swapStepType : Ty :=
  .tuple [.uint 8, .address, .bytes, .address, .address, .uint 256, .uint 256]

def callbackData (executorAddress : Address) (callbackDeadline : ℤ) :
    Except Exn (List UInt8) := do
  let deadline ← uintValue 256 callbackDeadline
  abiEncode [.array swapStepType, .address, .uint 256]
    [.array [], .address executorAddress.toNat, deadline]

def encodeUniswapxBatch (encodedOrder signature : List UInt8) (executorAddress : Address)
    (callbackDeadline : ℤ) : Except Exn (List UInt8) := do
  let callback ← callbackData executorAddress callbackDeadline
  let body ← abiEncode [.array (.tuple [.bytes, .bytes]), .bytes]
    [.array [.tuple [.bytes encodedOrder, .bytes signature]], .bytes callback]
  .ok (executeBatchWithCallbackSelector ++ body)

structure MatchedTrade where
  pair : MatchPair
  cowSettlementCalldata : List UInt8
  uniswapxBatchCalldata : List UInt8
  expectedTokenInflows : List Address
  expectedTokenInflowMin : List ℤ
  flashAmount : ℤ
  flashToken : Address
  estimatedProfitWei : ℤ

def bpsDenominator : ℤ := 10000

def encodeMatchPair (pair : MatchPair) (cowOrder : CowOrderSummary)
    (uniswapxOrder : UniswapXOrderSummary) (estimatedProfitWei : ℤ) (flashToken : Address)
    (flashAmount : ℤ) (executorAddress : Address) (minProfitBps : ℤ)
    (uniswapxSignature : Option (List UInt8)) : Except Exn MatchedTrade :=
  if ¬PriceCompat.isOpposingPair pair.o pair.c then
    .error (.valueError "encode_match_pair: pair tokens are not opposing")
  else do
    let cowCandidate ← identifyCowCandidate pair cowOrder
    let uniswapxCandidate := if pair.o.id = cowCandidate.id then pair.c else pair.o
    validateOrders cowOrder cowCandidate uniswapxOrder uniswapxCandidate
    let cowSettlementCalldata ← encodeCowSettle pair cowOrder pair.fillAmount executorAddress
      (cowCandidate.id = pair.c.id)
    let sig := uniswapxSignature.getD uniswapxOrder.signature
    let uniswapxBatchCalldata ← encodeUniswapxBatch uniswapxOrder.encodedOrder sig executorAddress
      uniswapxOrder.deadline
    let tokenBSpot ← projectOSellToOBuy pair pair.fillAmount
    let tokenAFloor := (pair.fillAmount * minProfitBps).fdiv bpsDenominator
    let tokenBFloor := (tokenBSpot * minProfitBps).fdiv bpsDenominator
    if flashAmount ≤ 0 then
      .error (.valueError "encode_match_pair: flash_amount must be > 0")
    else
      .ok ⟨pair, cowSettlementCalldata, uniswapxBatchCalldata, [pair.o.pairSell, pair.o.pairBuy],
        [tokenAFloor, tokenBFloor], flashAmount, flashToken, estimatedProfitWei⟩

end Degenbot.InternalMatch
