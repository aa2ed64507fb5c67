import Degenbot.Algorithm.ExecutorAbi
import Degenbot.Algorithm.InternalMatch
import Degenbot.Library.Outcome

/-! # The UniswapX leg of an internal match against the executor's guard

The layout is the standard one; the selector is not the guard's. -/

namespace Degenbot.InternalMatch

open Library Library.Abi ExecutorSemantics

/-! ## What `encode_match_pair` returns -/

/-- The CoW candidate's id is the counter's. -/
def takenAsCounter (pair : MatchPair) (cowCandidate : MatchCandidate) : Bool :=
  cowCandidate.id = pair.c.id

theorem encodeMatchPair_eq_ok {pair : MatchPair} {cowOrder : CowOrderSummary}
    {uniswapxOrder : UniswapXOrderSummary} {estimatedProfitWei flashAmount minProfitBps : ℤ}
    {flashToken executor : Abi.Address} {signature : Option (List UInt8)} {trade : MatchedTrade}
    (h : encodeMatchPair pair cowOrder uniswapxOrder estimatedProfitWei flashToken flashAmount
      executor minProfitBps signature = .ok trade) :
    (∃ cowCandidate settle, identifyCowCandidate pair cowOrder = .ok cowCandidate ∧
      cowSettle pair cowOrder pair.fillAmount executor (takenAsCounter pair cowCandidate) =
        .ok settle ∧ settle.calldata = .ok trade.cowSettlementCalldata) ∧
    (∃ projected, projectOSellToOBuy pair pair.fillAmount = .ok projected) ∧
    encodeUniswapxBatch uniswapxOrder.encodedOrder (signature.getD uniswapxOrder.signature)
      executor uniswapxOrder.deadline = .ok trade.uniswapxBatchCalldata := by
  rw [encodeMatchPair, ite_error_eq_ok] at h
  obtain ⟨cowCandidate, hcandidate, h⟩ := bind_eq_ok.mp h.2
  obtain ⟨_, -, h⟩ := bind_eq_ok.mp h
  obtain ⟨cowCalldata, hcow, h⟩ := bind_eq_ok.mp h
  obtain ⟨batchCalldata, hbatch, h⟩ := bind_eq_ok.mp h
  obtain ⟨tokenBSpot, hspot, h⟩ := bind_eq_ok.mp h
  rw [ite_error_eq_ok] at h
  obtain ⟨settle, hsettle, hcalldata⟩ := bind_eq_ok.mp hcow
  rw [← Except.ok.inj h.2]
  exact ⟨⟨cowCandidate, settle, hcandidate, hsettle, hcalldata⟩, ⟨tokenBSpot, hspot⟩, hbatch⟩

/-! ## The contract of a fill -/

/-- The guard's view of a batch call. -/
def fillStatic (reactor : Abi.Address) (calldata callback : List UInt8) :
    ExecutorUniswapXFillStatic :=
  ⟨reactor, reactor, calldata.length, calldata.take 4, callback.length⟩

/-- A decoder of `executeBatchWithCallback((bytes,bytes)[],bytes)`. -/
def decodeBatch (calldata : List UInt8) : Option (List Value) :=
  decodeArgs [.array (.tuple [.bytes, .bytes]), .bytes] (calldata.drop 4)

def batchArguments (encodedOrder signature callback : List UInt8) : List Value :=
  [.array [.tuple [.bytes encodedOrder, .bytes signature]], .bytes callback]

/-- The guard accepts the call and the decoder finds the one order and the callback data. -/
structure FillContract (reactor : Abi.Address) (encodedOrder signature callback calldata : List UInt8) :
    Prop where
  accepted : validateUniswapxFillStatic (fillStatic reactor calldata callback) = .ok ()
  decoded : decodeBatch calldata = some (batchArguments encodedOrder signature callback)

/-! ## The encoder -/

theorem admitAll_batchArguments (encodedOrder signature callback : List UInt8) :
    admitAll [.array (.tuple [.bytes, .bytes]), .bytes]
      (batchArguments encodedOrder signature callback) = true := by
  have horders : (Ty.array (.tuple [.bytes, .bytes])).admits
      (.array [.tuple [.bytes encodedOrder, .bytes signature]]) = true := by
    refine admits_array (by norm_num) ?_
    intro value hvalue
    rw [List.mem_singleton.mp hvalue]
    simp
  simp [batchArguments, horders]

theorem encodeUniswapxBatch_eq_ok {encodedOrder signature callback calldata : List UInt8}
    {executor : Abi.Address} {deadline : ℤ}
    (hcallback : callbackData executor deadline = .ok callback)
    (h : encodeUniswapxBatch encodedOrder signature executor deadline = .ok calldata) :
    calldata = executeBatchWithCallbackSelector ++
      encodeArgs (batchArguments encodedOrder signature callback) := by
  have hbody : abiEncode [.array (.tuple [.bytes, .bytes]), .bytes]
      (batchArguments encodedOrder signature callback) =
        .ok (encodeArgs (batchArguments encodedOrder signature callback)) :=
    if_pos (admitAll_batchArguments encodedOrder signature callback)
  rw [batchArguments] at hbody
  rw [encodeUniswapxBatch, hcallback, ok_bind, hbody, ok_bind] at h
  exact (Except.ok.inj h).symm

theorem decodeBatch_append {selector : List UInt8} (hselector : selector.length = 4)
    (encodedOrder signature callback : List UInt8)
    (hfits : (encodeArgs (batchArguments encodedOrder signature callback)).length < 2 ^ 256) :
    decodeBatch (selector ++ encodeArgs (batchArguments encodedOrder signature callback)) =
      some (batchArguments encodedOrder signature callback) := by
  rw [decodeBatch, List.drop_left' hselector]
  exact decodeArgs_encodeArgs (admitAll_batchArguments encodedOrder signature callback) hfits

/-! ## The guard -/

/-- With equal reactors the guard returns one error, whatever it finds wrong. -/
theorem validate_of_selector_ne {reactor : Abi.Address} {calldata callback : List UInt8}
    (h : calldata.take 4 ≠ reactorExecuteBatchWithCallbackSelector) :
    validateUniswapxFillStatic (fillStatic reactor calldata callback) =
      .error .invalidActionData := by
  have hreactor : ¬ (fillStatic reactor calldata callback).reactor ≠
      (fillStatic reactor calldata callback).expectedReactor := not_not.mpr rfl
  rw [validateUniswapxFillStatic, if_neg hreactor]
  by_cases hshort : (fillStatic reactor calldata callback).executeCalldataLen < 4 ∨
      (fillStatic reactor calldata callback).callbackDataLen = 0
  · exact if_pos hshort
  · rw [if_neg hshort]
    exact if_pos h

theorem take_selector_ne (body : List UInt8) :
    (executeBatchWithCallbackSelector ++ body).take 4 ≠
      reactorExecuteBatchWithCallbackSelector := by
  have htake : (executeBatchWithCallbackSelector ++ body).take 4 =
      executeBatchWithCallbackSelector := List.take_left' rfl
  rw [htake]
  decide

theorem batch_rejected {encodedOrder signature callback calldata : List UInt8}
    {executor : Abi.Address} {deadline : ℤ} (reactor : Abi.Address)
    (hcallback : callbackData executor deadline = .ok callback)
    (h : encodeUniswapxBatch encodedOrder signature executor deadline = .ok calldata) :
    validateUniswapxFillStatic (fillStatic reactor calldata callback) =
      .error .invalidActionData := by
  refine validate_of_selector_ne ?_
  rw [encodeUniswapxBatch_eq_ok hcallback h]
  exact take_selector_ne _

/-- No order, signature and deadline give a call that the guard accepts. The refusal is the
selector's: the arguments are where a decoder expects them. -/
theorem uniswapxBatch_never_accepted (pair : MatchPair) (cowOrder : CowOrderSummary)
    (uniswapxOrder : UniswapXOrderSummary) (estimatedProfitWei flashAmount minProfitBps : ℤ)
    (flashToken executor reactor : Abi.Address) (uniswapxSignature : Option (List UInt8)) :
    (¬ ∃ trade callback,
      encodeMatchPair pair cowOrder uniswapxOrder estimatedProfitWei flashToken flashAmount
        executor minProfitBps uniswapxSignature = .ok trade ∧
      callbackData executor uniswapxOrder.deadline = .ok callback ∧
      FillContract reactor uniswapxOrder.encodedOrder
        (uniswapxSignature.getD uniswapxOrder.signature) callback trade.uniswapxBatchCalldata) ∧
    ∀ trade callback,
      encodeMatchPair pair cowOrder uniswapxOrder estimatedProfitWei flashToken flashAmount
        executor minProfitBps uniswapxSignature = .ok trade →
      callbackData executor uniswapxOrder.deadline = .ok callback →
      trade.uniswapxBatchCalldata.length < 2 ^ 256 →
      validateUniswapxFillStatic (fillStatic reactor trade.uniswapxBatchCalldata callback) =
        .error .invalidActionData ∧
      decodeBatch trade.uniswapxBatchCalldata =
        some (batchArguments uniswapxOrder.encodedOrder
          (uniswapxSignature.getD uniswapxOrder.signature) callback) := by
  constructor
  · rintro ⟨trade, callback, htrade, hcallback, hcontract⟩
    have hbatch := (encodeMatchPair_eq_ok htrade).2.2
    have haccepted := hcontract.accepted
    rw [batch_rejected reactor hcallback hbatch] at haccepted
    cases haccepted
  · intro trade callback htrade hcallback hfits
    have hbatch := (encodeMatchPair_eq_ok htrade).2.2
    refine ⟨batch_rejected reactor hcallback hbatch, ?_⟩
    rw [encodeUniswapxBatch_eq_ok hcallback hbatch] at hfits ⊢
    refine decodeBatch_append rfl _ _ callback ?_
    rw [List.length_append] at hfits
    omega

/-! ## A refused match -/

def wethUsdc : MatchCandidate := ⟨"o", 11, 12, 18, 18, 10, 10, .cow, 0⟩
def usdcWeth : MatchCandidate := ⟨"c", 12, 11, 18, 18, 10, 10, .uniswapx, 0⟩

def evenPair : MatchPair := ⟨wethUsdc, usdcWeth, 10, 10 ^ 18⟩

def sellOrder : CowOrderSummary :=
  ⟨"0x01", 11, 12, 10, 10, 0, 1, .sell, true, .eip712, [], []⟩

def emptyOrder : UniswapXOrderSummary := ⟨12, 11, 10, 10, 0, [], []⟩

/-- The empty order with the empty signature and deadline zero is encoded and refused. -/
theorem emptyOrder_rejected :
    ¬ ∀ (pair : MatchPair) (cowOrder : CowOrderSummary) (uniswapxOrder : UniswapXOrderSummary)
      (estimatedProfitWei flashAmount minProfitBps : ℤ) (flashToken executor reactor : Abi.Address)
      (uniswapxSignature : Option (List UInt8)) (trade : MatchedTrade) (callback : List UInt8),
      encodeMatchPair pair cowOrder uniswapxOrder estimatedProfitWei flashToken flashAmount
        executor minProfitBps uniswapxSignature = .ok trade →
      callbackData executor uniswapxOrder.deadline = .ok callback →
      FillContract reactor uniswapxOrder.encodedOrder
        (uniswapxSignature.getD uniswapxOrder.signature) callback trade.uniswapxBatchCalldata := by
  intro h
  have hreturns : ∃ trade, encodeMatchPair evenPair sellOrder emptyOrder 0 11 10 1 9500 none =
      .ok trade := by
    cases hrun : encodeMatchPair evenPair sellOrder emptyOrder 0 11 10 1 9500 none with
    | ok trade => exact ⟨trade, rfl⟩
    | error e =>
        have hok : (encodeMatchPair evenPair sellOrder emptyOrder 0 11 10 1 9500 none).toBool =
            true := by
          decide
        rw [hrun] at hok
        cases hok
  obtain ⟨trade, htrade⟩ := hreturns
  have hcallback : callbackData 1 emptyOrder.deadline =
      .ok (encodeArgs [.array [], .address 1, .uint 256 0]) := by
    decide
  have haccepted := (h evenPair sellOrder emptyOrder 0 10 9500 11 1 2 none trade _ htrade
    hcallback).accepted
  rw [batch_rejected 2 hcallback (encodeMatchPair_eq_ok htrade).2.2] at haccepted
  cases haccepted

end Degenbot.InternalMatch
