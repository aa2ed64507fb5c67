import Degenbot.Algorithm.PoolJson
import Degenbot.Library.Digits

/-! # `monitor/sequencer_feed.rs`: L2 messages of the sequencer feed

The EIP-2718 codec of transaction envelopes and the Base64 codec are parameters. The decoder
returns its outcome beside the envelopes pushed so far. -/

namespace Degenbot.SequencerFeed

open Library

/-- `TxEnvelope::encode_2718` and `decode_2718`; the decoder leaves what it does not read. -/
structure Eip2718 (TxEnvelope : Type) where
  encode2718 : TxEnvelope → List UInt8
  decode2718 : List UInt8 → Except String (TxEnvelope × List UInt8)
  decode_encode : ∀ envelope, decode2718 (encode2718 envelope) = .ok (envelope, [])

/-- The standard Base64 engine. -/
structure Base64 where
  encode : List UInt8 → String
  decode : String → Option (List UInt8)
  decode_encode : ∀ bytes, decode (encode bytes) = some bytes

/-! ## Decoder -/

inductive DecodeError where
  | missingL2Msg
  | l2MsgNotString
  | base64
  | empty
  | unsupportedKind (kind : UInt8)
  | eip2718 (error : String)
  | batchTooDeep
  | batchSegmentTooLarge (segLen : ℕ)
  | nonL2MessageKind (kind : ℕ)
  | signedCompressedTxUnsupported
deriving DecidableEq

def l1MessageTypeL2Message : ℕ := 3

def l2MsgKindUnsignedUserTx : UInt8 := 0
def l2MsgKindContractTx : UInt8 := 1
def l2MsgKindNonmutatingCall : UInt8 := 2
def l2MsgKindBatch : UInt8 := 3
def l2MsgKindSignedTx : UInt8 := 4
def l2MsgKindHeartbeat : UInt8 := 5
def l2MsgKindSignedCompressedTx : UInt8 := 6

def maxBatchDepth : ℕ := 16

def maxL2MessageSize : ℕ := 256 * 1024

section Decoder

variable {TxEnvelope : Type} (codec : Eip2718 TxEnvelope)

mutual

def decodeL2MessageBytes (bytes : List UInt8) (depth : ℕ) (out : List TxEnvelope) :
    Except DecodeError Unit × List TxEnvelope :=
  match bytes with
  | [] => (.error .empty, out)
  | kind :: payload =>
      if kind = l2MsgKindSignedTx then
        match codec.decode2718 payload with
        | .ok (envelope, _) => (.ok (), out ++ [envelope])
        | .error e => (.error (.eip2718 e), out)
      else if kind = l2MsgKindBatch then
        if depth ≥ maxBatchDepth then (.error .batchTooDeep, out)
        else decodeSegments payload depth out
      else if kind ∈ [l2MsgKindUnsignedUserTx, l2MsgKindContractTx, l2MsgKindNonmutatingCall,
          l2MsgKindHeartbeat] then (.ok (), out)
      else if kind = l2MsgKindSignedCompressedTx then (.error .signedCompressedTxUnsupported, out)
      else (.error (.unsupportedKind kind), out)
termination_by bytes.length

/-- The loop over the segments of a batch. -/
def decodeSegments (rest : List UInt8) (depth : ℕ) (out : List TxEnvelope) :
    Except DecodeError Unit × List TxEnvelope :=
  if _h : rest.length < 8 then (.ok (), out)
  else
    let segLen := beValue (rest.take 8)
    let afterLen := rest.drop 8
    if segLen > maxL2MessageSize then (.error (.batchSegmentTooLarge segLen), out)
    else if afterLen.length < segLen then (.ok (), out)
    else
      match decodeL2MessageBytes (afterLen.take segLen) (depth + 1) out with
      | (.error e, out) => (.error e, out)
      | (.ok _, out) => decodeSegments (afterLen.drop segLen) depth out
termination_by rest.length
decreasing_by
  · simp only [List.length_take, List.length_drop]
    omega
  · simp only [List.length_drop]
    omega

end

/-! ## The wrapper -/

/-- `Value::get`, which is `None` on anything but an object. -/
def get (key : String) : Json → Option Json
  | .object members => members.lookup key
  | _ => none

def isObject : Json → Bool
  | .object _ => true
  | _ => false

def hasL2Msg (message : Json) : Bool :=
  (get "l2Msg" message).isSome || (get "l2msg" message).isSome

def l1IncomingMessage (message : Json) : Except DecodeError Json :=
  if hasL2Msg message then .ok message
  else if isObject message then
    match get "message" message with
    | none => .error .missingL2Msg
    | some nested => if hasL2Msg nested then .ok nested else .error .missingL2Msg
  else .error .missingL2Msg

/-- `Value::as_u64` -/
def asU64 : Json → Option ℕ
  | .number value => if 0 ≤ value ∧ value < 2 ^ 64 then some value.toNat else none
  | _ => none

/-- A message without a kind passes. -/
def assertL1MessageKind (message : Json) : Except DecodeError Unit :=
  match ((get "header" message).bind (get "kind")).bind asU64 with
  | none => .ok ()
  | some kind =>
      if kind = l1MessageTypeL2Message then .ok () else .error (.nonL2MessageKind kind)

def extractL2MsgB64 (message : Json) : Except DecodeError String := do
  let message ← l1IncomingMessage message
  let _ ← assertL1MessageKind message
  match (get "l2Msg" message).orElse fun _ => get "l2msg" message with
  | none => .error .missingL2Msg
  | some (.string value) => .ok value
  | some _ => .error .l2MsgNotString

/-- An error drops the envelopes that were decoded before it. -/
def decodeL2SignedTxs (base64 : Base64) (message : Json) : Except DecodeError (List TxEnvelope) := do
  let b64 ← extractL2MsgB64 message
  match base64.decode b64 with
  | none => .error .base64
  | some bytes =>
      match decodeL2MessageBytes codec bytes 0 [] with
      | (.error e, _) => .error e
      | (.ok _, out) => .ok out

end Decoder

/-! ## Message trees -/

/-- What the feed carries: signed transactions and batches of messages. -/
inductive L2Message (TxEnvelope : Type) where
  | signedTx (envelope : TxEnvelope)
  | batch (messages : List (L2Message TxEnvelope))

namespace L2Message

variable {TxEnvelope : Type} (codec : Eip2718 TxEnvelope)

mutual

/-- `signed_tx_msg_bytes` and `batch_msg_bytes` -/
def bytes : L2Message TxEnvelope → List UInt8
  | signedTx envelope => l2MsgKindSignedTx :: codec.encode2718 envelope
  | batch messages => l2MsgKindBatch :: segments messages

/-- Each message behind its length as a big-endian `u64`. -/
def segments : List (L2Message TxEnvelope) → List UInt8
  | [] => []
  | message :: messages => beBytes 8 message.bytes.length ++ message.bytes ++ segments messages

end

mutual

/-- The signed transactions, depth first. -/
def signedTxs : L2Message TxEnvelope → List TxEnvelope
  | signedTx envelope => [envelope]
  | batch messages => allSignedTxs messages

def allSignedTxs : List (L2Message TxEnvelope) → List TxEnvelope
  | [] => []
  | message :: messages => message.signedTxs ++ allSignedTxs messages

end

mutual

/-- The number of batches around the innermost message. -/
def depth : L2Message TxEnvelope → ℕ
  | signedTx _ => 0
  | batch messages => maxDepth messages + 1

def maxDepth : List (L2Message TxEnvelope) → ℕ
  | [] => 0
  | message :: messages => max message.depth (maxDepth messages)

end

mutual

/-- No segment of the message is longer than `MAX_L2_MESSAGE_SIZE`. -/
def segmentsFit : L2Message TxEnvelope → Bool
  | signedTx _ => true
  | batch messages => allFit messages

def allFit : List (L2Message TxEnvelope) → Bool
  | [] => true
  | message :: messages => (message.bytes codec).length ≤ maxL2MessageSize &&
      message.segmentsFit && allFit messages

end

end L2Message

/-- `wrap_l2_bytes` -/
def wrapL2Bytes (base64 : Base64) (bytes : List UInt8) : Json :=
  .object [("l2Msg", .string (base64.encode bytes))]

/-- `wrap_message_with_metadata_l2_bytes`, the live shape, with any other members of the
header. -/
def wrapMessageWithMetadataL2Bytes (base64 : Base64) (bytes : List UInt8)
    (header : List (String × Json)) (delayedMessagesRead : ℕ) : Json :=
  .object [("message",
      .object [("header", .object (("kind", .number l1MessageTypeL2Message) :: header)),
        ("l2Msg", .string (base64.encode bytes))]),
    ("delayedMessagesRead", .number delayedMessagesRead)]

end Degenbot.SequencerFeed
