import Degenbot.Algorithm.SequencerFeed
import Degenbot.Library.Outcome

/-! # Message trees through the feed

A message is decoded to its signed transactions in depth-first order; whatever follows the
segments of a batch is decoded after them. -/

namespace Degenbot.SequencerFeed

open Library

variable {TxEnvelope : Type} {codec : Eip2718 TxEnvelope}

/-! ## Segments -/

/-- The loop takes one segment at a time. -/
theorem decodeSegments_segment {message rest : List UInt8} {depth : ℕ} {out out' : List TxEnvelope}
    (hfits : message.length ≤ maxL2MessageSize)
    (hmessage : decodeL2MessageBytes codec message (depth + 1) out = (.ok (), out')) :
    decodeSegments codec (beBytes 8 message.length ++ message ++ rest) depth out =
      decodeSegments codec rest depth out' := by
  have hhead : (beBytes 8 message.length ++ message ++ rest).take 8 =
      beBytes 8 message.length := by
    rw [List.append_assoc]
    exact List.take_left' (length_beBytes 8 _)
  have hafter : (beBytes 8 message.length ++ message ++ rest).drop 8 = message ++ rest := by
    rw [List.append_assoc]
    exact List.drop_left' (length_beBytes 8 _)
  have hlength : beValue (beBytes 8 message.length) = message.length := by
    apply beValue_beBytes_of_lt
    unfold maxL2MessageSize at hfits
    omega
  rw [decodeSegments, dif_neg (by simp)]
  simp only [hhead, hafter, hlength]
  rw [if_neg (by omega), if_neg (by simp), List.take_left' rfl, List.drop_left' rfl]
  simp only [hmessage]

/-- A batch that ends. -/
theorem decodeSegments_short {rest : List UInt8} (h : rest.length < 8) (depth : ℕ)
    (out : List TxEnvelope) : decodeSegments codec rest depth out = (.ok (), out) := by
  rw [decodeSegments, dif_pos h]

/-! ## Trees -/

mutual

theorem decode_bytes (message : L2Message TxEnvelope) (depth : ℕ) (out : List TxEnvelope)
    (hdepth : depth + message.depth ≤ maxBatchDepth) (hfit : message.segmentsFit codec = true) :
    decodeL2MessageBytes codec (message.bytes codec) depth out =
      (.ok (), out ++ message.signedTxs) := by
  cases message with
  | signedTx envelope =>
      rw [L2Message.bytes, decodeL2MessageBytes, if_pos rfl]
      simp only [codec.decode_encode, L2Message.signedTxs]
  | batch messages =>
      simp only [L2Message.depth] at hdepth
      simp only [L2Message.segmentsFit] at hfit
      have hnot : ¬(depth ≥ maxBatchDepth) := by omega
      have hsegments := decode_segments messages [] depth out (by omega) hfit
      rw [L2Message.bytes, decodeL2MessageBytes, if_neg (by decide), if_pos rfl, if_neg hnot]
      rw [List.append_nil] at hsegments
      rw [hsegments, decodeSegments_short (by simp), L2Message.signedTxs]

/-- The segments of a batch, before any bytes. -/
theorem decode_segments (messages : List (L2Message TxEnvelope)) (rest : List UInt8) (depth : ℕ)
    (out : List TxEnvelope) (hdepth : depth + L2Message.maxDepth messages + 1 ≤ maxBatchDepth)
    (hfit : L2Message.allFit codec messages = true) :
    decodeSegments codec (L2Message.segments codec messages ++ rest) depth out =
      decodeSegments codec rest depth (out ++ L2Message.allSignedTxs messages) := by
  cases messages with
  | nil => simp [L2Message.segments, L2Message.allSignedTxs]
  | cons message messages =>
      simp only [L2Message.maxDepth] at hdepth
      simp only [L2Message.allFit, Bool.and_eq_true, decide_eq_true_eq] at hfit
      obtain ⟨⟨hlength, hmessage⟩, hmessages⟩ := hfit
      have hhead := decode_bytes message (depth + 1) out (by omega) hmessage
      have htail := decode_segments messages rest depth (out ++ message.signedTxs) (by omega)
        hmessages
      rw [L2Message.segments, List.append_assoc, decodeSegments_segment hlength hhead, htail,
        L2Message.allSignedTxs, List.append_assoc]

end

/-! ## Arbitrary bytes -/

mutual

/-- Envelopes are only pushed, whatever the bytes are. -/
theorem decode_prefix (codec : Eip2718 TxEnvelope) (bytes : List UInt8) (depth : ℕ)
    (out : List TxEnvelope) :
    ∃ envelopes, (decodeL2MessageBytes codec bytes depth out).2 = out ++ envelopes := by
  cases bytes with
  | nil => exact ⟨[], by simp [decodeL2MessageBytes]⟩
  | cons kind payload =>
      rw [decodeL2MessageBytes]
      split
      case isTrue =>
        cases codec.decode2718 payload with
        | error e => exact ⟨[], (List.append_nil out).symm⟩
        | ok result => exact ⟨[result.1], rfl⟩
      case isFalse =>
        split
        case isTrue =>
          split
          case isTrue => exact ⟨[], (List.append_nil out).symm⟩
          case isFalse => exact segments_prefix codec payload depth out
        case isFalse =>
          refine ⟨[], ?_⟩
          split
          case isTrue => exact (List.append_nil out).symm
          case isFalse => split <;> exact (List.append_nil out).symm
termination_by bytes.length

theorem segments_prefix (codec : Eip2718 TxEnvelope) (rest : List UInt8) (depth : ℕ)
    (out : List TxEnvelope) :
    ∃ envelopes, (decodeSegments codec rest depth out).2 = out ++ envelopes := by
  rw [decodeSegments]
  split
  case isTrue => exact ⟨[], (List.append_nil out).symm⟩
  case isFalse hlength =>
    simp only
    split
    case isTrue => exact ⟨[], (List.append_nil out).symm⟩
    case isFalse =>
      split
      case isTrue => exact ⟨[], (List.append_nil out).symm⟩
      case isFalse =>
        obtain ⟨envelopes, hmessage⟩ := decode_prefix codec
          ((rest.drop 8).take (beValue (rest.take 8))) (depth + 1) out
        split
        case h_1 e out' herror =>
          rw [herror] at hmessage
          exact ⟨envelopes, hmessage⟩
        case h_2 out' hok =>
          rw [hok] at hmessage
          obtain ⟨envelopes', hrest⟩ := segments_prefix codec
            ((rest.drop 8).drop (beValue (rest.take 8))) depth out'
          refine ⟨envelopes ++ envelopes', ?_⟩
          rw [hrest, ← List.append_assoc]
          exact congrArg (· ++ envelopes') hmessage
termination_by rest.length
decreasing_by
  · simp only [List.length_take, List.length_drop]
    omega
  · simp only [List.length_drop]
    omega

end

/-! ## Main result -/

theorem decodeL2SignedTxs_of_bytes {base64 : Base64} {message : Json} {bytes : List UInt8}
    {envelopes : List TxEnvelope} (hextract : extractL2MsgB64 message = .ok (base64.encode bytes))
    (hdecode : decodeL2MessageBytes codec bytes 0 [] = (.ok (), envelopes)) :
    decodeL2SignedTxs codec base64 message = .ok envelopes := by
  simp only [decodeL2SignedTxs, hextract, ok_bind, base64.decode_encode, hdecode]

/-- A tree within the limits is decoded to its signed transactions, in order, and on any
bytes at all the decoder returns with a list of envelopes. -/
theorem decode_roundTrip (codec : Eip2718 TxEnvelope) (base64 : Base64)
    (message : L2Message TxEnvelope) (hdepth : message.depth ≤ maxBatchDepth)
    (hfit : message.segmentsFit codec = true) :
    decodeL2SignedTxs codec base64 (wrapL2Bytes base64 (message.bytes codec)) =
        .ok message.signedTxs ∧
    (∀ header delayedMessagesRead, decodeL2SignedTxs codec base64
      (wrapMessageWithMetadataL2Bytes base64 (message.bytes codec) header delayedMessagesRead) =
        .ok message.signedTxs) ∧
    ∀ bytes depth out, ∃ outcome envelopes,
      decodeL2MessageBytes codec bytes depth out = (outcome, out ++ envelopes) := by
  have hdecode : decodeL2MessageBytes codec (message.bytes codec) 0 [] =
      (.ok (), message.signedTxs) :=
    decode_bytes message 0 [] (by omega) hfit
  refine ⟨decodeL2SignedTxs_of_bytes rfl hdecode, ?_, ?_⟩
  · intro header delayedMessagesRead
    exact decodeL2SignedTxs_of_bytes rfl hdecode
  · intro bytes depth out
    obtain ⟨envelopes, henvelopes⟩ := decode_prefix codec bytes depth out
    exact ⟨_, envelopes, Prod.ext rfl henvelopes⟩

/-- One legacy transaction and its bytes; the codec of a feed that carries nothing else. -/
def legacyTx : List UInt8 :=
  [0xf8, 0x6c, 0x09, 0x85, 0x04, 0xa8, 0x17, 0xc8, 0x00, 0x82, 0x52, 0x08, 0x94, 0x35, 0x35, 0x35,
    0x35, 0x35, 0x35, 0x35, 0x35, 0x35, 0x35, 0x35, 0x35, 0x35, 0x35, 0x35, 0x35, 0x35, 0x35, 0x35,
    0x35, 0x88, 0x0d, 0xe0, 0xb6, 0xb3, 0xa7, 0x64, 0x00, 0x00, 0x80, 0x25, 0xa0, 0x28, 0xef, 0x61,
    0x34, 0x0b, 0xd9, 0x39, 0xbc, 0x21, 0x95, 0xfe, 0x53, 0x75, 0x67, 0x86, 0x60, 0x03, 0xe1, 0xa1,
    0x5d, 0x3c, 0x71, 0xff, 0x63, 0xe1, 0x59, 0x06, 0x20, 0xaa, 0x63, 0x62, 0x76, 0xa0, 0x67, 0xcb,
    0xe9, 0xd8, 0x99, 0x7f, 0x76, 0x1a, 0xec, 0xb7, 0x03, 0x30, 0x4b, 0x38, 0x00, 0xcc, 0xf5, 0x55,
    0xc9, 0xf3, 0xdc, 0x64, 0x21, 0x4b, 0x29, 0x7f, 0xb1, 0x96, 0x6a, 0x3b, 0x6d, 0x83]

def legacyCodec : Eip2718 Unit where
  encode2718 _ := legacyTx
  decode2718 data :=
    if data.take legacyTx.length = legacyTx then .ok ((), data.drop legacyTx.length)
    else .error "unexpected type"
  decode_encode _ := rfl

def standardBase64 : Base64 :=
  ⟨Library.Base64.encode, Library.Base64.decode, Library.Base64.decode_encode⟩

/-- A transaction beside a batch of two more. -/
def nestedBatch : L2Message Unit := .batch [.signedTx (), .batch [.signedTx (), .signedTx ()]]

theorem decode_roundTrip_nestedBatch :
    decodeL2SignedTxs legacyCodec standardBase64
        (wrapL2Bytes standardBase64 (nestedBatch.bytes legacyCodec)) = .ok [(), (), ()] :=
  (decode_roundTrip legacyCodec standardBase64 nestedBatch (by decide) (by decide +kernel)).1

/-! ## Where envelopes come from -/

/-- Parts of `bytes` in order and without overlap, each after at least one byte of framing. -/
inductive Carved : List UInt8 → List (List UInt8) → Prop where
  | nil (bytes : List UInt8) : Carved bytes []
  | cons {gap part rest : List UInt8} {parts : List (List UInt8)} (hgap : gap ≠ [])
      (h : Carved rest parts) : Carved (gap ++ part ++ rest) (part :: parts)

theorem Carved.after {bytes : List UInt8} {parts : List (List UInt8)} (before : List UInt8)
    (h : Carved bytes parts) : Carved (before ++ bytes) parts := by
  cases h with
  | nil => exact .nil _
  | @cons gap part rest parts hgap h =>
      have hparts : Carved ((before ++ gap) ++ part ++ rest) (part :: parts) :=
        .cons (by simp [hgap]) h
      simpa only [List.append_assoc] using hparts

theorem Carved.append {bytes bytes' : List UInt8} {parts parts' : List (List UInt8)}
    (h : Carved bytes parts) (h' : Carved bytes' parts') :
    Carved (bytes ++ bytes') (parts ++ parts') := by
  induction h with
  | nil bytes => exact h'.after bytes
  | cons hgap _ ih =>
      rw [List.append_assoc, List.cons_append]
      exact .cons hgap ih

theorem Carved.length_le {bytes : List UInt8} {parts : List (List UInt8)}
    (h : Carved bytes parts) : parts.length ≤ bytes.length := by
  induction h with
  | nil => simp
  | cons hgap _ ih =>
      have hpos := List.length_pos_of_ne_nil hgap
      simp only [List.length_cons, List.length_append]
      omega

/-- `pushed` are the envelopes of parts of `bytes`. -/
structure Sourced (codec : Eip2718 TxEnvelope) (bytes : List UInt8) (parts : List (List UInt8))
    (pushed : List TxEnvelope) : Prop where
  carved : Carved bytes parts
  decoded : List.Forall₂ (fun part envelope => ∃ unread,
    codec.decode2718 part = .ok (envelope, unread)) parts pushed

theorem Sourced.nil (codec : Eip2718 TxEnvelope) (bytes : List UInt8) :
    Sourced codec bytes [] [] := ⟨.nil bytes, .nil⟩

mutual

theorem decode_sourced (codec : Eip2718 TxEnvelope) (bytes : List UInt8) (depth : ℕ)
    (out : List TxEnvelope) :
    ∃ parts pushed, (decodeL2MessageBytes codec bytes depth out).2 = out ++ pushed ∧
      Sourced codec bytes parts pushed := by
  have hnone : ∀ {outcome : Except DecodeError Unit}, ∃ parts pushed,
      ((outcome, out) : Except DecodeError Unit × List TxEnvelope).2 = out ++ pushed ∧
        Sourced codec bytes parts pushed :=
    ⟨[], [], (List.append_nil out).symm, .nil codec bytes⟩
  cases bytes with
  | nil =>
      rw [decodeL2MessageBytes]
      exact hnone
  | cons kind payload =>
      rw [decodeL2MessageBytes]
      split
      case isTrue =>
        cases hdecode : codec.decode2718 payload with
        | error e => exact hnone
        | ok result =>
            refine ⟨[payload], [result.1], rfl, ?_, .cons ⟨result.2, hdecode⟩ .nil⟩
            have hcarved : Carved ([kind] ++ payload ++ []) [payload] :=
              .cons (List.cons_ne_nil _ _) (.nil _)
            simpa using hcarved
      case isFalse =>
        split
        case isTrue =>
          split
          case isTrue => exact hnone
          case isFalse =>
            obtain ⟨parts, pushed, hout, hsourced⟩ := segments_sourced codec payload depth out
            exact ⟨parts, pushed, hout, hsourced.carved.after [kind], hsourced.decoded⟩
        case isFalse =>
          split
          case isTrue => exact hnone
          case isFalse => split <;> exact hnone
termination_by bytes.length

theorem segments_sourced (codec : Eip2718 TxEnvelope) (rest : List UInt8) (depth : ℕ)
    (out : List TxEnvelope) :
    ∃ parts pushed, (decodeSegments codec rest depth out).2 = out ++ pushed ∧
      Sourced codec rest parts pushed := by
  have hnone : ∀ {outcome : Except DecodeError Unit}, ∃ parts pushed,
      ((outcome, out) : Except DecodeError Unit × List TxEnvelope).2 = out ++ pushed ∧
        Sourced codec rest parts pushed :=
    ⟨[], [], (List.append_nil out).symm, .nil codec rest⟩
  rw [decodeSegments]
  split
  case isTrue => exact hnone
  case isFalse hlength =>
    simp only
    split
    case isTrue => exact hnone
    case isFalse =>
      split
      case isTrue => exact hnone
      case isFalse =>
        obtain ⟨parts, pushed, hmessage, hsourced⟩ := decode_sourced codec
          ((rest.drop 8).take (beValue (rest.take 8))) (depth + 1) out
        have hsplit : rest.take 8 ++ ((rest.drop 8).take (beValue (rest.take 8)) ++
            (rest.drop 8).drop (beValue (rest.take 8))) = rest := by
          rw [List.take_append_drop, List.take_append_drop]
        split
        case h_1 e out' herror =>
          rw [herror] at hmessage
          refine ⟨parts, pushed, hmessage, ?_, hsourced.decoded⟩
          have hcarved := (hsourced.carved.append
            (.nil ((rest.drop 8).drop (beValue (rest.take 8))))).after (rest.take 8)
          rwa [hsplit, List.append_nil] at hcarved
        case h_2 out' hok =>
          rw [hok] at hmessage
          obtain ⟨parts', pushed', hrest, hsourced'⟩ := segments_sourced codec
            ((rest.drop 8).drop (beValue (rest.take 8))) depth out'
          refine ⟨parts ++ parts', pushed ++ pushed', ?_, ?_,
            List.rel_append hsourced.decoded hsourced'.decoded⟩
          · rw [hrest, ← List.append_assoc]
            exact congrArg (· ++ pushed') hmessage
          · have hcarved := (hsourced.carved.append hsourced'.carved).after (rest.take 8)
            rwa [hsplit] at hcarved
termination_by rest.length
decreasing_by
  all_goals
    simp only [List.length_take, List.length_drop]
    omega

end

/-- Whatever the bytes are and however the decoder ends, every envelope it has pushed was read
from a part of the bytes of its own, in the order of the parts. -/
theorem decodeL2MessageBytes_sourced (codec : Eip2718 TxEnvelope) (bytes : List UInt8)
    (depth : ℕ) (out : List TxEnvelope) :
    ∃ parts pushed, (decodeL2MessageBytes codec bytes depth out).2 = out ++ pushed ∧
      Sourced codec bytes parts pushed ∧ pushed.length ≤ bytes.length := by
  obtain ⟨parts, pushed, hout, hsourced⟩ := decode_sourced codec bytes depth out
  refine ⟨parts, pushed, hout, hsourced, ?_⟩
  rw [← hsourced.decoded.length_eq]
  exact hsourced.carved.length_le

end Degenbot.SequencerFeed
