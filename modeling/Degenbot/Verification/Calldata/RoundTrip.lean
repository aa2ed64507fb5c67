import Degenbot.Verification.Calldata.Reads

/-! # Round trips of the frontrun codecs

What an encoder returns, its decoder reads back. The decoder of the universal router returns
classified commands, one for each command that has an input. -/

namespace Degenbot.FrontrunCalldata

open Library Library.HeadTail Library.Abi Abi

variable {target : Target} {data : List UInt8}

/-! ## Framing -/

theorem vec_eq_ok {bytes : List UInt8} :
    target.vec bytes = .ok data ↔ data = bytes ∧ bytes.length ≤ target.isizeMax := by
  unfold Target.vec
  split
  · simp [*, eq_comm]
  · simp [*]

theorem selectorOf_append {selector : List UInt8} (h : selector.length = 4) (body : List UInt8) :
    selectorOf (selector ++ body) = .ok selector := by
  have htake : (selector ++ body).take 4 = selector := List.take_left' h
  simp [selectorOf, htake, h]

theorem bodyFrom_append (front body : List UInt8) :
    bodyFrom (front ++ body) front.length = .ok body := by
  simp [bodyFrom, slice]

theorem functionBody_append {selector : List UInt8} (h : selector.length = 4)
    (body : List UInt8) : functionBody (selector ++ body) = .ok body := by
  have hbody := bodyFrom_append selector body
  rwa [h] at hbody

theorem skipWord {rest segment : List UInt8} {offset n : ℕ} (h : SegmentAt rest offset segment) :
    SegmentAt (word n ++ rest) (offset + 32) segment := by
  have hskip := h.skip (word n)
  rwa [length_word, Nat.add_comm] at hskip

/-! ## Fixed heads -/

theorem decode_encodeV3ExactInputSingle {params : V3ExactInputSingleParams}
    (hfee : params.fee.toNat < 2 ^ 24) (hlimit : params.sqrtPriceLimitX96.toNat < 2 ^ 160)
    (h : encodeV3ExactInputSingle target params = .ok data) :
    decodeV3ExactInputSingle target data = .ok params := by
  obtain ⟨rfl, hfits⟩ := vec_eq_ok.mp h
  simp only [pushAddressWord_eq, pushU256Word_eq, word_toNat_ofUsize, List.append_assoc] at hfits ⊢
  set body := word params.tokenIn.toNat ++ (word params.tokenOut.toNat ++ (word params.fee.toNat ++
    (word params.recipient.toNat ++ (word params.deadline.toNat ++ (word params.amountIn.toNat ++
    (word params.amountOutMinimum.toNat ++ word params.sqrtPriceLimitX96.toNat)))))) with hbody
  have hdata : body.length ≤ target.isizeMax := by
    rw [List.length_append] at hfits
    omega
  have hselector : selectorOf (v3ExactInputSingle ++ body) = .ok v3ExactInputSingle :=
    selectorOf_append rfl body
  have hfunction : functionBody (v3ExactInputSingle ++ body) = .ok body :=
    functionBody_append rfl body
  have htokenIn : SegmentAt body 0 (word params.tokenIn.toNat) := .head _ _
  have htokenOut : SegmentAt body 32 (word params.tokenOut.toNat) := skipWord (.head _ _)
  have hfee' : SegmentAt body 64 (word params.fee.toNat) := skipWord (skipWord (.head _ _))
  have hrecipient : SegmentAt body 96 (word params.recipient.toNat) :=
    skipWord (skipWord (skipWord (.head _ _)))
  have hdeadline : SegmentAt body 128 (word params.deadline.toNat) :=
    skipWord (skipWord (skipWord (skipWord (.head _ _))))
  have hamountIn : SegmentAt body 160 (word params.amountIn.toNat) :=
    skipWord (skipWord (skipWord (skipWord (skipWord (.head _ _)))))
  have hamountOut : SegmentAt body 192 (word params.amountOutMinimum.toNat) :=
    skipWord (skipWord (skipWord (skipWord (skipWord (skipWord (.head _ _))))))
  have hlimit' : SegmentAt body 224 (word params.sqrtPriceLimitX96.toNat) :=
    skipWord (skipWord (skipWord (skipWord (skipWord (skipWord (skipWord (.whole _)))))))
  simp only [decodeV3ExactInputSingle, hselector, hfunction, ok_bind, if_true, readAddress_eq hdata htokenIn, readAddress_eq hdata htokenOut,
    readU24_eq hdata hfee hfee', readAddress_eq hdata hrecipient, readU256_eq hdata hdeadline,
    readU256_eq hdata hamountIn, readU256_eq hdata hamountOut,
    readU160AsU256_eq hdata hlimit hlimit']

theorem decode_encodeAaveV3LiquidationCall {params : AaveLiquidationCallParams}
    (h : encodeAaveV3LiquidationCall target params.collateralAsset params.debtAsset params.user
      params.debtToCover params.receiveAToken = .ok data) :
    decodeAaveV3LiquidationCall target data = .ok params := by
  obtain ⟨rfl, hfits⟩ := vec_eq_ok.mp h
  simp only [pushAddressWord_eq, pushU256Word_eq, pushBoolWord_eq, List.append_assoc] at hfits ⊢
  set body := word params.collateralAsset.toNat ++ (word params.debtAsset.toNat ++
    (word params.user.toNat ++ (word params.debtToCover.toNat ++
    word params.receiveAToken.toNat))) with hbody
  have hdata : body.length ≤ target.isizeMax := by
    rw [List.length_append] at hfits
    omega
  have hselector : selectorOf (aaveV3LiquidationCall ++ body) = .ok aaveV3LiquidationCall :=
    selectorOf_append rfl body
  have hfunction : functionBody (aaveV3LiquidationCall ++ body) = .ok body :=
    functionBody_append rfl body
  have hcollateral : SegmentAt body 0 (word params.collateralAsset.toNat) := .head _ _
  have hdebt : SegmentAt body 32 (word params.debtAsset.toNat) := skipWord (.head _ _)
  have huser : SegmentAt body 64 (word params.user.toNat) := skipWord (skipWord (.head _ _))
  have hcover : SegmentAt body 96 (word params.debtToCover.toNat) :=
    skipWord (skipWord (skipWord (.head _ _)))
  have hreceive : SegmentAt body 128 (word params.receiveAToken.toNat) :=
    skipWord (skipWord (skipWord (skipWord (.whole _))))
  simp only [decodeAaveV3LiquidationCall, hselector, hfunction, ok_bind, ne_eq, not_true_eq_false,
    if_false, readAddress_eq hdata hcollateral, readAddress_eq hdata hdebt,
    readAddress_eq hdata huser, readU256_eq hdata hcover, readBool_eq hdata hreceive]

/-! ## One dynamic tail -/

theorem decode_encodeV2SwapExactTokensForTokens {params : V2SwapExactInParams}
    (h : encodeV2SwapExactTokensForTokens target params.amountIn params.amountOutMin params.path
      params.toAddress params.deadline = .ok data) :
    decodeV2SwapExactTokensForTokens target data = .ok params := by
  obtain ⟨_, hvec⟩ := ite_error_eq_ok.mp h
  obtain ⟨rfl, hfits⟩ := vec_eq_ok.mp hvec
  simp only [pushAddressWord_eq params.toAddress, pushU256Word_eq, word_toNat_ofUsize,
    List.append_assoc] at hfits ⊢
  set body := word params.amountIn.toNat ++ (word params.amountOutMin.toNat ++ (word 0xa0 ++
    (word params.toAddress.toNat ++ (word params.deadline.toNat ++ (word params.path.length ++
    params.path.flatMap pushAddressWord))))) with hbody
  have hdata : body.length ≤ target.isizeMax := by
    rw [List.length_append] at hfits
    omega
  have hselector : selectorOf (v2SwapExactTokensForTokens ++ body) =
      .ok v2SwapExactTokensForTokens := selectorOf_append rfl body
  have hfunction : functionBody (v2SwapExactTokensForTokens ++ body) = .ok body :=
    functionBody_append rfl body
  have hamountIn : SegmentAt body 0 (word params.amountIn.toNat) := .head _ _
  have hamountOut : SegmentAt body 32 (word params.amountOutMin.toNat) := skipWord (.head _ _)
  have hoffset : SegmentAt body 64 (word 0xa0) := skipWord (skipWord (.head _ _))
  have hto : SegmentAt body 96 (word params.toAddress.toNat) :=
    skipWord (skipWord (skipWord (.head _ _)))
  have hdeadline : SegmentAt body 128 (word params.deadline.toNat) :=
    skipWord (skipWord (skipWord (skipWord (.head _ _))))
  have hpath : SegmentAt body 0xa0 (word params.path.length ++
      params.path.flatMap pushAddressWord) :=
    skipWord (skipWord (skipWord (skipWord (skipWord (.whole _)))))
  have hpathOffset := readU256Usize_eq hdata (show 0xa0 ≤ target.usizeMax by
    cases target <;> decide) hoffset
  simp only [decodeV2SwapExactTokensForTokens, hselector, hfunction, ok_bind, ne_eq,
    not_true_eq_false, if_false, readU256_eq hdata hamountIn, readU256_eq hdata hamountOut,
    hpathOffset, readAddressArray_eq hdata hpath, readAddress_eq hdata hto,
    readU256_eq hdata hdeadline]

theorem decode_encodeV3ExactInput {params : V3ExactInputParams}
    (h : encodeV3ExactInput target params = .ok data) :
    decodeV3ExactInput target data = .ok params := by
  obtain ⟨rfl, hfits⟩ := vec_eq_ok.mp h
  simp only [pushAddressWord_eq, pushU256Word_eq, pushBytesTail_eq, word_toNat_ofUsize,
    List.append_assoc] at hfits ⊢
  set body := word 0xa0 ++ (word params.recipient.toNat ++ (word params.deadline.toNat ++
    (word params.amountIn.toNat ++ (word params.amountOutMinimum.toNat ++
    bytesTail params.path)))) with hbody
  have hdata : body.length ≤ target.isizeMax := by
    rw [List.length_append, List.length_append] at hfits
    omega
  have hselector : selectorOf (v3ExactInput ++ (word 0x20 ++ body)) = .ok v3ExactInput :=
    selectorOf_append rfl _
  have htuple : bodyFrom (v3ExactInput ++ (word 0x20 ++ body)) 36 = .ok body := by
    rw [← List.append_assoc]
    exact bodyFrom_append (v3ExactInput ++ word 0x20) body
  have hoffset : SegmentAt body 0 (word 0xa0) := .head _ _
  have hrecipient : SegmentAt body 32 (word params.recipient.toNat) := skipWord (.head _ _)
  have hdeadline : SegmentAt body 64 (word params.deadline.toNat) :=
    skipWord (skipWord (.head _ _))
  have hamountIn : SegmentAt body 96 (word params.amountIn.toNat) :=
    skipWord (skipWord (skipWord (.head _ _)))
  have hamountOut : SegmentAt body 128 (word params.amountOutMinimum.toNat) :=
    skipWord (skipWord (skipWord (skipWord (.head _ _))))
  have hpath : SegmentAt body 0xa0 (bytesTail params.path) :=
    skipWord (skipWord (skipWord (skipWord (skipWord (.whole _)))))
  have hpathOffset := readU256Usize_eq hdata (show 0xa0 ≤ target.usizeMax by
    cases target <;> decide) hoffset
  simp only [decodeV3ExactInput, hselector, htuple, ok_bind, if_true, hpathOffset,
    readBytes_eq hdata hpath, readAddress_eq hdata hrecipient, readU256_eq hdata hdeadline,
    readU256_eq hdata hamountIn, readU256_eq hdata hamountOut]

/-- The second router has no deadline. -/
theorem decode_encodeV3ExactInput02 {path : List UInt8} {recipient : Address}
    {amountIn amountOutMinimum : U256}
    (h : encodeV3ExactInput02 target path recipient amountIn amountOutMinimum = .ok data) :
    decodeV3ExactInput target data =
      .ok { path, recipient, deadline := 0, amountIn, amountOutMinimum } := by
  obtain ⟨rfl, hfits⟩ := vec_eq_ok.mp h
  simp only [pushAddressWord_eq, pushU256Word_eq, pushBytesTail_eq, word_toNat_ofUsize,
    List.append_assoc] at hfits ⊢
  set body := word 0x80 ++ (word recipient.toNat ++ (word amountIn.toNat ++
    (word amountOutMinimum.toNat ++ bytesTail path))) with hbody
  have hdata : body.length ≤ target.isizeMax := by
    rw [List.length_append, List.length_append] at hfits
    omega
  have hselector : selectorOf (v3ExactInput02 ++ (word 0x20 ++ body)) = .ok v3ExactInput02 :=
    selectorOf_append rfl _
  have hother : ¬ v3ExactInput02 = v3ExactInput := by decide
  have htuple : bodyFrom (v3ExactInput02 ++ (word 0x20 ++ body)) 36 = .ok body := by
    rw [← List.append_assoc]
    exact bodyFrom_append (v3ExactInput02 ++ word 0x20) body
  have hoffset : SegmentAt body 0 (word 0x80) := .head _ _
  have hrecipient : SegmentAt body 32 (word recipient.toNat) := skipWord (.head _ _)
  have hamountIn : SegmentAt body 64 (word amountIn.toNat) := skipWord (skipWord (.head _ _))
  have hamountOut : SegmentAt body 96 (word amountOutMinimum.toNat) :=
    skipWord (skipWord (skipWord (.head _ _)))
  have hpath : SegmentAt body 0x80 (bytesTail path) :=
    skipWord (skipWord (skipWord (skipWord (.whole _))))
  have hpathOffset := readU256Usize_eq hdata (show 0x80 ≤ target.usizeMax by
    cases target <;> decide) hoffset
  simp only [decodeV3ExactInput, hselector, htuple, ok_bind, if_neg hother, if_true, hpathOffset,
    readBytes_eq hdata hpath, readAddress_eq hdata hrecipient, readU256_eq hdata hamountIn,
    readU256_eq hdata hamountOut]

/-! ## The universal router -/

theorem decode_encodeUrExecute {commands : List UInt8} {inputs : List (List UInt8)}
    {deadline : U256} (h : encodeUrExecute target commands inputs deadline = .ok data) :
    decodeUrExecute target data = .ok (commandSteps commands inputs, deadline) := by
  obtain ⟨rfl, hfits⟩ := vec_eq_ok.mp h
  simp only [pushU256Word_eq, pushBytesTail_eq, word_toNat_ofUsize, List.append_assoc] at hfits ⊢
  set inputsOffset := 0x60 + encodedBytesLen commands.length with hinputsOffset
  set body := word 0x60 ++ (word inputsOffset ++ (word deadline.toNat ++ (bytesTail commands ++
    pushBytesArrayTail inputs))) with hbody
  have hdata : body.length ≤ target.isizeMax := by
    rw [List.length_append] at hfits
    omega
  have hselector : selectorOf (urExecute ++ body) = .ok urExecute := selectorOf_append rfl body
  have hfunction : functionBody (urExecute ++ body) = .ok body := functionBody_append rfl body
  have hoffset : SegmentAt body 0 (word 0x60) := .head _ _
  have hoffset' : SegmentAt body 32 (word inputsOffset) := skipWord (.head _ _)
  have hdeadline : SegmentAt body 64 (word deadline.toNat) := skipWord (skipWord (.head _ _))
  have htail : SegmentAt body 0x60 (bytesTail commands ++ pushBytesArrayTail inputs) :=
    skipWord (skipWord (skipWord (.whole _)))
  have hinputs : SegmentAt body inputsOffset (pushBytesArrayTail inputs) := by
    have hright := htail.right
    rwa [length_bytesTail] at hright
  have hend := hinputs.le_length
  have hmax := target.isizeMax_le
  have hcommandsOffset := readU256Usize_eq hdata (show 0x60 ≤ target.usizeMax by
    cases target <;> decide) hoffset
  have hinputsRead := readU256Usize_eq hdata (show inputsOffset ≤ target.usizeMax by omega)
    hoffset'
  simp only [decodeUrExecute, hselector, hfunction, ok_bind, if_true, hcommandsOffset,
    readBytes_eq hdata htail.left, hinputsRead, readBytesArray_eq hdata hinputs,
    readU256_eq hdata hdeadline]

theorem decode_encodeUrExecuteNoDeadline {commands : List UInt8} {inputs : List (List UInt8)}
    (h : encodeUrExecuteNoDeadline target commands inputs = .ok data) :
    decodeUrExecute target data = .ok (commandSteps commands inputs, 0) := by
  obtain ⟨rfl, hfits⟩ := vec_eq_ok.mp h
  simp only [pushU256Word_eq, pushBytesTail_eq, word_toNat_ofUsize, List.append_assoc] at hfits ⊢
  set inputsOffset := 0x40 + encodedBytesLen commands.length with hinputsOffset
  set body := word 0x40 ++ (word inputsOffset ++ (bytesTail commands ++
    pushBytesArrayTail inputs)) with hbody
  have hdata : body.length ≤ target.isizeMax := by
    rw [List.length_append] at hfits
    omega
  have hselector : selectorOf (urExecuteNoDeadline ++ body) = .ok urExecuteNoDeadline :=
    selectorOf_append rfl body
  have hother : ¬ urExecuteNoDeadline = urExecute := by decide
  have hfunction : functionBody (urExecuteNoDeadline ++ body) = .ok body :=
    functionBody_append rfl body
  have hoffset : SegmentAt body 0 (word 0x40) := .head _ _
  have hoffset' : SegmentAt body 32 (word inputsOffset) := skipWord (.head _ _)
  have htail : SegmentAt body 0x40 (bytesTail commands ++ pushBytesArrayTail inputs) :=
    skipWord (skipWord (.whole _))
  have hinputs : SegmentAt body inputsOffset (pushBytesArrayTail inputs) := by
    have hright := htail.right
    rwa [length_bytesTail] at hright
  have hend := hinputs.le_length
  have hmax := target.isizeMax_le
  have hcommandsOffset := readU256Usize_eq hdata (show 0x40 ≤ target.usizeMax by
    cases target <;> decide) hoffset
  have hinputsRead := readU256Usize_eq hdata (show inputsOffset ≤ target.usizeMax by omega)
    hoffset'
  simp only [decodeUrExecute, hselector, hfunction, ok_bind, if_neg hother, if_true,
    hcommandsOffset, readBytes_eq hdata htail.left, hinputsRead, readBytesArray_eq hdata hinputs]

end Degenbot.FrontrunCalldata

/-! ## The universal router against the ABI

The standard counts the offsets of array elements from behind the length word. The encoder
counts them from the length word itself, so the two agree on empty arrays only. -/

namespace Degenbot.FrontrunCalldata

open Library Library.HeadTail Library.Abi Abi

variable {target : Target}

/-! ## The standard -/

/-- The arguments of `execute(bytes,bytes[],uint256)`. -/
def executeArgs (commands : List UInt8) (inputs : List (List UInt8)) (deadline : U256) :
    List Value :=
  [.bytes commands, .array (inputs.map Value.bytes), .uint 256 deadline.toNat]

def standardExecute (commands : List UInt8) (inputs : List (List UInt8)) (deadline : U256) :
    List UInt8 :=
  urExecute ++ encodeArgs (executeArgs commands inputs deadline)

/-- The encoder returns the standard calldata and the decoder reads it. -/
def MeetsStandard (target : Target) (commands : List UInt8) (inputs : List (List UInt8))
    (deadline : U256) : Prop :=
  encodeUrExecute target commands inputs deadline =
      .ok (standardExecute commands inputs deadline) ∧
    decodeUrExecute target (standardExecute commands inputs deadline) =
      .ok (commandSteps commands inputs, deadline)

/-! ## Both encodings -/

/-- The head and the commands, which the two encodings share. -/
def executeHead (commands : List UInt8) (deadline : U256) : List UInt8 :=
  urExecute ++ word 0x60 ++ word (0x60 + encodedBytesLen commands.length) ++
    word deadline.toNat ++ bytesTail commands

theorem parts_bytes (inputs : List (List UInt8)) :
    parts (inputs.map Value.bytes) =
      (inputs.map bytesTail).map fun encoding => ⟨true, encoding⟩ := by
  rw [parts_eq_map, List.map_map, List.map_map]
  refine List.map_congr_left fun input _ => ?_
  simp [Value.dynamic]

/-- The standard encoding of the inputs. -/
theorem encode_bytesArray (inputs : List (List UInt8)) :
    (Value.array (inputs.map Value.bytes)).encode = word inputs.length ++
      pushBytesArrayOffsets (inputs.length * 32) inputs ++ inputs.flatMap bytesTail := by
  have hheads (offset : ℕ) (inputs : List (List UInt8)) :
      heads offset ((inputs.map bytesTail).map fun encoding => ⟨true, encoding⟩) =
        pushBytesArrayOffsets offset inputs := by
    induction inputs generalizing offset with
    | nil => rfl
    | cons input inputs ih =>
        rw [List.map_cons, List.map_cons, heads, ih, length_bytesTail, pushBytesArrayOffsets,
          pushU256Word_eq, word_toNat_ofUsize]
  rw [Value.encode, parts_bytes, layout, headLength_dynamic, tails_dynamic, hheads,
    List.length_map, List.length_map, List.flatMap_def, List.append_assoc]

theorem standardExecute_eq (commands : List UInt8) (inputs : List (List UInt8))
    (deadline : U256) : standardExecute commands inputs deadline =
      executeHead commands deadline ++ (word inputs.length ++
        (pushBytesArrayOffsets (inputs.length * 32) inputs ++ inputs.flatMap bytesTail)) := by
  have hlength := length_bytesTail commands
  simp [standardExecute, executeArgs, encodeArgs, parts, layout, heads, tails, headLength,
    Part.headLength, Value.dynamic, encode_bytesArray, executeHead, hlength]

theorem encodeUrExecute_eq (commands : List UInt8) (inputs : List (List UInt8))
    (deadline : U256) : encodeUrExecute target commands inputs deadline =
      target.vec (executeHead commands deadline ++ (word inputs.length ++
        (pushBytesArrayOffsets (32 + inputs.length * 32) inputs ++
          inputs.flatMap bytesTail))) := by
  have hpush : pushBytesTail = bytesTail := funext pushBytesTail_eq
  simp [encodeUrExecute, executeHead, pushBytesArrayTail, hpush]

/-! ## The difference -/

/-- Offsets counted from different places differ in the first word. -/
theorem offsets_ne {inputs : List (List UInt8)} (h : inputs ≠ []) (rest : List UInt8) :
    pushBytesArrayOffsets (32 + inputs.length * 32) inputs ++ rest ≠
      pushBytesArrayOffsets (inputs.length * 32) inputs ++ rest := by
  obtain ⟨input, inputs, rfl⟩ := List.exists_cons_of_ne_nil h
  intro heq
  simp only [pushBytesArrayOffsets, pushU256Word_eq, word_toNat_ofUsize, List.append_assoc] at heq
  have hwords := word_inj (List.append_inj_left heq (by simp))
  omega

theorem length_standardExecute_eq (commands : List UInt8) (inputs : List (List UInt8))
    (deadline : U256) : (executeHead commands deadline ++ (word inputs.length ++
        (pushBytesArrayOffsets (32 + inputs.length * 32) inputs ++
          inputs.flatMap bytesTail))).length =
      (standardExecute commands inputs deadline).length := by
  simp only [standardExecute_eq, List.length_append, length_pushBytesArrayOffsets]

/-- The encoder meets the standard exactly on calls without inputs. -/
theorem meetsStandard_iff {commands : List UInt8} {inputs : List (List UInt8)} {deadline : U256}
    (hfits : (standardExecute commands inputs deadline).length ≤ target.isizeMax) :
    MeetsStandard target commands inputs deadline ↔ inputs = [] := by
  have hencode : encodeUrExecute target commands inputs deadline = .ok _ :=
    (encodeUrExecute_eq commands inputs deadline).trans
      (if_pos ((length_standardExecute_eq commands inputs deadline).le.trans hfits))
  constructor
  · rintro ⟨hstandard, _⟩
    by_contra hne
    rw [hencode, standardExecute_eq] at hstandard
    have htails := List.append_cancel_left (List.append_cancel_left (Except.ok.inj hstandard))
    exact offsets_ne hne _ htails
  · rintro rfl
    have hsame : encodeUrExecute target commands [] deadline =
        .ok (standardExecute commands [] deadline) := by
      rw [hencode, standardExecute_eq]
      rfl
    exact ⟨hsame, decode_encodeUrExecute hsame⟩

/-- One command without inputs, as `cast` would encode it. -/
theorem meetsStandard_no_inputs : MeetsStandard .host64 [0x0b] [] 99999 :=
  (meetsStandard_iff (by decide +kernel)).mpr rfl

/-- One command with one empty input: the offset of the input is 64, the standard has 32, and
the decoder takes the length word of the input for the input. -/
theorem one_input_not_standard : ¬ MeetsStandard .host64 [0x0b] [[]] 99999 ∧
    decodeUrExecute .host64 (standardExecute [0x0b] [[]] 99999) =
      .ok ([{ kind := .wrapEth, allowRevert := false, rawInput := zeros 32 }], 99999) := by
  refine ⟨fun h => ?_, by decide +kernel⟩
  have hwords : (encodeUrExecute .host64 [0x0b] [[]] 99999).map (fun data =>
      beValue ((data.drop 196).take 32)) = .ok 64 := by
    decide +kernel
  have hstandard : beValue (((standardExecute [0x0b] [[]] 99999).drop 196).take 32) = 32 := by
    decide
  rw [h.1, Except.map, hstandard] at hwords
  cases hwords

end Degenbot.FrontrunCalldata
