import Degenbot.Algorithm.ExecutorAbi
import Degenbot.Algorithm.SolverCodec
import Degenbot.Library.Outcome
import Degenbot.Verification.Calldata.Reads

/-! # Calldata of the executor

The codec and the word-by-word encoder give the standard encoding of one tuple argument. The
crate passes the fields of the tuple as separate arguments, so the offset of the tuple is
missing from its calldata. -/

namespace Degenbot

open Library Library.HeadTail Library.Abi Abi

/-! ## One dynamic argument -/

theorem encodeArgs_of_dynamic {value : Value} (h : value.dynamic) :
    encodeArgs [value] = word 32 ++ value.encode := by
  simp [encodeArgs, parts, layout, heads, tails, headLength, Part.headLength, h]

/-! ## The same parameters -/

namespace SolverCodec

/-- The record of the codec holds the parameters of the record of the crate. -/
structure SwapStep.Denotes (s : SwapStep) (step : Execution.SwapStep) : Prop where
  dexKind : s.dexKind = step.dexKind
  router : s.router = step.router
  callData : hexToBytes s.callData = .ok step.callData
  tokenIn : s.tokenIn = step.tokenIn
  tokenOut : s.tokenOut = step.tokenOut
  amountIn : s.amountIn = step.amountIn.toNat
  amountOutMin : s.amountOutMin = step.amountOutMin.toNat

structure NativeArbParams.Denotes (p : NativeArbParams) (params : Execution.NativeArbParams) :
    Prop where
  flashLender : p.flashLender = params.flashLender
  flashProtocol : p.flashProtocol.ctorIdx = params.flashProtocol.ctorIdx
  flashToken : p.flashToken = params.flashToken
  flashAmount : p.flashAmount = params.flashAmount.toNat
  swaps : List.Forall₂ SwapStep.Denotes p.swaps params.swaps
  minProfit : p.minProfit = params.minProfit.toNat
  deadline : p.deadline = params.deadline.toNat

structure MatchParams.Denotes (p : MatchParams) (params : Execution.MatchParams) : Prop where
  cowSettlementCalldata : hexToBytes p.cowSettlementCalldata = .ok params.cowSettlementCalldata
  uniswapxBatchCalldata : hexToBytes p.uniswapxBatchCalldata = .ok params.uniswapxBatchCalldata
  expectedTokenInflows : p.expectedTokenInflows = params.expectedTokenInflows
  expectedTokenInflowMin :
    p.expectedTokenInflowMin = params.expectedTokenInflowMin.map BitVec.toNat
  flashLender : p.flashLender = params.flashLender
  flashProtocol : p.flashProtocol.ctorIdx = params.flashProtocol.ctorIdx
  flashToken : p.flashToken = params.flashToken
  flashAmount : p.flashAmount = params.flashAmount.toNat
  minProfit : p.minProfit = params.minProfit.toNat
  deadline : p.deadline = params.deadline.toNat
  settlementFundingToken : p.settlementFundingToken = params.settlementFundingToken
  settlementFundingMax : p.settlementFundingMax = params.settlementFundingMax.toNat

structure ComposeParams.Denotes (p : ComposeParams) (params : Execution.ComposeParams) :
    Prop where
  acrossFillCalldata : hexToBytes p.acrossFillCalldata = .ok params.acrossFillCalldata
  arbSwaps : List.Forall₂ SwapStep.Denotes p.arbSwaps params.arbSwaps
  cowFillCalldata : hexToBytes p.cowFillCalldata = .ok params.cowFillCalldata
  uniswapxRebalanceCalldata :
    hexToBytes p.uniswapxRebalanceCalldata = .ok params.uniswapxRebalanceCalldata
  flashLender : p.flashLender = params.flashLender
  flashProtocol : p.flashProtocol.ctorIdx = params.flashProtocol.ctorIdx
  flashToken : p.flashToken = params.flashToken
  flashAmount : p.flashAmount = params.flashAmount.toNat
  minProfit : p.minProfit = params.minProfit.toNat
  deadline : p.deadline = params.deadline.toNat
  settlementFundingToken : p.settlementFundingToken = params.settlementFundingToken
  settlementFundingMax : p.settlementFundingMax = params.settlementFundingMax.toNat

end SolverCodec

namespace Execution

/-- The step as the record of the word-by-word encoder holds it. -/
def SwapStep.toStylus (step : SwapStep) : ExecutorAbi.SwapStep where
  dexKind := UInt8.ofNat step.dexKind.ctorIdx
  router := step.router
  callData := step.callData
  tokenIn := step.tokenIn
  tokenOut := step.tokenOut
  amountIn := step.amountIn
  amountOutMin := step.amountOutMin

def NativeArbParams.toStylus (params : NativeArbParams) : ExecutorAbi.NativeArbParams where
  flashLender := params.flashLender
  flashProtocol := UInt8.ofNat params.flashProtocol.ctorIdx
  flashToken := params.flashToken
  flashAmount := params.flashAmount
  swaps := params.swaps.map SwapStep.toStylus
  minProfit := params.minProfit
  deadline := params.deadline

/-! ## The codec -/

theorem swapStepToTuple_eq {s : SolverCodec.SwapStep} {step : SwapStep} (h : s.Denotes step) :
    SolverCodec.swapStepToTuple s = .ok step.toAlloy := by
  simp [SolverCodec.swapStepToTuple, SwapStep.toAlloy, h.dexKind, h.router, h.callData, h.tokenIn,
    h.tokenOut, h.amountIn, h.amountOutMin]

theorem mapM_swapStepToTuple {steps : List SolverCodec.SwapStep} {swaps : List SwapStep}
    (h : List.Forall₂ SolverCodec.SwapStep.Denotes steps swaps) :
    steps.mapM SolverCodec.swapStepToTuple = .ok (swaps.map SwapStep.toAlloy) :=
  mapM_eq_ok_of_forall₂ (h.imp fun _ _ hstep => swapStepToTuple_eq hstep)

theorem nativeArbToTuple_eq {p : SolverCodec.NativeArbParams} {params : NativeArbParams}
    (h : p.Denotes params) : SolverCodec.nativeArbToTuple p = .ok params.toAlloy := by
  simp [SolverCodec.nativeArbToTuple, NativeArbParams.toAlloy, mapM_swapStepToTuple h.swaps,
    h.flashLender, h.flashProtocol, h.flashToken, h.flashAmount, h.minProfit, h.deadline]

theorem matchParamsToTuple_eq {p : SolverCodec.MatchParams} {params : MatchParams}
    (h : p.Denotes params) : SolverCodec.matchParamsToTuple p = .ok params.toAlloy := by
  simp [SolverCodec.matchParamsToTuple, MatchParams.toAlloy, h.cowSettlementCalldata,
    h.uniswapxBatchCalldata, h.expectedTokenInflows, h.expectedTokenInflowMin, h.flashLender,
    h.flashProtocol, h.flashToken, h.flashAmount, h.minProfit, h.deadline,
    h.settlementFundingToken, h.settlementFundingMax, Function.comp_def]

theorem composeParamsToTuple_eq {p : SolverCodec.ComposeParams} {params : ComposeParams}
    (h : p.Denotes params) : SolverCodec.composeParamsToTuple p = .ok params.toAlloy := by
  simp [SolverCodec.composeParamsToTuple, ComposeParams.toAlloy, h.acrossFillCalldata,
    mapM_swapStepToTuple h.arbSwaps, h.cowFillCalldata, h.uniswapxRebalanceCalldata,
    h.flashLender, h.flashProtocol, h.flashToken, h.flashAmount, h.minProfit, h.deadline,
    h.settlementFundingToken, h.settlementFundingMax]

/-! ## Types -/

theorem admits_dexKind (kind : DexKind) : (Ty.uint 8).admits (.uint 8 kind.ctorIdx) = true :=
  admits_uint (by decide) (by cases kind <;> decide)

theorem admits_flashProtocol (protocol : FlashProtocol) :
    (Ty.uint 8).admits (.uint 8 protocol.ctorIdx) = true :=
  admits_uint (by decide) (by cases protocol <;> decide)

theorem admits_amount (amount : U256) : (Ty.uint 256).admits (.uint 256 amount.toNat) = true :=
  admits_uint le_rfl amount.isLt

theorem admits_account (account : Address) : Ty.address.admits (.address account.toNat) = true :=
  admits_address account.isLt

theorem admits_swapStep (step : SwapStep) :
    SolverCodec.swapStepType.admits step.toAlloy = true := by
  simp [SolverCodec.swapStepType, SwapStep.toAlloy, admits_dexKind, admits_amount, admits_account]

theorem admits_swapSteps {swaps : List SwapStep} (h : swaps.length < 2 ^ 256) :
    (Ty.array SolverCodec.swapStepType).admits (.array (swaps.map SwapStep.toAlloy)) = true := by
  refine admits_array (by rwa [List.length_map]) fun value hvalue => ?_
  obtain ⟨step, _, rfl⟩ := List.mem_map.mp hvalue
  exact admits_swapStep step

theorem admits_nativeArb (params : NativeArbParams) (h : params.swaps.length < 2 ^ 256) :
    SolverCodec.nativeArbTupleType.admits params.toAlloy = true := by
  simp [SolverCodec.nativeArbTupleType, NativeArbParams.toAlloy, admits_flashProtocol,
    admits_amount, admits_account, admits_swapSteps h]

theorem admits_match (params : MatchParams)
    (htokens : params.expectedTokenInflows.length < 2 ^ 256)
    (hamounts : params.expectedTokenInflowMin.length < 2 ^ 256) :
    SolverCodec.matchParamsTupleType.admits params.toAlloy = true := by
  have htokens' : (Ty.array .address).admits (.array (params.expectedTokenInflows.map
      fun token => .address token.toNat)) = true := by
    refine admits_array (by rwa [List.length_map]) fun value hvalue => ?_
    obtain ⟨token, _, rfl⟩ := List.mem_map.mp hvalue
    exact admits_account token
  have hamounts' : (Ty.array (.uint 256)).admits (.array (params.expectedTokenInflowMin.map
      fun amount => .uint 256 amount.toNat)) = true := by
    refine admits_array (by rwa [List.length_map]) fun value hvalue => ?_
    obtain ⟨amount, _, rfl⟩ := List.mem_map.mp hvalue
    exact admits_amount amount
  simp [SolverCodec.matchParamsTupleType, MatchParams.toAlloy, admits_flashProtocol,
    admits_amount, admits_account, htokens', hamounts']

theorem admits_compose (params : ComposeParams) (h : params.arbSwaps.length < 2 ^ 256) :
    SolverCodec.composeParamsTupleType.admits params.toAlloy = true := by
  simp [SolverCodec.composeParamsTupleType, ComposeParams.toAlloy, admits_flashProtocol,
    admits_amount, admits_account, admits_swapSteps h]

end Execution

/-! ## The word-by-word encoder -/

namespace ExecutorAbi

/-! The records as Solidity values. -/

def SwapStep.value (step : SwapStep) : Value :=
  .tuple [.uint 8 step.dexKind.toNat, .address step.router.toNat, .bytes step.callData,
    .address step.tokenIn.toNat, .address step.tokenOut.toNat, .uint 256 step.amountIn.toNat,
    .uint 256 step.amountOutMin.toNat]

def NativeArbParams.value (params : NativeArbParams) : Value :=
  .tuple [.address params.flashLender.toNat, .uint 8 params.flashProtocol.toNat,
    .address params.flashToken.toNat, .uint 256 params.flashAmount.toNat,
    .array (params.swaps.map SwapStep.value), .uint 256 params.minProfit.toNat,
    .uint 256 params.deadline.toNat]

def OwnedSwapsParams.value (params : OwnedSwapsParams) : Value :=
  .tuple [.array (params.swaps.map SwapStep.value), .address params.profitToken.toNat,
    .uint 256 params.minProfit.toNat, .uint 256 params.deadline.toNat]

def MatchParams.value (params : MatchParams) : Value :=
  .tuple [.bytes params.cowSettlementCalldata, .bytes params.uniswapxBatchCalldata,
    .array (params.expectedTokenInflows.map fun token => .address token.toNat),
    .array (params.expectedTokenInflowMin.map fun amount => .uint 256 amount.toNat),
    .address params.flashLender.toNat, .uint 8 params.flashProtocol.toNat,
    .address params.flashToken.toNat, .uint 256 params.flashAmount.toNat,
    .uint 256 params.minProfit.toNat, .uint 256 params.deadline.toNat]

def ComposeParams.value (params : ComposeParams) : Value :=
  .tuple [.bytes params.acrossFillCalldata, .array (params.arbSwaps.map SwapStep.value),
    .bytes params.cowFillCalldata, .bytes params.uniswapxRebalanceCalldata,
    .address params.flashLender.toNat, .uint 8 params.flashProtocol.toNat,
    .address params.flashToken.toNat, .uint 256 params.flashAmount.toNat,
    .uint 256 params.minProfit.toNat, .uint 256 params.deadline.toNat]

theorem pushOffsets_eq_heads (offset : ℕ) (encodings : List (List UInt8)) :
    pushOffsets offset encodings =
      heads offset (encodings.map fun encoding => ⟨true, encoding⟩) := by
  induction encodings generalizing offset with
  | nil => rfl
  | cons encoding encodings ih =>
      rw [pushOffsets, List.map_cons, heads, pushU256Word_eq, word_toNat_ofUsize, ih]

theorem encodeSwapStepTuple_eq (step : SwapStep) :
    encodeSwapStepTuple step = step.value.encode := by
  simp [encodeSwapStepTuple, encodeBytesTail, SwapStep.value, Value.encode, parts, layout, heads,
    tails, headLength, Part.headLength, Value.dynamic]

theorem encodeSwapStepsArray_eq (swaps : List SwapStep) :
    encodeSwapStepsArray swaps = (Value.array (swaps.map SwapStep.value)).encode := by
  have hparts : parts (swaps.map SwapStep.value) =
      (swaps.map encodeSwapStepTuple).map fun encoding => ⟨true, encoding⟩ := by
    rw [parts_eq_map, List.map_map, List.map_map]
    refine List.map_congr_left fun step _ => ?_
    simp [encodeSwapStepTuple_eq, SwapStep.value, Value.dynamic, anyDynamic]
  rw [Value.encode, hparts, layout, headLength_dynamic, tails_dynamic]
  simp only [encodeSwapStepsArray, pushOffsets_eq_heads, pushU256Word_eq, word_toNat_ofUsize,
    List.length_map, List.append_assoc]

/-- Arrays of values that take one word each. -/
theorem encode_array_of_words {α : Type} (values : List α) (value : α → Value) (n : α → ℕ)
    (hdynamic : ∀ a, (value a).dynamic = false) (hencode : ∀ a, (value a).encode = word (n a)) :
    (Value.array (values.map value)).encode =
      word values.length ++ values.flatMap fun a => word (n a) := by
  have hparts : parts (values.map value) =
      (values.map fun a => word (n a)).map fun encoding => ⟨false, encoding⟩ := by
    rw [parts_eq_map, List.map_map, List.map_map]
    refine List.map_congr_left fun a _ => ?_
    simp [hdynamic, hencode]
  rw [Value.encode, hparts, layout_static, List.length_map, List.flatMap_def]

theorem encodeAddressArray_eq (values : List Address) : encodeAddressArray values =
    (Value.array (values.map fun token => .address token.toNat)).encode := by
  rw [encode_array_of_words values _ BitVec.toNat (fun _ => rfl) fun _ => by rw [Value.encode]]
  have hpush : pushAddressWord = fun token => word token.toNat := funext pushAddressWord_eq
  simp [encodeAddressArray, hpush]

theorem encodeU256Array_eq (values : List U256) : encodeU256Array values =
    (Value.array (values.map fun amount => .uint 256 amount.toNat)).encode := by
  rw [encode_array_of_words values _ BitVec.toNat (fun _ => rfl) fun _ => by rw [Value.encode]]
  have hpush : pushU256Word = fun amount => word amount.toNat := funext pushU256Word_eq
  simp [encodeU256Array, hpush]

theorem encodeNativeArbTuple_eq (params : NativeArbParams) :
    encodeNativeArbTuple params = params.value.encode := by
  simp [encodeNativeArbTuple, NativeArbParams.value, encodeSwapStepsArray_eq, Value.encode, parts,
    layout, heads, tails, headLength, Part.headLength, Value.dynamic]

theorem encodeOwnedSwapsTuple_eq (params : OwnedSwapsParams) :
    encodeOwnedSwapsTuple params = params.value.encode := by
  simp [encodeOwnedSwapsTuple, OwnedSwapsParams.value, encodeSwapStepsArray_eq, Value.encode,
    parts, layout, heads, tails, headLength, Part.headLength, Value.dynamic]

theorem encodeMatchTuple_eq (params : MatchParams) :
    encodeMatchTuple params = params.value.encode := by
  simp [encodeMatchTuple, encodeBytesTail, MatchParams.value, encodeAddressArray_eq,
    encodeU256Array_eq, Value.encode, parts, layout, heads, tails, headLength, Part.headLength,
    Value.dynamic]

theorem encodeComposeTuple_eq (params : ComposeParams) :
    encodeComposeTuple params = params.value.encode := by
  simp [encodeComposeTuple, encodeBytesTail, ComposeParams.value, encodeSwapStepsArray_eq,
    Value.encode, parts, layout, heads, tails, headLength, Part.headLength, Value.dynamic]

/-- Every call is the selector and the standard encoding of one argument. -/
theorem encodeSingleDynamicTupleCall_eq {value : Value} (selector : List UInt8)
    (h : value.dynamic) :
    encodeSingleDynamicTupleCall selector value.encode = selector ++ encodeArgs [value] := by
  rw [encodeArgs_of_dynamic h]
  simp [encodeSingleDynamicTupleCall]

end ExecutorAbi

/-! ## Agreement -/

/-- The crate and the codec return the same calldata, the standard encoding of one argument,
and a standard decoder recovers the argument. -/
structure SameCalldata (rust : Except Execution.ExecutionError (List UInt8))
    (python : Except SolverCodec.PyError String) (selector : List UInt8) (type : Ty)
    (value : Value) : Prop where
  rust_eq : rust = .ok (selector ++ encodeArgs [value])
  python_eq : python = .ok ("0x" ++ SolverCodec.toHex (selector ++ encodeArgs [value]))
  decodes : decodeArgs [type] (encodeArgs [value]) = some [value]

namespace Execution

variable (keccak256 : List UInt8 → B256)

/-- All three encoders of `executeNativeArb` agree. -/
def NativeArbAgrees (params : NativeArbParams) (p : SolverCodec.NativeArbParams) : Prop :=
  SameCalldata (encodeNativeArbCalldata keccak256 params) (SolverCodec.encodeNativeArb p)
      SolverCodec.executeNativeArbSelector SolverCodec.nativeArbTupleType params.toAlloy ∧
    ExecutorAbi.encodeExecuteNativeArbCalldata params.toStylus =
      SolverCodec.executeNativeArbSelector ++ encodeArgs [params.toAlloy]

def MatchAgrees (params : MatchParams) (p : SolverCodec.MatchParams) : Prop :=
  SameCalldata (encodeMatchInternalCalldata keccak256 params)
    (SolverCodec.encodeMatchInternal p) SolverCodec.matchInternalSelector
    SolverCodec.matchParamsTupleType params.toAlloy

def ComposeAgrees (params : ComposeParams) (p : SolverCodec.ComposeParams) : Prop :=
  SameCalldata (encodeComposeFourLegCalldata keccak256 params)
    (SolverCodec.encodeComposeFourLeg p) SolverCodec.composeFourLegSelector
    SolverCodec.composeParamsTupleType params.toAlloy

/-! ## The codec and the word-by-word encoder are right -/

theorem encodeCall_eq {selector : List UInt8} {type : Ty} {tuple : Except SolverCodec.PyError Value}
    {value : Value} (htuple : tuple = .ok value) (hadmits : type.admits value) :
    SolverCodec.encodeCall selector type tuple =
      .ok ("0x" ++ SolverCodec.toHex (selector ++ encodeArgs [value])) := by
  simp [SolverCodec.encodeCall, SolverCodec.encode, htuple, hadmits]

theorem decodeArgs_single {type : Ty} {value : Value} (hadmits : type.admits value)
    (hfits : (encodeArgs [value]).length < 2 ^ 256) :
    decodeArgs [type] (encodeArgs [value]) = some [value] :=
  decodeArgs_encodeArgs (by simp [hadmits]) hfits

theorem toStylus_value (params : NativeArbParams) : params.toStylus.value = params.toAlloy := by
  have hkind (kind : DexKind) : (UInt8.ofNat kind.ctorIdx).toNat = kind.ctorIdx := by
    cases kind <;> decide
  have hprotocol (protocol : FlashProtocol) :
      (UInt8.ofNat protocol.ctorIdx).toNat = protocol.ctorIdx := by
    cases protocol <;> decide
  simp [ExecutorAbi.NativeArbParams.value, ExecutorAbi.SwapStep.value, NativeArbParams.toStylus,
    SwapStep.toStylus, NativeArbParams.toAlloy, SwapStep.toAlloy, hkind, hprotocol]

theorem dynamic_nativeArb (params : NativeArbParams) : params.toAlloy.dynamic = true := by
  simp [NativeArbParams.toAlloy, Value.dynamic, anyDynamic]

theorem dynamic_match (params : MatchParams) : params.toAlloy.dynamic = true := by
  simp [MatchParams.toAlloy, Value.dynamic, anyDynamic]

theorem dynamic_compose (params : ComposeParams) : params.toAlloy.dynamic = true := by
  simp [ComposeParams.toAlloy, Value.dynamic, anyDynamic]

/-- The calldata of the word-by-word encoder is the standard one. -/
theorem encodeExecuteNativeArbCalldata_eq (params : NativeArbParams) :
    ExecutorAbi.encodeExecuteNativeArbCalldata params.toStylus =
      SolverCodec.executeNativeArbSelector ++ encodeArgs [params.toAlloy] := by
  rw [ExecutorAbi.encodeExecuteNativeArbCalldata, ExecutorAbi.encodeNativeArbTuple_eq,
    toStylus_value, ExecutorAbi.encodeSingleDynamicTupleCall_eq _ (dynamic_nativeArb params)]
  rfl

/-- The codec returns the standard calldata, from which the parameters are recovered. -/
theorem encodeNativeArb_eq {params : NativeArbParams} {p : SolverCodec.NativeArbParams}
    (h : p.Denotes params) (hswaps : params.swaps.length < 2 ^ 256)
    (hfits : (encodeArgs [params.toAlloy]).length < 2 ^ 256) :
    SolverCodec.encodeNativeArb p = .ok ("0x" ++ SolverCodec.toHex
        (SolverCodec.executeNativeArbSelector ++ encodeArgs [params.toAlloy])) ∧
      decodeArgs [SolverCodec.nativeArbTupleType] (encodeArgs [params.toAlloy]) =
        some [params.toAlloy] :=
  have hadmits := admits_nativeArb params hswaps
  ⟨encodeCall_eq (nativeArbToTuple_eq h) hadmits, decodeArgs_single hadmits hfits⟩

theorem encodeMatchInternal_eq {params : MatchParams} {p : SolverCodec.MatchParams}
    (h : p.Denotes params) (htokens : params.expectedTokenInflows.length < 2 ^ 256)
    (hamounts : params.expectedTokenInflowMin.length < 2 ^ 256)
    (hfits : (encodeArgs [params.toAlloy]).length < 2 ^ 256) :
    SolverCodec.encodeMatchInternal p = .ok ("0x" ++ SolverCodec.toHex
        (SolverCodec.matchInternalSelector ++ encodeArgs [params.toAlloy])) ∧
      decodeArgs [SolverCodec.matchParamsTupleType] (encodeArgs [params.toAlloy]) =
        some [params.toAlloy] :=
  have hadmits := admits_match params htokens hamounts
  ⟨encodeCall_eq (matchParamsToTuple_eq h) hadmits, decodeArgs_single hadmits hfits⟩

theorem encodeComposeFourLeg_eq {params : ComposeParams} {p : SolverCodec.ComposeParams}
    (h : p.Denotes params) (hswaps : params.arbSwaps.length < 2 ^ 256)
    (hfits : (encodeArgs [params.toAlloy]).length < 2 ^ 256) :
    SolverCodec.encodeComposeFourLeg p = .ok ("0x" ++ SolverCodec.toHex
        (SolverCodec.composeFourLegSelector ++ encodeArgs [params.toAlloy])) ∧
      decodeArgs [SolverCodec.composeParamsTupleType] (encodeArgs [params.toAlloy]) =
        some [params.toAlloy] :=
  have hadmits := admits_compose params hswaps
  ⟨encodeCall_eq (composeParamsToTuple_eq h) hadmits, decodeArgs_single hadmits hfits⟩

/-! ## The crate is not -/

theorem length_functionSelector (signature : String) :
    (functionSelector keccak256 signature).length = 4 := by
  simp [functionSelector]

/-- The offset of the tuple is missing. -/
theorem encodeCalldata_tuple (signature : String) (fields : List Value) :
    encodeCalldata keccak256 signature (.tuple fields) =
      functionSelector keccak256 signature ++ (Value.tuple fields).encode := by
  rw [Value.encode]
  rfl

/-- Whatever the hash, the calldata of the crate is one word short. -/
theorem encodeCalldata_ne (signature : String) {fields : List Value} {selector : List UInt8}
    (hselector : selector.length = 4) (hdynamic : (Value.tuple fields).dynamic = true) :
    encodeCalldata keccak256 signature (.tuple fields) ≠
      selector ++ encodeArgs [.tuple fields] := by
  intro h
  have hlength := congrArg List.length h
  rw [encodeCalldata_tuple, encodeArgs_of_dynamic hdynamic] at hlength
  simp only [List.length_append, length_functionSelector, hselector, length_word] at hlength
  omega

theorem not_nativeArbAgrees (params : NativeArbParams) (p : SolverCodec.NativeArbParams) :
    ¬ NativeArbAgrees keccak256 params p := by
  rintro ⟨hsame, _⟩
  obtain ⟨_, _, hrust⟩ := bind_eq_ok.mp hsame.rust_eq
  exact encodeCalldata_ne keccak256 _ rfl (dynamic_nativeArb params) (Except.ok.inj hrust)

theorem not_matchAgrees (params : MatchParams) (p : SolverCodec.MatchParams) :
    ¬ MatchAgrees keccak256 params p := by
  intro hsame
  obtain ⟨_, _, hrust⟩ := bind_eq_ok.mp hsame.rust_eq
  exact encodeCalldata_ne keccak256 _ rfl (dynamic_match params) (Except.ok.inj hrust)

theorem not_composeAgrees (params : ComposeParams) (p : SolverCodec.ComposeParams) :
    ¬ ComposeAgrees keccak256 params p := by
  intro hsame
  obtain ⟨_, _, hrust⟩ := bind_eq_ok.mp hsame.rust_eq
  exact encodeCalldata_ne keccak256 _ rfl (dynamic_compose params) (Except.ok.inj hrust)

/-- No validated parameters, of any of the three entry points, are encoded alike. -/
theorem calldata_never_agrees :
    (∀ params p, params.validate = .ok () → SolverCodec.NativeArbParams.Denotes p params →
      ¬ NativeArbAgrees keccak256 params p) ∧
    (∀ params p, params.validate = .ok () → SolverCodec.MatchParams.Denotes p params →
      ¬ MatchAgrees keccak256 params p) ∧
    (∀ params p, params.validate = .ok () → SolverCodec.ComposeParams.Denotes p params →
      ¬ ComposeAgrees keccak256 params p) := by
  refine ⟨?_, ?_, ?_⟩
  · exact fun params p _ _ => not_nativeArbAgrees keccak256 params p
  · exact fun params p _ _ => not_matchAgrees keccak256 params p
  · exact fun params p _ _ => not_composeAgrees keccak256 params p

/-- A single swap, as the tests of the crate have it. -/
def sampleArb : NativeArbParams where
  flashLender := 0x4444444444444444444444444444444444444444
  flashProtocol := .aave
  flashToken := 0x5555555555555555555555555555555555555555
  flashAmount := 1234
  swaps := [
    { dexKind := .uniV3
      router := 0x1111111111111111111111111111111111111111
      callData := [0xaa, 0xbb, 0xcc]
      tokenIn := 0x2222222222222222222222222222222222222222
      tokenOut := 0x3333333333333333333333333333333333333333
      amountIn := 456
      amountOutMin := 789 }]
  minProfit := 42
  deadline := 999999

def sampleArbPython : SolverCodec.NativeArbParams where
  flashLender := 0x4444444444444444444444444444444444444444
  flashProtocol := .aaveV3
  flashToken := 0x5555555555555555555555555555555555555555
  flashAmount := 1234
  swaps := [
    { dexKind := .uniV3
      router := 0x1111111111111111111111111111111111111111
      callData := "0xaabbcc"
      tokenIn := 0x2222222222222222222222222222222222222222
      tokenOut := 0x3333333333333333333333333333333333333333
      amountIn := 456
      amountOutMin := 789 }]
  minProfit := 42
  deadline := 999999

theorem sampleArb_disagrees : sampleArb.validate = .ok () ∧ sampleArbPython.Denotes sampleArb ∧
    ¬ NativeArbAgrees (fun _ => 0xf6f6add1 * 2 ^ 224) sampleArb sampleArbPython := by
  refine ⟨rfl, ?_, not_nativeArbAgrees _ _ _⟩
  constructor <;> try rfl
  exact .cons (by constructor <;> rfl) .nil

end Execution

end Degenbot
