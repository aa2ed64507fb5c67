import Degenbot.Algorithm.AbiHelpers

/-! # `executor_abi.rs` and `executor_semantics.rs` -/

/-! ## `executor_abi.rs`

Calldata of the executor, word by word. -/

namespace Degenbot.ExecutorAbi

open Abi

structure SwapStep where
  dexKind : UInt8
  router : Address
  callData : List UInt8
  tokenIn : Address
  tokenOut : Address
  amountIn : U256
  amountOutMin : U256
deriving DecidableEq

structure NativeArbParams where
  flashLender : Address
  flashProtocol : UInt8
  flashToken : Address
  flashAmount : U256
  swaps : List SwapStep
  minProfit : U256
  deadline : U256
deriving DecidableEq

structure OwnedSwapsParams where
  swaps : List SwapStep
  profitToken : Address
  minProfit : U256
  deadline : U256
deriving DecidableEq

structure MatchParams where
  cowSettlementCalldata : List UInt8
  uniswapxBatchCalldata : List UInt8
  expectedTokenInflows : List Address
  expectedTokenInflowMin : List U256
  flashLender : Address
  flashProtocol : UInt8
  flashToken : Address
  flashAmount : U256
  minProfit : U256
  deadline : U256
deriving DecidableEq

structure ComposeParams where
  acrossFillCalldata : List UInt8
  arbSwaps : List SwapStep
  cowFillCalldata : List UInt8
  uniswapxRebalanceCalldata : List UInt8
  flashLender : Address
  flashProtocol : UInt8
  flashToken : Address
  flashAmount : U256
  minProfit : U256
  deadline : U256
deriving DecidableEq

/-! ## Selectors of `interface_surfaces.rs` -/

def executeNativeArb : List UInt8 := [0xf6, 0xf6, 0xad, 0xd1]
def executeOwnedSwaps : List UInt8 := [0xba, 0x44, 0x42, 0x0d]
def matchInternal : List UInt8 := [0x5f, 0x18, 0x86, 0x78]
def composeFourLeg : List UInt8 := [0x72, 0xc0, 0x46, 0x9b]

/-! ## Tuples -/

def encodeBytesTail (bytes : List UInt8) : List UInt8 := pushBytesTail bytes

def encodeSwapStepTuple (step : SwapStep) : List UInt8 :=
  let callDataTail := encodeBytesTail step.callData
  let callDataOffset := 32 * 7
  pushU8Word step.dexKind ++ pushAddressWord step.router ++
    pushU256Word (ofUsize callDataOffset) ++ pushAddressWord step.tokenIn ++
    pushAddressWord step.tokenOut ++ pushU256Word step.amountIn ++
    pushU256Word step.amountOutMin ++ callDataTail

/-- The offset words of the encoded elements, from the first offset on. -/
def pushOffsets : ℕ → List (List UInt8) → List UInt8
  | _, [] => []
  | relativeOffset, step :: steps =>
      pushU256Word (ofUsize relativeOffset) ++ pushOffsets (relativeOffset + step.length) steps

def encodeSwapStepsArray (swaps : List SwapStep) : List UInt8 :=
  let encodedSteps := swaps.map encodeSwapStepTuple
  let offsetsLen := swaps.length * 32
  pushU256Word (ofUsize swaps.length) ++ pushOffsets offsetsLen encodedSteps ++
    encodedSteps.flatten

def encodeNativeArbTuple (params : NativeArbParams) : List UInt8 :=
  let swapsTail := encodeSwapStepsArray params.swaps
  let swapsOffset := 32 * 7
  pushAddressWord params.flashLender ++ pushU8Word params.flashProtocol ++
    pushAddressWord params.flashToken ++ pushU256Word params.flashAmount ++
    pushU256Word (ofUsize swapsOffset) ++ pushU256Word params.minProfit ++
    pushU256Word params.deadline ++ swapsTail

def encodeOwnedSwapsTuple (params : OwnedSwapsParams) : List UInt8 :=
  let swapsTail := encodeSwapStepsArray params.swaps
  let swapsOffset := 32 * 4
  pushU256Word (ofUsize swapsOffset) ++ pushAddressWord params.profitToken ++
    pushU256Word params.minProfit ++ pushU256Word params.deadline ++ swapsTail

def encodeAddressArray (values : List Address) : List UInt8 :=
  pushU256Word (ofUsize values.length) ++ values.flatMap pushAddressWord

def encodeU256Array (values : List U256) : List UInt8 :=
  pushU256Word (ofUsize values.length) ++ values.flatMap pushU256Word

def encodeMatchTuple (params : MatchParams) : List UInt8 :=
  let cowTail := encodeBytesTail params.cowSettlementCalldata
  let uniswapxTail := encodeBytesTail params.uniswapxBatchCalldata
  let inflowsTail := encodeAddressArray params.expectedTokenInflows
  let inflowMinTail := encodeU256Array params.expectedTokenInflowMin
  let cowOffset := 32 * 10
  let uniswapxOffset := cowOffset + cowTail.length
  let inflowsOffset := uniswapxOffset + uniswapxTail.length
  let inflowMinOffset := inflowsOffset + inflowsTail.length
  pushU256Word (ofUsize cowOffset) ++ pushU256Word (ofUsize uniswapxOffset) ++
    pushU256Word (ofUsize inflowsOffset) ++ pushU256Word (ofUsize inflowMinOffset) ++
    pushAddressWord params.flashLender ++ pushU8Word params.flashProtocol ++
    pushAddressWord params.flashToken ++ pushU256Word params.flashAmount ++
    pushU256Word params.minProfit ++ pushU256Word params.deadline ++ cowTail ++
    uniswapxTail ++ inflowsTail ++ inflowMinTail

def encodeComposeTuple (params : ComposeParams) : List UInt8 :=
  let acrossTail := encodeBytesTail params.acrossFillCalldata
  let swapsTail := encodeSwapStepsArray params.arbSwaps
  let cowTail := encodeBytesTail params.cowFillCalldata
  let uniswapxTail := encodeBytesTail params.uniswapxRebalanceCalldata
  let acrossOffset := 32 * 10
  let swapsOffset := acrossOffset + acrossTail.length
  let cowOffset := swapsOffset + swapsTail.length
  let uniswapxOffset := cowOffset + cowTail.length
  pushU256Word (ofUsize acrossOffset) ++ pushU256Word (ofUsize swapsOffset) ++
    pushU256Word (ofUsize cowOffset) ++ pushU256Word (ofUsize uniswapxOffset) ++
    pushAddressWord params.flashLender ++ pushU8Word params.flashProtocol ++
    pushAddressWord params.flashToken ++ pushU256Word params.flashAmount ++
    pushU256Word params.minProfit ++ pushU256Word params.deadline ++ acrossTail ++
    swapsTail ++ cowTail ++ uniswapxTail

/-! ## Calls -/

def encodeSingleDynamicTupleCall (selector tupleTail : List UInt8) : List UInt8 :=
  selector ++ pushU256Word (ofUsize 32) ++ tupleTail

def encodeExecuteNativeArbCalldata (params : NativeArbParams) : List UInt8 :=
  encodeSingleDynamicTupleCall executeNativeArb (encodeNativeArbTuple params)

def encodeExecuteOwnedSwapsCalldata (params : OwnedSwapsParams) : List UInt8 :=
  encodeSingleDynamicTupleCall executeOwnedSwaps (encodeOwnedSwapsTuple params)

def encodeMatchInternalCalldata (params : MatchParams) : List UInt8 :=
  encodeSingleDynamicTupleCall matchInternal (encodeMatchTuple params)

def encodeComposeFourLegCalldata (params : ComposeParams) : List UInt8 :=
  encodeSingleDynamicTupleCall composeFourLeg (encodeComposeTuple params)

end Degenbot.ExecutorAbi

/-! ## `stylus/core/src/executor_semantics.rs`: the static guard of a UniswapX fill -/

namespace Degenbot.ExecutorSemantics

inductive ExecutorStaticError where
  | invalidActionData
  | unexpectedReactor
deriving DecidableEq

def reactorExecuteBatchWithCallbackSelector : List UInt8 := [0x13, 0xfb, 0x72, 0xc7]

structure ExecutorUniswapXFillStatic where
  reactor : Abi.Address
  expectedReactor : Abi.Address
  executeCalldataLen : ℕ
  executeSelector : List UInt8
  callbackDataLen : ℕ

def validateUniswapxFillStatic (input : ExecutorUniswapXFillStatic) :
    Except ExecutorStaticError Unit :=
  if input.reactor ≠ input.expectedReactor then .error .unexpectedReactor
  else if input.executeCalldataLen < 4 ∨ input.callbackDataLen = 0 then .error .invalidActionData
  else if input.executeSelector ≠ reactorExecuteBatchWithCallbackSelector then
    .error .invalidActionData
  else .ok ()

end Degenbot.ExecutorSemantics
