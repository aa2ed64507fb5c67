import Degenbot.Algorithm.AbiHelpers
import Degenbot.Library.Abi

/-! # `execution.rs`

Calldata of the executor through the dynamic values of `alloy`. `keccak256` is a parameter. -/

namespace Degenbot.Execution

open Library.Abi Abi

/-! ## Records -/

/-- The order of the constructors is the wire value. -/
inductive FlashProtocol where
  | aave
  | morpho
  | erc3156
  | uniV3
deriving DecidableEq

/-- The order of the constructors is the wire value. -/
inductive DexKind where
  | uniV2
  | uniV3
  | uniV4
  | curve
  | reserved
  | aggregatorV6
  | morphoBlue
  | algebra
  | solidly
  | curveNG
  | balancerV2
  | maverickV2
  | dodoPmm
  | fluidDex
  | balancerV3
  | kyberElastic
  | lfjLiquidityBook
  | gmxV2
  | wombat
  | bebop
  | hashflow
  | wooFi
  | okxDex
  | enso
  | squid
  | lifi
  | rango
  | rubic
  | native
deriving DecidableEq

structure SwapStep where
  dexKind : DexKind
  router : Address
  callData : List UInt8
  tokenIn : Address
  tokenOut : Address
  amountIn : U256
  amountOutMin : U256
deriving DecidableEq

structure NativeArbParams where
  flashLender : Address
  flashProtocol : FlashProtocol
  flashToken : Address
  flashAmount : U256
  swaps : List SwapStep
  minProfit : U256
  deadline : U256
deriving DecidableEq

structure MatchParams where
  cowSettlementCalldata : List UInt8
  uniswapxBatchCalldata : List UInt8
  expectedTokenInflows : List Address
  expectedTokenInflowMin : List U256
  flashLender : Address
  flashProtocol : FlashProtocol
  flashToken : Address
  flashAmount : U256
  minProfit : U256
  deadline : U256
  settlementFundingToken : Address
  settlementFundingMax : U256
deriving DecidableEq

structure ComposeParams where
  acrossFillCalldata : List UInt8
  arbSwaps : List SwapStep
  cowFillCalldata : List UInt8
  uniswapxRebalanceCalldata : List UInt8
  flashLender : Address
  flashProtocol : FlashProtocol
  flashToken : Address
  flashAmount : U256
  minProfit : U256
  deadline : U256
  settlementFundingToken : Address
  settlementFundingMax : U256
deriving DecidableEq

/-! ## Validation -/

inductive ExecutionError where
  | emptySwapChain (strategy : String)
  | lengthMismatch (left : String) (leftLen : ℕ) (right : String) (rightLen : ℕ)
deriving DecidableEq, Repr

def NativeArbParams.validate (params : NativeArbParams) : Except ExecutionError Unit :=
  if params.swaps.isEmpty then .error (.emptySwapChain "native arb") else .ok ()

def MatchParams.validate (params : MatchParams) : Except ExecutionError Unit :=
  if params.expectedTokenInflows.length ≠ params.expectedTokenInflowMin.length then
    .error (.lengthMismatch "expected_token_inflows" params.expectedTokenInflows.length
      "expected_token_inflow_min" params.expectedTokenInflowMin.length)
  else .ok ()

def ComposeParams.validate (params : ComposeParams) : Except ExecutionError Unit :=
  if params.arbSwaps.isEmpty then .error (.emptySwapChain "four-leg composition") else .ok ()

/-! ## Dynamic values -/

def SwapStep.toAlloy (step : SwapStep) : Value :=
  .tuple [.uint 8 step.dexKind.ctorIdx, .address step.router.toNat, .bytes step.callData,
    .address step.tokenIn.toNat, .address step.tokenOut.toNat, .uint 256 step.amountIn.toNat,
    .uint 256 step.amountOutMin.toNat]

def NativeArbParams.toAlloy (params : NativeArbParams) : Value :=
  .tuple [.address params.flashLender.toNat, .uint 8 params.flashProtocol.ctorIdx,
    .address params.flashToken.toNat, .uint 256 params.flashAmount.toNat,
    .array (params.swaps.map SwapStep.toAlloy), .uint 256 params.minProfit.toNat,
    .uint 256 params.deadline.toNat]

def MatchParams.toAlloy (params : MatchParams) : Value :=
  .tuple [.bytes params.cowSettlementCalldata, .bytes params.uniswapxBatchCalldata,
    .array (params.expectedTokenInflows.map fun token => .address token.toNat),
    .array (params.expectedTokenInflowMin.map fun amount => .uint 256 amount.toNat),
    .address params.flashLender.toNat, .uint 8 params.flashProtocol.ctorIdx,
    .address params.flashToken.toNat, .uint 256 params.flashAmount.toNat,
    .uint 256 params.minProfit.toNat, .uint 256 params.deadline.toNat,
    .address params.settlementFundingToken.toNat, .uint 256 params.settlementFundingMax.toNat]

def ComposeParams.toAlloy (params : ComposeParams) : Value :=
  .tuple [.bytes params.acrossFillCalldata, .array (params.arbSwaps.map SwapStep.toAlloy),
    .bytes params.cowFillCalldata, .bytes params.uniswapxRebalanceCalldata,
    .address params.flashLender.toNat, .uint 8 params.flashProtocol.ctorIdx,
    .address params.flashToken.toNat, .uint 256 params.flashAmount.toNat,
    .uint 256 params.minProfit.toNat, .uint 256 params.deadline.toNat,
    .address params.settlementFundingToken.toNat, .uint 256 params.settlementFundingMax.toNat]

/-- `abi_encode_params` of `alloy`: the fields of a tuple are the arguments. -/
def abiEncodeParams : Value → List UInt8
  | .tuple fields => encodeArgs fields
  | value => encodeArgs [value]

/-! ## Calldata -/

def executeNativeArbSignature : String :=
  "executeNativeArb((address,uint8,address,uint256,(uint8,address,bytes,address,address,uint256,uint256)[],uint256,uint256))"

def matchInternalSignature : String :=
  "matchInternal((bytes,bytes,address[],uint256[],address,uint8,address,uint256,uint256,uint256,address,uint256))"

def composeFourLegSignature : String :=
  "composeFourLeg((bytes,(uint8,address,bytes,address,address,uint256,uint256)[],bytes,bytes,address,uint8,address,uint256,uint256,uint256,address,uint256))"

section Encoders

variable (keccak256 : List UInt8 → B256)

def functionSelector (signature : String) : List UInt8 :=
  (Library.beBytes 32 (keccak256 (strBytes signature))).take 4

def encodeCalldata (signature : String) (value : Value) : List UInt8 :=
  functionSelector keccak256 signature ++ abiEncodeParams value

def encodeNativeArbCalldata (params : NativeArbParams) : Except ExecutionError (List UInt8) := do
  params.validate
  .ok (encodeCalldata keccak256 executeNativeArbSignature params.toAlloy)

def encodeMatchInternalCalldata (params : MatchParams) : Except ExecutionError (List UInt8) := do
  params.validate
  .ok (encodeCalldata keccak256 matchInternalSignature params.toAlloy)

def encodeComposeFourLegCalldata (params : ComposeParams) :
    Except ExecutionError (List UInt8) := do
  params.validate
  .ok (encodeCalldata keccak256 composeFourLegSignature params.toAlloy)

end Encoders

end Degenbot.Execution
