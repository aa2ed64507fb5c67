import Degenbot.Algorithm.ExecutionCalldata

/-! # `types_solver/codec.py`

Calldata of the executor as hex text. Byte fields are hex text; addresses are their values.
`eth_abi.encode` rejects values outside the listed types and is the standard encoding
otherwise. -/

namespace Degenbot.SolverCodec

open Library.Abi Abi

inductive PyError where
  | valueError
  | encodingError
deriving DecidableEq, Repr

/-! ## Records of `types_solver/executor.py` -/

/-- The order of the constructors is the wire value. -/
inductive FlashProtocol where
  | aaveV3
  | morpho
  | erc3156
  | uniV3
  | uniV2
  | uniV4
deriving DecidableEq

/-- The enumeration has the members of `Execution.DexKind`, in the same order. -/
abbrev DexKind := Execution.DexKind

structure SwapStep where
  dexKind : DexKind
  router : Address
  callData : String
  tokenIn : Address
  tokenOut : Address
  amountIn : ℕ
  amountOutMin : ℕ
deriving DecidableEq

structure NativeArbParams where
  flashLender : Address
  flashProtocol : FlashProtocol
  flashToken : Address
  flashAmount : ℕ
  swaps : List SwapStep
  minProfit : ℕ
  deadline : ℕ
deriving DecidableEq

structure MatchParams where
  cowSettlementCalldata : String
  uniswapxBatchCalldata : String
  expectedTokenInflows : List Address
  expectedTokenInflowMin : List ℕ
  flashLender : Address
  flashProtocol : FlashProtocol
  flashToken : Address
  flashAmount : ℕ
  minProfit : ℕ
  deadline : ℕ
  settlementFundingToken : Address
  settlementFundingMax : ℕ
deriving DecidableEq

structure ComposeParams where
  acrossFillCalldata : String
  arbSwaps : List SwapStep
  cowFillCalldata : String
  uniswapxRebalanceCalldata : String
  flashLender : Address
  flashProtocol : FlashProtocol
  flashToken : Address
  flashAmount : ℕ
  minProfit : ℕ
  deadline : ℕ
  settlementFundingToken : Address
  settlementFundingMax : ℕ
deriving DecidableEq

/-! ## Hex text -/

def hexDigit (c : Char) : Except PyError ℕ :=
  if '0' ≤ c ∧ c ≤ '9' then .ok (c.toNat - '0'.toNat)
  else if 'a' ≤ c ∧ c ≤ 'f' then .ok (c.toNat - 'a'.toNat + 10)
  else if 'A' ≤ c ∧ c ≤ 'F' then .ok (c.toNat - 'A'.toNat + 10)
  else .error .valueError

/-- The ASCII whitespace that `bytes.fromhex` skips between bytes. -/
def isHexSpace (c : Char) : Bool := c = ' ' || ('\t' ≤ c && c ≤ '\r')

/-- `bytes.fromhex`. -/
def fromHex : List Char → Except PyError (List UInt8)
  | [] => .ok []
  | [c] => if isHexSpace c then .ok [] else .error .valueError
  | c :: d :: cs =>
      if isHexSpace c then fromHex (d :: cs)
      else do
        let high ← hexDigit c
        let low ← hexDigit d
        let rest ← fromHex cs
        .ok (UInt8.ofNat (high * 16 + low) :: rest)

/-- `str.removeprefix`. -/
def withoutPrefix (start cs : List Char) : List Char :=
  if start.isPrefixOf cs then cs.drop start.length else cs

def hexToBytes (hexStr : String) : Except PyError (List UInt8) :=
  let stripped := withoutPrefix ['0', 'X'] (withoutPrefix ['0', 'x'] hexStr.toList)
  if stripped = [] then .ok [] else fromHex stripped

def hexChar (digit : ℕ) : Char := Char.ofNat (if digit < 10 then 48 + digit else 87 + digit)

/-- `bytes.hex`. -/
def toHex (bytes : List UInt8) : String :=
  String.ofList (bytes.flatMap fun byte => [hexChar (byte.toNat / 16), hexChar (byte.toNat % 16)])

/-! ## Types and tuples -/

def swapStepType : Ty := .tuple [.uint 8, .address, .bytes, .address, .address, .uint 256, .uint 256]

def nativeArbTupleType : Ty :=
  .tuple [.address, .uint 8, .address, .uint 256, .array swapStepType, .uint 256, .uint 256]

def matchParamsTupleType : Ty :=
  .tuple [.bytes, .bytes, .array .address, .array (.uint 256), .address, .uint 8, .address,
    .uint 256, .uint 256, .uint 256, .address, .uint 256]

def composeParamsTupleType : Ty :=
  .tuple [.bytes, .array swapStepType, .bytes, .bytes, .address, .uint 8, .address, .uint 256,
    .uint 256, .uint 256, .address, .uint 256]

def swapStepToTuple (s : SwapStep) : Except PyError Value := do
  let callData ← hexToBytes s.callData
  .ok (.tuple [.uint 8 s.dexKind.ctorIdx, .address s.router.toNat, .bytes callData,
    .address s.tokenIn.toNat, .address s.tokenOut.toNat, .uint 256 s.amountIn,
    .uint 256 s.amountOutMin])

def nativeArbToTuple (p : NativeArbParams) : Except PyError Value := do
  let swaps ← p.swaps.mapM swapStepToTuple
  .ok (.tuple [.address p.flashLender.toNat, .uint 8 p.flashProtocol.ctorIdx,
    .address p.flashToken.toNat, .uint 256 p.flashAmount, .array swaps, .uint 256 p.minProfit,
    .uint 256 p.deadline])

def matchParamsToTuple (p : MatchParams) : Except PyError Value := do
  let cowSettlementCalldata ← hexToBytes p.cowSettlementCalldata
  let uniswapxBatchCalldata ← hexToBytes p.uniswapxBatchCalldata
  .ok (.tuple [.bytes cowSettlementCalldata, .bytes uniswapxBatchCalldata,
    .array (p.expectedTokenInflows.map fun token => .address token.toNat),
    .array (p.expectedTokenInflowMin.map fun amount => .uint 256 amount),
    .address p.flashLender.toNat, .uint 8 p.flashProtocol.ctorIdx, .address p.flashToken.toNat,
    .uint 256 p.flashAmount, .uint 256 p.minProfit, .uint 256 p.deadline,
    .address p.settlementFundingToken.toNat, .uint 256 p.settlementFundingMax])

def composeParamsToTuple (p : ComposeParams) : Except PyError Value := do
  let acrossFillCalldata ← hexToBytes p.acrossFillCalldata
  let arbSwaps ← p.arbSwaps.mapM swapStepToTuple
  let cowFillCalldata ← hexToBytes p.cowFillCalldata
  let uniswapxRebalanceCalldata ← hexToBytes p.uniswapxRebalanceCalldata
  .ok (.tuple [.bytes acrossFillCalldata, .array arbSwaps, .bytes cowFillCalldata,
    .bytes uniswapxRebalanceCalldata, .address p.flashLender.toNat,
    .uint 8 p.flashProtocol.ctorIdx, .address p.flashToken.toNat, .uint 256 p.flashAmount,
    .uint 256 p.minProfit, .uint 256 p.deadline, .address p.settlementFundingToken.toNat,
    .uint 256 p.settlementFundingMax])

/-! ## Encoders -/

def executeNativeArbSelector : List UInt8 := [0xf6, 0xf6, 0xad, 0xd1]
def matchInternalSelector : List UInt8 := [0x21, 0x0e, 0xa4, 0x73]
def composeFourLegSelector : List UInt8 := [0x2e, 0x19, 0x77, 0xd2]

/-- `eth_abi.encode`. -/
def encode (types : List Ty) (values : List Value) : Except PyError (List UInt8) :=
  if admitAll types values then .ok (encodeArgs values) else .error .encodingError

/-- The common body of the encoders. -/
def encodeCall (selector : List UInt8) (type : Ty) (tuple : Except PyError Value) :
    Except PyError String := do
  let value ← tuple
  let body ← encode [type] [value]
  .ok ("0x" ++ toHex (selector ++ body))

def encodeNativeArb (p : NativeArbParams) : Except PyError String :=
  encodeCall executeNativeArbSelector nativeArbTupleType (nativeArbToTuple p)

def encodeMatchInternal (p : MatchParams) : Except PyError String :=
  encodeCall matchInternalSelector matchParamsTupleType (matchParamsToTuple p)

def encodeComposeFourLeg (p : ComposeParams) : Except PyError String :=
  encodeCall composeFourLegSelector composeParamsTupleType (composeParamsToTuple p)

end Degenbot.SolverCodec
