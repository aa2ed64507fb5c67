import Degenbot.Algorithm.AbiHelpers
import Degenbot.Library.Outcome

/-! # `frontrun_calldata.rs`

Codecs for the router and lending calls of a frontrun. `usize` is 32 bits wide in the
contract and 64 bits on the host; a `Vec` holds at most `isize::MAX` bytes. -/

namespace Degenbot.FrontrunCalldata

open Library Abi

inductive Target where
  | wasm32
  | host64
deriving DecidableEq, Repr

def Target.usizeMax : Target → ℕ
  | wasm32 => 2 ^ 32 - 1
  | host64 => 2 ^ 64 - 1

def Target.isizeMax : Target → ℕ
  | wasm32 => 2 ^ 31 - 1
  | host64 => 2 ^ 63 - 1

/-! ## Selectors and errors -/

def v2SwapExactTokensForTokens : List UInt8 := [0x38, 0xed, 0x17, 0x39]
def v3ExactInputSingle : List UInt8 := [0x41, 0x4b, 0xf3, 0x89]
def v3ExactInputSingle02 : List UInt8 := [0x04, 0xe4, 0x5a, 0xaf]
def v3ExactInput : List UInt8 := [0xc0, 0x4b, 0x8d, 0x59]
def v3ExactInput02 : List UInt8 := [0xb8, 0x58, 0x18, 0x3f]
def urExecute : List UInt8 := [0x35, 0x93, 0x56, 0x4c]
def urExecuteNoDeadline : List UInt8 := [0x24, 0x85, 0x6b, 0xc3]
def aaveV3LiquidationCall : List UInt8 := [0x00, 0xa7, 0x18, 0xa9]

inductive CalldataError where
  | calldataTooShort
  | unknownSelector (selector : List UInt8)
  | invalidAbi
deriving DecidableEq, Repr

inductive PathError where
  | emptyPath
  | invalidV3PathLength (length : ℕ)
  | invalidV3Fee (fee : UInt32)
deriving DecidableEq, Repr

/-- An encoder returns a `PathError`, or panics where its buffer cannot be allocated. -/
inductive EncodeFailure where
  | path (error : PathError)
  | capacityOverflow
deriving DecidableEq, Repr

/-- The buffer of an encoder. -/
def Target.vec (target : Target) (bytes : List UInt8) : Except EncodeFailure (List UInt8) :=
  if bytes.length ≤ target.isizeMax then .ok bytes else .error .capacityOverflow

/-! ## Parameters -/

structure V2SwapExactInParams where
  amountIn : U256
  amountOutMin : U256
  path : List Address
  toAddress : Address
  deadline : U256
deriving DecidableEq

structure V3ExactInputSingleParams where
  tokenIn : Address
  tokenOut : Address
  fee : UInt32
  recipient : Address
  deadline : U256
  amountIn : U256
  amountOutMinimum : U256
  sqrtPriceLimitX96 : U256
deriving DecidableEq

structure V3ExactInputParams where
  path : List UInt8
  recipient : Address
  deadline : U256
  amountIn : U256
  amountOutMinimum : U256
deriving DecidableEq

structure AaveLiquidationCallParams where
  collateralAsset : Address
  debtAsset : Address
  user : Address
  debtToCover : U256
  receiveAToken : Bool
deriving DecidableEq

/-! ## Universal router commands -/

inductive URCommand where
  | v3SwapExactIn
  | v3SwapExactOut
  | permit2TransferFrom
  | v2SwapExactIn
  | v2SwapExactOut
  | wrapEth
  | unwrapWeth
  | v4Swap
  | executeSubPlan
  | unknown
deriving DecidableEq, Repr

structure URCommandClass where
  kind : URCommand
  allowRevert : Bool
deriving DecidableEq, Repr

structure URCommandStep where
  kind : URCommand
  allowRevert : Bool
  rawInput : List UInt8
deriving DecidableEq, Repr

def flagAllowRevert : UInt8 := 0x80
def commandTypeMask : UInt8 := 0x3f

def classifyUrCommand (raw : UInt8) : URCommandClass where
  kind := match raw &&& commandTypeMask with
    | 0x00 => .v3SwapExactIn
    | 0x01 => .v3SwapExactOut
    | 0x02 => .permit2TransferFrom
    | 0x08 => .v2SwapExactIn
    | 0x09 => .v2SwapExactOut
    | 0x0b => .wrapEth
    | 0x0c => .unwrapWeth
    | 0x10 => .v4Swap
    | 0x21 => .executeSubPlan
    | _ => .unknown
  allowRevert := raw &&& flagAllowRevert ≠ 0

/-! ## Packed paths -/

def v3TokenBytes : ℕ := 20
def v3FeeBytes : ℕ := 3
def v3HopBytes : ℕ := v3TokenBytes + v3FeeBytes

/-- `Address::from_slice`. -/
def addressFromSlice (bytes : List UInt8) : Address := BitVec.ofNat 160 (beValue bytes)

/-- The bytes of one hop, the fee and the token behind it. -/
def encodeV3Hop (fee : UInt32) (token : Address) : Except EncodeFailure (List UInt8) :=
  if fee > 0x00ffffff then .error (.path (.invalidV3Fee fee))
  else .ok ((beBytes 4 fee.toNat).drop 1 ++ addressBytes token.toNat)

def encodeV3Path (target : Target) (tokens : List Address) (fees : List UInt32) :
    Except EncodeFailure (List UInt8) :=
  let hopCount := fees.length
  if hopCount = 0 then .error (.path .emptyPath)
  else if tokens.length ≠ hopCount + 1 then
    .error (.path (.invalidV3PathLength tokens.length))
  else do
    let hops ← (fees.zip tokens.tail).mapM fun hop => encodeV3Hop hop.1 hop.2
    target.vec ((tokens.take 1).flatMap (fun token => addressBytes token.toNat) ++ hops.flatten)

def parseV3Path (path : List UInt8) : Except PathError (List Address × List UInt32) :=
  let pathLen := path.length
  if pathLen < v3HopBytes + v3TokenBytes then .error (.invalidV3PathLength pathLen)
  else if (pathLen - v3TokenBytes) % v3HopBytes ≠ 0 then .error (.invalidV3PathLength pathLen)
  else
    let hopCount := (pathLen - v3TokenBytes) / v3HopBytes
    let feeOffset (index : ℕ) := v3TokenBytes + index * v3HopBytes
    let tokenOffset (index : ℕ) := feeOffset index + v3FeeBytes
    .ok
      (addressFromSlice (path.take v3TokenBytes) :: (List.range hopCount).map fun index =>
          addressFromSlice ((path.drop (tokenOffset index)).take v3TokenBytes),
        (List.range hopCount).map fun index =>
          UInt32.ofNat (beValue ((path.drop (feeOffset index)).take v3FeeBytes)))

/-! ## Writing -/

section Encoders

variable (target : Target)

def encodeV2SwapExactTokensForTokens (amountIn amountOutMin : U256) (path : List Address)
    (toAddress : Address) (deadline : U256) : Except EncodeFailure (List UInt8) :=
  if path.length < 2 then .error (.path .emptyPath)
  else target.vec (v2SwapExactTokensForTokens ++ pushU256Word amountIn ++
    pushU256Word amountOutMin ++ pushU256Word (ofUsize 0xa0) ++ pushAddressWord toAddress ++
    pushU256Word deadline ++ pushU256Word (ofUsize path.length) ++ path.flatMap pushAddressWord)

def encodeV3ExactInputSingle (params : V3ExactInputSingleParams) :
    Except EncodeFailure (List UInt8) :=
  target.vec (v3ExactInputSingle ++ pushAddressWord params.tokenIn ++
    pushAddressWord params.tokenOut ++ pushU256Word (ofUsize params.fee.toNat) ++
    pushAddressWord params.recipient ++ pushU256Word params.deadline ++
    pushU256Word params.amountIn ++ pushU256Word params.amountOutMinimum ++
    pushU256Word params.sqrtPriceLimitX96)

def encodeV3ExactInput (params : V3ExactInputParams) : Except EncodeFailure (List UInt8) :=
  target.vec (v3ExactInput ++ pushU256Word (ofUsize 0x20) ++ pushU256Word (ofUsize 0xa0) ++
    pushAddressWord params.recipient ++ pushU256Word params.deadline ++
    pushU256Word params.amountIn ++ pushU256Word params.amountOutMinimum ++
    pushBytesTail params.path)

def encodeV3ExactInput02 (path : List UInt8) (recipient : Address)
    (amountIn amountOutMinimum : U256) : Except EncodeFailure (List UInt8) :=
  target.vec (v3ExactInput02 ++ pushU256Word (ofUsize 0x20) ++ pushU256Word (ofUsize 0x80) ++
    pushAddressWord recipient ++ pushU256Word amountIn ++ pushU256Word amountOutMinimum ++
    pushBytesTail path)

def encodeAaveV3LiquidationCall (collateralAsset debtAsset user : Address) (debtToCover : U256)
    (receiveAToken : Bool) : Except EncodeFailure (List UInt8) :=
  target.vec (aaveV3LiquidationCall ++ pushAddressWord collateralAsset ++
    pushAddressWord debtAsset ++ pushAddressWord user ++ pushU256Word debtToCover ++
    pushBoolWord receiveAToken)

/-- The offsets of the array elements, the first one at `relativeOffset`. -/
def pushBytesArrayOffsets : ℕ → List (List UInt8) → List UInt8
  | _, [] => []
  | relativeOffset, input :: inputs =>
      pushU256Word (ofUsize relativeOffset) ++
        pushBytesArrayOffsets (relativeOffset + encodedBytesLen input.length) inputs

def pushBytesArrayTail (inputs : List (List UInt8)) : List UInt8 :=
  pushU256Word (ofUsize inputs.length) ++
    pushBytesArrayOffsets (32 + inputs.length * 32) inputs ++ inputs.flatMap pushBytesTail

def encodeUrExecute (commands : List UInt8) (inputs : List (List UInt8)) (deadline : U256) :
    Except EncodeFailure (List UInt8) :=
  let encodedCommandsLen := encodedBytesLen commands.length
  target.vec (urExecute ++ pushU256Word (ofUsize 0x60) ++
    pushU256Word (ofUsize (0x60 + encodedCommandsLen)) ++ pushU256Word deadline ++
    pushBytesTail commands ++ pushBytesArrayTail inputs)

def encodeUrExecuteNoDeadline (commands : List UInt8) (inputs : List (List UInt8)) :
    Except EncodeFailure (List UInt8) :=
  let encodedCommandsLen := encodedBytesLen commands.length
  target.vec (urExecuteNoDeadline ++ pushU256Word (ofUsize 0x40) ++
    pushU256Word (ofUsize (0x40 + encodedCommandsLen)) ++ pushBytesTail commands ++
    pushBytesArrayTail inputs)

end Encoders

/-! ## Reading -/

/-- `data.get(start..stop)`. -/
def slice (data : List UInt8) (start stop : ℕ) : Option (List UInt8) :=
  if start ≤ stop ∧ stop ≤ data.length then some ((data.drop start).take (stop - start)) else none

def selectorOf (data : List UInt8) : Except CalldataError (List UInt8) :=
  if data.length < 4 then .error .calldataTooShort else .ok (data.take 4)

/-- `data.get(start..)`. -/
def bodyFrom (data : List UInt8) (start : ℕ) : Except CalldataError (List UInt8) :=
  okOr (slice data start data.length) .calldataTooShort

def functionBody (data : List UInt8) : Except CalldataError (List UInt8) := bodyFrom data 4

section Decoders

variable (target : Target)

def checkedEnd (offset len : ℕ) : Option ℕ :=
  if offset + len ≤ target.usizeMax then some (offset + len) else none

def u256ToUsize (value : U256) : Except CalldataError ℕ :=
  if value.toNat > target.usizeMax then .error .invalidAbi else .ok value.toNat

def readWord (data : List UInt8) (offset : ℕ) : Except CalldataError (List UInt8) :=
  okOr (do
    let stop ← checkedEnd target offset 32
    slice data offset stop) .calldataTooShort

def readU256 (data : List UInt8) (offset : ℕ) : Except CalldataError U256 := do
  let word ← readWord target data offset
  .ok (BitVec.ofNat 256 (beValue word))

def readU256Usize (data : List UInt8) (offset : ℕ) : Except CalldataError ℕ := do
  let value ← readU256 target data offset
  u256ToUsize target value

def readAddress (data : List UInt8) (offset : ℕ) : Except CalldataError Address := do
  let word ← readWord target data offset
  if (word.take 12).any (· ≠ 0) then .error .invalidAbi
  else .ok (addressFromSlice (word.drop 12))

def readU24 (data : List UInt8) (offset : ℕ) : Except CalldataError UInt32 := do
  let value ← readU256 target data offset
  if value.toNat > 0x00ffffff then .error .invalidAbi else .ok (UInt32.ofNat value.toNat)

def readU160AsU256 (data : List UInt8) (offset : ℕ) : Except CalldataError U256 := do
  let word ← readWord target data offset
  if (word.take 12).any (· ≠ 0) then .error .invalidAbi else .ok (BitVec.ofNat 256 (beValue word))

def readBool (data : List UInt8) (offset : ℕ) : Except CalldataError Bool := do
  let value ← readU256 target data offset
  if value = 0 then .ok false else if value = 1 then .ok true else .error .invalidAbi

def paddedByteLenChecked (len : ℕ) : Option ℕ := checkedEnd target len ((32 - len % 32) % 32)

def readBytes (data : List UInt8) (offset : ℕ) : Except CalldataError (List UInt8) := do
  let lenOffset := offset
  let len ← readU256Usize target data lenOffset
  let bytesStart ← okOr (checkedEnd target lenOffset 32) .calldataTooShort
  let bytesEnd ← okOr (checkedEnd target bytesStart len) .calldataTooShort
  let paddedLen ← okOr (paddedByteLenChecked target len) .invalidAbi
  let paddedEnd ← okOr (checkedEnd target bytesStart paddedLen) .calldataTooShort
  if paddedEnd > data.length then .error .calldataTooShort
  else .ok ((data.drop bytesStart).take (bytesEnd - bytesStart))

/-- `len.checked_mul(32)`, then the end of the area that starts at `start`. -/
def checkedArea (data : List UInt8) (start len : ℕ) : Except CalldataError Unit := do
  let bytesLen ← okOr (if len * 32 ≤ target.usizeMax then some (len * 32) else none) .invalidAbi
  let stop ← okOr (checkedEnd target start bytesLen) .calldataTooShort
  if stop > data.length then .error .calldataTooShort else .ok ()

def readAddressArray (data : List UInt8) (offset : ℕ) : Except CalldataError (List Address) := do
  let len ← readU256Usize target data offset
  let elementsStart ← okOr (checkedEnd target offset 32) .calldataTooShort
  checkedArea target data elementsStart len
  (List.range len).mapM fun index => readAddress target data (elementsStart + index * 32)

def readBytesArray (data : List UInt8) (offset : ℕ) :
    Except CalldataError (List (List UInt8)) := do
  let len ← readU256Usize target data offset
  let offsetsStart ← okOr (checkedEnd target offset 32) .calldataTooShort
  checkedArea target data offsetsStart len
  (List.range len).mapM fun index => do
    let relativeOffset ← readU256Usize target data (offsetsStart + index * 32)
    let elementOffset ← okOr (checkedEnd target offset relativeOffset) .invalidAbi
    readBytes target data elementOffset

/-! ## Decoders -/

def decodeV2SwapExactTokensForTokens (data : List UInt8) :
    Except CalldataError V2SwapExactInParams := do
  let selector ← selectorOf data
  if selector ≠ v2SwapExactTokensForTokens then .error (.unknownSelector selector)
  else
    let body ← functionBody data
    let amountIn ← readU256 target body 0
    let amountOutMin ← readU256 target body 32
    let pathOffset ← readU256Usize target body 64
    let path ← readAddressArray target body pathOffset
    let toAddress ← readAddress target body 96
    let deadline ← readU256 target body 128
    .ok { amountIn, amountOutMin, path, toAddress, deadline }

def decodeV3ExactInputSingle (data : List UInt8) :
    Except CalldataError V3ExactInputSingleParams := do
  let selector ← selectorOf data
  let body ← functionBody data
  if selector = v3ExactInputSingle then
    let tokenIn ← readAddress target body 0
    let tokenOut ← readAddress target body 32
    let fee ← readU24 target body 64
    let recipient ← readAddress target body 96
    let deadline ← readU256 target body 128
    let amountIn ← readU256 target body 160
    let amountOutMinimum ← readU256 target body 192
    let sqrtPriceLimitX96 ← readU160AsU256 target body 224
    .ok { tokenIn, tokenOut, fee, recipient, deadline, amountIn, amountOutMinimum,
          sqrtPriceLimitX96 }
  else if selector = v3ExactInputSingle02 then
    let tokenIn ← readAddress target body 0
    let tokenOut ← readAddress target body 32
    let fee ← readU24 target body 64
    let recipient ← readAddress target body 96
    let amountIn ← readU256 target body 128
    let amountOutMinimum ← readU256 target body 160
    let sqrtPriceLimitX96 ← readU160AsU256 target body 192
    .ok { tokenIn, tokenOut, fee, recipient, deadline := 0, amountIn, amountOutMinimum,
          sqrtPriceLimitX96 }
  else .error (.unknownSelector selector)

def decodeV3ExactInput (data : List UInt8) : Except CalldataError V3ExactInputParams := do
  let selector ← selectorOf data
  if selector = v3ExactInput then
    let body ← bodyFrom data 36
    let pathOffset ← readU256Usize target body 0
    let path ← readBytes target body pathOffset
    let recipient ← readAddress target body 32
    let deadline ← readU256 target body 64
    let amountIn ← readU256 target body 96
    let amountOutMinimum ← readU256 target body 128
    .ok { path, recipient, deadline, amountIn, amountOutMinimum }
  else if selector = v3ExactInput02 then
    let body ← bodyFrom data 36
    let pathOffset ← readU256Usize target body 0
    let path ← readBytes target body pathOffset
    let recipient ← readAddress target body 32
    let amountIn ← readU256 target body 64
    let amountOutMinimum ← readU256 target body 96
    .ok { path, recipient, deadline := 0, amountIn, amountOutMinimum }
  else .error (.unknownSelector selector)

def decodeAaveV3LiquidationCall (data : List UInt8) :
    Except CalldataError AaveLiquidationCallParams := do
  let selector ← selectorOf data
  if selector ≠ aaveV3LiquidationCall then .error (.unknownSelector selector)
  else
    let body ← functionBody data
    let collateralAsset ← readAddress target body 0
    let debtAsset ← readAddress target body 32
    let user ← readAddress target body 64
    let debtToCover ← readU256 target body 96
    let receiveAToken ← readBool target body 128
    .ok { collateralAsset, debtAsset, user, debtToCover, receiveAToken }

/-- The steps up to the end of the shorter list. -/
def commandSteps (commands : List UInt8) (inputs : List (List UInt8)) : List URCommandStep :=
  List.zipWith (fun command input =>
    let classified := classifyUrCommand command
    { kind := classified.kind, allowRevert := classified.allowRevert, rawInput := input })
    commands inputs

def decodeUrExecute (data : List UInt8) : Except CalldataError (List URCommandStep × U256) := do
  let selector ← selectorOf data
  let body ← functionBody data
  if selector = urExecute then
    let commandsOffset ← readU256Usize target body 0
    let commands ← readBytes target body commandsOffset
    let inputsOffset ← readU256Usize target body 32
    let inputs ← readBytesArray target body inputsOffset
    let deadline ← readU256 target body 64
    .ok (commandSteps commands inputs, deadline)
  else if selector = urExecuteNoDeadline then
    let commandsOffset ← readU256Usize target body 0
    let commands ← readBytes target body commandsOffset
    let inputsOffset ← readU256Usize target body 32
    let inputs ← readBytesArray target body inputsOffset
    .ok (commandSteps commands inputs, 0)
  else .error (.unknownSelector selector)

end Decoders

end Degenbot.FrontrunCalldata
