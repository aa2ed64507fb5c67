import Degenbot.Algorithm.AbiTypes
import Degenbot.Library.Outcome

/-! # `abi_types/value.rs` and `hex_utils.rs`: values as text

The primitives of alloy are parameters. -/

namespace Degenbot.AbiTypes

open Library

/-! ## `hex_utils.rs` -/

inductive HexError where
  | invalidHex (message : Str)
deriving DecidableEq

/-- `str::len`, in bytes. -/
def utf8Len (s : Str) : ℕ := (s.map Char.utf8Size).sum

/-- The hex decoder is that of alloy. -/
def decodeHex (hexDecode : Str → Except Str (List UInt8)) (hexStr : Str) :
    Except HexError (List UInt8) :=
  let stripped := (stripStart "0x".toList hexStr).getD hexStr
  let stripped := (stripStart "0X".toList stripped).getD stripped
  if utf8Len stripped % 2 = 1 then (hexDecode ('0' :: stripped)).mapError .invalidHex
  else (hexDecode stripped).mapError .invalidHex

/-! ## `value.rs` -/

/-- `from_str_radix` and `to_string` of `U256`, `from_str` and `to_string` of `I256`, `from_str` of
`Address`, and the hex codec. An `I256` is its two's complement. -/
structure Primitives where
  uintFromStrRadix : Str → ℕ → Option Abi.U256
  uintToString : Abi.U256 → Str
  intFromStr : Str → Option Abi.U256
  intToString : Abi.U256 → Str
  addressFromStr : Str → Option Abi.Address
  hexDecode : Str → Except Str (List UInt8)
  hexEncode : List UInt8 → Str

inductive ContractError where
  | invalidAbi (message : Str)
  | invalidAddress (address reason : Str)
deriving DecidableEq

inductive ParseIntError where
  | invalidHex
  | invalidDecimal
deriving DecidableEq

def ParseIntError.display : ParseIntError → Str
  | .invalidHex => "invalid hex format".toList
  | .invalidDecimal => "invalid decimal format".toList

/-- What follows a `0x` or a `0X`. -/
def stripHexMark (s : Str) : Option Str :=
  (stripStart "0x".toList s).or (stripStart "0X".toList s)

section Values

variable (prim : Primitives)

def parseUint256WithHexPrefix (s : Str) : Except ParseIntError Abi.U256 :=
  let s := trim s
  match stripHexMark s with
  | none => okOr (prim.uintFromStrRadix s 10) .invalidDecimal
  | some hexStr => okOr (prim.uintFromStrRadix hexStr 16) .invalidHex

def maxPositive : Abi.U256 := ((1 : Abi.U256) <<< 255) - 1

def minAbs : Abi.U256 := (1 : Abi.U256) <<< 255

def parseInt256WithHexPrefix (s : Str) : Except ParseIntError Abi.U256 :=
  let s := trim s
  match stripStart ['-'] s with
  | some absStr =>
      match stripHexMark absStr with
      | some hexStr => do
          let absVal ← okOr (prim.uintFromStrRadix hexStr 16) .invalidHex
          if absVal = minAbs then .ok minAbs
          else if absVal > maxPositive + 1 then .error .invalidHex
          else .ok (-absVal)
      | none => okOr (prim.intFromStr s) .invalidDecimal
  | none =>
      match stripHexMark s with
      | some hexStr => do
          let uval ← okOr (prim.uintFromStrRadix hexStr 16) .invalidHex
          if uval > maxPositive then .error .invalidHex else .ok uval
      | none => okOr (prim.intFromStr s) .invalidDecimal

/-- The loop of `parse_json_array` with what follows it. `current` is `content[start..i]`. -/
def splitElements (depth : ℤ) (current : Str) : Str → List Str
  | [] => if trim current ≠ [] ∨ current ≠ [] then [trim current] else []
  | c :: content =>
      if c = '[' then splitElements (depth + 1) (current ++ [c]) content
      else if c = ']' then splitElements (depth - 1) (current ++ [c]) content
      else if c = ',' ∧ depth = 0 then
        (if trim current ≠ [] ∨ current ≠ [] then [trim current] else []) ++
          splitElements depth [] content
      else splitElements depth (current ++ [c]) content

def parseJsonArray (input : Str) : Except ContractError (List Str) :=
  let trimmed := trim input
  if trimmed.head? ≠ some '[' ∨ trimmed.getLast? ≠ some ']' then
    .error (.invalidAbi ("Array value must be enclosed in square brackets, got: '".toList ++
      input ++ "'".toList))
  else
    let content := trim trimmed.tail.dropLast
    if content = [] then .ok [] else .ok (splitElements 0 [] content)

/-- Only the letters of ASCII are lowered: no other character lowers to one of the words that
`from_str_arg` looks for. -/
def toLowercase (s : Str) : Str := s.map Char.toLower

def AbiValue.fromStrArg : AbiType → Str → Except ContractError AbiValue
  | .address, arg =>
      match prim.addressFromStr (trim arg) with
      | some addr => .ok (.address addr)
      | none => .error (.invalidAddress (trim arg) "Invalid address format".toList)
  | .bool, arg =>
      let lowered := toLowercase (trim arg)
      if lowered = "true".toList ∨ lowered = "1".toList then .ok (.bool true)
      else if lowered = "false".toList ∨ lowered = "0".toList then .ok (.bool false)
      else .error (.invalidAbi ("Invalid bool value '".toList ++ arg ++
        "': expected 'true', 'false', '1', or '0'".toList))
  | .uint bits, arg =>
      match parseUint256WithHexPrefix prim (trim arg) with
      | .ok uintVal => .ok (.uint uintVal bits)
      | .error e => .error (.invalidAbi ("Invalid uint value '".toList ++ arg ++ "': ".toList ++
          e.display))
  | .int bits, arg =>
      match parseInt256WithHexPrefix prim (trim arg) with
      | .ok intVal => .ok (.int intVal bits)
      | .error e => .error (.invalidAbi ("Invalid int value '".toList ++ arg ++ "': ".toList ++
          e.display))
  | .fixedBytes size, arg =>
      match decodeHex prim.hexDecode (trim arg) with
      | .error _ => .error (.invalidAbi ("Invalid hex value for bytes".toList ++ decimal size ++
          ": ".toList ++ arg))
      | .ok data =>
          if data.length ≠ size then
            .error (.invalidAbi ("bytes".toList ++ decimal size ++ " requires exactly ".toList ++
              decimal size ++ " bytes, got ".toList ++ decimal data.length))
          else .ok (.fixedBytes data)
  | .bytes, arg =>
      match decodeHex prim.hexDecode (trim arg) with
      | .error _ => .error (.invalidAbi ("Invalid hex value for bytes: ".toList ++ arg))
      | .ok data => .ok (.bytes data)
  | .string, arg => .ok (.string (String.ofList (trim arg)))
  | .array elementType, arg => do
      let elements ← parseJsonArray (trim arg)
      let values ← elements.mapM fun elem => fromStrArg elementType elem
      .ok (.array values)
  | .fixedArray elementType size, arg => do
      let elements ← parseJsonArray (trim arg)
      if elements.length ≠ size then
        .error (.invalidAbi ("Fixed array of size ".toList ++ decimal size ++
          " requires exactly ".toList ++ decimal size ++ " elements, got ".toList ++
          decimal elements.length))
      else do
        let values ← elements.mapM fun elem => fromStrArg elementType elem
        .ok (.array values)

mutual

def AbiValue.toContractString : AbiValue → Str
  | .address addr => "0x".toList ++ prim.hexEncode (beBytes 20 addr.toNat)
  | .bool b => if b then "true".toList else "false".toList
  | .fixedBytes bytes => "0x".toList ++ prim.hexEncode bytes
  | .bytes bytes => "0x".toList ++ prim.hexEncode bytes
  | .uint n _ => prim.uintToString n
  | .int n _ => prim.intToString n
  | .string s => s.toList
  | .array values => '[' :: List.intercalate ", ".toList (toContractStrings values) ++ [']']

def toContractStrings : List AbiValue → List Str
  | [] => []
  | value :: values => value.toContractString :: toContractStrings values

end

end Values

end Degenbot.AbiTypes
