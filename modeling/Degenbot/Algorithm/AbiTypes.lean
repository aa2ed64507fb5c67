import Degenbot.Algorithm.AbiHelpers
import Degenbot.Library.Outcome
import Mathlib.Data.List.DropRight

/-! # `abi_types`: parsed types, values and the cached codec

A `str` is the list of its characters; none of the functions below cuts one inside a character.
The alloy codec is a parameter. -/

namespace Degenbot.AbiTypes

open Library

abbrev Str := List Char

/-! ## `type_.rs` -/

inductive AbiType where
  | address
  | bool
  | uint (bits : ℕ)
  | int (bits : ℕ)
  | fixedBytes (size : ℕ)
  | bytes
  | string
  | array (inner : AbiType)
  | fixedArray (inner : AbiType) (size : ℕ)
deriving DecidableEq

inductive AbiTypeError where
  | unknownType (typeName : Str)
  | invalidArraySize (message : Str)
  | invalidBitWidth (typeName : Str) (bits : ℕ)
  | invalidByteSize (typeName : Str) (size : ℕ)
deriving DecidableEq

/-- `char::is_whitespace`: the Unicode property `White_Space`. -/
def isWhitespace (c : Char) : Bool :=
  (0x09 ≤ c.toNat && c.toNat ≤ 0x0d) || c.toNat == 0x20 || c.toNat == 0x85 || c.toNat == 0xa0 ||
    c.toNat == 0x1680 || (0x2000 ≤ c.toNat && c.toNat ≤ 0x200a) || c.toNat == 0x2028 ||
    c.toNat == 0x2029 || c.toNat == 0x202f || c.toNat == 0x205f || c.toNat == 0x3000

/-- `str::trim`. -/
def trim (s : Str) : Str := (s.dropWhile isWhitespace).rdropWhile isWhitespace

/-- `rfind`, as the slices before and from the index it returns. -/
def rfind (pattern : Char) : Str → Option (Str × Str)
  | [] => none
  | c :: s =>
      match rfind pattern s with
      | some (base, rest) => some (c :: base, rest)
      | none => if c = pattern then some ([], c :: s) else none

/-- `str::parse::<usize>`: one leading `+` is skipped, any number of leading zeros is read. -/
def parseUsize (s : Str) : Option ℕ :=
  let digits := if s.head? = some '+' then s.tail else s
  if digits ≠ [] ∧ digits.all Char.isDigit ∧ Nat.ofDigitChars 10 digits 0 < 2 ^ 64 then
    some (Nat.ofDigitChars 10 digits 0)
  else none

/-- `str::strip_prefix`. -/
def stripStart (start s : Str) : Option Str :=
  if start.isPrefixOf s then some (s.drop start.length) else none

/-- A number in a `format!` string. -/
def decimal (n : ℕ) : Str := Nat.toDigits 10 n

def normalizeType (abiType : Str) : Str :=
  if abiType = "uint".toList then "uint256".toList
  else if abiType = "int".toList then "int256".toList
  else if abiType = "function".toList then "bytes24".toList
  else abiType

def parseByteSize (typeName nStr : Str) : Except AbiTypeError AbiType :=
  match parseUsize nStr with
  | some n =>
      if n > 0 ∧ n ≤ 32 then .ok (.fixedBytes n) else .error (.invalidByteSize typeName n)
  | none => .error (.invalidByteSize typeName 0)

/-- `parse_uint_bits` and `parse_int_bits`. -/
def parseBits (ofBits : ℕ → AbiType) (typeName nStr : Str) : Except AbiTypeError AbiType :=
  match parseUsize nStr with
  | some bits =>
      if bits > 0 ∧ bits ≤ 256 ∧ bits % 8 = 0 then .ok (ofBits bits)
      else .error (.invalidBitWidth typeName bits)
  | none => .error (.invalidBitWidth typeName 0)

def parseUintBits : Str → Str → Except AbiTypeError AbiType := parseBits .uint

def parseIntBits : Str → Str → Except AbiTypeError AbiType := parseBits .int

def parseSizedType (t : Str) : Except AbiTypeError AbiType :=
  match stripStart "bytes".toList t with
  | some nStr => parseByteSize t nStr
  | none =>
      match stripStart "uint".toList t with
      | some nStr => parseUintBits t nStr
      | none =>
          match stripStart "int".toList t with
          | some nStr => parseIntBits t nStr
          | none => .error (.unknownType t)

def parseBaseType (normalized : Str) : Except AbiTypeError AbiType :=
  if normalized = "address".toList then .ok .address
  else if normalized = "bool".toList then .ok .bool
  else if normalized = "bytes".toList then .ok .bytes
  else if normalized = "string".toList then .ok .string
  else parseSizedType normalized

theorem length_lt_of_rfind {pattern : Char} {s base rest : Str}
    (h : rfind pattern s = some (base, rest)) : base.length < s.length := by
  induction s generalizing base rest with
  | nil => cases h
  | cons c s ih =>
      rw [rfind] at h
      split at h
      · rename_i base' rest' hrest
        obtain ⟨rfl, rfl⟩ := Prod.mk.inj (Option.some.inj h)
        exact Nat.succ_lt_succ (ih hrest)
      · split at h
        · cases h
          exact Nat.succ_pos _
        · cases h

def zeroSizeMessage : Str :=
  "Fixed array size must be >= 1 (uint256[0] is not supported by Solidity)".toList

def parseAbiType (s : Str) : Except AbiTypeError AbiType :=
  match _hfind : rfind '[' s with
  | some (base, rest) =>
      if rest = "[]".toList then do
        let inner ← parseAbiType base
        .ok (.array inner)
      else if rest.getLast? = some ']' ∧ rest.head? = some '[' then
        match parseUsize rest.tail.dropLast with
        | none => .error (.invalidArraySize s)
        | some size =>
            if size = 0 then .error (.invalidArraySize zeroSizeMessage)
            else do
              let inner ← parseAbiType base
              .ok (.fixedArray inner size)
      else parseBaseType (normalizeType s)
  | none => parseBaseType (normalizeType s)
termination_by s.length
decreasing_by all_goals exact length_lt_of_rfind _hfind

def AbiType.parse (s : Str) : Except AbiTypeError AbiType := parseAbiType (trim s)

def AbiType.typeStr : AbiType → Str
  | .address => "address".toList
  | .bool => "bool".toList
  | .bytes => "bytes".toList
  | .string => "string".toList
  | .uint bits => "uint".toList ++ decimal bits
  | .int bits => "int".toList ++ decimal bits
  | .fixedBytes size => "bytes".toList ++ decimal size
  | .array inner => inner.typeStr ++ "[]".toList
  | .fixedArray inner size => inner.typeStr ++ '[' :: decimal size ++ [']']

/-! ## alloy's dynamic types and values -/

/-- `FixedBytes<32>`. -/
abbrev Word := { bytes : List UInt8 // bytes.length = 32 }

/-- The variants of `DynSolType` that `to_alloy_type` and the cached tuple use. -/
inductive DynSolType where
  | address
  | bool
  | uint (bits : ℕ)
  | int (bits : ℕ)
  | fixedBytes (size : ℕ)
  | bytes
  | string
  | array (inner : DynSolType)
  | fixedArray (inner : DynSolType) (size : ℕ)
  | tuple (types : List DynSolType)

/-- An `I256` is its two's complement. -/
inductive DynSolValue where
  | address (address : Abi.Address)
  | bool (b : Bool)
  | uint (n : Abi.U256) (bits : ℕ)
  | int (n : Abi.U256) (bits : ℕ)
  | fixedBytes (word : Word) (size : ℕ)
  | bytes (bytes : List UInt8)
  | string (s : String)
  | function (bytes : List UInt8)
  | array (values : List DynSolValue)
  | fixedArray (values : List DynSolValue)
  | tuple (values : List DynSolValue)
  | customStruct (name : String) (propNames : List String) (tuple : List DynSolValue)

/-- `DynSolType::matches`, `DynSolValue::abi_encode_params`, `DynSolType::abi_decode_params`. -/
structure Alloy where
  isMatch : DynSolType → DynSolValue → Bool
  abiEncodeParams : DynSolValue → List UInt8
  abiDecodeParams : DynSolType → List UInt8 → Except String DynSolValue

def AbiType.toAlloyType : AbiType → DynSolType
  | .address => .address
  | .bool => .bool
  | .uint bits => .uint bits
  | .int bits => .int bits
  | .fixedBytes size => .fixedBytes size
  | .bytes => .bytes
  | .string => .string
  | .array inner => .array inner.toAlloyType
  | .fixedArray inner size => .fixedArray inner.toAlloyType size

/-! ## `value.rs` -/

inductive AbiValue where
  | address (address : Abi.Address)
  | bool (b : Bool)
  | fixedBytes (bytes : List UInt8)
  | bytes (bytes : List UInt8)
  | uint (n : Abi.U256) (bits : ℕ)
  | int (n : Abi.U256) (bits : ℕ)
  | string (s : String)
  | array (values : List AbiValue)

/-- What the texts of `UnsupportedType` say, with the values they print. -/
inductive Unsupported where
  | invalidType (ty : Str) (error : AbiTypeError)
  | atMost32Bytes (size : ℕ)
  | fixedBytesSize (size given : ℕ)
  | fixedArraySize (expectedSize given : ℕ)
  | typeMismatch (ty : DynSolType) (value : AbiValue)
  | functionType

inductive AbiDecodeError where
  | emptyTypesList
  | emptyData
  | invalidOffset (error : String)
  | invalidLength (typeCount valueCount : ℕ)
  | unsupportedType (message : Unsupported)

/-- An error, or the panic of a slice index out of range. -/
inductive Failure where
  | error (error : AbiDecodeError)
  | panic

/-- `arr[..size].copy_from_slice(bytes)` on thirty-two zeros, for `bytes` of that size. -/
def copyToWord (bytes : List UInt8) : Except Failure Word :=
  if h : bytes.length ≤ 32 then
    .ok ⟨bytes ++ List.replicate (32 - bytes.length) 0, by simp; omega⟩
  else .error .panic

mutual

def AbiValue.toAlloy : AbiValue → Except Failure DynSolValue
  | .address addr => .ok (.address addr)
  | .bool b => .ok (.bool b)
  | .fixedBytes bytes =>
      if bytes.length > 32 then .error (.error (.unsupportedType (.atMost32Bytes bytes.length)))
      else do
        let word ← copyToWord bytes
        .ok (.fixedBytes word bytes.length)
  | .bytes bytes => .ok (.bytes bytes)
  | .string s => .ok (.string s)
  | .uint n bits => .ok (.uint n bits)
  | .int n bits => .ok (.int n bits)
  | .array values => do
      let alloyValues ← toAlloyAll values
      .ok (.array alloyValues)

def toAlloyAll : List AbiValue → Except Failure (List DynSolValue)
  | [] => .ok []
  | value :: values => do
      let alloyValue ← value.toAlloy
      let alloyValues ← toAlloyAll values
      .ok (alloyValue :: alloyValues)

end

mutual

def AbiValue.fromAlloy : DynSolValue → Except Failure AbiValue
  | .address addr => .ok (.address addr)
  | .bool b => .ok (.bool b)
  | .uint u bits => .ok (.uint u bits)
  | .int i bits => .ok (.int i bits)
  | .fixedBytes fb size =>
      if size ≤ 32 then .ok (.fixedBytes (fb.val.take size)) else .error .panic
  | .bytes b => .ok (.bytes b)
  | .string s => .ok (.string s)
  | .array arr | .fixedArray arr | .tuple arr | .customStruct _ _ arr => do
      let values ← fromAlloyAll arr
      .ok (.array values)
  | .function _ => .error (.error (.unsupportedType .functionType))

def fromAlloyAll : List DynSolValue → Except Failure (List AbiValue)
  | [] => .ok []
  | value :: values => do
      let first ← AbiValue.fromAlloy value
      let rest ← fromAlloyAll values
      .ok (first :: rest)

end

/-! ## `cached.rs` -/

section Cached

variable (alloy : Alloy)

def valueToAlloyForType : DynSolType → AbiValue → Except Failure DynSolValue
  | .fixedBytes size, .bytes bytes =>
      if bytes.length ≠ size then
        .error (.error (.unsupportedType (.fixedBytesSize size bytes.length)))
      else do
        let word ← copyToWord bytes
        .ok (.fixedBytes word size)
  | .uint bits, .uint n valBits => .ok (.uint n (if bits > 0 then bits else valBits))
  | .int bits, .int n valBits => .ok (.int n (if bits > 0 then bits else valBits))
  | .fixedArray innerTy expectedSize, .array values =>
      if values.length ≠ expectedSize then
        .error (.error (.unsupportedType (.fixedArraySize expectedSize values.length)))
      else do
        let alloyValues ← values.mapM fun v => valueToAlloyForType innerTy v
        .ok (.fixedArray alloyValues)
  | ty, value => do
      let alloyValue ← value.toAlloy
      if alloy.isMatch ty alloyValue then .ok alloyValue
      else .error (.error (.unsupportedType (.typeMismatch ty value)))

structure CachedAbiTypes where
  types : List AbiType
  alloyTypes : List DynSolType
  tupleType : DynSolType

def CachedAbiTypes.fromAbiTypes (types : List AbiType) : Except Failure CachedAbiTypes :=
  if types = [] then .error (.error .emptyTypesList)
  else
    let alloyTypes := types.map AbiType.toAlloyType
    .ok ⟨types, alloyTypes, .tuple alloyTypes⟩

def parseType (ty : Str) : Except Failure AbiType :=
  match AbiType.parse ty with
  | .ok abiType => .ok abiType
  | .error e => .error (.error (.unsupportedType (.invalidType ty e)))

def CachedAbiTypes.new (types : List Str) : Except Failure CachedAbiTypes :=
  if types = [] then .error (.error .emptyTypesList)
  else do
    let parsedTypes ← types.mapM parseType
    let alloyTypes := parsedTypes.map AbiType.toAlloyType
    .ok ⟨parsedTypes, alloyTypes, .tuple alloyTypes⟩

def CachedAbiTypes.decode (cached : CachedAbiTypes) (data : List UInt8) :
    Except Failure (List AbiValue) :=
  if data = [] then .error (.error .emptyData)
  else
    match alloy.abiDecodeParams cached.tupleType data with
    | .error e => .error (.error (.invalidOffset e))
    | .ok (.tuple vals) => vals.mapM AbiValue.fromAlloy
    | .ok other => [other].mapM AbiValue.fromAlloy

def CachedAbiTypes.encode (cached : CachedAbiTypes) (values : List AbiValue) :
    Except Failure (List UInt8) :=
  if values.length ≠ cached.types.length then
    .error (.error (.invalidLength cached.types.length values.length))
  else do
    let alloyValues ← (cached.alloyTypes.zip values).mapM fun entry =>
      valueToAlloyForType alloy entry.1 entry.2
    .ok (alloy.abiEncodeParams (.tuple alloyValues))

end Cached

end Degenbot.AbiTypes
