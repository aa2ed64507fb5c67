import Degenbot.Algorithm.AbiArgument
import Degenbot.Library.HexText

/-! # `py_converters.rs`: JSON to Python objects -/

namespace Degenbot.PyConverters

open Library AbiTypes

/-! ## Fields -/

def hexbytesFields : List String :=
  ["hash", "parent_hash", "transactions_root", "receipts_root", "state_root", "logs_bloom",
    "mix_hash", "nonce", "sha3_uncles", "extra_data", "withdrawals_root", "block_hash", "input",
    "r", "s", "v", "blob_versioned_hashes", "transaction_hash", "contract_address", "topics",
    "data"]

def addressFields : List String := ["address", "miner", "from", "to"]

def numericFields : List String :=
  ["number", "timestamp", "gas_used", "gas_limit", "base_fee_per_gas", "blob_gas_used",
    "excess_blob_gas", "difficulty", "total_difficulty", "size", "chain_id", "gas_price",
    "max_fee_per_gas", "max_priority_fee_per_gas", "max_fee_per_blob_gas", "value", "gas",
    "cumulative_gas_used", "effective_gas_price", "status", "transaction_type", "block_number",
    "log_index", "transaction_index"]

/-! ## Values -/

/-- `serde_json::Number`, a double as its bits. -/
inductive Number where
  | posInt (n : UInt64)
  | negInt (n : Int64)
  | float (bits : UInt64)

/-- `serde_json::Value`. The keys of an object are distinct. -/
inductive Json where
  | null
  | bool (b : Bool)
  | number (n : Number)
  | string (s : Str)
  | array (items : List Json)
  | object (entries : List (String × Json))

inductive PyValue where
  | none
  | bool (b : Bool)
  | int (n : ℤ)
  | float (bits : UInt64)
  | str (s : Str)
  | hexBytes (bytes : List UInt8)
  | list (items : List PyValue)
  | dict (entries : List (String × PyValue))

inductive PyErr where
  | valueError (message : Str)
deriving DecidableEq

/-- The hex decoder and the checksummed text of an address. -/
structure Alloy where
  decode : Str → Except Str (List UInt8)
  toChecksum : Abi.Address → Str

/-! ## Strings -/

def isHexString (s : Str) : Bool :=
  if utf8Len s < 3 then false else "0x".toList.isPrefixOf s && (s.drop 2).all isHexDigit

/-- The text of a `HexError`. -/
def hexErrorText : HexError → Str
  | .invalidHex message => "Invalid hex string: ".toList ++ message

/-- A number after `as_i64`, else `as_u64`, else `as_f64`. -/
def numberToPy : Number → PyValue
  | .posInt n => .int n.toNat
  | .negInt n => .int n.toInt
  | .float bits => .float bits

section Convert

variable (alloy : Alloy)

def hexToHexbytes (hexStr : Str) : Except PyErr PyValue := do
  let bytes ← (decodeHex alloy.decode hexStr).mapError fun e =>
    .valueError ("Invalid hex string: ".toList ++ hexErrorText e)
  .ok (.hexBytes bytes)

def hexToChecksumAddress (hexStr : Str) : Except PyErr PyValue := do
  let bytes ← (decodeHex alloy.decode hexStr).mapError fun e =>
    .valueError ("Invalid hex string: ".toList ++ hexErrorText e)
  if bytes.length ≠ 20 then
    .error (.valueError ("Address must be exactly 20 bytes, got ".toList ++ decimal bytes.length ++
      " bytes".toList))
  else .ok (.str (alloy.toChecksum (BitVec.ofNat 160 (beValue bytes))))

/-- The branch of the numeric fields. A `U256` is read from the bytes after leading zeros. -/
def hexToNumber (s : Str) : Except PyErr PyValue := do
  let bytes ← (alloy.decode (s.drop 2)).mapError fun e =>
    .valueError ("Invalid hex number: ".toList ++ e)
  if bytes.length ≤ 32 then
    .ok (.int (beValue (List.replicate (32 - bytes.length) 0 ++ bytes)))
  else .ok (.int (beValue bytes))

/-- `field_name.is_some_and(|name| FIELDS.contains(name))` -/
def isField (fields : List String) (fieldName : Option String) : Bool :=
  fieldName.any fun name => fields.contains name

def stringToPy (fieldName : Option String) (s : Str) : Except PyErr PyValue :=
  if isField addressFields fieldName && isHexString s then hexToChecksumAddress alloy s
  else if isField hexbytesFields fieldName && isHexString s then hexToHexbytes alloy s
  else if isField numericFields fieldName && isHexString s then hexToNumber alloy s
  else .ok (.str s)

mutual

def jsonToPyInner (fieldName : Option String) : Json → Except PyErr PyValue
  | .null => .ok .none
  | .bool b => .ok (.bool b)
  | .number n => .ok (numberToPy n)
  | .string s => stringToPy alloy fieldName s
  | .array arr => do
      let items ← itemsToPy fieldName arr
      .ok (.list items)
  | .object map => do
      let entries ← entriesToPy map
      .ok (.dict entries)

def itemsToPy (fieldName : Option String) : List Json → Except PyErr (List PyValue)
  | [] => .ok []
  | item :: arr => do
      let first ← jsonToPyInner fieldName item
      let rest ← itemsToPy fieldName arr
      .ok (first :: rest)

def entriesToPy : List (String × Json) → Except PyErr (List (String × PyValue))
  | [] => .ok []
  | (key, val) :: map => do
      let first ← jsonToPyInner (some key) val
      let rest ← entriesToPy map
      .ok ((key, first) :: rest)

end

def jsonToPyWithHexbytes (value : Json) : Except PyErr PyValue := jsonToPyInner alloy none value

end Convert

end Degenbot.PyConverters
