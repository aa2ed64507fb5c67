import Degenbot.Library.Digits

/-! # Helpers that append bytes -/

/-! ## Hash preimages

The `push_*` helpers that `execution_engine.rs` and `signed_order_admission.rs` both
define. A helper here is the bytes it appends. -/

namespace Degenbot

open Library

/-- `B256`, the value of `keccak256`. -/
abbrev B256 := ℕ

/-- `to_be_bytes` of a `u64`. -/
def u64Bytes (value : ℕ) : List UInt8 := beBytes 8 value

/-- The bytes of an address. -/
def addressBytes (address : ℕ) : List UInt8 := beBytes 20 address

def boolByte (value : Bool) : List UInt8 := [if value then 1 else 0]

/-- `as_bytes` of a string. -/
def strBytes (value : String) : List UInt8 := value.toByteArray.data.toList

def pushBytes (value : List UInt8) : List UInt8 := u64Bytes value.length ++ value

def pushStr (value : String) : List UInt8 := pushBytes (strBytes value)

/-- Numbers are written as their decimal text. -/
def pushU256 (value : ℕ) : List UInt8 := pushStr (toString value)

/-! ## ABI helpers

The `push_*` helpers that `executor_abi.rs` and `frontrun_calldata.rs` both define. A helper
here is the bytes it appends. -/

namespace Abi

abbrev Address := BitVec 160
abbrev U256 := BitVec 256

/-- `U256::from` of a `usize`. -/
def ofUsize (value : ℕ) : U256 := BitVec.ofNat 256 value

def zeros (count : ℕ) : List UInt8 := List.replicate count 0

def pushU256Word (value : U256) : List UInt8 := beBytes 32 value.toNat

def pushAddressWord (address : Address) : List UInt8 := zeros 12 ++ addressBytes address.toNat

def pushU8Word (value : UInt8) : List UInt8 := zeros 31 ++ [value]

def pushBoolWord (value : Bool) : List UInt8 := zeros 31 ++ boolByte value

def paddedByteLen (len : ℕ) : ℕ := len + (32 - len % 32) % 32

def encodedBytesLen (len : ℕ) : ℕ := 32 + paddedByteLen len

def pushBytesTail (bytes : List UInt8) : List UInt8 :=
  pushU256Word (ofUsize bytes.length) ++ bytes ++ zeros ((32 - bytes.length % 32) % 32)

end Abi

end Degenbot
