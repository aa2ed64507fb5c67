import Mathlib.Data.List.AList
import Mathlib.Data.List.Sort
import Mathlib.Tactic

/-! # Shared vocabulary

Exceptions, integer ranges and the value types of a concentrated-liquidity map.
Python integers are `ℤ`; a bitmap word, which is only read bit by bit, is `ℕ`. -/

namespace Degenbot

/-- The exceptions raised by the modelled code. `MissingLiquidityData` is a subclass
of `LiquidityMapWordMissing`. -/
inductive Exn where
  | evmRevertError (error : String)
  | assertionError
  | valueError (msg : String)
  | runtimeError (msg : String)
  | typeError (msg : String)
  | attributeError (msg : String)
  | keyError
  | indexError
  | zeroDivisionError
  | notImplementedError
  | validationError
  | encodingError
  | liquidityMapWordMissing (word : ℤ)
  | missingLiquidityData (word : ℤ)
  | noPoolStateAvailable (block : ℕ)
  | lateUpdateError
  | externalUpdateError (message : String)
  | liquidityPoolError (message : String)
  | invalidSwapInputAmount
  | incompleteSwap (amountIn amountOut : ℤ)
  | possibleInaccurateResult (amountIn amountOut : ℤ)
  | incompatiblePoolInvariant
  | degenbotValueError (message : String)
  | pathValidationError (msg : String)
  | arbitrageError (message : String)
  | systemExit (code : ℕ)
deriving DecidableEq, Repr

/-- A Python `dict`. No modelled function depends on the iteration order. -/
abbrev Dict (α : Type*) (β : Type*) := AList (fun _ : α => β)

/-! ## Integer ranges -/

def minInt128 : ℤ := -2 ^ 127
def maxInt128 : ℤ := 2 ^ 127 - 1
def minInt256 : ℤ := -2 ^ 255
def maxInt256 : ℤ := 2 ^ 255 - 1
def maxUint8 : ℤ := 2 ^ 8 - 1
def maxUint128 : ℤ := 2 ^ 128 - 1
def maxUint160 : ℤ := 2 ^ 160 - 1
def maxUint256 : ℤ := 2 ^ 256 - 1

/-! ## Liquidity map entries -/

/-- `UniswapV3BitmapAtWord`; the pydantic field check is carried as a proof. -/
structure BitmapAtWord where
  bitmap : ℕ
  block : ℕ
  bitmap_lt : bitmap < 2 ^ 256
deriving DecidableEq

/-- `UniswapV3LiquidityAtTick`; the pydantic field checks are carried as proofs. -/
structure LiquidityAtTick where
  liquidityNet : ℤ
  liquidityGross : ℤ
  block : ℕ
  net_mem : minInt128 ≤ liquidityNet ∧ liquidityNet ≤ maxInt128
  gross_mem : 0 ≤ liquidityGross ∧ liquidityGross ≤ maxUint128
deriving DecidableEq

/-- Construction validates both liquidity values. -/
def LiquidityAtTick.validated (liquidityNet liquidityGross : ℤ) (block : ℕ) :
    Except Exn LiquidityAtTick :=
  if hn : minInt128 ≤ liquidityNet ∧ liquidityNet ≤ maxInt128 then
    if hg : 0 ≤ liquidityGross ∧ liquidityGross ≤ maxUint128 then
      .ok ⟨liquidityNet, liquidityGross, block, hn, hg⟩
    else .error .validationError
  else .error .validationError

/-- An uninitialised tick, as it is entered before its first liquidity. -/
def LiquidityAtTick.empty (block : ℕ) : LiquidityAtTick :=
  ⟨0, 0, block, by decide, by decide⟩

abbrev InitializedTickMap := Dict ℤ BitmapAtWord
abbrev LiquidityMap := Dict ℤ LiquidityAtTick

/-! ## Built-ins -/

/-- `sorted` on a list of integers. -/
def sorted (xs : List ℤ) : List ℤ := xs.insertionSort (· ≤ ·)

/-- `sorted(..., reverse=True)` on a list of integers. -/
def sortedReverse (xs : List ℤ) : List ℤ := xs.insertionSort (· ≥ ·)

/-- `bisect.bisect_left` on a sorted list. -/
def bisectLeft (xs : List ℤ) (x : ℤ) : ℕ := (xs.takeWhile (· < x)).length

/-- `bisect.bisect_right` on a sorted list. -/
def bisectRight (xs : List ℤ) (x : ℤ) : ℕ := (xs.takeWhile (· ≤ x)).length

/-- `evm_divide`: integer division rounding towards zero. -/
def evmDivide (numerator denominator : ℤ) : ℤ :=
  if numerator < 0 then -((-numerator).fdiv denominator) else numerator.fdiv denominator

/-! ## `erc20/`: tokens, Ether placeholders and wrapped native tokens -/

/-- An `Erc20Token`; tokens are compared by address. -/
structure Erc20Token where
  address : ℕ
  chainId : ℕ
  symbol : String
  decimals : ℕ

namespace Erc20Token

/-- `__eq__` between two tokens. -/
def same (a b : Erc20Token) : Bool := a.address = b.address

/-- The token manager builds an `EtherPlaceholder` at these addresses, and only there. -/
def etherAddresses : List ℕ := [0, 0xEEEEEEEEEEEEEEEEEEEEEEEEEEEEEEEEEEEEEEEE]

/-- `isinstance(token, EtherPlaceholder)`. -/
def isEther (token : Erc20Token) : Bool := token.address ∈ etherAddresses

end Erc20Token

def zeroAddress : ℕ := 0

/-- `WRAPPED_NATIVE_TOKENS`, by chain id. -/
def wrappedNativeTokens : ℕ → Option ℕ
  | 1 => some 0xC02aaA39b223FE8D0A0e5C4F27eAD9083C756Cc2
  | 8453 => some 0x4200000000000000000000000000000000000006
  | 250 => some 0x21be370D5312f44cB42ce377BC9b8a0cEF1A4C83
  | 42161 => some 0x82aF49447D8a07e3bd95BD0d56f35241523fBab1
  | 43114 => some 0xB31f66AA3C1e785363F0875A1B74E27b85FD66c7
  | _ => none

/-- `_tokens_equivalent` of `arbitrage_path.py`. -/
def tokensEquivalent (a b : Erc20Token) : Bool :=
  if a.same b then true
  else if a.isEther = b.isEther then false
  else
    let wrappedToken := if a.isEther then b else a
    wrappedNativeTokens wrappedToken.chainId = some wrappedToken.address

end Degenbot
