import Mathlib.Algebra.Ring.Nat
import Mathlib.Data.BitVec
import Mathlib.Data.Nat.Sqrt

/-! # `utils/u256.rs` and `optimizers/mobius_int.rs` -/

/-! ## `utils/u256.rs`

The operators of `U256` and `U512` wrap, as those of `BitVec` do. -/

namespace Degenbot.Wide

abbrev U256 := BitVec 256

abbrev U512 := BitVec 512

/-- `U512::from`. -/
def widen {w : ℕ} (value : BitVec w) : U512 := value.setWidth 512

section Checked

variable {w : ℕ} (a b : BitVec w)

def checkedMul : Option (BitVec w) := if a.toNat * b.toNat < 2 ^ w then some (a * b) else none

def checkedAdd : Option (BitVec w) := if a.toNat + b.toNat < 2 ^ w then some (a + b) else none

def checkedSub : Option (BitVec w) := if b ≤ a then some (a - b) else none

end Checked

/-- `ok_or_else`, with the text of the report. -/
def okOrElse {α : Type} (value : Option α) (report : String) : Except String α :=
  match value with
  | some a => .ok a
  | none => .error report

def narrowU512 (value : U512) (error : String) : Except String U256 :=
  if value.toNat < 2 ^ 256 then .ok (value.setWidth 256) else .error error

def mulDiv (a b denom : U256) : Except String U256 :=
  if denom = 0 then .error "u256::mul_div: denominator is zero"
  else narrowU512 (widen a * widen b / widen denom) "u256::mul_div: quotient overflows U256"

/-- The `while` loop of the square roots; `x` decreases. -/
def isqrtLoop {w : ℕ} (n x : BitVec w) : BitVec w :=
  let y := (x + n / x) >>> 1
  if y < x then isqrtLoop n y else x
termination_by x.toNat
decreasing_by exact BitVec.lt_def.mp ‹_›

def isqrt (n : U256) : U256 := if n = 0 then 0 else isqrtLoop n ((n >>> 1) + 1)

def isqrtU512 (n : U512) : U512 := if n = 0 then 0 else isqrtLoop n ((n >>> 1) + 1)

end Degenbot.Wide

/-! ## `optimizers/mobius_int.rs` -/

namespace Degenbot.Mobius

open Wide

structure IntHopState where
  reserveIn : U256
  reserveOut : U256
  gammaNumer : BitVec 64
  feeDenom : BitVec 64
deriving DecidableEq

/-- The quotient is cut to its last 32 bytes. -/
def IntHopState.swap (hop : IntHopState) (x : U256) : U256 :=
  let numerator := widen hop.gammaNumer * widen hop.reserveOut * widen x
  let denom := widen hop.feeDenom * widen hop.reserveIn + widen hop.gammaNumer * widen x
  if denom = 0 then 0 else (numerator / denom).setWidth 256

structure IntMobiusCoefficients where
  K : U512
  M : U512
  N : U512
  isProfitable : Bool
deriving DecidableEq

inductive MobiusError where
  | emptyHops
deriving DecidableEq

/-- The first column and the diagonal of the matrix: `a00`, `a10` and `a11`. -/
structure HopMatrix where
  a00 : U512
  a10 : U512
  a11 : U512

def IntHopState.matrix (hop : IntHopState) : HopMatrix where
  a00 := widen hop.gammaNumer * widen hop.reserveOut
  a10 := widen hop.gammaNumer
  a11 := widen hop.feeDenom * widen hop.reserveIn

def HopMatrix.multiply (current : HopMatrix) (hop : IntHopState) : HopMatrix where
  a00 := current.a00 * widen hop.gammaNumer * widen hop.reserveOut
  a10 := current.a10 * widen hop.feeDenom * widen hop.reserveIn +
    current.a00 * widen hop.gammaNumer
  a11 := current.a11 * widen hop.feeDenom * widen hop.reserveIn

def computeIntMobiusCoefficients : List IntHopState → Except MobiusError IntMobiusCoefficients
  | [] => .error .emptyHops
  | first :: hops =>
      let matrix := hops.foldl HopMatrix.multiply first.matrix
      .ok ⟨matrix.a00, matrix.a11, matrix.a10, matrix.a00 > matrix.a11⟩

/-- The `for` loop returns early on a zero amount. -/
def intSimulatePath (amount : U256) : List IntHopState → U256
  | [] => amount
  | hop :: hops => if amount = 0 then 0 else intSimulatePath (hop.swap amount) hops

end Degenbot.Mobius
