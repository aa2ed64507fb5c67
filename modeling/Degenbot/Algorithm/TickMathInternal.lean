import Degenbot.Algorithm.TickMath
import Mathlib.Algebra.Ring.Nat

/-! # `tick_math.rs`

A `U256` is a number below `2 ^ 256` and an `I256` one between `-2 ^ 255` and `2 ^ 255`. -/

namespace Degenbot.TickMathInternal

/-- The errors, and the panics of a conversion or an operator. -/
inductive TickMathError
  | invalidTick (tick : ℤ)
  | sqrtRatioOutOfBounds
  | conversion
  | divisionByZero
  | overflow
  deriving DecidableEq

/-- What an operator does when its result does not fit: those of `U256` wrap, those of
`I256` wrap or panic as the crate is built. -/
inductive Overflow
  | wraps
  | reported
  deriving DecidableEq

section Operators

variable (mode : Overflow)

/-- The `U256` result of an operator whose exact result is `value`. -/
def u256 (value : ℕ) : Except TickMathError ℕ :=
  if value < 2 ^ 256 then .ok value
  else if mode = .reported then .error .overflow
  else .ok (value % 2 ^ 256)

/-- The `I256` result of an operator whose exact result is `value`. -/
def i256 (value : ℤ) : Except TickMathError ℤ :=
  if -2 ^ 255 ≤ value ∧ value < 2 ^ 255 then .ok value
  else if mode = .reported then .error .overflow
  else .ok (value.bmod (2 ^ 256))

end Operators

/-- A conversion to an unsigned type of `bits` bits. -/
def toUint (bits value : ℕ) : Except TickMathError ℕ :=
  if value < 2 ^ bits then .ok value else .error .conversion

/-- A conversion to a signed type of `bits + 1` bits. -/
def toInt (bits : ℕ) (value : ℤ) : Except TickMathError ℤ :=
  if -2 ^ bits ≤ value ∧ value < 2 ^ bits then .ok value else .error .conversion

/-- `SqrtRatio::MIN` -/
def sqrtRatioMin : ℕ := 4295128739

/-- `SqrtRatio::MAX` -/
def sqrtRatioMax : ℕ := 1461446703485210103287273052203988822378723970342

/-- `MIN_TICK` -/
def minTick : ℤ := -887272

/-- `TICK_MASKS` -/
def tickMasks : List (ℕ × ℕ) := [
  (0x2, 0xfff97272373d413259a46990580e213a),
  (0x4, 0xfff2e50f5f656932ef12357cf3c7fdcc),
  (0x8, 0xffe5caca7e10e4e61c3624eaa0941cd0),
  (0x10, 0xffcb9843d60f6159c9db58835c926644),
  (0x20, 0xff973b41fa98c081472e6896dfb254c0),
  (0x40, 0xff2ea16466c96a3843ec78b326b52861),
  (0x80, 0xfe5dee046a99a2a811c461f1969c3053),
  (0x100, 0xfcbe86c7900a88aedcffc83b479aa3a4),
  (0x200, 0xf987a7253ac413176f2b074cf7815e54),
  (0x400, 0xf3392b0822b70005940c7a398e4b70f3),
  (0x800, 0xe7159475a2c29b7443b29c7fa6e889d9),
  (0x1000, 0xd097f3bdfd2022b8845ad8f792aa5825),
  (0x2000, 0xa9f746462d870fdf8a65dc1f90e061e5),
  (0x4000, 0x70d869a156d2a1b890bb3df62baf32f7),
  (0x8000, 0x31be135f97d08fd981231505542fcfa6),
  (0x10000, 0x9aa508b5b7a84e1c677de54f3e99bc9),
  (0x20000, 0x5d6af8dedb81196699c329225ee604),
  (0x40000, 0x2216e584f5fa1ea926041bedfe98),
  (0x80000, 0x48a170391f7dc42444e8fa2)]

section SqrtRatio

variable (mode : Overflow)

/-- The loop over `TICK_MASKS`. -/
def maskLoop (absTick ratio : ℕ) : Except TickMathError ℕ :=
  tickMasks.foldlM (fun ratio entry =>
    if absTick &&& entry.1 ≠ 0 then do
      let product ← u256 mode (ratio * entry.2)
      .ok (product >>> 128)
    else .ok ratio) ratio

/-- `if tick > 0 { ratio = U256::MAX / ratio; }` -/
def invertRatio (tick : ℤ) (ratio : ℕ) : Except TickMathError ℕ :=
  if tick > 0 then
    if ratio = 0 then .error .divisionByZero else .ok ((2 ^ 256 - 1) / ratio)
  else .ok ratio

/-- The shift by `SQRT_RATIO_SHIFT`, rounded up. -/
def shiftRatio (ratio : ℕ) : Except TickMathError ℕ :=
  let sqrtRatio := ratio >>> 32
  if ratio % 0x100000000 ≠ 0 then u256 mode (sqrtRatio + 1) else .ok sqrtRatio

def getSqrtRatioAtTickInternal (tick : ℤ) : Except TickMathError ℕ :=
  if ¬(minTick ≤ tick ∧ tick ≤ maxTick) then .error (.invalidTick tick)
  else do
    let absTick := tick.natAbs
    let ratio := if absTick &&& 1 = 0 then 0x100000000000000000000000000000000
      else 0xfffcb933bd6fad37aa2d162d1a594001
    let ratio ← maskLoop mode absTick ratio
    let ratio ← invertRatio tick ratio
    let sqrtRatio ← shiftRatio mode ratio
    toUint 160 sqrtRatio

end SqrtRatio

/-- `FACTOR_SHIFT_VALUES` -/
def factorShiftValues : List (ℕ × ℕ) := [
  (0xFFFFFFFFFFFFFFFFFFFFFFFFFFFFFFFF, 7),
  (0xFFFFFFFFFFFFFFFF, 6),
  (0xFFFFFFFF, 5),
  (0xFFFF, 4),
  (0xFF, 3),
  (0xF, 2),
  (0x3, 1),
  (0x1, 0)]

section Tick

variable (mode : Overflow)

/-- The loop over `FACTOR_SHIFT_VALUES`, on `(r, msb)`. -/
def msbLoop (ratio : ℕ) : Except TickMathError (ℕ × ℕ) :=
  factorShiftValues.foldlM (fun state entry => do
    let f ← u256 mode ((if state.1 > entry.1 then 1 else 0) <<< entry.2)
    .ok (state.1 >>> f, state.2 ||| f)) (ratio, 0)

/-- `r = (r * r) >> 127; f = r >> 128; log_2 |= I256::unchecked_from(f) << shift_factor`,
on `(r, log_2)`. -/
def squareDigit (shiftFactor : ℕ) (state : ℕ × ℤ) : Except TickMathError (ℕ × ℤ) := do
  let product ← u256 mode (state.1 * state.1)
  let r := product >>> 127
  let f ← toInt 255 (r >>> 128 : ℕ)
  let digit ← i256 mode (f <<< shiftFactor)
  .ok (r, Int.lor state.2 digit)

/-- `for shift_factor in (51..=63).rev()` -/
def digitLoop (state : ℕ × ℤ) : Except TickMathError (ℕ × ℤ) :=
  [63, 62, 61, 60, 59, 58, 57, 56, 55, 54, 53, 52, 51].foldlM (fun state shiftFactor => do
    let (r, log2) ← squareDigit mode shiftFactor state
    .ok (r >>> (r >>> 128), log2)) state

/-- `ratio` with its most significant bit moved to bit 127. -/
def normalizeRatio (ratio msb : ℕ) : Except TickMathError ℕ :=
  if msb ≥ 128 then .ok (ratio >>> (msb - 127)) else u256 mode (ratio <<< (127 - msb))

def getTickAtSqrtRatioInternal (sqrtPriceX96 : ℕ) : Except TickMathError ℤ :=
  if ¬(sqrtPriceX96 ≥ sqrtRatioMin ∧ sqrtPriceX96 < sqrtRatioMax) then
    .error .sqrtRatioOutOfBounds
  else do
    let ratio ← u256 mode (sqrtPriceX96 <<< 32)
    let (_, msb) ← msbLoop mode ratio
    let msb ← toUint 64 msb
    let r ← normalizeRatio mode ratio msb
    let offset ← i256 mode ((msb : ℤ) - 128)
    let log2 ← i256 mode (offset <<< (64 : ℕ))
    let state ← digitLoop mode (r, log2)
    let (_, log2) ← squareDigit mode 50 state
    let logSqrt10001 ← i256 mode (log2 * 255738958999603826347141)
    let logSqrtLow ← i256 mode (logSqrt10001 - 3402992956809132418596140100660247210)
    let logSqrtHigh ← i256 mode (logSqrt10001 + 291339464771989622907027621153398088495)
    let tickLow ← toInt 23 (logSqrtLow >>> (128 : ℕ))
    let tickHigh ← toInt 23 (logSqrtHigh >>> (128 : ℕ))
    if tickLow = tickHigh then .ok tickLow
    else do
      let highRatio ← getSqrtRatioAtTickInternal mode tickHigh
      .ok (if highRatio ≤ sqrtPriceX96 then tickHigh else tickLow)

end Tick

end Degenbot.TickMathInternal
