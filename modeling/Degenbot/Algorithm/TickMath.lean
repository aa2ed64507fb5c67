import Degenbot.Algorithm.Types
import Mathlib.Data.Int.Bitwise
import Mathlib.Data.Nat.Size

/-! # `tick_math.py` of the V3 and V4 libraries

Ratios are non-negative throughout and are kept in `ℕ`; `log_2` is signed. -/

namespace Degenbot

/-- `MAX_TICK`; `MIN_TICK` is its negative. -/
def maxTick : ℤ := 887272

/-- `MIN_SQRT_RATIO` and `MIN_SQRT_PRICE` -/
def minSqrtRatio : ℤ := 4295128739

/-- `MAX_SQRT_RATIO` and `MAX_SQRT_PRICE` -/
def maxSqrtRatio : ℤ := 1461446703485210103287273052203988822378723970342

/-- `MIN_ERROR` -/
def minError : ℤ := 291339464771989622907027621153398088495

/-- `MAX_ERROR` -/
def maxError : ℤ := 3402992956809132418596140100660247210

/-- The pairs `(tick_mask, ratio_multiplier)`. -/
def ratioMultipliers : List (ℕ × ℕ) := [
  (2, 340248342086729790484326174814286782778),
  (4, 340214320654664324051920982716015181260),
  (8, 340146287995602323631171512101879684304),
  (16, 340010263488231146823593991679159461444),
  (32, 339738377640345403697157401104375502016),
  (64, 339195258003219555707034227454543997025),
  (128, 338111622100601834656805679988414885971),
  (256, 335954724994790223023589805789778977700),
  (512, 331682121138379247127172139078559817300),
  (1024, 323299236684853023288211250268160618739),
  (2048, 307163716377032989948697243942600083929),
  (4096, 277268403626896220162999269216087595045),
  (8192, 225923453940442621947126027127485391333),
  (16384, 149997214084966997727330242082538205943),
  (32768, 66119101136024775622716233608466517926),
  (65536, 12847376061809297530290974190478138313),
  (131072, 485053260817066172746253684029974020),
  (262144, 691415978906521570653435304214168),
  (524288, 1404880482679654955896180642)]

/-- One pass of the loop over `(tick_mask, ratio_multiplier)`. -/
def multiplyRatio (absTick ratio : ℕ) (entry : ℕ × ℕ) : ℕ :=
  if absTick &&& entry.1 ≠ 0 then (ratio * entry.2) >>> 128 else ratio

/-- The bits of the logarithm computed by squaring. -/
def logFactors : List ℕ := [63, 62, 61, 60, 59, 58, 57, 56, 55, 54, 53, 52, 51]

/-- `r = (r * r) >> 127; f = r >> 128; log_2 |= f << factor` -/
def squareStep (state : ℕ × ℤ) (factor : ℕ) : ℕ × ℤ :=
  let r := (state.1 * state.1) >>> 127
  let f := r >>> 128
  (r, Int.lor state.2 ((f <<< factor : ℕ) : ℤ))

/-- The loop over `factor`, which also halves `r` when a bit was found. -/
def log2Loop (state : ℕ × ℤ) : ℕ × ℤ :=
  logFactors.foldl (fun state factor =>
    let (r, log2) := squareStep state factor
    (r >>> (r >>> 128), log2)) state

/-- The signed Q64.64 logarithm of a Q128.128 ratio whose most significant bit is `msb`. -/
def priceLog2 (ratio msb : ℕ) : ℤ :=
  let r := if msb ≥ 128 then ratio >>> (msb - 127) else ratio <<< (127 - msb)
  let log2 := ((msb : ℤ) - 128) <<< (64 : ℕ)
  (squareStep (log2Loop (r, log2)) 50).2

/-- `log_sqrt10001` -/
def logSqrt10001 (log2 : ℤ) : ℤ := log2 * 255738958999603826347141

/-- `(log_sqrt10001 - MAX_ERROR) >> 128` -/
def tickLow (log2 : ℤ) : ℤ := (logSqrt10001 log2 - maxError) >>> (128 : ℕ)

/-- `(log_sqrt10001 + MIN_ERROR) >> 128` -/
def tickHigh (log2 : ℤ) : ℤ := (logSqrt10001 log2 + minError) >>> (128 : ℕ)

namespace V3

def getSqrtRatioAtTick (tick : ℤ) : Except Exn ℤ :=
  let absTick := tick.natAbs
  if ¬(absTick : ℤ) ≤ maxTick then .error (.evmRevertError "required: abs_tick <= MAX_TICK")
  else
    let ratio := if absTick &&& 0x1 ≠ 0 then 340265354078544963557816517032075149313
      else (2 ^ 128 - 1) + 1
    let ratio := ratioMultipliers.foldl (multiplyRatio absTick) ratio
    let ratio := if tick > 0 then (2 ^ 256 - 1) / ratio else ratio
    .ok (((ratio >>> 32) + if ratio % (1 <<< 32) = 0 then 0 else 1 : ℕ) : ℤ)

/-- The thresholds of the unrolled binary search for the most significant bit. -/
def msbFactors : List (ℕ × ℕ) := [
  (7, 340282366920938463463374607431768211455),
  (6, 18446744073709551615),
  (5, 4294967295),
  (4, 65535),
  (3, 255),
  (2, 15),
  (1, 3)]

/-- The position of the most significant bit, found by binary search. -/
def msbSearch (ratio : ℕ) : ℕ :=
  let (r, msb) := msbFactors.foldl (fun (state : ℕ × ℕ) entry =>
    let f := (if state.1 > entry.2 then 1 else 0) <<< entry.1
    (state.1 >>> f, state.2 ||| f)) (ratio, 0)
  msb ||| if r > 1 then 1 else 0

def getTickAtSqrtRatio (sqrtPriceX96 : ℤ) : Except Exn ℤ :=
  if ¬(sqrtPriceX96 ≥ minSqrtRatio ∧ sqrtPriceX96 < maxSqrtRatio) then
    .error (.evmRevertError "R")
  else
    let ratio := sqrtPriceX96.toNat <<< 32
    let log2 := priceLog2 ratio (msbSearch ratio)
    if tickLow log2 = tickHigh log2 then .ok (tickLow log2)
    else do
      let ratioHigh ← getSqrtRatioAtTick (tickHigh log2)
      .ok (if ratioHigh ≤ sqrtPriceX96 then tickHigh log2 else tickLow log2)

end V3

namespace V4

def getSqrtPriceAtTick (tick : ℤ) : Except Exn ℤ :=
  let absTick := tick.natAbs
  if (absTick : ℤ) > maxTick then .error (.evmRevertError "InvalidTick")
  else
    let price := (1 <<< 128) ^^^
      (((1 <<< 128) ^^^ 340265354078544963557816517032075149313) * (absTick &&& 1))
    let price := ratioMultipliers.foldl (multiplyRatio absTick) price
    let price := if tick > 0 then (2 ^ 256 - 1) / price else price
    .ok (((price + ((1 <<< 32) - 1)) >>> 32 : ℕ) : ℤ)

/-- `bit_math.most_significant_bit` of the V4 library. -/
def mostSignificantBit (number : ℕ) : Except Exn ℕ :=
  if number ≤ 0 then .error (.valueError "Number must be >0") else .ok (number.size - 1)

def getTickAtSqrtPrice (sqrtPriceX96 : ℤ) : Except Exn ℤ :=
  if sqrtPriceX96 < minSqrtRatio ∨ sqrtPriceX96 > maxSqrtRatio then
    .error (.evmRevertError "InvalidSqrtPrice")
  else do
    let price := sqrtPriceX96.toNat <<< 32
    let msb ← mostSignificantBit price
    let log2 := priceLog2 price msb
    if tickLow log2 = tickHigh log2 then .ok (tickLow log2)
    else do
      let priceHigh ← getSqrtPriceAtTick (tickHigh log2)
      .ok (if priceHigh ≤ sqrtPriceX96 then tickHigh log2 else tickLow log2)

end V4

end Degenbot
