import Degenbot.Algorithm.Types
import Mathlib.Data.Nat.Bits

/-! # `v3_libraries/tick_bitmap.py` and `bit_math.py`

The V4 library has the same text for `flip_tick`, `gen_ticks` and
`next_initialized_tick_within_one_word`. -/

namespace Degenbot

/-! ## Bit positions -/

/-- The digits of `f"{number:b}"[::-1]`. -/
def binaryDigits (number : ℤ) : List Bool := number.toNat.bits

def leastSignificantBit (number : ℤ) : Except Exn ℕ :=
  if number ≤ 0 then .error (.evmRevertError "required: number > 0")
  else if number > maxUint256 then .error (.evmRevertError "required: number <= max(uint256)")
  else .ok ((binaryDigits number).idxOf true)

def mostSignificantBit (number : ℤ) : Except Exn ℕ :=
  if number ≤ 0 then .error (.evmRevertError "required: number >= 0 ")
  else if number > maxUint256 then .error (.evmRevertError "required: number <= max(uint256) ")
  else
    let digits := (binaryDigits number).reverse
    .ok (digits.length - 1 - digits.idxOf true)

/-- The word and the bit of a compressed tick. -/
def position (tick : ℤ) : ℤ × ℕ := (tick >>> (8 : ℕ), (tick % 256).toNat)

/-! ## Flipping one tick -/

theorem xor_bit_lt {bitmap bitPos : ℕ} (h : bitmap < 2 ^ 256) (hb : bitPos < 256) :
    bitmap ^^^ (1 <<< bitPos) < 2 ^ 256 := by
  apply Nat.xor_lt_two_pow h
  rw [Nat.one_shiftLeft]
  exact Nat.pow_lt_pow_right (by norm_num) hb

theorem position_snd_lt (tick : ℤ) : (position tick).2 < 256 := by
  simp only [position]
  omega

def flipTick (tickBitmap : InitializedTickMap) (sparse : Bool) (tick tickSpacing : ℤ)
    (updateBlock : ℕ) : Except Exn InitializedTickMap :=
  if tick.fmod tickSpacing ≠ 0 then .error (.valueError "Invalid tick or spacing")
  else
    let pos := position (evmDivide tick tickSpacing)
    -- a missing word is entered as an empty bitmap, unless the map is sparse
    match tickBitmap.lookup pos.1 with
    | none =>
        if sparse then .error (.liquidityMapWordMissing pos.1)
        else .ok (tickBitmap.insert pos.1
          ⟨0 ^^^ (1 <<< pos.2), updateBlock, xor_bit_lt (by norm_num) (position_snd_lt _)⟩)
    | some current =>
        .ok (tickBitmap.insert pos.1
          ⟨current.bitmap ^^^ (1 <<< pos.2), updateBlock,
            xor_bit_lt current.bitmap_lt (position_snd_lt _)⟩)

/-! ## Searching one word -/

def nextInitializedTickWithinOneWordLegacy (tickBitmap : InitializedTickMap)
    (tick tickSpacing : ℤ) (lessThanOrEqual : Bool) : Except Exn (ℤ × Bool) :=
  let compressed := tick.fdiv tickSpacing
  if lessThanOrEqual then
    let (wordPos, bitPos) := position compressed
    match tickBitmap.lookup wordPos with
    | none => .error (.liquidityMapWordMissing wordPos)
    | some word =>
        let mask := 2 * (1 <<< bitPos) - 1
        let masked := word.bitmap &&& mask
        if masked ≠ 0 then do
          let msb ← mostSignificantBit masked
          .ok ((compressed - (bitPos - msb)) * tickSpacing, true)
        else .ok ((compressed - bitPos) * tickSpacing, false)
  else
    let (wordPos, bitPos) := position (compressed + 1)
    match tickBitmap.lookup wordPos with
    | none => .error (.liquidityMapWordMissing wordPos)
    | some word =>
        -- `bitmap & ~((1 << bit_pos) - 1)`
        let masked := Nat.ldiff word.bitmap ((1 <<< bitPos) - 1)
        if masked ≠ 0 then do
          let lsb ← leastSignificantBit masked
          .ok ((compressed + 1 + (lsb - bitPos)) * tickSpacing, true)
        else .ok ((compressed + 1 + (maxUint8 - bitPos)) * tickSpacing, false)

def nextInitializedTickWithinOneWord (tickBitmap : InitializedTickMap) (tickData : LiquidityMap)
    (tick tickSpacing : ℤ) (lessThanOrEqual : Bool) : Except Exn (ℤ × Bool) :=
  let compressed := tick.fdiv tickSpacing
  let knownTicks := sorted tickData.keys
  if lessThanOrEqual then
    if tick ∈ tickData then .ok (tick, true)
    else
      let wordPos := (position compressed).1
      if wordPos ∉ tickBitmap then .error (.liquidityMapWordMissing wordPos)
      else
        let lowestTickInWord := tickSpacing * (256 * wordPos)
        let tickIndex := bisectLeft knownTicks tick
        let nextTick :=
          if tickIndex = 0 then lowestTickInWord
          else max lowestTickInWord (knownTicks.getD (tickIndex - 1) 0)
        .ok (nextTick, nextTick ∈ tickData)
  else
    let wordPos := (position (compressed + 1)).1
    if wordPos ∉ tickBitmap then .error (.liquidityMapWordMissing wordPos)
    else
      let highestTickInWord := tickSpacing * (256 * wordPos) + tickSpacing * 255
      let tickIndex := bisectRight knownTicks tick
      let nextTick :=
        if tickIndex = knownTicks.length then highestTickInWord
        else min highestTickInWord (knownTicks.getD tickIndex 0)
      .ok (nextTick, nextTick ∈ tickData)

/-! ## The tick generator -/

/-- The suspended state of `gen_ticks`: the initialized ticks not yet passed, in the
order of travel, and the next word boundary. -/
structure TickGen where
  lessThanOrEqual : Bool
  tickSpacing : ℤ
  initializedTicks : List ℤ
  nextBoundaryTick : ℤ
deriving DecidableEq

/-- `boundary_ticks_iter` advances by one word. -/
def TickGen.stepDistance (g : TickGen) : ℤ :=
  if g.lessThanOrEqual then -256 * g.tickSpacing else 256 * g.tickSpacing

/-- The body of `gen_ticks` up to its first `yield`. -/
def genTicks (tickData : LiquidityMap) (startingTick tickSpacing : ℤ) (lessThanOrEqual : Bool) :
    TickGen :=
  let compressed := startingTick.fdiv tickSpacing
  let wordPos := (position compressed).1
  if lessThanOrEqual then
    { lessThanOrEqual, tickSpacing
      initializedTicks := sortedReverse (tickData.keys.filter (· ≤ startingTick))
      nextBoundaryTick := tickSpacing * 256 * wordPos }
  else
    let firstBoundaryTick := tickSpacing * (256 * wordPos + 255)
    { lessThanOrEqual, tickSpacing
      initializedTicks := sorted (tickData.keys.filter (· > startingTick))
      nextBoundaryTick :=
        if startingTick ≥ firstBoundaryTick then firstBoundaryTick + 256 * tickSpacing
        else firstBoundaryTick }

/-- One `yield` of `gen_ticks` and the state in which it is suspended. -/
def TickGen.next (g : TickGen) : (ℤ × Bool) × TickGen :=
  let boundary := g.nextBoundaryTick
  let passBoundary := { g with nextBoundaryTick := boundary + g.stepDistance }
  match g.initializedTicks with
  | [] => ((boundary, false), passBoundary)
  | tick :: rest =>
      -- `before a b`: `a` comes before `b` in the direction of travel
      let before (a b : ℤ) : Bool := if g.lessThanOrEqual then a > b else a < b
      if before tick boundary then ((tick, true), { g with initializedTicks := rest })
      else if before boundary tick then ((boundary, false), passBoundary)
      else ((boundary, true), { passBoundary with initializedTicks := rest })

end Degenbot
