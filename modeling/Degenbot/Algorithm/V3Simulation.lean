import Degenbot.Algorithm.PoolJson
import Degenbot.Library.WhileLoop

/-! # `simulation/v3.rs` and `simulation/v3_optimize.rs`

The price and amount functions of the vendored `uniswap_v3_math` are a parameter; the walk
over the bitmap and `add_delta` are modelled. A tick spacing is an `int24` of the contract,
so that no product of a tick and a spacing leaves `i32`. The `while` loop runs with a step
budget, see `Library.whileLoop`. -/

namespace Degenbot.V3Simulation

open Library

/-! ## `uniswap_v3_math` -/

/-- The value of `compute_swap_step`. -/
structure StepResult where
  sqrtRatioNextX96 : ℕ
  amountIn : ℕ
  amountOut : ℕ
  feeAmount : ℕ
deriving DecidableEq

/-- The vendored functions that are called from the swap loop. -/
structure UniswapV3Math where
  computeSwapStep : (sqrtRatioCurrentX96 sqrtRatioTargetX96 : ℕ) →
    (liquidity amountRemaining feePips : ℤ) → Except String StepResult
  getSqrtRatioAtTick : ℤ → Except String ℕ
  getTickAtSqrtRatio : ℕ → Except String ℤ

/-- `255 - x.leading_zeros()` -/
def mostSignificantBit (x : ℕ) : Except String ℕ :=
  if x = 0 then
    .error "Can not get most significant bit or least significant bit on zero value"
  else .ok (255 - (256 - x.size))

/-- `x.trailing_zeros()` -/
def leastSignificantBit (x : ℕ) : Except String ℕ :=
  if x = 0 then
    .error "Can not get most significant bit or least significant bit on zero value"
  else .ok (x.bits.idxOf true)

/-- `position`; the cast to `u8` is the remainder modulo 256. -/
def position (tick : ℤ) : ℤ × ℕ := (tick >>> (8 : ℕ), (tick % 256).toNat)

def nextInitializedTickWithinOneWord (getTick : ℤ → ℕ) (tick tickSpacing : ℤ) (lte : Bool) :
    Except String (ℤ × Bool) :=
  let compressed := if tick < 0 ∧ tick.tmod tickSpacing ≠ 0 then tick.tdiv tickSpacing - 1
    else tick.tdiv tickSpacing
  if lte then
    let (wordPos, bitPos) := position compressed
    let mask := (1 <<< bitPos) - 1 + (1 <<< bitPos)
    let masked := getTick wordPos &&& mask
    if masked ≠ 0 then do
      let msb ← mostSignificantBit masked
      .ok ((compressed - ((bitPos : ℤ) - msb) % 256) * tickSpacing, true)
    else .ok ((compressed - bitPos) * tickSpacing, false)
  else
    let (wordPos, bitPos) := position (compressed + 1)
    -- the complement of `(1 << bit_pos) - 1`
    let masked := Nat.ldiff (getTick wordPos) ((1 <<< bitPos) - 1)
    if masked ≠ 0 then do
      let lsb ← leastSignificantBit masked
      .ok ((compressed + 1 + ((lsb : ℤ) - bitPos) % 256) * tickSpacing, true)
    else .ok ((compressed + 1 + (0xFF - bitPos)) * tickSpacing, false)

/-- The liquidity is a `u128` and the delta an `i128`. -/
def addDelta (x y : ℤ) : Except String ℤ :=
  if y < 0 then
    if x < -y then .error "Liquidity Sub" else .ok (x - -y)
  else if 2 ^ 128 ≤ x + y then .error "Liquidity Add"
  else .ok (x + y)

/-! ## `v3.rs` -/

/-- `TickProvider::get_tick` -/
def getTick (pool : V3Snapshot) (wordPos : ℤ) : ℕ := (pool.tickBitmap.lookup wordPos).getD 0

/-- `-liquidity_net`, which leaves `i128::MIN` as it is. -/
def negI128 (value : ℤ) : ℤ := (-value).bmod (2 ^ 128)

/-- A value that must fit into `I256`. -/
def toI256 (value : ℤ) (report : String) : Except String ℤ :=
  if -2 ^ 255 ≤ value ∧ value < 2 ^ 255 then .ok value else .error report

/-- The variables of the loop. -/
structure LoopState where
  sqrtPrice : ℕ
  tick : ℤ
  liquidity : ℤ
  amountRemaining : ℤ
  amountCalculated : ℤ
deriving DecidableEq

def sqrtPriceLimit (zeroForOne : Bool) : ℕ :=
  if zeroForOne then 4295128739 + 1
  else 1461446703485210103287273052203988822378723970342 - 1

section Loop

variable (math : UniswapV3Math) (pool : V3Snapshot) (zeroForOne : Bool)

def guard (state : LoopState) : Bool :=
  state.amountRemaining ≠ 0 ∧ state.sqrtPrice ≠ sqrtPriceLimit zeroForOne

/-- The checked additions and subtractions of a step. -/
def applyStep (state : LoopState) (step : StepResult) : Except String LoopState := do
  let consumed := step.amountIn + step.feeAmount
  if 2 ^ 256 ≤ consumed then .error "v3::amount_out: step input overflow"
  else do
    let consumed ← toI256 consumed "v3::amount_out: step input exceeds I256"
    let amountRemaining ← toI256 (state.amountRemaining - consumed)
      "v3::amount_out: amount_remaining underflow"
    let stepAmountOut ← toI256 step.amountOut "v3::amount_out: step output exceeds I256"
    let amountCalculated ← toI256 (state.amountCalculated - stepAmountOut)
      "v3::amount_out: amount_calculated underflow"
    .ok { state with sqrtPrice := step.sqrtRatioNextX96, amountRemaining, amountCalculated }

/-- The active liquidity after an initialized tick; a tick without an entry has no net. -/
def crossTick (tickNext liquidity : ℤ) : Except String ℤ :=
  let liquidityNet := (pool.tickNetLiquidity.lookup tickNext).getD 0
  addDelta liquidity (if zeroForOne then negI128 liquidityNet else liquidityNet)

/-- The end of a pass. -/
def finishPass (initialized : Bool) (tickNext : ℤ) (sqrtPriceNext sqrtPriceStart : ℕ)
    (state : LoopState) : Except String LoopState :=
  if state.sqrtPrice = sqrtPriceNext then do
    let liquidity ← (if initialized then crossTick pool zeroForOne tickNext state.liquidity
      else .ok state.liquidity)
    .ok { state with liquidity, tick := if zeroForOne then tickNext - 1 else tickNext }
  else if state.sqrtPrice ≠ sqrtPriceStart then do
    let tick ← math.getTickAtSqrtRatio state.sqrtPrice
    .ok { state with tick }
  else .ok state

/-- One pass of the loop. -/
def pass (feePips : ℤ) (state : LoopState) : Except String LoopState := do
  let (tickNextUnclamped, initialized) ← nextInitializedTickWithinOneWord (getTick pool)
    state.tick pool.tickSpacing zeroForOne
  -- `clamp(MIN_TICK, MAX_TICK)`
  let tickNext := max (-887272) (min tickNextUnclamped 887272)
  let sqrtPriceNext ← math.getSqrtRatioAtTick tickNext
  let sqrtPriceTarget := if zeroForOne then max sqrtPriceNext (sqrtPriceLimit zeroForOne)
    else min sqrtPriceNext (sqrtPriceLimit zeroForOne)
  let step ← math.computeSwapStep state.sqrtPrice sqrtPriceTarget state.liquidity
    state.amountRemaining feePips
  let moved ← applyStep state step
  finishPass math pool zeroForOne initialized tickNext sqrtPriceNext state.sqrtPrice moved

/-- The checks of the pool and of the amount, with `fee_pips` and `amount_specified`. -/
def checkSwap (amountIn : ℕ) : Except String (ℤ × ℤ) :=
  if pool.feeBps ≥ 10000 then .error "v3::amount_out: fee_bps must be < 10000"
  else if pool.tickSpacing ≤ 0 then .error "v3::amount_out: tick_spacing must be positive"
  else match pool.feePips with
    | none => .error "v3::amount_out: fee_bps overflow"
    | some feePips => do
        let amountSpecified ← toI256 amountIn "v3::amount_out: amount_in exceeds I256 range"
        .ok (feePips, amountSpecified)

/-- The checks and the loop, the text that both functions share. -/
def swapLoop (fuel amountIn : ℕ) : Option (Except String LoopState) :=
  match checkSwap pool amountIn with
  | .error report => some (.error report)
  | .ok (feePips, amountSpecified) =>
      whileLoop (guard zeroForOne) (pass math pool zeroForOne feePips) fuel
        ⟨pool.sqrtPriceX96, pool.tick, pool.liquidity, amountSpecified, 0⟩

/-- `(-amount_calculated).into_raw()` -/
def LoopState.amountOut (state : LoopState) : ℕ := (-state.amountCalculated % 2 ^ 256).toNat

/-- The pool at the end of the loop. -/
def LoopState.nextPool (state : LoopState) : V3Snapshot :=
  { pool with sqrtPriceX96 := state.sqrtPrice, tick := state.tick, liquidity := state.liquidity }

def amountOutWithState (fuel amountIn : ℕ) : Option (Except String (ℕ × V3Snapshot)) :=
  if amountIn = 0 then some (.ok (0, pool))
  else (swapLoop math pool zeroForOne fuel amountIn).map
    (·.map fun state => (state.amountOut, state.nextPool pool))

def amountOut (fuel amountIn : ℕ) : Option (Except String ℕ) :=
  if amountIn = 0 then some (.error "v3::amount_out: amount_in is zero")
  else (swapLoop math pool zeroForOne fuel amountIn).map (·.map LoopState.amountOut)

end Loop

/-! ## `v3_optimize.rs` -/

/-- The `?` operator of a run with a budget. -/
def andThen {α β : Type} (run : Option (Except String α))
    (next : α → Option (Except String β)) : Option (Except String β) :=
  match run with
  | none => none
  | some (.error report) => some (.error report)
  | some (.ok a) => next a

section Sandwich

variable (math : UniswapV3Math) (pool : V3Snapshot) (zeroForOne : Bool) (fuel : ℕ)
  (victimAmountIn victimMinOut : ℕ)

/-- The output of the victim after a frontrun of `amount`. -/
def vicOut (amount : ℕ) : Option (Except String ℕ) :=
  andThen (amountOutWithState math pool zeroForOne fuel amount) fun frontrun =>
    amountOut math frontrun.2 zeroForOne fuel victimAmountIn

/-- The first loop of `v3_sandwich_max_size`. -/
def doubling : ℕ → ℕ → Option (Except String ℕ)
  | 0, hi => some (.ok hi)
  | rounds + 1, hi => andThen (vicOut math pool zeroForOne fuel victimAmountIn hi) fun out =>
      if out ≤ victimMinOut then some (.ok hi) else doubling rounds (hi * 2 % 2 ^ 256)

/-- The second loop; the operators of `U256` wrap. -/
def bisection : ℕ → ℕ → ℕ → Option (Except String ℕ)
  | 0, lo, _ => some (.ok lo)
  | rounds + 1, lo, hi =>
      if (hi + 2 ^ 256 - lo) % 2 ^ 256 ≤ 1 then some (.ok lo)
      else
        let mid := (lo + hi) % 2 ^ 256 / 2
        andThen (vicOut math pool zeroForOne fuel victimAmountIn mid) fun out =>
          if victimMinOut ≤ out then bisection rounds mid hi else bisection rounds lo mid

def v3SandwichMaxSize : Option (Except String ℕ) :=
  andThen (amountOut math pool zeroForOne fuel victimAmountIn) fun baseline =>
    if baseline ≤ victimMinOut then some (.ok 0)
    else
      andThen (doubling math pool zeroForOne fuel victimAmountIn victimMinOut 32 victimAmountIn)
        fun hi => bisection math pool zeroForOne fuel victimAmountIn victimMinOut 64 0 hi

end Sandwich

end Degenbot.V3Simulation
