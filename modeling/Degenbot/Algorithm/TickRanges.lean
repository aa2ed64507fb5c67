import Degenbot.Algorithm.Pool

/-! # Adjacent tick ranges and their caches

The two queries for the tick ranges around the price of a concentrated-liquidity pool:
`_get_tick_ranges` of `v3_liquidity_pool.py`, with a cache of its own in every pool, and
`_get_cached_tick_ranges` of `_v3_utils.py`, with one cache for all pools. -/

namespace Degenbot

structure V3TickRangeInfo where
  tickLower : ℤ
  tickUpper : ℤ
  liquidity : ℤ
  sqrtPriceLower : ℤ
  sqrtPriceUpper : ℤ
deriving DecidableEq

/-- The ranges, and the index of the range that holds the current tick. -/
abbrev TickRanges := List V3TickRangeInfo × ℕ

/-- The address, the tick and `zero_for_one`. -/
abbrev TickRangeKey := String × ℤ × Bool

abbrev TickRangeCache := Dict TickRangeKey (Option TickRanges)

def maxTickRangeCacheSize : ℕ := 128

/-! ## Walking the ticks -/

/-- The loop over `ticks_along_path`, for at most `fuel` yields. -/
def collectTicks (currentTick maxRanges : ℤ) : ℕ → TickGen → List ℤ → List ℤ
  | 0, _, initializedTicks => initializedTicks
  | fuel + 1, ticksAlongPath, initializedTicks =>
      let tick := ticksAlongPath.next.1.1
      let isInitialized := ticksAlongPath.next.1.2
      let clampedTick := if ticksAlongPath.lessThanOrEqual then max (-maxTick) tick
        else min maxTick tick
      if clampedTick ≠ tick then initializedTicks
      else if initializedTicks.length ≥ maxRanges + 1 then initializedTicks
      else collectTicks currentTick maxRanges fuel ticksAlongPath.next.2
        (if isInitialized ∨ tick = currentTick then initializedTicks ++ [tick]
          else initializedTicks)

/-- The ticks from the current one to the edge, and one: a walk makes fewer steps. -/
def stepsToEdge (lessThanOrEqual : Bool) (tick : ℤ) : ℕ :=
  (if lessThanOrEqual then tick + maxTick + 1 else maxTick - tick).toNat + 1

/-- One pass of the loop that builds the ranges. -/
def tickRangeInfo (state : PoolState) (zeroForOne : Bool) (ticks : ℤ × ℤ) :
    Except Exn V3TickRangeInfo := do
  let tickLower := if zeroForOne then ticks.2 else ticks.1
  let tickUpper := if zeroForOne then ticks.1 else ticks.2
  let tickInfo := state.tickData.lookup (if zeroForOne then tickLower else tickUpper)
  let liquidity := tickInfo.elim state.liquidity (·.liquidityNet)
  let sqrtPriceLower ← V3.getSqrtRatioAtTick tickLower
  let sqrtPriceUpper ← V3.getSqrtRatioAtTick tickUpper
  .ok { tickLower, tickUpper, liquidity, sqrtPriceLower, sqrtPriceUpper }

/-- The last range that holds the current tick, or the first range. -/
def currentIdx (currentTick : ℤ) (ranges : List V3TickRangeInfo) : ℕ :=
  ranges.zipIdx.foldl (fun idx range =>
    if range.1.tickLower ≤ currentTick ∧ currentTick < range.1.tickUpper then range.2 else idx) 0

namespace Pool

/-- The common body of the two computations. -/
def adjacentTickRanges (pool : Pool) (zeroForOne : Bool) (maxRanges : ℤ) :
    Except Exn (Option TickRanges) :=
  if pool.sparseLiquidityMap then .ok none
  else if pool.tickSpacing = 0 then .ok none
  else
    let currentTick := pool.state.tick
    let lessThanOrEqual := !zeroForOne
    let ticksAlongPath :=
      genTicks pool.state.tickData currentTick pool.tickSpacing lessThanOrEqual
    let initializedTicks := collectTicks currentTick maxRanges
      (stepsToEdge lessThanOrEqual currentTick) ticksAlongPath []
    if initializedTicks.length < 2 then .ok none
    else do
      let ranges ← (initializedTicks.zip initializedTicks.tail).mapM
        (tickRangeInfo pool.state zeroForOne)
      if ranges.length < 1 then .ok none
      else .ok (some (ranges, currentIdx currentTick ranges))

def computeTickRanges (pool : Pool) (zeroForOne : Bool) (maxRanges : ℤ) :
    Except Exn (Option TickRanges) :=
  pool.adjacentTickRanges zeroForOne maxRanges

def v3GetAdjacentTickRanges (pool : Pool) (zeroForOne : Bool) (maxRanges : ℤ) :
    Except Exn (Option TickRanges) :=
  pool.adjacentTickRanges zeroForOne maxRanges

end Pool

/-! ## The caches -/

/-- A lookup that falls back on a computation. A full cache is cleared before it takes a new
result; nothing is stored when the computation raises. -/
def TickRangeCache.lookupOr (cache : TickRangeCache) (cacheKey : TickRangeKey)
    (compute : Except Exn (Option TickRanges)) :
    Except Exn (Option TickRanges) × TickRangeCache :=
  match cache.lookup cacheKey with
  | some result => (.ok result, cache)
  | none =>
      match compute with
      | .error e => (.error e, cache)
      | .ok result =>
          let cache := if cache.keys.length ≥ maxTickRangeCacheSize then ∅ else cache
          (.ok result, cache.insert cacheKey result)

/-- `_get_tick_ranges`, with the pool's `_TICK_RANGE_CACHE`. -/
def V3.getTickRanges (address : String) (pool : Pool) (tickRangeCache : TickRangeCache)
    (zeroForOne : Bool) (maxRanges : ℤ) : Except Exn (Option TickRanges) × TickRangeCache :=
  tickRangeCache.lookupOr (address, pool.state.tick, zeroForOne)
    (pool.computeTickRanges zeroForOne maxRanges)

/-- `_get_cached_tick_ranges`, with the module's `_tick_range_cache`. The address of a V4 pool
is the address of its manager. -/
def getCachedTickRanges (address : String) (pool : Pool) (tickRangeCache : TickRangeCache)
    (zeroForOne : Bool) (maxRanges : ℤ) : Except Exn (Option TickRanges) × TickRangeCache :=
  tickRangeCache.lookupOr (address, pool.state.tick, zeroForOne)
    (pool.v3GetAdjacentTickRanges zeroForOne maxRanges)

end Degenbot
