import Degenbot.Algorithm.TickBitmap
import Degenbot.Algorithm.TickMath

/-! # Concentrated-liquidity pools and their updates

The state manager and the three kinds of update of `v3_liquidity_pool.py` and
`v4_liquidity_pool.py`. A method that changes the pool returns its outcome together with
the pool it leaves behind, also when it raises. -/

namespace Degenbot

/-- `UniswapV3PoolState` and `UniswapV4PoolState`, less the address and the pool id. The
states of a pool always carry a block number. -/
structure PoolState where
  liquidity : ℤ
  sqrtPriceX96 : ℤ
  tick : ℤ
  tickBitmap : InitializedTickMap
  tickData : LiquidityMap
  block : ℕ
deriving DecidableEq

/-! ## `concentrated/state_manager.py` -/

/-- `ConcentratedLiquidityStateManager`: the newest state and the older ones, newest
first. The deque holds at least one state. -/
structure StateManager where
  newest : PoolState
  older : List PoolState
  stateCacheDepth : ℕ
deriving DecidableEq

namespace StateManager

def init (initialState : PoolState) (stateCacheDepth : ℕ) : StateManager :=
  ⟨initialState, [], stateCacheDepth⟩

/-- `maxlen` of the deque. -/
def maxlen (manager : StateManager) : ℕ := max 1 manager.stateCacheDepth

def states (manager : StateManager) : List PoolState := manager.newest :: manager.older

def earliest (manager : StateManager) : PoolState := manager.older.getLastD manager.newest

/-- Appending to a full deque drops its oldest state. -/
def pushState (manager : StateManager) (newState : PoolState) : StateManager :=
  if manager.newest.block = newState.block then { manager with newest := newState }
  else { manager with
         newest := newState
         older := manager.states.take (manager.maxlen - 1) }

def restoreStateBeforeBlock (manager : StateManager) (block : ℕ) :
    Except Exn StateManager :=
  -- a block number of zero counts as absent in both tests
  if manager.newest.block ≠ 0 ∧ manager.newest.block < block then .ok manager
  else if manager.earliest.block ≠ 0 ∧ manager.earliest.block ≥ block then
    .error (.noPoolStateAvailable block)
  else match manager.states.dropWhile (·.block ≥ block) with
    | [] => .error .indexError
    | newest :: older => .ok { manager with newest, older }

/-- `swap_is_viable`, a static method. -/
def swapIsViable (state : PoolState) (zeroForOne sparseLiquidityMap : Bool) : Except Exn Bool :=
  if sparseLiquidityMap then .ok true
  else match state.tickData.keys.min?, state.tickData.keys.max? with
    | some lowest, some highest =>
        if state.sqrtPriceX96 = 0 then .ok false
        else if (zeroForOne ∧ state.sqrtPriceX96 ≤ minSqrtRatio + 1) ∨
            (¬zeroForOne ∧ state.sqrtPriceX96 ≥ maxSqrtRatio - 1) then .ok false
        else if zeroForOne then do
          let ratio ← V3.getSqrtRatioAtTick lowest
          .ok (ratio < state.sqrtPriceX96)
        else do
          let ratio ← V3.getSqrtRatioAtTick highest
          .ok (ratio > state.sqrtPriceX96)
    | _, _ => .ok false

end StateManager

/-! ## Providers -/

/-- The answers of a provider at a block: the tick bitmap words and ticks, `slot0` and
the active liquidity of the pool. -/
structure Provider where
  getBlockNumber : Except Exn ℕ
  tickBitmap : ℤ → ℕ → Except Exn ℕ
  ticks : ℤ → ℕ → Except Exn (ℤ × ℤ)
  slot0 : ℕ → Except Exn (ℤ × ℤ)
  liquidity : ℕ → Except Exn ℤ

/-! ## Pools -/

structure Pool where
  stateMgr : StateManager
  initialStateBlock : ℕ
  tickSpacing : ℤ
  sparseLiquidityMap : Bool
deriving DecidableEq

namespace Pool

def state (pool : Pool) : PoolState := pool.stateMgr.newest

def updateBlock (pool : Pool) : ℕ := pool.state.block

def pushState (pool : Pool) (state : PoolState) : Pool :=
  { pool with stateMgr := pool.stateMgr.pushState state }

/-- The pool is left as it was when the cache has no state to restore; `StateCache` has the
call that empties the deque. -/
def restoreStateBeforeBlock (pool : Pool) (block : ℕ) : Except Exn Unit × Pool :=
  match pool.stateMgr.restoreStateBeforeBlock block with
  | .error e => (.error e, pool)
  | .ok stateMgr => (.ok (), { pool with stateMgr })

/-! ### Filling a sparse map -/

/-- The ticks of a word, with their gross and net liquidity. -/
def getPopulatedTicksInWord (pool : Pool) (provider : Provider) (wordPosition : ℤ)
    (block : ℕ) : Except Exn (List (ℤ × ℤ × ℤ)) := do
  let bitmap ← provider.tickBitmap wordPosition block
  let activeTicks := ((List.range 256).filter bitmap.testBit).map fun i : ℕ =>
    (256 * wordPosition + i) * pool.tickSpacing
  activeTicks.mapM fun tick => do
    let (liquidityGross, liquidityNet) ← provider.ticks tick block
    .ok (tick, liquidityGross, liquidityNet)

def fetchAndPopulateInitializedTicks (pool : Pool) (provider : Provider) (wordPosition : ℤ)
    (tickBitmap : InitializedTickMap) (tickData : LiquidityMap) (block : ℕ) :
    Except Exn (InitializedTickMap × LiquidityMap) := do
  let bitmap ← provider.tickBitmap wordPosition block
  let populated ← (if bitmap ≠ 0 then pool.getPopulatedTicksInWord provider wordPosition block
    else .ok [])
  if hbitmap : bitmap < 2 ^ 256 then do
    let tickData ← populated.foldlM (fun tickData (tick, liquidityGross, liquidityNet) => do
      let entry ← LiquidityAtTick.validated liquidityNet liquidityGross block
      .ok (tickData.insert tick entry)) tickData
    .ok (tickBitmap.insert wordPosition ⟨bitmap, block, hbitmap⟩, tickData)
  else .error .validationError

end Pool

/-! ## `update_liquidity_map` -/

/-- `UniswapV3PoolLiquidityMappingUpdate`; a burn has negative liquidity. -/
structure LiquidityMappingUpdate where
  blockNumber : ℕ
  liquidity : ℤ
  tickLower : ℤ
  tickUpper : ℤ
deriving DecidableEq

namespace Pool

/-- The word of a tick is complete before the tick changes. -/
def completeWord (pool : Pool) (provider : Provider) (tick : ℤ) (block : ℕ)
    (map : InitializedTickMap × LiquidityMap) : Except Exn (InitializedTickMap × LiquidityMap) :=
  let wordPosition := (position (evmDivide tick pool.tickSpacing)).1
  if pool.sparseLiquidityMap ∧ wordPosition ∉ map.1 then
    pool.fetchAndPopulateInitializedTicks provider wordPosition map.1 map.2 (block - 1)
  else .ok map

/-- A tick that is not in the mapping is entered as empty and flipped. -/
def enterTick (pool : Pool) (tick : ℤ) (block : ℕ)
    (map : InitializedTickMap × LiquidityMap) : Except Exn (InitializedTickMap × LiquidityMap) :=
  if tick ∉ map.2 then do
    let tickBitmap ← flipTick map.1 pool.sparseLiquidityMap tick pool.tickSpacing block
    .ok (tickBitmap, map.2.insert tick (LiquidityAtTick.empty block))
  else .ok map

/-- The new liquidity of a tick; a tick without gross liquidity is deleted and flipped. -/
def adjustTick (pool : Pool) (update : LiquidityMappingUpdate) (tick : ℤ)
    (map : InitializedTickMap × LiquidityMap) : Except Exn (InitializedTickMap × LiquidityMap) :=
  match map.2.lookup tick with
  | none => .error .keyError
  | some current =>
      let newLiquidityGross := current.liquidityGross + update.liquidity
      if ¬newLiquidityGross ≥ 0 then .error .assertionError
      else if newLiquidityGross = 0 then do
        let tickBitmap ← flipTick map.1 pool.sparseLiquidityMap tick pool.tickSpacing
          update.blockNumber
        .ok (tickBitmap, map.2.erase tick)
      else do
        -- positions include the lower tick, but exclude the upper tick
        let newLiquidityNet := if tick = update.tickLower then
            current.liquidityNet + update.liquidity
          else current.liquidityNet - update.liquidity
        let entry ← LiquidityAtTick.validated newLiquidityNet newLiquidityGross
          update.blockNumber
        .ok (map.1, map.2.insert tick entry)

/-- One pass of the loop over `(tick_lower, tick_upper)`. -/
def updateTick (pool : Pool) (provider : Provider) (update : LiquidityMappingUpdate) (tick : ℤ)
    (map : InitializedTickMap × LiquidityMap) :
    Except Exn (InitializedTickMap × LiquidityMap) := do
  let map ← pool.completeWord provider tick update.blockNumber map
  let map ← pool.enterTick tick update.blockNumber map
  pool.adjustTick update tick map

/-- The modified region includes the active tick, and the update is newer than the pool. -/
def adjustsLiquidity (pool : Pool) (update : LiquidityMappingUpdate) : Bool :=
  update.tickLower ≤ pool.state.tick ∧ pool.state.tick < update.tickUpper ∧
    update.blockNumber > pool.initialStateBlock

/-- The state that an update would record; it works on copies of both dictionaries. -/
def workingState (pool : Pool) (provider : Provider) (update : LiquidityMappingUpdate) :
    Except Exn PoolState :=
  let liquidity := if pool.adjustsLiquidity update then
      pool.state.liquidity + update.liquidity
    else pool.state.liquidity
  if ¬pool.state.liquidity ≥ 0 then .error .assertionError
  else if pool.adjustsLiquidity update ∧ ¬liquidity ≥ 0 then .error .assertionError
  else do
    let lower ← pool.updateTick provider update update.tickLower
      (pool.state.tickBitmap, pool.state.tickData)
    let upper ← pool.updateTick provider update update.tickUpper lower
    .ok { pool.state with
          liquidity
          tickBitmap := upper.1
          tickData := upper.2
          block := max pool.updateBlock update.blockNumber }

/-- Recording the working state is the last thing an update does. -/
def recordLiquidity (pool : Pool) (provider : Provider) (update : LiquidityMappingUpdate) :
    Except Exn Unit × Pool :=
  match pool.workingState provider update with
  | .error e => (.error e, pool)
  | .ok state => (.ok (), pool.pushState state)

end Pool

def V3.updateLiquidityMap (provider : Provider) (pool : Pool)
    (update : LiquidityMappingUpdate) : Except Exn Unit × Pool :=
  pool.recordLiquidity provider update

def V4.updateLiquidityMap (provider : Provider) (pool : Pool)
    (update : LiquidityMappingUpdate) : Except Exn Unit × Pool :=
  if update.liquidity = 0 then (.ok (), pool) else pool.recordLiquidity provider update

/-! ## `external_update` -/

/-- `UniswapV3PoolExternalUpdate` -/
structure ExternalUpdate where
  blockNumber : ℕ
  liquidity : ℤ
  sqrtPriceX96 : ℤ
  tick : ℤ
deriving DecidableEq

namespace Pool

/-- Values that differ from the current ones are recorded. -/
def recordValues (pool : Pool) (update : ExternalUpdate) : Bool × Pool :=
  if update.liquidity = pool.state.liquidity ∧ update.sqrtPriceX96 = pool.state.sqrtPriceX96 ∧
      update.tick = pool.state.tick then (false, pool)
  else (true, pool.pushState { pool.state with
    liquidity := update.liquidity
    sqrtPriceX96 := update.sqrtPriceX96
    tick := update.tick
    block := update.blockNumber })

end Pool

def V3.externalUpdate (pool : Pool) (update : ExternalUpdate) : Except Exn Bool × Pool :=
  if update.blockNumber ≤ pool.initialStateBlock ∨ update.blockNumber < pool.updateBlock then
    (.error (.externalUpdateError
      ("Rejected update for block " ++ toString update.blockNumber)), pool)
  else
    let (recorded, pool) := pool.recordValues update
    (.ok recorded, pool)

def V4.externalUpdate (pool : Pool) (update : ExternalUpdate) : Except Exn Bool × Pool :=
  if update.blockNumber < pool.updateBlock then
    (.error (.externalUpdateError
      ("Rejected update for block " ++ toString update.blockNumber ++
        " in the past, current update block is " ++ toString pool.updateBlock)), pool)
  else
    let (recorded, pool) := pool.recordValues update
    (.ok recorded, pool)

/-! ## `auto_update` -/

namespace Pool

/-- The block that is polled, and the values read there. -/
def poll (pool : Pool) (provider : Provider) (blockNumber : Option ℕ) :
    Except Exn ExternalUpdate :=
  if blockNumber.any (· < pool.updateBlock) then .error .lateUpdateError
  else do
    let block ← blockNumber.elim provider.getBlockNumber .ok
    let (sqrtPriceX96, tick) ← provider.slot0 block
    let liquidity ← provider.liquidity block
    .ok ⟨block, liquidity, sqrtPriceX96, tick⟩

end Pool

/-- V4 also stores the polled fees, which no update reads. -/
def autoUpdate (provider : Provider) (pool : Pool) (blockNumber : Option ℕ) :
    Except Exn Unit × Pool :=
  match pool.poll provider blockNumber with
  | .error e => (.error e, pool)
  | .ok values => (.ok (), (pool.recordValues values).2)

/-! ## The deque of `concentrated/state_manager.py`

`StateManager` keeps its newest state apart, so it cannot show a deque that a call has
emptied. Here a call returns its outcome together with the deque it leaves behind. -/

/-- `_state_cache`, oldest state first. -/
structure StateCache where
  states : List PoolState
  maxlen : ℕ
deriving DecidableEq

namespace StateCache

def init (initialState : PoolState) (stateCacheDepth : ℕ) : StateCache :=
  ⟨[initialState], max 1 stateCacheDepth⟩

/-- `append` on a bounded deque drops the oldest states. -/
def append (cache : StateCache) (state : PoolState) : StateCache :=
  { cache with
    states := (cache.states ++ [state]).drop (cache.states.length + 1 - cache.maxlen) }

def pushState (cache : StateCache) (newState : PoolState) : Except Exn Unit × StateCache :=
  match cache.states.getLast? with
  | none => (.error .indexError, cache)
  | some newest =>
      if newest.block = newState.block then
        (.ok (), { cache with states := cache.states.dropLast }.append newState)
      else (.ok (), cache.append newState)

/-- Pops from the front as long as `p` holds of the first state; an empty deque has none. -/
def popWhile (p : PoolState → Bool) : List PoolState → Except Exn PoolState × List PoolState
  | [] => (.error .indexError, [])
  | state :: rest => if p state then popWhile p rest else (.ok state, state :: rest)

/-- A block number of zero counts as absent in both tests. -/
def discardStatesBeforeBlock (cache : StateCache) (block : ℕ) : Except Exn Unit × StateCache :=
  match cache.states.head?, cache.states.getLast? with
  | some earliest, some newest =>
      if earliest.block ≠ 0 ∧ earliest.block ≥ block then (.ok (), cache)
      else if newest.block ≠ 0 ∧ newest.block < block then
        (.error (.noPoolStateAvailable block), cache)
      else
        let popped := popWhile (fun state => decide (state.block < block)) cache.states
        (popped.1.map fun _ => (), { cache with states := popped.2 })
  | _, _ => (.error .indexError, cache)

def restoreStateBeforeBlock (cache : StateCache) (block : ℕ) :
    Except Exn PoolState × StateCache :=
  match cache.states.head?, cache.states.getLast? with
  | some earliest, some newest =>
      if newest.block ≠ 0 ∧ newest.block < block then (.ok newest, cache)
      else if earliest.block ≠ 0 ∧ earliest.block ≥ block then
        (.error (.noPoolStateAvailable block), cache)
      else
        -- `pop` takes from the other end
        let popped := popWhile (fun state => decide (state.block ≥ block)) cache.states.reverse
        (popped.1, { cache with states := popped.2.reverse })
  | _, _ => (.error .indexError, cache)

end StateCache

end Degenbot
