import Degenbot.Algorithm.Pool

/-! # `cli/pool.py`: the stored liquidity of a pool

`apply_v3_liquidity_updates` and `apply_v4_liquidity_updates` read the rows of a pool,
replay its liquidity events on a mock pool, and write the difference back. `pool_update`
commits after each chunk of blocks, so every call starts from the stored rows. -/

namespace Degenbot

/-! ## Rows -/

/-- A row of `LiquidityPositionTable`, found by its tick. The updater writes only
validated values. -/
@[ext] structure LiquidityPosition where
  liquidityNet : ℤ
  liquidityGross : ℤ
  net_mem : minInt128 ≤ liquidityNet ∧ liquidityNet ≤ maxInt128
  gross_mem : 0 ≤ liquidityGross ∧ liquidityGross ≤ maxUint128

instance : DecidableEq LiquidityPosition := fun _ _ =>
  decidable_of_iff _ LiquidityPosition.ext_iff.symm

/-- A row of `InitializationMapTable`, found by its word. -/
@[ext] structure InitializationMap where
  bitmap : ℕ
  bitmap_lt : bitmap < 2 ^ 256

instance : DecidableEq InitializationMap := fun _ _ =>
  decidable_of_iff _ InitializationMap.ext_iff.symm

/-- A V3 pool or a V4 managed pool, with its rows in both tables. The unique indexes of
the tables leave one row for each tick and for each word. -/
structure PoolTable where
  exchange : ℕ
  tickSpacing : ℤ
  spacing_pos : 0 < tickSpacing
  liquidityUpdateBlock : Option ℕ
  liquidityUpdateLogIndex : Option ℕ
  liquidityPositions : Dict ℤ LiquidityPosition
  initializationMaps : Dict ℤ InitializationMap
deriving DecidableEq

/-- The row that a pool updater adds for a new pool. -/
def PoolTable.new (exchange : ℕ) (tickSpacing : ℤ) (spacing_pos : 0 < tickSpacing) : PoolTable :=
  ⟨exchange, tickSpacing, spacing_pos, none, none, ∅, ∅⟩

/-! ## The mock pools -/

/-- `{k: f(v) for k, v in d.items()}` -/
def mapValues {β γ : Type} (f : β → γ) (d : Dict ℤ β) : Dict ℤ γ :=
  ⟨d.entries.map fun entry => ⟨entry.1, f entry.2⟩, by
    have hkeys := d.nodupKeys
    rw [List.NodupKeys, List.keys] at hkeys ⊢
    rwa [List.map_map]⟩

/-- The rows carry no block. -/
def LiquidityPosition.load (position : LiquidityPosition) : LiquidityAtTick :=
  ⟨position.liquidityNet, position.liquidityGross, 0, position.net_mem, position.gross_mem⟩

def InitializationMap.load (map : InitializationMap) : BitmapAtWord :=
  ⟨map.bitmap, 0, map.bitmap_lt⟩

/-- `MockV3LiquidityPool`, and `MockV4LiquidityPool` as it is constructed. No block number
passes the initial state block, which skips the in-range liquidity. -/
def PoolTable.mockLiquidityPool (pool : PoolTable) : Pool where
  stateMgr := StateManager.init
    { liquidity := 0
      sqrtPriceX96 := 0
      tick := 0
      tickBitmap := mapValues InitializationMap.load pool.initializationMaps
      tickData := mapValues LiquidityPosition.load pool.liquidityPositions
      block := 0 } 1
  initialStateBlock := maxUint256.toNat
  tickSpacing := pool.tickSpacing
  sparseLiquidityMap := false

/-- The mock pools have no provider; a complete map does not ask for one. -/
def noProvider : Provider where
  getBlockNumber := .error (.attributeError "_provider")
  tickBitmap _ _ := .error (.attributeError "_provider")
  ticks _ _ := .error (.attributeError "_provider")
  slot0 _ := .error (.attributeError "_provider")
  liquidity _ := .error (.attributeError "_provider")

/-! ## Liquidity events -/

/-- A log, with the ticks and the signed amount decoded from its topics and data. A block
number is a word of the chain. -/
structure LiquidityLog where
  blockNumber : ℕ
  logIndex : ℕ
  amount : ℤ
  tickLower : ℤ
  tickUpper : ℤ
  block_le : blockNumber ≤ maxUint256.toNat
deriving DecidableEq

/-- A `Mint` or `Burn` log of a V3 pool; both have an unsigned amount. -/
structure V3LiquidityLog where
  blockNumber : ℕ
  logIndex : ℕ
  burn : Bool
  amount : ℕ
  tickLower : ℤ
  tickUpper : ℤ
  block_le : blockNumber ≤ maxUint256.toNat
deriving DecidableEq

/-- A `ModifyLiquidity` log of a V4 pool manager has a signed amount. -/
abbrev V4LiquidityLog := LiquidityLog

def V3LiquidityLog.decode (log : V3LiquidityLog) : LiquidityLog where
  blockNumber := log.blockNumber
  logIndex := log.logIndex
  amount := if log.burn then -(log.amount : ℤ) else log.amount
  tickLower := log.tickLower
  tickUpper := log.tickUpper
  block_le := log.block_le

def LiquidityLog.mappingUpdate (event : LiquidityLog) : LiquidityMappingUpdate :=
  ⟨event.blockNumber, event.amount, event.tickLower, event.tickUpper⟩

/-! ## Replaying the events -/

/-- The mock pool and the update stamp of the row, in the loop over the events. -/
structure Replay where
  lpHelper : Pool
  liquidityUpdateBlock : Option ℕ
  liquidityUpdateLogIndex : Option ℕ
deriving DecidableEq

/-- The guard against an event from the past; a row without a stamp has none. -/
def Replay.guardPast (replay : Replay) (event : LiquidityLog) : Except Exn Unit :=
  match replay.liquidityUpdateBlock, replay.liquidityUpdateLogIndex with
  | some block, some logIndex =>
      if event.blockNumber = block then
        if event.logIndex > logIndex then .ok () else .error .assertionError
      else if event.blockNumber > block then .ok () else .error .assertionError
  | _, _ => .ok ()

abbrev UpdateLiquidityMap := Provider → Pool → LiquidityMappingUpdate → Except Exn Unit × Pool

/-- An event without an amount passes the guard and leaves no stamp. The assertion messages
of a V3 pool read an address that the mock lacks; the event is rejected either way. -/
def Replay.applyEvent (updateLiquidityMap : UpdateLiquidityMap) (replay : Replay)
    (event : LiquidityLog) : Except Exn Replay := do
  replay.guardPast event
  if event.amount = 0 then .ok replay
  else
    match updateLiquidityMap noProvider replay.lpHelper event.mappingUpdate with
    | (.error e, _) => .error e
    | (.ok (), lpHelper) => .ok ⟨lpHelper, some event.blockNumber, some event.logIndex⟩

/-! ## Writing the difference -/

/-- `itertools.batched` -/
def batched {α : Type} (xs : List α) (n : ℕ) : List (List α) := (xs.toChunksAux (n - 1) 0).2

section Table

variable {β : Type}

/-- `DELETE ... WHERE key IN (db_keys - helper_keys)` -/
def dropStale (rows : Dict ℤ β) (helperKeys : List ℤ) : Dict ℤ β :=
  (rows.keys.filter (· ∉ helperKeys)).foldl (fun rows key => rows.erase key) rows

/-- `INSERT ... ON CONFLICT DO UPDATE ... WHERE` the stored row differs. -/
def upsertRow (differs : β → β → Bool) (rows : Dict ℤ β) (value : ℤ × β) : Dict ℤ β :=
  match rows.lookup value.1 with
  | none => rows.insert value.1 value.2
  | some stored => if differs stored value.2 then rows.insert value.1 value.2 else rows

/-- The values go to the database in chunks that fit one statement. -/
def upsert (differs : β → β → Bool) (keysPerRow : ℕ) (rows : Dict ℤ β) (values : List (ℤ × β)) :
    Dict ℤ β :=
  (batched values (30000 / keysPerRow)).foldl
    (fun rows chunk => chunk.foldl (upsertRow differs) rows) rows

end Table

def LiquidityAtTick.store (info : LiquidityAtTick) : LiquidityPosition :=
  ⟨info.liquidityNet, info.liquidityGross, info.net_mem, info.gross_mem⟩

def BitmapAtWord.store (word : BitmapAtWord) : InitializationMap := ⟨word.bitmap, word.bitmap_lt⟩

def positionValues (tickData : LiquidityMap) : List (ℤ × LiquidityPosition) :=
  tickData.entries.map fun entry => (entry.1, entry.2.store)

/-- Maps where all ticks are uninitialized are excluded. -/
def mapEntryValues (tickBitmap : InitializedTickMap) : List (ℤ × InitializationMap) :=
  (tickBitmap.entries.filter fun entry => entry.2.bitmap ≠ 0).map fun entry =>
    (entry.1, entry.2.store)

/-- The rows after the events; new ones are added, existing ones updated and stale ones
dropped. -/
def PoolTable.store (pool : PoolTable) (replay : Replay) : PoolTable :=
  let positions := positionValues replay.lpHelper.state.tickData
  let maps := mapEntryValues replay.lpHelper.state.tickBitmap
  { pool with
    liquidityUpdateBlock := replay.liquidityUpdateBlock
    liquidityUpdateLogIndex := replay.liquidityUpdateLogIndex
    liquidityPositions :=
      upsert (fun stored new => stored.liquidityNet ≠ new.liquidityNet ||
          stored.liquidityGross ≠ new.liquidityGross) 4
        (dropStale pool.liquidityPositions (positions.map Prod.fst)) positions
    initializationMaps :=
      upsert (fun stored new => stored.bitmap ≠ new.bitmap) 3
        (dropStale pool.initializationMaps (maps.map Prod.fst)) maps }

/-! ## The updaters -/

def PoolTable.replay (pool : PoolTable) (lpHelper : Pool) : Replay :=
  ⟨lpHelper, pool.liquidityUpdateBlock, pool.liquidityUpdateLogIndex⟩

/-- A pool that is not in the database, or not of an exchange in scope, is passed over. -/
def applyV3LiquidityUpdates (exchangesInScope : List ℕ) (poolInDb : Option PoolTable)
    (liquidityEvents : List V3LiquidityLog) : Except Exn (Option PoolTable) :=
  match poolInDb with
  | none => .ok none
  | some pool =>
      if pool.exchange ∉ exchangesInScope then .ok (some pool)
      else do
        let replay ← (liquidityEvents.map V3LiquidityLog.decode).foldlM
          (Replay.applyEvent V3.updateLiquidityMap) (pool.replay pool.mockLiquidityPool)
        .ok (some (pool.store replay))

/-- The mock V4 pool gets an active liquidity that no event exhausts. -/
def mockExternalUpdate : ExternalUpdate := ⟨0, maxUint256, 0, 0⟩

def applyV4LiquidityUpdates (poolInDb : Option PoolTable)
    (liquidityEvents : List V4LiquidityLog) : Except Exn (Option PoolTable) :=
  match poolInDb with
  | none => .error .assertionError
  | some pool =>
      match V4.externalUpdate pool.mockLiquidityPool mockExternalUpdate with
      | (.error e, _) => .error e
      | (.ok _, lpHelper) => do
          let replay ← liquidityEvents.foldlM
            (Replay.applyEvent V4.updateLiquidityMap) (pool.replay lpHelper)
          .ok (some (pool.store replay))

end Degenbot
