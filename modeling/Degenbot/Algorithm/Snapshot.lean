import Degenbot.Algorithm.Types
import Mathlib.Data.PNat.Basic

/-! # `v3_snapshot.py`, `v4_snapshot.py`: liquidity snapshots from the database

A stored liquidity map is given by the events it sums up, and a database by its rows in the
order in which a query returns them. A provider answers a request for the logs of a range of
blocks; timeouts, which only shrink the range of the next request, are not modelled. -/

namespace Degenbot

/-! ## Events and logs -/

/-- `UniswapV3LiquidityEvent` and `UniswapV4LiquidityEvent`. -/
structure LiquidityEvent where
  blockNumber : ℕ
  liquidity : ℤ
  tickLower : ℤ
  tickUpper : ℤ
  txIndex : ℕ
  logIndex : ℕ
deriving DecidableEq

/-- A log whose topics and data are read by `abi_decode`. -/
structure LogReceipt (Data : Type) where
  address : ℕ
  blockNumber : ℕ
  transactionIndex : ℕ
  logIndex : ℕ
  removed : Bool
  data : Data

/-- What sets the two snapshot classes apart. -/
structure SnapshotFormat (Key Data : Type) where
  exchangeSuffix : String
  /-- The column in which `get_liquidity_map` looks a pool up. -/
  column : Key → ℕ
  /-- The test for zero-amount events. -/
  counted : Data → Bool
  key : LogReceipt Data → Key
  liquidity : Data → ℤ
  tickLower : Data → ℤ
  tickUpper : Data → ℤ

/-- The `Mint` and `Burn` events of a V3 pool. Only a contract or account mints. -/
inductive V3.LiquidityData where
  | mint (tickLower tickUpper : ℤ) (sender amount amount0 amount1 : ℕ) (sender_ne : sender ≠ 0)
  | burn (tickLower tickUpper : ℤ) (amount amount0 amount1 : ℕ)

/-- The `ModifyLiquidity` event of the V4 pool manager. -/
structure V4.LiquidityData where
  poolId : ℕ
  tickLower : ℤ
  tickUpper : ℤ
  liquidityDelta : ℤ
  salt : ℕ

/-- The first word of the data is the sender of a mint and the amount of a burn. -/
def V3.format : SnapshotFormat ℕ V3.LiquidityData where
  exchangeSuffix := "_v3"
  column address := address
  counted
    | .mint _ _ sender _ _ _ _ => sender ≠ 0
    | .burn _ _ amount _ _ => amount ≠ 0
  key log := log.address
  liquidity
    | .mint _ _ _ amount _ _ _ => amount
    | .burn _ _ amount _ _ => -amount
  tickLower
    | .mint tickLower _ _ _ _ _ _ => tickLower
    | .burn tickLower _ _ _ _ => tickLower
  tickUpper
    | .mint _ tickUpper _ _ _ _ _ => tickUpper
    | .burn _ tickUpper _ _ _ => tickUpper

/-- The third word of the data is the liquidity delta. A pool is looked up by its hash, without
its manager. -/
def V4.format : SnapshotFormat (ℕ × ℕ) V4.LiquidityData where
  exchangeSuffix := "_v4"
  column := Prod.snd
  counted data := data.liquidityDelta ≠ 0
  key log := (log.address, log.data.poolId)
  liquidity data := data.liquidityDelta
  tickLower data := data.tickLower
  tickUpper data := data.tickUpper

section Format

variable {Key Data : Type}

def SnapshotFormat.event (format : SnapshotFormat Key Data) (log : LogReceipt Data) :
    LiquidityEvent where
  blockNumber := log.blockNumber
  liquidity := format.liquidity log.data
  tickLower := format.tickLower log.data
  tickUpper := format.tickUpper log.data
  txIndex := log.transactionIndex
  logIndex := log.logIndex

def SnapshotFormat.processLiquidityEventLog (format : SnapshotFormat Key Data)
    (log : LogReceipt Data) : Except Exn (Key × LiquidityEvent) :=
  if log.removed then .error .assertionError else .ok (format.key log, format.event log)

end Format

/-! ## The database -/

structure Exchange where
  chainId : ℕ
  name : String
  lastUpdateBlock : Option ℕ
deriving DecidableEq

/-- `name LIKE '%!_v3'`; SQLite ignores the case of letters. -/
def Exchange.nameLike (exchange : Exchange) (suffix : String) : Bool :=
  suffix.toList.isSuffixOf (exchange.name.toList.map Char.toLower)

/-- A liquidity event with the chain and the pool it belongs to. -/
structure PoolEvent (Key : Type) where
  chainId : ℕ
  key : Key
  event : LiquidityEvent
deriving DecidableEq

/-- A row of `pools` (`managed_pools` in V4) on the chain of its exchange. `liquidityMap` is
absent where the class of the row has no `initialization_maps`, as the V2 classes. -/
structure PoolRow (Key : Type) where
  className : String
  key : Key
  exchange : Exchange
  liquidityMap : Option (List LiquidityEvent)

/-- The events that the stored map of a row sums up. -/
def PoolRow.events {Key : Type} (row : PoolRow Key) : Option (List (PoolEvent Key)) :=
  row.liquidityMap.map (List.map (PoolEvent.mk row.exchange.chainId row.key))

/-- The exchange of a pool is fixed by its chain and its address, in V4 by its manager, both of
which are unique on a chain. -/
structure Database (Key : Type) where
  exchanges : List Exchange
  pools : List (PoolRow Key)
  exchange_eq : ∀ row ∈ pools, ∀ row' ∈ pools, row.key = row'.key →
    row.exchange.chainId = row'.exchange.chainId → row.exchange = row'.exchange

section Source

variable {Key : Type} [DecidableEq Key]

/-- `DatabaseSnapshot`: a session of its own or the default one. -/
structure DatabaseSnapshot (Key : Type) where
  chainId : ℕ
  session : Database Key
  defaultSession : Database Key

def DatabaseSnapshot.init (defaultSession : Database Key) (chainId : ℕ)
    (database : Option (Database Key)) : DatabaseSnapshot Key :=
  ⟨chainId, database.getD defaultSession, defaultSession⟩

/-- `session.scalar` of a query for one value of a column: the first row, on whatever chain. -/
def Database.scalar (database : Database Key) (column : Key → ℕ) (value : ℕ) :
    Option (PoolRow Key) :=
  database.pools.find? fun row => column row.key = value

def DatabaseSnapshot.getLiquidityMap (source : DatabaseSnapshot Key) (column : Key → ℕ)
    (key : Key) : Except Exn (Option (List (PoolEvent Key))) :=
  match source.session.scalar column (column key) with
  | none => .ok none
  | some poolInDb =>
      match poolInDb.events with
      | none => .error (.attributeError
          ("'" ++ poolInDb.className ++ "' object has no attribute 'initialization_maps'"))
      | some events => .ok (some events)

/-- The largest update block of the matching exchanges, if all of them have one. -/
def Database.newestUpdateBlock (database : Database Key) (chainId : ℕ) (suffix : String) :
    Option ℕ :=
  let lastUpdateBlocks := (database.exchanges.filter fun exchange =>
    exchange.chainId = chainId ∧ exchange.nameLike suffix).map Exchange.lastUpdateBlock
  if lastUpdateBlocks = [] ∨ none ∈ lastUpdateBlocks then none
  else (lastUpdateBlocks.filterMap id).max?

/-- V3 reads the default session. -/
def V3.getNewestBlock (source : DatabaseSnapshot ℕ) : Option ℕ :=
  source.defaultSession.newestUpdateBlock source.chainId V3.format.exchangeSuffix

def V4.getNewestBlock (source : DatabaseSnapshot (ℕ × ℕ)) : Option ℕ :=
  source.session.newestUpdateBlock source.chainId V4.format.exchangeSuffix

/-! ## Fetching logs -/

/-- `eth_getLogs` for the topics of the snapshot: the logs of a range of blocks. -/
abbrev LogProvider (Data : Type) := ℕ → ℕ → Except Exn (List (LogReceipt Data))

/-- A call with keyword arguments of a function that takes nothing else. -/
def bindKeywords (function : String) (parameters required given : List String) :
    Except Exn Unit :=
  match given.find? (· ∉ parameters) with
  | some keyword => .error (.typeError
      (function ++ "() got an unexpected keyword argument '" ++ keyword ++ "'"))
  | none =>
      match required.find? (· ∉ given) with
      | some parameter => .error (.typeError
          (function ++ "() missing 1 required keyword-only argument: '" ++ parameter ++ "'"))
      | none => .ok ()

/-- The parameters of `fetch_logs_retrying` and `fetch_logs_retrying_async`. -/
def fetchLogsParameters : List String :=
  ["w3", "start_block", "end_block", "max_retries", "max_blocks_per_request", "address",
    "topic_signature"]

variable {Data : Type}

/-- The requests of the retrying fetch. `fuel` bounds the blocks behind the first chunk;
without timeouts the working span stays at its maximum. -/
def fetchChunks (provider : LogProvider Data) (workingSpan : ℕ+) (endBlock : ℕ) :
    ℕ → ℕ → Except Exn (List (LogReceipt Data))
  | 0, startBlock => provider startBlock endBlock
  | fuel + 1, startBlock =>
      let chunkEnd := min endBlock (startBlock + workingSpan - 1)
      if chunkEnd = endBlock then provider startBlock chunkEnd
      else do
        let eventLogs ← provider startBlock chunkEnd
        let rest ← fetchChunks provider workingSpan endBlock fuel (chunkEnd + 1)
        .ok (eventLogs ++ rest)

def fetchLogsRetrying (provider : LogProvider Data) (startBlock endBlock : ℕ)
    (maxBlocksPerRequest : Option ℕ+) : Except Exn (List (LogReceipt Data)) :=
  if endBlock < startBlock then
    .error (.valueError "End block cannot be earlier than start block.")
  else fetchChunks provider (maxBlocksPerRequest.getD 5000) endBlock (endBlock - startBlock)
    startBlock

/-- The asynchronous fetch does not check its range. -/
def fetchLogsRetryingAsync (provider : LogProvider Data) (startBlock endBlock : ℕ)
    (maxBlocksPerRequest : Option ℕ+) : Except Exn (List (LogReceipt Data)) :=
  fetchChunks provider (maxBlocksPerRequest.getD 5000) endBlock (endBlock - startBlock)
    startBlock

/-! ## The snapshot -/

/-- `UniswapV3LiquiditySnapshot` and `UniswapV4LiquiditySnapshot`. -/
structure LiquiditySnapshot (Key : Type) where
  source : DatabaseSnapshot Key
  newestBlock : ℕ
  liquidityEvents : Dict Key (List LiquidityEvent)

namespace LiquiditySnapshot

def init (getNewestBlock : DatabaseSnapshot Key → Option ℕ) (source : DatabaseSnapshot Key) :
    Except Exn (LiquiditySnapshot Key) :=
  match getNewestBlock source with
  | none => .error (.valueError "The provided source is uninitialized.")
  | some newestBlock => .ok ⟨source, newestBlock, ∅⟩

/-- The events that `pending_updates` would consume. -/
def pending (snapshot : LiquiditySnapshot Key) (key : Key) : List LiquidityEvent :=
  (snapshot.liquidityEvents.lookup key).getD []

/-- The stored map behind `tick_bitmap` and `tick_data`. -/
def storedMap (snapshot : LiquiditySnapshot Key) (column : Key → ℕ) (key : Key) :
    Except Exn (List (PoolEvent Key)) := do
  let poolSnapshot ← snapshot.source.getLiquidityMap column key
  .ok (poolSnapshot.getD [])

def append (snapshot : LiquiditySnapshot Key) (key : Key) (event : LiquidityEvent) :
    LiquiditySnapshot Key :=
  { snapshot with
    liquidityEvents := snapshot.liquidityEvents.insert key (snapshot.pending key ++ [event]) }

/-- The loop over the logs; an exception keeps the events appended before it. -/
def processLogs (format : SnapshotFormat Key Data) (snapshot : LiquiditySnapshot Key) :
    List (LogReceipt Data) → Except Exn Unit × LiquiditySnapshot Key
  | [] => (.ok (), snapshot)
  | log :: logs =>
      if format.counted log.data then
        match format.processLiquidityEventLog log with
        | .error e => (.error e, snapshot)
        | .ok (key, event) => (snapshot.append key event).processLogs format logs
      else snapshot.processLogs format logs

/-- The end of both fetch methods. -/
def storeLogs (format : SnapshotFormat Key Data) (snapshot : LiquiditySnapshot Key)
    (toBlock : ℕ) : Except Exn (List (LogReceipt Data)) → Except Exn Unit × LiquiditySnapshot Key
  | .error e => (.error e, snapshot)
  | .ok eventLogs =>
      match snapshot.processLogs format eventLogs with
      | (.error e, snapshot) => (.error e, snapshot)
      | (.ok _, snapshot) => (.ok (), { snapshot with newestBlock := toBlock })

def fetchNewEvents (format : SnapshotFormat Key Data)
    (getProvider : ℕ → Except Exn (LogProvider Data)) (snapshot : LiquiditySnapshot Key)
    (toBlock : ℕ) (blocksPerRequest : Option ℕ+) : Except Exn Unit × LiquiditySnapshot Key :=
  snapshot.storeLogs format toBlock do
    let provider ← getProvider snapshot.source.chainId
    bindKeywords "fetch_logs_retrying" fetchLogsParameters ["w3", "start_block", "end_block"]
      ["provider", "start_block", "end_block", "max_blocks_per_request", "topic_signature"]
    fetchLogsRetrying provider (snapshot.newestBlock + 1) toBlock blocksPerRequest

def fetchNewEventsAsync (format : SnapshotFormat Key Data)
    (getWeb3 : ℕ → Except Exn (LogProvider Data)) (snapshot : LiquiditySnapshot Key)
    (toBlock : ℕ) (blocksPerRequest : Option ℕ+) : Except Exn Unit × LiquiditySnapshot Key :=
  snapshot.storeLogs format toBlock do
    let provider ← getWeb3 snapshot.source.chainId
    bindKeywords "fetch_logs_retrying_async" fetchLogsParameters
      ["w3", "start_block", "end_block"]
      ["w3", "start_block", "end_block", "max_blocks_per_request", "topic_signature"]
    fetchLogsRetryingAsync provider (snapshot.newestBlock + 1) toBlock blocksPerRequest

end LiquiditySnapshot

end Source

end Degenbot
