import Degenbot.Algorithm.PoolJson
import Degenbot.Algorithm.Snapshot
import Degenbot.Library.Outcome

/-! # Exported and stored snapshots

The exporters write camel-case keys and 128-bit integers as strings; the structs read
snake-case keys and take primitive integers from numbers. A stored snapshot holds the liquidity
events up to a block, and after a fetch the new ones. -/

namespace Degenbot

open Library

/-! ## The contract -/

/-- The snapshot denotes the exported pool. -/
structure V3Snapshot.Denotes (snapshot : V3Snapshot) (pool : UniswapV3Pool)
    (state : OverrideState) : Prop where
  sqrtPriceX96 : (snapshot.sqrtPriceX96 : ℤ) = state.sqrtPriceX96
  tick : snapshot.tick = state.tick
  liquidity : snapshot.liquidity = state.liquidity
  tickSpacing : snapshot.tickSpacing = pool.tickSpacing
  fee : snapshot.feePips = some pool.fee
  ticks : ∀ tick, snapshot.tickNetLiquidity.lookup tick =
    (state.tickData.lookup tick).map LiquidityAtTick.liquidityNet

structure CurveSnapshot.Denotes (snapshot : CurveSnapshot) (pool : CurveStableswapPool)
    (balances : List ℕ) : Prop where
  balances : snapshot.balances = balances
  amplification : snapshot.A = pool.aCoefficient
  fee : snapshot.feeRate = (pool.fee : ℚ) / CurveStableswapPool.feeDenominator

def UniswapV3Pool.SnapshotAccepted (parsers : Parsers) (pool : UniswapV3Pool)
    (stateOverride : Option OverrideState) : Prop :=
  ∃ snapshot, V3Snapshot.visitMap parsers (pool.toV3SnapshotJson stateOverride) = .ok snapshot ∧
    snapshot.Denotes pool (pool.startState stateOverride)

def CurveStableswapPool.SnapshotAccepted (parsers : Parsers) (pool : CurveStableswapPool)
    (stateOverride : Option (List ℕ)) : Prop :=
  ∃ snapshot,
    CurveSnapshot.visitMap parsers (pool.toCurveSnapshotJson stateOverride) = .ok snapshot ∧
      snapshot.Denotes pool (stateOverride.getD pool.balances)

/-! ## V3 -/

/-- The first known key is `liquidity`, and its value is a string. -/
theorem visitMap_v3_rejects (parsers : Parsers) (pool : UniswapV3Pool)
    (stateOverride : Option OverrideState) :
    V3Snapshot.visitMap parsers (pool.toV3SnapshotJson stateOverride) =
      .error .invalidNumber := by
  simp [V3Snapshot.visitMap, UniswapV3Pool.toV3SnapshotJson, List.foldlM, V3Snapshot.visitMember,
    setField, deserializeU128, deserializeInt128, Except.map]

/-! ## Curve -/

/-- `feeBps` and `isMeta` are skipped, so that at best `fee_bps` is found missing. -/
theorem visitMap_curve_rejects (parsers : Parsers) (pool : CurveStableswapPool)
    (stateOverride : Option (List ℕ)) (snapshot : CurveSnapshot) :
    CurveSnapshot.visitMap parsers (pool.toCurveSnapshotJson stateOverride) ≠ .ok snapshot := by
  intro h
  unfold CurveSnapshot.visitMap at h
  obtain ⟨fields, hfields, h⟩ := bind_eq_ok.mp h
  have hmissing : fields.feeBps = none := by
    obtain ⟨first, hfirst, hfields⟩ := bind_eq_ok.mp hfields
    obtain ⟨second, hsecond, hfields⟩ := bind_eq_ok.mp hfields
    obtain ⟨balances, _, hfirst⟩ := bind_eq_ok.mp hfirst
    obtain ⟨A, _, hsecond⟩ := bind_eq_ok.mp hsecond
    obtain rfl := Except.ok.inj hfirst
    obtain rfl := Except.ok.inj hsecond
    obtain rfl := Except.ok.inj hfields
    rfl
  obtain ⟨balances, _, h⟩ := bind_eq_ok.mp h
  obtain ⟨A, _, h⟩ := bind_eq_ok.mp h
  obtain ⟨feeBps, hfeeBps, _⟩ := bind_eq_ok.mp h
  rw [hmissing] at hfeeBps
  cases hfeeBps

/-! ## Main result -/

/-- No export of either pool is read back, whatever the state and the parsers. -/
theorem snapshotJson_never_accepted (parsers : Parsers) :
    (∀ (pool : UniswapV3Pool) stateOverride, ¬pool.SnapshotAccepted parsers stateOverride) ∧
    (∀ (pool : CurveStableswapPool) stateOverride,
      ¬pool.SnapshotAccepted parsers stateOverride) := by
  refine ⟨fun pool stateOverride => ?_, fun pool stateOverride => ?_⟩
  · rintro ⟨snapshot, hread, _⟩
    rw [visitMap_v3_rejects] at hread
    cases hread
  · rintro ⟨snapshot, hread, _⟩
    exact visitMap_curve_rejects parsers pool stateOverride snapshot hread

/-- Decimal strings and small numbers, as the two crates read them. -/
def decimalParsers : Parsers where
  u256
    | .string value => match value.toNat? with
        | some n => .ok n
        | none => .error (.custom "invalid digit")
    | .number value => .ok value.toNat
    | _ => .error (.invalidType "U256")
  mapKey key := match key.toInt? with
    | some n => .ok n
    | none => .error (.invalidType "i32")

/-- The `0.3 %` pool at price one, without liquidity. -/
def emptyPool : UniswapV3Pool where
  stateMgr := .init ⟨0, 2 ^ 96, 0, ∅, ∅, 1⟩ 8
  initialStateBlock := 1
  tickSpacing := 60
  sparseLiquidityMap := false
  token0 := ⟨1, 1, "A", 18⟩
  token1 := ⟨2, 1, "B", 18⟩
  fee := 3000

theorem snapshotJson_emptyPool_rejected :
    V3Snapshot.visitMap decimalParsers (emptyPool.toV3SnapshotJson none) =
        .error .invalidNumber ∧
      ¬emptyPool.SnapshotAccepted decimalParsers none := by
  refine ⟨visitMap_v3_rejects .., ?_⟩
  rintro ⟨snapshot, hread, _⟩
  rw [visitMap_v3_rejects] at hread
  cases hread

variable {Key Data : Type}

/-! ## The logs of a chain -/

/-- The liquidity logs of a chain, told apart by block and index. -/
structure ChainLogs (Data : Type) where
  logs : List (LogReceipt Data)
  positions_nodup : (logs.map fun log => (log.blockNumber, log.logIndex)).Nodup
  removed : ∀ log ∈ logs, log.removed = false

/-- The provider returns every matching log of the requested range. -/
def ChainLogs.Serves (chain : ChainLogs Data) (provider : LogProvider Data) : Prop :=
  ∀ fromBlock toBlock, provider fromBlock toBlock =
    .ok (chain.logs.filter fun log => fromBlock ≤ log.blockNumber ∧ log.blockNumber ≤ toBlock)

/-- The logs of a pool that change its liquidity. -/
def SnapshotFormat.Touches (format : SnapshotFormat Key Data) (key : Key)
    (log : LogReceipt Data) : Prop :=
  format.key log = key ∧ format.liquidity log.data ≠ 0

instance [DecidableEq Key] (format : SnapshotFormat Key Data) (key : Key) (log : LogReceipt Data) :
    Decidable (format.Touches key log) := inferInstanceAs (Decidable (_ ∧ _))

/-- Both formats let the events through that change liquidity. -/
def SnapshotFormat.CountsLiquidity (format : SnapshotFormat Key Data) : Prop :=
  ∀ data, format.liquidity data ≠ 0 → format.counted data = true

theorem V3.format_countsLiquidity : V3.format.CountsLiquidity := by
  intro data hne
  cases data with
  | mint _ _ _ _ _ _ sender_ne => simpa [V3.format] using sender_ne
  | burn => simpa [V3.format] using hne

theorem V4.format_countsLiquidity : V4.format.CountsLiquidity := by
  intro data hne
  simpa [V4.format] using hne

theorem ChainLogs.event_inj (chain : ChainLogs Data) (format : SnapshotFormat Key Data)
    {log log' : LogReceipt Data} (hlog : log ∈ chain.logs) (hlog' : log' ∈ chain.logs)
    (h : format.event log = format.event log') : log = log' := by
  refine List.inj_on_of_nodup_map chain.positions_nodup hlog hlog' ?_
  have hblock := congrArg LiquidityEvent.blockNumber h
  have hindex := congrArg LiquidityEvent.logIndex h
  simp only [SnapshotFormat.event] at hblock hindex
  simp [hblock, hindex]

/-- A selection of the logs holds the event of a log at most once. -/
theorem ChainLogs.count_event (chain : ChainLogs Data) (format : SnapshotFormat Key Data)
    (p : LogReceipt Data → Bool) {log : LogReceipt Data} (hlog : log ∈ chain.logs) :
    ((chain.logs.filter p).map format.event).count (format.event log) =
      if p log then 1 else 0 := by
  have hinj : ∀ a ∈ chain.logs.filter p, ∀ b ∈ chain.logs.filter p,
      format.event a = format.event b → a = b := fun a ha b hb =>
    chain.event_inj format (List.mem_of_mem_filter ha) (List.mem_of_mem_filter hb)
  have hnodup : ((chain.logs.filter p).map format.event).Nodup :=
    List.Nodup.map_on hinj ((List.Nodup.of_map _ chain.positions_nodup).filter _)
  rw [hnodup.count]
  congr 1
  rw [List.mem_map, eq_iff_iff]
  constructor
  · rintro ⟨log', hmem, hevent⟩
    rw [← chain.event_inj format (List.mem_of_mem_filter hmem) hlog hevent]
    exact (List.mem_filter.mp hmem).2
  · intro hp
    exact ⟨log, List.mem_filter.mpr ⟨hlog, hp⟩, rfl⟩

/-! ## Fetching -/

/-- The chunks together hold the logs of the whole range. -/
theorem fetchChunks_perm {chain : ChainLogs Data} {provider : LogProvider Data}
    (hserves : chain.Serves provider) (workingSpan : ℕ+) {endBlock fuel startBlock : ℕ}
    (hfuel : endBlock - startBlock ≤ fuel) :
    ∃ logs, fetchChunks provider workingSpan endBlock fuel startBlock = .ok logs ∧
      logs.Perm (chain.logs.filter fun log =>
        startBlock ≤ log.blockNumber ∧ log.blockNumber ≤ endBlock) := by
  induction fuel generalizing startBlock with
  | zero => exact ⟨_, hserves _ _, .refl _⟩
  | succ fuel ih =>
      have hspan := workingSpan.pos
      simp only [fetchChunks]
      generalize hchunk : min endBlock (startBlock + workingSpan - 1) = chunkEnd
      by_cases hlast : chunkEnd = endBlock
      · rw [if_pos hlast, hlast]
        exact ⟨_, hserves _ _, .refl _⟩
      · have hnext : endBlock - (chunkEnd + 1) ≤ fuel := by omega
        obtain ⟨rest, hrest, hperm⟩ := ih hnext
        rw [if_neg hlast, hserves, hrest]
        refine ⟨_, rfl, (hperm.append_left _).trans ?_⟩
        have hsplit := List.filter_append_perm
          (fun log : LogReceipt Data => decide (log.blockNumber ≤ chunkEnd))
          (chain.logs.filter fun log =>
            startBlock ≤ log.blockNumber ∧ log.blockNumber ≤ endBlock)
        rw [List.filter_filter, List.filter_filter] at hsplit
        refine List.Perm.trans (List.Perm.of_eq ?_) hsplit
        congr 1
        · refine List.filter_congr fun log _ => ?_
          rw [← Bool.decide_and, decide_eq_decide]
          omega
        · refine List.filter_congr fun log _ => ?_
          rw [← decide_not, ← Bool.decide_and, decide_eq_decide]
          omega

section Snapshot

variable [DecidableEq Key]

namespace LiquiditySnapshot

theorem pending_append (snapshot : LiquiditySnapshot Key) (key key' : Key)
    (event : LiquidityEvent) : (snapshot.append key event).pending key' =
      snapshot.pending key' ++ if key = key' then [event] else [] := by
  by_cases h : key = key'
  · subst h
    simp [pending, append]
  · simp [pending, append, AList.lookup_insert_ne (Ne.symm h), h]

/-- The loop appends the counted logs of each pool in order. -/
theorem processLogs_spec (format : SnapshotFormat Key Data) (logs : List (LogReceipt Data))
    (snapshot : LiquiditySnapshot Key) (hremoved : ∀ log ∈ logs, log.removed = false) :
    (snapshot.processLogs format logs).1 = .ok () ∧
      (snapshot.processLogs format logs).2.source = snapshot.source ∧
      ∀ key, (snapshot.processLogs format logs).2.pending key = snapshot.pending key ++
        (logs.filter fun log => format.counted log.data ∧ format.key log = key).map
          format.event := by
  induction logs generalizing snapshot with
  | nil => exact ⟨rfl, rfl, fun key => by simp [processLogs]⟩
  | cons log logs ih =>
      have hlog := hremoved log (by simp)
      have hlogs : ∀ log' ∈ logs, log'.removed = false := fun log' h =>
        hremoved log' (List.mem_cons_of_mem _ h)
      unfold processLogs
      by_cases hcounted : format.counted log.data = true
      · simp only [hcounted, if_true, SnapshotFormat.processLiquidityEventLog, hlog,
          Bool.false_eq_true, if_false]
        obtain ⟨hok, hsource, hpending⟩ :=
          ih (snapshot.append (format.key log) (format.event log)) hlogs
        refine ⟨hok, hsource, fun key => ?_⟩
        rw [hpending, pending_append]
        by_cases hkey : format.key log = key <;> simp [hkey, hcounted]
      · simp only [hcounted, if_false, Bool.false_eq_true]
        obtain ⟨hok, hsource, hpending⟩ := ih snapshot hlogs
        refine ⟨hok, hsource, fun key => ?_⟩
        rw [hpending]
        simp [hcounted]

theorem storeLogs_ok (snapshot : LiquiditySnapshot Key) (format : SnapshotFormat Key Data)
    (toBlock : ℕ) {logs : List (LogReceipt Data)}
    (hok : (snapshot.processLogs format logs).1 = .ok ()) :
    snapshot.storeLogs format toBlock (.ok logs) =
      (.ok (), { (snapshot.processLogs format logs).2 with newestBlock := toBlock }) := by
  rcases hprocess : snapshot.processLogs format logs with ⟨outcome, processed⟩
  rw [hprocess] at hok
  cases hok
  simp [storeLogs, hprocess]

end LiquiditySnapshot

/-! ## Events that are held once -/

/-- The block lies within what an exchange has stored. -/
def Exchange.Covers (exchange : Exchange) (block : ℕ) : Prop :=
  ∃ height, exchange.lastUpdateBlock = some height ∧ block ≤ height

instance (exchange : Exchange) (block : ℕ) : Decidable (exchange.Covers block) :=
  decidable_of_iff (exchange.lastUpdateBlock.any (block ≤ ·)) <| by
    cases h : exchange.lastUpdateBlock <;> simp [Exchange.Covers, h]

/-- The pools of the exchanges on the chain. -/
def DatabaseSnapshot.Tracks (source : DatabaseSnapshot Key) (suffix : String)
    (row : PoolRow Key) : Prop :=
  row ∈ source.session.pools ∧ row.exchange.chainId = source.chainId ∧
    row.exchange.nameLike suffix = true

/-- The stored map of each of these pools sums up its events until the last update of its
exchange. -/
def DatabaseSnapshot.UpToDate (source : DatabaseSnapshot Key)
    (format : SnapshotFormat Key Data) (chain : ChainLogs Data) : Prop :=
  ∀ row, source.Tracks format.exchangeSuffix row →
    row.liquidityMap = some ((chain.logs.filter fun log =>
      format.Touches row.key log ∧ row.exchange.Covers log.blockNumber).map format.event)

/-- What is left to apply to the stored map of a pool. -/
def LiquiditySnapshot.pendingEvents (snapshot : LiquiditySnapshot Key) (key : Key) :
    List (PoolEvent Key) :=
  (snapshot.pending key).map (PoolEvent.mk snapshot.source.chainId key)

/-- A successful fetch after which every event until `toBlock` is held exactly once, in the
stored map of its pool or among the pending events. -/
def LiquiditySnapshot.Complete (format : SnapshotFormat Key Data) (chain : ChainLogs Data)
    (toBlock : ℕ) (outcome : Except Exn Unit × LiquiditySnapshot Key) : Prop :=
  outcome.1 = .ok () ∧
    ∀ row, outcome.2.source.Tracks format.exchangeSuffix row →
      ∀ log ∈ chain.logs, format.Touches row.key log → log.blockNumber ≤ toBlock →
        ∃ stored, outcome.2.storedMap format.column row.key = .ok stored ∧
          (stored ++ outcome.2.pendingEvents row.key).count
            ⟨outcome.2.source.chainId, row.key, format.event log⟩ = 1

def PoolRow.SamePool (row row' : PoolRow Key) : Prop :=
  row.key = row'.key ∧ row.exchange.chainId = row'.exchange.chainId

instance (row row' : PoolRow Key) : Decidable (row.SamePool row') :=
  inferInstanceAs (Decidable (_ ∧ _))

/-- Every event until `toBlock` finds, in the column of its pool, a row with a map; this row is
the pool's own and its exchange covers the event exactly when the event is not above `newest`. -/
def DatabaseSnapshot.NoGap (source : DatabaseSnapshot Key) (format : SnapshotFormat Key Data)
    (chain : ChainLogs Data) (newest toBlock : ℕ) : Prop :=
  ∀ row, source.Tracks format.exchangeSuffix row →
    ∀ log ∈ chain.logs, format.Touches row.key log → log.blockNumber ≤ toBlock →
      ∃ found, source.session.scalar format.column (format.column row.key) = some found ∧
        found.liquidityMap.isSome ∧
          (found.SamePool row ∧ row.exchange.Covers log.blockNumber ↔ log.blockNumber ≤ newest)

variable {source : DatabaseSnapshot Key} {format : SnapshotFormat Key Data}
  {chain : ChainLogs Data} {snapshot : LiquiditySnapshot Key} {provider : LogProvider Data}

omit [DecidableEq Key] in
theorem PoolRow.SamePool.exchange_eq {row row' : PoolRow Key} (h : row.SamePool row')
    (hrow : row ∈ source.session.pools) (hrow' : row' ∈ source.session.pools) :
    row.exchange = row'.exchange :=
  source.session.exchange_eq row hrow row' hrow' h.1 h.2

omit [DecidableEq Key] in
/-- A row of the same pool belongs to the same exchange. -/
theorem DatabaseSnapshot.Tracks.of_samePool {suffix : String} {row found : PoolRow Key}
    (h : source.Tracks suffix row) (hfound : found ∈ source.session.pools)
    (hsame : found.SamePool row) : source.Tracks suffix found := by
  have hexchange := hsame.exchange_eq hfound h.1
  exact ⟨hfound, hexchange ▸ h.2.1, hexchange ▸ h.2.2⟩

omit [DecidableEq Key] in
theorem DatabaseSnapshot.Tracks.exists_scalar {suffix : String} {row : PoolRow Key}
    (h : source.Tracks suffix row) (column : Key → ℕ) :
    ∃ found ∈ source.session.pools,
      source.session.scalar column (column row.key) = some found := by
  cases hfind : source.session.scalar column (column row.key) with
  | none =>
      have hnone := List.find?_eq_none.mp hfind row h.1
      simp at hnone
  | some found => exact ⟨found, List.mem_of_find?_eq_some hfind, rfl⟩

omit [DecidableEq Key] in
/-- The map that the lookup finds, if the row has one. -/
theorem LiquiditySnapshot.storedMap_eq_ok_iff {column : Key → ℕ} {key : Key}
    {found : PoolRow Key} {stored : List (PoolEvent Key)}
    (hfound : snapshot.source.session.scalar column (column key) = some found) :
    snapshot.storedMap column key = .ok stored ↔ found.events = some stored := by
  unfold storedMap DatabaseSnapshot.getLiquidityMap
  rw [hfound]
  cases hevents : found.events with
  | none => simp [hevents, bind, Except.bind]
  | some events => simp [hevents, bind, Except.bind]

/-- The synchronous fetch passes a keyword that `fetch_logs_retrying` does not take. -/
theorem LiquiditySnapshot.fetchNewEvents_fails
    (getProvider : ℕ → Except Exn (LogProvider Data)) (snapshot : LiquiditySnapshot Key)
    (toBlock : ℕ) (blocksPerRequest : Option ℕ+) :
    (snapshot.fetchNewEvents format getProvider toBlock blocksPerRequest).1 ≠ .ok () := by
  have hkeywords : bindKeywords "fetch_logs_retrying" fetchLogsParameters
      ["w3", "start_block", "end_block"]
      ["provider", "start_block", "end_block", "max_blocks_per_request", "topic_signature"] =
      .error (.typeError
        "fetch_logs_retrying() got an unexpected keyword argument 'provider'") := by decide
  unfold LiquiditySnapshot.fetchNewEvents
  rw [hkeywords]
  cases getProvider snapshot.source.chainId <;> simp [LiquiditySnapshot.storeLogs]

/-- What the asynchronous fetch adds to a snapshot. -/
theorem LiquiditySnapshot.fetchNewEventsAsync_spec {getWeb3 : ℕ → Except Exn (LogProvider Data)}
    (hprovider : getWeb3 snapshot.source.chainId = .ok provider) (hserves : chain.Serves provider)
    (toBlock : ℕ) (blocksPerRequest : Option ℕ+) :
    let outcome := snapshot.fetchNewEventsAsync format getWeb3 toBlock blocksPerRequest
    outcome.1 = .ok () ∧ outcome.2.source = snapshot.source ∧
      ∀ key, (outcome.2.pending key).Perm (snapshot.pending key ++
        (chain.logs.filter fun log => (format.counted log.data ∧ format.key log = key) ∧
          snapshot.newestBlock + 1 ≤ log.blockNumber ∧ log.blockNumber ≤ toBlock).map
          format.event) := by
  have hkeywords : bindKeywords "fetch_logs_retrying_async" fetchLogsParameters
      ["w3", "start_block", "end_block"]
      ["w3", "start_block", "end_block", "max_blocks_per_request", "topic_signature"] =
      .ok () := by decide
  obtain ⟨logs, hlogs, hperm⟩ := fetchChunks_perm hserves (blocksPerRequest.getD 5000)
    (le_refl (toBlock - (snapshot.newestBlock + 1)))
  have hremoved : ∀ log ∈ logs, log.removed = false := fun log hlog =>
    chain.removed log (List.mem_of_mem_filter (hperm.mem_iff.mp hlog))
  obtain ⟨hok, hsource, hpending⟩ := snapshot.processLogs_spec format logs hremoved
  have houtcome : snapshot.fetchNewEventsAsync format getWeb3 toBlock blocksPerRequest =
      (.ok (), { (snapshot.processLogs format logs).2 with newestBlock := toBlock }) := by
    unfold LiquiditySnapshot.fetchNewEventsAsync fetchLogsRetryingAsync
    rw [hprovider, hkeywords]
    simp only [bind, Except.bind, hlogs]
    exact snapshot.storeLogs_ok format toBlock hok
  rw [houtcome]
  refine ⟨rfl, hsource, fun key => ?_⟩
  refine (List.Perm.of_eq (hpending key)).trans (List.Perm.append_left _ ?_)
  refine ((hperm.filter _).map format.event).trans (List.Perm.of_eq ?_)
  rw [List.filter_filter]
  congr 1
  refine List.filter_congr fun log _ => ?_
  rw [← Bool.decide_and]

/-- The map of a row holds an event of a tracked pool if the row is one of this pool and its
exchange covers the event. -/
theorem DatabaseSnapshot.UpToDate.count_events (hstored : source.UpToDate format chain)
    {row found : PoolRow Key} (hrow : source.Tracks format.exchangeSuffix row)
    (hfound : found ∈ source.session.pools) {events : List (PoolEvent Key)}
    (hevents : found.events = some events) {log : LogReceipt Data} (hlog : log ∈ chain.logs)
    (htouches : format.Touches row.key log) :
    events.count ⟨source.chainId, row.key, format.event log⟩ =
      if found.SamePool row ∧ row.exchange.Covers log.blockNumber then 1 else 0 := by
  obtain ⟨map, hmap, rfl⟩ := Option.map_eq_some_iff.mp hevents
  by_cases hsame : found.SamePool row
  · have hexchange := hsame.exchange_eq hfound hrow.1
    rw [hstored found (hrow.of_samePool hfound hsame)] at hmap
    cases hmap
    have hinj : Function.Injective (@PoolEvent.mk Key source.chainId row.key) :=
      fun a b h => congrArg PoolEvent.event h
    rw [hexchange, hrow.2.1, hsame.1, List.count_map_of_injective _ _ hinj,
      chain.count_event format _ hlog]
    simp [htouches, hsame]
  · rw [if_neg fun h => hsame h.1, List.count_eq_zero]
    intro hmem
    obtain ⟨event, -, heq⟩ := List.mem_map.mp hmem
    exact hsame ⟨congrArg PoolEvent.key heq,
      (congrArg PoolEvent.chainId heq).trans hrow.2.1.symm⟩

/-- The pending events hold an event above `newest` once. -/
theorem LiquiditySnapshot.count_pending (hcounts : format.CountsLiquidity) {key : Key}
    {log : LogReceipt Data} (hlog : log ∈ chain.logs) (htouches : format.Touches key log)
    {newest toBlock : ℕ} (hle : log.blockNumber ≤ toBlock) {pending : List LiquidityEvent}
    (hpending : pending.Perm ((chain.logs.filter fun log =>
      (format.counted log.data ∧ format.key log = key) ∧
        newest + 1 ≤ log.blockNumber ∧ log.blockNumber ≤ toBlock).map format.event)) :
    pending.count (format.event log) = if log.blockNumber ≤ newest then 0 else 1 := by
  have hcounted := hcounts log.data htouches.2
  rw [hpending.count_eq, chain.count_event format _ hlog]
  by_cases hnewest : log.blockNumber ≤ newest
  · simp [hnewest, hcounted, htouches.1, Nat.not_lt.mpr hnewest]
  · simp [hnewest, hcounted, htouches.1, hle, Nat.lt_of_not_le hnewest]

theorem LiquiditySnapshot.fetch_complete_iff (hcounts : format.CountsLiquidity)
    {getNewestBlock : DatabaseSnapshot Key → Option ℕ} {newest : ℕ}
    (hnewest : getNewestBlock source = some newest)
    (hinit : LiquiditySnapshot.init getNewestBlock source = .ok snapshot)
    (hstored : source.UpToDate format chain) {getWeb3 : ℕ → Except Exn (LogProvider Data)}
    (hprovider : getWeb3 source.chainId = .ok provider) (hserves : chain.Serves provider)
    (toBlock : ℕ) (blocksPerRequest : Option ℕ+) :
    LiquiditySnapshot.Complete format chain toBlock
        (snapshot.fetchNewEventsAsync format getWeb3 toBlock blocksPerRequest) ↔
      source.NoGap format chain newest toBlock := by
  have hsnapshot : snapshot = ⟨source, newest, ∅⟩ := by
    simp only [init, hnewest, Except.ok.injEq] at hinit
    exact hinit.symm
  subst hsnapshot
  have hspec := @fetchNewEventsAsync_spec _ _ _ format _ ⟨source, newest, ∅⟩ _ _ hprovider hserves
    toBlock blocksPerRequest
  obtain ⟨hok, hsource, hpending⟩ := hspec
  unfold Complete DatabaseSnapshot.NoGap pendingEvents
  rw [hsource]
  simp only [hok, true_and]
  refine forall_congr' fun row => forall_congr' fun hrow => forall_congr' fun log =>
    forall_congr' fun hlog => forall_congr' fun htouches => forall_congr' fun hle => ?_
  obtain ⟨found, hmem, hfound⟩ := hrow.exists_scalar format.column
  have hpendingCount := count_pending hcounts hlog htouches hle (hpending row.key)
  have hinj : Function.Injective (@PoolEvent.mk Key source.chainId row.key) :=
    fun a b h => congrArg PoolEvent.event h
  have hread : ∀ stored, storedMap (fetchNewEventsAsync format getWeb3 ⟨source, newest, ∅⟩ toBlock
      blocksPerRequest).2 format.column row.key = .ok stored ↔ found.events = some stored :=
    fun stored => storedMap_eq_ok_iff (by rw [hsource]; exact hfound)
  simp only [hread, hfound, Option.some.injEq, exists_eq_left']
  cases hevents : found.events with
  | none =>
      have hnone : found.liquidityMap = none := Option.map_eq_none_iff.mp hevents
      simp [hnone]
  | some events =>
      obtain ⟨map, hmap, -⟩ := Option.map_eq_some_iff.mp hevents
      simp only [Option.some.injEq, exists_eq_left', hmap, Option.isSome_some, true_and]
      rw [List.count_append, hstored.count_events hrow hmem hevents hlog htouches,
        List.count_map_of_injective _ _ hinj, hpendingCount]
      by_cases hcovers : found.SamePool row ∧ row.exchange.Covers log.blockNumber <;>
        by_cases hle' : log.blockNumber ≤ newest <;> simp [hcovers, hle']

end Snapshot

/-- The synchronous fetch never completes a snapshot. The asynchronous one does exactly when
no event falls between the last update of its exchange and the newest one, and no stored event
is in a row that the lookup misses. -/
theorem snapshot_complete_iff (toBlock : ℕ) (blocksPerRequest : Option ℕ+) :
    (∀ (source : DatabaseSnapshot ℕ) (newest : ℕ) (snapshot : LiquiditySnapshot ℕ)
      (chain : ChainLogs V3.LiquidityData) (provider : LogProvider V3.LiquidityData),
      V3.getNewestBlock source = some newest →
      LiquiditySnapshot.init V3.getNewestBlock source = .ok snapshot →
      source.UpToDate V3.format chain → chain.Serves provider →
      ¬LiquiditySnapshot.Complete V3.format chain toBlock
          (snapshot.fetchNewEvents V3.format (fun _ => .ok provider) toBlock blocksPerRequest) ∧
        (LiquiditySnapshot.Complete V3.format chain toBlock
            (snapshot.fetchNewEventsAsync V3.format (fun _ => .ok provider) toBlock
              blocksPerRequest) ↔
          source.NoGap V3.format chain newest toBlock)) ∧
    (∀ (source : DatabaseSnapshot (ℕ × ℕ)) (newest : ℕ) (snapshot : LiquiditySnapshot (ℕ × ℕ))
      (chain : ChainLogs V4.LiquidityData) (provider : LogProvider V4.LiquidityData),
      V4.getNewestBlock source = some newest →
      LiquiditySnapshot.init V4.getNewestBlock source = .ok snapshot →
      source.UpToDate V4.format chain → chain.Serves provider →
      ¬LiquiditySnapshot.Complete V4.format chain toBlock
          (snapshot.fetchNewEvents V4.format (fun _ => .ok provider) toBlock blocksPerRequest) ∧
        (LiquiditySnapshot.Complete V4.format chain toBlock
            (snapshot.fetchNewEventsAsync V4.format (fun _ => .ok provider) toBlock
              blocksPerRequest) ↔
          source.NoGap V4.format chain newest toBlock)) := by
  constructor
  · intro source newest snapshot chain provider hnewest hinit hstored hserves
    refine ⟨fun hcomplete => LiquiditySnapshot.fetchNewEvents_fails _ _ _ _ hcomplete.1, ?_⟩
    exact LiquiditySnapshot.fetch_complete_iff V3.format_countsLiquidity hnewest hinit hstored rfl
      hserves toBlock blocksPerRequest
  · intro source newest snapshot chain provider hnewest hinit hstored hserves
    refine ⟨fun hcomplete => LiquiditySnapshot.fetchNewEvents_fails _ _ _ _ hcomplete.1, ?_⟩
    exact LiquiditySnapshot.fetch_complete_iff V4.format_countsLiquidity hnewest hinit hstored rfl
      hserves toBlock blocksPerRequest

/-! ## Two exchanges at different heights -/

def ChainLogs.provider {Data : Type} (chain : ChainLogs Data) : LogProvider Data :=
  fun fromBlock toBlock => .ok (chain.logs.filter fun log =>
    fromBlock ≤ log.blockNumber ∧ log.blockNumber ≤ toBlock)

/-- A mint in block 50 and one in block 150. -/
def twoMints : ChainLogs V3.LiquidityData where
  logs := [⟨7, 50, 0, 0, false, .mint (-10) 10 1 5 0 0 (by decide)⟩,
    ⟨7, 150, 0, 0, false, .mint (-10) 10 1 6 0 0 (by decide)⟩]
  positions_nodup := by decide
  removed := by simp

/-- The pool of both mints is stored until block 100, another exchange until `height`. -/
def twoExchanges (height : ℕ) : DatabaseSnapshot ℕ :=
  let database : Database ℕ :=
    { exchanges := [⟨1, "uniswap_v3", some 100⟩, ⟨1, "pancakeswap_v3", some height⟩]
      pools := [⟨"UniswapV3PoolTable", 7, ⟨1, "uniswap_v3", some 100⟩,
        some [⟨50, 5, -10, 10, 0, 0⟩]⟩]
      exchange_eq := by decide }
  .init database 1 none

theorem twoExchanges_upToDate (height : ℕ) :
    (twoExchanges height).UpToDate V3.format twoMints := by
  rintro row ⟨hrow, -, -⟩
  obtain rfl := List.mem_singleton.mp hrow
  decide

theorem snapshot_complete_sample :
    ∃ snapshot, LiquiditySnapshot.init V3.getNewestBlock (twoExchanges 90) = .ok snapshot ∧
      LiquiditySnapshot.Complete V3.format twoMints 250
        (snapshot.fetchNewEventsAsync V3.format (fun _ => .ok twoMints.provider) 250 none) := by
  refine ⟨_, rfl, ?_⟩
  have hiff := ((snapshot_complete_iff 250 none).1 (twoExchanges 90) 100 _ twoMints twoMints.provider
    (by decide) rfl (twoExchanges_upToDate 90) (fun _ _ => rfl)).2
  refine hiff.mpr ?_
  rintro row ⟨hrow, -, -⟩ log hlog - -
  obtain rfl := List.mem_singleton.mp hrow
  rcases List.mem_pair.mp hlog with rfl | rfl
  · exact ⟨_, rfl, rfl, by decide⟩
  · exact ⟨_, rfl, rfl, by decide⟩

/-- The mint of block 150 is behind the height of the other exchange: it is not fetched. -/
theorem snapshot_misses_gap :
    ∃ snapshot, LiquiditySnapshot.init V3.getNewestBlock (twoExchanges 200) = .ok snapshot ∧
      (twoExchanges 200).UpToDate V3.format twoMints ∧ twoMints.Serves twoMints.provider ∧
      ¬LiquiditySnapshot.Complete V3.format twoMints 250
        (snapshot.fetchNewEvents V3.format (fun _ => .ok twoMints.provider) 250 none) ∧
      ¬LiquiditySnapshot.Complete V3.format twoMints 250
        (snapshot.fetchNewEventsAsync V3.format (fun _ => .ok twoMints.provider) 250 none) := by
  refine ⟨_, rfl, twoExchanges_upToDate 200, fun _ _ => rfl, fun h => ?_, fun h => ?_⟩
  · exact LiquiditySnapshot.fetchNewEvents_fails _ _ _ _ h.1
  · obtain ⟨stored, hread, hcount⟩ := h.2 ⟨"UniswapV3PoolTable", 7, ⟨1, "uniswap_v3", some 100⟩,
        some [⟨50, 5, -10, 10, 0, 0⟩]⟩
      ⟨List.mem_singleton.mpr rfl, rfl, by decide⟩
      ⟨7, 150, 0, 0, false, .mint (-10) 10 1 6 0 0 (by decide)⟩ (by simp [twoMints])
      ⟨rfl, by decide⟩ (by decide)
    cases hread
    revert hcount
    decide

end Degenbot
