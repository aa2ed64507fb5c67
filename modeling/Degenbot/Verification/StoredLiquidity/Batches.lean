import Degenbot.Verification.StoredLiquidity.Replay
import Mathlib.Data.Finmap

/-! # Batching the liquidity events of a stored pool

However the events of a pool are cut into batches, the same rows and the same update stamp
are stored; the stored words have the bits of the stored ticks, and an event that was
applied before is rejected. -/

namespace Degenbot

open Library

/-! ## Stored contents -/

/-- What is stored of a pool, without the order of the rows. -/
structure PoolContents where
  exchange : ℕ
  tickSpacing : ℤ
  liquidityUpdateBlock : Option ℕ
  liquidityUpdateLogIndex : Option ℕ
  liquidityPositions : Finmap fun _ : ℤ => LiquidityPosition
  initializationMaps : Finmap fun _ : ℤ => InitializationMap

def PoolTable.contents (pool : PoolTable) : PoolContents where
  exchange := pool.exchange
  tickSpacing := pool.tickSpacing
  liquidityUpdateBlock := pool.liquidityUpdateBlock
  liquidityUpdateLogIndex := pool.liquidityUpdateLogIndex
  liquidityPositions := pool.liquidityPositions.toFinmap
  initializationMaps := pool.initializationMaps.toFinmap

/-- The bitmap stored for a word, zero where none is. -/
def PoolTable.storedBitmap (pool : PoolTable) (word : ℤ) : ℕ :=
  ((pool.initializationMaps.lookup word).map InitializationMap.bitmap).getD 0

/-- The stored words have exactly the bits of the stored ticks and none is empty; a stored
tick has liquidity. -/
structure PoolTable.Consistent (pool : PoolTable) : Prop where
  aligned : ∀ tick ∈ pool.liquidityPositions, pool.tickSpacing ∣ tick
  bits : ∀ word (bit : ℕ), bit < 256 → ((pool.storedBitmap word).testBit bit = true ↔
    (256 * word + bit) * pool.tickSpacing ∈ pool.liquidityPositions)
  nonempty : ∀ word map, pool.initializationMaps.lookup word = some map → map.bitmap ≠ 0
  liquid : ∀ tick position, pool.liquidityPositions.lookup tick = some position →
    0 < position.liquidityGross

theorem PoolTable.new_consistent (exchange : ℕ) {tickSpacing : ℤ} (hs : 0 < tickSpacing) :
    (PoolTable.new exchange tickSpacing hs).Consistent where
  aligned tick htick := absurd htick (AList.notMem_empty tick)
  bits word bit _ := by
    have hempty : (256 * word + (bit : ℤ)) * tickSpacing ∉
        (PoolTable.new exchange tickSpacing hs).liquidityPositions := AList.notMem_empty _
    simp only [PoolTable.storedBitmap, PoolTable.new, AList.lookup_empty, Option.map_none,
      Option.getD_none, Nat.zero_testBit, Bool.false_eq_true, false_iff]
    exact hempty
  nonempty word map hmap := by simp [PoolTable.new] at hmap
  liquid tick position hposition := by simp [PoolTable.new] at hposition

/-! ## Loading stored rows -/

section Load

variable (pool : PoolTable)

/-- The map of both mock pools. -/
def PoolTable.loadedMap : InitializedTickMap × LiquidityMap :=
  (mapValues InitializationMap.load pool.initializationMaps,
    mapValues LiquidityPosition.load pool.liquidityPositions)

/-- A mock pool as one of the updaters makes it from the rows of a pool. -/
structure IsMock (pool : PoolTable) (lpHelper : Pool) : Prop where
  mock : lpHelper.Mock pool.tickSpacing
  map_eq : lpHelper.map = pool.loadedMap

theorem mockLiquidityPool_isMock : IsMock pool pool.mockLiquidityPool :=
  ⟨⟨rfl, rfl, rfl, le_refl _⟩, rfl⟩

def PoolTable.mockV4LiquidityPool : Pool :=
  (V4.externalUpdate pool.mockLiquidityPool mockExternalUpdate).2

theorem externalUpdate_mock : ∃ recorded,
    V4.externalUpdate pool.mockLiquidityPool mockExternalUpdate =
      (.ok recorded, pool.mockV4LiquidityPool) := by
  refine ⟨(pool.mockLiquidityPool.recordValues mockExternalUpdate).1, ?_⟩
  have hblock : ¬mockExternalUpdate.blockNumber < pool.mockLiquidityPool.updateBlock := lt_irrefl 0
  rw [PoolTable.mockV4LiquidityPool, V4.externalUpdate, if_neg hblock]

theorem mockV4LiquidityPool_isMock : IsMock pool pool.mockV4LiquidityPool := by
  have hpush : pool.mockV4LiquidityPool = pool.mockLiquidityPool.pushState
      { pool.mockLiquidityPool.state with
        liquidity := maxUint256
        sqrtPriceX96 := 0
        tick := 0
        block := 0 } := rfl
  rw [hpush]
  exact ⟨⟨rfl, rfl, rfl, by simp [maxUint256]⟩, by simp [Pool.map]; rfl⟩

theorem lookup_loadedMap_tick (tick : ℤ) : (pool.loadedMap.2.lookup tick).map LiquidityAtTick.store =
    pool.liquidityPositions.lookup tick := by
  rw [PoolTable.loadedMap, lookup_mapValues, Option.map_map]
  exact Option.map_id_fun ▸ rfl

theorem bitmapAt_loadedMap (word : ℤ) : bitmapAt pool.loadedMap.1 word = pool.storedBitmap word := by
  rw [bitmapAt, PoolTable.loadedMap, lookup_mapValues, PoolTable.storedBitmap]
  cases pool.initializationMaps.lookup word <;> rfl

end Load

theorem bitAt_eq_testBit (tickBitmap : InitializedTickMap) (tickSpacing tick : ℤ) :
    bitAt tickBitmap tickSpacing tick =
      (bitmapAt tickBitmap (position (tick / tickSpacing)).1).testBit
        (position (tick / tickSpacing)).2 := by
  dsimp only [bitAt, bitmapAt]
  cases tickBitmap.lookup (position (tick / tickSpacing)).1 with
  | none => exact (Nat.zero_testBit _).symm
  | some entry => rfl

theorem position_word_bit (word : ℤ) {bit : ℕ} (hbit : bit < 256) :
    position (256 * word + bit) = (word, bit) := by
  refine Prod.ext ?_ ?_
  · rw [position_fst]
    omega
  · simp only [position]
    omega

/-- A stored pool is consistent iff its mock pools keep their map invariant and no word is
empty. -/
theorem PoolTable.consistent_iff (pool : PoolTable) : pool.Consistent ↔
    MapInv pool.tickSpacing pool.loadedMap ∧
      ∀ word map, pool.initializationMaps.lookup word = some map → map.bitmap ≠ 0 := by
  have hs := pool.spacing_pos
  have hmem : ∀ tick, tick ∈ pool.loadedMap.2 ↔ tick ∈ pool.liquidityPositions := by
    intro tick
    rw [← AList.lookup_isSome, ← AList.lookup_isSome, ← lookup_loadedMap_tick, Option.isSome_map]
  have hgross : ∀ tick position, pool.liquidityPositions.lookup tick = some position →
      grossAt pool.loadedMap.2 tick = position.liquidityGross := by
    intro tick position hposition
    have hlookup : pool.loadedMap.2.lookup tick = some position.load := by
      rw [PoolTable.loadedMap, lookup_mapValues, hposition]
      rfl
    exact grossAt_of_lookup hlookup
  constructor
  · intro h
    refine ⟨⟨fun tick htick => h.aligned tick ((hmem tick).mp htick), fun tick hdvd => ?_,
      fun tick => ⟨fun htick => ?_, fun hpos => ?_⟩⟩, h.nonempty⟩
    · have hbits := h.bits (position (tick / pool.tickSpacing)).1
        (position (tick / pool.tickSpacing)).2 (position_snd_lt _)
      rw [← position_eq, Int.ediv_mul_cancel hdvd] at hbits
      rw [hmem, bitAt_eq_testBit, bitmapAt_loadedMap, hbits]
    · obtain ⟨position, hposition⟩ := Option.isSome_iff_exists.mp
        (AList.lookup_isSome.mpr ((hmem tick).mp htick))
      rw [hgross tick position hposition]
      exact h.liquid tick position hposition
    · by_contra hnot
      rw [grossAt_of_notMem hnot] at hpos
      exact lt_irrefl 0 hpos
  · rintro ⟨hinv, hnonempty⟩
    refine ⟨fun tick htick => hinv.aligned tick ((hmem tick).mpr htick),
      fun word bit hbit => ?_, hnonempty, fun tick position hposition => ?_⟩
    · have hbits := hinv.bits ((256 * word + bit) * pool.tickSpacing) (dvd_mul_left _ _)
      rw [bitAt_eq_testBit, Int.mul_ediv_cancel _ hs.ne', position_word_bit word hbit,
        bitmapAt_loadedMap] at hbits
      rw [← hmem, hbits]
    · rw [← hgross tick position hposition, ← hinv.gross tick, hmem, ← AList.lookup_isSome,
        hposition]
      rfl

/-! ## Storing and loading again -/

/-- The map of a mock pool keeps its invariant, event after event. -/
theorem applyEvent_mapInv {tickSpacing : ℤ} (hs : 0 < tickSpacing) {replay replay' : Replay}
    {event : LiquidityLog} (hmock : replay.lpHelper.Mock tickSpacing)
    (hinv : MapInv tickSpacing replay.lpHelper.map)
    (h : replay.applyEvent V3.updateLiquidityMap event = .ok replay') :
    replay'.lpHelper.Mock tickSpacing ∧ MapInv tickSpacing replay'.lpHelper.map := by
  obtain ⟨-, ⟨-, rfl⟩ | ⟨-, lower, upper, hlower, hupper, rfl⟩⟩ := applyEvent_cases hmock h
  · exact ⟨hmock, hinv⟩
  · refine ⟨hmock.withMap event upper, ?_⟩
    rw [← hmock.spacing] at hs hinv ⊢
    have hinvLower := (Pool.updateTick_eq_ok hs hmock.complete hinv hlower).1
    rw [Pool.withMap_map]
    exact (Pool.updateTick_eq_ok hs hmock.complete hinvLower hupper).1

theorem grossAt_eq_store (tickData : LiquidityMap) (tick : ℤ) : grossAt tickData tick =
    (((tickData.lookup tick).map LiquidityAtTick.store).map
      LiquidityPosition.liquidityGross).getD 0 := by
  rw [grossAt]
  cases tickData.lookup tick <;> rfl

theorem MapInv.congr {tickSpacing : ℤ} {map map' : InitializedTickMap × LiquidityMap}
    (hinv : MapInv tickSpacing map) (h : SameLiquidity map map') : MapInv tickSpacing map' := by
  have hgross : ∀ tick, grossAt map.2 tick = grossAt map'.2 tick := by
    intro tick
    rw [grossAt_eq_store, grossAt_eq_store, h.ticks tick]
  refine ⟨fun tick htick => hinv.aligned tick ((h.mem_iff tick).mpr htick), fun tick hdvd => ?_,
    fun tick => ?_⟩
  · rw [← h.mem_iff, hinv.bits tick hdvd, bitAt_eq_testBit, bitAt_eq_testBit, h.bits]
  · rw [← h.mem_iff, hinv.gross tick, hgross]

/-- No stored word is empty. -/
def PoolTable.NoEmptyWord (pool : PoolTable) : Prop :=
  ∀ word map, pool.initializationMaps.lookup word = some map → map.bitmap ≠ 0

/-- Rows with the same ticks and the same bits are the same, where no word is empty. -/
theorem contents_eq {pool pool' : PoolTable} (hexchange : pool.exchange = pool'.exchange)
    (hspacing : pool.tickSpacing = pool'.tickSpacing)
    (hblock : pool.liquidityUpdateBlock = pool'.liquidityUpdateBlock)
    (hlogIndex : pool.liquidityUpdateLogIndex = pool'.liquidityUpdateLogIndex)
    (hticks : ∀ tick, pool.liquidityPositions.lookup tick = pool'.liquidityPositions.lookup tick)
    (hbits : ∀ word, pool.storedBitmap word = pool'.storedBitmap word)
    (hwords : pool.NoEmptyWord) (hwords' : pool'.NoEmptyWord) : pool.contents = pool'.contents := by
  have hmaps : ∀ word, pool.initializationMaps.lookup word = pool'.initializationMaps.lookup word := by
    intro word
    have hword := hbits word
    unfold PoolTable.storedBitmap at hword
    cases h : pool.initializationMaps.lookup word with
    | none =>
        cases h' : pool'.initializationMaps.lookup word with
        | none => rfl
        | some map' =>
            rw [h, h'] at hword
            exact absurd hword.symm (hwords' word map' h')
    | some map =>
        cases h' : pool'.initializationMaps.lookup word with
        | none =>
            rw [h, h'] at hword
            exact absurd hword (hwords word map h)
        | some map' =>
            rw [h, h'] at hword
            obtain ⟨bitmap, hlt⟩ := map
            obtain ⟨bitmap', hlt'⟩ := map'
            simpa using hword
  have hpositions : pool.liquidityPositions.toFinmap = pool'.liquidityPositions.toFinmap :=
    Finmap.ext_lookup hticks
  have hinitialization : pool.initializationMaps.toFinmap = pool'.initializationMaps.toFinmap :=
    Finmap.ext_lookup hmaps
  simp only [PoolTable.contents, hexchange, hspacing, hblock, hlogIndex, hpositions,
    hinitialization]

section Stored

variable (pool : PoolTable) (replay : Replay)

theorem store_noEmptyWord : (pool.store replay).NoEmptyWord :=
  fun word map hmap => ((store_lookup_map pool replay word map).mp hmap).1

theorem store_storedBitmap (word : ℤ) :
    (pool.store replay).storedBitmap word = bitmapAt replay.lpHelper.map.1 word := by
  have hstored := store_lookup_map pool replay word
  unfold PoolTable.storedBitmap bitmapAt
  cases hlookup : (pool.store replay).initializationMaps.lookup word with
  | some map =>
      obtain ⟨-, entry, hentry, rfl⟩ := (hstored map).mp hlookup
      rw [Pool.map, hentry]
      rfl
  | none =>
      -- the word is absent from the mock pool too, or empty there
      cases hentry : replay.lpHelper.map.1.lookup word with
      | none => rfl
      | some entry =>
          by_contra hne
          have hsome := (hstored entry.store).mpr ⟨Ne.symm hne, entry, hentry, rfl⟩
          rw [hlookup] at hsome
          cases hsome

/-- What is stored of a mock pool loads again with the same liquidity. -/
theorem store_sameLiquidity :
    SameLiquidity (pool.store replay).loadedMap replay.lpHelper.map := by
  refine ⟨fun word => ?_, fun tick => ?_⟩
  · rw [bitmapAt_loadedMap, store_storedBitmap]
  · rw [lookup_loadedMap_tick, store_lookup_position]
    rfl

theorem store_consistent (hinv : MapInv pool.tickSpacing replay.lpHelper.map) :
    (pool.store replay).Consistent := by
  have hsame := store_sameLiquidity pool replay
  refine (pool.store replay).consistent_iff.mpr ⟨?_, store_noEmptyWord pool replay⟩
  exact hinv.congr ⟨fun word => (hsame.bits word).symm, fun tick => (hsame.ticks tick).symm⟩

end Stored

section Batches

variable {load : PoolTable → Pool} (hload : ∀ pool, IsMock pool (load pool))

/-- The updaters load, replay and store. -/
def applyBatch (load : PoolTable → Pool) : PoolTable → List LiquidityLog →
    Except Exn PoolTable :=
  replayBatch (fun pool => pool.replay (load pool)) (Replay.applyEvent V3.updateLiquidityMap)
    PoolTable.store

include hload

theorem applyBatch_reloads :
    Reloads (fun pool => pool.replay (load pool)) (Replay.applyEvent V3.updateLiquidityMap)
      PoolTable.store PoolTable.NoEmptyWord
      (fun pool replay => replay.lpHelper.Mock pool.tickSpacing) Replay.Same
      PoolTable.contents where
  of_load pool := (hload pool).mock
  of_step pool replay event replay' hmock h := hmock.applyEvent h
  same_step replay replay' event h := applyEvent_same h event
  same_reload pool replay hmock := by
    have hstored := hload (pool.store replay)
    have hspacing : (load (pool.store replay)).tickSpacing = pool.tickSpacing := hstored.mock.spacing
    refine ⟨?_, ?_, ?_, rfl, rfl⟩
    · rw [PoolTable.replay, hspacing]
      exact hstored.mock
    · rw [PoolTable.replay, hspacing]
      exact hmock
    · rw [PoolTable.replay, hstored.map_eq]
      exact store_sameLiquidity pool replay
  store_same pool replay replay₁ replay₂ hsame := by
    refine contents_eq rfl rfl hsame.block hsame.logIndex (fun tick => ?_) (fun word => ?_)
      (store_noEmptyWord _ _) (store_noEmptyWord _ _)
    · rw [store_lookup_position, store_lookup_position]
      exact hsame.liquidity.ticks tick
    · rw [store_storedBitmap, store_storedBitmap]
      exact hsame.liquidity.bits word
  inv_store pool replay := store_noEmptyWord pool replay
  store_load pool hwords := by
    have hmap : (pool.replay (load pool)).lpHelper.map = pool.loadedMap := (hload pool).map_eq
    refine contents_eq rfl rfl rfl rfl (fun tick => ?_) (fun word => ?_)
      (store_noEmptyWord _ _) hwords
    · rw [store_lookup_position, ← lookup_loadedMap_tick, ← hmap]
      rfl
    · rw [store_storedBitmap, hmap, bitmapAt_loadedMap]

/-- A batch of accepted events leaves a consistent pool consistent. -/
theorem applyBatch_consistent {pool pool' : PoolTable} {events : List LiquidityLog}
    (hpool : pool.Consistent) (h : applyBatch load pool events = .ok pool') : pool'.Consistent := by
  obtain ⟨replay, hreplay, rfl⟩ := map_eq_ok.mp h
  have hinv := (pool.consistent_iff.mp hpool).1
  rw [← (hload pool).map_eq] at hinv
  have hend : replay.lpHelper.Mock pool.tickSpacing ∧ MapInv pool.tickSpacing replay.lpHelper.map :=
    foldlM_invariant (fun event _ s s' hs hstep =>
      applyEvent_mapInv pool.spacing_pos hs.1 hs.2 hstep) ⟨(hload pool).mock, hinv⟩ hreplay
  exact store_consistent pool replay hend.2

theorem foldlM_applyBatch_consistent {batches : List (List LiquidityLog)}
    {pool pool' : PoolTable} (hpool : pool.Consistent)
    (h : batches.foldlM (applyBatch load) pool = .ok pool') : pool'.Consistent :=
  foldlM_invariant (fun _ _ _ _ hrow hbatch => applyBatch_consistent hload hrow hbatch) hpool h

/-- After any batches, a batch with an event that was applied is rejected. -/
theorem applyBatch_rejects {batches : List (List LiquidityLog)} {pool pool' : PoolTable}
    (hwords : pool.NoEmptyWord) (h : batches.foldlM (applyBatch load) pool = .ok pool')
    {batch : List LiquidityLog} {event : LiquidityLog} (hbatch : event ∈ batch)
    (hevent : event ∈ batches.flatten) (hamount : event.amount ≠ 0) :
    ∃ error, applyBatch load pool' batch = .error error := by
  have hwhole := (applyBatch_reloads hload).foldlM_replayBatch batches hwords
  rw [show batches.foldlM (replayBatch _ _ _) pool = .ok pool' from h, eq_comm] at hwhole
  obtain ⟨stored, hstored, hcontents⟩ := map_eq_ok.mp hwhole
  obtain ⟨replay, hreplay, rfl⟩ := map_eq_ok.mp hstored
  -- the stamp of the whole list is the stamp of its batches
  obtain ⟨block, logIndex, hblock, hlogIndex, hpast⟩ :=
    foldlM_passed (hload pool).mock hreplay (.inr ⟨hevent, hamount⟩)
  have hpassed : (pool'.replay (load pool')).Passed event := by
    refine ⟨block, logIndex, ?_, ?_, hpast⟩
    · exact (congrArg PoolContents.liquidityUpdateBlock hcontents).symm.trans hblock
    · exact (congrArg PoolContents.liquidityUpdateLogIndex hcontents).symm.trans hlogIndex
  obtain ⟨error, herror⟩ := foldlM_rejects (hload pool').mock hpassed hbatch
  refine ⟨error, ?_⟩
  rw [applyBatch, replayBatch, herror]
  rfl

end Batches

/-! ## The updaters -/

section Updaters

variable {ι : Type}

/-- Every way of cutting a list of events into batches stores what the whole list stores,
or fails as it fails; what is stored is consistent. -/
structure BatchesAgree (apply : Option PoolTable → List ι → Except Exn (Option PoolTable))
    (pool : PoolTable) : Prop where
  same : ∀ batches : List (List ι),
    (batches.foldlM apply (some pool)).map (Option.map PoolTable.contents) =
      (apply (some pool) batches.flatten).map (Option.map PoolTable.contents)
  consistent : ∀ (batches : List (List ι)) stored, batches.foldlM apply (some pool) = .ok stored →
    ∃ pool', stored = some pool' ∧ pool'.Consistent

/-- A batch with an event that was applied before and has an amount is rejected. -/
def RejectsApplied (apply : Option PoolTable → List ι → Except Exn (Option PoolTable))
    (decode : ι → LiquidityLog) (pool : PoolTable) : Prop :=
  ∀ (batches : List (List ι)) stored, batches.foldlM apply (some pool) = .ok stored →
    ∀ batch event, event ∈ batch → event ∈ batches.flatten → (decode event).amount ≠ 0 →
      ∃ error, apply stored batch = .error error

variable {apply : Option PoolTable → List ι → Except Exn (Option PoolTable)}
  {decode : ι → LiquidityLog} {load : PoolTable → Pool} {P : PoolTable → Prop}

/-- An updater whose calls on the pools of interest are batches. -/
structure AppliesBatches (apply : Option PoolTable → List ι → Except Exn (Option PoolTable))
    (decode : ι → LiquidityLog) (load : PoolTable → Pool) (P : PoolTable → Prop) : Prop where
  load_mock : ∀ pool, IsMock pool (load pool)
  apply_eq : ∀ pool events, P pool →
    apply (some pool) events = (applyBatch load pool (events.map decode)).map some
  store : ∀ pool replay, P pool → P (pool.store replay)

theorem AppliesBatches.foldlM_eq (happly : AppliesBatches apply decode load P) {pool : PoolTable}
    (hpool : P pool) (batches : List (List ι)) :
    batches.foldlM apply (some pool) =
      ((batches.map (List.map decode)).foldlM (applyBatch load) pool).map some := by
  induction batches generalizing pool with
  | nil => rfl
  | cons batch batches ih =>
      rw [List.foldlM_cons, List.map_cons, List.foldlM_cons, happly.apply_eq pool batch hpool]
      cases hbatch : applyBatch load pool (batch.map decode) with
      | error e => rfl
      | ok pool' =>
          obtain ⟨replay, -, rfl⟩ := map_eq_ok.mp hbatch
          exact ih (happly.store pool replay hpool)

theorem AppliesBatches.agree (happly : AppliesBatches apply decode load P) {pool : PoolTable}
    (hP : P pool) (hpool : pool.Consistent) :
    BatchesAgree apply pool ∧ RejectsApplied apply decode pool := by
  refine ⟨⟨fun batches => ?_, fun batches stored h => ?_⟩,
    fun batches stored h batch event hbatch hevent hamount => ?_⟩
  · have hsame := (applyBatch_reloads happly.load_mock).foldlM_replayBatch
      (batches.map (List.map decode)) hpool.nonempty
    rw [happly.foldlM_eq hP, happly.apply_eq pool _ hP, List.map_flatten, map_map, map_map]
    have hsome := congrArg (Except.map some) hsame
    rw [map_map, map_map] at hsome
    exact hsome
  · rw [happly.foldlM_eq hP] at h
    obtain ⟨pool', hpool', rfl⟩ := map_eq_ok.mp h
    exact ⟨pool', rfl, foldlM_applyBatch_consistent happly.load_mock hpool hpool'⟩
  · rw [happly.foldlM_eq hP] at h
    obtain ⟨pool', hpool', rfl⟩ := map_eq_ok.mp h
    have hP' : P pool' := foldlM_invariant (fun events _ row row' hrow hrow' => by
      obtain ⟨replay, -, rfl⟩ := map_eq_ok.mp hrow'
      exact happly.store row replay hrow) hP hpool'
    obtain ⟨error, herror⟩ := applyBatch_rejects happly.load_mock hpool.nonempty hpool'
      (List.mem_map_of_mem hbatch) (by
        rw [← List.map_flatten]
        exact List.mem_map_of_mem hevent) hamount
    refine ⟨error, ?_⟩
    rw [happly.apply_eq pool' batch hP', herror]
    rfl

end Updaters

theorem applyV3_appliesBatches (exchangesInScope : List ℕ) :
    AppliesBatches (applyV3LiquidityUpdates exchangesInScope) V3LiquidityLog.decode
      PoolTable.mockLiquidityPool (fun pool => pool.exchange ∈ exchangesInScope) where
  load_mock := mockLiquidityPool_isMock
  apply_eq pool events hscope := by
    rw [applyV3LiquidityUpdates]
    simp only [hscope, not_true_eq_false, if_false, applyBatch, replayBatch, map_map]
    cases (events.map V3LiquidityLog.decode).foldlM
        (Replay.applyEvent V3.updateLiquidityMap) (pool.replay pool.mockLiquidityPool) <;> rfl
  store _ _ hscope := hscope

theorem applyV4_appliesBatches :
    AppliesBatches applyV4LiquidityUpdates id PoolTable.mockV4LiquidityPool fun _ => True where
  load_mock := mockV4LiquidityPool_isMock
  apply_eq pool events _ := by
    obtain ⟨recorded, hrecorded⟩ := externalUpdate_mock pool
    rw [applyV4LiquidityUpdates]
    simp only [hrecorded, List.map_id, applyBatch, replayBatch, map_map, applyEvent_v4]
    cases events.foldlM (Replay.applyEvent V3.updateLiquidityMap)
        (pool.replay pool.mockV4LiquidityPool) <;> rfl
  store _ _ _ := trivial

/-- A pool out of scope keeps its rows. -/
theorem applyV3_out_of_scope {exchangesInScope : List ℕ} {pool : PoolTable}
    (hscope : pool.exchange ∉ exchangesInScope) (batches : List (List V3LiquidityLog)) :
    batches.foldlM (applyV3LiquidityUpdates exchangesInScope) (some pool) = .ok (some pool) := by
  induction batches with
  | nil => rfl
  | cons batch batches ih =>
      rw [List.foldlM_cons, applyV3LiquidityUpdates]
      simp only [hscope, not_false_eq_true, if_true, ok_bind, ih]

/-- Batches of liquidity events store what the whole list stores, for both updaters. -/
theorem applyLiquidityUpdates_batches (exchangesInScope : List ℕ) {pool : PoolTable}
    (hpool : pool.Consistent) :
    BatchesAgree (applyV3LiquidityUpdates exchangesInScope) pool ∧
      (pool.exchange ∈ exchangesInScope →
        RejectsApplied (applyV3LiquidityUpdates exchangesInScope) V3LiquidityLog.decode pool) ∧
      BatchesAgree applyV4LiquidityUpdates pool ∧
      RejectsApplied applyV4LiquidityUpdates id pool := by
  obtain ⟨hv4, hrejects⟩ := applyV4_appliesBatches.agree trivial hpool
  refine ⟨?_, fun hscope => ((applyV3_appliesBatches exchangesInScope).agree hscope hpool).2,
    hv4, hrejects⟩
  by_cases hscope : pool.exchange ∈ exchangesInScope
  · exact ((applyV3_appliesBatches exchangesInScope).agree hscope hpool).1
  · refine ⟨fun batches => ?_, fun batches stored h => ?_⟩
    · rw [applyV3_out_of_scope hscope, applyV3LiquidityUpdates]
      simp only [hscope, not_false_eq_true, if_true]
    · rw [applyV3_out_of_scope hscope] at h
      cases h
      exact ⟨pool, rfl, hpool⟩

def sampleMint : V3LiquidityLog := ⟨5, 2, false, 1000, -60, 60, by decide⟩

def sampleBurn : V3LiquidityLog := ⟨6, 0, true, 1000, -60, 60, by decide⟩

/-- A position opened in one batch and closed in the next leaves no row and no word; neither
event is accepted again. -/
theorem applyLiquidityUpdates_batches_sample :
    let pool := PoolTable.new 1 60 (by decide)
    pool.Consistent ∧ ∃ stored,
      [[sampleMint], [sampleBurn]].foldlM (applyV3LiquidityUpdates [1]) (some pool) =
        .ok (some stored) ∧
      (stored.liquidityPositions.keys, stored.initializationMaps.keys, stored.liquidityUpdateBlock,
        stored.liquidityUpdateLogIndex) = ([], [], some 6, some 0) ∧
      ∃ error, applyV3LiquidityUpdates [1] (some stored) [sampleMint] = .error error := by
  intro pool
  have hpool : pool.Consistent := PoolTable.new_consistent 1 (by decide)
  have hrun : ([[sampleMint], [sampleBurn]].foldlM (applyV3LiquidityUpdates [1]) (some pool)).map
      (Option.map fun stored => (stored.liquidityPositions.keys, stored.initializationMaps.keys,
        stored.liquidityUpdateBlock, stored.liquidityUpdateLogIndex)) =
      .ok (some ([], [], some 6, some 0)) := by decide
  obtain ⟨result, hresult, hkeys⟩ := map_eq_ok.mp hrun
  obtain ⟨stored, rfl, hrows⟩ := Option.map_eq_some_iff.mp hkeys
  have hrejects := (applyLiquidityUpdates_batches [1] hpool).2.1 (by decide)
  exact ⟨hpool, stored, hresult, hrows,
    hrejects _ _ hresult [sampleMint] sampleMint (by decide) (by decide) (by decide)⟩

end Degenbot
