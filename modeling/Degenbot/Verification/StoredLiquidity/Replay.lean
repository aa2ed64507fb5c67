import Degenbot.Algorithm.LiquidityUpdates
import Degenbot.Library.Batch
import Degenbot.Verification.Pool.Positions

/-! # Reading and writing the rows of a pool

Whatever rows are stored before, the rows after a write are those of the mock pool: its
ticks, and its words that have a bit set. -/

namespace Degenbot

section Table

variable {β γ : Type}

theorem lookup_mapValues (f : β → γ) (d : Dict ℤ β) (key : ℤ) :
    (mapValues f d).lookup key = (d.lookup key).map f :=
  List.dlookup_map₂ (f := fun _ => f) key

theorem append_flatten_toChunksAux {α : Type} (n : ℕ) (xs : List α) (room : ℕ) :
    (xs.toChunksAux n room).1 ++ (xs.toChunksAux n room).2.flatten = xs := by
  induction xs generalizing room with
  | nil => rfl
  | cons x xs ih =>
      cases room with
      | zero => exact congrArg (x :: ·) (ih n)
      | succ room => exact congrArg (x :: ·) (ih room)

theorem flatten_batched {α : Type} (xs : List α) (n : ℕ) : (batched xs n).flatten = xs := by
  have hempty : (xs.toChunksAux (n - 1) 0).1 = [] := by
    cases xs with
    | nil => rfl
    | cons x xs => rfl
  have happend := append_flatten_toChunksAux (n - 1) xs 0
  rw [hempty, List.nil_append] at happend
  exact happend

theorem lookup_foldl_erase (keys : List ℤ) (rows : Dict ℤ β) (key : ℤ) :
    (keys.foldl (fun rows key => rows.erase key) rows).lookup key =
      if key ∈ keys then none else rows.lookup key := by
  induction keys generalizing rows with
  | nil => simp
  | cons first keys ih =>
      rw [List.foldl_cons, ih]
      by_cases hkey : key = first
      · subst hkey
        simp [AList.lookup_erase]
      · simp [hkey, AList.lookup_erase_ne hkey]

/-- A row stays iff the mock pool has its key. -/
theorem lookup_dropStale (rows : Dict ℤ β) (helperKeys : List ℤ) (key : ℤ) :
    (dropStale rows helperKeys).lookup key =
      if key ∈ helperKeys then rows.lookup key else none := by
  rw [dropStale, lookup_foldl_erase]
  by_cases hhelper : key ∈ helperKeys
  · simp [hhelper]
  · by_cases hrow : key ∈ rows
    · simp [hhelper, AList.mem_keys.mp hrow]
    · simp [hhelper, AList.lookup_eq_none.mpr hrow]

variable {differs : β → β → Bool}

/-- Leaving a row that does not differ is the same as writing it. -/
theorem lookup_upsertRow (hdiffers : ∀ a b, differs a b = false → a = b) (rows : Dict ℤ β)
    (value : ℤ × β) (key : ℤ) :
    (upsertRow differs rows value).lookup key =
      if key = value.1 then some value.2 else rows.lookup key := by
  have hinsert : (rows.insert value.1 value.2).lookup key =
      if key = value.1 then some value.2 else rows.lookup key := by
    split_ifs with hkey
    · rw [hkey, AList.lookup_insert]
    · exact AList.lookup_insert_ne hkey
  unfold upsertRow
  split
  · exact hinsert
  · rename_i stored hstored
    by_cases hdiff : differs stored value.2 = true
    · rw [if_pos hdiff]
      exact hinsert
    · have hsame := hdiffers stored value.2 (Bool.eq_false_iff.mpr hdiff)
      rw [if_neg hdiff]
      split_ifs with hkey
      · rw [hkey, hstored, hsame]
      · rfl

theorem lookup_foldl_upsertRow (hdiffers : ∀ a b, differs a b = false → a = b)
    {values : List (ℤ × β)} (hnodup : (values.map Prod.fst).Nodup) (rows : Dict ℤ β) (key : ℤ) :
    (∀ b, (key, b) ∈ values → (values.foldl (upsertRow differs) rows).lookup key = some b) ∧
      (key ∉ values.map Prod.fst →
        (values.foldl (upsertRow differs) rows).lookup key = rows.lookup key) := by
  induction values generalizing rows with
  | nil => simp
  | cons value values ih =>
      rw [List.map_cons, List.nodup_cons] at hnodup
      obtain ⟨hmem, hkeep⟩ := ih hnodup.2 (upsertRow differs rows value)
      rw [List.foldl_cons]
      constructor
      · intro b hb
        rcases List.mem_cons.mp hb with heq | hb
        · -- no later value has this key
          rw [← heq] at hnodup
          rw [hkeep hnodup.1, lookup_upsertRow hdiffers, if_pos (by rw [← heq]), ← heq]
        · exact hmem b hb
      · intro hkey
        rw [List.map_cons, List.mem_cons, not_or] at hkey
        rw [hkeep hkey.2, lookup_upsertRow hdiffers, if_neg hkey.1]

/-- The rows after a write are the values written. -/
theorem lookup_write (hdiffers : ∀ a b, differs a b = false → a = b) {values : List (ℤ × β)}
    (hnodup : (values.map Prod.fst).Nodup) (keysPerRow : ℕ) (rows : Dict ℤ β) (key : ℤ) (b : β) :
    (upsert differs keysPerRow (dropStale rows (values.map Prod.fst)) values).lookup key = some b ↔
      (key, b) ∈ values := by
  rw [upsert, ← List.foldl_flatten, flatten_batched]
  obtain ⟨hmem, hkeep⟩ := lookup_foldl_upsertRow hdiffers hnodup
    (dropStale rows (values.map Prod.fst)) key
  constructor
  · intro hlookup
    by_cases hkey : key ∈ values.map Prod.fst
    · obtain ⟨⟨key', b'⟩, hvalue, rfl⟩ := List.mem_map.mp hkey
      rw [hmem b' hvalue] at hlookup
      cases hlookup
      exact hvalue
    · rw [hkeep hkey, lookup_dropStale, if_neg hkey] at hlookup
      cases hlookup
  · exact hmem b

end Table

/-! ## The rows of a pool -/

theorem map_fst_positionValues (tickData : LiquidityMap) :
    (positionValues tickData).map Prod.fst = tickData.keys := by
  rw [positionValues, List.map_map]
  rfl

theorem map_fst_mapEntryValues_nodup (tickBitmap : InitializedTickMap) :
    ((mapEntryValues tickBitmap).map Prod.fst).Nodup := by
  rw [mapEntryValues, List.map_map]
  exact tickBitmap.keys_nodup.sublist (List.filter_sublist.map _)

section Store

variable (pool : PoolTable) (replay : Replay)

theorem store_lookup_position (tick : ℤ) :
    (pool.store replay).liquidityPositions.lookup tick =
      (replay.lpHelper.state.tickData.lookup tick).map LiquidityAtTick.store := by
  ext position
  have hdiffers : ∀ a b : LiquidityPosition, (decide (a.liquidityNet ≠ b.liquidityNet) ||
      decide (a.liquidityGross ≠ b.liquidityGross)) = false → a = b := by
    rintro ⟨⟩ ⟨⟩ h
    simpa using h
  have hnodup : ((positionValues replay.lpHelper.state.tickData).map Prod.fst).Nodup := by
    rw [map_fst_positionValues]
    exact AList.keys_nodup _
  rw [PoolTable.store, lookup_write hdiffers hnodup, positionValues, List.mem_map,
    Option.map_eq_some_iff]
  constructor
  · rintro ⟨⟨_, info⟩, hentry, heq⟩
    cases heq
    exact ⟨info, AList.mem_lookup_iff.mpr hentry, rfl⟩
  · rintro ⟨info, hinfo, rfl⟩
    exact ⟨⟨tick, info⟩, AList.mem_lookup_iff.mp hinfo, rfl⟩

theorem store_lookup_map (word : ℤ) (map : InitializationMap) :
    (pool.store replay).initializationMaps.lookup word = some map ↔
      map.bitmap ≠ 0 ∧ ∃ entry, replay.lpHelper.state.tickBitmap.lookup word = some entry ∧
        entry.store = map := by
  have hdiffers : ∀ a b : InitializationMap, decide (a.bitmap ≠ b.bitmap) = false → a = b := by
    rintro ⟨⟩ ⟨⟩ h
    simpa using h
  rw [PoolTable.store, lookup_write hdiffers (map_fst_mapEntryValues_nodup _), mapEntryValues,
    List.mem_map]
  constructor
  · rintro ⟨⟨_, entry⟩, hentry, heq⟩
    cases heq
    obtain ⟨hentry, hbitmap⟩ := List.mem_filter.mp hentry
    exact ⟨by simpa [BitmapAtWord.store] using hbitmap, entry,
      AList.mem_lookup_iff.mpr hentry, rfl⟩
  · rintro ⟨hbitmap, entry, hentry, rfl⟩
    refine ⟨⟨word, entry⟩, List.mem_filter.mpr ⟨AList.mem_lookup_iff.mp hentry, ?_⟩, rfl⟩
    simpa [BitmapAtWord.store] using hbitmap

end Store

end Degenbot

/-! ## Replaying events on a mock pool

An event reads the map of a mock pool only through the liquidity of its ticks and the bits
of its words: blocks are not read, and an absent word counts as an empty one. -/

namespace Degenbot

open Library

/-! ## Maps with the same liquidity -/

/-- The bitmap of a word; an absent word has no bit set. -/
def bitmapAt (tickBitmap : InitializedTickMap) (word : ℤ) : ℕ :=
  match tickBitmap.lookup word with
  | none => 0
  | some entry => entry.bitmap

/-- The same bits in every word, and the same liquidity at every tick. -/
structure SameLiquidity (map map' : InitializedTickMap × LiquidityMap) : Prop where
  bits : ∀ word, bitmapAt map.1 word = bitmapAt map'.1 word
  ticks : ∀ tick, (map.2.lookup tick).map LiquidityAtTick.store =
    (map'.2.lookup tick).map LiquidityAtTick.store

section Maps

variable {map map' : InitializedTickMap × LiquidityMap}

theorem SameLiquidity.mem_iff (h : SameLiquidity map map') (tick : ℤ) :
    tick ∈ map.2 ↔ tick ∈ map'.2 := by
  rw [← AList.lookup_isSome, ← AList.lookup_isSome, ← Option.isSome_map, h.ticks tick,
    Option.isSome_map]

theorem SameLiquidity.insert (h : SameLiquidity map map') {tickBitmap tickBitmap' : InitializedTickMap}
    (hbits : ∀ word, bitmapAt tickBitmap word = bitmapAt tickBitmap' word) (tick : ℤ)
    {info info' : LiquidityAtTick} (hinfo : info.store = info'.store) :
    SameLiquidity (tickBitmap, map.2.insert tick info) (tickBitmap', map'.2.insert tick info') := by
  refine ⟨hbits, fun tick' => ?_⟩
  by_cases htick : tick' = tick
  · subst htick
    rw [AList.lookup_insert, AList.lookup_insert, Option.map_some, Option.map_some, hinfo]
  · rw [AList.lookup_insert_ne htick, AList.lookup_insert_ne htick]
    exact h.ticks tick'

theorem SameLiquidity.erase (h : SameLiquidity map map') {tickBitmap tickBitmap' : InitializedTickMap}
    (hbits : ∀ word, bitmapAt tickBitmap word = bitmapAt tickBitmap' word) (tick : ℤ) :
    SameLiquidity (tickBitmap, map.2.erase tick) (tickBitmap', map'.2.erase tick) := by
  refine ⟨hbits, fun tick' => ?_⟩
  by_cases htick : tick' = tick
  · subst htick
    rw [AList.lookup_erase, AList.lookup_erase]
  · rw [AList.lookup_erase_ne htick, AList.lookup_erase_ne htick]
    exact h.ticks tick'

/-- Flipping an aligned tick of a complete map changes one word. -/
theorem flipTick_complete (tickBitmap : InitializedTickMap) {tick tickSpacing : ℤ}
    (hmod : tick.fmod tickSpacing = 0) (block : ℕ) :
    ∃ flipped, flipTick tickBitmap false tick tickSpacing block = .ok flipped ∧
      ∀ word, bitmapAt flipped word =
        if word = (position (evmDivide tick tickSpacing)).1 then
          bitmapAt tickBitmap word ^^^ (1 <<< (position (evmDivide tick tickSpacing)).2)
        else bitmapAt tickBitmap word := by
  simp only [flipTick, hmod, ne_eq, not_true_eq_false, if_false, Bool.false_eq_true]
  cases hlookup : tickBitmap.lookup (position (evmDivide tick tickSpacing)).1 with
  | none =>
      refine ⟨_, rfl, fun word => ?_⟩
      split_ifs with hword
      · subst hword
        simp only [bitmapAt, AList.lookup_insert, hlookup]
      · simp only [bitmapAt, AList.lookup_insert_ne hword]
  | some current =>
      refine ⟨_, rfl, fun word => ?_⟩
      split_ifs with hword
      · subst hword
        simp only [bitmapAt, AList.lookup_insert, hlookup]
      · simp only [bitmapAt, AList.lookup_insert_ne hword]

theorem flipTick_same {tickBitmap tickBitmap' : InitializedTickMap}
    (hbits : ∀ word, bitmapAt tickBitmap word = bitmapAt tickBitmap' word)
    (tick tickSpacing : ℤ) (block : ℕ) :
    ExceptRel (· = ·) (fun a b => ∀ word, bitmapAt a word = bitmapAt b word)
      (flipTick tickBitmap false tick tickSpacing block)
      (flipTick tickBitmap' false tick tickSpacing block) := by
  by_cases hmod : tick.fmod tickSpacing = 0
  · obtain ⟨flipped, hflip, hword⟩ := flipTick_complete tickBitmap hmod block
    obtain ⟨flipped', hflip', hword'⟩ := flipTick_complete tickBitmap' hmod block
    rw [hflip, hflip']
    refine .ok fun word => ?_
    rw [hword word, hword' word, hbits word]
  · rw [flipTick, flipTick, if_pos hmod, if_pos hmod]
    exact .error rfl

end Maps

/-! ## Mock pools -/

/-- A pool with a complete map, which no event is recent enough to adjust in range. -/
structure Pool.Mock (pool : Pool) (tickSpacing : ℤ) : Prop where
  spacing : pool.tickSpacing = tickSpacing
  complete : pool.sparseLiquidityMap = false
  initial : pool.initialStateBlock = maxUint256.toNat
  liquidity_nonneg : 0 ≤ pool.state.liquidity

section Update

variable {pool pool' : Pool} {tickSpacing : ℤ} {map map' : InitializedTickMap × LiquidityMap}

theorem Pool.enterTick_same (hpool : pool.Mock tickSpacing) (hpool' : pool'.Mock tickSpacing)
    (h : SameLiquidity map map') (tick : ℤ) (block : ℕ) :
    ExceptRel (· = ·) SameLiquidity (pool.enterTick tick block map)
      (pool'.enterTick tick block map') := by
  unfold Pool.enterTick
  rw [hpool.complete, hpool'.complete, hpool.spacing, hpool'.spacing]
  by_cases htick : tick ∈ map.2
  · rw [if_neg (not_not.mpr htick), if_neg (not_not.mpr ((h.mem_iff tick).mp htick))]
    exact .ok h
  · rw [if_pos htick, if_pos (mt (h.mem_iff tick).mpr htick)]
    exact (flipTick_same h.bits tick tickSpacing block).bind fun _ _ _ _ hbits =>
      .ok (h.insert hbits tick rfl)

theorem Pool.adjustTick_same (hpool : pool.Mock tickSpacing) (hpool' : pool'.Mock tickSpacing)
    (h : SameLiquidity map map') (update : LiquidityMappingUpdate) (tick : ℤ) :
    ExceptRel (· = ·) SameLiquidity (pool.adjustTick update tick map)
      (pool'.adjustTick update tick map') := by
  unfold Pool.adjustTick
  rw [hpool.complete, hpool'.complete, hpool.spacing, hpool'.spacing]
  have htick := h.ticks tick
  cases hlookup : map.2.lookup tick with
  | none =>
      rw [hlookup, Option.map_none, eq_comm, Option.map_eq_none_iff] at htick
      rw [htick]
      exact .error rfl
  | some current =>
      rw [hlookup, Option.map_some, eq_comm, Option.map_eq_some_iff] at htick
      obtain ⟨current', hlookup', hstore⟩ := htick
      have hgross : current'.liquidityGross = current.liquidityGross :=
        congrArg LiquidityPosition.liquidityGross hstore
      have hnet : current'.liquidityNet = current.liquidityNet :=
        congrArg LiquidityPosition.liquidityNet hstore
      rw [hlookup']
      dsimp only
      rw [hgross, hnet]
      by_cases hneg : ¬current.liquidityGross + update.liquidity ≥ 0
      · rw [if_pos hneg, if_pos hneg]
        exact .error rfl
      rw [if_neg hneg, if_neg hneg]
      by_cases hzero : current.liquidityGross + update.liquidity = 0
      · rw [if_pos hzero, if_pos hzero]
        exact (flipTick_same h.bits tick tickSpacing update.blockNumber).bind fun _ _ _ _ hbits =>
          .ok (h.erase hbits tick)
      · rw [if_neg hzero, if_neg hzero]
        exact ExceptRel.bind_same _ fun entry => .ok (h.insert h.bits tick rfl)

/-- One tick of an update, on maps with the same liquidity. -/
theorem Pool.updateTick_same (hpool : pool.Mock tickSpacing) (hpool' : pool'.Mock tickSpacing)
    (h : SameLiquidity map map') (update : LiquidityMappingUpdate) (tick : ℤ) :
    ExceptRel (· = ·) SameLiquidity (pool.updateTick noProvider update tick map)
      (pool'.updateTick noProvider update tick map') := by
  simp only [Pool.updateTick, Pool.completeWord_complete hpool.complete,
    Pool.completeWord_complete hpool'.complete, ok_bind]
  exact (Pool.enterTick_same hpool hpool' h tick update.blockNumber).bind fun _ _ _ _ hentered =>
    Pool.adjustTick_same hpool hpool' hentered update tick

theorem Pool.Mock.adjustsLiquidity (hpool : pool.Mock tickSpacing) (event : LiquidityLog) :
    pool.adjustsLiquidity event.mappingUpdate = false := by
  have hblock := event.block_le
  simp only [Pool.adjustsLiquidity, hpool.initial, LiquidityLog.mappingUpdate, decide_eq_false_iff_not]
  omega

/-- The mock pool after both ticks of an event. -/
def Pool.withMap (pool : Pool) (event : LiquidityLog)
    (map : InitializedTickMap × LiquidityMap) : Pool :=
  pool.pushState { pool.state with
    tickBitmap := map.1
    tickData := map.2
    block := max pool.updateBlock event.blockNumber }

theorem Pool.Mock.withMap (hpool : pool.Mock tickSpacing) (event : LiquidityLog)
    (map : InitializedTickMap × LiquidityMap) : (pool.withMap event map).Mock tickSpacing :=
  ⟨hpool.spacing, hpool.complete, hpool.initial, by
    simpa [Pool.withMap] using hpool.liquidity_nonneg⟩

@[simp] theorem Pool.withMap_map (pool : Pool) (event : LiquidityLog)
    (map : InitializedTickMap × LiquidityMap) : (pool.withMap event map).map = map := by
  simp [Pool.map, Pool.withMap]

end Update

/-! ## One event -/

theorem applyEvent_v4 : Replay.applyEvent V4.updateLiquidityMap =
    Replay.applyEvent V3.updateLiquidityMap := by
  funext replay event
  unfold Replay.applyEvent
  congr 1
  funext _
  split_ifs with hamount
  · rfl
  · simp [V4.updateLiquidityMap, V3.updateLiquidityMap, LiquidityLog.mappingUpdate, hamount]

variable {tickSpacing : ℤ} {replay replay' : Replay} {event : LiquidityLog}

/-- An event that passes the guard and has an amount updates both of its ticks. -/
theorem applyEvent_eq (hmock : replay.lpHelper.Mock tickSpacing) (event : LiquidityLog) :
    replay.applyEvent V3.updateLiquidityMap event = (do
      replay.guardPast event
      if event.amount = 0 then .ok replay
      else do
        let lower ← replay.lpHelper.updateTick noProvider event.mappingUpdate event.tickLower
          replay.lpHelper.map
        let upper ← replay.lpHelper.updateTick noProvider event.mappingUpdate event.tickUpper lower
        .ok ⟨replay.lpHelper.withMap event upper, some event.blockNumber, some event.logIndex⟩) := by
  unfold Replay.applyEvent
  congr 1
  funext _
  split_ifs with hamount
  · rfl
  · have hmap : (replay.lpHelper.state.tickBitmap, replay.lpHelper.state.tickData) =
        replay.lpHelper.map := rfl
    have hticks : event.mappingUpdate.tickLower = event.tickLower ∧
        event.mappingUpdate.tickUpper = event.tickUpper := ⟨rfl, rfl⟩
    simp only [V3.updateLiquidityMap, Pool.recordLiquidity, Pool.workingState, hmap, hticks,
      hmock.adjustsLiquidity event, hmock.liquidity_nonneg, not_true_eq_false, if_false,
      Bool.false_eq_true, false_and]
    cases hlower : replay.lpHelper.updateTick noProvider event.mappingUpdate event.tickLower
        replay.lpHelper.map with
    | error e => rfl
    | ok lower =>
        simp only [ok_bind]
        cases replay.lpHelper.updateTick noProvider event.mappingUpdate event.tickUpper lower with
        | error e => rfl
        | ok upper => rfl

/-- The outcomes of an accepted event. -/
theorem applyEvent_cases (hmock : replay.lpHelper.Mock tickSpacing)
    (h : replay.applyEvent V3.updateLiquidityMap event = .ok replay') :
    replay.guardPast event = .ok () ∧ (event.amount = 0 ∧ replay' = replay ∨
      event.amount ≠ 0 ∧ ∃ lower upper,
        replay.lpHelper.updateTick noProvider event.mappingUpdate event.tickLower
          replay.lpHelper.map = .ok lower ∧
        replay.lpHelper.updateTick noProvider event.mappingUpdate event.tickUpper lower =
          .ok upper ∧
        replay' = ⟨replay.lpHelper.withMap event upper, some event.blockNumber,
          some event.logIndex⟩) := by
  rw [applyEvent_eq hmock] at h
  obtain ⟨_, hguard, h⟩ := bind_eq_ok.mp h
  refine ⟨hguard, ?_⟩
  split_ifs at h with hamount
  · cases h
    exact .inl ⟨hamount, rfl⟩
  · obtain ⟨lower, hlower, h⟩ := bind_eq_ok.mp h
    obtain ⟨upper, hupper, h⟩ := bind_eq_ok.mp h
    cases h
    exact .inr ⟨hamount, lower, upper, hlower, hupper, rfl⟩

theorem Pool.Mock.applyEvent (hmock : replay.lpHelper.Mock tickSpacing)
    (h : replay.applyEvent V3.updateLiquidityMap event = .ok replay') :
    replay'.lpHelper.Mock tickSpacing := by
  obtain ⟨-, ⟨-, rfl⟩ | ⟨-, lower, upper, -, -, rfl⟩⟩ := applyEvent_cases hmock h
  · exact hmock
  · exact hmock.withMap event upper

/-- Mock pools for the same tick spacing with the same liquidity, and the same stamp. -/
structure Replay.Same (replay replay' : Replay) : Prop where
  mock : replay.lpHelper.Mock replay.lpHelper.tickSpacing
  mock' : replay'.lpHelper.Mock replay.lpHelper.tickSpacing
  liquidity : SameLiquidity replay.lpHelper.map replay'.lpHelper.map
  block : replay.liquidityUpdateBlock = replay'.liquidityUpdateBlock
  logIndex : replay.liquidityUpdateLogIndex = replay'.liquidityUpdateLogIndex

theorem applyEvent_same (h : replay.Same replay') (event : LiquidityLog) :
    ExceptRel (· = ·) Replay.Same
      (replay.applyEvent V3.updateLiquidityMap event)
      (replay'.applyEvent V3.updateLiquidityMap event) := by
  rw [applyEvent_eq h.mock, applyEvent_eq h.mock']
  have hguard : replay.guardPast event = replay'.guardPast event := by
    rw [Replay.guardPast, Replay.guardPast, h.block, h.logIndex]
  rw [hguard]
  refine ExceptRel.bind_same _ fun _ => ?_
  split_ifs
  · exact .ok h
  · refine (Pool.updateTick_same h.mock h.mock' h.liquidity event.mappingUpdate
      event.tickLower).bind fun lower lower' _ _ hlower => ?_
    refine (Pool.updateTick_same h.mock h.mock' hlower event.mappingUpdate
      event.tickUpper).bind fun upper upper' _ _ hupper => ?_
    refine .ok ⟨h.mock.withMap event upper, h.mock'.withMap event upper', ?_, rfl, rfl⟩
    rw [Pool.withMap_map, Pool.withMap_map]
    exact hupper

/-! ## The update stamp -/

/-- The stamp is at the event or past it. -/
def Replay.Passed (replay : Replay) (event : LiquidityLog) : Prop :=
  ∃ block logIndex, replay.liquidityUpdateBlock = some block ∧
    replay.liquidityUpdateLogIndex = some logIndex ∧
    (event.blockNumber < block ∨ event.blockNumber = block ∧ event.logIndex ≤ logIndex)

theorem Replay.Passed.guardPast (h : replay.Passed event) :
    replay.guardPast event = .error .assertionError := by
  obtain ⟨block, logIndex, hblock, hlogIndex, hpast⟩ := h
  simp only [Replay.guardPast, hblock, hlogIndex]
  split_ifs
  · omega
  · rfl
  · omega
  · rfl

/-- An event with an amount moves the stamp to itself. -/
theorem passed_of_applyEvent (hmock : replay.lpHelper.Mock tickSpacing) (hamount : event.amount ≠ 0)
    (h : replay.applyEvent V3.updateLiquidityMap event = .ok replay') : replay'.Passed event := by
  obtain ⟨-, ⟨hzero, -⟩ | ⟨-, lower, upper, -, -, rfl⟩⟩ := applyEvent_cases hmock h
  · exact absurd hzero hamount
  · exact ⟨event.blockNumber, event.logIndex, rfl, rfl, .inr ⟨rfl, le_refl _⟩⟩

/-- The stamp does not move back. -/
theorem Replay.Passed.step {next : LiquidityLog} (hmock : replay.lpHelper.Mock tickSpacing)
    (h : replay.Passed event)
    (hnext : replay.applyEvent V3.updateLiquidityMap next = .ok replay') :
    replay'.Passed event := by
  obtain ⟨block, logIndex, hblock, hlogIndex, hpast⟩ := h
  obtain ⟨hguard, ⟨-, rfl⟩ | ⟨-, lower, upper, -, -, rfl⟩⟩ := applyEvent_cases hmock hnext
  · exact ⟨block, logIndex, hblock, hlogIndex, hpast⟩
  · refine ⟨next.blockNumber, next.logIndex, rfl, rfl, ?_⟩
    simp only [Replay.guardPast, hblock, hlogIndex] at hguard
    split_ifs at hguard <;> omega

theorem foldlM_passed {events : List LiquidityLog} (hmock : replay.lpHelper.Mock tickSpacing)
    (h : events.foldlM (Replay.applyEvent V3.updateLiquidityMap) replay = .ok replay')
    (hevent : replay.Passed event ∨ event ∈ events ∧ event.amount ≠ 0) :
    replay'.Passed event := by
  induction events generalizing replay with
  | nil =>
      cases h
      rcases hevent with hpassed | ⟨hmem, -⟩
      · exact hpassed
      · cases hmem
  | cons next events ih =>
      rw [List.foldlM_cons] at h
      obtain ⟨middle, hnext, h⟩ := bind_eq_ok.mp h
      apply ih (hmock.applyEvent hnext) h
      rcases hevent with hpassed | ⟨hmem, hamount⟩
      · exact .inl (hpassed.step hmock hnext)
      · rcases List.mem_cons.mp hmem with rfl | hmem
        · exact .inl (passed_of_applyEvent hmock hamount hnext)
        · exact .inr ⟨hmem, hamount⟩

/-- A replay that meets an event at or before its stamp fails. -/
theorem foldlM_rejects {events : List LiquidityLog} (hmock : replay.lpHelper.Mock tickSpacing)
    (hpassed : replay.Passed event) (hevent : event ∈ events) :
    ∃ error, events.foldlM (Replay.applyEvent V3.updateLiquidityMap) replay = .error error := by
  induction events generalizing replay with
  | nil => cases hevent
  | cons next events ih =>
      rw [List.foldlM_cons]
      cases hnext : replay.applyEvent V3.updateLiquidityMap next with
      | error e => exact ⟨e, rfl⟩
      | ok middle =>
          rcases List.mem_cons.mp hevent with rfl | hevent
          · have hguard := (applyEvent_cases hmock hnext).1
            rw [hpassed.guardPast] at hguard
            cases hguard
          · exact ih (hmock.applyEvent hnext) (hpassed.step hmock hnext) hevent

end Degenbot
