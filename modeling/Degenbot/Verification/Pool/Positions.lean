import Degenbot.Verification.Pool.LiquidityMap

/-! # The liquidity map and the open positions

The open positions of a pool are a weight on tick ranges. An accepted update adds its
liquidity to the weight of its range; the mapping and the active liquidity are the sums
of that weight. -/

namespace Degenbot

open Library

/-- The open liquidity of each tick range. -/
abbrev Positions := ℤ × ℤ →₀ ℤ

namespace Pool

/-! ## Static fields -/

@[simp] theorem pushState_state (pool : Pool) (state : PoolState) :
    (pool.pushState state).state = state := by
  simp only [Pool.state, Pool.pushState, StateManager.pushState]
  split <;> rfl

@[simp] theorem pushState_initialStateBlock (pool : Pool) (state : PoolState) :
    (pool.pushState state).initialStateBlock = pool.initialStateBlock := rfl

@[simp] theorem pushState_tickSpacing (pool : Pool) (state : PoolState) :
    (pool.pushState state).tickSpacing = pool.tickSpacing := rfl

@[simp] theorem pushState_sparseLiquidityMap (pool : Pool) (state : PoolState) :
    (pool.pushState state).sparseLiquidityMap = pool.sparseLiquidityMap := rfl

/-! ## The map of a pool -/

def map (pool : Pool) : InitializedTickMap × LiquidityMap :=
  (pool.state.tickBitmap, pool.state.tickData)

/-- Keys, bits and gross liquidity describe the same ticks, and the gross liquidity is
the sum over the positions that touch the tick. -/
structure GrossTracks (pool : Pool) (positions : Positions) : Prop where
  spacing_pos : 0 < pool.tickSpacing
  complete : pool.sparseLiquidityMap = false
  mapInv : MapInv pool.tickSpacing pool.map
  gross_eq : ∀ t, grossAt pool.state.tickData t = endpointGross positions t

/-- The nets are the signed sums over the positions, they cancel, and the active
liquidity is the sum of the nets at or below the current tick. -/
structure NetTracks (pool : Pool) (positions : Positions) : Prop where
  net_eq : ∀ t, netAt pool.state.tickData t = endpointNet positions t
  nets_cancel : ∑ t ∈ pool.state.tickData.keys.toFinset, netAt pool.state.tickData t = 0
  active_eq : pool.state.liquidity = liquidityAt pool.state.tickData pool.state.tick

/-- Positions that are open: their ranges are not empty and hold liquidity. -/
structure Open (positions : Positions) : Prop where
  nonneg : ∀ r, 0 ≤ positions r
  ordered : ∀ r ∈ positions.support, r.1 < r.2

section Sums

variable {pool : Pool} {positions : Positions}

theorem GrossTracks.mem_keys (hgross : pool.GrossTracks positions) (hopen : Open positions) :
    ∀ r ∈ positions.support, r.1 ∈ pool.state.tickData.keys.toFinset ∧
      r.2 ∈ pool.state.tickData.keys.toFinset := by
  intro r hr
  have hkey : ∀ t, t = r.1 ∨ t = r.2 → t ∈ pool.state.tickData.keys.toFinset := by
    intro t ht
    have hpos := endpointGross_pos hopen.nonneg hr ht
    rw [← hgross.gross_eq t] at hpos
    exact List.mem_toFinset.mpr (AList.mem_keys.mp ((hgross.mapInv.gross t).mpr hpos))
  exact ⟨hkey r.1 (.inl rfl), hkey r.2 (.inr rfl)⟩

/-- For open positions the sums of the nets follow from the nets. -/
theorem GrossTracks.netTracks_iff (hgross : pool.GrossTracks positions)
    (hopen : Open positions) : pool.NetTracks positions ↔
      (∀ t, netAt pool.state.tickData t = endpointNet positions t) ∧
        pool.state.liquidity = weightOver positions pool.state.tick := by
  have hkeys := hgross.mem_keys hopen
  have hactive : ∀ hnet : (∀ t, netAt pool.state.tickData t = endpointNet positions t),
      liquidityAt pool.state.tickData pool.state.tick =
        weightOver positions pool.state.tick := by
    intro hnet
    unfold liquidityAt
    simp only [hnet]
    exact sum_endpointNet_le hkeys hopen.ordered _
  constructor
  · rintro ⟨hnet, -, hliq⟩
    exact ⟨hnet, hliq.trans (hactive hnet)⟩
  · rintro ⟨hnet, hliq⟩
    refine ⟨hnet, ?_, hliq.trans (hactive hnet).symm⟩
    simp only [hnet]
    exact sum_endpointNet_eq_zero hkeys

end Sums

/-! ## One update -/

section Update

variable {pool pool' : Pool} {provider : Provider} {update : LiquidityMappingUpdate}
  {positions : Positions}

/-- The position that an update changes. -/
noncomputable def addPosition (positions : Positions) (update : LiquidityMappingUpdate) :
    Positions :=
  positions + Finsupp.single (update.tickLower, update.tickUpper) update.liquidity

theorem recordLiquidity_eq_ok (h : pool.recordLiquidity provider update = (.ok (), pool')) :
    ∃ lower upper, pool.updateTick provider update update.tickLower pool.map = .ok lower ∧
      pool.updateTick provider update update.tickUpper lower = .ok upper ∧
      pool' = pool.pushState { pool.state with
        liquidity := if pool.adjustsLiquidity update then
            pool.state.liquidity + update.liquidity else pool.state.liquidity
        tickBitmap := upper.1
        tickData := upper.2
        block := max pool.updateBlock update.blockNumber } := by
  unfold recordLiquidity at h
  split at h
  · cases h
  · rename_i state hstate
    cases h
    simp only [workingState, ite_error_eq_ok, bind_eq_ok, Except.ok.injEq] at hstate
    obtain ⟨-, -, lower, hlower, upper, hupper, rfl⟩ := hstate
    exact ⟨lower, upper, hlower, hupper, rfl⟩

/-- The gross and the net liquidity after both ticks of an update. -/
theorem updateTicks_eq_ok {lower upper : InitializedTickMap × LiquidityMap}
    (hgross : pool.GrossTracks positions) (hrange : update.tickLower < update.tickUpper)
    (hlower : pool.updateTick provider update update.tickLower pool.map = .ok lower)
    (hupper : pool.updateTick provider update update.tickUpper lower = .ok upper) :
    MapInv pool.tickSpacing upper ∧
      (∀ t, grossAt upper.2 t = endpointGross (addPosition positions update) t) ∧
      ((∀ t, netAt pool.state.tickData t = endpointNet positions t) →
        Open (addPosition positions update) →
        ∀ t, netAt upper.2 t = endpointNet (addPosition positions update) t) := by
  have hs := hgross.spacing_pos
  obtain ⟨hinv, hchange⟩ := updateTick_eq_ok hs hgross.complete hgross.mapInv hlower
  obtain ⟨hinv', hchange'⟩ := updateTick_eq_ok hs hgross.complete hinv hupper
  rw [if_pos rfl] at hchange
  rw [if_neg hrange.ne'] at hchange'
  have hgross' : ∀ t, grossAt upper.2 t = endpointGross (addPosition positions update) t := by
    intro t
    rw [addPosition, endpointGross_add_single, ← hgross.gross_eq]
    by_cases hhigh : t = update.tickUpper
    · subst hhigh
      rw [hchange'.gross_eq, grossAt, hchange.others _ hrange.ne', if_pos (.inr rfl)]
      rfl
    · have hkeep : grossAt upper.2 t = grossAt lower.2 t := by
        rw [grossAt, grossAt, hchange'.others t hhigh]
      by_cases hlow : t = update.tickLower
      · subst hlow
        rw [hkeep, hchange.gross_eq, if_pos (.inl rfl)]
        rfl
      · rw [hkeep, grossAt, hchange.others t hlow, if_neg (by simp [hlow, hhigh]), add_zero]
        rfl
  refine ⟨hinv', hgross', fun hnet hopen t => ?_⟩
  by_cases hzero : grossAt upper.2 t = 0
  · -- a tick without gross liquidity is not in the mapping, and its positions cancel
    have hnotmem : t ∉ upper.2 := fun hmem => ((hinv'.gross t).mp hmem).ne' hzero
    have hbound := abs_endpointNet_le hopen.nonneg (fun r hr => (hopen.ordered r hr).ne) t
    rw [← hgross' t, hzero] at hbound
    rw [netAt_of_notMem hnotmem, abs_nonpos_iff.mp hbound]
  · rw [addPosition, endpointNet_add_single, ← hnet]
    by_cases hhigh : t = update.tickUpper
    · subst hhigh
      rw [hchange'.net_eq hzero, netAt, hchange.others _ hrange.ne', if_neg hrange.ne',
        if_pos rfl, zero_sub]
      rfl
    · have hlookup := hchange'.others t hhigh
      have hkeep : netAt upper.2 t = netAt lower.2 t := by rw [netAt, netAt, hlookup]
      by_cases hlow : t = update.tickLower
      · subst hlow
        have hzero' : grossAt lower.2 update.tickLower ≠ 0 := by
          rw [grossAt, hlookup] at hzero
          exact hzero
        rw [hkeep, hchange.net_eq hzero', if_pos rfl, if_neg hhigh, sub_zero]
        rfl
      · rw [hkeep, netAt, hchange.others t hlow, if_neg hlow, if_neg hhigh, sub_zero, add_zero]
        rfl

/-- An accepted update keeps the gross liquidity, and the nets while positions stay open. -/
theorem recordLiquidity_tracks (hgross : pool.GrossTracks positions)
    (hrange : update.tickLower < update.tickUpper)
    (hblock : pool.initialStateBlock < update.blockNumber)
    (h : pool.recordLiquidity provider update = (.ok (), pool')) :
    pool'.GrossTracks (addPosition positions update) ∧
      (Open positions → pool.NetTracks positions → Open (addPosition positions update) →
        pool'.NetTracks (addPosition positions update)) := by
  obtain ⟨lower, upper, hlower, hupper, rfl⟩ := recordLiquidity_eq_ok h
  obtain ⟨hinv, hgross', hnet'⟩ := updateTicks_eq_ok hgross hrange hlower hupper
  have htracks : (pool.pushState { pool.state with
        liquidity := if pool.adjustsLiquidity update then
            pool.state.liquidity + update.liquidity else pool.state.liquidity
        tickBitmap := upper.1
        tickData := upper.2
        block := max pool.updateBlock update.blockNumber }).GrossTracks
      (addPosition positions update) := by
    refine ⟨hgross.spacing_pos, hgross.complete, ?_, ?_⟩
    · simpa [Pool.map] using hinv
    · simpa using hgross'
  refine ⟨htracks, fun hopen hnets hopen' => ?_⟩
  obtain ⟨hnet, hactive⟩ := (hgross.netTracks_iff hopen).mp hnets
  refine (htracks.netTracks_iff hopen').mpr ⟨by simpa using hnet' hnet hopen', ?_⟩
  simp only [pushState_state, addPosition, weightOver_add_single, ← hactive]
  by_cases hin : update.tickLower ≤ pool.state.tick ∧ pool.state.tick < update.tickUpper
  · simp [adjustsLiquidity, hin, hblock]
  · have hout : pool.adjustsLiquidity update = false := by
      simp only [adjustsLiquidity, decide_eq_false_iff_not]
      tauto
    simp [hout, hin]

/-- Liquidity that is taken from an open range keeps the positions open. -/
theorem Open.addPosition (hopen : Open positions) (hrange : update.tickLower < update.tickUpper)
    (hcovered : 0 ≤ positions (update.tickLower, update.tickUpper) + update.liquidity) :
    Open (addPosition positions update) := by
  constructor
  · intro r
    have hnn := hopen.nonneg r
    by_cases heq : (update.tickLower, update.tickUpper) = r
    · subst heq
      simpa [Pool.addPosition] using hcovered
    · simpa [Pool.addPosition, Finsupp.single_eq_of_ne' heq] using hnn
  · intro r hr
    rcases Finset.mem_union.mp (Finsupp.support_add hr) with hold | hnew
    · exact hopen.ordered r hold
    · rw [Finset.mem_singleton.mp (Finsupp.support_single_subset hnew)]
      exact hrange

end Update

/-! ## Runs -/

section Run

/-- An update method of one of the pool versions, its provider fixed. -/
abbrev UpdateMethod := Pool → LiquidityMappingUpdate → Except Exn Unit × Pool

/-- The pool after an update, and the positions that the accepted updates have opened. -/
noncomputable def track (method : UpdateMethod) (s : Pool × Positions)
    (update : LiquidityMappingUpdate) : Pool × Positions :=
  ((method s.1 update).2,
    if (method s.1 update).1 = .ok () then addPosition s.2 update else s.2)

noncomputable def trackAll (method : UpdateMethod) (s : Pool × Positions)
    (updates : List LiquidityMappingUpdate) : Pool × Positions :=
  updates.foldl (track method) s

/-- Every accepted burn is covered by the open liquidity of its own range. -/
def Covered (method : UpdateMethod) : Pool × Positions → List LiquidityMappingUpdate → Prop
  | _, [] => True
  | s, update :: updates =>
      ((method s.1 update).1 = .ok () →
        0 ≤ s.2 (update.tickLower, update.tickUpper) + update.liquidity) ∧
      Covered method (track method s update) updates

variable {method : UpdateMethod} {provider : Provider} {pool : Pool} {positions : Positions}

/-- V4 skips an update without liquidity, which opens nothing; otherwise the methods do
the same. -/
theorem method_cases
    (hmethod : method = V3.updateLiquidityMap provider ∨ method = V4.updateLiquidityMap provider)
    (pool : Pool) (update : LiquidityMappingUpdate) :
    method pool update = pool.recordLiquidity provider update ∨
      (update.liquidity = 0 ∧ method pool update = (.ok (), pool)) := by
  rcases hmethod with rfl | rfl
  · exact .inl rfl
  · unfold V4.updateLiquidityMap
    split_ifs with hzero
    · exact .inr ⟨hzero, rfl⟩
    · exact .inl rfl

theorem method_error
    (hmethod : method = V3.updateLiquidityMap provider ∨ method = V4.updateLiquidityMap provider)
    {update : LiquidityMappingUpdate} (h : (method pool update).1 ≠ .ok ()) :
    (method pool update).2 = pool := by
  rcases method_cases hmethod pool update with hrecord | ⟨-, hskip⟩
  · rw [hrecord] at h ⊢
    unfold recordLiquidity at h ⊢
    cases hstate : pool.workingState provider update with
    | error e => rfl
    | ok state => simp [hstate] at h
  · rw [hskip]

/-- What every run keeps. -/
structure RunInv (initialStateBlock : ℕ) (s : Pool × Positions) : Prop where
  gross : s.1.GrossTracks s.2
  initial : s.1.initialStateBlock = initialStateBlock

theorem track_inv {initialStateBlock : ℕ} {s : Pool × Positions} {update : LiquidityMappingUpdate}
    (hmethod : method = V3.updateLiquidityMap provider ∨ method = V4.updateLiquidityMap provider)
    (hinv : RunInv initialStateBlock s) (hrange : update.tickLower < update.tickUpper)
    (hblock : initialStateBlock < update.blockNumber) :
    RunInv initialStateBlock (track method s update) ∧
      (Open s.2 → s.1.NetTracks s.2 →
        ((method s.1 update).1 = .ok () →
          0 ≤ s.2 (update.tickLower, update.tickUpper) + update.liquidity) →
        Open (track method s update).2 ∧
          (track method s update).1.NetTracks (track method s update).2) := by
  rcases method_cases hmethod s.1 update with hrecord | ⟨hzero, hskip⟩
  · by_cases hok : (method s.1 update).1 = .ok ()
    · have hpair : s.1.recordLiquidity provider update = (.ok (), (method s.1 update).2) := by
        rw [← hrecord, ← hok]
      obtain ⟨hgross, hnets⟩ :=
        recordLiquidity_tracks hinv.gross hrange (hinv.initial ▸ hblock) hpair
      have hinitial : (method s.1 update).2.initialStateBlock = initialStateBlock := by
        obtain ⟨_, _, _, _, hpool⟩ := recordLiquidity_eq_ok hpair
        rw [hpool]
        exact hinv.initial
      simp only [track, hok, if_true]
      refine ⟨⟨hgross, hinitial⟩, fun hopen hnet hcovered => ?_⟩
      have hopen' := hopen.addPosition hrange (hcovered trivial)
      exact ⟨hopen', hnets hopen hnet hopen'⟩
    · have hsame := method_error hmethod hok
      simp only [track, hok, if_false, hsame]
      exact ⟨hinv, fun hopen hnet _ => ⟨hopen, hnet⟩⟩
  · simp only [track, hskip, if_true, addPosition, hzero, Finsupp.single_zero, add_zero]
    exact ⟨hinv, fun hopen hnet _ => ⟨hopen, hnet⟩⟩

theorem trackAll_inv {initialStateBlock : ℕ} {s : Pool × Positions}
    (hmethod : method = V3.updateLiquidityMap provider ∨ method = V4.updateLiquidityMap provider)
    (updates : List LiquidityMappingUpdate) (hinv : RunInv initialStateBlock s)
    (hupdates : ∀ update ∈ updates, update.tickLower < update.tickUpper ∧
      initialStateBlock < update.blockNumber) :
    RunInv initialStateBlock (trackAll method s updates) ∧
      (Open s.2 → s.1.NetTracks s.2 → Covered method s updates →
        (trackAll method s updates).1.NetTracks (trackAll method s updates).2) := by
  induction updates generalizing s with
  | nil => exact ⟨hinv, fun _ hnet _ => hnet⟩
  | cons update updates ih =>
      obtain ⟨hrange, hblock⟩ := hupdates update (by simp)
      obtain ⟨hinv', hstep⟩ := track_inv hmethod hinv hrange hblock
      obtain ⟨hfinal, hrun⟩ := ih hinv' fun u hu => hupdates u (by simp [hu])
      refine ⟨hfinal, fun hopen hnet hcovered => ?_⟩
      obtain ⟨hopen', hnet'⟩ := hstep hopen hnet hcovered.1
      exact hrun hopen' hnet' hcovered.2

/-- Every run of updates keeps keys, bits and gross liquidity together; a run whose burns
are covered keeps the nets and the active liquidity as well; and a failed update leaves
the pool as it was. -/
theorem updateLiquidityMap_run
    (hmethod : method = V3.updateLiquidityMap provider ∨ method = V4.updateLiquidityMap provider)
    (hgross : pool.GrossTracks positions) (hnets : pool.NetTracks positions)
    (hopen : Open positions) (updates : List LiquidityMappingUpdate)
    (hupdates : ∀ update ∈ updates, update.tickLower < update.tickUpper ∧
      pool.initialStateBlock < update.blockNumber) :
    let final := trackAll method (pool, positions) updates
    final.1.GrossTracks final.2 ∧
      (Covered method (pool, positions) updates → final.1.NetTracks final.2) ∧
      ∀ update, (method final.1 update).1 ≠ .ok () → (method final.1 update).2 = final.1 := by
  obtain ⟨hinv, hrun⟩ := trackAll_inv hmethod updates (s := (pool, positions))
    ⟨hgross, rfl⟩ hupdates
  exact ⟨hinv.gross, hrun hopen hnets, fun update => method_error hmethod⟩

/-! ### A covered and an uncovered run -/

/-- A provider that answers nothing: the map of a complete pool needs none. -/
def silentProvider : Provider :=
  ⟨.error .keyError, fun _ _ => .error .keyError, fun _ _ => .error .keyError,
    fun _ => .error .keyError, fun _ => .error .keyError⟩

/-- A complete pool without liquidity at price one. -/
def emptyPool : Pool where
  stateMgr := .init ⟨0, 2 ^ 96, 0, ∅, ∅, 100⟩ 8
  initialStateBlock := 100
  tickSpacing := 10
  sparseLiquidityMap := false

theorem emptyPool_tracks :
    emptyPool.GrossTracks 0 ∧ emptyPool.NetTracks 0 ∧ Open (0 : Positions) := by
  have hdata : emptyPool.state.tickData = ∅ := rfl
  have hlookup : ∀ t, emptyPool.state.tickData.lookup t = none := fun t => by simp [hdata]
  refine ⟨⟨by decide, rfl, ⟨?_, ?_, ?_⟩, ?_⟩, ⟨?_, ?_, ?_⟩, ⟨?_, ?_⟩⟩
  · intro t ht
    simp [map, hdata] at ht
  · intro t _
    simp [map, bitAt, emptyPool, state, StateManager.init]
  · intro t
    simp [map, hdata, grossAt]
  · intro t
    simp [grossAt, hlookup, endpointGross]
  · intro t
    simp [netAt, hlookup, endpointNet]
  · simp [hdata]
  · decide
  · simp
  · simp

def mintNear : LiquidityMappingUpdate := ⟨101, 5, 0, 10⟩
def mintFar : LiquidityMappingUpdate := ⟨102, 5, 0, 20⟩
def burnNear : LiquidityMappingUpdate := ⟨103, -5, 0, 10⟩

/-- A burn in a range that no mint has opened. -/
def burnUnopened : LiquidityMappingUpdate := ⟨103, -5, 10, 20⟩

theorem updateLiquidityMap_run_sample :
    let final := trackAll (V3.updateLiquidityMap silentProvider) (emptyPool, 0)
      [mintNear, mintFar, burnNear]
    final.1.GrossTracks final.2 ∧ final.1.NetTracks final.2 := by
  intro final
  obtain ⟨hgross, hnets, hopen⟩ := emptyPool_tracks
  obtain ⟨hgross', hnets', -⟩ := updateLiquidityMap_run (.inl rfl) hgross hnets hopen
    [mintNear, mintFar, burnNear] (by decide)
  refine ⟨hgross', hnets' ?_⟩
  have h1 : (V3.updateLiquidityMap silentProvider emptyPool mintNear).1 = .ok () := by
    decide
  have h2 : (V3.updateLiquidityMap silentProvider
      (V3.updateLiquidityMap silentProvider emptyPool mintNear).2 mintFar).1 = .ok () := by
    decide
  simp only [Covered, track, h1, h2, if_true]
  simp [addPosition, mintNear, mintFar, burnNear]

theorem trackAll_fst (method : UpdateMethod) (s : Pool × Positions)
    (updates : List LiquidityMappingUpdate) :
    (trackAll method s updates).1 =
      updates.foldl (fun pool update => (method pool update).2) s.1 := by
  induction updates generalizing s with
  | nil => rfl
  | cons update updates ih => exact ih (track method s update)

/-- A burn that no assertion rejects deletes tick 10 together with a net of -5 that the
mint above it still needs: afterwards the nets sum to 10. -/
theorem updateLiquidityMap_uncovered :
    let updates := [mintNear, mintFar, burnUnopened]
    let run := fun us => us.foldl
      (fun pool update => (V3.updateLiquidityMap silentProvider pool update).2) emptyPool
    emptyPool.GrossTracks 0 ∧ emptyPool.NetTracks 0 ∧ Open (0 : Positions) ∧
      (∀ n < 3, (V3.updateLiquidityMap silentProvider (run (updates.take n))
        (updates.getD n mintNear)).1 = .ok ()) ∧
      ¬(trackAll (V3.updateLiquidityMap silentProvider) (emptyPool, 0) updates).1.NetTracks
        (trackAll (V3.updateLiquidityMap silentProvider) (emptyPool, 0) updates).2 := by
  intro updates run
  obtain ⟨hgross, hnets, hopen⟩ := emptyPool_tracks
  refine ⟨hgross, hnets, hopen, by decide, fun hfinal => ?_⟩
  have hsum : ∑ t ∈ (run updates).state.tickData.keys.toFinset,
      netAt (run updates).state.tickData t = 10 := by decide
  have hzero := hfinal.nets_cancel
  rw [trackAll_fst] at hzero
  exact absurd (hsum.symm.trans hzero) (by decide)

end Run

end Pool

end Degenbot
