import Degenbot.Verification.Pool.Positions
import Mathlib.Data.List.TakeWhile

/-! # The cached states of a pool

Every update records its state at a block no earlier than the newest one, so the cache is
ordered and rewinding it undoes a suffix of the updates. -/

namespace Degenbot

open Library

/-! ## The state manager -/

namespace StateManager

/-- Blocks strictly increase from the oldest state to the newest one. -/
def Ordered (manager : StateManager) : Prop :=
  manager.states.Pairwise fun newer older => older.block < newer.block

/-- The most recent state prior to a block. -/
def stateBefore (manager : StateManager) (block : ℕ) : Option PoolState :=
  manager.states.find? (·.block < block)

variable {manager : StateManager} {state : PoolState} {block : ℕ}

theorem pushState_states (manager : StateManager) (state : PoolState) :
    (manager.pushState state).states =
      state :: if manager.newest.block = state.block then manager.older
        else manager.states.take (manager.maxlen - 1) := by
  unfold pushState
  split_ifs <;> rfl

theorem Ordered.pushState (hordered : manager.Ordered)
    (hblock : manager.newest.block ≤ state.block) : (manager.pushState state).Ordered := by
  unfold Ordered at *
  rw [pushState_states, List.pairwise_cons]
  have hcons := List.pairwise_cons.mp hordered
  split_ifs with hsame
  · exact ⟨fun s hs => hsame ▸ hcons.1 s hs, hcons.2⟩
  · refine ⟨fun s hs => ?_, hordered.take⟩
    have hlt : manager.newest.block < state.block := lt_of_le_of_ne hblock hsame
    rcases List.mem_cons.mp (List.mem_of_mem_take hs) with rfl | hold
    · exact hlt
    · exact (hcons.1 s hold).trans hlt

/-- A state recorded before the block is the one to rewind to. -/
theorem stateBefore_of_lt (h : manager.newest.block < block) :
    manager.stateBefore block = some manager.newest := by
  simp [stateBefore, states, h]

/-- A state recorded at or after the block does not change what was before it. -/
theorem stateBefore_pushState_of_le (hle : block ≤ state.block) {s : PoolState}
    (h : (manager.pushState state).stateBefore block = some s) :
    manager.stateBefore block = some s := by
  unfold stateBefore at h ⊢
  rw [pushState_states, List.find?_cons_of_neg (by simpa using hle)] at h
  split_ifs at h with hsame
  · rw [states, List.find?_cons_of_neg (by simpa [hsame] using hle)]
    exact h
  · exact (List.take_prefix _ _).find?_eq_some h

theorem Ordered.earliest_le (hordered : manager.Ordered) {s : PoolState}
    (hs : s ∈ manager.states) : manager.earliest.block ≤ s.block := by
  unfold Ordered states at hordered
  unfold earliest
  unfold states at hs
  rcases List.eq_nil_or_concat manager.older with hnil | ⟨front, last, hconcat⟩
  · rw [hnil] at hs ⊢
    rw [List.mem_singleton.mp hs]
    exact le_rfl
  · rw [hconcat, List.concat_eq_append, ← List.cons_append] at hordered hs
    rw [hconcat, List.concat_eq_append, List.getLastD_concat]
    rcases List.mem_append.mp hs with hfront | hlast
    · exact ((List.pairwise_append.mp hordered).2.2 s hfront last (by simp)).le
    · rw [List.mem_singleton.mp hlast]

/-- Rewinding finds the most recent state prior to the block, where one is cached. -/
theorem restoreStateBeforeBlock_eq (hordered : manager.Ordered)
    (hdepth : ∃ s ∈ manager.states, s.block < block) :
    ∃ restored, manager.restoreStateBeforeBlock block = .ok restored ∧
      manager.stateBefore block = some restored.newest := by
  unfold restoreStateBeforeBlock
  split_ifs with hnew hold
  · exact ⟨manager, rfl, stateBefore_of_lt hnew.2⟩
  · obtain ⟨s, hs, hlt⟩ := hdepth
    have := hordered.earliest_le hs
    omega
  · have hfind : manager.stateBefore block =
        (manager.states.dropWhile (·.block ≥ block)).head? := by
      rw [stateBefore, List.find?_eq_head?_dropWhile_not]
      congr 2
      funext s
      simp only [ge_iff_le, ← not_lt, decide_not]
    cases hdrop : manager.states.dropWhile (·.block ≥ block) with
    | nil =>
        obtain ⟨s, hs, hlt⟩ := hdepth
        have := List.dropWhile_eq_nil_iff.mp hdrop s hs
        simp only [decide_eq_true_eq] at this
        omega
    | cons newest older => exact ⟨{ manager with newest, older }, rfl, by rw [hfind, hdrop]; rfl⟩

end StateManager

/-! ## Updates of all kinds -/

/-- The pool versions; they differ in what they accept. -/
inductive Version where
  | v3
  | v4
deriving DecidableEq

def Version.externalUpdate : Version → Pool → ExternalUpdate → Except Exn Bool × Pool
  | .v3 => V3.externalUpdate
  | .v4 => V4.externalUpdate

def Version.updateLiquidityMap :
    Version → Provider → Pool → LiquidityMappingUpdate → Except Exn Unit × Pool
  | .v3 => V3.updateLiquidityMap
  | .v4 => V4.updateLiquidityMap

/-- A call that may change the cached states. -/
inductive PoolUpdate where
  | swap (update : ExternalUpdate)
  | liquidity (provider : Provider) (update : LiquidityMappingUpdate)
  | poll (provider : Provider) (blockNumber : Option ℕ)

namespace PoolUpdate

def apply (version : Version) (pool : Pool) : PoolUpdate → Except Exn Unit × Pool
  | .swap update =>
      let (outcome, pool) := version.externalUpdate pool update
      (outcome.map fun _ => (), pool)
  | .liquidity provider update => version.updateLiquidityMap provider pool update
  | .poll provider blockNumber => autoUpdate provider pool blockNumber

/-- The block under which an accepted update is filed. A liquidity update that arrives
late is filed under the newest block. -/
def recordedBlock (pool : Pool) : PoolUpdate → ℕ
  | .swap update => update.blockNumber
  | .liquidity _ update => max pool.updateBlock update.blockNumber
  | .poll provider blockNumber =>
      match pool.poll provider blockNumber with
      | .ok values => values.blockNumber
      | .error _ => 0

/-- The head that is polled without a block number has not fallen behind the pool. -/
def HeadInOrder (pool : Pool) : PoolUpdate → Prop
  | .poll provider none => ∀ head, provider.getBlockNumber = .ok head → pool.updateBlock ≤ head
  | _ => True

end PoolUpdate

section Apply

variable {version : Version} {pool : Pool} {update : PoolUpdate}

theorem Pool.recordValues_cases (pool : Pool) (values : ExternalUpdate) :
    (pool.recordValues values).2 = pool ∨ ∃ state : PoolState,
      state.block = values.blockNumber ∧ (pool.recordValues values).2 = pool.pushState state := by
  unfold Pool.recordValues
  split_ifs
  · exact .inl rfl
  · exact .inr ⟨_, rfl, rfl⟩

/-- What an accepted update does: nothing, or it records a state under its block. -/
theorem PoolUpdate.apply_cases (hok : (update.apply version pool).1 = .ok ()) :
    (update.apply version pool).2 = pool ∨ ∃ state : PoolState,
      state.block = update.recordedBlock pool ∧
        (update.apply version pool).2 = pool.pushState state := by
  cases update with
  | swap update =>
      cases version with
      | v3 =>
          simp only [PoolUpdate.apply, Version.externalUpdate, V3.externalUpdate] at hok ⊢
          split_ifs at hok ⊢
          · cases hok
          · exact Pool.recordValues_cases pool update
      | v4 =>
          simp only [PoolUpdate.apply, Version.externalUpdate, V4.externalUpdate] at hok ⊢
          split_ifs at hok ⊢
          · cases hok
          · exact Pool.recordValues_cases pool update
  | liquidity provider update =>
      have hmethod : version.updateLiquidityMap provider = V3.updateLiquidityMap provider ∨
          version.updateLiquidityMap provider = V4.updateLiquidityMap provider := by
        cases version
        · exact .inl rfl
        · exact .inr rfl
      simp only [PoolUpdate.apply] at hok ⊢
      rcases Pool.method_cases hmethod pool update with hrecord | ⟨-, hskip⟩
      · rw [hrecord] at hok ⊢
        have hpair : pool.recordLiquidity provider update =
            (.ok (), (pool.recordLiquidity provider update).2) := by rw [← hok]
        obtain ⟨_, _, _, _, hpool⟩ := Pool.recordLiquidity_eq_ok hpair
        exact .inr ⟨_, rfl, hpool⟩
      · exact .inl (by rw [hskip])
  | poll provider blockNumber =>
      simp only [PoolUpdate.apply, autoUpdate, PoolUpdate.recordedBlock] at hok ⊢
      cases hpoll : pool.poll provider blockNumber with
      | error e => simp [hpoll] at hok
      | ok values => exact Pool.recordValues_cases pool values

theorem Pool.poll_updateBlock_le {provider : Provider} {blockNumber : Option ℕ}
    {values : ExternalUpdate} (hpoll : pool.poll provider blockNumber = .ok values)
    (hhead : PoolUpdate.HeadInOrder pool (.poll provider blockNumber)) :
    pool.updateBlock ≤ values.blockNumber := by
  simp only [Pool.poll, ite_error_eq_ok, bind_eq_ok, Except.ok.injEq] at hpoll
  obtain ⟨hlate, block, hblock, _, -, _, -, rfl⟩ := hpoll
  cases blockNumber with
  | none => exact hhead block hblock
  | some b =>
      simp only [Option.any_some, decide_eq_true_eq, not_lt] at hlate
      cases hblock
      exact hlate

/-- The block of an accepted update is not before the newest state. -/
theorem PoolUpdate.updateBlock_le (hok : (update.apply version pool).1 = .ok ())
    (hhead : update.HeadInOrder pool) : pool.updateBlock ≤ update.recordedBlock pool := by
  cases update with
  | swap update =>
      cases version with
      | v3 =>
          simp only [PoolUpdate.apply, Version.externalUpdate, V3.externalUpdate] at hok
          split_ifs at hok with hlate
          · cases hok
          · simp only [PoolUpdate.recordedBlock]
            omega
      | v4 =>
          simp only [PoolUpdate.apply, Version.externalUpdate, V4.externalUpdate] at hok
          split_ifs at hok with hlate
          · cases hok
          · simp only [PoolUpdate.recordedBlock]
            omega
  | liquidity provider update => exact le_max_left _ _
  | poll provider blockNumber =>
      simp only [PoolUpdate.apply, autoUpdate] at hok
      cases hpoll : pool.poll provider blockNumber with
      | error e => simp [hpoll] at hok
      | ok values =>
          simp only [PoolUpdate.recordedBlock, hpoll]
          exact Pool.poll_updateBlock_le hpoll hhead

/-! ## Updates see only the newest state -/

/-- Pools that differ at most in the states behind the newest one. -/
structure SameView (pool pool' : Pool) : Prop where
  state : pool.state = pool'.state
  initialStateBlock : pool.initialStateBlock = pool'.initialStateBlock
  tickSpacing : pool.tickSpacing = pool'.tickSpacing
  sparse : pool.sparseLiquidityMap = pool'.sparseLiquidityMap

theorem SameView.pushState {pool' : Pool} (h : SameView pool pool') (state : PoolState) :
    SameView (pool.pushState state) (pool'.pushState state) :=
  ⟨by simp, h.initialStateBlock, h.tickSpacing, h.sparse⟩

theorem SameView.recordValues {pool' : Pool} (h : SameView pool pool') (values : ExternalUpdate) :
    (pool.recordValues values).1 = (pool'.recordValues values).1 ∧
      SameView (pool.recordValues values).2 (pool'.recordValues values).2 := by
  unfold Pool.recordValues
  rw [h.state]
  split_ifs
  · exact ⟨rfl, h⟩
  · exact ⟨rfl, h.pushState _⟩

theorem SameView.workingState {pool' : Pool} (h : SameView pool pool') (provider : Provider)
    (update : LiquidityMappingUpdate) :
    pool.workingState provider update = pool'.workingState provider update := by
  obtain ⟨⟨newest, older, depth⟩, initialStateBlock, tickSpacing, sparse⟩ := pool
  obtain ⟨⟨newest', older', depth'⟩, initialStateBlock', tickSpacing', sparse'⟩ := pool'
  obtain ⟨hstate, hinitial, hspacing, hsparse⟩ := h
  simp only [Pool.state] at hstate hinitial hspacing hsparse
  subst hstate hinitial hspacing hsparse
  rfl

theorem SameView.recordLiquidity {pool' : Pool} (h : SameView pool pool') (provider : Provider)
    (update : LiquidityMappingUpdate) :
    SameView (pool.recordLiquidity provider update).2
      (pool'.recordLiquidity provider update).2 := by
  unfold Pool.recordLiquidity
  rw [h.workingState]
  split
  · exact h
  · exact h.pushState _

/-- An update leads from pools with the same view to pools with the same view. -/
theorem SameView.apply {pool' : Pool} (h : SameView pool pool') :
    SameView (update.apply version pool).2 (update.apply version pool').2 := by
  have hblock : pool.updateBlock = pool'.updateBlock := congrArg PoolState.block h.state
  cases update with
  | swap update =>
      cases version with
      | v3 =>
          simp only [PoolUpdate.apply, Version.externalUpdate, V3.externalUpdate,
            h.initialStateBlock, hblock]
          split_ifs
          · exact h
          · exact (h.recordValues update).2
      | v4 =>
          simp only [PoolUpdate.apply, Version.externalUpdate, V4.externalUpdate, hblock]
          split_ifs
          · exact h
          · exact (h.recordValues update).2
  | liquidity provider update =>
      cases version with
      | v3 => exact h.recordLiquidity provider update
      | v4 =>
          simp only [PoolUpdate.apply, Version.updateLiquidityMap, V4.updateLiquidityMap]
          split_ifs
          · exact h
          · exact h.recordLiquidity provider update
  | poll provider blockNumber =>
      have hpoll : pool.poll provider blockNumber = pool'.poll provider blockNumber := by
        simp only [Pool.poll, hblock]
      simp only [PoolUpdate.apply, autoUpdate, hpoll]
      split
      · exact h
      · exact (h.recordValues _).2

end Apply

/-! ## Replaying -/

/-- The pool after a sequence of updates. -/
def replay (version : Version) (pool : Pool) (updates : List PoolUpdate) : Pool :=
  updates.foldl (fun pool update => (update.apply version pool).2) pool

/-- Every update of the sequence is accepted, and polls follow a head that has not fallen
behind. -/
def Accepted (version : Version) : Pool → List PoolUpdate → Prop
  | _, [] => True
  | pool, update :: updates =>
      (update.apply version pool).1 = .ok () ∧ update.HeadInOrder pool ∧
        Accepted version (update.apply version pool).2 updates

/-- The updates of a run that were filed under a block before the given one. -/
def recordedBefore (version : Version) (block : ℕ) : Pool → List PoolUpdate → List PoolUpdate
  | _, [] => []
  | pool, update :: updates =>
      let rest := recordedBefore version block (update.apply version pool).2 updates
      if update.recordedBlock pool < block then update :: rest else rest

section Replay

variable {version : Version} {block : ℕ} {pool undone : Pool}

/-- `undone` has seen the updates of `pool` that were filed before the block. -/
structure Rewinds (block : ℕ) (pool undone : Pool) : Prop where
  ordered : pool.stateMgr.Ordered
  initialStateBlock : pool.initialStateBlock = undone.initialStateBlock
  tickSpacing : pool.tickSpacing = undone.tickSpacing
  sparse : pool.sparseLiquidityMap = undone.sparseLiquidityMap
  before : ∀ s, pool.stateMgr.stateBefore block = some s → undone.state = s

/-- Before the block, both pools have the same view. -/
theorem Rewinds.sameView (h : Rewinds block pool undone) (hlt : pool.updateBlock < block) :
    SameView pool undone :=
  ⟨(h.before _ (StateManager.stateBefore_of_lt hlt)).symm, h.initialStateBlock, h.tickSpacing,
    h.sparse⟩

theorem Rewinds.step {update : PoolUpdate} (h : Rewinds block pool undone)
    (hok : (update.apply version pool).1 = .ok ()) (hhead : update.HeadInOrder pool) :
    Rewinds block (update.apply version pool).2
      (if update.recordedBlock pool < block then (update.apply version undone).2
        else undone) := by
  have hle := PoolUpdate.updateBlock_le hok hhead
  rcases PoolUpdate.apply_cases hok with hsame | ⟨state, hblock, hpush⟩
  · split_ifs with hlt
    · have hview : SameView (update.apply version pool).2 (update.apply version undone).2 :=
        (h.sameView (hle.trans_lt hlt)).apply
      rw [hsame] at hview ⊢
      refine ⟨h.ordered, hview.initialStateBlock, hview.tickSpacing, hview.sparse,
        fun s hs => ?_⟩
      rw [StateManager.stateBefore_of_lt (hle.trans_lt hlt)] at hs
      cases hs
      exact hview.state.symm
    · rw [hsame]
      exact h
  · have hordered : (pool.pushState state).stateMgr.Ordered :=
      h.ordered.pushState (hblock ▸ hle)
    split_ifs with hlt
    · have hview : SameView (update.apply version pool).2 (update.apply version undone).2 :=
        (h.sameView (hle.trans_lt hlt)).apply
      rw [hpush] at hview ⊢
      refine ⟨hordered, hview.initialStateBlock, hview.tickSpacing, hview.sparse,
        fun s hs => ?_⟩
      have hnewest : (pool.pushState state).stateMgr.newest.block < block := by
        change (pool.pushState state).state.block < block
        rw [Pool.pushState_state, hblock]
        exact hlt
      rw [StateManager.stateBefore_of_lt hnewest] at hs
      cases hs
      exact hview.state.symm
    · rw [hpush]
      refine ⟨hordered, h.initialStateBlock, h.tickSpacing, h.sparse, fun s hs => ?_⟩
      exact h.before s (StateManager.stateBefore_pushState_of_le (by omega) hs)

theorem Rewinds.run {updates : List PoolUpdate} (h : Rewinds block pool undone)
    (hacc : Accepted version pool updates) :
    Rewinds block (replay version pool updates)
      (replay version undone (recordedBefore version block pool updates)) := by
  induction updates generalizing pool undone with
  | nil => exact h
  | cons update updates ih =>
      obtain ⟨hok, hhead, hacc⟩ := hacc
      have hstep := ih (h.step hok hhead) hacc
      unfold recordedBefore
      split_ifs at hstep ⊢ <;> exact hstep

/-- The cached states of a pool are in block order, and rewinding the pool leaves it as if
only the updates filed before the block had happened. -/
theorem restoreStateBeforeBlock_replay {initialState : PoolState} {stateCacheDepth : ℕ}
    (hinit : pool.stateMgr = .init initialState stateCacheDepth) (updates : List PoolUpdate)
    (hacc : Accepted version pool updates) :
    let final := replay version pool updates
    final.stateMgr.Ordered ∧
      ∀ block, (∃ s ∈ final.stateMgr.states, s.block < block) →
        (final.restoreStateBeforeBlock block).1 = .ok () ∧
          (final.restoreStateBeforeBlock block).2.state =
            (replay version pool (recordedBefore version block pool updates)).state := by
  intro final
  have hstart : ∀ block, Rewinds block pool pool := by
    intro block
    refine ⟨by simp [hinit, StateManager.Ordered, StateManager.init, StateManager.states], rfl,
      rfl, rfl, fun s hs => ?_⟩
    rw [hinit, StateManager.stateBefore, StateManager.init, StateManager.states,
      List.find?_singleton] at hs
    split_ifs at hs
    cases hs
    rw [Pool.state, hinit]
    rfl
  refine ⟨((hstart 0).run hacc).ordered, fun block hdepth => ?_⟩
  have hrun := (hstart block).run hacc
  obtain ⟨restored, hrestored, hbefore⟩ :=
    StateManager.restoreStateBeforeBlock_eq hrun.ordered hdepth
  rw [Pool.restoreStateBeforeBlock, hrestored]
  exact ⟨rfl, (hrun.before _ hbefore).symm⟩

end Replay

/-! ### A rewind, and a late update -/

/-- A provider whose head is block 120, with a price and liquidity of its own. -/
def sampleProvider : Provider :=
  ⟨.ok 120, fun _ _ => .ok 0, fun _ _ => .error .keyError, fun _ => .ok (2 ^ 96 + 2, 0),
    fun _ => .ok 5⟩

def sampleUpdates : List PoolUpdate :=
  [.swap ⟨110, 0, 2 ^ 96 + 1, 0⟩, .liquidity sampleProvider ⟨110, 5, -10, 10⟩,
    .poll sampleProvider none]

theorem restoreStateBeforeBlock_replay_sample :
    ((replay .v3 Pool.emptyPool sampleUpdates).restoreStateBeforeBlock 120).2.state =
      (replay .v3 Pool.emptyPool (sampleUpdates.take 2)).state := by
  have hacc : Accepted .v3 Pool.emptyPool sampleUpdates := by
    refine ⟨by decide, trivial, by decide, trivial, by decide, ?_,
      trivial⟩
    intro head hhead
    cases hhead
    decide
  have hdepth : ∃ s ∈ (replay .v3 Pool.emptyPool sampleUpdates).stateMgr.states,
      s.block < 120 := by decide
  have hinit : Pool.emptyPool.stateMgr = .init Pool.emptyPool.state _ := rfl
  exact ((restoreStateBeforeBlock_replay hinit sampleUpdates hacc).2 120 hdepth).2

/-- A mint of block 105 that arrives after a swap of block 110 is filed under block 110,
so that rewinding to before block 110 undoes it. -/
theorem restoreStateBeforeBlock_late :
    let swap := PoolUpdate.swap ⟨110, 0, 2 ^ 96 + 1, 0⟩
    let mint := PoolUpdate.liquidity Pool.silentProvider ⟨105, 5, -10, 10⟩
    let final := replay .v3 Pool.emptyPool [swap, mint]
    Accepted .v3 Pool.emptyPool [swap, mint] ∧
      (∃ s ∈ final.stateMgr.states, s.block < 110) ∧
      (final.restoreStateBeforeBlock 110).1 = .ok () ∧
      (final.restoreStateBeforeBlock 110).2.state ≠ (replay .v3 Pool.emptyPool [mint]).state := by
  intro swap mint final
  exact ⟨⟨by decide, trivial, by decide, trivial, trivial⟩, by decide,
    by decide, by decide⟩

end Degenbot
