import Degenbot.Algorithm.Pool
import Degenbot.Verification.Pool.History

/-! # Discarding and restoring cached states

Both calls pop the states on one side of a block. In an ordered cache these are the states
that a filter removes. -/

namespace Degenbot.StateCache

variable {cache : StateCache} {state newest earliest : PoolState} {block : ℕ}

/-! ## Ordered caches -/

/-- Blocks strictly increase from the oldest state to the newest one. -/
def Ordered (cache : StateCache) : Prop :=
  cache.states.Pairwise fun older newer => older.block < newer.block

theorem Ordered.append (hordered : cache.Ordered)
    (hlt : ∀ s ∈ cache.states, s.block < state.block) : (cache.append state).Ordered := by
  apply List.Pairwise.drop
  rw [List.pairwise_append]
  refine ⟨hordered, List.pairwise_singleton _ _, fun s hs t ht => ?_⟩
  rw [List.mem_singleton.mp ht]
  exact hlt s hs

/-- The states before the newest one are strictly older. -/
theorem Ordered.lt_newest (hordered : cache.Ordered) (hnewest : cache.states.getLast? = some newest)
    {s : PoolState} (hs : s ∈ cache.states.dropLast) : s.block < newest.block := by
  unfold Ordered at hordered
  rw [← List.dropLast_append_getLast? newest hnewest, List.pairwise_append] at hordered
  exact hordered.2.2 s hs newest (List.mem_singleton_self newest)

theorem Ordered.le_newest (hordered : cache.Ordered) (hnewest : cache.states.getLast? = some newest)
    {s : PoolState} (hs : s ∈ cache.states) : s.block ≤ newest.block := by
  rw [← List.dropLast_append_getLast? newest hnewest] at hs
  rcases List.mem_append.mp hs with hbefore | hlast
  · exact (hordered.lt_newest hnewest hbefore).le
  · rw [List.mem_singleton.mp hlast]

theorem Ordered.earliest_le (hordered : cache.Ordered)
    (hearliest : cache.states.head? = some earliest) {s : PoolState} (hs : s ∈ cache.states) :
    earliest.block ≤ s.block := by
  obtain ⟨rest, hcons⟩ := List.head?_eq_some_iff.mp hearliest
  unfold Ordered at hordered
  rw [hcons] at hordered hs
  rcases List.mem_cons.mp hs with rfl | hrest
  · exact le_rfl
  · exact (List.rel_of_pairwise_cons hordered hrest).le

theorem Ordered.pushState (hordered : cache.Ordered)
    (hblock : ∀ newest, cache.states.getLast? = some newest → newest.block ≤ state.block) :
    (cache.pushState state).2.Ordered := by
  unfold StateCache.pushState
  cases hnewest : cache.states.getLast? with
  | none => exact hordered
  | some newest =>
      dsimp only
      split_ifs with hsame
      · refine Ordered.append (hordered.sublist (List.dropLast_sublist _)) fun s hs => ?_
        exact hsame ▸ hordered.lt_newest hnewest hs
      · refine hordered.append fun s hs => ?_
        exact (hordered.le_newest hnewest hs).trans_lt (lt_of_le_of_ne (hblock newest hnewest) hsame)

/-! ## Popping -/

theorem popWhile_snd (p : PoolState → Bool) (states : List PoolState) :
    (popWhile p states).2 = states.dropWhile p := by
  induction states with
  | nil => rfl
  | cons s rest ih =>
      unfold popWhile
      split_ifs with hp
      · rw [ih, List.dropWhile_cons_of_pos hp]
      · rw [List.dropWhile_cons_of_neg hp]

/-- The call ends normally if a state is left. -/
theorem popWhile_fst (p : PoolState → Bool) (states : List PoolState) :
    (popWhile p states).1 = (states.dropWhile p).head?.elim (.error .indexError) .ok := by
  induction states with
  | nil => rfl
  | cons s rest ih =>
      unfold popWhile
      split_ifs with hp
      · rw [ih, List.dropWhile_cons_of_pos hp]
      · rw [List.dropWhile_cons_of_neg hp]
        rfl

theorem dropWhile_eq_filter {α : Type*} {p : α → Bool} {states : List α}
    (hordered : states.Pairwise fun a b => p b = true → p a = true) :
    states.dropWhile p = states.filter fun a => !p a := by
  induction states with
  | nil => rfl
  | cons s rest ih =>
      obtain ⟨hhead, htail⟩ := List.pairwise_cons.mp hordered
      by_cases hp : p s = true
      · rw [List.dropWhile_cons_of_pos hp, List.filter_cons_of_neg (by simpa using hp), ih htail]
      · rw [List.dropWhile_cons_of_neg hp, eq_comm, List.filter_eq_self]
        intro a ha
        rcases List.mem_cons.mp ha with rfl | hrest
        · simpa using hp
        · simpa using mt (hhead a hrest) hp

theorem Ordered.dropWhile_lt (hordered : cache.Ordered) (block : ℕ) :
    cache.states.dropWhile (fun s => decide (s.block < block)) =
      cache.states.filter fun s => decide (block ≤ s.block) := by
  rw [dropWhile_eq_filter]
  · congr 1
    funext s
    simp only [← decide_not, Nat.not_lt]
  · refine hordered.imp fun {older newer} hlt hnewer => ?_
    exact decide_eq_true (hlt.trans (of_decide_eq_true hnewer))

theorem Ordered.dropWhile_ge (hordered : cache.Ordered) (block : ℕ) :
    (cache.states.reverse.dropWhile fun s => decide (s.block ≥ block)).reverse =
      cache.states.filter fun s => decide (s.block < block) := by
  rw [dropWhile_eq_filter, ← List.filter_reverse, List.reverse_reverse]
  · congr 1
    funext s
    simp only [← decide_not, ge_iff_le, Nat.not_le]
  · rw [List.pairwise_reverse]
    refine hordered.imp fun {older newer} hlt holder => ?_
    exact decide_eq_true ((of_decide_eq_true holder).trans hlt.le)

/-! ## Outcomes -/

/-- Either the error with the cache untouched, or exactly the states that `keep` holds of. -/
def Selects {α : Type} (result : Except Exn α × StateCache) (cache : StateCache) (block : ℕ)
    (keep : PoolState → Bool) : Prop :=
  result = (.error (.noPoolStateAvailable block), cache) ∨
    (∃ a, result.1 = .ok a) ∧ result.2 = { cache with states := cache.states.filter keep } ∧
      result.2.states ≠ []

/-- A call that returns has selected, if the states left are the right ones. -/
theorem selects_of_ok {α : Type} {result : Except Exn α × StateCache} {keep : PoolState → Bool}
    {a : α} (hok : result.1 = .ok a)
    (hstates : result.2 = { cache with states := cache.states.filter keep })
    (hleft : result.2.states ≠ []) : Selects result cache block keep :=
  .inr ⟨⟨a, hok⟩, hstates, hleft⟩

/-- A call that runs out of states has not selected. -/
theorem not_selects_of_indexError {α : Type} {result : Except Exn α × StateCache}
    {keep : PoolState → Bool} (herror : result.1 = .error .indexError) :
    ¬Selects result cache block keep := by
  rintro (hraised | ⟨⟨a, hok⟩, _⟩)
  · rw [hraised] at herror
    cases herror
  · rw [hok] at herror
    cases herror

theorem filter_eq_self_of_earliest (hordered : cache.Ordered)
    (hearliest : cache.states.head? = some earliest) (h : block ≤ earliest.block) :
    cache.states.filter (fun s => decide (block ≤ s.block)) = cache.states := by
  rw [List.filter_eq_self]
  intro s hs
  exact decide_eq_true (h.trans (hordered.earliest_le hearliest hs))

theorem filter_eq_self_of_newest (hordered : cache.Ordered)
    (hnewest : cache.states.getLast? = some newest) (h : newest.block < block) :
    cache.states.filter (fun s => decide (s.block < block)) = cache.states := by
  rw [List.filter_eq_self]
  intro s hs
  exact decide_eq_true ((hordered.le_newest hnewest hs).trans_lt h)

/-- A newest state at block 0 counts as absent, and the loop runs past it. -/
theorem discard_selects_iff (hordered : cache.Ordered)
    (hearliest : cache.states.head? = some earliest)
    (hnewest : cache.states.getLast? = some newest) :
    Selects (cache.discardStatesBeforeBlock block) cache block (fun s => decide (block ≤ s.block)) ↔
      (newest.block = 0 → block = 0) := by
  have hmem : newest ∈ cache.states := List.mem_of_getLast? hnewest
  have hne : cache.states ≠ [] := List.ne_nil_of_mem hmem
  unfold discardStatesBeforeBlock
  simp only [hearliest, hnewest]
  split_ifs with hold hnew
  · -- no state is older than the block
    have hself := filter_eq_self_of_earliest hordered hearliest hold.2
    refine iff_of_true (selects_of_ok (a := ()) rfl ?_ hne) fun hzero => ?_
    · rw [hself]
    · have hle := hold.2.trans (hordered.earliest_le hearliest hmem)
      omega
  · exact iff_of_true (.inl rfl) fun hzero => absurd hzero hnew.1
  · by_cases hlast : block ≤ newest.block
    · have hleft : newest ∈ cache.states.filter fun s => decide (block ≤ s.block) :=
        List.mem_filter.mpr ⟨hmem, decide_eq_true hlast⟩
      refine iff_of_true ?_ fun hzero => by omega
      have hstates := hordered.dropWhile_lt block
      obtain ⟨s, hs⟩ := Option.isSome_iff_exists.mp
        (List.isSome_head?.mpr (List.ne_nil_of_mem hleft))
      refine selects_of_ok (a := ()) ?_ ?_ ?_
      · rw [popWhile_fst, hstates, hs]
        rfl
      · rw [popWhile_snd, hstates]
      · rw [popWhile_snd, hstates]
        exact List.ne_nil_of_mem hleft
    · refine iff_of_false (not_selects_of_indexError ?_) fun h => ?_
      · have hnone : cache.states.dropWhile (fun s => decide (s.block < block)) = [] := by
          rw [List.dropWhile_eq_nil_iff]
          intro s hs
          exact decide_eq_true
            ((hordered.le_newest hnewest hs).trans_lt (Nat.lt_of_not_le hlast))
        rw [popWhile_fst, hnone]
        rfl
      · by_cases hzero : newest.block = 0
        · have hblock := h hzero
          omega
        · exact hnew ⟨hzero, Nat.lt_of_not_le hlast⟩

/-- An earliest state at block 0 counts as absent, and the loop runs past it. -/
theorem restore_selects_iff (hordered : cache.Ordered)
    (hearliest : cache.states.head? = some earliest)
    (hnewest : cache.states.getLast? = some newest) :
    Selects (cache.restoreStateBeforeBlock block) cache block (fun s => decide (s.block < block)) ↔
      (earliest.block = 0 → 0 < block) := by
  have hmem : earliest ∈ cache.states := List.mem_of_head? hearliest
  have hne : cache.states ≠ [] := List.ne_nil_of_mem hmem
  unfold restoreStateBeforeBlock
  simp only [hearliest, hnewest]
  split_ifs with hnew hold
  · have hself := filter_eq_self_of_newest hordered hnewest hnew.2
    refine iff_of_true (selects_of_ok (a := newest) rfl ?_ hne) fun _ => by omega
    rw [hself]
  · exact iff_of_true (.inl rfl) fun hzero => absurd hzero hold.1
  · by_cases hfirst : earliest.block < block
    · have hleft : earliest ∈ cache.states.filter fun s => decide (s.block < block) :=
        List.mem_filter.mpr ⟨hmem, decide_eq_true hfirst⟩
      refine iff_of_true ?_ fun hzero => by omega
      have hstates := hordered.dropWhile_ge block
      have hleft' : cache.states.reverse.dropWhile (fun s => decide (s.block ≥ block)) ≠ [] := by
        rw [← List.reverse_ne_nil_iff, hstates]
        exact List.ne_nil_of_mem hleft
      obtain ⟨s, hs⟩ := Option.isSome_iff_exists.mp (List.isSome_head?.mpr hleft')
      refine selects_of_ok (a := s) ?_ ?_ ?_
      · rw [popWhile_fst, hs]
        rfl
      · rw [popWhile_snd, hstates]
      · rw [popWhile_snd, hstates]
        exact List.ne_nil_of_mem hleft
    · refine iff_of_false (not_selects_of_indexError ?_) fun h => ?_
      · have hnone : cache.states.reverse.dropWhile (fun s => decide (s.block ≥ block)) = [] := by
          rw [List.dropWhile_eq_nil_iff]
          intro s hs
          exact decide_eq_true ((Nat.le_of_not_lt hfirst).trans
            (hordered.earliest_le hearliest (List.mem_reverse.mp hs)))
        rw [popWhile_fst, hnone]
        rfl
      · by_cases hzero : earliest.block = 0
        · have hblock := h hzero
          omega
        · exact hold ⟨hzero, Nat.le_of_not_lt hfirst⟩

/-! ## The state manager -/

/-- The deque of a manager. -/
def ofManager (manager : StateManager) : StateCache := ⟨manager.states.reverse, manager.maxlen⟩

theorem ofManager_getLast? (manager : StateManager) :
    (ofManager manager).states.getLast? = some manager.newest := by
  rw [ofManager, List.getLast?_reverse]
  rfl

theorem ofManager_head? (manager : StateManager) :
    (ofManager manager).states.head? = some manager.earliest := by
  rw [ofManager, List.head?_reverse, StateManager.states, StateManager.earliest,
    List.getLast?_cons, List.getLastD_eq_getLast?]

theorem append_reverse (newer : List PoolState) (maxlen : ℕ) (state : PoolState) :
    (StateCache.mk newer.reverse maxlen).append state =
      ⟨((state :: newer).take maxlen).reverse, maxlen⟩ := by
  rw [append, List.reverse_take, List.reverse_cons, List.length_reverse, List.length_cons]

/-- Both models record a state alike. -/
theorem pushState_ofManager {manager : StateManager}
    (hlen : manager.states.length ≤ manager.maxlen) (state : PoolState) :
    (ofManager manager).pushState state = (.ok (), ofManager (manager.pushState state)) := by
  unfold StateCache.pushState
  simp only [ofManager_getLast?]
  unfold ofManager
  rw [StateManager.pushState_states]
  split_ifs with hsame
  · have hdrop : manager.states.reverse.dropLast = manager.older.reverse := by
      rw [StateManager.states, List.reverse_cons, List.dropLast_concat]
    have hmaxlen : (manager.pushState state).maxlen = manager.maxlen := by
      unfold StateManager.pushState
      rw [if_pos hsame]
      rfl
    rw [hdrop, append_reverse, hmaxlen, List.take_of_length_le]
    exact hlen
  · have hmaxlen : (manager.pushState state).maxlen = manager.maxlen := by
      unfold StateManager.pushState
      rw [if_neg hsame]
      rfl
    have hpos : manager.maxlen = manager.maxlen - 1 + 1 :=
      (Nat.sub_add_cancel (le_max_left 1 manager.stateCacheDepth)).symm
    rw [append_reverse, hmaxlen]
    conv_lhs => rw [hpos, List.take_succ_cons, ← hpos]

/-- Both models rewind alike, where a state is left. -/
theorem restoreStateBeforeBlock_ofManager {manager restored : StateManager}
    (h : manager.restoreStateBeforeBlock block = .ok restored) :
    (ofManager manager).restoreStateBeforeBlock block = (.ok restored.newest, ofManager restored) := by
  unfold StateManager.restoreStateBeforeBlock at h
  unfold StateCache.restoreStateBeforeBlock
  simp only [ofManager_getLast?, ofManager_head?]
  split_ifs at h ⊢ with hnew hold
  · rw [Except.ok.inj h]
  · cases hdrop : manager.states.dropWhile (fun s => decide (s.block ≥ block)) with
    | nil =>
        rw [hdrop] at h
        cases h
    | cons state older =>
        rw [hdrop] at h
        rw [popWhile_snd, popWhile_fst, ofManager, List.reverse_reverse, hdrop, ← Except.ok.inj h]
        rfl

/-! ## Every run -/

/-- The caches that any sequence of calls leaves, if every state is recorded at a block no
earlier than the newest one. -/
inductive Reached : StateCache → Prop where
  | init (state : PoolState) (depth : ℕ) : Reached (init state depth)
  | push {cache : StateCache} (state : PoolState) (h : Reached cache)
      (hblock : ∀ newest, cache.states.getLast? = some newest → newest.block ≤ state.block) :
      Reached (cache.pushState state).2
  | discard {cache : StateCache} (block : ℕ) (h : Reached cache) :
      Reached (cache.discardStatesBeforeBlock block).2
  | restore {cache : StateCache} (block : ℕ) (h : Reached cache) :
      Reached (cache.restoreStateBeforeBlock block).2

theorem Ordered.discard (hordered : cache.Ordered) (block : ℕ) :
    (cache.discardStatesBeforeBlock block).2.Ordered := by
  unfold discardStatesBeforeBlock
  split
  · split_ifs
    · exact hordered
    · exact hordered
    · dsimp only [Ordered]
      rw [popWhile_snd]
      exact List.Pairwise.sublist (List.dropWhile_sublist _) hordered
  · exact hordered

theorem Ordered.restore (hordered : cache.Ordered) (block : ℕ) :
    (cache.restoreStateBeforeBlock block).2.Ordered := by
  unfold restoreStateBeforeBlock
  split
  · split_ifs
    · exact hordered
    · exact hordered
    · dsimp only [Ordered]
      rw [popWhile_snd, hordered.dropWhile_ge]
      exact List.Pairwise.filter _ hordered
  · exact hordered

theorem Reached.ordered (h : Reached cache) : cache.Ordered := by
  induction h with
  | init state depth => exact List.pairwise_singleton _ _
  | push state _ hblock ih => exact ih.pushState hblock
  | discard block _ ih => exact ih.discard block
  | restore block _ ih => exact ih.restore block

/-- Both calls select what they should, unless a state at block 0 counts as absent or an
earlier call has emptied the cache. -/
theorem selects_iff (h : Reached cache) (block : ℕ) :
    (Selects (cache.discardStatesBeforeBlock block) cache block
        (fun s => decide (block ≤ s.block)) ↔
      ∃ newest, cache.states.getLast? = some newest ∧ (newest.block = 0 → block = 0)) ∧
      (Selects (cache.restoreStateBeforeBlock block) cache block
        (fun s => decide (s.block < block)) ↔
      ∃ earliest, cache.states.head? = some earliest ∧ (earliest.block = 0 → 0 < block)) := by
  rcases List.eq_nil_or_concat cache.states with hempty | ⟨front, newest, hconcat⟩
  · have hdiscard : (cache.discardStatesBeforeBlock block).1 = .error .indexError := by
      simp [discardStatesBeforeBlock, hempty]
    have hrestore : (cache.restoreStateBeforeBlock block).1 = .error .indexError := by
      simp [restoreStateBeforeBlock, hempty]
    rw [hempty, List.getLast?_nil, List.head?_nil]
    constructor
    · refine iff_of_false (not_selects_of_indexError hdiscard) ?_
      rintro ⟨_, hnone, _⟩
      cases hnone
    · refine iff_of_false (not_selects_of_indexError hrestore) ?_
      rintro ⟨_, hnone, _⟩
      cases hnone
  · have hnewest : cache.states.getLast? = some newest := by
      rw [hconcat, List.concat_eq_append, List.getLast?_concat]
    obtain ⟨earliest, hearliest⟩ := Option.isSome_iff_exists.mp
      (List.isSome_head?.mpr (List.ne_nil_of_mem (List.mem_of_getLast? hnewest)))
    rw [discard_selects_iff h.ordered hearliest hnewest,
      restore_selects_iff h.ordered hearliest hnewest]
    simp only [hnewest, hearliest, Option.some.injEq, exists_eq_left']
    exact ⟨trivial, trivial⟩

/-- A state of an empty pool. -/
def emptyState (block : ℕ) : PoolState := ⟨0, 1, 0, ∅, ∅, block⟩

/-- Three states; the last push finds the deque full and drops the first one. -/
def threeBlocks : StateCache :=
  ((((init (emptyState 10) 3).pushState (emptyState 12)).2.pushState (emptyState 15)).2.pushState
    (emptyState 17)).2

theorem threeBlocks_reached : Reached threeBlocks := by
  refine .push (emptyState 17) (.push (emptyState 15) (.push (emptyState 12)
    (.init (emptyState 10) 3) ?_) ?_) ?_ <;>
  · rintro newest h
    cases h
    decide

theorem threeBlocks_selects :
    Selects (threeBlocks.discardStatesBeforeBlock 15) threeBlocks 15
        (fun s => decide (15 ≤ s.block)) ∧
      Selects (threeBlocks.restoreStateBeforeBlock 15) threeBlocks 15
        (fun s => decide (s.block < 15)) :=
  ⟨(selects_iff threeBlocks_reached 15).1.mpr ⟨emptyState 17, rfl, by decide⟩,
    (selects_iff threeBlocks_reached 15).2.mpr ⟨emptyState 12, rfl, by decide⟩⟩

/-- A pool created at block 0 loses its only state to either call. The third cache is left by
a poll of a node that has fallen behind; its newest state is not discarded. -/
theorem not_selects :
    ¬Selects ((init (emptyState 0) 8).discardStatesBeforeBlock 5) (init (emptyState 0) 8) 5
        (fun s => decide (5 ≤ s.block)) ∧
      ¬Selects ((init (emptyState 0) 8).restoreStateBeforeBlock 0) (init (emptyState 0) 8) 0
        (fun s => decide (s.block < 0)) ∧
      ¬Selects (((init (emptyState 10) 8).pushState (emptyState 7)).2.discardStatesBeforeBlock 8)
        ((init (emptyState 10) 8).pushState (emptyState 7)).2 8 (fun s => decide (8 ≤ s.block)) := by
  refine ⟨not_selects_of_indexError (by decide), not_selects_of_indexError (by decide), ?_⟩
  rintro (hraised | ⟨_, hstates, _⟩)
  · exact absurd (congrArg Prod.fst hraised) (by decide)
  · exact absurd (congrArg (fun left => left.states.map PoolState.block) hstates) (by decide)

end Degenbot.StateCache
