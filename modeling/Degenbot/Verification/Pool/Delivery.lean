import Degenbot.Verification.Pool.History
import Degenbot.Library.SortedSearch

/-! # Event delivery and polling

The events of a pool reach its helper in chain order, while `auto_update` reads absolute
values at blocks whose events may not have been delivered yet. -/

namespace Degenbot

open Library

/-! ## The chain -/

/-- The values that `slot0` and `liquidity` report. -/
structure PoolValues where
  liquidity : ℤ
  sqrtPriceX96 : ℤ
  tick : ℤ
deriving DecidableEq

def PoolState.values (state : PoolState) : PoolValues :=
  ⟨state.liquidity, state.sqrtPriceX96, state.tick⟩

def ExternalUpdate.values (update : ExternalUpdate) : PoolValues :=
  ⟨update.liquidity, update.sqrtPriceX96, update.tick⟩

/-- A swap event carries the values after the swap, a mint or burn its range. -/
inductive ChainEvent where
  | swap (update : ExternalUpdate)
  | liquidity (update : LiquidityMappingUpdate)
deriving DecidableEq

namespace ChainEvent

def block : ChainEvent → ℕ
  | .swap update => update.blockNumber
  | .liquidity update => update.blockNumber

/-- The values of the contract after an event. -/
def apply (values : PoolValues) : ChainEvent → PoolValues
  | .swap update => update.values
  | .liquidity update =>
      if update.tickLower ≤ values.tick ∧ values.tick < update.tickUpper then
        { values with liquidity := values.liquidity + update.liquidity }
      else values

end ChainEvent

/-- The events of a pool in chain order, none of them in the genesis block. -/
structure Chain where
  start : PoolValues
  events : List ChainEvent
  ordered : events.Pairwise fun e e' => e.block ≤ e'.block
  positive : ∀ e ∈ events, 0 < e.block

namespace Chain

/-- The values after the first `n` events. -/
def after (chain : Chain) (n : ℕ) : PoolValues :=
  (chain.events.take n).foldl ChainEvent.apply chain.start

/-- The values at the end of a block. -/
def valuesAt (chain : Chain) (block : ℕ) : PoolValues :=
  (chain.events.filter (·.block ≤ block)).foldl ChainEvent.apply chain.start

/-- The number of events up to a block. -/
def count (chain : Chain) (block : ℕ) : ℕ := chain.events.countP (·.block ≤ block)

variable {chain : Chain}

theorem valuesAt_eq (block : ℕ) : chain.valuesAt block = chain.after (chain.count block) := by
  rw [valuesAt, after, count, filter_eq_take_countP chain.ordered]

theorem after_succ {n : ℕ} {e : ChainEvent} (h : chain.events[n]? = some e) :
    chain.after (n + 1) = e.apply (chain.after n) := by
  rw [after, after, List.take_add_one, h]
  simp

theorem lt_count_iff {n block : ℕ} {e : ChainEvent} (h : chain.events[n]? = some e) :
    n < chain.count block ↔ e.block ≤ block :=
  lt_countP_iff_of_sorted chain.ordered h block

theorem count_mono {a b : ℕ} (h : a ≤ b) : chain.count a ≤ chain.count b := by
  refine List.countP_mono_left fun e _ hle => ?_
  simp only [decide_eq_true_eq] at hle ⊢
  omega

theorem count_zero : chain.count 0 = 0 := by
  rw [count, List.countP_eq_zero]
  intro e he
  have := chain.positive e he
  simp only [decide_eq_true_eq]
  omega

theorem block_le {i j : ℕ} {e e' : ChainEvent} (hi : chain.events[i]? = some e)
    (hj : chain.events[j]? = some e') (hij : i ≤ j) : e.block ≤ e'.block := by
  have hlt : j < chain.count e'.block := (lt_count_iff hj).mpr le_rfl
  exact (lt_count_iff hi).mp (by omega)

end Chain

/-! ## Recording values -/

section Record

variable {pool : Pool} {version : Version}

/-- Afterwards the pool holds the values, under their block if they were new. -/
theorem Pool.recordValues_spec (pool : Pool) (update : ExternalUpdate) :
    (pool.recordValues update).2.state.values = update.values ∧
      (pool.recordValues update).2.initialStateBlock = pool.initialStateBlock ∧
      ((pool.recordValues update).2 = pool ∨
        (pool.state.values ≠ update.values ∧
          (pool.recordValues update).2.updateBlock = update.blockNumber)) := by
  unfold Pool.recordValues
  split_ifs with hsame
  · refine ⟨?_, rfl, .inl rfl⟩
    simp [PoolState.values, ExternalUpdate.values, hsame]
  · refine ⟨?_, rfl, .inr ⟨fun hvalues => hsame ?_, ?_⟩⟩
    · simp [PoolState.values, ExternalUpdate.values]
    · simp only [PoolState.values, ExternalUpdate.values, PoolValues.mk.injEq] at hvalues
      exact ⟨hvalues.1.symm, hvalues.2.1.symm, hvalues.2.2.symm⟩
    · simp [Pool.updateBlock]

/-- A swap event is rejected when a later block is known, in V3 also when it is not after
the initial block, and recorded otherwise. -/
theorem Version.externalUpdate_cases (version : Version) (pool : Pool)
    (update : ExternalUpdate) :
    ((update.blockNumber < pool.updateBlock ∨
          version = .v3 ∧ update.blockNumber ≤ pool.initialStateBlock) ∧
        (∃ e, (version.externalUpdate pool update).1 = .error e) ∧
        (version.externalUpdate pool update).2 = pool) ∨
      (pool.updateBlock ≤ update.blockNumber ∧
        (version = .v3 → pool.initialStateBlock < update.blockNumber) ∧
        (∃ b, (version.externalUpdate pool update).1 = .ok b) ∧
        (version.externalUpdate pool update).2 = (pool.recordValues update).2) := by
  cases version with
  | v3 =>
      simp only [Version.externalUpdate, V3.externalUpdate]
      split_ifs with hlate
      · exact .inl ⟨by tauto, ⟨_, rfl⟩, rfl⟩
      · exact .inr ⟨by omega, fun _ => by omega, ⟨_, rfl⟩, rfl⟩
  | v4 =>
      unfold Version.externalUpdate V4.externalUpdate
      dsimp only
      split_ifs with hlate
      · exact .inl ⟨.inl hlate, ⟨_, rfl⟩, rfl⟩
      · exact .inr ⟨by omega, fun hversion => absurd hversion (by decide), ⟨_, rfl⟩, rfl⟩

/-- An accepted liquidity update changes the active liquidity as the contract does if it
is after the initial block, and leaves it alone otherwise. -/
theorem Version.updateLiquidityMap_values {provider : Provider} {update : LiquidityMappingUpdate}
    (hok : (version.updateLiquidityMap provider pool update).1 = .ok ()) :
    let pool' := (version.updateLiquidityMap provider pool update).2
    (pool'.state.values = if pool.initialStateBlock < update.blockNumber then
        ChainEvent.apply pool.state.values (.liquidity update) else pool.state.values) ∧
      pool'.initialStateBlock = pool.initialStateBlock ∧
      (pool'.updateBlock = max pool.updateBlock update.blockNumber ∨
        (pool' = pool ∧ update.liquidity = 0)) := by
  have hmethod : version.updateLiquidityMap provider = V3.updateLiquidityMap provider ∨
      version.updateLiquidityMap provider = V4.updateLiquidityMap provider := by
    cases version
    · exact .inl rfl
    · exact .inr rfl
  rcases Pool.method_cases hmethod pool update with hrecord | ⟨hzero, hskip⟩
  · rw [hrecord] at hok ⊢
    have hpair : pool.recordLiquidity provider update =
        (.ok (), (pool.recordLiquidity provider update).2) := by rw [← hok]
    obtain ⟨_, _, _, _, hpool⟩ := Pool.recordLiquidity_eq_ok hpair
    rw [hpool]
    refine ⟨?_, rfl, .inl (by simp [Pool.updateBlock])⟩
    by_cases hin : pool.adjustsLiquidity update
    · have hadjust := hin
      simp only [Pool.adjustsLiquidity, decide_eq_true_eq] at hadjust
      simp [PoolState.values, ChainEvent.apply, hin, hadjust]
    · have hkeep := hin
      simp only [Pool.adjustsLiquidity, decide_eq_true_eq] at hkeep
      split_ifs with hafter
      · have hout : ¬(update.tickLower ≤ pool.state.tick ∧
            pool.state.tick < update.tickUpper) := fun h => hkeep ⟨h.1, h.2, hafter⟩
        simp [PoolState.values, ChainEvent.apply, hout]
      · simp [PoolState.values]
  · rw [hskip]
    refine ⟨?_, rfl, .inr ⟨rfl, hzero⟩⟩
    simp [ChainEvent.apply, PoolState.values, hzero]

end Record

/-! ## Runs -/

/-- A provider that reports the values of the chain at every block. -/
def Provider.ReadsChain (provider : Provider) (chain : Chain) : Prop :=
  ∀ block, provider.slot0 block =
      .ok ((chain.valuesAt block).sqrtPriceX96, (chain.valuesAt block).tick) ∧
    provider.liquidity block = .ok (chain.valuesAt block).liquidity

theorem Pool.poll_values {provider : Provider} {pool : Pool} {chain : Chain}
    {blockNumber : Option ℕ} {polled : ExternalUpdate} (hreads : provider.ReadsChain chain)
    (hpoll : pool.poll provider blockNumber = .ok polled) :
    polled.values = chain.valuesAt polled.blockNumber := by
  simp only [Pool.poll, ite_error_eq_ok, bind_eq_ok, Except.ok.injEq] at hpoll
  obtain ⟨-, block, -, ⟨sqrtPriceX96, tick⟩, hslot0, liquidity, hliquidity, rfl⟩ := hpoll
  rw [(hreads block).1] at hslot0
  rw [(hreads block).2] at hliquidity
  cases hslot0
  cases hliquidity
  rfl

/-- A helper in the course of a run. `polled` is the block whose values were read last, by
the constructor or by a recorded poll, zero if a swap has been recorded since. -/
structure Delivery where
  pool : Pool
  delivered : ℕ
  polled : ℕ

/-- The next event is delivered, or the pool polls the chain. A mint or burn counts as
delivered when its update was accepted; a swap that is rejected as late is delivered too. -/
inductive DeliveryStep (version : Version) (chain : Chain) : Delivery → Delivery → Prop where
  | swap {s : Delivery} {update : ExternalUpdate}
      (next : chain.events[s.delivered]? = some (.swap update)) :
      DeliveryStep version chain s
        ⟨(version.externalUpdate s.pool update).2, s.delivered + 1,
          if (version.externalUpdate s.pool update).1.isOk then 0 else s.polled⟩
  | liquidity {s : Delivery} {provider : Provider} {update : LiquidityMappingUpdate}
      (next : chain.events[s.delivered]? = some (.liquidity update))
      (accepted : (version.updateLiquidityMap provider s.pool update).1 = .ok ()) :
      DeliveryStep version chain s
        ⟨(version.updateLiquidityMap provider s.pool update).2, s.delivered + 1, s.polled⟩
  | poll {s : Delivery} {provider : Provider} {blockNumber : Option ℕ}
      (reads : provider.ReadsChain chain)
      (head : PoolUpdate.HeadInOrder s.pool (.poll provider blockNumber)) :
      DeliveryStep version chain s
        ⟨(autoUpdate provider s.pool blockNumber).2, s.delivered,
          if (autoUpdate provider s.pool blockNumber).2 = s.pool then s.polled
          else (autoUpdate provider s.pool blockNumber).2.updateBlock⟩

/-- A step that delivers no mint or burn into the active range for which the helper is
wrong about whether the values it has read include it: it assumes that for the events up
to the initial block, and for no others. -/
structure FreshStep (version : Version) (chain : Chain) (s s' : Delivery) : Prop where
  step : DeliveryStep version chain s s'
  fresh : s'.delivered = s.delivered + 1 → ∀ update,
    chain.events[s.delivered]? = some (.liquidity update) →
    update.tickLower ≤ s.pool.state.tick ∧ s.pool.state.tick < update.tickUpper →
    (update.blockNumber ≤ s.pool.initialStateBlock ↔ update.blockNumber ≤ s.polled)

/-- The cached values are those after the events that were delivered or polled. -/
structure Delivery.Inv (version : Version) (chain : Chain) (s : Delivery) : Prop where
  values : s.pool.state.values = chain.after (max s.delivered (chain.count s.polled))
  unseen : ∀ i e, max s.delivered (chain.count s.polled) ≤ i → chain.events[i]? = some e →
    s.pool.updateBlock ≤ e.block ∧ (version = .v3 → s.pool.initialStateBlock < e.block)
  polled_le : s.polled ≤ s.pool.updateBlock
  initial_le : s.pool.initialStateBlock ≤ s.pool.updateBlock
  -- events delivered after the newest recorded block have changed nothing
  quiet : ∀ j, chain.count s.pool.updateBlock ≤ j → j ≤ s.delivered →
    chain.after j = s.pool.state.values

section Run

variable {version : Version} {chain : Chain} {s s' : Delivery}

/-- An event that was delivered without a new recording extends the quiet stretch. -/
theorem Delivery.Inv.quiet_succ (hinv : s.Inv version chain)
    (hvalues : chain.after (s.delivered + 1) = s.pool.state.values) :
    ∀ j, chain.count s.pool.updateBlock ≤ j → j ≤ s.delivered + 1 →
      chain.after j = s.pool.state.values := by
  intro j hlow hhigh
  rcases Nat.lt_or_ge s.delivered j with hlast | hle
  · have hj : j = s.delivered + 1 := by omega
    rw [hj, hvalues]
  · exact hinv.quiet j hlow hle

/-- Right after an event of the newest block, only that event can be quiet. -/
theorem Chain.quiet_of_block {n block : ℕ} {e : ChainEvent} (hnext : chain.events[n]? = some e)
    (hle : e.block ≤ block) {values : PoolValues} (hvalues : chain.after (n + 1) = values) :
    ∀ j, chain.count block ≤ j → j ≤ n + 1 → chain.after j = values := by
  intro j hlow hhigh
  have hlt : n < chain.count block := (Chain.lt_count_iff hnext).mpr hle
  rw [show j = n + 1 by omega, hvalues]

theorem DeliveryStep.swap_inv {update : ExternalUpdate} (hinv : s.Inv version chain)
    (hnext : chain.events[s.delivered]? = some (.swap update)) :
    Delivery.Inv version chain ⟨(version.externalUpdate s.pool update).2, s.delivered + 1,
      if (version.externalUpdate s.pool update).1.isOk then 0 else s.polled⟩ := by
  rcases version.externalUpdate_cases s.pool update with
    ⟨hlate, ⟨e, herror⟩, hpool⟩ | ⟨hle, hinitial, ⟨b, hok⟩, hpool⟩
  · -- a rejected swap lies before the polled block
    have hcovered : s.delivered < chain.count s.polled := by
      by_contra hge
      have hmax : max s.delivered (chain.count s.polled) ≤ s.delivered := by omega
      obtain ⟨hblock, hinit⟩ := hinv.unseen _ _ hmax hnext
      simp only [ChainEvent.block] at hblock hinit
      rcases hlate with hlate | ⟨hv3, hlate⟩
      · omega
      · have := hinit hv3
        omega
    have hmax : max (s.delivered + 1) (chain.count s.polled) =
        max s.delivered (chain.count s.polled) := by omega
    rw [hpool, herror]
    refine ⟨?_, ?_, hinv.polled_le, hinv.initial_le, ?_⟩
    · simpa [Except.isOk, Except.toBool, hmax] using hinv.values
    · simpa [Except.isOk, Except.toBool, hmax] using hinv.unseen
    · intro j hlow hhigh
      have hmono : chain.count s.polled ≤ chain.count s.pool.updateBlock :=
        Chain.count_mono hinv.polled_le
      simp only at hlow hhigh
      rw [hinv.values, show j = max s.delivered (chain.count s.polled) by omega]
  · obtain ⟨hvalues, hinit, hrecord⟩ := s.pool.recordValues_spec update
    have hafter : chain.after (s.delivered + 1) = update.values := Chain.after_succ hnext
    have hblock : (s.pool.recordValues update).2.updateBlock ≤ update.blockNumber ∧
        s.pool.updateBlock ≤ (s.pool.recordValues update).2.updateBlock := by
      rcases hrecord with hsame | ⟨-, hnew⟩
      · rw [hsame]
        exact ⟨hle, le_rfl⟩
      · rw [hnew]
        exact ⟨le_rfl, hle⟩
    rw [hpool, hok]
    simp only [Except.isOk, Except.toBool, if_true]
    refine ⟨?_, ?_, by simp, hinit.trans_le (hinv.initial_le.trans hblock.2), ?_⟩
    · simpa [Chain.count_zero, hafter] using hvalues
    · intro i e hi he
      simp only at hi
      have hlater : update.blockNumber ≤ e.block := Chain.block_le hnext he (by omega)
      refine ⟨hblock.1.trans hlater, fun hv3 => ?_⟩
      simp only [hinit]
      exact (hinitial hv3).trans_le hlater
    · rcases hrecord with hsame | ⟨-, hnew⟩
      · rw [hsame] at hvalues ⊢
        exact hinv.quiet_succ (hafter.trans hvalues.symm)
      · simp only [hnew]
        exact Chain.quiet_of_block hnext le_rfl (hafter.trans hvalues.symm)

theorem DeliveryStep.liquidity_inv {provider : Provider} {update : LiquidityMappingUpdate}
    (hinv : s.Inv version chain) (hnext : chain.events[s.delivered]? = some (.liquidity update))
    (hok : (version.updateLiquidityMap provider s.pool update).1 = .ok ())
    (hfresh : update.tickLower ≤ s.pool.state.tick ∧ s.pool.state.tick < update.tickUpper →
      (update.blockNumber ≤ s.pool.initialStateBlock ↔ update.blockNumber ≤ s.polled)) :
    Delivery.Inv version chain
      ⟨(version.updateLiquidityMap provider s.pool update).2, s.delivered + 1, s.polled⟩ := by
  obtain ⟨hvalues, hinit, hblock⟩ := Version.updateLiquidityMap_values hok
  have hmono : chain.count s.polled ≤ chain.count s.pool.updateBlock :=
    Chain.count_mono hinv.polled_le
  have hcovered : s.delivered < chain.count s.polled ↔
      ChainEvent.block (.liquidity update) ≤ s.polled := Chain.lt_count_iff hnext
  simp only [ChainEvent.block] at hcovered
  have hafter : chain.after (s.delivered + 1) = _ := Chain.after_succ hnext
  -- outside the active range it does not matter whether the update is applied
  have happlied : (if s.pool.initialStateBlock < update.blockNumber then
      ChainEvent.apply s.pool.state.values (.liquidity update) else s.pool.state.values) =
      if s.polled < update.blockNumber then
        ChainEvent.apply s.pool.state.values (.liquidity update) else s.pool.state.values := by
    by_cases hin : update.tickLower ≤ s.pool.state.tick ∧ s.pool.state.tick < update.tickUpper
    · have hiff := hfresh hin
      rw [← not_lt, ← not_lt, not_iff_not] at hiff
      simp only [hiff]
    · have hout : ChainEvent.apply s.pool.state.values (.liquidity update) =
          s.pool.state.values := if_neg hin
      simp only [hout, ite_self]
  rw [happlied] at hvalues
  -- the values follow the chain, whether or not the event was polled before
  have hchain : (version.updateLiquidityMap provider s.pool update).2.state.values =
      chain.after (max (s.delivered + 1) (chain.count s.polled)) := by
    rw [hvalues]
    split_ifs with hpolled
    · have hge : chain.count s.polled ≤ s.delivered := by
        by_contra hlt
        have := hcovered.mp (by omega)
        omega
      rw [hinv.values, Nat.max_eq_left hge, Nat.max_eq_left (by omega), hafter]
    · have hlt := hcovered.mpr (by omega)
      rw [show max (s.delivered + 1) (chain.count s.polled) =
        max s.delivered (chain.count s.polled) by omega, ← hinv.values]
  have hblock_le : s.pool.updateBlock ≤
      (version.updateLiquidityMap provider s.pool update).2.updateBlock := by
    rcases hblock with hmax | ⟨hsame, -⟩
    · rw [hmax]
      exact le_max_left _ _
    · rw [hsame]
  refine ⟨hchain, fun i e hi he => ?_, hinv.polled_le.trans hblock_le,
    hinit.trans_le (hinv.initial_le.trans hblock_le), ?_⟩
  · simp only at hi
    obtain ⟨hold, hv3⟩ := hinv.unseen i e (by omega) he
    have hlater : update.blockNumber ≤ e.block := Chain.block_le hnext he (by omega)
    refine ⟨?_, fun h => hinit.trans_lt (hv3 h)⟩
    rcases hblock with hmax | ⟨hsame, -⟩
    · simp only [hmax]
      omega
    · simpa only [hsame] using hold
  · rcases hblock with hmax | ⟨hsame, hzero⟩
    · simp only [hmax]
      by_cases hpolled : update.blockNumber ≤ s.polled
      · intro j hlow hhigh
        have hlt := hcovered.mpr hpolled
        have hmono' : chain.count s.pool.updateBlock ≤
            chain.count (max s.pool.updateBlock update.blockNumber) :=
          Chain.count_mono (le_max_left s.pool.updateBlock update.blockNumber)
        rw [hchain, show j = max (s.delivered + 1) (chain.count s.polled) by omega]
      · refine Chain.quiet_of_block hnext (le_max_right _ _) ?_
        have hge : chain.count s.polled ≤ s.delivered := by
          by_contra hlt
          exact hpolled (hcovered.mp (by omega))
        rw [hchain, Nat.max_eq_left (by omega)]
    · -- an update without liquidity changes nothing
      rw [hsame] at hchain ⊢
      intro j hlow hhigh
      simp only at hlow hhigh
      rcases Nat.lt_or_ge s.delivered j with hlast | hle
      · have hmax : max (s.delivered + 1) (chain.count s.polled) = j := by omega
        rw [hchain, hmax]
      · exact hinv.quiet j hlow hle

theorem DeliveryStep.poll_inv {provider : Provider} {blockNumber : Option ℕ}
    (hinv : s.Inv version chain) (hreads : provider.ReadsChain chain)
    (hhead : PoolUpdate.HeadInOrder s.pool (.poll provider blockNumber)) :
    Delivery.Inv version chain ⟨(autoUpdate provider s.pool blockNumber).2, s.delivered,
      if (autoUpdate provider s.pool blockNumber).2 = s.pool then s.polled
      else (autoUpdate provider s.pool blockNumber).2.updateBlock⟩ := by
  have hsame : (autoUpdate provider s.pool blockNumber).2 = s.pool →
      Delivery.Inv version chain ⟨(autoUpdate provider s.pool blockNumber).2, s.delivered,
        if (autoUpdate provider s.pool blockNumber).2 = s.pool then s.polled
        else (autoUpdate provider s.pool blockNumber).2.updateBlock⟩ := by
    intro hpool
    rw [if_pos hpool, hpool]
    exact hinv
  cases hpoll : s.pool.poll provider blockNumber with
  | error e => exact hsame (by simp [autoUpdate, hpoll])
  | ok polled =>
      have hauto : (autoUpdate provider s.pool blockNumber).2 =
          (s.pool.recordValues polled).2 := by simp [autoUpdate, hpoll]
      obtain ⟨hvalues, hinit, hunchanged | ⟨hnew, hblock⟩⟩ := s.pool.recordValues_spec polled
      · exact hsame (hauto.trans hunchanged)
      · have hblock_le : s.pool.updateBlock ≤ polled.blockNumber :=
          Pool.poll_updateBlock_le hpoll hhead
        have hread : polled.values = chain.after (chain.count polled.blockNumber) :=
          (Pool.poll_values hreads hpoll).trans (Chain.valuesAt_eq _)
        have hmono : chain.count s.pool.updateBlock ≤ chain.count polled.blockNumber :=
          Chain.count_mono hblock_le
        -- a recording that is new cannot lie within the quiet stretch
        have hahead : s.delivered ≤ chain.count polled.blockNumber := by
          by_contra hbehind
          exact hnew (hread.trans (hinv.quiet _ hmono (by omega))).symm
        have hchanged : (autoUpdate provider s.pool blockNumber).2 ≠ s.pool := by
          intro hpool
          rw [← hauto, hpool] at hvalues
          exact hnew hvalues
        rw [if_neg hchanged, hauto, hblock]
        have hinitial := hinv.initial_le.trans hblock_le
        refine ⟨?_, ?_, hblock.ge, by simpa only [hinit, hblock] using hinitial, ?_⟩
        · rw [hvalues, hread, Nat.max_eq_right hahead]
        · intro i e hi he
          simp only [hblock, hinit] at hi ⊢
          have hlater : ¬e.block ≤ polled.blockNumber := fun hle => by
            have := (Chain.lt_count_iff he).mpr hle
            omega
          exact ⟨by omega, fun _ => by omega⟩
        · intro j hlow hhigh
          simp only [hblock] at hlow hhigh
          rw [hvalues, hread, show j = chain.count polled.blockNumber by omega]

/-- A helper at its creation, when it has read the values of the initial block. Events of
earlier blocks may still be delivered to it. -/
structure Delivery.Starts (chain : Chain) (s : Delivery) : Prop where
  block : s.pool.updateBlock = s.pool.initialStateBlock
  values : s.pool.state.values = chain.valuesAt s.pool.initialStateBlock
  delivered : s.delivered ≤ chain.count s.pool.initialStateBlock
  polled : s.polled = s.pool.initialStateBlock

theorem Delivery.Starts.inv (hstart : s.Starts chain) : s.Inv version chain := by
  obtain ⟨hblock, hvalues, hdelivered, hpolled⟩ := hstart
  rw [Chain.valuesAt_eq] at hvalues
  refine ⟨?_, ?_, by omega, hblock.ge, ?_⟩
  · rw [hvalues, hpolled, Nat.max_eq_right hdelivered]
  · intro i e hi he
    rw [hpolled] at hi
    have hlater : ¬e.block ≤ s.pool.initialStateBlock := fun hle => by
      have := (Chain.lt_count_iff he).mpr hle
      omega
    exact ⟨by omega, fun _ => by omega⟩
  · intro j hlow hhigh
    rw [hblock] at hlow
    rw [hvalues, show j = chain.count s.pool.initialStateBlock by omega]

theorem FreshStep.inv (hstep : FreshStep version chain s s') (hinv : s.Inv version chain) :
    s'.Inv version chain := by
  obtain ⟨hstep, hfresh⟩ := hstep
  cases hstep with
  | swap next => exact DeliveryStep.swap_inv hinv next
  | liquidity next accepted =>
      exact DeliveryStep.liquidity_inv hinv next accepted (hfresh rfl _ next)
  | poll reads head => exact DeliveryStep.poll_inv hinv reads head

theorem Delivery.run_inv (hinv : s.Inv version chain)
    (hrun : Relation.ReflTransGen (FreshStep version chain) s s') : s'.Inv version chain := by
  induction hrun with
  | refl => exact hinv
  | tail _ hstep ih => exact hstep.inv ih

/-- Once every event up to a block has been delivered, and no later block is known, the
cached active liquidity is the one of the chain, provided that no step has delivered a
mint or burn that was read before. -/
theorem liquidity_eq_chain (hstart : s.Starts chain)
    (hrun : Relation.ReflTransGen (FreshStep version chain) s s')
    {block : ℕ} (hseen : s'.pool.updateBlock ≤ block)
    (hdelivered : s'.delivered = chain.count block) :
    s'.pool.state.liquidity = (chain.valuesAt block).liquidity := by
  have hinv := Delivery.run_inv hstart.inv hrun
  have hpolled : chain.count s'.polled ≤ chain.count block :=
    Chain.count_mono (hinv.polled_le.trans hseen)
  have hvalues : s'.pool.state.values = chain.valuesAt block := by
    rw [hinv.values, hdelivered, Nat.max_eq_left hpolled, Chain.valuesAt_eq]
  exact congrArg PoolValues.liquidity hvalues

end Run

/-- A provider that serves the chain up to a head, and no liquidity map. -/
def Chain.provider (chain : Chain) (head : ℕ) : Provider :=
  { Pool.silentProvider with
    getBlockNumber := .ok head
    slot0 := fun block => .ok ((chain.valuesAt block).sqrtPriceX96, (chain.valuesAt block).tick)
    liquidity := fun block => .ok (chain.valuesAt block).liquidity }

/-- A mint in block 101 and a swap in block 103. -/
def sampleChain : Chain where
  start := ⟨0, 2 ^ 96, 0⟩
  events := [.liquidity ⟨101, 5, -10, 10⟩, .swap ⟨103, 5, 2 ^ 96 + 1, 0⟩]
  ordered := by decide
  positive := by decide

/-- The mint is delivered, the head polled, then the swap is delivered. -/
theorem liquidity_eq_chain_sample : ∃ s' : Delivery, s'.delivered = 2 ∧
    s'.pool.updateBlock = 103 ∧
    s'.pool.state.liquidity = (sampleChain.valuesAt 103).liquidity := by
  have hstart : Delivery.Starts sampleChain ⟨Pool.emptyPool, 0, 100⟩ :=
    ⟨rfl, by decide, by decide, rfl⟩
  have hmint := @DeliveryStep.liquidity .v3 sampleChain ⟨Pool.emptyPool, 0, 100⟩
    Pool.silentProvider _ rfl (by decide)
  have hfirst : Relation.ReflTransGen (FreshStep .v3 sampleChain) _ _ := .single
    ⟨hmint, fun _ update h _ => by cases h; decide⟩
  have hsecond := hfirst.tail ⟨@DeliveryStep.poll _ _ _ (sampleChain.provider 103) (some 103)
    (fun _ => ⟨rfl, rfl⟩) trivial, fun h => by cases h⟩
  have hrun := hsecond.tail ⟨.swap rfl, fun _ _ h => by cases h⟩
  exact ⟨_, rfl, by decide,
    @liquidity_eq_chain _ _ _ _ hstart hrun 103 (by decide) (by decide)⟩

/-- The mint of block 101 is read by a poll of that block and then delivered. -/
theorem liquidity_polled_twice :
    Delivery.Starts sampleChain ⟨Pool.emptyPool, 0, 100⟩ ∧ ∃ s',
    Relation.ReflTransGen (DeliveryStep .v3 sampleChain) ⟨Pool.emptyPool, 0, 100⟩ s' ∧
      s'.pool.updateBlock = 101 ∧ s'.delivered = sampleChain.count 101 ∧
      s'.pool.state.liquidity = 10 ∧ (sampleChain.valuesAt 101).liquidity = 5 := by
  have hpoll := @DeliveryStep.poll .v3 sampleChain ⟨Pool.emptyPool, 0, 100⟩
    (sampleChain.provider 101) none (fun _ => ⟨rfl, rfl⟩)
    (fun head hhead => by cases hhead; decide)
  refine ⟨⟨rfl, by decide, by decide, rfl⟩, _, .tail (.single hpoll)
    (@DeliveryStep.liquidity _ _ _ Pool.silentProvider _ rfl (by decide)),
    ?_, ?_, ?_, ?_⟩
  all_goals decide

end Degenbot
