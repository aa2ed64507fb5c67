import Degenbot.Algorithm.TickRanges
import Degenbot.Library.Batch
import Degenbot.Library.Lists
import Degenbot.Library.Runs
import Degenbot.Verification.Pool.History
import Degenbot.Verification.Simulator.Loop

/-! # What the tick ranges say about a pool

The walk goes against the direction of the swap, so every range it finds is upside down; a query
describes its pool only where it returns nothing. -/

namespace Degenbot

open Library

/-! ## The walk -/

/-- `tick` can be collected by a walk from `currentTick`. -/
def Collectable (tickData : LiquidityMap) (tickSpacing currentTick : ℤ) (lessThanOrEqual : Bool)
    (tick : ℤ) : Prop :=
  (if lessThanOrEqual then -maxTick ≤ tick ∧ tick ≤ currentTick
    else currentTick < tick ∧ tick ≤ maxTick) ∧
  (tick ∈ tickData ∨ lessThanOrEqual ∧ tick = currentTick ∧ tickSpacing * 256 ∣ tick)

section Walk

variable {tickData : LiquidityMap} {tickSpacing currentTick maxRanges : ℤ} {lte : Bool}

theorem Collectable.ahead {t : ℤ} (h : Collectable tickData tickSpacing currentTick lte t) :
    Ahead lte currentTick t := by
  cases lte with
  | true => simpa [Ahead] using h.1.2
  | false => simpa [Ahead] using h.1.1

/-- A walk that has reached `tick` started at the current tick. -/
def Passed (lte : Bool) (currentTick tick : ℤ) : Prop :=
  if lte then tick ≤ currentTick else currentTick ≤ tick

theorem Passed.ahead {tick t : ℤ} (h : Passed lte currentTick tick) (ht : Ahead lte tick t) :
    Ahead lte currentTick t := by
  cases lte <;> simp only [Passed, Ahead, if_true, Bool.false_eq_true, if_false] at * <;> omega

/-- The stop is within the ticks of the price. -/
def Clamped (lte : Bool) (next : ℤ) : Prop :=
  (if lte then max (-maxTick) next else min maxTick next) ≠ next

instance (next : ℤ) : Decidable (Clamped lte next) :=
  inferInstanceAs (Decidable ((if lte then max (-maxTick) next else min maxTick next) ≠ next))

theorem collectTicks_succ (fuel : ℕ) (g : TickGen) (before : List ℤ) :
    collectTicks currentTick maxRanges (fuel + 1) g before =
      if Clamped g.lessThanOrEqual g.next.1.1 then before
      else if before.length ≥ maxRanges + 1 then before
      else collectTicks currentTick maxRanges fuel g.next.2
        (if g.next.1.2 = true ∨ g.next.1.1 = currentTick then before ++ [g.next.1.1]
          else before) := by
  rw [collectTicks]
  rfl

theorem clamped_iff {next : ℤ} :
    Clamped lte next ↔ if lte then next < -maxTick else maxTick < next := by
  cases lte <;> simp [Clamped]

theorem stepsToEdge_advance {tick next : ℤ} (hahead : Ahead lte tick next)
    (hedge : ¬Clamped lte next) : stepsToEdge lte (advance lte next) < stepsToEdge lte tick := by
  rw [clamped_iff] at hedge
  cases lte <;> simp only [stepsToEdge, advance, Ahead, if_true, Bool.false_eq_true, if_false]
    at * <;> omega

/-- A collectable tick ahead of the walk is its next stop, or behind the next stop. -/
theorem Collectable.eq_or_before {tick next t : ℤ} (hs : 0 < tickSpacing)
    (hpassed : Passed lte currentTick tick)
    (hnext : IsNextStop tickData tickSpacing lte tick next)
    (ht : Collectable tickData tickSpacing currentTick lte t) (hahead : Ahead lte tick t) :
    t = next ∨ Before lte next t := by
  by_cases heq : t = next
  · exact .inl heq
  · refine .inr ((isNextStop_iff.mp hnext).2.2 t ?_ hahead heq)
    rcases ht.2 with hdata | ⟨hlte, hcurrent, hword⟩
    · exact .inl hdata
    · -- the current tick ends its word
      subst hlte hcurrent
      refine .inr ?_
      have htick : tick = t := by
        simp only [Passed, Ahead, if_true] at hpassed hahead
        omega
      obtain ⟨q, hq⟩ := hword
      rw [htick]
      exact (boundaryTick_down_eq hs hq le_rfl (by omega)).symm

/-- What a walk from `tick` adds to the ticks collected before. -/
structure Collects (tickData : LiquidityMap) (tickSpacing currentTick maxRanges : ℤ) (lte : Bool)
    (tick : ℤ) (result new : List ℤ) : Prop where
  ordered : new.Pairwise (Before lte)
  collectable : ∀ t ∈ new, Collectable tickData tickSpacing currentTick lte t ∧ Ahead lte tick t
  complete : (∀ t, Collectable tickData tickSpacing currentTick lte t → Ahead lte tick t →
    t ∈ new) ∨ maxRanges + 1 ≤ result.length

variable {tick next : ℤ} {before result new : List ℤ}

/-- Behind a stop past the edge nothing is collectable. -/
theorem Collects.of_edge (hs : 0 < tickSpacing) (hpassed : Passed lte currentTick tick)
    (hnext : IsNextStop tickData tickSpacing lte tick next) (hedge : Clamped lte next) :
    Collects tickData tickSpacing currentTick maxRanges lte tick before [] := by
  refine ⟨.nil, by simp, .inl fun t ht hahead => ?_⟩
  exfalso
  have hbehind := ht.eq_or_before hs hpassed hnext hahead
  have hrange := ht.1
  rw [clamped_iff] at hedge
  cases lte <;> simp only [Before, if_true, Bool.false_eq_true, if_false] at * <;> omega

/-- A stop that is collected is collectable. -/
theorem collectable_of_stop (hs : 0 < tickSpacing) (hpassed : Passed lte currentTick tick)
    (hnext : IsNextStop tickData tickSpacing lte tick next) (hedge : ¬Clamped lte next)
    (hcollect : next ∈ tickData ∨ next = currentTick) :
    Collectable tickData tickSpacing currentTick lte next := by
  obtain ⟨hstop, hahead, -⟩ := isNextStop_iff.mp hnext
  have hcurrent := hpassed.ahead hahead
  rw [clamped_iff] at hedge
  refine ⟨?_, ?_⟩
  · cases lte <;> simp only [Ahead, if_true, Bool.false_eq_true, if_false] at * <;> omega
  · rcases hcollect with hdata | heq
    · exact .inl hdata
    · cases lte with
      | false =>
          simp only [Ahead, Bool.false_eq_true, if_false] at hcurrent
          omega
      | true =>
          rcases hstop with hdata | hboundary
          · exact .inl hdata
          · obtain ⟨q, hq, -, -⟩ := boundaryTick_down_spec hs tick
            exact .inr ⟨rfl, heq, q, hboundary.trans hq⟩

/-- A stop is collected, and the walk goes on behind it. -/
theorem Collects.cons (hs : 0 < tickSpacing) (hpassed : Passed lte currentTick tick)
    (hnext : IsNextStop tickData tickSpacing lte tick next)
    (hcollectable : Collectable tickData tickSpacing currentTick lte next)
    (h : Collects tickData tickSpacing currentTick maxRanges lte (advance lte next) result new) :
    Collects tickData tickSpacing currentTick maxRanges lte tick result (next :: new) := by
  have hahead := (isNextStop_iff.mp hnext).2.1
  refine ⟨List.pairwise_cons.mpr ⟨fun t ht => ahead_advance.mp (h.collectable t ht).2, h.ordered⟩,
    ?_, h.complete.imp_left fun hall t ht htick => ?_⟩
  · intro t ht
    rcases List.mem_cons.mp ht with rfl | ht
    · exact ⟨hcollectable, hahead⟩
    · obtain ⟨hcollect, hbehind⟩ := h.collectable t ht
      exact ⟨hcollect, hahead.trans_before (ahead_advance.mp hbehind)⟩
  · rcases ht.eq_or_before hs hpassed hnext htick with rfl | hbefore
    · exact List.mem_cons_self
    · exact List.mem_cons_of_mem next (hall t ht (ahead_advance.mpr hbefore))

/-- A stop is passed over. -/
theorem Collects.skip (hs : 0 < tickSpacing) (hpassed : Passed lte currentTick tick)
    (hnext : IsNextStop tickData tickSpacing lte tick next)
    (hskip : ¬Collectable tickData tickSpacing currentTick lte next)
    (h : Collects tickData tickSpacing currentTick maxRanges lte (advance lte next) result new) :
    Collects tickData tickSpacing currentTick maxRanges lte tick result new := by
  have hahead := (isNextStop_iff.mp hnext).2.1
  refine ⟨h.ordered, ?_, h.complete.imp_left fun hall t ht htick => ?_⟩
  · intro t ht
    obtain ⟨hcollect, hbehind⟩ := h.collectable t ht
    exact ⟨hcollect, hahead.trans_before (ahead_advance.mp hbehind)⟩
  · rcases ht.eq_or_before hs hpassed hnext htick with rfl | hbefore
    · exact absurd ht hskip
    · exact hall t ht (ahead_advance.mpr hbefore)

theorem Passed.advance (h : Passed lte currentTick tick) (hahead : Ahead lte tick next) :
    Passed lte currentTick (advance lte next) := by
  cases lte <;> simp only [Passed, Ahead, Degenbot.advance, if_true, Bool.false_eq_true, if_false]
    at * <;> omega

theorem collectTicks_collects (hs : 0 < tickSpacing) (fuel : ℕ) :
    ∀ (g : TickGen) (tick : ℤ) (before : List ℤ), g.At tickData tickSpacing lte tick →
      Passed lte currentTick tick → stepsToEdge lte tick ≤ fuel →
      ∃ new, collectTicks currentTick maxRanges fuel g before = before ++ new ∧
        Collects tickData tickSpacing currentTick maxRanges lte tick (before ++ new) new := by
  induction fuel with
  | zero =>
      intro g tick before _ _ hfuel
      simp [stepsToEdge] at hfuel
  | succ fuel ih =>
      intro g tick before hg hpassed hfuel
      obtain ⟨hnext, hinit, hg'⟩ := hg.next hs
      have hahead := (isNextStop_iff.mp hnext).2.1
      rw [collectTicks_succ, hg.direction]
      by_cases hedge : Clamped lte g.next.1.1
      · rw [if_pos hedge]
        exact ⟨[], by simp, .of_edge hs hpassed hnext hedge⟩
      · rw [if_neg hedge]
        by_cases hfull : (before.length : ℤ) ≥ maxRanges + 1
        · rw [if_pos hfull]
          exact ⟨[], by simp, .nil, by simp, .inr (by simpa using hfull)⟩
        · rw [if_neg hfull]
          have hfuel' : stepsToEdge lte (advance lte g.next.1.1) ≤ fuel :=
            Nat.le_of_lt_succ ((stepsToEdge_advance hahead hedge).trans_le hfuel)
          by_cases hcollect : g.next.1.2 = true ∨ g.next.1.1 = currentTick
          · obtain ⟨new, heq, hnew⟩ := ih g.next.2 _ (before ++ [g.next.1.1]) hg'
              (hpassed.advance hahead) hfuel'
            rw [List.append_assoc, List.singleton_append] at heq hnew
            rw [if_pos hcollect]
            exact ⟨_, heq, hnew.cons hs hpassed hnext
              (collectable_of_stop hs hpassed hnext hedge (hcollect.imp_left hinit.mp))⟩
          · obtain ⟨new, heq, hnew⟩ := ih g.next.2 _ before hg' (hpassed.advance hahead) hfuel'
            rw [if_neg hcollect]
            refine ⟨new, heq, hnew.skip hs hpassed hnext fun hc => hcollect ?_⟩
            exact hc.2.imp hinit.mpr fun h => h.2.1

theorem length_collectTicks_le (fuel : ℕ) : ∀ (g : TickGen) (before : List ℤ),
    (before.length : ℤ) ≤ max 0 (maxRanges + 1) →
      ((collectTicks currentTick maxRanges fuel g before).length : ℤ) ≤ max 0 (maxRanges + 1) := by
  induction fuel with
  | zero => exact fun g before h => h
  | succ fuel ih =>
      intro g before h
      rw [collectTicks_succ]
      split_ifs with hedge hfull hcollect
      · exact h
      · exact h
      · refine ih _ _ ?_
        rw [List.length_append, List.length_singleton]
        push_cast
        omega
      · exact ih _ _ h

end Walk

/-! ## The ranges of a walk -/

/-- Two ticks can be collected. -/
def TwoCollectable (pool : Pool) (zeroForOne : Bool) : Prop :=
  ∃ a b, a ≠ b ∧
    Collectable pool.state.tickData pool.tickSpacing pool.state.tick (!zeroForOne) a ∧
    Collectable pool.state.tickData pool.tickSpacing pool.state.tick (!zeroForOne) b

/-- The ticks that a query collects. -/
def collected (pool : Pool) (zeroForOne : Bool) (maxRanges : ℤ) : List ℤ :=
  collectTicks pool.state.tick maxRanges (stepsToEdge (!zeroForOne) pool.state.tick)
    (genTicks pool.state.tickData pool.state.tick pool.tickSpacing (!zeroForOne)) []

section Ranges

variable {pool : Pool} {zeroForOne : Bool} {maxRanges : ℤ}

theorem collected_collects (hs : 0 < pool.tickSpacing) :
    Collects pool.state.tickData pool.tickSpacing pool.state.tick maxRanges (!zeroForOne)
      pool.state.tick (collected pool zeroForOne maxRanges)
      (collected pool zeroForOne maxRanges) := by
  have hpassed : Passed (!zeroForOne) pool.state.tick pool.state.tick := by
    cases zeroForOne <;> simp [Passed]
  obtain ⟨new, heq, hnew⟩ := @collectTicks_collects _ _ _ maxRanges _ hs _ _ _ []
    (genTicks_at hs pool.state.tickData pool.state.tick (!zeroForOne)) hpassed le_rfl
  rw [List.nil_append] at heq hnew
  rw [collected, heq]
  exact hnew

theorem two_le_length_collected_iff (hs : 0 < pool.tickSpacing) :
    2 ≤ (collected pool zeroForOne maxRanges).length ↔
      1 ≤ maxRanges ∧ TwoCollectable pool zeroForOne := by
  have hcollects := @collected_collects pool zeroForOne maxRanges hs
  have hlength := @length_collectTicks_le pool.state.tick maxRanges
    (stepsToEdge (!zeroForOne) pool.state.tick)
    (genTicks pool.state.tickData pool.state.tick pool.tickSpacing (!zeroForOne)) []
    (by simp)
  change ((collected pool zeroForOne maxRanges).length : ℤ) ≤ _ at hlength
  generalize collected pool zeroForOne maxRanges = ticks at hcollects hlength
  constructor
  · intro htwo
    refine ⟨by omega, ?_⟩
    obtain _ | ⟨a, _ | ⟨b, rest⟩⟩ := ticks
    · simp at htwo
    · simp at htwo
    · have hbefore := (List.pairwise_cons.mp hcollects.ordered).1 b (by simp)
      refine ⟨a, b, ?_, (hcollects.collectable a (by simp)).1,
        (hcollects.collectable b (by simp)).1⟩
      rintro rfl
      exact before_irrefl hbefore
  · rintro ⟨hmax, a, b, hne, ha, hb⟩
    rcases hcollects.complete with hall | hfull
    · have hmemA := hall a ha ha.ahead
      have hmemB := hall b hb hb.ahead
      obtain _ | ⟨t, _ | ⟨t', rest⟩⟩ := ticks
      · exact absurd hmemA List.not_mem_nil
      · exact absurd ((List.mem_singleton.mp hmemA).trans (List.mem_singleton.mp hmemB).symm) hne
      · simp
    · omega

/-- Every range is upside down. -/
def UpsideDown (ranges : TickRanges) : Prop :=
  ranges.1 ≠ [] ∧ ∀ range ∈ ranges.1, range.tickUpper < range.tickLower

theorem tickRangeInfo_upsideDown {state : PoolState} {a b : ℤ} {range : V3TickRangeInfo}
    (hbefore : Before (!zeroForOne) a b) (h : tickRangeInfo state zeroForOne (a, b) = .ok range) :
    range.tickUpper < range.tickLower := by
  obtain ⟨sqrtPriceLower, -, h⟩ := bind_eq_ok.mp h
  obtain ⟨sqrtPriceUpper, -, h⟩ := bind_eq_ok.mp h
  rw [← Except.ok.inj h]
  cases zeroForOne <;> simpa [Before] using hbefore

/-- Without two collectable ticks there are no ranges, and otherwise they are upside down. -/
theorem adjacentTickRanges_eq_ok (hs : 0 < pool.tickSpacing) {result : Option TickRanges}
    (h : pool.adjacentTickRanges zeroForOne maxRanges = .ok result) :
    (result = none ↔ pool.sparseLiquidityMap = true ∨ maxRanges < 1 ∨
      ¬TwoCollectable pool zeroForOne) ∧ ∀ ranges, result = some ranges → UpsideDown ranges := by
  have hiff := @two_le_length_collected_iff pool zeroForOne maxRanges hs
  unfold Pool.adjacentTickRanges at h
  by_cases hsparse : pool.sparseLiquidityMap = true
  · rw [if_pos hsparse] at h
    cases h
    simp [hsparse]
  · rw [if_neg hsparse, if_neg hs.ne'] at h
    dsimp only at h
    change (if (collected pool zeroForOne maxRanges).length < 2 then _ else
      ((collected pool zeroForOne maxRanges).zip (collected pool zeroForOne maxRanges).tail).mapM
        (tickRangeInfo pool.state zeroForOne) >>= _) = _ at h
    have hordered := (@collected_collects pool zeroForOne maxRanges
      hs).ordered
    by_cases hfew : (collected pool zeroForOne maxRanges).length < 2
    · rw [if_pos hfew] at h
      cases h
      refine ⟨⟨fun _ => .inr ?_, fun _ => rfl⟩, by simp⟩
      by_contra hcontra
      rw [not_or, not_lt, not_not] at hcontra
      exact absurd (hiff.mpr hcontra) (not_le.mpr hfew)
    · rw [if_neg hfew] at h
      obtain ⟨hmax, htwo⟩ := hiff.mp (not_lt.mp hfew)
      obtain ⟨ranges, hranges, h⟩ := bind_eq_ok.mp h
      have hall := mapM_eq_ok_iff.mp hranges
      have hlength := hall.length_eq
      rw [List.length_zip, List.length_tail] at hlength
      rw [if_neg (by omega)] at h
      have hresult := (Except.ok.inj h).symm
      subst hresult
      refine ⟨by simp [hsparse, htwo, hmax], fun found hfound => ?_⟩
      rw [← Option.some.inj hfound]
      refine ⟨?_, fun range hrange => ?_⟩
      · rintro hnil
        simp only at hnil
        rw [hnil] at hlength
        simp only [List.length_nil] at hlength
        omega
      · obtain ⟨⟨a, b⟩, hab, hrun⟩ := exists_left_of_forall₂ hall hrange
        exact tickRangeInfo_upsideDown (rel_of_mem_zip_tail hordered hab) hrun

end Ranges

/-! ## The caches -/

/-- Every cached result without ranges upside down is a result without ranges. -/
def AllUpsideDown (cache : TickRangeCache) : Prop :=
  ∀ key ranges, cache.lookup key = some (some ranges) → UpsideDown ranges

theorem allUpsideDown_empty : AllUpsideDown ∅ := by
  intro key ranges h
  simp at h

section Cache

variable {cache : TickRangeCache} {key : TickRangeKey} {compute : Except Exn (Option TickRanges)}

theorem AllUpsideDown.lookupOr (h : AllUpsideDown cache)
    (hcompute : ∀ ranges, compute = .ok (some ranges) → UpsideDown ranges) :
    AllUpsideDown (cache.lookupOr key compute).2 ∧
      ∀ ranges, (cache.lookupOr key compute).1 = .ok (some ranges) → UpsideDown ranges := by
  unfold TickRangeCache.lookupOr
  cases hlookup : cache.lookup key with
  | some result =>
      refine ⟨h, fun ranges hranges => ?_⟩
      rw [Except.ok.inj hranges] at hlookup
      exact h key ranges hlookup
  | none =>
      cases hresult : compute with
      | error e => exact ⟨h, by simp⟩
      | ok result =>
          have hnew : ∀ ranges, result = some ranges → UpsideDown ranges :=
            fun ranges hranges => hcompute ranges (by rw [hresult, hranges])
          refine ⟨?_, fun ranges hranges => hnew ranges (Except.ok.inj hranges)⟩
          intro key' ranges hkey'
          by_cases hsame : key' = key
          · subst hsame
            rw [AList.lookup_insert] at hkey'
            exact hnew ranges (Option.some.inj hkey')
          · rw [AList.lookup_insert_ne hsame] at hkey'
            split_ifs at hkey'
            · exact allUpsideDown_empty key' ranges hkey'
            · exact h key' ranges hkey'

/-- A query answers with what is cached, or else with what it computes. -/
theorem lookupOr_eq_ok {result : Option TickRanges}
    (h : (cache.lookupOr key compute).1 = .ok result) :
    cache.lookup key = some result ∨ cache.lookup key = none ∧ compute = .ok result := by
  unfold TickRangeCache.lookupOr at h
  cases hlookup : cache.lookup key with
  | some found =>
      rw [hlookup] at h
      exact .inl (congrArg some (Except.ok.inj h))
  | none =>
      rw [hlookup] at h
      cases hresult : compute with
      | error e => simp [hresult] at h
      | ok found =>
          rw [hresult] at h
          exact .inr ⟨rfl, congrArg Except.ok (Except.ok.inj h)⟩

end Cache

/-! ## Any number of pools

The pools change by updates, and the queries fill the caches. -/

structure PoolInstance where
  version : Version
  address : String
  pool : Pool
  tickRangeCache : TickRangeCache

inductive TickRangeQuery where
  | getTickRanges
  | getCachedTickRanges
deriving DecidableEq

inductive PoolCall where
  | update (update : PoolUpdate)
  | query (query : TickRangeQuery) (zeroForOne : Bool) (maxRanges : ℤ)

/-- The pools, and the cache of the solver. -/
structure PoolSystem where
  pools : List PoolInstance
  tickRangeCache : TickRangeCache

/-- The cache of a query. -/
def PoolInstance.cacheOf (self : PoolInstance) (tickRangeCache : TickRangeCache) :
    TickRangeQuery → TickRangeCache
  | .getTickRanges => self.tickRangeCache
  | .getCachedTickRanges => tickRangeCache

/-- The answer of a query, with the pool and the solver's cache after it. A V4 pool has no query
of its own. -/
def PoolInstance.answer (self : PoolInstance) (tickRangeCache : TickRangeCache)
    (query : TickRangeQuery) (zeroForOne : Bool) (maxRanges : ℤ) :
    Except Exn (Option TickRanges) × PoolInstance × TickRangeCache :=
  match query, self.version with
  | .getTickRanges, .v3 =>
      let answered := V3.getTickRanges self.address self.pool self.tickRangeCache zeroForOne
        maxRanges
      (answered.1, { self with tickRangeCache := answered.2 }, tickRangeCache)
  | .getTickRanges, .v4 =>
      (.error (.attributeError "'UniswapV4Pool' object has no attribute '_get_tick_ranges'"), self,
        tickRangeCache)
  | .getCachedTickRanges, _ =>
      let answered := Degenbot.getCachedTickRanges self.address self.pool tickRangeCache zeroForOne
        maxRanges
      (answered.1, self, answered.2)

/-- The pool and the solver's cache after a call. -/
def PoolInstance.call (self : PoolInstance) (tickRangeCache : TickRangeCache) :
    PoolCall → PoolInstance × TickRangeCache
  | .update update =>
      ({ self with pool := (PoolUpdate.apply self.version self.pool update).2 }, tickRangeCache)
  | .query query zeroForOne maxRanges =>
      (self.answer tickRangeCache query zeroForOne maxRanges).2

def PoolSystem.step (system : PoolSystem) (call : ℕ × PoolCall) : Option PoolSystem :=
  system.pools[call.1]?.map fun self =>
    let called := self.call system.tickRangeCache call.2
    ⟨system.pools.set call.1 called.1, called.2⟩

/-- Pools that were never queried. -/
structure PoolSystem.Fresh (system : PoolSystem) : Prop where
  tickSpacing : ∀ self ∈ system.pools, 0 < self.pool.tickSpacing
  unqueried : ∀ self ∈ system.pools, self.tickRangeCache = ∅
  empty : system.tickRangeCache = ∅

/-- The caches hold nothing but ranges that are upside down. -/
structure PoolSystem.Inv (system : PoolSystem) : Prop where
  tickSpacing : ∀ self ∈ system.pools, 0 < self.pool.tickSpacing
  own : ∀ self ∈ system.pools, AllUpsideDown self.tickRangeCache
  shared : AllUpsideDown system.tickRangeCache

theorem PoolSystem.Fresh.inv {system : PoolSystem} (h : system.Fresh) : system.Inv where
  tickSpacing := h.tickSpacing
  own := fun self hself => h.unqueried self hself ▸ allUpsideDown_empty
  shared := h.empty ▸ allUpsideDown_empty

theorem PoolUpdate.apply_tickSpacing (version : Version) (pool : Pool) (update : PoolUpdate) :
    (PoolUpdate.apply version pool update).2.tickSpacing = pool.tickSpacing := by
  have hrecord : ∀ values, (pool.recordValues values).2.tickSpacing = pool.tickSpacing := by
    intro values
    unfold Pool.recordValues
    split <;> rfl
  have hliquidity : ∀ provider change,
      (pool.recordLiquidity provider change).2.tickSpacing = pool.tickSpacing := by
    intro provider change
    unfold Pool.recordLiquidity
    cases pool.workingState provider change <;> rfl
  cases update with
  | swap values =>
      cases version with
      | v3 =>
          simp only [PoolUpdate.apply, Version.externalUpdate, V3.externalUpdate]
          split
          · rfl
          · exact hrecord values
      | v4 =>
          simp only [PoolUpdate.apply, Version.externalUpdate, V4.externalUpdate]
          split
          · rfl
          · exact hrecord values
  | liquidity provider change =>
      cases version with
      | v3 => exact hliquidity provider change
      | v4 =>
          simp only [PoolUpdate.apply, Version.updateLiquidityMap, V4.updateLiquidityMap]
          split
          · rfl
          · exact hliquidity provider change
  | poll provider blockNumber =>
      simp only [PoolUpdate.apply, autoUpdate]
      cases pool.poll provider blockNumber with
      | error e => rfl
      | ok values => exact hrecord values

section System

variable {self : PoolInstance} {tickRangeCache : TickRangeCache} {query : TickRangeQuery}
  {zeroForOne : Bool} {maxRanges : ℤ}

theorem PoolInstance.answer_inv (hspacing : 0 < self.pool.tickSpacing)
    (hown : AllUpsideDown self.tickRangeCache) (hshared : AllUpsideDown tickRangeCache) :
    let answered := self.answer tickRangeCache query zeroForOne maxRanges
    answered.2.1.pool = self.pool ∧ AllUpsideDown answered.2.1.tickRangeCache ∧
      AllUpsideDown answered.2.2 ∧
        ∀ ranges, answered.1 = .ok (some ranges) → UpsideDown ranges := by
  have hcompute : ∀ ranges, self.pool.adjacentTickRanges zeroForOne maxRanges = .ok (some ranges) →
      UpsideDown ranges := fun ranges h => (adjacentTickRanges_eq_ok hspacing h).2 ranges rfl
  obtain ⟨version, address, pool, own⟩ := self
  cases query with
  | getTickRanges =>
      cases version with
      | v3 =>
          have hlookup := @AllUpsideDown.lookupOr _ (address, pool.state.tick, zeroForOne) _ hown hcompute
          exact ⟨rfl, hlookup.1, hshared, hlookup.2⟩
      | v4 => exact ⟨rfl, hown, hshared, by simp [PoolInstance.answer]⟩
  | getCachedTickRanges =>
      have hlookup := @AllUpsideDown.lookupOr _ (address, pool.state.tick, zeroForOne) _ hshared
        hcompute
      cases version <;> exact ⟨rfl, hown, hlookup.1, hlookup.2⟩

theorem PoolInstance.call_inv (call : PoolCall) (hspacing : 0 < self.pool.tickSpacing)
    (hown : AllUpsideDown self.tickRangeCache) (hshared : AllUpsideDown tickRangeCache) :
    let called := self.call tickRangeCache call
    0 < called.1.pool.tickSpacing ∧ AllUpsideDown called.1.tickRangeCache ∧
      AllUpsideDown called.2 := by
  cases call with
  | update update =>
      refine ⟨?_, hown, hshared⟩
      simp only [PoolInstance.call]
      rwa [PoolUpdate.apply_tickSpacing]
  | query query zeroForOne maxRanges =>
      obtain ⟨hpool, hown', hshared', -⟩ := @PoolInstance.answer_inv _ _ query zeroForOne
        maxRanges hspacing hown hshared
      exact ⟨by simp only [PoolInstance.call]; rwa [hpool], hown', hshared'⟩

theorem PoolSystem.step_inv {system system' : PoolSystem} {call : ℕ × PoolCall} (h : system.Inv)
    (hstep : system.step call = some system') : system'.Inv := by
  obtain ⟨self, hself, rfl⟩ := Option.map_eq_some_iff.mp hstep
  have hmem : self ∈ system.pools := List.mem_of_getElem? hself
  obtain ⟨hspacing, hown, hshared⟩ := self.call_inv call.2 (h.tickSpacing self hmem)
    (h.own self hmem) h.shared
  refine ⟨fun other hother => ?_, fun other hother => ?_, hshared⟩
  · rcases List.mem_or_eq_of_mem_set hother with hold | rfl
    · exact h.tickSpacing other hold
    · exact hspacing
  · rcases List.mem_or_eq_of_mem_set hother with hold | rfl
    · exact h.own other hold
    · exact hown

end System

/-! ## What an answer says -/

/-- The ranges follow each other in the direction of the swap, from the one that holds the current
tick, and carry the liquidity that is active in them. -/
structure Pool.Describes (pool : Pool) (zeroForOne : Bool) (ranges : List V3TickRangeInfo) :
    Prop where
  ordered : ∀ range ∈ ranges, range.tickLower < range.tickUpper
  current : ∃ range, ranges.head? = some range ∧
    range.tickLower ≤ pool.state.tick ∧ pool.state.tick < range.tickUpper
  contiguous : ranges.IsChain fun range next =>
    if zeroForOne then next.tickUpper = range.tickLower else range.tickUpper = next.tickLower
  liquidity : ∀ range ∈ ranges, range.liquidity = liquidityAt pool.state.tickData range.tickLower
  undivided : ∀ range ∈ ranges, ∀ tick ∈ pool.state.tickData,
    tick ≤ range.tickLower ∨ range.tickUpper ≤ tick

/-- An answer without ranges says nothing. -/
def Pool.ReflectedBy (pool : Pool) (zeroForOne : Bool) (result : Option TickRanges) : Prop :=
  ∀ ranges, result = some ranges → pool.Describes zeroForOne ranges.1

theorem Pool.not_describes {pool : Pool} {zeroForOne : Bool} {ranges : TickRanges}
    (h : UpsideDown ranges) : ¬pool.Describes zeroForOne ranges.1 := by
  intro hdescribes
  obtain ⟨range, hrange⟩ := List.exists_mem_of_ne_nil _ h.1
  exact absurd (hdescribes.ordered range hrange) (h.2 range hrange).not_gt

/-- The query has a cached result without ranges, or no cached result and a pool without ranges:
it is sparse, no range is asked for, or fewer than two ticks can be collected. -/
def PoolInstance.NoRanges (self : PoolInstance) (cache : TickRangeCache) (zeroForOne : Bool)
    (maxRanges : ℤ) : Prop :=
  cache.lookup (self.address, self.pool.state.tick, zeroForOne) = some none ∨
    cache.lookup (self.address, self.pool.state.tick, zeroForOne) = none ∧
      (self.pool.sparseLiquidityMap = true ∨ maxRanges < 1 ∨ ¬TwoCollectable self.pool zeroForOne)

theorem Pool.reflectedBy_iff {pool : Pool} {zeroForOne : Bool} {result : Option TickRanges}
    (h : ∀ ranges, result = some ranges → UpsideDown ranges) :
    pool.ReflectedBy zeroForOne result ↔ result = none := by
  constructor
  · intro hreflected
    rw [Option.eq_none_iff_forall_ne_some]
    intro ranges hranges
    exact pool.not_describes (h ranges hranges) (hreflected ranges hranges)
  · rintro rfl ranges hranges
    cases hranges

theorem noRanges_iff {self : PoolInstance} {cache : TickRangeCache} {zeroForOne : Bool}
    {maxRanges : ℤ} {result : Option TickRanges} (hspacing : 0 < self.pool.tickSpacing)
    (h : (cache.lookupOr (self.address, self.pool.state.tick, zeroForOne)
      (self.pool.adjacentTickRanges zeroForOne maxRanges)).1 = .ok result) :
    self.NoRanges cache zeroForOne maxRanges ↔ result = none := by
  rcases lookupOr_eq_ok h with hcached | ⟨huncached, hcompute⟩
  · simp [PoolInstance.NoRanges, hcached]
  · simp [PoolInstance.NoRanges, huncached, (adjacentTickRanges_eq_ok hspacing hcompute).1]

/-- In every reachable state, an answer describes its pool exactly where it has no ranges. -/
theorem tickRanges_reflected_iff {start system : PoolSystem} {calls : List (ℕ × PoolCall)}
    (hstart : start.Fresh) (hreach : Reaches PoolSystem.step start calls system) {i : ℕ}
    {self : PoolInstance} (hself : system.pools[i]? = some self) (query : TickRangeQuery)
    (zeroForOne : Bool) (maxRanges : ℤ) {result : Option TickRanges}
    (hreturns : (self.answer system.tickRangeCache query zeroForOne maxRanges).1 = .ok result) :
    self.pool.ReflectedBy zeroForOne result ↔
      self.NoRanges (self.cacheOf system.tickRangeCache query) zeroForOne maxRanges := by
  have hinv : system.Inv :=
    hreach.invariant_of_step hstart.inv fun _ _ _ hs hstep => PoolSystem.step_inv hs hstep
  have hmem : self ∈ system.pools := List.mem_of_getElem? hself
  have hspacing := hinv.tickSpacing self hmem
  obtain ⟨-, -, -, hranges⟩ := @PoolInstance.answer_inv _ _ query zeroForOne maxRanges
    hspacing (hinv.own self hmem) hinv.shared
  rw [Pool.reflectedBy_iff fun ranges h => hranges ranges (hreturns.trans (congrArg Except.ok h))]
  symm
  obtain ⟨version, address, pool, own⟩ := self
  cases query with
  | getTickRanges =>
      cases version with
      | v3 => exact noRanges_iff hspacing hreturns
      | v4 => cases hreturns
  | getCachedTickRanges => cases version <;> exact noRanges_iff hspacing hreturns

/-! ### Two minted ranges -/

/-- A V3 pool, and a V4 pool at the address of its manager. -/
def sampleSystem : PoolSystem :=
  ⟨[⟨.v3, "0xA", Pool.emptyPool, ∅⟩, ⟨.v4, "0xB", Pool.emptyPool, ∅⟩], ∅⟩

def sampleCalls : List (ℕ × PoolCall) :=
  [(0, .update (.liquidity Pool.silentProvider Pool.mintNear)),
    (0, .update (.liquidity Pool.silentProvider Pool.mintFar))]

def mintedSystem : PoolSystem := (sampleCalls.foldlM PoolSystem.step sampleSystem).getD sampleSystem

/-- The V3 pool after the mints, with initialized ticks at 0, 10 and 20. -/
def mintedPool : PoolInstance := mintedSystem.pools.headD ⟨.v3, "", Pool.emptyPool, ∅⟩

theorem sampleSystem_fresh : sampleSystem.Fresh := by
  refine ⟨?_, ?_, rfl⟩
  all_goals
    intro self hself
    rcases List.mem_pair.mp hself with rfl | rfl
  · decide
  · decide
  · rfl
  · rfl

theorem reaches_mintedSystem : Reaches PoolSystem.step sampleSystem sampleCalls mintedSystem := by
  have hsome : (sampleCalls.foldlM PoolSystem.step sampleSystem).isSome = true := by decide
  obtain ⟨system, hsystem⟩ := Option.isSome_iff_exists.mp hsome
  rw [Reaches, mintedSystem, hsystem, Option.getD_some]

theorem mintedSystem_getElem? : mintedSystem.pools[0]? = some mintedPool := by
  have hsome : mintedSystem.pools[0]?.isSome = true := by decide
  obtain ⟨self, hself⟩ := Option.isSome_iff_exists.mp hsome
  rw [mintedPool, List.headD_eq_head?_getD, List.head?_eq_getElem?, hself, Option.getD_some]

/-- Below the tick of the pool there is nothing to collect but the tick itself. -/
theorem tickRanges_reflected_iff_sample :
    mintedPool.pool.ReflectedBy false none ↔
      mintedPool.NoRanges (mintedPool.cacheOf mintedSystem.tickRangeCache .getTickRanges) false 3 :=
  tickRanges_reflected_iff sampleSystem_fresh reaches_mintedSystem mintedSystem_getElem?
    .getTickRanges false 3 (by
      have hnone : ((mintedPool.answer mintedSystem.tickRangeCache .getTickRanges false
          3).1.toOption = some none) := by decide +kernel
      cases hanswer : (mintedPool.answer mintedSystem.tickRangeCache .getTickRanges false 3).1 with
      | error e => simp [hanswer, Except.toOption] at hnone
      | ok result => simpa [hanswer, Except.toOption] using hnone)

/-- A swap that goes down is answered with a range above the tick, upside down. -/
theorem not_tickRanges_reflected :
    Reaches PoolSystem.step sampleSystem sampleCalls mintedSystem ∧
      mintedSystem.pools[0]? = some mintedPool ∧
      ∃ ranges, (mintedPool.answer mintedSystem.tickRangeCache .getTickRanges true 3).1 =
        .ok (some ranges) ∧ ¬mintedPool.pool.ReflectedBy true (some ranges) := by
  have hranges : ((mintedPool.answer mintedSystem.tickRangeCache .getTickRanges true
      3).1.toOption = some (some ([⟨20, 10, -5, 79307426338960776842885539845,
        79267784519130042428790663799⟩], 0))) := by decide +kernel
  refine ⟨reaches_mintedSystem, mintedSystem_getElem?,
    ([⟨20, 10, -5, 79307426338960776842885539845, 79267784519130042428790663799⟩], 0), ?_, ?_⟩
  · cases hanswer : (mintedPool.answer mintedSystem.tickRangeCache .getTickRanges true 3).1 with
    | error e => simp [hanswer, Except.toOption] at hranges
    | ok result => simpa [hanswer, Except.toOption] using hranges
  · intro hreflected
    have hordered := (hreflected _ rfl).ordered _ List.mem_cons_self
    exact absurd hordered (by decide)

end Degenbot
