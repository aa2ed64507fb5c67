import Degenbot.Algorithm.Simulator
import Degenbot.Verification.SwapMath.Step
import Degenbot.Verification.TickBitmap.Search

/-! # Active liquidity as a sum of nets -/

namespace Degenbot

/-- The net liquidity of a tick, zero where the tick is not initialized. -/
def netAt (tickData : LiquidityMap) (tick : ℤ) : ℤ :=
  match tickData.lookup tick with
  | some info => info.liquidityNet
  | none => 0

/-- The sum of the nets of all ticks at or below `tick`. -/
def liquidityAt (tickData : LiquidityMap) (tick : ℤ) : ℤ :=
  ∑ t ∈ tickData.keys.toFinset with t ≤ tick, netAt tickData t

section

variable {tickData : LiquidityMap}

theorem netAt_of_lookup {tick : ℤ} {info : LiquidityAtTick}
    (h : tickData.lookup tick = some info) : netAt tickData tick = info.liquidityNet := by
  simp [netAt, h]

theorem netAt_of_notMem {tick : ℤ} (h : tick ∉ tickData) : netAt tickData tick = 0 := by
  simp [netAt, AList.lookup_eq_none.mpr h]

/-- The sum does not change across a gap without initialized ticks. -/
theorem liquidityAt_eq_of_gap {a b : ℤ} (hab : a ≤ b)
    (hgap : ∀ t ∈ tickData, t ≤ a ∨ b < t) : liquidityAt tickData b = liquidityAt tickData a := by
  unfold liquidityAt
  congr 1
  ext t
  simp only [Finset.mem_filter, List.mem_toFinset, and_congr_right_iff]
  intro ht
  rcases hgap t ht with hle | hgt <;> omega

theorem liquidityAt_eq_pred (tick : ℤ) :
    liquidityAt tickData tick = liquidityAt tickData (tick - 1) + netAt tickData tick := by
  by_cases hmem : tick ∈ tickData
  · have hsplit : (tickData.keys.toFinset.filter (· ≤ tick)) =
        insert tick (tickData.keys.toFinset.filter (· ≤ tick - 1)) := by
      ext t
      simp only [Finset.mem_filter, List.mem_toFinset, Finset.mem_insert]
      constructor
      · rintro ⟨ht, hle⟩
        by_cases heq : t = tick
        · exact .inl heq
        · exact .inr ⟨ht, by omega⟩
      · rintro (rfl | ⟨ht, hle⟩)
        · exact ⟨hmem, le_rfl⟩
        · exact ⟨ht, by omega⟩
    unfold liquidityAt
    rw [hsplit, Finset.sum_insert (by simp), add_comm]
  · rw [netAt_of_notMem hmem, add_zero]
    refine liquidityAt_eq_of_gap (by omega) fun t ht => ?_
    by_cases heq : t = tick
    · exact absurd (heq ▸ ht) hmem
    · omega

end

/-! ## Nothing initialized lies before a stop -/

section Stop

variable {tickData : LiquidityMap} {tickSpacing tick next : ℤ}

theorem IsNextStop.le_tick (h : IsNextStop tickData tickSpacing true tick next) :
    next ≤ tick := h.1.2

theorem IsNextStop.tick_lt (h : IsNextStop tickData tickSpacing false tick next) :
    tick < next := h.1.2

theorem IsNextStop.gap_down (h : IsNextStop tickData tickSpacing true tick next) :
    ∀ t ∈ tickData, t ≤ next ∨ tick < t := by
  intro t ht
  by_contra hcon
  push Not at hcon
  have hle : t ≤ next := h.2 ⟨.inl ht, hcon.2⟩
  omega

theorem IsNextStop.gap_up (h : IsNextStop tickData tickSpacing false tick next) :
    ∀ t ∈ tickData, t ≤ tick ∨ next ≤ t := by
  intro t ht
  by_contra hcon
  push Not at hcon
  have hle : next ≤ t := h.2 ⟨.inl ht, hcon.1⟩
  omega

end Stop

/-- Whatever a search returns is the next stop, also when it skips the bitmap. -/
theorem nextInitializedTickWithinOneWord_ok {tickBitmap : InitializedTickMap}
    {tickData : LiquidityMap} {tickSpacing tick : ℤ} {lte : Bool} {stop : ℤ × Bool}
    (hs : 0 < tickSpacing)
    (h : nextInitializedTickWithinOneWord tickBitmap tickData tick tickSpacing lte = .ok stop) :
    IsNextStop tickData tickSpacing lte tick stop.1 ∧ (stop.2 = true ↔ stop.1 ∈ tickData) := by
  by_cases hword : touchedWord tickSpacing lte tick ∈ tickBitmap
  · obtain ⟨next, hnext, hok⟩ :=
      nextInitializedTickWithinOneWord_spec tickData hs hword
    rw [hok] at h
    cases h
    exact ⟨hnext, by simp⟩
  · cases lte with
    | true =>
        have hmissing : (position (tick.fdiv tickSpacing)).1 ∉ tickBitmap := by
          simpa [touchedWord] using hword
        by_cases hin : tick ∈ tickData
        · simp only [nextInitializedTickWithinOneWord, if_true, hin] at h
          cases h
          exact ⟨⟨⟨.inl hin, le_rfl⟩, fun t ht => ht.2⟩, by simpa using hin⟩
        · simp [nextInitializedTickWithinOneWord, hin, hmissing] at h
    | false =>
        have hmissing : (position (tick.fdiv tickSpacing + 1)).1 ∉ tickBitmap := by
          simpa [touchedWord] using hword
        simp [nextInitializedTickWithinOneWord, hmissing] at h

end Degenbot

/-! ## One pass of the V3 swap loop

What a pass does to the amounts, and what must be true when another pass follows it: the
price stands exactly on the stop, and the stop was not clamped. -/

namespace Degenbot

open Library

/-- The three ends of a pass: on the stop, between the stop and the start, or where it
started. -/
theorem finishStep_cases {snapshot : LiquidityMapSnapshot} {getTick : ℤ → Except Exn ℤ}
    {z initialized : Bool} {tickNext next start : ℤ} {state state' : SwapState}
    (h : snapshot.finishStep getTick z initialized tickNext next start state = .ok state') :
    (state.sqrtPriceX96 = next ∧ ∃ liquidity,
        (if initialized then snapshot.crossTick z tickNext state.liquidity
          else .ok state.liquidity) = .ok liquidity ∧
        state' = { state with liquidity, tick := if z then tickNext - 1 else tickNext }) ∨
      (state.sqrtPriceX96 ≠ next ∧ state.sqrtPriceX96 ≠ start ∧ ∃ tick,
        getTick state.sqrtPriceX96 = .ok tick ∧ state' = { state with tick }) ∨
      (state.sqrtPriceX96 ≠ next ∧ state.sqrtPriceX96 = start ∧ state' = state) := by
  unfold LiquidityMapSnapshot.finishStep at h
  by_cases hnext : state.sqrtPriceX96 = next
  · rw [if_pos hnext] at h
    obtain ⟨liquidity, hcross, h⟩ := bind_eq_ok.mp h
    exact .inl ⟨hnext, liquidity, hcross, (Except.ok.inj h).symm⟩
  · rw [if_neg hnext] at h
    by_cases hstart : state.sqrtPriceX96 = start
    · rw [if_neg (not_not.mpr hstart)] at h
      exact .inr (.inr ⟨hnext, hstart, (Except.ok.inj h).symm⟩)
    · rw [if_pos hstart] at h
      obtain ⟨tick, htick, h⟩ := bind_eq_ok.mp h
      exact .inr (.inl ⟨hnext, hstart, tick, htick, (Except.ok.inj h).symm⟩)

namespace V3

theorem getSqrtRatioAtTick_min : getSqrtRatioAtTick (-887272) = .ok minSqrtRatio := by decide

theorem getSqrtRatioAtTick_max : getSqrtRatioAtTick 887272 = .ok maxSqrtRatio := by decide

/-- The arguments that pass the checks before the loop. -/
structure SwapArgs.Valid (args : SwapArgs) : Prop where
  liquidity_nonneg : 0 ≤ args.liquidityStart
  amount_ne : args.amountSpecified ≠ 0
  limit_down : args.zeroForOne = true →
    minSqrtRatio < args.sqrtPriceLimitX96 ∧ args.sqrtPriceLimitX96 < args.sqrtPriceX96Start
  limit_up : args.zeroForOne = false →
    args.sqrtPriceX96Start < args.sqrtPriceLimitX96 ∧ args.sqrtPriceLimitX96 < maxSqrtRatio

theorem SwapArgs.check_eq_ok_iff {args : SwapArgs} : args.check = .ok () ↔ args.Valid := by
  simp only [SwapArgs.check, ite_error_eq_ok, not_and, Classical.not_imp, not_not,
    Bool.not_eq_true, and_true]
  constructor
  · rintro ⟨hL, hamount, hdown, hup⟩
    exact ⟨hL, hamount, hdown, hup⟩
  · rintro ⟨hL, hamount, hdown, hup⟩
    exact ⟨hL, hamount, hdown, hup⟩

/-- The remaining amount keeps the sign of the amount specified. -/
def SwapArgs.SignKept (args : SwapArgs) (state : SwapState) : Prop :=
  if args.exactInput then 0 ≤ state.amountSpecifiedRemaining
  else state.amountSpecifiedRemaining ≤ 0

section Pass

variable {args : SwapArgs} {stop : ℤ × Bool} {state state' : SwapState}

theorem SwapArgs.moveTo_eq_ok (h : args.moveTo stop state = .ok state') :
    ∃ sqrtPriceNext step,
      getSqrtRatioAtTick (clampTick args.zeroForOne stop.1) = .ok sqrtPriceNext ∧
      computeSwapStep state.sqrtPriceX96
        (getSqrtPriceTarget args.zeroForOne sqrtPriceNext args.sqrtPriceLimitX96)
        state.liquidity state.amountSpecifiedRemaining args.fee = .ok step ∧
      args.snapshot.finishStep getTickAtSqrtRatio args.zeroForOne stop.2
        (clampTick args.zeroForOne stop.1) sqrtPriceNext state.sqrtPriceX96
        (args.applyAmounts state step) = .ok state' := by
  simp only [SwapArgs.moveTo, bind_eq_ok, ite_error_eq_ok] at h
  obtain ⟨sqrtPriceNext, hnext, -, step, hstep, hfinish⟩ := h
  exact ⟨sqrtPriceNext, step, hnext, hstep, hfinish⟩

/-- The end of a pass touches only the tick and the liquidity. -/
theorem finishStep_frame {snapshot : LiquidityMapSnapshot} {getTick : ℤ → Except Exn ℤ}
    {z initialized : Bool} {tickNext next start : ℤ}
    (h : snapshot.finishStep getTick z initialized tickNext next start state = .ok state') :
    state'.amountSpecifiedRemaining = state.amountSpecifiedRemaining ∧
      state'.amountCalculated = state.amountCalculated ∧
      state'.sqrtPriceX96 = state.sqrtPriceX96 ∧ state'.ticks = state.ticks := by
  unfold LiquidityMapSnapshot.finishStep at h
  split at h
  · obtain ⟨liquidity, -, h⟩ := bind_eq_ok.mp h
    cases h
    exact ⟨rfl, rfl, rfl, rfl⟩
  · split at h
    · obtain ⟨tick, -, h⟩ := bind_eq_ok.mp h
      cases h
      exact ⟨rfl, rfl, rfl, rfl⟩
    · cases h
      exact ⟨rfl, rfl, rfl, rfl⟩

@[simp] theorem SwapArgs.applyAmounts_sqrtPriceX96 (step : SwapStep) :
    (args.applyAmounts state step).sqrtPriceX96 = step.sqrtRatioNextX96 := by
  unfold SwapArgs.applyAmounts
  split <;> rfl

@[simp] theorem SwapArgs.applyAmounts_liquidity (step : SwapStep) :
    (args.applyAmounts state step).liquidity = state.liquidity := by
  unfold SwapArgs.applyAmounts
  split <;> rfl

@[simp] theorem SwapArgs.applyAmounts_tick (step : SwapStep) :
    (args.applyAmounts state step).tick = state.tick := by
  unfold SwapArgs.applyAmounts
  split <;> rfl

@[simp] theorem SwapArgs.applyAmounts_ticks (step : SwapStep) :
    (args.applyAmounts state step).ticks = state.ticks := by
  unfold SwapArgs.applyAmounts
  split <;> rfl

theorem SwapArgs.guard_iff : args.guard state = true ↔
    state.amountSpecifiedRemaining ≠ 0 ∧ state.sqrtPriceX96 ≠ args.sqrtPriceLimitX96 := by
  simp [SwapArgs.guard]

/-- The specification of the step in the terms of a whole swap: the sign is kept, and a
price short of the target leaves nothing to swap. -/
theorem SwapArgs.applyAmounts_spec {target : ℤ} {step : SwapStep} (hsign : args.SignKept state)
    (hguard : args.guard state = true)
    (h : computeSwapStep state.sqrtPriceX96 target state.liquidity
      state.amountSpecifiedRemaining args.fee = .ok step) :
    args.SignKept (args.applyAmounts state step) ∧
      (step.sqrtRatioNextX96 ≠ target →
        (args.applyAmounts state step).amountSpecifiedRemaining = 0) := by
  have hspec := computeSwapStep_spec h
  have hne := (SwapArgs.guard_iff.mp hguard).1
  unfold SwapArgs.SignKept SwapArgs.applyAmounts at *
  split_ifs at hsign ⊢ with hexact
  · have hle := hspec.input_le hsign
    refine ⟨by simpa using hle, fun hshort => ?_⟩
    have hexhausted := hspec.input_exhausted hsign hshort
    simp only
    linarith
  · have hneg : state.amountSpecifiedRemaining < 0 := lt_of_le_of_ne hsign hne
    have hle := hspec.output_le hneg
    refine ⟨by simp only; linarith, fun hshort => ?_⟩
    have hexhausted := hspec.output_exhausted hneg hshort
    simp only
    linarith

theorem SwapArgs.moveTo_signKept (hsign : args.SignKept state) (hguard : args.guard state = true)
    (h : args.moveTo stop state = .ok state') : args.SignKept state' := by
  obtain ⟨sqrtPriceNext, step, -, hstep, hfinish⟩ := SwapArgs.moveTo_eq_ok h
  have hkept := (SwapArgs.applyAmounts_spec hsign hguard hstep).1
  obtain ⟨hrem, -, -, -⟩ := finishStep_frame hfinish
  simpa [SwapArgs.SignKept, hrem] using hkept

/-- When another pass follows, the price has reached the stop itself: the stop lies
strictly inside the global bounds and the tick has moved just past it. -/
theorem SwapArgs.moveTo_continues (hvalid : args.Valid) (hsign : args.SignKept state)
    (hguard : args.guard state = true) (h : args.moveTo stop state = .ok state')
    (hguard' : args.guard state' = true) :
    clampTick args.zeroForOne stop.1 = stop.1 ∧ (-887272 < stop.1 ∨ args.zeroForOne = false) ∧
      (stop.1 < 887272 ∨ args.zeroForOne = true) ∧
      getSqrtRatioAtTick stop.1 = .ok state'.sqrtPriceX96 ∧
      state'.tick = advance args.zeroForOne stop.1 := by
  obtain ⟨sqrtPriceNext, step, hnext, hstep, hfinish⟩ := SwapArgs.moveTo_eq_ok h
  obtain ⟨hrem, -, hprice, -⟩ := finishStep_frame hfinish
  obtain ⟨hrem', hlimit⟩ := SwapArgs.guard_iff.mp hguard'
  rw [SwapArgs.applyAmounts_sqrtPriceX96] at hprice
  have hreached : step.sqrtRatioNextX96 =
      getSqrtPriceTarget args.zeroForOne sqrtPriceNext args.sqrtPriceLimitX96 := by
    by_contra hshort
    exact hrem' (hrem.trans ((SwapArgs.applyAmounts_spec hsign hguard hstep).2 hshort))
  rw [hprice, hreached] at hlimit
  unfold getSqrtPriceTarget at hlimit hreached
  split at hlimit
  · exact absurd rfl hlimit
  rename_i hbeyond
  simp only [hbeyond, if_false] at hreached
  -- the clamped tick has the extreme price, which no limit admits
  have hclamp : clampTick args.zeroForOne stop.1 = stop.1 ∧
      (-887272 < stop.1 ∨ args.zeroForOne = false) ∧
      (stop.1 < 887272 ∨ args.zeroForOne = true) := by
    cases hz : args.zeroForOne with
    | true =>
        have hlow := (hvalid.limit_down hz).1
        have hge : ¬sqrtPriceNext < args.sqrtPriceLimitX96 := fun hlt => hbeyond (.inl ⟨hz, hlt⟩)
        have hgt : -887272 < stop.1 := by
          by_contra hle
          rw [hz, clampTick, if_pos rfl, max_eq_left (by omega), getSqrtRatioAtTick_min] at hnext
          cases hnext
          exact hge hlow
        exact ⟨by simp only [clampTick, if_true]; omega, .inl hgt, .inr rfl⟩
    | false =>
        have hhigh := (hvalid.limit_up hz).2
        have hle : ¬sqrtPriceNext > args.sqrtPriceLimitX96 := fun hgt =>
          hbeyond (.inr ⟨by simp [hz], hgt⟩)
        have hlt : stop.1 < 887272 := by
          by_contra hge
          rw [hz, clampTick, if_neg (by simp), min_eq_left (by omega), getSqrtRatioAtTick_max]
            at hnext
          cases hnext
          exact hle hhigh
        exact ⟨by simp only [clampTick, Bool.false_eq_true, if_false]; omega, .inr rfl, .inl hlt⟩
  refine ⟨hclamp.1, hclamp.2.1, hclamp.2.2, ?_, ?_⟩
  · rw [← hclamp.1, hnext, hprice, hreached]
  · unfold LiquidityMapSnapshot.finishStep at hfinish
    rw [if_pos (by simpa using hreached)] at hfinish
    obtain ⟨liquidity, -, hfinish⟩ := bind_eq_ok.mp hfinish
    cases hfinish
    simp only [hclamp.1, advance]

end Pass

end V3

/-! ## A sample swap -/

/-- One position of 10^18 between the ticks -60 and 60. -/
def sampleTickData : LiquidityMap :=
  (AList.insert (-60) ⟨10 ^ 18, 10 ^ 18, 0, by decide, by decide⟩ ∅).insert 60
    ⟨-10 ^ 18, 10 ^ 18, 0, by decide, by decide⟩

def sampleTickBitmap : InitializedTickMap :=
  (AList.insert (-1) ⟨2 ^ 255, 0, by norm_num⟩ ∅).insert 0 ⟨2, 0, by norm_num⟩

/-- An exact input of 1000 that stays inside the position. -/
def sampleSwap : V3.SwapArgs where
  snapshot := ⟨sampleTickData, sampleTickBitmap, 60, false⟩
  zeroForOne := false
  amountSpecified := 1000
  sqrtPriceLimitX96 := maxSqrtRatio - 1
  fee := 3000
  liquidityStart := 10 ^ 18
  sqrtPriceX96Start := 2 ^ 96
  tickStart := 0

end Degenbot
