import Degenbot.Verification.Simulator.Loop
import Degenbot.Verification.TickMath.Tick
import Mathlib.Logic.Relation

/-! # Invariants of a V3 swap

The loop keeps the remaining amount, the price, the tick and the active liquidity
consistent with each other, and the tick moves monotonically, so the loop ends. -/

namespace Degenbot.V3

open Library

/-- The price lies between the prices of its tick and of the next one. -/
def PriceWithinTick (sqrtPrice tick : ℤ) : Prop :=
  ∃ low high, getSqrtRatioAtTick tick = .ok low ∧ getSqrtRatioAtTick (tick + 1) = .ok high ∧
    low ≤ sqrtPrice ∧ sqrtPrice ≤ high

theorem priceWithinTick_iff {sqrtPrice tick : ℤ} : PriceWithinTick sqrtPrice tick ↔
    ValidTick tick ∧ ValidTick (tick + 1) ∧ (sqrtRatio tick : ℤ) ≤ sqrtPrice ∧
      sqrtPrice ≤ sqrtRatio (tick + 1) := by
  simp only [PriceWithinTick, getSqrtRatioAtTick_eq_ok_iff]
  constructor
  · rintro ⟨low, high, ⟨hv, rfl⟩, ⟨hv', rfl⟩, hlow, hhigh⟩
    exact ⟨hv, hv', hlow, hhigh⟩
  · rintro ⟨hv, hv', hlow, hhigh⟩
    exact ⟨_, _, ⟨hv, rfl⟩, ⟨hv', rfl⟩, hlow, hhigh⟩

theorem PriceWithinTick.mem {price tick : ℤ} (h : PriceWithinTick price tick) :
    minSqrtRatio ≤ price ∧ price ≤ maxSqrtRatio := by
  obtain ⟨hv, hv', hlow, hhigh⟩ := priceWithinTick_iff.mp h
  exact ⟨(sqrtRatio_mem hv).1.trans hlow, hhigh.trans (sqrtRatio_mem hv').2⟩

theorem sqrtRatio_lt_iff {a b : ℤ} (ha : ValidTick a) (hb : ValidTick b) :
    sqrtRatio a < sqrtRatio b ↔ a < b := by
  constructor
  · intro h
    by_contra hge
    exact absurd (sqrtRatio_mono hb ha (not_lt.mp hge)) (not_le.mpr h)
  · exact sqrtRatio_strictMono ha hb

/-- A snapshot whose price and active liquidity belong to its tick. -/
structure SwapArgs.Consistent (args : SwapArgs) : Prop where
  spacing_pos : 0 < args.snapshot.tickSpacing
  liquidity_eq : args.liquidityStart = liquidityAt args.snapshot.tickData args.tickStart
  price_within : PriceWithinTick args.sqrtPriceX96Start args.tickStart

/-! ## The walk -/

/-- A running generator has yielded exactly the stops before `tick`. -/
def SwapArgs.WalkAt (args : SwapArgs) (ticks : Option TickGen) (tick : ℤ) : Prop :=
  ∀ g, ticks = some g →
    g.At args.snapshot.tickData args.snapshot.tickSpacing args.zeroForOne tick

theorem SwapArgs.nextTick_spec {args : SwapArgs} {state : SwapState} {stop : ℤ × Bool}
    {ticks : Option TickGen} (hs : 0 < args.snapshot.tickSpacing)
    (hwalk : args.WalkAt state.ticks state.tick)
    (h : args.snapshot.nextTick args.zeroForOne state = .ok (stop, ticks)) :
    IsNextStop args.snapshot.tickData args.snapshot.tickSpacing args.zeroForOne state.tick
        stop.1 ∧
      (stop.2 = true ↔ stop.1 ∈ args.snapshot.tickData) ∧
      args.WalkAt ticks (advance args.zeroForOne stop.1) := by
  unfold LiquidityMapSnapshot.nextTick at h
  cases hticks : state.ticks with
  | some g =>
      obtain ⟨hstop, hflag, hat⟩ := (hwalk g hticks).next hs
      rw [hticks] at h
      cases h
      refine ⟨hstop, hflag, ?_⟩
      rintro g' hg'
      cases hg'
      exact hat
  | none =>
      rw [hticks] at h
      obtain ⟨stop', hstop, h⟩ := bind_eq_ok.mp h
      cases h
      have hnone : args.WalkAt none (advance args.zeroForOne stop.1) := by
        rintro g hg
        cases hg
      unfold LiquidityMapSnapshot.nextInitializedTick at hstop
      split at hstop
      · split at hstop
        · cases hstop
        · obtain ⟨hnext, hflag⟩ := nextInitializedTickWithinOneWord_ok hs hstop
          exact ⟨hnext, hflag, hnone⟩
      · cases hstop
        obtain ⟨hnext, hflag, -⟩ := (genTicks_at hs args.snapshot.tickData state.tick
          args.zeroForOne).next hs
        exact ⟨hnext, hflag, hnone⟩

theorem SwapArgs.walkAt_initial {args : SwapArgs} (hs : 0 < args.snapshot.tickSpacing) :
    args.WalkAt args.initialState.ticks args.tickStart := by
  intro g hg
  unfold SwapArgs.initialState LiquidityMapSnapshot.ticksAlongPath at hg
  dsimp only at hg
  split at hg
  · cases hg
  · cases hg
    exact genTicks_at hs _ _ _

/-! ## One pass -/

/-- What holds whenever the guard of the loop is evaluated. -/
structure SwapArgs.Inv (args : SwapArgs) (state : SwapState) : Prop where
  signKept : args.SignKept state
  moved : Toward args.zeroForOne args.sqrtPriceX96Start state.sqrtPriceX96
  within_limit : Toward args.zeroForOne state.sqrtPriceX96 args.sqrtPriceLimitX96
  liquidity_eq : state.liquidity = liquidityAt args.snapshot.tickData state.tick
  price_within : PriceWithinTick state.sqrtPriceX96 state.tick
  walk : args.guard state = true → args.WalkAt state.ticks state.tick

theorem toward_trans {z : Bool} {a b c : ℤ} (hab : Toward z a b) (hbc : Toward z b c) :
    Toward z a c := by
  cases z <;> simp only [Toward, if_true, Bool.false_eq_true, if_false] at * <;> omega

/-- A price between the current one and the target lies in the direction of the swap. -/
theorem toward_of_between {z : Bool} {current target next : ℤ}
    (hmoved : Toward (decide (current ≥ target)) current next)
    (hrest : Toward (decide (current ≥ target)) next target) (hdir : Toward z current target) :
    Toward z current next ∧ Toward z next target := by
  by_cases hge : current ≥ target
  · simp only [hge, decide_true, Toward, if_true] at hmoved hrest
    cases z with
    | true => exact ⟨by simpa [Toward] using hmoved, by simpa [Toward] using hrest⟩
    | false =>
        simp only [Toward, Bool.false_eq_true, if_false] at hdir ⊢
        omega
  · simp only [hge, decide_false, Toward, Bool.false_eq_true, if_false] at hmoved hrest
    cases z with
    | true =>
        simp only [Toward, if_true] at hdir
        omega
    | false => exact ⟨by simpa [Toward] using hmoved, by simpa [Toward] using hrest⟩

theorem StepSpec.toward {z : Bool} {current target remaining : ℤ} {step : SwapStep}
    (h : StepSpec current target remaining step) (hdir : Toward z current target) :
    Toward z current step.sqrtRatioNextX96 ∧ Toward z step.sqrtRatioNextX96 target :=
  toward_of_between h.between.1 h.between.2 hdir

theorem toward_getSqrtPriceTarget {z : Bool} {current next limit : ℤ}
    (hnext : Toward z current next) (hlimit : Toward z current limit) :
    Toward z current (getSqrtPriceTarget z next limit) ∧
      Toward z (getSqrtPriceTarget z next limit) limit ∧
      Toward z (getSqrtPriceTarget z next limit) next := by
  cases z <;>
    simp only [Toward, getSqrtPriceTarget, if_true, Bool.false_eq_true, if_false, true_and,
      false_and, or_false, false_or, not_true_eq_false, not_false_eq_true] at * <;>
    split_ifs <;> omega

section Pass

variable {args : SwapArgs} {stop : ℤ × Bool} {state state' : SwapState}

/-- The clamped stop has a price on the far side of the current one. -/
theorem PriceWithinTick.toward_stop {sqrtPrice tick next tickSpacing : ℤ}
    {tickData : LiquidityMap} {z : Bool} (h : PriceWithinTick sqrtPrice tick)
    (hstop : IsNextStop tickData tickSpacing z tick next) (hvn : ValidTick (clampTick z next)) :
    Toward z sqrtPrice (sqrtRatio (clampTick z next)) := by
  obtain ⟨hv, hv', hlow, hhigh⟩ := priceWithinTick_iff.mp h
  cases z with
  | true =>
      have hle := hstop.le_tick
      have hmono := sqrtRatio_mono hvn hv (by
        simp only [clampTick, if_true]
        have := hv.1
        omega)
      simp only [Toward, if_true]
      omega
  | false =>
      have hlt := hstop.tick_lt
      have hmono := sqrtRatio_mono hv' hvn (by
        simp only [clampTick, Bool.false_eq_true, if_false]
        have := hv'.2
        omega)
      simp only [Toward, Bool.false_eq_true, if_false]
      omega

theorem SwapArgs.toward_stop {sqrtPriceNext : ℤ} (hinv : args.Inv state)
    (hstop : IsNextStop args.snapshot.tickData args.snapshot.tickSpacing args.zeroForOne
      state.tick stop.1)
    (hnext : getSqrtRatioAtTick (clampTick args.zeroForOne stop.1) = .ok sqrtPriceNext) :
    Toward args.zeroForOne state.sqrtPriceX96 sqrtPriceNext := by
  obtain ⟨hvn, rfl⟩ := getSqrtRatioAtTick_eq_ok_iff.mp hnext
  exact hinv.price_within.toward_stop hstop hvn

/-- Reaching the stop: the tick moves just past it and its net is crossed. -/
theorem SwapArgs.reached_inv {moved : SwapState} {sqrtPriceNext : ℤ} (hvalid : args.Valid)
    (hliq : moved.liquidity = liquidityAt args.snapshot.tickData state.tick)
    (hstop : IsNextStop args.snapshot.tickData args.snapshot.tickSpacing args.zeroForOne
      state.tick stop.1)
    (hflag : stop.2 = true ↔ stop.1 ∈ args.snapshot.tickData)
    (hnext : getSqrtRatioAtTick (clampTick args.zeroForOne stop.1) = .ok sqrtPriceNext)
    (hprice : moved.sqrtPriceX96 = sqrtPriceNext)
    (hlimit : Toward args.zeroForOne moved.sqrtPriceX96 args.sqrtPriceLimitX96)
    (h : args.snapshot.finishStep getTickAtSqrtRatio args.zeroForOne stop.2
      (clampTick args.zeroForOne stop.1) sqrtPriceNext state.sqrtPriceX96 moved = .ok state') :
    state'.liquidity = liquidityAt args.snapshot.tickData state'.tick ∧
      PriceWithinTick state'.sqrtPriceX96 state'.tick := by
  obtain ⟨hv, rfl⟩ := getSqrtRatioAtTick_eq_ok_iff.mp hnext
  unfold LiquidityMapSnapshot.finishStep at h
  rw [if_pos hprice] at h
  obtain ⟨liquidity, hcross, h⟩ := bind_eq_ok.mp h
  cases h
  simp only
  -- the net crossed is the net of the stop, whether or not it is initialized
  have hnet : clampTick args.zeroForOne stop.1 = stop.1 → liquidity = moved.liquidity +
      if args.zeroForOne then -netAt args.snapshot.tickData stop.1
      else netAt args.snapshot.tickData stop.1 := by
    intro hclamp
    rw [hclamp] at hcross
    by_cases hinit : stop.2 = true
    · simp only [hinit, if_true, LiquidityMapSnapshot.crossTick] at hcross
      split at hcross
      · cases hcross
      · rename_i info hlookup
        cases hcross
        rw [netAt_of_lookup hlookup]
    · have hzero := netAt_of_notMem fun hmem => hinit (hflag.mpr hmem)
      simp only [hinit, Bool.false_eq_true, if_false, Except.ok.injEq] at hcross
      simp [hzero, hcross]
  rw [priceWithinTick_iff, hprice]
  cases hz : args.zeroForOne with
  | true =>
      simp only [hz, Toward, if_true, clampTick] at hlimit hnet hv hstop hprice ⊢
      have hinside : -887272 < max (-887272) stop.1 := by
        by_contra hle
        have hbottom : max (-887272) stop.1 = -887272 := by omega
        rw [hprice, hbottom, sqrtRatio_minTick] at hlimit
        have := (hvalid.limit_down hz).1
        omega
      have hclamp : max (-887272) stop.1 = stop.1 := by omega
      rw [hclamp] at hv hinside ⊢
      have hv' : ValidTick (stop.1 - 1) := ⟨by omega, by have := hv.2; omega⟩
      have hsucc : stop.1 - 1 + 1 = stop.1 := by ring
      rw [hsucc]
      refine ⟨?_, hv', hv, by exact_mod_cast sqrtRatio_mono hv' hv (by omega), le_rfl⟩
      have hgap := liquidityAt_eq_of_gap hstop.le_tick hstop.gap_down
      rw [hnet hclamp, hliq, hgap, liquidityAt_eq_pred stop.1]
      ring
  | false =>
      simp only [hz, Toward, Bool.false_eq_true, if_false, clampTick] at hlimit hnet hv hstop hprice ⊢
      have hinside : min 887272 stop.1 < 887272 := by
        by_contra hge
        have htop : min 887272 stop.1 = 887272 := by omega
        rw [hprice, htop, sqrtRatio_maxTick] at hlimit
        have := (hvalid.limit_up hz).2
        omega
      have hclamp : min 887272 stop.1 = stop.1 := by omega
      rw [hclamp] at hv hinside ⊢
      have hv' : ValidTick (stop.1 + 1) := ⟨by have := hv.1; omega, by omega⟩
      refine ⟨?_, hv, hv', le_rfl, by exact_mod_cast sqrtRatio_mono hv hv' (by omega)⟩
      have hgap : liquidityAt args.snapshot.tickData (stop.1 - 1) =
          liquidityAt args.snapshot.tickData state.tick := by
        refine liquidityAt_eq_of_gap (by have := hstop.tick_lt; omega) fun t ht => ?_
        rcases hstop.gap_up t ht with hle | hge
        · exact .inl hle
        · exact .inr (by omega)
      rw [hnet hclamp, hliq, ← hgap, liquidityAt_eq_pred stop.1]

/-- Stopping before the stop: no initialized tick lies between the old tick and the tick
of the new price. -/
theorem SwapArgs.partial_tick {sqrtPriceNext sqrtPrice tick : ℤ} (hinv : args.Inv state)
    (hstop : IsNextStop args.snapshot.tickData args.snapshot.tickSpacing args.zeroForOne
      state.tick stop.1)
    (hnext : getSqrtRatioAtTick (clampTick args.zeroForOne stop.1) = .ok sqrtPriceNext)
    (hmoved : Toward args.zeroForOne state.sqrtPriceX96 sqrtPrice)
    (hshort : Toward args.zeroForOne sqrtPrice sqrtPriceNext) (hne : sqrtPrice ≠ sqrtPriceNext)
    (hne' : sqrtPrice ≠ state.sqrtPriceX96) (htick : IsTickOf sqrtPrice tick) :
    liquidityAt args.snapshot.tickData state.tick =
      liquidityAt args.snapshot.tickData tick := by
  obtain ⟨hv, hv', hlow, hhigh⟩ := priceWithinTick_iff.mp hinv.price_within
  obtain ⟨hvn, rfl⟩ := getSqrtRatioAtTick_eq_ok_iff.mp hnext
  have hle := htick.ratio_le
  have hlt := htick.lt_ratio
  cases hz : args.zeroForOne with
  | true =>
      simp only [hz, Toward, if_true] at hmoved hshort hstop hvn hne
      have habove : clampTick true stop.1 < tick + 1 :=
        (sqrtRatio_lt_iff hvn htick.valid_succ).mp (by omega)
      have hbelow : tick < state.tick + 1 :=
        (sqrtRatio_lt_iff htick.valid hv').mp (by omega)
      simp only [clampTick, if_true] at habove
      refine liquidityAt_eq_of_gap (by omega) fun t ht => ?_
      rcases hstop.gap_down t ht with h | h
      · exact .inl (by omega)
      · exact .inr h
  | false =>
      simp only [hz, Toward, Bool.false_eq_true, if_false] at hmoved hshort hstop hvn hne
      have hbelow : tick < clampTick false stop.1 :=
        (sqrtRatio_lt_iff htick.valid hvn).mp (by omega)
      have habove : state.tick < tick + 1 :=
        (sqrtRatio_lt_iff hv htick.valid_succ).mp (by omega)
      simp only [clampTick, Bool.false_eq_true, if_false] at hbelow
      refine (liquidityAt_eq_of_gap (by omega) fun t ht => ?_).symm
      rcases hstop.gap_up t ht with h | h
      · exact .inl h
      · exact .inr (by omega)

/-- One pass keeps the invariant. -/
theorem SwapArgs.moveTo_inv (hvalid : args.Valid) (hinv : args.Inv state)
    (hguard : args.guard state = true)
    (hstop : IsNextStop args.snapshot.tickData args.snapshot.tickSpacing args.zeroForOne
      state.tick stop.1)
    (hflag : stop.2 = true ↔ stop.1 ∈ args.snapshot.tickData) {ticks : Option TickGen}
    (hwalk : args.WalkAt ticks (advance args.zeroForOne stop.1))
    (h : args.moveTo stop { state with ticks } = .ok state') : args.Inv state' := by
  have hsign : args.SignKept { state with ticks } := hinv.signKept
  have hguard' : args.guard { state with ticks } = true := hguard
  obtain ⟨sqrtPriceNext, step, hnext, hstep, hfinish⟩ := SwapArgs.moveTo_eq_ok h
  obtain ⟨-, -, hprice', hticks'⟩ := finishStep_frame hfinish
  rw [SwapArgs.applyAmounts_sqrtPriceX96] at hprice'
  rw [SwapArgs.applyAmounts_ticks] at hticks'
  have hdir := SwapArgs.toward_stop hinv hstop hnext
  obtain ⟨htarget, htlimit, htnext⟩ := toward_getSqrtPriceTarget hdir hinv.within_limit
  obtain ⟨hmoved, hshort⟩ := (computeSwapStep_spec hstep).toward htarget
  have hlimit := toward_trans hshort htlimit
  have hnextdir := toward_trans hshort htnext
  -- the tick and the liquidity, by the three ends of a pass
  have htick : state'.liquidity = liquidityAt args.snapshot.tickData state'.tick ∧
      PriceWithinTick state'.sqrtPriceX96 state'.tick := by
    by_cases hreached : step.sqrtRatioNextX96 = sqrtPriceNext
    · exact @SwapArgs.reached_inv _ _ _ _ (args.applyAmounts { state with ticks } step) _ hvalid
        (by simpa using hinv.liquidity_eq) hstop hflag hnext (by simpa using hreached)
        (by simpa using hlimit) hfinish
    · have hstate : state'.liquidity = state.liquidity := by
        unfold LiquidityMapSnapshot.finishStep at hfinish
        rw [if_neg (by simpa using hreached)] at hfinish
        split at hfinish
        · obtain ⟨tick, -, hfinish⟩ := bind_eq_ok.mp hfinish
          cases hfinish
          simp
        · cases hfinish
          simp
      by_cases hstart : step.sqrtRatioNextX96 = state.sqrtPriceX96
      · have hsame : state'.tick = state.tick := by
          unfold LiquidityMapSnapshot.finishStep at hfinish
          rw [if_neg (by simpa using hreached), if_neg (by simpa using hstart)] at hfinish
          cases hfinish
          simp
        rw [hstate, hsame, hprice', hstart]
        exact ⟨hinv.liquidity_eq, hinv.price_within⟩
      · have htickof : IsTickOf state'.sqrtPriceX96 state'.tick := by
          unfold LiquidityMapSnapshot.finishStep at hfinish
          rw [if_neg (by simpa using hreached), if_pos (by simpa using hstart)] at hfinish
          obtain ⟨tick, hgettick, hfinish⟩ := bind_eq_ok.mp hfinish
          cases hfinish
          exact (getTickAtSqrtRatio_eq_ok_iff.mp hgettick).2.2
        rw [hprice'] at htickof ⊢
        refine ⟨?_, priceWithinTick_iff.mpr ⟨htickof.valid, htickof.valid_succ,
          htickof.ratio_le, htickof.lt_ratio.le⟩⟩
        rw [hstate, hinv.liquidity_eq]
        exact SwapArgs.partial_tick hinv hstop hnext hmoved hnextdir hreached hstart htickof
  refine ⟨SwapArgs.moveTo_signKept hsign hguard' h, ?_, ?_, htick.1, htick.2, fun hcont => ?_⟩
  · rw [hprice']
    exact toward_trans hinv.moved hmoved
  · rw [hprice']
    exact hlimit
  · obtain ⟨-, -, -, -, hadvance⟩ := SwapArgs.moveTo_continues hvalid hsign hguard' h hcont
    rw [hticks', hadvance]
    exact hwalk

theorem SwapArgs.body_inv (hvalid : args.Valid) (hs : 0 < args.snapshot.tickSpacing)
    (hinv : args.Inv state) (hiter : Iterates args.guard args.body state state') :
    args.Inv state' := by
  obtain ⟨hguard, hbody⟩ := hiter
  obtain ⟨⟨stop, ticks⟩, hnext, hmove⟩ := bind_eq_ok.mp hbody
  obtain ⟨hstop, hflag, hwalk⟩ := SwapArgs.nextTick_spec hs (hinv.walk hguard) hnext
  exact SwapArgs.moveTo_inv hvalid hinv hguard hstop hflag hwalk hmove

/-- The distance, in ticks, to the end of the range in the direction of the swap. -/
def SwapArgs.distance (args : SwapArgs) (state : SwapState) : ℕ :=
  if args.zeroForOne then (state.tick + 887273).toNat else (887272 - state.tick).toNat

/-- When another pass follows, the tick has moved. -/
theorem SwapArgs.distance_lt (hvalid : args.Valid) (hs : 0 < args.snapshot.tickSpacing)
    (hinv : args.Inv state) (hiter : Iterates args.guard args.body state state')
    (hguard' : args.guard state' = true) : args.distance state' < args.distance state := by
  obtain ⟨hguard, hbody⟩ := hiter
  obtain ⟨⟨stop, ticks⟩, hnext, hmove⟩ := bind_eq_ok.mp hbody
  obtain ⟨hstop, -, -⟩ := SwapArgs.nextTick_spec hs (hinv.walk hguard) hnext
  have hsign : args.SignKept { state with ticks } := hinv.signKept
  have hguard'' : args.guard { state with ticks } = true := hguard
  obtain ⟨-, hlow, hhigh, -, htick⟩ :=
    SwapArgs.moveTo_continues hvalid hsign hguard'' hmove hguard'
  unfold SwapArgs.distance
  rw [htick]
  cases hz : args.zeroForOne with
  | true =>
      rw [hz] at hstop
      have hle := hstop.le_tick
      have hgt : -887272 < stop.1 := by
        rcases hlow with hgt | hfalse
        · exact hgt
        · simp [hz] at hfalse
      simp only [advance, if_true]
      omega
  | false =>
      rw [hz] at hstop
      have hlt := hstop.tick_lt
      have htop : stop.1 < 887272 := by
        rcases hhigh with hlt | htrue
        · exact hlt
        · simp [hz] at htrue
      simp only [advance, Bool.false_eq_true, if_false]
      omega

end Pass

/-! ## Whole swaps -/

theorem SwapArgs.initial_inv {args : SwapArgs} (hvalid : args.Valid) (hcons : args.Consistent) :
    args.Inv args.initialState where
  signKept := by
    by_cases hpos : args.amountSpecified > 0
    · simpa [SwapArgs.SignKept, SwapArgs.exactInput, hpos, SwapArgs.initialState] using hpos.le
    · simpa [SwapArgs.SignKept, SwapArgs.exactInput, hpos, SwapArgs.initialState] using
        not_lt.mp hpos
  moved := toward_refl _ _
  within_limit := by
    cases hz : args.zeroForOne with
    | true => simpa [Toward, SwapArgs.initialState] using (hvalid.limit_down hz).2.le
    | false => simpa [Toward, SwapArgs.initialState] using (hvalid.limit_up hz).1.le
  liquidity_eq := hcons.liquidity_eq
  price_within := hcons.price_within
  walk _ := SwapArgs.walkAt_initial hcons.spacing_pos

/-- What a result says about a swap: the specified side stays within the amount, the price
moved towards the limit and not past it, and liquidity, tick and price fit together. -/
structure SwapArgs.Correct (args : SwapArgs) (result : SwapResult) : Prop where
  input_le : 0 < args.amountSpecified →
    (if args.zeroForOne then result.amount0 else result.amount1) ≤ args.amountSpecified
  output_le : args.amountSpecified < 0 →
    -(if args.zeroForOne then result.amount1 else result.amount0) ≤ -args.amountSpecified
  moved : Toward args.zeroForOne args.sqrtPriceX96Start result.sqrtPriceX96
  within_limit : Toward args.zeroForOne result.sqrtPriceX96 args.sqrtPriceLimitX96
  liquidity_eq : result.liquidity = liquidityAt args.snapshot.tickData result.tick
  price_within : PriceWithinTick result.sqrtPriceX96 result.tick

theorem SwapArgs.Inv.correct {args : SwapArgs} {state : SwapState} (hinv : args.Inv state) :
    args.Correct (args.result state) := by
  have hsign := hinv.signKept
  refine ⟨fun hin => ?_, fun hout => ?_, ?_, ?_, ?_, ?_⟩
  · have hexact : args.exactInput = true := by simpa [SwapArgs.exactInput] using hin
    simp only [SwapArgs.SignKept, hexact, if_true] at hsign
    cases hz : args.zeroForOne <;> simp [SwapArgs.result, hexact, hz, hsign]
  · have hexact : args.exactInput = false := by
      simpa [SwapArgs.exactInput] using hout.le
    simp only [SwapArgs.SignKept, hexact, Bool.false_eq_true, if_false] at hsign
    cases hz : args.zeroForOne <;> simp [SwapArgs.result, hexact, hz, hsign]
  · exact hinv.moved
  · exact hinv.within_limit
  · exact hinv.liquidity_eq
  · exact hinv.price_within

theorem SwapArgs.exists_outcome {args : SwapArgs} (hcons : args.Consistent) :
    ∃ fuel outcome, ∀ fuel' ≥ fuel, calculateSwap fuel' args = some outcome := by
  unfold calculateSwap
  cases hcheck : args.check with
  | error e => exact ⟨0, .error e, fun _ _ => rfl⟩
  | ok u =>
      have hvalid := SwapArgs.check_eq_ok_iff.mp hcheck
      obtain ⟨outcome, hloop⟩ := whileLoop_terminates args.distance
        (fun s s' hinv hiter => SwapArgs.body_inv hvalid hcons.spacing_pos hinv hiter)
        (fun s s' hinv hiter hguard' =>
          SwapArgs.distance_lt hvalid hcons.spacing_pos hinv hiter hguard')
        (SwapArgs.initial_inv hvalid hcons) le_rfl
      refine ⟨args.distance args.initialState + 2, outcome.map args.result, fun fuel' hfuel => ?_⟩
      simp only [whileLoop_mono hloop hfuel, Option.map_some]

theorem SwapArgs.correct_of_calculateSwap {args : SwapArgs} {fuel : ℕ} {result : SwapResult}
    (hcons : args.Consistent) (h : calculateSwap fuel args = some (.ok result)) :
    args.Correct result := by
  unfold calculateSwap at h
  cases hcheck : args.check with
  | error e => simp [hcheck] at h
  | ok u =>
      have hvalid := SwapArgs.check_eq_ok_iff.mp hcheck
      simp only [hcheck, Option.map_eq_some_iff] at h
      obtain ⟨outcome, hloop, hresult⟩ := h
      cases outcome with
      | error e => cases hresult
      | ok final =>
          cases hresult
          exact (whileLoop_invariant
            (fun s s' hinv hiter => SwapArgs.body_inv hvalid hcons.spacing_pos hinv hiter)
            (SwapArgs.initial_inv hvalid hcons) hloop).1.correct

/-- A swap over a consistent snapshot terminates, and every result is correct. -/
theorem calculateSwap_terminates_correct {args : SwapArgs} (hcons : args.Consistent) :
    (∃ fuel outcome, ∀ fuel' ≥ fuel, calculateSwap fuel' args = some outcome) ∧
      ∀ fuel result, calculateSwap fuel args = some (.ok result) → args.Correct result :=
  ⟨SwapArgs.exists_outcome hcons, fun _ _ => SwapArgs.correct_of_calculateSwap hcons⟩

theorem calculateSwap_terminates_correct_sample :
    calculateSwap 3 sampleSwap =
        some (.ok ⟨-996, 1000, 79228162514264416584021977057, 10 ^ 18, 0⟩) ∧
      sampleSwap.Correct ⟨-996, 1000, 79228162514264416584021977057, 10 ^ 18, 0⟩ := by
  have hcons : sampleSwap.Consistent := by
    refine ⟨by decide, by decide, ?_⟩
    exact ⟨2 ^ 96, 79232123823359799118286999568, by decide, by decide,
      by decide, by decide⟩
  have hrun : calculateSwap 3 sampleSwap =
      some (.ok ⟨-996, 1000, 79228162514264416584021977057, 10 ^ 18, 0⟩) := by decide
  exact ⟨hrun, (calculateSwap_terminates_correct hcons).2 3 _ hrun⟩

/-! ## Runs of swaps -/

/-- Where a pool stands between two swaps. -/
structure Standing where
  sqrtPriceX96 : ℤ
  tick : ℤ
  liquidity : ℤ

def SwapArgs.standing (args : SwapArgs) : Standing :=
  ⟨args.sqrtPriceX96Start, args.tickStart, args.liquidityStart⟩

/-- One swap of any amount in either direction, over a fixed liquidity map. -/
inductive Moves (snapshot : LiquidityMapSnapshot) : Standing → Standing → Prop where
  | swap {args : SwapArgs} {result : SwapResult} {fuel : ℕ} (hsnapshot : args.snapshot = snapshot)
      (h : calculateSwap fuel args = some (.ok result)) :
      Moves snapshot args.standing ⟨result.sqrtPriceX96, result.tick, result.liquidity⟩

/-- Liquidity, tick and price fit together. -/
structure Standing.Fits (snapshot : LiquidityMapSnapshot) (standing : Standing) : Prop where
  liquidity_eq : standing.liquidity = liquidityAt snapshot.tickData standing.tick
  price_within : PriceWithinTick standing.sqrtPriceX96 standing.tick

theorem Standing.Fits.consistent {snapshot : LiquidityMapSnapshot} {args : SwapArgs}
    (hs : 0 < snapshot.tickSpacing) (hsnapshot : args.snapshot = snapshot)
    (h : args.standing.Fits snapshot) : args.Consistent where
  spacing_pos := by rwa [hsnapshot]
  liquidity_eq := by
    rw [hsnapshot]
    exact h.liquidity_eq
  price_within := h.price_within

theorem Moves.fits {snapshot : LiquidityMapSnapshot} {start stop : Standing}
    (hs : 0 < snapshot.tickSpacing) (hstart : start.Fits snapshot) (h : Moves snapshot start stop) :
    stop.Fits snapshot := by
  cases h with
  | @swap args result fuel hsnapshot h =>
      have hcorrect := SwapArgs.correct_of_calculateSwap (hstart.consistent hs hsnapshot) h
      refine ⟨?_, hcorrect.price_within⟩
      rw [← hsnapshot]
      exact hcorrect.liquidity_eq

/-- Along any run of swaps, in any directions and to any limits, the active liquidity stays the sum
of the nets up to the tick and the price stays within it, and from wherever the run stands every
further swap terminates. Runs that end in one tick leave the same liquidity. -/
theorem moves_run {snapshot : LiquidityMapSnapshot} {start stop : Standing}
    (hs : 0 < snapshot.tickSpacing) (hstart : start.Fits snapshot)
    (hrun : Relation.ReflTransGen (Moves snapshot) start stop) :
    stop.Fits snapshot ∧
    (∀ args : SwapArgs, args.snapshot = snapshot → args.standing = stop →
      ∃ fuel outcome, ∀ fuel' ≥ fuel, calculateSwap fuel' args = some outcome) ∧
    ∀ other, Relation.ReflTransGen (Moves snapshot) start other → other.tick = stop.tick →
      other.liquidity = stop.liquidity := by
  have hfits : ∀ {standing}, Relation.ReflTransGen (Moves snapshot) start standing →
      standing.Fits snapshot := by
    intro standing hreach
    induction hreach with
    | refl => exact hstart
    | tail _ hmove ih => exact hmove.fits hs ih
  have hstop := hfits hrun
  refine ⟨hstop, fun args hsnapshot hstands => ?_, fun other hother htick => ?_⟩
  · exact SwapArgs.exists_outcome ((hstands ▸ hstop : args.standing.Fits snapshot).consistent hs
      hsnapshot)
  · rw [(hfits hother).liquidity_eq, hstop.liquidity_eq, htick]

theorem moves_run_sample : Standing.Fits sampleSwap.snapshot
    ⟨79228162514264416584021977057, 0, 1000000000000000000⟩ := by
  have hrun : calculateSwap 3 sampleSwap =
      some (.ok ⟨-996, 1000, 79228162514264416584021977057, 10 ^ 18, 0⟩) := by decide
  have hstart : sampleSwap.standing.Fits sampleSwap.snapshot := by
    refine ⟨by decide, ?_⟩
    exact ⟨2 ^ 96, 79232123823359799118286999568, by decide, by decide, by decide, by decide⟩
  exact (moves_run (by decide) hstart (.single (@Moves.swap _ sampleSwap _ 3 rfl hrun))).1

end Degenbot.V3
