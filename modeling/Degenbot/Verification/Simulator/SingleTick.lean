import Degenbot.Algorithm.CamelotAdapter
import Degenbot.Verification.Simulator.Splitting
import Degenbot.Verification.Simulator.Progress
import Degenbot.Verification.Simulator.SparseFull
import Degenbot.Verification.SwapMath.Ports

/-! # A swap inside one tick range

The Camelot adapter replaces the walk over the ticks by one step towards the neighbouring
multiple of the spacing. Where that multiple is the right one, the first pass of the V3 loop
makes the same step and is the last. -/

namespace Degenbot

open Library

namespace CamelotV3

/-! ## The range of the current tick -/

/-- A pool that can swap: its price belongs to its tick. -/
structure CamelotV3PoolState.Live (state : CamelotV3PoolState) : Prop where
  liquidity_pos : 0 < state.liquidity
  spacing_pos : 0 < state.tickSpacing
  fee_mem : 0 ≤ state.feePips ∧ state.feePips < 1000000
  price_within : IsTickOf state.sqrtPriceX96 state.tick

/-- The end of the tick-spacing interval of the current tick. -/
def CamelotV3PoolState.edgeTick (state : CamelotV3PoolState) (zeroForOne : Bool) : ℤ :=
  if zeroForOne then state.tick / state.tickSpacing * state.tickSpacing
  else (state.tick / state.tickSpacing + 1) * state.tickSpacing

variable {state : CamelotV3PoolState} {z : Bool}

theorem CamelotV3PoolState.edgeTick_down_le (hs : 0 < state.tickSpacing) :
    state.edgeTick true ≤ state.tick := by
  simpa [edgeTick] using Int.ediv_mul_le state.tick hs.ne'

theorem CamelotV3PoolState.lt_edgeTick_up (hs : 0 < state.tickSpacing) :
    state.tick < state.edgeTick false := by
  simpa [edgeTick] using Int.lt_ediv_add_one_mul_self state.tick hs

/-- The adapter rounds a negative tick between two multiples down once more. -/
theorem CamelotV3PoolState.targetTick_eq (hs : 0 < state.tickSpacing) (z : Bool) :
    state.targetTick z = .ok (if state.tick < 0 ∧ ¬state.tickSpacing ∣ state.tick then
      state.edgeTick z - state.tickSpacing else state.edgeTick z) := by
  have hmod : state.tick.fmod state.tickSpacing ≠ 0 ↔ ¬state.tickSpacing ∣ state.tick := by
    rw [Int.fmod_eq_emod_of_nonneg _ hs.le, ne_eq, Int.dvd_iff_emod_eq_zero]
  simp only [targetTick, floorDivide, hs.ne', if_false, ok_bind,
    Int.fdiv_eq_ediv_of_nonneg _ hs.le, hmod, edgeTick]
  cases z <;> split_ifs <;> simp <;> ring

/-- Every stop of a walk from the current tick lies at the end of the interval or behind it. -/
theorem CamelotV3PoolState.edgeTick_stop {tickData : LiquidityMap} {stop : ℤ}
    (hs : 0 < state.tickSpacing) (haligned : ∀ t ∈ tickData, state.tickSpacing ∣ t)
    (hstop : IsNextStop tickData state.tickSpacing z state.tick stop) :
    if z then stop ≤ state.edgeTick true else state.edgeTick false ≤ stop := by
  have hdvd : state.tickSpacing ∣ stop := by
    have hmem : stop ∈ tickData ∨ stop = boundaryTick state.tickSpacing z state.tick := by
      cases z with
      | true => exact hstop.1.1
      | false => exact hstop.1.1
    rcases hmem with hmem | rfl
    · exact haligned stop hmem
    · cases z <;> simp [boundaryTick]
  obtain ⟨k, rfl⟩ := hdvd
  cases z with
  | true =>
      have hle := hstop.le_tick
      have hk : k ≤ state.tick / state.tickSpacing := by
        rw [Int.le_ediv_iff_mul_le hs]
        linarith
      simp only [if_true, edgeTick]
      nlinarith
  | false =>
      have hlt := hstop.tick_lt
      have hk : state.tick / state.tickSpacing < k := by
        rw [Int.ediv_lt_iff_lt_mul hs]
        linarith
      simp only [Bool.false_eq_true, if_false, edgeTick]
      nlinarith

/-! ## The step of the adapter -/

/-- Where the adapter takes the right interval: its lower tick is rounded once, or token 0
does not pay for the way to that tick. -/
def CamelotV3PoolState.RoundedOnce (state : CamelotV3PoolState) (zeroForOne : Bool)
    (tokenInQuantity : ℤ) : Prop :=
  0 ≤ state.tick ∨ state.tickSpacing ∣ state.tick ∨
    (zeroForOne = true ∧ lessFee tokenInQuantity state.feePips <
      inputAmount true state.liquidity state.sqrtPriceX96 (sqrtRatio (state.edgeTick true)))

/-- A step that ends strictly inside the interval, after the whole input. -/
structure CamelotV3PoolState.EndsInside (state : CamelotV3PoolState) (z : Bool)
    (tokenInQuantity : ℤ) (step : SwapStep) : Prop where
  edge_valid : ValidTick (state.edgeTick z)
  quantity_le : tokenInQuantity ≤ maxUint256
  less_nonneg : 0 ≤ lessFee tokenInQuantity state.feePips
  short : lessFee tokenInQuantity state.feePips < inputAmount z state.liquidity
    state.sqrtPriceX96 (sqrtRatio (state.edgeTick z))
  next_ok : V3.getNextSqrtPriceFromInput state.sqrtPriceX96 state.liquidity
    (lessFee tokenInQuantity state.feePips) z = .ok step.sqrtRatioNextX96
  next_eq : step.sqrtRatioNextX96 = priceFromInput z state.sqrtPriceX96 state.liquidity
    (lessFee tokenInQuantity state.feePips)
  moved : Toward z state.sqrtPriceX96 step.sqrtRatioNextX96
  inside : Toward z step.sqrtRatioNextX96 (sqrtRatio (state.edgeTick z))
  next_ne : step.sqrtRatioNextX96 ≠ sqrtRatio (state.edgeTick z)
  amountOut_eq : step.amountOut = outputAmount z state.liquidity state.sqrtPriceX96
    step.sqrtRatioNextX96
  /-- At the lowest price of all, the input is far below 256 bits. -/
  exact_bottom : z = true → (sqrtRatio (state.edgeTick z) : ℤ) = minSqrtRatio →
    lessFee tokenInQuantity state.feePips * state.sqrtPriceX96 < maxUint256

/-- The tick that the adapter uses, and what separates it from the end of the interval. -/
theorem CamelotV3PoolState.targetTick_cases {tokenInQuantity targetTick : ℤ}
    (hlive : state.Live) (hround : state.RoundedOnce z tokenInQuantity)
    (h : state.targetTick z = .ok targetTick) (hvalid : ValidTick targetTick) :
    ValidTick (state.edgeTick z) ∧
      (targetTick = state.edgeTick z ∧ (0 ≤ state.tick ∨ state.tickSpacing ∣ state.tick) ∨
        targetTick < state.edgeTick z ∧ z = true ∧ lessFee tokenInQuantity state.feePips <
          inputAmount true state.liquidity state.sqrtPriceX96
            (sqrtRatio (state.edgeTick true))) := by
  have hs := hlive.spacing_pos
  obtain ⟨hlow, hhigh⟩ := hlive.price_within.valid
  rw [targetTick_eq hs, Except.ok.injEq] at h
  by_cases hskewed : state.tick < 0 ∧ ¬state.tickSpacing ∣ state.tick
  · rw [if_pos hskewed] at h
    obtain ⟨rfl, hshort⟩ : z = true ∧ lessFee tokenInQuantity state.feePips <
        inputAmount true state.liquidity state.sqrtPriceX96
          (sqrtRatio (state.edgeTick true)) := by
      rcases hround with hnn | hdvd | hdown
      · exact absurd hskewed.1 (not_lt.mpr hnn)
      · exact absurd hdvd hskewed.2
      · exact hdown
    have hle := state.edgeTick_down_le hs
    obtain ⟨hlow', -⟩ := hvalid
    exact ⟨⟨by omega, by omega⟩, .inr ⟨by omega, rfl, hshort⟩⟩
  · rw [if_neg hskewed] at h
    subst h
    refine ⟨hvalid, .inl ⟨rfl, ?_⟩⟩
    rw [not_and_or, not_lt, not_not] at hskewed
    exact hskewed

/-- The lower end of an interval has the lowest price of all only for the lowest tick. -/
theorem CamelotV3PoolState.tick_eq_of_bottom (hlive : state.Live)
    (hround : 0 ≤ state.tick ∨ state.tickSpacing ∣ state.tick)
    (hvalid : ValidTick (state.edgeTick true))
    (hbottom : (sqrtRatio (state.edgeTick true) : ℤ) = minSqrtRatio) : state.tick = -887272 := by
  have hs := hlive.spacing_pos
  have hedge : state.edgeTick true = -887272 := by
    by_contra hne
    have hgt : -887272 < state.edgeTick true := lt_of_le_of_ne hvalid.1 (Ne.symm hne)
    have hlt := sqrtRatio_strictMono (by decide : ValidTick (-887272)) hvalid hgt
    have hmin := sqrtRatio_minTick
    omega
  rcases hround with hnn | hdvd
  · have hfloor : 0 ≤ state.tick / state.tickSpacing := Int.ediv_nonneg hnn hs.le
    have hprod := mul_nonneg hfloor hs.le
    simp only [edgeTick, if_true] at hedge
    omega
  · simp only [edgeTick, if_true, Int.ediv_mul_cancel hdvd] at hedge
    exact hedge

theorem CamelotV3PoolState.swapStep_endsInside {tokenInQuantity targetTick target : ℤ}
    {step : SwapStep} (hlive : state.Live) (hpos : 0 < tokenInQuantity)
    (hround : state.RoundedOnce z tokenInQuantity)
    (h : state.swapStep z tokenInQuantity = .ok (targetTick, target, step))
    (hne : step.sqrtRatioNextX96 ≠ target) : state.EndsInside z tokenInQuantity step := by
  have hs := hlive.spacing_pos
  have hwithin := hlive.price_within
  simp only [swapStep, bind_eq_ok, Except.ok.injEq, Prod.mk.injEq] at h
  obtain ⟨targetTick', htick, target', hratio, step', hstep, rfl, rfl, rfl⟩ := h
  obtain ⟨hvalid, rfl⟩ := V3.getSqrtRatioAtTick_eq_ok_iff.mp hratio
  obtain ⟨hedge, hcases⟩ := targetTick_cases hlive hround htick hvalid
  -- the target lies on the far side of the price
  have hside : if z then (sqrtRatio targetTick' : ℤ) ≤ state.sqrtPriceX96
      else state.sqrtPriceX96 < sqrtRatio targetTick' := by
    cases z with
    | true =>
        have hle := state.edgeTick_down_le hs
        have hmono := sqrtRatio_mono hvalid hwithin.valid (by omega)
        have hlow := hwithin.ratio_le
        simp only [if_true]
        omega
    | false =>
        have hlt := state.lt_edgeTick_up hs
        have htarget : state.tick + 1 ≤ targetTick' := by
          rcases hcases with ⟨rfl, -⟩ | ⟨-, hfalse, -⟩
          · exact hlt
          · cases hfalse
        have hmono := sqrtRatio_mono hwithin.valid_succ hvalid htarget
        have hhigh := hwithin.lt_ratio
        simp only [Bool.false_eq_true, if_false]
        omega
  have hdir : Toward z state.sqrtPriceX96 (sqrtRatio targetTick') := by
    cases z with
    | true => simpa [Toward] using hside
    | false => simpa [Toward] using hside.le
  have hz : decide (state.sqrtPriceX96 ≥ sqrtRatio targetTick') = z := by
    cases z with
    | true => simpa using hside
    | false => simpa using hside
  obtain ⟨hmax, hnext, hN⟩ := V3.computeSwapStep_short hpos.le hstep hne
  rw [hz] at hnext
  obtain ⟨⟨-, hc, -, hless⟩, hspends⟩ := V3.computeSwapStep_spends hpos.le hdir hstep
  have hedgePos : (0 : ℤ) < sqrtRatio (state.edgeTick z) :=
    lt_of_lt_of_le (by decide) (sqrtRatio_mem hedge).1
  have hmin := (sqrtRatio_mem hvalid).1
  cases hspends with
  | full => exact absurd rfl hne
  | short hL hshort hne' hmoved hrest =>
      rcases hcases with ⟨rfl, hrounded⟩ | ⟨hlt, rfl, hshort'⟩
      · refine ⟨hedge, hmax, hless, hshort, hnext, rfl, hmoved, hrest, hne, rfl, ?_⟩
        rintro rfl hbottom
        have htick := tick_eq_of_bottom hlive hrounded hedge hbottom
        have hhigh := hwithin.lt_ratio
        have hprice : (sqrtRatio (-887272 + 1) : ℤ) = 4295343490 := by decide
        rw [htick, hprice] at hhigh
        have hpaid := mt (inputAmount_le_iff hc hedgePos).mpr (not_le.mpr hshort)
        have hfits := hN (by simpa using hside)
        rw [hbottom] at hpaid
        simp only [if_true, not_le] at hpaid
        have hbound : state.liquidity * q96 * (state.sqrtPriceX96 - minSqrtRatio) ≤
            maxUint256 * minSqrtRatio := by
          apply mul_le_mul hfits _ _ (by decide)
          · simp only [minSqrtRatio]
            omega
          · rw [← hbottom]
            simp only [Toward, if_true] at hdir
            linarith
        have hscaled : lessFee tokenInQuantity state.feePips * state.sqrtPriceX96 * minSqrtRatio <
            maxUint256 * minSqrtRatio := by linarith
        exact lt_of_mul_lt_mul_right hscaled (by decide)
      · have hgt := lt_priceFromInput_down hL hc hedgePos hless hshort'
        refine ⟨hedge, hmax, hless, hshort', hnext, rfl, hmoved, ?_, hgt.ne', rfl, ?_⟩
        · simpa [Toward] using hgt.le
        · rintro - hbottom
          have hstrict := sqrtRatio_strictMono hvalid hedge hlt
          omega

/-! ## The first pass of the V3 loop -/

/-- An exact input to `calculate_swap` on a consistent snapshot of the same pool. The limit is
the one a pool passes on when none is given. -/
structure CamelotV3PoolState.SnapshotOf (state : CamelotV3PoolState) (z : Bool)
    (tokenInQuantity : ℤ) (args : V3.SwapArgs) : Prop where
  consistent : args.Consistent
  map_consistent : args.ConsistentMap
  spacing_eq : args.snapshot.tickSpacing = state.tickSpacing
  zeroForOne_eq : args.zeroForOne = z
  amount_eq : args.amountSpecified = tokenInQuantity
  limit_eq : args.sqrtPriceLimitX96 = if z then minSqrtRatio + 1 else maxSqrtRatio - 1
  fee_eq : args.fee = state.feePips
  liquidity_eq : args.liquidityStart = state.liquidity
  price_eq : args.sqrtPriceX96Start = state.sqrtPriceX96
  tick_eq : args.tickStart = state.tick

section Pass

variable {tokenInQuantity stop : ℤ} {step : SwapStep} {args : V3.SwapArgs}

/-- The price of the first stop lies at the end of the interval or behind it. -/
theorem CamelotV3PoolState.SnapshotOf.toward_stop (hsnap : state.SnapshotOf z tokenInQuantity args)
    (hs : 0 < state.tickSpacing) (hedge : ValidTick (state.edgeTick z))
    (hstop : IsNextStop args.snapshot.tickData state.tickSpacing z state.tick stop) :
    ValidTick (clampTick z stop) ∧
      Toward z (sqrtRatio (state.edgeTick z)) (sqrtRatio (clampTick z stop)) := by
  have haligned : ∀ t ∈ args.snapshot.tickData, state.tickSpacing ∣ t := by
    rw [← hsnap.spacing_eq]
    exact hsnap.map_consistent.aligned
  have hfar := edgeTick_stop hs haligned hstop
  obtain ⟨hlow, hhigh⟩ := hedge
  cases z with
  | true =>
      simp only [if_true, clampTick, Toward] at hfar ⊢
      have hvalid : ValidTick (max (-887272) stop) := ⟨by omega, by omega⟩
      exact ⟨hvalid, by exact_mod_cast sqrtRatio_mono hvalid ⟨hlow, hhigh⟩ (by omega)⟩
  | false =>
      simp only [Bool.false_eq_true, if_false, clampTick, Toward] at hfar ⊢
      have hvalid : ValidTick (min 887272 stop) := ⟨by omega, by omega⟩
      exact ⟨hvalid, by exact_mod_cast sqrtRatio_mono ⟨hlow, hhigh⟩ hvalid (by omega)⟩

/-- The target of the first pass: behind the interval, or the limit at the very end of it. -/
theorem CamelotV3PoolState.EndsInside.target_cases (hins : state.EndsInside z tokenInQuantity step)
    (hsnap : state.SnapshotOf z tokenInQuantity args) (hs : 0 < state.tickSpacing)
    (hstop : IsNextStop args.snapshot.tickData state.tickSpacing z state.tick stop) :
    Toward z step.sqrtRatioNextX96 (args.targetOf stop) ∧
      (Toward z (sqrtRatio (state.edgeTick z)) (args.targetOf stop) ∨
        (z = true → (sqrtRatio (state.edgeTick z) : ℤ) = minSqrtRatio)) := by
  obtain ⟨hvalid, hfar⟩ := hsnap.toward_stop hs hins.edge_valid hstop
  have hmin := (sqrtRatio_mem hins.edge_valid).1
  have hmax := (sqrtRatio_mem hins.edge_valid).2
  have hinside := hins.inside
  have hne := hins.next_ne
  have hlimit := hsnap.limit_eq
  unfold V3.SwapArgs.targetOf V3.getSqrtPriceTarget
  rw [hsnap.zeroForOne_eq]
  cases z with
  | true =>
      simp only [if_true, Toward, true_and, not_true_eq_false, false_and, or_false] at *
      split_ifs with hbeyond
      · refine ⟨by omega, ?_⟩
        by_cases hlow : (sqrtRatio (state.edgeTick true) : ℤ) = minSqrtRatio
        · exact .inr fun _ => hlow
        · exact .inl (by omega)
      · exact ⟨by omega, .inl hfar⟩
  | false =>
      simp only [Bool.false_eq_true, if_false, Toward, false_and, not_false_eq_true, true_and,
        false_or] at *
      split_ifs with hbeyond
      · exact ⟨by omega, .inr fun hz => hz.elim⟩
      · exact ⟨by omega, .inl hfar⟩

/-- The pass cannot pay for a target behind the interval, and ends where the adapter does. -/
theorem CamelotV3PoolState.EndsInside.next_unique {pass : SwapStep} (hlive : state.Live)
    (hins : state.EndsInside z tokenInQuantity step)
    (hsnap : state.SnapshotOf z tokenInQuantity args)
    (hstop : IsNextStop args.snapshot.tickData state.tickSpacing z state.tick stop)
    (htarget : 0 < args.targetOf stop)
    (hspends : V3.Spends z state.liquidity state.sqrtPriceX96 (args.targetOf stop)
      tokenInQuantity state.feePips pass) : pass.sqrtRatioNextX96 = step.sqrtRatioNextX96 := by
  obtain ⟨hto, hcases⟩ := hins.target_cases hsnap hlive.spacing_pos hstop
  have hL := hlive.liquidity_pos
  have hc : 0 < state.sqrtPriceX96 :=
    lt_of_lt_of_le (by decide)
      ((sqrtRatio_mem hlive.price_within.valid).1.trans hlive.price_within.ratio_le)
  have hedgePos : (0 : ℤ) < sqrtRatio (state.edgeTick z) :=
    lt_of_lt_of_le (by decide) (sqrtRatio_mem hins.edge_valid).1
  cases hspends with
  | short => exact hins.next_eq.symm
  | full hpaid =>
      rcases hcases with hbehind | hbottom
      · have hmono := inputAmount_mono hL.le hc hedgePos htarget
          (V3.toward_trans hins.moved hins.inside) hbehind
        have hshort := hins.short
        omega
      · have hback := toward_priceFromInput hL hc htarget hins.less_nonneg
          (fun hz => hins.exact_bottom hz (hbottom hz)) hpaid
        rw [← hins.next_eq] at hback
        change args.targetOf stop = step.sqrtRatioNextX96
        cases z <;> simp only [Toward, if_true, Bool.false_eq_true, if_false] at hto hback <;> omega

/-! ## Whole swaps -/

theorem CamelotV3PoolState.SnapshotOf.exactInput (hpos : 0 < tokenInQuantity)
    (hsnap : state.SnapshotOf z tokenInQuantity args) : args.exactInput = true := by
  simpa [V3.SwapArgs.exactInput, hsnap.amount_eq] using hpos

/-- The loop begins with a pass. -/
theorem CamelotV3PoolState.SnapshotOf.guard (hpos : 0 < tokenInQuantity)
    (hsnap : state.SnapshotOf z tokenInQuantity args) (hvalid : args.Valid) :
    args.guard args.initialState = true := by
  rw [V3.SwapArgs.guard_iff]
  refine ⟨by rw [V3.SwapArgs.initialState, hsnap.amount_eq]; exact hpos.ne', ?_⟩
  change args.sqrtPriceX96Start ≠ args.sqrtPriceLimitX96
  cases hz : args.zeroForOne with
  | true => exact (hvalid.limit_down hz).2.ne'
  | false => exact (hvalid.limit_up hz).1.ne

/-- The first pass is the last one and pays out what the adapter says. -/
theorem CamelotV3PoolState.EndsInside.pass (hlive : state.Live) (hpos : 0 < tokenInQuantity)
    (hins : state.EndsInside z tokenInQuantity step)
    (hsnap : state.SnapshotOf z tokenInQuantity args) (hvalid : args.Valid) {next : SwapState}
    (hbody : args.body args.initialState = .ok next) :
    args.guard next = false ∧ next.sqrtPriceX96 = step.sqrtRatioNextX96 ∧
      V3.gained args.initialState next = step.amountOut := by
  have hinv := V3.SwapArgs.initial_inv hvalid hsnap.consistent
  obtain ⟨stop, pass, hpass⟩ := V3.SwapArgs.body_exactInput hsnap.consistent.spacing_pos
    (hsnap.exactInput hpos) hinv ⟨hsnap.guard hpos hvalid, hbody⟩
  have hstop := hpass.next_stop
  have hspends := hpass.spends
  have hout := hpass.amountOut_eq
  simp only [V3.SwapArgs.initialState, hsnap.spacing_eq, hsnap.zeroForOne_eq, hsnap.tick_eq,
    hsnap.liquidity_eq, hsnap.price_eq, hsnap.amount_eq, hsnap.fee_eq] at hstop hspends hout
  have hnext := hins.next_unique hlive hsnap hstop hpass.target_pos hspends
  refine ⟨?_, hpass.price_eq.trans hnext, ?_⟩
  · rw [Bool.eq_false_iff, ne_eq, V3.SwapArgs.guard_iff, hpass.price_eq]
    rintro ⟨hrem, hlimit⟩
    rcases hpass.ends with ⟨hpaid, -, -, hto, -⟩ | ⟨-, -, -, -, -, hzero⟩
    · -- a pass that pays for its target ends on the limit
      simp only [V3.SwapArgs.initialState, hsnap.zeroForOne_eq, hsnap.liquidity_eq,
        hsnap.price_eq, hsnap.amount_eq, hsnap.fee_eq] at hpaid
      have hinside := hins.inside
      have hne := hins.next_ne
      obtain ⟨-, hfar⟩ := hsnap.toward_stop hlive.spacing_pos hins.edge_valid hstop
      rw [hto] at hlimit hnext
      unfold V3.SwapArgs.targetOf V3.getSqrtPriceTarget at hlimit hnext
      rw [hsnap.zeroForOne_eq] at hlimit hnext
      split_ifs at hlimit hnext with hbeyond
      · exact hlimit rfl
      · rw [← hnext] at hinside hne
        cases z <;> simp only [Toward, if_true, Bool.false_eq_true, if_false] at hinside hfar <;>
          omega
    · exact hrem hzero
  · have hcalc := hpass.calculated_eq
    rw [hout, hnext, ← hins.amountOut_eq] at hcalc
    rw [V3.gained, hcalc]
    ring

theorem CamelotV3PoolState.EndsInside.agrees (hlive : state.Live) (hpos : 0 < tokenInQuantity)
    (hins : state.EndsInside z tokenInQuantity step)
    (hsnap : state.SnapshotOf z tokenInQuantity args) {fuel : ℕ} {result : SwapResult}
    (h : V3.calculateSwap fuel args = some (.ok result)) :
    args.outputOf result = step.amountOut ∧ result.sqrtPriceX96 = step.sqrtRatioNextX96 := by
  obtain ⟨hvalid, final, hrun, rfl⟩ := V3.calculateSwap_eq_ok h
  rcases V3.run_cases hrun with ⟨hfalse, -⟩ | ⟨next, rest, -, hiter, hrest⟩
  · rw [hsnap.guard hpos hvalid] at hfalse
    cases hfalse
  · obtain ⟨hguard, hprice, hgained⟩ := hins.pass hlive hpos hsnap hvalid hiter.2
    obtain rfl : final = next := Except.ok.inj (whileLoop_eq_of_exit hguard hrest)
    rw [V3.SwapArgs.outputOf_exactInput (hsnap.exactInput hpos)]
    exact ⟨hgained, hprice⟩

/-- The first search of the swap finds a stop. -/
theorem nextTick_initial_ok {args : V3.SwapArgs} (hs : 0 < args.snapshot.tickSpacing)
    (hword : args.snapshot.sparse = true → touchedWord args.snapshot.tickSpacing args.zeroForOne
      args.tickStart ∈ args.snapshot.tickBitmap) :
    ∃ stop, args.snapshot.nextTick args.zeroForOne args.initialState = .ok stop := by
  simp only [LiquidityMapSnapshot.nextTick, V3.SwapArgs.initialState,
    LiquidityMapSnapshot.ticksAlongPath]
  by_cases hsparse : args.snapshot.sparse = true
  · obtain ⟨next, -, hok⟩ :=
      nextInitializedTickWithinOneWord_spec args.snapshot.tickData hs (hword hsparse)
    simp [hsparse, Except.toOption, LiquidityMapSnapshot.nextInitializedTick, hok]
  · simp [hsparse, Except.toOption]

/-- The V3 step of the first pass. -/
theorem CamelotV3PoolState.EndsInside.computeSwapStep_ok (hlive : state.Live)
    (hpos : 0 < tokenInQuantity) (hL : state.liquidity ≤ maxUint128)
    (hins : state.EndsInside z tokenInQuantity step)
    (hsnap : state.SnapshotOf z tokenInQuantity args) (hvalid : args.Valid)
    (hstop : IsNextStop args.snapshot.tickData state.tickSpacing z state.tick stop) :
    ∃ pass, V3.computeSwapStep state.sqrtPriceX96 (args.targetOf stop) state.liquidity
      tokenInQuantity state.feePips = .ok pass := by
  obtain ⟨hto, -⟩ := hins.target_cases hsnap hlive.spacing_pos hstop
  obtain ⟨hvalidStop, hfar⟩ := hsnap.toward_stop hlive.spacing_pos hins.edge_valid hstop
  obtain ⟨hplow, hphigh⟩ := hsnap.price_eq ▸ hsnap.consistent.price_within.mem
  obtain ⟨hslow, hshigh⟩ := sqrtRatio_mem hvalidStop
  have hlimit := hsnap.limit_eq
  have hdown := hvalid.limit_down
  have hup := hvalid.limit_up
  rw [hsnap.zeroForOne_eq, hsnap.price_eq] at hdown hup
  have hmoved := hins.moved
  have hinside := hins.inside
  have hne := hins.next_ne
  have hrange : minSqrtRatio ≤ args.targetOf stop ∧ args.targetOf stop ≤ maxSqrtRatio ∧
      decide (state.sqrtPriceX96 ≥ args.targetOf stop) = z := by
    unfold V3.SwapArgs.targetOf V3.getSqrtPriceTarget at hto ⊢
    rw [hsnap.zeroForOne_eq] at hto ⊢
    cases z with
    | true =>
        simp only [if_true, Toward, true_and, not_true_eq_false, false_and, or_false,
          forall_const, decide_eq_true_eq] at *
        split_ifs <;> omega
    | false =>
        simp only [Bool.false_eq_true, if_false, Toward, false_and, not_false_eq_true, true_and,
          false_or, forall_const, decide_eq_false_iff_not] at *
        split_ifs <;> omega
  obtain ⟨htlow, hthigh, hz⟩ := hrange
  have hmin : 0 < minSqrtRatio := by decide
  have hmax : maxSqrtRatio ≤ maxUint160 := by decide
  have hbounds : StepBounds state.sqrtPriceX96 (args.targetOf stop) state.liquidity
      state.feePips :=
    ⟨⟨hlive.liquidity_pos.le, hL⟩, ⟨by omega, by omega⟩, ⟨by omega, by omega⟩, hplow, htlow,
      hlive.fee_mem⟩
  by_cases hreach : inputAmount z state.liquidity state.sqrtPriceX96 (args.targetOf stop) ≤
      lessFee tokenInQuantity state.feePips
  · exact ⟨_, V3.computeSwapStep_input_reached hbounds hz hpos hins.quantity_le hreach⟩
  · have hdir : Toward z state.sqrtPriceX96 (args.targetOf stop) :=
      V3.toward_trans hins.moved hto
    obtain ⟨hne', -, -⟩ :=
      hbounds.priceFromInput_toward hdir hins.less_nonneg (not_le.mp hreach)
    rw [← hins.next_eq] at hne'
    exact ⟨_, V3.computeSwapStep_input_partial hbounds hz hpos hins.quantity_le
      (not_le.mp hreach) hins.next_ok hne' hins.moved hto⟩

theorem CamelotV3PoolState.EndsInside.delivered (hlive : state.Live) (hpos : 0 < tokenInQuantity)
    (hL : state.liquidity ≤ maxUint128) (hins : state.EndsInside z tokenInQuantity step)
    (hsnap : state.SnapshotOf z tokenInQuantity args) (hvalid : args.Valid)
    (hword : args.snapshot.sparse = true →
      touchedWord state.tickSpacing z state.tick ∈ args.snapshot.tickBitmap) :
    ∃ fuel result, V3.calculateSwap fuel args = some (.ok result) := by
  have hs := hsnap.consistent.spacing_pos
  have hinv := V3.SwapArgs.initial_inv hvalid hsnap.consistent
  have hguard := hsnap.guard hpos hvalid
  rw [← hsnap.spacing_eq, ← hsnap.zeroForOne_eq, ← hsnap.tick_eq] at hword
  obtain ⟨⟨stop, ticks⟩, hnextTick⟩ := nextTick_initial_ok hs hword
  obtain ⟨hstop, -, -⟩ := V3.SwapArgs.nextTick_spec hs (hinv.walk hguard) hnextTick
  simp only [V3.SwapArgs.initialState, hsnap.spacing_eq, hsnap.zeroForOne_eq, hsnap.tick_eq]
    at hstop
  obtain ⟨pass, hpass⟩ := hins.computeSwapStep_ok hlive hpos hL hsnap hvalid hstop
  have hstep : V3.computeSwapStep args.sqrtPriceX96Start (args.targetOf stop.1)
      args.liquidityStart args.amountSpecified args.fee = .ok pass := by
    rw [hsnap.price_eq, hsnap.liquidity_eq, hsnap.amount_eq, hsnap.fee_eq]
    exact hpass
  obtain ⟨next, hbody⟩ := V3.SwapArgs.body_exists hvalid hs hinv hguard hnextTick hstep
  obtain ⟨hexit, -⟩ := hins.pass hlive hpos hsnap hvalid hbody
  refine ⟨2, args.result next, ?_⟩
  rw [V3.calculateSwap, V3.SwapArgs.check_eq_ok_iff.mpr hvalid]
  simp only [whileLoop_step 1 hguard hbody, whileLoop_exit 0 hexit, Option.map_some, Except.map]

end Pass

/-! ## The adapter -/

section Adapter

variable {tokenInQuantity : ℤ} {step : SwapStep}

/-- The tick of the price that the step reaches belongs to the interval. -/
theorem CamelotV3PoolState.EndsInside.tick_eq (hlive : state.Live)
    (hins : state.EndsInside z tokenInQuantity step) :
    ∃ tick, V3.getTickAtSqrtRatio step.sqrtRatioNextX96 = .ok tick ∧
      tick.fdiv state.tickSpacing = state.tick.fdiv state.tickSpacing := by
  have hs := hlive.spacing_pos
  obtain ⟨hv, hv', hlow, hhigh⟩ := hlive.price_within
  have hedge := hins.edge_valid
  have hmoved := hins.moved
  have hinside := hins.inside
  have hne := hins.next_ne
  have hmin := (sqrtRatio_mem hv).1
  have hmax := (sqrtRatio_mem hv').2
  have hedgeMin := (sqrtRatio_mem hedge).1
  have hedgeMax := (sqrtRatio_mem hedge).2
  have hrange : minSqrtRatio ≤ step.sqrtRatioNextX96 ∧ step.sqrtRatioNextX96 < maxSqrtRatio := by
    cases z <;> simp only [Toward, if_true, Bool.false_eq_true, if_false] at hmoved hinside <;>
      omega
  obtain ⟨tick, htick, hof⟩ := V3.getTickAtSqrtRatio_eq hrange.1 hrange.2
  have hratio := hof.ratio_le
  have hratio' := hof.lt_ratio
  have hfloor := Int.ediv_mul_le state.tick hs.ne'
  have hceil := Int.lt_ediv_add_one_mul_self state.tick hs
  have hbetween : state.tick / state.tickSpacing * state.tickSpacing ≤ tick ∧
      tick < (state.tick / state.tickSpacing + 1) * state.tickSpacing := by
    cases z with
    | true =>
        simp only [Toward, if_true, CamelotV3PoolState.edgeTick] at hmoved hinside hne hedge
        have habove := (V3.sqrtRatio_lt_iff hedge hof.valid_succ).mp (by omega)
        have hbelow := (V3.sqrtRatio_lt_iff hof.valid hv').mp (by omega)
        exact ⟨by omega, by omega⟩
    | false =>
        simp only [Toward, Bool.false_eq_true, if_false, CamelotV3PoolState.edgeTick]
          at hmoved hinside hne hedge
        have habove := (V3.sqrtRatio_lt_iff hv hof.valid_succ).mp (by omega)
        have hbelow := (V3.sqrtRatio_lt_iff hof.valid hedge).mp (by omega)
        exact ⟨by omega, by omega⟩
  refine ⟨tick, htick, ?_⟩
  rw [Int.fdiv_eq_ediv_of_nonneg _ hs.le, Int.fdiv_eq_ediv_of_nonneg _ hs.le,
    Int.ediv_eq_iff_of_pos hs]
  exact ⟨hbetween.1, by linarith [hbetween.2]⟩

/-- A swap that stays inside the interval of its tick, and is the swap of V3. -/
structure CamelotV3PoolState.SingleTickSwap (state : CamelotV3PoolState) (z : Bool)
    (tokenInQuantity : ℤ) (step : SwapStep) : Prop where
  stays : ∃ tick, V3.getTickAtSqrtRatio step.sqrtRatioNextX96 = .ok tick ∧
    tick.fdiv state.tickSpacing = state.tick.fdiv state.tickSpacing
  agrees : ∀ args fuel result, state.SnapshotOf z tokenInQuantity args →
    V3.calculateSwap fuel args = some (.ok result) →
      args.outputOf result = step.amountOut ∧ result.sqrtPriceX96 = step.sqrtRatioNextX96
  /-- V3 has a result wherever its own checks pass and the first word is known. -/
  delivered : ∀ args, state.SnapshotOf z tokenInQuantity args → args.Valid →
    state.liquidity ≤ maxUint128 → (args.snapshot.sparse = true →
      touchedWord state.tickSpacing z state.tick ∈ args.snapshot.tickBitmap) →
    ∃ fuel result, V3.calculateSwap fuel args = some (.ok result)

variable {toChecksumAddress : String → Except Exn String} {pool : CamelotV3Pool}
  {tokenIn : String} {overrideState : Option CamelotV3PoolState} {amount : ℤ}

theorem CamelotV3Pool.calculateTokensOut_eq_ok
    (h : pool.calculateTokensOutFromTokensIn toChecksumAddress tokenIn tokenInQuantity
      overrideState = .ok amount) (hz : pool.zeroForOne toChecksumAddress tokenIn = .ok z) :
    0 < tokenInQuantity ∧ ∃ targetTick target step,
      (overrideState.getD pool.state).swapStep z tokenInQuantity =
        .ok (targetTick, target, step) ∧
      step.sqrtRatioNextX96 ≠ target ∧ step.amountOut = amount := by
  unfold calculateTokensOutFromTokensIn at h
  rw [hz] at h
  obtain ⟨hpos, h⟩ := ite_error_eq_ok.mp h
  dsimp only at h
  rw [ok_bind] at h
  obtain ⟨-, h⟩ := ite_error_eq_ok.mp h
  obtain ⟨⟨targetTick, target, step⟩, hstep, h⟩ := bind_eq_ok.mp h
  obtain ⟨hne, h⟩ := ite_error_eq_ok.mp h
  refine ⟨not_le.mp hpos, targetTick, target, step, ?_, hne, Except.ok.inj h⟩
  cases hswap : (overrideState.getD pool.state).swapStep z tokenInQuantity with
  | error e =>
      rw [hswap] at hstep
      cases hstep
  | ok found =>
      rw [hswap] at hstep
      cases hstep
      rfl

/-- Where the lower tick is rounded once, the amount is that of a V3 swap which stays inside
the interval of the current tick. -/
theorem CamelotV3Pool.calculateTokensOut_singleTick
    (hlive : (overrideState.getD pool.state).Live)
    (hz : pool.zeroForOne toChecksumAddress tokenIn = .ok z)
    (hround : (overrideState.getD pool.state).RoundedOnce z tokenInQuantity)
    (h : pool.calculateTokensOutFromTokensIn toChecksumAddress tokenIn tokenInQuantity
      overrideState = .ok amount) :
    ∃ targetTick target step,
      (overrideState.getD pool.state).swapStep z tokenInQuantity =
        .ok (targetTick, target, step) ∧ step.amountOut = amount ∧
      (overrideState.getD pool.state).SingleTickSwap z tokenInQuantity step := by
  obtain ⟨hpos, targetTick, target, step, hstep, hne, hout⟩ := calculateTokensOut_eq_ok h hz
  have hins := CamelotV3PoolState.swapStep_endsInside hlive hpos hround hstep hne
  refine ⟨targetTick, target, step, hstep, hout, hins.tick_eq hlive, ?_, ?_⟩
  · intro args fuel result hsnap hrun
    exact hins.agrees hlive hpos hsnap hrun
  · intro args hsnap hvalid hL hword
    exact hins.delivered hlive hpos hL hsnap hvalid hword

end Adapter

/-! ## A sample pool -/

/-- A pool at a tick and its lowest price, with the liquidity of `sampleSwap`. -/
def samplePool (sqrtPriceX96 tick : ℤ) : CamelotV3Pool where
  address := "pool"
  token0 := "token0"
  token1 := "token1"
  state := ⟨sqrtPriceX96, tick, 10 ^ 18, 3000, 60⟩

/-- At tick 0 the adapter pays what V3 does, and so it does from tick -30 for an input of token 0
that does not pay for the way to the next tick below. -/
theorem CamelotV3Pool.calculateTokensOut_singleTick_sample :
    ((samplePool (2 ^ 96) 0).calculateTokensOutFromTokensIn .ok "token1" 1000 none = .ok 996 ∧
      ∃ targetTick target step,
        (samplePool (2 ^ 96) 0).state.swapStep false 1000 = .ok (targetTick, target, step) ∧
        step.amountOut = 996 ∧
        (samplePool (2 ^ 96) 0).state.SingleTickSwap false 1000 step) ∧
    (samplePool 79109415290437042302807587396 (-30)).calculateTokensOutFromTokensIn .ok "token0"
        1000 none = .ok 994 ∧
      ∃ targetTick target step,
        (samplePool 79109415290437042302807587396 (-30)).state.swapStep true 1000 =
          .ok (targetTick, target, step) ∧ step.amountOut = 994 ∧
        (samplePool 79109415290437042302807587396 (-30)).state.SingleTickSwap true 1000 step := by
  constructor
  · have hrun : (samplePool (2 ^ 96) 0).calculateTokensOutFromTokensIn .ok "token1" 1000 none =
        .ok 996 := by decide +kernel
    have hlive : ((none : Option CamelotV3PoolState).getD (samplePool (2 ^ 96) 0).state).Live :=
      ⟨by decide, by decide, by decide, by decide, by decide, by decide, by decide⟩
    exact ⟨hrun, calculateTokensOut_singleTick hlive (by decide) (.inl (by decide)) hrun⟩
  · have hrun : (samplePool 79109415290437042302807587396 (-30)).calculateTokensOutFromTokensIn .ok
        "token0" 1000 none = .ok 994 := by decide +kernel
    have hlive : ((none : Option CamelotV3PoolState).getD
        (samplePool 79109415290437042302807587396 (-30)).state).Live :=
      ⟨by decide, by decide, by decide, by decide, by decide, by decide, by decide⟩
    have hshort : ((none : Option CamelotV3PoolState).getD
        (samplePool 79109415290437042302807587396 (-30)).state).RoundedOnce true 1000 :=
      .inr (.inr ⟨rfl, by decide +kernel⟩)
    exact ⟨hrun, calculateTokensOut_singleTick hlive (by decide) hshort hrun⟩

/-- `sampleSwap` at the lowest price of tick -30. -/
def sampleSwapBelow : V3.SwapArgs :=
  { sampleSwap with sqrtPriceX96Start := 79109415290437042302807587396, tickStart := -30 }

/-- At tick -30 the adapter swaps token 1 in the direction of token 0. -/
theorem CamelotV3Pool.calculateTokensOut_not_singleTick :
    (samplePool 79109415290437042302807587396 (-30)).state.Live ∧
      (samplePool 79109415290437042302807587396 (-30)).calculateTokensOutFromTokensIn .ok "token1"
        1000 none = .ok 994 ∧
      (samplePool 79109415290437042302807587396 (-30)).state.SnapshotOf false 1000
        sampleSwapBelow ∧
      V3.calculateSwap 3 sampleSwapBelow =
        some (.ok ⟨-999, 1000, 79109415290437121293285614117, 10 ^ 18, -30⟩) ∧
      sampleSwapBelow.outputOf ⟨-999, 1000, 79109415290437121293285614117, 10 ^ 18, -30⟩ ≠ 994 := by
  have hmap : ConsistentTickMap sampleTickBitmap sampleTickData 60 := by decide +kernel
  have hcons : sampleSwapBelow.Consistent := by
    refine ⟨by decide, by decide, ?_⟩
    exact ⟨79109415290437042302807587396, 79113370662319739071332553592, by decide, by decide,
      by decide, by decide⟩
  refine ⟨⟨by decide, by decide, by decide, by decide, by decide, by decide, by decide⟩,
    by decide +kernel, ?_, by decide +kernel, by decide⟩
  exact ⟨hcons, hmap, rfl, rfl, rfl, rfl, rfl, rfl, rfl, rfl⟩

end CamelotV3

end Degenbot
