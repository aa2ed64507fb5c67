import Degenbot.Algorithm.Pool
import Degenbot.Verification.Simulator.Invariant

/-! # Swaps that are not viable

`swap_is_viable` rejects a direction when the price is past every initialized tick. No
step of such a swap has both liquidity and room to move, so nothing is paid out. -/

namespace Degenbot

open Library

/-! ## Steps without output -/

@[simp] theorem outputAmount_zero (z : Bool) (current price : ℤ) :
    outputAmount z 0 current price = 0 := by
  cases z <;> simp [outputAmount]

@[simp] theorem outputAmount_self (z : Bool) (liquidity current : ℤ) :
    outputAmount z liquidity current current = 0 := by
  cases z <;> simp [outputAmount]

theorem IsNextStop.eq_of_mem {tickData : LiquidityMap} {tickSpacing tick next edge : ℤ} {z : Bool}
    (h : IsNextStop tickData tickSpacing z tick next) (hmem : edge ∈ tickData)
    (hedge : edge = if z then tick else tick + 1) : next = edge := by
  cases z with
  | true =>
      rw [if_pos rfl] at hedge
      subst hedge
      exact le_antisymm h.le_tick (h.2 ⟨.inl hmem, le_rfl⟩)
  | false =>
      simp only [Bool.false_eq_true, if_false] at hedge
      subst hedge
      have hlt := h.tick_lt
      have hle : next ≤ tick + 1 := h.2 ⟨.inl hmem, lt_add_one tick⟩
      omega

namespace V3

theorem computeSwapStep_no_output {current target liquidity remaining fee : ℤ} {step : SwapStep}
    (h : computeSwapStep current target liquidity remaining fee = .ok step)
    (hstill : liquidity = 0 ∨ current = target) : step.amountOut = 0 := by
  have hzero : ∀ z, outputAmount z liquidity current target = 0 := by
    intro z
    rcases hstill with rfl | rfl
    · exact outputAmount_zero z current target
    · exact outputAmount_self z liquidity current
  by_cases hrem : 0 ≤ remaining
  · obtain ⟨-, -, -, hcase⟩ := computeSwapStep_exactIn hrem h
    rcases hcase with ⟨-, -, rfl⟩ | ⟨-, -, hL, hne, hto, hfrom, -⟩
    · exact hzero _
    · -- a step that stops early moves, and pays, only with liquidity and room
      rcases hstill with hnone | rfl
      · exact absurd hnone hL.ne'
      · simp only [Toward, ge_iff_le, le_refl, decide_true, if_true] at hto hfrom hne
        exact absurd (le_antisymm hto hfrom) hne
  · obtain ⟨-, -, -, -, -, -, -, -, hcase⟩ := computeSwapStep_exactOut (not_le.mp hrem) h
    rcases hcase with ⟨-, -, hout⟩ | ⟨hlt, -⟩
    · rw [hout]
      exact hzero _
    · rw [hzero] at hlt
      omega

/-! ## Prices past the liquidity -/

/-- The price is at or past a tick beyond which, in the direction of the swap, nothing is
initialized, and the nets cancel. -/
structure PastTicks (tickData : LiquidityMap) (z : Bool) (price edge : ℤ) : Prop where
  nets_cancel : ∑ t ∈ tickData.keys.toFinset, netAt tickData t = 0
  valid : ValidTick edge
  edge_of : ∀ t ∈ tickData, if z then edge ≤ t else t ≤ edge
  past : Toward z (sqrtRatio edge) price

section Past

variable {tickData : LiquidityMap} {z : Bool} {price edge tick : ℤ}

theorem liquidityAt_eq_zero_below (h : ∀ t ∈ tickData, tick < t) :
    liquidityAt tickData tick = 0 := by
  apply Finset.sum_eq_zero
  intro t ht
  rw [Finset.mem_filter, List.mem_toFinset] at ht
  have hgt := h t ht.1
  omega

theorem liquidityAt_eq_zero_above (hnets : ∑ t ∈ tickData.keys.toFinset, netAt tickData t = 0)
    (h : ∀ t ∈ tickData, t ≤ tick) : liquidityAt tickData tick = 0 := by
  have hall : tickData.keys.toFinset.filter (· ≤ tick) = tickData.keys.toFinset :=
    Finset.filter_true_of_mem fun t ht => h t (List.mem_toFinset.mp ht)
  rw [liquidityAt, hall, hnets]

/-- Liquidity is active only exactly at the price of the last tick, which is then the next
one to be crossed. -/
theorem PastTicks.inactive (h : PastTicks tickData z price edge)
    (hwithin : PriceWithinTick price tick) :
    liquidityAt tickData tick = 0 ∨
      edge ∈ tickData ∧ price = sqrtRatio edge ∧ edge = if z then tick else tick + 1 := by
  obtain ⟨hnets, hvalid, hedge, hpast⟩ := h
  obtain ⟨hv, hv', hlow, hhigh⟩ := priceWithinTick_iff.mp hwithin
  cases z with
  | true =>
      simp only [if_true, Toward] at hedge hpast ⊢
      by_cases hnone : ∀ t ∈ tickData, tick < t
      · exact .inl (liquidityAt_eq_zero_below hnone)
      · push Not at hnone
        obtain ⟨t, ht, hle⟩ := hnone
        have hge := hedge t ht
        have heq : edge = tick := by
          by_contra hne
          have hlt := sqrtRatio_strictMono hvalid hv (by omega)
          omega
        have htick : t = edge := by omega
        subst heq
        exact .inr ⟨htick ▸ ht, by omega, rfl⟩
  | false =>
      simp only [Bool.false_eq_true, if_false, Toward] at hedge hpast ⊢
      by_cases hnone : ∀ t ∈ tickData, t ≤ tick
      · exact .inl (liquidityAt_eq_zero_above hnets hnone)
      · push Not at hnone
        obtain ⟨t, ht, hgt⟩ := hnone
        have hle := hedge t ht
        have heq : edge = tick + 1 := by
          by_contra hne
          have hlt := sqrtRatio_strictMono hv' hvalid (by omega)
          omega
        have htick : t = edge := by omega
        subst heq
        exact .inr ⟨htick ▸ ht, by omega, rfl⟩

theorem clampTick_of_valid (z : Bool) (h : ValidTick tick) : clampTick z tick = tick := by
  obtain ⟨hlow, hhigh⟩ := h
  cases z with
  | true => exact max_eq_right hlow
  | false => exact min_eq_right hhigh

theorem getSqrtPriceTarget_self {limit : ℤ} (h : Toward z price limit) :
    getSqrtPriceTarget z price limit = price := by
  cases z with
  | true =>
      simp only [Toward, if_true] at h
      simp only [getSqrtPriceTarget, true_and, not_true_eq_false, false_and, or_false]
      exact if_neg (not_lt.mpr h)
  | false =>
      simp only [Toward, Bool.false_eq_true, if_false] at h
      simp only [getSqrtPriceTarget, Bool.false_eq_true, false_and, not_false_eq_true, true_and,
        false_or]
      exact if_neg (not_lt.mpr h)

end Past

/-! ## Whole swaps -/

/-- The output side of the running totals is still empty. -/
def SwapArgs.NoOutput (args : SwapArgs) (state : SwapState) : Prop :=
  if args.exactInput then state.amountCalculated = 0
  else state.amountSpecifiedRemaining = args.amountSpecified

section Swap

variable {args : SwapArgs} {state state' : SwapState} {edge : ℤ}

theorem SwapArgs.applyAmounts_noOutput {step : SwapStep} (h : args.NoOutput state)
    (hout : step.amountOut = 0) : args.NoOutput (args.applyAmounts state step) := by
  unfold SwapArgs.NoOutput SwapArgs.applyAmounts at *
  split_ifs at h ⊢ with hexact
  · simp only [h, hout, sub_zero]
  · simp only [h, hout, add_zero]

theorem SwapArgs.body_noOutput (hs : 0 < args.snapshot.tickSpacing) (hinv : args.Inv state)
    (hpast : PastTicks args.snapshot.tickData args.zeroForOne args.sqrtPriceX96Start edge)
    (hout : args.NoOutput state) (hiter : Iterates args.guard args.body state state') :
    args.NoOutput state' := by
  obtain ⟨hguard, hbody⟩ := hiter
  obtain ⟨⟨stop, ticks⟩, hnext, hmove⟩ := bind_eq_ok.mp hbody
  obtain ⟨hstop, -, -⟩ := SwapArgs.nextTick_spec hs (hinv.walk hguard) hnext
  obtain ⟨sqrtPriceNext, step, hratio, hstep, hfinish⟩ := SwapArgs.moveTo_eq_ok hmove
  obtain ⟨hrem, hcalc, -, -⟩ := finishStep_frame hfinish
  have hpast' : PastTicks args.snapshot.tickData args.zeroForOne state.sqrtPriceX96 edge :=
    { hpast with past := toward_trans hpast.past hinv.moved }
  have hstill : state.liquidity = 0 ∨ state.sqrtPriceX96 =
      getSqrtPriceTarget args.zeroForOne sqrtPriceNext args.sqrtPriceLimitX96 := by
    rcases hpast'.inactive hinv.price_within with hzero | ⟨hmem, hprice, hedge⟩
    · exact .inl (hinv.liquidity_eq.trans hzero)
    · rw [hstop.eq_of_mem hmem hedge, clampTick_of_valid _ hpast.valid] at hratio
      obtain ⟨-, rfl⟩ := getSqrtRatioAtTick_eq_ok_iff.mp hratio
      rw [← hprice]
      exact .inr (getSqrtPriceTarget_self hinv.within_limit).symm
  have hout' : args.NoOutput { state with ticks } := hout
  have happlied := SwapArgs.applyAmounts_noOutput hout' (computeSwapStep_no_output hstep hstill)
  simpa only [SwapArgs.NoOutput, hrem, hcalc] using happlied

/-- The amount of the output token that a result pays out. -/
def SwapArgs.outputOf (args : SwapArgs) (result : SwapResult) : ℤ :=
  if args.zeroForOne then -result.amount1 else -result.amount0

theorem SwapArgs.outputOf_result (h : args.NoOutput state) :
    args.outputOf (args.result state) = 0 := by
  unfold SwapArgs.NoOutput at h
  cases hexact : args.exactInput with
  | true =>
      rw [hexact, if_pos rfl] at h
      cases hz : args.zeroForOne <;> simp [SwapArgs.outputOf, SwapArgs.result, hexact, hz, h]
  | false =>
      simp only [hexact, Bool.false_eq_true, if_false] at h
      cases hz : args.zeroForOne <;> simp [SwapArgs.outputOf, SwapArgs.result, hexact, hz, h]

/-- A swap that starts past the liquidity pays nothing out. -/
theorem calculateSwap_past (hcons : args.Consistent)
    (hpast : PastTicks args.snapshot.tickData args.zeroForOne args.sqrtPriceX96Start edge)
    {fuel : ℕ} {result : SwapResult} (h : calculateSwap fuel args = some (.ok result)) :
    args.outputOf result = 0 := by
  unfold calculateSwap at h
  cases hcheck : args.check with
  | error e => simp [hcheck] at h
  | ok u =>
      have hvalid := SwapArgs.check_eq_ok_iff.mp hcheck
      have hs := hcons.spacing_pos
      simp only [hcheck, Option.map_eq_some_iff] at h
      obtain ⟨outcome, hloop, hresult⟩ := h
      cases outcome with
      | error e => cases hresult
      | ok final =>
          cases hresult
          have hstart : args.NoOutput args.initialState := by
            unfold SwapArgs.NoOutput
            split_ifs <;> rfl
          have hrun := whileLoop_invariant (I := fun s => args.Inv s ∧ args.NoOutput s)
            (fun s s' hI hiter => ⟨SwapArgs.body_inv hvalid hs hI.1 hiter,
              SwapArgs.body_noOutput hs hI.1 hpast hI.2 hiter⟩)
            ⟨SwapArgs.initial_inv hvalid hcons, hstart⟩ hloop
          exact SwapArgs.outputOf_result hrun.1.2

end Swap

/-! ## `swap_is_viable` -/

/-- A complete map whose nets cancel, and a price and an active liquidity that belong to
the tick. -/
structure ConsistentState (state : PoolState) (tickSpacing : ℤ) : Prop where
  spacing_pos : 0 < tickSpacing
  liquidity_eq : state.liquidity = liquidityAt state.tickData state.tick
  nets_cancel : ∑ t ∈ state.tickData.keys.toFinset, netAt state.tickData t = 0
  price_within : PriceWithinTick state.sqrtPriceX96 state.tick

/-- The arguments of a swap from a state with a complete map. -/
def stateSwapArgs (state : PoolState) (tickSpacing fee : ℤ) (zeroForOne : Bool)
    (amountSpecified sqrtPriceLimitX96 : ℤ) : SwapArgs where
  snapshot := ⟨state.tickData, state.tickBitmap, tickSpacing, false⟩
  zeroForOne := zeroForOne
  amountSpecified := amountSpecified
  sqrtPriceLimitX96 := sqrtPriceLimitX96
  fee := fee
  liquidityStart := state.liquidity
  sqrtPriceX96Start := state.sqrtPriceX96
  tickStart := state.tick

section Viable

variable {state : PoolState} {tickSpacing : ℤ} {z : Bool}

/-- What a rejection says: no admissible price limit, or a price past all ticks. -/
theorem swapIsViable_eq_false (hcons : ConsistentState state tickSpacing)
    (h : StateManager.swapIsViable state z false = .ok false) :
    (if z then state.sqrtPriceX96 ≤ minSqrtRatio + 1 else maxSqrtRatio - 1 ≤ state.sqrtPriceX96) ∨
      ∃ edge, PastTicks state.tickData z state.sqrtPriceX96 edge := by
  have hnets := hcons.nets_cancel
  have hprice := hcons.price_within.mem
  have hvtick := priceWithinTick_iff.mp hcons.price_within
  have hpos : state.sqrtPriceX96 ≠ 0 := by
    have hmin : 0 < minSqrtRatio := by decide
    omega
  unfold StateManager.swapIsViable at h
  rw [if_neg Bool.false_ne_true] at h
  cases hlowest : state.tickData.keys.min? with
  | none =>
      -- without ticks every tick is past them all
      have hnil : state.tickData.keys = [] := List.min?_eq_none_iff.mp hlowest
      have hnone : ∀ t, t ∉ state.tickData := by
        intro t ht
        have hmem := AList.mem_keys.mp ht
        rw [hnil] at hmem
        cases hmem
      obtain ⟨hv, hv', hlow, hhigh⟩ := hvtick
      refine .inr ⟨if z then state.tick + 1 else state.tick, hnets, ?_,
        fun t ht => absurd ht (hnone t), ?_⟩
      · split_ifs <;> assumption
      · cases z <;> simpa [Toward] using by assumption
  | some lowest =>
      cases hhighest : state.tickData.keys.max? with
      | none =>
          rw [List.max?_eq_none_iff.mp hhighest] at hlowest
          cases hlowest
      | some highest =>
          simp only [hlowest, hhighest, if_neg hpos] at h
          obtain ⟨hmem, hleast⟩ := List.min?_eq_some_iff.mp hlowest
          obtain ⟨hmem', hgreatest⟩ := List.max?_eq_some_iff.mp hhighest
          split at h
          · rename_i hextreme
            cases z with
            | true => exact .inl (by simpa using hextreme)
            | false => exact .inl (by simpa using hextreme)
          · cases z with
            | true =>
                obtain ⟨ratio, hratio, h⟩ := bind_eq_ok.mp h
                obtain ⟨hv, rfl⟩ := getSqrtRatioAtTick_eq_ok_iff.mp hratio
                refine .inr ⟨lowest, hnets, hv, fun t ht => hleast t (AList.mem_keys.mp ht), ?_⟩
                simpa [Toward] using h
            | false =>
                obtain ⟨ratio, hratio, h⟩ := bind_eq_ok.mp h
                obtain ⟨hv, rfl⟩ := getSqrtRatioAtTick_eq_ok_iff.mp hratio
                refine .inr ⟨highest, hnets, hv, fun t ht => hgreatest t (AList.mem_keys.mp ht), ?_⟩
                simpa [Toward] using h

/-- Past the extreme prices no price limit is admitted. -/
theorem stateSwapArgs_check (tickSpacing fee amountSpecified limit : ℤ)
    (h : if z then state.sqrtPriceX96 ≤ minSqrtRatio + 1
      else maxSqrtRatio - 1 ≤ state.sqrtPriceX96) :
    ¬(stateSwapArgs state tickSpacing fee z amountSpecified limit).Valid := by
  intro hvalid
  cases z with
  | true =>
      obtain ⟨hlow, hhigh⟩ := hvalid.limit_down rfl
      simp only [if_true] at h
      change minSqrtRatio < limit at hlow
      change limit < state.sqrtPriceX96 at hhigh
      omega
  | false =>
      obtain ⟨hlow, hhigh⟩ := hvalid.limit_up rfl
      simp only [Bool.false_eq_true, if_false] at h
      change state.sqrtPriceX96 < limit at hlow
      change limit < maxSqrtRatio at hhigh
      omega

/-- A swap in a direction that is reported as not viable ends, and pays nothing out. -/
theorem swapIsViable_sound (hcons : ConsistentState state tickSpacing)
    (h : StateManager.swapIsViable state z false = .ok false) (fee amountSpecified limit : ℤ) :
    ∃ fuel outcome,
      (∀ fuel' ≥ fuel, calculateSwap fuel'
        (stateSwapArgs state tickSpacing fee z amountSpecified limit) = some outcome) ∧
      ∀ result, outcome = .ok result →
        (stateSwapArgs state tickSpacing fee z amountSpecified limit).outputOf result = 0 := by
  have hargs : (stateSwapArgs state tickSpacing fee z amountSpecified limit).Consistent :=
    ⟨hcons.spacing_pos, hcons.liquidity_eq, hcons.price_within⟩
  obtain ⟨fuel, outcome, hrun⟩ := SwapArgs.exists_outcome hargs
  refine ⟨fuel, outcome, hrun, ?_⟩
  rintro result rfl
  have hresult := hrun fuel le_rfl
  rcases swapIsViable_eq_false hcons h with hextreme | ⟨edge, hpast⟩
  · have hinvalid := stateSwapArgs_check tickSpacing fee amountSpecified limit hextreme
    rw [← SwapArgs.check_eq_ok_iff] at hinvalid
    unfold calculateSwap at hresult
    split at hresult
    · cases hresult
    · rename_i hcheck
      exact absurd hcheck hinvalid
  · exact calculateSwap_past hargs hpast hresult

/-- The sample map with the price at its upper end: no token 0 is left to buy. -/
def exhaustedState : PoolState where
  liquidity := 0
  sqrtPriceX96 := 79466191966197645195421774833
  tick := 60
  tickBitmap := sampleTickBitmap
  tickData := sampleTickData
  block := 1

theorem swapIsViable_sound_exhausted :
    ConsistentState exhaustedState 60 ∧
      StateManager.swapIsViable exhaustedState false false = .ok false ∧
      ∃ fuel outcome,
        (∀ fuel' ≥ fuel, calculateSwap fuel'
          (stateSwapArgs exhaustedState 60 3000 false 1000 (maxSqrtRatio - 1)) = some outcome) ∧
        ∀ result, outcome = .ok result →
          (stateSwapArgs exhaustedState 60 3000 false 1000 (maxSqrtRatio - 1)).outputOf result =
            0 := by
  have hcons : ConsistentState exhaustedState 60 := by
    refine ⟨by decide, by decide, by decide, ?_⟩
    exact priceWithinTick_iff.mpr ⟨by decide, by decide, by decide, by decide⟩
  have hviable : StateManager.swapIsViable exhaustedState false false = .ok false := by decide
  exact ⟨hcons, hviable, swapIsViable_sound hcons hviable 3000 1000 (maxSqrtRatio - 1)⟩

end Viable

end V3

end Degenbot
