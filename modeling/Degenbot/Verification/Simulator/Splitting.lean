import Degenbot.Verification.Simulator.ExactInput

/-! # Splitting an exact input

A swap with more input pays out at least as much, and two swaps in a row pay out at most
what one swap of their sum does. Both follow the passes of two runs side by side. -/

namespace Degenbot.V3

open Library

variable {args : SwapArgs} {state state' final final' : SwapState} {fuel fuel' : ℕ}

/-! ## Two runs at one place -/

/-- The second state is at the price and tick of the first one, with no less to swap. -/
structure Ahead (state state' : SwapState) : Prop where
  price_eq : state'.sqrtPriceX96 = state.sqrtPriceX96
  tick_eq : state'.tick = state.tick
  remaining_le : state.amountSpecifiedRemaining ≤ state'.amountSpecifiedRemaining

/-- The output of a run, from a state on. -/
def gained (state final : SwapState) : ℤ := state.amountCalculated - final.amountCalculated

section Run

variable (hvalid : args.Valid) (hs : 0 < args.snapshot.tickSpacing)
  (hexact : args.exactInput = true)

include hvalid hs hexact in
theorem gained_nonneg (hinv : args.Inv state)
    (hrun : whileLoop args.guard args.body fuel state = some (.ok final)) :
    0 ≤ gained state final := by
  have hstep : ∀ s s', (args.Inv s ∧ s.amountCalculated ≤ state.amountCalculated) →
      Iterates args.guard args.body s s' →
      args.Inv s' ∧ s'.amountCalculated ≤ state.amountCalculated := by
    intro s s' hs' hiter
    obtain ⟨stop, step, hpass⟩ := SwapArgs.body_exactInput hs hexact hs'.1 hiter
    have hout := hpass.amountOut_nonneg
    refine ⟨SwapArgs.body_inv hvalid hs hs'.1 hiter, ?_⟩
    rw [hpass.calculated_eq]
    linarith [hs'.2]
  have hend := (whileLoop_invariant hstep ⟨hinv, le_rfl⟩ hrun).1.2
  unfold gained
  linarith

/-- One pass of a run that succeeds, and the rest of the run. -/
theorem run_cases (hrun : whileLoop args.guard args.body fuel state = some (.ok final)) :
    (args.guard state = false ∧ final = state) ∨
      ∃ next fuel', fuel = fuel' + 1 ∧ Iterates args.guard args.body state next ∧
        whileLoop args.guard args.body fuel' next = some (.ok final) := by
  cases fuel with
  | zero => cases hrun
  | succ fuel =>
      cases hguard : args.guard state with
      | false =>
          rw [whileLoop_exit fuel hguard] at hrun
          cases hrun
          exact .inl ⟨rfl, rfl⟩
      | true =>
          cases hbody : args.body state with
          | error e =>
              rw [whileLoop_error fuel hguard hbody] at hrun
              cases hrun
          | ok next =>
              rw [whileLoop_step fuel hguard hbody] at hrun
              exact .inr ⟨next, fuel, rfl, ⟨hguard, hbody⟩, hrun⟩

/-- A run that stops at the limit, or with nothing left, has ended. -/
theorem final_eq (hstop : state.amountSpecifiedRemaining = 0 ∨
      state.sqrtPriceX96 = args.sqrtPriceLimitX96)
    (hrun : whileLoop args.guard args.body fuel state = some (.ok final)) : final = state := by
  have hguard : args.guard state = false := by
    rw [Bool.eq_false_iff, ne_eq, SwapArgs.guard_iff]
    tauto
  exact Except.ok.inj (whileLoop_eq_of_exit hguard hrun)

/-- With less to swap at one place, no pass gets further. -/
theorem Ahead.guard (h : Ahead state state') (hexact : args.exactInput = true)
    (hinv : args.Inv state) (hguard : args.guard state = true) : args.guard state' = true := by
  have hsign := hinv.signKept
  simp only [SwapArgs.SignKept, hexact, if_true] at hsign
  have hle := h.remaining_le
  rw [SwapArgs.guard_iff] at hguard ⊢
  rw [h.price_eq]
  exact ⟨by omega, hguard.2⟩

/-! ## More input, more output -/

/-- Both states make their passes towards the same stop, with the same liquidity. -/
theorem Ahead.same_pass {next next' : SwapState} {stop stop' : ℤ} {step step' : SwapStep}
    (h : Ahead state state') (hinv : args.Inv state) (hinv' : args.Inv state')
    (hpass : args.ExactPass state stop step next) (hpass' : args.ExactPass state' stop' step' next') :
    stop' = stop ∧ state'.liquidity = state.liquidity := by
  have hstop' := hpass'.next_stop
  rw [h.tick_eq] at hstop'
  refine ⟨hstop'.unique hpass.next_stop, ?_⟩
  rw [hinv.liquidity_eq, hinv'.liquidity_eq, h.tick_eq]

/-- A pass that leaves something to swap needs a fee of at most 100 %. -/
theorem SwapArgs.ExactPass.fee_le {stop : ℤ} {step : SwapStep}
    (h : args.ExactPass state stop step state') (hpos : 0 < state.amountSpecifiedRemaining) :
    args.fee ≤ 1000000 := by
  have hless := h.less_nonneg
  unfold lessFee at hless
  have hmul := (Int.le_ediv_iff_mul_le (by norm_num : (0 : ℤ) < 1000000)).mp hless
  by_contra hgt
  nlinarith

theorem remaining_pos (hexact : args.exactInput = true) (hinv : args.Inv state)
    (hguard : args.guard state = true) : 0 < state.amountSpecifiedRemaining := by
  have hsign := hinv.signKept
  simp only [SwapArgs.SignKept, hexact, if_true] at hsign
  have hne := (SwapArgs.guard_iff.mp hguard).1
  omega

include hvalid hs hexact in
/-- By induction on the passes of the run with less input. -/
theorem Ahead.gained_le (h : Ahead state state') (hinv : args.Inv state) (hinv' : args.Inv state')
    (hrun : whileLoop args.guard args.body fuel state = some (.ok final))
    (hrun' : whileLoop args.guard args.body fuel' state' = some (.ok final')) :
    gained state final ≤ gained state' final' := by
  induction fuel generalizing state state' fuel' with
  | zero => cases hrun
  | succ fuel ih =>
      rcases run_cases hrun with ⟨-, rfl⟩ | ⟨next, rest, hfuel, hiter, hrun⟩
      · have hnonneg := gained_nonneg hvalid hs hexact hinv' hrun'
        unfold gained at hnonneg ⊢
        linarith
      · cases hfuel
        have hguard' := h.guard hexact hinv hiter.1
        rcases run_cases hrun' with ⟨hfalse, -⟩ | ⟨next', rest', rfl, hiter', hrun'⟩
        · rw [hguard'] at hfalse
          cases hfalse
        · have hnext := SwapArgs.body_inv hvalid hs hinv hiter
          have hnext' := SwapArgs.body_inv hvalid hs hinv' hiter'
          obtain ⟨stop, step, hpass⟩ := SwapArgs.body_exactInput hs hexact hinv hiter
          obtain ⟨stop', step', hpass'⟩ := SwapArgs.body_exactInput hs hexact hinv' hiter'
          obtain ⟨rfl, hliq⟩ := h.same_pass hinv hinv' hpass hpass'
          have hfee := hpass.fee_le (remaining_pos hexact hinv hiter.1)
          have hless := lessFee_mono hfee h.remaining_le
          have hout := hpass.amountOut_eq
          have hout' := hpass'.amountOut_eq
          have hcalc := hpass.calculated_eq
          have hcalc' := hpass'.calculated_eq
          have hrest' := gained_nonneg hvalid hs hexact hnext' hrun'
          have hends' := hpass'.ends
          rw [hliq, h.price_eq] at hout' hends'
          -- a first run that ends with this pass has moved no further than the second one
          have hended : final = next →
              Toward args.zeroForOne step.sqrtRatioNextX96 step'.sqrtRatioNextX96 →
              gained state final ≤ gained state' final' := by
            intro hfinal hfar
            have hmore := outputAmount_mono hpass.liquidity_nonneg hpass.price_pos hpass.next_pos
              hpass'.next_pos hfar
            subst hfinal
            unfold gained at hrest' ⊢
            linarith
          rcases hpass.ends with ⟨hpaid, -, -, hto, hrem⟩ | ⟨hL, hshort, hto, -, -, hrem⟩
          · rcases hends' with ⟨-, -, -, hto', hrem'⟩ | ⟨-, hshort', -⟩
            · rcases hpass.limit_or_tick hto with hlimit | htick
              · apply hended (final_eq (.inr hlimit) hrun)
                rw [hto, hto']
                exact toward_refl _ _
              · have hprices : next'.sqrtPriceX96 = next.sqrtPriceX96 := by
                  rw [hpass.price_eq, hpass'.price_eq, hto, hto']
                rcases hpass'.limit_or_tick hto' with hlimit' | htick'
                · rw [hprices] at hlimit'
                  apply hended (final_eq (.inr hlimit') hrun)
                  rw [hto, hto']
                  exact toward_refl _ _
                · have hahead : Ahead next next' := by
                    refine ⟨hprices, htick'.trans htick.symm, ?_⟩
                    rw [hrem, hrem']
                    linarith [h.remaining_le]
                  have hlater := ih hahead hnext hnext' hrun hrun'
                  rw [hto] at hout
                  rw [hto'] at hout'
                  unfold gained at hlater ⊢
                  linarith
            · omega
          · apply hended (final_eq (.inl hrem) hrun)
            rcases hends' with ⟨-, -, -, hto', -⟩ | ⟨-, -, hto', -⟩
            · rw [hto']
              exact hpass.toward_next
            · rw [hto, hto']
              exact priceFromInput_mono hL hpass.price_pos hpass.less_nonneg hless

/-! ## Two swaps in a row -/

/-- The passes of a run towards the price of token 0 use the exact formula for the price after
an input, and never its failsafe. -/
def SwapArgs.StaysExact (args : SwapArgs) : Prop :=
  args.zeroForOne = true → ∀ state stop, Visits args.guard args.body args.initialState state →
    args.guard state = true →
    IsNextStop args.snapshot.tickData args.snapshot.tickSpacing true state.tick stop →
    lessFee state.amountSpecifiedRemaining args.fee <
      inputAmount true state.liquidity state.sqrtPriceX96 (args.targetOf stop) →
    lessFee state.amountSpecifiedRemaining args.fee * state.sqrtPriceX96 < maxUint256

include hvalid hs hexact in
/-- The first swap stopped inside a pass of the whole one, and the second one follows the rest of
that pass. -/
theorem gained_resumed_le {first second start whole : SwapState} {stop : ℤ} {step : SwapStep}
    (hpass : args.ExactPass first stop step second) (hne : step.sqrtRatioNextX96 ≠ args.targetOf stop)
    (hinv : args.Inv first) (hsecond : args.Inv second) (hinv' : args.Inv start)
    (hwhole : args.Inv whole) (hguard : args.guard first = true)
    (hprice : start.sqrtPriceX96 = second.sqrtPriceX96) (htick : start.tick = second.tick)
    (hahead : Ahead first whole)
    (hsum : whole.amountSpecifiedRemaining =
      first.amountSpecifiedRemaining + start.amountSpecifiedRemaining)
    (hguard' : args.guard start = true)
    (hstays : args.zeroForOne = true →
      lessFee whole.amountSpecifiedRemaining args.fee <
        inputAmount true whole.liquidity whole.sqrtPriceX96 (args.targetOf stop) →
      lessFee whole.amountSpecifiedRemaining args.fee * whole.sqrtPriceX96 < maxUint256)
    (hrun : whileLoop args.guard args.body fuel start = some (.ok final))
    (hrun' : whileLoop args.guard args.body fuel' whole = some (.ok final')) :
    gained first second + gained start final ≤ gained whole final' := by
  have hguardWhole := hahead.guard hexact hinv hguard
  rcases run_cases hrun with ⟨hfalse, -⟩ | ⟨next, rest, -, hiter, hrun⟩
  · rw [hguard'] at hfalse
    cases hfalse
  rcases run_cases hrun' with ⟨hfalse, -⟩ | ⟨next', rest', -, hiter', hrun'⟩
  · rw [hguardWhole] at hfalse
    cases hfalse
  have hnext := SwapArgs.body_inv hvalid hs hinv' hiter
  have hnext' := SwapArgs.body_inv hvalid hs hwhole hiter'
  obtain ⟨stopB, stepB, hpassB⟩ := SwapArgs.body_exactInput hs hexact hinv' hiter
  obtain ⟨stopW, stepW, hpassW⟩ := SwapArgs.body_exactInput hs hexact hwhole hiter'
  obtain ⟨rfl, hliqW⟩ := hahead.same_pass hinv hwhole hpass hpassW
  -- all three passes go to one target, over one liquidity
  have hstopB := hpassB.next_stop
  rw [htick] at hstopB
  obtain rfl := hstopB.unique (hpass.next_stop_short hs hinv hsecond hne)
  have hliqB : start.liquidity = first.liquidity := by
    rw [hinv'.liquidity_eq, htick, ← hsecond.liquidity_eq]
    exact hpass.liquidity_short (hpass.before_stop hne)
  have hmiddle : start.sqrtPriceX96 = step.sqrtRatioNextX96 := hprice.trans hpass.price_eq
  have hrest := gained_nonneg hvalid hs hexact hnext' hrun'
  have hcalc := hpass.calculated_eq
  have hcalcB := hpassB.calculated_eq
  have hcalcW := hpassW.calculated_eq
  rw [hpass.amountOut_eq] at hcalc
  rw [hpassB.amountOut_eq, hliqB, hmiddle] at hcalcB
  rw [hpassW.amountOut_eq, hliqW, hahead.price_eq] at hcalcW
  have hendsB := hpassB.ends
  have hendsW := hpassW.ends
  rw [hliqB, hmiddle] at hendsB
  rw [hliqW, hahead.price_eq] at hendsW
  rw [hliqW, hahead.price_eq] at hstays
  rcases hpass.ends with ⟨-, -, -, hto, -⟩ | ⟨hL, -, hto, -, -, -⟩
  · exact absurd hto hne
  have hc := hpass.price_pos
  have hm := hpass.next_pos
  have ht := hpass.target_pos
  have hpaid : inputAmount args.zeroForOne first.liquidity first.sqrtPriceX96
      step.sqrtRatioNextX96 ≤ lessFee first.amountSpecifiedRemaining args.fee := by
    rw [hto] at hm ⊢
    exact inputAmount_priceFromInput_le hL hc hpass.less_nonneg hm
  have hless := lessFee_add_le first.amountSpecifiedRemaining start.amountSpecifiedRemaining args.fee
  rw [← hsum] at hless
  -- a second swap that ends with this pass has moved no further than the whole one
  have hended : final = next →
      Toward args.zeroForOne stepB.sqrtRatioNextX96 stepW.sqrtRatioNextX96 →
      gained first second + gained start final ≤ gained whole final' := by
    intro hfinal hfar
    have hmore := outputAmount_mono hpass.liquidity_nonneg hc hpassB.next_pos hpassW.next_pos hfar
    have hparts := @outputAmount_triangle args.zeroForOne first.liquidity first.sqrtPriceX96
      step.sqrtRatioNextX96 stepB.sqrtRatioNextX96 hc hm hpassB.next_pos
    subst hfinal
    unfold gained at hrest ⊢
    linarith
  rcases hendsB with ⟨hpaidB, hfee0, hfee, htoB, hremB⟩ | ⟨-, -, htoB, -, -, hremB⟩
  · rcases hendsW with ⟨-, -, -, htoW, hremW⟩ | ⟨-, hshortW, -⟩
    · rcases hpassB.limit_or_tick htoB with hlimit | htickB
      · apply hended (final_eq (.inr hlimit) hrun)
        rw [htoB, htoW]
        exact toward_refl _ _
      · have hprices : next'.sqrtPriceX96 = next.sqrtPriceX96 := by
          rw [hpassB.price_eq, hpassW.price_eq, htoB, htoW]
        rcases hpassW.limit_or_tick htoW with hlimit | htickW
        · rw [hprices] at hlimit
          apply hended (final_eq (.inr hlimit) hrun)
          rw [htoB, htoW]
          exact toward_refl _ _
        · have hahead' : Ahead next next' := by
            refine ⟨hprices, htickW.trans htickB.symm, ?_⟩
            have htotal := @inputAmount_triangle args.zeroForOne first.liquidity
              first.sqrtPriceX96 step.sqrtRatioNextX96 (args.targetOf stopB) hc hm ht
            have hcost := withFee_add_le hfee0 hfee
              (htotal.trans (add_le_add_left hpaid _))
            have hfirst := @withFee_lessFee_le first.amountSpecifiedRemaining args.fee hfee
            rw [hremB, hremW, hsum]
            linarith
          have hlater := hahead'.gained_le hvalid hs hexact hnext hnext' hrun hrun'
          have hparts := @outputAmount_triangle args.zeroForOne first.liquidity
            first.sqrtPriceX96 step.sqrtRatioNextX96 (args.targetOf stopB) hc hm ht
          rw [htoB] at hcalcB
          rw [htoW] at hcalcW
          unfold gained at hlater ⊢
          linarith
    · have htotal := @inputAmount_triangle args.zeroForOne first.liquidity first.sqrtPriceX96
        step.sqrtRatioNextX96 (args.targetOf stopB) hc hm ht
      omega
  · apply hended (final_eq (.inl hremB) hrun)
    rcases hendsW with ⟨-, -, -, htoW, -⟩ | ⟨-, hshortW, htoW, -, -, -⟩
    · rw [htoW]
      exact hpassB.toward_next
    · rw [htoW]
      have hpaidB : inputAmount args.zeroForOne first.liquidity step.sqrtRatioNextX96
          stepB.sqrtRatioNextX96 ≤ lessFee start.amountSpecifiedRemaining args.fee := by
        have hpos := hpassB.next_pos
        rw [htoB] at hpos ⊢
        exact inputAmount_priceFromInput_le hL hm hpassB.less_nonneg hpos
      have htotal := @inputAmount_triangle args.zeroForOne first.liquidity first.sqrtPriceX96
        step.sqrtRatioNextX96 stepB.sqrtRatioNextX96 hc hm hpassB.next_pos
      apply toward_priceFromInput hL hc hpassB.next_pos hpassW.less_nonneg
      · intro hz
        rw [hz] at hshortW
        exact hstays hz hshortW
      · omega

include hvalid hs hexact in
/-- By induction on the passes of the first swap. -/
theorem gained_add_le {first start whole middle : SwapState} {fuel'' : ℕ}
    (hstays : args.StaysExact) (hvisits : Visits args.guard args.body args.initialState whole)
    (hahead : Ahead first whole) (hinv : args.Inv first) (hwhole : args.Inv whole)
    (hinv' : args.Inv start) (hpos : 0 < start.amountSpecifiedRemaining)
    (hsum : whole.amountSpecifiedRemaining =
      first.amountSpecifiedRemaining + start.amountSpecifiedRemaining)
    (hlimit : middle.sqrtPriceX96 ≠ args.sqrtPriceLimitX96)
    (hprice : start.sqrtPriceX96 = middle.sqrtPriceX96) (htick : start.tick = middle.tick)
    (hfirst : whileLoop args.guard args.body fuel first = some (.ok middle))
    (hsecond : whileLoop args.guard args.body fuel' start = some (.ok final))
    (hrun : whileLoop args.guard args.body fuel'' whole = some (.ok final')) :
    gained first middle + gained start final ≤ gained whole final' := by
  induction fuel generalizing first whole fuel'' with
  | zero => cases hfirst
  | succ fuel ih =>
      rcases run_cases hfirst with ⟨hended, rfl⟩ | ⟨next, rest, hfuel, hiter, hfirst⟩
      · -- nothing is left of the first swap, so the second one is the rest of the whole
        have hnone : middle.amountSpecifiedRemaining = 0 := by
          by_contra hne
          rw [SwapArgs.guard_iff.mpr ⟨hne, hlimit⟩] at hended
          cases hended
        have hlast : Ahead start whole := by
          refine ⟨hahead.price_eq.trans hprice.symm, hahead.tick_eq.trans htick.symm, ?_⟩
          rw [hsum, hnone, zero_add]
        have hle := hlast.gained_le hvalid hs hexact hinv' hwhole hsecond hrun
        unfold gained at hle ⊢
        linarith
      · cases hfuel
        have hguard := hahead.guard hexact hinv hiter.1
        have hnext := SwapArgs.body_inv hvalid hs hinv hiter
        obtain ⟨stop, step, hpass⟩ := SwapArgs.body_exactInput hs hexact hinv hiter
        rcases hpass.ends with ⟨hpaid, -, -, hto, hrem⟩ | ⟨-, -, -, hne, -, hrem⟩
        · rcases run_cases hrun with ⟨hfalse, -⟩ | ⟨next', rest', -, hiter', hrun⟩
          · rw [hguard] at hfalse
            cases hfalse
          · obtain ⟨stop', step', hpass'⟩ := SwapArgs.body_exactInput hs hexact hwhole hiter'
            obtain ⟨rfl, hliq⟩ := hahead.same_pass hinv hwhole hpass hpass'
            have hless := lessFee_mono (hpass.fee_le (remaining_pos hexact hinv hiter.1))
              hahead.remaining_le
            have hends' := hpass'.ends
            have hcalc := hpass.calculated_eq
            have hcalc' := hpass'.calculated_eq
            rw [hpass.amountOut_eq] at hcalc
            rw [hpass'.amountOut_eq, hliq, hahead.price_eq] at hcalc'
            rw [hliq, hahead.price_eq] at hends'
            rcases hends' with ⟨-, -, -, hto', hrem'⟩ | ⟨-, hshort', -⟩
            · have hinside : next.sqrtPriceX96 ≠ args.sqrtPriceLimitX96 := by
                intro heq
                rw [final_eq (.inr heq) hfirst] at hlimit
                exact hlimit heq
              have hprices : next'.sqrtPriceX96 = next.sqrtPriceX96 := by
                rw [hpass.price_eq, hpass'.price_eq, hto, hto']
              have hticks : next'.tick = next.tick :=
                ((hpass'.limit_or_tick hto').resolve_left (hprices ▸ hinside)).trans
                  ((hpass.limit_or_tick hto).resolve_left hinside).symm
              have hahead' : Ahead next next' := by
                refine ⟨hprices, hticks, ?_⟩
                rw [hrem, hrem']
                linarith [hahead.remaining_le]
              have hsum' : next'.amountSpecifiedRemaining =
                  next.amountSpecifiedRemaining + start.amountSpecifiedRemaining := by
                rw [hrem, hrem', hsum]
                ring
              have hlater := ih (hvisits.tail hiter') hahead' hnext
                (SwapArgs.body_inv hvalid hs hwhole hiter') hsum' hfirst hrun
              rw [hto] at hcalc
              rw [hto'] at hcalc'
              unfold gained at hlater ⊢
              linarith
            · omega
        · obtain rfl := final_eq (.inl hrem) hfirst
          have hguard' : args.guard start = true :=
            SwapArgs.guard_iff.mpr ⟨hpos.ne', by rw [hprice]; exact hlimit⟩
          refine gained_resumed_le hvalid hs hexact hpass hne hinv hnext hinv' hwhole hiter.1 hprice
            htick hahead hsum hguard' ?_ hsecond hrun
          intro hz hshort
          have hstop := hpass.next_stop
          rw [hz, ← hahead.tick_eq] at hstop
          exact hstays hz whole stop hvisits hguard hstop hshort

end Run

/-! ## Swaps -/

/-- A swap of another amount. -/
def SwapArgs.withAmount (args : SwapArgs) (amount : ℤ) : SwapArgs :=
  { args with amountSpecified := amount }

/-- A swap on the state that another swap has left. -/
def SwapArgs.after (args : SwapArgs) (result : SwapResult) (amount : ℤ) : SwapArgs :=
  { args with
    amountSpecified := amount
    sqrtPriceX96Start := result.sqrtPriceX96
    liquidityStart := result.liquidity
    tickStart := result.tick }

theorem calculateSwap_eq_ok {result : SwapResult} (h : calculateSwap fuel args = some (.ok result)) :
    args.Valid ∧ ∃ final, whileLoop args.guard args.body fuel args.initialState =
      some (.ok final) ∧ result = args.result final := by
  unfold calculateSwap at h
  cases hcheck : args.check with
  | error e =>
      rw [hcheck] at h
      cases h
  | ok u =>
      rw [hcheck] at h
      obtain ⟨outcome, hloop, hresult⟩ := Option.map_eq_some_iff.mp h
      cases outcome with
      | error e => cases hresult
      | ok final =>
          cases hresult
          exact ⟨SwapArgs.check_eq_ok_iff.mp hcheck, final, hloop, rfl⟩

theorem SwapArgs.outputOf_exactInput (hexact : args.exactInput = true) (state : SwapState) :
    args.outputOf (args.result state) = gained args.initialState state := by
  cases hz : args.zeroForOne <;>
    simp [SwapArgs.outputOf, SwapArgs.result, hexact, hz, gained, SwapArgs.initialState]

theorem SwapArgs.exactInput_withAmount (args : SwapArgs) {amount : ℤ} (h : 0 < amount) :
    (args.withAmount amount).exactInput = true := decide_eq_true h

/-- The loop does not depend on the amount of an exact input, nor on where it starts. -/
theorem SwapArgs.after_loop (args : SwapArgs) (result : SwapResult) {amount total : ℤ}
    (hamount : 0 < amount) (htotal : 0 < total) :
    (args.after result amount).guard = (args.withAmount total).guard ∧
      (args.after result amount).body = (args.withAmount total).body := by
  have hexact : (args.after result amount).exactInput = (args.withAmount total).exactInput :=
    (decide_eq_true hamount).trans (decide_eq_true htotal).symm
  refine ⟨rfl, ?_⟩
  funext state
  simp only [SwapArgs.body, SwapArgs.moveTo, SwapArgs.applyAmounts, hexact]
  rfl

/-- A later swap starts in a state that a swap from the beginning could be in. -/
theorem SwapArgs.after_inv {result : SwapResult} {amount total : ℤ} (hamount : 0 < amount)
    (htotal : 0 < total) (hvalid : (args.after result amount).Valid)
    (hcons : (args.after result amount).Consistent)
    (hmoved : Toward args.zeroForOne args.sqrtPriceX96Start result.sqrtPriceX96) :
    (args.withAmount total).Inv (args.after result amount).initialState := by
  have hinv := SwapArgs.initial_inv hvalid hcons
  refine ⟨?_, hmoved, hinv.within_limit, hinv.liquidity_eq, hinv.price_within, ?_⟩
  · simp only [SwapArgs.SignKept, args.exactInput_withAmount htotal, if_true]
    exact hamount.le
  · rw [← (args.after_loop result hamount htotal).1]
    exact hinv.walk

/-- What a swap is after no swap. -/
def SwapArgs.untouched (args : SwapArgs) : SwapResult :=
  ⟨0, 0, args.sqrtPriceX96Start, args.liquidityStart, args.tickStart⟩

/-- A swap with more input pays out at least as much. -/
theorem calculateSwap_mono {a b : ℤ} {less more : SwapResult} (hcons : args.Consistent)
    (ha : 0 < a) (hab : a ≤ b)
    (hless : calculateSwap fuel (args.withAmount a) = some (.ok less))
    (hmore : calculateSwap fuel' (args.withAmount b) = some (.ok more)) :
    args.outputOf less ≤ args.outputOf more := by
  have hb : 0 < b := ha.trans_le hab
  have hexact := args.exactInput_withAmount hb
  obtain ⟨hvalidA, finalA, hrunA, rfl⟩ := calculateSwap_eq_ok hless
  obtain ⟨hvalidB, finalB, hrunB, rfl⟩ := calculateSwap_eq_ok hmore
  have hcons' : (args.withAmount b).Consistent :=
    ⟨hcons.spacing_pos, hcons.liquidity_eq, hcons.price_within⟩
  obtain ⟨hguard, hbody⟩ := args.after_loop args.untouched ha hb
  have hinvA : (args.withAmount b).Inv (args.withAmount a).initialState :=
    @SwapArgs.after_inv args args.untouched a b ha hb hvalidA
      ⟨hcons.spacing_pos, hcons.liquidity_eq, hcons.price_within⟩ (toward_refl _ _)
  have hinvB := SwapArgs.initial_inv hvalidB hcons'
  change whileLoop (args.after args.untouched a).guard (args.after args.untouched a).body _ _ = _
    at hrunA
  rw [hguard, hbody] at hrunA
  have hahead : Ahead (args.withAmount a).initialState (args.withAmount b).initialState :=
    ⟨rfl, rfl, hab⟩
  have hle := hahead.gained_le hvalidB hcons.spacing_pos hexact hinvA hinvB hrunA hrunB
  have houtA := SwapArgs.outputOf_exactInput (args.exactInput_withAmount ha) finalA
  have houtB := SwapArgs.outputOf_exactInput hexact finalB
  change args.outputOf _ = _ at houtA
  change args.outputOf _ = _ at houtB
  rw [houtA, houtB]
  exact hle

/-- Two swaps in a row pay out at most what one swap of their sum does. -/
theorem calculateSwap_add_le {a b : ℤ} {first second whole : SwapResult} {fuel'' : ℕ}
    (hcons : args.Consistent) (ha : 0 < a) (hb : 0 < b)
    (hfirst : calculateSwap fuel (args.withAmount a) = some (.ok first))
    (hsecond : calculateSwap fuel' (args.after first b) = some (.ok second))
    (hwhole : calculateSwap fuel'' (args.withAmount (a + b)) = some (.ok whole))
    (hstays : (args.withAmount (a + b)).StaysExact) :
    args.outputOf first + args.outputOf second ≤ args.outputOf whole := by
  have htotal : 0 < a + b := add_pos ha hb
  have hexact := args.exactInput_withAmount htotal
  have hconsA : (args.withAmount a).Consistent :=
    ⟨hcons.spacing_pos, hcons.liquidity_eq, hcons.price_within⟩
  have hconsW : (args.withAmount (a + b)).Consistent :=
    ⟨hcons.spacing_pos, hcons.liquidity_eq, hcons.price_within⟩
  have hcorrect := SwapArgs.correct_of_calculateSwap hconsA hfirst
  have hconsB : (args.after first b).Consistent :=
    ⟨hcons.spacing_pos, hcorrect.liquidity_eq, hcorrect.price_within⟩
  obtain ⟨hvalidA, middle, hrunA, rfl⟩ := calculateSwap_eq_ok hfirst
  obtain ⟨hvalidB, finalB, hrunB, rfl⟩ := calculateSwap_eq_ok hsecond
  obtain ⟨hvalidW, finalW, hrunW, rfl⟩ := calculateSwap_eq_ok hwhole
  obtain ⟨hguardA, hbodyA⟩ := args.after_loop args.untouched ha htotal
  obtain ⟨hguardB, hbodyB⟩ := args.after_loop ((args.withAmount a).result middle) hb htotal
  have hinvA : (args.withAmount (a + b)).Inv (args.withAmount a).initialState :=
    @SwapArgs.after_inv args args.untouched a (a + b) ha htotal hvalidA hconsA (toward_refl _ _)
  have hinvB := SwapArgs.after_inv hb htotal hvalidB hconsB hcorrect.moved
  have hinvW := SwapArgs.initial_inv hvalidW hconsW
  change whileLoop (args.after args.untouched a).guard (args.after args.untouched a).body _ _ = _
    at hrunA
  rw [hguardA, hbodyA] at hrunA
  rw [hguardB, hbodyB] at hrunB
  -- the second swap passes its own check, so the first one has not reached the limit
  have hlimit : middle.sqrtPriceX96 ≠ args.sqrtPriceLimitX96 := by
    intro heq
    cases hz : args.zeroForOne with
    | true => exact absurd heq.symm (hvalidB.limit_down hz).2.ne
    | false => exact absurd heq (hvalidB.limit_up hz).1.ne
  have hahead : Ahead (args.withAmount a).initialState (args.withAmount (a + b)).initialState :=
    ⟨rfl, rfl, le_add_of_nonneg_right hb.le⟩
  have hle := gained_add_le hvalidW hcons.spacing_pos hexact hstays .refl hahead hinvA hinvW hinvB
    hb rfl hlimit rfl rfl hrunA hrunB hrunW
  have houtA := SwapArgs.outputOf_exactInput (args.exactInput_withAmount ha) middle
  have houtB := SwapArgs.outputOf_exactInput
    ((args.after ((args.withAmount a).result middle) b).exactInput_withAmount hb) finalB
  have houtW := SwapArgs.outputOf_exactInput hexact finalW
  change args.outputOf _ = _ at houtA houtB houtW
  rw [houtA, houtW]
  exact le_trans (add_le_add le_rfl houtB.le) hle

/-- An input that fits into 256 bits together with the starting price stays exact. -/
theorem SwapArgs.staysExact_of_lt (hvalid : args.Valid) (hcons : args.Consistent)
    (hexact : args.exactInput = true) (hfee : 0 ≤ args.fee)
    (hfits : args.amountSpecified * args.sqrtPriceX96Start < maxUint256) : args.StaysExact := by
  intro hz state stop hvisits hguard hstop hshort
  have hinv : args.Inv state ∧ state.amountSpecifiedRemaining ≤ args.amountSpecified := by
    clear hguard hstop hshort
    induction hvisits with
    | refl => exact ⟨SwapArgs.initial_inv hvalid hcons, le_rfl⟩
    | tail _ hiter ih =>
        obtain ⟨stop, step, hpass⟩ := SwapArgs.body_exactInput hcons.spacing_pos hexact ih.1 hiter
        refine ⟨SwapArgs.body_inv hvalid hcons.spacing_pos ih.1 hiter, ?_⟩
        have hpos := remaining_pos hexact ih.1 hiter.1
        rcases hpass.ends with ⟨-, hfee0, hfee1, -, hrem⟩ | ⟨-, -, -, -, -, hrem⟩
        · have hin := inputAmount_nonneg hpass.liquidity_nonneg hpass.price_pos hpass.target_pos
            hpass.toward_target
          have hcharge := ceilDiv_nonneg (mul_nonneg hin hfee0) (by omega : 0 < 1000000 - args.fee)
          unfold withFee at hrem
          omega
        · omega
  have hdown : state.sqrtPriceX96 ≤ args.sqrtPriceX96Start := by
    simpa [hz, Toward] using hinv.1.moved
  have hpos := remaining_pos hexact hinv.1 hguard
  have hprice : 0 < state.sqrtPriceX96 :=
    lt_of_lt_of_le (by decide) hinv.1.price_within.mem.1
  have hless : lessFee state.amountSpecifiedRemaining args.fee ≤ args.amountSpecified := by
    refine le_trans (Int.ediv_le_of_le_mul (by norm_num) ?_) hinv.2
    exact mul_le_mul_of_nonneg_left (by omega) hpos.le
  calc lessFee state.amountSpecifiedRemaining args.fee * state.sqrtPriceX96
      ≤ args.amountSpecified * args.sqrtPriceX96Start :=
        mul_le_mul hless hdown hprice.le (hpos.le.trans hinv.2)
    _ < maxUint256 := hfits

/-- Splitting gains nothing, and more input never pays out less. -/
theorem calculateSwap_splitting (hcons : args.Consistent) :
    (∀ a b first second whole fuel fuel' fuel'', 0 < a → 0 < b →
      calculateSwap fuel (args.withAmount a) = some (.ok first) →
      calculateSwap fuel' (args.after first b) = some (.ok second) →
      calculateSwap fuel'' (args.withAmount (a + b)) = some (.ok whole) →
      (args.withAmount (a + b)).StaysExact →
        args.outputOf first + args.outputOf second ≤ args.outputOf whole) ∧
    ∀ a b less more fuel fuel', 0 < a → a ≤ b →
      calculateSwap fuel (args.withAmount a) = some (.ok less) →
      calculateSwap fuel' (args.withAmount b) = some (.ok more) →
        args.outputOf less ≤ args.outputOf more := by
  constructor
  · intro a b first second whole fuel fuel' fuel'' ha hb hfirst hsecond hwhole hstays
    exact calculateSwap_add_le hcons ha hb hfirst hsecond hwhole hstays
  · intro a b less more fuel fuel' ha hab hless hmore
    exact calculateSwap_mono hcons ha hab hless hmore

/-- `sampleSwap` in the other direction. -/
def sampleSwapDown : SwapArgs :=
  { sampleSwap with zeroForOne := true, sqrtPriceLimitX96 := minSqrtRatio + 1 }

/-- 1000 in one swap, and in two of 400 and 600. -/
theorem calculateSwap_splitting_sample :
    calculateSwap 5 (sampleSwapDown.withAmount 400) =
        some (.ok ⟨400, -397, 79228162514264306060735269659, 10 ^ 18, -1⟩) ∧
      sampleSwapDown.outputOf ⟨400, -397, 79228162514264306060735269659, 10 ^ 18, -1⟩ +
          sampleSwapDown.outputOf ⟨600, -597, 79228162514264258682294086129, 10 ^ 18, -1⟩ ≤
        sampleSwapDown.outputOf ⟨1000, -996, 79228162514264258603065923615, 10 ^ 18, -1⟩ ∧
      sampleSwapDown.outputOf ⟨400, -397, 79228162514264306060735269659, 10 ^ 18, -1⟩ ≤
        sampleSwapDown.outputOf ⟨1000, -996, 79228162514264258603065923615, 10 ^ 18, -1⟩ := by
  have hcons : sampleSwapDown.Consistent := by
    refine ⟨by decide, by decide, ?_⟩
    exact ⟨2 ^ 96, 79232123823359799118286999568, by decide, by decide, by decide, by decide⟩
  have hfirst : calculateSwap 5 (sampleSwapDown.withAmount 400) =
      some (.ok ⟨400, -397, 79228162514264306060735269659, 10 ^ 18, -1⟩) := by decide +kernel
  have hsecond : calculateSwap 5 (sampleSwapDown.after
      ⟨400, -397, 79228162514264306060735269659, 10 ^ 18, -1⟩ 600) =
      some (.ok ⟨600, -597, 79228162514264258682294086129, 10 ^ 18, -1⟩) := by decide +kernel
  have hwhole : calculateSwap 5 (sampleSwapDown.withAmount (400 + 600)) =
      some (.ok ⟨1000, -996, 79228162514264258603065923615, 10 ^ 18, -1⟩) := by decide +kernel
  have hstays : (sampleSwapDown.withAmount (400 + 600)).StaysExact := by
    apply SwapArgs.staysExact_of_lt _ _ (by decide) (by decide) (by decide)
    · exact SwapArgs.check_eq_ok_iff.mp (by decide)
    · exact ⟨hcons.spacing_pos, hcons.liquidity_eq, hcons.price_within⟩
  exact ⟨hfirst, (calculateSwap_splitting hcons).1 400 600 _ _ _ 5 5 5 (by decide) (by decide)
      hfirst hsecond hwhole hstays,
    (calculateSwap_splitting hcons).2 400 (400 + 600) _ _ 5 5 (by decide) (by decide) hfirst
      hwhole⟩

end Degenbot.V3
