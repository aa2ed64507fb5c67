import Degenbot.Verification.Simulator.Progress
import Degenbot.Verification.V3.Comparison

/-! # The swap loop of `v3.rs` and `calculate_swap`

Both loops visit the same stops, and the checked operations of `v3.rs` succeed on a
consistent pool. With vendored functions that agree with their ports on the steps of the
swap, the two have the same outcome. -/

namespace Degenbot.V3Simulation

open Library V3

/-! ## Outputs fit -/

/-- One step releases less than `2 ^ 192`. -/
theorem outputAmount_le {z : Bool} {liquidity current price : ℤ} (hL : 0 ≤ liquidity)
    (hLmax : liquidity < 2 ^ 128) (hmin : minSqrtRatio ≤ current) (hmax : current ≤ maxSqrtRatio)
    (hp : 0 < price) : outputAmount z liquidity current price ≤ 2 ^ 192 := by
  simp only [minSqrtRatio] at hmin
  simp only [maxSqrtRatio] at hmax
  cases z with
  | true =>
      simp only [outputAmount, if_true, q96]
      have hmove : liquidity * (current - price) ≤ liquidity * 2 ^ 160 :=
        mul_le_mul_of_nonneg_left (by omega) hL
      have hcap : liquidity * 2 ^ 160 ≤ 2 ^ 128 * 2 ^ 160 :=
        mul_le_mul_of_nonneg_right hLmax.le (by norm_num)
      apply Int.ediv_le_of_le_mul (by norm_num)
      calc liquidity * (current - price) ≤ 2 ^ 128 * 2 ^ 160 := hmove.trans hcap
        _ = 2 ^ 192 * 2 ^ 96 := by norm_num
  | false =>
      simp only [outputAmount, Bool.false_eq_true, if_false, q96]
      have hbase : 0 ≤ liquidity * 2 ^ 96 := mul_nonneg hL (by norm_num)
      have hquot : liquidity * 2 ^ 96 * (price - current) / price ≤ liquidity * 2 ^ 96 := by
        apply Int.ediv_le_of_le_mul hp
        exact mul_le_mul_of_nonneg_left (by omega) hbase
      have hcap : liquidity * 2 ^ 96 ≤ 2 ^ 128 * 2 ^ 96 :=
        mul_le_mul_of_nonneg_right hLmax.le (by norm_num)
      have hcurrent : (2 : ℤ) ^ 32 ≤ current := by
        norm_num
        omega
      apply Int.ediv_le_of_le_mul (by omega)
      calc liquidity * 2 ^ 96 * (price - current) / price ≤ 2 ^ 128 * 2 ^ 96 := hquot.trans hcap
        _ = 2 ^ 192 * 2 ^ 32 := by norm_num
        _ ≤ 2 ^ 192 * current := mul_le_mul_of_nonneg_left hcurrent (by norm_num)

theorem computeSwapStep_amountOut_le {current target liquidity remaining fee : ℤ} {step : SwapStep}
    (hrem : 0 ≤ remaining) (hLmax : liquidity < 2 ^ 128) (hmin : minSqrtRatio ≤ current)
    (hmax : current ≤ maxSqrtRatio)
    (h : computeSwapStep current target liquidity remaining fee = .ok step) :
    step.amountOut ≤ 2 ^ 192 := by
  obtain ⟨hL, hc, ht, hcases⟩ := computeSwapStep_exactIn hrem h
  rcases hcases with ⟨-, -, rfl⟩ | ⟨-, -, -, -, hto, hfrom, rfl⟩
  · exact outputAmount_le hL hLmax hmin hmax ht
  · exact outputAmount_le hL hLmax hmin hmax (pos_of_toward hc ht hto hfrom)

/-! ## One pass -/

/-- The two loops at the same point of the swap. -/
structure SameLoop (args : SwapArgs) (state : SwapState) (loop : LoopState) : Prop where
  visited : Visits args.guard args.body args.initialState state
  inv : args.Inv state
  ticks : ∃ g, state.ticks = some g
  price_eq : state.sqrtPriceX96 = loop.sqrtPrice
  tick_eq : state.tick = loop.tick
  tick_le : args.zeroForOne = true → state.tick ≤ args.tickStart
  liquidity_eq : state.liquidity = loop.liquidity
  remaining_eq : state.amountSpecifiedRemaining = loop.amountRemaining
  remaining_lt : state.amountSpecifiedRemaining < 2 ^ 255
  calculated_eq : state.amountCalculated = loop.amountCalculated
  calculated_mem : state.amountCalculated ≤ 0 ∧
    -state.amountCalculated + room args state * 2 ^ 192 ≤ 2 ^ 21 * 2 ^ 192

theorem clamp_eq {z : Bool} {tick stop : ℤ} (hv : ValidTick tick) (hv' : ValidTick (tick + 1))
    (hdir : if z then stop ≤ tick else tick < stop) :
    max (-887272) (min stop 887272) = clampTick z stop ∧ ValidTick (clampTick z stop) := by
  obtain ⟨hlow, hhigh⟩ := hv
  obtain ⟨hlow', hhigh'⟩ := hv'
  cases z with
  | true =>
      simp only [if_true] at hdir
      simp only [clampTick, if_true]
      exact ⟨by omega, by constructor <;> omega⟩
  | false =>
      simp only [Bool.false_eq_true, if_false] at hdir
      simp only [clampTick, Bool.false_eq_true, if_false]
      exact ⟨by omega, by constructor <;> omega⟩

theorem target_eq (z : Bool) (next limit : ℕ) :
    getSqrtPriceTarget z next limit =
      ((if z then max next limit else min next limit : ℕ) : ℤ) := by
  cases z with
  | true =>
      simp only [getSqrtPriceTarget, true_and, not_true_eq_false, false_and, or_false, if_true]
      split_ifs <;> omega
  | false =>
      simp only [getSqrtPriceTarget, Bool.false_eq_true, false_and, not_false_eq_true, true_and,
        false_or, if_false]
      split_ifs <;> omega

section Pass

variable {math : UniswapV3Math} {pool : V3Snapshot} {args : SwapArgs} {amountIn : ℕ}
  {state : SwapState} {loop : LoopState}

/-- The next stop, for both walks. -/
theorem SameLoop.nextTick (h : SameLoop args state loop) (hrep : Represents pool args)
    (hguard : args.guard state = true) :
    ∃ stop g, args.snapshot.nextTick args.zeroForOne state = .ok (stop, some g) ∧
      nextInitializedTickWithinOneWord (getTick pool) loop.tick pool.tickSpacing args.zeroForOne =
        .ok stop ∧
      IsNextStop args.snapshot.tickData args.snapshot.tickSpacing args.zeroForOne state.tick
        stop.1 ∧ (stop.2 = true ↔ stop.1 ∈ args.snapshot.tickData) := by
  have hs := hrep.complete.spacing_pos
  obtain ⟨g, hticks⟩ := h.ticks
  have hnext : args.snapshot.nextTick args.zeroForOne state = .ok (g.next.1, some g.next.2) := by
    simp only [LiquidityMapSnapshot.nextTick, hticks]
  obtain ⟨hstop, hflag, -⟩ := SwapArgs.nextTick_spec hs (h.inv.walk hguard) hnext
  obtain ⟨next, hnext', hsearch⟩ := hrep.complete.search_spec state.tick args.zeroForOne
  refine ⟨g.next.1, g.next.2, hnext, ?_, hstop, hflag⟩
  rw [hrep.spacing_eq, ← h.tick_eq, hsearch]
  congr 1
  refine Prod.ext (hnext'.unique hstop) ?_
  rw [hnext'.unique hstop]
  by_cases hmem : g.next.1.1 ∈ args.snapshot.tickData
  · rw [hflag.mpr hmem, decide_eq_true hmem]
  · rw [decide_eq_false hmem]
    exact (Bool.eq_false_iff.mpr fun htrue => hmem (hflag.mp htrue)).symm

/-- The amounts of a step pass every check. -/
theorem SameLoop.applyStep_eq (h : SameLoop args state loop) {step : StepResult} {target : ℤ}
    (hexact : args.exactInput = true) (hbounded : Bounded args)
    (hstep : computeSwapStep state.sqrtPriceX96 target state.liquidity
      state.amountSpecifiedRemaining args.fee = .ok step.toSwapStep) :
    applyStep loop step = .ok { loop with
      sqrtPrice := step.sqrtRatioNextX96
      amountRemaining := loop.amountRemaining - (step.amountIn + step.feeAmount)
      amountCalculated := loop.amountCalculated - step.amountOut } := by
  have hsign := h.inv.signKept
  simp only [SwapArgs.SignKept, hexact, if_true] at hsign
  have hle := (computeSwapStep_spec hstep).input_le hsign
  change (step.amountIn : ℤ) + step.feeAmount ≤ state.amountSpecifiedRemaining at hle
  have hlt := h.remaining_lt
  rw [h.remaining_eq] at hle hlt
  have hmem := h.inv.price_within.mem
  have hL : state.liquidity < 2 ^ 128 := by
    rw [h.inv.liquidity_eq]
    exact (hbounded.liquidity_mem state.tick).2
  have hout := computeSwapStep_amountOut_le hsign hL hmem.1 hmem.2 hstep
  change (step.amountOut : ℤ) ≤ 2 ^ 192 at hout
  obtain ⟨hcalc, hroom⟩ := h.calculated_mem
  have hroom_nonneg := room_nonneg args state
  rw [h.calculated_eq] at hcalc hroom
  have hcap : -loop.amountCalculated ≤ 2 ^ 21 * 2 ^ 192 := by
    have hmul : 0 ≤ room args state * 2 ^ 192 := mul_nonneg hroom_nonneg (by norm_num)
    linarith
  have hsmall : ¬2 ^ 256 ≤ step.amountIn + step.feeAmount := by
    intro hbig
    have hcast : (2 : ℤ) ^ 256 ≤ step.amountIn + step.feeAmount := by exact_mod_cast hbig
    norm_num at hcast hle hlt
    omega
  have hconsumed : toI256 (step.amountIn + step.feeAmount : ℕ)
      "v3::amount_out: step input exceeds I256" = .ok (step.amountIn + step.feeAmount : ℕ) := by
    apply toI256_of_mem
    · exact le_trans (by norm_num) (Int.natCast_nonneg _)
    · exact lt_of_le_of_lt (by exact_mod_cast hle) hlt
  have hremaining : toI256 (loop.amountRemaining - (step.amountIn + step.feeAmount : ℕ))
      "v3::amount_out: amount_remaining underflow" =
      .ok (loop.amountRemaining - (step.amountIn + step.feeAmount : ℕ)) := by
    apply toI256_of_mem
    · push_cast
      exact le_trans (by norm_num) (sub_nonneg.mpr hle)
    · exact lt_of_le_of_lt (by push_cast; omega) hlt
  have hamountOut : toI256 step.amountOut "v3::amount_out: step output exceeds I256" =
      .ok (step.amountOut : ℤ) := by
    apply toI256_of_mem
    · exact le_trans (by norm_num) (Int.natCast_nonneg _)
    · exact lt_of_le_of_lt hout (by norm_num)
  have hcalculated : toI256 (loop.amountCalculated - step.amountOut)
      "v3::amount_out: amount_calculated underflow" =
      .ok (loop.amountCalculated - step.amountOut) := by
    apply toI256_of_mem
    · norm_num at hout hcap ⊢
      linarith
    · have hnonpos : loop.amountCalculated - step.amountOut ≤ 0 := by omega
      exact lt_of_le_of_lt hnonpos (by norm_num)
  rw [applyStep]
  simp only [if_neg hsmall, hconsumed, hremaining, hamountOut, hcalculated, ok_bind]
  rw [Nat.cast_add]

theorem negI128_of_gt {net : ℤ} (hlow : -2 ^ 127 < net) (hhigh : net < 2 ^ 127) :
    negI128 net = -net := by
  rw [negI128]
  apply Int.bmod_eq_of_le_mul_two <;> norm_num at hlow hhigh ⊢ <;> omega

/-- Crossing a stop changes the active liquidity in the same way. -/
theorem crossTick_eq {stop liquidity : ℤ} (hrep : Represents pool args)
    (hmem : stop ∈ args.snapshot.tickData)
    (hlow : args.zeroForOne = true → -2 ^ 127 < netAt args.snapshot.tickData stop) {next : ℤ}
    (hcross : args.snapshot.crossTick args.zeroForOne stop liquidity = .ok next)
    (hnext : 0 ≤ next ∧ next < 2 ^ 128) :
    crossTick pool args.zeroForOne stop liquidity = .ok next := by
  obtain ⟨info, hinfo⟩ := Option.isSome_iff_exists.mp (AList.lookup_isSome.mpr hmem)
  have hnet := netAt_of_lookup hinfo
  have hhigh := info.net_mem.2
  simp only [LiquidityMapSnapshot.crossTick, hinfo, Except.ok.injEq] at hcross
  rw [crossTick, hrep.nets_eq stop hmem, Option.getD_some, hnet]
  rw [hnet] at hlow
  have hneg : (if args.zeroForOne = true then negI128 info.liquidityNet else info.liquidityNet) =
      if args.zeroForOne = true then -info.liquidityNet else info.liquidityNet := by
    split_ifs with hz
    · exact negI128_of_gt (hlow hz) (by simp only [maxInt128] at hhigh; omega)
    · rfl
  rw [hneg]
  generalize (if args.zeroForOne = true then -info.liquidityNet else info.liquidityNet) = delta at *
  rw [addDelta]
  subst hcross
  split_ifs with hsub hunder hover
  · omega
  · congr 1
    omega
  · omega
  · rfl

/-- A lower price is in no higher tick. -/
theorem tick_le_of_lt {price price' tick tick' : ℤ} (h : PriceWithinTick price tick)
    (h' : PriceWithinTick price' tick') (hlt : price' < price) : tick' ≤ tick := by
  obtain ⟨-, hv, -, hhigh⟩ := priceWithinTick_iff.mp h
  obtain ⟨hv', -, hlow, -⟩ := priceWithinTick_iff.mp h'
  by_contra hgt
  have hmono : sqrtRatio (tick + 1) ≤ sqrtRatio tick' := sqrtRatio_mono hv hv' (by omega)
  have hcast : (sqrtRatio (tick + 1) : ℤ) ≤ sqrtRatio tick' := by exact_mod_cast hmono
  omega

/-- A pass that moves both loops by one swap step keeps them together. -/
theorem SameLoop.stepped (h : SameLoop args state loop) (hvalid : args.Valid)
    (hrep : Represents pool args) (hexact : args.exactInput = true) (hbounded : Bounded args)
    {state' : SwapState} {loop' : LoopState} {step : StepResult} {target : ℤ}
    (hiter : Iterates args.guard args.body state state')
    (hstep : computeSwapStep state.sqrtPriceX96 target state.liquidity
      state.amountSpecifiedRemaining args.fee = .ok step.toSwapStep)
    (hprice : state'.sqrtPriceX96 = step.sqrtRatioNextX96)
    (hrem : state'.amountSpecifiedRemaining =
      state.amountSpecifiedRemaining - ((step.amountIn : ℤ) + step.feeAmount))
    (hcalc : state'.amountCalculated = state.amountCalculated - step.amountOut)
    (hticks : ∃ g, state'.ticks = some g)
    (hle : args.zeroForOne = true → state'.tick ≤ state.tick)
    (hprice' : loop'.sqrtPrice = step.sqrtRatioNextX96) (htick' : loop'.tick = state'.tick)
    (hliquidity' : loop'.liquidity = state'.liquidity)
    (hrem' : loop'.amountRemaining =
      loop.amountRemaining - ((step.amountIn : ℤ) + step.feeAmount))
    (hcalc' : loop'.amountCalculated = loop.amountCalculated - step.amountOut) :
    SameLoop args state' loop' := by
  have hspacing := hrep.complete.spacing_pos
  have hsign := h.inv.signKept
  simp only [SwapArgs.SignKept, hexact, if_true] at hsign
  have hconsumed := (computeSwapStep_spec hstep).input_nonneg hsign
  change 0 ≤ (step.amountIn : ℤ) + step.feeAmount at hconsumed
  have hL : state.liquidity < 2 ^ 128 := by
    rw [h.inv.liquidity_eq]
    exact (hbounded.liquidity_mem state.tick).2
  have hmem := h.inv.price_within.mem
  have hout := computeSwapStep_amountOut_le hsign hL hmem.1 hmem.2 hstep
  change (step.amountOut : ℤ) ≤ 2 ^ 192 at hout
  have hroom := room_step hvalid hspacing h.inv hiter
  obtain ⟨hnonpos, htotal⟩ := h.calculated_mem
  exact {
    visited := h.visited.tail hiter
    inv := SwapArgs.body_inv hvalid hspacing h.inv hiter
    ticks := hticks
    price_eq := by rw [hprice, hprice']
    tick_eq := htick'.symm
    tick_le := fun hz => (hle hz).trans (h.tick_le hz)
    liquidity_eq := hliquidity'.symm
    remaining_eq := by rw [hrem, hrem', h.remaining_eq]
    remaining_lt := by
      rw [hrem]
      exact lt_of_le_of_lt (by linarith) h.remaining_lt
    calculated_eq := by rw [hcalc, hcalc', h.calculated_eq]
    calculated_mem := by
      rw [hcalc]
      have hmul : (room args state' + 1) * 2 ^ 192 ≤ room args state * 2 ^ 192 :=
        mul_le_mul_of_nonneg_right hroom (by norm_num)
      exact ⟨by omega, by linarith⟩ }

/-- A stop that the price stands on is crossed alike, initialized or not. -/
theorem crossStop_eq {initialized : Bool} {stop liquidity next : ℤ} (hrep : Represents pool args)
    (hflag : initialized = true → stop ∈ args.snapshot.tickData)
    (hlow : args.zeroForOne = true → initialized = true →
      -2 ^ 127 < netAt args.snapshot.tickData stop)
    (hcross : (if initialized then args.snapshot.crossTick args.zeroForOne stop liquidity
      else .ok liquidity) = .ok next)
    (hnext : 0 ≤ next ∧ next < 2 ^ 128) :
    (if initialized then crossTick pool args.zeroForOne stop liquidity else .ok liquidity) =
      .ok next := by
  by_cases hinit : initialized = true
  · rw [if_pos hinit] at hcross ⊢
    exact crossTick_eq hrep (hflag hinit) (fun hz => hlow hz hinit) hcross hnext
  · rw [if_neg hinit] at hcross ⊢
    cases hcross
    rfl

/-- The end of a pass, once the step is known. -/
theorem SameLoop.finish (h : SameLoop args state loop) (hvalid : args.Valid)
    (hrep : Represents pool args) (hin : ExactInput args amountIn)
    (hbounded : Bounded args) (hagrees : AgreesOn math args)
    (hguard : args.guard state = true) {stop : ℤ × Bool} {g : TickGen} {sqrtPriceNext : ℕ}
    {step : StepResult} {state' : SwapState}
    (hbody : args.body state = .ok state')
    (hflag : stop.2 = true ↔ stop.1 ∈ args.snapshot.tickData)
    (hdir : args.zeroForOne = true → stop.1 ≤ state.tick)
    (hprogress : Toward args.zeroForOne state.sqrtPriceX96 step.sqrtRatioNextX96)
    (hratio : (sqrtPriceNext : ℤ) = sqrtRatio (clampTick args.zeroForOne stop.1))
    (hstep : computeSwapStep state.sqrtPriceX96
      (getSqrtPriceTarget args.zeroForOne sqrtPriceNext args.sqrtPriceLimitX96)
      state.liquidity state.amountSpecifiedRemaining args.fee = .ok step.toSwapStep)
    (hfinish : args.snapshot.finishStep getTickAtSqrtRatio args.zeroForOne stop.2
      (clampTick args.zeroForOne stop.1) sqrtPriceNext state.sqrtPriceX96
      (args.applyAmounts { state with ticks := some g } step.toSwapStep) = .ok state') :
    ∃ loop', (applyStep loop step >>= fun moved =>
      finishPass math pool args.zeroForOne stop.2 (clampTick args.zeroForOne stop.1) sqrtPriceNext
        loop.sqrtPrice moved) = .ok loop' ∧ SameLoop args state' loop' := by
  have hs := hrep.complete.spacing_pos
  have hexact := hin.exact
  have hiter : Iterates args.guard args.body state state' := ⟨hguard, hbody⟩
  have hinv' := SwapArgs.body_inv hvalid hs h.inv hiter
  obtain ⟨hrem, hcalc, hprice, hticks⟩ := finishStep_frame hfinish
  have happlied : args.applyAmounts { state with ticks := some g } step.toSwapStep =
      { state with
        amountSpecifiedRemaining :=
          state.amountSpecifiedRemaining - ((step.amountIn : ℤ) + step.feeAmount)
        amountCalculated := state.amountCalculated - step.amountOut
        sqrtPriceX96 := step.sqrtRatioNextX96
        ticks := some g } := by
    simp only [SwapArgs.applyAmounts, hexact, if_true]
    rfl
  rw [happlied] at hrem hcalc hprice hticks hfinish
  rw [h.applyStep_eq hexact hbounded hstep, ok_bind]
  have hprice_eq := h.price_eq
  rcases finishStep_cases hfinish with ⟨hreached, liquidity, hcross, rfl⟩ |
    ⟨hshort, hmoved, tick, htick, rfl⟩ | ⟨hshort, hstill, rfl⟩
  · -- the price stands on the stop
    dsimp only at hreached hcross hinv'
    have hreached' : step.sqrtRatioNextX96 = sqrtPriceNext := by exact_mod_cast hreached
    have hwithin := hinv'.within_limit
    dsimp only at hwithin
    rw [hreached, hratio] at hwithin
    have hclamp := clampTick_of_within hvalid hwithin
    rw [hclamp] at hcross
    have hnext : 0 ≤ liquidity ∧ liquidity < 2 ^ 128 := by
      have heq := hinv'.liquidity_eq
      dsimp only at heq
      rw [heq]
      exact hbounded.liquidity_mem _
    have hlow : args.zeroForOne = true → stop.2 = true →
        -2 ^ 127 < netAt args.snapshot.tickData stop.1 := fun hz hinit =>
      hbounded.net_gt hz stop.1 (hflag.mp hinit) ((hdir hz).trans (h.tick_le hz))
    have hcross' := crossStop_eq hrep hflag.mp hlow hcross hnext
    rw [h.liquidity_eq, ← hclamp] at hcross'
    rw [finishPass, if_pos hreached', hcross', ok_bind]
    refine ⟨_, rfl, h.stepped hvalid hrep hexact hbounded hiter hstep hprice hrem hcalc ⟨g, hticks⟩
      (fun hz => ?_) rfl rfl rfl rfl rfl⟩
    have hstop := hdir hz
    rw [hclamp]
    simp only [hz, if_true]
    omega
  · -- the price moved and stopped short
    dsimp only at hshort hmoved htick hinv'
    have hshort' : step.sqrtRatioNextX96 ≠ sqrtPriceNext := by
      intro heq
      exact hshort (by exact_mod_cast heq)
    have hmoved' : step.sqrtRatioNextX96 ≠ loop.sqrtPrice := by
      intro heq
      exact hmoved (by rw [heq, hprice_eq])
    have hrange := getTickAtSqrtRatio_eq_ok_iff.mp htick
    have htick' : math.getTickAtSqrtRatio step.sqrtRatioNextX96 = .ok tick := by
      have hrel := hagrees.tick step.sqrtRatioNextX96 hrange.1 hrange.2.1
      exact (exceptRel_eq_iff.mp hrel tick).mpr htick
    rw [finishPass, if_neg hshort', if_pos hmoved', htick', ok_bind]
    refine ⟨_, rfl, h.stepped hvalid hrep hexact hbounded hiter hstep hprice hrem hcalc ⟨g, hticks⟩
      (fun hz => ?_) rfl rfl h.liquidity_eq.symm rfl rfl⟩
    exact tick_le_of_lt h.inv.price_within hinv'.price_within
      (lt_of_le_of_ne (by simpa [Toward, hz] using hprogress) hmoved)
  · -- nothing moved
    dsimp only at hshort hstill hinv'
    have hshort' : step.sqrtRatioNextX96 ≠ sqrtPriceNext := by
      intro heq
      exact hshort (by exact_mod_cast heq)
    have hstill' : ¬step.sqrtRatioNextX96 ≠ loop.sqrtPrice := by
      rw [hprice_eq] at hstill
      exact not_not.mpr (by exact_mod_cast hstill)
    rw [finishPass, if_neg hshort', if_neg hstill']
    exact ⟨_, rfl, h.stepped hvalid hrep hexact hbounded hiter hstep hprice hrem hcalc ⟨g, hticks⟩
      (fun _ => le_rfl) rfl h.tick_eq.symm h.liquidity_eq.symm rfl rfl⟩

/-- Related states have related outcomes of a pass. -/
theorem SameLoop.pass (h : SameLoop args state loop) (hvalid : args.Valid)
    (hrep : Represents pool args) (hin : ExactInput args amountIn)
    (hbounded : Bounded args) (hagrees : AgreesOn math args)
    (hguard : args.guard state = true) :
    ExceptRel (fun _ _ => True) (fun loop state => SameLoop args state loop)
      (pass math pool args.zeroForOne args.fee loop) (args.body state) := by
  obtain ⟨stop, g, hnext, hsearch, hstop, hflag⟩ := h.nextTick hrep hguard
  obtain ⟨hv, hv', -, -⟩ := priceWithinTick_iff.mp h.inv.price_within
  have hdir : if args.zeroForOne then stop.1 ≤ state.tick else state.tick < stop.1 := by
    cases hz : args.zeroForOne with
    | true => exact (hz ▸ hstop).le_tick
    | false => exact (hz ▸ hstop).tick_lt
  obtain ⟨hclamp, hvalidNext⟩ := clamp_eq hv hv' hdir
  have hratio := getSqrtRatioAtTick_eq_ok_iff.mpr ⟨hvalidNext, rfl⟩
  have hratioRel := hagrees.ratio _ hvalidNext
  rw [hratio] at hratioRel
  cases hmath : math.getSqrtRatioAtTick (clampTick args.zeroForOne stop.1) with
  | error e =>
      rw [hmath] at hratioRel
      cases hratioRel
  | ok sqrtPriceNext =>
      rw [hmath] at hratioRel
      have hcast : (sqrtPriceNext : ℤ) = sqrtRatio (clampTick args.zeroForOne stop.1) := by
        cases hratioRel
        assumption
      have hrange : (tickRange args.zeroForOne (clampTick args.zeroForOne stop.1)
          args.snapshot.tickSpacing).1 < (tickRange args.zeroForOne
          (clampTick args.zeroForOne stop.1) args.snapshot.tickSpacing).2 := by
        have hs := hrep.complete.spacing_pos
        unfold tickRange
        split_ifs <;> simpa using hs
      have hbody : args.body state = computeSwapStep state.sqrtPriceX96
          (getSqrtPriceTarget args.zeroForOne sqrtPriceNext args.sqrtPriceLimitX96)
          state.liquidity state.amountSpecifiedRemaining args.fee >>= fun step =>
            args.snapshot.finishStep getTickAtSqrtRatio args.zeroForOne stop.2
              (clampTick args.zeroForOne stop.1) sqrtPriceNext state.sqrtPriceX96
              (args.applyAmounts { state with ticks := some g } step) := by
        rw [SwapArgs.body, hnext, ok_bind]
        dsimp only
        rw [SwapArgs.moveTo, hratio, ok_bind, if_neg (not_not.mpr hrange), hcast]
      have hpass : V3Simulation.pass math pool args.zeroForOne args.fee loop =
          math.computeSwapStep loop.sqrtPrice
            (if args.zeroForOne then max sqrtPriceNext (sqrtPriceLimit args.zeroForOne)
              else min sqrtPriceNext (sqrtPriceLimit args.zeroForOne))
            state.liquidity state.amountSpecifiedRemaining args.fee >>= fun step =>
              applyStep loop step >>= fun moved => finishPass math pool args.zeroForOne stop.2
                (clampTick args.zeroForOne stop.1) sqrtPriceNext loop.sqrtPrice moved := by
        rw [V3Simulation.pass, hsearch, ok_bind]
        dsimp only
        rw [hclamp, hmath, ok_bind, h.liquidity_eq, h.remaining_eq]
      have hstepRel := hagrees.step state h.visited hguard loop.sqrtPrice
        (if args.zeroForOne then max sqrtPriceNext (sqrtPriceLimit args.zeroForOne)
          else min sqrtPriceNext (sqrtPriceLimit args.zeroForOne)) h.price_eq
      rw [← target_eq, ← hin.limit_eq, ← h.price_eq] at hstepRel
      rw [hpass, hbody]
      refine hstepRel.bind fun step step' _ hstep heq => ?_
      subst heq
      have hspec := computeSwapStep_spec hstep
      have htoward := SwapArgs.toward_stop h.inv hstop hratio
      rw [← hcast] at htoward
      obtain ⟨htarget, htlimit, -⟩ := V3.toward_getSqrtPriceTarget htoward h.inv.within_limit
      obtain ⟨hmoved, hshort⟩ := hspec.toward htarget
      obtain ⟨state', hfinish⟩ := finishStep_exists
        (args.applyAmounts { state with ticks := some g } step.toSwapStep) hvalid hflag
        h.inv.price_within.mem (by simpa using hmoved)
        (by simpa using toward_trans hshort htlimit)
      rw [← hcast] at hfinish
      have hok : args.body state = .ok state' := by
        rw [hbody, hstep, ok_bind, hfinish]
      obtain ⟨loop', hloop, hsame⟩ := h.finish hvalid hrep hin hbounded hagrees hguard hok hflag
        (fun hz => by rwa [hz] at hdir) hmoved hcast hstep hfinish
      rw [hfinish, hloop]
      exact .ok hsame

end Pass

/-! ## Whole swaps -/

section Swap

variable {math : UniswapV3Math} {pool : V3Snapshot} {args : SwapArgs} {amountIn : ℕ}

/-- The price lies strictly inside the extreme limit of the direction. -/
def Inside (args : SwapArgs) : Prop :=
  if args.zeroForOne then minSqrtRatio + 1 < args.sqrtPriceX96Start
  else args.sqrtPriceX96Start < maxSqrtRatio - 1

theorem sqrtPriceLimit_eq (z : Bool) :
    (sqrtPriceLimit z : ℤ) = if z then minSqrtRatio + 1 else maxSqrtRatio - 1 := by
  cases z <;> rfl

theorem valid_of_inside (hcons : args.Consistent) (hin : ExactInput args amountIn)
    (hbounded : Bounded args) (hinside : Inside args) : args.Valid := by
  have hlimit := hin.limit_eq
  rw [sqrtPriceLimit_eq] at hlimit
  refine ⟨?_, ?_, ?_, ?_⟩
  · rw [hcons.liquidity_eq]
    exact (hbounded.liquidity_mem _).1
  · have hpos := hin.amount_pos
    rw [hin.amount_eq]
    omega
  · intro hz
    simp only [Inside, hz, if_true] at hinside hlimit
    omega
  · intro hz
    simp only [Inside, hz, Bool.false_eq_true, if_false] at hinside hlimit
    omega

theorem sameLoop_initial (hvalid : args.Valid) (hcons : args.Consistent)
    (hrep : Represents pool args) (hin : ExactInput args amountIn) :
    SameLoop args args.initialState
      ⟨pool.sqrtPriceX96, pool.tick, pool.liquidity, amountIn, 0⟩ where
  visited := .refl
  inv := SwapArgs.initial_inv hvalid hcons
  ticks := by
    simp only [SwapArgs.initialState, LiquidityMapSnapshot.ticksAlongPath, hrep.full]
    exact ⟨_, rfl⟩
  price_eq := hrep.price_eq.symm
  tick_eq := hrep.tick_eq.symm
  tick_le := fun _ => le_rfl
  liquidity_eq := hrep.liquidity_eq.symm
  remaining_eq := hin.amount_eq
  remaining_lt := by
    have hlt := hin.amount_lt
    change args.amountSpecified < 2 ^ 255
    rw [hin.amount_eq]
    exact_mod_cast hlt
  calculated_eq := rfl
  calculated_mem := by
    have hroom := room_initial_le hcons
    refine ⟨le_rfl, ?_⟩
    change -0 + room args args.initialState * 2 ^ 192 ≤ 2 ^ 21 * 2 ^ 192
    rw [neg_zero, zero_add]
    exact mul_le_mul_of_nonneg_right hroom (by norm_num)

/-- A fee below 100 % passes the checks before the loop. -/
theorem swapLoop_eq (hrep : Represents pool args) (hin : ExactInput args amountIn)
    (hfee : pool.feeBps < 10000) (fuel : ℕ) :
    swapLoop math pool args.zeroForOne fuel amountIn =
      whileLoop (guard args.zeroForOne) (pass math pool args.zeroForOne args.fee) fuel
        ⟨pool.sqrtPriceX96, pool.tick, pool.liquidity, amountIn, 0⟩ := by
  have hspacing := hrep.complete.spacing_pos
  rw [← hrep.spacing_eq] at hspacing
  have hpips : pool.feePips = some args.fee := by
    rw [V3Snapshot.feePips, if_pos (by norm_num; omega), hrep.fee_eq]
  have hcheck := checkSwap_eq hfee hspacing hpips hin.amount_lt
  rw [swapLoop, hcheck]

theorem guard_eq (hin : ExactInput args amountIn) {state : SwapState} {loop : LoopState}
    (h : SameLoop args state loop) : guard args.zeroForOne loop = args.guard state := by
  have hprice : (loop.sqrtPrice = sqrtPriceLimit args.zeroForOne) ↔
      state.sqrtPriceX96 = args.sqrtPriceLimitX96 := by
    rw [h.price_eq, hin.limit_eq, Nat.cast_inj]
  simp only [guard, SwapArgs.guard, ne_eq, h.remaining_eq, hprice]

/-- What the Rust functions return corresponds to a result of the Python function. -/
structure SameResult (args : SwapArgs) (final : ℕ × V3Snapshot) (result : SwapResult) : Prop where
  out_eq : (final.1 : ℤ) = args.outputOf result
  price_eq : (final.2.sqrtPriceX96 : ℤ) = result.sqrtPriceX96
  tick_eq : final.2.tick = result.tick
  liquidity_eq : final.2.liquidity = result.liquidity

theorem SameLoop.result {state : SwapState} {loop : LoopState} (h : SameLoop args state loop)
    (hin : ExactInput args amountIn) (pool : V3Snapshot) :
    SameResult args (loop.amountOut, loop.nextPool pool) (args.result state) := by
  obtain ⟨hnonpos, htotal⟩ := h.calculated_mem
  have hroom := room_nonneg args state
  have hfit : -state.amountCalculated < 2 ^ 256 := by
    have hmul : 0 ≤ room args state * 2 ^ 192 := mul_nonneg hroom (by norm_num)
    have hle : -state.amountCalculated ≤ 2 ^ 21 * 2 ^ 192 := by linarith
    exact lt_of_le_of_lt hle (by norm_num)
  have hout : (loop.amountOut : ℤ) = -state.amountCalculated := by
    have hnonneg : 0 ≤ -state.amountCalculated := by omega
    rw [LoopState.amountOut, ← h.calculated_eq, Int.emod_eq_of_lt hnonneg hfit,
      Int.toNat_of_nonneg hnonneg]
  have houtput : args.outputOf (args.result state) = -state.amountCalculated := by
    cases hz : args.zeroForOne <;> simp [SwapArgs.outputOf, SwapArgs.result, hin.exact, hz]
  exact ⟨hout.trans houtput.symm, h.price_eq.symm, h.tick_eq.symm, h.liquidity_eq.symm⟩

/-- Strictly inside the price range, for a fee below 100 % and nets that can be negated where they
can be crossed downwards, both languages compute the same swap: neither returns a value that the
other does not. -/
theorem amountOut_eq_calculateSwap (h : Compared math pool args amountIn)
    (hnets : args.zeroForOne = true → ∀ t ∈ args.snapshot.tickData, t ≤ args.tickStart →
      -2 ^ 127 < netAt args.snapshot.tickData t)
    (hfee : pool.feeBps < 10000) (hinside : Inside args) :
    ∃ fuel outcome final out,
      (∀ fuel' ≥ fuel, calculateSwap fuel' args = some outcome ∧
        amountOutWithState math pool args.zeroForOne fuel' amountIn = some final ∧
        amountOut math pool args.zeroForOne fuel' amountIn = some out) ∧
      ExceptRel (fun _ _ => True) (SameResult args) final outcome ∧
      ExceptRel (fun _ _ => True) (fun (o : ℕ) result => (o : ℤ) = args.outputOf result) out
        outcome := by
  obtain ⟨hcons, hrep, hin, hliquidity, hagrees⟩ := h
  have hbounded : Bounded args := ⟨hliquidity, hnets⟩
  have hvalid := valid_of_inside hcons hin hbounded hinside
  obtain ⟨fuel, outcome, hrun⟩ := SwapArgs.exists_outcome hcons
  have hcheck := SwapArgs.check_eq_ok_iff.mpr hvalid
  have hpython : ∀ n, calculateSwap n args =
      (whileLoop args.guard args.body n args.initialState).map (·.map args.result) := by
    intro n
    rw [calculateSwap, hcheck]
  have hrel := whileLoop_rel (fun loop state h => guard_eq hin h)
    (fun loop state h hguard => h.pass hvalid hrep hin hbounded hagrees
      ((guard_eq hin h).symm.trans hguard)) fuel (sameLoop_initial hvalid hcons hrep hin)
  have hfirst := hrun fuel le_rfl
  rw [hpython] at hfirst
  cases hrust : whileLoop (guard args.zeroForOne) (pass math pool args.zeroForOne args.fee) fuel
      ⟨pool.sqrtPriceX96, pool.tick, pool.liquidity, amountIn, 0⟩ with
  | none =>
      rw [hrust] at hrel
      cases hloop : whileLoop args.guard args.body fuel args.initialState with
      | none =>
          rw [hloop] at hfirst
          cases hfirst
      | some r =>
          rw [hloop] at hrel
          cases hrel
  | some rust =>
      have hne : amountIn ≠ 0 := hin.amount_pos.ne'
      refine ⟨fuel, outcome, rust.map fun state => (state.amountOut, state.nextPool pool),
        rust.map LoopState.amountOut, ?_, ?_⟩
      · intro fuel' hfuel
        have hmore := whileLoop_mono hrust hfuel
        refine ⟨hrun fuel' hfuel, ?_, ?_⟩
        · rw [amountOutWithState, if_neg hne, swapLoop_eq hrep hin hfee, hmore]
          rfl
        · rw [amountOut, if_neg hne, swapLoop_eq hrep hin hfee, hmore]
          rfl
      · cases hloop : whileLoop args.guard args.body fuel args.initialState with
        | none =>
            rw [hloop] at hfirst
            cases hfirst
        | some python =>
            rw [hloop] at hfirst
            rw [hrust, hloop] at hrel
            cases hfirst
            cases hrel with
            | some hrel =>
                cases hrel with
                | error => exact ⟨.error trivial, .error trivial⟩
                | ok hsame =>
                    have hresult := hsame.result hin pool
                    exact ⟨.ok hresult, .ok hresult.out_eq⟩

end Swap

/-! ## Sample swaps -/

theorem sampleSwap_consistent : sampleSwap.Consistent := by
  refine ⟨by decide, by decide, ?_⟩
  exact ⟨2 ^ 96, 79232123823359799118286999568, by decide, by decide, by decide, by decide⟩

theorem sampleSwap_represents : Represents (snapshotOf sampleSwap 30) sampleSwap := by
  apply represents_snapshotOf (by decide) (by decide) rfl
  · decide +kernel
  · decide

theorem sampleSwap_compared : Compared portMath (snapshotOf sampleSwap 30) sampleSwap 1000 := by
  have hin : ExactInput sampleSwap 1000 := ⟨rfl, by decide, by decide, by decide⟩
  refine ⟨sampleSwap_consistent, sampleSwap_represents, hin, ?_, ?_⟩
  · exact liquidityAt_mem_of_keys (by decide)
  · apply portMath_agreesOn hin sampleSwap_consistent _ (by decide)
    exact SwapArgs.check_eq_ok_iff.mp (by decide)

theorem amountOut_eq_calculateSwap_sample :
    Compared portMath (snapshotOf sampleSwap 30) sampleSwap 1000 ∧
      ∃ fuel outcome final out,
        (∀ fuel' ≥ fuel, calculateSwap fuel' sampleSwap = some outcome ∧
          amountOutWithState portMath (snapshotOf sampleSwap 30) false fuel' 1000 = some final ∧
          amountOut portMath (snapshotOf sampleSwap 30) false fuel' 1000 = some out) ∧
        ExceptRel (fun _ _ => True) (SameResult sampleSwap) final outcome ∧
        ExceptRel (fun _ _ => True) (fun (o : ℕ) result => (o : ℤ) = sampleSwap.outputOf result)
          out outcome :=
  ⟨sampleSwap_compared, amountOut_eq_calculateSwap sampleSwap_compared (by decide) (by decide)
    (by show sampleSwap.sqrtPriceX96Start < maxSqrtRatio - 1; decide)⟩

/-- An empty pool whose price has fallen to the extreme limit. -/
def bottomSwap : SwapArgs where
  snapshot := ⟨∅, ∅, 60, false⟩
  zeroForOne := true
  amountSpecified := 1000
  sqrtPriceLimitX96 := minSqrtRatio + 1
  fee := 3000
  liquidityStart := 0
  sqrtPriceX96Start := minSqrtRatio + 1
  tickStart := -887272

/-- `sampleSwap` with a fee of 100 %. -/
def feeSwap : SwapArgs := { sampleSwap with fee := 1000000 }

/-- Two positions that end at the tick 60, whose net is the least `i128`. -/
def widestTickData : LiquidityMap :=
  ((AList.insert (-120) ⟨2 ^ 127 - 1, 2 ^ 127 - 1, 0, by decide, by decide⟩ ∅).insert (-60)
    ⟨1, 1, 0, by decide, by decide⟩).insert 60 ⟨-2 ^ 127, 2 ^ 127, 0, by decide, by decide⟩

theorem topBits_lt : 2 ^ 255 + 2 ^ 254 < 2 ^ 256 := by norm_num

theorem two_lt : 2 < 2 ^ 256 := by norm_num

def widestTickBitmap : InitializedTickMap :=
  (AList.insert (-1) ⟨2 ^ 255 + 2 ^ 254, 0, topBits_lt⟩ ∅).insert 0 ⟨2, 0, two_lt⟩

/-- A swap that enters both positions from above. -/
def enteringSwap : SwapArgs where
  snapshot := ⟨widestTickData, widestTickBitmap, 60, false⟩
  zeroForOne := true
  amountSpecified := 10 ^ 18
  sqrtPriceLimitX96 := minSqrtRatio + 1
  fee := 3000
  liquidityStart := 0
  sqrtPriceX96Start := 79470165176468181446539291819
  tickStart := 61

/-- Where no pass is made, no step is compared. -/
theorem portMath_agreesOn_stopped {args : SwapArgs}
    (hstop : args.guard args.initialState = false) : AgreesOn portMath args where
  ratio := fun tick _ => portMath_ratio tick
  tick := fun price _ _ => ofPort_rel fun _ _ => rfl
  step := by
    intro state hvisits hguard
    rcases hvisits.cases_head with rfl | ⟨next, hiter, -⟩
    · rw [hstop] at hguard
      cases hguard
    · rw [hiter.1] at hstop
      cases hstop

theorem bottomSwap_compared : Compared portMath (snapshotOf bottomSwap 30) bottomSwap 1000 := by
  refine ⟨⟨by decide, by decide, ?_⟩, ?_, ⟨rfl, by decide, by decide, by decide⟩,
    liquidityAt_mem_of_keys (by decide), portMath_agreesOn_stopped (by decide)⟩
  · exact priceWithinTick_iff.mpr (by decide)
  · apply represents_snapshotOf (by decide) (by decide) rfl
    · decide +kernel
    · decide

theorem feeSwap_compared : Compared portMath (snapshotOf feeSwap 10000) feeSwap 1000 := by
  have hcons : feeSwap.Consistent := ⟨sampleSwap_consistent.spacing_pos,
    sampleSwap_consistent.liquidity_eq, sampleSwap_consistent.price_within⟩
  have hin : ExactInput feeSwap 1000 := ⟨rfl, by decide, by decide, by decide⟩
  refine ⟨hcons, ?_, hin, liquidityAt_mem_of_keys (by decide), ?_⟩
  · apply represents_snapshotOf (by decide) (by decide) rfl
    · decide +kernel
    · decide
  · apply portMath_agreesOn hin hcons _ (by decide)
    exact SwapArgs.check_eq_ok_iff.mp (by decide)

theorem enteringSwap_compared :
    Compared portMath (snapshotOf enteringSwap 30) enteringSwap (10 ^ 18) := by
  have hcons : enteringSwap.Consistent := by
    refine ⟨by decide +kernel, by decide, ?_⟩
    exact priceWithinTick_iff.mpr (by decide)
  have hin : ExactInput enteringSwap (10 ^ 18) := ⟨rfl, by decide, by decide, by decide⟩
  refine ⟨hcons, ?_, hin, liquidityAt_mem_of_keys (by decide), ?_⟩
  · apply represents_snapshotOf (by decide) (by decide) rfl
    · decide +kernel
    · decide
  · apply portMath_agreesOn hin hcons _ (by decide)
    exact SwapArgs.check_eq_ok_iff.mp (by decide)

/-- Python rejects a price at the limit of its direction, and Rust a fee of 100 % and the least
`i128` as a net. -/
theorem amountOut_calculateSwap_differ :
    (Compared portMath (snapshotOf bottomSwap 30) bottomSwap 1000 ∧
      (∀ fuel, calculateSwap fuel bottomSwap = some (.error (.evmRevertError "SPL"))) ∧
      amountOut portMath (snapshotOf bottomSwap 30) true 1 1000 = some (.ok 0)) ∧
    (Compared portMath (snapshotOf feeSwap 10000) feeSwap 1000 ∧
      calculateSwap 3 feeSwap = some (.ok ⟨0, 1000, 2 ^ 96, 10 ^ 18, 0⟩) ∧
      amountOut portMath (snapshotOf feeSwap 10000) false 3 1000 =
        some (.error "v3::amount_out: fee_bps must be < 10000")) ∧
    (Compared portMath (snapshotOf enteringSwap 30) enteringSwap (10 ^ 18) ∧
      calculateSwap 4 enteringSwap = some (.ok ⟨10 ^ 18, -1002999679660589056,
        79466191966197645194954716711, 2 ^ 127, 59⟩) ∧
      amountOut portMath (snapshotOf enteringSwap 30) true 4 (10 ^ 18) =
        some (.error "Liquidity Sub")) := by
  refine ⟨⟨bottomSwap_compared, ?_, by decide⟩, ⟨feeSwap_compared, by decide, by decide⟩,
    ⟨enteringSwap_compared, by decide, by decide⟩⟩
  intro fuel
  rfl

end Degenbot.V3Simulation
