import Degenbot.Verification.Simulator.Loop

/-! # Sparse and full walks agree

The generator and the two searches visit the same stops, and a V3 swap has the same
outcome over a sparse map as over a full one. -/

namespace Degenbot

open Library

/-! ## Walks of any length -/

/-- `n` searches in a row, each resuming where the last one stopped. -/
def iterateSearch (search : ℤ → Except Exn (ℤ × Bool)) (lessThanOrEqual : Bool) :
    ℕ → ℤ → Except Exn (List (ℤ × Bool))
  | 0, _ => .ok []
  | n + 1, tick => do
      let stop ← search tick
      let rest ← iterateSearch search lessThanOrEqual n (advance lessThanOrEqual stop.1)
      .ok (stop :: rest)

/-- The first `n` values yielded by a generator. -/
def TickGen.take : ℕ → TickGen → List (ℤ × Bool)
  | 0, _ => []
  | n + 1, g => g.next.1 :: TickGen.take n g.next.2

/-- The ticks from which the first `n` searches of a walk start. -/
def TickGen.positions : ℕ → TickGen → ℤ → List ℤ
  | 0, _, _ => []
  | n + 1, g, tick =>
      tick :: TickGen.positions n g.next.2 (advance g.lessThanOrEqual g.next.1.1)

section Walk

variable {tickBitmap : InitializedTickMap} {tickData : LiquidityMap} {tickSpacing : ℤ}
  {lte : Bool}

/-- A search that returns the next stop returns what the generator yields. -/
theorem TickGen.At.next_eq_of_isNextStop {g : TickGen} {tick next : ℤ} (hs : 0 < tickSpacing)
    (hat : g.At tickData tickSpacing lte tick)
    (hnext : IsNextStop tickData tickSpacing lte tick next) :
    g.next.1 = (next, decide (next ∈ tickData)) := by
  obtain ⟨hstop, hflag, -⟩ := hat.next hs
  have heq : g.next.1.1 = next := hstop.unique hnext
  refine Prod.ext heq ?_
  rw [← heq]
  by_cases hin : g.next.1.1 ∈ tickData
  · simp [hin, hflag.mpr hin]
  · simpa [hin] using fun h => hin (hflag.mp h)

/-- Any search that returns the next stop wherever the touched word is present walks
along the generator. -/
theorem iterateSearch_eq_take {search : ℤ → Except Exn (ℤ × Bool)} (hs : 0 < tickSpacing)
    (hsearch : ∀ tick, touchedWord tickSpacing lte tick ∈ tickBitmap →
      ∃ next, IsNextStop tickData tickSpacing lte tick next ∧
        search tick = .ok (next, decide (next ∈ tickData)))
    (n : ℕ) {g : TickGen} {tick : ℤ} (hat : g.At tickData tickSpacing lte tick)
    (hwords : ∀ t ∈ g.positions n tick, touchedWord tickSpacing lte t ∈ tickBitmap) :
    iterateSearch search lte n tick = .ok (g.take n) := by
  induction n generalizing g tick with
  | zero => rfl
  | succ n ih =>
      simp only [TickGen.positions, List.mem_cons, forall_eq_or_imp] at hwords
      obtain ⟨next, hnext, hok⟩ := hsearch tick hwords.1
      have hyield := hat.next_eq_of_isNextStop hs hnext
      rw [← hyield] at hok
      have hrest := ih (hat.next hs).2.2 (by simpa [hat.direction] using hwords.2)
      simp [iterateSearch, hok, hrest, TickGen.take]

end Walk

/-! ## The swap over either walk -/

namespace V3

/-- The same swap, with the snapshot walked in sparse or in full mode. -/
def SwapArgs.withSparse (args : SwapArgs) (sparse : Bool) : SwapArgs :=
  { args with snapshot := { args.snapshot with sparse } }

/-- The map of the snapshot is consistent. -/
def SwapArgs.ConsistentMap (args : SwapArgs) : Prop :=
  ConsistentTickMap args.snapshot.tickBitmap args.snapshot.tickData args.snapshot.tickSpacing

/-- Every word that the sparse walk of this swap touches is present. -/
def SwapArgs.WordsPresent (args : SwapArgs) : Prop :=
  ∀ state, Visits (args.withSparse true).guard (args.withSparse true).body
      (args.withSparse true).initialState state → args.guard state = true →
    touchedWord args.snapshot.tickSpacing args.zeroForOne state.tick ∈ args.snapshot.tickBitmap

theorem finishStep_ticks (snapshot : LiquidityMapSnapshot) (getTick : ℤ → Except Exn ℤ)
    (z initialized : Bool) (tickNext next start : ℤ) (moved : SwapState)
    (ticks : Option TickGen) :
    snapshot.finishStep getTick z initialized tickNext next start { moved with ticks } =
      (snapshot.finishStep getTick z initialized tickNext next start moved).map
        fun final => { final with ticks } := by
  unfold LiquidityMapSnapshot.finishStep
  dsimp only
  by_cases hnext : moved.sqrtPriceX96 = next
  · rw [if_pos hnext, if_pos hnext]
    cases (if initialized = true then snapshot.crossTick z tickNext moved.liquidity
      else .ok moved.liquidity) <;> rfl
  · rw [if_neg hnext, if_neg hnext]
    by_cases hstart : moved.sqrtPriceX96 ≠ start
    · rw [if_pos hstart, if_pos hstart]
      cases getTick moved.sqrtPriceX96 <;> rfl
    · rw [if_neg hstart, if_neg hstart]
      rfl

/-- The generator is carried through a pass untouched. -/
theorem SwapArgs.moveTo_ticks (args : SwapArgs) (stop : ℤ × Bool) (state : SwapState)
    (ticks : Option TickGen) :
    args.moveTo stop { state with ticks } =
      (args.moveTo stop state).map fun final => { final with ticks } := by
  have happly : ∀ step, args.applyAmounts { state with ticks } step =
      { args.applyAmounts state step with ticks } := by
    intro step
    unfold SwapArgs.applyAmounts
    split <;> rfl
  unfold SwapArgs.moveTo
  dsimp only
  cases getSqrtRatioAtTick (clampTick args.zeroForOne stop.1) with
  | error e => rfl
  | ok sqrtPriceNext =>
      simp only [ok_bind]
      split_ifs
      · cases computeSwapStep state.sqrtPriceX96
            (getSqrtPriceTarget args.zeroForOne sqrtPriceNext args.sqrtPriceLimitX96)
            state.liquidity state.amountSpecifiedRemaining args.fee with
        | error e => rfl
        | ok step => rw [ok_bind, ok_bind, happly, finishStep_ticks]
      · rfl

@[simp] theorem SwapArgs.moveTo_withSparse (args : SwapArgs) (sparse : Bool) :
    (args.withSparse sparse).moveTo = args.moveTo := rfl

@[simp] theorem SwapArgs.guard_withSparse (args : SwapArgs) (sparse : Bool) :
    (args.withSparse sparse).guard = args.guard := rfl

/-- A sparse state and a full one at the same point of the swap. The generator of the
full run is only pinned down while another pass follows. -/
structure SwapArgs.SameSwap (args : SwapArgs) (sparse full : SwapState) : Prop where
  visited : Visits (args.withSparse true).guard (args.withSparse true).body
    (args.withSparse true).initialState sparse
  no_ticks : sparse.ticks = none
  signKept : args.SignKept sparse
  same : full = { sparse with ticks := full.ticks }
  generator : args.guard sparse = true → ∃ g, full.ticks = some g ∧
    g.At args.snapshot.tickData args.snapshot.tickSpacing args.zeroForOne sparse.tick

theorem SwapArgs.SameSwap.body {args : SwapArgs} (hvalid : args.Valid)
    (hcons : args.ConsistentMap) (hwords : args.WordsPresent) {sparse full : SwapState}
    (h : args.SameSwap sparse full) (hguard : args.guard sparse = true) :
    ExceptRel (· = ·) args.SameSwap ((args.withSparse true).body sparse)
      ((args.withSparse false).body full) := by
  have hs := hcons.spacing_pos
  obtain ⟨g, hticks, hat⟩ := h.generator hguard
  obtain ⟨next, hnext, hok⟩ :=
    nextInitializedTickWithinOneWord_spec args.snapshot.tickData hs
      (hwords sparse h.visited hguard)
  have hyield := hat.next_eq_of_isNextStop hs hnext
  -- both runs read the same stop
  have hsparse : (args.withSparse true).body sparse = args.moveTo g.next.1 sparse := by
    have hstop : (args.withSparse true).snapshot.nextTick args.zeroForOne sparse =
        .ok (g.next.1, none) := by
      simp only [LiquidityMapSnapshot.nextTick, h.no_ticks]
      simp [LiquidityMapSnapshot.nextInitializedTick, SwapArgs.withSparse, hok, hyield]
    have hzero : (args.withSparse true).zeroForOne = args.zeroForOne := rfl
    rw [SwapArgs.body, hzero, hstop, ok_bind, SwapArgs.moveTo_withSparse]
    change args.moveTo g.next.1 { sparse with ticks := none } = _
    rw [← h.no_ticks]
  have hfull : (args.withSparse false).body full =
      (args.moveTo g.next.1 sparse).map fun final => { final with ticks := some g.next.2 } := by
    have hstop : (args.withSparse false).snapshot.nextTick args.zeroForOne full =
        .ok (g.next.1, some g.next.2) := by
      simp only [LiquidityMapSnapshot.nextTick, hticks]
    have hzero : (args.withSparse false).zeroForOne = args.zeroForOne := rfl
    rw [SwapArgs.body, hzero, hstop, ok_bind, SwapArgs.moveTo_withSparse, h.same]
    exact args.moveTo_ticks g.next.1 sparse (some g.next.2)
  rw [hfull]
  cases hmove : args.moveTo g.next.1 sparse with
  | error e =>
      rw [hsparse, hmove]
      exact .error rfl
  | ok final =>
      rw [hsparse, hmove]
      obtain ⟨_, step, -, -, hfinish⟩ := SwapArgs.moveTo_eq_ok hmove
      refine .ok ⟨h.visited.tail ⟨hguard, hsparse.trans hmove⟩, ?_,
        SwapArgs.moveTo_signKept h.signKept hguard hmove, rfl, fun hguard' => ?_⟩
      · rw [(finishStep_frame hfinish).2.2.2, SwapArgs.applyAmounts_ticks, h.no_ticks]
      · obtain ⟨-, -, -, -, htick⟩ :=
          SwapArgs.moveTo_continues hvalid h.signKept hguard hmove hguard'
        exact ⟨g.next.2, rfl, htick ▸ (hat.next hs).2.2⟩

theorem SwapArgs.sameSwap_initial {args : SwapArgs} (hcons : args.ConsistentMap) :
    args.SameSwap (args.withSparse true).initialState (args.withSparse false).initialState where
  visited := .refl
  no_ticks := rfl
  signKept := by
    by_cases hpos : args.amountSpecified > 0
    · simpa [SwapArgs.SignKept, SwapArgs.exactInput, hpos, SwapArgs.initialState,
        SwapArgs.withSparse] using hpos.le
    · simpa [SwapArgs.SignKept, SwapArgs.exactInput, hpos, SwapArgs.initialState,
        SwapArgs.withSparse] using not_lt.mp hpos
  same := rfl
  generator _ := ⟨_, rfl, genTicks_at hcons.spacing_pos _ _ _⟩

/-- With every touched word present, the walk does not matter. -/
theorem calculateSwap_sparse_eq_full {args : SwapArgs} (hcons : args.ConsistentMap)
    (hwords : args.WordsPresent) (fuel : ℕ) :
    calculateSwap fuel (args.withSparse true) = calculateSwap fuel (args.withSparse false) := by
  unfold calculateSwap
  have hcheck : ∀ sparse, (args.withSparse sparse).check = args.check := fun _ => rfl
  rw [hcheck, hcheck]
  cases hok : args.check with
  | error e => rfl
  | ok u =>
      have hvalid := SwapArgs.check_eq_ok_iff.mp hok
      have hguard : ∀ s t, args.SameSwap s t →
          (args.withSparse true).guard s = (args.withSparse false).guard t := fun s t h => by
        rw [SwapArgs.guard_withSparse, SwapArgs.guard_withSparse, h.same]
        rfl
      have hbody : ∀ s t, args.SameSwap s t → (args.withSparse true).guard s = true →
          ExceptRel (· = ·) args.SameSwap ((args.withSparse true).body s)
            ((args.withSparse false).body t) :=
        fun s t h hguard => h.body hvalid hcons hwords hguard
      have hrel := whileLoop_rel hguard hbody fuel (SwapArgs.sameSwap_initial hcons)
      generalize whileLoop (args.withSparse true).guard (args.withSparse true).body fuel
        (args.withSparse true).initialState = sparse at hrel ⊢
      generalize whileLoop (args.withSparse false).guard (args.withSparse false).body fuel
        (args.withSparse false).initialState = full at hrel ⊢
      cases hrel with
      | none => rfl
      | some hrel =>
          cases hrel with
          | error he =>
              rw [he]
              rfl
          | ok h =>
              simp only [Option.map_some, Except.map]
              rw [h.same]
              rfl

end V3

/-! ## Agreement of the three walks -/

/-- On a consistent map, from any tick and in either direction, `gen_ticks` and both
searches produce the same stops as far as the words they touch are present, and a swap
over such a map does not depend on the mode of the walk. -/
theorem walks_agree {tickBitmap : InitializedTickMap} {tickData : LiquidityMap}
    {tickSpacing : ℤ} (hcons : ConsistentTickMap tickBitmap tickData tickSpacing)
    (startingTick : ℤ) (lessThanOrEqual : Bool) :
    (∀ n, (∀ t ∈ (genTicks tickData startingTick tickSpacing lessThanOrEqual).positions n
          startingTick, touchedWord tickSpacing lessThanOrEqual t ∈ tickBitmap) →
      iterateSearch (fun tick => nextInitializedTickWithinOneWord tickBitmap tickData tick
          tickSpacing lessThanOrEqual) lessThanOrEqual n startingTick =
        .ok ((genTicks tickData startingTick tickSpacing lessThanOrEqual).take n) ∧
      iterateSearch (fun tick => nextInitializedTickWithinOneWordLegacy tickBitmap tick
          tickSpacing lessThanOrEqual) lessThanOrEqual n startingTick =
        .ok ((genTicks tickData startingTick tickSpacing lessThanOrEqual).take n)) ∧
    ∀ args : V3.SwapArgs, args.snapshot.tickBitmap = tickBitmap →
      args.snapshot.tickData = tickData → args.snapshot.tickSpacing = tickSpacing →
      args.zeroForOne = lessThanOrEqual → args.tickStart = startingTick →
      args.WordsPresent → ∀ fuel,
        V3.calculateSwap fuel (args.withSparse true) =
          V3.calculateSwap fuel (args.withSparse false) := by
  have hs := hcons.spacing_pos
  have hat := genTicks_at hs tickData startingTick lessThanOrEqual
  constructor
  · intro n hwords
    constructor
    · exact iterateSearch_eq_take hs
        (fun tick hword => nextInitializedTickWithinOneWord_spec _ hs hword) n hat hwords
    · exact iterateSearch_eq_take hs
        (fun tick hword => nextInitializedTickWithinOneWordLegacy_spec hcons hword) n hat hwords
  · rintro args rfl rfl rfl rfl rfl hwords fuel
    exact V3.calculateSwap_sparse_eq_full hcons hwords fuel

theorem sampleSwap_wordsPresent : sampleSwap.WordsPresent := by
  have hbody : (sampleSwap.withSparse true).body (sampleSwap.withSparse true).initialState =
      .ok ⟨0, -996, 79228162514264416584021977057, 0, 10 ^ 18, none⟩ := by decide +kernel
  intro state hvisits hguard
  rcases visits_of_step hbody hvisits with rfl | hvisits
  · decide +kernel
  · obtain rfl := visits_of_exit (by decide +kernel) hvisits
    exact absurd hguard (by decide +kernel)

theorem walks_agree_sample :
    iterateSearch (fun tick => nextInitializedTickWithinOneWordLegacy sampleTickBitmap tick
        60 true) true 2 0 = .ok ((genTicks sampleTickData 0 60 true).take 2) ∧
      V3.calculateSwap 3 (sampleSwap.withSparse true) =
        V3.calculateSwap 3 (sampleSwap.withSparse false) :=
  have hcons : ConsistentTickMap sampleTickBitmap sampleTickData 60 := by decide +kernel
  ⟨((walks_agree hcons 0 true).1 2 (by decide +kernel)).2,
    (walks_agree hcons 0 false).2 sampleSwap rfl rfl rfl rfl rfl sampleSwap_wordsPresent 3⟩

end Degenbot
