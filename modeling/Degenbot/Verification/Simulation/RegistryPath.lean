import Degenbot.Algorithm.RegistrySimulator
import Degenbot.Verification.Simulation.Chaining

/-! # Paths of swaps over the pools of the registry

A path is simulated through a dictionary of overrides. It is compared with the swaps
performed one after another on the pools themselves, each of which then moves on. -/

namespace Degenbot.Ipc

open Library Registry

/-! ## Swaps performed on the pools -/

namespace PoolHelper

variable {CurveState : Type}

section Perform

variable (exchange : CurveState → Erc20Token → Erc20Token → ℤ → ℤ → CurveState)
  (attempts fuel : ℕ)

/-- The swap on the pool itself: the amount out, and the pool in its next state. What an
exchange does to the balances of a Curve pool is a parameter, since no code computes it. -/
def perform (tokenIn tokenOut : Erc20Token) (amountIn : ℤ) :
    PoolHelper CurveState → Option (Except Exn (ℤ × PoolHelper CurveState))
  | .v2 pool =>
      let zeroForOne := tokenIn.same pool.token0
      some ((pool.calculateTokensOutFromTokensIn tokenIn amountIn none).map fun amountOut =>
        (amountOut, .v2 { pool with
          state := pool.state.advanced (if zeroForOne then amountIn else -amountOut)
            (if zeroForOne then -amountOut else amountIn) }))
  | .v3 pool provider =>
      let zeroForOne := tokenIn.same pool.token0
      (pool.calculateSwap provider attempts fuel zeroForOne amountIn
        (UniswapV3Pool.sqrtPriceLimit zeroForOne none) none).map (·.map fun swap =>
          (-(if tokenOut.same pool.token0 then swap.2.amount0 else swap.2.amount1),
            .v3 (pool.withState ((pool.startState none).advanced swap.2)) provider))
  | .v4 pool provider =>
      let zeroForOne := tokenIn.same pool.token0
      (pool.calculateSwap provider attempts fuel zeroForOne (-amountIn)
        (UniswapV4Pool.sqrtPriceLimit zeroForOne) none).map (·.map fun swap =>
          (UniswapV4Pool.amountOut swap.2,
            .v4 (pool.withState ((pool.startState none).advanced swap.2)) provider))
  | .curve pool =>
      some ((pool.getDy pool.state tokenIn tokenOut amountIn).map fun amountOut =>
        (amountOut, .curve { pool with
          state := exchange pool.state tokenIn tokenOut amountIn amountOut }))

end Perform

/-- The pool classes with `simulate_exact_input_swap`. -/
def reportsState : PoolHelper CurveState → Bool
  | .v2 _ => true
  | .v3 _ _ => true
  | .v4 _ _ => false
  | .curve _ => false

def isV2 : PoolHelper CurveState → Bool
  | .v2 _ => true
  | _ => false

/-- The override that a step reads stands for the pool in its current state. -/
inductive Tracks (registered : PoolHelper CurveState) :
    Option StoredState → PoolHelper CurveState → Prop where
  | unvisited : Tracks registered none registered
  | reserves {pool : UniswapV2Pool} {state current : ReservesState}
      (hpool : registered = .v2 pool) (hsame : state.SameReserves current) :
      Tracks registered (some (.reserves state)) (.v2 { pool with state := current })
  | concentrated {pool : UniswapV3Pool} {provider : Provider} {state current : OverrideState}
      (hpool : registered = .v3 pool provider) (hsame : state.Same current)
      (htickBitmap : SameEntries pool.state.tickBitmap current.tickBitmap)
      (htickData : SameEntries pool.state.tickData current.tickData) :
      Tracks registered (some (.concentrated state)) (.v3 (pool.withState current) provider)

/-- What a step leaves behind: the classes that report a state report one that tracks the
pool, V2 pools only from their registered state. -/
structure Reported (registered : PoolHelper CurveState)
    (overrideState finalState : Option StoredState) (next : PoolHelper CurveState) : Prop where
  isSome_eq : finalState.isSome = registered.reportsState
  tracks : registered.reportsState = true → (registered.isV2 = true → overrideState = none) →
    Tracks registered finalState next

theorem Tracks.searchedTokens_eq {registered current : PoolHelper CurveState}
    {overrideState : Option StoredState} (h : Tracks registered overrideState current) :
    current.searchedTokens = registered.searchedTokens := by
  cases h with
  | unvisited => rfl
  | reserves hpool => rw [hpool]; rfl
  | concentrated hpool => rw [hpool]; rfl

end PoolHelper

namespace RegistryBackedDegenbotSimulator

open PoolHelper

variable {Address PoolId CurveState : Type}
  {simulator : RegistryBackedDegenbotSimulator Address PoolId CurveState}
  {exchange : CurveState → Erc20Token → Erc20Token → ℤ → ℤ → CurveState}
  {step : SwapStep Address} {tokenIn tokenOut : Erc20Token} {amountOut : ℤ}
  {overrideState finalState : Option StoredState} {helper current : PoolHelper CurveState}

/-! ## One step -/

/-- Only a `TypeError` is recovered from. -/
theorem handle_eq_ok {exc : Exn}
    (h : simulator.handle helper step tokenIn overrideState exc = some (.ok amountOut)) :
    (∃ msg, exc = .typeError msg) ∧ helper.calculateTokensOutFromTokensIn simulator.attempts
      simulator.fuel tokenIn step.amountIn overrideState none = some (.ok amountOut) := by
  unfold handle at h
  split at h
  · rename_i msg
    refine ⟨⟨msg, rfl⟩, ?_⟩
    obtain ⟨outcome, hcalculate, h⟩ := Option.map_eq_some_iff.mp h
    cases outcome with
    | error e => cases h
    | ok a =>
        change checkAmountOut step.pool a = .ok amountOut at h
        rw [checkAmountOut, ite_error_eq_ok, Except.ok.injEq] at h
        rw [hcalculate, h.2]
  · cases h

theorem amountOutFromDelta_eq_ok {result : PoolSimulationResult StoredState} {index : ℕ}
    (h : amountOutFromDelta result index = .ok amountOut) :
    amountOut = -(if index = 1 then result.amount1Delta else result.amount0Delta) ∧
      (if index = 1 then result.amount1Delta else result.amount0Delta) < 0 := by
  rw [amountOutFromDelta, ite_error_eq_ok, Except.ok.injEq] at h
  exact ⟨h.2.symm, not_le.mp h.1⟩

theorem amountOutFromDelta_eq_error {result : PoolSimulationResult StoredState} {index : ℕ}
    {exc : Exn} (h : amountOutFromDelta result index = .error exc) :
    exc = .runtimeError "degenbot simulation did not produce negative output delta" := by
  unfold amountOutFromDelta at h
  by_cases hdelta : (if index = 1 then result.amount1Delta else result.amount0Delta) ≥ 0
  · rw [if_pos hdelta] at h
    cases h
    rfl
  · rw [if_neg hdelta] at h
    cases h

/-- A pool class that reports a state returns through its simulation. -/
theorem swapStep_eq_ok_of_simulates
    {outcome : Option (Except Exn (PoolSimulationResult StoredState))}
    (hsimulate : helper.simulateExactInputSwap simulator.attempts simulator.fuel tokenIn
      step.amountIn overrideState = some outcome)
    (htypeError : ∀ msg amount, outcome = some (.error (.typeError msg)) →
      helper.calculateTokensOutFromTokensIn simulator.attempts simulator.fuel tokenIn
        step.amountIn overrideState none ≠ some (.ok amount))
    (h : simulator.swapStep helper step tokenIn tokenOut overrideState =
      some (.ok (amountOut, finalState))) :
    ∃ result, outcome = some (.ok result) ∧ finalState = some result.finalState ∧
      amountOutFromDelta result (if helper.token0.any (tokenOut.same ·) then 0 else 1) =
        .ok amountOut := by
  have hhandled {exc : Exn} (hexc : ∀ msg, exc = .typeError msg →
      outcome = some (.error (.typeError msg))) :
      (simulator.handle helper step tokenIn overrideState exc).map (·.map (·, none)) ≠
        some (Except.ok (amountOut, finalState)) := by
    intro hhandle
    obtain ⟨amount, hamount, -⟩ := map_map_eq_some_ok hhandle
    obtain ⟨⟨msg, rfl⟩, hcalculate⟩ := handle_eq_ok hamount
    exact htypeError msg amount (hexc msg rfl) hcalculate
  unfold swapStep at h
  rw [hsimulate] at h
  cases outcome with
  | none => cases h
  | some outcome =>
      cases outcome with
      | error exc => exact absurd h (hhandled fun msg hmsg => by rw [hmsg])
      | ok result =>
          simp only at h
          split at h
          · rename_i exc hdelta
            refine absurd h (hhandled fun msg hmsg => ?_)
            rw [amountOutFromDelta_eq_error hdelta] at hmsg
            cases hmsg
          · rename_i amount hdelta
            cases h
            exact ⟨result, rfl, rfl, hdelta⟩

/-- The amounts of a V2 pool read only the reserves. -/
theorem calculate_sameReserves {pool : UniswapV2Pool} {state current : ReservesState} {quantity : ℤ}
    (h : state.SameReserves current) :
    pool.calculateTokensOutFromTokensIn tokenIn quantity (some state) =
      { pool with state := current }.calculateTokensOutFromTokensIn tokenIn quantity none := by
  simp only [UniswapV2Pool.calculateTokensOutFromTokensIn, Option.getD_some, Option.getD_none, h.1,
    h.2]

/-- A V2 step pays what the pool calculates, and reports the registered reserves with the
swap added. -/
theorem swapStep_v2_eq_ok {pool : UniswapV2Pool} {state : Option ReservesState}
    (hoverride : reservesOverride pool tokenIn step.amountIn overrideState = .ok state)
    (h : simulator.swapStep (.v2 pool) step tokenIn tokenOut overrideState =
      some (.ok (amountOut, finalState))) :
    pool.calculateTokensOutFromTokensIn tokenIn step.amountIn state = .ok amountOut ∧
      finalState = some (.reserves (pool.simulated
        (if tokenIn.same pool.token0 then step.amountIn else -amountOut)
        (if tokenIn.same pool.token0 then -amountOut else step.amountIn) state).finalState) := by
  obtain ⟨result, hresult, hfinal, hdelta⟩ := swapStep_eq_ok_of_simulates rfl (by
    intro msg amount herror hcalculate
    simp only [calculateTokensOutFromTokensIn, hoverride, ok_bind, Option.some.injEq] at hcalculate
    simp only [hoverride, ok_bind, UniswapV2Pool.simulateExactInputSwap, hcalculate] at herror
    split at herror
    · cases herror
    · cases herror) h
  simp only [hoverride, ok_bind, Option.some.injEq, bind_eq_ok,
    UniswapV2Pool.simulateExactInputSwap, ite_error_eq_ok, Except.ok.injEq] at hresult
  obtain ⟨inner, ⟨-, out, hout, hinner⟩, hresult⟩ := hresult
  have hpos : 0 < step.amountIn := by
    rw [UniswapV2Pool.calculateTokensOutFromTokensIn, ite_error_eq_ok] at hout
    exact not_le.mp hout.1
  -- the delta of the token that is paid in is positive, so the index is that of the other one
  have hamount : amountOut = out := by
    obtain ⟨hneg, hlt⟩ := amountOutFromDelta_eq_ok hdelta
    rw [← hresult, ← hinner] at hneg hlt
    simp only [UniswapV2Pool.simulated] at hneg hlt
    split_ifs at hneg hlt <;> omega
  rw [hamount, hfinal, ← hresult, ← hinner]
  exact ⟨hout, rfl⟩

theorem swapStep_v2 {pool : UniswapV2Pool}
    (h : simulator.swapStep (.v2 pool) step tokenIn tokenOut overrideState =
      some (.ok (amountOut, finalState))) (htracks : Tracks (.v2 pool) overrideState current) :
    ∃ next, current.perform exchange simulator.attempts simulator.fuel tokenIn tokenOut
        step.amountIn = some (.ok (amountOut, next)) ∧
      Reported (.v2 pool) overrideState finalState next := by
  cases htracks with
  | unvisited =>
      obtain ⟨hout, hfinal⟩ := swapStep_v2_eq_ok rfl h
      refine ⟨_, congrArg some (map_eq_ok.mpr ⟨amountOut, hout, rfl⟩), ?_, ?_⟩
      · rw [hfinal]
        rfl
      · intro _ _
        rw [hfinal]
        exact .reserves rfl ⟨rfl, rfl⟩
  | @reserves pool' state current hpool hsame =>
      cases hpool
      obtain ⟨hout, hfinal⟩ := swapStep_v2_eq_ok rfl h
      rw [calculate_sameReserves hsame] at hout
      refine ⟨_, congrArg some (map_eq_ok.mpr ⟨amountOut, hout, rfl⟩), ?_, ?_⟩
      · rw [hfinal]
        rfl
      · intro _ hnone
        cases hnone rfl
  | concentrated hpool => cases hpool

/-- A V3 step runs one swap, pays its output and reports its end in the registered state. -/
theorem swapStep_v3_eq_ok {pool : UniswapV3Pool} {provider : Provider}
    {state : Option OverrideState} (hoverride : concentratedOverride overrideState = .ok state)
    (h : simulator.swapStep (.v3 pool provider) step tokenIn tokenOut overrideState =
      some (.ok (amountOut, finalState))) :
    ∃ snapshot swap, pool.calculateSwap provider simulator.attempts simulator.fuel
        (tokenIn.same pool.token0) step.amountIn
        (UniswapV3Pool.sqrtPriceLimit (tokenIn.same pool.token0) none) state =
          some (.ok (snapshot, swap)) ∧
      amountOut = -(if tokenOut.same pool.token0 then swap.amount0 else swap.amount1) ∧
      finalState = some (.concentrated (pool.simulated state swap).finalState) := by
  obtain ⟨result, hresult, hfinal, hdelta⟩ := swapStep_eq_ok_of_simulates rfl (by
    intro msg amount herror hcalculate
    simp only [hoverride] at herror
    simp only [calculateTokensOutFromTokensIn, hoverride, calculateV3] at hcalculate
    split at hcalculate
    · cases hcalculate
    · rename_i hknown
      obtain ⟨outcome, hswap, hcalculate⟩ := Option.map_eq_some_iff.mp hcalculate
      cases outcome with
      | error e => cases hcalculate
      | ok swap =>
          rw [UniswapV3Pool.simulateExactInputSwap, if_neg hknown, UniswapV3Pool.simulate,
            hswap] at herror
          cases herror) h
  simp only [hoverride] at hresult
  obtain ⟨inner, hinner, rfl⟩ := map_map_eq_some_ok hresult
  obtain ⟨snapshot, swap, hswap, rfl⟩ := UniswapV3Pool.simulateExactInputSwap_eq_ok hinner
  refine ⟨snapshot, swap, hswap, ?_, hfinal⟩
  rw [(amountOutFromDelta_eq_ok hdelta).1]
  by_cases hzero : tokenOut.same pool.token0 = true <;>
    simp [PoolHelper.token0, UniswapV3Pool.simulated, hzero]

/-- The swap of an override is that of the pool that it tracks. -/
theorem calculateSwap_withState {pool : UniswapV3Pool} {provider : Provider} {attempts fuel : ℕ}
    {state current : OverrideState} {z : Bool} {amount limit : ℤ} {snapshot : LiquidityMapSnapshot}
    {swap : SwapResult} (hsame : state.Same current)
    (h : pool.calculateSwap provider attempts fuel z amount limit (some state) =
      some (.ok (snapshot, swap))) :
    ∃ snapshot', (pool.withState current).calculateSwap provider attempts fuel z amount limit none =
      some (.ok (snapshot', swap)) := by
  have hswaps : (pool.calculateSwap provider attempts fuel z amount limit (some state)).map
      (Except.map Prod.snd) = ((pool.withState current).calculateSwap provider attempts fuel z
        amount limit none).map (Except.map Prod.snd) :=
    UniswapV3Pool.calculateSwap_same hsame z amount limit
  rw [h] at hswaps
  obtain ⟨result, hresult, hswap⟩ := map_map_eq_some_ok hswaps.symm
  change result.2 = swap at hswap
  exact ⟨result.1, by rw [hresult, ← hswap]⟩

theorem swapStep_v3 {pool : UniswapV3Pool} {provider : Provider}
    (h : simulator.swapStep (.v3 pool provider) step tokenIn tokenOut overrideState =
      some (.ok (amountOut, finalState)))
    (htracks : Tracks (.v3 pool provider) overrideState current) :
    ∃ next, current.perform exchange simulator.attempts simulator.fuel tokenIn tokenOut
        step.amountIn = some (.ok (amountOut, next)) ∧
      Reported (.v3 pool provider) overrideState finalState next := by
  cases htracks with
  | unvisited =>
      obtain ⟨snapshot, swap, hswap, hamount, hfinal⟩ := swapStep_v3_eq_ok rfl h
      refine ⟨.v3 (pool.withState ((pool.startState none).advanced swap)) provider, ?_, ?_, ?_⟩
      · simp only [perform, hswap, hamount]
        rfl
      · rw [hfinal]
        rfl
      · intro _ _
        rw [hfinal]
        exact .concentrated rfl ⟨rfl, rfl, rfl, .refl _, .refl _⟩ (.refl _) (.refl _)
  | reserves hpool => cases hpool
  | @concentrated pool' provider' state current hpool hsame htickBitmap htickData =>
      cases hpool
      obtain ⟨snapshot, swap, hswap, hamount, hfinal⟩ := swapStep_v3_eq_ok rfl h
      obtain ⟨snapshot', hswap'⟩ := calculateSwap_withState hsame hswap
      refine ⟨.v3 (pool.withState (current.advanced swap)) provider, ?_, ?_, ?_⟩
      · change Option.map _ ((pool.withState current).calculateSwap provider simulator.attempts
          simulator.fuel (tokenIn.same pool.token0) step.amountIn
          (UniswapV3Pool.sqrtPriceLimit (tokenIn.same pool.token0) none) none) = _
        rw [hswap', hamount]
        rfl
      · rw [hfinal]
        rfl
      · intro _ _
        rw [hfinal]
        exact .concentrated rfl ⟨rfl, rfl, rfl, htickBitmap, htickData⟩ htickBitmap htickData

/-- A pool class that reports no state returns through a calculation. -/
theorem swapStep_eq_ok_of_not_simulates
    (hsimulate : helper.simulateExactInputSwap simulator.attempts simulator.fuel tokenIn
      step.amountIn overrideState = none)
    (h : simulator.swapStep helper step tokenIn tokenOut overrideState =
      some (.ok (amountOut, finalState))) :
    finalState = none ∧ (helper.calculateTokensOutFromTokensIn simulator.attempts simulator.fuel
        tokenIn step.amountIn overrideState (some tokenOut) = some (.ok amountOut) ∨
      helper.calculateTokensOutFromTokensIn simulator.attempts simulator.fuel tokenIn
        step.amountIn overrideState none = some (.ok amountOut)) := by
  unfold swapStep at h
  rw [hsimulate] at h
  simp only at h
  split at h
  · cases h
  · obtain ⟨amount, hamount, hpair⟩ := map_map_eq_some_ok h
    cases hpair
    exact ⟨rfl, .inr (handle_eq_ok hamount).2⟩
  · rename_i amount hcalculate
    obtain ⟨checked, hchecked, hpair⟩ := map_eq_ok.mp (Option.some.inj h)
    cases hpair
    rw [checkAmountOut, ite_error_eq_ok, Except.ok.injEq] at hchecked
    rw [hcalculate, hchecked.2]
    exact ⟨rfl, .inl rfl⟩

theorem swapStep_v4 {pool : UniswapV4Pool} {provider : Provider}
    (h : simulator.swapStep (.v4 pool provider) step tokenIn tokenOut overrideState =
      some (.ok (amountOut, finalState)))
    (htracks : Tracks (.v4 pool provider) overrideState current) :
    ∃ next, current.perform exchange simulator.attempts simulator.fuel tokenIn tokenOut
        step.amountIn = some (.ok (amountOut, next)) ∧
      Reported (.v4 pool provider) overrideState finalState next := by
  cases htracks with
  | unvisited =>
      obtain ⟨hfinal, hcalculate⟩ := swapStep_eq_ok_of_not_simulates rfl h
      rcases hcalculate with hcalculate | hcalculate
      · cases hcalculate
      · simp only [calculateTokensOutFromTokensIn, concentratedOverride,
          UniswapV4Pool.calculateTokensOutFromTokensIn] at hcalculate
        split at hcalculate
        · cases hcalculate
        · obtain ⟨outcome, hswap, hcalculate⟩ := Option.map_eq_some_iff.mp hcalculate
          cases outcome with
          | error e => cases hcalculate
          | ok swap =>
              change pool.checkInput step.amountIn swap.2 = .ok amountOut at hcalculate
              simp only [UniswapV4Pool.checkInput, ite_error_eq_ok, Except.ok.injEq] at hcalculate
              refine ⟨.v4 (pool.withState ((pool.startState none).advanced swap.2)) provider,
                ?_, ?_, ?_⟩
              · change Option.map _ (pool.calculateSwap provider simulator.attempts
                  simulator.fuel (tokenIn.same pool.token0) (-step.amountIn) _ none) = _
                rw [UniswapV4Pool.sqrtPriceLimit, hswap, ← hcalculate.2.2.2]
                rfl
              · rw [hfinal]
                rfl
              · intro hreports
                cases hreports
  | reserves hpool => cases hpool
  | concentrated hpool => cases hpool

theorem swapStep_curve {pool : CurveStableswapPool CurveState}
    (h : simulator.swapStep (.curve pool) step tokenIn tokenOut overrideState =
      some (.ok (amountOut, finalState)))
    (htracks : Tracks (.curve pool) overrideState current) :
    ∃ next, current.perform exchange simulator.attempts simulator.fuel tokenIn tokenOut
        step.amountIn = some (.ok (amountOut, next)) ∧
      Reported (.curve pool) overrideState finalState next := by
  cases htracks with
  | unvisited =>
      obtain ⟨hfinal, hcalculate⟩ := swapStep_eq_ok_of_not_simulates rfl h
      rcases hcalculate with hcalculate | hcalculate
      · have hdy := Option.some.inj hcalculate
        rw [CurveStableswapPool.calculateTokensOutFromTokensIn, ite_error_eq_ok] at hdy
        refine ⟨_, congrArg some (map_eq_ok.mpr ⟨amountOut, hdy.2, rfl⟩), ?_, ?_⟩
        · rw [hfinal]
          rfl
        · intro hreports
          cases hreports
      · cases hcalculate
  | reserves hpool => cases hpool
  | concentrated hpool => cases hpool

/-- A step whose override tracks the pool pays what the pool itself pays. -/
theorem swapStep_tracks
    (h : simulator.swapStep helper step tokenIn tokenOut overrideState =
      some (.ok (amountOut, finalState))) (htracks : Tracks helper overrideState current) :
    ∃ next, current.perform exchange simulator.attempts simulator.fuel tokenIn tokenOut
        step.amountIn = some (.ok (amountOut, next)) ∧
      Reported helper overrideState finalState next := by
  cases helper with
  | v2 pool => exact swapStep_v2 h htracks
  | v3 pool provider => exact swapStep_v3 h htracks
  | v4 pool provider => exact swapStep_v4 h htracks
  | curve pool => exact swapStep_curve h htracks

/-! ## Visits -/

/-- The pool that a step is on, and the key under which it looks for a state. -/
structure Visit (Address : Type) where
  reference : ℕ
  key : Address
deriving DecidableEq

variable (simulator) in
/-- Of two visits of one pool, the pool reports its state under the same key; the key of a
pool that reports its state is not used by the visit of another one. -/
def Compatible (first second : Visit Address) : Prop :=
  let reports := (simulator.pools first.reference).helper.reportsState
  (first.reference = second.reference → reports = true ∧ first.key = second.key) ∧
    (first.reference ≠ second.reference → reports = true → first.key ≠ second.key)

variable (simulator) in
/-- A visit that may follow the ones made. -/
structure Allowed (made : List (Visit Address)) (visit : Visit Address) : Prop where
  compatible : ∀ earlier ∈ made, simulator.Compatible earlier visit
  count_le : (simulator.pools visit.reference).helper.isV2 = true →
    (made.map Visit.reference).count visit.reference ≤ 1

theorem Allowed.of_concat {made : List (Visit Address)} {visit other : Visit Address}
    (h : simulator.Allowed (made ++ [visit]) other) :
    simulator.Allowed made other := by
  refine ⟨fun earlier hearlier => ?_, fun hV2 => ?_⟩
  · exact h.compatible earlier (List.mem_append_left _ hearlier)
  · have hcount := h.count_le hV2
    rw [List.map_append, List.count_append] at hcount
    omega

theorem Allowed.of_pairwise {made rest : List (Visit Address)} {visit : Visit Address}
    (hcompatible : (made ++ visit :: rest).Pairwise simulator.Compatible)
    (hcount : (simulator.pools visit.reference).helper.isV2 = true →
      ((made ++ visit :: rest).map Visit.reference).count visit.reference ≤ 2) :
    simulator.Allowed made visit := by
  refine ⟨fun earlier hearlier => ?_, fun hV2 => ?_⟩
  · exact (List.pairwise_append.mp hcompatible).2.2 earlier hearlier visit List.mem_cons_self
  · have hcount := hcount hV2
    rw [List.map_append, List.count_append, List.map_cons, List.count_cons_self] at hcount
    omega

/-! ## Paths -/

section Paths

variable [DecidableEq Address]

variable (simulator) in
/-- Every visit that may follow reads an override for the current state of its pool, and
none at its first visit. -/
structure Follows (made : List (Visit Address)) (overrideStates : Dict Address StoredState)
    (pools : ℕ → PoolHelper CurveState) : Prop where
  tracks : ∀ visit, simulator.Allowed made visit →
    Tracks (simulator.pools visit.reference).helper (overrideStates.lookup visit.key)
      (pools visit.reference)
  lookup_eq_none : ∀ visit, simulator.Allowed made visit →
    visit.reference ∉ made.map Visit.reference → overrideStates.lookup visit.key = none

variable {made : List (Visit Address)} {visit : Visit Address}
  {overrideStates overrideStates' : Dict Address StoredState} {pools : ℕ → PoolHelper CurveState}

/-- One step: the pool moves on as the override does. -/
theorem Follows.swap {next : PoolHelper CurveState}
    (hfollows : simulator.Follows made overrideStates pools)
    (hallowed : simulator.Allowed made visit)
    (hreported : Reported (simulator.pools visit.reference).helper
      (overrideStates.lookup visit.key) finalState next) :
    simulator.Follows (made ++ [visit])
      (finalState.elim overrideStates (overrideStates.insert visit.key))
      (Function.update pools visit.reference next) := by
  -- the entries under the keys of other pools stay
  have hother (other : Visit Address) (hother : simulator.Allowed (made ++ [visit]) other)
      (hne : other.reference ≠ visit.reference) :
      (finalState.elim overrideStates (overrideStates.insert visit.key)).lookup other.key =
        overrideStates.lookup other.key := by
    cases finalState with
    | none => rfl
    | some state =>
        have hkey := (hother.compatible visit (by simp)).2 hne.symm hreported.isSome_eq.symm
        exact AList.lookup_insert_ne hkey.symm
  refine ⟨fun other hother' => ?_, fun other hother' hnew => ?_⟩
  · by_cases hsame : other.reference = visit.reference
    · obtain ⟨hreports, hkey⟩ := (hother'.compatible visit (by simp)).1 hsame.symm
      rw [hsame, Function.update_self, ← hkey]
      have hlookup : (finalState.elim overrideStates
          (overrideStates.insert visit.key)).lookup visit.key = finalState := by
        cases finalState with
        | none => cases hreported.isSome_eq.trans hreports
        | some state => exact AList.lookup_insert _
      rw [hlookup]
      refine hreported.tracks hreports fun hV2 => hfollows.lookup_eq_none visit hallowed ?_
      have hcount := hother'.count_le (hsame ▸ hV2)
      rw [hsame, List.map_append, List.count_append] at hcount
      intro hmade
      have := List.count_pos_iff.mpr hmade
      simp at hcount
      omega
    · rw [hother other hother' hsame, Function.update_of_ne hsame]
      exact hfollows.tracks other hother'.of_concat
  · rw [List.map_append, List.mem_append, not_or] at hnew
    have hne : other.reference ≠ visit.reference := by simpa using hnew.2
    rw [hother other hother' hne]
    exact hfollows.lookup_eq_none other hother'.of_concat hnew.1

variable [DecidableEq PoolId]

variable (simulator exchange) in
/-- A step on the pools themselves, which are given in their current states. -/
def performStep (pools : ℕ → PoolHelper CurveState) (step : SwapStep Address) (amountIn : ℤ) :
    Outcome Address (ℤ × (ℕ → PoolHelper CurveState)) := do
  let pool ← ExceptT.mk (some (simulator.resolveRegistryPool step))
  match pool with
  | none => throw (.poolNotLoaded step.pool)
  | some reference =>
      let tokenIn ← ExceptT.mk (some (simulator.resolvePoolToken (pools reference) step.tokenIn))
      let tokenOut ← ExceptT.mk (some (simulator.resolvePoolToken (pools reference) step.tokenOut))
      let (amountOut, next) ← ExceptT.mk (((pools reference).perform exchange simulator.attempts
        simulator.fuel tokenIn tokenOut amountIn).map uncaught)
      pure (amountOut, Function.update pools reference next)

variable (simulator exchange) in
/-- The swaps of a path, one after another. -/
def performSwaps : List (SwapStep Address) → ℤ → (ℕ → PoolHelper CurveState) → Outcome Address ℤ
  | [], amount, _ => pure amount
  | step :: path, amount, pools => do
      let (amountOut, pools) ← simulator.performStep exchange pools step amount
      performSwaps path amountOut pools

variable (simulator) in
def visit? (step : SwapStep Address) : Option (Visit Address) :=
  match simulator.resolveRegistryPool step with
  | .ok (some reference) => some ⟨reference, simulator.lower step.pool⟩
  | _ => none

variable (simulator) in
/-- A V2 pool is visited at most twice. -/
def Undisturbed (path : List (SwapStep Address)) : Prop :=
  let visits := path.filterMap simulator.visit?
  visits.Pairwise simulator.Compatible ∧
    ∀ reference, (simulator.pools reference).helper.isV2 = true →
      (visits.map Visit.reference).count reference ≤ 2

/-- What a successful step did: it found the pool and its tokens, swapped on the override under
the key of the step, and stored the state that was reported. -/
theorem simulateStep_eq_ok (h : (simulator.simulateStep step overrideStates).run =
      some (.ok (amountOut, overrideStates'))) :
    ∃ reference tokenIn tokenOut finalState,
      simulator.resolveRegistryPool step = .ok (some reference) ∧
      simulator.resolvePoolToken (simulator.pools reference).helper step.tokenIn = .ok tokenIn ∧
      simulator.resolvePoolToken (simulator.pools reference).helper step.tokenOut =
        .ok tokenOut ∧
      simulator.swapStep (simulator.pools reference).helper step tokenIn tokenOut
        (overrideStates.lookup (simulator.lower step.pool)) =
          some (.ok (amountOut, finalState)) ∧
      overrideStates' = finalState.elim overrideStates
        (overrideStates.insert (simulator.lower step.pool)) := by
  rw [simulateStep, run_bind_eq_some_ok] at h
  obtain ⟨pool, hpool, h⟩ := h
  cases pool with
  | none => cases h
  | some reference =>
      simp only [run_bind_eq_some_ok] at h
      obtain ⟨tokenIn, htokenIn, tokenOut, htokenOut, ⟨amount, finalState⟩, hswap, h⟩ := h
      refine ⟨reference, tokenIn, tokenOut, finalState, Option.some.inj hpool,
        Option.some.inj htokenIn, Option.some.inj htokenOut, ?_, ?_⟩
      · cases finalState with
        | none =>
            cases h
            exact hswap
        | some state =>
            cases h
            exact hswap
      · cases finalState with
        | none =>
            cases h
            rfl
        | some state =>
            cases h
            rfl

/-- One step of the path, on the overrides and on the pools. -/
theorem simulateStep_follows (hfollows : simulator.Follows made overrideStates pools)
    (hallowed : ∀ visit, simulator.visit? step = some visit → simulator.Allowed made visit)
    (h : (simulator.simulateStep step overrideStates).run =
      some (.ok (amountOut, overrideStates'))) :
    ∃ visit pools', simulator.visit? step = some visit ∧
      (simulator.performStep exchange pools step step.amountIn).run =
        some (.ok (amountOut, pools')) ∧
      simulator.Follows (made ++ [visit]) overrideStates' pools' := by
  obtain ⟨reference, tokenIn, tokenOut, finalState, hpool, htokenIn, htokenOut, hswap, rfl⟩ :=
    simulateStep_eq_ok h
  have hvisit : simulator.visit? step = some ⟨reference, simulator.lower step.pool⟩ := by
    rw [visit?, hpool]
  have hallowed := hallowed _ hvisit
  have htracks := hfollows.tracks _ hallowed
  obtain ⟨next, hperform, hreported⟩ := swapStep_tracks hswap htracks
  refine ⟨_, Function.update pools reference next, hvisit, ?_, hfollows.swap hallowed hreported⟩
  have htoken (address : Address) : simulator.resolvePoolToken (pools reference) address =
      simulator.resolvePoolToken (simulator.pools reference).helper address := by
    rw [resolvePoolToken, resolvePoolToken, htracks.searchedTokens_eq]
  rw [performStep, run_bind_eq_some_ok]
  refine ⟨some reference, congrArg some hpool, ?_⟩
  simp only [run_bind_eq_some_ok]
  refine ⟨tokenIn, ?_, tokenOut, ?_, (amountOut, next), ?_, rfl⟩
  · rw [htoken, htokenIn]
    rfl
  · rw [htoken, htokenOut]
    rfl
  · rw [hperform]
    rfl

theorem simulateSteps_follows {path : List (SwapStep Address)} {amount : ℤ}
    {normalizedSteps : List (SwapStep Address)}
    (hfollows : simulator.Follows made overrideStates pools)
    (hcompatible : (made ++ path.filterMap simulator.visit?).Pairwise simulator.Compatible)
    (hcount : ∀ reference, (simulator.pools reference).helper.isV2 = true →
      ((made ++ path.filterMap simulator.visit?).map Visit.reference).count reference ≤ 2)
    (h : (simulator.simulateSteps path amount overrideStates).run =
      some (.ok (amountOut, normalizedSteps))) :
    (simulator.performSwaps exchange path amount pools).run = some (.ok amountOut) := by
  induction path generalizing made overrideStates pools amount normalizedSteps with
  | nil =>
      cases h
      rfl
  | cons rawStep path ih =>
      rw [simulateSteps] at h
      split at h
      · cases h
      · simp only [run_bind_eq_some_ok] at h
        obtain ⟨⟨next, overrideStates'⟩, hstep, h⟩ := h
        simp only at h
        split at h
        · cases h
        · obtain ⟨⟨final, rest⟩, hrest, h⟩ := run_bind_eq_some_ok.mp h
          cases h
          have hvisit? : simulator.visit? { rawStep with amountIn := amount } =
              simulator.visit? rawStep := rfl
          obtain ⟨visit, pools', hvisit, hperform, hfollows'⟩ :=
            simulateStep_follows hfollows (by
              intro visit hvisit
              rw [hvisit?] at hvisit
              rw [List.filterMap_cons, hvisit] at hcompatible hcount
              exact .of_pairwise hcompatible (hcount visit.reference)) hstep
          rw [hvisit?] at hvisit
          rw [List.filterMap_cons, hvisit] at hcompatible hcount
          rw [performSwaps, run_bind_eq_some_ok]
          refine ⟨(next, pools'), hperform, ?_⟩
          apply ih hfollows' _ _ hrest
          · simpa using hcompatible
          · simpa using hcount

/-- The amount of a path that visits no V4 or Curve pool twice and no V2 pool three times is
that of its swaps performed one after another. -/
theorem simulateExactInputPath_amountOut
    (simulator : RegistryBackedDegenbotSimulator Address PoolId CurveState)
    (exchange : CurveState → Erc20Token → Erc20Token → ℤ → ℤ → CurveState)
    (path : List (SwapStep Address)) (amountIn : ℤ) (result : SimulationResult Address)
    (h : (simulator.simulateExactInputPath path amountIn).run = some (.ok result))
    (hpath : simulator.Undisturbed path) :
    (simulator.performSwaps exchange path amountIn fun reference =>
      (simulator.pools reference).helper).run = some (.ok result.amountOut) := by
  rw [simulateExactInputPath, run_bind_eq_some_ok] at h
  obtain ⟨⟨amountOut, normalizedSteps⟩, hsteps, h⟩ := h
  cases h
  have hstart : simulator.Follows [] ∅ fun reference => (simulator.pools reference).helper :=
    ⟨fun visit _ => .unvisited, fun visit _ _ => rfl⟩
  exact simulateSteps_follows hstart hpath.1 hpath.2 hsteps

end Paths

/-! ## Samples -/

/-- An address of forty equal digits, which is its own checksum. -/
def sampleAddress (digit : Char) : List Char := '0' :: 'x' :: List.replicate 40 digit

theorem sampleSpelling_hexBytes (poolId bytes : ℕ)
    (_ : (.ok poolId : Except Exn ℕ) = .ok bytes) :
    (.ok bytes : Except Exn ℕ) = .ok bytes := rfl

/-- One V2 pool of tokens 1 and 2, at the address of nines. -/
def sampleSimulator : RegistryBackedDegenbotSimulator (List Char) ℕ Unit where
  chainId := 42161
  spell := ⟨.ok, .ok, fun _ _ _ => rfl, sampleSpelling_hexBytes⟩
  lower := List.map Char.toLower
  tokenText := fun address => sampleAddress (Nat.digitChar address)
  v4PoolIdFromPoolKey := fun _ => .error .keyError
  poolRegistry := ⟨AList.insert (42161, sampleAddress '9') 0 ∅, .empty⟩
  pools := fun _ => ⟨sampleAddress '9', none, .v2 sampleV2Pool⟩
  attempts := 1
  fuel := 1

def sampleStep (tokenIn tokenOut : Char) : SwapStep (List Char) :=
  ⟨sampleAddress '9', sampleAddress tokenIn, sampleAddress tokenOut, 1, 0, .uniswapV2, none⟩

/-- There, back and there again on the same pool. -/
def samplePath : List (SwapStep (List Char)) :=
  [sampleStep '1' '2', sampleStep '2' '1', sampleStep '1' '2']

/-- The way back starts from the state that the first step reported. -/
theorem simulateExactInputPath_amountOut_twice :
    (sampleSimulator.performSwaps (fun state _ _ _ _ => state) (samplePath.take 2) 100000
      fun _ => .v2 sampleV2Pool).run = some (.ok 99454) := by
  have hrun : (sampleSimulator.simulateExactInputPath (samplePath.take 2) 100000).run =
      some (.ok ⟨100000, 99454, [{ sampleStep '1' '2' with amountIn := 100000 },
        { sampleStep '2' '1' with amountIn := 90661 }]⟩) := by
    decide
  have hvisits : (samplePath.take 2).filterMap sampleSimulator.visit? =
      [⟨0, sampleAddress '9'⟩, ⟨0, sampleAddress '9'⟩] := by
    decide
  refine simulateExactInputPath_amountOut sampleSimulator _ _ _ _ hrun ⟨?_, ?_⟩
  · rw [hvisits]
    simp [Compatible, sampleSimulator, reportsState]
  · intro reference _
    rw [hvisits]
    exact List.count_le_length

/-- The third step starts from the registered reserves with the second swap alone. -/
theorem samplePath_amountOut_ne :
    samplePath.IsChain (fun step next => step.tokenOut = next.tokenIn) ∧
      (sampleSimulator.simulateExactInputPath samplePath 100000).run.map
        (·.map (·.amountOut)) = some (.ok 108177) ∧
      (sampleSimulator.performSwaps (fun state _ _ _ _ => state) samplePath 100000
        fun _ => .v2 sampleV2Pool).run = some (.ok 90165) := by
  refine ⟨by decide, by decide, by decide⟩

end RegistryBackedDegenbotSimulator

end Degenbot.Ipc
