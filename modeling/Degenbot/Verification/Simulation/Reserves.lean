import Degenbot.Algorithm.Simulation
import Degenbot.Library.Outcome
import Degenbot.Verification.TickBitmap.Search

/-! # Simulations of pools with reserves

A chain of simulations passes the final state of one as the override of the next. What
that relies on is stated here for any pool, and compared with the V2 and the Aerodrome
pools. -/

namespace Degenbot

open Library

/-- A simulation composes with the next one: it starts from the state in use, its final
state is that state advanced by the swap, and a second simulation on top of the final state
reports what the pool itself reports after the first swap. -/
structure Composes {State Request Report : Type} (Same : State → State → Prop)
    (onTop afterwards : State → Request → Report) (start advanced initial final : State) :
    Prop where
  initial_eq : initial = start
  final_same : Same final advanced
  second_eq : onTop final = afterwards advanced

/-- A swap to be simulated on top of another one. -/
inductive SwapRequest where
  | exactInput (token : Erc20Token) (quantity : ℤ)
  | exactOutput (token : Erc20Token) (quantity : ℤ)

/-- A report in terms of the pool's tokens. -/
def SimulationResult.deltas {State : Type} (zeroForOne : Bool) (report : SimulationResult State) :
    PoolSimulationResult State where
  amount0Delta := if zeroForOne then report.amountIn else -report.amountOut
  amount1Delta := if zeroForOne then -report.amountOut else report.amountIn
  initialState := report.initialState
  finalState := report.finalState

theorem tokenAt_address {token0 token1 token : Erc20Token} {address : ℕ} {message : String}
    (h : tokenAt token0 token1 address message = .ok token) :
    (token = token0 ∨ token = token1) ∧ token.address = address := by
  unfold tokenAt at h
  split at h
  · rename_i heq
    cases h
    exact ⟨.inl rfl, heq.symm⟩
  · split at h
    · rename_i heq
      cases h
      exact ⟨.inr rfl, heq.symm⟩
    · cases h

theorem map_map_eq_some_ok {ε α β : Type} {f : α → β} {outcome : Option (Except ε α)} {b : β}
    (h : outcome.map (·.map f) = some (.ok b)) : ∃ a, outcome = some (.ok a) ∧ f a = b := by
  cases outcome with
  | none => cases h
  | some outcome =>
      cases outcome with
      | error e => cases h
      | ok a =>
          cases h
          exact ⟨a, rfl, rfl⟩

/-! ## Pools with reserves -/

namespace ReservesState

/-- The state after a swap. -/
def advanced (state : ReservesState) (amount0Delta amount1Delta : ℤ) : ReservesState :=
  { state with
    reservesToken0 := state.reservesToken0 + amount0Delta
    reservesToken1 := state.reservesToken1 + amount1Delta }

def SameReserves (a b : ReservesState) : Prop :=
  a.reservesToken0 = b.reservesToken0 ∧ a.reservesToken1 = b.reservesToken1

end ReservesState

namespace UniswapV2Pool

/-- The results of the `simulate_*` methods. -/
inductive Simulates (pool : UniswapV2Pool) (overrideState : Option ReservesState) :
    PoolSimulationResult ReservesState → Prop where
  | exactInput {token : Erc20Token} {quantity : ℤ} {result : PoolSimulationResult ReservesState}
      (h : pool.simulateExactInputSwap token quantity overrideState = .ok result) :
      Simulates pool overrideState result
  | exactOutput {token : Erc20Token} {quantity : ℤ} {result : PoolSimulationResult ReservesState}
      (h : pool.simulateExactOutputSwap token quantity overrideState = .ok result) :
      Simulates pool overrideState result
  | swap {tokenIn : ℕ} {amountIn : ℤ} {report : SimulationResult ReservesState}
      (h : pool.simulateSwap tokenIn amountIn overrideState = .ok report) :
      Simulates pool overrideState (report.deltas (tokenIn = pool.token0.address))
  | swapForOutput {tokenOut : ℕ} {amountOut : ℤ} {report : SimulationResult ReservesState}
      (h : pool.simulateSwapForOutput tokenOut amountOut overrideState = .ok report) :
      Simulates pool overrideState (report.deltas (tokenOut = pool.token1.address))

def amounts (pool : UniswapV2Pool) (overrideState : Option ReservesState) :
    SwapRequest → Except Exn (ℤ × ℤ)
  | .exactInput token quantity =>
      (pool.simulateExactInputSwap token quantity overrideState).map fun result =>
        (result.amount0Delta, result.amount1Delta)
  | .exactOutput token quantity =>
      (pool.simulateExactOutputSwap token quantity overrideState).map fun result =>
        (result.amount0Delta, result.amount1Delta)

def SimulationComposes (pool : UniswapV2Pool) (overrideState : Option ReservesState)
    (result : PoolSimulationResult ReservesState) : Prop :=
  let start := overrideState.getD pool.state
  Composes ReservesState.SameReserves (fun state => pool.amounts (some state))
    (fun state => { pool with state }.amounts none) start
    (start.advanced result.amount0Delta result.amount1Delta) result.initialState
    result.finalState

/-- The deltas of a swap read only the reserves of the state in use. -/
theorem amounts_same (pool : UniswapV2Pool) {a b : ReservesState} (h : a.SameReserves b) :
    pool.amounts (some a) = { pool with state := b }.amounts none := by
  obtain ⟨h0, h1⟩ := h
  funext request
  cases request with
  | exactInput token quantity =>
      have hout : pool.calculateTokensOutFromTokensIn token quantity (some a) =
          { pool with state := b }.calculateTokensOutFromTokensIn token quantity none := by
        simp only [calculateTokensOutFromTokensIn, Option.getD_some, Option.getD_none, h0, h1]
      simp only [amounts, simulateExactInputSwap, hout]
      split
      · rfl
      · cases calculateTokensOutFromTokensIn { pool with state := b } token quantity none <;> rfl
  | exactOutput token quantity =>
      have hin : pool.calculateTokensInFromTokensOut quantity token (some a) =
          { pool with state := b }.calculateTokensInFromTokensOut quantity token none := by
        simp only [calculateTokensInFromTokensOut, Option.getD_some, Option.getD_none, h0, h1]
      simp only [amounts, simulateExactOutputSwap, hin]
      split
      · rfl
      · cases calculateTokensInFromTokensOut { pool with state := b } quantity token none <;> rfl

theorem simulateExactInputSwap_eq_ok {pool : UniswapV2Pool} {token : Erc20Token} {quantity : ℤ}
    {overrideState : Option ReservesState} {result : PoolSimulationResult ReservesState}
    (h : pool.simulateExactInputSwap token quantity overrideState = .ok result) :
    ∃ out, result = pool.simulated (if token.same pool.token0 then quantity else -out)
      (if token.same pool.token0 then -out else quantity) overrideState := by
  simp only [simulateExactInputSwap, ite_error_eq_ok, bind_eq_ok, Except.ok.injEq] at h
  obtain ⟨-, out, -, rfl⟩ := h
  exact ⟨out, rfl⟩

theorem simulateExactOutputSwap_eq_ok {pool : UniswapV2Pool} {token : Erc20Token} {quantity : ℤ}
    {overrideState : Option ReservesState} {result : PoolSimulationResult ReservesState}
    (h : pool.simulateExactOutputSwap token quantity overrideState = .ok result) :
    ∃ input, result = pool.simulated (if token.same pool.token1 then input else -quantity)
      (if token.same pool.token1 then -quantity else input) overrideState := by
  simp only [simulateExactOutputSwap, ite_error_eq_ok, bind_eq_ok, Except.ok.injEq] at h
  obtain ⟨-, input, -, rfl⟩ := h
  exact ⟨input, rfl⟩

/-- Every method returns a state built from the pool's own reserves. -/
theorem Simulates.exists_simulated {pool : UniswapV2Pool} {overrideState : Option ReservesState}
    {result : PoolSimulationResult ReservesState} (h : pool.Simulates overrideState result) :
    ∃ token0Delta token1Delta, result = pool.simulated token0Delta token1Delta overrideState := by
  cases h with
  | exactInput h =>
      obtain ⟨out, rfl⟩ := simulateExactInputSwap_eq_ok h
      exact ⟨_, _, rfl⟩
  | exactOutput h =>
      obtain ⟨input, rfl⟩ := simulateExactOutputSwap_eq_ok h
      exact ⟨_, _, rfl⟩
  | @swap tokenIn amountIn report h =>
      simp only [simulateSwap, bind_eq_ok, Except.ok.injEq] at h
      obtain ⟨token, htoken, inner, hinner, rfl⟩ := h
      obtain ⟨-, rfl⟩ := tokenAt_address htoken
      obtain ⟨out, rfl⟩ := simulateExactInputSwap_eq_ok hinner
      by_cases hz : token.address = pool.token0.address
      · exact ⟨amountIn, -out, by
          simp [SimulationResult.deltas, reportInput, simulated, Erc20Token.same, hz]⟩
      · exact ⟨-out, amountIn, by
          simp [SimulationResult.deltas, reportInput, simulated, Erc20Token.same, hz]⟩
  | @swapForOutput tokenOut amountOut report h =>
      simp only [simulateSwapForOutput, bind_eq_ok, Except.ok.injEq] at h
      obtain ⟨token, htoken, inner, hinner, rfl⟩ := h
      obtain ⟨-, rfl⟩ := tokenAt_address htoken
      obtain ⟨input, rfl⟩ := simulateExactOutputSwap_eq_ok hinner
      by_cases hz : token.address = pool.token1.address
      · exact ⟨input, -amountOut, by
          simp [SimulationResult.deltas, reportOutput, simulated, Erc20Token.same, hz]⟩
      · exact ⟨-amountOut, input, by
          simp [SimulationResult.deltas, reportOutput, simulated, Erc20Token.same, hz]⟩

/-- The final state of a V2 simulation is right exactly when no override is given, or one
with the reserves of the pool. -/
theorem simulationComposes_iff {pool : UniswapV2Pool} {overrideState : Option ReservesState}
    {result : PoolSimulationResult ReservesState} (h : pool.Simulates overrideState result) :
    pool.SimulationComposes overrideState result ↔
      (overrideState.getD pool.state).SameReserves pool.state := by
  obtain ⟨token0Delta, token1Delta, rfl⟩ := h.exists_simulated
  have hfinal : (pool.simulated token0Delta token1Delta overrideState).finalState.SameReserves
      ((overrideState.getD pool.state).advanced token0Delta token1Delta) ↔
        (overrideState.getD pool.state).SameReserves pool.state := by
    simp only [ReservesState.SameReserves, ReservesState.advanced, simulated, add_left_inj]
    exact and_congr eq_comm eq_comm
  constructor
  · intro hcomposes
    exact hfinal.mp hcomposes.final_same
  · intro hsame
    exact ⟨rfl, hfinal.mpr hsame, pool.amounts_same (hfinal.mpr hsame)⟩

end UniswapV2Pool

namespace AerodromeV2Pool

/-- The results of the `simulate_*` methods. -/
inductive Simulates (pool : AerodromeV2Pool) (stateOverride : Option ReservesState) :
    PoolSimulationResult ReservesState → Prop where
  | swap {tokenIn : ℕ} {amountIn : ℤ} {report : SimulationResult ReservesState}
      (h : pool.simulateSwap tokenIn amountIn stateOverride = .ok report) :
      Simulates pool stateOverride (report.deltas (tokenIn = pool.token0.address))
  | swapForOutput {tokenOut : ℕ} {amountOut : ℤ} {report : SimulationResult ReservesState}
      (h : pool.simulateSwapForOutput tokenOut amountOut stateOverride = .ok report) :
      Simulates pool stateOverride (report.deltas (tokenOut = pool.token1.address))

def amounts (pool : AerodromeV2Pool) (stateOverride : Option ReservesState) :
    SwapRequest → Except Exn (ℤ × ℤ)
  | .exactInput token quantity =>
      (pool.simulateSwap token.address quantity stateOverride).map fun report =>
        (report.amountIn, report.amountOut)
  | .exactOutput token quantity =>
      (pool.simulateSwapForOutput token.address quantity stateOverride).map fun report =>
        (report.amountIn, report.amountOut)

def SimulationComposes (pool : AerodromeV2Pool) (stateOverride : Option ReservesState)
    (result : PoolSimulationResult ReservesState) : Prop :=
  let start := stateOverride.getD pool.state
  Composes ReservesState.SameReserves (fun state => pool.amounts (some state))
    (fun state => { pool with state }.amounts none) start
    (start.advanced result.amount0Delta result.amount1Delta) result.initialState
    result.finalState

theorem not_sameReserves_advanced {state : ReservesState} {amount0Delta amount1Delta : ℤ}
    (h : amount0Delta ≠ 0 ∨ amount1Delta ≠ 0) :
    ¬state.SameReserves (state.advanced amount0Delta amount1Delta) := by
  simp only [ReservesState.SameReserves, ReservesState.advanced]
  omega

/-- Aerodrome returns the state it started from, though every swap that is not refused
moves the reserves. -/
theorem not_simulationComposes {pool : AerodromeV2Pool} {stateOverride : Option ReservesState}
    {result : PoolSimulationResult ReservesState} (h : pool.Simulates stateOverride result) :
    ¬pool.SimulationComposes stateOverride result := by
  intro hcomposes
  have hfinal := hcomposes.final_same
  cases h with
  | @swap tokenIn amountIn report h =>
      simp only [simulateSwap, bind_eq_ok, Except.ok.injEq, calculateTokensOutFromTokensIn,
        ite_error_eq_ok] at h
      obtain ⟨token, -, amountOut, ⟨-, hpos, -⟩, rfl⟩ := h
      refine not_sameReserves_advanced ?_ hfinal
      simp only [SimulationResult.deltas]
      split_ifs <;> omega
  | @swapForOutput tokenOut amountOut report h =>
      simp only [simulateSwapForOutput, bind_eq_ok, Except.ok.injEq,
        calculateTokensInFromTokensOut, ite_error_eq_ok] at h
      obtain ⟨token, -, amountIn, ⟨hpos, -⟩, rfl⟩ := h
      refine not_sameReserves_advanced ?_ hfinal
      simp only [SimulationResult.deltas]
      split_ifs <;> omega

end AerodromeV2Pool

end Degenbot

/-! ## A swap reads a dictionary only through its entries

Two states whose maps have the same entries, in whatever order, give the same swaps. The
block of a state is not read at all. -/

namespace Degenbot

open Library

/-- `==` of two dictionaries. -/
def SameEntries {α β : Type} [DecidableEq α] (a b : Dict α β) : Prop :=
  ∀ key, a.lookup key = b.lookup key

section Entries

variable {α β : Type} [DecidableEq α] {a b : Dict α β}

theorem SameEntries.refl (a : Dict α β) : SameEntries a a := fun _ => rfl

theorem SameEntries.symm (h : SameEntries a b) : SameEntries b a := fun key => (h key).symm

theorem SameEntries.mem_iff (h : SameEntries a b) (key : α) : key ∈ a ↔ key ∈ b := by
  rw [← AList.lookup_isSome, h key, AList.lookup_isSome]

theorem SameEntries.keys_perm (h : SameEntries a b) : a.keys.Perm b.keys :=
  (List.perm_ext_iff_of_nodup a.keys_nodup b.keys_nodup).mpr fun key => by
    rw [← AList.mem_keys, ← AList.mem_keys, h.mem_iff]

theorem SameEntries.insert (h : SameEntries a b) (key : α) (value : β) :
    SameEntries (a.insert key value) (b.insert key value) := by
  intro key'
  by_cases heq : key' = key
  · subst heq
    rw [AList.lookup_insert, AList.lookup_insert]
  · rw [AList.lookup_insert_ne heq, AList.lookup_insert_ne heq, h key']

end Entries

theorem sorted_perm {xs ys : List ℤ} (h : xs.Perm ys) : sorted xs = sorted ys :=
  List.Perm.eq_of_pairwise' (sorted_pairwise xs) (sorted_pairwise ys)
    (((List.perm_insertionSort _ xs).trans h).trans (List.perm_insertionSort _ ys).symm)

theorem sortedReverse_perm {xs ys : List ℤ} (h : xs.Perm ys) :
    sortedReverse xs = sortedReverse ys :=
  List.Perm.eq_of_pairwise' (List.pairwise_insertionSort (· ≥ ·) xs)
    (List.pairwise_insertionSort (· ≥ ·) ys)
    (((List.perm_insertionSort _ xs).trans h).trans (List.perm_insertionSort _ ys).symm)

/-! ## Snapshots -/

structure LiquidityMapSnapshot.Same (a b : LiquidityMapSnapshot) : Prop where
  tickData : SameEntries a.tickData b.tickData
  tickBitmap : SameEntries a.tickBitmap b.tickBitmap
  tickSpacing : a.tickSpacing = b.tickSpacing
  sparse : a.sparse = b.sparse

section Snapshots

variable {a b : LiquidityMapSnapshot}

theorem nextInitializedTickWithinOneWord_same {tickBitmap tickBitmap' : InitializedTickMap}
    {tickData tickData' : LiquidityMap} (hbitmap : SameEntries tickBitmap tickBitmap')
    (hdata : SameEntries tickData tickData') (tick tickSpacing : ℤ) (z : Bool) :
    nextInitializedTickWithinOneWord tickBitmap tickData tick tickSpacing z =
      nextInitializedTickWithinOneWord tickBitmap' tickData' tick tickSpacing z := by
  simp only [nextInitializedTickWithinOneWord, sorted_perm hdata.keys_perm, hdata.mem_iff,
    hbitmap.mem_iff]

theorem genTicks_same {tickData tickData' : LiquidityMap} (h : SameEntries tickData tickData')
    (tick tickSpacing : ℤ) (z : Bool) :
    genTicks tickData tick tickSpacing z = genTicks tickData' tick tickSpacing z := by
  simp only [genTicks, sorted_perm (h.keys_perm.filter _),
    sortedReverse_perm (h.keys_perm.filter _)]

theorem LiquidityMapSnapshot.Same.nextInitializedTick (h : a.Same b) :
    a.nextInitializedTick = b.nextInitializedTick := by
  funext tick z
  simp only [LiquidityMapSnapshot.nextInitializedTick, h.sparse, h.tickSpacing,
    nextInitializedTickWithinOneWord_same h.tickBitmap h.tickData, genTicks_same h.tickData]

theorem LiquidityMapSnapshot.Same.nextTick (h : a.Same b) : a.nextTick = b.nextTick := by
  funext z state
  simp only [LiquidityMapSnapshot.nextTick, h.nextInitializedTick]

theorem LiquidityMapSnapshot.Same.ticksAlongPath (h : a.Same b) :
    a.ticksAlongPath = b.ticksAlongPath := by
  funext tick z
  simp only [LiquidityMapSnapshot.ticksAlongPath, h.sparse, h.tickSpacing,
    genTicks_same h.tickData]

theorem LiquidityMapSnapshot.Same.finishStep (h : a.Same b) : a.finishStep = b.finishStep := by
  have hcross : a.crossTick = b.crossTick := by
    funext z tickNext liquidity
    simp only [LiquidityMapSnapshot.crossTick, h.tickData tickNext]
  funext getTick z initialized tickNext next start state
  simp only [LiquidityMapSnapshot.finishStep, hcross]

/-- The V3 simulator, with another snapshot of the same map. -/
theorem V3.calculateSwap_same (h : a.Same b) (fuel : ℕ) (args : V3.SwapArgs) :
    V3.calculateSwap fuel { args with snapshot := a } =
      V3.calculateSwap fuel { args with snapshot := b } := by
  have hbody : V3.SwapArgs.body { args with snapshot := a } =
      V3.SwapArgs.body { args with snapshot := b } := by
    funext state
    simp only [V3.SwapArgs.body, V3.SwapArgs.moveTo, h.nextTick, h.finishStep, h.tickSpacing]
    rfl
  have hinitial : V3.SwapArgs.initialState { args with snapshot := a } =
      V3.SwapArgs.initialState { args with snapshot := b } := by
    simp only [V3.SwapArgs.initialState, h.ticksAlongPath]
  simp only [V3.calculateSwap, hbody, hinitial]
  rfl

/-- The V4 simulator, with another snapshot of the same map. -/
theorem V4.calculateSwap_same (h : a.Same b) (fuel : ℕ) (args : V4.SwapArgs) :
    V4.calculateSwap fuel { args with snapshot := a } =
      V4.calculateSwap fuel { args with snapshot := b } := by
  have hbody : V4.SwapArgs.body { args with snapshot := a } =
      V4.SwapArgs.body { args with snapshot := b } := by
    funext state
    simp only [V4.SwapArgs.body, V4.SwapArgs.moveTo, h.nextTick, h.finishStep, h.tickSpacing]
    rfl
  have hinitial : V4.SwapArgs.initialState { args with snapshot := a } =
      V4.SwapArgs.initialState { args with snapshot := b } := by
    simp only [V4.SwapArgs.initialState, h.ticksAlongPath]
  simp only [V4.calculateSwap, hbody, hinitial]
  rfl

end Snapshots

/-! ## Attempts -/

/-- States that differ at most in their block and in the order of their dictionaries. -/
structure OverrideState.Same (a b : OverrideState) : Prop where
  liquidity : a.liquidity = b.liquidity
  sqrtPriceX96 : a.sqrtPriceX96 = b.sqrtPriceX96
  tick : a.tick = b.tick
  tickBitmap : SameEntries a.tickBitmap b.tickBitmap
  tickData : SameEntries a.tickData b.tickData

/-- Pools that fetch the same words: they may differ in their states. -/
structure Pool.SameMap (pool pool' : Pool) : Prop where
  tickSpacing : pool.tickSpacing = pool'.tickSpacing
  sparse : pool.sparseLiquidityMap = pool'.sparseLiquidityMap
  updateBlock : pool.updateBlock = pool'.updateBlock

section Attempts

variable {pool pool' : Pool} {provider : Provider} {a b : LiquidityMapSnapshot}

theorem foldlM_insert_same {block : ℕ} {populated : List (ℤ × ℤ × ℤ)}
    {tickData tickData' : LiquidityMap} (h : SameEntries tickData tickData') :
    let fill := fun (tickData : LiquidityMap) ((tick, liquidityGross, liquidityNet) : ℤ × ℤ × ℤ) =>
      do
        let entry ← LiquidityAtTick.validated liquidityNet liquidityGross block
        Except.ok (tickData.insert tick entry)
    ExceptRel (· = ·) SameEntries (populated.foldlM fill tickData)
      (populated.foldlM fill tickData') := by
  intro fill
  induction populated generalizing tickData tickData' with
  | nil => exact .ok h
  | cons head rest ih =>
      obtain ⟨tick, liquidityGross, liquidityNet⟩ := head
      rw [List.foldlM_cons, List.foldlM_cons]
      refine ExceptRel.bind (R := SameEntries) (.bind_same _ fun entry => .ok (h.insert tick entry))
        fun tickData₁ tickData₁' _ _ h₁ => ih h₁

theorem fetchWord_same (hpool : pool.SameMap pool') (provider : Provider) (h : a.Same b)
    (word : ℤ) :
    ExceptRel (· = ·) LiquidityMapSnapshot.Same (pool.fetchWord provider word a)
      (pool'.fetchWord provider word b) := by
  unfold Pool.fetchWord Pool.fetchAndPopulateInitializedTicks Pool.getPopulatedTicksInWord
  rw [hpool.updateBlock, hpool.tickSpacing]
  refine ExceptRel.bind
    (R := fun x y : InitializedTickMap × LiquidityMap => SameEntries x.1 y.1 ∧ SameEntries x.2 y.2)
    ?_ fun x y _ _ hxy => .ok ⟨hxy.2, hxy.1, rfl, rfl⟩
  refine .bind_same _ fun bitmap => .bind_same _ fun populated => ?_
  split
  · exact (foldlM_insert_same h.tickData).bind fun tickData tickData' _ _ hdata =>
      .ok ⟨h.tickBitmap.insert _ _, hdata⟩
  · exact .error rfl

/-- The results of a series of attempts, without the snapshots. -/
theorem retrySwap_same (hpool : pool.SameMap pool')
    {swap swap' : LiquidityMapSnapshot → Option (Except Exn SwapResult)}
    (hswap : ∀ a b : LiquidityMapSnapshot, a.Same b → swap a = swap' b) {attempts : ℕ}
    (h : a.Same b) :
    (pool.retrySwap provider swap attempts a).map (·.map (·.2)) =
      (pool'.retrySwap provider swap' attempts b).map (·.map (·.2)) := by
  induction attempts generalizing a b with
  | zero => rfl
  | succ attempts ih =>
      rw [Pool.retrySwap, Pool.retrySwap, hswap a b h]
      cases houtcome : swap' b with
      | none => rfl
      | some outcome =>
          cases outcome with
          | ok result => rfl
          | error e =>
              cases e
              case missingLiquidityData word =>
                have hfetch := fetchWord_same hpool provider h word
                simp only
                cases hfetch' : pool.fetchWord provider word a with
                | error e =>
                    rw [hfetch'] at hfetch
                    cases hfetch'' : pool'.fetchWord provider word b with
                    | error e' =>
                        rw [hfetch''] at hfetch
                        cases hfetch with
                        | error he => rw [he]
                    | ok b' =>
                        rw [hfetch''] at hfetch
                        cases hfetch
                | ok a' =>
                    rw [hfetch'] at hfetch
                    obtain ⟨b', hb', hsame⟩ := hfetch.ok_left
                    rw [hb']
                    exact ih hsame
              all_goals rfl

theorem attemptSwap_same (hpool : pool.SameMap pool')
    {swap swap' : LiquidityMapSnapshot → Option (Except Exn SwapResult)}
    (hswap : ∀ a b : LiquidityMapSnapshot, a.Same b → swap a = swap' b) {attempts : ℕ}
    {state state' : OverrideState} (h : state.Same state') :
    (pool.attemptSwap provider attempts swap state).map (·.map (·.2)) =
      (pool'.attemptSwap provider attempts swap' state').map (·.map (·.2)) := by
  have hsnapshot : (pool.snapshot state).Same (pool'.snapshot state') :=
    ⟨h.tickData, h.tickBitmap, hpool.tickSpacing, hpool.sparse⟩
  unfold Pool.attemptSwap
  rw [hpool.sparse]
  split
  · exact retrySwap_same hpool hswap hsnapshot
  · rw [hswap _ _ hsnapshot]
    cases swap' (pool'.snapshot state') with
    | none => rfl
    | some outcome => cases outcome <;> rfl

end Attempts

end Degenbot
