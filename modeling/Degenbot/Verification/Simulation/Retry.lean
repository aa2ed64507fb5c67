import Degenbot.Algorithm.Simulation
import Degenbot.Verification.Simulator.Stationary

/-! # Swaps on a sparse map that is completed on the way

Each attempt that meets a missing word fetches it and starts over. Words fetched later do
not change where the first stop of the swap is. -/

namespace Degenbot

open Library

/-! ## Only a search reports a missing word -/

/-- The outcome is not a missing word. -/
def NoMissingWord {α : Type} (outcome : Except Exn α) : Prop :=
  ∀ word, outcome ≠ .error (.missingLiquidityData word)

section NoMissingWord

variable {α β : Type}

@[simp] theorem noMissingWord_ok (a : α) : NoMissingWord (.ok a : Except Exn α) := by
  simp [NoMissingWord]

@[simp] theorem noMissingWord_error {e : Exn} : NoMissingWord (.error e : Except Exn α) ↔
    ∀ word, e ≠ .missingLiquidityData word := by
  simp [NoMissingWord]

@[simp] theorem noMissingWord_bind {outcome : Except Exn α} {next : α → Except Exn β} :
    NoMissingWord (outcome >>= next) ↔
      NoMissingWord outcome ∧ ∀ a, outcome = .ok a → NoMissingWord (next a) := by
  cases outcome <;> simp

@[simp] theorem noMissingWord_ite {c : Prop} [Decidable c] {a b : Except Exn α} :
    NoMissingWord (if c then a else b) ↔ (c → NoMissingWord a) ∧ (¬c → NoMissingWord b) := by
  by_cases hc : c <;> simp [hc]

@[simp] theorem noMissingWord_floorDivide (x y : ℤ) : NoMissingWord (floorDivide x y) := by
  simp [floorDivide]

end NoMissingWord

namespace V4

@[simp] theorem noMissingWord_muldiv (a b d : ℤ) : NoMissingWord (muldiv a b d) := by
  simp [muldiv]

@[simp] theorem noMissingWord_muldivRoundingUp (a b d : ℤ) :
    NoMissingWord (muldivRoundingUp a b d) := by
  simp [muldivRoundingUp]

theorem noMissingWord_getAmount0DeltaRounded (a b liquidity : ℤ) (roundUp : Bool) :
    NoMissingWord (getAmount0DeltaRounded a b liquidity roundUp) := by
  simp [getAmount0DeltaRounded]

theorem noMissingWord_getAmount1DeltaRounded (a b liquidity : ℤ) (roundUp : Bool) :
    NoMissingWord (getAmount1DeltaRounded a b liquidity roundUp) := by
  simp [getAmount1DeltaRounded]

@[simp] theorem noMissingWord_inputDelta (z : Bool) (current price liquidity : ℤ) :
    NoMissingWord (inputDelta z current price liquidity) := by
  cases z with
  | true => exact noMissingWord_getAmount0DeltaRounded _ _ _ _
  | false => exact noMissingWord_getAmount1DeltaRounded _ _ _ _

@[simp] theorem noMissingWord_outputDelta (z : Bool) (current price liquidity : ℤ) :
    NoMissingWord (outputDelta z current price liquidity) := by
  cases z with
  | true => exact noMissingWord_getAmount1DeltaRounded _ _ _ _
  | false => exact noMissingWord_getAmount0DeltaRounded _ _ _ _

@[simp] theorem noMissingWord_getNextSqrtPriceFromInput (price liquidity amount : ℤ) (z : Bool) :
    NoMissingWord (getNextSqrtPriceFromInput price liquidity amount z) := by
  simp [getNextSqrtPriceFromInput, getNextSqrtPriceFromAmount0RoundingUp,
    getNextSqrtPriceFromAmount1RoundingDown]

@[simp] theorem noMissingWord_getNextSqrtPriceFromOutput (price liquidity amount : ℤ)
    (z : Bool) : NoMissingWord (getNextSqrtPriceFromOutput price liquidity amount z) := by
  simp [getNextSqrtPriceFromOutput, getNextSqrtPriceFromAmount0RoundingUp,
    getNextSqrtPriceFromAmount1RoundingDown]

theorem noMissingWord_computeSwapStep (current target liquidity remaining fee : ℤ) :
    NoMissingWord (computeSwapStep current target liquidity remaining fee) := by
  simp [computeSwapStep]

theorem noMissingWord_getTickAtSqrtPrice (price : ℤ) :
    NoMissingWord (getTickAtSqrtPrice price) := by
  simp [getTickAtSqrtPrice, mostSignificantBit, getSqrtPriceAtTick]

theorem noMissingWord_applyAmounts (args : SwapArgs) (state : SwapState) (step : SwapStep) :
    NoMissingWord (args.applyAmounts state step) := by
  simp [SwapArgs.applyAmounts, safeCast]

theorem noMissingWord_finishStep (snapshot : LiquidityMapSnapshot)
    {getTick : ℤ → Except Exn ℤ} (hgetTick : ∀ price, NoMissingWord (getTick price))
    (z initialized : Bool) (tickNext next start : ℤ) (state : SwapState) :
    NoMissingWord
      (snapshot.finishStep getTick z initialized tickNext next start state) := by
  have hcross : NoMissingWord (snapshot.crossTick z tickNext state.liquidity) := by
    unfold LiquidityMapSnapshot.crossTick
    split <;> simp
  simp [LiquidityMapSnapshot.finishStep, hcross, hgetTick]

theorem noMissingWord_moveTo (args : SwapArgs) (stop : ℤ × Bool) (state : SwapState) :
    NoMissingWord (args.moveTo stop state) := by
  simp [SwapArgs.moveTo, getSqrtPriceAtTick, noMissingWord_computeSwapStep,
    noMissingWord_applyAmounts, noMissingWord_finishStep, noMissingWord_getTickAtSqrtPrice]

end V4

/-! ## Where the first stop is known -/

section FirstStop

variable {snapshot : LiquidityMapSnapshot} {tick : ℤ} {z : Bool}

/-- The first stop from `tick` is known: nothing in its word is missing, or the tick
itself is initialized and the search does not read the word. -/
structure LiquidityMapSnapshot.Known (snapshot : LiquidityMapSnapshot) (z : Bool)
    (tick next : ℤ) : Prop where
  sparse : snapshot.sparse = true
  isNextStop : IsNextStop snapshot.tickData snapshot.tickSpacing z tick next
  word_mem : touchedWord snapshot.tickSpacing z tick ∈ snapshot.tickBitmap ∨
    (z = true ∧ tick ∈ snapshot.tickData)

theorem nextInitializedTick_sparse (hsparse : snapshot.sparse = true) :
    snapshot.nextInitializedTick tick z =
      match nextInitializedTickWithinOneWord snapshot.tickBitmap snapshot.tickData tick
        snapshot.tickSpacing z with
      | .error (.liquidityMapWordMissing word) => .error (.missingLiquidityData word)
      | outcome => outcome := by
  cases hsearch : nextInitializedTickWithinOneWord snapshot.tickBitmap snapshot.tickData tick
    snapshot.tickSpacing z with
  | error e => cases e <;> simp [LiquidityMapSnapshot.nextInitializedTick, hsparse, hsearch]
  | ok stop => simp [LiquidityMapSnapshot.nextInitializedTick, hsparse, hsearch]

/-- A search in a sparse map fails only where a word is missing, and names that word. -/
theorem nextInitializedTick_of_notMem (hsparse : snapshot.sparse = true)
    (hword : touchedWord snapshot.tickSpacing z tick ∉ snapshot.tickBitmap)
    (hin : ¬(z = true ∧ tick ∈ snapshot.tickData)) :
    snapshot.nextInitializedTick tick z =
      .error (.missingLiquidityData (touchedWord snapshot.tickSpacing z tick)) := by
  rw [nextInitializedTick_sparse hsparse]
  cases z with
  | true =>
      have hin' : tick ∉ snapshot.tickData := fun hmem => hin ⟨rfl, hmem⟩
      simp only [touchedWord, if_true] at hword ⊢
      simp [nextInitializedTickWithinOneWord, hin', hword]
  | false =>
      simp only [touchedWord, Bool.false_eq_true, if_false] at hword ⊢
      simp [nextInitializedTickWithinOneWord, hword]

theorem nextInitializedTick_of_mem (hs : 0 < snapshot.tickSpacing)
    (hsparse : snapshot.sparse = true)
    (hword : touchedWord snapshot.tickSpacing z tick ∈ snapshot.tickBitmap) :
    ∃ stop, snapshot.nextInitializedTick tick z = .ok stop := by
  obtain ⟨next, -, hok⟩ := nextInitializedTickWithinOneWord_spec snapshot.tickData hs hword
  exact ⟨_, by rw [nextInitializedTick_sparse hsparse, hok]⟩

theorem known_of_nextInitializedTick {stop : ℤ × Bool} (hs : 0 < snapshot.tickSpacing)
    (hsparse : snapshot.sparse = true) (h : snapshot.nextInitializedTick tick z = .ok stop) :
    snapshot.Known z tick stop.1 := by
  refine ⟨hsparse, ?_, ?_⟩
  · rw [nextInitializedTick_sparse hsparse] at h
    split at h
    · cases h
    · exact (nextInitializedTickWithinOneWord_ok hs h).1
  · by_contra hcon
    push Not at hcon
    rw [nextInitializedTick_of_notMem hsparse hcon.1 fun hin => hcon.2 hin.1 hin.2] at h
    cases h

/-- The search fails at the touched word, and only if it is missing. -/
theorem nextInitializedTick_error {e : Exn} (hs : 0 < snapshot.tickSpacing)
    (hsparse : snapshot.sparse = true) (h : snapshot.nextInitializedTick tick z = .error e) :
    e = .missingLiquidityData (touchedWord snapshot.tickSpacing z tick) ∧
      touchedWord snapshot.tickSpacing z tick ∉ snapshot.tickBitmap := by
  have hword : touchedWord snapshot.tickSpacing z tick ∉ snapshot.tickBitmap := fun hmem => by
    obtain ⟨stop, hok⟩ := nextInitializedTick_of_mem hs hsparse hmem
    rw [hok] at h
    cases h
  have hin : ¬(z = true ∧ tick ∈ snapshot.tickData) := by
    rintro ⟨rfl, hmem⟩
    rw [nextInitializedTick_sparse hsparse] at h
    simp [nextInitializedTickWithinOneWord, hmem] at h
  rw [nextInitializedTick_of_notMem hsparse hword hin] at h
  cases h
  exact ⟨rfl, hword⟩

end FirstStop

/-! ## Fetching a word -/

section Fetch

variable {pool : Pool} {provider : Provider} {word : ℤ}

theorem mem_of_foldlM_insert {block : ℕ} {populated : List (ℤ × ℤ × ℤ)}
    {tickData tickData' : LiquidityMap}
    (h : populated.foldlM (fun (tickData : LiquidityMap) (tick, liquidityGross, liquidityNet) => do
      let entry ← LiquidityAtTick.validated liquidityNet liquidityGross block
      .ok (tickData.insert tick entry)) tickData = Except.ok tickData') (t : ℤ) :
    t ∈ tickData' ↔ t ∈ tickData ∨ t ∈ populated.map (·.1) := by
  induction populated generalizing tickData with
  | nil =>
      cases h
      simp
  | cons head rest ih =>
      obtain ⟨tick, liquidityGross, liquidityNet⟩ := head
      rw [List.foldlM_cons] at h
      obtain ⟨tickData₁, hinsert, h⟩ := bind_eq_ok.mp h
      obtain ⟨entry, -, hinsert⟩ := bind_eq_ok.mp hinsert
      cases hinsert
      rw [ih h, AList.mem_insert, List.map_cons, List.mem_cons]
      tauto

/-- The ticks fetched for a word lie in it. -/
theorem getPopulatedTicksInWord_mem {block : ℕ} {populated : List (ℤ × ℤ × ℤ)}
    (h : pool.getPopulatedTicksInWord provider word block = .ok populated) {t : ℤ}
    (ht : t ∈ populated.map (·.1)) :
    ∃ i : ℕ, i < 256 ∧ t = (256 * word + i) * pool.tickSpacing := by
  obtain ⟨bitmap, -, h⟩ := bind_eq_ok.mp h
  obtain ⟨entry, hentry, rfl⟩ := List.mem_map.mp ht
  obtain ⟨tick, htick, hpair⟩ := exists_of_mapM_eq_ok h hentry
  obtain ⟨i, hi, rfl⟩ := List.mem_map.mp htick
  obtain ⟨liquidity, -, hpair⟩ := bind_eq_ok.mp hpair
  cases hpair
  exact ⟨i, List.mem_range.mp (List.mem_filter.mp hi).1, rfl⟩

/-- A fetched word is present, and only ticks of that word are new. -/
structure FetchSpec (pool : Pool) (word : ℤ) (snapshot snapshot' : LiquidityMapSnapshot) :
    Prop where
  spacing_eq : snapshot'.tickSpacing = pool.tickSpacing
  sparse : snapshot'.sparse = true
  word_iff : ∀ w, w ∈ snapshot'.tickBitmap ↔ w = word ∨ w ∈ snapshot.tickBitmap
  tick_kept : ∀ t ∈ snapshot.tickData, t ∈ snapshot'.tickData
  tick_new : ∀ t ∈ snapshot'.tickData, t ∈ snapshot.tickData ∨
    ∃ i : ℕ, i < 256 ∧ t = (256 * word + i) * pool.tickSpacing

theorem fetchWord_spec {snapshot snapshot' : LiquidityMapSnapshot}
    (h : pool.fetchWord provider word snapshot = .ok snapshot') :
    FetchSpec pool word snapshot snapshot' := by
  obtain ⟨⟨tickBitmap, tickData⟩, hfetch, h⟩ := bind_eq_ok.mp h
  cases h
  obtain ⟨bitmap, -, hfetch⟩ := bind_eq_ok.mp hfetch
  obtain ⟨populated, hpopulated, hfetch⟩ := bind_eq_ok.mp hfetch
  split at hfetch
  · obtain ⟨tickData', hfold, hfetch⟩ := bind_eq_ok.mp hfetch
    cases hfetch
    have hmem := mem_of_foldlM_insert hfold
    refine ⟨rfl, rfl, fun w => AList.mem_insert _, fun t ht => (hmem t).mpr (.inl ht),
      fun t ht => ?_⟩
    rcases (hmem t).mp ht with hold | hnew
    · exact .inl hold
    · split at hpopulated
      · exact .inr (getPopulatedTicksInWord_mem hpopulated hnew)
      · cases hpopulated
        simp at hnew
  · cases hfetch

/-- Every tick of another word is on the far side of the boundary or behind the start. -/
theorem isNextStop_of_newWord {tickData tickData' : LiquidityMap} {tickSpacing tick next : ℤ}
    {z : Bool} (hs : 0 < tickSpacing) (hne : word ≠ touchedWord tickSpacing z tick)
    (h : IsNextStop tickData tickSpacing z tick next) (hkept : ∀ t ∈ tickData, t ∈ tickData')
    (hnew : ∀ t ∈ tickData', t ∈ tickData ∨
      ∃ i : ℕ, i < 256 ∧ t = (256 * word + i) * tickSpacing) :
    IsNextStop tickData' tickSpacing z tick next := by
  -- ticks of a lower and of a higher word, in terms of the touched one
  have hlower (i : ℕ) (hi : i < 256) (hlt : word < touchedWord tickSpacing z tick) :
      (256 * word + i) * tickSpacing ≤
        (256 * touchedWord tickSpacing z tick - 1) * tickSpacing :=
    mul_le_mul_of_nonneg_right (by omega) hs.le
  have hupper (i : ℕ) (hgt : touchedWord tickSpacing z tick < word) :
      (256 * touchedWord tickSpacing z tick + 256) * tickSpacing ≤
        (256 * word + i) * tickSpacing :=
    mul_le_mul_of_nonneg_right (by omega) hs.le
  cases z with
  | true =>
      obtain ⟨⟨hstop, hle⟩, hmax⟩ := h
      obtain ⟨q, -, hbound, hbound'⟩ := boundaryTick_down_spec hs tick
      have hboundary : boundaryTick tickSpacing true tick ≤ next := hmax ⟨.inr rfl, hbound⟩
      have hvalue : boundaryTick tickSpacing true tick =
          256 * touchedWord tickSpacing true tick * tickSpacing := by
        simp only [boundaryTick, if_true]
        ring
      refine ⟨⟨hstop.imp_left (hkept next), hle⟩, ?_⟩
      rintro t ⟨ht | rfl, hta⟩
      · rcases hnew t ht with hold | ⟨i, hi, rfl⟩
        · exact hmax ⟨.inl hold, hta⟩
        · rcases lt_or_gt_of_ne hne with hlt | hgt
          · have := hlower i hi hlt
            linarith
          · have := hupper i hgt
            linarith
      · exact hboundary
  | false =>
      obtain ⟨⟨hstop, hlt⟩, hmin⟩ := h
      obtain ⟨q, -, hbound', hbound⟩ := boundaryTick_up_spec hs tick
      have hboundary : next ≤ boundaryTick tickSpacing false tick := hmin ⟨.inr rfl, hbound⟩
      have hvalue : boundaryTick tickSpacing false tick =
          256 * touchedWord tickSpacing false tick * tickSpacing + 255 * tickSpacing := by
        simp only [boundaryTick, Bool.false_eq_true, if_false]
        ring
      refine ⟨⟨hstop.imp_left (hkept next), hlt⟩, ?_⟩
      rintro t ⟨ht | rfl, hta⟩
      · rcases hnew t ht with hold | ⟨i, hi, rfl⟩
        · exact hmin ⟨.inl hold, hta⟩
        · rcases lt_or_gt_of_ne hne with hlt' | hgt
          · have := hlower i hi hlt'
            linarith
          · have := hupper i hgt
            linarith
      · exact hboundary

/-- Fetching a missing word keeps a known stop. -/
theorem LiquidityMapSnapshot.Known.fetch {snapshot snapshot' : LiquidityMapSnapshot} {z : Bool}
    {tick next : ℤ} (hs : 0 < pool.tickSpacing) (hspacing : snapshot.tickSpacing = pool.tickSpacing)
    (h : snapshot.Known z tick next) (hword : word ∉ snapshot.tickBitmap)
    (hfetch : FetchSpec pool word snapshot snapshot') : snapshot'.Known z tick next := by
  obtain ⟨-, hstop, hmem⟩ := h
  rw [hspacing] at hstop hmem
  refine ⟨hfetch.sparse, ?_, ?_⟩ <;> rw [hfetch.spacing_eq]
  · by_cases hne : word = touchedWord pool.tickSpacing z tick
    · -- the search never read its word: it stopped at the start itself
      rcases hmem with hpresent | ⟨rfl, hin⟩
      · exact absurd (hne ▸ hpresent) hword
      · have hstart : next = tick := le_antisymm hstop.1.2 (hstop.2 ⟨.inl hin, le_rfl⟩)
        subst hstart
        exact ⟨⟨.inl (hfetch.tick_kept next hin), le_rfl⟩, fun t ht => ht.2⟩
    · exact isNextStop_of_newWord hs hne hstop hfetch.tick_kept hfetch.tick_new
  · rcases hmem with hpresent | ⟨hz, hin⟩
    · exact .inl ((hfetch.word_iff _).mpr (.inr hpresent))
    · exact .inr ⟨hz, hfetch.tick_kept tick hin⟩

end Fetch

/-! ## Attempts -/

/-- What the loop over the attempts relies on: the search for the first stop comes first,
and a word that is reported as missing is missing. -/
structure SearchesFirst (z : Bool) (tick : ℤ)
    (swap : LiquidityMapSnapshot → Option (Except Exn SwapResult)) : Prop where
  ok_first : ∀ {snapshot result}, swap snapshot = some (.ok result) →
    ∃ stop, snapshot.nextInitializedTick tick z = .ok stop
  missing_first : ∀ {snapshot e word}, snapshot.nextInitializedTick tick z = .error e →
    swap snapshot = some (.error (.missingLiquidityData word)) → e = .missingLiquidityData word
  missing_notMem : ∀ {snapshot word}, 0 < snapshot.tickSpacing → snapshot.sparse = true →
    swap snapshot = some (.error (.missingLiquidityData word)) → word ∉ snapshot.tickBitmap

/-- The first stop of a swap, once the word of its first search is loaded. -/
def Pool.firstStop (pool : Pool) (provider : Provider) (z : Bool) (state : OverrideState) :
    Except Exn (ℤ × Bool) :=
  match (pool.snapshot state).nextInitializedTick state.tick z with
  | .error (.missingLiquidityData word) => do
      let snapshot ← pool.fetchWord provider word (pool.snapshot state)
      snapshot.nextInitializedTick state.tick z
  | outcome => outcome

section Attempts

variable {pool : Pool} {provider : Provider} {z : Bool} {tick : ℤ} {attempts : ℕ}
  {swap : LiquidityMapSnapshot → Option (Except Exn SwapResult)}
  {snapshot snapshot' : LiquidityMapSnapshot} {result : SwapResult}

/-- An attempt returns, or reports a missing word that is fetched before the next one. -/
theorem retrySwap_cases
    (h : pool.retrySwap provider swap attempts snapshot = some (.ok (snapshot', result))) :
    ∃ attempts', attempts = attempts' + 1 ∧
      ((swap snapshot = some (.ok result) ∧ snapshot' = snapshot) ∨
        ∃ word fetched, swap snapshot = some (.error (.missingLiquidityData word)) ∧
          pool.fetchWord provider word snapshot = .ok fetched ∧
          pool.retrySwap provider swap attempts' fetched = some (.ok (snapshot', result))) := by
  cases attempts with
  | zero => cases h
  | succ attempts' =>
      refine ⟨attempts', rfl, ?_⟩
      rw [Pool.retrySwap] at h
      split at h
      · cases h
      · rename_i hswap
        cases h
        exact .inl ⟨hswap, rfl⟩
      · rename_i word hswap
        split at h
        · cases h
        · rename_i fetched hfetch
          exact .inr ⟨word, fetched, hswap, hfetch, h⟩
      · cases h

/-- A stop that is known stays known through all further attempts. -/
theorem retrySwap_known {next : ℤ} (hsearch : SearchesFirst z tick swap)
    (hs : 0 < pool.tickSpacing) (hspacing : snapshot.tickSpacing = pool.tickSpacing)
    (hknown : snapshot.Known z tick next)
    (h : pool.retrySwap provider swap attempts snapshot = some (.ok (snapshot', result))) :
    swap snapshot' = some (.ok result) ∧ snapshot'.tickSpacing = pool.tickSpacing ∧
      snapshot'.Known z tick next := by
  induction attempts generalizing snapshot with
  | zero => cases h
  | succ attempts ih =>
      obtain ⟨attempts', hattempts, ⟨hswap, rfl⟩ | ⟨word, fetched, hswap, hfetch, hrest⟩⟩ :=
        retrySwap_cases h
      · exact ⟨hswap, hspacing, hknown⟩
      · cases hattempts
        have hspec := fetchWord_spec hfetch
        have hword := hsearch.missing_notMem (by rw [hspacing]; exact hs) hknown.sparse hswap
        exact ih hspec.spacing_eq (hknown.fetch hs hspacing hword hspec) hrest

/-- The swap that is returned starts with the first stop of the pool. -/
theorem attemptSwap_firstStop {state : OverrideState}
    (hsearch : SearchesFirst z state.tick swap) (hs : 0 < pool.tickSpacing)
    (h : pool.attemptSwap provider attempts swap state = some (.ok (snapshot', result))) :
    swap snapshot' = some (.ok result) ∧ snapshot'.tickSpacing = pool.tickSpacing ∧
      ∃ stop stop', pool.firstStop provider z state = .ok stop ∧
        snapshot'.nextInitializedTick state.tick z = .ok stop' ∧ stop'.1 = stop.1 := by
  -- a stop known to an attempt is the one found in the last one
  have hretry {attempts : ℕ} {snapshot : LiquidityMapSnapshot} {stop : ℤ × Bool}
      (hspacing : snapshot.tickSpacing = pool.tickSpacing) (hsparse : snapshot.sparse = true)
      (hstop : snapshot.nextInitializedTick state.tick z = .ok stop)
      (hrest : pool.retrySwap provider swap attempts snapshot = some (.ok (snapshot', result))) :
      swap snapshot' = some (.ok result) ∧ snapshot'.tickSpacing = pool.tickSpacing ∧
        ∃ stop', snapshot'.nextInitializedTick state.tick z = .ok stop' ∧ stop'.1 = stop.1 := by
    obtain ⟨hswap, hspacing', hknown⟩ := retrySwap_known hsearch hs hspacing
      (known_of_nextInitializedTick (by rw [hspacing]; exact hs) hsparse hstop) hrest
    obtain ⟨stop', hstop'⟩ := hsearch.ok_first hswap
    have hknown' := known_of_nextInitializedTick (by rw [hspacing']; exact hs) hknown.sparse hstop'
    exact ⟨hswap, hspacing', stop', hstop', hknown'.isNextStop.unique hknown.isNextStop⟩
  unfold Pool.attemptSwap at h
  by_cases hsparse : pool.sparseLiquidityMap = true
  · rw [if_pos hsparse] at h
    cases hfirst : (pool.snapshot state).nextInitializedTick state.tick z with
    | ok stop =>
        obtain ⟨hswap, hspacing, stop', hstop', heq⟩ := hretry rfl hsparse hfirst h
        exact ⟨hswap, hspacing, stop, stop', by simp [Pool.firstStop, hfirst], hstop', heq⟩
    | error e =>
        obtain ⟨attempts', -, ⟨hswap, -⟩ | ⟨word, fetched, hswap, hfetch, hrest⟩⟩ :=
          retrySwap_cases h
        · obtain ⟨stop, hok⟩ := hsearch.ok_first hswap
          rw [hfirst] at hok
          cases hok
        · obtain rfl := hsearch.missing_first hfirst hswap
          obtain ⟨hword, -⟩ := nextInitializedTick_error hs hsparse hfirst
          have hspec := fetchWord_spec hfetch
          have htouched : touchedWord fetched.tickSpacing z state.tick ∈ fetched.tickBitmap := by
            rw [hspec.spacing_eq, hspec.word_iff]
            injection hword with hword
            exact .inl hword.symm
          obtain ⟨stop, hstop⟩ := nextInitializedTick_of_mem
            (by rw [hspec.spacing_eq]; exact hs) hspec.sparse htouched
          obtain ⟨hswap', hspacing, stop', hstop', heq⟩ :=
            hretry hspec.spacing_eq hspec.sparse hstop hrest
          exact ⟨hswap', hspacing, stop, stop', by simp [Pool.firstStop, hfirst, hfetch, hstop],
            hstop', heq⟩
  · rw [if_neg hsparse] at h
    simp only [Option.map_eq_some_iff] at h
    obtain ⟨outcome, hswap, hresult⟩ := h
    cases outcome with
    | error e => cases hresult
    | ok swapped =>
        cases hresult
        obtain ⟨stop, hstop⟩ := hsearch.ok_first hswap
        exact ⟨hswap, rfl, stop, stop, by simp [Pool.firstStop, hstop], hstop, rfl⟩

end Attempts

/-! ## The V4 simulator -/

namespace V4

section Swap

variable {args : SwapArgs} {fuel : ℕ}

/-- A swap of some amount fails before its loop, or is its loop. -/
theorem calculateSwap_cases {outcome : Except Exn SwapResult} (hne : args.amountSpecified ≠ 0)
    (h : calculateSwap fuel args = some outcome) :
    (∃ e, outcome = .error e ∧ ∀ word, e ≠ .missingLiquidityData word) ∨
      (args.guard args.initialState = true ∧ 0 ≤ args.liquidityStart ∧
        ∃ final, outcome = final.map args.result ∧
          whileLoop args.guard args.body fuel args.initialState = some final) := by
  unfold calculateSwap at h
  split at h
  · cases h
    exact .inl ⟨_, rfl, by simp⟩
  · rename_i hL
    split at h
    · cases h
      exact .inl ⟨_, rfl, by simp⟩
    · cases hcheck : args.check with
      | error e =>
          rw [hcheck] at h
          cases h
          have hno : NoMissingWord args.check := by simp [SwapArgs.check]
          rw [hcheck, noMissingWord_error] at hno
          exact .inl ⟨e, rfl, hno⟩
      | ok u =>
          rw [hcheck] at h
          simp only [Option.map_eq_some_iff] at h
          obtain ⟨final, hloop, hresult⟩ := h
          refine .inr ⟨?_, not_not.mp hL, final, hresult.symm, hloop⟩
          have hprice : args.sqrtPriceX96Start ≠ args.sqrtPriceX96Limit := by
            rintro heq
            simp [SwapArgs.check, heq] at hcheck
          simp [SwapArgs.guard, SwapArgs.initialState, hne, hprice]

/-- The loop ends with the error of the first search. -/
theorem SwapArgs.loop_first_error {e : Exn} {final : Except Exn SwapState}
    (hguard : args.guard args.initialState = true)
    (h : args.snapshot.nextInitializedTick args.tickStart args.zeroForOne = .error e)
    (hloop : whileLoop args.guard args.body fuel args.initialState = some final) :
    final = .error e := by
  have hnext : args.snapshot.nextTick args.zeroForOne args.initialState = .error e := by
    by_cases hsparse : args.snapshot.sparse = true
    · simp [LiquidityMapSnapshot.nextTick, SwapArgs.initialState,
        LiquidityMapSnapshot.ticksAlongPath, hsparse, Except.toOption, h]
    · simp [LiquidityMapSnapshot.nextInitializedTick, hsparse] at h
  have hbody : args.body args.initialState = .error e := by simp [SwapArgs.body, hnext]
  cases fuel with
  | zero => cases hloop
  | succ fuel =>
      rw [whileLoop_error fuel hguard hbody] at hloop
      exact (Option.some.inj hloop).symm

/-- Only the search for the next tick reports a missing word. -/
theorem SwapArgs.body_missing {state : SwapState} {word : ℤ} (hs : 0 < args.snapshot.tickSpacing)
    (hsparse : args.snapshot.sparse = true)
    (h : args.body state = .error (.missingLiquidityData word)) :
    word ∉ args.snapshot.tickBitmap := by
  cases hnext : args.snapshot.nextTick args.zeroForOne state with
  | ok next =>
      simp only [SwapArgs.body, hnext, ok_bind] at h
      exact absurd h (noMissingWord_moveTo _ _ _ word)
  | error e =>
      simp only [SwapArgs.body, hnext, error_bind, Except.error.injEq] at h
      subst h
      unfold LiquidityMapSnapshot.nextTick at hnext
      split at hnext
      · cases hnext
      · cases hsearch : args.snapshot.nextInitializedTick state.tick args.zeroForOne with
        | ok next => simp [hsearch] at hnext
        | error e =>
            simp only [hsearch, error_bind, Except.error.injEq] at hnext
            obtain ⟨hword, hmissing⟩ := nextInitializedTick_error hs hsparse hsearch
            rw [hnext] at hword
            injection hword with hword
            exact hword ▸ hmissing

/-- One pass of an exact output never credits the swapper with the input. -/
theorem SwapArgs.body_output {state state' : SwapState} (hpos : ¬args.amountSpecified < 0)
    (hlimit : 0 < args.sqrtPriceX96Limit) (hfee : 0 ≤ args.swapFee)
    (hinv : 0 ≤ state.liquidity ∧ state.amountCalculated ≤ 0)
    (h : args.body state = .ok state') :
    0 ≤ state'.liquidity ∧ state'.amountCalculated ≤ 0 := by
  obtain ⟨⟨stop, ticks⟩, -, hmove⟩ := bind_eq_ok.mp h
  obtain ⟨sqrtPriceNext, step, moved, hnext, hstep, hmoved, hfinish, hL⟩ :=
    SwapArgs.moveTo_eq_ok hmove
  have htotal := computeSwapStep_total_nonneg hinv.1 (SwapArgs.target_pos hlimit hnext) hfee hstep
  obtain ⟨-, hcalculated, -, -⟩ := V3.finishStep_frame hfinish
  simp only [SwapArgs.applyAmounts, hpos, if_false, bind_eq_ok, Except.ok.injEq] at hmoved
  obtain ⟨-, -, -, -, rfl⟩ := hmoved
  refine ⟨hL, ?_⟩
  rw [hcalculated]
  simp only
  omega

/-- Of the two amounts of an exact output, one is paid by the swapper. -/
theorem calculateSwap_output_pays {result : SwapResult} (hpos : 0 < args.amountSpecified)
    (hlimit : 0 < args.sqrtPriceX96Limit) (hfee : 0 ≤ args.swapFee)
    (h : calculateSwap fuel args = some (.ok result)) :
    min result.amount0 result.amount1 ≤ 0 := by
  rcases calculateSwap_cases hpos.ne' h with ⟨e, hcon, -⟩ | ⟨-, hL, final, hfinal, hloop⟩
  · cases hcon
  · cases final with
    | error e => cases hfinal
    | ok final =>
        cases hfinal
        have hinv := (whileLoop_invariant
          (fun s s' hs hiter => SwapArgs.body_output (by omega) hlimit hfee hs hiter.2)
          (I := fun state => 0 ≤ state.liquidity ∧ state.amountCalculated ≤ 0)
          ⟨hL, le_rfl⟩ hloop).1
        simp only [SwapArgs.result]
        split_ifs <;> simp [hinv.2]

end Swap

/-- The V4 simulator as a function of its snapshot. -/
theorem searchesFirst {args : LiquidityMapSnapshot → SwapArgs} {fuel : ℕ} {z : Bool} {tick : ℤ}
    (hsnapshot : ∀ snapshot, (args snapshot).snapshot = snapshot)
    (htick : ∀ snapshot, (args snapshot).tickStart = tick)
    (hz : ∀ snapshot, (args snapshot).zeroForOne = z)
    (hne : ∀ snapshot, (args snapshot).amountSpecified ≠ 0) :
    SearchesFirst z tick fun snapshot => calculateSwap fuel (args snapshot) where
  ok_first := by
    intro snapshot result h
    rcases calculateSwap_cases (hne snapshot) h with ⟨e, hcon, -⟩ |
      ⟨hguard, -, final, hfinal, hloop⟩
    · cases hcon
    · cases hfirst : snapshot.nextInitializedTick tick z with
      | ok stop => exact ⟨stop, rfl⟩
      | error e =>
          cases SwapArgs.loop_first_error hguard
            (by rw [hsnapshot, htick, hz]; exact hfirst) hloop
          cases hfinal
  missing_first := by
    intro snapshot e word hfirst h
    rcases calculateSwap_cases (hne snapshot) h with ⟨e, hcon, hno⟩ |
      ⟨hguard, -, final, hfinal, hloop⟩
    · cases hcon
      exact absurd rfl (hno word)
    · cases SwapArgs.loop_first_error hguard
        (by rw [hsnapshot, htick, hz]; exact hfirst) hloop
      cases hfinal
      rfl
  missing_notMem := by
    intro snapshot word hs hsparse h
    rcases calculateSwap_cases (hne snapshot) h with ⟨e, hcon, hno⟩ |
      ⟨-, -, final, hfinal, hloop⟩
    · cases hcon
      exact absurd rfl (hno word)
    · cases final with
      | ok final => cases hfinal
      | error e =>
          cases hfinal
          obtain ⟨state, -, hbody⟩ := exists_of_whileLoop_error hloop
          have hmissing := SwapArgs.body_missing (by rw [hsnapshot]; exact hs)
            (by rw [hsnapshot]; exact hsparse) hbody
          rwa [hsnapshot] at hmissing

end V4

end Degenbot
