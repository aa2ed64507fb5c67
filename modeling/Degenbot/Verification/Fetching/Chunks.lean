import Degenbot.Algorithm.FetchLogs

/-! # Log fetching

The chunks follow each other without gap or overlap, whatever the spans. The spans stay between
one and the maximum, unless the maximum overflows a float. -/

namespace Degenbot.Fetching

open Library

/-! ## Spans -/

section Spans

variable {w M : ℕ}

/-- The floats that `increaseWorkingSpan` computes. -/
theorem increaseWorkingSpan_eq_some {percent ceiling span : ℕ} :
    increaseWorkingSpan w percent ceiling = some span ↔
      ∃ rate float increment increased : ℚ, binary64 (percent / 100) = some rate ∧
        binary64 w = some float ∧ binary64 (float * rate) = some increment ∧
        binary64 (float + increment) = some increased ∧
        span = min ceiling ⌊increased⌋.toNat := by
  unfold increaseWorkingSpan
  constructor
  · intro h
    obtain ⟨rate, hrate, h⟩ := Option.bind_eq_some_iff.mp h
    obtain ⟨float, hfloat, h⟩ := Option.bind_eq_some_iff.mp h
    obtain ⟨increment, hincrement, h⟩ := Option.bind_eq_some_iff.mp h
    obtain ⟨increased, hincreased, h⟩ := Option.bind_eq_some_iff.mp h
    exact ⟨rate, float, increment, increased, hrate, hfloat, hincrement, hincreased,
      (Option.some.inj h).symm⟩
  · rintro ⟨rate, float, increment, increased, hrate, hfloat, hincrement, hincreased, rfl⟩
    simp [hrate, hfloat, hincrement, hincreased]

/-- A rate is close to its percentage. -/
theorem rate_bounds {percent : ℚ} {rate : ℚ} (hpercent : 1 ≤ percent)
    (h : binary64 (percent / 100) = some rate) :
    percent / 100 * (15 / 16) ≤ rate ∧ rate ≤ percent / 100 * (17 / 16) := by
  obtain ⟨-, rfl⟩ := binary64_eq_some.mp h
  have hbounds := nearest_bounds (x := percent / 100) (by linarith)
  constructor <;> linarith

/-- The maximum can be widened in floats. -/
structure Widens (M : ℕ) (rate float increment increased : ℚ) : Prop where
  rate_eq : binary64 (5 / 100) = some rate
  float_eq : binary64 M = some float
  increment_eq : binary64 (float * rate) = some increment
  increased_eq : binary64 (float + increment) = some increased

theorem exists_widens (h : (increaseWorkingSpan M 5 M).isSome) :
    ∃ rate float increment increased, Widens M rate float increment increased := by
  obtain ⟨span, hspan⟩ := Option.isSome_iff_exists.mp h
  obtain ⟨rate, float, increment, increased, hrate, hfloat, hincrement, hincreased, -⟩ :=
    increaseWorkingSpan_eq_some.mp hspan
  exact ⟨rate, float, increment, increased, hrate, hfloat, hincrement, hincreased⟩

variable {rate float increment increased : ℚ}

theorem nearest_nonneg {x : ℚ} (hx : 1 / 1024 ≤ x) : 0 ≤ nearest x := by
  have hbounds := (nearest_bounds hx).1
  linarith

/-- A smaller span is widened in floats as well. -/
theorem exists_increase (hwidens : Widens M rate float increment increased) (hw : 0 < w)
    (hle : w ≤ M) :
    ∃ span, increaseWorkingSpan w 5 M = some span ∧ 0 < span ∧ span ≤ M := by
  have hrate := rate_bounds (by norm_num) hwidens.rate_eq
  obtain ⟨-, hfloat⟩ := binary64_eq_some.mp hwidens.float_eq
  obtain ⟨-, hincrement⟩ := binary64_eq_some.mp hwidens.increment_eq
  have hone : (1 : ℚ) ≤ w := by exact_mod_cast hw
  have hcast : (w : ℚ) ≤ M := by exact_mod_cast hle
  have hspan := binary64_of_le (by linarith) hcast hwidens.float_eq
  have hfloatOne : 1 ≤ nearest w := one_le_nearest hone
  have hfloatLe : nearest w ≤ float := hfloat ▸ nearest_mono (by linarith) hcast
  have hproduct : nearest w * rate ≤ float * rate :=
    mul_le_mul_of_nonneg_right hfloatLe (by linarith)
  have hproductPos : 1 / 1024 ≤ nearest w * rate := by nlinarith
  have hstep := binary64_of_le (by linarith) hproduct hwidens.increment_eq
  have hstepLe : nearest (nearest w * rate) ≤ increment :=
    hincrement ▸ nearest_mono (by linarith) hproduct
  have hstepNonneg := nearest_nonneg hproductPos
  have hsum := binary64_of_le (by linarith) (add_le_add hfloatLe hstepLe) hwidens.increased_eq
  refine ⟨_, increaseWorkingSpan_eq_some.mpr
    ⟨rate, _, _, _, hwidens.rate_eq, hspan, hstep, hsum, rfl⟩, ?_, min_le_left _ _⟩
  have hsumOne : 1 ≤ nearest (nearest w + nearest (nearest w * rate)) :=
    one_le_nearest (by linarith)
  have hfloor : (1 : ℤ) ≤ ⌊nearest (nearest w + nearest (nearest w * rate))⌋ :=
    Int.le_floor.mpr (by exact_mod_cast hsumOne)
  omega

theorem exists_reduce (hwidens : Widens M rate float increment increased) (hw : 0 < w)
    (hle : w ≤ M) :
    ∃ span, reduceWorkingSpan w 25 = some span ∧ 0 < span ∧ span ≤ M := by
  have hupper := rate_bounds (by norm_num) hwidens.rate_eq
  obtain ⟨-, hfloat⟩ := binary64_eq_some.mp hwidens.float_eq
  obtain ⟨-, hincrement⟩ := binary64_eq_some.mp hwidens.increment_eq
  have hone : (1 : ℚ) ≤ w := by exact_mod_cast hw
  have hcast : (w : ℚ) ≤ M := by exact_mod_cast hle
  have hspan := binary64_of_le (by linarith) hcast hwidens.float_eq
  have hfloatOne : 1 ≤ nearest w := one_le_nearest hone
  have hfloatLe : nearest w ≤ float := hfloat ▸ nearest_mono (by linarith) hcast
  have hfloatBounds := nearest_bounds (x := w) (by linarith)
  have hfloatOne' : 1 ≤ float := hfloatOne.trans hfloatLe
  have hrateLow : (1 : ℚ) / 1024 ≤ rate := by linarith only [hupper.1]
  have hincrementNonneg : 0 ≤ increment := by
    rw [← hincrement]
    exact nearest_nonneg (hrateLow.trans (le_mul_of_one_le_left (by linarith only [hrateLow])
      hfloatOne'))
  generalize nearest w = f at *
  have hquarter : binary64 ((25 : ℚ) / 100) = some (nearest (25 / 100)) := by
    have hbounds := nearest_bounds (x := 25 / 100) (by norm_num)
    have hone : nearest (25 / 100) ≤ 1 := by linarith
    have hbig : (1 : ℚ) < 2 ^ 1024 := one_lt_pow₀ (by norm_num) (by norm_num)
    exact binary64_eq_some.mpr ⟨hone.trans_lt hbig, rfl⟩
  have hrate := rate_bounds (by norm_num) hquarter
  generalize nearest (25 / 100) = r at *
  have hfNonneg : 0 ≤ f := by linarith only [hfloatOne]
  have hlow : f * (15 / 64) ≤ f * r :=
    mul_le_mul_of_nonneg_left (by linarith only [hrate.1]) hfNonneg
  have hhigh : f * r ≤ f * (17 / 64) :=
    mul_le_mul_of_nonneg_left (by linarith only [hrate.2]) hfNonneg
  have hstepBounds := nearest_bounds (x := f * r) (by linarith only [hlow, hfloatOne])
  have hstep : binary64 (f * r) = some (nearest (f * r)) :=
    binary64_of_le (by linarith only [hlow, hfloatOne])
      (by linarith only [hhigh, hfloatOne, hfloatLe, hincrementNonneg]) hwidens.increased_eq
  generalize nearest (f * r) = d at *
  have hdlow : f * (225 / 1024) ≤ d := by linarith only [hlow, hstepBounds.1]
  have hdhigh : d ≤ f * (289 / 1024) := by linarith only [hhigh, hstepBounds.2]
  have hdiff : binary64 (f - d) = some (nearest (f - d)) :=
    binary64_of_le (by linarith) (by linarith) hwidens.increased_eq
  have hdiffBounds := nearest_bounds (x := f - d) (by linarith)
  have hreduced : nearest (f - d) ≤ M := by linarith
  have hfloor : ⌊nearest (f - d)⌋ ≤ (M : ℤ) := by
    have hcastFloor := (Int.floor_le (nearest (f - d))).trans hreduced
    exact_mod_cast hcastFloor
  refine ⟨max 1 ⌊nearest (f - d)⌋.toNat, ?_, by omega, by omega⟩
  simp [reduceWorkingSpan, hquarter, hspan, hstep, hdiff]

end Spans

/-- Up to half of the first power of two that overflows, no span does. -/
theorem increaseWorkingSpan_isSome {M : ℕ} (hpos : 0 < M) (h : 2 * (M : ℚ) ≤ 2 ^ 1024) :
    (increaseWorkingSpan M 5 M).isSome := by
  have hone : (1 : ℚ) ≤ M := by exact_mod_cast hpos
  obtain ⟨limit, hlimit⟩ : ∃ limit : ℚ, limit = 2 ^ 1024 := ⟨_, rfl⟩
  rw [← hlimit] at h
  have hfinite : ∀ x : ℚ, nearest x < limit → binary64 x = some (nearest x) := by
    intro x hx
    rw [hlimit] at hx
    exact binary64_eq_some.mpr ⟨hx, rfl⟩
  clear hlimit
  have hrateBounds := nearest_bounds (x := 5 / 100) (by norm_num)
  have hrate := hfinite (5 / 100) (by linarith)
  have hfloatBounds := nearest_bounds (x := M) (by linarith)
  have hfloat := hfinite M (by linarith)
  generalize nearest (5 / 100) = r at *
  generalize nearest M = f at *
  have hproductBounds := nearest_bounds (x := f * r) (by nlinarith)
  have hproductLe : f * r ≤ f * (17 / 320) := by nlinarith
  have hproduct := hfinite (f * r) (by linarith)
  generalize nearest (f * r) = d at *
  have hsumBounds := nearest_bounds (x := f + d) (by nlinarith)
  have hsum := hfinite (f + d) (by linarith)
  exact Option.isSome_iff_exists.mpr ⟨_, increaseWorkingSpan_eq_some.mpr
    ⟨r, f, d, _, hrate, hfloat, hproduct, hsum, rfl⟩⟩

theorem increaseWorkingSpan_overflow : increaseWorkingSpan (2 ^ 1024) 5 (2 ^ 1024) = none := by
  rw [Option.eq_none_iff_forall_ne_some]
  intro span hspan
  obtain ⟨rate, float, increment, increased, -, hfloat, -⟩ := increaseWorkingSpan_eq_some.mp hspan
  have hpow : ((2 ^ 1024 : ℕ) : ℚ) = 2 ^ (1024 : ℤ) :=
    (Nat.cast_pow 2 1024).trans (zpow_natCast 2 1024).symm
  have hlog : Int.log 2 ((2 : ℚ) ^ (1024 : ℤ)) = 1024 := Int.log_zpow (by norm_num) 1024
  have hbinade : binade ((2 : ℚ) ^ (1024 : ℤ)) - 52 ≤ 1024 := by
    rw [binade, hlog]
    norm_num
  have hle := le_nearest hbinade le_rfl
  rw [hpow] at hfloat
  have hlt : nearest (2 ^ (1024 : ℤ)) < 2 ^ (1024 : ℤ) :=
    (binary64_eq_some.mp hfloat).1.trans_eq (zpow_natCast 2 1024).symm
  exact absurd hle (not_le.mpr hlt)

/-! ## Chunks -/

section Chunks

variable {Log : Type} {blockLogs : ℕ → List Log} {schedule : ℕ → Outcome} {endBlock M : ℕ}
  {maxRetries : ℤ}

theorem rangeLogs_append {a b c : ℕ} (hab : a ≤ b + 1) (hbc : b ≤ c) :
    rangeLogs blockLogs a b ++ rangeLogs blockLogs (b + 1) c = rangeLogs blockLogs a c := by
  have hlength : c + 1 - a = (b + 1 - a) + (c + 1 - (b + 1)) := by omega
  have hnext : a + 1 * (b + 1 - a) = b + 1 := by omega
  rw [rangeLogs, rangeLogs, rangeLogs, hlength, ← List.flatMap_append, ← List.range'_append, hnext]

/-- What an attempt relies on. -/
structure Ready (endBlock M : ℕ) (s : FetchState Log) : Prop where
  start_le : s.startBlock ≤ endBlock
  span_pos : 0 < s.workingSpan
  span_le : s.workingSpan ≤ M

/-- What the attempts at one chunk leave when one of them succeeds. -/
structure Fetched (blockLogs : ℕ → List Log) (endBlock M : ℕ) (s : FetchState Log) (chunkEnd : ℕ)
    (s' : FetchState Log) : Prop where
  start_le : s.startBlock ≤ chunkEnd
  end_le : chunkEnd ≤ endBlock
  span_pos : 0 < s'.workingSpan
  span_le : s'.workingSpan ≤ M
  eventLogs_eq : s'.eventLogs = s.eventLogs ++ rangeLogs blockLogs s.startBlock chunkEnd

section Attempts

variable {attemptsLeft span : ℕ} {s : FetchState Log}

theorem attemptChunk_delivered (houtcome : schedule s.request = .delivered)
    (hincrease : increaseWorkingSpan s.workingSpan 5 M = some span) :
    attemptChunk blockLogs schedule endBlock maxRetries M attemptsLeft s =
      .ok (min endBlock (s.startBlock + s.workingSpan - 1), { s with
        workingSpan := span
        request := s.request + 1
        eventLogs := s.eventLogs ++ rangeLogs blockLogs s.startBlock
          (min endBlock (s.startBlock + s.workingSpan - 1)) }) := by
  cases attemptsLeft <;> simp only [attemptChunk, houtcome, hincrease]

theorem attemptChunk_last (houtcome : schedule s.request = .retryable)
    (hreduce : reduceWorkingSpan s.workingSpan 25 = some span) :
    attemptChunk blockLogs schedule endBlock maxRetries M 0 s =
      .error (.logFetchingTimeout maxRetries) := by
  rw [attemptChunk.eq_def]
  simp only [houtcome, hreduce]

theorem attemptChunk_retry (houtcome : schedule s.request = .retryable)
    (hreduce : reduceWorkingSpan s.workingSpan 25 = some span) :
    attemptChunk blockLogs schedule endBlock maxRetries M (attemptsLeft + 1) s =
      attemptChunk blockLogs schedule endBlock maxRetries M attemptsLeft
        { s with workingSpan := span, request := s.request + 1 } := by
  rw [attemptChunk.eq_def]
  simp only [houtcome, hreduce]

end Attempts

/-- The first attempt fetches the chunk. -/
theorem fetched_of_delivered (hwide : (increaseWorkingSpan M 5 M).isSome) {attemptsLeft : ℕ}
    {s : FetchState Log} (hready : Ready endBlock M s)
    (houtcome : schedule s.request = .delivered) : ∃ chunkEnd s',
      attemptChunk blockLogs schedule endBlock maxRetries M attemptsLeft s = .ok (chunkEnd, s') ∧
        Fetched blockLogs endBlock M s chunkEnd s' := by
  obtain ⟨rate, float, increment, increased, hwidens⟩ := exists_widens hwide
  obtain ⟨span, hincrease, hpos, hle⟩ := exists_increase hwidens hready.span_pos hready.span_le
  have hstart := hready.start_le
  have hspan := hready.span_pos
  refine ⟨_, _, attemptChunk_delivered houtcome hincrease, ?_⟩
  exact ⟨by omega, min_le_left _ _, hpos, hle, rfl⟩

/-- The attempts at a chunk fetch it, or each of them fails. -/
theorem attemptChunk_cases (hwide : (increaseWorkingSpan M 5 M).isSome)
    (hother : ∀ n, schedule n ≠ .other) {attemptsLeft : ℕ} {s : FetchState Log}
    (hready : Ready endBlock M s) :
    ((∃ k ≤ attemptsLeft, schedule (s.request + k) = .delivered) ∧ ∃ chunkEnd s',
      attemptChunk blockLogs schedule endBlock maxRetries M attemptsLeft s = .ok (chunkEnd, s') ∧
        Fetched blockLogs endBlock M s chunkEnd s') ∨
    ((∀ k ≤ attemptsLeft, schedule (s.request + k) = .retryable) ∧
      attemptChunk blockLogs schedule endBlock maxRetries M attemptsLeft s =
        .error (.logFetchingTimeout maxRetries)) := by
  obtain ⟨rate, float, increment, increased, hwidens⟩ := exists_widens hwide
  induction attemptsLeft generalizing s with
  | zero =>
      cases houtcome : schedule s.request with
      | delivered => exact .inl ⟨⟨0, le_rfl, houtcome⟩, fetched_of_delivered hwide hready houtcome⟩
      | retryable =>
          obtain ⟨span, hreduce, -⟩ := exists_reduce hwidens hready.span_pos hready.span_le
          refine .inr ⟨?_, attemptChunk_last houtcome hreduce⟩
          intro k hk
          rw [Nat.le_zero.mp hk]
          exact houtcome
      | other => exact absurd houtcome (hother _)
  | succ attemptsLeft ih =>
      cases houtcome : schedule s.request with
      | delivered =>
          exact .inl ⟨⟨0, Nat.zero_le _, houtcome⟩, fetched_of_delivered hwide hready houtcome⟩
      | retryable =>
          obtain ⟨span, hreduce, hpos, hle⟩ :=
            exists_reduce hwidens hready.span_pos hready.span_le
          have hnext : Ready endBlock M
              { s with workingSpan := span, request := s.request + 1 } :=
            ⟨hready.start_le, hpos, hle⟩
          rw [attemptChunk_retry houtcome hreduce]
          have hshift : ∀ k, s.request + 1 + k = s.request + (k + 1) := fun k => by omega
          rcases ih hnext with ⟨⟨k, hk, hdelivered⟩, chunkEnd, s', hrun, hfetched⟩ | ⟨hfails, hrun⟩
          · refine .inl ⟨⟨k + 1, by omega, hshift k ▸ hdelivered⟩, chunkEnd, s', hrun, ?_⟩
            exact ⟨hfetched.start_le, hfetched.end_le, hfetched.span_pos, hfetched.span_le,
              hfetched.eventLogs_eq⟩
          · refine .inr ⟨?_, hrun⟩
            intro k hk
            cases k with
            | zero => exact houtcome
            | succ k => exact hshift k ▸ hfails k (by omega)
      | other => exact absurd houtcome (hother _)

end Chunks

/-! ## Runs -/

section Runs

variable {Log : Type} {blockLogs : ℕ → List Log} {schedule : ℕ → Outcome} {endBlock M : ℕ}
  {maxRetries : ℤ}

/-- The loop comes from one state to another, over chunks that do not end at the last block. -/
inductive Reaches (blockLogs : ℕ → List Log) (schedule : ℕ → Outcome) (endBlock : ℕ)
    (maxRetries : ℤ) (M : ℕ) (first : FetchState Log) : FetchState Log → Prop where
  | start : Reaches blockLogs schedule endBlock maxRetries M first first
  | chunk {s s' : FetchState Log} {chunkEnd : ℕ} :
      Reaches blockLogs schedule endBlock maxRetries M first s →
      attemptChunk blockLogs schedule endBlock maxRetries M (retries maxRetries) s =
        .ok (chunkEnd, s') → chunkEnd ≠ endBlock →
      Reaches blockLogs schedule endBlock maxRetries M first { s' with startBlock := chunkEnd + 1 }

/-- What is fetched and what is left make up the range. -/
structure Progress (blockLogs : ℕ → List Log) (startBlock endBlock M : ℕ) (s : FetchState Log) :
    Prop extends Ready endBlock M s where
  eventLogs_append : s.eventLogs ++ rangeLogs blockLogs s.startBlock endBlock =
    rangeLogs blockLogs startBlock endBlock

variable {startBlock : ℕ} {s s' : FetchState Log} {chunkEnd : ℕ}

theorem Progress.chunk (h : Progress blockLogs startBlock endBlock M s)
    (hfetched : Fetched blockLogs endBlock M s chunkEnd s') (hne : chunkEnd ≠ endBlock) :
    Progress blockLogs startBlock endBlock M { s' with startBlock := chunkEnd + 1 } where
  start_le := by
    have hle := hfetched.end_le
    change chunkEnd + 1 ≤ endBlock
    omega
  span_pos := hfetched.span_pos
  span_le := hfetched.span_le
  eventLogs_append := by
    have hstart := hfetched.start_le
    change s'.eventLogs ++ rangeLogs blockLogs (chunkEnd + 1) endBlock = _
    rw [hfetched.eventLogs_eq, List.append_assoc,
      rangeLogs_append (by omega) hfetched.end_le, h.eventLogs_append]

theorem Progress.last (h : Progress blockLogs startBlock endBlock M s)
    (hfetched : Fetched blockLogs endBlock M s endBlock s') :
    s'.eventLogs = rangeLogs blockLogs startBlock endBlock :=
  hfetched.eventLogs_eq.trans h.eventLogs_append

theorem fetched_of_ok (hwide : (increaseWorkingSpan M 5 M).isSome)
    (hother : ∀ n, schedule n ≠ .other) {attemptsLeft : ℕ} (hready : Ready endBlock M s)
    (hrun : attemptChunk blockLogs schedule endBlock maxRetries M attemptsLeft s =
      .ok (chunkEnd, s')) : Fetched blockLogs endBlock M s chunkEnd s' := by
  rcases attemptChunk_cases hwide hother hready with ⟨-, chunkEnd', s'', hrun', hfetched⟩ | ⟨-, hrun'⟩
  · rw [hrun] at hrun'
    cases hrun'
    exact hfetched
  · rw [hrun] at hrun'
    cases hrun'

/-- Every state that the loop reaches. -/
theorem Reaches.progress {first : FetchState Log} (hwide : (increaseWorkingSpan M 5 M).isSome)
    (hother : ∀ n, schedule n ≠ .other)
    (hfirst : Progress blockLogs startBlock endBlock M first)
    (h : Reaches blockLogs schedule endBlock maxRetries M first s) :
    Progress blockLogs startBlock endBlock M s := by
  induction h with
  | start => exact hfirst
  | chunk _ hrun hne ih => exact ih.chunk (fetched_of_ok hwide hother ih.toReady hrun) hne

/-- More fuel changes no result. -/
theorem fetchLoop_mono {fuel more : ℕ} {result : Except FetchError (List Log)}
    (h : fetchLoop blockLogs schedule endBlock maxRetries M fuel s = some result)
    (hle : fuel ≤ more) :
    fetchLoop blockLogs schedule endBlock maxRetries M more s = some result := by
  induction fuel generalizing s more with
  | zero => cases h
  | succ fuel ih =>
      obtain ⟨more, rfl⟩ := Nat.exists_eq_add_of_le' (Nat.one_le_of_lt hle)
      rw [fetchLoop] at h ⊢
      cases hrun : attemptChunk blockLogs schedule endBlock maxRetries M (retries maxRetries) s with
      | error e =>
          rw [hrun] at h
          exact h
      | ok fetched =>
          rw [hrun] at h
          dsimp only at h ⊢
          split_ifs at h ⊢ with hend
          · exact h
          · exact ih h (by omega)

theorem fetchLoop_unique {fuel fuel' : ℕ} {result result' : Except FetchError (List Log)}
    (h : fetchLoop blockLogs schedule endBlock maxRetries M fuel s = some result)
    (h' : fetchLoop blockLogs schedule endBlock maxRetries M fuel' s = some result') :
    result = result' := by
  have hmore := fetchLoop_mono h (le_max_left fuel fuel')
  rw [fetchLoop_mono h' (le_max_right fuel fuel')] at hmore
  exact (Option.some.inj hmore).symm

/-- A result from a state that is reached is a result from the first one. -/
theorem Reaches.exists_fuel {first : FetchState Log} {result : Except FetchError (List Log)}
    (h : Reaches blockLogs schedule endBlock maxRetries M first s) {fuel : ℕ}
    (hrun : fetchLoop blockLogs schedule endBlock maxRetries M fuel s = some result) :
    ∃ fuel, fetchLoop blockLogs schedule endBlock maxRetries M fuel first = some result := by
  induction h generalizing fuel with
  | start => exact ⟨fuel, hrun⟩
  | @chunk s s' _ _ hchunk hne ih =>
      have hnext : fetchLoop blockLogs schedule endBlock maxRetries M (fuel + 1) s =
          some result := by
        rw [fetchLoop, hchunk]
        dsimp only
        rw [if_neg hne]
        exact hrun
      exact ih hnext

/-- With fewer than `maxRetries` failures in a row the loop fetches what is left. -/
theorem exists_fetchLoop (hwide : (increaseWorkingSpan M 5 M).isSome)
    (hother : ∀ n, schedule n ≠ .other)
    (htolerable : ∀ n, ∃ k ≤ retries maxRetries, schedule (n + k) = .delivered)
    (h : Progress blockLogs startBlock endBlock M s) :
    ∃ fuel, fetchLoop blockLogs schedule endBlock maxRetries M fuel s =
      some (.ok (rangeLogs blockLogs startBlock endBlock)) := by
  induction hleft : endBlock - s.startBlock using Nat.strongRecOn generalizing s with
  | ind left ih =>
      rcases attemptChunk_cases hwide hother h.toReady with
        ⟨-, chunkEnd, s', hrun, hfetched⟩ | ⟨hfails, -⟩
      · by_cases hend : chunkEnd = endBlock
        · refine ⟨1, ?_⟩
          rw [hend] at hfetched
          rw [fetchLoop, hrun]
          dsimp only
          rw [if_pos hend, h.last hfetched]
        · have hstart := hfetched.start_le
          have hle := hfetched.end_le
          obtain ⟨fuel, hfuel⟩ := ih (endBlock - (chunkEnd + 1)) (by omega)
            (h.chunk hfetched hend) rfl
          refine ⟨fuel + 1, ?_⟩
          rw [fetchLoop, hrun]
          dsimp only
          rw [if_neg hend, hfuel]
      · obtain ⟨k, hk, hdelivered⟩ := htolerable s.request
        rw [hfails k hk] at hdelivered
        cases hdelivered

/-- With `maxRetries` failures in a row the loop raises. -/
theorem fetchLoop_timeout (hwide : (increaseWorkingSpan M 5 M).isSome)
    (hother : ∀ n, schedule n ≠ .other) (hready : Ready endBlock M s)
    (hfails : ∀ k ≤ retries maxRetries, schedule (s.request + k) = .retryable) :
    fetchLoop blockLogs schedule endBlock maxRetries M 1 s =
      some (.error (.logFetchingTimeout maxRetries)) := by
  rcases attemptChunk_cases hwide hother hready with
    ⟨⟨k, hk, hdelivered⟩, -⟩ | ⟨-, hrun⟩
  · rw [hfails k hk] at hdelivered
    cases hdelivered
  · rw [fetchLoop, hrun]

theorem maxBlocks_some (n : ℕ) : maxBlocks (some n) = n := rfl

theorem firstState_progress (blockLogs : ℕ → List Log) {maxBlocksPerRequest : Option ℕ}
    (hpos : 0 < maxBlocks maxBlocksPerRequest) (hle : startBlock ≤ endBlock) :
    Progress blockLogs startBlock endBlock (maxBlocks maxBlocksPerRequest)
      (firstState startBlock maxBlocksPerRequest) where
  start_le := hle
  span_pos := hpos
  span_le := le_rfl
  eventLogs_append := rfl

/-- A request that is delivered raises where the span overflows. -/
theorem fetchLogsRetrying_overflow {maxBlocksPerRequest : Option ℕ}
    (hnone : increaseWorkingSpan (maxBlocks maxBlocksPerRequest) 5 (maxBlocks maxBlocksPerRequest) =
      none) (hdelivered : schedule 0 = .delivered) (fuel : ℕ) (logs : List Log) :
    fetchLogsRetrying blockLogs schedule startBlock endBlock maxRetries maxBlocksPerRequest fuel ≠
      some (.ok logs) := by
  intro h
  rw [fetchLogsRetrying] at h
  split_ifs at h
  · cases h
  · have hrun : attemptChunk blockLogs schedule endBlock maxRetries (maxBlocks maxBlocksPerRequest)
        (retries maxRetries) (firstState startBlock maxBlocksPerRequest) =
          .error .overflowError := by
      rw [attemptChunk.eq_def]
      simp only [firstState, hdelivered, hnone]
    cases fuel with
    | zero => cases h
    | succ fuel =>
        rw [fetchLoop, hrun] at h
        cases h

/-- While the widened maximum is a finite float, every range is fetched whole and in order, or
the failures in a row reach `maxRetries` and nothing is returned. -/
theorem fetchLogsRetrying_complete_iff (blockLogs : ℕ → List Log) {maxBlocksPerRequest : Option ℕ}
    (hpos : 0 < maxBlocks maxBlocksPerRequest) :
    (∀ (startBlock endBlock : ℕ) (maxRetries : ℤ) (schedule : ℕ → Outcome),
      startBlock ≤ endBlock → (∀ n, schedule n ≠ .other) →
      ((∀ n, ∃ k ≤ retries maxRetries, schedule (n + k) = .delivered) →
        ∃ fuel, fetchLogsRetrying blockLogs schedule startBlock endBlock maxRetries
          maxBlocksPerRequest fuel = some (.ok (rangeLogs blockLogs startBlock endBlock))) ∧
      (∀ s, Reaches blockLogs schedule endBlock maxRetries (maxBlocks maxBlocksPerRequest)
          (firstState startBlock maxBlocksPerRequest) s →
        (∀ k ≤ retries maxRetries, schedule (s.request + k) = .retryable) →
        (∃ fuel, fetchLogsRetrying blockLogs schedule startBlock endBlock maxRetries
          maxBlocksPerRequest fuel = some (.error (.logFetchingTimeout maxRetries))) ∧
        ∀ fuel logs, fetchLogsRetrying blockLogs schedule startBlock endBlock maxRetries
          maxBlocksPerRequest fuel ≠ some (.ok logs))) ↔
    (increaseWorkingSpan (maxBlocks maxBlocksPerRequest) 5
      (maxBlocks maxBlocksPerRequest)).isSome := by
  constructor
  · intro h
    by_contra hnone
    rw [Option.not_isSome_iff_eq_none] at hnone
    have hrun := h 0 0 1 (fun _ => .delivered) le_rfl (fun _ => by simp)
    obtain ⟨fuel, hfuel⟩ := hrun.1 fun n => ⟨0, Nat.zero_le _, rfl⟩
    exact fetchLogsRetrying_overflow hnone rfl fuel _ hfuel
  · intro hwide startBlock endBlock maxRetries schedule hle hother
    have hfirst := firstState_progress blockLogs hpos hle
    have hloop : fetchLogsRetrying blockLogs schedule startBlock endBlock maxRetries
        maxBlocksPerRequest = fun fuel => fetchLoop blockLogs schedule endBlock maxRetries
          (maxBlocks maxBlocksPerRequest) fuel (firstState startBlock maxBlocksPerRequest) := by
      funext fuel
      rw [fetchLogsRetrying, if_neg (Nat.not_lt.mpr hle)]
    rw [hloop]
    constructor
    · intro htolerable
      exact exists_fetchLoop hwide hother htolerable hfirst
    · intro s hs hfails
      obtain ⟨fuel, hfuel⟩ := hs.exists_fuel
        (fetchLoop_timeout hwide hother (hs.progress hwide hother hfirst).toReady hfails)
      refine ⟨⟨fuel, hfuel⟩, fun fuel' logs hlogs => ?_⟩
      cases fetchLoop_unique hfuel hlogs

end Runs

/-- Two requests out of three fail. -/
theorem fetchLogsRetrying_complete_iff_sample :
    ∃ fuel, fetchLogsRetrying (fun block => [block])
      (fun n => if n % 3 = 2 then .delivered else .retryable) 5 40 3 (some 10) fuel =
        some (.ok (rangeLogs (fun block => [block]) 5 40)) := by
  have hpos : 0 < maxBlocks (some 10) := by decide
  have htwenty : 2 * ((10 : ℕ) : ℚ) ≤ 2 ^ 1024 :=
    (by norm_num : 2 * ((10 : ℕ) : ℚ) ≤ 2 ^ 5).trans (pow_le_pow_right₀ (by norm_num) (by norm_num))
  have hwide := increaseWorkingSpan_isSome hpos htwenty
  have hcomplete := (fetchLogsRetrying_complete_iff (fun block => [block]) hpos).mpr hwide
  refine (hcomplete 5 40 3 _ (by norm_num) fun n => ?_).1 fun n => ?_
  · split_ifs <;> simp
  · have hlt : n % 3 < 3 := Nat.mod_lt _ (by norm_num)
    exact ⟨2 - n % 3, Nat.sub_le _ _, if_pos (by omega)⟩

/-- A maximum that is no float. -/
theorem fetchLogsRetrying_incomplete :
    ¬ ∀ (startBlock endBlock : ℕ) (maxRetries : ℤ) (maxBlocksPerRequest : Option ℕ)
      (schedule : ℕ → Outcome), startBlock ≤ endBlock → 0 < maxBlocks maxBlocksPerRequest →
      (∀ n, schedule n ≠ .other) →
      (∀ n, ∃ k ≤ retries maxRetries, schedule (n + k) = .delivered) →
      ∃ fuel, fetchLogsRetrying (fun block => [block]) schedule startBlock endBlock maxRetries
        maxBlocksPerRequest fuel = some (.ok (rangeLogs (fun block => [block]) startBlock endBlock)) := by
  intro h
  have hpos : 0 < maxBlocks (some (2 ^ 1024)) := by
    rw [maxBlocks_some]
    exact Nat.two_pow_pos 1024
  have hnone := increaseWorkingSpan_overflow
  rw [← maxBlocks_some (2 ^ 1024)] at hnone
  obtain ⟨fuel, hfuel⟩ := h 100 100 10 (some (2 ^ 1024)) (fun _ => .delivered) le_rfl hpos
    (fun _ => by simp) fun n => ⟨0, Nat.zero_le _, rfl⟩
  exact fetchLogsRetrying_overflow hnone rfl fuel _ hfuel

end Degenbot.Fetching
