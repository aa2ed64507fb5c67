import Degenbot.Algorithm.TickMathInternal
import Degenbot.Verification.TickMath.Tick

/-! # The tick of a price in `tick_math.rs`

No operator overflows and no conversion fails on a price in range, so that the port
computes what the exact arithmetic of `tick_math.py` does, and the tick it returns is the
greatest one whose price does not exceed the given price. -/

namespace Degenbot.TickMathInternal

open Library

variable {mode : Overflow}

/-! ## Operators that fit -/

theorem u256_of_lt {value : ℕ} (h : value < 2 ^ 256) : u256 mode value = .ok value := if_pos h

theorem i256_of_abs {value : ℤ} (h : |value| < 2 ^ 255) : i256 mode value = .ok value := by
  obtain ⟨hlow, hhigh⟩ := abs_lt.mp h
  exact if_pos ⟨hlow.le, hhigh⟩

theorem toUint_of_lt {bits value : ℕ} (h : value < 2 ^ bits) : toUint bits value = .ok value :=
  if_pos h

theorem toInt_of_abs {bits : ℕ} {value : ℤ} (h : |value| < 2 ^ bits) :
    toInt bits value = .ok value := by
  obtain ⟨hlow, hhigh⟩ := abs_lt.mp h
  exact if_pos ⟨hlow.le, hhigh⟩

theorem bind_of_eq_ok {α β : Type} {x : Except TickMathError α} {f : α → Except TickMathError β}
    {a : α} {r : Except TickMathError β} (hx : x = .ok a) (hf : f a = r) : (x >>= f) = r := by
  subst hx
  exact hf

/-- A checked fold whose steps all succeed on states that meet an invariant. -/
theorem foldlM_eq_ok {σ ι ε : Type} {f : σ → ι → Except ε σ} {g : σ → ι → σ} {P : σ → Prop}
    {items : List ι}
    (hstep : ∀ item ∈ items, ∀ s, P s → f s item = .ok (g s item) ∧ P (g s item)) {s : σ}
    (hs : P s) : items.foldlM f s = .ok (items.foldl g s) ∧ P (items.foldl g s) := by
  induction items generalizing s with
  | nil => exact ⟨rfl, hs⟩
  | cons item items ih =>
      obtain ⟨hok, hnext⟩ := hstep item List.mem_cons_self s hs
      have hrest := ih (fun item hitem => hstep item (List.mem_cons_of_mem _ hitem)) hnext
      rw [List.foldlM_cons, List.foldl_cons, hok]
      exact hrest

/-! ## The price of a tick -/

theorem tickMasks_eq : tickMasks = ratioMultipliers := by decide

theorem multiplier_lt : ∀ entry ∈ ratioMultipliers, entry.2 < 2 ^ 128 := by
  intro entry hentry
  have hall : ratioMultipliers.all (fun entry => entry.2 < 2 ^ 128) = true := by decide
  exact of_decide_eq_true (List.all_eq_true.mp hall entry hentry)

/-- The ratio stays at most `2 ^ 128`, so that its product with a multiplier fits. -/
theorem maskLoop_eq (absTick : ℕ) {ratio : ℕ} (h : ratio ≤ 2 ^ 128) :
    maskLoop mode absTick ratio = .ok (ratioMultipliers.foldl (multiplyRatio absTick) ratio) := by
  have hstep : ∀ entry ∈ ratioMultipliers, ∀ ratio, ratio ≤ 2 ^ 128 →
      (if absTick &&& entry.1 ≠ 0 then do
        let product ← u256 mode (ratio * entry.2)
        Except.ok (product >>> 128)
      else .ok ratio) = .ok (multiplyRatio absTick ratio entry) ∧
        multiplyRatio absTick ratio entry ≤ 2 ^ 128 := by
    intro entry hentry ratio hratio
    have hmultiplier := multiplier_lt entry hentry
    have hproduct : ratio * entry.2 < 2 ^ 256 := by
      calc ratio * entry.2 ≤ 2 ^ 128 * entry.2 := Nat.mul_le_mul_right _ hratio
        _ < 2 ^ 128 * 2 ^ 128 := Nat.mul_lt_mul_of_pos_left hmultiplier (by positivity)
        _ = 2 ^ 256 := by norm_num
    rw [multiplyRatio]
    by_cases hset : absTick &&& entry.1 ≠ 0
    · rw [if_pos hset, if_pos hset, u256_of_lt hproduct]
      refine ⟨rfl, ?_⟩
      rw [Nat.shiftRight_eq_div_pow]
      omega
    · rw [if_neg hset, if_neg hset]
      exact ⟨rfl, hratio⟩
  rw [maskLoop, tickMasks_eq]
  exact (foldlM_eq_ok hstep h).1

theorem invertRatio_eq {tick : ℤ} (h : ValidTick tick) :
    invertRatio tick (absTickRatio tick.natAbs) = .ok (tickRatio tick) := by
  have hpos : absTickRatio tick.natAbs ≠ 0 := (log_absTickRatio (validTick_iff_natAbs.mp h)).1.ne'
  rw [invertRatio, tickRatio]
  split_ifs <;> rfl

theorem sqrtRatio_lt_two_pow {tick : ℤ} (h : ValidTick tick) : sqrtRatio tick < 2 ^ 160 := by
  have hmax := (sqrtRatio_mem h).2
  simp only [maxSqrtRatio] at hmax
  omega

theorem shiftRatio_eq {tick : ℤ} (h : ValidTick tick) :
    shiftRatio mode (tickRatio tick) = .ok (sqrtRatio tick) := by
  have hfit := sqrtRatio_lt_two_pow h
  have hword : (1 <<< 32 : ℕ) = 0x100000000 := by decide
  simp only [sqrtRatio, hword] at hfit ⊢
  rw [shiftRatio]
  by_cases hexact : tickRatio tick % 0x100000000 = 0
  · rw [if_neg (not_not.mpr hexact), if_pos hexact, Nat.add_zero]
  · rw [if_pos hexact, if_neg hexact]
    rw [if_neg hexact] at hfit
    exact u256_of_lt (lt_trans hfit (by norm_num))

theorem getSqrtRatioAtTickInternal_eq {tick : ℤ} (h : ValidTick tick) :
    getSqrtRatioAtTickInternal mode tick = .ok (sqrtRatio tick) := by
  have hrange : minTick ≤ tick ∧ tick ≤ maxTick := h
  have hstart : (if tick.natAbs &&& 1 = 0 then 0x100000000000000000000000000000000
      else 0xfffcb933bd6fad37aa2d162d1a594001) =
      if tick.natAbs &&& 0x1 ≠ 0 then 340265354078544963557816517032075149313 else 2 ^ 128 := by
    split_ifs with hzero <;> first | rfl | contradiction
  have hbound : (if tick.natAbs &&& 0x1 ≠ 0 then 340265354078544963557816517032075149313
      else 2 ^ 128) ≤ 2 ^ 128 := by
    split_ifs <;> norm_num
  have hloop : maskLoop mode tick.natAbs (if tick.natAbs &&& 1 = 0 then
      0x100000000000000000000000000000000 else 0xfffcb933bd6fad37aa2d162d1a594001) =
      .ok (absTickRatio tick.natAbs) := by
    rw [hstart]
    exact maskLoop_eq tick.natAbs hbound
  rw [getSqrtRatioAtTickInternal, if_neg (not_not.mpr hrange)]
  simp only [hloop, ok_bind, invertRatio_eq h, shiftRatio_eq h]
  exact toUint_of_lt (sqrtRatio_lt_two_pow h)

/-- Only the ticks in range have a price. -/
theorem getSqrtRatioAtTickInternal_eq_ok_iff {tick : ℤ} {ratio : ℕ} :
    getSqrtRatioAtTickInternal mode tick = .ok ratio ↔ ValidTick tick ∧ ratio = sqrtRatio tick := by
  constructor
  · intro h
    by_cases hvalid : ValidTick tick
    · rw [getSqrtRatioAtTickInternal_eq hvalid] at h
      cases h
      exact ⟨hvalid, rfl⟩
    · have hrange : ¬(minTick ≤ tick ∧ tick ≤ maxTick) := hvalid
      rw [getSqrtRatioAtTickInternal, if_pos hrange] at h
      cases h
  · rintro ⟨hvalid, rfl⟩
    exact getSqrtRatioAtTickInternal_eq hvalid

/-! ## The most significant bit -/

theorem factorShiftValues_eq :
    factorShiftValues = V3.msbFactors.map Prod.swap ++ [(1, 0)] := by decide

/-- The last comparison of the search is one more entry of the table. -/
theorem foldl_factorShiftValues (ratio : ℕ) :
    (factorShiftValues.foldl (fun state entry => msbStep state entry.swap) (ratio, 0)).2 =
      V3.msbSearch ratio := by
  have hsearch : V3.msbSearch ratio = (V3.msbFactors.foldl msbStep (ratio, 0)).2 |||
      if (V3.msbFactors.foldl msbStep (ratio, 0)).1 > 1 then 1 else 0 := rfl
  rw [factorShiftValues_eq, List.foldl_append, List.foldl_map, hsearch]
  simp only [Prod.swap_swap, List.foldl_cons, List.foldl_nil]
  generalize V3.msbFactors.foldl msbStep (ratio, 0) = state
  simp only [msbStep, Prod.swap_prod_mk, Nat.shiftLeft_zero]

variable (mode) in
theorem msbLoop_eq (ratio : ℕ) :
    ∃ r, msbLoop mode ratio = .ok (r, V3.msbSearch ratio) := by
  have hstep : ∀ entry ∈ factorShiftValues, ∀ state : ℕ × ℕ, True →
      (do
        let f ← u256 mode ((if state.1 > entry.1 then 1 else 0) <<< entry.2)
        Except.ok (state.1 >>> f, state.2 ||| f)) = .ok (msbStep state entry.swap) ∧ True := by
    intro entry hentry state _
    have hshift : entry.2 ≤ 7 := by
      have hall : factorShiftValues.all (fun entry => entry.2 ≤ 7) = true := by decide
      exact of_decide_eq_true (List.all_eq_true.mp hall entry hentry)
    have hfit : (if state.1 > entry.1 then 1 else 0) <<< entry.2 < 2 ^ 256 := by
      have hpow : 2 ^ entry.2 < 2 ^ 256 := Nat.pow_lt_pow_right (by norm_num) (by omega)
      rw [Nat.shiftLeft_eq]
      split_ifs
      · rwa [Nat.one_mul]
      · rw [Nat.zero_mul]
        exact Nat.two_pow_pos _
    rw [u256_of_lt hfit]
    exact ⟨rfl, trivial⟩
  have hloop : msbLoop mode ratio =
      .ok (factorShiftValues.foldl (fun state entry => msbStep state entry.swap) (ratio, 0)) :=
    (foldlM_eq_ok hstep trivial).1
  rw [hloop, ← foldl_factorShiftValues]
  exact ⟨_, rfl⟩

/-! ## The digits of the logarithm -/

theorem digit_le_one {r : ℕ} (h : r < 2 ^ 128) : (r * r) >>> 127 >>> 128 ≤ 1 := by
  have hsquare : r * r < 2 * 2 ^ (127 + 128) := by
    calc r * r < 2 ^ 128 * 2 ^ 128 := Nat.mul_lt_mul'' h h
      _ = 2 * 2 ^ (127 + 128) := by norm_num
  rw [← Nat.shiftRight_add, Nat.shiftRight_eq_div_pow]
  exact Nat.le_of_lt_succ ((Nat.div_lt_iff_lt_mul (Nat.two_pow_pos _)).mpr hsquare)

theorem abs_digit_shift_lt {digit shift : ℕ} (hdigit : digit ≤ 1) (hshift : shift < 255) :
    |((digit : ℤ) <<< shift)| < 2 ^ 255 := by
  have hpow : (2 : ℤ) ^ shift < 2 ^ 255 := pow_lt_pow_right₀ (by norm_num) hshift
  have hcast : (digit : ℤ) ≤ 1 := by exact_mod_cast hdigit
  rw [Int.shiftLeft_eq, abs_of_nonneg (by positivity)]
  calc (digit : ℤ) * 2 ^ shift ≤ 1 * 2 ^ shift := mul_le_mul_of_nonneg_right hcast (by positivity)
    _ = 2 ^ shift := one_mul _
    _ < 2 ^ 255 := hpow

variable (mode) in
theorem squareDigit_eq {shiftFactor : ℕ} {state : ℕ × ℤ} (h : state.1 < 2 ^ 128)
    (hshift : shiftFactor < 64) :
    squareDigit mode shiftFactor state = .ok (squareStep state shiftFactor) := by
  have hsquare : state.1 * state.1 < 2 ^ 256 := by
    calc state.1 * state.1 < 2 ^ 128 * 2 ^ 128 := Nat.mul_lt_mul'' h h
      _ = 2 ^ 256 := by norm_num
  have hdigit := digit_le_one h
  have hf : |(((state.1 * state.1) >>> 127 >>> 128 : ℕ) : ℤ)| < 2 ^ 255 := by
    have hzero := abs_digit_shift_lt hdigit (show 0 < 255 by norm_num)
    rwa [Int.shiftLeft_zero] at hzero
  have hshifted := abs_digit_shift_lt hdigit (lt_trans hshift (by norm_num))
  have hstep : squareStep state shiftFactor = ((state.1 * state.1) >>> 127,
      Int.lor state.2 ((((state.1 * state.1) >>> 127 >>> 128 : ℕ) : ℤ) <<< shiftFactor)) := by
    rw [squareStep, Int.natCast_shiftLeft]
  rw [squareDigit, hstep]
  apply bind_of_eq_ok (u256_of_lt hsquare)
  apply bind_of_eq_ok (toInt_of_abs hf)
  exact bind_of_eq_ok (i256_of_abs hshifted) rfl

/-- A mantissa that was squared and, when its top bit is set, halved again. -/
theorem squareStep_lt {state : ℕ × ℤ} (h : state.1 < 2 ^ 128) (factor : ℕ) :
    (squareStep state factor).1 >>> ((squareStep state factor).1 >>> 128) < 2 ^ 128 := by
  have hdigit := digit_le_one h
  change (state.1 * state.1) >>> 127 >>> ((state.1 * state.1) >>> 127 >>> 128) < 2 ^ 128
  generalize (state.1 * state.1) >>> 127 = r at hdigit ⊢
  have htop : r / 2 ^ 128 = r >>> 128 := (Nat.shiftRight_eq_div_pow r 128).symm
  rcases Nat.le_one_iff_eq_zero_or_eq_one.mp hdigit with hzero | hone
  · rw [hzero, Nat.shiftRight_zero]
    omega
  · rw [hone, Nat.shiftRight_one]
    omega

variable (mode) in
theorem digitLoop_eq {r : ℕ} (log2 : ℤ) (h : r < 2 ^ 128) :
    digitLoop mode (r, log2) = .ok (log2Loop (r, log2)) ∧ (log2Loop (r, log2)).1 < 2 ^ 128 := by
  have hstep : ∀ shiftFactor ∈ logFactors, ∀ state : ℕ × ℤ, state.1 < 2 ^ 128 →
      (squareDigit mode shiftFactor state >>= fun next =>
        Except.ok (next.1 >>> (next.1 >>> 128), next.2)) =
        .ok ((squareStep state shiftFactor).1 >>> ((squareStep state shiftFactor).1 >>> 128),
          (squareStep state shiftFactor).2) ∧
        ((squareStep state shiftFactor).1 >>> ((squareStep state shiftFactor).1 >>> 128),
          (squareStep state shiftFactor).2).1 < 2 ^ 128 := by
    intro shiftFactor hmem state hstate
    have hshift : shiftFactor < 64 := by
      have hall : logFactors.all (fun factor => factor < 64) = true := by decide
      exact of_decide_eq_true (List.all_eq_true.mp hall shiftFactor hmem)
    exact ⟨bind_of_eq_ok (squareDigit_eq mode hstate hshift) rfl, squareStep_lt hstate shiftFactor⟩
  exact foldlM_eq_ok hstep h

/-! ## The tick of a price -/

section Tick

variable {ratio msb : ℕ}

variable (mode) in
theorem normalizeRatio_eq (hhigh : ratio < 2 ^ (msb + 1)) :
    normalizeRatio mode ratio msb =
      .ok (if msb ≥ 128 then ratio >>> (msb - 127) else ratio <<< (127 - msb)) ∧
      (if msb ≥ 128 then ratio >>> (msb - 127) else ratio <<< (127 - msb)) < 2 ^ 128 := by
  rw [normalizeRatio]
  by_cases hbig : msb ≥ 128
  · rw [if_pos hbig, if_pos hbig]
    refine ⟨rfl, ?_⟩
    rw [Nat.shiftRight_eq_div_pow, Nat.div_lt_iff_lt_mul (Nat.two_pow_pos _), ← pow_add]
    rwa [show 128 + (msb - 127) = msb + 1 by omega]
  · rw [if_neg hbig, if_neg hbig]
    have hfit : ratio <<< (127 - msb) < 2 ^ 128 := by
      rw [Nat.shiftLeft_eq]
      calc ratio * 2 ^ (127 - msb) < 2 ^ (msb + 1) * 2 ^ (127 - msb) :=
            Nat.mul_lt_mul_of_pos_right hhigh (Nat.two_pow_pos _)
        _ = 2 ^ 128 := by
            rw [← pow_add]
            congr 1
            omega
    exact ⟨u256_of_lt (lt_trans hfit (by norm_num)), hfit⟩

/-- The logarithm has 9 bits before its binary point. -/
theorem abs_priceLog2_lt (hlow : 2 ^ msb ≤ ratio) (hhigh : ratio < 2 ^ (msb + 1))
    (hratio : ratio < 2 ^ 256) : |priceLog2 ratio msb| < 2 ^ 72 := by
  obtain ⟨hle, hge⟩ := priceLog2_bounds hlow hhigh
  have hpos : 0 < ratio := lt_of_lt_of_le (Nat.two_pow_pos _) hlow
  have hnonneg : 0 ≤ Real.log ratio := Real.log_natCast_nonneg ratio
  have hupper : Real.log ratio ≤ 256 * Real.log 2 := by
    have hcast : (ratio : ℝ) ≤ 2 ^ 256 := by exact_mod_cast hratio.le
    have hlog := Real.log_le_log (by exact_mod_cast hpos) hcast
    rwa [Real.log_pow, Nat.cast_ofNat] at hlog
  have htwo := log_two_gt
  have habove : (priceLog2 ratio msb : ℝ) / 2 ^ 64 < 256 := by
    by_contra hcontra
    have hmul := mul_le_mul_of_nonneg_right (not_lt.mp hcontra) (by linarith : 0 ≤ Real.log 2)
    linarith
  have hbelow : -256 < (priceLog2 ratio msb : ℝ) / 2 ^ 64 := by
    by_contra hcontra
    have hmul := mul_le_mul_of_nonneg_right (not_lt.mp hcontra) (by linarith : 0 ≤ Real.log 2)
    norm_num at hge
    linarith
  rw [div_lt_iff₀ (by positivity)] at habove
  rw [lt_div_iff₀ (by positivity)] at hbelow
  rw [abs_lt]
  constructor
  · have hcast : (-(2 ^ 72 : ℤ) : ℝ) < priceLog2 ratio msb := by
      norm_num at hbelow ⊢
      exact hbelow
    exact_mod_cast hcast
  · have hcast : (priceLog2 ratio msb : ℝ) < ((2 ^ 72 : ℤ) : ℝ) := by
      norm_num at habove ⊢
      exact habove
    exact_mod_cast hcast

end Tick

theorem offset_abs_lt {msb : ℕ} (h : msb < 256) : |(msb : ℤ) - 128| < 2 ^ 255 := by
  have hsmall : |(msb : ℤ) - 128| < 2 ^ 8 := by
    rw [abs_lt]
    omega
  exact lt_trans hsmall (by norm_num)

theorem shifted_offset_abs_lt {msb : ℕ} (h : msb < 256) :
    |((msb : ℤ) - 128) <<< (64 : ℕ)| < 2 ^ 255 := by
  have hsmall : |((msb : ℤ) - 128) <<< (64 : ℕ)| < 2 ^ 73 := by
    rw [Int.shiftLeft_eq, abs_lt]
    omega
  exact lt_trans hsmall (by norm_num)

/-- The candidates fit into 24 bits, and the comparison that ends the function. -/
theorem chooseInternal_eq {p : ℕ} {log2 : ℤ} (hlog : |log2| < 2 ^ 72)
    (hvalid : ValidTick (tickHigh log2)) :
    (do
      let logSqrt10001 ← i256 mode (log2 * 255738958999603826347141)
      let logSqrtLow ← i256 mode (logSqrt10001 - 3402992956809132418596140100660247210)
      let logSqrtHigh ← i256 mode (logSqrt10001 + 291339464771989622907027621153398088495)
      let tickLow ← toInt 23 (logSqrtLow >>> (128 : ℕ))
      let tickHigh ← toInt 23 (logSqrtHigh >>> (128 : ℕ))
      if tickLow = tickHigh then .ok tickLow
      else do
        let highRatio ← getSqrtRatioAtTickInternal mode tickHigh
        Except.ok (if highRatio ≤ p then tickHigh else tickLow)) =
      .ok (chooseTick p log2) := by
  obtain ⟨hlow, hhigh⟩ := abs_lt.mp hlog
  have hproduct : |log2 * 255738958999603826347141| < 2 ^ 160 := by
    rw [abs_lt]
    omega
  have hproductLow : |log2 * 255738958999603826347141 - 3402992956809132418596140100660247210| <
      2 ^ 161 := by
    rw [abs_lt] at hproduct ⊢
    omega
  have hproductHigh : |log2 * 255738958999603826347141 + 291339464771989622907027621153398088495| <
      2 ^ 161 := by
    rw [abs_lt] at hproduct ⊢
    omega
  obtain ⟨hle, hsucc⟩ := tickLow_le_tickHigh log2
  have htickLow : |tickLow log2| < 2 ^ 23 := by
    obtain ⟨hbottom, htop⟩ := hvalid
    rw [abs_lt]
    omega
  have htickHigh : |tickHigh log2| < 2 ^ 23 := by
    obtain ⟨hbottom, htop⟩ := hvalid
    rw [abs_lt]
    omega
  apply bind_of_eq_ok (i256_of_abs (lt_trans hproduct (by norm_num)))
  apply bind_of_eq_ok (i256_of_abs (lt_trans hproductLow (by norm_num)))
  apply bind_of_eq_ok (i256_of_abs (lt_trans hproductHigh (by norm_num)))
  apply bind_of_eq_ok (toInt_of_abs htickLow)
  apply bind_of_eq_ok (toInt_of_abs htickHigh)
  rw [chooseTick]
  by_cases heq : tickLow log2 = tickHigh log2
  · rw [if_pos heq, if_pos heq]
  · rw [if_neg heq, if_neg heq]
    apply bind_of_eq_ok (getSqrtRatioAtTickInternal_eq hvalid)
    simp only [Nat.cast_le]

variable (mode) in
/-- The port chooses between the same candidates, and every intermediate value fits. -/
theorem getTickAtSqrtRatioInternal_eq {p : ℕ} (hmin : sqrtRatioMin ≤ p) (hmax : p < sqrtRatioMax) :
    ∃ tick, getTickAtSqrtRatioInternal mode p = .ok tick ∧ IsTickOf p tick := by
  have hmin' : minSqrtRatio ≤ (p : ℤ) := by
    simp only [sqrtRatioMin, minSqrtRatio] at hmin ⊢
    omega
  have hmax' : (p : ℤ) < maxSqrtRatio := by
    simp only [sqrtRatioMax, maxSqrtRatio] at hmax ⊢
    omega
  obtain ⟨hpos, hlt⟩ := shifted_price_pos hmin' hmax'
  rw [Int.toNat_natCast] at hpos hlt
  obtain ⟨hlow, hhigh⟩ := V3.msbSearch_spec hpos hlt
  obtain ⟨hvalid, htick⟩ := chooseTick_spec hmin' hmax' hlow hhigh
  rw [Int.toNat_natCast] at hvalid htick
  obtain ⟨r, hmsb⟩ := msbLoop_eq mode (p <<< 32)
  have hmsblt : V3.msbSearch (p <<< 32) < 256 :=
    (Nat.pow_lt_pow_iff_right (by norm_num)).mp (lt_of_le_of_lt hlow hlt)
  obtain ⟨hnormal, hmantissa⟩ := normalizeRatio_eq mode hhigh
  obtain ⟨hdigits, hmantissa'⟩ := digitLoop_eq mode
    (((V3.msbSearch (p <<< 32) : ℤ) - 128) <<< (64 : ℕ)) hmantissa
  have hlast := squareDigit_eq mode hmantissa' (show 50 < 64 by norm_num)
  have hlog := abs_priceLog2_lt hlow hhigh hlt
  refine ⟨_, ?_, htick⟩
  rw [getTickAtSqrtRatioInternal, if_neg (not_not.mpr ⟨hmin, hmax⟩)]
  apply bind_of_eq_ok (u256_of_lt hlt)
  apply bind_of_eq_ok hmsb
  dsimp only
  apply bind_of_eq_ok (toUint_of_lt (lt_trans hmsblt (by norm_num)))
  apply bind_of_eq_ok hnormal
  apply bind_of_eq_ok (i256_of_abs (offset_abs_lt hmsblt))
  apply bind_of_eq_ok (i256_of_abs (shifted_offset_abs_lt hmsblt))
  apply bind_of_eq_ok hdigits
  apply bind_of_eq_ok hlast
  exact chooseInternal_eq hlog hvalid

/-- The returned tick is the greatest one whose price does not exceed the given price,
also when every overflow of an operator is an error. -/
theorem getTickAtSqrtRatioInternal_greatest (mode : Overflow) {p : ℕ} (hmin : sqrtRatioMin ≤ p)
    (hmax : p < sqrtRatioMax) :
    ∃ tick low high, getTickAtSqrtRatioInternal mode p = .ok tick ∧
      getSqrtRatioAtTickInternal mode tick = .ok low ∧
      getSqrtRatioAtTickInternal mode (tick + 1) = .ok high ∧ low ≤ p ∧ p < high ∧
      ∀ other ratio, getSqrtRatioAtTickInternal mode other = .ok ratio → ratio ≤ p →
        other ≤ tick := by
  obtain ⟨tick, hok, htick⟩ := getTickAtSqrtRatioInternal_eq mode hmin hmax
  have hlt : p < sqrtRatio (tick + 1) := by exact_mod_cast htick.lt_ratio
  refine ⟨tick, sqrtRatio tick, sqrtRatio (tick + 1), hok,
    getSqrtRatioAtTickInternal_eq htick.valid, getSqrtRatioAtTickInternal_eq htick.valid_succ,
    by exact_mod_cast htick.ratio_le, hlt, ?_⟩
  intro other ratio hother hratio
  obtain ⟨hvalid, rfl⟩ := getSqrtRatioAtTickInternal_eq_ok_iff.mp hother
  by_contra hcontra
  have hmono := sqrtRatio_mono htick.valid_succ hvalid (by omega)
  omega

/-- The price of tick 0. -/
theorem getTickAtSqrtRatioInternal_one :
    sqrtRatioMin ≤ 2 ^ 96 ∧ 2 ^ 96 < sqrtRatioMax ∧
      ∃ tick low high, getTickAtSqrtRatioInternal .reported (2 ^ 96) = .ok tick ∧
        getSqrtRatioAtTickInternal .reported tick = .ok low ∧
        getSqrtRatioAtTickInternal .reported (tick + 1) = .ok high ∧ low ≤ 2 ^ 96 ∧ 2 ^ 96 < high ∧
        ∀ other ratio, getSqrtRatioAtTickInternal .reported other = .ok ratio → ratio ≤ 2 ^ 96 →
          other ≤ tick :=
  ⟨by decide, by decide, getTickAtSqrtRatioInternal_greatest .reported (by decide) (by decide)⟩

end Degenbot.TickMathInternal
