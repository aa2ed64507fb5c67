import Degenbot.Library.BinaryLog
import Degenbot.Verification.TickMath.Ratio

/-! # The tick of a price

`get_tick_at_sqrt_ratio` approximates a logarithm with 14 fraction bits, brackets the
tick between two candidates and compares prices to choose. The result is the greatest
tick whose price does not exceed the given one. -/

namespace Degenbot

open Library

/-! ## The most significant bit -/

/-- The thresholds for shifts `m, ..., 1`. -/
def msbThresholds : ℕ → List (ℕ × ℕ)
  | 0 => []
  | m + 1 => (m + 1, 2 ^ 2 ^ (m + 1) - 1) :: msbThresholds m

theorem msbFactors_eq : V3.msbFactors = msbThresholds 7 := by decide

/-- One threshold of the binary search. -/
def msbStep (state : ℕ × ℕ) (entry : ℕ × ℕ) : ℕ × ℕ :=
  let f := (if state.1 > entry.2 then 1 else 0) <<< entry.1
  (state.1 >>> f, state.2 ||| f)

/-- The search halves the width of `r` and records the shift in `msb`, whose low bits
are still clear. -/
theorem foldl_msbStep (m : ℕ) {r msb : ℕ} (hpos : 0 < r) (hr : r < 2 ^ 2 ^ (m + 1))
    (hmsb : 2 ^ (m + 1) ∣ msb) :
    ∃ shift, (msbThresholds m).foldl msbStep (r, msb) = (r >>> shift, msb + shift) ∧
      0 < r >>> shift ∧ r >>> shift < 4 ∧ 2 ∣ msb + shift := by
  induction m generalizing r msb with
  | zero => exact ⟨0, by simp [msbThresholds], by simpa using hpos, by simpa using hr,
      by simpa using hmsb⟩
  | succ m ih =>
      have hwide : 2 ^ 2 ^ (m + 1 + 1) = 2 ^ 2 ^ (m + 1) * 2 ^ 2 ^ (m + 1) := by
        rw [← pow_add]
        congr 1
        ring
      obtain ⟨b, rfl⟩ := hmsb
      by_cases hgt : r > 2 ^ 2 ^ (m + 1) - 1
      · -- the high half is not empty: drop the low half
        have hge : 2 ^ 2 ^ (m + 1) ≤ r := by omega
        have hstep : msbStep (r, 2 ^ (m + 1 + 1) * b) (m + 1, 2 ^ 2 ^ (m + 1) - 1) =
            (r >>> 2 ^ (m + 1), 2 ^ (m + 1 + 1) * b + 2 ^ (m + 1)) := by
          simp only [msbStep, hgt, if_true, Nat.one_shiftLeft]
          rw [Nat.two_pow_add_eq_or_of_lt (Nat.pow_lt_pow_right (by norm_num) (by omega))]
        have hpos' : 0 < r >>> 2 ^ (m + 1) := by
          rw [Nat.shiftRight_eq_div_pow]
          exact Nat.div_pos hge (Nat.two_pow_pos _)
        have hr' : r >>> 2 ^ (m + 1) < 2 ^ 2 ^ (m + 1) := by
          rw [Nat.shiftRight_eq_div_pow, Nat.div_lt_iff_lt_mul (Nat.two_pow_pos _), ← hwide]
          exact hr
        have hdvd : 2 ^ (m + 1) ∣ 2 ^ (m + 1 + 1) * b + 2 ^ (m + 1) :=
          ⟨2 * b + 1, by ring⟩
        obtain ⟨shift, hfold, hpos'', hlt, heven⟩ := ih hpos' hr' hdvd
        refine ⟨2 ^ (m + 1) + shift, ?_, ?_, ?_, ?_⟩
        · rw [msbThresholds, List.foldl_cons, hstep, hfold, Nat.shiftRight_add, Nat.add_assoc]
        · rwa [Nat.shiftRight_add]
        · rwa [Nat.shiftRight_add]
        · rwa [← Nat.add_assoc]
      · have hstep : msbStep (r, 2 ^ (m + 1 + 1) * b) (m + 1, 2 ^ 2 ^ (m + 1) - 1) =
            (r, 2 ^ (m + 1 + 1) * b) := by
          simp [msbStep, hgt]
        have hdvd : 2 ^ (m + 1) ∣ 2 ^ (m + 1 + 1) * b := ⟨2 * b, by ring⟩
        obtain ⟨shift, hfold, hrest⟩ := ih hpos (by omega) hdvd
        exact ⟨shift, by rw [msbThresholds, List.foldl_cons, hstep, hfold], hrest⟩

/-- The binary search finds the most significant bit. -/
theorem V3.msbSearch_spec {ratio : ℕ} (hpos : 0 < ratio) (hlt : ratio < 2 ^ 256) :
    2 ^ V3.msbSearch ratio ≤ ratio ∧ ratio < 2 ^ (V3.msbSearch ratio + 1) := by
  obtain ⟨shift, hfold, hpos', hsmall, heven⟩ :=
    foldl_msbStep 7 hpos (by simpa using hlt) (dvd_zero _)
  have hsearch : V3.msbSearch ratio =
      shift ||| if ratio >>> shift > 1 then 1 else 0 := by
    have hfold' : V3.msbFactors.foldl msbStep (ratio, 0) = (ratio >>> shift, 0 + shift) := by
      rw [msbFactors_eq, hfold]
    have hunfold : V3.msbSearch ratio = (V3.msbFactors.foldl msbStep (ratio, 0)).2 |||
        if (V3.msbFactors.foldl msbStep (ratio, 0)).1 > 1 then 1 else 0 := rfl
    rw [hunfold, hfold', Nat.zero_add]
  obtain ⟨half, hhalf⟩ := heven
  have hdiv : ratio / 2 ^ shift = ratio >>> shift := (Nat.shiftRight_eq_div_pow _ _).symm
  rw [hsearch]
  by_cases hbig : ratio >>> shift > 1
  · have hlast : shift ||| 1 = shift + 1 := by
      have hshift : shift = 2 ^ 1 * half := by omega
      rw [hshift]
      exact (Nat.two_pow_add_eq_or_of_lt (by norm_num) half).symm
    rw [if_pos hbig, hlast]
    constructor
    · have hle : 2 * 2 ^ shift ≤ ratio := (Nat.le_div_iff_mul_le (Nat.two_pow_pos _)).mp (by omega)
      rw [pow_succ]
      omega
    · have hlt' : ratio < 4 * 2 ^ shift := (Nat.div_lt_iff_lt_mul (Nat.two_pow_pos _)).mp (by omega)
      rw [pow_succ, pow_succ]
      omega
  · rw [if_neg hbig, Nat.or_zero]
    constructor
    · have hle : 1 * 2 ^ shift ≤ ratio := (Nat.le_div_iff_mul_le (Nat.two_pow_pos _)).mp (by omega)
      omega
    · have hlt' : ratio < 2 * 2 ^ shift := (Nat.div_lt_iff_lt_mul (Nat.two_pow_pos _)).mp (by omega)
      rw [pow_succ]
      omega

/-! ## The digits of the logarithm -/

/-- After the digits down to bit `k`: the remaining mantissa accounts for the rest of the
logarithm `x`, up to the truncations so far. -/
structure LogDigits (x : ℝ) (k : ℕ) (state : ℕ × ℤ) : Prop where
  mantissa : IsMantissa 127 state.1
  clear : (2 ^ k : ℤ) ∣ state.2
  below : state.2 / 2 ^ 64 * Real.log 2 + 2 ^ k / 2 ^ 64 * mantissaLog 127 state.1 ≤ x
  above : x ≤ state.2 / 2 ^ 64 * Real.log 2 + 2 ^ k / 2 ^ 64 * mantissaLog 127 state.1 +
    (65 - k) / 2 ^ 126

theorem LogDigits.step {x : ℝ} {k : ℕ} {state : ℕ × ℤ} (h : LogDigits x (k + 1) state)
    (hk : k < 64) :
    LogDigits x k ((squareStep state k).1 >>> ((squareStep state k).1 >>> 128),
      (squareStep state k).2) := by
  obtain ⟨hmant, ⟨b, hb⟩, hbelow, habove⟩ := h
  obtain ⟨hdigit, hmant', hlow, hhigh⟩ := hmant.square
  have hor := lor_digit_eq_add hdigit k b
  simp only [squareStep]
  have hlog2 : Int.lor state.2 ((((state.1 * state.1) >>> 127 >>> 128) <<< k : ℕ) : ℤ) =
      state.2 + ((state.1 * state.1) >>> 127 >>> 128 : ℕ) * 2 ^ k := by
    rw [hb, mul_comm]
    exact hor
  rw [hlog2]
  generalize (state.1 * state.1) >>> 127 >>> 128 = digit at *
  generalize hr : (state.1 * state.1) >>> 127 >>> digit = r at *
  have hweight : (0 : ℝ) < 2 ^ k / 2 ^ 64 := by positivity
  have hweight1 : (2 : ℝ) ^ k / 2 ^ 64 ≤ 1 := by
    rw [div_le_one (by positivity)]
    exact pow_le_pow_right₀ (by norm_num) hk.le
  have hdouble : (2 : ℝ) ^ (k + 1) / 2 ^ 64 = 2 ^ k / 2 ^ 64 * 2 := by ring
  rw [hdouble] at hbelow habove
  generalize hw : (2 : ℝ) ^ k / 2 ^ 64 = weight at *
  have hcast : ((state.2 + digit * 2 ^ k : ℤ) : ℝ) / 2 ^ 64 * Real.log 2 =
      state.2 / 2 ^ 64 * Real.log 2 + weight * (digit * Real.log 2) := by
    rw [← hw]
    push_cast
    ring
  have hlow' := mul_le_mul_of_nonneg_left hlow hweight.le
  have hhigh' := mul_le_mul_of_nonneg_left hhigh hweight.le
  have herr : weight * (2 / 2 ^ 127) ≤ 1 / 2 ^ 126 := by
    calc weight * (2 / 2 ^ 127) ≤ 1 * (2 / 2 ^ 127) :=
          mul_le_mul_of_nonneg_right hweight1 (by positivity)
      _ = 1 / 2 ^ 126 := by norm_num
  refine ⟨hmant', ⟨2 * b + digit, by rw [hb]; ring⟩, ?_, ?_⟩
  · rw [hw, hcast]
    dsimp only
    linarith
  · rw [hw, hcast]
    dsimp only
    push_cast at habove
    have hsplit : (65 - (k : ℝ)) / 2 ^ 126 = (65 - (k + 1)) / 2 ^ 126 + 1 / 2 ^ 126 := by ring
    rw [hsplit]
    linarith

theorem logFactors_eq : logFactors = (List.range 13).map (63 - ·) := by decide

theorem LogDigits.log2Loop {x : ℝ} {state : ℕ × ℤ} (h : LogDigits x 64 state) :
    LogDigits x 51 (log2Loop state) := by
  have hloop : ∀ m ≤ 13, LogDigits x (64 - m) (((List.range m).map (63 - ·)).foldl
      (fun state factor => ((squareStep state factor).1 >>> ((squareStep state factor).1 >>> 128),
        (squareStep state factor).2)) state) := by
    intro m hm
    induction m with
    | zero => exact h
    | succ m ih =>
        rw [List.range_succ, List.map_append, List.foldl_append]
        have hprev := ih (by omega)
        have hfactor : 64 - m = 63 - m + 1 := by omega
        rw [hfactor] at hprev
        have hnext := hprev.step (by omega)
        rwa [show 64 - (m + 1) = 63 - m by omega]
  have hall := hloop 13 le_rfl
  rw [← logFactors_eq] at hall
  exact hall

theorem logDigits_initial {ratio msb : ℕ} (hlow : 2 ^ msb ≤ ratio)
    (hhigh : ratio < 2 ^ (msb + 1)) :
    LogDigits (Real.log ratio - 128 * Real.log 2) 64
      (if msb ≥ 128 then ratio >>> (msb - 127) else ratio <<< (127 - msb),
        ((msb : ℤ) - 128) <<< (64 : ℕ)) := by
  have hpos : 0 < ratio := lt_of_lt_of_le (Nat.two_pow_pos _) hlow
  have hshift : (((msb : ℤ) - 128) <<< (64 : ℕ) : ℤ) = (msb - 128) * 2 ^ 64 := by
    rw [Int.shiftLeft_eq]
  have hcast : (((msb : ℤ) - 128 : ℤ) * 2 ^ 64 : ℤ) / (2 : ℝ) ^ 64 = (msb : ℝ) - 128 := by
    push_cast
    norm_num
  have hone : (2 : ℝ) ^ 64 / 2 ^ 64 = 1 := by norm_num
  -- both shifts are exact up to one unit in the last place
  have hnorm : ∀ r, r = (if msb ≥ 128 then ratio >>> (msb - 127) else ratio <<< (127 - msb)) →
      IsMantissa 127 r ∧
        Real.log ratio - ((msb : ℝ) - 127) * Real.log 2 - 1 / 2 ^ 127 ≤ Real.log r ∧
        Real.log r ≤ Real.log ratio - ((msb : ℝ) - 127) * Real.log 2 := by
    intro r hr
    by_cases hbig : msb ≥ 128
    · rw [if_pos hbig] at hr
      have hexp : msb = 127 + (msb - 127) := by omega
      have hmant : IsMantissa 127 r := by
        rw [hr, Nat.shiftRight_eq_div_pow]
        constructor
        · rw [Nat.le_div_iff_mul_le (Nat.two_pow_pos _), ← pow_add, ← hexp]
          exact hlow
        · rw [Nat.div_lt_iff_lt_mul (Nat.two_pow_pos _), ← pow_add]
          rwa [show 127 + 1 + (msb - 127) = msb + 1 by omega]
      have hbounds := log_shiftRight_bounds (w := 127) (n := ratio) (s := msb - 127)
        (hr ▸ hmant.1)
      rw [← hr, Nat.cast_sub (by omega)] at hbounds
      exact ⟨hmant, hbounds.1, hbounds.2⟩
    · rw [if_neg hbig, Nat.shiftLeft_eq] at hr
      have hexp : msb + (127 - msb) = 127 := by omega
      have hmant : IsMantissa 127 r := by
        rw [hr]
        constructor
        · calc 2 ^ 127 = 2 ^ msb * 2 ^ (127 - msb) := by rw [← pow_add, hexp]
            _ ≤ ratio * 2 ^ (127 - msb) := Nat.mul_le_mul_right _ hlow
        · calc ratio * 2 ^ (127 - msb) < 2 ^ (msb + 1) * 2 ^ (127 - msb) :=
                Nat.mul_lt_mul_of_pos_right hhigh (Nat.two_pow_pos _)
            _ = 2 ^ (127 + 1) := by rw [← pow_add]; congr 1; omega
      have hlog : Real.log r = Real.log ratio - ((msb : ℝ) - 127) * Real.log 2 := by
        rw [hr, Nat.cast_mul, Real.log_mul (by positivity) (by positivity), log_two_pow,
          Nat.cast_sub (by omega)]
        push_cast
        ring
      refine ⟨hmant, ?_, hlog.le⟩
      rw [hlog]
      norm_num
  obtain ⟨hmant, hge, hle⟩ := hnorm _ rfl
  generalize (if msb ≥ 128 then ratio >>> (msb - 127) else ratio <<< (127 - msb)) = r
    at hmant hge hle ⊢
  rw [hshift]
  refine ⟨hmant, ⟨msb - 128, by ring⟩, ?_, ?_⟩
  · rw [hcast, hone, mantissaLog_eq]
    push_cast
    linarith
  · rw [hcast, hone, mantissaLog_eq]
    push_cast
    norm_num at hge ⊢
    linarith

/-- The computed logarithm is at most the true one and less than one digit below it. -/
theorem priceLog2_bounds {ratio msb : ℕ} (hlow : 2 ^ msb ≤ ratio)
    (hhigh : ratio < 2 ^ (msb + 1)) :
    priceLog2 ratio msb / 2 ^ 64 * Real.log 2 ≤ Real.log ratio - 128 * Real.log 2 ∧
      Real.log ratio - 128 * Real.log 2 ≤ priceLog2 ratio msb / 2 ^ 64 * Real.log 2 +
        Real.log 2 / 2 ^ 14 + 1 / 2 ^ 100 := by
  have hdigits := (logDigits_initial hlow hhigh).log2Loop.step (k := 50) (by norm_num)
  obtain ⟨hmant, -, hbelow, habove⟩ := hdigits
  obtain ⟨hnn, hlt⟩ := hmant.log_bounds
  change (priceLog2 ratio msb : ℝ) / 2 ^ 64 * Real.log 2 + _ ≤ _ at hbelow
  change _ ≤ (priceLog2 ratio msb : ℝ) / 2 ^ 64 * Real.log 2 + _ + _ at habove
  norm_num at hbelow habove ⊢
  constructor <;> linarith

/-! ## The two candidates -/

/-- The tick whose half-open price interval contains a price. -/
structure IsTickOf (sqrtPrice tick : ℤ) : Prop where
  valid : ValidTick tick
  valid_succ : ValidTick (tick + 1)
  ratio_le : (sqrtRatio tick : ℤ) ≤ sqrtPrice
  lt_ratio : sqrtPrice < sqrtRatio (tick + 1)

theorem sqrtRatio_minTick : (sqrtRatio (-887272) : ℤ) = minSqrtRatio := by decide

theorem sqrtRatio_maxTick : (sqrtRatio 887272 : ℤ) = maxSqrtRatio := by decide

theorem tickLow_le_tickHigh (log2 : ℤ) :
    tickLow log2 ≤ tickHigh log2 ∧ tickHigh log2 ≤ tickLow log2 + 1 := by
  simp only [tickLow, tickHigh, logSqrt10001, Int.shiftRight_eq_div_pow, maxError, minError]
  omega

theorem tickLow_mul_le (log2 : ℤ) :
    (tickLow log2 : ℝ) ≤ log2 / 2 ^ 64 * (255738958999603826347141 / 2 ^ 64) - 0.01 := by
  have hint : tickLow log2 * 2 ^ 128 ≤ log2 * 255738958999603826347141 - maxError := by
    simp only [tickLow, logSqrt10001, Int.shiftRight_eq_div_pow]
    push_cast
    omega
  have hreal : (tickLow log2 : ℝ) * 2 ^ 128 ≤ log2 * 255738958999603826347141 -
      3402992956809132418596140100660247210 := by
    simp only [maxError] at hint
    exact_mod_cast hint
  norm_num at hreal ⊢
  linarith

theorem lt_tickHigh_succ (log2 : ℤ) :
    log2 / 2 ^ 64 * (255738958999603826347141 / 2 ^ 64) + 0.8561 < (tickHigh log2 : ℝ) + 1 := by
  have hint : log2 * 255738958999603826347141 + minError < (tickHigh log2 + 1) * 2 ^ 128 := by
    simp only [tickHigh, logSqrt10001, Int.shiftRight_eq_div_pow]
    push_cast
    omega
  have hreal : (log2 : ℝ) * 255738958999603826347141 +
      291339464771989622907027621153398088495 < (tickHigh log2 + 1) * 2 ^ 128 := by
    simp only [minError] at hint
    exact_mod_cast hint
  norm_num at hreal ⊢
  linarith

/-- The conversion factor from binary logarithms to ticks. -/
theorem tick_factor_bounds :
    |255738958999603826347141 / 2 ^ 64 * tickLog - Real.log 2| ≤ 1 / 10 ^ 9 := by
  rw [abs_le]
  norm_num
  constructor <;> linarith [tickLog_gt, tickLog_lt, log_two_gt, log_two_lt]

section Candidates

variable {sqrtPrice : ℤ} {msb : ℕ}

/-- The logarithm of a price in the admitted range. -/
theorem log_price_bounds (hmin : minSqrtRatio ≤ sqrtPrice) (hmax : sqrtPrice < maxSqrtRatio) :
    (0 : ℝ) < sqrtPrice ∧
      96 * Real.log 2 - 887272 * tickLog - 1 / 2 ^ 30 ≤ Real.log sqrtPrice ∧
      Real.log sqrtPrice ≤ 96 * Real.log 2 + 887272 * tickLog + 1 / 2 ^ 30 := by
  have hpos : 0 < sqrtPrice := lt_of_lt_of_le (by decide) hmin
  have hposR : (0 : ℝ) < sqrtPrice := by exact_mod_cast hpos
  obtain ⟨hlow, herrlow⟩ := log_sqrtRatio (show ValidTick (-887272) by decide)
  obtain ⟨hhigh, herrhigh⟩ := log_sqrtRatio (show ValidTick 887272 by decide)
  rw [abs_le] at herrlow herrhigh
  have hlogmin : Real.log (sqrtRatio (-887272)) ≤ Real.log sqrtPrice := by
    apply Real.log_le_log (by exact_mod_cast hlow)
    rw [← sqrtRatio_minTick] at hmin
    exact_mod_cast hmin
  have hlogmax : Real.log sqrtPrice ≤ Real.log (sqrtRatio 887272) := by
    apply Real.log_le_log hposR
    rw [← sqrtRatio_maxTick] at hmax
    exact_mod_cast hmax.le
  push_cast at herrlow herrhigh
  refine ⟨hposR, ?_, ?_⟩ <;> linarith [herrlow.1, herrhigh.2]

theorem log_shifted_price (hpos : 0 < sqrtPrice) :
    Real.log ((sqrtPrice.toNat <<< 32 : ℕ) : ℝ) = Real.log sqrtPrice + 32 * Real.log 2 := by
  have hcast : ((sqrtPrice.toNat : ℕ) : ℝ) = (sqrtPrice : ℝ) := by
    have hint : ((sqrtPrice.toNat : ℕ) : ℤ) = sqrtPrice := Int.toNat_of_nonneg hpos.le
    exact_mod_cast congrArg (Int.cast (R := ℝ)) hint
  have hposR : (0 : ℝ) < sqrtPrice := by exact_mod_cast hpos
  rw [Nat.shiftLeft_eq, Nat.cast_mul, hcast, Real.log_mul hposR.ne' (by positivity), log_two_pow]
  norm_num

/-- The lower candidate is strictly below the logarithm of the price in ticks, the upper
one less than one tick below; both by more than the error of `sqrtRatio`. -/
theorem candidates_log (hmin : minSqrtRatio ≤ sqrtPrice) (hmax : sqrtPrice < maxSqrtRatio)
    (hlow : 2 ^ msb ≤ sqrtPrice.toNat <<< 32) (hhigh : sqrtPrice.toNat <<< 32 < 2 ^ (msb + 1)) :
    let log2 := priceLog2 (sqrtPrice.toNat <<< 32) msb
    96 * Real.log 2 + tickLow log2 * tickLog + 1 / 2 ^ 29 < Real.log sqrtPrice ∧
      Real.log sqrtPrice + 1 / 2 ^ 29 < 96 * Real.log 2 + (tickHigh log2 + 1) * tickLog := by
  intro log2
  have hpos : 0 < sqrtPrice := lt_of_lt_of_le (by decide) hmin
  obtain ⟨hposR, hpmin, hpmax⟩ := log_price_bounds hmin hmax
  obtain ⟨hbelow, habove⟩ := priceLog2_bounds hlow hhigh
  rw [log_shifted_price hpos] at hbelow habove
  change (log2 : ℝ) / 2 ^ 64 * _ ≤ _ at hbelow
  change _ ≤ (log2 : ℝ) / 2 ^ 64 * _ + _ + _ at habove
  have hl := tickLow_mul_le log2
  have hh := lt_tickHigh_succ log2
  have hfactor := tick_factor_bounds
  generalize (log2 : ℝ) / 2 ^ 64 = ell at *
  -- `ell` is a binary logarithm of a number between 2^-65 and 2^65
  have hell : |ell| ≤ 65 := by
    have hlogpos : 0 < Real.log 2 := by linarith [log_two_gt]
    rw [abs_le]
    constructor
    · by_contra hlt
      have hmul : ell * Real.log 2 < -65 * Real.log 2 :=
        mul_lt_mul_of_pos_right (by linarith) hlogpos
      norm_num at habove hpmin
      linarith [tickLog_lt, log_two_gt, log_two_lt]
    · by_contra hgt
      have hmul : 65 * Real.log 2 < ell * Real.log 2 :=
        mul_lt_mul_of_pos_right (by linarith) hlogpos
      norm_num at hpmax
      linarith [tickLog_lt, log_two_gt, log_two_lt]
  have hconv : |ell * (255738958999603826347141 / 2 ^ 64) * tickLog - ell * Real.log 2| ≤
      65 / 10 ^ 9 := by
    rw [mul_assoc, ← mul_sub, abs_mul]
    calc |ell| * |255738958999603826347141 / 2 ^ 64 * tickLog - Real.log 2|
        ≤ 65 * (1 / 10 ^ 9) := mul_le_mul hell hfactor (abs_nonneg _) (by norm_num)
      _ = 65 / 10 ^ 9 := by ring
  rw [abs_le] at hconv
  have hl' := mul_le_mul_of_nonneg_right hl tickLog_pos.le
  have hh' := mul_lt_mul_of_pos_right hh tickLog_pos
  rw [sub_mul] at hl'
  rw [add_mul] at hh'
  generalize ell * (255738958999603826347141 / 2 ^ 64) * tickLog = u at *
  generalize ell * Real.log 2 = v at *
  constructor
  · norm_num at hconv ⊢
    linarith [tickLog_gt]
  · norm_num at hconv habove ⊢
    linarith [tickLog_gt, log_two_lt]

end Candidates

end Degenbot

/-! ## The tick of a price is exact

Both libraries return the greatest tick whose price does not exceed the given one. -/

namespace Degenbot

open Library

/-! ## Choosing between the candidates -/

theorem sqrtRatio_mem {tick : ℤ} (h : ValidTick tick) :
    minSqrtRatio ≤ sqrtRatio tick ∧ (sqrtRatio tick : ℤ) ≤ maxSqrtRatio := by
  have hbottom : ValidTick (-887272) := by decide
  have htop : ValidTick 887272 := by decide
  rw [← sqrtRatio_minTick, ← sqrtRatio_maxTick]
  exact ⟨by exact_mod_cast sqrtRatio_mono hbottom h h.1,
    by exact_mod_cast sqrtRatio_mono h htop h.2⟩

theorem IsTickOf.unique {sqrtPrice a b : ℤ} (ha : IsTickOf sqrtPrice a)
    (hb : IsTickOf sqrtPrice b) : a = b := by
  by_contra hne
  rcases lt_or_gt_of_ne hne with hlt | hlt
  · have hmono := sqrtRatio_mono ha.valid_succ hb.valid (by omega)
    have hle := hb.ratio_le
    have hgt := ha.lt_ratio
    omega
  · have hmono := sqrtRatio_mono hb.valid_succ ha.valid (by omega)
    have hle := ha.ratio_le
    have hgt := hb.lt_ratio
    omega

section Choose

variable {sqrtPrice : ℤ} {msb : ℕ}

/-- The result of the comparison that ends `get_tick_at_sqrt_ratio`. -/
def chooseTick (sqrtPrice log2 : ℤ) : ℤ :=
  if tickLow log2 = tickHigh log2 then tickLow log2
  else if (sqrtRatio (tickHigh log2) : ℤ) ≤ sqrtPrice then tickHigh log2 else tickLow log2

theorem sqrtRatio_le_of_log {tick : ℤ} (hpos : (0 : ℝ) < sqrtPrice) (hvalid : ValidTick tick)
    (hlog : 96 * Real.log 2 + tick * tickLog + 1 / 2 ^ 29 < Real.log sqrtPrice) :
    (sqrtRatio tick : ℤ) ≤ sqrtPrice := by
  obtain ⟨hratio, herr⟩ := log_sqrtRatio hvalid
  rw [abs_le] at herr
  have hle : Real.log (sqrtRatio tick) ≤ Real.log sqrtPrice := by
    norm_num at herr hlog
    linarith [herr.2]
  exact_mod_cast (Real.log_le_log_iff (by exact_mod_cast hratio) hpos).mp hle

theorem lt_sqrtRatio_of_log {tick : ℤ} (hpos : (0 : ℝ) < sqrtPrice) (hvalid : ValidTick tick)
    (hlog : Real.log sqrtPrice + 1 / 2 ^ 29 < 96 * Real.log 2 + tick * tickLog) :
    sqrtPrice < sqrtRatio tick := by
  obtain ⟨hratio, herr⟩ := log_sqrtRatio hvalid
  rw [abs_le] at herr
  have hlt : Real.log sqrtPrice < Real.log (sqrtRatio tick) := by
    norm_num at herr hlog
    linarith [herr.1]
  exact_mod_cast (Real.log_lt_log_iff hpos (by exact_mod_cast hratio)).mp hlt

/-- The chosen candidate is the tick of the price, and the upper one has a price of its
own whenever it is compared. -/
theorem chooseTick_spec (hmin : minSqrtRatio ≤ sqrtPrice) (hmax : sqrtPrice < maxSqrtRatio)
    (hlow : 2 ^ msb ≤ sqrtPrice.toNat <<< 32) (hhigh : sqrtPrice.toNat <<< 32 < 2 ^ (msb + 1)) :
    let log2 := priceLog2 (sqrtPrice.toNat <<< 32) msb
    ValidTick (tickHigh log2) ∧ IsTickOf sqrtPrice (chooseTick sqrtPrice log2) := by
  intro log2
  obtain ⟨hlo, hhi⟩ := candidates_log hmin hmax hlow hhigh
  obtain ⟨hpos, hpmin, hpmax⟩ := log_price_bounds hmin hmax
  obtain ⟨hle, hsucc⟩ := tickLow_le_tickHigh log2
  change 96 * Real.log 2 + tickLow log2 * tickLog + _ < _ at hlo
  change _ < 96 * Real.log 2 + (tickHigh log2 + 1) * tickLog at hhi
  -- the candidates stay within the range of ticks
  have hhigh_ge : -887272 ≤ tickHigh log2 := by
    have hreal : (-887272 : ℝ) < tickHigh log2 + 1 := by
      norm_num at hhi hpmin
      have hmul : (-887272 : ℝ) * tickLog < (tickHigh log2 + 1) * tickLog := by linarith
      exact lt_of_mul_lt_mul_right hmul tickLog_pos.le
    have hint : -887272 < tickHigh log2 + 1 := by exact_mod_cast hreal
    omega
  have hlow_lt : tickLow log2 < 887272 := by
    have hreal : (tickLow log2 : ℝ) < 887272 := by
      norm_num at hlo hpmax
      have hmul : (tickLow log2 : ℝ) * tickLog < 887272 * tickLog := by linarith
      exact lt_of_mul_lt_mul_right hmul tickLog_pos.le
    exact_mod_cast hreal
  have hvalid : ValidTick (tickHigh log2) := ⟨hhigh_ge, by omega⟩
  refine ⟨hvalid, ?_⟩
  unfold chooseTick
  split_ifs with heq hcmp
  · rw [← heq] at hvalid hhi
    have hvalid' : ValidTick (tickLow log2 + 1) := ⟨by have := hvalid.1; omega, by omega⟩
    refine ⟨hvalid, hvalid', sqrtRatio_le_of_log hpos hvalid hlo, ?_⟩
    exact lt_sqrtRatio_of_log hpos hvalid' (by push_cast; exact hhi)
  · have hne : tickHigh log2 ≠ 887272 := by
      intro htop
      rw [htop, sqrtRatio_maxTick] at hcmp
      omega
    have hvalid' : ValidTick (tickHigh log2 + 1) := ⟨by omega, by omega⟩
    refine ⟨hvalid, hvalid', hcmp, ?_⟩
    exact lt_sqrtRatio_of_log hpos hvalid' (by push_cast; exact hhi)
  · have hsum : tickLow log2 + 1 = tickHigh log2 := by omega
    have hne : tickHigh log2 ≠ -887272 := by
      intro hbottom
      rw [hbottom, sqrtRatio_minTick] at hcmp
      omega
    have hvalid' : ValidTick (tickLow log2) := ⟨by omega, by omega⟩
    refine ⟨hvalid', hsum ▸ hvalid, sqrtRatio_le_of_log hpos hvalid' hlo, ?_⟩
    rw [hsum]
    omega

theorem shifted_price_pos (hmin : minSqrtRatio ≤ sqrtPrice) (hmax : sqrtPrice < maxSqrtRatio) :
    0 < sqrtPrice.toNat <<< 32 ∧ sqrtPrice.toNat <<< 32 < 2 ^ 256 := by
  simp only [minSqrtRatio, maxSqrtRatio] at hmin hmax
  rw [Nat.shiftLeft_eq]
  omega

end Choose

/-! ## V3 -/

theorem V3.getTickAtSqrtRatio_eq {sqrtPrice : ℤ} (hmin : minSqrtRatio ≤ sqrtPrice)
    (hmax : sqrtPrice < maxSqrtRatio) :
    ∃ tick, V3.getTickAtSqrtRatio sqrtPrice = .ok tick ∧ IsTickOf sqrtPrice tick := by
  obtain ⟨hpos, hlt⟩ := shifted_price_pos hmin hmax
  obtain ⟨hlow, hhigh⟩ := V3.msbSearch_spec hpos hlt
  obtain ⟨hvalid, htick⟩ := chooseTick_spec hmin hmax hlow hhigh
  refine ⟨_, ?_, htick⟩
  have hratio := V3.getSqrtRatioAtTick_eq_ok_iff.mpr ⟨hvalid, rfl⟩
  rw [V3.getTickAtSqrtRatio, if_neg (not_not.mpr ⟨hmin, hmax⟩)]
  simp only [hratio, ok_bind, chooseTick]
  split_ifs <;> rfl

/-- `get_tick_at_sqrt_ratio` returns the tick of the price, and only for a price in range. -/
theorem V3.getTickAtSqrtRatio_eq_ok_iff {sqrtPrice tick : ℤ} :
    V3.getTickAtSqrtRatio sqrtPrice = .ok tick ↔
      minSqrtRatio ≤ sqrtPrice ∧ sqrtPrice < maxSqrtRatio ∧ IsTickOf sqrtPrice tick := by
  constructor
  · intro h
    by_cases hrange : sqrtPrice ≥ minSqrtRatio ∧ sqrtPrice < maxSqrtRatio
    · obtain ⟨tick', hok, htick⟩ := V3.getTickAtSqrtRatio_eq hrange.1 hrange.2
      rw [hok] at h
      cases h
      exact ⟨hrange.1, hrange.2, htick⟩
    · rw [V3.getTickAtSqrtRatio, if_pos hrange] at h
      cases h
  · rintro ⟨hmin, hmax, htick⟩
    obtain ⟨tick', hok, htick'⟩ := V3.getTickAtSqrtRatio_eq hmin hmax
    rw [hok, htick'.unique htick]

/-! ## V4 -/

theorem V4.getSqrtPriceAtTick_eq_ok_iff {tick r : ℤ} :
    V4.getSqrtPriceAtTick tick = .ok r ↔ ValidTick tick ∧ r = sqrtRatio tick := by
  have hmax : ¬(tick.natAbs : ℤ) > maxTick ↔ ValidTick tick := by
    rw [validTick_iff_natAbs, maxTick]
    omega
  have hstart : ∀ n : ℕ, (1 <<< 128) ^^^
      (((1 <<< 128) ^^^ 340265354078544963557816517032075149313) * (n &&& 1)) =
      if n &&& 0x1 ≠ 0 then 340265354078544963557816517032075149313 else 2 ^ 128 := by
    intro n
    by_cases hbit : n &&& 1 = 0
    · rw [hbit]
      decide
    · have hone : n &&& 1 = 1 := and_two_pow_eq n 0 hbit
      rw [hone]
      decide
  have hceil : ∀ price : ℕ, (price + ((1 <<< 32) - 1)) >>> 32 =
      (price >>> 32) + if price % (1 <<< 32) = 0 then 0 else 1 := by
    intro price
    rw [Nat.shiftRight_eq_div_pow, Nat.shiftRight_eq_div_pow, Nat.one_shiftLeft]
    split_ifs <;> omega
  simp only [V4.getSqrtPriceAtTick, ite_error_eq_ok, hmax, Except.ok.injEq, hstart, hceil]
  constructor
  · rintro ⟨hvalid, rfl⟩
    exact ⟨hvalid, rfl⟩
  · rintro ⟨hvalid, rfl⟩
    exact ⟨hvalid, rfl⟩

theorem V4.getTickAtSqrtPrice_eq {sqrtPrice : ℤ} (hmin : minSqrtRatio ≤ sqrtPrice)
    (hmax : sqrtPrice < maxSqrtRatio) :
    ∃ tick, V4.getTickAtSqrtPrice sqrtPrice = .ok tick ∧ IsTickOf sqrtPrice tick := by
  obtain ⟨hpos, hlt⟩ := shifted_price_pos hmin hmax
  have hsize : 0 < (sqrtPrice.toNat <<< 32).size := Nat.size_pos.mpr hpos
  have hlow : 2 ^ ((sqrtPrice.toNat <<< 32).size - 1) ≤ sqrtPrice.toNat <<< 32 :=
    Nat.lt_size.mp (by omega)
  have hhigh : sqrtPrice.toNat <<< 32 < 2 ^ ((sqrtPrice.toNat <<< 32).size - 1 + 1) := by
    rw [Nat.sub_add_cancel hsize]
    exact Nat.lt_size_self _
  obtain ⟨hvalid, htick⟩ := chooseTick_spec hmin hmax hlow hhigh
  refine ⟨_, ?_, htick⟩
  have hratio := V4.getSqrtPriceAtTick_eq_ok_iff.mpr ⟨hvalid, rfl⟩
  have hmsb : V4.mostSignificantBit (sqrtPrice.toNat <<< 32) =
      .ok ((sqrtPrice.toNat <<< 32).size - 1) := by
    rw [V4.mostSignificantBit, if_neg (by omega)]
  rw [V4.getTickAtSqrtPrice, if_neg (by omega)]
  simp only [hmsb, hratio, ok_bind, chooseTick]
  split_ifs <;> rfl

end Degenbot
