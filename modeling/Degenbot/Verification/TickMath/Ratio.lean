import Degenbot.Algorithm.TickMath
import Degenbot.Library.BinaryLog
import Degenbot.Library.Outcome
import Mathlib.Analysis.Complex.ExponentialBounds
import Mathlib.Analysis.SpecialFunctions.Log.Deriv

/-! # The price of a tick

`get_sqrt_ratio_at_tick` follows `2 ^ 96 * 1.0001 ^ (tick / 2)` up to a small relative
error, measured on a logarithmic scale, and is therefore strictly increasing. -/

namespace Degenbot

open Library

/-! ## The logarithm of one tick -/

/-- The logarithm of the square root of 1.0001. -/
noncomputable def tickLog : ℝ := Real.log 1.0001 / 2

theorem log_10001_bounds :
    0.00009999500033 < Real.log 1.0001 ∧ Real.log 1.0001 < 0.00009999500034 := by
  have hx : |(-0.0001 : ℝ)| < 1 := by norm_num [abs_lt]
  have htaylor := Real.abs_log_sub_add_sum_range_le hx 3
  have hone : (1 : ℝ) - -0.0001 = 1.0001 := by norm_num
  rw [hone] at htaylor
  norm_num [Finset.sum_range_succ, abs_le] at htaylor ⊢
  constructor <;> linarith [htaylor.1, htaylor.2]

theorem tickLog_gt : 0.000049997500165 < tickLog := by
  unfold tickLog
  linarith [log_10001_bounds.1]

theorem tickLog_lt : tickLog < 0.00004999750017 := by
  unfold tickLog
  linarith [log_10001_bounds.2]

theorem tickLog_pos : 0 < tickLog := by linarith [tickLog_gt]

/-! ## The multipliers -/

/-- The multiplier of a mask is `2 ^ 128 * 1.0001 ^ (-mask / 2)` up to an error that
doubles with the mask. -/
def AccurateEntry (entry : ℕ × ℕ) : Prop :=
  0 < entry.1 ∧ 0 < entry.2 ∧
    |Real.log entry.2 - (128 * Real.log 2 - entry.1 * tickLog)| ≤ (2 * entry.1 - 1) / 2 ^ 90

/-- The mask is doubled and the multiplier squared. -/
def SquaredEntry (entry entry' : ℕ × ℕ) : Prop :=
  entry'.1 = 2 * entry.1 ∧ 0 < entry'.2 ∧
    entry'.2 * 2 ^ 128 * 2 ^ 90 ≤ entry.2 ^ 2 * (2 ^ 90 + 1) ∧
    entry.2 ^ 2 * 2 ^ 90 ≤ entry'.2 * 2 ^ 128 * (2 ^ 90 + 1)

instance (entry entry' : ℕ × ℕ) : Decidable (SquaredEntry entry entry') :=
  inferInstanceAs (Decidable (_ ∧ _))

/-- The entry for the lowest bit, which the source writes as the initial ratio. -/
def firstEntry : ℕ × ℕ := (1, 340265354078544963557816517032075149313)

theorem ratioMultipliers_chain : (firstEntry :: ratioMultipliers).IsChain SquaredEntry := by
  decide

theorem firstEntry_accurate : AccurateEntry firstEntry := by
  refine ⟨by decide, by decide, ?_⟩
  -- `c * c * 1.0001` is `2 ^ 256` up to rounding
  have hsq := abs_log_div_le (a := (340265354078544963557816517032075149313 : ℝ) ^ 2 * 1.0001)
    (b := 2 ^ 256) (η := 1 / 2 ^ 90) (by positivity) (by positivity) (by norm_num) (by norm_num)
  rw [Real.log_mul (by positivity) (by positivity), Real.log_pow, Real.log_pow] at hsq
  simp only [firstEntry, tickLog]
  norm_num [abs_le] at hsq ⊢
  constructor <;> linarith [hsq.1, hsq.2]

theorem SquaredEntry.accurate {entry entry' : ℕ × ℕ} (h : SquaredEntry entry entry')
    (ha : AccurateEntry entry) : AccurateEntry entry' := by
  obtain ⟨hmask, hpos', hle, hge⟩ := h
  obtain ⟨hmpos, hpos, herr⟩ := ha
  refine ⟨by omega, hpos', ?_⟩
  have hposR : (0 : ℝ) < entry.2 := by exact_mod_cast hpos
  have hposR' : (0 : ℝ) < entry'.2 := by exact_mod_cast hpos'
  have hleR : (entry'.2 : ℝ) * 2 ^ 128 * 2 ^ 90 ≤ entry.2 ^ 2 * (2 ^ 90 + 1) := by
    exact_mod_cast hle
  have hgeR : (entry.2 : ℝ) ^ 2 * 2 ^ 90 ≤ entry'.2 * 2 ^ 128 * (2 ^ 90 + 1) := by
    exact_mod_cast hge
  have hsq := abs_log_div_le (a := (entry'.2 : ℝ) * 2 ^ 128) (b := (entry.2 : ℝ) ^ 2)
    (η := 1 / 2 ^ 90) (by positivity) (by positivity) (by linarith) (by linarith)
  rw [Real.log_mul hposR'.ne' (by positivity), Real.log_pow, Real.log_pow] at hsq
  rw [hmask]
  push_cast at hsq ⊢
  rw [abs_le] at hsq herr ⊢
  constructor <;> linarith [hsq.1, hsq.2, herr.1, herr.2]

theorem accurate_of_chain {entry : ℕ × ℕ} {entries : List (ℕ × ℕ)} (ha : AccurateEntry entry)
    (hchain : (entry :: entries).IsChain SquaredEntry) : ∀ e ∈ entries, AccurateEntry e := by
  induction entries generalizing entry with
  | nil => simp
  | cons entry' entries ih =>
      obtain ⟨hsq, hrest⟩ := List.isChain_cons_cons.mp hchain
      have ha' := hsq.accurate ha
      intro e he
      rcases List.mem_cons.mp he with rfl | he
      · exact ha'
      · exact ih ha' hrest e he

theorem ratioMultipliers_accurate : ∀ e ∈ ratioMultipliers, AccurateEntry e :=
  accurate_of_chain firstEntry_accurate ratioMultipliers_chain

/-! ## The product over the bits of a tick -/

theorem log_two_gt : 0.6931471803 < Real.log 2 := Real.log_two_gt_d9

theorem log_two_lt : Real.log 2 < 0.6931471808 := Real.log_two_lt_d9

/-- The part of `n` that the masks of some entries select. -/
def maskedPart (n : ℕ) (entries : List (ℕ × ℕ)) : ℕ := (entries.map (n &&& ·.1)).sum

/-- One multiplication and shift, for a product that keeps 60 bits. -/
theorem log_multiply {acc : ℕ} {entry : ℕ × ℕ} {A d : ℝ} (hacc : 0 < acc)
    (ha : AccurateEntry entry) (hmask : entry.1 ≤ 2 ^ 19) (herr : |Real.log acc - A| ≤ d)
    (hd : d ≤ 1 / 2) (hbound : 61 * Real.log 2 ≤ A - entry.1 * tickLog) :
    0 < (acc * entry.2) >>> 128 ∧
      |Real.log ((acc * entry.2) >>> 128 : ℕ) - (A - entry.1 * tickLog)| ≤ d + 1 / 2 ^ 59 := by
  obtain ⟨-, hc, hclog⟩ := ha
  have hmaskR : (entry.1 : ℝ) ≤ 524288 := by
    norm_num at hmask
    exact_mod_cast hmask
  have hc' : |Real.log entry.2 - (128 * Real.log 2 - entry.1 * tickLog)| ≤ 1 / 2 ^ 70 := by
    refine hclog.trans ?_
    rw [div_le_div_iff₀ (by positivity) (by positivity)]
    norm_num
    linarith
  rw [abs_le] at herr hc'
  have haccR : (0 : ℝ) < acc := by exact_mod_cast hacc
  have hcR : (0 : ℝ) < entry.2 := by exact_mod_cast hc
  have hmul : Real.log ((acc * entry.2 : ℕ) : ℝ) = Real.log acc + Real.log entry.2 := by
    rw [Nat.cast_mul, Real.log_mul haccR.ne' hcR.ne']
  have hpow : Real.log (((2 ^ 128 : ℕ)) : ℝ) = 128 * Real.log 2 := by
    rw [Nat.cast_pow, Real.log_pow]
    norm_num
  -- the product still has 188 bits, so the shift leaves at least 60
  have hlarge : 2 ^ 60 * 2 ^ 128 ≤ acc * entry.2 := by
    have hlog : Real.log ((2 : ℝ) ^ 188) ≤ Real.log ((acc * entry.2 : ℕ) : ℝ) := by
      rw [hmul, Real.log_pow]
      norm_num at hc' ⊢
      linarith [log_two_gt]
    have hle := (Real.log_le_log_iff (by positivity) (by positivity)).mp hlog
    have hle' : 2 ^ 188 ≤ acc * entry.2 := by exact_mod_cast hle
    omega
  have hdiv : 2 ^ 60 ≤ acc * entry.2 / 2 ^ 128 := (Nat.le_div_iff_mul_le (by positivity)).mpr hlarge
  have hupper := log_natDiv_le (a := acc * entry.2) (b := 2 ^ 128) (by positivity)
    (lt_of_lt_of_le (by positivity) hdiv)
  have hlower := le_log_natDiv (a := acc * entry.2) (b := 2 ^ 128) (by positivity)
    (by positivity) hdiv
  rw [hmul, hpow] at hupper hlower
  rw [Nat.shiftRight_eq_div_pow]
  refine ⟨lt_of_lt_of_le (by positivity) hdiv, ?_⟩
  rw [abs_le]
  norm_num at hlower hc' ⊢
  constructor <;> linarith

theorem log_foldl_multiplyRatio (n : ℕ) {entries : List (ℕ × ℕ)}
    (hentries : ∀ e ∈ entries, AccurateEntry e ∧ e.1 ≤ 2 ^ 19 ∧ (n &&& e.1 ≠ 0 → n &&& e.1 = e.1))
    {acc : ℕ} {A d : ℝ} (hacc : 0 < acc) (herr : |Real.log acc - A| ≤ d)
    (hd : d + entries.length / 2 ^ 59 ≤ 1 / 2)
    (hbound : 61 * Real.log 2 ≤ A - maskedPart n entries * tickLog) :
    0 < entries.foldl (multiplyRatio n) acc ∧
      |Real.log (entries.foldl (multiplyRatio n) acc : ℕ) - (A - maskedPart n entries * tickLog)| ≤
        d + entries.length / 2 ^ 59 := by
  induction entries generalizing acc A d with
  | nil => simpa [maskedPart] using ⟨hacc, herr⟩
  | cons entry entries ih =>
      obtain ⟨ha, hmask, hbit⟩ := hentries entry (by simp)
      have hrest := fun e he => hentries e (List.mem_cons_of_mem entry he)
      have hpart : (maskedPart n (entry :: entries) : ℝ) =
          (n &&& entry.1 : ℕ) + maskedPart n entries := by
        simp [maskedPart]
      have hnonneg : 0 ≤ (maskedPart n entries : ℝ) * tickLog :=
        mul_nonneg (by positivity) tickLog_pos.le
      have hlen : ((entry :: entries).length : ℝ) = entries.length + 1 := by simp
      rw [hpart] at hbound ⊢
      rw [hlen] at hd ⊢
      have hstep : (0 : ℝ) ≤ entries.length / 2 ^ 59 := by positivity
      rw [List.foldl_cons]
      by_cases hset : n &&& entry.1 = 0
      · have hskip : multiplyRatio n acc entry = acc := by simp [multiplyRatio, hset]
        rw [hset] at hbound ⊢
        rw [hskip]
        have hih := ih hrest hacc herr (by linarith) (by norm_num at hbound ⊢; linarith)
        refine ⟨hih.1, ?_⟩
        norm_num at hih ⊢
        linarith [hih.2]
      · have hsel := hbit hset
        have hmul : multiplyRatio n acc entry = (acc * entry.2) >>> 128 := by
          simp [multiplyRatio, hset]
        rw [hsel] at hbound ⊢
        rw [hmul]
        obtain ⟨hpos, herr'⟩ := log_multiply hacc ha hmask herr (by linarith) (by linarith)
        have hih := ih hrest hpos herr' (by linarith) (by linarith)
        refine ⟨hih.1, ?_⟩
        convert hih.2 using 1
        · congr 1
          ring
        · ring

/-! ## The ratio of an absolute tick -/

/-- The Q128.128 ratio of a non-positive tick. -/
def absTickRatio (absTick : ℕ) : ℕ :=
  ratioMultipliers.foldl (multiplyRatio absTick)
    (if absTick &&& 0x1 ≠ 0 then 340265354078544963557816517032075149313 else 2 ^ 128)

theorem and_two_pow_eq (n i : ℕ) (h : n &&& 2 ^ i ≠ 0) : n &&& 2 ^ i = 2 ^ i := by
  rw [Nat.and_two_pow] at h ⊢
  cases hb : n.testBit i with
  | true => simp
  | false => simp [hb] at h

theorem ratioMultipliers_masks :
    ratioMultipliers.map Prod.fst = (List.range 19).map fun i => 2 ^ (i + 1) := by decide

theorem sum_masks (n k : ℕ) : ((List.range k).map fun i => n &&& 2 ^ i).sum = n % 2 ^ k := by
  induction k with
  | zero => simp [Nat.mod_one]
  | succ k ih =>
      rw [List.range_succ, List.map_append, List.sum_append, ih, Nat.mod_pow_succ,
        ← Nat.toNat_testBit, List.map_singleton, List.sum_singleton, Nat.and_two_pow]
      ring

theorem maskedPart_ratioMultipliers {n : ℕ} (hn : n < 2 ^ 20) :
    (n &&& 1) + maskedPart n ratioMultipliers = n := by
  have hmap : ratioMultipliers.map (n &&& ·.1) =
      (ratioMultipliers.map Prod.fst).map (n &&& ·) := by
    rw [List.map_map]
    rfl
  have hsum := sum_masks n 20
  rw [List.range_succ_eq_map, List.map_cons, List.sum_cons, List.map_map,
    Nat.mod_eq_of_lt hn] at hsum
  rw [maskedPart, hmap, ratioMultipliers_masks, List.map_map]
  exact hsum

theorem ratioMultipliers_select (n : ℕ) : ∀ e ∈ ratioMultipliers,
    AccurateEntry e ∧ e.1 ≤ 2 ^ 19 ∧ (n &&& e.1 ≠ 0 → n &&& e.1 = e.1) := by
  intro e he
  refine ⟨ratioMultipliers_accurate e he, ?_⟩
  have hmem : e.1 ∈ (List.range 19).map fun i => 2 ^ (i + 1) := by
    rw [← ratioMultipliers_masks]
    exact List.mem_map_of_mem he
  obtain ⟨i, hi, heq⟩ := List.mem_map.mp hmem
  rw [← heq]
  refine ⟨Nat.pow_le_pow_right (by norm_num) ?_, and_two_pow_eq n (i + 1)⟩
  have hlt := List.mem_range.mp hi
  omega

theorem tick_range_log {n : ℕ} (hn : n ≤ 887272) :
    64 * Real.log 2 - 1 / 2 ^ 5 ≤ 128 * Real.log 2 - n * tickLog := by
  have hnR : (n : ℝ) ≤ 887272 := by exact_mod_cast hn
  have hmul : n * tickLog ≤ 887272 * 0.00004999750017 :=
    mul_le_mul hnR tickLog_lt.le tickLog_pos.le (by norm_num)
  linarith [log_two_gt]

/-- The ratio of an absolute tick, on a logarithmic scale. -/
theorem log_absTickRatio {n : ℕ} (hn : n ≤ 887272) :
    0 < absTickRatio n ∧
      |Real.log (absTickRatio n) - (128 * Real.log 2 - n * tickLog)| ≤ 1 / 2 ^ 54 := by
  have hsplit : ((n &&& 1 : ℕ) : ℝ) + maskedPart n ratioMultipliers = n := by
    exact_mod_cast maskedPart_ratioMultipliers (hn.trans_lt (by norm_num))
  have hstart : ∀ init : ℕ,
      init = (if n &&& 0x1 ≠ 0 then 340265354078544963557816517032075149313 else 2 ^ 128) →
      0 < init ∧ |Real.log init - (128 * Real.log 2 - (n &&& 1 : ℕ) * tickLog)| ≤ 1 / 2 ^ 89 := by
    intro init hinit
    by_cases hbit : n &&& 0x1 = 0
    · simp only [hbit, ne_eq, not_true_eq_false, if_false] at hinit
      subst hinit
      refine ⟨by positivity, ?_⟩
      rw [hbit, Nat.cast_pow, Real.log_pow]
      norm_num
    · simp only [ne_eq, hbit, not_false_eq_true, if_true] at hinit
      subst hinit
      obtain ⟨-, hpos, herr⟩ := firstEntry_accurate
      refine ⟨hpos, ?_⟩
      have hone : n &&& 1 = 1 := and_two_pow_eq n 0 hbit
      rw [hone]
      simp only [firstEntry] at herr
      norm_num at herr ⊢
      linarith
  obtain ⟨hpos, herr⟩ := hstart _ rfl
  have hrange := tick_range_log hn
  have hlen : (ratioMultipliers.length : ℝ) = 19 := by norm_num [ratioMultipliers]
  have hfold := log_foldl_multiplyRatio n (ratioMultipliers_select n) hpos herr
    (by rw [hlen]; norm_num) (by
      have hsum : (n : ℝ) * tickLog = (n &&& 1 : ℕ) * tickLog +
          maskedPart n ratioMultipliers * tickLog := by
        rw [← hsplit]
        ring
      linarith [log_two_gt])
  refine ⟨hfold.1, ?_⟩
  have hsum : 128 * Real.log 2 - (n &&& 1 : ℕ) * tickLog - maskedPart n ratioMultipliers * tickLog =
      128 * Real.log 2 - n * tickLog := by
    rw [← hsplit]
    ring
  rw [hsum, hlen] at hfold
  refine hfold.2.trans ?_
  norm_num

theorem absTickRatio_bounds {n : ℕ} (hn : n ≤ 887272) :
    2 ^ 63 ≤ absTickRatio n ∧ absTickRatio n ≤ 2 ^ 129 := by
  obtain ⟨hpos, herr⟩ := log_absTickRatio hn
  have hrange := tick_range_log hn
  have hposR : (0 : ℝ) < absTickRatio n := by exact_mod_cast hpos
  rw [abs_le] at herr
  have hnn : 0 ≤ (n : ℝ) * tickLog := mul_nonneg (by positivity) tickLog_pos.le
  constructor
  · have hlog : Real.log ((2 : ℝ) ^ 63) ≤ Real.log (absTickRatio n) := by
      rw [Real.log_pow]
      norm_num at herr ⊢
      linarith [log_two_gt]
    exact_mod_cast (Real.log_le_log_iff (by positivity) hposR).mp hlog
  · have hlog : Real.log (absTickRatio n) ≤ Real.log ((2 : ℝ) ^ 129) := by
      rw [Real.log_pow]
      norm_num at herr ⊢
      linarith [log_two_gt]
    exact_mod_cast (Real.log_le_log_iff hposR (by positivity)).mp hlog

/-! ## The price of a tick -/

/-- The Q128.128 ratio of a tick of either sign. -/
def tickRatio (tick : ℤ) : ℕ :=
  if tick > 0 then (2 ^ 256 - 1) / absTickRatio tick.natAbs else absTickRatio tick.natAbs

/-- The Q64.96 price of a tick. -/
def sqrtRatio (tick : ℤ) : ℕ :=
  (tickRatio tick >>> 32) + if tickRatio tick % (1 <<< 32) = 0 then 0 else 1

/-- The ticks that have a price. -/
def ValidTick (tick : ℤ) : Prop := -887272 ≤ tick ∧ tick ≤ 887272

instance (tick : ℤ) : Decidable (ValidTick tick) := inferInstanceAs (Decidable (_ ∧ _))

theorem validTick_iff_natAbs {tick : ℤ} : ValidTick tick ↔ tick.natAbs ≤ 887272 := by
  unfold ValidTick
  omega

theorem V3.getSqrtRatioAtTick_eq_ok_iff {tick r : ℤ} :
    V3.getSqrtRatioAtTick tick = .ok r ↔ ValidTick tick ∧ r = sqrtRatio tick := by
  have hmax : (tick.natAbs : ℤ) ≤ maxTick ↔ ValidTick tick := by
    rw [validTick_iff_natAbs, maxTick]
    omega
  simp only [V3.getSqrtRatioAtTick, ite_error_eq_ok, not_not, hmax, Except.ok.injEq]
  constructor
  · rintro ⟨hvalid, rfl⟩
    exact ⟨hvalid, rfl⟩
  · rintro ⟨hvalid, rfl⟩
    exact ⟨hvalid, rfl⟩

theorem log_tickRatio {tick : ℤ} (h : ValidTick tick) :
    2 ^ 63 ≤ tickRatio tick ∧
      |Real.log (tickRatio tick) - (128 * Real.log 2 + tick * tickLog)| ≤ 1 / 2 ^ 53 := by
  have hn := validTick_iff_natAbs.mp h
  obtain ⟨hpos, herr⟩ := log_absTickRatio hn
  obtain ⟨hlow, hhigh⟩ := absTickRatio_bounds hn
  unfold tickRatio
  by_cases hsign : tick > 0
  · have habs : (tick : ℝ) = tick.natAbs := by
      have hcast : (tick.natAbs : ℤ) = tick := by omega
      calc (tick : ℝ) = ((tick.natAbs : ℤ) : ℝ) := by rw [hcast]
        _ = tick.natAbs := Int.cast_natCast _
    rw [if_pos hsign, habs]
    -- the reciprocal keeps at least 126 bits
    have hlarge : 2 ^ 126 ≤ (2 ^ 256 - 1) / absTickRatio tick.natAbs := by
      rw [Nat.le_div_iff_mul_le hpos]
      calc 2 ^ 126 * absTickRatio tick.natAbs ≤ 2 ^ 126 * 2 ^ 129 :=
            Nat.mul_le_mul_left _ hhigh
        _ ≤ 2 ^ 256 - 1 := by norm_num
    refine ⟨le_trans (by norm_num) hlarge, ?_⟩
    have hupper := log_natDiv_le hpos (lt_of_lt_of_le (by positivity) hlarge)
    have hlower := le_log_natDiv hpos (by positivity) hlarge
    have hnum : |Real.log ((2 ^ 256 - 1 : ℕ) : ℝ) - Real.log (2 ^ 256)| ≤ 1 / 2 ^ 200 := by
      apply abs_log_div_le <;> norm_num
    rw [Real.log_pow] at hnum
    rw [abs_le] at herr hnum ⊢
    norm_num at hupper hlower herr hnum ⊢
    constructor <;> linarith
  · have habs : (tick : ℝ) = -(tick.natAbs : ℝ) := by
      have hcast : -(tick.natAbs : ℤ) = tick := by omega
      calc (tick : ℝ) = ((-(tick.natAbs : ℤ) : ℤ) : ℝ) := by rw [hcast]
        _ = -(tick.natAbs : ℝ) := by rw [Int.cast_neg, Int.cast_natCast]
    rw [if_neg hsign, habs]
    refine ⟨hlow, ?_⟩
    rw [abs_le] at herr ⊢
    norm_num at herr ⊢
    constructor <;> linarith

theorem sqrtRatio_ceil (tick : ℤ) :
    tickRatio tick ≤ sqrtRatio tick * 2 ^ 32 ∧ sqrtRatio tick * 2 ^ 32 < tickRatio tick + 2 ^ 32 := by
  unfold sqrtRatio
  rw [Nat.shiftRight_eq_div_pow, Nat.one_shiftLeft]
  split_ifs with hmod <;> omega

/-- The price of a tick is `2 ^ 96 * 1.0001 ^ (tick / 2)`, up to a relative error of
about `2 ^ -30`. -/
theorem log_sqrtRatio {tick : ℤ} (h : ValidTick tick) :
    0 < sqrtRatio tick ∧
      |Real.log (sqrtRatio tick) - (96 * Real.log 2 + tick * tickLog)| ≤ 1 / 2 ^ 30 := by
  obtain ⟨hlow, herr⟩ := log_tickRatio h
  obtain ⟨hceil, hceil'⟩ := sqrtRatio_ceil tick
  refine ⟨by omega, ?_⟩
  obtain ⟨hge, hle⟩ := log_ceil_bounds (k := 2 ^ 31) (by positivity) (by positivity)
    (by omega) hceil hceil'
  rw [Nat.cast_pow, Real.log_pow] at hge hle
  rw [abs_le] at herr ⊢
  norm_num at herr hge hle ⊢
  constructor <;> linarith

theorem sqrtRatio_lt_succ {tick : ℤ} (h : ValidTick tick) (h' : ValidTick (tick + 1)) :
    sqrtRatio tick < sqrtRatio (tick + 1) := by
  obtain ⟨hpos, herr⟩ := log_sqrtRatio h
  obtain ⟨hpos', herr'⟩ := log_sqrtRatio h'
  rw [abs_le] at herr herr'
  have hlog : Real.log (sqrtRatio tick) < Real.log (sqrtRatio (tick + 1)) := by
    push_cast at herr'
    norm_num at herr herr'
    linarith [tickLog_gt]
  exact_mod_cast (Real.log_lt_log_iff (by exact_mod_cast hpos) (by exact_mod_cast hpos')).mp hlog

/-- Prices increase strictly with ticks. -/
theorem sqrtRatio_strictMono {a b : ℤ} (ha : ValidTick a) (hb : ValidTick b) (hab : a < b) :
    sqrtRatio a < sqrtRatio b := by
  obtain ⟨ha1, ha2⟩ := ha
  obtain ⟨hb1, hb2⟩ := hb
  induction b, hab using Int.leInduction with
  | base => exact sqrtRatio_lt_succ ⟨ha1, ha2⟩ ⟨hb1, hb2⟩
  | succ b hle ih =>
      have hprev := ih (by omega) (by omega)
      exact hprev.trans (sqrtRatio_lt_succ ⟨by omega, by omega⟩ ⟨hb1, hb2⟩)

theorem sqrtRatio_mono {a b : ℤ} (ha : ValidTick a) (hb : ValidTick b) (hab : a ≤ b) :
    sqrtRatio a ≤ sqrtRatio b := by
  rcases hab.lt_or_eq with hlt | rfl
  · exact (sqrtRatio_strictMono ha hb hlt).le
  · exact le_rfl

end Degenbot
