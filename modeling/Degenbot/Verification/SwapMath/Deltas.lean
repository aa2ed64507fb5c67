import Degenbot.Algorithm.SwapMath
import Degenbot.Library.Outcome
import Degenbot.Library.Rounding

/-! # Divisions and amounts of a swap step -/

/-! ## What the checked divisions return

Both ports return the exact quotient, rounded as asked; they differ in the inputs they
reject. -/

namespace Degenbot

open Library

theorem q96_pos : 0 < q96 := by decide

namespace V3

theorem muldiv_eq_ok_iff {a b d r : ℤ} :
    muldiv a b d = .ok r ↔ (0 ≤ a ∧ a ≤ maxUint256) ∧ (0 ≤ b ∧ b ≤ maxUint256) ∧
      (0 < d ∧ d ≤ maxUint256) ∧ r = a * b / d ∧ r ≤ maxUint256 := by
  simp only [muldiv, ite_error_eq_ok, not_or, not_lt, not_not, Except.ok.injEq]
  constructor
  · rintro ⟨ha, hb, ⟨hd0, hd⟩, hne, ⟨-, hr⟩, rfl⟩
    have hpos : 0 < d := lt_of_le_of_ne hd0 (Ne.symm hne)
    rw [Int.fdiv_eq_ediv_of_nonneg _ hd0] at *
    exact ⟨ha, hb, ⟨hpos, hd⟩, rfl, hr⟩
  · rintro ⟨ha, hb, ⟨hpos, hd⟩, rfl, hr⟩
    rw [Int.fdiv_eq_ediv_of_nonneg _ hpos.le]
    have hnn : 0 ≤ a * b / d := Int.ediv_nonneg (mul_nonneg ha.1 hb.1) hpos.le
    exact ⟨ha, hb, ⟨hpos.le, hd⟩, hpos.ne', ⟨hnn, hr⟩, rfl⟩

theorem muldivRoundingUp_eq_ok_iff {a b d r : ℤ} :
    muldivRoundingUp a b d = .ok r ↔ (0 ≤ a ∧ a ≤ maxUint256) ∧ (0 ≤ b ∧ b ≤ maxUint256) ∧
      (0 < d ∧ d ≤ maxUint256) ∧ r = ceilDiv (a * b) d ∧ r ≤ maxUint256 := by
  simp only [muldivRoundingUp, bind_eq_ok, muldiv_eq_ok_iff]
  constructor
  · rintro ⟨q, ⟨ha, hb, hd, rfl, hq⟩, m, hm, hr⟩
    simp only [mulmod, hd.1.ne', if_false, Except.ok.injEq] at hm
    have hceil := fdiv_add_fmod_pos (a := a * b) hd.1
    rw [Int.fdiv_eq_ediv_of_nonneg _ hd.1.le, hm] at hceil
    refine ⟨ha, hb, hd, ?_⟩
    split_ifs at hr hceil with hpos hfail
    · cases hr
      exact ⟨hceil, by omega⟩
    · cases hr
      exact ⟨by simpa using hceil, hq⟩
  · rintro ⟨ha, hb, hd, rfl, hr⟩
    have hceil := fdiv_add_fmod_pos (a := a * b) hd.1
    rw [Int.fdiv_eq_ediv_of_nonneg _ hd.1.le] at hceil
    have hq : 0 ≤ a * b / d := Int.ediv_nonneg (mul_nonneg ha.1 hb.1) hd.1.le
    have hle := ediv_le_ceilDiv (a := a * b) hd.1
    refine ⟨a * b / d, ⟨ha, hb, hd, rfl, hle.trans hr⟩, (a * b).fmod d, ?_, ?_⟩
    · simp [mulmod, hd.1.ne']
    · split_ifs at hceil ⊢ with hpos hfail
      · rw [hceil]
      · omega
      · simpa using hceil

theorem divRoundingUp_eq {x y : ℤ} (hy : 0 < y) : divRoundingUp x y = ceilDiv x y := by
  simp only [divRoundingUp, hy.ne', if_false]
  exact fdiv_add_fmod_pos hy

theorem toUint160_eq_ok_iff {x r : ℤ} : toUint160 x = .ok r ↔ r = x ∧ x ≤ maxUint160 := by
  simp only [toUint160, ite_error_eq_ok, not_lt, Except.ok.injEq]
  tauto

end V3

namespace V4

theorem muldiv_eq_ok_iff {a b d r : ℤ} :
    muldiv a b d = .ok r ↔ 0 < d ∧ r = a * b / d ∧ r ≤ maxUint256 := by
  simp only [muldiv, ite_error_eq_ok, not_le, not_lt, Except.ok.injEq]
  constructor
  · rintro ⟨hd, hr, rfl⟩
    rw [Int.fdiv_eq_ediv_of_nonneg _ hd.le] at *
    exact ⟨hd, rfl, hr⟩
  · rintro ⟨hd, rfl, hr⟩
    rw [Int.fdiv_eq_ediv_of_nonneg _ hd.le]
    exact ⟨hd, hr, rfl⟩

theorem muldivRoundingUp_eq_ok_iff {a b d r : ℤ} :
    muldivRoundingUp a b d = .ok r ↔ 0 < d ∧ r = ceilDiv (a * b) d ∧ r ≤ maxUint256 := by
  simp only [muldivRoundingUp, ite_error_eq_ok, not_le, bind_eq_ok, muldiv_eq_ok_iff, not_lt,
    Except.ok.injEq]
  constructor
  · rintro ⟨hd, q, ⟨-, rfl, hq⟩, hr, rfl⟩
    have hceil := fdiv_add_fmod_pos (a := a * b) hd
    rw [Int.fdiv_eq_ediv_of_nonneg _ hd.le] at hceil
    simp only [mulmod, hd.ne', if_false, hceil] at hr ⊢
    exact ⟨hd, trivial, hr⟩
  · rintro ⟨hd, rfl, hr⟩
    have hceil := fdiv_add_fmod_pos (a := a * b) hd
    rw [Int.fdiv_eq_ediv_of_nonneg _ hd.le] at hceil
    have hle := ediv_le_ceilDiv (a := a * b) hd
    refine ⟨hd, a * b / d, ⟨hd, rfl, hle.trans hr⟩, ?_⟩
    simp only [mulmod, hd.ne', if_false, hceil]
    exact ⟨hr, trivial⟩

theorem divRoundingUp_eq {x y : ℤ} (hy : 0 < y) : divRoundingUp x y = ceilDiv x y := by
  simp only [divRoundingUp, hy.ne', if_false]
  exact fdiv_add_fmod_pos hy

end V4

/-- The ports agree where V3 accepts the operands. -/
theorem muldivRoundingUp_v3_iff_v4 {a b d r : ℤ} (ha : 0 ≤ a ∧ a ≤ maxUint256)
    (hb : 0 ≤ b ∧ b ≤ maxUint256) (hd : d ≤ maxUint256) :
    V3.muldivRoundingUp a b d = .ok r ↔ V4.muldivRoundingUp a b d = .ok r := by
  rw [V3.muldivRoundingUp_eq_ok_iff, V4.muldivRoundingUp_eq_ok_iff]
  tauto

theorem muldiv_v3_iff_v4 {a b d r : ℤ} (ha : 0 ≤ a ∧ a ≤ maxUint256)
    (hb : 0 ≤ b ∧ b ≤ maxUint256) (hd : d ≤ maxUint256) :
    V3.muldiv a b d = .ok r ↔ V4.muldiv a b d = .ok r := by
  rw [V3.muldiv_eq_ok_iff, V4.muldiv_eq_ok_iff]
  tauto

/-! ## Amounts between two prices

The exact input and output amounts of a move between two prices, and the two ports'
deltas in terms of them. -/

/-- `price` is reached from `current` by a swap in the given direction. -/
def Toward (zeroForOne : Bool) (current price : ℤ) : Prop :=
  if zeroForOne then price ≤ current else current ≤ price

/-- The input that moves the price, rounded up at every division. -/
def inputAmount (zeroForOne : Bool) (liquidity current price : ℤ) : ℤ :=
  if zeroForOne then ceilDiv (ceilDiv (liquidity * q96 * (current - price)) current) price
  else ceilDiv (liquidity * (price - current)) q96

/-- The output released by the move, rounded down at every division. -/
def outputAmount (zeroForOne : Bool) (liquidity current price : ℤ) : ℤ :=
  if zeroForOne then liquidity * (current - price) / q96
  else liquidity * q96 * (price - current) / price / current

theorem toward_refl (zeroForOne : Bool) (current : ℤ) : Toward zeroForOne current current := by
  cases zeroForOne <;> simp [Toward]

theorem toward_of_ge (current target : ℤ) : Toward (decide (current ≥ target)) current target := by
  by_cases h : current ≥ target
  · simp [Toward, h]
  · simp only [Toward, h, decide_false, Bool.false_eq_true, if_false]
    omega

theorem pos_of_toward {z : Bool} {current price target : ℤ} (hc : 0 < current)
    (ht : 0 < target) (hp : Toward z current price) (hp' : Toward z price target) :
    0 < price := by
  cases z with
  | true =>
      simp only [Toward, if_true] at hp'
      linarith
  | false =>
      simp only [Toward, Bool.false_eq_true, if_false] at hp
      linarith

theorem inputAmount_nonneg {z : Bool} {liquidity current price : ℤ} (hL : 0 ≤ liquidity)
    (hc : 0 < current) (hp : 0 < price) (hdir : Toward z current price) :
    0 ≤ inputAmount z liquidity current price := by
  have hq := q96_pos
  cases z with
  | true =>
      simp only [Toward, if_true] at hdir
      simp only [inputAmount, if_true]
      exact ceilDiv_nonneg (ceilDiv_nonneg (by nlinarith [mul_nonneg hL hq.le]) hc) hp
  | false =>
      simp only [Toward, Bool.false_eq_true, if_false] at hdir
      simp only [inputAmount, Bool.false_eq_true, if_false]
      exact ceilDiv_nonneg (by nlinarith) hq

theorem outputAmount_nonneg {z : Bool} {liquidity current price : ℤ} (hL : 0 ≤ liquidity)
    (hc : 0 < current) (hp : 0 < price) (hdir : Toward z current price) :
    0 ≤ outputAmount z liquidity current price := by
  have hq := q96_pos
  cases z with
  | true =>
      simp only [Toward, if_true] at hdir
      simp only [outputAmount, if_true]
      exact Int.ediv_nonneg (by nlinarith) hq.le
  | false =>
      simp only [Toward, Bool.false_eq_true, if_false] at hdir
      simp only [outputAmount, Bool.false_eq_true, if_false]
      exact Int.ediv_nonneg (Int.ediv_nonneg (by nlinarith [mul_nonneg hL hq.le]) hp.le) hc.le

/-! ## V3 -/

namespace V3

theorem getAmount0Delta_up_eq_ok {a b liquidity r : ℤ} (hab : a ≤ b)
    (h : getAmount0Delta a b liquidity (some true) = .ok r) :
    0 < a ∧ r = ceilDiv (ceilDiv (liquidity * q96 * (b - a)) b) a := by
  simp only [getAmount0Delta, getAmount0DeltaRounded, not_lt.mpr hab, gt_iff_lt, if_false,
    ite_error_eq_ok, not_not, if_true, bind_eq_ok, muldivRoundingUp_eq_ok_iff,
    Except.ok.injEq] at h
  obtain ⟨ha, q, ⟨-, -, -, rfl, -⟩, rfl⟩ := h
  exact ⟨ha, divRoundingUp_eq ha⟩

theorem getAmount0Delta_down_eq_ok {a b liquidity r : ℤ} (hab : a ≤ b)
    (h : getAmount0Delta a b liquidity (some false) = .ok r) :
    0 < a ∧ r = liquidity * q96 * (b - a) / b / a := by
  simp only [getAmount0Delta, getAmount0DeltaRounded, not_lt.mpr hab, gt_iff_lt, if_false,
    ite_error_eq_ok, not_not, Bool.false_eq_true, bind_eq_ok, muldiv_eq_ok_iff,
    Except.ok.injEq] at h
  obtain ⟨ha, q, ⟨-, -, -, rfl, -⟩, rfl⟩ := h
  exact ⟨ha, Int.fdiv_eq_ediv_of_nonneg _ ha.le⟩

theorem getAmount1Delta_up_eq_ok {a b liquidity r : ℤ} (hab : a ≤ b)
    (h : getAmount1Delta a b liquidity (some true) = .ok r) :
    r = ceilDiv (liquidity * (b - a)) q96 := by
  simp only [getAmount1Delta, getAmount1DeltaRounded, not_lt.mpr hab, if_false,
    ite_error_eq_ok, not_not, if_true, muldivRoundingUp_eq_ok_iff] at h
  exact h.2.2.2.2.1

theorem getAmount1Delta_down_eq_ok {a b liquidity r : ℤ} (hab : a ≤ b)
    (h : getAmount1Delta a b liquidity (some false) = .ok r) :
    r = liquidity * (b - a) / q96 := by
  simp only [getAmount1Delta, getAmount1DeltaRounded, not_lt.mpr hab, if_false,
    ite_error_eq_ok, not_not, Bool.false_eq_true, muldiv_eq_ok_iff] at h
  exact h.2.2.2.2.1

theorem inputDelta_eq_ok {z : Bool} {current price liquidity r : ℤ}
    (hdir : Toward z current price) (h : inputDelta z current price liquidity = .ok r) :
    (z = true → 0 < price) ∧ r = inputAmount z liquidity current price := by
  cases z with
  | true =>
      simp only [inputDelta, if_true] at h
      obtain ⟨hp, hr⟩ := getAmount0Delta_up_eq_ok (by simpa [Toward] using hdir) h
      exact ⟨fun _ => hp, by simpa [inputAmount] using hr⟩
  | false =>
      simp only [inputDelta, Bool.false_eq_true, if_false] at h
      have hr := getAmount1Delta_up_eq_ok (by simpa [Toward] using hdir) h
      exact ⟨by simp, by simpa [inputAmount] using hr⟩

theorem outputDelta_eq_ok {z : Bool} {current price liquidity r : ℤ}
    (hdir : Toward z current price) (h : outputDelta z current price liquidity = .ok r) :
    (z = false → 0 < current) ∧ r = outputAmount z liquidity current price := by
  cases z with
  | true =>
      simp only [outputDelta, if_true] at h
      have hr := getAmount1Delta_down_eq_ok (by simpa [Toward] using hdir) h
      exact ⟨by simp, by simpa [outputAmount] using hr⟩
  | false =>
      simp only [outputDelta, Bool.false_eq_true, if_false] at h
      obtain ⟨hc, hr⟩ := getAmount0Delta_down_eq_ok (by simpa [Toward] using hdir) h
      exact ⟨fun _ => hc, by simpa [outputAmount] using hr⟩

end V3

end Degenbot
