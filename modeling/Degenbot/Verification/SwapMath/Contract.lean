import Degenbot.Verification.SwapMath.Ports

/-! # The ports against the contract

The contract finds out that a product or a sum does not fit in 256 bits by letting it wrap. The
ports compare exact integers, and look at the product only. -/

namespace Degenbot

open Library

/-! ## The price after an input of token 0 -/

section NextPrice

variable {price liquidity amount : ℤ}

/-- The exact quotient when the product and the sum fit in 256 bits, and the failsafe
otherwise. -/
def contractNextSqrtPrice (price liquidity amount : ℤ) : ℤ :=
  if amount * price ≤ maxUint256 ∧ liquidity * q96 + amount * price ≤ maxUint256 then
    ceilDiv (liquidity * q96 * price) (liquidity * q96 + amount * price)
  else ceilDiv (liquidity * q96) (liquidity * q96 / price + amount)

/-- The sum does not pass 256 bits while the product stays below them. -/
def SumFits (price liquidity amount : ℤ) : Prop :=
  liquidity * q96 + amount * price ≤ maxUint256

instance (price liquidity amount : ℤ) : Decidable (SumFits price liquidity amount) :=
  inferInstanceAs (Decidable (_ ≤ _))

/-- The failsafe, less one, is still below the exact quotient. -/
def FailsafeIsExact (price liquidity amount : ℤ) : Prop :=
  (ceilDiv (liquidity * q96) (liquidity * q96 / price + amount) - 1) *
    (liquidity * q96 + amount * price) < liquidity * q96 * price

theorem contractNextSqrtPrice_zero (price : ℤ) (hliquidity : LiquidityBounds liquidity)
    (hpos : 0 < liquidity) : contractNextSqrtPrice price liquidity 0 = price := by
  have hN := numerator1_bounds hliquidity
  have hNpos := numerator1_pos hpos
  rw [contractNextSqrtPrice, zero_mul, add_zero, if_pos ⟨by decide, hN.2⟩]
  apply le_antisymm
  · rw [ceilDiv_le_iff hNpos, mul_comm]
  · have hle := le_ceilDiv_mul (a := liquidity * q96 * price) hNpos
    refine le_of_mul_le_mul_right ?_ hNpos
    rwa [mul_comm price]

/-- The failsafe divides by less than the exact denominator. -/
theorem exact_le_failsafe (hprice : 0 < price) (hpos : 0 < liquidity) (hamount : 0 < amount) :
    ceilDiv (liquidity * q96 * price) (liquidity * q96 + amount * price) ≤
      ceilDiv (liquidity * q96) (liquidity * q96 / price + amount) := by
  have hNpos := numerator1_pos hpos
  have hfloor : 0 ≤ liquidity * q96 / price := Int.ediv_nonneg hNpos.le hprice.le
  have hden : 0 < liquidity * q96 + amount * price := by
    have := mul_pos hamount hprice
    omega
  generalize liquidity * q96 = numerator at *
  have hceil := le_ceilDiv_mul (a := numerator) (b := numerator / price + amount) (by omega)
  have hnonneg := ceilDiv_nonneg (b := numerator / price + amount) hNpos.le (by omega)
  generalize ceilDiv numerator (numerator / price + amount) = failsafe at *
  have hwhole : numerator / price * price ≤ numerator := Int.ediv_mul_le _ hprice.ne'
  rw [ceilDiv_le_iff hden]
  calc numerator * price ≤ failsafe * (numerator / price + amount) * price :=
        mul_le_mul_of_nonneg_right hceil hprice.le
    _ = failsafe * (numerator / price * price + amount * price) := by ring
    _ ≤ failsafe * (numerator + amount * price) :=
        mul_le_mul_of_nonneg_left (by omega) hnonneg

theorem failsafeIsExact_iff (hprice : 0 < price) (hpos : 0 < liquidity) (hamount : 0 < amount) :
    FailsafeIsExact price liquidity amount ↔
      ceilDiv (liquidity * q96 * price) (liquidity * q96 + amount * price) =
        ceilDiv (liquidity * q96) (liquidity * q96 / price + amount) := by
  have hle := exact_le_failsafe hprice hpos hamount
  have hNpos := numerator1_pos hpos
  have hden : 0 < liquidity * q96 + amount * price := by
    have := mul_pos hamount hprice
    omega
  rw [FailsafeIsExact, ← lt_ceilDiv_iff hden]
  omega

theorem V3.nextPrice_iff (hprice : PriceBounds price) (hliquidity : LiquidityBounds liquidity)
    (hpos : 0 < liquidity) (hamount : 0 ≤ amount) :
    V3.getNextSqrtPriceFromAmount0RoundingUp price liquidity amount true =
        .ok (contractNextSqrtPrice price liquidity amount) ↔
      maxUint256 ≤ amount * price ∨ SumFits price liquidity amount := by
  have hN := numerator1_bounds hliquidity
  have hNpos := numerator1_pos hpos
  rcases hamount.eq_or_lt with rfl | hamountPos
  · rw [contractNextSqrtPrice_zero price hliquidity hpos,
      V3.getNextSqrtPriceFromAmount0RoundingUp, if_pos rfl]
    exact iff_of_true rfl (.inr (by rw [SumFits, zero_mul, add_zero]; exact hN.2))
  have hproduct : 0 < amount * price := mul_pos hamountPos hprice.1
  have hfloor : 0 ≤ liquidity * q96 / price := Int.ediv_nonneg hN.1 hprice.1.le
  simp only [V3.getNextSqrtPriceFromAmount0RoundingUp, hamountPos.ne', if_false, if_true,
    ge_iff_le, le_add_iff_nonneg_right, hproduct.le, and_true, SumFits, contractNextSqrtPrice]
  by_cases hlt : amount * price < maxUint256
  · rw [if_pos hlt, V3.muldivRoundingUp_eq_ok_iff]
    constructor
    · rintro ⟨-, -, ⟨-, hfits⟩, -⟩
      exact .inr hfits
    · rintro (hge | hfits)
      · omega
      · have hexact := exactQuotient_le hpos hprice.1 hamount
        rw [if_pos ⟨hlt.le, hfits⟩]
        exact ⟨hN, ⟨hprice.1.le, hprice.le_maxUint256⟩, ⟨by omega, hfits⟩, rfl,
          hexact.trans hprice.le_maxUint256⟩
  · have hwraps : ¬(amount * price ≤ maxUint256 ∧
        liquidity * q96 + amount * price ≤ maxUint256) := by omega
    rw [if_neg hlt, if_neg hwraps]
    simp only [floorDivide, hprice.1.ne', if_false, ok_bind,
      Int.fdiv_eq_ediv_of_nonneg _ hprice.1.le]
    rw [V3.divRoundingUp_eq (by omega)]
    exact iff_of_true rfl (.inl (not_lt.mp hlt))

theorem V4.nextPrice_iff (hprice : PriceBounds price) (hliquidity : LiquidityBounds liquidity)
    (hpos : 0 < liquidity) (hamount : 0 ≤ amount) :
    V4.getNextSqrtPriceFromAmount0RoundingUp price liquidity amount true =
        .ok (contractNextSqrtPrice price liquidity amount) ↔
      maxUint256 < amount * price ∨ SumFits price liquidity amount ∨
        FailsafeIsExact price liquidity amount := by
  have hN := numerator1_bounds hliquidity
  have hNpos := numerator1_pos hpos
  rcases hamount.eq_or_lt with rfl | hamountPos
  · rw [contractNextSqrtPrice_zero price hliquidity hpos,
      V4.getNextSqrtPriceFromAmount0RoundingUp, if_pos rfl]
    exact iff_of_true rfl (.inr (.inl (by rw [SumFits, zero_mul, add_zero]; exact hN.2)))
  have hproduct : 0 < amount * price := mul_pos hamountPos hprice.1
  have hfloor : 0 ≤ liquidity * q96 / price := Int.ediv_nonneg hN.1 hprice.1.le
  have hden : 0 < liquidity * q96 + amount * price := by omega
  rw [failsafeIsExact_iff hprice.1 hpos hamountPos]
  simp only [V4.getNextSqrtPriceFromAmount0RoundingUp, hamountPos.ne', if_false, if_true,
    ge_iff_le, le_add_iff_nonneg_right, hproduct.le, and_true, SumFits, contractNextSqrtPrice]
  by_cases hle : amount * price ≤ maxUint256
  · have hexact := exactQuotient_le hpos hprice.1 hamount
    have hok : V4.muldivRoundingUp (liquidity * q96) price (liquidity * q96 + amount * price) =
        .ok (ceilDiv (liquidity * q96 * price) (liquidity * q96 + amount * price)) :=
      V4.muldivRoundingUp_eq_ok_iff.mpr ⟨hden, rfl, hexact.trans hprice.le_maxUint256⟩
    rw [if_pos hle, hok]
    by_cases hfits : liquidity * q96 + amount * price ≤ maxUint256
    · rw [if_pos ⟨hle, hfits⟩]
      exact iff_of_true rfl (.inr (.inl hfits))
    · rw [if_neg fun h => hfits h.2, Except.ok.injEq]
      exact ⟨fun h => .inr (.inr h),
        fun h => (h.resolve_left (not_lt.mpr hle)).resolve_left hfits⟩
  · rw [if_neg hle, if_neg fun h => hle h.1]
    simp only [floorDivide, hprice.1.ne', if_false, ok_bind,
      Int.fdiv_eq_ediv_of_nonneg _ hprice.1.le]
    rw [V4.divRoundingUp_eq (by omega)]
    exact iff_of_true rfl (.inl (not_le.mp hle))

/-- Both ports return the contract's price, V3 unless the sum alone passes 256 bits, V4 unless
the failsafe differs there from the exact quotient. -/
theorem nextSqrtPrice_iff (hprice : PriceBounds price) (hliquidity : LiquidityBounds liquidity)
    (hpos : 0 < liquidity) (hamount : 0 ≤ amount ∧ amount ≤ maxUint256) :
    (V3.getNextSqrtPriceFromAmount0RoundingUp price liquidity amount true =
          .ok (contractNextSqrtPrice price liquidity amount) ↔
        maxUint256 ≤ amount * price ∨ SumFits price liquidity amount) ∧
      (V4.getNextSqrtPriceFromAmount0RoundingUp price liquidity amount true =
          .ok (contractNextSqrtPrice price liquidity amount) ↔
        maxUint256 < amount * price ∨ SumFits price liquidity amount ∨
          FailsafeIsExact price liquidity amount) :=
  ⟨V3.nextPrice_iff hprice hliquidity hpos hamount.1,
    V4.nextPrice_iff hprice hliquidity hpos hamount.1⟩

theorem nextSqrtPrice_iff_sample :
    V3.getNextSqrtPriceFromAmount0RoundingUp (2 ^ 96) (10 ^ 18) (10 ^ 18) true =
        .ok (2 ^ 95) ∧
      V4.getNextSqrtPriceFromAmount0RoundingUp (2 ^ 96) (10 ^ 18) (10 ^ 18) true =
        .ok (2 ^ 95) := by
  have h := @nextSqrtPrice_iff (2 ^ 96) (10 ^ 18) (10 ^ 18) ⟨by decide, by decide⟩
    ⟨by decide, by decide⟩ (by decide) (by decide)
  have hfits : SumFits (2 ^ 96) (10 ^ 18) (10 ^ 18) := by decide
  have hprice : contractNextSqrtPrice (2 ^ 96) (10 ^ 18) (10 ^ 18) = 2 ^ 95 := by decide
  rw [hprice] at h
  exact ⟨h.1.mpr (.inr hfits), h.2.mpr (.inr (.inl hfits))⟩

/-- The product fits and the sum does not: V3 raises, and V4 returns another price. -/
theorem nextSqrtPrice_sum_overflows :
    (∃ e, V3.getNextSqrtPriceFromAmount0RoundingUp (2 ^ 160 - 1) (2 ^ 128 - 1) (2 ^ 96) true =
        .error e) ∧
      V4.getNextSqrtPriceFromAmount0RoundingUp (2 ^ 160 - 1) (2 ^ 128 - 1) (2 ^ 96) true ≠
        .ok (contractNextSqrtPrice (2 ^ 160 - 1) (2 ^ 128 - 1) (2 ^ 96)) :=
  ⟨⟨.evmRevertError "Invalid value for denominator.", by decide⟩, by decide⟩

end NextPrice

/-! ## The signed deltas -/

section SignedDeltas

variable {a b liquidity : ℤ}

/-- Adding and then removing the liquidity returns at most what was deposited, and all of it but
two units. -/
def ReturnsDeposit (delta : ℤ → Except Exn ℤ) (liquidity : ℤ) : Prop :=
  ∃ deposited withdrawn, delta liquidity = .ok deposited ∧ delta (-liquidity) = .ok withdrawn ∧
    0 ≤ deposited + withdrawn ∧ deposited + withdrawn ≤ 2

theorem getAmount0DeltaRounded_comm (a b liquidity : ℤ) (roundUp : Bool) :
    V3.getAmount0DeltaRounded a b liquidity roundUp =
      V3.getAmount0DeltaRounded b a liquidity roundUp := by
  unfold V3.getAmount0DeltaRounded
  rcases lt_trichotomy a b with hlt | rfl | hgt
  · rw [if_neg (not_lt.mpr hlt.le), if_pos hlt]
  · rfl
  · rw [if_pos hgt, if_neg (not_lt.mpr hgt.le)]

theorem getAmount0Delta_comm (a b liquidity : ℤ) (roundUp : Option Bool) :
    V3.getAmount0Delta a b liquidity roundUp = V3.getAmount0Delta b a liquidity roundUp := by
  cases roundUp with
  | none => simp only [V3.getAmount0Delta, getAmount0DeltaRounded_comm a b]
  | some roundUp => exact getAmount0DeltaRounded_comm a b liquidity roundUp

/-- The deposit and the withdrawal are the same amount, rounded at both divisions. -/
theorem ceilDiv_sub_ediv (x : ℤ) (ha : 0 < a) (hb : 0 < b) :
    0 ≤ ceilDiv (ceilDiv x b) a + -(x / b / a) ∧ ceilDiv (ceilDiv x b) a + -(x / b / a) ≤ 2 := by
  have hlower : x / b / a ≤ ceilDiv (ceilDiv x b) a :=
    (Int.ediv_le_ediv ha (ediv_le_ceilDiv hb)).trans (ediv_le_ceilDiv ha)
  have hinner : ceilDiv x b ≤ x / b + 1 := by
    rw [ceilDiv_le_iff hb]
    have hlt := Int.lt_ediv_add_one_mul_self x hb
    omega
  have hupper : ceilDiv (ceilDiv x b) a ≤ x / b / a + 2 := by
    rw [ceilDiv_le_iff ha]
    have hlt := Int.lt_ediv_add_one_mul_self (x / b) ha
    nlinarith
  omega

theorem toInt256_of_abs_le {x : ℤ} (h : |x| ≤ 2 ^ 224) : V3.toInt256 x = .ok x := by
  rw [abs_le] at h
  rw [V3.toInt256, if_neg]
  rw [not_not, minInt256, maxInt256]
  omega

theorem returnsDeposit_amount0_of_le (hab : a ≤ b) (ha : 0 < a) (hb : b ≤ maxUint160)
    (hliquidity : 0 < liquidity ∧ liquidity ≤ maxInt128) :
    ReturnsDeposit (fun liquidity => V3.getAmount0Delta a b liquidity none) liquidity := by
  have hbpos : 0 < b := ha.trans_le hab
  have hL : LiquidityBounds liquidity := ⟨hliquidity.1.le, hliquidity.2.trans (by decide)⟩
  have hN := numerator1_bounds hL
  have hbmax : b ≤ maxUint256 := hb.trans (by decide)
  have hx : 0 ≤ liquidity * q96 * (b - a) := mul_nonneg hN.1 (by omega)
  have hup : V3.getAmount0DeltaRounded a b liquidity true =
      .ok (ceilDiv (ceilDiv (liquidity * q96 * (b - a)) b) a) := by
    have hmul := V3.muldivRoundingUp_eq_ok_iff.mpr ⟨hN, ⟨by omega, by omega⟩,
      ⟨hbpos, hbmax⟩, rfl, (muldiv0_le hL ha hab).1⟩
    simp [V3.getAmount0DeltaRounded, not_lt.mpr hab, not_le.mpr ha, hmul, V3.divRoundingUp_eq ha]
  have hdown : V3.getAmount0DeltaRounded a b liquidity false =
      .ok (liquidity * q96 * (b - a) / b / a) := by
    have hmul := V3.muldiv_eq_ok_iff.mpr ⟨hN, ⟨by omega, by omega⟩,
      ⟨hbpos, hbmax⟩, rfl, (muldiv0_le hL ha hab).2⟩
    simp [V3.getAmount0DeltaRounded, not_lt.mpr hab, not_le.mpr ha, hmul,
      Int.fdiv_eq_ediv_of_nonneg _ ha.le]
  have hsum := ceilDiv_sub_ediv (liquidity * q96 * (b - a)) ha hbpos
  have hnonneg : 0 ≤ liquidity * q96 * (b - a) / b / a :=
    Int.ediv_nonneg (Int.ediv_nonneg hx hbpos.le) ha.le
  have hsize : ceilDiv (ceilDiv (liquidity * q96 * (b - a)) b) a ≤ 2 ^ 224 := by
    rw [ceilDiv_le_iff ha, ceilDiv_le_iff hbpos]
    have hq : liquidity * q96 ≤ 2 ^ 224 := by
      have hmax := hliquidity.2
      simp only [maxInt128, q96] at hmax ⊢
      omega
    calc liquidity * q96 * (b - a) ≤ 2 ^ 224 * b :=
          mul_le_mul hq (by omega) (by omega) (by norm_num)
      _ ≤ 2 ^ 224 * a * b := by nlinarith
  refine ⟨_, _, ?_, ?_, hsum.1, hsum.2⟩
  · have hcast := toInt256_of_abs_le (x := ceilDiv (ceilDiv (liquidity * q96 * (b - a)) b) a)
      (by rw [abs_of_nonneg (by omega)]; exact hsize)
    simp only [V3.getAmount0Delta, not_lt.mpr hliquidity.1.le, if_false, hup, ok_bind, hcast]
  · have hcast := toInt256_of_abs_le (x := -(liquidity * q96 * (b - a) / b / a))
      (by rw [abs_neg, abs_of_nonneg hnonneg]; omega)
    simp only [V3.getAmount0Delta, neg_lt_zero, hliquidity.1, if_true, neg_neg, hdown, ok_bind,
      hcast]

theorem getAmount0DeltaRounded_zero (b liquidity : ℤ) (hb : 0 ≤ b) (roundUp : Bool) :
    V3.getAmount0DeltaRounded 0 b liquidity roundUp =
      .error (.evmRevertError "required: sqrt_ratio_a_x96 > 0") := by
  simp [V3.getAmount0DeltaRounded, not_lt.mpr hb]

/-- `get_amount0_delta` returns every deposit, less at most two units, when there are two prices.
`get_amount1_delta` rejects every negative liquidity before it looks at the rounding. -/
theorem returnsDeposit_iff (ha : 0 ≤ a ∧ a ≤ maxUint160) (hb : 0 ≤ b ∧ b ≤ maxUint160)
    (hliquidity : 0 < liquidity ∧ liquidity ≤ maxInt128) :
    (ReturnsDeposit (fun liquidity => V3.getAmount0Delta a b liquidity none) liquidity ↔
        0 < a ∧ 0 < b) ∧
      ¬ReturnsDeposit (fun liquidity => V3.getAmount1Delta a b liquidity none) liquidity := by
  constructor
  · constructor
    · rintro ⟨deposited, withdrawn, hdeposited, -⟩
      simp only [V3.getAmount0Delta, not_lt.mpr hliquidity.1.le, if_false] at hdeposited
      by_contra hzero
      rcases (show a = 0 ∨ b = 0 by omega) with rfl | rfl
      · rw [getAmount0DeltaRounded_zero b liquidity hb.1] at hdeposited
        cases hdeposited
      · rw [getAmount0DeltaRounded_comm, getAmount0DeltaRounded_zero a liquidity ha.1]
          at hdeposited
        cases hdeposited
    · rintro ⟨hapos, hbpos⟩
      rcases le_total a b with hab | hba
      · exact returnsDeposit_amount0_of_le hab hapos hb.2 hliquidity
      · simp only [getAmount0Delta_comm a b]
        exact returnsDeposit_amount0_of_le hba hbpos ha.2 hliquidity
  · rintro ⟨deposited, withdrawn, -, hwithdrawn, -⟩
    have hnegative : ¬-liquidity ≥ 0 := by omega
    simp only [V3.getAmount1Delta, hnegative, not_false_eq_true, if_true] at hwithdrawn
    cases hwithdrawn

theorem returnsDeposit_iff_sample :
    ReturnsDeposit (fun liquidity => V3.getAmount0Delta (2 ^ 96) (2 ^ 97) liquidity none) 1000 :=
  (@returnsDeposit_iff (2 ^ 96) (2 ^ 97) 1000 (by decide) (by decide) (by decide)).1.mpr
    (by decide)

/-- The withdrawal of token 1 raises. -/
theorem not_returnsDeposit_amount1 :
    ¬∀ a b liquidity : ℤ, PriceBounds a → PriceBounds b → 0 < liquidity ∧ liquidity ≤ maxInt128 →
      ReturnsDeposit (fun liquidity => V3.getAmount0Delta a b liquidity none) liquidity ∧
        ReturnsDeposit (fun liquidity => V3.getAmount1Delta a b liquidity none) liquidity := by
  intro h
  obtain ⟨-, deposited, withdrawn, -, hwithdrawn, -⟩ :=
    h (2 ^ 96) (2 ^ 97) 1 ⟨by decide, by decide⟩ ⟨by decide, by decide⟩ (by decide)
  have hraises : V3.getAmount1Delta (2 ^ 96) (2 ^ 97) (-1) none =
      .error (.evmRevertError "required: liquidity >= 0") := by decide
  cases hraises.symm.trans hwithdrawn

end SignedDeltas

end Degenbot
