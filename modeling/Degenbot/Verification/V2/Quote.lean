import Degenbot.Algorithm.V2Simulation
import Degenbot.Library.Rounding
import Degenbot.Verification.Wide

/-! # Constant-product quotes and their inverse -/

namespace Degenbot.V2Simulation

open Library Wide

section Quote

/-! ## Fees -/

/-- The part of an input that is left after the fee, in units of `1 / 10_000`. -/
def keptBps (feeBps : BitVec 32) : ℕ := 10000 - feeBps.toNat

variable {feeBps : BitVec 32}

theorem toNat_feeNum (hfee : feeBps.toNat < 10000) : (feeNum feeBps).toNat = keptBps feeBps := by
  have hwide : (feeBps.setWidth 64).toNat = feeBps.toNat := by
    rw [BitVec.toNat_setWidth]
    exact Nat.mod_eq_of_lt (lt_trans hfee (by decide))
  have hle : feeBps.setWidth 64 ≤ (10000 : BitVec 64) := by
    rw [BitVec.le_def, hwide]
    exact hfee.le
  rw [feeNum, BitVec.toNat_sub_of_le hle, hwide, keptBps]
  rfl

theorem keptBps_pos (hfee : feeBps.toNat < 10000) : 0 < keptBps feeBps := Nat.sub_pos_of_lt hfee

theorem keptBps_le (feeBps : BitVec 32) : keptBps feeBps ≤ 10000 := Nat.sub_le _ _

theorem toNat_feeNum_u256 (hfee : feeBps.toNat < 10000) :
    ((feeNum feeBps).setWidth 256).toNat = keptBps feeBps := by
  rw [BitVec.toNat_setWidth, toNat_feeNum hfee]
  exact Nat.mod_eq_of_lt (lt_of_le_of_lt (keptBps_le feeBps) (by decide))

theorem le_feeBps_iff : 10000 ≤ feeBps ↔ 10000 ≤ feeBps.toNat := BitVec.le_def

theorem validateFeeBps_eq_ok {result : Unit} :
    validateFeeBps feeBps = .ok result ↔ feeBps.toNat < 10000 := by
  unfold validateFeeBps
  split_ifs with hfee
  · simpa using le_feeBps_iff.mp hfee
  · simpa using mt le_feeBps_iff.mpr hfee

theorem validateReserves_eq_ok {reserveIn reserveOut : U256} {result : Unit} :
    validateReserves reserveIn reserveOut = .ok result ↔ reserveIn ≠ 0 ∧ reserveOut ≠ 0 := by
  unfold validateReserves
  split_ifs with hzero
  · simpa using fun h => hzero.resolve_left h
  · simpa using hzero

/-! ## `amount_out` -/

/-- The quotient over unbounded naturals, for `kept / 10_000` of the input. -/
def exactOut (kept reserveIn reserveOut x : ℕ) : ℕ :=
  x * kept * reserveOut / (reserveIn * 10000 + x * kept)

theorem amountOut_eq_ok {x reserveIn reserveOut y : U256} :
    amountOut x reserveIn reserveOut feeBps = .ok y ↔
      (reserveIn ≠ 0 ∧ reserveOut ≠ 0) ∧ feeBps.toNat < 10000 ∧ x ≠ 0 ∧
        reserveIn.toNat * 10000 + x.toNat * keptBps feeBps < 2 ^ 256 ∧
        y.toNat = exactOut (keptBps feeBps) reserveIn.toNat reserveOut.toNat x.toNat := by
  unfold amountOut
  simp only [bind_eq_ok, validateReserves_eq_ok, validateFeeBps_eq_ok, exists_and_left,
    exists_const]
  refine and_congr_right fun hreserves => and_congr_right fun hfee => ?_
  have hkept := toNat_feeNum_u256 hfee
  split_ifs with hzero
  · simp [hzero]
  rw [and_iff_right hzero]
  simp only [bind_eq_ok, okOrElse_eq_ok, Option.bind_eq_some_iff, checkedMul_eq_some,
    checkedAdd_eq_some, mulDiv_eq_ok, hkept, exactOut]
  constructor
  · rintro ⟨withFee, ⟨_, hwithFee⟩, denominator, ⟨base, ⟨_, hbase⟩, hfits, hdenominator⟩, _, hy⟩
    rw [hbase, hwithFee] at hfits hdenominator
    rw [hy, hwithFee, hdenominator]
    exact ⟨hfits, rfl⟩
  · rintro ⟨hfits, hy⟩
    have hwithFee : x.toNat * keptBps feeBps < 2 ^ 256 := (Nat.le_add_left _ _).trans_lt hfits
    have hbase : reserveIn.toNat * 10000 < 2 ^ 256 := (Nat.le_add_right _ _).trans_lt hfits
    have hnonzero : reserveIn.toNat * 10000 + x.toNat * keptBps feeBps ≠ 0 := by
      have hreserve : 0 < reserveIn.toNat := toNat_pos hreserves.1
      omega
    refine ⟨BitVec.ofNat 256 (x.toNat * keptBps feeBps), ⟨hwithFee, toNat_ofNat hwithFee⟩,
      BitVec.ofNat 256 (reserveIn.toNat * 10000 + x.toNat * keptBps feeBps),
      ⟨BitVec.ofNat 256 (reserveIn.toNat * 10000), ⟨hbase, toNat_ofNat hbase⟩, ?_⟩, ?_, ?_⟩
    · rw [toNat_ofNat hbase, toNat_ofNat hwithFee]
      exact ⟨hfits, toNat_ofNat hfits⟩
    · intro heq
      exact hnonzero ((toNat_ofNat hfits).symm.trans (congrArg BitVec.toNat heq))
    · rw [hy, toNat_ofNat hwithFee, toNat_ofNat hfits]

end Quote

/-! ## `amount_in_for_out` against `amount_out` -/

section Inverse

variable {feeBps : BitVec 32} {reserveIn reserveOut o : U256}

/-- The smallest input over unbounded naturals. -/
def exactIn (kept reserveIn reserveOut o : ℕ) : ℕ :=
  reserveIn * o * 10000 / ((reserveOut - o) * kept) +
    if reserveIn * o * 10000 % ((reserveOut - o) * kept) = 0 then 0 else 1

/-- The two roundings are adjoint. -/
theorem exactIn_le_iff {kept reserveIn reserveOut o x : ℕ} (hkept : 0 < kept)
    (hreserve : 0 < reserveIn) (ho : o < reserveOut) :
    exactIn kept reserveIn reserveOut o ≤ x ↔ o ≤ exactOut kept reserveIn reserveOut x := by
  have hdenom : 0 < reserveIn * 10000 + x * kept := by omega
  rw [exactIn, div_add_one_le_iff (Nat.mul_pos (Nat.sub_pos_of_lt ho) hkept), exactOut,
    Nat.le_div_iff_mul_le hdenom]
  obtain ⟨rest, rfl⟩ := Nat.exists_eq_add_of_le ho.le
  rw [Nat.add_sub_cancel_left]
  constructor <;> intro h <;> nlinarith

theorem exactIn_le {kept reserveIn reserveOut o : ℕ} (hkept : 0 < kept)
    (ho : o < reserveOut) : exactIn kept reserveIn reserveOut o ≤ reserveIn * o * 10000 := by
  have hscale : 0 < (reserveOut - o) * kept := Nat.mul_pos (Nat.sub_pos_of_lt ho) hkept
  rw [exactIn, div_add_one_le_iff hscale]
  exact Nat.le_mul_of_pos_right _ hscale

theorem lt_of_uint112 {a b : ℕ} (ha : a < 2 ^ 112) (hb : b < 2 ^ 112) :
    a * b * 10000 < 2 ^ 256 := by
  have hmul : a * b < 2 ^ 112 * 2 ^ 112 := Nat.mul_lt_mul'' ha hb
  omega

theorem amountInForOut_eq_ok (hreserves : reserveIn ≠ 0 ∧ reserveOut ≠ 0)
    (hin : reserveIn.toNat < 2 ^ 112) (hout : reserveOut.toNat < 2 ^ 112)
    (hfee : feeBps.toNat < 10000) (ho : o ≠ 0) (hlt : o < reserveOut) :
    ∃ m, amountInForOut o reserveIn reserveOut feeBps = .ok m ∧
      m.toNat = exactIn (keptBps feeBps) reserveIn.toNat reserveOut.toNat o.toNat := by
  have hlt' : o.toNat < reserveOut.toNat := BitVec.lt_def.mp hlt
  have hproduct := lt_of_uint112 hin (hlt'.trans hout)
  have hkept := keptBps_pos hfee
  have hnumerator : (widen reserveIn * widen o * widen feeDenom).toNat =
      reserveIn.toNat * o.toNat * 10000 := by
    have hfits : (widen reserveIn * widen o).toNat * (widen feeDenom).toNat < 2 ^ 512 := by
      rw [toNat_widen_mul, toNat_widen_u256]
      exact lt_wide hproduct (by decide)
    rw [toNat_mul_of_fits hfits, toNat_widen_mul, toNat_widen_u256]
    rfl
  have hdenominator : (widen (reserveOut - o) * widen (feeNum feeBps)).toNat =
      (reserveOut.toNat - o.toNat) * keptBps feeBps := by
    have hrest : (reserveOut - o).toNat = reserveOut.toNat - o.toNat :=
      BitVec.toNat_sub_of_le (BitVec.le_of_lt hlt)
    have hfits : (widen (reserveOut - o)).toNat * (widen (feeNum feeBps)).toNat < 2 ^ 512 := by
      rw [toNat_widen_u256, toNat_widen_u64, hrest, toNat_feeNum hfee]
      have hle := Nat.mul_le_mul (Nat.sub_le reserveOut.toNat o.toNat) (keptBps_le feeBps)
      exact lt_wide (w := 256) (by omega) (by decide)
    rw [toNat_mul_of_fits hfits, toNat_widen_u256, toNat_widen_u64, hrest, toNat_feeNum hfee]
  have hrounded : ∀ numerator denominator : U512,
      numerator.toNat = reserveIn.toNat * o.toNat * 10000 →
      denominator.toNat = (reserveOut.toNat - o.toNat) * keptBps feeBps →
      (numerator / denominator + if numerator % denominator = 0 then 0 else 1).toNat =
        exactIn (keptBps feeBps) reserveIn.toNat reserveOut.toNat o.toNat := by
    intro numerator denominator hn hd
    have hremainder : numerator % denominator = 0 ↔ numerator.toNat % denominator.toNat = 0 := by
      rw [← BitVec.toNat_inj, BitVec.toNat_umod]
      simp
    have hone : (if numerator % denominator = 0 then 0 else 1 : U512).toNat =
        if numerator.toNat % denominator.toNat = 0 then 0 else 1 := by
      simp only [hremainder]
      split_ifs <;> simp
    have hexact : (numerator / denominator).toNat +
        (if numerator % denominator = 0 then 0 else 1 : U512).toNat =
          exactIn (keptBps feeBps) reserveIn.toNat reserveOut.toNat o.toNat := by
      rw [hone, BitVec.toNat_udiv, hn, hd, exactIn]
    rw [toNat_add_of_fits, hexact]
    rw [hexact]
    exact lt_wide ((exactIn_le hkept hlt').trans_lt hproduct) (by decide)
  have hfits : exactIn (keptBps feeBps) reserveIn.toNat reserveOut.toNat o.toNat < 2 ^ 256 :=
    (exactIn_le hkept hlt').trans_lt hproduct
  refine ⟨BitVec.ofNat 256 _, ?_, toNat_ofNat hfits⟩
  unfold amountInForOut
  have hvalid : validateReserves reserveIn reserveOut = .ok () := validateReserves_eq_ok.mpr hreserves
  have hvalidFee : validateFeeBps feeBps = .ok () := validateFeeBps_eq_ok.mpr hfee
  rw [hvalid, hvalidFee, ok_bind, ok_bind, if_neg ho, if_neg (BitVec.not_le.mpr hlt)]
  have hpos : widen (reserveOut - o) * widen (feeNum feeBps) ≠ 0 := by
    intro hzero
    have hscale : 0 < (reserveOut.toNat - o.toNat) * keptBps feeBps :=
      Nat.mul_pos (Nat.sub_pos_of_lt hlt') hkept
    rw [← hdenominator, hzero] at hscale
    simp at hscale
  dsimp only
  rw [if_neg hpos, narrowU512_eq_ok, toNat_ofNat hfits]
  exact (hrounded _ _ hnumerator hdenominator).symm

/-! ## Main result -/

/-- A quote that is returned and at least `o`. -/
def Reaches (quote : Except String U256) (o : U256) : Prop := ∃ y, quote = .ok y ∧ o ≤ y

/-- An input that is returned and at most `x`. -/
def Covered (required : Except String U256) (x : U256) : Prop := ∃ m, required = .ok m ∧ m ≤ x

/-- For an output above zero, the input is the smallest one, among those that are quoted. -/
theorem amountInForOut_minimal (hreserves : reserveIn ≠ 0 ∧ reserveOut ≠ 0)
    (hin : reserveIn.toNat < 2 ^ 112) (hout : reserveOut.toNat < 2 ^ 112)
    (hfee : feeBps.toNat < 10000) (ho : o ≠ 0) (hlt : o < reserveOut) {x : U256}
    (hquoted : x = 0 ∨ ∃ y, amountOut x reserveIn reserveOut feeBps = .ok y) :
    (∃ m, amountInForOut o reserveIn reserveOut feeBps = .ok m) ∧
      (Reaches (amountOut x reserveIn reserveOut feeBps) o ↔
        Covered (amountInForOut o reserveIn reserveOut feeBps) x) := by
  obtain ⟨m, hm, hexact⟩ := amountInForOut_eq_ok hreserves hin hout hfee ho hlt
  refine ⟨⟨m, hm⟩, ?_⟩
  have hadjoint := exactIn_le_iff (x := x.toNat) (keptBps_pos hfee) (toNat_pos hreserves.1)
    (BitVec.lt_def.mp hlt)
  have hcovered : Covered (amountInForOut o reserveIn reserveOut feeBps) x ↔
      o.toNat ≤ exactOut (keptBps feeBps) reserveIn.toNat reserveOut.toNat x.toNat := by
    rw [← hadjoint, ← hexact, ← BitVec.le_def]
    constructor
    · rintro ⟨m', hm', hle⟩
      rwa [Except.ok.inj (hm.symm.trans hm')]
    · intro hle
      exact ⟨m, hm, hle⟩
  rw [hcovered]
  rcases hquoted with rfl | ⟨y, hy⟩
  · constructor
    · rintro ⟨y, hy, _⟩
      exact absurd rfl (amountOut_eq_ok.mp hy).2.2.1
    · intro hle
      rw [exactOut, show (0 : U256).toNat = 0 from rfl, Nat.zero_mul, Nat.zero_mul,
        Nat.zero_div] at hle
      exact absurd (toNat_pos ho) (Nat.not_lt.mpr hle)
  · have hvalue := (amountOut_eq_ok.mp hy).2.2.2.2
    rw [← hvalue, ← BitVec.le_def]
    constructor
    · rintro ⟨y', hy', hle⟩
      rwa [Except.ok.inj (hy.symm.trans hy')]
    · intro hle
      exact ⟨y, hy, hle⟩

theorem amountInForOut_minimal_1813 :
    (∃ m, amountInForOut 1813 10000 20000 30 = .ok m) ∧
      (Reaches (amountOut 1000 10000 20000 30) 1813 ↔
        Covered (amountInForOut 1813 10000 20000 30) 1000) :=
  amountInForOut_minimal (by decide) (by decide) (by decide) (by decide) (by decide) (by decide)
    (.inr ⟨1813, by decide +kernel⟩)

/-- No input is required for the output 0, and the largest inputs are not quoted. -/
theorem amountInForOut_not_minimal :
    (Reaches (amountOut 1 10000 20000 30) 0 ∧ ¬Covered (amountInForOut 0 10000 20000 30) 1) ∧
      (Covered (amountInForOut 1 10000 20000 30) (BitVec.allOnes 256) ∧
        ¬Reaches (amountOut (BitVec.allOnes 256) 10000 20000 30) 1) := by
  refine ⟨⟨⟨1, by decide +kernel, by decide⟩, ?_⟩, ⟨1, by decide +kernel, by decide⟩, ?_⟩
  · rintro ⟨m, hm, _⟩
    cases hm
  · rintro ⟨y, hy, _⟩
    have herror : amountOut (BitVec.allOnes 256) 10000 20000 30 =
        .error "v2::amount_out: amount_in * fee_num overflow" := by decide +kernel
    cases herror.symm.trans hy

end Inverse

/-! ## The quote a frontrun leaves

A victim swaps `v` for at least `l` on reserves `x` and `y`, after a frontrun of `a`. -/

section Frontrun

/-- The quote of the victim after a frontrun of `a`; no frontrun if `a` is zero. -/
def frontrunQuote (a victimAmountIn reserveIn reserveOut : U256) (feeBps : BitVec 32) :
    Except String U256 :=
  if a = 0 then amountOut victimAmountIn reserveIn reserveOut feeBps
  else
    amountOut a reserveIn reserveOut feeBps >>= fun out =>
      amountOut victimAmountIn (reserveIn + a) (reserveOut - out) feeBps

/-! ## Over the naturals -/

variable {kept x y v l a : ℕ}

/-- The victim is still filled after a frontrun of `a`. -/
structure Survives (kept x y v l a : ℕ) : Prop where
  fits : (x + a) * 10000 + v * kept < 2 ^ 256
  filled : l ≤ exactOut kept (x + a) (y - exactOut kept x y a) v

theorem exactOut_zero : exactOut kept x y 0 = 0 := by
  rw [exactOut, Nat.zero_mul, Nat.zero_mul, Nat.zero_div]

theorem exactOut_lt (hx : 0 < x) (hy : 0 < y) : exactOut kept x y a < y := by
  rw [exactOut, Nat.div_lt_iff_lt_mul (by omega)]
  nlinarith [Nat.mul_pos hx hy]

theorem exactOut_mono (hx : 0 < x) {b : ℕ} (hab : a ≤ b) :
    exactOut kept x y a ≤ exactOut kept x y b := by
  rcases Nat.eq_zero_or_pos y with rfl | hy
  · rw [exactOut, Nat.mul_zero, Nat.zero_div]
    exact Nat.zero_le _
  have hle : exactOut kept x y a ≤ y := (exactOut_lt hx hy).le
  have hquotient : exactOut kept x y a * (x * 10000 + a * kept) ≤ a * kept * y :=
    Nat.div_mul_le_self _ _
  rw [exactOut.eq_def kept x y b, Nat.le_div_iff_mul_le (by omega)]
  obtain ⟨rest, rfl⟩ := Nat.exists_eq_add_of_le hab
  calc exactOut kept x y a * (x * 10000 + (a + rest) * kept)
      = exactOut kept x y a * (x * 10000 + a * kept) +
          rest * kept * exactOut kept x y a := by ring
    _ ≤ a * kept * y + rest * kept * y := Nat.add_le_add hquotient (Nat.mul_le_mul_left _ hle)
    _ = (a + rest) * kept * y := by ring

theorem filled_iff (hx : 0 < x) :
    l ≤ exactOut kept (x + a) (y - exactOut kept x y a) v ↔
      l * ((x + a) * 10000 + v * kept) ≤ v * kept * (y - exactOut kept x y a) := by
  rw [exactOut.eq_def kept (x + a), Nat.le_div_iff_mul_le (by omega)]

/-- A smaller frontrun leaves more. -/
theorem Survives.anti (hx : 0 < x) {b : ℕ} (hab : a ≤ b) (h : Survives kept x y v l b) :
    Survives kept x y v l a := by
  have hdenominator : (x + a) * 10000 + v * kept ≤ (x + b) * 10000 + v * kept := by omega
  refine ⟨hdenominator.trans_lt h.fits, (filled_iff hx).mpr ?_⟩
  calc l * ((x + a) * 10000 + v * kept) ≤ l * ((x + b) * 10000 + v * kept) :=
        Nat.mul_le_mul_left _ hdenominator
    _ ≤ v * kept * (y - exactOut kept x y b) := (filled_iff hx).mp h.filled
    _ ≤ v * kept * (y - exactOut kept x y a) :=
        Nat.mul_le_mul_left _ (Nat.sub_le_sub_left (exactOut_mono hx hab) y)

theorem survives_zero_iff (hfits : x * 10000 + v * kept < 2 ^ 256) :
    Survives kept x y v l 0 ↔ l ≤ exactOut kept x y v := by
  constructor
  · intro h
    simpa [exactOut_zero] using h.filled
  · intro h
    exact ⟨hfits, by simpa [exactOut_zero] using h⟩

/-! ## The quote after a frontrun of a word -/

theorem reaches_frontrunQuote_iff {a v x y l : U256} {feeBps : BitVec 32}
    (hfee : feeBps.toNat < 10000) (hx : x ≠ 0) (hy : y ≠ 0) (hv : v ≠ 0) :
    Reaches (frontrunQuote a v x y feeBps) l ↔
      Survives (keptBps feeBps) x.toNat y.toNat v.toNat l.toNat a.toNat := by
  have hkept := keptBps_pos hfee
  have hxPos := toNat_pos hx
  have hyPos := toNat_pos hy
  unfold Reaches frontrunQuote
  split_ifs with ha
  · subst ha
    constructor
    · rintro ⟨z, hz, hle⟩
      obtain ⟨_, _, _, hfits, hvalue⟩ := amountOut_eq_ok.mp hz
      rw [BitVec.le_def, hvalue] at hle
      exact (survives_zero_iff hfits).mpr hle
    · intro h
      have hfits : x.toNat * 10000 + v.toNat * keptBps feeBps < 2 ^ 256 := h.fits
      have hbound : exactOut (keptBps feeBps) x.toNat y.toNat v.toNat < 2 ^ 256 :=
        (exactOut_lt hxPos hyPos).trans y.isLt
      refine ⟨BitVec.ofNat 256 _,
        amountOut_eq_ok.mpr ⟨⟨hx, hy⟩, hfee, hv, hfits, toNat_ofNat hbound⟩, ?_⟩
      rw [BitVec.le_def, toNat_ofNat hbound]
      exact (survives_zero_iff hfits).mp h
  · simp only [bind_eq_ok]
    have hout : exactOut (keptBps feeBps) x.toNat y.toNat a.toNat < y.toNat :=
      exactOut_lt hxPos hyPos
    -- the reserves after the frontrun do not wrap
    have hreserves : ∀ out : U256, x.toNat * 10000 + a.toNat * keptBps feeBps < 2 ^ 256 →
        out.toNat = exactOut (keptBps feeBps) x.toNat y.toNat a.toNat →
        (x + a).toNat = x.toNat + a.toNat ∧ (y - out).toNat = y.toNat - out.toNat ∧
          x + a ≠ 0 ∧ y - out ≠ 0 := by
      intro out hfits hvalue
      have hscaled : a.toNat ≤ a.toNat * keptBps feeBps := Nat.le_mul_of_pos_right _ hkept
      have hsum : (x + a).toNat = x.toNat + a.toNat := toNat_add_of_fits (by omega)
      have hrest : (y - out).toNat = y.toNat - out.toNat :=
        BitVec.toNat_sub_of_le (BitVec.le_def.mpr (hvalue ▸ hout.le))
      refine ⟨hsum, hrest, ne_zero_of_toNat_pos ?_, ne_zero_of_toNat_pos ?_⟩
      · rw [hsum]
        exact Nat.add_pos_left hxPos _
      · rw [hrest, hvalue]
        exact Nat.sub_pos_of_lt hout
    constructor
    · rintro ⟨z, ⟨out, hfront, hvictim⟩, hle⟩
      obtain ⟨_, _, _, hfits, hvalue⟩ := amountOut_eq_ok.mp hfront
      obtain ⟨hsum, hrest, _, _⟩ := hreserves out hfits hvalue
      obtain ⟨_, _, _, hfits', hvalue'⟩ := amountOut_eq_ok.mp hvictim
      rw [hsum] at hfits'
      rw [BitVec.le_def, hvalue', hsum, hrest, hvalue] at hle
      exact ⟨hfits', hle⟩
    · intro h
      have hscaled : a.toNat * keptBps feeBps ≤ a.toNat * 10000 :=
        Nat.mul_le_mul_left _ (keptBps_le feeBps)
      have hfits : x.toNat * 10000 + a.toNat * keptBps feeBps < 2 ^ 256 := by
        refine lt_of_le_of_lt ?_ h.fits
        omega
      have hbound := hout.trans y.isLt
      have hvalue := toNat_ofNat hbound
      obtain ⟨hsum, hrest, hin, hleft⟩ := hreserves _ hfits hvalue
      have hfilled : exactOut (keptBps feeBps) (x.toNat + a.toNat)
          (y.toNat - exactOut (keptBps feeBps) x.toNat y.toNat a.toNat) v.toNat < 2 ^ 256 :=
        (exactOut_lt (by omega) (by omega)).trans_le ((Nat.sub_le _ _).trans y.isLt.le)
      have hfront := amountOut_eq_ok.mpr ⟨⟨hx, hy⟩, hfee, ha, hfits, hvalue⟩
      refine ⟨BitVec.ofNat 256 _, ⟨_, hfront, amountOut_eq_ok.mpr ⟨⟨hin, hleft⟩, hfee, hv, ?_,
        (toNat_ofNat hfilled).trans ?_⟩⟩, ?_⟩
      · rw [hsum]
        exact h.fits
      · rw [hsum, hrest, hvalue]
      · rw [BitVec.le_def, toNat_ofNat hfilled]
        exact h.filled

end Frontrun

end Degenbot.V2Simulation
