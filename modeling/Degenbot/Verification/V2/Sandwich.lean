import Degenbot.Verification.V2.Quote

/-! # The largest frontrun that the victim survives

Without rounding a frontrun `a` leaves `y x / (x + a)` for the victim, up to the fees. The
condition on `a` is a quadratic inequality. -/

namespace Degenbot.V2Simulation

open Library Wide

section Quadratic

variable {kept x y v l a : ℕ}

/-- `Survives` without the two roundings. -/
def Clears (kept x y v l a : ℕ) : Prop :=
  l * (x * 10000 + a * kept) * ((x + a) * 10000 + v * kept) ≤ y * (x * 10000) * (v * kept)

def squareCoeff (kept l : ℕ) : ℕ := l * kept * 10000

def linearCoeff (kept x v l : ℕ) : ℕ := l * (x * 10000 * (10000 + kept) + v * kept * kept)

def negativeCost (kept x v l : ℕ) : ℕ := l * (x * 10000) * (x * 10000 + v * kept)

def positiveCost (kept x y v : ℕ) : ℕ := y * (x * 10000) * (v * kept)

theorem clears_iff : Clears kept x y v l a ↔
    squareCoeff kept l * (a * a) + linearCoeff kept x v l * a + negativeCost kept x v l ≤
      positiveCost kept x y v := by
  have hexpand : l * (x * 10000 + a * kept) * ((x + a) * 10000 + v * kept) =
      squareCoeff kept l * (a * a) + linearCoeff kept x v l * a + negativeCost kept x v l := by
    unfold squareCoeff linearCoeff negativeCost
    ring
  rw [Clears, hexpand, positiveCost]

theorem Clears.anti {b : ℕ} (hab : a ≤ b) (h : Clears kept x y v l b) : Clears kept x y v l a := by
  unfold Clears at h ⊢
  have hfirst : l * (x * 10000 + a * kept) ≤ l * (x * 10000 + b * kept) :=
    Nat.mul_le_mul_left _ (Nat.add_le_add_left (Nat.mul_le_mul_right _ hab) _)
  exact (Nat.mul_le_mul hfirst (by omega)).trans h

/-- The roundings favour the victim. -/
theorem Clears.survives (hx : 0 < x) (hl : 0 < l) (hfits : y * v * kept < 2 ^ 256)
    (h : Clears kept x y v l a) : Survives kept x y v l a := by
  have hreserve : 0 < x * 10000 := Nat.mul_pos hx (by decide)
  have hscale : 0 < x * 10000 + a * kept := Nat.add_pos_left hreserve _
  constructor
  · refine lt_of_le_of_lt ?_ hfits
    apply Nat.le_of_mul_le_mul_right _ hreserve
    calc ((x + a) * 10000 + v * kept) * (x * 10000)
        ≤ ((x + a) * 10000 + v * kept) * (l * (x * 10000 + a * kept)) :=
          Nat.mul_le_mul_left _ ((Nat.le_add_right _ _).trans (Nat.le_mul_of_pos_left _ hl))
      _ = l * (x * 10000 + a * kept) * ((x + a) * 10000 + v * kept) := Nat.mul_comm _ _
      _ ≤ y * (x * 10000) * (v * kept) := h
      _ = y * v * kept * (x * 10000) := by ring
  · have hquotient : exactOut kept x y a * (x * 10000 + a * kept) ≤ a * kept * y :=
      Nat.div_mul_le_self _ _
    have hleft : y * (x * 10000) ≤ (y - exactOut kept x y a) * (x * 10000 + a * kept) := by
      rw [Nat.sub_mul]
      have hsplit : y * (x * 10000 + a * kept) = y * (x * 10000) + a * kept * y := by ring
      omega
    rw [filled_iff hx]
    apply Nat.le_of_mul_le_mul_right _ hscale
    calc l * ((x + a) * 10000 + v * kept) * (x * 10000 + a * kept)
        = l * (x * 10000 + a * kept) * ((x + a) * 10000 + v * kept) := by ring
      _ ≤ y * (x * 10000) * (v * kept) := h
      _ ≤ (y - exactOut kept x y a) * (x * 10000 + a * kept) * (v * kept) :=
          Nat.mul_le_mul_right _ hleft
      _ = v * kept * (y - exactOut kept x y a) * (x * 10000 + a * kept) := by ring

theorem negativeCost_lt (hx : 0 < x) (hl : l < exactOut kept x y v) :
    negativeCost kept x v l < positiveCost kept x y v := by
  rw [exactOut, Nat.lt_iff_add_one_le, Nat.le_div_iff_mul_le (by omega)] at hl
  have hstrict : l * (x * 10000 + v * kept) < v * kept * y := by nlinarith
  calc negativeCost kept x v l = x * 10000 * (l * (x * 10000 + v * kept)) := by
        unfold negativeCost
        ring
    _ < x * 10000 * (v * kept * y) := Nat.mul_lt_mul_of_pos_left hstrict (by omega)
    _ = positiveCost kept x y v := by
        unfold positiveCost
        ring

theorem squareCoeff_le (hx : 0 < x) : squareCoeff kept l ≤ linearCoeff kept x v l := by
  unfold squareCoeff linearCoeff
  rw [Nat.mul_assoc]
  apply Nat.mul_le_mul_left
  nlinarith [Nat.zero_le (v * kept * kept), Nat.mul_le_mul_right (kept * 10000) hx]

/-- Where a multiple of `2 ^ 256` is lost, the step after the root is still below the loss. -/
theorem root_step_le {s b c n : ℕ} (hs : s ≤ b) (hb : b < 2 ^ 254) (hc : c < 2 ^ 256)
    (hroot : s * (n * n) + b * n ≤ c) :
    s * ((n + 1) * (n + 1)) + b * (n + 1) ≤ c + 2 ^ 256 := by
  have hstep : s * ((n + 1) * (n + 1)) + b * (n + 1) =
      s * (n * n) + b * n + (2 * (s * n) + s + b) := by ring
  have hloss : 2 * (s * n) + s + b ≤ 2 ^ 256 := by
    rcases Nat.lt_or_ge n 2 with hsmall | hlarge
    · have hsn : s * n ≤ s := (Nat.mul_le_mul_left s (Nat.lt_succ_iff.mp hsmall)).trans_eq s.mul_one
      omega
    · have hsn : s * n * 2 ≤ s * n * n := Nat.mul_le_mul_left _ hlarge
      have hbn : b * 2 ≤ b * n := Nat.mul_le_mul_left _ hlarge
      rw [Nat.mul_assoc s n n] at hsn
      omega
  omega

end Quadratic

/-! ## The coefficients in 256 bits -/

/-- What the products need for the first coefficients to be exact; every `uint112` input
and minimum of the victim has it. -/
structure FirstProductsFit (kept x y v l : ℕ) : Prop where
  numerator : y * v * kept < 2 ^ 256
  denominator : x * 10000 + v * kept < 2 ^ 256
  linear : linearCoeff kept x v l < 2 ^ 254

theorem firstProductsFit_of_uint112 {kept x y v l : ℕ} (hkept : kept ≤ 10000)
    (hx : x < 2 ^ 112) (hy : y < 2 ^ 112) (hv : v < 2 ^ 112) (hl : l < 2 ^ 112) :
    FirstProductsFit kept x y v l where
  numerator := by
    have hyv : y * v < 2 ^ 112 * 2 ^ 112 := Nat.mul_lt_mul'' hy hv
    have hscaled := Nat.mul_le_mul hyv.le hkept
    omega
  denominator := by
    have hscaled := Nat.mul_le_mul hv.le hkept
    omega
  linear := by
    have hscaled := Nat.mul_le_mul hx.le (Nat.add_le_add_left hkept 10000)
    have hfees := Nat.mul_le_mul (Nat.mul_le_mul hv.le hkept) hkept
    have hfactor : x * 10000 * (10000 + kept) + v * kept * kept ≤ 2 ^ 141 := by
      have hcomm : x * 10000 * (10000 + kept) = x * (10000 + kept) * 10000 := by ring
      omega
    calc linearCoeff kept x v l ≤ 2 ^ 112 * 2 ^ 141 := Nat.mul_le_mul hl.le hfactor
      _ < 2 ^ 254 := by decide

section Coefficients

variable {v l x y : U256} {feeBps : BitVec 32}

theorem toNat_keptWord (hfee : feeBps.toNat < 10000) :
    ((10000 - feeBps).setWidth 256 : U256).toNat = keptBps feeBps := by
  have hle : feeBps ≤ (10000 : BitVec 32) := BitVec.le_def.mpr hfee.le
  rw [BitVec.toNat_setWidth, BitVec.toNat_sub_of_le hle]
  exact Nat.mod_eq_of_lt (lt_of_le_of_lt (Nat.sub_le _ _) (by decide))

theorem toNat_scale : (10000 : U256).toNat = 10000 := rfl

theorem toNat_negativeCost {f : U256} {kept : ℕ} (hf : f.toNat = kept) :
    (l * (x * 10000) * (x * 10000 + v * f)).toNat =
      negativeCost kept x.toNat v.toNat l.toNat % 2 ^ 256 := by
  simp only [BitVec.toNat_mul, BitVec.toNat_add, hf, toNat_scale, Nat.mod_mul_mod,
    Nat.mul_mod_mod, Nat.add_mod_mod, Nat.mod_add_mod, negativeCost]

theorem toNat_positiveCost {f : U256} {kept : ℕ} (hf : f.toNat = kept) :
    (y * (x * 10000) * (v * f)).toNat = positiveCost kept x.toNat y.toNat v.toNat % 2 ^ 256 := by
  simp only [BitVec.toNat_mul, hf, toNat_scale, Nat.mod_mul_mod, Nat.mul_mod_mod, positiveCost]

theorem toNat_linearCoeff {f : U256} {kept : ℕ} (hf : f.toNat = kept) :
    (l * (x * 10000 * (10000 + f) + v * f * f)).toNat =
      linearCoeff kept x.toNat v.toNat l.toNat % 2 ^ 256 := by
  simp only [BitVec.toNat_mul, BitVec.toNat_add, hf, toNat_scale, Nat.mod_mul_mod,
    Nat.mul_mod_mod, Nat.add_mod_mod, Nat.mod_add_mod, linearCoeff]

theorem toNat_squareCoeff {f : U256} {kept : ℕ} (hf : f.toNat = kept) :
    (l * f * 10000).toNat = squareCoeff kept l.toNat % 2 ^ 256 := by
  simp only [BitVec.toNat_mul, hf, toNat_scale, Nat.mod_mul_mod, squareCoeff]

theorem toNat_denominator {f : U256} {kept : ℕ} (hf : f.toNat = kept) :
    (x * 10000 + v * f).toNat = (x.toNat * 10000 + v.toNat * kept) % 2 ^ 256 := by
  simp only [BitVec.toNat_mul, BitVec.toNat_add, hf, toNat_scale, Nat.add_mod_mod,
    Nat.mod_add_mod]

/-- The output of the victim on the reserves, from products that wrap. -/
def wrappedBaseline (kept x y v : ℕ) : ℕ :=
  y * v * kept % 2 ^ 256 / ((x * 10000 + v * kept) % 2 ^ 256)

theorem toNat_baseline {f : U256} {kept : ℕ} (hf : f.toNat = kept) :
    (y * v * f / (x * 10000 + v * f)).toNat = wrappedBaseline kept x.toNat y.toNat v.toNat := by
  have hnum : (y * v * f).toNat = y.toNat * v.toNat * kept % 2 ^ 256 := by
    simp only [BitVec.toNat_mul, hf, Nat.mod_mul_mod]
  rw [BitVec.toNat_udiv, toNat_denominator hf, hnum, wrappedBaseline]

theorem FirstProductsFit.wrappedBaseline_eq {kept x y v l : ℕ}
    (h : FirstProductsFit kept x y v l) : wrappedBaseline kept x y v = exactOut kept x y v := by
  rw [wrappedBaseline, Nat.mod_eq_of_lt h.numerator, Nat.mod_eq_of_lt h.denominator, exactOut]
  congr 1
  ring

end Coefficients

/-! ## The root -/

/-- `v2SandwichMaxSize` from the square of the linear coefficient on. -/
def rootSize (aCoeff bCoeff negC : U256) : Option (Except String U256) :=
  match okOrElse (checkedMul (widen bCoeff) (widen bCoeff)) "b_coeff^2 overflow" with
  | .error report => some (.error report)
  | .ok square =>
      match okOrElse (checkedAdd square (4 * widen aCoeff * widen negC)) "disc overflow" with
      | .error report => some (.error report)
      | .ok disc =>
          if isqrtU512 disc ≤ widen bCoeff then some (.ok 0)
          else if 2 * widen aCoeff = 0 then none
          else
            some (narrowU512 ((isqrtU512 disc - widen bCoeff) / (2 * widen aCoeff))
              "v2_optimize: sandwich max size overflows U256")

/-- The discriminant, whose second product wraps. -/
def wrappedDisc (a b c : ℕ) : ℕ := b * b + 4 * a * c % 2 ^ 512

section RootSize

variable {aCoeff bCoeff negC : U256} {a b c : ℕ}

theorem square_eq_ok (hb : bCoeff.toNat = b) :
    okOrElse (checkedMul (widen bCoeff) (widen bCoeff)) "b_coeff^2 overflow" =
      .ok (BitVec.ofNat 512 (b * b)) := by
  have hlt : b * b < 2 ^ 512 := by
    have hword : b < 2 ^ 256 := hb ▸ bCoeff.isLt
    exact (Nat.mul_lt_mul'' hword hword).trans_eq (pow_add 2 256 256).symm
  rw [okOrElse_eq_ok, checkedMul_eq_some, toNat_widen_u256, hb, toNat_ofNat hlt]
  exact ⟨hlt, rfl⟩

theorem toNat_product (ha : aCoeff.toNat = a) (hc : negC.toNat = c) :
    (4 * widen aCoeff * widen negC).toNat = 4 * a * c % 2 ^ 512 := by
  have hfour : (4 : U512).toNat = 4 := toNat_ofNat (lt_wide (w := 3) (by decide) (by decide))
  simp only [BitVec.toNat_mul, toNat_widen_u256, ha, hc, hfour, Nat.mod_mul_mod]

theorem rootSize_eq_error (ha : aCoeff.toNat = a) (hb : bCoeff.toNat = b) (hc : negC.toNat = c)
    (hdisc : 2 ^ 512 ≤ wrappedDisc a b c) :
    rootSize aCoeff bCoeff negC = some (.error "disc overflow") := by
  have hlt : b * b < 2 ^ 512 := by
    have hword : b < 2 ^ 256 := hb ▸ bCoeff.isLt
    exact (Nat.mul_lt_mul'' hword hword).trans_eq (pow_add 2 256 256).symm
  rw [wrappedDisc] at hdisc
  have hsum : checkedAdd (BitVec.ofNat 512 (b * b)) (4 * widen aCoeff * widen negC) = none := by
    rw [Option.eq_none_iff_forall_ne_some]
    intro disc hdiscWord
    have hfits := (checkedAdd_eq_some.mp hdiscWord).1
    rw [toNat_product ha hc, toNat_ofNat hlt] at hfits
    exact absurd hfits (Nat.not_lt.mpr hdisc)
  unfold rootSize
  rw [square_eq_ok hb]
  dsimp only
  rw [hsum]
  rfl

/-- The result is the largest solution of the inequality with the three coefficients. -/
theorem rootSize_eq_ok (ha : aCoeff.toNat = a) (hb : bCoeff.toNat = b) (hc : negC.toNat = c)
    (hdisc : wrappedDisc a b c < 2 ^ 512) :
    ∃ size, rootSize aCoeff bCoeff negC = some (.ok size) ∧
      (0 < a → 4 * a * c < 2 ^ 512 → ∀ n, n ≤ size.toNat ↔ a * (n * n) + b * n ≤ c) := by
  have hsquareLt : b * b < 2 ^ 512 := (Nat.le_add_right _ _).trans_lt hdisc
  have hsum : okOrElse (checkedAdd (BitVec.ofNat 512 (b * b)) (4 * widen aCoeff * widen negC))
      "disc overflow" = .ok (BitVec.ofNat 512 (wrappedDisc a b c)) := by
    rw [okOrElse_eq_ok, checkedAdd_eq_some, toNat_product ha hc, toNat_ofNat hdisc,
      toNat_ofNat hsquareLt]
    exact ⟨hdisc, rfl⟩
  have htwo : (2 : U512).toNat = 2 := toNat_ofNat (lt_wide (w := 2) (by decide) (by decide))
  have hdouble : (2 * widen aCoeff).toNat = 2 * a := by
    have haLt : a < 2 ^ 256 := ha ▸ aCoeff.isLt
    rw [toNat_mul_of_fits, htwo, toNat_widen_u256, ha]
    rw [htwo, toNat_widen_u256, ha]
    exact lt_wide (w := 257) (by omega) (by decide)
  have hroot := toNat_isqrtU512 (BitVec.ofNat 512 (wrappedDisc a b c))
  rw [toNat_ofNat hdisc] at hroot
  have hsolve : 0 < a → 4 * a * c < 2 ^ 512 → ∀ n, n ≤ ((wrappedDisc a b c).sqrt - b) / (2 * a) ↔
      a * (n * n) + b * n ≤ c := by
    intro haPos hfits n
    rw [wrappedDisc, Nat.mod_eq_of_lt hfits, le_quadratic_root_iff haPos]
  unfold rootSize
  rw [square_eq_ok hb]
  dsimp only
  rw [hsum]
  dsimp only
  split_ifs with hsmall hzero
  · refine ⟨0, rfl, ?_⟩
    rw [BitVec.le_def, hroot, toNat_widen_u256, hb] at hsmall
    rw [Nat.sub_eq_zero_of_le hsmall, Nat.zero_div] at hsolve
    exact hsolve
  · -- without a square coefficient the root is the linear one
    exfalso
    have haZero : a = 0 := by
      by_contra hne
      refine absurd hzero (ne_zero_of_toNat_pos ?_)
      rw [hdouble]
      omega
    rw [BitVec.le_def, hroot, toNat_widen_u256, hb, wrappedDisc, haZero, Nat.mul_zero,
      Nat.zero_mul, Nat.zero_mod, Nat.add_zero, Nat.sqrt_eq] at hsmall
    exact hsmall le_rfl
  · have hquotient : ((isqrtU512 (BitVec.ofNat 512 (wrappedDisc a b c)) - widen bCoeff) /
        (2 * widen aCoeff)).toNat = ((wrappedDisc a b c).sqrt - b) / (2 * a) := by
      rw [BitVec.toNat_udiv, hdouble, BitVec.toNat_sub_of_le
        (BitVec.le_of_lt (BitVec.not_le.mp hsmall)), hroot, toNat_widen_u256, hb]
    have hlt : ((wrappedDisc a b c).sqrt - b) / (2 * a) < 2 ^ 256 := by
      have hsqrt : (wrappedDisc a b c).sqrt < 2 ^ 256 :=
        Nat.sqrt_lt.mpr (hdisc.trans_eq (pow_add 2 256 256))
      exact ((Nat.div_le_self _ _).trans (Nat.sub_le _ _)).trans_lt hsqrt
    refine ⟨BitVec.ofNat 256 (((wrappedDisc a b c).sqrt - b) / (2 * a)),
      congrArg some (narrowU512_eq_ok.mpr ?_), ?_⟩
    · exact (toNat_ofNat hlt).trans hquotient.symm
    · rw [toNat_ofNat hlt]
      exact hsolve

end RootSize

/-! ## The returned size -/

section Returned

variable {kept : ℕ}

/-- The inputs for which the size is 0 before a root is taken. -/
def Stops (kept x y v l : ℕ) : Prop :=
  l = 0 ∨ wrappedBaseline kept x y v ≤ l ∨
    positiveCost kept x y v % 2 ^ 256 ≤ negativeCost kept x v l % 2 ^ 256

instance (kept x y v l : ℕ) : Decidable (Stops kept x y v l) :=
  inferInstanceAs (Decidable (_ ∨ _))

/-- The inputs for which the call divides by zero or reports an overflow. -/
def Raises (kept x y v l : ℕ) : Prop :=
  (x * 10000 + v * kept) % 2 ^ 256 = 0 ∨
    ¬Stops kept x y v l ∧ 2 ^ 512 ≤ wrappedDisc (squareCoeff kept l % 2 ^ 256)
      (linearCoeff kept x v l % 2 ^ 256)
      (positiveCost kept x y v % 2 ^ 256 - negativeCost kept x v l % 2 ^ 256)

instance (kept x y v l : ℕ) : Decidable (Raises kept x y v l) :=
  inferInstanceAs (Decidable (_ ∨ _))

/-- `Clears` with the products that wrap. -/
def ClearsWrapped (kept x y v l a : ℕ) : Prop :=
  squareCoeff kept l * (a * a) + linearCoeff kept x v l % 2 ^ 256 * a +
      negativeCost kept x v l % 2 ^ 256 ≤ positiveCost kept x y v % 2 ^ 256

variable {v l x y : U256} {feeBps : BitVec 32}

theorem v2SandwichMaxSize_eq_rootSize (hfee : feeBps.toNat < 10000) (hx : x ≠ 0) (hy : y ≠ 0)
    (hv : v ≠ 0) (hden : (x.toNat * 10000 + v.toNat * keptBps feeBps) % 2 ^ 256 ≠ 0)
    (hstops : ¬Stops (keptBps feeBps) x.toNat y.toNat v.toNat l.toNat) :
    ∃ aCoeff bCoeff negC : U256, v2SandwichMaxSize v l x y feeBps = rootSize aCoeff bCoeff negC ∧
      aCoeff.toNat = squareCoeff (keptBps feeBps) l.toNat % 2 ^ 256 ∧
      bCoeff.toNat = linearCoeff (keptBps feeBps) x.toNat v.toNat l.toNat % 2 ^ 256 ∧
      negC.toNat = positiveCost (keptBps feeBps) x.toNat y.toNat v.toNat % 2 ^ 256 -
        negativeCost (keptBps feeBps) x.toNat v.toNat l.toNat % 2 ^ 256 := by
  have hf := toNat_keptWord hfee
  obtain ⟨_, hstops⟩ := not_or.mp hstops
  obtain ⟨hbaseline, hcosts⟩ := not_or.mp hstops
  rw [← toNat_baseline hf, ← BitVec.le_def] at hbaseline
  rw [← toNat_negativeCost hf, ← toNat_positiveCost hf, ← BitVec.le_def] at hcosts
  rw [← toNat_denominator hf] at hden
  refine ⟨_, _, y * (x * 10000) * (v * (10000 - feeBps).setWidth 256) -
    l * (x * 10000) * (x * 10000 + v * (10000 - feeBps).setWidth 256), ?_,
    toNat_squareCoeff hf, toNat_linearCoeff hf, ?_⟩
  · unfold v2SandwichMaxSize rootSize
    rw [if_neg (mt le_feeBps_iff.mp (Nat.not_le.mpr hfee)),
      if_neg (not_or.mpr ⟨hx, not_or.mpr ⟨hy, hv⟩⟩)]
    dsimp only
    rewrite [if_neg (fun hzero => hden (congrArg BitVec.toNat hzero)), if_neg hbaseline,
      if_neg hcosts]
    generalize okOrElse (checkedMul _ _) _ = square
    cases square with
    | error report => rfl
    | ok square =>
      dsimp only <;> generalize okOrElse (checkedAdd _ _) _ = disc <;> cases disc <;> rfl
  · rw [BitVec.toNat_sub_of_le (BitVec.le_of_lt (BitVec.not_le.mp hcosts)), toNat_negativeCost hf,
      toNat_positiveCost hf]

theorem v2SandwichMaxSize_raises (hfee : feeBps.toNat < 10000) (hx : x ≠ 0) (hy : y ≠ 0)
    (hv : v ≠ 0) (h : Raises (keptBps feeBps) x.toNat y.toNat v.toNat l.toNat) (a : U256) :
    v2SandwichMaxSize v l x y feeBps ≠ some (.ok a) := by
  by_cases hden : (x.toNat * 10000 + v.toNat * keptBps feeBps) % 2 ^ 256 = 0
  · rw [← toNat_denominator (toNat_keptWord hfee)] at hden
    unfold v2SandwichMaxSize
    rw [if_neg (mt le_feeBps_iff.mp (Nat.not_le.mpr hfee)),
      if_neg (not_or.mpr ⟨hx, not_or.mpr ⟨hy, hv⟩⟩)]
    dsimp only
    rw [if_pos (BitVec.eq_of_toNat_eq hden)]
    simp
  · obtain ⟨hstops, hdisc⟩ := h.resolve_left hden
    obtain ⟨_, _, _, hsame, ha, hb, hc⟩ := v2SandwichMaxSize_eq_rootSize hfee hx hy hv hden hstops
    rw [hsame, rootSize_eq_error ha hb hc hdisc]
    simp

theorem v2SandwichMaxSize_eq_ok (hfee : feeBps.toNat < 10000) (hx : x ≠ 0) (hy : y ≠ 0)
    (hv : v ≠ 0) (hraises : ¬Raises (keptBps feeBps) x.toNat y.toNat v.toNat l.toNat)
    (hstops : ¬Stops (keptBps feeBps) x.toNat y.toNat v.toNat l.toNat) :
    ∃ a, v2SandwichMaxSize v l x y feeBps = some (.ok a) ∧
      (l.toNat < 2 ^ 112 → ∀ n, n ≤ a.toNat ↔
        ClearsWrapped (keptBps feeBps) x.toNat y.toNat v.toNat l.toNat n) := by
  obtain ⟨hden, hdisc⟩ := not_or.mp hraises
  rw [not_and, Nat.not_le] at hdisc
  obtain ⟨_, _, _, hsame, ha, hb, hc⟩ := v2SandwichMaxSize_eq_rootSize hfee hx hy hv hden hstops
  obtain ⟨a, hok, hsolve⟩ := rootSize_eq_ok ha hb hc (hdisc hstops)
  refine ⟨a, hsame.trans hok, fun hl n => ?_⟩
  obtain ⟨hlZero, hstops⟩ := not_or.mp hstops
  obtain ⟨_, hcosts⟩ := not_or.mp hstops
  have hsquareLt : squareCoeff (keptBps feeBps) l.toNat < 2 ^ 140 := by
    have hscaled := Nat.mul_le_mul hl.le (keptBps_le feeBps)
    unfold squareCoeff
    omega
  have hsquarePos : 0 < squareCoeff (keptBps feeBps) l.toNat :=
    Nat.mul_pos (Nat.mul_pos (Nat.pos_of_ne_zero hlZero) (keptBps_pos hfee)) (by decide)
  have hword : squareCoeff (keptBps feeBps) l.toNat % 2 ^ 256 =
      squareCoeff (keptBps feeBps) l.toNat :=
    Nat.mod_eq_of_lt (hsquareLt.trans (by decide))
  rw [hword] at hsolve
  have hfits : 4 * squareCoeff (keptBps feeBps) l.toNat *
      (positiveCost (keptBps feeBps) x.toNat y.toNat v.toNat % 2 ^ 256 -
        negativeCost (keptBps feeBps) x.toNat v.toNat l.toNat % 2 ^ 256) < 2 ^ 512 := by
    refine lt_wide (w := 142 + 256) ?_ (by decide)
    rw [pow_add]
    exact Nat.mul_lt_mul'' (by omega)
      ((Nat.sub_le _ _).trans_lt (Nat.mod_lt _ (Nat.two_pow_pos 256)))
  rw [hsolve hsquarePos hfits, ClearsWrapped, Nat.le_sub_iff_add_le (Nat.not_le.mp hcosts).le]

theorem v2SandwichMaxSize_eq_zero (hfee : feeBps.toNat < 10000) (hx : x ≠ 0) (hy : y ≠ 0)
    (hv : v ≠ 0) (hden : (x.toNat * 10000 + v.toNat * keptBps feeBps) % 2 ^ 256 ≠ 0)
    (hstops : Stops (keptBps feeBps) x.toNat y.toNat v.toNat l.toNat) :
    v2SandwichMaxSize v l x y feeBps = some (.ok 0) := by
  have hf := toNat_keptWord hfee
  rw [← toNat_denominator hf] at hden
  unfold v2SandwichMaxSize
  rw [if_neg (mt le_feeBps_iff.mp (Nat.not_le.mpr hfee)),
    if_neg (not_or.mpr ⟨hx, not_or.mpr ⟨hy, hv⟩⟩)]
  dsimp only
  rw [if_neg (fun hzero => hden (congrArg BitVec.toNat hzero))]
  rcases hstops with hzero | hbaseline | hcosts
  · obtain rfl : l = 0 := BitVec.eq_of_toNat_eq hzero
    simp [widen, checkedMul, checkedAdd, okOrElse, isqrtU512]
  · rw [← toNat_baseline hf] at hbaseline
    rw [if_pos (BitVec.le_def.mpr hbaseline)]
  · rw [← toNat_negativeCost hf, ← toNat_positiveCost hf] at hcosts
    rw [if_pos (BitVec.le_def.mpr hcosts), ite_self]

end Returned

/-! ## Main result -/

/-- The returned frontrun leaves the victim at least `l`, and no larger one does. -/
def IsLargestFrontrun (v l x y : U256) (feeBps : BitVec 32) : Prop :=
  ∀ a, v2SandwichMaxSize v l x y feeBps = some (.ok a) →
    Reaches (frontrunQuote a v x y feeBps) l ∧
      ∀ b, a < b → ¬Reaches (frontrunQuote b v x y feeBps) l

/-- Where the first products fit, the root is exact if both costs lose the same multiple of
`2 ^ 256` and the roundings do not admit a larger frontrun. -/
structure RootExact (kept x y v l : ℕ) : Prop where
  fits : FirstProductsFit kept x y v l
  least : 0 < l
  baseline : l < exactOut kept x y v
  sameLoss : negativeCost kept x v l / 2 ^ 256 = positiveCost kept x y v / 2 ^ 256
  clears : ∀ n, Survives kept x y v l n → Clears kept x y v l n

/-- Where they do not, the inequality that wraps must end at the same frontrun. -/
structure RootCoincides (kept x y v l : ℕ) : Prop where
  wraps : ¬FirstProductsFit kept x y v l
  runs : ¬Stops kept x y v l
  ends : ∃ m, (Survives kept x y v l m ∧ ¬Survives kept x y v l (m + 1)) ∧
    ClearsWrapped kept x y v l m ∧ ¬ClearsWrapped kept x y v l (m + 1)

/-- What the size needs to be the largest one. -/
def SizeExact (kept x y v l : ℕ) : Prop :=
  Raises kept x y v l ∨
    Stops kept x y v l ∧ Survives kept x y v l 0 ∧ ¬Survives kept x y v l 1 ∨
    RootExact kept x y v l ∨ RootCoincides kept x y v l

theorem isLargestFrontrun_iff_of_eq {v l x y a : U256} {feeBps : BitVec 32}
    (hfee : feeBps.toNat < 10000) (hx : x ≠ 0) (hy : y ≠ 0) (hv : v ≠ 0)
    (ha : v2SandwichMaxSize v l x y feeBps = some (.ok a)) :
    IsLargestFrontrun v l x y feeBps ↔
      Survives (keptBps feeBps) x.toNat y.toNat v.toNat l.toNat a.toNat ∧
        ¬Survives (keptBps feeBps) x.toNat y.toNat v.toNat l.toNat (a.toNat + 1) := by
  constructor
  · intro h
    obtain ⟨hreaches, hlargest⟩ := h a ha
    refine ⟨(reaches_frontrunQuote_iff hfee hx hy hv).mp hreaches, fun hnext => ?_⟩
    have hlt : a.toNat + 1 < 2 ^ 256 := by
      refine lt_of_le_of_lt ?_ hnext.fits
      omega
    have hvalue := toNat_ofNat hlt
    refine hlargest (BitVec.ofNat 256 (a.toNat + 1)) ?_ ?_
    · rw [BitVec.lt_def, hvalue]
      exact Nat.lt_succ_self _
    · rw [reaches_frontrunQuote_iff hfee hx hy hv, hvalue]
      exact hnext
  · rintro ⟨hsurvives, hnext⟩ a' ha'
    obtain rfl : a = a' := by simpa [ha] using ha'
    refine ⟨(reaches_frontrunQuote_iff hfee hx hy hv).mpr hsurvives, fun b hb hreaches => ?_⟩
    have hb' := (reaches_frontrunQuote_iff hfee hx hy hv).mp hreaches
    exact hnext (hb'.anti (toNat_pos hx) (BitVec.lt_def.mp hb))

/-- Costs that lost the same multiple compare as the wrapped ones do. -/
theorem add_mod_le_iff {m n p w : ℕ} (h : n / w = p / w) :
    m + n % w ≤ p % w ↔ m + n ≤ p := by
  conv_rhs => rw [← Nat.div_add_mod n w, ← Nat.div_add_mod p w, h]
  omega

theorem lt_mod_add {n p w : ℕ} (hlt : n < p) (h : n / w ≠ p / w) :
    p % w + w + n ≤ p + n % w := by
  have hquotient : n / w + 1 ≤ p / w := lt_of_le_of_ne (Nat.div_le_div_right hlt.le) h
  have hscaled := Nat.mul_le_mul_left w hquotient
  have hn := Nat.div_add_mod n w
  have hp := Nat.div_add_mod p w
  rw [Nat.mul_add, Nat.mul_one] at hscaled
  omega

theorem RootExact.not_stops {kept x y v l : ℕ} (hx : 0 < x) (h : RootExact kept x y v l) :
    ¬Stops kept x y v l := by
  have hcosts := (Nat.add_comm 1 _).trans_le (negativeCost_lt hx h.baseline)
  rw [← add_mod_le_iff h.sameLoss, Nat.one_add_le_iff] at hcosts
  rintro (hzero | hbaseline | hcosts')
  · exact absurd hzero h.least.ne'
  · rw [h.fits.wrappedBaseline_eq] at hbaseline
    exact absurd h.baseline (Nat.not_lt.mpr hbaseline)
  · exact absurd hcosts (Nat.not_lt.mpr hcosts')

/-- A frontrun that is survived bounds the minimum by the reserve. -/
theorem Survives.le_reserve {kept x y v l a : ℕ} (hx : 0 < x) (hy : 0 < y)
    (h : Survives kept x y v l a) : l < y := by
  have hzero := (h.anti hx a.zero_le).filled
  rw [exactOut_zero] at hzero
  exact hzero.trans_lt (exactOut_lt hx hy)

/-- The branch with the root where the first products fit: the costs compare as the wrapped
ones do, or the root comes out too small. -/
theorem survives_iff_rootExact {kept x y v l a : ℕ} (hx : 0 < x) (hy : 0 < y)
    (hyUint : y < 2 ^ 112) (hfit : FirstProductsFit kept x y v l) (hstops : ¬Stops kept x y v l)
    (hsolve : l < 2 ^ 112 → ∀ n, n ≤ a ↔ ClearsWrapped kept x y v l n) :
    (Survives kept x y v l a ∧ ¬Survives kept x y v l (a + 1)) ↔ RootExact kept x y v l := by
  obtain ⟨hl, hstops⟩ := not_or.mp hstops
  obtain ⟨hbaseline, _⟩ := not_or.mp hstops
  rw [hfit.wrappedBaseline_eq, Nat.not_le] at hbaseline
  have hlPos := Nat.pos_of_ne_zero hl
  have hsolve := hsolve ((hbaseline.trans (exactOut_lt hx hy)).trans hyUint)
  simp only [ClearsWrapped, Nat.mod_eq_of_lt (hfit.linear.trans (by decide : 2 ^ 254 < 2 ^ 256))]
    at hsolve
  have hroot := (hsolve _).mp le_rfl
  constructor
  · rintro ⟨hsurvives, hnext⟩
    have hwrapped : negativeCost kept x v l / 2 ^ 256 = positiveCost kept x y v / 2 ^ 256 := by
      by_contra hne
      have hlost := lt_mod_add (negativeCost_lt hx hbaseline) hne
      have hstep := root_step_le (squareCoeff_le hx) hfit.linear
        (lt_of_le_of_lt (Nat.sub_le _ _) (Nat.mod_lt _ (Nat.two_pow_pos 256)))
        (Nat.le_sub_of_add_le hroot)
      refine hnext (Clears.survives hx hlPos hfit.numerator (clears_iff.mpr ?_))
      omega
    refine ⟨hfit, hlPos, hbaseline, hwrapped, fun n hn => ?_⟩
    have hle : n ≤ a := by
      by_contra hlarge
      exact hnext (hn.anti hx (Nat.lt_of_not_le hlarge))
    exact clears_iff.mpr ((add_mod_le_iff hwrapped).mp ((hsolve n).mp hle))
  · rintro ⟨_, _, _, hwrapped, hclears⟩
    have hsurvives := (clears_iff.mpr ((add_mod_le_iff hwrapped).mp hroot)).survives hx hlPos
      hfit.numerator
    refine ⟨hsurvives, fun hnext => ?_⟩
    have hle := (hsolve _).mpr ((add_mod_le_iff hwrapped).mpr (clears_iff.mp (hclears _ hnext)))
    exact absurd hle (Nat.not_succ_le_self _)

theorem isLargestFrontrun_iff {v l x y : U256} {feeBps : BitVec 32} (hfee : feeBps.toNat < 10000)
    (hyUint : y.toNat < 2 ^ 112) :
    IsLargestFrontrun v l x y feeBps ↔
      (x ≠ 0 ∧ y ≠ 0 ∧ v ≠ 0) ∧ SizeExact (keptBps feeBps) x.toNat y.toNat v.toNat l.toNat := by
  by_cases hzero : x = 0 ∨ y = 0 ∨ v = 0
  · have hreturned : v2SandwichMaxSize v l x y feeBps = some (.ok 0) := by
      unfold v2SandwichMaxSize
      rw [if_neg (mt le_feeBps_iff.mp (Nat.not_le.mpr hfee)), if_pos hzero]
    refine iff_of_false (fun h => ?_) fun h => ?_
    · obtain ⟨⟨z, hz, _⟩, _⟩ := h 0 hreturned
      rw [frontrunQuote, if_pos rfl] at hz
      obtain ⟨⟨hx, hy⟩, _, hv, _⟩ := amountOut_eq_ok.mp hz
      exact hzero.elim hx (fun h => h.elim hy hv)
    · exact hzero.elim h.1.1 (fun hzero => hzero.elim h.1.2.1 h.1.2.2)
  obtain ⟨hx, hyv⟩ := not_or.mp hzero
  obtain ⟨hy, hv⟩ := not_or.mp hyv
  rw [and_iff_right ⟨hx, hy, hv⟩]
  have hxPos := toNat_pos hx
  by_cases hraises : Raises (keptBps feeBps) x.toNat y.toNat v.toNat l.toNat
  · refine iff_of_true (fun a ha => ?_) (.inl hraises)
    exact absurd ha (v2SandwichMaxSize_raises hfee hx hy hv hraises a)
  rw [SizeExact, or_iff_right hraises]
  by_cases hstops : Stops (keptBps feeBps) x.toNat y.toNat v.toNat l.toNat
  · rw [isLargestFrontrun_iff_of_eq hfee hx hy hv
      (v2SandwichMaxSize_eq_zero hfee hx hy hv (not_or.mp hraises).1 hstops)]
    constructor
    · exact fun h => .inl ⟨hstops, h⟩
    · rintro (⟨_, h⟩ | hexact | hcoincides)
      · exact h
      · exact absurd hstops (hexact.not_stops hxPos)
      · exact absurd hstops hcoincides.runs
  obtain ⟨a, ha, hsolve⟩ := v2SandwichMaxSize_eq_ok hfee hx hy hv hraises hstops
  rw [isLargestFrontrun_iff_of_eq hfee hx hy hv ha,
    or_iff_right (fun h => hstops h.1)]
  by_cases hfit : FirstProductsFit (keptBps feeBps) x.toNat y.toNat v.toNat l.toNat
  · rw [or_iff_left (fun h => h.wraps hfit)]
    exact survives_iff_rootExact hxPos (toNat_pos hy) hyUint hfit hstops hsolve
  rw [or_iff_right (fun h : RootExact _ _ _ _ _ => hfit h.fits)]
  have hbound : ∀ {m}, Survives (keptBps feeBps) x.toNat y.toNat v.toNat l.toNat m →
      l.toNat < 2 ^ 112 :=
    fun h => (h.le_reserve hxPos (toNat_pos hy)).trans hyUint
  constructor
  · intro h
    have hends := hsolve (hbound h.1)
    exact ⟨hfit, hstops, a.toNat, h, (hends _).mp le_rfl,
      mt (hends _).mpr (Nat.not_succ_le_self _)⟩
  · rintro ⟨_, _, m, h, hclears, hpast⟩
    have hends := hsolve (hbound h.1)
    have hle := (hends m).mpr hclears
    have hlt := mt (hends (m + 1)).mp hpast
    obtain rfl : a.toNat = m := by omega
    exact h

/-- The last frontrun that a minimum of 1700 survives is 343, with and without the roundings. -/
theorem isLargestFrontrun_thirtyBps : IsLargestFrontrun 1000 1700 10000 20000 30 := by
  refine (isLargestFrontrun_iff (by decide) (by decide)).mpr
    ⟨⟨by decide, by decide, by decide⟩, .inr (.inr (.inl ?_))⟩
  refine ⟨firstProductsFit_of_uint112 (keptBps_le 30) (by decide) (by decide) (by decide)
    (by decide), by decide, by decide, by decide, fun n hn => ?_⟩
  have hle : n ≤ 343 := by
    by_contra hlarge
    have hpast := (hn.anti (by decide) (Nat.lt_of_not_le hlarge)).filled
    exact absurd hpast (by decide)
  have hclears : Clears (keptBps 30) (10000 : U256).toNat (20000 : U256).toNat
      (1000 : U256).toNat (1700 : U256).toNat 343 := by
    unfold Clears
    decide
  exact hclears.anti hle

/-- On reserves of `3 * 10 ^ 30` and `2 * 10 ^ 30` the costs lose different multiples and the
size is 0, though a frontrun of 1 is survived. On small reserves 1890 is returned and 1891 is
survived. -/
theorem not_isLargestFrontrun :
    ¬IsLargestFrontrun (BitVec.ofNat 256 (10 ^ 28)) 6558404236587075618693874024
        (BitVec.ofNat 256 (3 * 10 ^ 30)) (BitVec.ofNat 256 (2 * 10 ^ 30)) 30 ∧
      ¬IsLargestFrontrun 1794 105 1737 663 30 := by
  have hfee : (30 : BitVec 32).toNat < 10000 := by decide
  constructor
  · intro h
    have hreturned : v2SandwichMaxSize (BitVec.ofNat 256 (10 ^ 28)) 6558404236587075618693874024
        (BitVec.ofNat 256 (3 * 10 ^ 30)) (BitVec.ofNat 256 (2 * 10 ^ 30)) 30 = some (.ok 0) :=
      v2SandwichMaxSize_eq_zero hfee (by decide) (by decide) (by decide) (by decide)
        (.inr (.inr (by decide +kernel)))
    rw [isLargestFrontrun_iff_of_eq hfee (by decide) (by decide) (by decide) hreturned] at h
    exact h.2 ⟨by decide, by decide⟩
  · intro h
    obtain ⟨a, ha, hsolve⟩ : ∃ a, v2SandwichMaxSize 1794 105 1737 663 30 = some (.ok a) ∧ _ :=
      v2SandwichMaxSize_eq_ok hfee (by decide) (by decide) (by decide) (by decide +kernel)
        (by decide)
    have hsolve := hsolve (by decide)
    rw [isLargestFrontrun_iff_of_eq hfee (by decide) (by decide) (by decide) ha] at h
    have hle : 1890 ≤ a.toNat := (hsolve 1890).mpr (by unfold ClearsWrapped; decide)
    have hlt : ¬1891 ≤ a.toNat := mt (hsolve 1891).mp (by unfold ClearsWrapped; decide)
    have hvalue : a.toNat = 1890 := by omega
    rw [hvalue] at h
    exact h.2 ⟨by decide, by decide⟩

end Degenbot.V2Simulation
