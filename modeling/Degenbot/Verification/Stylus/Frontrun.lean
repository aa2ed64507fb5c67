import Degenbot.Algorithm.StylusMath
import Degenbot.Verification.V2.OptimalFrontrun

/-! # The two ports of `optimal_v2_frontrun_amount`

Where a port succeeds, it returns the same computation without the checks. -/

namespace Degenbot.Stylus

open Library Wide V2Simulation

/-! ## The common computation -/

section Plain

variable (v l x y g margin : U256)

def baseline : U256 := v * g * y / (x * 10000 + v * g)

def positivePart : U256 := x * (x * 10000 + v * g) / g

def negativePart : U256 := v * x * y / l

def half : U256 := (x * (10000 + g) / g + g * v / 10000) / 2

def discriminant : U256 := half v x g * half v x g + (negativePart v l x y - positivePart v x g)

/-- The amount for a kept share of `g`, with operators that wrap. -/
def plainAmount : U256 :=
  if x = 0 ∨ y = 0 ∨ v = 0 ∨ l = 0 then 0
  else if baseline v x y g ≤ l then 0
  else if negativePart v l x y ≤ positivePart v x g then 0
  else if isqrt (discriminant v l x y g) ≤ half v x g then 0
  else if margin = 0 then isqrt (discriminant v l x y g) - half v x g
  else (isqrt (discriminant v l x y g) - half v x g) * (10000 - margin) / 10000

end Plain

/-! ## The square root -/

/-- The start `2 ^ ⌈bits / 2⌉` is exact, above the root and far from a wrap. -/
theorem sqrt_start {x : U256} (hlarge : ¬x ≤ 1) :
    (bitLength x + 1) / 2 < 256 ∧ 0 < x.toNat ∧
      x.toNat.sqrt ≤ ((1 : U256) <<< ((bitLength x + 1) / 2)).toNat ∧
      ((1 : U256) <<< ((bitLength x + 1) / 2)).toNat + x.toNat.sqrt + 2 < 2 ^ 256 := by
  have hone : (1 : U256).toNat = 1 := rfl
  rw [BitVec.le_def, hone, Nat.not_le] at hlarge
  have hlength : bitLength x ≤ 256 := Nat.size_le.mpr x.isLt
  have hbits : x.toNat < 2 ^ bitLength x := Nat.lt_size_self _
  generalize bitLength x = bits at *
  have hexponent : (bits + 1) / 2 ≤ 128 := by omega
  have hpower : 2 ^ ((bits + 1) / 2) ≤ 2 ^ 128 := Nat.pow_le_pow_right (by norm_num) hexponent
  have hstart : ((1 : U256) <<< ((bits + 1) / 2)).toNat = 2 ^ ((bits + 1) / 2) := by
    rw [BitVec.toNat_shiftLeft, hone, Nat.shiftLeft_eq, Nat.one_mul]
    exact Nat.mod_eq_of_lt (hpower.trans_lt (by norm_num))
  have hroot : x.toNat.sqrt < 2 ^ ((bits + 1) / 2) := by
    rw [Nat.sqrt_lt, ← pow_add]
    exact hbits.trans_le (Nat.pow_le_pow_right (by norm_num) (by omega))
  refine ⟨by omega, by omega, hroot.le.trans_eq hstart.symm, ?_⟩
  rw [hstart]
  omega

theorem toNat_sqrt (x : U256) : (sqrt x).toNat = x.toNat.sqrt := by
  unfold sqrt
  have hone : (1 : U256).toNat = 1 := rfl
  split_ifs with hsmall
  · rw [BitVec.le_def, hone] at hsmall
    rcases Nat.le_one_iff_eq_zero_or_eq_one.mp hsmall with hx | hx
    · rw [hx, Nat.sqrt_zero]
    · rw [hx, Nat.sqrt_one]
  · obtain ⟨-, hpos, hroot, hfits⟩ := sqrt_start hsmall
    exact toNat_isqrtLoop_of_fits hpos hroot hfits

theorem sqrt_eq_isqrt (x : U256) : sqrt x = isqrt x :=
  BitVec.eq_of_toNat_eq ((toNat_sqrt x).trans (toNat_isqrt x).symm)

/-! ## The root rounded up

`sqrt_up` compares the root with the truncated quotient, which is above the root only from
`root * (root + 1)` on. -/

theorem toNat_sqrtUp (x : U256) : (sqrtUp x).toNat =
    if x.toNat.sqrt * (x.toNat.sqrt + 1) ≤ x.toNat ∧ x ≠ 0 then x.toNat.sqrt + 1
    else x.toNat.sqrt := by
  have hroot := toNat_sqrt x
  have hle := Nat.sqrt_le x.toNat
  have hone : (1 : U256).toNat = 1 := rfl
  by_cases hzero : x = 0
  · subst hzero
    decide
  have hpos : 0 < x.toNat.sqrt := Nat.sqrt_pos.mpr (toNat_pos hzero)
  have hcompare : (sqrt x ≠ 0 ∧ sqrt x < x / sqrt x) ↔
      (x.toNat.sqrt * (x.toNat.sqrt + 1) ≤ x.toNat ∧ x ≠ 0) := by
    have hne : sqrt x ≠ 0 := ne_zero_of_toNat_pos (by rwa [hroot])
    rw [BitVec.lt_def, BitVec.toNat_udiv, hroot, ← Nat.succ_le_iff, Nat.le_div_iff_mul_le hpos,
      mul_comm]
    exact and_comm.trans (and_congr_right fun _ => iff_of_true hne hzero)
  have hfits : (sqrt x).toNat + (1 : U256).toNat < 2 ^ 256 := by
    have hlt : x.toNat.sqrt < 2 ^ 128 := by
      rw [Nat.sqrt_lt, ← pow_add]
      exact x.isLt
    rw [hroot, hone]
    omega
  rw [sqrtUp]
  simp only [hcompare]
  split_ifs
  · rw [toNat_add_of_fits hfits, hroot, hone]
  · exact hroot

/-- What `sqrt_up` has to return. -/
def IsCeilRoot (n r : ℕ) : Prop := IsLeast {r | n ≤ r * r} r

theorem isCeilRoot_iff {n r : ℕ} : IsCeilRoot n r ↔ n ≤ r * r ∧ ∀ s, n ≤ s * s → r ≤ s := Iff.rfl

/-- The square root is exact, and `sqrt_up` returns the root rounded up for the squares and from
`root * (root + 1)` on. -/
theorem sqrt_isFloorRoot_and_sqrtUp_iff (x : U256) :
    ((x ≤ 1 ∧ sqrt x = x ∨ (bitLength x + 1) / 2 < 256 ∧
        Returns x ((1 : U256) <<< ((bitLength x + 1) / 2)) (sqrt x)) ∧
      IsFloorRoot x.toNat (sqrt x).toNat) ∧
      (IsCeilRoot x.toNat (sqrtUp x).toNat ↔
        x.toNat.sqrt * x.toNat.sqrt = x.toNat ∨
          x.toNat.sqrt * (x.toNat.sqrt + 1) ≤ x.toNat) := by
  refine ⟨⟨?_, ?_⟩, ?_⟩
  · by_cases hsmall : x ≤ 1
    · exact .inl ⟨hsmall, if_pos hsmall⟩
    · obtain ⟨hshift, hpos, hroot, hfits⟩ := sqrt_start hsmall
      rw [sqrt, if_neg hsmall]
      exact .inr ⟨hshift, returns_of_fits hpos hroot hfits⟩
  · rw [toNat_sqrt]
    exact isFloorRoot_sqrt _
  · rw [toNat_sqrtUp, isCeilRoot_iff]
    have hle := Nat.sqrt_le x.toNat
    have hlt := Nat.lt_succ_sqrt x.toNat
    generalize x.toNat.sqrt = root at *
    by_cases hzero : x = 0
    · subst hzero
      have hroot : root = 0 := by simpa using hle
      simp [hroot]
    by_cases hfar : root * (root + 1) ≤ x.toNat
    · rw [if_pos ⟨hfar, hzero⟩]
      refine iff_of_true ⟨hlt.le, ?_⟩ (.inr hfar)
      intro s hs
      by_contra hless
      have hsquare : s * s ≤ root * root := Nat.mul_self_le_mul_self (by omega)
      have hpos := toNat_pos hzero
      have hroot : root = 0 := by nlinarith
      subst hroot
      omega
    · rw [if_neg fun h => hfar h.1]
      constructor
      · rintro ⟨hsquare, -⟩
        exact .inl (hle.antisymm hsquare)
      · rintro (hsquare | h)
        · refine ⟨hsquare.ge, fun s hs => ?_⟩
          by_contra hless
          have hsquare' : s * s < root * root := Nat.mul_self_lt_mul_self (by omega)
          omega
        · exact absurd h hfar

/-- The root of 5 is rounded down. -/
theorem not_sqrtUp_isCeilRoot :
    ¬∀ x : U256, IsFloorRoot x.toNat (sqrt x).toNat ∧ IsCeilRoot x.toNat (sqrtUp x).toNat := by
  intro h
  have hfive : (sqrtUp 5).toNat = 2 := by decide +kernel
  have hceil := (h 5).2.1
  rw [hfive] at hceil
  exact absurd hceil (by decide)

/-! ## The port of the Rust crate -/

section Agreement

variable {v l x y : U256} {feeBps marginBps : BitVec 32} {z : U256}

theorem margin_pos_iff : 0 < marginBps ↔ (marginBps.setWidth 256 : U256) ≠ 0 := by
  have hwide : (marginBps.setWidth 256 : U256).toNat = marginBps.toNat := by
    rw [BitVec.toNat_setWidth]
    exact Nat.mod_eq_of_lt (marginBps.isLt.trans (by norm_num))
  have hzero : (0 : U256).toNat = 0 := rfl
  rw [BitVec.lt_def, Ne, ← BitVec.toNat_inj, hwide, hzero]
  exact Nat.pos_iff_ne_zero

theorem rust_eq_plainAmount (hfee : feeBps.toNat < 10000) (hmargin : marginBps.toNat < 10000)
    (h : V2Simulation.optimalV2FrontrunAmount v l x y feeBps marginBps = .ok z) :
    z = plainAmount v l x y ((10000 - feeBps).setWidth 256) (marginBps.setWidth 256) := by
  unfold V2Simulation.optimalV2FrontrunAmount at h
  rw [if_neg (by rw [le_feeBps_iff, le_feeBps_iff]; omega)] at h
  simp only [margin_pos_iff] at h
  generalize ((10000 - feeBps).setWidth 256 : U256) = g at *
  generalize (marginBps.setWidth 256 : U256) = margin at *
  unfold plainAmount
  by_cases hzero : x = 0 ∨ y = 0 ∨ v = 0 ∨ l = 0
  · rw [if_pos hzero] at h ⊢
    exact (Except.ok.inj h).symm
  rw [if_neg hzero] at h ⊢
  simp only [okOrElse_checkedMul_bind, okOrElse_checkedAdd_bind] at h
  obtain ⟨-, -, -, -, h⟩ := h
  by_cases hbaseline : baseline v x y g ≤ l
  · rw [if_pos hbaseline]
    rw [← baseline, if_pos hbaseline] at h
    exact (Except.ok.inj h).symm
  rw [if_neg hbaseline]
  rw [← baseline, if_neg hbaseline] at h
  simp only [okOrElse_checkedMul_bind, okOrElse_checkedAdd_bind] at h
  obtain ⟨-, -, -, -, -, h⟩ := h
  rw [← positivePart, ← negativePart] at h
  by_cases hparts : negativePart v l x y ≤ positivePart v x g
  · rw [if_pos hparts] at h ⊢
    exact (Except.ok.inj h).symm
  rw [if_neg hparts] at h ⊢
  simp only [okOrElse_checkedMul_bind, okOrElse_checkedAdd_bind] at h
  obtain ⟨-, -, -, -, -, -, h⟩ := h
  rw [← half, ← discriminant] at h
  by_cases hroot : isqrt (discriminant v l x y g) ≤ half v x g
  · rw [if_pos hroot] at h ⊢
    exact (Except.ok.inj h).symm
  rw [if_neg hroot] at h ⊢
  by_cases hmarginZero : margin = 0
  · rw [if_neg (not_not_intro hmarginZero)] at h
    rw [if_pos hmarginZero]
    exact (Except.ok.inj h).symm
  rw [if_pos hmarginZero, okOrElse_checkedSub_bind, okOrElse_checkedMul_bind] at h
  rw [if_neg hmarginZero]
  exact (Except.ok.inj h.2.2).symm

end Agreement

/-! ## The Stylus port -/

section Stylus

variable {a b c d : U256} {r : U256} {next : U256 → Except FrontrunMathError U256}

theorem frontrunMul_bind : (frontrunMul a b >>= next) = .ok r ↔
    a.toNat * b.toNat < 2 ^ 256 ∧ next (a * b) = .ok r := by
  unfold frontrunMul checkedMul
  split_ifs with hfits
  · exact (and_iff_right hfits).symm
  · exact iff_of_false (fun h => by cases h) fun h => hfits h.1

theorem frontrunAdd_bind : (frontrunAdd a b >>= next) = .ok r ↔
    a.toNat + b.toNat < 2 ^ 256 ∧ next (a + b) = .ok r := by
  unfold frontrunAdd checkedAdd
  split_ifs with hfits
  · exact (and_iff_right hfits).symm
  · exact iff_of_false (fun h => by cases h) fun h => hfits h.1

theorem eq_of_checkedMulDiv_bind (h : (checkedMulDiv a b d >>= next) = .ok r) :
    next (a * b / d) = .ok r := by
  unfold checkedMulDiv at h
  split_ifs at h
  · cases h
  · rw [bind_assoc, frontrunMul_bind] at h
    exact h.2

theorem eq_of_checkedMulDiv3_bind (h : (checkedMulDiv3 a b c d >>= next) = .ok r) :
    next (a * b * c / d) = .ok r := by
  unfold checkedMulDiv3 at h
  split_ifs at h
  · cases h
  · rw [bind_assoc, frontrunMul_bind, bind_assoc, frontrunMul_bind] at h
    exact h.2.2

variable {v l x y feeBps marginBps : U256} {z : U256}

theorem eq_of_getAmountOut_bind (hv : v ≠ 0) (hx : x ≠ 0) (hy : y ≠ 0)
    (hfee : ¬feeBps ≥ bpsDenominator) (h : (getAmountOut v x y feeBps >>= next) = .ok r) :
    next (baseline v x y (bpsDenominator - feeBps)) = .ok r := by
  unfold getAmountOut at h
  rw [if_neg hv, if_neg (not_or.mpr ⟨hx, hy⟩), if_neg hfee] at h
  simp only [bind_assoc, frontrunMul_bind, frontrunAdd_bind] at h
  exact h.2.2.2.2

theorem stylus_eq_plainAmount (h : optimalV2FrontrunAmount v l x y feeBps marginBps = .ok z) :
    (¬feeBps ≥ bpsDenominator ∧ ¬marginBps ≥ bpsDenominator) ∧
      z = plainAmount v l x y (bpsDenominator - feeBps) marginBps := by
  unfold optimalV2FrontrunAmount at h
  by_cases hfee : feeBps ≥ bpsDenominator
  · rw [if_pos hfee] at h
    cases h
  rw [if_neg hfee] at h
  by_cases hmargin : marginBps ≥ bpsDenominator
  · rw [if_pos hmargin] at h
    cases h
  rw [if_neg hmargin] at h
  refine ⟨⟨hfee, hmargin⟩, ?_⟩
  by_cases hreserves : x = 0 ∨ y = 0
  · rw [if_pos hreserves] at h
    cases h
  rw [if_neg hreserves] at h
  unfold plainAmount
  by_cases hvictim : v = 0 ∨ l = 0
  · rw [if_pos hvictim] at h
    rw [if_pos (.inr (.inr hvictim))]
    exact (Except.ok.inj h).symm
  rw [if_neg hvictim] at h
  rw [if_neg (by tauto)]
  obtain ⟨hx, hy⟩ := not_or.mp hreserves
  replace h := eq_of_getAmountOut_bind (not_or.mp hvictim).1 hx hy hfee h
  generalize bpsDenominator - feeBps = g at *
  by_cases hbaseline : baseline v x y g ≤ l
  · rw [if_pos hbaseline] at h ⊢
    exact (Except.ok.inj h).symm
  rw [if_neg hbaseline] at h ⊢
  simp only [frontrunMul_bind, frontrunAdd_bind] at h
  obtain ⟨-, -, -, h⟩ := h
  replace h := eq_of_checkedMulDiv3_bind (eq_of_checkedMulDiv_bind h)
  rw [mul_comm g v, bpsDenominator, ← positivePart, ← negativePart] at h
  by_cases hparts : negativePart v l x y ≤ positivePart v x g
  · rw [if_pos hparts] at h ⊢
    exact (Except.ok.inj h).symm
  rw [if_neg hparts] at h ⊢
  replace h := eq_of_checkedMulDiv_bind h
  simp only [frontrunMul_bind, frontrunAdd_bind] at h
  obtain ⟨-, -, -, -, h⟩ := h
  rw [sqrt_eq_isqrt, ← half, ← discriminant] at h
  by_cases hroot : isqrt (discriminant v l x y g) ≤ half v x g
  · rw [if_pos hroot] at h ⊢
    exact (Except.ok.inj h).symm
  rw [if_neg hroot] at h ⊢
  by_cases hmarginZero : marginBps = 0
  · rw [if_neg (not_not_intro hmarginZero)] at h
    rw [if_pos hmarginZero]
    exact (Except.ok.inj h).symm
  rw [if_pos hmarginZero, frontrunMul_bind] at h
  rw [if_neg hmarginZero]
  exact (Except.ok.inj h.2).symm

end Stylus

/-! ## Agreement -/

section Agreement

variable {v l x y : U256} {feeBps marginBps : BitVec 32} {a b : U256}

theorem toNat_widened (bps : BitVec 32) : (bps.setWidth 256 : U256).toNat = bps.toNat := by
  rw [BitVec.toNat_setWidth]
  exact Nat.mod_eq_of_lt (bps.isLt.trans (by norm_num))

theorem not_ge_bpsDenominator_iff {bps : BitVec 32} :
    ¬bps.setWidth 256 ≥ bpsDenominator ↔ bps.toNat < 10000 := by
  have hdenominator : bpsDenominator.toNat = 10000 := rfl
  rw [ge_iff_le, BitVec.le_def, toNat_widened, hdenominator, Nat.not_le]

theorem keptWord_eq (hfee : feeBps.toNat < 10000) :
    ((10000 - feeBps).setWidth 256 : U256) = bpsDenominator - feeBps.setWidth 256 := by
  have hdenominator : bpsDenominator.toNat = 10000 := rfl
  have hle : feeBps.setWidth 256 ≤ bpsDenominator := by
    rw [BitVec.le_def, toNat_widened, hdenominator]
    exact hfee.le
  apply BitVec.eq_of_toNat_eq
  rw [toNat_keptWord hfee, BitVec.toNat_sub_of_le hle, toNat_widened, hdenominator]
  rfl

/-- The ports agree wherever both succeed. -/
theorem optimalV2FrontrunAmount_agree
    (hrust : V2Simulation.optimalV2FrontrunAmount v l x y feeBps marginBps = .ok a)
    (hstylus : optimalV2FrontrunAmount v l x y (feeBps.setWidth 256) (marginBps.setWidth 256)
      = .ok b) : a = b := by
  obtain ⟨⟨hfee, hmargin⟩, hb⟩ := stylus_eq_plainAmount hstylus
  rw [not_ge_bpsDenominator_iff] at hfee hmargin
  rw [rust_eq_plainAmount hfee hmargin hrust, hb, keptWord_eq hfee]

theorem optimalV2FrontrunAmount_agree_sample :
    V2Simulation.optimalV2FrontrunAmount 1000 1000 100000 200000 30 100 = .ok 40365 ∧
      ∀ amount, optimalV2FrontrunAmount 1000 1000 100000 200000 ((30 : BitVec 32).setWidth 256)
        ((100 : BitVec 32).setWidth 256) = .ok amount → 40365 = amount := by
  have hrust : V2Simulation.optimalV2FrontrunAmount 1000 1000 100000 200000 30 100 = .ok 40365 := by
    decide +kernel
  have hstylus : optimalV2FrontrunAmount 1000 1000 100000 200000 ((30 : BitVec 32).setWidth 256)
      ((100 : BitVec 32).setWidth 256) = .ok 40365 := by decide +kernel
  have hagree := optimalV2FrontrunAmount_agree hrust hstylus
  refine ⟨hrust, fun amount hamount => ?_⟩
  exact hagree.trans (Except.ok.inj (hstylus.symm.trans hamount))

end Agreement

end Degenbot.Stylus
