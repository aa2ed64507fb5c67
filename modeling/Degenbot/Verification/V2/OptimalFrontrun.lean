import Degenbot.Verification.V2.Sandwich

/-! # The frontrun of `optimal_v2_frontrun_amount` -/

namespace Degenbot.V2Simulation

open Library Wide

/-! ## The rounded quadratic

The size is the root of `n ^ 2 + 2 h n = c`, with quotients for `h` and `c`. -/

section Rounded

variable (kept x y v l : ℕ)

def halfSlope : ℕ := (x * (10000 + kept) / kept + kept * v / 10000) / 2

def positiveTerm : ℕ := x * (x * 10000 + v * kept) / kept

def negativeTerm : ℕ := v * x * y / l

/-- The guards pass and no checked operation overflows. -/
structure Solvable : Prop where
  nonzero : 0 < x ∧ 0 < y ∧ 0 < v ∧ 0 < l
  numerator : v * kept * y < 2 ^ 256
  denominator : x * 10000 + v * kept < 2 ^ 256
  below : l < exactOut kept x y v
  cost : x * (x * 10000 + v * kept) < 2 ^ 256
  volume : v * x * y < 2 ^ 256
  terms : positiveTerm kept x v < negativeTerm x y v l
  slope : x * (10000 + kept) < 2 ^ 256
  middle : x * (10000 + kept) / kept + kept * v / 10000 < 2 ^ 256
  discriminant : halfSlope kept x v * halfSlope kept x v +
    (negativeTerm x y v l - positiveTerm kept x v) < 2 ^ 256

def frontrunRoot : ℕ :=
  (halfSlope kept x v * halfSlope kept x v +
    (negativeTerm x y v l - positiveTerm kept x v)).sqrt - halfSlope kept x v

/-- `n` less the margin. -/
def lessMargin (marginBps n : ℕ) : ℕ := n * (10000 - marginBps) / 10000

end Rounded

theorem lessMargin_zero (n : ℕ) : lessMargin 0 n = n := Nat.mul_div_cancel n (by decide)

theorem lessMargin_le (marginBps n : ℕ) : lessMargin marginBps n ≤ n :=
  (Nat.div_le_div_right (Nat.mul_le_mul_left n (Nat.sub_le 10000 marginBps))).trans_eq
    (Nat.mul_div_cancel n (by decide))

theorem Solvable.frontrunRoot_lt {kept x y v l : ℕ} (h : Solvable kept x y v l) :
    frontrunRoot kept x y v l < 2 ^ 128 :=
  (Nat.sub_le _ _).trans_lt (Nat.sqrt_lt.mpr (h.discriminant.trans_eq (pow_add 2 128 128)))

theorem le_frontrunRoot_iff {kept x y v l n : ℕ} : n ≤ frontrunRoot kept x y v l ↔
    n * n + 2 * halfSlope kept x v * n ≤ negativeTerm x y v l - positiveTerm kept x v :=
  le_sqrt_sub_iff

/-! ## The remainders -/

/-- What `l (x d + n f) ((x + n) d + v f)` stands at in `Clears`. -/
def clearingCost (kept x v l n : ℕ) : ℕ := l * (x * 10000 + n * kept) * ((x + n) * 10000 + v * kept)

/-- What the divisions of the slope, its half and the positive term drop, for the size `n`. -/
def droppedCost (kept x v l n : ℕ) : ℕ :=
  n * (x * (10000 + kept) % kept * (10000 * l) + kept * v % 10000 * (kept * l) +
      (x * (10000 + kept) / kept + kept * v / 10000) % 2 * (kept * 10000 * l)) +
    x * (x * 10000 + v * kept) % kept * (10000 * l)

/-- What the division of the negative term drops. -/
def droppedRevenue (kept x y v l : ℕ) : ℕ := v * x * y % l * (kept * 10000)

/-- The divisions that move the root up are exact. -/
structure ExactDivisions (kept x v : ℕ) : Prop where
  reserve : kept ∣ x * 10000
  input : 10000 ∣ kept * v
  half : 2 ∣ x * (10000 + kept) / kept + kept * v / 10000

section Remainders

variable {kept x y v l : ℕ}

theorem clearingCost_eq (n : ℕ) : clearingCost kept x v l n =
    kept * 10000 * l * (n * n + 2 * halfSlope kept x v * n + positiveTerm kept x v) +
      droppedCost kept x v l n := by
  have hleft := Nat.div_add_mod (x * (10000 + kept)) kept
  have hright := Nat.div_add_mod (kept * v) 10000
  have hhalf := Nat.div_add_mod (x * (10000 + kept) / kept + kept * v / 10000) 2
  have hpositive := Nat.div_add_mod (x * (x * 10000 + v * kept)) kept
  unfold halfSlope positiveTerm droppedCost
  generalize x * (10000 + kept) / kept = slope at *
  generalize kept * v / 10000 = fee at *
  generalize (slope + fee) / 2 = half at *
  generalize x * (x * 10000 + v * kept) / kept = positive at *
  generalize x * (10000 + kept) % kept = slopeRest at *
  generalize kept * v % 10000 = feeRest at *
  generalize (slope + fee) % 2 = parity at *
  generalize x * (x * 10000 + v * kept) % kept = positiveRest at *
  calc clearingCost kept x v l n
      = l * (10000 * kept * (n * n) + n * (10000 * (x * (10000 + kept)) + kept * (kept * v)) +
          10000 * (x * (x * 10000 + v * kept))) := by
        unfold clearingCost
        ring
    _ = l * (10000 * kept * (n * n) + n * (10000 * kept * (slope + fee) + 10000 * slopeRest +
          kept * feeRest) + 10000 * (kept * positive + positiveRest)) := by
        rw [← hleft, ← hright, ← hpositive]
        ring
    _ = l * (10000 * kept * (n * n) + n * (10000 * kept * (2 * half + parity) +
          10000 * slopeRest + kept * feeRest) + 10000 * (kept * positive + positiveRest)) := by
        rw [hhalf]
    _ = kept * 10000 * l * (n * n + 2 * half * n + positive) +
          (n * (slopeRest * (10000 * l) + feeRest * (kept * l) + parity * (kept * 10000 * l)) +
            positiveRest * (10000 * l)) := by
        ring

theorem positiveCost_eq : positiveCost kept x y v =
    kept * 10000 * l * negativeTerm x y v l + droppedRevenue kept x y v l := by
  have hnegative := Nat.div_add_mod (v * x * y) l
  unfold positiveCost negativeTerm droppedRevenue
  calc y * (x * 10000) * (v * kept) = kept * 10000 * (v * x * y) := by ring
    _ = kept * 10000 * (l * (v * x * y / l) + v * x * y % l) := by rw [hnegative]
    _ = kept * 10000 * l * (v * x * y / l) + v * x * y % l * (kept * 10000) := by ring

/-- The rounded inequality is the exact one with the remainders added on both sides. -/
theorem le_frontrunRoot_iff_clearingCost (hkept : 0 < kept) (hl : 0 < l)
    (hterms : positiveTerm kept x v < negativeTerm x y v l) {n : ℕ} :
    n ≤ frontrunRoot kept x y v l ↔
      clearingCost kept x v l n + droppedRevenue kept x y v l ≤
        positiveCost kept x y v + droppedCost kept x v l n := by
  have hscale : 0 < kept * 10000 * l := Nat.mul_pos (Nat.mul_pos hkept (by decide)) hl
  rw [le_frontrunRoot_iff, Nat.le_sub_iff_add_le hterms.le, clearingCost_eq, positiveCost_eq (l := l),
    ← Nat.mul_le_mul_left_iff hscale]
  omega

theorem ExactDivisions.droppedCost_eq (h : ExactDivisions kept x v) (n : ℕ) :
    droppedCost kept x v l n = 0 := by
  have hslope : x * (10000 + kept) % kept = 0 := by
    rw [Nat.mul_add, Nat.add_mul_mod_self_right]
    exact Nat.mod_eq_zero_of_dvd h.reserve
  have hpositive : x * (x * 10000 + v * kept) % kept = 0 := by
    refine Nat.mod_eq_zero_of_dvd (Dvd.dvd.mul_left ?_ x)
    exact (Nat.dvd_add_right h.reserve).mpr (Nat.dvd_mul_left kept v)
  rw [droppedCost, hslope, hpositive, Nat.mod_eq_zero_of_dvd h.input,
    Nat.mod_eq_zero_of_dvd h.half]
  simp only [Nat.zero_mul, Nat.add_zero, Nat.mul_zero]

/-- The divisions drop less than three units of the linear term and one of the constant. -/
theorem droppedCost_le (hkept : 0 < kept) (n : ℕ) :
    droppedCost kept x v l n ≤ (3 * n + 1) * (kept * 10000 * l) := by
  have hslope : x * (10000 + kept) % kept * (10000 * l) ≤ kept * 10000 * l :=
    (Nat.mul_le_mul_right _ (Nat.mod_lt _ hkept).le).trans_eq (Nat.mul_assoc _ _ _).symm
  have hfee : kept * v % 10000 * (kept * l) ≤ kept * 10000 * l := by
    calc kept * v % 10000 * (kept * l) ≤ 10000 * (kept * l) :=
          Nat.mul_le_mul_right _ (Nat.mod_lt _ (by decide)).le
      _ = kept * 10000 * l := by ring
  have hparity : (x * (10000 + kept) / kept + kept * v / 10000) % 2 * (kept * 10000 * l) ≤
      kept * 10000 * l := by
    refine (Nat.mul_le_mul_right _ (Nat.lt_succ_iff.mp (Nat.mod_lt _ Nat.two_pos))).trans_eq ?_
    rw [Nat.one_mul]
  have hpositive : x * (x * 10000 + v * kept) % kept * (10000 * l) ≤ kept * 10000 * l :=
    (Nat.mul_le_mul_right _ (Nat.mod_lt _ hkept).le).trans_eq (Nat.mul_assoc _ _ _).symm
  have hlinear := Nat.mul_le_mul_left n (Nat.add_le_add (Nat.add_le_add hslope hfee) hparity)
  unfold droppedCost
  refine (Nat.add_le_add hlinear hpositive).trans_eq ?_
  ring

/-- Each unit less saves at least `2 x` units of the linear term. -/
theorem clearingCost_add_le {a n : ℕ} (hle : kept ≤ 10000) (han : a ≤ n) :
    clearingCost kept x v l a + (n - a) * (2 * x) * (kept * 10000 * l) ≤
      clearingCost kept x v l n := by
  obtain ⟨m, rfl⟩ := Nat.exists_eq_add_of_le han
  have hslope : x * kept + x * kept ≤ x * 10000 + x * kept :=
    Nat.add_le_add_right (Nat.mul_le_mul_left x hle) _
  rw [Nat.add_sub_cancel_left]
  calc clearingCost kept x v l a + m * (2 * x) * (kept * 10000 * l)
      = clearingCost kept x v l a + l * m * 10000 * (x * kept + x * kept) := by ring
    _ ≤ clearingCost kept x v l a + l * m * 10000 * (x * 10000 + x * kept) :=
        Nat.add_le_add_left (Nat.mul_le_mul_left _ hslope) _
    _ ≤ clearingCost kept x v l a + l * m * 10000 * (x * 10000 + x * kept) +
          l * (10000 * kept * (2 * a * m + m * m) + m * (kept * kept * v)) := Nat.le_add_right _ _
    _ = clearingCost kept x v l (a + m) := by
        unfold clearingCost
        ring

/-- A margin that takes a unit off for every `2 / x` makes up for all that is dropped. -/
theorem clears_lessMargin {marginBps n : ℕ} (hle : kept ≤ 10000) (hkept : 0 < kept)
    (hmargin : 20000 ≤ marginBps * x) (hbps : marginBps ≤ 10000) (hn : 0 < n)
    (h : clearingCost kept x v l n + droppedRevenue kept x y v l ≤
      positiveCost kept x y v + droppedCost kept x v l n) :
    Clears kept x y v l (lessMargin marginBps n) := by
  have hless : lessMargin marginBps n ≤ n := lessMargin_le marginBps n
  -- the margin takes off at least `n * marginBps / 10000`
  have hoff : n * marginBps ≤ (n - lessMargin marginBps n) * 10000 := by
    have hdiv : lessMargin marginBps n * 10000 ≤ n * (10000 - marginBps) := Nat.div_mul_le_self _ _
    rw [Nat.mul_sub] at hdiv
    rw [Nat.sub_mul]
    have hscaled := Nat.mul_le_mul_left n hbps
    omega
  have henough : 3 * n + 1 ≤ (n - lessMargin marginBps n) * (2 * x) := by
    apply Nat.le_of_mul_le_mul_right _ (by decide : 0 < 10000)
    calc (3 * n + 1) * 10000 ≤ n * 2 * 20000 := by omega
      _ ≤ n * 2 * (marginBps * x) := Nat.mul_le_mul_left _ hmargin
      _ = n * marginBps * (2 * x) := by ring
      _ ≤ (n - lessMargin marginBps n) * 10000 * (2 * x) := Nat.mul_le_mul_right _ hoff
      _ = (n - lessMargin marginBps n) * (2 * x) * 10000 := by ring
  have hsaved := clearingCost_add_le (v := v) (l := l) (x := x) hle hless
  have hdropped := droppedCost_le (x := x) (v := v) (l := l) hkept n
  have hscaled := Nat.mul_le_mul_right (kept * 10000 * l) henough
  change clearingCost kept x v l (lessMargin marginBps n) ≤ positiveCost kept x y v
  omega

end Remainders

/-! ## The returned size -/

theorem ite_ok_zero_eq {p : Prop} [Decidable p] {rest : Except String U256} {z : U256}
    (hz : z ≠ 0) : (if p then .ok 0 else rest) = .ok z ↔ ¬p ∧ rest = .ok z := by
  split_ifs with hp
  · refine iff_of_false (fun h => hz ?_) fun h => h.1 hp
    exact (Except.ok.inj h).symm
  · exact (and_iff_right hp).symm

section Returned

variable {v l x y z : U256} {feeBps marginBps : BitVec 32}

theorem toNat_marginFactor (hmargin : marginBps.toNat < 10000) :
    marginBps.setWidth 256 ≤ (10000 : U256) ∧
      ((10000 : U256) - marginBps.setWidth 256).toNat = 10000 - marginBps.toNat := by
  have hwide : (marginBps.setWidth 256).toNat = marginBps.toNat := by
    rw [BitVec.toNat_setWidth]
    exact Nat.mod_eq_of_lt (hmargin.trans (by decide))
  have hle : marginBps.setWidth 256 ≤ (10000 : U256) := by
    rw [BitVec.le_def, hwide, toNat_scale]
    exact hmargin.le
  refine ⟨hle, ?_⟩
  rw [BitVec.toNat_sub_of_le hle, hwide, toNat_scale]

/-- The step after the root: the margin is taken off, if there is one. -/
theorem margin_step_iff {amount : U256} (hmargin : marginBps.toNat < 10000)
    (hsmall : amount.toNat < 2 ^ 128) {report : String} :
    (if 0 < marginBps then
        (okOrElse (checkedSub (10000 : U256) (marginBps.setWidth 256))
          "underflow in optimal_v2_frontrun_amount margin") >>= fun marginFactor =>
            (okOrElse (checkedMul amount marginFactor) report) >>= fun scaled =>
              Except.ok (scaled / 10000)
      else .ok amount) = .ok z ↔ z.toNat = lessMargin marginBps.toNat amount.toNat := by
  obtain ⟨hle, hfactor⟩ := toNat_marginFactor hmargin
  have hfits : amount.toNat * (10000 - marginBps.toNat) < 2 ^ 256 := by
    have hscaled := Nat.mul_le_mul hsmall.le (Nat.sub_le 10000 marginBps.toNat)
    omega
  split_ifs with hpos
  · rw [← hfactor] at hfits
    simp only [okOrElse_checkedSub_bind, okOrElse_checkedMul_bind]
    rw [and_iff_right hle, and_iff_right hfits, Except.ok.injEq, ← BitVec.toNat_inj,
      BitVec.toNat_udiv, toNat_mul_of_fits hfits, hfactor, toNat_scale]
    exact eq_comm
  · have hzero : marginBps.toNat = 0 := by
      rw [BitVec.lt_def] at hpos
      exact Nat.eq_zero_of_not_pos hpos
    rw [hzero, lessMargin_zero, Except.ok.injEq, ← BitVec.toNat_inj]
    exact eq_comm

variable {f : U256} {kept : ℕ}

/-- The words that the guards and the root read. -/
theorem toNat_terms (hf : f.toNat = kept)
    (hdenominator : x.toNat * 10000 + v.toNat * kept < 2 ^ 256)
    (hnumerator : v.toNat * kept * y.toNat < 2 ^ 256)
    (hcost : x.toNat * (x.toNat * 10000 + v.toNat * kept) < 2 ^ 256)
    (hpair : v.toNat * x.toNat < 2 ^ 256) (hvolume : v.toNat * x.toNat * y.toNat < 2 ^ 256) :
    (v * f * y / (x * 10000 + v * f)).toNat = exactOut kept x.toNat y.toNat v.toNat ∧
      (x * (x * 10000 + v * f) / f).toNat = positiveTerm kept x.toNat v.toNat ∧
      (v * x * y / l).toNat = negativeTerm x.toNat y.toNat v.toNat l.toNat := by
  have hfee := toNat_mul_eq rfl hf ((Nat.le_add_left _ _).trans_lt hdenominator)
  have hbase := toNat_mul_eq rfl toNat_scale ((Nat.le_add_right _ _).trans_lt hdenominator)
  have hden := toNat_add_eq hbase hfee hdenominator
  refine ⟨toNat_div_eq (toNat_mul_eq hfee rfl hnumerator) hden,
    toNat_div_eq (toNat_mul_eq rfl hden hcost) hf,
    toNat_div_eq (toNat_mul_eq (toNat_mul_eq rfl rfl hpair) rfl hvolume) rfl⟩

theorem toNat_halfSlope (hf : f.toNat = kept) (hfactor : 10000 + kept < 2 ^ 256)
    (hslope : x.toNat * (10000 + kept) < 2 ^ 256) (hfee : kept * v.toNat < 2 ^ 256)
    (hmiddle : x.toNat * (10000 + kept) / kept + kept * v.toNat / 10000 < 2 ^ 256) :
    (x * (10000 + f) / f).toNat = x.toNat * (10000 + kept) / kept ∧
      (f * v / 10000).toNat = kept * v.toNat / 10000 ∧
      ((x * (10000 + f) / f + f * v / 10000) / 2).toNat = halfSlope kept x.toNat v.toNat := by
  have hleft := toNat_div_eq (toNat_mul_eq rfl (toNat_add_eq toNat_scale hf hfactor) hslope) hf
  have hright := toNat_div_eq (toNat_mul_eq hf rfl hfee) toNat_scale
  exact ⟨hleft, hright, toNat_div_eq (toNat_add_eq hleft hright hmiddle) rfl⟩

/-- The step of the root, over the words of its coefficients. -/
theorem root_step_iff {half gap : U256} (hz : z ≠ 0) (hmargin : marginBps.toNat < 10000)
    (hfits : half.toNat * half.toNat + gap.toNat < 2 ^ 256) {report : String} :
    (¬isqrt (half * half + gap) ≤ half ∧
        (if 0 < marginBps then
          (okOrElse (checkedSub (10000 : U256) (marginBps.setWidth 256))
            "underflow in optimal_v2_frontrun_amount margin") >>= fun marginFactor =>
              (okOrElse (checkedMul (isqrt (half * half + gap) - half) marginFactor) report) >>=
                fun scaled => Except.ok (scaled / 10000)
        else .ok (isqrt (half * half + gap) - half)) = .ok z) ↔
      z.toNat = lessMargin marginBps.toNat
        ((half.toNat * half.toNat + gap.toNat).sqrt - half.toNat) := by
  have hdisc : (half * half + gap).toNat = half.toNat * half.toNat + gap.toNat :=
    toNat_add_eq (toNat_mul_eq rfl rfl ((Nat.le_add_right _ _).trans_lt hfits)) rfl hfits
  have hroot := toNat_isqrt (half * half + gap)
  rw [hdisc] at hroot
  have hsmall : (half.toNat * half.toNat + gap.toNat).sqrt < 2 ^ 128 :=
    Nat.sqrt_lt.mpr (hfits.trans_eq (pow_add 2 128 128))
  generalize isqrt (half * half + gap) = root at *
  by_cases hle : root ≤ half
  · refine iff_of_false (fun h => h.1 hle) fun h => hz (BitVec.eq_of_toNat_eq ?_)
    rw [h, ← hroot, Nat.sub_eq_zero_of_le (BitVec.le_def.mp hle), lessMargin, Nat.zero_mul,
      Nat.zero_div]
    rfl
  · have hsub : (root - half).toNat =
        (half.toNat * half.toNat + gap.toNat).sqrt - half.toNat := by
      rw [BitVec.toNat_sub_of_le (BitVec.le_of_lt (BitVec.not_le.mp hle)), hroot]
    rw [and_iff_right hle, ← hsub]
    apply margin_step_iff hmargin
    rw [hsub]
    exact (Nat.sub_le _ _).trans_lt hsmall

theorem optimalV2FrontrunAmount_eq_ok_iff (hz : z ≠ 0) :
    optimalV2FrontrunAmount v l x y feeBps marginBps = .ok z ↔
      (feeBps.toNat < 10000 ∧ marginBps.toNat < 10000) ∧
        Solvable (keptBps feeBps) x.toNat y.toNat v.toNat l.toNat ∧
        z.toNat = lessMargin marginBps.toNat
          (frontrunRoot (keptBps feeBps) x.toNat y.toNat v.toNat l.toNat) := by
  unfold optimalV2FrontrunAmount
  rw [ite_ok_zero_eq hz, ite_ok_zero_eq hz]
  have hguard : ¬(10000 ≤ feeBps ∨ 10000 ≤ marginBps) ↔
      feeBps.toNat < 10000 ∧ marginBps.toNat < 10000 := by
    rw [le_feeBps_iff, le_feeBps_iff, not_or, Nat.not_le, Nat.not_le]
  rw [hguard]
  apply and_congr_right
  rintro ⟨hfee, hmargin⟩
  have hf := toNat_keptWord hfee
  have hfactor : 10000 + keptBps feeBps < 2 ^ 256 :=
    lt_of_le_of_lt (Nat.add_le_add_left (keptBps_le feeBps) _) (by decide)
  simp only [okOrElse_checkedMul_bind, okOrElse_checkedAdd_bind, ite_ok_zero_eq hz]
  generalize (10000 - feeBps).setWidth 256 = f at *
  generalize keptBps feeBps = kept at *
  constructor
  · rintro ⟨hnonzero, h⟩
    obtain ⟨hx, hnonzero⟩ := not_or.mp hnonzero
    obtain ⟨hy, hnonzero⟩ := not_or.mp hnonzero
    obtain ⟨hv, hl⟩ := not_or.mp hnonzero
    obtain ⟨hfeeFits, hnumerator, hbaseFits, hdenominator, hbelow, _, _, hcost, hpair, hvolume,
      hterms, _, hslope, hslopeFee, hmiddle, _, hdisc, hstep⟩ := h
    rw [hf] at hfeeFits
    have hfeeWord := toNat_mul_eq rfl hf hfeeFits
    have hbaseWord := toNat_mul_eq rfl toNat_scale hbaseFits
    rw [hfeeWord] at hnumerator hdenominator
    rw [hbaseWord] at hdenominator
    rw [toNat_add_eq hbaseWord hfeeWord hdenominator] at hcost
    rw [toNat_mul_eq rfl rfl hpair] at hvolume
    obtain ⟨hbaseline, hpositive, hnegative⟩ := toNat_terms (l := l) hf hdenominator hnumerator
      hcost hpair hvolume
    rw [toNat_add_eq toNat_scale hf hfactor] at hslope
    rw [hf] at hslopeFee
    rw [toNat_div_eq (toNat_mul_eq rfl (toNat_add_eq toNat_scale hf hfactor) hslope) hf,
      toNat_div_eq (toNat_mul_eq hf rfl hslopeFee) toNat_scale] at hmiddle
    obtain ⟨_, _, hhalf⟩ := toNat_halfSlope hf hfactor hslope hslopeFee hmiddle
    rw [BitVec.le_def, hbaseline, Nat.not_le] at hbelow
    have hgap := BitVec.toNat_sub_of_le (BitVec.le_of_lt (BitVec.not_le.mp hterms))
    rw [hpositive, hnegative] at hgap
    rw [BitVec.le_def, hpositive, hnegative, Nat.not_le] at hterms
    generalize (x * (10000 + f) / f + f * v / 10000) / 2 = half at *
    generalize v * x * y / l - x * (x * 10000 + v * f) / f = gap at *
    have hsquareFits : half.toNat * half.toNat < 2 ^ 256 := by assumption
    rw [toNat_mul_eq rfl rfl hsquareFits] at hdisc
    rw [root_step_iff hz hmargin hdisc, hhalf, hgap] at hstep
    rw [hhalf, hgap] at hdisc
    exact ⟨⟨⟨toNat_pos hx, toNat_pos hy, toNat_pos hv, toNat_pos hl⟩, hnumerator, hdenominator,
      hbelow, hcost, hvolume, hterms, hslope, hmiddle, hdisc⟩, hstep⟩
  · rintro ⟨h, hvalue⟩
    obtain ⟨hx, hy, hv, hl⟩ := h.nonzero
    have hpair : v.toNat * x.toNat < 2 ^ 256 :=
      (Nat.le_mul_of_pos_right _ hy).trans_lt h.volume
    have hfeeFits : v.toNat * kept < 2 ^ 256 := (Nat.le_add_left _ _).trans_lt h.denominator
    have hbaseFits : x.toNat * 10000 < 2 ^ 256 := (Nat.le_add_right _ _).trans_lt h.denominator
    have hslopeFee : kept * v.toNat < 2 ^ 256 := (Nat.mul_comm _ _).trans_lt hfeeFits
    have hfeeWord := toNat_mul_eq rfl hf hfeeFits
    have hbaseWord := toNat_mul_eq rfl toNat_scale hbaseFits
    obtain ⟨hbaseline, hpositive, hnegative⟩ := toNat_terms (l := l) hf h.denominator h.numerator
      h.cost hpair h.volume
    obtain ⟨hleft, hright, hhalf⟩ := toNat_halfSlope hf hfactor h.slope hslopeFee h.middle
    have hterms : ¬v * x * y / l ≤ x * (x * 10000 + v * f) / f := by
      rw [BitVec.le_def, hpositive, hnegative]
      exact Nat.not_le.mpr h.terms
    have hgap := BitVec.toNat_sub_of_le (BitVec.le_of_lt (BitVec.not_le.mp hterms))
    rw [hpositive, hnegative] at hgap
    have hbelow : ¬v * f * y / (x * 10000 + v * f) ≤ l := by
      rw [BitVec.le_def, hbaseline]
      exact Nat.not_le.mpr h.below
    have hnonzero : ¬(x = 0 ∨ y = 0 ∨ v = 0 ∨ l = 0) :=
      not_or.mpr ⟨ne_zero_of_toNat_pos hx, not_or.mpr ⟨ne_zero_of_toNat_pos hy,
        not_or.mpr ⟨ne_zero_of_toNat_pos hv, ne_zero_of_toNat_pos hl⟩⟩⟩
    have hsquareFits : halfSlope kept x.toNat v.toNat * halfSlope kept x.toNat v.toNat < 2 ^ 256 :=
      (Nat.le_add_right _ _).trans_lt h.discriminant
    rw [hf, hfeeWord, hbaseWord, toNat_add_eq hbaseWord hfeeWord h.denominator,
      toNat_mul_eq rfl rfl hpair, toNat_add_eq toNat_scale hf hfactor, hleft, hright, hhalf]
    generalize (x * (10000 + f) / f + f * v / 10000) / 2 = half at *
    generalize v * x * y / l - x * (x * 10000 + v * f) / f = gap at *
    rw [toNat_mul_eq hhalf hhalf hsquareFits, hgap]
    refine ⟨hnonzero, hfeeFits, h.numerator, hbaseFits, h.denominator, hbelow, hbaseFits,
      h.denominator, h.cost, hpair, h.volume, hterms, hfactor, h.slope, hslopeFee, h.middle,
      hsquareFits, h.discriminant, ?_⟩
    rw [root_step_iff hz hmargin, hhalf, hgap]
    · exact hvalue
    · rw [hhalf, hgap]
      exact h.discriminant

end Returned

/-! ## Main result -/

/-- A frontrun that is returned leaves the victim at least `l`. -/
def IsSafeFrontrun (v l x y : U256) (feeBps marginBps : BitVec 32) : Prop :=
  ∀ a, optimalV2FrontrunAmount v l x y feeBps marginBps = .ok a → a ≠ 0 →
    Reaches (frontrunQuote a v x y feeBps) l

variable {v l x y : U256} {feeBps marginBps : BitVec 32}

/-- The least size that comes to more than `m` less the margin. -/
def firstBeyond (marginBps m : ℕ) : ℕ :=
  ((m + 1) * 10000 + (10000 - marginBps - 1)) / (10000 - marginBps)

theorem lt_lessMargin_iff {marginBps m n : ℕ} (hmargin : marginBps < 10000) :
    m < lessMargin marginBps n ↔ firstBeyond marginBps m ≤ n := by
  have hfactor : 0 < 10000 - marginBps := Nat.sub_pos_of_lt hmargin
  rw [lessMargin, Nat.lt_iff_add_one_le, Nat.le_div_iff_mul_le (by decide), firstBeyond,
    ← @Nat.lt_succ_iff _ n, Nat.div_lt_iff_lt_mul hfactor, Nat.succ_mul n]
  omega

/-- A frontrun of 0 is survived and a large one is not, so there is a last one. -/
theorem exists_last_survived {kept x y v l : ℕ} (hzero : Survives kept x y v l 0) :
    ∃ m, Survives kept x y v l m ∧ ¬Survives kept x y v l (m + 1) := by
  by_contra hnone
  have hall : ∀ n, Survives kept x y v l n := by
    intro n
    induction n with
    | zero => exact hzero
    | succ n ih => exact by_contra fun hnext => hnone ⟨n, ih, hnext⟩
  have hfits := (hall (2 ^ 256)).fits
  omega

/-- The remainders do not pay for the first size that leaves the victim short. -/
def RemaindersFallShort (kept x y v l marginBps : ℕ) : Prop :=
  ∀ m, Survives kept x y v l m → ¬Survives kept x y v l (m + 1) →
    positiveCost kept x y v + droppedCost kept x v l (firstBeyond marginBps m) <
      clearingCost kept x v l (firstBeyond marginBps m) + droppedRevenue kept x y v l

theorem isSafeFrontrun_iff_survives (hfee : feeBps.toNat < 10000) (hmargin : marginBps.toNat < 10000)
    (h : Solvable (keptBps feeBps) x.toNat y.toNat v.toNat l.toNat) :
    IsSafeFrontrun v l x y feeBps marginBps ↔
      Survives (keptBps feeBps) x.toNat y.toNat v.toNat l.toNat (lessMargin marginBps.toNat
        (frontrunRoot (keptBps feeBps) x.toNat y.toNat v.toNat l.toNat)) := by
  obtain ⟨hx, hy, hv, _⟩ := h.nonzero
  have hreach : ∀ z, Reaches (frontrunQuote z v x y feeBps) l ↔
      Survives (keptBps feeBps) x.toNat y.toNat v.toNat l.toNat z.toNat := fun z =>
    reaches_frontrunQuote_iff hfee (ne_zero_of_toNat_pos hx) (ne_zero_of_toNat_pos hy)
      (ne_zero_of_toNat_pos hv)
  constructor
  · intro hsafe
    rcases Nat.eq_zero_or_pos (lessMargin marginBps.toNat (frontrunRoot (keptBps feeBps) x.toNat
      y.toNat v.toNat l.toNat)) with hzero | hpos
    · rw [hzero, survives_zero_iff h.denominator]
      exact h.below.le
    · have hlt : lessMargin marginBps.toNat (frontrunRoot (keptBps feeBps) x.toNat y.toNat
          v.toNat l.toNat) < 2 ^ 256 :=
        ((lessMargin_le _ _).trans_lt h.frontrunRoot_lt).trans (by decide)
      have hvalue := toNat_ofNat hlt
      have hz := ne_zero_of_toNat_pos (hpos.trans_eq hvalue.symm)
      have hreaches := hsafe _ ((optimalV2FrontrunAmount_eq_ok_iff hz).mpr
        ⟨⟨hfee, hmargin⟩, h, hvalue⟩) hz
      rwa [hreach, hvalue] at hreaches
  · intro hsurvives a ha hz
    obtain ⟨_, _, hvalue⟩ := (optimalV2FrontrunAmount_eq_ok_iff hz).mp ha
    rw [hreach, hvalue]
    exact hsurvives

theorem survives_lessMargin_iff {kept x y v l marginBps : ℕ} (hkept : 0 < kept)
    (hmargin : marginBps < 10000) (h : Solvable kept x y v l) :
    Survives kept x y v l (lessMargin marginBps (frontrunRoot kept x y v l)) ↔
      RemaindersFallShort kept x y v l marginBps := by
  obtain ⟨hx, _, _, hl⟩ := h.nonzero
  have hbeyond : ∀ m, lessMargin marginBps (frontrunRoot kept x y v l) ≤ m ↔
      positiveCost kept x y v + droppedCost kept x v l (firstBeyond marginBps m) <
        clearingCost kept x v l (firstBeyond marginBps m) + droppedRevenue kept x y v l := by
    intro m
    rw [← Nat.not_lt, lt_lessMargin_iff hmargin, le_frontrunRoot_iff_clearingCost hkept hl h.terms,
      Nat.not_le]
  unfold RemaindersFallShort
  simp only [← hbeyond]
  constructor
  · intro hsurvives m _ hnext
    by_contra hlarge
    exact hnext (hsurvives.anti hx (Nat.lt_of_not_le hlarge))
  · intro hcondition
    obtain ⟨m, hm, hnext⟩ :=
      exists_last_survived ((survives_zero_iff h.denominator).mpr h.below.le)
    exact hm.anti hx (hcondition m hm hnext)

theorem clears_of_exact_or_margin {kept x y v l marginBps : ℕ} (hkept : 0 < kept)
    (hle : kept ≤ 10000) (hmargin : marginBps < 10000) (h : Solvable kept x y v l)
    (hcover : ExactDivisions kept x v ∨ 20000 ≤ marginBps * x) :
    Survives kept x y v l (lessMargin marginBps (frontrunRoot kept x y v l)) := by
  obtain ⟨hx, _, _, hl⟩ := h.nonzero
  have hfits : y * v * kept < 2 ^ 256 :=
    (show y * v * kept = v * kept * y by ring).trans_lt h.numerator
  have hroot := (le_frontrunRoot_iff_clearingCost hkept hl h.terms).mp le_rfl
  rcases hcover with hexact | hcovers
  · rw [hexact.droppedCost_eq, Nat.add_zero] at hroot
    have hclears : Clears kept x y v l (frontrunRoot kept x y v l) :=
      (Nat.le_add_right _ _).trans hroot
    exact (hclears.survives hx hl hfits).anti hx (lessMargin_le _ _)
  · rcases Nat.eq_zero_or_pos (frontrunRoot kept x y v l) with hzero | hpos
    · rw [hzero, lessMargin, Nat.zero_mul, Nat.zero_div, survives_zero_iff h.denominator]
      exact h.below.le
    · exact (clears_lessMargin hle hkept hcovers hmargin.le hpos hroot).survives hx hl hfits

/-- The size is safe exactly if the remainders do not pay for the first size that leaves the
victim short. Exact divisions and a margin of `20000 / x` see to it. -/
theorem isSafeFrontrun_iff (v l x y : U256) (feeBps marginBps : BitVec 32) :
    (IsSafeFrontrun v l x y feeBps marginBps ↔
      (feeBps.toNat < 10000 → marginBps.toNat < 10000 →
        Solvable (keptBps feeBps) x.toNat y.toNat v.toNat l.toNat →
        RemaindersFallShort (keptBps feeBps) x.toNat y.toNat v.toNat l.toNat
          marginBps.toNat)) ∧
      (ExactDivisions (keptBps feeBps) x.toNat v.toNat ∨ 20000 ≤ marginBps.toNat * x.toNat →
        IsSafeFrontrun v l x y feeBps marginBps) := by
  -- without a guard or an overflow in the way there is a root
  have hguard : (feeBps.toNat < 10000 → marginBps.toNat < 10000 →
      Solvable (keptBps feeBps) x.toNat y.toNat v.toNat l.toNat →
      IsSafeFrontrun v l x y feeBps marginBps) → IsSafeFrontrun v l x y feeBps marginBps := by
    intro hsafe a ha hz
    obtain ⟨⟨hfee, hmargin⟩, h, _⟩ := (optimalV2FrontrunAmount_eq_ok_iff hz).mp ha
    exact hsafe hfee hmargin h a ha hz
  refine ⟨⟨fun hsafe hfee hmargin h => ?_, fun hcondition => hguard fun hfee hmargin h => ?_⟩,
    fun hcover => hguard fun hfee hmargin h => ?_⟩
  · rw [isSafeFrontrun_iff_survives hfee hmargin h] at hsafe
    exact (survives_lessMargin_iff (keptBps_pos hfee) hmargin h).mp hsafe
  · rw [isSafeFrontrun_iff_survives hfee hmargin h]
    exact (survives_lessMargin_iff (keptBps_pos hfee) hmargin h).mpr (hcondition hfee hmargin h)
  · rw [isSafeFrontrun_iff_survives hfee hmargin h]
    exact clears_of_exact_or_margin (keptBps_pos hfee) (keptBps_le feeBps) hmargin h hcover

/-- One basis point of margin is enough where none is not. -/
theorem isSafeFrontrun_oneBps :
    IsSafeFrontrun 213701430650514703 190733832535780362 101837928390521795 634871259912245193
      30 1 :=
  (isSafeFrontrun_iff _ _ _ _ _ _).2 (.inr (by decide))

/-- The returned frontrun of 80884059844592719 leaves 190733832535780361. -/
theorem not_isSafeFrontrun :
    ¬IsSafeFrontrun 213701430650514703 190733832535780362 101837928390521795 634871259912245193
      30 0 := by
  intro hsafe
  have hroot : frontrunRoot (keptBps 30) (101837928390521795 : U256).toNat
      (634871259912245193 : U256).toNat (213701430650514703 : U256).toNat
      (190733832535780362 : U256).toNat = 80884059844592719 := by
    apply le_antisymm
    · exact Nat.lt_succ_iff.mp (Nat.lt_of_not_le (mt le_frontrunRoot_iff.mp (by decide)))
    · exact le_frontrunRoot_iff.mpr (by decide)
  have hreturned : optimalV2FrontrunAmount 213701430650514703 190733832535780362
      101837928390521795 634871259912245193 30 0 = .ok 80884059844592719 := by
    rw [optimalV2FrontrunAmount_eq_ok_iff (by decide), hroot]
    refine ⟨by decide, ⟨by decide, by decide, by decide, by decide, by decide, by decide,
      by decide, by decide, by decide, by decide⟩, by decide⟩
  have hreaches := hsafe _ hreturned (by decide)
  rw [reaches_frontrunQuote_iff (by decide) (by decide) (by decide) (by decide)] at hreaches
  exact absurd hreaches.filled (by decide)

end Degenbot.V2Simulation
