import Degenbot.Library.FractionalMap
import Degenbot.Verification.V2.Quote

/-! # The optimal input of a cycle of two pools

The profit of an integer input rises as long as `(m + n x) (m + n (x + 1)) ≤ k m`. -/

namespace Degenbot.V2Simulation

open Library Wide

/-! ## The profit without rounding -/

/-- `amount_out` over the rationals. -/
def rationalOut (kept reserveIn reserveOut : ℕ) (x : ℚ) : ℚ :=
  x * kept * reserveOut / (reserveIn * 10000 + x * kept)

def cycleProfit (kept1 rA1 rB1 kept2 rB2 rA2 : ℕ) (x : ℚ) : ℚ :=
  rationalOut kept2 rB2 rA2 (rationalOut kept1 rA1 rB1 x) - x

section Cycle

variable {kept1 rA1 rB1 kept2 rB2 rA2 : ℕ}

def poolMap (kept reserveIn reserveOut : ℕ) : FractionalMap ℚ where
  k := kept * reserveOut
  m := reserveIn * 10000
  n := kept

theorem rationalOut_eq_eval (kept reserveIn reserveOut : ℕ) (x : ℚ) :
    rationalOut kept reserveIn reserveOut x = (poolMap kept reserveIn reserveOut).eval x := by
  unfold rationalOut FractionalMap.eval poolMap
  ring

theorem poolMap_regular (kept reserveOut : ℕ) {reserveIn : ℕ} (h : 0 < reserveIn) :
    (poolMap kept reserveIn reserveOut).Regular where
  m_pos := by
    have hcast : (0 : ℚ) < reserveIn := by exact_mod_cast h
    exact mul_pos hcast (by norm_num)
  n_nonneg := Nat.cast_nonneg _

/-- The constant and the linear coefficient of the denominator of the cycle. -/
def cycleBase (rA1 rB2 : ℕ) : ℕ := rA1 * rB2 * (10000 * 10000)

def cycleSlope (kept1 rB1 kept2 rB2 : ℕ) : ℕ := kept1 * (rB2 * 10000 + rB1 * kept2)

/-- What the base times the numerator comes to. -/
def cycleRadicand (kept1 rA1 rB1 kept2 rB2 rA2 : ℕ) : ℕ := rA1 * rB1 * rB2 * rA2 * kept1 * kept2

def cycleMap (kept1 rA1 rB1 kept2 rB2 rA2 : ℕ) : FractionalMap ℚ :=
  (poolMap kept1 rA1 rB1).andThen (poolMap kept2 rB2 rA2)

theorem cycleMap_regular (hA1 : 0 < rA1) (hB2 : 0 < rB2) :
    (cycleMap kept1 rA1 rB1 kept2 rB2 rA2).Regular := by
  have hfirst := poolMap_regular kept1 rB1 hA1
  have hsecond := poolMap_regular kept2 rA2 hB2
  refine ⟨mul_pos hfirst.m_pos hsecond.m_pos, ?_⟩
  exact add_nonneg (mul_nonneg hfirst.n_nonneg hsecond.m_pos.le)
    (mul_nonneg (mul_nonneg (Nat.cast_nonneg _) (Nat.cast_nonneg _)) hsecond.n_nonneg)

theorem cycleProfit_eq_surplus (hA1 : 0 < rA1) {x : ℚ} (hx : 0 ≤ x) :
    cycleProfit kept1 rA1 rB1 kept2 rB2 rA2 x =
      (cycleMap kept1 rA1 rB1 kept2 rB2 rA2).surplus x := by
  rw [cycleProfit, rationalOut_eq_eval, rationalOut_eq_eval, FractionalMap.surplus, cycleMap,
    FractionalMap.eval_andThen (poolMap_regular kept1 rB1 hA1) hx]

theorem cycleMap_m : (cycleMap kept1 rA1 rB1 kept2 rB2 rA2).m = (cycleBase rA1 rB2 : ℚ) := by
  simp only [cycleMap, FractionalMap.andThen, poolMap, cycleBase]
  push_cast
  ring

theorem cycleMap_n :
    (cycleMap kept1 rA1 rB1 kept2 rB2 rA2).n = (cycleSlope kept1 rB1 kept2 rB2 : ℚ) := by
  simp only [cycleMap, FractionalMap.andThen, poolMap, cycleSlope]
  push_cast
  ring

theorem cycleMap_k_mul_m :
    (cycleMap kept1 rA1 rB1 kept2 rB2 rA2).k * (cycleMap kept1 rA1 rB1 kept2 rB2 rA2).m =
      (cycleRadicand kept1 rA1 rB1 kept2 rB2 rA2 * (10000 * 10000) : ℕ) := by
  simp only [cycleMap, FractionalMap.andThen, poolMap, cycleRadicand]
  push_cast
  ring

theorem profit_lt_succ_iff (hA1 : 0 < rA1) (hB2 : 0 < rB2) (n : ℕ) :
    cycleProfit kept1 rA1 rB1 kept2 rB2 rA2 n <
        cycleProfit kept1 rA1 rB1 kept2 rB2 rA2 (n + 1 : ℕ) ↔
      (cycleBase rA1 rB2 + cycleSlope kept1 rB1 kept2 rB2 * n) *
          (cycleBase rA1 rB2 + cycleSlope kept1 rB1 kept2 rB2 * (n + 1)) <
        cycleRadicand kept1 rA1 rB1 kept2 rB2 rA2 * (10000 * 10000) := by
  rw [cycleProfit_eq_surplus hA1 (Nat.cast_nonneg _),
    cycleProfit_eq_surplus hA1 (Nat.cast_nonneg _), Nat.cast_succ,
    FractionalMap.surplus_lt_step_iff (cycleMap_regular hA1 hB2) (Nat.cast_nonneg _),
    cycleMap_k_mul_m, cycleMap_m, cycleMap_n, ← Nat.cast_lt (α := ℚ)]
  push_cast
  rfl

end Cycle

/-! ## The closed form -/

/-- The result over unbounded naturals. -/
def closedForm (kept1 rA1 rB1 kept2 rB2 rA2 : ℕ) : ℕ :=
  ((cycleRadicand kept1 rA1 rB1 kept2 rB2 rA2).sqrt / 10000 - rA1 * rB2) * 10000 /
    (rB2 * 10000 + rB1 * kept1)

/-- A pool reserve: not zero, and no more than 112 bits. -/
structure Uint112 (reserve : U256) : Prop where
  pos : 0 < reserve.toNat
  lt : reserve.toNat < 2 ^ 112

theorem Uint112.ne_zero {reserve : U256} (h : Uint112 reserve) : reserve ≠ 0 := by
  rintro rfl
  exact absurd h.pos (by simp)

variable {rA1 rB1 rB2 rA2 : U256} {feeBps1 feeBps2 : BitVec 32}

theorem toNat_radicand (hA1 : Uint112 rA1) (hB1 : Uint112 rB1) (hB2 : Uint112 rB2)
    (hA2 : Uint112 rA2) (hfee1 : feeBps1.toNat < 10000) (hfee2 : feeBps2.toNat < 10000) :
    (widen rA1 * widen rB1 * widen rB2 * widen rA2 * widen (feeNum feeBps1) *
        widen (feeNum feeBps2)).toNat =
      cycleRadicand (keptBps feeBps1) rA1.toNat rB1.toNat (keptBps feeBps2) rB2.toNat rA2.toNat ∧
      cycleRadicand (keptBps feeBps1) rA1.toNat rB1.toNat (keptBps feeBps2) rB2.toNat rA2.toNat <
        2 ^ 476 := by
  have hpair : rA1.toNat * rB1.toNat < 2 ^ 224 :=
    (Nat.mul_lt_mul'' hA1.lt hB1.lt).trans_eq (by norm_num)
  have hthree : rA1.toNat * rB1.toNat * rB2.toNat < 2 ^ 336 :=
    (Nat.mul_lt_mul'' hpair hB2.lt).trans_eq (pow_add 2 224 112).symm
  have hfour : rA1.toNat * rB1.toNat * rB2.toNat * rA2.toNat < 2 ^ 448 :=
    (Nat.mul_lt_mul'' hthree hA2.lt).trans_eq (pow_add 2 336 112).symm
  have hkept1 : keptBps feeBps1 < 2 ^ 14 := (keptBps_le feeBps1).trans_lt (by decide)
  have hkept2 : keptBps feeBps2 < 2 ^ 14 := (keptBps_le feeBps2).trans_lt (by decide)
  have hfive : rA1.toNat * rB1.toNat * rB2.toNat * rA2.toNat * keptBps feeBps1 < 2 ^ 462 :=
    (Nat.mul_lt_mul'' hfour hkept1).trans_eq (pow_add 2 448 14).symm
  have hsix : rA1.toNat * rB1.toNat * rB2.toNat * rA2.toNat * keptBps feeBps1 *
      keptBps feeBps2 < 2 ^ 476 :=
    (Nat.mul_lt_mul'' hfive hkept2).trans_eq (pow_add 2 462 14).symm
  refine ⟨?_, hsix⟩
  simp only [BitVec.toNat_mul, toNat_widen_u256, toNat_widen_u64, toNat_feeNum hfee1,
    toNat_feeNum hfee2, Nat.mod_mul_mod, cycleRadicand]
  exact Nat.mod_eq_of_lt (lt_wide hsix (by decide))

theorem feeWeighted_lt {a b : U256} (ha : Uint112 a) (hb : Uint112 b) (feeBps : BitVec 32) :
    a.toNat * 10000 + b.toNat * keptBps feeBps < 2 ^ 128 := by
  have hkept := Nat.mul_le_mul hb.lt.le (keptBps_le feeBps)
  have hscaled := ha.lt
  omega

theorem optimalInput2pool_eq_ok (hA1 : Uint112 rA1) (hB1 : Uint112 rB1) (hB2 : Uint112 rB2)
    (hA2 : Uint112 rA2) (hfee1 : feeBps1.toNat < 10000) (hfee2 : feeBps2.toNat < 10000) :
    ∃ c, optimalInput2pool rA1 rB1 feeBps1 rB2 rA2 feeBps2 = .ok c ∧
      c.toNat = closedForm (keptBps feeBps1) rA1.toNat rB1.toNat (keptBps feeBps2) rB2.toNat
        rA2.toNat := by
  obtain ⟨hradicand, hlt⟩ := toNat_radicand hA1 hB1 hB2 hA2 hfee1 hfee2
  have hroot : (cycleRadicand (keptBps feeBps1) rA1.toNat rB1.toNat (keptBps feeBps2) rB2.toNat
      rA2.toNat).sqrt < 2 ^ 238 :=
    Nat.sqrt_lt.mpr (hlt.trans_eq (pow_add 2 238 238))
  unfold optimalInput2pool closedForm
  generalize cycleRadicand _ _ _ _ _ _ = radicand at hradicand hroot ⊢
  rw [if_neg (not_or.mpr ⟨hA1.ne_zero, not_or.mpr ⟨hB1.ne_zero,
    not_or.mpr ⟨hB2.ne_zero, hA2.ne_zero⟩⟩⟩)]
  dsimp only
  have hd : (10000 : U512).toNat = 10000 :=
    toNat_ofNat (lt_wide (w := 14) (by decide) (by decide))
  have hterm1 : (isqrtU512 (widen rA1 * widen rB1 * widen rB2 * widen rA2 *
      widen (feeNum feeBps1) * widen (feeNum feeBps2)) / 10000).toNat = radicand.sqrt / 10000 := by
    rw [BitVec.toNat_udiv, toNat_isqrtU512, hradicand, hd]
  have hterm2 : (widen rA1 * widen rB2).toNat = rA1.toNat * rB2.toNat := toNat_widen_mul _ _
  generalize isqrtU512 _ / 10000 = term1 at hterm1 ⊢
  generalize widen rA1 * widen rB2 = term2 at hterm2 ⊢
  split_ifs with hle
  · refine ⟨0, rfl, ?_⟩
    rw [← hterm1, ← hterm2, Nat.sub_eq_zero_of_le (BitVec.le_def.mp hle), Nat.zero_mul,
      Nat.zero_div]
    rfl
  · have hnumerator : (term1 - term2).toNat = radicand.sqrt / 10000 - rA1.toNat * rB2.toNat := by
      rw [BitVec.toNat_sub_of_le (BitVec.le_of_lt (BitVec.not_le.mp hle)), hterm1, hterm2]
    have hsmall : (radicand.sqrt / 10000 - rA1.toNat * rB2.toNat) * 10000 < 2 ^ 238 := by
      have hdiv := Nat.div_mul_le_self radicand.sqrt 10000
      have hsub := Nat.mul_le_mul_right 10000
        (Nat.sub_le (radicand.sqrt / 10000) (rA1.toNat * rB2.toNat))
      omega
    have hscaled : ((term1 - term2) * 10000).toNat =
        (radicand.sqrt / 10000 - rA1.toNat * rB2.toNat) * 10000 := by
      rw [toNat_mul_of_fits, hnumerator, hd]
      rw [hnumerator, hd]
      exact lt_wide hsmall (by decide)
    have hdenom : (widen rB2 * 10000 + widen rB1 * widen (feeNum feeBps1)).toNat =
        rB2.toNat * 10000 + rB1.toNat * keptBps feeBps1 := by
      have hfits : rB2.toNat * 10000 + rB1.toNat * keptBps feeBps1 < 2 ^ 512 :=
        lt_wide (feeWeighted_lt hB2 hB1 feeBps1) (by decide)
      have hscaledB2 : (widen rB2 * 10000).toNat = rB2.toNat * 10000 := by
        rw [toNat_mul_of_fits, toNat_widen_u256, hd]
        rw [toNat_widen_u256, hd]
        exact (Nat.le_add_right _ _).trans_lt hfits
      have hkeptB1 : (widen rB1 * widen (feeNum feeBps1)).toNat =
          rB1.toNat * keptBps feeBps1 := by
        rw [toNat_mul_of_fits, toNat_widen_u256, toNat_widen_u64, toNat_feeNum hfee1]
        rw [toNat_widen_u256, toNat_widen_u64, toNat_feeNum hfee1]
        exact (Nat.le_add_left _ _).trans_lt hfits
      rw [toNat_add_of_fits, hscaledB2, hkeptB1]
      rwa [hscaledB2, hkeptB1]
    have hresult := Nat.div_le_self
      ((radicand.sqrt / 10000 - rA1.toNat * rB2.toNat) * 10000)
      (rB2.toNat * 10000 + rB1.toNat * keptBps feeBps1)
    have hfits := hresult.trans_lt (hsmall.trans (by decide : 2 ^ 238 < 2 ^ 256))
    refine ⟨BitVec.ofNat 256 _, ?_, toNat_ofNat hfits⟩
    rw [narrowU512_eq_ok, toNat_ofNat hfits, BitVec.toNat_udiv, hscaled, hdenom]

/-! ## Main result -/

/-- No integer input has a larger profit than the returned one and its successor. -/
def Maximises (feeBps1 feeBps2 : BitVec 32) (rA1 rB1 rB2 rA2 : U256) : Prop :=
  ∀ c, optimalInput2pool rA1 rB1 feeBps1 rB2 rA2 feeBps2 = .ok c → ∀ n : ℕ,
    let profit := cycleProfit (keptBps feeBps1) rA1.toNat rB1.toNat (keptBps feeBps2) rB2.toNat
      rA2.toNat
    profit n ≤ max (profit c.toNat) (profit (c.toNat + 1))

/-- The integer input up to which the profit rises. -/
def bestInput (kept1 rA1 rB1 kept2 rB2 rA2 : ℕ) : ℕ :=
  let base := cycleBase rA1 rB2
  let slope := cycleSlope kept1 rB1 kept2 rB2
  ((4 * (cycleRadicand kept1 rA1 rB1 kept2 rB2 rA2 * (10000 * 10000)) + slope ^ 2 - 1).sqrt +
    slope - 2 * base) / (2 * slope)

/-- The step before `bestInput` is not past the closed form, whose denominator
`rB2 * 10000 + rB1 * kept1` stands in for the slope of the cycle. -/
def ReachesBest (kept1 rA1 rB1 kept2 rB2 rA2 : ℕ) : Prop :=
  bestInput kept1 rA1 rB1 kept2 rB2 rA2 ≤ 1 ∨
    (10000 * (rA1 * rB2 + ((bestInput kept1 rA1 rB1 kept2 rB2 rA2 - 1) *
      (rB2 * 10000 + rB1 * kept1) + 9999) / 10000)) ^ 2 ≤ cycleRadicand kept1 rA1 rB1 kept2 rB2 rA2

instance (kept1 rA1 rB1 kept2 rB2 rA2 : ℕ) :
    Decidable (ReachesBest kept1 rA1 rB1 kept2 rB2 rA2) :=
  inferInstanceAs (Decidable (_ ∨ _))

section BestInput

variable {kept1 rA1 rB1 kept2 rB2 rA2 : ℕ}

theorem cycleSlope_pos (hkept1 : 0 < kept1) (hB2 : 0 < rB2) :
    0 < cycleSlope kept1 rB1 kept2 rB2 :=
  Nat.mul_pos hkept1 (Nat.add_pos_left (Nat.mul_pos hB2 (by decide)) _)

theorem profit_lt_succ_iff_lt_bestInput (hkept1 : 0 < kept1) (hA1 : 0 < rA1) (hB2 : 0 < rB2)
    (n : ℕ) :
    cycleProfit kept1 rA1 rB1 kept2 rB2 rA2 n <
        cycleProfit kept1 rA1 rB1 kept2 rB2 rA2 (n + 1 : ℕ) ↔
      n < bestInput kept1 rA1 rB1 kept2 rB2 rA2 := by
  have hslope : 0 < cycleSlope kept1 rB1 kept2 rB2 := cycleSlope_pos hkept1 hB2
  rw [profit_lt_succ_iff hA1 hB2, bestInput]
  generalize cycleRadicand kept1 rA1 rB1 kept2 rB2 rA2 * (10000 * 10000) = bound
  generalize cycleBase rA1 rB2 = base
  generalize cycleSlope kept1 rB1 kept2 rB2 = slope at hslope ⊢
  -- four times the product is a square less the square of the slope
  have hsquare : 4 * ((base + slope * n) * (base + slope * (n + 1))) + slope ^ 2 =
      (2 * (base + slope * n) + slope) * (2 * (base + slope * n) + slope) := by
    ring
  have hpos : 0 < slope ^ 2 := Nat.pow_pos hslope
  have hroot : (base + slope * n) * (base + slope * (n + 1)) < bound ↔
      2 * (base + slope * n) + slope ≤ (4 * bound + slope ^ 2 - 1).sqrt := by
    rw [Nat.le_sqrt, ← hsquare]
    omega
  have hsteps : (n + 1) * (2 * slope) = 2 * (slope * n) + 2 * slope := by ring
  rw [hroot, Nat.lt_iff_add_one_le, Nat.le_div_iff_mul_le (Nat.mul_pos (by decide) hslope), hsteps]
  omega

/-- The slope of the cycle is at most the denominator of the closed form. -/
theorem cycleSlope_le (hle1 : kept1 ≤ 10000) (hle2 : kept2 ≤ 10000) :
    cycleSlope kept1 rB1 kept2 rB2 ≤ 10000 * (rB2 * 10000 + rB1 * kept1) := by
  unfold cycleSlope
  have hfirst : kept1 * (rB2 * 10000) ≤ 10000 * (rB2 * 10000) := Nat.mul_le_mul_right _ hle1
  have hsecond : kept1 * (rB1 * kept2) ≤ 10000 * (rB1 * kept1) := by
    calc kept1 * (rB1 * kept2) = kept2 * (rB1 * kept1) := by ring
      _ ≤ 10000 * (rB1 * kept1) := Nat.mul_le_mul_right _ hle2
  rw [Nat.mul_add, Nat.mul_add]
  exact Nat.add_le_add hfirst hsecond

/-- The closed form never passes the best input. -/
theorem closedForm_le_bestInput (hkept1 : 0 < kept1) (hle1 : kept1 ≤ 10000) (hle2 : kept2 ≤ 10000)
    (hA1 : 0 < rA1) (hB2 : 0 < rB2) :
    closedForm kept1 rA1 rB1 kept2 rB2 rA2 ≤ bestInput kept1 rA1 rB1 kept2 rB2 rA2 := by
  rcases Nat.eq_zero_or_pos (closedForm kept1 rA1 rB1 kept2 rB2 rA2) with hzero | hpos
  · exact hzero.trans_le (Nat.zero_le _)
  obtain ⟨n, hn⟩ := Nat.exists_eq_succ_of_ne_zero hpos.ne'
  have hslope : 0 < cycleSlope kept1 rB1 kept2 rB2 := cycleSlope_pos hkept1 hB2
  have hle : cycleSlope kept1 rB1 kept2 rB2 ≤ 10000 * (rB2 * 10000 + rB1 * kept1) :=
    cycleSlope_le hle1 hle2
  rw [hn]
  refine Nat.succ_le_of_lt ((profit_lt_succ_iff_lt_bestInput hkept1 hA1 hB2 n).mp ?_)
  rw [profit_lt_succ_iff hA1 hB2]
  have hdiv : (n + 1) * (rB2 * 10000 + rB1 * kept1) ≤
      ((cycleRadicand kept1 rA1 rB1 kept2 rB2 rA2).sqrt / 10000 - rA1 * rB2) * 10000 :=
    (Nat.mul_le_mul_right _ hn.ge).trans (Nat.div_mul_le_self _ _)
  have hgap : 0 < (n + 1) * (rB2 * 10000 + rB1 * kept1) :=
    Nat.mul_pos n.succ_pos (Nat.add_pos_left (Nat.mul_pos hB2 (by decide)) _)
  have hroom : rA1 * rB2 * 10000 + (n + 1) * (rB2 * 10000 + rB1 * kept1) ≤
      (cycleRadicand kept1 rA1 rB1 kept2 rB2 rA2).sqrt := by
    generalize (cycleRadicand kept1 rA1 rB1 kept2 rB2 rA2).sqrt = root at hdiv ⊢
    generalize (n + 1) * (rB2 * 10000 + rB1 * kept1) = scaled at hdiv hgap ⊢
    generalize rA1 * rB2 = spent at hdiv ⊢
    omega
  have hreach : cycleBase rA1 rB2 + cycleSlope kept1 rB1 kept2 rB2 * (n + 1) ≤
      10000 * (cycleRadicand kept1 rA1 rB1 kept2 rB2 rA2).sqrt := by
    calc cycleBase rA1 rB2 + cycleSlope kept1 rB1 kept2 rB2 * (n + 1)
        ≤ cycleBase rA1 rB2 + 10000 * (rB2 * 10000 + rB1 * kept1) * (n + 1) :=
          Nat.add_le_add_left (Nat.mul_le_mul_right _ hle) _
      _ = 10000 * (rA1 * rB2 * 10000 + (n + 1) * (rB2 * 10000 + rB1 * kept1)) := by
          rw [cycleBase]
          ring
      _ ≤ 10000 * (cycleRadicand kept1 rA1 rB1 kept2 rB2 rA2).sqrt :=
          Nat.mul_le_mul_left _ hroom
  have hhere : cycleBase rA1 rB2 + cycleSlope kept1 rB1 kept2 rB2 * n <
      cycleBase rA1 rB2 + cycleSlope kept1 rB1 kept2 rB2 * (n + 1) :=
    Nat.add_lt_add_left ((Nat.mul_lt_mul_left hslope).mpr n.lt_succ_self) _
  have hroot : 0 < 10000 * (cycleRadicand kept1 rA1 rB1 kept2 rB2 rA2).sqrt :=
    (Nat.zero_le _).trans_lt (hhere.trans_le hreach)
  have hsqrt := Nat.mul_le_mul_right (10000 * 10000)
    (Nat.sqrt_le (cycleRadicand kept1 rA1 rB1 kept2 rB2 rA2))
  exact (Nat.mul_lt_mul_of_lt_of_le (hhere.trans_le hreach) hreach hroot).trans_le (by linarith)

/-- The profit is largest next to the closed form exactly if it stops rising there. -/
theorem le_max_iff_bestInput_le (hkept1 : 0 < kept1) (hle1 : kept1 ≤ 10000) (hle2 : kept2 ≤ 10000)
    (hA1 : 0 < rA1) (hB2 : 0 < rB2) :
    let profit := cycleProfit kept1 rA1 rB1 kept2 rB2 rA2
    let c := closedForm kept1 rA1 rB1 kept2 rB2 rA2
    (∀ n : ℕ, profit n ≤ max (profit c) (profit (c + 1 : ℕ))) ↔
      bestInput kept1 rA1 rB1 kept2 rB2 rA2 ≤ c + 1 := by
  intro profit c
  have hrises : ∀ n : ℕ, profit n < profit (n + 1 : ℕ) ↔
      n < bestInput kept1 rA1 rB1 kept2 rB2 rA2 :=
    profit_lt_succ_iff_lt_bestInput hkept1 hA1 hB2
  constructor
  · intro hmax
    by_contra hlt
    have hfirst : profit c < profit (c + 1 : ℕ) := (hrises c).mpr (by omega)
    have hsecond : profit (c + 1 : ℕ) < profit (c + 1 + 1 : ℕ) := (hrises (c + 1)).mpr (by omega)
    exact absurd (hmax (c + 1 + 1)) (not_le.mpr (max_lt (hfirst.trans hsecond) hsecond))
  · intro hle
    have hbelow : c ≤ bestInput kept1 rA1 rB1 kept2 rB2 rA2 :=
      closedForm_le_bestInput hkept1 hle1 hle2 hA1 hB2
    apply le_max_of_unimodal (f := fun n : ℕ => profit n)
    · intro n hn
      exact ((hrises n).mpr (hn.trans_le hbelow)).le
    · intro n hn
      exact le_of_not_gt fun hrise => absurd ((hrises n).mp hrise) (by omega)

theorem bestInput_le_succ_closedForm_iff (hB2 : 0 < rB2) :
    bestInput kept1 rA1 rB1 kept2 rB2 rA2 ≤ closedForm kept1 rA1 rB1 kept2 rB2 rA2 + 1 ↔
      ReachesBest kept1 rA1 rB1 kept2 rB2 rA2 := by
  unfold ReachesBest closedForm
  generalize bestInput kept1 rA1 rB1 kept2 rB2 rA2 = best
  generalize cycleRadicand kept1 rA1 rB1 kept2 rB2 rA2 = radicand
  have hdenom : 0 < rB2 * 10000 + rB1 * kept1 :=
    Nat.add_pos_left (Nat.mul_pos hB2 (by decide)) _
  rcases Nat.lt_or_ge 1 best with hlt | hle
  · have hstep : 0 < (best - 1) * (rB2 * 10000 + rB1 * kept1) :=
      Nat.mul_pos (Nat.sub_pos_of_lt hlt) hdenom
    rw [or_iff_right (Nat.not_le.mpr hlt), ← Nat.sub_le_iff_le_add,
      Nat.le_div_iff_mul_le hdenom, pow_two, ← Nat.le_sqrt, mul_comm 10000 (_ + _),
      ← Nat.le_div_iff_mul_le (by decide : 0 < 10000)]
    generalize radicand.sqrt / 10000 = root
    omega
  · exact ⟨fun _ => .inl hle, fun _ => hle.trans (Nat.le_add_left 1 _)⟩

/-- Where the first unit does not pay, no input does. -/
theorem unprofitable_reachesBest (hkept1 : 0 < kept1) (hA1 : 0 < rA1) (hB2 : 0 < rB2)
    (h : cycleRadicand kept1 rA1 rB1 kept2 rB2 rA2 * (10000 * 10000) ≤
      cycleBase rA1 rB2 * (cycleBase rA1 rB2 + cycleSlope kept1 rB1 kept2 rB2)) :
    ReachesBest kept1 rA1 rB1 kept2 rB2 rA2 := by
  left
  by_contra hlt
  have hpos : 0 < bestInput kept1 rA1 rB1 kept2 rB2 rA2 := by omega
  have hrise := (profit_lt_succ_iff_lt_bestInput hkept1 hA1 hB2 0).mpr hpos
  rw [profit_lt_succ_iff hA1 hB2, Nat.mul_zero, Nat.add_zero, Nat.zero_add, Nat.mul_one] at hrise
  exact absurd h (Nat.not_le.mpr hrise)

end BestInput

/-- Without fees the slope of the cycle is the denominator of the closed form. -/
theorem noFee_reachesBest {rA1 rB1 rB2 rA2 : ℕ} (hA1 : 0 < rA1) (hB2 : 0 < rB2) :
    ReachesBest 10000 rA1 rB1 10000 rB2 rA2 := by
  have hrises : ∀ n : ℕ, cycleProfit 10000 rA1 rB1 10000 rB2 rA2 n <
      cycleProfit 10000 rA1 rB1 10000 rB2 rA2 (n + 1 : ℕ) ↔
        n < bestInput 10000 rA1 rB1 10000 rB2 rA2 :=
    profit_lt_succ_iff_lt_bestInput (by decide) hA1 hB2
  unfold ReachesBest
  generalize bestInput 10000 rA1 rB1 10000 rB2 rA2 = best at hrises ⊢
  rcases Nat.lt_or_ge 1 best with hlt | hle
  · have hrise := (hrises (best - 1)).mpr (by omega)
    rw [profit_lt_succ_iff hA1 hB2, cycleBase, cycleSlope, cycleRadicand] at hrise
    have hceil : ((best - 1) * (rB2 * 10000 + rB1 * 10000) + 9999) / 10000 =
        (best - 1) * (rB2 + rB1) := by
      rw [← Nat.add_mul, ← Nat.mul_assoc]
      omega
    right
    rw [hceil, cycleRadicand]
    generalize best - 1 = n at hrise ⊢
    have hnext : rA1 * rB2 + n * (rB2 + rB1) ≤ rA1 * rB2 + (n + 1) * (rB2 + rB1) :=
      Nat.add_le_add_left (Nat.mul_le_mul_right _ n.le_succ) _
    have hsquare := Nat.mul_le_mul_left (rA1 * rB2 + n * (rB2 + rB1)) hnext
    linarith
  · exact .inl hle

/-- Reserves for which two units more than the closed form pay more, at any fee. -/
theorem fee_not_maximal {kept1 kept2 : ℕ} (hkept1 : 0 < kept1) (hle1 : kept1 ≤ 10000)
    (hkept2 : 0 < kept2) (hle2 : kept2 ≤ 10000) (hfee : kept1 * kept2 < 10000 * 10000) :
    let profit := cycleProfit kept1 (2 ^ 40) (2 ^ 40) kept2 (2 ^ 40) (2 ^ 110)
    let c := closedForm kept1 (2 ^ 40) (2 ^ 40) kept2 (2 ^ 40) (2 ^ 110)
    profit c < profit (c + 1 : ℕ) ∧ profit (c + 1 : ℕ) < profit (c + 2 : ℕ) := by
  intro profit c
  set radicand := cycleRadicand kept1 (2 ^ 40) (2 ^ 40) kept2 (2 ^ 40) (2 ^ 110) with hradicand
  have hroot : 2 ^ 115 ≤ radicand.sqrt := by
    have hkept : 1 ≤ kept1 * kept2 := Nat.mul_pos hkept1 hkept2
    rw [Nat.le_sqrt, hradicand, cycleRadicand, mul_assoc _ kept1]
    calc 2 ^ 115 * 2 ^ 115 = 2 ^ 40 * 2 ^ 40 * 2 ^ 40 * 2 ^ 110 * 1 := by norm_num
      _ ≤ 2 ^ 40 * 2 ^ 40 * 2 ^ 40 * 2 ^ 110 * (kept1 * kept2) := Nat.mul_le_mul_left _ hkept
  obtain ⟨gap, hgap⟩ := Nat.exists_eq_add_of_le (show 10000 * 2 ^ 80 ≤ radicand.sqrt by omega)
  have hgapLarge : 2 ^ 114 ≤ gap := by omega
  have hc : c * (2 ^ 40 * (10000 + kept1)) ≤ gap := by
    have hdiv : c * (2 ^ 40 * 10000 + 2 ^ 40 * kept1) ≤
        (radicand.sqrt / 10000 - 2 ^ 40 * 2 ^ 40) * 10000 := Nat.div_mul_le_self _ _
    have hfloor := Nat.div_mul_le_self radicand.sqrt 10000
    rw [Nat.mul_add]
    omega
  -- the slope of the closed form is too large by the part of the fees that it leaves out
  have hslope : 2 ^ 40 * (kept1 * (10000 + kept2)) * (c + 2) < 10000 * gap := by
    apply Nat.lt_of_mul_lt_mul_right (a := 10000 + kept1)
    have hscaled : kept1 * (10000 + kept2) * (c * (2 ^ 40 * (10000 + kept1))) ≤
        kept1 * (10000 + kept2) * gap := Nat.mul_le_mul_left _ hc
    have hloss : kept1 * (10000 + kept2) + 1 ≤ 10000 * (10000 + kept1) := by nlinarith
    have hgain := Nat.mul_le_mul_right gap hloss
    have hextra : 2 ^ 41 * (kept1 * (10000 + kept2)) * (10000 + kept1) < gap := by
      have hfirst : kept1 * (10000 + kept2) ≤ 10000 * 20000 :=
        Nat.mul_le_mul hle1 (by omega)
      have hboth : kept1 * (10000 + kept2) * (10000 + kept1) ≤ 10000 * 20000 * 20000 :=
        Nat.mul_le_mul hfirst (by omega)
      calc 2 ^ 41 * (kept1 * (10000 + kept2)) * (10000 + kept1)
          = 2 ^ 41 * (kept1 * (10000 + kept2) * (10000 + kept1)) := by ring
        _ ≤ 2 ^ 41 * (10000 * 20000 * 20000) := Nat.mul_le_mul_left _ hboth
        _ < 2 ^ 114 := by norm_num
        _ ≤ gap := hgapLarge
    calc 2 ^ 40 * (kept1 * (10000 + kept2)) * (c + 2) * (10000 + kept1)
        = kept1 * (10000 + kept2) * (c * (2 ^ 40 * (10000 + kept1))) +
            2 ^ 41 * (kept1 * (10000 + kept2)) * (10000 + kept1) := by ring
      _ < kept1 * (10000 + kept2) * gap + gap := Nat.add_lt_add_of_le_of_lt hscaled hextra
      _ = (kept1 * (10000 + kept2) + 1) * gap := by ring
      _ ≤ 10000 * (10000 + kept1) * gap := hgain
      _ = 10000 * gap * (10000 + kept1) := by ring
  have hreach : cycleBase (2 ^ 40) (2 ^ 40) + cycleSlope kept1 (2 ^ 40) kept2 (2 ^ 40) * (c + 2) <
      10000 * radicand.sqrt := by
    have hsame : cycleSlope kept1 (2 ^ 40) kept2 (2 ^ 40) = 2 ^ 40 * (kept1 * (10000 + kept2)) := by
      unfold cycleSlope
      ring
    rw [hsame, hgap, cycleBase]
    omega
  have hsquare : ∀ n ≤ c + 1, profit n < profit (n + 1 : ℕ) := by
    intro n hn
    rw [profit_lt_succ_iff (by norm_num) (by norm_num)]
    have hnext : cycleBase (2 ^ 40) (2 ^ 40) + cycleSlope kept1 (2 ^ 40) kept2 (2 ^ 40) * (n + 1) <
        10000 * radicand.sqrt :=
      (Nat.add_le_add_left (Nat.mul_le_mul_left _ (by omega)) _).trans_lt hreach
    have hhere : cycleBase (2 ^ 40) (2 ^ 40) + cycleSlope kept1 (2 ^ 40) kept2 (2 ^ 40) * n <
        10000 * radicand.sqrt :=
      (Nat.add_le_add_left (Nat.mul_le_mul_left _ (Nat.le_succ n)) _).trans_lt hnext
    have hsqrt := Nat.mul_le_mul_right (10000 * 10000) (Nat.sqrt_le radicand)
    exact (Nat.mul_lt_mul'' hhere hnext).trans_le (by linarith)
  exact ⟨hsquare c (Nat.le_succ c), hsquare (c + 1) le_rfl⟩

theorem uint112_twoPow {k : ℕ} (hk : k < 112) :
    Uint112 (BitVec.ofNat 256 (2 ^ k)) ∧ (BitVec.ofNat 256 (2 ^ k)).toNat = 2 ^ k := by
  have hvalue : (BitVec.ofNat 256 (2 ^ k)).toNat = 2 ^ k :=
    toNat_ofNat (Nat.pow_lt_pow_right (by decide) (by omega))
  refine ⟨⟨?_, ?_⟩, hvalue⟩
  · rw [hvalue]
    exact Nat.two_pow_pos k
  · rw [hvalue]
    exact Nat.pow_lt_pow_right (by decide) hk

theorem maximises_iff_reachesBest (hA1 : Uint112 rA1) (hB1 : Uint112 rB1) (hB2 : Uint112 rB2)
    (hA2 : Uint112 rA2) (hfee1 : feeBps1.toNat < 10000) (hfee2 : feeBps2.toNat < 10000) :
    Maximises feeBps1 feeBps2 rA1 rB1 rB2 rA2 ↔
      ReachesBest (keptBps feeBps1) rA1.toNat rB1.toNat (keptBps feeBps2) rB2.toNat rA2.toNat := by
  obtain ⟨c, hc, hclosed⟩ := optimalInput2pool_eq_ok hA1 hB1 hB2 hA2 hfee1 hfee2
  have hlargest := @le_max_iff_bestInput_le _ rA1.toNat rB1.toNat _ rB2.toNat rA2.toNat
    (keptBps_pos hfee1) (keptBps_le feeBps1) (keptBps_le feeBps2) hA1.pos hB2.pos
  dsimp only at hlargest
  rw [← bestInput_le_succ_closedForm_iff hB2.pos, ← hlargest, ← hclosed, Nat.cast_succ]
  constructor
  · intro hmax n
    exact hmax c hc n
  · intro hmax c' hc' n
    cases hc'.symm.trans hc
    exact hmax n

/-- When the closed form is optimal: for given reserves, and for all reserves of given fees. -/
theorem maximises_iff {feeBps1 feeBps2 : BitVec 32} (hfee1 : feeBps1.toNat < 10000)
    (hfee2 : feeBps2.toNat < 10000) :
    (∀ rA1 rB1 rB2 rA2 : U256, Uint112 rA1 → Uint112 rB1 → Uint112 rB2 → Uint112 rA2 →
        (Maximises feeBps1 feeBps2 rA1 rB1 rB2 rA2 ↔
          ReachesBest (keptBps feeBps1) rA1.toNat rB1.toNat (keptBps feeBps2) rB2.toNat
            rA2.toNat)) ∧
      ((∀ rA1 rB1 rB2 rA2 : U256, Uint112 rA1 → Uint112 rB1 → Uint112 rB2 → Uint112 rA2 →
          Maximises feeBps1 feeBps2 rA1 rB1 rB2 rA2) ↔
        feeBps1.toNat = 0 ∧ feeBps2.toNat = 0) := by
  refine ⟨fun rA1 rB1 rB2 rA2 hA1 hB1 hB2 hA2 =>
    maximises_iff_reachesBest hA1 hB1 hB2 hA2 hfee1 hfee2, ?_, ?_⟩
  · intro hall
    by_contra hfee
    have hlt : keptBps feeBps1 * keptBps feeBps2 < 10000 * 10000 := by
      unfold keptBps
      rcases not_and_or.mp hfee with hfirst | hsecond
      · exact Nat.mul_lt_mul_of_lt_of_le (by omega) (by omega) (by decide)
      · exact Nat.mul_lt_mul_of_le_of_lt (by omega) (by omega) (by decide)
    obtain ⟨ha, haValue⟩ := uint112_twoPow (k := 40) (by decide)
    obtain ⟨hb, hbValue⟩ := uint112_twoPow (k := 110) (by decide)
    obtain ⟨c, hc, hclosed⟩ := optimalInput2pool_eq_ok ha ha ha hb hfee1 hfee2
    have hmax := hall _ _ _ _ ha ha ha hb c hc (c.toNat + 2)
    rw [hclosed, haValue, hbValue] at hmax
    obtain ⟨hfirst, hsecond⟩ := fee_not_maximal (keptBps_pos hfee1) (keptBps_le feeBps1)
      (keptBps_pos hfee2) (keptBps_le feeBps2) hlt
    push_cast at hmax hfirst hsecond
    exact absurd hmax (not_le.mpr (max_lt (hfirst.trans hsecond) hsecond))
  · rintro ⟨hzero1, hzero2⟩ rA1 rB1 rB2 rA2 hA1 hB1 hB2 hA2
    have hkept1 : keptBps feeBps1 = 10000 := by rw [keptBps, hzero1]
    have hkept2 : keptBps feeBps2 = 10000 := by rw [keptBps, hzero2]
    rw [maximises_iff_reachesBest hA1 hB1 hB2 hA2 hfee1 hfee2, hkept1, hkept2]
    exact noFee_reachesBest hA1.pos hB2.pos

/-- Two even pools at 30 bps pay for no input: the guard returns 0. -/
theorem maximises_evenPools :
    Maximises 30 30 (BitVec.ofNat 256 (10 ^ 6)) (BitVec.ofNat 256 (10 ^ 6))
        (BitVec.ofNat 256 (10 ^ 6)) (BitVec.ofNat 256 (10 ^ 6)) ∧
      ¬∀ rA1 rB1 rB2 rA2 : U256, Uint112 rA1 → Uint112 rB1 → Uint112 rB2 → Uint112 rA2 →
        Maximises 30 30 rA1 rB1 rB2 rA2 := by
  have hreserve : Uint112 (BitVec.ofNat 256 (10 ^ 6)) := ⟨by decide, by decide⟩
  obtain ⟨heach, hall⟩ := @maximises_iff 30 30 (by decide) (by decide)
  constructor
  · refine (heach _ _ _ _ hreserve hreserve hreserve hreserve).mpr
      (unprofitable_reachesBest (by decide) (by decide) (by decide) (by decide))
  · rw [hall]
    decide

/-- The input `18861089166884716372892` pays more than the returned one and its successor. -/
theorem thirtyBps_not_maximal :
    ¬Maximises 30 30 (BitVec.ofNat 256 (2 ^ 40)) (BitVec.ofNat 256 (2 ^ 40))
      (BitVec.ofNat 256 (2 ^ 40)) (BitVec.ofNat 256 (2 ^ 110)) := by
  intro hmax
  obtain ⟨ha, haValue⟩ := uint112_twoPow (k := 40) (by decide)
  obtain ⟨hb, hbValue⟩ := uint112_twoPow (k := 110) (by decide)
  have hfee : (30 : BitVec 32).toNat < 10000 := by decide
  obtain ⟨c, hc, hclosed⟩ := optimalInput2pool_eq_ok ha ha ha hb hfee hfee
  have hle := hmax c hc (c.toNat + 2)
  rw [hclosed, haValue, hbValue] at hle
  obtain ⟨hfirst, hsecond⟩ := fee_not_maximal (keptBps_pos hfee) (keptBps_le 30)
    (keptBps_pos hfee) (keptBps_le 30) (by decide)
  push_cast at hle hfirst hsecond
  exact absurd hle (not_le.mpr (max_lt (hfirst.trans hsecond) hsecond))

end Degenbot.V2Simulation
