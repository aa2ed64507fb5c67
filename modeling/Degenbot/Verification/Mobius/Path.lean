import Degenbot.Algorithm.Wide
import Degenbot.Library.FractionalMap
import Degenbot.Verification.Wide

/-! # One hop of the integer Möbius path

The denominator never wraps. A numerator that wraps leaves a quotient below the exact one. -/

namespace Degenbot.Mobius

open Wide

namespace IntHopState

variable (hop : IntHopState) (x : U256)

/-! ## The exact quotient -/

def exactNumerator : ℕ := hop.gammaNumer.toNat * hop.reserveOut.toNat * x.toNat

def exactDenom : ℕ := hop.feeDenom.toNat * hop.reserveIn.toNat + hop.gammaNumer.toNat * x.toNat

def exactSwap : ℕ := hop.exactNumerator x / hop.exactDenom x

/-- The product of the three factors needs more than 512 bits. -/
def Overflows : Prop := 2 ^ 512 ≤ hop.exactNumerator x

instance : Decidable (hop.Overflows x) := inferInstanceAs (Decidable (_ ≤ _))

theorem exactDenom_lt : hop.exactDenom x < 2 ^ 321 := by
  have hfee : hop.feeDenom.toNat * hop.reserveIn.toNat < 2 ^ 64 * 2 ^ 256 :=
    Nat.mul_lt_mul'' hop.feeDenom.isLt hop.reserveIn.isLt
  have hgamma : hop.gammaNumer.toNat * x.toNat < 2 ^ 64 * 2 ^ 256 :=
    Nat.mul_lt_mul'' hop.gammaNumer.isLt x.isLt
  unfold exactDenom
  omega

theorem exactNumerator_le : hop.exactNumerator x ≤ hop.reserveOut.toNat * hop.exactDenom x := by
  unfold exactNumerator exactDenom
  calc hop.gammaNumer.toNat * hop.reserveOut.toNat * x.toNat
      = hop.reserveOut.toNat * (hop.gammaNumer.toNat * x.toNat) := by ring
    _ ≤ _ := Nat.mul_le_mul_left _ (Nat.le_add_left _ _)

theorem exactSwap_le_reserveOut : hop.exactSwap x ≤ hop.reserveOut.toNat := by
  apply Nat.div_le_of_le_mul
  rw [mul_comm]
  exact hop.exactNumerator_le x

/-! ## The wrapped quotient -/

theorem toNat_swap :
    (hop.swap x).toNat = hop.exactNumerator x % 2 ^ 512 / hop.exactDenom x % 2 ^ 256 := by
  have hdenom : (widen hop.feeDenom * widen hop.reserveIn +
      widen hop.gammaNumer * widen x).toNat = hop.exactDenom x := by
    have hlt := hop.exactDenom_lt x
    unfold exactDenom at hlt
    simp only [BitVec.toNat_add, BitVec.toNat_mul, toNat_widen_u64, toNat_widen_u256,
      Nat.add_mod_mod, Nat.mod_add_mod]
    exact Nat.mod_eq_of_lt (lt_wide hlt (by decide))
  have hnumerator : (widen hop.gammaNumer * widen hop.reserveOut * widen x).toNat =
      hop.exactNumerator x % 2 ^ 512 := by
    simp only [BitVec.toNat_mul, toNat_widen_u64, toNat_widen_u256, Nat.mod_mul_mod,
      exactNumerator]
  unfold swap
  dsimp only
  split_ifs with hzero
  · rw [← hdenom, hzero]
    simp
  · rw [BitVec.toNat_setWidth, BitVec.toNat_udiv, hnumerator, hdenom]

/-- Wrapping the numerator only lowers the quotient, so no quotient loses its high bits. -/
theorem toNat_swap_eq_div :
    (hop.swap x).toNat = hop.exactNumerator x % 2 ^ 512 / hop.exactDenom x := by
  rw [toNat_swap]
  apply Nat.mod_eq_of_lt
  calc hop.exactNumerator x % 2 ^ 512 / hop.exactDenom x
      ≤ hop.exactSwap x := Nat.div_le_div_right (Nat.mod_le _ _)
    _ ≤ hop.reserveOut.toNat := hop.exactSwap_le_reserveOut x
    _ < 2 ^ 256 := hop.reserveOut.isLt

theorem swap_le_exactSwap : (hop.swap x).toNat ≤ hop.exactSwap x := by
  rw [toNat_swap_eq_div]
  exact Nat.div_le_div_right (Nat.mod_le _ _)

theorem swap_eq_exactSwap (h : ¬hop.Overflows x) : (hop.swap x).toNat = hop.exactSwap x := by
  rw [toNat_swap_eq_div, Nat.mod_eq_of_lt (Nat.lt_of_not_le h), exactSwap]

theorem swap_lt_exactSwap (h : hop.Overflows x) : (hop.swap x).toNat < hop.exactSwap x := by
  have hpos : 0 < hop.exactDenom x := by
    apply Nat.pos_of_ne_zero
    intro hzero
    have hle := hop.exactNumerator_le x
    rw [hzero, mul_zero] at hle
    exact absurd (h.trans hle) (Nat.two_pow_pos _).not_ge
  have hdenom : hop.exactDenom x ≤ 2 ^ 512 * (hop.exactNumerator x / 2 ^ 512) :=
    calc hop.exactDenom x
        ≤ 2 ^ 321 := (hop.exactDenom_lt x).le
      _ ≤ 2 ^ 512 := Nat.pow_le_pow_right (by decide) (by decide)
      _ ≤ _ := Nat.le_mul_of_pos_right _ (Nat.div_pos h (Nat.two_pow_pos _))
  have hwrap : hop.exactNumerator x % 2 ^ 512 + hop.exactDenom x ≤ hop.exactNumerator x :=
    calc hop.exactNumerator x % 2 ^ 512 + hop.exactDenom x
        ≤ hop.exactNumerator x % 2 ^ 512 + 2 ^ 512 * (hop.exactNumerator x / 2 ^ 512) :=
          Nat.add_le_add_left hdenom _
      _ = hop.exactNumerator x := Nat.mod_add_div _ _
  rw [toNat_swap_eq_div, exactSwap]
  calc hop.exactNumerator x % 2 ^ 512 / hop.exactDenom x
      < (hop.exactNumerator x % 2 ^ 512 + hop.exactDenom x) / hop.exactDenom x := by
        rw [Nat.add_div_right _ hpos]
        exact Nat.lt_succ_self _
    _ ≤ hop.exactNumerator x / hop.exactDenom x := Nat.div_le_div_right hwrap

/-! ## Main result -/

/-- The exact quotient, or 0 where the product overflows, and below the output reserve. -/
structure SwapExact : Prop where
  value : (hop.swap x).toNat = hop.exactSwap x ∨ (hop.Overflows x ∧ hop.swap x = 0)
  lt_reserveOut : (hop.swap x).toNat < hop.reserveOut.toNat

theorem exactSwap_lt_reserveOut_iff :
    hop.exactSwap x < hop.reserveOut.toNat ↔
      0 < hop.reserveOut.toNat ∧ (0 < hop.feeDenom.toNat * hop.reserveIn.toNat ∨
        hop.gammaNumer.toNat * x.toNat = 0) := by
  have hnumerator : hop.exactNumerator x =
      hop.reserveOut.toNat * (hop.gammaNumer.toNat * x.toNat) := by
    unfold exactNumerator
    ring
  unfold exactSwap
  rcases Nat.eq_zero_or_pos (hop.gammaNumer.toNat * x.toNat) with hzero | hamount
  · rw [hnumerator, hzero, mul_zero, Nat.zero_div]
    simp
  · have hdenom : 0 < hop.exactDenom x := Nat.lt_of_lt_of_le hamount (Nat.le_add_left _ _)
    rw [Nat.div_lt_iff_lt_mul hdenom, hnumerator, exactDenom]
    constructor
    · intro hlt
      have hreserve : 0 < hop.reserveOut.toNat := by
        apply Nat.pos_of_ne_zero
        intro hzero
        simp [hzero] at hlt
      have hsum := Nat.lt_of_mul_lt_mul_left hlt
      exact ⟨hreserve, .inl (by omega)⟩
    · rintro ⟨hreserve, hbase | hzero⟩
      · exact Nat.mul_lt_mul_of_pos_left (by omega) hreserve
      · omega

/-- Nothing returns 0 on an overflow; only a small remainder of the product does. -/
theorem swapExact_iff :
    hop.SwapExact x ↔
      (¬hop.Overflows x ∧ 0 < hop.reserveOut.toNat ∧
        (0 < hop.feeDenom.toNat * hop.reserveIn.toNat ∨ hop.gammaNumer.toNat * x.toNat = 0)) ∨
      (hop.Overflows x ∧ hop.exactNumerator x % 2 ^ 512 < hop.exactDenom x) := by
  by_cases hoverflow : hop.Overflows x
  · have hlt := hop.swap_lt_exactSwap x hoverflow
    have hpos : 0 < hop.exactDenom x := by
      apply Nat.pos_of_ne_zero
      intro hzero
      rw [exactSwap, hzero, Nat.div_zero] at hlt
      exact absurd hlt (Nat.not_lt_zero _)
    have hswap : hop.swap x = 0 ↔ hop.exactNumerator x % 2 ^ 512 < hop.exactDenom x := by
      rw [← BitVec.toNat_inj, toNat_swap_eq_div, show (0 : U256).toNat = 0 from rfl,
        Nat.div_eq_zero_iff_lt hpos]
    constructor
    · intro h
      exact .inr ⟨hoverflow, hswap.mp (h.value.resolve_left hlt.ne).2⟩
    · rintro (⟨hfits, _⟩ | ⟨_, hsmall⟩)
      · exact absurd hoverflow hfits
      · exact ⟨.inr ⟨hoverflow, hswap.mpr hsmall⟩,
          hlt.trans_le (hop.exactSwap_le_reserveOut x)⟩
  · have hvalue := hop.swap_eq_exactSwap x hoverflow
    constructor
    · intro h
      have hbelow := h.lt_reserveOut
      rw [hvalue] at hbelow
      exact .inl ⟨hoverflow, (hop.exactSwap_lt_reserveOut_iff x).mp hbelow⟩
    · rintro (⟨_, hbelow⟩ | ⟨hwraps, _⟩)
      · exact ⟨.inl hvalue, hvalue.trans_lt ((hop.exactSwap_lt_reserveOut_iff x).mpr hbelow)⟩
      · exact absurd hwraps hoverflow

/-- A reserve and an amount of 255 bits at a fee of 0.3 %. -/
def wrappingHop : IntHopState := ⟨1, BitVec.twoPow 256 255, 997, 1000⟩

theorem wrappingHop_not_swapExact : ¬wrappingHop.SwapExact (BitVec.twoPow 256 255) := by
  intro h
  have hvalue : (wrappingHop.swap (BitVec.twoPow 256 255)).toNat ≠
        wrappingHop.exactSwap (BitVec.twoPow 256 255) ∧
      wrappingHop.swap (BitVec.twoPow 256 255) ≠ 0 := by
    decide +kernel
  exact h.value.elim hvalue.1 fun hzero => hvalue.2 hzero.2

end IntHopState

end Degenbot.Mobius

/-! ## The integer Möbius path

The simulated path stays below the composed map. The coefficients are those of the map,
wrapped to 512 bits. -/

namespace Degenbot.Mobius

open Library Wide

/-! ## The exact map -/

def IntHopState.map (hop : IntHopState) : FractionalMap ℕ where
  k := hop.gammaNumer.toNat * hop.reserveOut.toNat
  m := hop.feeDenom.toNat * hop.reserveIn.toNat
  n := hop.gammaNumer.toNat

theorem IntHopState.swap_bounds (hop : IntHopState) (x : U256) :
    hop.map.Bounds x.toNat (hop.swap x).toNat :=
  calc (hop.swap x).toNat * hop.exactDenom x
      ≤ hop.exactSwap x * hop.exactDenom x := Nat.mul_le_mul_right _ (hop.swap_le_exactSwap x)
    _ ≤ hop.exactNumerator x := Nat.div_mul_le_self _ _

theorem IntHopState.swap_limit (hop : IntHopState) (x : U256) :
    (hop.swap x).toNat * hop.map.n ≤ hop.map.k := by
  have hreserve : (hop.swap x).toNat ≤ hop.reserveOut.toNat :=
    (hop.swap_le_exactSwap x).trans (hop.exactSwap_le_reserveOut x)
  calc (hop.swap x).toNat * hop.gammaNumer.toNat
      ≤ hop.reserveOut.toNat * hop.gammaNumer.toNat := Nat.mul_le_mul_right _ hreserve
    _ = hop.map.k := mul_comm _ _

/-- The composition of the maps of a path. -/
def composed (f : FractionalMap ℕ) (hops : List IntHopState) : FractionalMap ℕ :=
  hops.foldl (fun f hop => f.andThen hop.map) f

theorem composed_bounds (hops : List IntHopState) {f : FractionalMap ℕ} {x : ℕ} {amount : U256}
    (h : f.Bounds x amount.toNat) :
    (composed f hops).Bounds x (intSimulatePath amount hops).toNat := by
  induction hops generalizing f amount with
  | nil => exact h
  | cons hop hops ih =>
      have hstep := ih (h.andThen (hop.swap_bounds amount) (hop.swap_limit amount))
      by_cases hzero : amount = 0
      · rw [intSimulatePath, if_pos hzero]
        exact (Nat.zero_mul _).trans_le (Nat.zero_le _)
      · rwa [intSimulatePath, if_neg hzero]

/-- The coefficients `K`, `M` and `N` of a path over unbounded naturals. -/
def exactMap (hops : List IntHopState) : FractionalMap ℕ := composed .id hops

theorem simulatePath_bounds (hops : List IntHopState) (x : U256) :
    (exactMap hops).Bounds x.toNat (intSimulatePath x hops).toNat :=
  composed_bounds hops (FractionalMap.bounds_id _)

/-! ## The wrapped coefficients -/

/-- The entries of the matrix are the coefficients of the map, wrapped. -/
structure HopMatrix.Wraps (matrix : HopMatrix) (f : FractionalMap ℕ) : Prop where
  a00 : matrix.a00.toNat = f.k % 2 ^ 512
  a10 : matrix.a10.toNat = f.n % 2 ^ 512
  a11 : matrix.a11.toNat = f.m % 2 ^ 512

theorem toNat_eq_wrap {value : U512} {n : ℕ} (h : value = BitVec.ofNat 512 n) :
    value.toNat = n % 2 ^ 512 := by
  rw [h, BitVec.toNat_ofNat]

theorem widen_eq_ofNat {w : ℕ} (value : BitVec w) :
    widen value = BitVec.ofNat 512 value.toNat := by
  apply BitVec.eq_of_toNat_eq
  rw [widen, BitVec.toNat_setWidth, BitVec.toNat_ofNat]

theorem eq_ofNat_of_wrap {value : U512} {n : ℕ} (h : value.toNat = n % 2 ^ 512) :
    value = BitVec.ofNat 512 n := by
  apply BitVec.eq_of_toNat_eq
  rw [h, BitVec.toNat_ofNat]

theorem matrix_wraps (hop : IntHopState) : hop.matrix.Wraps hop.map where
  a00 := by
    apply toNat_eq_wrap
    simp only [IntHopState.matrix, IntHopState.map, widen_eq_ofNat, BitVec.ofNat_mul]
  a10 := by
    apply toNat_eq_wrap
    simp only [IntHopState.matrix, IntHopState.map, widen_eq_ofNat]
  a11 := by
    apply toNat_eq_wrap
    simp only [IntHopState.matrix, IntHopState.map, widen_eq_ofNat, BitVec.ofNat_mul]

theorem multiply_wraps {matrix : HopMatrix} {f : FractionalMap ℕ} (h : matrix.Wraps f)
    (hop : IntHopState) : (matrix.multiply hop).Wraps (f.andThen hop.map) where
  a00 := by
    apply toNat_eq_wrap
    simp only [HopMatrix.multiply, FractionalMap.andThen, IntHopState.map, widen_eq_ofNat,
      eq_ofNat_of_wrap h.a00, ← BitVec.ofNat_mul, mul_assoc]
  a10 := by
    apply toNat_eq_wrap
    simp only [HopMatrix.multiply, FractionalMap.andThen, IntHopState.map, widen_eq_ofNat,
      eq_ofNat_of_wrap h.a00, eq_ofNat_of_wrap h.a10, ← BitVec.ofNat_mul, ← BitVec.ofNat_add,
      mul_assoc]
  a11 := by
    apply toNat_eq_wrap
    simp only [HopMatrix.multiply, FractionalMap.andThen, IntHopState.map, widen_eq_ofNat,
      eq_ofNat_of_wrap h.a11, ← BitVec.ofNat_mul, mul_assoc]

theorem foldl_wraps (hops : List IntHopState) {matrix : HopMatrix} {f : FractionalMap ℕ}
    (h : matrix.Wraps f) : (hops.foldl HopMatrix.multiply matrix).Wraps (composed f hops) := by
  induction hops generalizing matrix f with
  | nil => exact h
  | cons hop hops ih => exact ih (multiply_wraps h hop)

theorem computeIntMobiusCoefficients_cons (first : IntHopState) (hops : List IntHopState) :
    ∃ matrix : HopMatrix, matrix.Wraps (exactMap (first :: hops)) ∧
      computeIntMobiusCoefficients (first :: hops) =
        .ok ⟨matrix.a00, matrix.a11, matrix.a10, matrix.a00 > matrix.a11⟩ := by
  refine ⟨_, ?_, rfl⟩
  have hmap : exactMap (first :: hops) = composed first.map hops := by
    rw [exactMap, composed, List.foldl_cons, FractionalMap.id_andThen, composed]
  rw [hmap]
  exact foldl_wraps hops (matrix_wraps first)

/-! ## The path stays below its coefficients -/

/-- The exact coefficients need no more than 512 bits. -/
structure Fits (f : FractionalMap ℕ) : Prop where
  k : f.k < 2 ^ 512
  m : f.m < 2 ^ 512
  n : f.n < 2 ^ 512

theorem simulatePath_le_coefficients (hops : List IntHopState) (hfits : Fits (exactMap hops))
    (x : U256) :
    (exactMap hops).Bounds x.toNat (intSimulatePath x hops).toNat ∧
      ∀ coefficients, computeIntMobiusCoefficients hops = .ok coefficients →
        (intSimulatePath x hops).toNat *
            (coefficients.M.toNat + coefficients.N.toNat * x.toNat) ≤
          coefficients.K.toNat * x.toNat := by
  refine ⟨simulatePath_bounds hops x, fun coefficients hcompute => ?_⟩
  cases hops with
  | nil => exact absurd hcompute (by simp [computeIntMobiusCoefficients])
  | cons first hops =>
      obtain ⟨matrix, hwraps, hmatrix⟩ := computeIntMobiusCoefficients_cons first hops
      have hsame := Except.ok.inj (hcompute.symm.trans hmatrix)
      rw [hsame, hwraps.a00, hwraps.a10, hwraps.a11, Nat.mod_eq_of_lt hfits.k,
        Nat.mod_eq_of_lt hfits.m, Nat.mod_eq_of_lt hfits.n]
      exact simulatePath_bounds (first :: hops) x

/-- A profitable cycle between a token of 6 decimals and one of 18. -/
def twoHops : List IntHopState :=
  [⟨1000000000000, 500000000000000000000, 997, 1000⟩,
    ⟨480000000000000000000, 1000000000000, 997, 1000⟩]

theorem twoHops_le_coefficients :
    (exactMap twoHops).Bounds 1000000 (intSimulatePath 1000000 twoHops).toNat ∧
      ∀ coefficients, computeIntMobiusCoefficients twoHops = .ok coefficients →
        (intSimulatePath 1000000 twoHops).toNat *
            (coefficients.M.toNat + coefficients.N.toNat * 1000000) ≤
          coefficients.K.toNat * 1000000 :=
  simulatePath_le_coefficients twoHops
    ⟨lt_trans (b := 2 ^ 256) (by decide) (Nat.pow_lt_pow_right (by decide) (by decide)),
      lt_trans (b := 2 ^ 256) (by decide) (Nat.pow_lt_pow_right (by decide) (by decide)),
      lt_trans (b := 2 ^ 256) (by decide) (Nat.pow_lt_pow_right (by decide) (by decide))⟩ 1000000

/-! ## The profitability check -/

/-- Both reserves and both parts of the fee are set, and the fee is not negative. -/
structure IntHopState.Valid (hop : IntHopState) : Prop where
  reserveIn : 0 < hop.reserveIn.toNat
  reserveOut : 0 < hop.reserveOut.toNat
  gammaNumer : 0 < hop.gammaNumer.toNat
  fee : hop.gammaNumer.toNat ≤ hop.feeDenom.toNat

theorem composed_m_pos (hops : List IntHopState) (hvalid : ∀ hop ∈ hops, hop.Valid)
    {f : FractionalMap ℕ} (hf : 0 < f.m) : 0 < (composed f hops).m := by
  induction hops generalizing f with
  | nil => exact hf
  | cons hop hops ih =>
      have hhop := hvalid hop List.mem_cons_self
      apply ih fun hop' hmem => hvalid hop' (List.mem_cons_of_mem _ hmem)
      exact Nat.mul_pos hf (Nat.mul_pos (hhop.gammaNumer.trans_le hhop.fee) hhop.reserveIn)

/-- Wrapping does not hide a path whose map is steeper than one at zero. -/
def PrecheckExact (f : FractionalMap ℕ) : Prop :=
  f.k ≤ f.m ∨ f.m % 2 ^ 512 < f.k % 2 ^ 512

theorem isProfitable_iff {hops : List IntHopState} {coefficients : IntMobiusCoefficients}
    (h : computeIntMobiusCoefficients hops = .ok coefficients) :
    coefficients.isProfitable = true ↔
      (exactMap hops).m % 2 ^ 512 < (exactMap hops).k % 2 ^ 512 := by
  cases hops with
  | nil => exact absurd h (by simp [computeIntMobiusCoefficients])
  | cons first hops =>
      obtain ⟨matrix, hwraps, hmatrix⟩ := computeIntMobiusCoefficients_cons first hops
      rw [Except.ok.inj (h.symm.trans hmatrix), decide_eq_true_eq, gt_iff_lt, BitVec.lt_def,
        hwraps.a00, hwraps.a11]

/-- Where wrapping hides nothing, a rejected path never pays. Where it does, the check
rejects a path whose unrounded map pays for small amounts. -/
theorem precheck_sound {hops : List IntHopState} (hvalid : ∀ hop ∈ hops, hop.Valid)
    {coefficients : IntMobiusCoefficients}
    (hcompute : computeIntMobiusCoefficients hops = .ok coefficients) :
    (PrecheckExact (exactMap hops) → coefficients.isProfitable = false →
        ∀ x : U256, intSimulatePath x hops ≤ x) ∧
      (PrecheckExact (exactMap hops) ↔
        (coefficients.isProfitable = false → ∀ x : ℚ, 0 < x →
          (exactMap hops).k * x ≤ x * ((exactMap hops).m + (exactMap hops).n * x))) := by
  have hflag := isProfitable_iff hcompute
  have hflat : PrecheckExact (exactMap hops) → coefficients.isProfitable = false →
      (exactMap hops).k ≤ (exactMap hops).m := by
    intro hexact hfalse
    refine hexact.resolve_right fun hsteep => ?_
    rw [hflag.mpr hsteep] at hfalse
    exact absurd hfalse (by decide)
  refine ⟨fun hexact hfalse x => ?_, fun hexact hfalse x hx => ?_, fun hpays => ?_⟩
  · have hm : 0 < (exactMap hops).m := composed_m_pos hops hvalid Nat.one_pos
    exact BitVec.le_def.mpr ((simulatePath_bounds hops x).le (hflat hexact hfalse) hm)
  · have hle : ((exactMap hops).k : ℚ) ≤ (exactMap hops).m := by
      exact_mod_cast hflat hexact hfalse
    have hn : (0 : ℚ) ≤ (exactMap hops).n * x := by positivity
    nlinarith
  · by_contra hhidden
    obtain ⟨hsteep, hwrapped⟩ := not_or.mp hhidden
    have hfalse : coefficients.isProfitable = false := by
      rw [← Bool.not_eq_true, hflag]
      exact hwrapped
    -- below `1 / (n + 1)` the linear term does not reach the excess of `k`
    have hn : (0 : ℚ) < (exactMap hops).n + 1 := by positivity
    have hsmall := hpays hfalse (1 / ((exactMap hops).n + 1)) (by positivity)
    have hexcess : ((exactMap hops).m : ℚ) + 1 ≤ (exactMap hops).k := by
      exact_mod_cast Nat.lt_of_not_le hsteep
    rw [mul_comm, mul_le_mul_iff_right₀ (by positivity)] at hsmall
    have hterm : (exactMap hops).n * (1 / ((exactMap hops).n + 1) : ℚ) < 1 := by
      rw [mul_one_div, div_lt_one hn]
      linarith
    linarith

/-- Two pools at one price, so that the fees make every amount lose. -/
def evenHops : List IntHopState :=
  [⟨1000000000000, 500000000000000000000, 997, 1000⟩,
    ⟨500000000000000000000, 1000000000000, 997, 1000⟩]

theorem evenHops_sound :
    (∀ x : U256, intSimulatePath x evenHops ≤ x) ∧
      ∀ x : ℚ, 0 < x → (exactMap evenHops).k * x ≤
        x * ((exactMap evenHops).m + (exactMap evenHops).n * x) := by
  have hvalid : ∀ hop ∈ evenHops, hop.Valid := by
    intro hop hmem
    rcases List.mem_cons.mp hmem with rfl | hrest
    · exact ⟨by decide, by decide, by decide, by decide⟩
    · rw [List.mem_singleton.mp hrest]
      exact ⟨by decide, by decide, by decide, by decide⟩
  have hexact : PrecheckExact (exactMap evenHops) := .inl (by decide)
  obtain ⟨coefficients, hcompute, hrejected⟩ : ∃ coefficients,
      computeIntMobiusCoefficients evenHops = .ok coefficients ∧
        coefficients.isProfitable = false := ⟨_, rfl, by decide +kernel⟩
  have hsound := precheck_sound hvalid hcompute
  exact ⟨hsound.1 hexact hrejected, hsound.2.mp hexact hrejected⟩

/-- Five pools whose reserves fit in `uint112`; the first doubles the amount. Both
coefficients are divisible by `2 ** 512`. -/
def fiveHops : List IntHopState :=
  ⟨BitVec.twoPow 256 110, BitVec.twoPow 256 111, 997, 1000⟩ ::
    List.replicate 4 ⟨BitVec.twoPow 256 110, BitVec.twoPow 256 110, 997, 1000⟩

theorem fiveHops_rejected :
    (∀ hop ∈ fiveHops, hop.Valid) ∧
      ∃ coefficients, computeIntMobiusCoefficients fiveHops = .ok coefficients ∧
        coefficients.isProfitable = false ∧
        ∃ x : U256, ¬intSimulatePath x fiveHops ≤ x := by
  refine ⟨?_, _, rfl, by decide +kernel, 1000000, by decide +kernel⟩
  intro hop hmem
  rcases List.mem_cons.mp hmem with rfl | hrest
  · exact ⟨by decide, by decide, by decide, by decide⟩
  · rw [List.eq_of_mem_replicate hrest]
    exact ⟨by decide, by decide, by decide, by decide⟩

end Degenbot.Mobius
