import Degenbot.Algorithm.SolidlyStable
import Degenbot.Library.Outcome
import Degenbot.Library.Rounding
import Degenbot.Library.WhileLoop

/-! # The invariant of a Solidly pool after a quoted swap -/

namespace Degenbot

open Library

/-! ## The invariant -/

/-- An amount of a token with 18 decimals. -/
def toWad (amount decimals : ℤ) : ℤ := (amount * 10 ^ 18).fdiv decimals

/-- The product that `general_calc_k` checks. -/
def kProduct (x y : ℤ) : ℤ :=
  (x * y).fdiv (10 ^ 18) * ((x * x).fdiv (10 ^ 18) + (y * y).fdiv (10 ^ 18))

section Invariant

variable {x y y' d0 d1 b0 b1 k : ℤ}

theorem wad_pos : (0 : ℤ) < 10 ^ 18 := by norm_num

theorem fdiv_wad_nonneg (h : 0 ≤ x) : 0 ≤ x.fdiv (10 ^ 18) := Int.fdiv_nonneg h wad_pos.le

theorem fdiv_wad_mono (h : x ≤ y) : x.fdiv (10 ^ 18) ≤ y.fdiv (10 ^ 18) := by
  rw [Int.fdiv_eq_ediv_of_nonneg _ wad_pos.le, Int.fdiv_eq_ediv_of_nonneg _ wad_pos.le]
  exact Int.ediv_le_ediv wad_pos h

theorem fdiv_wad_neg (h : x < 0) : x.fdiv (10 ^ 18) < 0 := by
  rw [Int.fdiv_eq_ediv_of_nonneg _ wad_pos.le]
  exact Int.ediv_neg_of_neg_of_pos h wad_pos

theorem fAerodrome_eq (x y : ℤ) : fAerodrome x y = (kProduct x y).fdiv (10 ^ 18) := rfl

theorem kProduct_comm (x y : ℤ) : kProduct x y = kProduct y x := by
  rw [kProduct, kProduct, mul_comm x y, add_comm]

theorem fAerodrome_comm (x y : ℤ) : fAerodrome x y = fAerodrome y x := by
  rw [fAerodrome_eq, kProduct_comm, ← fAerodrome_eq]

theorem squares_nonneg (x y : ℤ) : 0 ≤ (x * x).fdiv (10 ^ 18) + (y * y).fdiv (10 ^ 18) :=
  add_nonneg (fdiv_wad_nonneg (mul_self_nonneg x)) (fdiv_wad_nonneg (mul_self_nonneg y))

theorem kProduct_nonneg (hx : 0 ≤ x) (hy : 0 ≤ y) : 0 ≤ kProduct x y :=
  mul_nonneg (fdiv_wad_nonneg (mul_nonneg hx hy)) (squares_nonneg x y)

theorem kProduct_mono (hx : 0 ≤ x) (hy : 0 ≤ y) (h : y ≤ y') : kProduct x y ≤ kProduct x y' :=
  mul_le_mul (fdiv_wad_mono (mul_le_mul_of_nonneg_left h hx))
    (add_le_add_right (fdiv_wad_mono (mul_self_le_mul_self hy h)) _) (squares_nonneg x y)
    (fdiv_wad_nonneg (mul_nonneg hx (hy.trans h)))

theorem fAerodrome_mono (hx : 0 ≤ x) (hy : 0 ≤ y) (h : y ≤ y') :
    fAerodrome x y ≤ fAerodrome x y' := fdiv_wad_mono (kProduct_mono hx hy h)

theorem fdiv_wad_nonpos (h : x ≤ 0) : x.fdiv (10 ^ 18) ≤ 0 := fdiv_wad_mono h

/-- Opposite signs make the first factor negative. -/
theorem kProduct_nonpos (hx : 0 ≤ x) (hy : y ≤ 0) : kProduct x y ≤ 0 :=
  mul_nonpos_of_nonpos_of_nonneg (fdiv_wad_nonpos (mul_nonpos_of_nonneg_of_nonpos hx hy))
    (squares_nonneg x y)

/-- Where a product of opposite signs vanishes, so does the derivative. -/
theorem generalCalcD_eq_zero (hx : 0 < x) (hy : y < 0) (h : kProduct x y = 0) :
    generalCalcD x y = 0 := by
  have hfirst : (x * y).fdiv (10 ^ 18) ≠ 0 := (fdiv_wad_neg (mul_neg_of_pos_of_neg hx hy)).ne
  have hsquares := (mul_eq_zero.mp h).resolve_left hfirst
  have hsquareX := fdiv_wad_nonneg (mul_self_nonneg x)
  have hsquareY := fdiv_wad_nonneg (mul_self_nonneg y)
  have hx0 : (x * x).fdiv (10 ^ 18) = 0 := by omega
  have hy0 : (y * y).fdiv (10 ^ 18) = 0 := by omega
  rw [generalCalcD, hx0, hy0, mul_zero, zero_mul, Int.zero_fdiv, add_zero]

theorem floorDivide_eq_ok (hy : y ≠ 0) : floorDivide x y = .ok k ↔ x.fdiv y = k := by
  rw [floorDivide, if_neg hy, Except.ok.injEq]

theorem raiseIfInvalidUint256_eq_ok {number : ℤ} {result : Unit} :
    raiseIfInvalidUint256 number = .ok result ↔ 0 ≤ number ∧ number ≤ maxUint256 := by
  rw [raiseIfInvalidUint256, ite_error_eq_ok, not_not]
  exact and_iff_left rfl

theorem generalCalcK_eq_ok (hd0 : d0 ≠ 0) (hd1 : d1 ≠ 0) :
    generalCalcK b0 b1 d0 d1 = .ok k ↔
      (0 ≤ kProduct (toWad b0 d0) (toWad b1 d1) ∧
          kProduct (toWad b0 d0) (toWad b1 d1) ≤ maxUint256) ∧
        fAerodrome (toWad b0 d0) (toWad b1 d1) = k := by
  simp only [generalCalcK, bind_eq_ok, floorDivide_eq_ok hd0, floorDivide_eq_ok hd1,
    raiseIfInvalidUint256_eq_ok, exists_eq_left', Except.ok.injEq, exists_const]
  rfl

end Invariant

/-! ## Amounts of a token -/

section Units

variable {d u r y : ℤ}

theorem toWad_nonneg (hr : 0 ≤ r) (hd : 0 < d) : 0 ≤ toWad r d :=
  Int.fdiv_nonneg (mul_nonneg hr wad_pos.le) hd.le

theorem toWad_nonpos (hr : r ≤ 0) (hd : 0 < d) : toWad r d ≤ 0 := by
  rw [toWad, Int.fdiv_eq_ediv_of_nonneg _ hd.le]
  exact Int.ediv_nonpos_of_nonpos_of_neg (mul_nonpos_of_nonpos_of_nonneg hr wad_pos.le) hd

theorem toWad_eq (hd : 0 < d) (hu : d * u = 10 ^ 18) : toWad r d = r * u := by
  rw [toWad, ← hu, Int.fdiv_eq_ediv_of_nonneg _ hd.le, mul_left_comm,
    Int.mul_ediv_cancel_left _ hd.ne']

/-- The tokens that stay in the pool when the solver ends at `y`. -/
theorem sub_fdiv_wad (hd : 0 < d) (hu : d * u = 10 ^ 18) :
    r - ((r * u - y) * d).fdiv (10 ^ 18) = ceilDiv y u := by
  have hupos : 0 < u := pos_of_mul_pos_right (hu ▸ wad_pos) hd.le
  have hsplit : r * u - y = -y + r * u := by ring
  rw [Int.fdiv_eq_ediv_of_nonneg _ wad_pos.le, ← hu, mul_comm (r * u - y) d,
    Int.mul_ediv_mul_of_pos _ _ hd, hsplit, Int.add_mul_ediv_right _ _ hupos.ne', ceilDiv]
  ring

end Units

/-! ## The generic quote -/

/-- The input without the fee, which is rounded down. -/
def netInput (amountIn : ℤ) (fee : ℚ) : ℤ := amountIn - (amountIn * fee.num).fdiv fee.den

theorem netInput_nonneg {amountIn : ℤ} {fee : ℚ} (hamount : 0 ≤ amountIn) (hfee : fee ≤ 1) :
    0 ≤ netInput amountIn fee := by
  have hden : (0 : ℤ) < fee.den := Int.natCast_pos.mpr fee.den_pos
  have hnum : fee.num ≤ fee.den := Rat.num_le_denom_iff.mpr hfee
  rw [netInput, sub_nonneg, Int.fdiv_eq_ediv_of_nonneg _ hden.le]
  exact Int.ediv_le_of_le_mul hden (mul_le_mul_of_nonneg_left hnum hamount)

theorem divisionByZero_eq_ok {attempt : Except Exn ℤ} {out : ℤ} :
    divisionByZero attempt = .ok out ↔ attempt = .ok out := by
  unfold divisionByZero
  split
  · simp
  · rfl

/-- A solver that returns what another one returns gives the same quotes. -/
theorem generalCalcExactInStable_congr {kFunc : ℤ → ℤ → ℤ → ℤ → Except Exn ℤ}
    {getYFunc getYFunc' : ℤ → ℤ → ℤ → ℤ → ℤ → Except Exn ℤ} {amountIn reserves0 reserves1
    decimals0 decimals1 out : ℤ} {firstToken : Bool} {fee : ℚ}
    (hsolver : ∀ x0 xy y d0 d1 r, getYFunc x0 xy y d0 d1 = .ok r →
      getYFunc' x0 xy y d0 d1 = .ok r)
    (h : generalCalcExactInStable kFunc getYFunc amountIn firstToken reserves0 reserves1
      decimals0 decimals1 fee = .ok out) :
    generalCalcExactInStable kFunc getYFunc' amountIn firstToken reserves0 reserves1
      decimals0 decimals1 fee = .ok out := by
  simp only [generalCalcExactInStable, divisionByZero_eq_ok, bind_eq_ok] at h ⊢
  obtain ⟨xy, hxy, scaled0, h0, scaled1, h1, amount, hamount, y, hy, hout⟩ := h
  exact ⟨xy, hxy, scaled0, h0, scaled1, h1, amount, hamount, y, hsolver _ _ _ _ _ _ hy, hout⟩

/-- What a quote is asked for. -/
structure StableSwap where
  firstToken : Bool
  reserves0 : ℤ
  reserves1 : ℤ
  decimals0 : ℤ
  decimals1 : ℤ
  fee : ℚ
  amountIn : ℤ

namespace StableSwap

def reserveIn (s : StableSwap) : ℤ := if s.firstToken then s.reserves0 else s.reserves1

def reserveOut (s : StableSwap) : ℤ := if s.firstToken then s.reserves1 else s.reserves0

def decimalsIn (s : StableSwap) : ℤ := if s.firstToken then s.decimals0 else s.decimals1

def decimalsOut (s : StableSwap) : ℤ := if s.firstToken then s.decimals1 else s.decimals0

/-- The balance that the solver holds fixed. -/
def x0 (s : StableSwap) : ℤ :=
  toWad (netInput s.amountIn s.fee) s.decimalsIn + toWad s.reserveIn s.decimalsIn

def generalQuote (kFunc : ℤ → ℤ → ℤ → ℤ → Except Exn ℤ)
    (getYFunc : ℤ → ℤ → ℤ → ℤ → ℤ → Except Exn ℤ) (s : StableSwap) : Except Exn ℤ :=
  generalCalcExactInStable kFunc getYFunc s.amountIn s.firstToken s.reserves0 s.reserves1
    s.decimals0 s.decimals1 s.fee

theorem generalQuote_eq_ok {kFunc : ℤ → ℤ → ℤ → ℤ → Except Exn ℤ}
    {getYFunc : ℤ → ℤ → ℤ → ℤ → ℤ → Except Exn ℤ} {s : StableSwap} {out : ℤ}
    (hd0 : s.decimals0 ≠ 0) (hd1 : s.decimals1 ≠ 0) :
    s.generalQuote kFunc getYFunc = .ok out ↔
      ∃ xy y, kFunc s.reserves0 s.reserves1 s.decimals0 s.decimals1 = .ok xy ∧
        getYFunc s.x0 xy (toWad s.reserveOut s.decimalsOut) s.decimals0 s.decimals1 = .ok y ∧
        ((toWad s.reserveOut s.decimalsOut - y) * s.decimalsOut).fdiv (10 ^ 18) = out := by
  have hdIn : (if s.firstToken then s.decimals0 else s.decimals1) ≠ 0 := by
    split_ifs <;> assumption
  simp only [generalQuote, generalCalcExactInStable, divisionByZero_eq_ok, bind_eq_ok,
    floorDivide_eq_ok hd0, floorDivide_eq_ok hd1, floorDivide_eq_ok hdIn, exists_eq_left',
    Except.ok.injEq]
  cases hfirst : s.firstToken <;>
    simp [x0, reserveIn, reserveOut, decimalsIn, decimalsOut, hfirst, toWad, netInput]

end StableSwap

/-! ## The solver -/

section Solver

variable {x0 xy y y' decimals0 decimals1 : ℤ}

/-- A round that returns the next `y` although the invariant is not reached yet: the value
just above is compared by `general_calc_k`, which scales the balances once more. -/
structure StopsBelow (x0 xy y decimals0 decimals1 : ℤ) : Prop where
  below : fAerodrome x0 y < xy
  no_step : floorDivide ((xy - fAerodrome x0 y) * 10 ^ 18) (generalCalcD x0 y) = .ok 0
  above : ∃ k, generalCalcK x0 (y + 1) decimals0 decimals1 = .ok k ∧ xy < k

theorem StopsBelow.round (h : StopsBelow x0 xy y decimals0 decimals1) :
    getYAerodromeRound x0 xy y decimals0 decimals1 = .ok (.inl (y + 1)) := by
  obtain ⟨k, hk, hgt⟩ := h.above
  simp only [getYAerodromeRound, if_pos h.below, h.no_step, hk, bind, Except.bind, if_true,
    if_neg h.below.ne, if_pos hgt]

/-- A round returns in two ways. -/
theorem getYAerodromeRound_eq_inl
    (h : getYAerodromeRound x0 xy y decimals0 decimals1 = .ok (.inl y')) :
    y' = y + 1 ∧ StopsBelow x0 xy y decimals0 decimals1 ∨
      y' = y ∧ xy ≤ fAerodrome x0 y ∧ generalCalcD x0 y ≠ 0 := by
  unfold getYAerodromeRound at h
  dsimp only at h
  by_cases hbelow : fAerodrome x0 y < xy
  · rw [if_pos hbelow] at h
    obtain ⟨dy, hdy, h⟩ := bind_eq_ok.mp h
    split_ifs at h with hzero heq
    · exact absurd heq hbelow.ne
    · obtain ⟨k, hk, h⟩ := bind_eq_ok.mp h
      split_ifs at h with hgt
      · cases h
        exact .inl ⟨rfl, hbelow, hzero ▸ hdy, k, hk, hgt⟩
      · cases h
    · cases h
  · rw [if_neg hbelow] at h
    obtain ⟨dy, hdy, h⟩ := bind_eq_ok.mp h
    have hne : generalCalcD x0 y ≠ 0 := by
      intro hd
      rw [hd, floorDivide, if_pos rfl] at hdy
      cases hdy
    split_ifs at h with hzero hroot
    · cases h
      exact .inr ⟨rfl, not_lt.mp hbelow, hne⟩
    · cases h
    · cases h

/-- The solver never returns a negative balance. -/
theorem getYAerodromeRound_nonneg (hx : 0 < x0) (hxy : 0 ≤ xy) (hd0 : 0 < decimals0)
    (hd1 : 0 < decimals1) (h : getYAerodromeRound x0 xy y decimals0 decimals1 = .ok (.inl y')) :
    0 ≤ y' := by
  by_contra hneg
  rcases getYAerodromeRound_eq_inl h with ⟨rfl, hstops⟩ | ⟨rfl, hreached, hd⟩
  · -- the scaled product is not positive, so that it cannot exceed the invariant
    obtain ⟨k, hk, hgt⟩ := hstops.above
    obtain ⟨⟨hnonneg, -⟩, rfl⟩ := (generalCalcK_eq_ok hd0.ne' hd1.ne').mp hk
    have hnonpos := kProduct_nonpos (toWad_nonneg hx.le hd0) (toWad_nonpos (not_le.mp hneg).le hd1)
    rw [fAerodrome_eq, le_antisymm hnonpos hnonneg, Int.zero_fdiv] at hgt
    omega
  · -- the invariant vanishes, and the round divided by zero
    refine hd (generalCalcD_eq_zero hx (not_le.mp hneg) (le_antisymm ?_ ?_))
    · exact kProduct_nonpos hx.le (not_le.mp hneg).le
    · by_contra hproduct
      have hk := fdiv_wad_neg (not_le.mp hproduct)
      rw [← fAerodrome_eq] at hk
      omega

theorem solidlyGetYRound_eq : solidlyGetYRound = getYAerodromeRound := rfl

/-- The solver of the Aerodrome pools returns in one of its rounds. -/
theorem getYAerodrome_eq_ok {rounds : ℕ} :
    getYAerodrome x0 xy decimals0 decimals1 rounds y = .ok y' ↔
      ∃ n < rounds, ∃ z, RoundsReach
          (fun y => getYAerodromeRound x0 xy y decimals0 decimals1) n y z ∧
        getYAerodromeRound x0 xy z decimals0 decimals1 = .ok (.inl y') := by
  have hrun : getYAerodrome x0 xy decimals0 decimals1 rounds y =
      boundedRounds (fun y => getYAerodromeRound x0 xy y decimals0 decimals1)
        (.evmRevertError "Failed to converge on a value for y") rounds y := by
    induction rounds generalizing y with
    | zero => rfl
    | succ rounds ih =>
        rw [getYAerodrome, boundedRounds]
        cases getYAerodromeRound x0 xy y decimals0 decimals1 with
        | error e => rfl
        | ok outcome =>
            cases outcome with
            | inl y' => rfl
            | inr next => exact ih
  rw [hrun, boundedRounds_eq_ok]

/-- Both solvers run the same rounds. -/
theorem solidlyGetY_eq_ok {rounds : ℕ} :
    solidlyGetY x0 xy decimals0 decimals1 rounds y = .ok y' ↔
      getYAerodrome x0 xy decimals0 decimals1 rounds y = .ok y' := by
  induction rounds generalizing y with
  | zero => simp [solidlyGetY, getYAerodrome]
  | succ rounds ih =>
      rw [getYAerodrome, solidlyGetY, solidlyGetYRound_eq]
      cases getYAerodromeRound x0 xy y decimals0 decimals1 with
      | error e => exact Iff.rfl
      | ok outcome =>
          cases outcome with
          | inl y' => exact Iff.rfl
          | inr next => exact ih

end Solver

/-! ## The swap -/

namespace StableSwap

/-- The balance of the output token that the swap leaves, when the solver ends at `y`. -/
def leftOver (s : StableSwap) (y : ℤ) : ℤ :=
  ceilDiv y (10 ^ 18 / s.decimalsOut) * (10 ^ 18 / s.decimalsOut)

/-- `general_calc_k` of the reserves before the swap. -/
def kBefore (s : StableSwap) : Except Exn ℤ :=
  generalCalcK s.reserves0 s.reserves1 s.decimals0 s.decimals1

/-- `general_calc_k` of the reserves after the swap. -/
def kAfter (s : StableSwap) (out : ℤ) : Except Exn ℤ :=
  if s.firstToken then
    generalCalcK (s.reserves0 + netInput s.amountIn s.fee) (s.reserves1 - out) s.decimals0
      s.decimals1
  else
    generalCalcK (s.reserves0 - out) (s.reserves1 + netInput s.amountIn s.fee) s.decimals0
      s.decimals1

/-- The swap passes the check of the pool. -/
def KeepsInvariant (s : StableSwap) (out : ℤ) : Prop :=
  ∃ before after, s.kBefore = .ok before ∧ s.kAfter out = .ok after ∧ before ≤ after

/-- The solver comes to a round that starts from `y`. -/
def Visits (s : StableSwap) (xy y : ℤ) : Prop :=
  s.kBefore = .ok xy ∧ ∃ n < 255, RoundsReach
    (fun y => getYAerodromeRound s.x0 xy y s.decimals0 s.decimals1) n
    (toWad s.reserveOut s.decimalsOut) y

/-- The solver comes to a round in which it stops below the invariant, by more than the
rounding to whole tokens makes good. -/
def EndsShort (s : StableSwap) : Prop :=
  ∃ xy y, s.Visits xy y ∧ StopsBelow s.x0 xy y s.decimals0 s.decimals1 ∧
    fAerodrome s.x0 (s.leftOver (y + 1)) < xy

/-- The round that returns leaves balances whose product does not fit. -/
def EndsLarge (s : StableSwap) : Prop :=
  ∃ xy y y', s.Visits xy y ∧
    getYAerodromeRound s.x0 xy y s.decimals0 s.decimals1 = .ok (.inl y') ∧
    maxUint256 < kProduct s.x0 (s.leftOver y')

/-- What the quotes of a pool are asked for. -/
structure Valid (s : StableSwap) : Prop where
  reserves0_pos : 0 < s.reserves0
  reserves1_pos : 0 < s.reserves1
  decimals0_eq : ∃ d ≤ 18, s.decimals0 = 10 ^ d
  decimals1_eq : ∃ d ≤ 18, s.decimals1 = 10 ^ d
  fee_le : s.fee ≤ 1
  amountIn_pos : 0 < s.amountIn

section Swap

variable {s : StableSwap} {xy y out k : ℤ}

theorem unit_of_decimals {decimals : ℤ} (h : ∃ d ≤ 18, decimals = 10 ^ d) :
    0 < decimals ∧ decimals * (10 ^ 18 / decimals) = 10 ^ 18 ∧ 0 < 10 ^ 18 / decimals := by
  obtain ⟨d, hd, rfl⟩ := h
  have hdvd : (10 : ℤ) ^ d ∣ 10 ^ 18 := pow_dvd_pow 10 hd
  have hpos : (0 : ℤ) < 10 ^ d := pow_pos (by norm_num) d
  exact ⟨hpos, Int.mul_ediv_cancel' hdvd, Int.ediv_pos_of_pos_of_dvd wad_pos hpos.le hdvd⟩

theorem Valid.decimalsIn_unit (h : s.Valid) :
    0 < s.decimalsIn ∧ s.decimalsIn * (10 ^ 18 / s.decimalsIn) = 10 ^ 18 ∧
      0 < 10 ^ 18 / s.decimalsIn := by
  unfold decimalsIn
  split
  · exact unit_of_decimals h.decimals0_eq
  · exact unit_of_decimals h.decimals1_eq

theorem Valid.decimalsOut_unit (h : s.Valid) :
    0 < s.decimalsOut ∧ s.decimalsOut * (10 ^ 18 / s.decimalsOut) = 10 ^ 18 ∧
      0 < 10 ^ 18 / s.decimalsOut := by
  unfold decimalsOut
  split
  · exact unit_of_decimals h.decimals1_eq
  · exact unit_of_decimals h.decimals0_eq

theorem Valid.reserveIn_pos (h : s.Valid) : 0 < s.reserveIn := by
  unfold reserveIn
  split
  · exact h.reserves0_pos
  · exact h.reserves1_pos

theorem Valid.x0_eq (h : s.Valid) :
    s.x0 = toWad (s.reserveIn + netInput s.amountIn s.fee) s.decimalsIn := by
  obtain ⟨hpos, hunit, -⟩ := h.decimalsIn_unit
  rw [x0, toWad_eq hpos hunit, toWad_eq hpos hunit, toWad_eq hpos hunit]
  ring

theorem Valid.x0_pos (h : s.Valid) : 0 < s.x0 := by
  obtain ⟨hpos, hunit, hunitPos⟩ := h.decimalsIn_unit
  have hnet := netInput_nonneg h.amountIn_pos.le h.fee_le
  have hin := h.reserveIn_pos
  rw [h.x0_eq, toWad_eq hpos hunit]
  exact mul_pos (by omega) hunitPos

/-- What the swap leaves of the output token, in tokens of 18 decimals. -/
theorem Valid.toWad_sub (h : s.Valid)
    (hout : ((toWad s.reserveOut s.decimalsOut - y) * s.decimalsOut).fdiv (10 ^ 18) = out) :
    toWad (s.reserveOut - out) s.decimalsOut = s.leftOver y := by
  obtain ⟨hpos, hunit, -⟩ := h.decimalsOut_unit
  rw [← hout, toWad_eq hpos hunit, toWad_eq hpos hunit, sub_fdiv_wad hpos hunit, leftOver]

theorem Valid.le_leftOver (h : s.Valid) (y : ℤ) : y ≤ s.leftOver y := by
  obtain ⟨-, -, hunitPos⟩ := h.decimalsOut_unit
  exact le_ceilDiv_mul hunitPos

theorem Valid.kAfter_eq_ok (h : s.Valid) (hy : 0 ≤ y)
    (hout : ((toWad s.reserveOut s.decimalsOut - y) * s.decimalsOut).fdiv (10 ^ 18) = out) :
    s.kAfter out = .ok k ↔
      kProduct s.x0 (s.leftOver y) ≤ maxUint256 ∧ fAerodrome s.x0 (s.leftOver y) = k := by
  have hnonneg := kProduct_nonneg h.x0_pos.le (hy.trans (h.le_leftOver y))
  have hd0 := (unit_of_decimals h.decimals0_eq).1.ne'
  have hd1 := (unit_of_decimals h.decimals1_eq).1.ne'
  have hleft := h.toWad_sub hout
  rw [h.x0_eq] at hnonneg ⊢
  rw [← hleft] at hnonneg ⊢
  unfold kAfter reserveIn reserveOut decimalsIn decimalsOut at *
  cases hfirst : s.firstToken with
  | true =>
      simp only [hfirst, if_true] at hnonneg ⊢
      rw [generalCalcK_eq_ok hd0 hd1, and_iff_right hnonneg]
  | false =>
      simp only [hfirst, Bool.false_eq_true, if_false] at hnonneg ⊢
      rw [kProduct_comm] at hnonneg
      rw [generalCalcK_eq_ok hd0 hd1, and_iff_right hnonneg, kProduct_comm, fAerodrome_comm]

/-- The invariant is kept unless one of two things happens in the last round. -/
theorem keepsInvariant_iff (h : s.Valid) (hxy : s.kBefore = .ok xy)
    (hsolved : getYAerodrome s.x0 xy s.decimals0 s.decimals1 255
      (toWad s.reserveOut s.decimalsOut) = .ok y)
    (hout : ((toWad s.reserveOut s.decimalsOut - y) * s.decimalsOut).fdiv (10 ^ 18) = out) :
    s.KeepsInvariant out ↔ ¬s.EndsShort ∧ ¬s.EndsLarge := by
  have hd0 := (unit_of_decimals h.decimals0_eq).1
  have hd1 := (unit_of_decimals h.decimals1_eq).1
  have hnonneg : 0 ≤ xy := by
    obtain ⟨⟨hproduct, -⟩, rfl⟩ := (generalCalcK_eq_ok hd0.ne' hd1.ne').mp hxy
    exact fdiv_wad_nonneg hproduct
  obtain ⟨n, hn, z, hreach, hround⟩ := getYAerodrome_eq_ok.mp hsolved
  have hy := getYAerodromeRound_nonneg h.x0_pos hnonneg hd0 hd1 hround
  -- every round that returns is the last one
  have hlast : ∀ xy' z' y', s.Visits xy' z' →
      getYAerodromeRound s.x0 xy' z' s.decimals0 s.decimals1 = .ok (.inl y') →
        xy' = xy ∧ y' = y := by
    rintro xy' z' y' ⟨hxy', n', hn', hreach'⟩ hround'
    obtain rfl : xy = xy' := Except.ok.inj (hxy.symm.trans hxy')
    have hsolved' := getYAerodrome_eq_ok.mpr ⟨n', hn', z', hreach', hround'⟩
    exact ⟨rfl, Except.ok.inj (hsolved'.symm.trans hsolved)⟩
  constructor
  · rintro ⟨before, after, hbefore, hafter, hle⟩
    obtain rfl : xy = before := Except.ok.inj (hxy.symm.trans hbefore)
    obtain ⟨hfits, rfl⟩ := (h.kAfter_eq_ok hy hout).mp hafter
    constructor
    · rintro ⟨xy', z', hvisits, hstops, hshort⟩
      obtain ⟨rfl, rfl⟩ := hlast xy' z' (z' + 1) hvisits hstops.round
      exact absurd hle (not_le.mpr hshort)
    · rintro ⟨xy', z', y', hvisits, hround', hlarge⟩
      obtain ⟨rfl, rfl⟩ := hlast xy' z' y' hvisits hround'
      exact absurd hfits (not_le.mpr hlarge)
  · rintro ⟨hshort, hlarge⟩
    have hvisits : s.Visits xy z := ⟨hxy, n, hn, hreach⟩
    have hfits : kProduct s.x0 (s.leftOver y) ≤ maxUint256 :=
      not_lt.mp fun hgt => hlarge ⟨xy, z, y, hvisits, hround, hgt⟩
    refine ⟨xy, _, hxy, (h.kAfter_eq_ok hy hout).mpr ⟨hfits, rfl⟩, ?_⟩
    rcases getYAerodromeRound_eq_inl hround with ⟨rfl, hstops⟩ | ⟨rfl, hreached, -⟩
    · exact not_lt.mp fun hlt => hshort ⟨xy, z, hvisits, hstops, hlt⟩
    · exact hreached.trans (fAerodrome_mono h.x0_pos.le hy (h.le_leftOver y))

/-- With 18 decimals on both sides the second scaling changes nothing. -/
theorem not_endsShort_of_wad (h0 : s.decimals0 = 10 ^ 18) (h1 : s.decimals1 = 10 ^ 18) :
    ¬s.EndsShort := by
  rintro ⟨xy, y, -, hstops, hshort⟩
  obtain ⟨k, hk, hgt⟩ := hstops.above
  have hwad : ∀ r, toWad r (10 ^ 18) = r := fun r =>
    (toWad_eq wad_pos (mul_one _)).trans (mul_one r)
  have hout : s.decimalsOut = 10 ^ 18 := by
    unfold decimalsOut
    split <;> assumption
  rw [h0, h1, generalCalcK_eq_ok wad_pos.ne' wad_pos.ne', hwad, hwad] at hk
  rw [leftOver, hout, Int.ediv_self wad_pos.ne', mul_one, ceilDiv, Int.ediv_one,
    neg_neg, hk.2] at hshort
  exact absurd hgt hshort.not_gt

end Swap

end StableSwap

/-! ## The quotes of the pools -/

/-- A pool and the token that is given to it. -/
inductive StableQuery where
  | aerodrome (pool : AerodromeV2Pool) (tokenIn : Erc20Token)
  | solidly (toChecksumAddress : String → Except Exn String) (pool : SolidlyV1Pool)
      (tokenIn : String)

namespace StableQuery

def stable : StableQuery → Bool
  | aerodrome pool _ => pool.stable
  | solidly _ pool _ => pool.stable

/-- `calculate_tokens_out_from_tokens_in`. -/
def quote : StableQuery → ℤ → Option ReservesState → Except Exn ℤ
  | aerodrome pool tokenIn, amountIn, overrideState =>
      pool.calculateTokensOutFromTokensIn tokenIn amountIn overrideState
  | solidly toChecksumAddress pool tokenIn, amountIn, overrideState =>
      pool.calculateTokensOutFromTokensIn toChecksumAddress tokenIn amountIn overrideState

def swap : StableQuery → ℤ → Option ReservesState → StableSwap
  | aerodrome pool tokenIn, amountIn, overrideState =>
      { firstToken := tokenIn.same pool.token0
        reserves0 := (overrideState.getD pool.state).reservesToken0
        reserves1 := (overrideState.getD pool.state).reservesToken1
        decimals0 := 10 ^ pool.token0.decimals
        decimals1 := 10 ^ pool.token1.decimals
        fee := pool.fee
        amountIn }
  | solidly toChecksumAddress pool tokenIn, amountIn, overrideState =>
      { firstToken := decide (toChecksumAddress tokenIn = .ok pool.token0)
        reserves0 := (overrideState.getD pool.state).reservesToken0
        reserves1 := (overrideState.getD pool.state).reservesToken1
        decimals0 := pool.decimalsToken0
        decimals1 := pool.decimalsToken1
        fee := pool.fee
        amountIn }

/-- Both quotes are the generic one, with solvers that agree where they return. -/
theorem generalQuote_of_quote {query : StableQuery} {amountIn out : ℤ}
    {overrideState : Option ReservesState} (hstable : query.stable = true)
    (h : query.quote amountIn overrideState = .ok out) :
    (query.swap amountIn overrideState).generalQuote generalCalcK
      (fun x0 xy y decimals0 decimals1 => getYAerodrome x0 xy decimals0 decimals1 255 y) =
        .ok out := by
  cases query with
  | aerodrome pool tokenIn =>
      replace hstable : pool.stable = true := hstable
      simp only [quote, AerodromeV2Pool.calculateTokensOutFromTokensIn, ite_error_eq_ok,
        hstable, if_true] at h
      exact h.2.2
  | solidly toChecksumAddress pool tokenIn =>
      replace hstable : pool.stable = true := hstable
      simp only [quote, SolidlyV1Pool.calculateTokensOutFromTokensIn, ite_error_eq_ok,
        bind_eq_ok, hstable, if_true] at h
      obtain ⟨-, tokenInCs, htoken, -, h⟩ := h
      simp only [StableSwap.generalQuote, swap, htoken, Except.ok.injEq]
      exact generalCalcExactInStable_congr (fun _ _ _ _ _ _ => solidlyGetY_eq_ok.mp) h

end StableQuery

/-- A quoted swap passes the pool's own check unless the solver's last round stops short of
the invariant, or leaves balances that are too large for the check. -/
theorem stableQuote_keepsInvariant_iff (query : StableQuery) (amountIn : ℤ)
    (overrideState : Option ReservesState) {out : ℤ} (hstable : query.stable = true)
    (hvalid : (query.swap amountIn overrideState).Valid)
    (h : query.quote amountIn overrideState = .ok out) :
    (query.swap amountIn overrideState).KeepsInvariant out ↔
      ¬(query.swap amountIn overrideState).EndsShort ∧
        ¬(query.swap amountIn overrideState).EndsLarge := by
  have hquote := StableQuery.generalQuote_of_quote hstable h
  obtain ⟨xy, y, hxy, hsolved, hout⟩ := (StableSwap.generalQuote_eq_ok
    (StableSwap.unit_of_decimals hvalid.decimals0_eq).1.ne'
    (StableSwap.unit_of_decimals hvalid.decimals1_eq).1.ne').mp hquote
  exact StableSwap.keepsInvariant_iff hvalid hxy hsolved hout

/-! ## A swap that loses -/

theorem feeScale_ne_zero : (2000 : ℕ) ≠ 0 := by decide

theorem feeScale_coprime : Nat.Coprime 1 2000 := Nat.coprime_one_left 2000

/-- A pool of a token with 6 decimals and one with 18. -/
def sampleStableQuery : StableQuery :=
  let token0 : Erc20Token := ⟨1, 8453, "USDC", 6⟩
  .aerodrome ⟨token0, ⟨2, 8453, "DAI", 18⟩, true,
    ⟨1, 2000, feeScale_ne_zero, feeScale_coprime⟩, ⟨3093, 6444710040380083535873, none⟩⟩ token0

theorem sampleStableQuery_quote :
    sampleStableQuery.quote 3 none = .ok 2082297411627100172 := by
  decide

theorem sampleStableQuery_valid : (sampleStableQuery.swap 3 none).Valid where
  reserves0_pos := by decide
  reserves1_pos := by decide
  decimals0_eq := ⟨6, by decide, rfl⟩
  decimals1_eq := ⟨18, by decide, rfl⟩
  fee_le := by decide
  amountIn_pos := by decide

theorem sampleStableQuery_loses :
    ¬(sampleStableQuery.swap 3 none).KeepsInvariant 2082297411627100172 := by
  rintro ⟨before, after, hbefore, hafter, hle⟩
  have h1 : (sampleStableQuery.swap 3 none).kBefore = .ok 827923227994681822552084616 := by
    decide
  have h2 : (sampleStableQuery.swap 3 none).kAfter 2082297411627100172 =
      .ok 827923227994681822551965502 := by
    decide
  rw [h1] at hbefore
  rw [h2] at hafter
  cases hbefore
  cases hafter
  exact absurd hle (by decide)

theorem stableQuote_sample : sampleStableQuery.quote 3 none = .ok 2082297411627100172 ∧
    ¬(¬(sampleStableQuery.swap 3 none).EndsShort ∧
      ¬(sampleStableQuery.swap 3 none).EndsLarge) :=
  ⟨sampleStableQuery_quote, fun hends => sampleStableQuery_loses
    ((stableQuote_keepsInvariant_iff sampleStableQuery 3 none rfl sampleStableQuery_valid
      sampleStableQuery_quote).mpr hends)⟩

theorem not_stableQuote_keepsInvariant :
    ¬∀ (query : StableQuery) (amountIn : ℤ) (overrideState : Option ReservesState) (out : ℤ),
      query.stable = true → (query.swap amountIn overrideState).Valid →
        query.quote amountIn overrideState = .ok out →
          (query.swap amountIn overrideState).KeepsInvariant out :=
  fun h => sampleStableQuery_loses (h sampleStableQuery 3 none _ rfl sampleStableQuery_valid
    sampleStableQuery_quote)

/-! ## Tokens of 18 decimals -/

/-- A quote between two tokens of 18 decimals leaves the pool at least the invariant it had. -/
theorem wadQuote_le_after (query : StableQuery) (amountIn : ℤ)
    (overrideState : Option ReservesState) {out before after : ℤ} (hstable : query.stable = true)
    (hvalid : (query.swap amountIn overrideState).Valid)
    (h0 : (query.swap amountIn overrideState).decimals0 = 10 ^ 18)
    (h1 : (query.swap amountIn overrideState).decimals1 = 10 ^ 18)
    (h : query.quote amountIn overrideState = .ok out)
    (hbefore : (query.swap amountIn overrideState).kBefore = .ok before)
    (hafter : (query.swap amountIn overrideState).kAfter out = .ok after) :
    before ≤ after := by
  have hd0 := (StableSwap.unit_of_decimals hvalid.decimals0_eq).1
  have hd1 := (StableSwap.unit_of_decimals hvalid.decimals1_eq).1
  obtain ⟨xy, y, hxy, hsolved, hout⟩ :=
    (StableSwap.generalQuote_eq_ok hd0.ne' hd1.ne').mp (StableQuery.generalQuote_of_quote hstable h)
  obtain rfl : xy = before := Except.ok.inj (hxy.symm.trans hbefore)
  have hnonneg : 0 ≤ xy := by
    obtain ⟨⟨hproduct, -⟩, rfl⟩ := (generalCalcK_eq_ok hd0.ne' hd1.ne').mp hxy
    exact fdiv_wad_nonneg hproduct
  obtain ⟨n, hn, z, hreach, hround⟩ := getYAerodrome_eq_ok.mp hsolved
  have hy := getYAerodromeRound_nonneg hvalid.x0_pos hnonneg hd0 hd1 hround
  obtain ⟨-, rfl⟩ := (hvalid.kAfter_eq_ok hy hout).mp hafter
  rcases getYAerodromeRound_eq_inl hround with ⟨rfl, hstops⟩ | ⟨rfl, hreached, -⟩
  · exact not_lt.mp fun hlt => StableSwap.not_endsShort_of_wad h0 h1
      ⟨xy, z, ⟨hxy, n, hn, hreach⟩, hstops, hlt⟩
  · exact hreached.trans (fAerodrome_mono hvalid.x0_pos.le hy (hvalid.le_leftOver y))

def sampleWadQuery : StableQuery :=
  let token0 : Erc20Token := ⟨1, 8453, "WETH", 18⟩
  .aerodrome ⟨token0, ⟨2, 8453, "DAI", 18⟩, true, ⟨1, 2000, feeScale_ne_zero, feeScale_coprime⟩,
    ⟨100000000000000000000, 100000000000000000000, none⟩⟩ token0

theorem sampleWadQuery_valid : (sampleWadQuery.swap 1000000000000000000 none).Valid where
  reserves0_pos := by decide
  reserves1_pos := by decide
  decimals0_eq := ⟨18, by decide, rfl⟩
  decimals1_eq := ⟨18, by decide, rfl⟩
  fee_le := by decide
  amountIn_pos := by decide

theorem sampleWadQuery_quote :
    sampleWadQuery.quote 1000000000000000000 none = .ok 999499500999750369 := by
  decide

theorem wadQuote_le_after_sample :
    sampleWadQuery.quote 1000000000000000000 none = .ok 999499500999750369 ∧
      (200000000000000000000000000 : ℤ) ≤ 200000000000000000001647516 :=
  ⟨sampleWadQuery_quote, wadQuote_le_after sampleWadQuery 1000000000000000000 none rfl
    sampleWadQuery_valid rfl rfl sampleWadQuery_quote (by decide) (by decide)⟩

end Degenbot
