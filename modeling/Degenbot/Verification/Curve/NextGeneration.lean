import Degenbot.Algorithm.CurveNG
import Degenbot.Library.Outcome
import Degenbot.Verification.Curve.Ports
import Mathlib.Tactic

/-! # Two solvers for one pool

The solvers of the two classes make the same rounds when the amplification of the one is twice
that of the other. `CurveStableswapPool` holds a hundred times the user-facing amplification,
and `CurveNGPool` divides by `A_PRECISION` what it never multiplied. -/

namespace Degenbot.CurveNG

open Library Curve

/-- The pool of `CurveStableswapPool`, in its default branch and with the D variant of
`D_VARIANT_GROUP_3`. -/
structure Describes (contract : Contract) (state : CurveNGPoolState) : Prop where
  metapool : contract.metapool = none
  dyVariant : contract.dyVariant = .default
  dVariant : contract.dVariant = .group3
  yVariant0 : contract.yVariant0 = false
  yVariant1 : contract.yVariant1 = false
  coins : contract.nCoins = 2
  rates : contract.rateMultipliers = [state.rates.1, state.rates.2]
  fee : contract.fee = state.feeBps

/-- Both return the same value, or both fail. -/
abbrev SameOrFail (x y : Except Exn ℤ) : Prop :=
  RefinesUpTo (fun _ : Exn => False) (fun _ _ : Exn => True) Eq x y

theorem SameOrFail.eq_ok_iff {x y : Except Exn ℤ} (h : SameOrFail x y) (out : ℤ) :
    x = .ok out ↔ y = .ok out := by
  cases h with
  | ok hab => rw [hab]
  | error => exact iff_of_false (by simp) (by simp)
  | gaveUp hfalse => exact absurd hfalse not_false

theorem SameOrFail.of_failures {x y : Except Exn ℤ} (hx : ∀ a, x ≠ .ok a) (hy : ∀ a, y ≠ .ok a) :
    SameOrFail x y := by
  cases x with
  | ok a => exact absurd rfl (hx a)
  | error e =>
      cases y with
      | ok b => exact absurd rfl (hy b)
      | error e' => exact .error trivial

theorem SameOrFail.refl (x : Except Exn ℤ) : SameOrFail x x := by
  cases x with
  | error e => exact RefinesUpTo.error trivial
  | ok value => exact RefinesUpTo.ok rfl

/-! ## The invariant -/

theorem close_eq (previous next : ℤ) : close previous next = Contract.close previous next := by
  unfold close Contract.close
  by_cases hlt : previous < next
  · rw [if_pos hlt, abs_of_pos (by omega)]
  · rw [if_neg hlt, abs_of_nonpos (by omega), neg_sub]

theorem converge_same (next : ℤ → Except Exn ℤ) (failure failure' : Exn) (rounds : ℕ) (a : ℤ) :
    SameOrFail (converge next close failure rounds a)
      (converge next Contract.close failure' rounds a) := by
  refine RefinesUpTo.converge trivial ?_ ?_ rounds rfl
  · rintro value _ rfl
    cases next value with
    | error e => exact RefinesUpTo.error trivial
    | ok value' => exact RefinesUpTo.ok rfl
  · rintro previous _ value _ rfl rfl
    exact close_eq previous value

variable {contract : Contract} {state : CurveNGPoolState} {amp a x : ℤ} {xp : ℤ × ℤ} {i j : ℕ}

theorem getDNext_eq (hdesc : Describes contract state) (s ann d : ℤ) :
    contract.getDNext [xp.1, xp.2] s ann d = getDNext xp s ann d := by
  simp only [Contract.getDNext, hdesc.dVariant, hdesc.coins, Contract.calcDpVariantAlpha,
    Contract.calcD, getDNext]
  rfl

theorem getD_same (hdesc : Describes contract state) (hscale : a = 2 * amp) :
    SameOrFail (curveNgGetD xp amp) (contract.getD [xp.1, xp.2] a) := by
  have hann : a * (2 : ℕ) = amp * 2 ^ 2 := by
    rw [hscale]
    push_cast
    ring
  have hsum : [xp.1, xp.2].sum = xp.1 + xp.2 := by simp
  rw [curveNgGetD, Contract.getD, hsum, hdesc.coins, hann]
  by_cases hzero : xp.1 + xp.2 = 0
  · rw [if_pos hzero, if_pos hzero]
    exact .ok rfl
  · rw [if_neg hzero, if_neg hzero, funext (getDNext_eq hdesc (xp.1 + xp.2) (amp * 2 ^ 2))]
    exact converge_same _ _ _ _ _

/-! ## The balance after the swap -/

/-- The steps of both solvers after the invariant. -/
def solveFrom (close : ℤ → ℤ → Bool) (failure : Exn) (x ann d : ℤ) : Except Exn ℤ := do
  let c ← floorDivide (d * d) (x * 2)
  let c ← floorDivide (c * d * 100) (ann * 2)
  let share ← floorDivide (d * 100) ann
  converge (fun y => floorDivide (y * y + c) (2 * y + (x + share) - d)) close failure 255 d

def yFailure : Exn := .evmRevertError "Curve NG y-solver did not converge in 255 iterations"

theorem walk_eq (hij : i = 0 ∧ j = 1 ∨ i = 1 ∧ j = 0) (d : ℤ) :
    (List.range 2).foldlM (walk i j x xp d) (0, d) =
      floorDivide (d * d) (x * 2) >>= fun c => .ok (x, c) := by
  have hrange : List.range 2 = [0, 1] := rfl
  rw [hrange]
  rcases hij with ⟨rfl, rfl⟩ | ⟨rfl, rfl⟩
  all_goals
    simp only [List.foldlM_cons, List.foldlM_nil, walk]
    cases hc : floorDivide (d * d) (x * 2) <;> simp [hc]

theorem sumAndProduct_eq (hij : i = 0 ∧ j = 1 ∨ i = 1 ∧ j = 0) (d : ℤ) :
    Contract.sumAndProduct ((2 : ℕ) : ℤ) d
        ((List.range 2).filter fun index => index = i ∨ index ≠ j)
        (fun index => if index = i then .ok x else item [xp.1, xp.2] index) =
      floorDivide (d * d) (x * 2) >>= fun c => .ok (x, c) := by
  rcases hij with ⟨rfl, rfl⟩ | ⟨rfl, rfl⟩
  · have hcoins : ((List.range 2).filter fun index => index = 0 ∨ index ≠ 1) = [0] := by decide
    rw [hcoins]
    simp only [Contract.sumAndProduct, List.foldlM_cons, List.foldlM_nil]
    cases hc : floorDivide (d * d) (x * 2) <;> simp [hc]
  · have hcoins : ((List.range 2).filter fun index => index = 1 ∨ index ≠ 0) = [1] := by decide
    rw [hcoins]
    simp only [Contract.sumAndProduct, List.foldlM_cons, List.foldlM_nil]
    cases hc : floorDivide (d * d) (x * 2) <;> simp [hc]

theorem curveNgGetY_eq (hij : i = 0 ∧ j = 1 ∨ i = 1 ∧ j = 0) :
    curveNgGetY i j x xp amp =
      curveNgGetD xp amp >>= fun d => solveFrom close yFailure x (amp * 2 ^ 2) d := by
  have hne : i ≠ j := by omega
  have hlt : ¬¬(i < 2 ∧ j < 2) := by omega
  rw [curveNgGetY, if_neg hne, if_neg hlt]
  refine bind_congr fun d => ?_
  rw [walk_eq hij, bind_assoc]
  rfl

theorem getY_eq (hdesc : Describes contract state)
    (hamp : contract.aAtBlock contract.updateBlock = .ok a)
    (hij : i = 0 ∧ j = 1 ∨ i = 1 ∧ j = 0) :
    contract.getY i j x [xp.1, xp.2] =
      contract.getD [xp.1, xp.2] a >>= fun d =>
        solveFrom Contract.close Contract.yNotConverged x (a * 2) d := by
  have hne : i ≠ j := by omega
  obtain ⟨hi, hj⟩ : i < 2 ∧ j < 2 := by omega
  simp only [Contract.getY, hdesc.coins, hamp, ok_bind, assertion, if_pos hne, if_pos hi, if_pos hj,
    hdesc.yVariant0, hdesc.yVariant1, Bool.false_eq_true, if_false]
  refine bind_congr fun d => ?_
  rw [sumAndProduct_eq hij, bind_assoc]
  rfl

theorem solveFrom_same (failure failure' : Exn) (x ann d : ℤ) :
    SameOrFail (solveFrom close failure x ann d) (solveFrom Contract.close failure' x ann d) := by
  unfold solveFrom
  cases floorDivide (d * d) (x * 2) with
  | error e => exact RefinesUpTo.error trivial
  | ok c =>
      rw [ok_bind, ok_bind]
      cases floorDivide (c * d * 100) (ann * 2) with
      | error e => exact RefinesUpTo.error trivial
      | ok c' =>
          rw [ok_bind, ok_bind]
          cases floorDivide (d * 100) ann with
          | error e => exact RefinesUpTo.error trivial
          | ok share =>
              rw [ok_bind, ok_bind]
              exact converge_same _ _ _ _ _

/-- At an invariant of zero the amplification is only divided by. -/
theorem solveFrom_zero (close : ℤ → ℤ → Bool) (failure : Exn) (x : ℤ) {ann ann' : ℤ}
    (hann : 0 < ann) (hann' : 0 < ann') :
    solveFrom close failure x ann 0 = solveFrom close failure x ann' 0 := by
  unfold solveFrom
  refine bind_congr fun c => ?_
  simp only [floorDivide, mul_zero, zero_mul, if_neg hann.ne', if_neg hann'.ne',
    if_neg (show ann * 2 ≠ 0 by omega), if_neg (show ann' * 2 ≠ 0 by omega), Int.zero_fdiv]

theorem solveFrom_failure (close : ℤ → ℤ → Bool) (failure : Exn) (ann d out : ℤ) :
    solveFrom close failure 0 ann d ≠ .ok out := by
  simp [solveFrom, floorDivide]

/-! ## The output -/

/-- Both solvers find the same balance when the amplifications have the same scale, or when the
amplification has nothing to scale. -/
theorem getY_same (hdesc : Describes contract state)
    (hamp : contract.aAtBlock contract.updateBlock = .ok a)
    (hij : i = 0 ∧ j = 1 ∨ i = 1 ∧ j = 0)
    (h : a = 2 * amp ∨ (0 < amp ∧ 0 < a ∧ (xp.1 + xp.2 = 0 ∨ x = 0))) :
    SameOrFail (curveNgGetY i j x xp amp) (contract.getY i j x [xp.1, xp.2]) := by
  rw [curveNgGetY_eq hij, getY_eq hdesc hamp hij]
  rcases h with hscale | ⟨hpos, hpos', hzero | rfl⟩
  · have hann : a * 2 = amp * 2 ^ 2 := by rw [hscale]; ring
    refine RefinesUpTo.bind (getD_same hdesc hscale) ?_
    rintro d _ - rfl
    rw [hann]
    exact solveFrom_same _ _ _ _ _
  · have hsum : [xp.1, xp.2].sum = 0 := by simpa using hzero
    rw [curveNgGetD, if_pos hzero, Contract.getD, if_pos hsum, ok_bind, ok_bind,
      solveFrom_zero _ _ x (show 0 < amp * 2 ^ 2 by omega) (show 0 < a * 2 by omega)]
    exact solveFrom_same _ _ _ _ _
  · refine SameOrFail.of_failures ?_ ?_
    · intro out hout
      obtain ⟨d, -, hd⟩ := bind_eq_ok.mp hout
      exact solveFrom_failure _ _ _ _ _ hd
    · intro out hout
      obtain ⟨d, -, hd⟩ := bind_eq_ok.mp hout
      exact solveFrom_failure _ _ _ _ _ hd

theorem coinIndices_cases {pool : CurveNGPool} {tokenIn : Address}
    (h : pool.coinIndices tokenIn = .ok (i, j)) : i = 0 ∧ j = 1 ∨ i = 1 ∧ j = 0 := by
  unfold CurveNGPool.coinIndices at h
  split_ifs at h
  · cases h
    exact Or.inl ⟨rfl, rfl⟩
  · cases h
    exact Or.inr ⟨rfl, rfl⟩

theorem item_pair (pair : ℤ × ℤ) (hi : i < 2) : item [pair.1, pair.2] i = .ok (coin pair i) := by
  interval_cases i <;> rfl

theorem xp_eq (state : CurveNGPoolState) :
    Contract.xp [state.rates.1, state.rates.2] [state.balances.1, state.balances.2] =
      .ok [state.xp.1, state.xp.2] := by
  simp [Contract.xp, zipStrict, CurveNGPoolState.xp, precision, mul_comm]

/-- With the user-facing amplification the pool of `CurveStableswapPool` holds `100 * amp`. -/
theorem calculateTokensOut_agrees {pool : CurveNGPool} (hdesc : Describes contract pool.state)
    (hamp : contract.aAtBlock contract.updateBlock = .ok a) (ha : 0 < a)
    {blockIdentifier : Option ℕ} {block : ℕ}
    (hblock : contract.blockNumber blockIdentifier = .ok block)
    {tokenIn : Address} (hcoins : pool.coinIndices tokenIn = .ok (i, j)) {dx : ℤ} (hdx : 0 < dx)
    (h : a = 2 * pool.state.amp ∨ pool.state.xp.1 + pool.state.xp.2 = 0 ∨
      coin pool.state.xp i + (dx * coin pool.state.rates i).fdiv (10 ^ 18) = 0) (out : ℤ) :
    pool.calculateTokensOutFromTokensIn tokenIn dx none = .ok out ↔
      contract.getDy [pool.state.balances.1, pool.state.balances.2] i j dx blockIdentifier =
        .ok out := by
  have hij := coinIndices_cases hcoins
  obtain ⟨hi, hj⟩ : i < 2 ∧ j < 2 := by omega
  have hscale : a = 2 * pool.state.amp ∨ (0 < pool.state.amp ∧ 0 < a ∧
      (pool.state.xp.1 + pool.state.xp.2 = 0 ∨
        coin pool.state.xp i + (dx * coin pool.state.rates i).fdiv (10 ^ 18) = 0)) :=
    h.imp_right fun hzero => ⟨pool.amp_pos, ha, hzero⟩
  refine SameOrFail.eq_ok_iff ?_ out
  simp only [Contract.getDy, hblock, ok_bind, hdesc.metapool, hdesc.dyVariant, Contract.dyScaled,
    Contract.solve, hdesc.rates, xp_eq, item_pair _ hi, item_pair _ hj,
    CurveNGPool.calculateTokensOutFromTokensIn, if_neg (not_le.mpr hdx), hcoins,
    Option.getD_none, bind_assoc]
  refine RefinesUpTo.bind (getY_same hdesc hamp hij hscale) ?_
  rintro y _ - rfl
  rw [Contract.chargeFee, hdesc.fee, mul_comm pool.state.feeBps]
  exact SameOrFail.refl _

/-! ## Pools of one amplification -/

def sampleState (balance : ℕ) : CurveNGPoolState :=
  { balances := (balance, balance), rates := (10 ^ 18, 10 ^ 18), amp := 200, feeBps := 4000000 }

theorem sampleState_rates (balance : ℕ) :
    0 < (sampleState balance).rates.1 ∧ 0 < (sampleState balance).rates.2 := by
  norm_num [sampleState]

theorem sampleState_amp (balance : ℕ) : 0 < (sampleState balance).amp := by norm_num [sampleState]

theorem sampleState_fee (balance : ℕ) :
    0 ≤ (sampleState balance).feeBps ∧ (sampleState balance).feeBps < feeDenominator := by
  norm_num [sampleState, feeDenominator]

def samplePool (balance : ℕ) : CurveNGPool where
  token0 := 1
  token1 := 2
  state := sampleState balance
  balances_nonneg := ⟨Int.natCast_nonneg balance, Int.natCast_nonneg balance⟩
  rates_pos := sampleState_rates balance
  amp_pos := sampleState_amp balance
  fee_mem := sampleState_fee balance

def sampleContract (balance : ℕ) : Contract :=
  { CurveSimulation.plainContract ⟨[balance, balance], 200, 4⟩ with dVariant := .group3 }

theorem sampleContract_describes (balance : ℕ) :
    Describes (sampleContract balance) (samplePool balance).state where
  metapool := rfl
  dyVariant := rfl
  dVariant := rfl
  yVariant0 := rfl
  yVariant1 := rfl
  coins := rfl
  rates := by
    simp only [sampleContract, CurveSimulation.plainContract, samplePool, sampleState]
    rfl
  fee := by
    simp only [sampleContract, CurveSimulation.plainContract, samplePool, sampleState]
    norm_num

/-- The contract whose scaled amplification is twice the pool's 200. -/
def matchingContract (balance : ℕ) : Contract :=
  { CurveSimulation.plainContract ⟨[balance, balance], 4, 4⟩ with dVariant := .group3 }
theorem matchingContract_describes (balance : ℕ) :
    Describes (matchingContract balance) (samplePool balance).state where
  metapool := rfl
  dyVariant := rfl
  dVariant := rfl
  yVariant0 := rfl
  yVariant1 := rfl
  coins := rfl
  rates := by
    simp only [matchingContract, CurveSimulation.plainContract, samplePool, sampleState]
    rfl
  fee := by
    simp only [matchingContract, CurveSimulation.plainContract, samplePool, sampleState]
    norm_num

/-- An empty pool, and one whose contract doubles the amplification. -/
theorem calculateTokensOut_agrees_sample :
    ((samplePool 0).calculateTokensOutFromTokensIn 1 (10 ^ 18) none = .ok 0 ∧
      (sampleContract 0).getDy [0, 0] 0 1 (10 ^ 18) none = .ok 0) ∧
    (samplePool (10 ^ 6)).calculateTokensOutFromTokensIn 1 (10 ^ 5) none = .ok 97988 ∧
      (matchingContract (10 ^ 6)).getDy [10 ^ 6, 10 ^ 6] 0 1 (10 ^ 5) none = .ok 97988 := by
  constructor
  · have hquote : (samplePool 0).calculateTokensOutFromTokensIn 1 (10 ^ 18) none = .ok 0 := by
      decide +kernel
    have hamp : (sampleContract 0).aAtBlock (sampleContract 0).updateBlock = .ok 20000 := by
      decide +kernel
    have hcoins : (samplePool 0).coinIndices 1 = .ok (0, 1) := by decide +kernel
    have hzero : (samplePool 0).state.xp.1 + (samplePool 0).state.xp.2 = 0 := by decide +kernel
    have hblock : (sampleContract 0).blockNumber none = .ok 1 := rfl
    have hpos : (0 : ℤ) < 10 ^ 18 := by norm_num
    have hagree := calculateTokensOut_agrees (sampleContract_describes 0) hamp (by norm_num) hblock
      hcoins hpos (.inr (.inl hzero)) 0
    exact ⟨hquote, hagree.mp hquote⟩
  · have hquote : (samplePool (10 ^ 6)).calculateTokensOutFromTokensIn 1 (10 ^ 5) none =
        .ok 97988 := by decide +kernel
    have hamp : (matchingContract (10 ^ 6)).aAtBlock (matchingContract (10 ^ 6)).updateBlock =
        .ok 400 := by decide +kernel
    have hcoins : (samplePool (10 ^ 6)).coinIndices 1 = .ok (0, 1) := by decide +kernel
    have hblock : (matchingContract (10 ^ 6)).blockNumber none = .ok 1 := rfl
    have hpos : (0 : ℤ) < 10 ^ 5 := by norm_num
    have hagree := calculateTokensOut_agrees (matchingContract_describes (10 ^ 6)) hamp
      (by norm_num) hblock hcoins hpos (.inl rfl) 97988
    exact ⟨hquote, hagree.mp hquote⟩

/-- Both pools are described by the amplification 200. -/
theorem calculateTokensOut_differs :
    Describes (sampleContract (10 ^ 6)) (samplePool (10 ^ 6)).state ∧
      (sampleContract (10 ^ 6)).aAtBlock (sampleContract (10 ^ 6)).updateBlock =
        .ok (100 * (samplePool (10 ^ 6)).state.amp) ∧
      (samplePool (10 ^ 6)).calculateTokensOutFromTokensIn 1 (10 ^ 5) none = .ok 97988 ∧
      (sampleContract (10 ^ 6)).getDy [10 ^ 6, 10 ^ 6] 0 1 (10 ^ 5) none = .ok 99910 :=
  ⟨sampleContract_describes _, by decide +kernel, by decide +kernel, by decide +kernel⟩

end Degenbot.CurveNG
