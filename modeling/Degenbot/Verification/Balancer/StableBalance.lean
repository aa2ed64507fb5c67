import Degenbot.Algorithm.StableMath
import Degenbot.Library.Outcome
import Degenbot.Library.Rounding
import Degenbot.Library.StableSwap

/-! # The balance solver of the stable pools

Every coefficient is rounded so that the quadratic equation of the balance gets a larger root,
and every iterate is rounded up. What the solver returns is not below the exact balance. -/

namespace Degenbot.StableMath

open Library

/-! ## The checked operations -/

section Operations

variable {a b c : ℤ}

theorem add_eq_ok : add a b = .ok c ↔ a + b ≤ maxUint256 ∧ c = a + b := by
  simp only [add, ite_error_eq_ok, not_lt, Except.ok.injEq]
  exact and_congr_right fun _ => eq_comm

theorem sub_eq_ok : sub a b = .ok c ↔ b ≤ a ∧ c = a - b := by
  simp only [sub, ite_error_eq_ok, not_lt, Except.ok.injEq]
  exact and_congr_right fun _ => eq_comm

theorem mul_eq (h : mul a b = .ok c) : c = a * b := by
  unfold mul at h
  split_ifs at h with hzero
  · rw [← Except.ok.inj h]
    rcases hzero with rfl | rfl
    · rw [zero_mul]
    · rw [mul_zero]
  · simp only [ite_error_eq_ok, Except.ok.injEq] at h
    exact h.2.symm

theorem divDown_eq_ok : divDown a b = .ok c ↔ b ≠ 0 ∧ c = a.fdiv b := by
  simp only [divDown, ite_error_eq_ok, Except.ok.injEq]
  exact and_congr_right fun _ => eq_comm

theorem divUp_ne_zero (h : divUp a b = .ok c) : b ≠ 0 := by
  rw [divUp, ite_error_eq_ok] at h
  exact h.1

theorem divUp_eq (hb : 0 < b) (h : divUp a b = .ok c) : c = ceilDiv a b := by
  rw [divUp, if_neg hb.ne'] at h
  split_ifs at h with hzero
  · rw [hzero, zero_ceilDiv]
    exact (Except.ok.inj h).symm
  · rw [← Except.ok.inj h, Int.fdiv_eq_ediv_of_nonneg _ hb.le]
    apply le_antisymm
    · rw [add_comm, Int.add_one_le_iff, lt_ceilDiv_iff hb]
      have hle := Int.ediv_mul_le (a - 1) hb.ne'
      omega
    · rw [ceilDiv_le_iff hb, add_mul, one_mul]
      have hlt := Int.lt_ediv_add_one_mul_self (a - 1) hb
      rw [add_mul, one_mul] at hlt
      omega

theorem item_eq_ok {xs : List ℤ} {i : ℕ} {x : ℤ} : item xs i = .ok x ↔ xs[i]? = some x := by
  unfold item
  cases xs[i]? with
  | none => simp
  | some y => simp

theorem converge_eq_ok {next : ℤ → Except Exn ℤ} {close : ℤ → ℤ → Bool} {failure : Exn}
    {rounds : ℕ} {start result : ℤ} (h : converge next close failure rounds start = .ok result) :
    ∃ previous, next previous = .ok result ∧ close previous result = true := by
  induction rounds generalizing start with
  | zero => cases h
  | succ rounds ih =>
      rw [converge] at h
      cases hnext : next start with
      | error e =>
          rw [hnext] at h
          cases h
      | ok value =>
          rw [hnext] at h
          simp only at h
          by_cases hclose : close start value = true
          · rw [if_pos hclose] at h
            cases h
            exact ⟨start, hnext, hclose⟩
          · rw [if_neg hclose] at h
            exact ih h

end Operations

/-! ## The coefficients -/

section Coefficients

variable {amp invariant : ℤ} {balances : List ℤ} {j : ℕ}

/-- The balances as real numbers. -/
def reals (balances : List ℤ) : List ℝ := balances.map (↑)

/-- The amplification of the sum: `amp * n`, with its precision. -/
noncomputable def amplification (amp : ℤ) (balances : List ℤ) : ℝ :=
  amp * balances.length / 1000

/-- The balance of token `j` that solves the equation for the invariant and the balances of the
other tokens. -/
def IsExactBalance (amp : ℤ) (balances : List ℤ) (invariant : ℤ) (j : ℕ) (exact : ℝ) : Prop :=
  0 < exact ∧ StableSwap.Equation (amplification amp balances)
    ((reals balances).set j exact) invariant

theorem reals_pos (hpos : ∀ x ∈ balances, 0 < x) : ∀ x ∈ reals balances, 0 < x := by
  intro x hx
  obtain ⟨y, hy, rfl⟩ := List.mem_map.mp hx
  exact_mod_cast hpos y hy

theorem getElem?_reals {x : ℤ} (h : balances[j]? = some x) :
    (reals balances)[j]? = some (x : ℝ) := by
  rw [reals, List.getElem?_map, h]
  rfl

theorem amplification_pos (hamp : 0 < amp) (hlength : 0 < balances.length) :
    0 < amplification amp balances := by
  have hamp' : (0 : ℝ) < amp := by exact_mod_cast hamp
  have hlength' : (0 : ℝ) < balances.length := by exact_mod_cast hlength
  rw [amplification]
  positivity

/-- One pass keeps `p_d` on or below the exact product. -/
theorem nextPd_le {n : ℤ} {state state' : ℤ × ℤ} {balance : ℤ} {exact : ℝ} (hn : 0 ≤ n)
    (hinvariant : 0 < invariant) (hbalance : 0 ≤ balance) (hstate : 0 ≤ state.1)
    (hle : (state.1 : ℝ) ≤ exact) (h : nextPd n invariant state balance = .ok state') :
    0 ≤ state'.1 ∧ (state'.1 : ℝ) ≤ exact * (balance * n / invariant) ∧
      state'.2 = state.2 + balance := by
  simp only [nextPd, bind_eq_ok, Except.ok.injEq] at h
  obtain ⟨product, hproduct, scaled, hscaled, pD, hpD, sum, hsum, rfl⟩ := h
  rw [mul_eq hproduct] at hscaled
  rw [mul_eq hscaled, divDown_eq_ok, Int.fdiv_eq_ediv_of_nonneg _ hinvariant.le] at hpD
  have hvalue : 0 ≤ state.1 * balance * n := mul_nonneg (mul_nonneg hstate hbalance) hn
  refine ⟨hpD.2 ▸ Int.ediv_nonneg hvalue hinvariant.le, ?_, (add_eq_ok.mp hsum).2⟩
  have hinvariant' : (0 : ℝ) < invariant := by exact_mod_cast hinvariant
  have hfactor : (0 : ℝ) ≤ balance * n / invariant := by
    have hbalance' : (0 : ℝ) ≤ balance := by exact_mod_cast hbalance
    have hn' : (0 : ℝ) ≤ n := by exact_mod_cast hn
    positivity
  have hfloor : pD * invariant ≤ state.1 * balance * n := by
    rw [hpD.2]
    exact Int.ediv_mul_le _ hinvariant.ne'
  have hfloor' : (pD : ℝ) * invariant ≤ state.1 * balance * n := by exact_mod_cast hfloor
  calc (pD : ℝ) ≤ state.1 * balance * n / invariant := by rwa [le_div_iff₀ hinvariant']
    _ = state.1 * (balance * n / invariant) := by ring
    _ ≤ exact * (balance * n / invariant) := mul_le_mul_of_nonneg_right hle hfactor

theorem foldlM_nextPd_le {n : ℤ} {state state' : ℤ × ℤ} {rest : List ℤ} {exact : ℝ} (hn : 0 ≤ n)
    (hinvariant : 0 < invariant) (hrest : ∀ x ∈ rest, 0 ≤ x) (hstate : 0 ≤ state.1)
    (hle : (state.1 : ℝ) ≤ exact) (h : rest.foldlM (nextPd n invariant) state = .ok state') :
    0 ≤ state'.1 ∧
      (state'.1 : ℝ) ≤ exact * ((reals rest).prod * (n / invariant : ℝ) ^ rest.length) ∧
      state'.2 = state.2 + rest.sum := by
  induction rest generalizing state exact with
  | nil =>
      cases h
      simpa [reals] using ⟨hstate, hle⟩
  | cons balance rest ih =>
      rw [List.foldlM_cons, bind_eq_ok] at h
      obtain ⟨middle, hmiddle, h⟩ := h
      obtain ⟨hnonneg, hbound, hsum⟩ := nextPd_le hn hinvariant (hrest balance (by simp)) hstate
        hle hmiddle
      obtain ⟨hnonneg', hbound', hsum'⟩ := ih (fun x hx => hrest x (by simp [hx])) hnonneg hbound h
      refine ⟨hnonneg', hbound'.trans_eq ?_, ?_⟩
      · simp only [reals, List.map_cons, List.prod_cons, List.length_cons, pow_succ]
        ring
      · rw [hsum', hsum, List.sum_cons]
        ring

/-- A product that is not zero has no zero factor. -/
theorem foldlM_nextPd_ne_zero {n : ℤ} {state state' : ℤ × ℤ} {rest : List ℤ}
    (h : rest.foldlM (nextPd n invariant) state = .ok state') (hne : state'.1 ≠ 0) :
    state.1 ≠ 0 ∧ ∀ x ∈ rest, x ≠ 0 := by
  induction rest generalizing state with
  | nil =>
      cases h
      exact ⟨hne, by simp⟩
  | cons balance rest ih =>
      rw [List.foldlM_cons, bind_eq_ok] at h
      obtain ⟨middle, hmiddle, h⟩ := h
      obtain ⟨hmiddleNe, hrest⟩ := ih h
      simp only [nextPd, bind_eq_ok, Except.ok.injEq] at hmiddle
      obtain ⟨product, hproduct, scaled, hscaled, pD, hpD, sum, -, rfl⟩ := hmiddle
      rw [mul_eq hproduct] at hscaled
      rw [mul_eq hscaled, divDown_eq_ok] at hpD
      have hfactors : state.1 * balance ≠ 0 := by
        intro hzero
        rw [hzero, zero_mul, Int.zero_fdiv] at hpD
        exact hmiddleNe hpD.2
      refine ⟨left_ne_zero_of_mul hfactors, ?_⟩
      intro x hx
      rcases List.mem_cons.mp hx with rfl | hx
      · exact right_ne_zero_of_mul hfactors
      · exact hrest x hx

/-- With a zero balance the solver divides by zero. -/
theorem balances_ne_zero {inv2 b c : ℤ}
    (h : balanceCoefficients amp balances invariant j = .ok (inv2, b, c)) :
    ∀ x ∈ balances, x ≠ 0 := by
  cases balances with
  | nil => simp
  | cons first rest =>
  simp only [balanceCoefficients, bind_eq_ok, Except.ok.injEq, item_eq_ok,
    List.getElem?_cons_zero, Option.some.injEq, List.tail_cons] at h
  obtain ⟨_, rfl, ⟨pD, sum⟩, hfold, own, -, square, -, ampPd, hampPd, quotient, hquotient, -⟩ := h
  have hne := divUp_ne_zero hquotient
  rw [mul_eq hampPd] at hne
  obtain ⟨hfirst, hrest⟩ := foldlM_nextPd_ne_zero hfold (right_ne_zero_of_mul hne)
  intro x hx
  rcases List.mem_cons.mp hx with rfl | hx
  · exact left_ne_zero_of_mul hfirst
  · exact hrest x hx

theorem sum_reals (balances : List ℤ) : (reals balances).sum = balances.sum := by
  rw [reals, Int.cast_list_sum]

/-- The integer part of the invariant over the amplification. -/
theorem ratio_le {ampTimesTotal : ℤ} (hampTimesTotal : 0 < ampTimesTotal) :
    ((invariant / ampTimesTotal * ampPrecision : ℤ) : ℝ) ≤
      invariant / ((ampTimesTotal : ℝ) / 1000) := by
  have hpos : (0 : ℝ) < ampTimesTotal := by exact_mod_cast hampTimesTotal
  have hfloor : invariant / ampTimesTotal * ampTimesTotal ≤ invariant :=
    Int.ediv_mul_le _ hampTimesTotal.ne'
  have hfloor' : ((invariant / ampTimesTotal : ℤ) : ℝ) * ampTimesTotal ≤ invariant := by
    exact_mod_cast hfloor
  rw [div_div_eq_mul_div, le_div_iff₀ hpos]
  push_cast [ampPrecision]
  nlinarith

/-- The rounded quotient of the squared invariant. -/
theorem quotient_ge {ampPd quotient : ℤ} (hampPd : 0 < ampPd)
    (hquotient : quotient = ceilDiv (invariant * invariant) ampPd) {bound : ℝ}
    (hbound : (ampPd : ℝ) ≤ bound) : (invariant : ℝ) ^ 2 / bound ≤ quotient := by
  have hpos : (0 : ℝ) < ampPd := by exact_mod_cast hampPd
  have hceil : invariant * invariant ≤ quotient * ampPd := hquotient ▸ le_ceilDiv_mul hampPd
  have hceil' : (invariant : ℝ) * invariant ≤ quotient * ampPd := by exact_mod_cast hceil
  calc (invariant : ℝ) ^ 2 / bound ≤ (invariant : ℝ) ^ 2 / ampPd :=
        div_le_div_of_nonneg_left (sq_nonneg _) hpos hbound
    _ ≤ quotient := by
        rw [div_le_iff₀ hpos, sq]
        exact hceil'

/-- The coefficients are on the safe side of the exact ones. -/
theorem balanceCoefficients_safe (hamp : 0 < amp) (hpos : ∀ x ∈ balances, 0 < x)
    (hinvariant : 0 < invariant) {inv2 b c : ℤ}
    (h : balanceCoefficients amp balances invariant j = .ok (inv2, b, c)) :
    ∃ own, balances[j]? = some own ∧
      (b : ℝ) ≤ StableSwap.coefficientB (amplification amp balances) (reals balances) own
        invariant ∧
      StableSwap.coefficientC (amplification amp balances) (reals balances) own invariant ≤
        (c : ℝ) := by
  cases balances with
  | nil => simp [balanceCoefficients, item] at h
  | cons first rest =>
  simp only [balanceCoefficients, bind_eq_ok, Except.ok.injEq, Prod.mk.injEq, item_eq_ok,
    List.getElem?_cons_zero, Option.some.injEq, List.tail_cons] at h
  obtain ⟨_, rfl, ⟨pD, sum⟩, hfold, own, hown, square, hsquare, ampPd, hampPd, quotient, hquotient,
    scaled, hscaled, c', hc, ratio, hratio, scaledRatio, hscaledRatio, b', hb, rfl, rfl, rfl⟩ := h
  set n : ℤ := ((first :: rest).length : ℤ) with hn
  have hnpos : 0 < n := by
    rw [hn, List.length_cons]
    positivity
  have hampTimesTotal : 0 < amp * n := mul_pos hamp hnpos
  have hfirst : 0 < first := hpos first (by simp)
  have hownPos : 0 < own := hpos own (List.mem_of_getElem? hown)
  obtain ⟨hpDnonneg, hpDle, hsum⟩ := foldlM_nextPd_le hnpos.le hinvariant
    (fun x hx => (hpos x (by simp [hx])).le) (mul_nonneg hfirst.le hnpos.le) le_rfl hfold
  refine ⟨own, hown, ?_, ?_⟩
  · rw [divDown_eq_ok, Int.fdiv_eq_ediv_of_nonneg _ hampTimesTotal.le] at hratio
    rw [(add_eq_ok.mp hb).2, mul_eq hscaledRatio, hratio.2, StableSwap.coefficientB, sum_reals,
      hsum, List.sum_cons, Int.cast_add, amplification]
    have hle := @ratio_le invariant _ hampTimesTotal
    push_cast at hle ⊢
    rw [hn] at hle ⊢
    push_cast at hle ⊢
    linarith
  · have hampPdPos : 0 < ampPd := by
      have hne := divUp_ne_zero hquotient
      rw [mul_eq hampPd] at hne ⊢
      exact lt_of_le_of_ne (mul_nonneg hampTimesTotal.le hpDnonneg) (Ne.symm hne)
    rw [mul_eq hsquare] at hquotient
    have hquotient' := divUp_eq hampPdPos hquotient
    have hD : (0 : ℝ) < invariant := by exact_mod_cast hinvariant
    have hamp' : (0 : ℝ) < amp := by exact_mod_cast hamp
    have hn' : (0 : ℝ) < n := by exact_mod_cast hnpos
    have hown' : (0 : ℝ) < own := by exact_mod_cast hownPos
    have hfirst' : (0 : ℝ) < first := by exact_mod_cast hfirst
    have hproduct : 0 < (reals rest).prod :=
      StableSwap.prod_pos (reals_pos fun x hx => hpos x (by simp [hx]))
    have hbound : (ampPd : ℝ) ≤
        amp * n * (first * n * ((reals rest).prod * (n / invariant : ℝ) ^ rest.length)) := by
      rw [mul_eq hampPd]
      push_cast at hpDle ⊢
      exact mul_le_mul_of_nonneg_left hpDle (by positivity)
    have hge := quotient_ge hampPdPos hquotient' hbound
    rw [mul_eq hc, mul_eq hscaled, StableSwap.coefficientC, amplification]
    have hlength : ((reals (first :: rest)).length : ℝ) = n := by
      rw [hn, reals, List.length_map]
      push_cast
      rfl
    have hlength' : ((first :: rest).length : ℝ) = n := by
      rw [hn]
      push_cast
      rfl
    have hcount : (reals (first :: rest)).length = rest.length + 1 := by simp [reals]
    have hprod : (reals (first :: rest)).prod = first * (reals rest).prod := by simp [reals]
    rw [hlength, hlength', hcount, hprod]
    calc (invariant : ℝ) ^ (rest.length + 1 + 1) /
          ((amp : ℝ) * n / 1000 * (n : ℝ) ^ (rest.length + 1) *
            (first * (reals rest).prod / own))
        = (invariant : ℝ) ^ 2 / (amp * n * (first * n * ((reals rest).prod *
            (n / invariant : ℝ) ^ rest.length))) * 1000 * own := by
          rw [div_pow]
          field_simp
          ring
      _ ≤ quotient * 1000 * own := by
          apply mul_le_mul_of_nonneg_right _ hown'.le
          exact mul_le_mul_of_nonneg_right hge (by norm_num)
      _ = ((quotient * ampPrecision * own : ℤ) : ℝ) := by
          push_cast [ampPrecision]
          ring

end Coefficients

/-! ## The solver -/

section Solver

variable {amp invariant : ℤ} {balances : List ℤ} {i j : ℕ} {exact : ℝ}

/-- A round that returns satisfies Newton's inequality. -/
theorem nextTokenBalance_spec {b c previous next : ℤ}
    (h : nextTokenBalance invariant b c previous = .ok next) :
    0 < 2 * previous + b - invariant ∧
      previous * previous + c ≤ next * (2 * previous + b - invariant) := by
  simp only [nextTokenBalance, bind_eq_ok, add_eq_ok, sub_eq_ok] at h
  obtain ⟨square, hsquare, numerator, hnumerator, double, hdouble, total, htotal, denominator,
    hdenominator, hquotient⟩ := h
  have hne := divUp_ne_zero hquotient
  have hden : denominator = 2 * previous + b - invariant := by
    rw [hdenominator.2, htotal.2, mul_eq hdouble]
    ring
  have hpos : 0 < denominator := by
    have hle := hdenominator.1
    omega
  have hnum : numerator = previous * previous + c := by
    rw [hnumerator.2, mul_eq hsquare]
  have hceil := divUp_eq hpos hquotient
  rw [← hden, ← hnum, hceil]
  exact ⟨hpos, le_ceilDiv_mul hpos⟩

theorem getTokenBalance_ge (hamp : 0 < amp) (hpos : ∀ x ∈ balances, 0 < x)
    (hinvariant : 0 < invariant) {y : ℤ}
    (h : getTokenBalanceGivenInvariantAndAllOtherBalances amp balances invariant j = .ok y)
    (hexact : IsExactBalance amp balances invariant j exact) : exact ≤ y := by
  simp only [getTokenBalanceGivenInvariantAndAllOtherBalances, bind_eq_ok] at h
  obtain ⟨⟨inv2, b, c⟩, hcoefficients, numerator, -, denominator, -, start, -, hconverge⟩ := h
  obtain ⟨own, hown, hb, hc⟩ := balanceCoefficients_safe hamp hpos hinvariant hcoefficients
  obtain ⟨previous, hnext, -⟩ := converge_eq_ok hconverge
  obtain ⟨hslope, hstep⟩ := nextTokenBalance_spec hnext
  have hlength : 0 < balances.length := List.length_pos_of_mem (List.mem_of_getElem? hown)
  have hD : (0 : ℝ) < invariant := by exact_mod_cast hinvariant
  refine StableSwap.root_le_newton (p := previous) (amplification_pos hamp hlength) hD
    (reals_pos hpos) (getElem?_reals hown) hb hc ?_ ?_ hexact.1 hexact.2
  · exact_mod_cast hslope
  · exact_mod_cast hstep

theorem existsUnique_isExactBalance (hamp : 0 < amp) (hpos : ∀ x ∈ balances, 0 < x)
    (hinvariant : 0 < invariant) (hj : j < balances.length) :
    ∃! exact, IsExactBalance amp balances invariant j exact := by
  have hD : (0 : ℝ) < invariant := by exact_mod_cast hinvariant
  exact StableSwap.existsUnique_balance (amplification_pos hamp (by omega)) hD (reals_pos hpos)
    (getElem?_reals (List.getElem?_eq_getElem hj))

theorem set_item {xs : List ℤ} {x : ℤ} (h : xs[i]? = some x) : xs.set i x = xs := by
  obtain ⟨hlt, rfl⟩ := List.getElem?_eq_some_iff.mp h
  exact List.set_getElem_self hlt

/-- What a quote for an input has computed. -/
theorem calcOutGivenIn_spec {amountIn out : ℤ}
    (h : calcOutGivenIn amp balances i j amountIn invariant = .ok out) :
    ∃ balanceIn balanceOut y, balances[i]? = some balanceIn ∧ balances[j]? = some balanceOut ∧
      getTokenBalanceGivenInvariantAndAllOtherBalances amp
        (balances.set i (balanceIn + amountIn)) invariant j = .ok y ∧
      out = balanceOut - y - 1 ∧ 0 ≤ out := by
  simp only [calcOutGivenIn, bind_eq_ok, item_eq_ok, add_eq_ok, sub_eq_ok] at h
  obtain ⟨balanceIn, hbalanceIn, increased, ⟨-, rfl⟩, y, hy, restored, ⟨-, rfl⟩, balanceOut,
    hbalanceOut, difference, ⟨-, rfl⟩, hone, rfl⟩ := h
  rw [add_sub_cancel_right, List.set_set, set_item hbalanceIn] at hbalanceOut
  exact ⟨balanceIn, balanceOut, y, hbalanceIn, hbalanceOut, hy, rfl, by omega⟩

theorem calcInGivenOut_spec {amountOut amount : ℤ}
    (h : calcInGivenOut amp balances i j amountOut invariant = .ok amount) :
    ∃ balanceIn balanceOut y, balances[i]? = some balanceIn ∧ balances[j]? = some balanceOut ∧
      amountOut ≤ balanceOut ∧
      getTokenBalanceGivenInvariantAndAllOtherBalances amp
        (balances.set j (balanceOut - amountOut)) invariant i = .ok y ∧
      amount = y - balanceIn + 1 := by
  simp only [calcInGivenOut, bind_eq_ok, item_eq_ok, add_eq_ok, sub_eq_ok] at h
  obtain ⟨balanceOut, hbalanceOut, decreased, ⟨hle, rfl⟩, y, hy, restored, ⟨-, rfl⟩, balanceIn,
    hbalanceIn, difference, ⟨-, rfl⟩, -, rfl⟩ := h
  rw [sub_add_cancel, List.set_set, set_item hbalanceOut] at hbalanceIn
  exact ⟨balanceIn, balanceOut, y, hbalanceIn, hbalanceOut, hle, hy, rfl⟩

end Solver

/-! ## Main result -/

theorem set_pos {balances : List ℤ} {i : ℕ} {value : ℤ} (hpos : ∀ x ∈ balances, 0 < x)
    (hvalue : 0 < value) : ∀ x ∈ balances.set i value, 0 < x := by
  intro x hx
  rcases List.mem_or_eq_of_mem_set hx with hmem | rfl
  · exact hpos x hmem
  · exact hvalue

/-- The solver returns no less than the exact balance, a quote for an input is not above the
exact amount, and a quote for an output is not below it. -/
theorem tokenBalance_bounds {amp invariant : ℤ} {balances : List ℤ}
    (hpos : ∀ x ∈ balances, 0 < x) (hamp : 1000 ≤ amp) (hinvariant : 0 < invariant) :
    (∀ j < balances.length, ∃! exact, IsExactBalance amp balances invariant j exact) ∧
      (∀ (j : ℕ) (y : ℤ) (exact : ℝ),
        getTokenBalanceGivenInvariantAndAllOtherBalances amp balances invariant j = .ok y →
        IsExactBalance amp balances invariant j exact → exact ≤ y) ∧
      (∀ (i j : ℕ) (amountIn out balanceIn balanceOut : ℤ) (exact : ℝ), 0 ≤ amountIn →
        balances[i]? = some balanceIn → balances[j]? = some balanceOut →
        calcOutGivenIn amp balances i j amountIn invariant = .ok out →
        IsExactBalance amp (balances.set i (balanceIn + amountIn)) invariant j exact →
        out ≤ balanceOut - exact) ∧
      ∀ (i j : ℕ) (amountOut amount balanceIn balanceOut : ℤ) (exact : ℝ),
        balances[i]? = some balanceIn → balances[j]? = some balanceOut →
        calcInGivenOut amp balances i j amountOut invariant = .ok amount →
        IsExactBalance amp (balances.set j (balanceOut - amountOut)) invariant i exact →
        exact - balanceIn ≤ amount := by
  have hamp' : 0 < amp := by omega
  refine ⟨?_, ?_, ?_, ?_⟩
  · intro j hj
    exact existsUnique_isExactBalance hamp' hpos hinvariant hj
  · intro j y exact h hexact
    exact getTokenBalance_ge hamp' hpos hinvariant h hexact
  · intro i j amountIn out balanceIn balanceOut exact hamountIn hbalanceIn hbalanceOut h hexact
    obtain ⟨balanceIn', balanceOut', y, hi, hj, hy, hout, -⟩ := calcOutGivenIn_spec h
    obtain rfl := Option.some.inj (hbalanceIn.symm.trans hi)
    obtain rfl := Option.some.inj (hbalanceOut.symm.trans hj)
    have hincreased := hpos balanceIn (List.mem_of_getElem? hi)
    have hge := getTokenBalance_ge hamp' (set_pos hpos (by omega)) hinvariant hy hexact
    rw [hout]
    push_cast
    linarith
  · intro i j amountOut amount balanceIn balanceOut exact hbalanceIn hbalanceOut h hexact
    obtain ⟨balanceIn', balanceOut', y, hi, hj, hle, hy, hamount⟩ := calcInGivenOut_spec h
    obtain rfl := Option.some.inj (hbalanceIn.symm.trans hi)
    obtain rfl := Option.some.inj (hbalanceOut.symm.trans hj)
    have hdecreased : 0 < balanceOut - amountOut := by
      have hy' := hy
      simp only [getTokenBalanceGivenInvariantAndAllOtherBalances, bind_eq_ok] at hy'
      obtain ⟨⟨inv2, b, c⟩, hcoefficients, -⟩ := hy'
      have hlt : j < balances.length := (List.getElem?_eq_some_iff.mp hj).1
      have hne := balances_ne_zero hcoefficients _ (List.mem_set hlt _)
      omega
    have hge := getTokenBalance_ge hamp' (set_pos hpos hdecreased) hinvariant hy hexact
    rw [hamount]
    push_cast
    linarith

theorem tokenBalance_bounds_sample :
    ∃ exact : ℝ, IsExactBalance 1000 [1000, 2000] 3000 1 exact ∧ exact ≤ (2562 : ℤ) := by
  obtain ⟨hunique, hbound, -⟩ := @tokenBalance_bounds 1000 3000 [1000, 2000] (by decide)
    (by decide) (by decide)
  obtain ⟨exact, hexact, -⟩ := hunique 1 (by decide)
  exact ⟨exact, hexact, hbound 1 2562 exact (by decide) hexact⟩

end Degenbot.StableMath
