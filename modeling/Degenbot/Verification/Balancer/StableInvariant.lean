import Degenbot.Library.Lists
import Degenbot.Verification.Balancer.ComposableStable

/-! # The exact invariant of a stable pool after a quoted swap

The integer invariant may fall short of the exact one, and how much of the output this moves
depends on the slope of the curve. -/

namespace Degenbot.StableMath

open Library

/-! ## The integer invariant -/

section Converge

variable {α ε : Type} {next : α → Except ε α} {close : α → α → Bool} {failure : ε}

/-- The last step of an iteration starts from a value that every step keeps. -/
theorem converge_eq_ok_of_invariant {I : α → Prop} (hstep : ∀ a b, I a → next a = .ok b → I b)
    {rounds : ℕ} {start result : α} (hstart : I start)
    (h : converge next close failure rounds start = .ok result) :
    ∃ previous, I previous ∧ next previous = .ok result ∧ close previous result = true := by
  induction rounds generalizing start with
  | zero => cases h
  | succ rounds ih =>
      rw [converge] at h
      cases hnext : next start with
      | error e =>
          rw [hnext] at h
          cases h
      | ok value =>
          rw [hnext] at h
          simp only at h
          split_ifs at h with hclose
          · cases h
            exact ⟨start, hstart, hnext, hclose⟩
          · exact ih (hstep start value hstart hnext) h

end Converge

section Invariant

variable {amp invariant d next : ℤ} {balances : List ℤ}

/-- One pass keeps `d_p` on or below the exact product. -/
theorem nextDp_le {n dP dP' balance : ℤ} {exact : ℝ} (hn : 0 < n) (hd : 0 ≤ d)
    (hbalance : 0 < balance) (hdP : 0 ≤ dP) (hle : (dP : ℝ) ≤ exact)
    (h : nextDp n d dP balance = .ok dP') :
    0 ≤ dP' ∧ (dP' : ℝ) ≤ exact * (d / (balance * n)) := by
  simp only [nextDp, bind_eq_ok] at h
  obtain ⟨numerator, hnumerator, denominator, hdenominator, h⟩ := h
  have hscale : 0 < balance * n := mul_pos hbalance hn
  rw [mul_eq hnumerator, mul_eq hdenominator, divDown_eq_ok,
    Int.fdiv_eq_ediv_of_nonneg _ hscale.le] at h
  refine ⟨h.2 ▸ Int.ediv_nonneg (mul_nonneg hdP hd) hscale.le, ?_⟩
  have hfloor : dP' * (balance * n) ≤ dP * d := h.2 ▸ Int.ediv_mul_le _ hscale.ne'
  have hfloor' : (dP' : ℝ) * (balance * n) ≤ dP * d := by exact_mod_cast hfloor
  have hscale' : (0 : ℝ) < balance * n := by exact_mod_cast hscale
  have hd' : (0 : ℝ) ≤ d := by exact_mod_cast hd
  calc (dP' : ℝ) ≤ dP * d / (balance * n) := by rwa [le_div_iff₀ hscale']
    _ = dP * (d / (balance * n)) := by ring
    _ ≤ exact * (d / (balance * n)) := mul_le_mul_of_nonneg_right hle (by positivity)

theorem foldlM_nextDp_le {n dP dP' : ℤ} {exact : ℝ} (hn : 0 < n) (hd : 0 ≤ d)
    (hpos : ∀ x ∈ balances, 0 < x) (hdP : 0 ≤ dP) (hle : (dP : ℝ) ≤ exact)
    (h : balances.foldlM (nextDp n d) dP = .ok dP') :
    0 ≤ dP' ∧ (dP' : ℝ) ≤
      exact * ((d : ℝ) ^ balances.length / (n ^ balances.length * (reals balances).prod)) := by
  induction balances generalizing dP exact with
  | nil =>
      cases h
      simpa [reals] using ⟨hdP, hle⟩
  | cons balance rest ih =>
      rw [List.foldlM_cons, bind_eq_ok] at h
      obtain ⟨middle, hmiddle, h⟩ := h
      obtain ⟨hnonneg, hbound⟩ := nextDp_le hn hd (hpos balance (by simp)) hdP hle hmiddle
      obtain ⟨hnonneg', hbound'⟩ := ih (fun x hx => hpos x (by simp [hx])) hnonneg hbound h
      refine ⟨hnonneg', hbound'.trans_eq ?_⟩
      have hn' : (n : ℝ) ≠ 0 := by exact_mod_cast hn.ne'
      have hbalance : (balance : ℝ) ≠ 0 := by exact_mod_cast (hpos balance (by simp)).ne'
      have hrest : (reals rest).prod ≠ 0 :=
        (StableSwap.prod_pos (reals_pos fun x hx => hpos x (by simp [hx]))).ne'
      simp only [reals, List.map_cons, List.prod_cons, List.length_cons, pow_succ] at hrest ⊢
      field_simp

theorem length_reals (balances : List ℤ) : (reals balances).length = balances.length :=
  List.length_map _

/-- What a round of `_calculateInvariant` returns, and the coefficients that it rounds. -/
theorem nextInvariant_spec (hamp : 1000 ≤ amp) (hpos : ∀ x ∈ balances, 0 < x)
    (hlength : 0 < balances.length) (hd : 0 ≤ d)
    (h : nextInvariant (amp * balances.length) balances.sum balances d = .ok next) :
    0 ≤ next ∧ ∃ ampSum ampInvariant dP : ℤ,
      (amplification amp balances * balances.sum - 1 < ampSum ∧ 0 ≤ ampSum) ∧
      ((ampInvariant : ℝ) ≤ (amplification amp balances - 1) * d ∧ 0 ≤ ampInvariant) ∧
      (0 ≤ dP ∧ (dP : ℝ) ≤ StableSwap.productTerm (reals balances) d) ∧
      0 < ampInvariant + (balances.length + 1) * dP ∧
      (ampSum + balances.length * dP) * d <
        (next + 1) * (ampInvariant + (balances.length + 1) * dP) := by
  set n : ℤ := (balances.length : ℤ) with hn
  have hnpos : 0 < n := by
    rw [hn]
    exact_mod_cast hlength
  have hsum : 0 ≤ balances.sum := List.sum_nonneg fun x hx => (hpos x hx).le
  have hampTimesTotal : 1000 ≤ amp * n := by nlinarith
  simp only [nextInvariant, bind_eq_ok, divDown_eq_ok, add_eq_ok, ampPrecision] at h
  obtain ⟨dP, hdP, product, hproduct, ampSum, ⟨-, hampSum⟩, dPTokens, hdPTokens, factor,
    ⟨-, hfactor⟩, numerator, hnumerator, product', hproduct', ampInvariant, ⟨-, hampInvariant⟩,
    dPTokens', hdPTokens', denominator, ⟨-, hdenominator⟩, hne, hnext⟩ := h
  rw [mul_eq hproduct, Int.fdiv_eq_ediv_of_nonneg _ (by norm_num)] at hampSum
  rw [mul_eq hproduct', Int.fdiv_eq_ediv_of_nonneg _ (by norm_num)] at hampInvariant
  rw [mul_eq hdPTokens'] at hdenominator
  rw [mul_eq hdPTokens] at hfactor
  rw [mul_eq hnumerator, hfactor] at hnext
  obtain ⟨hdPnonneg, hdPle⟩ := foldlM_nextDp_le hnpos hd hpos hd le_rfl hdP
  have hampSumNonneg : 0 ≤ ampSum :=
    hampSum ▸ Int.ediv_nonneg (mul_nonneg (by omega) hsum) (by norm_num)
  have hampInvariantNonneg : 0 ≤ ampInvariant :=
    hampInvariant ▸ Int.ediv_nonneg (mul_nonneg (by omega) hd) (by norm_num)
  have hdenominatorPos : 0 < denominator := by
    refine lt_of_le_of_ne ?_ hne.symm
    rw [hdenominator]
    positivity
  rw [Int.fdiv_eq_ediv_of_nonneg _ hdenominatorPos.le] at hnext
  have hnumeratorNonneg : 0 ≤ (ampSum + dP * n) * d := by positivity
  refine ⟨hnext ▸ Int.ediv_nonneg hnumeratorNonneg hdenominatorPos.le, ampSum, ampInvariant, dP,
    ⟨?_, hampSumNonneg⟩, ⟨?_, hampInvariantNonneg⟩, ⟨hdPnonneg, hdPle.trans_eq ?_⟩, ?_, ?_⟩
  · have hlt := Int.lt_ediv_add_one_mul_self (amp * n * balances.sum) (by norm_num : (0 : ℤ) < 1000)
    rw [← hampSum] at hlt
    have hlt' : (amp * n * balances.sum : ℝ) < (ampSum + 1) * 1000 := by exact_mod_cast hlt
    rw [amplification, ← Int.cast_natCast, ← hn]
    linarith
  · have hle := Int.ediv_mul_le ((amp * n - 1000) * d) (by norm_num : (1000 : ℤ) ≠ 0)
    rw [← hampInvariant] at hle
    have hle' : (ampInvariant : ℝ) * 1000 ≤ (amp * n - 1000) * d := by exact_mod_cast hle
    rw [amplification, ← Int.cast_natCast, ← hn]
    linarith
  · rw [StableSwap.productTerm, length_reals, pow_succ, hn, Int.cast_natCast]
    ring
  · rw [hdenominator] at hdenominatorPos
    linarith
  · have hlt := Int.lt_ediv_add_one_mul_self ((ampSum + dP * n) * d) hdenominatorPos
    rw [← hnext, hdenominator] at hlt
    linarith

/-- The iteration of `_calculateInvariant` without rounding. -/
noncomputable def exactRound (amp : ℤ) (balances : List ℤ) (D : ℝ) : ℝ :=
  (amplification amp balances * balances.sum +
      balances.length * StableSwap.productTerm (reals balances) D) * D /
    ((amplification amp balances - 1) * D +
      (balances.length + 1) * StableSwap.productTerm (reals balances) D)

/-- The invariant of the pool: a positive fixed point of the exact iteration. -/
def IsExactInvariant (amp : ℤ) (balances : List ℤ) (D : ℝ) : Prop :=
  0 < D ∧ exactRound amp balances D = D

theorem length_le_amplification (hamp : 1000 ≤ amp) :
    (balances.length : ℝ) ≤ amplification amp balances := by
  have hamp' : (1000 : ℝ) ≤ amp := by exact_mod_cast hamp
  rw [amplification, le_div_iff₀ (by norm_num)]
  nlinarith [Nat.cast_nonneg (α := ℝ) balances.length]

theorem one_lt_amplification (hamp : 1000 ≤ amp) (hlength : 2 ≤ balances.length) :
    1 < amplification amp balances := by
  have hlength' : (2 : ℝ) ≤ balances.length := by exact_mod_cast hlength
  linarith [@length_le_amplification amp balances hamp]

theorem isExactInvariant_iff {D : ℝ} (hα : 1 < amplification amp balances)
    (hpos : ∀ x ∈ balances, 0 < x) : IsExactInvariant amp balances D ↔
      0 < D ∧ StableSwap.Equation (amplification amp balances) (reals balances) D := by
  refine and_congr_right fun hD => ?_
  have hterm := StableSwap.productTerm_pos (reals_pos hpos) hD
  have hdenominator : 0 < (amplification amp balances - 1) * D +
      (balances.length + 1) * StableSwap.productTerm (reals balances) D :=
    add_pos (mul_pos (by linarith) hD) (by positivity)
  rw [exactRound, div_eq_iff hdenominator.ne', StableSwap.equation_iff, sum_reals, mul_comm D,
    mul_left_inj' hD.ne']
  constructor <;> intro h <;> linarith

theorem existsUnique_isExactInvariant (hamp : 1000 ≤ amp) (hpos : ∀ x ∈ balances, 0 < x)
    (hlength : 2 ≤ balances.length) : ∃! D, IsExactInvariant amp balances D := by
  have hα := one_lt_amplification hamp hlength
  simp only [isExactInvariant_iff hα hpos]
  refine StableSwap.existsUnique_invariant hα (reals_pos hpos) ?_
  rw [← List.length_pos_iff, length_reals]
  omega

theorem length_le_sum (hpos : ∀ x ∈ balances, 0 < x) : (balances.length : ℤ) ≤ balances.sum := by
  have hle := List.card_nsmul_le_sum balances 1 fun x hx => hpos x hx
  simpa using hle

theorem foldlM_add_eq_ok {start total : ℤ} (h : balances.foldlM add start = .ok total) :
    total = start + balances.sum := by
  induction balances generalizing start with
  | nil =>
      cases h
      simp
  | cons balance rest ih =>
      rw [List.foldlM_cons, bind_eq_ok] at h
      obtain ⟨middle, hmiddle, h⟩ := h
      rw [ih h, (add_eq_ok.mp hmiddle).2, List.sum_cons, add_assoc]

/-- The last round of `_calculateInvariant`. -/
theorem calculateInvariant_spec (hamp : 1000 ≤ amp) (hpos : ∀ x ∈ balances, 0 < x)
    (hlength : 0 < balances.length) (h : calculateInvariant amp balances = .ok invariant) :
    ∃ d, 0 ≤ d ∧
      nextInvariant (amp * balances.length) balances.sum balances d = .ok invariant ∧
      converged d invariant = true := by
  have hsumLe := length_le_sum hpos
  simp only [calculateInvariant, bind_eq_ok] at h
  obtain ⟨total, htotal, h⟩ := h
  obtain rfl : total = balances.sum := by rw [foldlM_add_eq_ok htotal, zero_add]
  rw [if_neg (by omega)] at h
  exact converge_eq_ok_of_invariant (I := fun d => 0 ≤ d)
    (fun d next hd hnext => (nextInvariant_spec hamp hpos hlength hd hnext).1) (by omega) h

theorem calculateInvariant_nonneg (hamp : 1000 ≤ amp) (hpos : ∀ x ∈ balances, 0 < x)
    (hlength : 2 ≤ balances.length) (h : calculateInvariant amp balances = .ok invariant) :
    0 ≤ invariant := by
  have hlengthPos : 0 < balances.length := by omega
  obtain ⟨d, hd, hround, -⟩ := calculateInvariant_spec hamp hpos hlengthPos h
  exact (nextInvariant_spec hamp hpos hlengthPos hd hround).1

/-- How far the integer invariant can fall short. -/
theorem exactInvariant_lt {D : ℝ} (hamp : 1000 ≤ amp) (hpos : ∀ x ∈ balances, 0 < x)
    (hlength : 2 ≤ balances.length) (h : calculateInvariant amp balances = .ok invariant)
    (hexact : IsExactInvariant amp balances D) :
    D < invariant + 1 + 1 / (amplification amp balances - 1) := by
  have hα := one_lt_amplification hamp hlength
  obtain ⟨hD, hequation⟩ := (isExactInvariant_iff hα hpos).mp hexact
  have hlengthPos : 0 < balances.length := by omega
  have hsumLe := length_le_sum hpos
  obtain ⟨d, hd, hround, hclose⟩ := calculateInvariant_spec hamp hpos hlengthPos h
  obtain ⟨-, ampSum, ampInvariant, dP, ⟨hsum, hsumNonneg⟩, ⟨hinvariant, hinvariantNonneg⟩,
    ⟨hdP, hdPle⟩, hpositive, hstep⟩ := nextInvariant_spec hamp hpos hlengthPos hd hround
  have hdpos : 0 < d := by
    refine lt_of_le_of_ne hd ?_
    rintro rfl
    -- the round would divide by zero
    rw [Int.cast_zero, mul_zero] at hinvariant
    rw [Int.cast_zero, StableSwap.productTerm, zero_pow (Nat.succ_ne_zero _), zero_div] at hdPle
    have hinvariant' : ampInvariant ≤ 0 := by exact_mod_cast hinvariant
    have hdP' : dP ≤ 0 := by exact_mod_cast hdPle
    obtain rfl : ampInvariant = 0 := le_antisymm hinvariant' hinvariantNonneg
    obtain rfl : dP = 0 := le_antisymm hdP' hdP
    simp at hpositive
  have hnext : d ≤ invariant + 1 := by
    unfold converged at hclose
    split_ifs at hclose <;> simp only [decide_eq_true_eq] at hclose <;> omega
  have hcount : (balances.length : ℝ) + 1 ≤ amplification amp balances * balances.sum := by
    have hlength' : (2 : ℝ) ≤ balances.length := by exact_mod_cast hlength
    have hsum' : (balances.length : ℝ) ≤ balances.sum := by exact_mod_cast hsumLe
    have hle := @length_le_amplification amp balances hamp
    nlinarith
  refine StableSwap.invariant_lt_rounded (A := ampSum) (B := ampInvariant) (p := dP) (d := d)
    hα (reals_pos hpos) hequation hD (by exact_mod_cast hdpos) (by rwa [sum_reals])
    (by exact_mod_cast hsumNonneg) hinvariant (by exact_mod_cast hdP) hdPle
    (by rwa [length_reals, sum_reals]) (by rw [length_reals]; exact_mod_cast hlengthPos)
    ?_ ?_ (by exact_mod_cast hnext)
  · rw [length_reals]
    exact_mod_cast hpositive
  · rw [length_reals]
    exact_mod_cast hstep

end Invariant

/-! ## One swap -/

section Swap

variable {amp invariant : ℤ} {balances : List ℤ} {i j : ℕ}

/-- Balances whose entry `j` is replaced by a real number, with their exact invariant. -/
def SolvesFor (amp : ℤ) (balances : List ℤ) (j : ℕ) (balance D : ℝ) : Prop :=
  0 < balance ∧ 0 < D ∧
    StableSwap.Equation (amplification amp balances) ((reals balances).set j balance) D

/-- The integer invariant is some integer below the exact one, by less than its own rounding
allows. None of these moves the balance of token `j` by more than what the quote gives up: the
fraction, because the solver returns an integer, and one unit. -/
def Covered (amp : ℤ) (balances increased : List ℤ) (j : ℕ) : Prop :=
  ∀ (D exact balance : ℝ) (truncated : ℤ), IsExactInvariant amp balances D →
    SolvesFor amp increased j exact D → (truncated : ℝ) < D →
      D < truncated + (1 + 1 / (amplification amp balances - 1)) →
        SolvesFor amp increased j balance truncated → exact ≤ ⌈balance⌉ + 1

theorem amplification_set (x : ℤ) : amplification amp (balances.set i x) =
    amplification amp balances := by
  rw [amplification, amplification, List.length_set]

theorem reals_set (x : ℤ) : reals (balances.set j x) = (reals balances).set j x := by
  rw [reals, reals, List.map_set]

theorem SolvesFor.mono {z z' D D' : ℝ} (hamp : 1000 ≤ amp) (hlength : 2 ≤ balances.length)
    (hpos : ∀ x ∈ balances, 0 < x) (hj : j < balances.length) (h : SolvesFor amp balances j z D)
    (h' : SolvesFor amp balances j z' D') (hle : z ≤ z') : D ≤ D' :=
  StableSwap.invariant_mono (one_lt_amplification hamp hlength) (reals_pos hpos)
    (getElem?_reals (List.getElem?_eq_getElem hj)) h.1 hle h.2.1 h'.2.1 h.2.2 h'.2.2

theorem exists_solvesFor {D : ℝ} (hamp : 0 < amp) (hpos : ∀ x ∈ balances, 0 < x) (hD : 0 < D)
    (hj : j < balances.length) : ∃ z, SolvesFor amp balances j z D := by
  obtain ⟨z, ⟨hz, hequation⟩, -⟩ := StableSwap.existsUnique_balance
    (amplification_pos hamp (Nat.zero_lt_of_lt hj)) hD (reals_pos hpos)
    (getElem?_reals (List.getElem?_eq_getElem hj))
  exact ⟨z, hz, hD, hequation⟩

theorem exists_invariant_of_balance {z : ℝ} (hamp : 1000 ≤ amp) (hlength : 2 ≤ balances.length)
    (hpos : ∀ x ∈ balances, 0 < x) (hz : 0 < z) : ∃ D, SolvesFor amp balances j z D := by
  obtain ⟨D, ⟨hD, hequation⟩, -⟩ := @StableSwap.existsUnique_invariant
    (amplification amp balances) ((reals balances).set j z)
    (one_lt_amplification hamp hlength) (by
      intro x hx
      rcases List.mem_or_eq_of_mem_set hx with hmem | rfl
      · exact reals_pos hpos x hmem
      · exact hz) (by
      rw [← List.length_pos_iff, List.length_set, length_reals]
      omega)
  exact ⟨D, hz, hD, hequation⟩

/-- With the invariant zero the solver divides by zero. -/
theorem invariant_ne_zero (hlength : 2 ≤ balances.length) {y : ℤ}
    (h : getTokenBalanceGivenInvariantAndAllOtherBalances amp balances invariant j = .ok y) :
    invariant ≠ 0 := by
  obtain ⟨first, second, rest, rfl⟩ : ∃ first second rest, balances = first :: second :: rest := by
    cases balances with
    | nil => simp at hlength
    | cons first tail =>
        cases tail with
        | nil => simp at hlength
        | cons second rest => exact ⟨first, second, rest, rfl⟩
  simp only [getTokenBalanceGivenInvariantAndAllOtherBalances, balanceCoefficients, bind_eq_ok,
    List.tail_cons, List.foldlM_cons, nextPd, divDown_eq_ok] at h
  obtain ⟨_, ⟨_, -, _, ⟨_, ⟨_, -, _, -, _, ⟨hne, -⟩, -⟩, -⟩, -⟩, -⟩ := h
  exact hne

/-- Where the output token is scarce the curve is so steep that a unit of it covers every
truncation. -/
theorem covered_of_scarce {increased : List ℤ} (hamp : 1000 ≤ amp)
    (hlength : 2 ≤ increased.length) (hpos : ∀ x ∈ increased, 0 < x) (hj : j < increased.length)
    (hcount : amplification amp increased = amplification amp balances)
    (hscarce : ∀ D exact, IsExactInvariant amp balances D → SolvesFor amp increased j exact D →
      (increased.length + 1) * amplification amp increased * exact ≤
        (amplification amp increased - 1) * D) : Covered amp balances increased j := by
  intro D exact balance truncated hD hexact _ hgap hbalance
  have hceil : balance ≤ ⌈balance⌉ := Int.le_ceil balance
  by_cases hone : exact ≤ 1
  · linarith [hbalance.1]
  · obtain ⟨low, hlow⟩ := exists_invariant_of_balance (j := j) hamp hlength hpos
      (by linarith : 0 < exact - 1)
    have hdrop := StableSwap.add_le_invariant_of_scarce (one_lt_amplification hamp hlength)
      (reals_pos hpos) (getElem?_reals (List.getElem?_eq_getElem hj)) (by linarith) hexact.2.1
      hlow.2.1 hexact.2.2 hlow.2.2 (by
        rw [length_reals]
        exact hscarce D exact hD hexact)
    rw [hcount] at hdrop
    by_contra hlt
    have hbelow := SolvesFor.mono hamp hlength hpos hj hbalance hlow (by linarith)
    linarith

/-- Any output that is not above the quote keeps the invariant, where the truncation is
covered. -/
theorem calcOutGivenIn_keeps {amountIn out removed balanceIn balanceOut : ℤ} {D : ℝ}
    (hamp : 1000 ≤ amp) (hlength : 2 ≤ balances.length) (hpos : ∀ x ∈ balances, 0 < x)
    (hamountIn : 0 ≤ amountIn) (hi : balances[i]? = some balanceIn)
    (hj : balances[j]? = some balanceOut)
    (hinvariant : calculateInvariant amp balances = .ok invariant)
    (h : calcOutGivenIn amp balances i j amountIn invariant = .ok out) (hremoved : removed ≤ out)
    (hcovered : Covered amp balances (balances.set i (balanceIn + amountIn)) j)
    (hD : IsExactInvariant amp balances D) :
    ∃ D', IsExactInvariant amp
      ((balances.set i (balanceIn + amountIn)).set j (balanceOut - removed)) D' ∧ D ≤ D' := by
  obtain ⟨balanceIn', balanceOut', y, hi', hj', hy, hout, -⟩ := calcOutGivenIn_spec h
  obtain rfl := Option.some.inj (hi.symm.trans hi')
  obtain rfl := Option.some.inj (hj.symm.trans hj')
  set increased := balances.set i (balanceIn + amountIn) with hincreased
  have hbalanceIn := hpos balanceIn (List.mem_of_getElem? hi)
  have hposIncreased : ∀ x ∈ increased, 0 < x := set_pos hpos (by omega)
  have hlengthIncreased : 2 ≤ increased.length := by rwa [hincreased, List.length_set]
  have hjlt : j < increased.length := by
    rw [hincreased, List.length_set]
    exact (List.getElem?_eq_some_iff.mp hj).1
  have hgap := exactInvariant_lt hamp hpos hlength hinvariant hD
  have hinvariantPos : 0 < invariant :=
    lt_of_le_of_ne (calculateInvariant_nonneg hamp hpos hlength hinvariant)
      (invariant_ne_zero hlengthIncreased hy).symm
  have hinvariantPos' : (0 : ℝ) < invariant := by exact_mod_cast hinvariantPos
  -- the balance that the solver bounds, and the one that keeps the invariant exactly
  obtain ⟨z, hz⟩ := @exists_solvesFor amp increased j invariant (by omega) hposIncreased
    hinvariantPos' hjlt
  have hzy : z ≤ y := getTokenBalance_ge (by omega) hposIncreased hinvariantPos hy ⟨hz.1, hz.2.2⟩
  obtain ⟨exact, hexact⟩ := @exists_solvesFor amp increased j D (by omega) hposIncreased hD.1 hjlt
  have hleft : (y : ℝ) + 1 ≤ ((balanceOut - removed : ℤ) : ℝ) := by
    have hle : y + 1 ≤ balanceOut - removed := by omega
    exact_mod_cast hle
  have hleftPos : (0 : ℝ) < ((balanceOut - removed : ℤ) : ℝ) := by linarith [hz.1]
  obtain ⟨D', hafter⟩ := exists_invariant_of_balance (j := j) hamp hlengthIncreased
    hposIncreased hleftPos
  have hD' : IsExactInvariant amp (increased.set j (balanceOut - removed)) D' := by
    have hposAfter := set_pos (i := j) hposIncreased (by exact_mod_cast hleftPos)
    have hα := one_lt_amplification hamp hlengthIncreased
    rw [isExactInvariant_iff (by rwa [amplification_set]) hposAfter, amplification_set,
      reals_set]
    exact hafter.2
  refine ⟨D', hD', ?_⟩
  rcases lt_or_ge (invariant : ℝ) D with hshort | hlong
  · have hround := hcovered D exact z invariant hD hexact hshort (by linarith) hz
    have hceil : ((⌈z⌉ : ℤ) : ℝ) ≤ y := by exact_mod_cast Int.ceil_le.mpr hzy
    exact SolvesFor.mono hamp hlengthIncreased hposIncreased hjlt hexact hafter (by linarith)
  · have hkept := SolvesFor.mono hamp hlengthIncreased hposIncreased hjlt hz hafter (by linarith)
    linarith

end Swap

/-! ## The quote of a pool -/

section Pool

variable {tokens : List Erc20Token} {balances scaled : List ℤ} {i j fee : ℕ}
  {amount amountIn x : ℤ}

/-- The units of 18 decimals in one unit of the token. -/
def units (token : Erc20Token) : ℤ := 10 ^ (18 - token.decimals)

def upscaled (tokens : List Erc20Token) (balances : List ℤ) : List ℤ :=
  List.zipWith (fun token balance => balance * units token) tokens balances

/-- The input without the fee, which is rounded up. -/
def netAmount (amountIn : ℤ) (fee : ℕ) : ℤ := amountIn - ceilDiv (amountIn * fee) (10 ^ 18)

/-- The balances with the input. -/
def withInput (balances : List ℤ) (i : ℕ) (amountIn : ℤ) (fee : ℕ) : List ℤ :=
  balances.modify i (· + netAmount amountIn fee)

/-- The balances after the swap. -/
def afterSwap (balances : List ℤ) (i j : ℕ) (amountIn : ℤ) (fee : ℕ) (out : ℤ) : List ℤ :=
  (withInput balances i amountIn fee).modify j (· - out)

/-- The exact invariant does not fall. -/
def KeepsInvariant (amp : ℤ) (before after : List ℤ) : Prop :=
  ∃ D D', IsExactInvariant amp before D ∧ IsExactInvariant amp after D' ∧ D ≤ D'

theorem units_pos (token : Erc20Token) : 0 < units token := pow_pos (by norm_num) _

theorem upscale_eq {token : Erc20Token} (h : upscale amount (computeScalingFactor token) = .ok x) :
    x = amount * units token := by
  simp only [upscale, WeightedMath.mulDown, ite_error_eq_ok, Except.ok.injEq] at h
  rw [← h.2.2, computeScalingFactor, WeightedMath.one, units, mul_left_comm]
  exact (Int.fdiv_eq_ediv_of_nonneg _ (by norm_num)).trans
    (Int.mul_ediv_cancel_left _ (by norm_num))

theorem upscaleArray_eq (h : upscaleArray balances (tokens.map computeScalingFactor) = .ok scaled) :
    balances.length = tokens.length ∧ scaled = upscaled tokens balances := by
  rw [upscaleArray, ite_error_eq_ok, not_not, List.length_map] at h
  obtain ⟨hlength, h⟩ := h
  refine ⟨hlength, ?_⟩
  induction tokens generalizing balances scaled with
  | nil =>
      rw [List.map_nil, List.zip_nil_right] at h
      cases h
      rfl
  | cons token tokens ih =>
      cases balances with
      | nil => cases hlength
      | cons balance balances =>
          rw [List.map_cons, List.zip_cons_cons, List.mapM_cons] at h
          simp only [bind_eq_ok] at h
          obtain ⟨first, hfirst, rest, hrest, h⟩ := h
          cases h
          rw [upscale_eq hfirst, ih (Nat.succ.inj hlength) hrest]
          rfl

/-- `downscale_down` never gives more than it was given. -/
theorem downscaleDown_mul_units_le {token : Erc20Token} (hamount : 0 ≤ amount)
    (h : downscaleDown amount (computeScalingFactor token) = .ok x) :
    x * units token ≤ amount := by
  have hunits := units_pos token
  simp only [downscaleDown, WeightedMath.divDown, ite_error_eq_ok] at h
  obtain ⟨-, h⟩ := h
  split_ifs at h with hzero hlarge
  · rw [← Except.ok.inj h, zero_mul]
    exact hamount
  · have hvalue : x = amount * 10 ^ 18 / (10 ^ 18 * units token) := by
      rw [← Except.ok.inj h, computeScalingFactor, WeightedMath.one, ← units]
      exact Int.fdiv_eq_ediv_of_nonneg _ (by positivity)
    have hfloor := Int.ediv_mul_le (amount * 10 ^ 18)
      (mul_pos (by norm_num : (0 : ℤ) < 10 ^ 18) hunits).ne'
    rw [← hvalue] at hfloor
    exact le_of_mul_le_mul_right (by linarith) (by norm_num : (0 : ℤ) < 10 ^ 18)

theorem feePercentage_new (tokens : List Erc20Token) (amp : ℤ) (fee : ℕ) :
    (BalancerV2StablePool.new tokens amp fee).feePercentage = fee := by
  have hvalue : (BalancerV2StablePool.new tokens amp fee).fee * 10 ^ 18 = fee := by
    rw [BalancerV2StablePool.new, Rat.mkRat_eq_div]
    push_cast
    field_simp
    norm_num
  rw [BalancerV2StablePool.feePercentage, hvalue, Rat.num_natCast, Rat.den_natCast, Nat.cast_one,
    Int.tdiv_one]

theorem mulUp_eq {a b c : ℤ} (h : WeightedMath.mulUp LogExpMath.python a b = .ok c) :
    c = ceilDiv (a * b) (10 ^ 18) := by
  refine divUp_eq (by norm_num) ?_
  simp only [WeightedMath.mulUp] at h
  rw [divUp, if_neg (by norm_num)]
  split_ifs at h ⊢ with hzero hlarge
  · exact h
  · rw [← h, add_comm]
    rfl

theorem subtractSwapFeeAmount_eq (h : subtractSwapFeeAmount amountIn fee = .ok x) :
    x = netAmount amountIn fee := by
  simp only [subtractSwapFeeAmount, bind_eq_ok, Except.ok.injEq] at h
  obtain ⟨feeAmount, hfee, rfl⟩ := h
  rw [netAmount, mulUp_eq hfee]

theorem netAmount_nonneg (hamount : 0 ≤ amountIn) (hfee : fee ≤ 10 ^ 18) :
    0 ≤ netAmount amountIn fee := by
  have hfee' : (fee : ℤ) ≤ 10 ^ 18 := by exact_mod_cast hfee
  rw [netAmount, sub_nonneg, ceilDiv_le_iff (by norm_num)]
  exact mul_le_mul_of_nonneg_left hfee' hamount

theorem upscaled_modify (f : ℤ → ℤ) {token : Erc20Token} {balance : ℤ}
    (htoken : tokens[i]? = some token) (hbalance : balances[i]? = some balance) :
    upscaled tokens (balances.modify i f) =
      (upscaled tokens balances).set i (f balance * units token) := by
  refine List.ext_getElem? fun k => ?_
  by_cases hk : i = k
  · subst hk
    have hlt : i < (upscaled tokens balances).length := by
      rw [upscaled, List.length_zipWith, lt_min_iff]
      exact ⟨(List.getElem?_eq_some_iff.mp htoken).1, (List.getElem?_eq_some_iff.mp hbalance).1⟩
    rw [List.getElem?_set_self hlt, upscaled, List.getElem?_zipWith, htoken,
      List.getElem?_modify_eq, hbalance]
    rfl
  · rw [List.getElem?_set_ne hk, upscaled, upscaled, List.getElem?_zipWith, List.getElem?_zipWith,
      List.getElem?_modify_ne f balances hk]

theorem upscaled_pos (hpos : ∀ x ∈ balances, 0 < x) : ∀ x ∈ upscaled tokens balances, 0 < x := by
  intro x hx
  rw [upscaled, List.mem_iff_getElem?] at hx
  obtain ⟨k, hk⟩ := hx
  rw [List.getElem?_zipWith_eq_some] at hk
  obtain ⟨token, balance, -, hbalance, rfl⟩ := hk
  exact mul_pos (hpos balance (List.mem_of_getElem? hbalance)) (units_pos token)

theorem getElem?_upscaled {token : Erc20Token} {balance : ℤ} (htoken : tokens[i]? = some token)
    (hbalance : balances[i]? = some balance) :
    (upscaled tokens balances)[i]? = some (balance * units token) := by
  rw [upscaled, List.getElem?_zipWith, htoken, hbalance]

/-- The balances that a quote works on. -/
theorem quote_spec {tokenIn tokenOut : Erc20Token} {amp out : ℤ}
    (hi : tokenIndex tokens tokenIn = .ok i) (hj : tokenIndex tokens tokenOut = .ok j)
    (h : (BalancerV2StablePool.new tokens amp fee).calculateTokensOutFromTokensIn balances tokenIn
      amountIn tokenOut = .ok out) :
    balances.length = tokens.length ∧ ∃ foundIn foundOut invariant outScaled,
      tokens[i]? = some foundIn ∧ tokens[j]? = some foundOut ∧
        calculateInvariant amp (upscaled tokens balances) = .ok invariant ∧
        calcOutGivenIn amp (upscaled tokens balances) i j
          (netAmount amountIn fee * units foundIn) invariant = .ok outScaled ∧
        out * units foundOut ≤ outScaled := by
  simp only [BalancerV2StablePool.calculateTokensOutFromTokensIn, bind_eq_ok,
    feePercentage_new] at h
  obtain ⟨i', hi', j', hj', net, hnet, scaled, hscaled, factorIn, hfactorIn, amountInScaled,
    hamountInScaled, invariant, hinvariant, outScaled, hout, factorOut, hfactorOut, h⟩ := h
  obtain rfl := Except.ok.inj (hi.symm.trans hi')
  obtain rfl := Except.ok.inj (hj.symm.trans hj')
  obtain ⟨hlength, rfl⟩ := upscaleArray_eq hscaled
  obtain rfl := subtractSwapFeeAmount_eq hnet
  simp only [item_eq_ok, BalancerV2StablePool.new, List.getElem?_map, Option.map_eq_some_iff]
    at hfactorIn hfactorOut
  obtain ⟨foundIn, hfoundIn, rfl⟩ := hfactorIn
  obtain ⟨foundOut, hfoundOut, rfl⟩ := hfactorOut
  obtain rfl := upscale_eq hamountInScaled
  obtain ⟨-, -, -, -, -, -, -, hnonneg⟩ := calcOutGivenIn_spec hout
  exact ⟨hlength, foundIn, foundOut, invariant, outScaled, hfoundIn, hfoundOut, hinvariant, hout,
    downscaleDown_mul_units_le hnonneg h⟩

end Pool

/-! ## Main result -/

/-- A quoted swap does not lower the exact invariant where the truncation of the integer
invariant is covered. -/
theorem quote_keepsInvariant {tokens : List Erc20Token} {amp : ℤ} {fee : ℕ} {balances : List ℤ}
    {tokenIn tokenOut : Erc20Token} {i j : ℕ} {amountIn out : ℤ} (hcount : 2 ≤ tokens.length)
    (hamp : 1000 ≤ amp) (hfee : fee < 10 ^ 18) (hpos : ∀ balance ∈ balances, 0 < balance)
    (hi : tokenIndex tokens tokenIn = .ok i) (hj : tokenIndex tokens tokenOut = .ok j)
    (hdistinct : i ≠ j) (hamount : 0 < amountIn)
    (hcovered : Covered amp (upscaled tokens balances)
      (upscaled tokens (withInput balances i amountIn fee)) j)
    (h : (BalancerV2StablePool.new tokens amp fee).calculateTokensOutFromTokensIn balances tokenIn
      amountIn tokenOut = .ok out) :
    KeepsInvariant amp (upscaled tokens balances)
      (upscaled tokens (afterSwap balances i j amountIn fee out)) := by
  obtain ⟨hlength, foundIn, foundOut, invariant, outScaled, hfoundIn, hfoundOut, hinvariant, hout,
    hremoved⟩ := quote_spec hi hj h
  obtain ⟨balanceIn, hbalanceIn⟩ : ∃ balance, balances[i]? = some balance :=
    ⟨_, List.getElem?_eq_getElem (hlength ▸ (List.getElem?_eq_some_iff.mp hfoundIn).1)⟩
  obtain ⟨balanceOut, hbalanceOut⟩ : ∃ balance, balances[j]? = some balance :=
    ⟨_, List.getElem?_eq_getElem (hlength ▸ (List.getElem?_eq_some_iff.mp hfoundOut).1)⟩
  have hpos' := @upscaled_pos tokens balances hpos
  have hlength' : 2 ≤ (upscaled tokens balances).length := by
    rw [upscaled, List.length_zipWith, hlength, min_self]
    exact hcount
  have hnet := mul_nonneg (netAmount_nonneg hamount.le hfee.le) (units_pos foundIn).le
  have hincreased : upscaled tokens (withInput balances i amountIn fee) =
      (upscaled tokens balances).set i
        (balanceIn * units foundIn + netAmount amountIn fee * units foundIn) := by
    rw [withInput, upscaled_modify _ hfoundIn hbalanceIn, add_mul]
  have hafter : upscaled tokens (afterSwap balances i j amountIn fee out) =
      ((upscaled tokens balances).set i
        (balanceIn * units foundIn + netAmount amountIn fee * units foundIn)).set j
          (balanceOut * units foundOut - out * units foundOut) := by
    have hkept : (withInput balances i amountIn fee)[j]? = some balanceOut := by
      rw [withInput, List.getElem?_modify_ne _ _ hdistinct, hbalanceOut]
    rw [afterSwap, upscaled_modify _ hfoundOut hkept, hincreased, sub_mul]
  rw [hincreased] at hcovered
  obtain ⟨D, hD, -⟩ := existsUnique_isExactInvariant hamp hpos' hlength'
  obtain ⟨D', hD', hle⟩ := calcOutGivenIn_keeps hamp hlength' hpos' hnet
    (getElem?_upscaled hfoundIn hbalanceIn) (getElem?_upscaled hfoundOut hbalanceOut) hinvariant
    hout hremoved hcovered hD
  exact ⟨D, D', hD, hafter ▸ hD', hle⟩

/-! ### Two pools of two tokens -/

section Samples

variable {amp a b : ℤ} {D r : ℝ}

/-- The equation of two balances, compared at `r`. -/
theorem lt_of_value_lt (hamp : 1000 ≤ amp) (ha : 0 < a) (hb : 0 < b)
    (h : IsExactInvariant amp [a, b] D)
    (hvalue : ((amp : ℝ) * 2 / 1000 - 1) * r + r ^ 3 / (4 * (a * b)) <
      (amp : ℝ) * 2 / 1000 * (a + b)) : r < D := by
  have hpos : ∀ x ∈ [a, b], 0 < x := by simp [ha, hb]
  have hα := @one_lt_amplification amp [a, b] hamp (by simp)
  obtain ⟨hD, hequation⟩ := (isExactInvariant_iff hα hpos).mp h
  refine StableSwap.lt_invariant hα (reals_pos hpos) hD hequation ?_
  simp only [amplification, StableSwap.productTerm, reals, List.map_cons, List.map_nil,
    List.length_cons, List.length_nil, List.prod_cons, List.prod_nil, List.sum_cons,
    List.sum_nil]
  norm_num at hvalue ⊢
  exact hvalue

theorem lt_of_lt_value (hamp : 1000 ≤ amp) (ha : 0 < a) (hb : 0 < b) (hr : 0 ≤ r)
    (h : IsExactInvariant amp [a, b] D)
    (hvalue : (amp : ℝ) * 2 / 1000 * (a + b) <
      ((amp : ℝ) * 2 / 1000 - 1) * r + r ^ 3 / (4 * (a * b))) : D < r := by
  have hpos : ∀ x ∈ [a, b], 0 < x := by simp [ha, hb]
  have hα := @one_lt_amplification amp [a, b] hamp (by simp)
  obtain ⟨hD, hequation⟩ := (isExactInvariant_iff hα hpos).mp h
  refine StableSwap.invariant_lt hα (reals_pos hpos) hr hequation ?_
  simp only [amplification, StableSwap.productTerm, reals, List.map_cons, List.map_nil,
    List.length_cons, List.length_nil, List.prod_cons, List.prod_nil, List.sum_cons,
    List.sum_nil]
  norm_num at hvalue ⊢
  exact hvalue

end Samples

def sampleTokens : List Erc20Token := [sampleToken 1, sampleToken 2]

theorem sample_quote : (BalancerV2StablePool.new sampleTokens 1000
    400000000000000).calculateTokensOutFromTokensIn [351, 430880] (sampleToken 1) 3
      (sampleToken 2) = .ok 1169 := by
  decide +kernel

/-- The quote takes the invariant from above `78000.5` to below it. -/
theorem sample_not_keepsInvariant : ¬KeepsInvariant 1000 (upscaled sampleTokens [351, 430880])
    (upscaled sampleTokens (afterSwap [351, 430880] 0 1 3 400000000000000 1169)) := by
  have hbefore : upscaled sampleTokens [351, 430880] = [351, 430880] := by decide
  have hafter : upscaled sampleTokens (afterSwap [351, 430880] 0 1 3 400000000000000 1169) =
      [353, 429711] := by decide
  rw [hbefore, hafter]
  rintro ⟨D, D', hD, hD', hle⟩
  have hlow : (156001 / 2 : ℝ) < D :=
    lt_of_value_lt (by norm_num) (by norm_num) (by norm_num) hD (by norm_num)
  have hhigh : D' < (156001 / 2 : ℝ) :=
    lt_of_lt_value (by norm_num) (by norm_num) (by norm_num) (by norm_num) hD' (by norm_num)
  linarith

theorem not_quote_keepsInvariant : ¬∀ (tokens : List Erc20Token) (amp : ℤ) (fee : ℕ)
    (balances : List ℤ) (tokenIn tokenOut : Erc20Token) (i j : ℕ) (amountIn out : ℤ),
    2 ≤ tokens.length → 1000 ≤ amp → fee < 10 ^ 18 → (∀ balance ∈ balances, 0 < balance) →
      tokenIndex tokens tokenIn = .ok i → tokenIndex tokens tokenOut = .ok j → i ≠ j →
        0 < amountIn →
          (BalancerV2StablePool.new tokens amp fee).calculateTokensOutFromTokensIn balances
            tokenIn amountIn tokenOut = .ok out →
          KeepsInvariant amp (upscaled tokens balances)
            (upscaled tokens (afterSwap balances i j amountIn fee out)) := by
  intro h
  refine sample_not_keepsInvariant (h sampleTokens 1000 400000000000000 [351, 430880]
    (sampleToken 1) (sampleToken 2) 0 1 3 1169 (by decide) (by norm_num) (by norm_num) ?_ rfl rfl
    (by norm_num) (by norm_num) sample_quote)
  simp

theorem sample_covered : Covered 100000
    (upscaled sampleTokens [1000000000000000000000000, 1000000000000000000000])
    (upscaled sampleTokens (withInput [1000000000000000000000000, 1000000000000000000000] 0
      1000000000000000000000 400000000000000)) 1 := by
  have hbefore : upscaled sampleTokens [1000000000000000000000000, 1000000000000000000000] =
      [1000000000000000000000000, 1000000000000000000000] := by decide
  have hincreased : upscaled sampleTokens (withInput [1000000000000000000000000,
      1000000000000000000000] 0 1000000000000000000000 400000000000000) =
        [1000999600000000000000000, 1000000000000000000000] := by decide
  rw [hbefore, hincreased]
  refine covered_of_scarce (by norm_num) (by simp) (by simp) (by simp)
    (by simp [amplification]) ?_
  intro D exact hD hexact
  have hlow : (600000000000000000000000 : ℝ) < D :=
    lt_of_value_lt (by norm_num) (by norm_num) (by norm_num) hD (by norm_num)
  have hhigh : D < (654500000000000000000000 : ℝ) :=
    lt_of_lt_value (by norm_num) (by norm_num) (by norm_num) (by norm_num) hD (by norm_num)
  -- with all of the output token left the invariant is above this bound
  obtain ⟨D', hD', -⟩ := @existsUnique_isExactInvariant 100000
    [1000999600000000000000000, 1000000000000000000000] (by norm_num) (by simp) (by simp)
  have habove : (654500000000000000000000 : ℝ) < D' :=
    lt_of_value_lt (by norm_num) (by norm_num) (by norm_num) hD' (by norm_num)
  have hfull : SolvesFor 100000 [1000999600000000000000000, 1000000000000000000000] 1
      (1000000000000000000000 : ℝ) D' := by
    obtain ⟨hpos, hequation⟩ := (isExactInvariant_iff
      (one_lt_amplification (by norm_num) (by simp)) (by simp)).mp hD'
    refine ⟨by norm_num, hpos, ?_⟩
    simpa [reals] using hequation
  have hexactLe : exact ≤ (1000000000000000000000 : ℝ) := by
    by_contra hlt
    have hle := SolvesFor.mono (by norm_num) (by simp) (by simp) (by simp) hfull hexact
      (not_le.mp hlt).le
    linarith
  norm_num [amplification]
  linarith

theorem quote_keepsInvariant_sample : KeepsInvariant 100000
    (upscaled sampleTokens [1000000000000000000000000, 1000000000000000000000])
    (upscaled sampleTokens (afterSwap [1000000000000000000000000, 1000000000000000000000] 0 1
      1000000000000000000000 400000000000000 3832459455786287353)) :=
  @quote_keepsInvariant sampleTokens 100000 400000000000000
    [1000000000000000000000000, 1000000000000000000000] (sampleToken 1) (sampleToken 2) 0 1
    1000000000000000000000 3832459455786287353 (by decide) (by norm_num) (by norm_num) (by simp) rfl rfl (by norm_num) (by norm_num) sample_covered
    (by decide +kernel)

/-- The pool has one invariant over the reals, and the integer one is short of it by less than
`1 + 1 / (α - 1)`. -/
theorem calculateInvariant_not_short {amp invariant : ℤ} {balances : List ℤ} (hamp : 1000 ≤ amp)
    (hpos : ∀ x ∈ balances, 0 < x) (hlength : 2 ≤ balances.length)
    (h : calculateInvariant amp balances = .ok invariant) :
    (∃! D, IsExactInvariant amp balances D) ∧ ∀ D, IsExactInvariant amp balances D →
      D < invariant + 1 + 1 / (amplification amp balances - 1) := by
  refine ⟨existsUnique_isExactInvariant hamp hpos hlength, fun D hD => ?_⟩
  exact exactInvariant_lt hamp hpos hlength h hD

theorem calculateInvariant_not_short_sample :
    (∃! D, IsExactInvariant 200000 [3000000000000000000, 1000000000000000000] D) ∧
      ∀ D, IsExactInvariant 200000 [3000000000000000000, 1000000000000000000] D →
        D < (3996691453407454565 : ℤ) + 1 + 1 / (amplification 200000
          [3000000000000000000, 1000000000000000000] - 1) :=
  calculateInvariant_not_short (by norm_num) (by simp) (by simp) (by decide)

end Degenbot.StableMath
