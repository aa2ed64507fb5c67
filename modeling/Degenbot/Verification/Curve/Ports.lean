import Degenbot.Algorithm.CurveNG
import Degenbot.Algorithm.CurveStableswap
import Mathlib.Tactic.Ring

/-! # The two Curve ports -/

/-! ## The Newton iterations of the two Curve ports

The Rust port carries `A·n`, the Python port carries `100·A·n` and divides by 100. Every round of
the one is the same round of the other, unless a checked operation of the Rust port fails. -/

namespace Degenbot.CurveSimulation

open Library Curve Curve.Contract

/-- The Rust port stopped at a check of its arguments or of its arithmetic. -/
def GaveUp (e : CurveError) : Prop := ∃ message, e = .invalid message ∨ e = .arithmetic message

/-- The same iteration did not converge. -/
def SameIteration (e : CurveError) (e' : Exn) : Prop :=
  e = getDNotConverged ∧ e' = dNotConverged ∨ e = getYNotConverged ∧ e' = yNotConverged

/-- Both ports compute the same integer or fail in the same iteration, or the Rust port gave up. -/
abbrev SameUpTo (x : Except CurveError ℕ) (y : Except Exn ℤ) : Prop :=
  RefinesUpTo GaveUp SameIteration (fun (a : ℕ) (b : ℤ) => b = a) x y

/-! ## Checked operations -/

theorem gaveUp_arithmetic (message : String) : GaveUp (.arithmetic message) :=
  ⟨message, .inr rfl⟩

theorem gaveUp_invalid (message : String) : GaveUp (.invalid message) := ⟨message, .inl rfl⟩

theorem checked_eq_ok {value r : ℕ} {message : String} (h : checked value message = .ok r) :
    r = value := by
  rw [checked, ite_error_eq_ok] at h
  exact (Except.ok.inj h.2).symm

theorem checked_eq_error {value : ℕ} {message : String} {e : CurveError}
    (h : checked value message = .error e) : GaveUp e := by
  unfold checked at h
  split at h
  · cases h
    exact gaveUp_arithmetic message
  · cases h

theorem checkedSub_eq_ok {a b r : ℕ} {message : String} (h : checkedSub a b message = .ok r) :
    r + b = a := by
  rw [checkedSub, ite_error_eq_ok] at h
  have hr := Except.ok.inj h.2
  omega

theorem checkedSub_eq_error {a b : ℕ} {message : String} {e : CurveError}
    (h : checkedSub a b message = .error e) : GaveUp e := by
  unfold checkedSub at h
  split at h
  · cases h
    exact gaveUp_arithmetic message
  · cases h

section Steps

variable {α β : Type} {R : α → β → Prop} {f : ℕ → Except CurveError α} {y : Except Exn β}
  {a b : ℕ} {message : String}

theorem checkedAdd_bind_refines (h : RefinesUpTo GaveUp SameIteration R (f (a + b)) y) :
    RefinesUpTo GaveUp SameIteration R (checkedAdd a b message >>= f) y :=
  RefinesUpTo.bind_left (fun _ => checked_eq_error) fun r hr => by
    rw [checked_eq_ok hr]
    exact h

theorem checkedMul_bind_refines (h : RefinesUpTo GaveUp SameIteration R (f (a * b)) y) :
    RefinesUpTo GaveUp SameIteration R (checkedMul a b message >>= f) y :=
  RefinesUpTo.bind_left (fun _ => checked_eq_error) fun r hr => by
    rw [checked_eq_ok hr]
    exact h

theorem checkedSub_bind_refines
    (h : ∀ r, r + b = a → RefinesUpTo GaveUp SameIteration R (f r) y) :
    RefinesUpTo GaveUp SameIteration R (checkedSub a b message >>= f) y :=
  RefinesUpTo.bind_left (fun _ => checkedSub_eq_error) fun r hr => h r (checkedSub_eq_ok hr)

end Steps

/-- The full-width quotient is Python's, whose operands are written in its own way. -/
theorem sameUpTo_mulDiv {a b denom : ℕ} {x y : ℤ} (hx : x = a * b) (hy : y = denom) :
    SameUpTo (mulDiv a b denom) (floorDivide x y) := by
  subst hx hy
  unfold mulDiv
  refine RefinesUpTo.ite_left (gaveUp_arithmetic _) fun hdenom => ?_
  rw [floorDivide, if_neg (by exact_mod_cast hdenom)]
  unfold checked
  refine RefinesUpTo.ite_left (gaveUp_arithmetic _) fun _ => ?_
  refine .ok ?_
  rw [← Nat.cast_mul, Int.ofNat_fdiv]

theorem close_cast (previous next : ℕ) : close previous next = Contract.close previous next := by
  unfold close Contract.close absDiff
  by_cases h : previous < next
  · rw [if_pos h, if_pos (by exact_mod_cast h)]
    exact decide_eq_decide.mpr (by omega)
  · rw [if_neg h, if_neg (by exact_mod_cast h)]
    exact decide_eq_decide.mpr (by omega)

/-! ## `D` -/

theorem forall₂_cast (xp : List ℕ) :
    List.Forall₂ (fun (x : ℕ) (x' : ℤ) => x' = x) xp (xp.map Nat.cast) := by
  rw [List.forall₂_map_right_iff]
  exact List.forall₂_same.mpr fun _ _ => rfl

theorem productTerm_sameUpTo (n d : ℕ) (xp : List ℕ) :
    SameUpTo (productTerm n d xp) (calcDp n d (xp.map Nat.cast)) := by
  refine RefinesUpTo.foldlM (forall₂_cast xp) rfl ?_
  rintro dP _ x _ rfl rfl
  exact checkedMul_bind_refines (sameUpTo_mulDiv rfl (by push_cast; ring))

theorem getDNext_sameUpTo {contract : Contract} {xp : List ℕ} (hvariant : contract.dVariant = .default)
    (hcoins : contract.nCoins = xp.length) (sum ann d : ℕ) :
    SameUpTo (getDNext xp xp.length sum ann d)
      (contract.getDNext (xp.map Nat.cast) sum (100 * ann) d) := by
  unfold getDNext Contract.getDNext
  rw [hvariant, hcoins]
  refine RefinesUpTo.bind (productTerm_sameUpTo xp.length d xp) ?_
  rintro dP _ - rfl
  refine checkedMul_bind_refines (checkedMul_bind_refines (checkedAdd_bind_refines ?_))
  refine checkedSub_bind_refines fun annLess hann => ?_
  refine checkedMul_bind_refines (checkedAdd_bind_refines (checkedMul_bind_refines
    (checkedAdd_bind_refines ?_)))
  -- both divisions by `A_PRECISION` are exact
  subst hann
  refine sameUpTo_mulDiv ?_ ?_
  · have hsum : ((100 : ℤ) * ↑(annLess + 1) * sum).fdiv aPrecision = ↑(annLess + 1) * sum := by
      rw [mul_assoc]
      exact Int.mul_fdiv_cancel_left _ (by decide)
    rw [hsum]
    push_cast
    ring
  · have hless : (((100 : ℤ) * ↑(annLess + 1) - aPrecision) * d).fdiv aPrecision = annLess * d := by
      have hfactor : ((100 : ℤ) * ↑(annLess + 1) - aPrecision) * d = aPrecision * (annLess * d) := by
        unfold aPrecision
        push_cast
        ring
      rw [hfactor]
      exact Int.mul_fdiv_cancel_left _ (by decide)
    rw [hless]
    push_cast
    ring

theorem foldlM_add (xs : List ℤ) (s : ℤ) :
    xs.foldlM (fun s x => (Except.ok (s + x) : Except Exn ℤ)) s = .ok (s + xs.sum) := by
  induction xs generalizing s with
  | nil => simp [pure, Except.pure]
  | cons x xs ih =>
      rw [List.foldlM_cons, ok_bind, ih, List.sum_cons, add_assoc]

theorem sum_sameUpTo (xp : List ℕ) (message : String) :
    SameUpTo (xp.foldlM (fun sum x => checkedAdd sum x message) 0)
      (.ok (xp.map Nat.cast).sum) := by
  have hsum := foldlM_add (xp.map Nat.cast) 0
  rw [zero_add] at hsum
  rw [← hsum]
  refine RefinesUpTo.foldlM (forall₂_cast xp) rfl ?_
  rintro s _ x _ rfl rfl
  unfold checkedAdd checked
  exact RefinesUpTo.ite_left (gaveUp_arithmetic _) fun _ => .ok (by push_cast; rfl)

theorem getD_sameUpTo {contract : Contract} {xp : List ℕ} (hvariant : contract.dVariant = .default)
    (hcoins : contract.nCoins = xp.length) (amp : ℕ) :
    SameUpTo (getD xp amp) (contract.getD (xp.map Nat.cast) (100 * amp)) := by
  have hpython : contract.getD (xp.map Nat.cast) (100 * amp) =
      (Except.ok (xp.map Nat.cast).sum >>= fun s : ℤ =>
        if s = 0 then .ok 0
        else converge (contract.getDNext (xp.map Nat.cast) s (100 * amp * contract.nCoins))
          Contract.close dNotConverged 255 s) := rfl
  rw [hpython]
  unfold getD
  refine RefinesUpTo.bind (sum_sameUpTo xp _) ?_
  rintro sum _ - rfl
  by_cases hzero : sum = 0
  · rw [if_pos hzero, if_pos (by exact_mod_cast hzero)]
    exact .ok rfl
  · rw [if_neg hzero, if_neg (by exact_mod_cast hzero), hcoins]
    refine checkedMul_bind_refines ?_
    rw [mul_assoc, ← Nat.cast_mul]
    refine RefinesUpTo.converge (.inl ⟨rfl, rfl⟩) ?_ ?_ 255 rfl
    · rintro d _ rfl
      exact getDNext_sameUpTo hvariant hcoins sum (amp * xp.length) d
    · rintro previous _ next _ rfl rfl
      exact close_cast previous next

/-! ## `y` -/

/-- The coins that `_get_y` visits, with their balances after the trade. -/
theorem otherBalances_visited (i j x : ℕ) (xp : List ℕ) :
    List.Forall₂
      (fun (xK : ℕ) (index : ℕ) =>
        (if index = i then .ok (x : ℤ) else item (xp.map Nat.cast) index) = .ok (xK : ℤ))
      (otherBalances i j x xp)
      ((List.range xp.length).filter fun index => index = i ∨ index ≠ j) := by
  have hrange : List.range xp.length = xp.zipIdx.map Prod.snd := by
    rw [List.zipIdx_map_snd, List.range_eq_range']
  rw [hrange, List.filter_map, otherBalances, List.forall₂_map_left_iff, List.forall₂_map_right_iff]
  refine List.forall₂_same.mpr fun entry hentry => ?_
  by_cases hi : entry.2 = i
  · rw [if_pos hi, if_pos hi]
  · have hitem : xp[entry.2]? = some entry.1 := List.mk_mem_zipIdx_iff_getElem?.mp
      (List.mem_of_mem_filter hentry)
    rw [if_neg hi, if_neg hi, item, List.getElem?_map, hitem]
    rfl

theorem getYNext_sameUpTo (b c d y : ℕ) :
    SameUpTo (getYNext b c d y) (Contract.getYNext b c d y) := by
  unfold getYNext Contract.getYNext
  refine checkedMul_bind_refines (checkedAdd_bind_refines (checkedMul_bind_refines
    (checkedAdd_bind_refines (checkedSub_bind_refines fun denominator hdenominator => ?_))))
  have hcast : 2 * (y : ℤ) + b - d = denominator := by omega
  refine RefinesUpTo.ite_left (gaveUp_arithmetic _) fun hzero => ?_
  rw [hcast, floorDivide, if_neg (by exact_mod_cast hzero)]
  refine .ok ?_
  rw [← Nat.cast_mul, ← Nat.cast_add, Int.ofNat_fdiv]

theorem sumAndProduct_refines (i j x d : ℕ) (xp : List ℕ) (messageSum messageProduct : String) :
    RefinesUpTo GaveUp SameIteration
      (fun (a : ℕ × ℕ) (b : ℤ × ℤ) => b = ((a.1 : ℤ), (a.2 : ℤ)))
      ((otherBalances i j x xp).foldlM (fun (s, c) xK => do
        let s ← checkedAdd s xK messageSum
        let denom ← checkedMul xK xp.length messageProduct
        let c ← mulDiv c d denom
        .ok (s, c)) (0, d))
      (sumAndProduct xp.length d
        ((List.range xp.length).filter fun index => index = i ∨ index ≠ j)
        fun index => if index = i then .ok (x : ℤ) else item (xp.map Nat.cast) index) := by
  refine RefinesUpTo.foldlM (otherBalances_visited i j x xp) rfl ?_
  rintro ⟨s, c⟩ _ xK index rfl hbalance
  simp only [hbalance, ok_bind]
  refine checkedAdd_bind_refines (checkedMul_bind_refines ?_)
  refine RefinesUpTo.bind (sameUpTo_mulDiv rfl (by push_cast; rfl)) ?_
  rintro q _ - rfl
  exact .ok (by push_cast; rfl)

/-- The factor `A_PRECISION` cancels. -/
theorem floorDivide_aPrecision (x y : ℤ) :
    floorDivide (x * aPrecision) (100 * y) = floorDivide x y := by
  unfold floorDivide
  by_cases hy : y = 0
  · rw [if_pos hy, if_pos (by omega)]
  · rw [if_neg hy, if_neg (by omega), mul_comm x]
    exact congrArg Except.ok (Int.mul_fdiv_mul_of_pos x y (by decide))

theorem getY_sameUpTo {contract : Contract} {xp : List ℕ} {amp i j : ℕ}
    (hvariant : contract.dVariant = .default) (hcoins : contract.nCoins = xp.length)
    (hvariant0 : contract.yVariant0 = false) (hvariant1 : contract.yVariant1 = false)
    (hamp : contract.aAtBlock contract.updateBlock = .ok (100 * amp)) (hpos : 0 < amp)
    (hij : i ≠ j) (hi : i < xp.length) (hj : j < xp.length) (x : ℕ) :
    SameUpTo (getY i j x xp amp) (contract.getY i j x (xp.map Nat.cast)) := by
  have hn : 0 < xp.length := Nat.zero_lt_of_lt hi
  have hann : 0 < amp * xp.length := Nat.mul_pos hpos hn
  unfold getY Contract.getY
  simp only [hcoins, assertion, if_pos hij, if_pos hi, if_pos hj, hamp, ok_bind, hvariant0, hvariant1,
    Bool.false_eq_true, if_false]
  refine RefinesUpTo.bind (getD_sameUpTo hvariant hcoins amp) ?_
  rintro d _ - rfl
  refine checkedMul_bind_refines ?_
  refine RefinesUpTo.bind (sumAndProduct_refines i j x d xp _ _) ?_
  rintro ⟨s, c⟩ _ - rfl
  refine checkedMul_bind_refines ?_
  have hproduct : floorDivide ((c : ℤ) * d * aPrecision) (100 * amp * xp.length * xp.length) =
      floorDivide (c * d) (↑(amp * xp.length * xp.length)) := by
    rw [← floorDivide_aPrecision (c * d)]
    congr 1
    push_cast
    ring
  have hshare : floorDivide ((d : ℤ) * aPrecision) (100 * amp * xp.length) =
      .ok ↑(d / (amp * xp.length)) := by
    rw [mul_assoc, floorDivide_aPrecision, ← Nat.cast_mul, floorDivide,
      if_neg (by exact_mod_cast hann.ne'), Int.ofNat_fdiv]
  rw [hproduct]
  refine RefinesUpTo.bind (sameUpTo_mulDiv rfl rfl) ?_
  rintro c _ - rfl
  rw [hshare, ok_bind]
  refine checkedAdd_bind_refines ?_
  rw [← Nat.cast_add]
  refine RefinesUpTo.converge (.inr ⟨rfl, rfl⟩) ?_ ?_ 255 rfl
  · rintro y _ rfl
    exact getYNext_sameUpTo _ c d y
  · rintro previous _ next _ rfl rfl
    exact close_cast previous next

/-! ## The two Curve ports quote the same output -/

/-- The pool object of a snapshot: every coin with 18 decimals, the default variant of every
calculation, and the parameters in the Python units. -/
structure PlainContract (contract : Contract) (pool : CurveSnapshot) : Prop where
  metapool : contract.metapool = none
  dyVariant : contract.dyVariant = .default
  dVariant : contract.dVariant = .default
  yVariant0 : contract.yVariant0 = false
  yVariant1 : contract.yVariant1 = false
  coins : contract.nCoins = pool.balances.length
  rates : contract.rateMultipliers = List.replicate pool.balances.length (10 ^ 18)
  fee : contract.fee = pool.feeBps * 10 ^ 6
  amp : contract.aAtBlock contract.updateBlock = .ok (100 * pool.a)

/-- At rates of `10 ** 18` the scaled balances are the balances. -/
theorem xp_replicate (balances : List ℤ) :
    xp (List.replicate balances.length (10 ^ 18)) balances = .ok balances := by
  have hzip : (List.replicate balances.length (10 ^ 18 : ℤ)).zip balances =
      balances.map fun balance => (10 ^ 18, balance) := by
    induction balances with
    | nil => rfl
    | cons balance balances ih =>
        rw [List.length_cons, List.replicate_succ, List.zip_cons_cons, ih, List.map_cons]
  have hmap : (fun entry : ℤ × ℤ => (entry.1 * entry.2).fdiv precision) ∘
      (fun balance => (10 ^ 18, balance)) = id := by
    funext balance
    have hpos : (10 ^ 18 : ℤ) ≠ 0 := by decide
    exact Int.mul_fdiv_cancel_left balance hpos
  rw [xp, zipStrict, if_pos List.length_replicate, hzip, ok_bind, List.map_map, hmap, List.map_id]

theorem item_cast {xp : List ℕ} {i : ℕ} (hi : i < xp.length) :
    item (xp.map Nat.cast) i = .ok (xp.getD i 0 : ℤ) := by
  simp [item, hi]

theorem item_replicate {n i : ℕ} (hi : i < n) (rate : ℤ) :
    item (List.replicate n rate) i = .ok rate := by
  simp [item, hi]

theorem mul_fdiv_precision (x : ℤ) : (x * 10 ^ 18).fdiv precision = x :=
  Int.mul_fdiv_cancel x (by decide)

/-- The fee in basis points is the fee in units of `10 ** -10`. -/
theorem chargeFee_scaled {contract : Contract} {feeBps : ℕ} (hfee : contract.fee = feeBps * 10 ^ 6)
    (dy : ℕ) :
    floorDivide (contract.chargeFee dy * precision) (10 ^ 18) =
      (floorDivide (dy * feeBps) (10000 : ℕ) >>= fun fee => .ok (dy - fee)) := by
  have hscale : contract.fee * dy = 10 ^ 6 * (dy * feeBps) := by
    rw [hfee]
    ring
  have hdenominator : Curve.feeDenominator = 10 ^ 6 * (10000 : ℕ) := by decide
  have hcharged : (contract.chargeFee dy * precision).fdiv (10 ^ 18) = contract.chargeFee dy :=
    mul_fdiv_precision _
  rw [floorDivide, if_neg (by decide), hcharged, floorDivide, if_neg (by decide), ok_bind, chargeFee,
    hscale, hdenominator, Int.mul_fdiv_mul_of_pos _ _ (by decide)]

theorem amountOut_sameUpTo {contract : Contract} {pool : CurveSnapshot}
    (hplain : PlainContract contract pool) {blockIdentifier : Option ℕ} {block : ℕ}
    (hblock : contract.blockNumber blockIdentifier = .ok block) (i j amountIn : ℕ) :
    SameUpTo (amountOut pool i j amountIn)
      (contract.getDy (pool.balances.map Nat.cast) i j amountIn blockIdentifier) := by
  unfold amountOut
  refine RefinesUpTo.ite_left (gaveUp_invalid _) fun hcoins => ?_
  refine RefinesUpTo.ite_left (gaveUp_invalid _) fun hindex => ?_
  refine RefinesUpTo.ite_left (gaveUp_invalid _) fun hij => ?_
  refine RefinesUpTo.ite_left (gaveUp_invalid _) fun hzero => ?_
  refine RefinesUpTo.ite_left (gaveUp_invalid _) fun hfee => ?_
  refine RefinesUpTo.ite_left (gaveUp_invalid _) fun hamp => ?_
  refine RefinesUpTo.ite_left (gaveUp_invalid _) fun hempty => ?_
  obtain ⟨hi, hj⟩ : i < pool.balances.length ∧ j < pool.balances.length := by omega
  have hxp := xp_replicate (pool.balances.map Nat.cast)
  rw [List.length_map] at hxp
  simp only [getDy, hblock, ok_bind, hplain.metapool, hplain.dyVariant, dyScaled, solve, hplain.rates,
    hxp, item_cast hi, item_cast hj, item_replicate hi, item_replicate hj, mul_fdiv_precision]
  refine checkedAdd_bind_refines ?_
  rw [bind_assoc, ← Nat.cast_add]
  refine RefinesUpTo.bind (getY_sameUpTo hplain.dVariant hplain.coins hplain.yVariant0
    hplain.yVariant1 hplain.amp (Nat.pos_of_ne_zero hamp) hij hi hj _) ?_
  rintro y _ - rfl
  refine checkedSub_bind_refines fun gross hgross => ?_
  refine checkedSub_bind_refines fun dy hdy => ?_
  have hdyCast : (pool.balances.getD j 0 : ℤ) - y - 1 = dy := by omega
  rw [ok_bind, hdyCast, chargeFee_scaled hplain.fee]
  refine RefinesUpTo.bind (sameUpTo_mulDiv rfl rfl) ?_
  rintro fee _ - rfl
  unfold checkedSub
  exact RefinesUpTo.ite_left (gaveUp_arithmetic _) fun hle => .ok (by omega)

/-- Unless the Rust port stops at a check of its own, both ports quote the same output or report
the same iteration. -/
theorem amountOut_agrees_getDy (contract : Contract) (pool : CurveSnapshot)
    (hplain : PlainContract contract pool) (blockIdentifier : Option ℕ) (block : ℕ)
    (hblock : contract.blockNumber blockIdentifier = .ok block) (i j amountIn : ℕ) :
    let rust := amountOut pool i j amountIn
    let python := contract.getDy (pool.balances.map Nat.cast) i j amountIn blockIdentifier
    (∃ out, rust = .ok out ∧ python = .ok (out : ℤ)) ∨
      (rust = .error getDNotConverged ∧ python = .error dNotConverged) ∨
      (rust = .error getYNotConverged ∧ python = .error yNotConverged) ∨
      ∃ message, rust = .error (.invalid message) ∨ rust = .error (.arithmetic message) := by
  intro rust python
  have hports : SameUpTo rust python := amountOut_sameUpTo hplain hblock i j amountIn
  generalize rust = x at hports
  generalize python = y at hports
  cases hports with
  | @ok out _ hout =>
      subst hout
      exact .inl ⟨out, rfl, rfl⟩
  | error he =>
      rcases he with ⟨rfl, rfl⟩ | ⟨rfl, rfl⟩
      · exact .inr (.inl ⟨rfl, rfl⟩)
      · exact .inr (.inr (.inl ⟨rfl, rfl⟩))
  | gaveUp he =>
      obtain ⟨message, rfl | rfl⟩ := he
      · exact .inr (.inr (.inr ⟨message, .inl rfl⟩))
      · exact .inr (.inr (.inr ⟨message, .inr rfl⟩))

/-- The pool object of a snapshot, with its coins at the addresses 1, 2, …. -/
def plainContract (pool : CurveSnapshot) : Contract where
  tokens := (List.range pool.balances.length).map fun index =>
    { address := index + 1, chainId := 1, symbol := "COIN", decimals := 18 }
  fee := pool.feeBps * 10 ^ 6
  aCoefficient := pool.a
  ramp := none
  createTimestamp := 0
  rateMultipliers := List.replicate pool.balances.length (10 ^ 18)
  precisionMultipliers := List.replicate pool.balances.length 1
  feeGamma := 0
  midFee := 0
  outFee := 0
  offpegFeeMultiplier := 0
  dVariant := .default
  yVariant0 := false
  yVariant1 := false
  yDVariant0 := false
  dyVariant := .default
  metapool := none
  chain := {
    latestBlock := .ok 1
    virtualPrice := fun _ => .ok precision
    scaledRedemptionPrice := fun _ => .ok precision
    adminBalances := fun _ => .ok []
    liveBalances := fun _ => .ok []
    storedRates := fun _ => .ok []
    contractD := fun _ => .ok 0
    gamma := fun _ => .ok 0
    priceScale := fun _ => .ok []
    totalSupply := fun _ => .ok 0
    blockTimestamp := fun _ => .ok 0 }
  updateBlock := 1

theorem plainContract_plain (pool : CurveSnapshot) : PlainContract (plainContract pool) pool where
  metapool := rfl
  dyVariant := rfl
  dVariant := rfl
  yVariant0 := rfl
  yVariant1 := rfl
  coins := by simp [plainContract, nCoins]
  rates := rfl
  fee := rfl
  amp := by simp [aAtBlock, a, plainContract, aPrecision, mul_comm]

example : amountOut ⟨[31316, 1, 1677], 1, 4⟩ 0 2 100 = .error getDNotConverged := by decide +kernel

theorem amountOut_agrees_getDy_sample :
    let pool : CurveSnapshot := ⟨[10 ^ 24, 2 * 10 ^ 24, 3 * 10 ^ 24], 200, 4⟩
    amountOut pool 0 2 (10 ^ 21) = .ok 1008416327862502400136 ∧
      (plainContract pool).getDy (pool.balances.map Nat.cast) 0 2 (10 ^ 21 : ℕ) none =
        .ok (1008416327862502400136 : ℕ) := by
  intro pool
  have hrust : amountOut pool 0 2 (10 ^ 21) = .ok 1008416327862502400136 := by decide +kernel
  rcases amountOut_agrees_getDy (plainContract pool) pool (plainContract_plain pool) none 1 rfl 0 2
    (10 ^ 21) with ⟨out, hout, hpython⟩ | ⟨h, -⟩ | ⟨h, -⟩ | ⟨message, h | h⟩
  · rw [hrust] at hout
    rw [← Except.ok.inj hout] at hpython
    exact ⟨hrust, hpython⟩
  all_goals
    rw [hrust] at h
    cases h

/-- The Rust port stops at an overflow where the Python port iterates to the end. -/
theorem getDy_not_converged_overflow :
    let pool : CurveSnapshot := ⟨[2 ^ 100, 1, 1, 1], 1, 4⟩
    PlainContract (plainContract pool) pool ∧
      (plainContract pool).getDy (pool.balances.map Nat.cast) 0 1 (1 : ℕ) none =
        .error dNotConverged ∧
      amountOut pool 0 1 1 = .error (.arithmetic "u256::mul_div: quotient overflows U256") :=
  ⟨plainContract_plain _, by decide +kernel, by decide +kernel⟩

end Degenbot.CurveSimulation
