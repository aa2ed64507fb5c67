import Degenbot.Algorithm.StylusMath
import Degenbot.Library.FractionalMap
import Degenbot.Library.Outcome
import Degenbot.Verification.Wide
import Mathlib.Analysis.Real.Sqrt

/-! # The optimal input of a cycle of any length

The coefficients are those of the composed map of the cycle. The returned input is the real
optimum rounded down, and the largest exact profit of an integer input is next to it. -/

namespace Degenbot.Stylus

open Library Wide

/-! ## Checked operations -/

theorem checkedMulU512_eq_ok {a b c : U512} : checkedMulU512 a b = .ok c ↔
    a.toNat * b.toNat < 2 ^ 512 ∧ c.toNat = a.toNat * b.toNat := by
  rw [checkedMulU512, okOr_eq_ok, checkedMul_eq_some]

theorem checkedAddU512_eq_ok {a b c : U512} : checkedAddU512 a b = .ok c ↔
    a.toNat + b.toNat < 2 ^ 512 ∧ c.toNat = a.toNat + b.toNat := by
  rw [checkedAddU512, okOr_eq_ok, checkedAdd_eq_some]

theorem narrowU512ToV2_eq_ok {value : U512} {y : U256} (h : narrowU512ToV2 value = .ok y) :
    y.toNat = value.toNat := by
  unfold narrowU512ToV2 at h
  split_ifs at h with hlarge
  have hle : value.toNat < 2 ^ 256 := by
    rw [gt_iff_lt, BitVec.lt_def, toNat_widen_u256, BitVec.toNat_allOnes, Nat.not_lt] at hlarge
    omega
  rw [← Except.ok.inj h, BitVec.toNat_setWidth, Nat.mod_eq_of_lt hle]

/-! ## Hops -/

/-- A hop that passes its validation. -/
structure V2PoolHop.Valid (hop : V2PoolHop) : Prop where
  reserveIn_pos : 0 < hop.reserveIn.toNat
  reserveOut_pos : 0 < hop.reserveOut.toNat
  fee_lt : hop.feeBps.toNat < 10000

theorem toNat_v2FeeDenominatorBps : v2FeeDenominatorBps.toNat = 10000 := rfl

theorem validateV2Hop_eq_ok {hop : V2PoolHop} {u : Unit} (h : validateV2Hop hop = .ok u) :
    hop.Valid := by
  unfold validateV2Hop at h
  split_ifs at h with hreserves hfee
  obtain ⟨hin, hout⟩ := not_or.mp hreserves
  refine ⟨toNat_pos hin, toNat_pos hout, ?_⟩
  rwa [ge_iff_le, BitVec.le_def, toNat_v2FeeDenominatorBps, Nat.not_le] at hfee

def V2PoolHop.kept (hop : V2PoolHop) : ℕ := 10000 - hop.feeBps.toNat

theorem V2PoolHop.Valid.kept_pos {hop : V2PoolHop} (h : hop.Valid) : 0 < hop.kept :=
  Nat.sub_pos_of_lt h.fee_lt

theorem V2PoolHop.Valid.toNat_feeMultiplier {hop : V2PoolHop} (h : hop.Valid) :
    (v2FeeDenominatorBps - hop.feeBps).toNat = hop.kept :=
  BitVec.toNat_sub_of_le (BitVec.le_def.mpr h.fee_lt.le)

def V2PoolHop.map (hop : V2PoolHop) : FractionalMap ℕ where
  k := hop.kept * hop.reserveOut.toNat
  m := 10000 * hop.reserveIn.toNat
  n := hop.kept

theorem V2PoolHop.Valid.map_pos {hop : V2PoolHop} (h : hop.Valid) :
    0 < hop.map.k ∧ 0 < hop.map.m ∧ 0 < hop.map.n :=
  ⟨Nat.mul_pos h.kept_pos h.reserveOut_pos, Nat.mul_pos (by norm_num) h.reserveIn_pos, h.kept_pos⟩

/-! ## The route -/

theorem v2AmountOut_eq_ok {hop : V2PoolHop} {amountIn amountOut : U256}
    (h : v2AmountOut hop amountIn = .ok amountOut) :
    hop.Valid ∧ amountOut.toNat =
      hop.map.k * amountIn.toNat / (hop.map.m + hop.map.n * amountIn.toNat) := by
  obtain ⟨u, hvalid, h⟩ := bind_eq_ok.mp h
  have hvalid := validateV2Hop_eq_ok hvalid
  refine ⟨hvalid, ?_⟩
  by_cases hzero : amountIn = 0
  · rw [if_pos hzero] at h
    rw [← Except.ok.inj h, hzero]
    simp
  · rw [if_neg hzero] at h
    simp only [bind_eq_ok, checkedMulU512_eq_ok, checkedAddU512_eq_ok] at h
    obtain ⟨afterFee, ⟨-, hafterFee⟩, numerator, ⟨-, hnumerator⟩, base, ⟨-, hbase⟩, denominator,
      ⟨-, hdenominator⟩, hquotient⟩ := h
    rw [toNat_widen_u256, toNat_widen_u256, hvalid.toNat_feeMultiplier] at hafterFee
    rw [toNat_widen_u256, toNat_widen_u256, toNat_v2FeeDenominatorBps] at hbase
    rw [narrowU512ToV2_eq_ok hquotient, BitVec.toNat_udiv, hnumerator, hdenominator, hbase,
      hafterFee, toNat_widen_u256]
    congr 1
    · simp only [V2PoolHop.map]
      ring
    · simp only [V2PoolHop.map]
      ring

theorem v2AmountOut_bounds {hop : V2PoolHop} {amountIn amountOut : U256}
    (h : v2AmountOut hop amountIn = .ok amountOut) :
    hop.map.Bounds amountIn.toNat amountOut.toNat ∧
      amountOut.toNat * hop.map.n ≤ hop.map.k := by
  obtain ⟨hvalid, hout⟩ := v2AmountOut_eq_ok h
  have hbounds : hop.map.Bounds amountIn.toNat amountOut.toNat := by
    rw [FractionalMap.Bounds, hout]
    exact Nat.div_mul_le_self _ _
  refine ⟨hbounds, ?_⟩
  rcases Nat.eq_zero_or_pos amountIn.toNat with hzero | hpos
  · rw [hout, hzero]
    simp
  · refine Nat.le_of_mul_le_mul_right ?_ hpos
    calc amountOut.toNat * hop.map.n * amountIn.toNat
        ≤ amountOut.toNat * (hop.map.m + hop.map.n * amountIn.toNat) := by
          rw [Nat.mul_assoc]
          exact Nat.mul_le_mul_left _ (Nat.le_add_left _ _)
      _ ≤ hop.map.k * amountIn.toNat := hbounds

def routeMap (hops : List V2PoolHop) : FractionalMap ℕ :=
  FractionalMap.composition (hops.map V2PoolHop.map)

theorem route_bounds {hops : List V2PoolHop} {f : FractionalMap ℕ} {x : ℕ} {amount out : U256}
    (hf : f.Bounds x amount.toNat)
    (h : hops.foldlM (fun amount hop => v2AmountOut hop amount) amount = .ok out) :
    (∀ hop ∈ hops, hop.Valid) ∧
      ((hops.map V2PoolHop.map).foldl FractionalMap.andThen f).Bounds x out.toNat := by
  induction hops generalizing f amount with
  | nil =>
      rw [List.foldlM_nil] at h
      rw [← Except.ok.inj h]
      exact ⟨fun hop hmem => absurd hmem List.not_mem_nil, hf⟩
  | cons hop hops ih =>
      rw [List.foldlM_cons] at h
      obtain ⟨next, hnext, hrest⟩ := bind_eq_ok.mp h
      obtain ⟨hbounds, hlimit⟩ := v2AmountOut_bounds hnext
      obtain ⟨hvalid, hout⟩ := ih (hf.andThen hbounds hlimit) hrest
      exact ⟨List.forall_mem_cons.mpr ⟨(v2AmountOut_eq_ok hnext).1, hvalid⟩, hout⟩

theorem v2RouteOutput_bounds {hops : List V2PoolHop} {amountIn amountOut : U256}
    (h : v2RouteOutput hops amountIn = .ok amountOut) :
    hops ≠ [] ∧ (∀ hop ∈ hops, hop.Valid) ∧
      (routeMap hops).Bounds amountIn.toNat amountOut.toNat := by
  unfold v2RouteOutput at h
  split_ifs at h with hne
  exact ⟨hne, route_bounds (FractionalMap.bounds_id _) h⟩

/-! ## The route without rounding -/

section Exact

variable (α : Type*) [Field α]

def exactOut (hop : V2PoolHop) (amountIn : α) : α :=
  amountIn * hop.kept * hop.reserveOut.toNat /
    (hop.reserveIn.toNat * 10000 + amountIn * hop.kept)

/-- The composed rational map. -/
def exactRoute (hops : List V2PoolHop) (amountIn : α) : α :=
  hops.foldl (fun amount hop => exactOut α hop amount) amountIn

def exactProfit (hops : List V2PoolHop) (amountIn : α) : α := exactRoute α hops amountIn - amountIn

variable {α} [LinearOrder α] [IsStrictOrderedRing α] {hops : List V2PoolHop}

omit [LinearOrder α] [IsStrictOrderedRing α] in
theorem exactOut_eq_eval (hop : V2PoolHop) (amountIn : α) :
    exactOut α hop amountIn = (hop.map.cast α).eval amountIn := by
  unfold exactOut FractionalMap.eval FractionalMap.cast V2PoolHop.map
  push_cast
  congr 1 <;> ring

omit [LinearOrder α] [IsStrictOrderedRing α] in
theorem eval_id (x : α) : (FractionalMap.id : FractionalMap α).eval x = x := by
  simp [FractionalMap.eval, FractionalMap.id]

theorem exactRoute_eq_eval (hvalid : ∀ hop ∈ hops, hop.Valid) {amountIn : α}
    (h : 0 ≤ amountIn) : exactRoute α hops amountIn = ((routeMap hops).cast α).eval amountIn := by
  have hmaps : ∀ g ∈ hops.map fun hop => hop.map.cast α, g.Regular ∧ 0 ≤ g.k := by
    intro g hg
    obtain ⟨hop, hhop, rfl⟩ := List.mem_map.mp hg
    exact ⟨FractionalMap.cast_regular (hvalid hop hhop).map_pos.2.1, Nat.cast_nonneg _⟩
  have hid : (FractionalMap.id : FractionalMap α).Regular := ⟨zero_lt_one, le_rfl⟩
  rw [routeMap, FractionalMap.cast_composition, List.map_map, FractionalMap.composition]
  refine Eq.trans ?_ (FractionalMap.eval_foldl hmaps hid zero_le_one h).symm
  rw [eval_id, List.foldl_map]
  simp only [exactRoute, exactOut_eq_eval]

theorem exactProfit_eq_surplus (hvalid : ∀ hop ∈ hops, hop.Valid) {amountIn : α}
    (h : 0 ≤ amountIn) :
    exactProfit α hops amountIn = ((routeMap hops).cast α).surplus amountIn := by
  rw [exactProfit, exactRoute_eq_eval hvalid h, FractionalMap.surplus]

end Exact

/-! ## The coefficients -/

/-- The coefficients in the order of the source: numerator, slope and constant. -/
structure Represents (coefficients : U512 × U512 × U512) (f : FractionalMap ℕ) : Prop where
  k : coefficients.1.toNat = f.k
  n : coefficients.2.1.toNat = f.n
  m : coefficients.2.2.toNat = f.m

theorem nextCoefficients_eq_ok {coefficients next : U512 × U512 × U512} {f : FractionalMap ℕ}
    {hop : V2PoolHop} (hf : Represents coefficients f)
    (h : nextCoefficients coefficients hop = .ok next) :
    hop.Valid ∧ Represents next (f.andThen hop.map) := by
  obtain ⟨u, hvalid, h⟩ := bind_eq_ok.mp h
  have hvalid := validateV2Hop_eq_ok hvalid
  simp only [bind_eq_ok, checkedMulU512_eq_ok, checkedAddU512_eq_ok] at h
  obtain ⟨reserveInTerm, ⟨-, hterm⟩, scaled, ⟨-, hscaled⟩, nextK, ⟨-, hnextK⟩, fromK, ⟨-, hfromK⟩,
    fromM, ⟨-, hfromM⟩, nextM, ⟨-, hnextM⟩, nextN, ⟨-, hnextN⟩, hnext⟩ := h
  rw [toNat_widen_u256, toNat_widen_u256, toNat_v2FeeDenominatorBps] at hterm
  rw [toNat_widen_u256, toNat_widen_u256, hvalid.toNat_feeMultiplier] at hscaled
  rw [toNat_widen_u256, hvalid.toNat_feeMultiplier, hf.k] at hfromK
  rw [hterm, hf.n] at hfromM
  rw [hscaled, hf.k] at hnextK
  rw [hterm, hf.m] at hnextN
  rw [hfromK, hfromM] at hnextM
  rw [← Except.ok.inj hnext]
  exact ⟨hvalid, ⟨hnextK.trans (mul_comm _ _),
    hnextM.trans (by simp only [FractionalMap.andThen, V2PoolHop.map]; ring),
    hnextN.trans (mul_comm _ _)⟩⟩

theorem nextCoefficients_foldlM {hops : List V2PoolHop} {coefficients result : U512 × U512 × U512}
    {f : FractionalMap ℕ} (hf : Represents coefficients f)
    (h : hops.foldlM nextCoefficients coefficients = .ok result) :
    (∀ hop ∈ hops, hop.Valid) ∧
      Represents result ((hops.map V2PoolHop.map).foldl FractionalMap.andThen f) := by
  induction hops generalizing coefficients f with
  | nil =>
      rw [List.foldlM_nil] at h
      rw [← Except.ok.inj h]
      exact ⟨fun hop hmem => absurd hmem List.not_mem_nil, hf⟩
  | cons hop hops ih =>
      rw [List.foldlM_cons] at h
      obtain ⟨next, hnext, hrest⟩ := bind_eq_ok.mp h
      obtain ⟨hvalid, hrepresents⟩ := nextCoefficients_eq_ok hf hnext
      obtain ⟨hvalids, hresult⟩ := ih hrepresents hrest
      exact ⟨List.forall_mem_cons.mpr ⟨hvalid, hvalids⟩, hresult⟩

theorem v2RouteMobiusCoefficients_eq_ok {hops : List V2PoolHop}
    {result : U512 × U512 × U512} (h : v2RouteMobiusCoefficients hops = .ok result) :
    hops ≠ [] ∧ (∀ hop ∈ hops, hop.Valid) ∧ Represents result (routeMap hops) := by
  cases hops with
  | nil => cases h
  | cons first hops =>
      obtain ⟨u, hvalid, h⟩ := bind_eq_ok.mp h
      have hvalid := validateV2Hop_eq_ok hvalid
      simp only [bind_eq_ok, checkedMulU512_eq_ok] at h
      obtain ⟨k, ⟨-, hk⟩, n, ⟨-, hn⟩, hfold⟩ := h
      rw [toNat_widen_u256, toNat_widen_u256, hvalid.toNat_feeMultiplier] at hk
      rw [toNat_widen_u256, toNat_widen_u256, toNat_v2FeeDenominatorBps] at hn
      have hfirst : Represents (k, widen (v2FeeDenominatorBps - first.feeBps), n) first.map :=
        ⟨hk, (toNat_widen_u256 _).trans hvalid.toNat_feeMultiplier, hn⟩
      obtain ⟨hvalids, hresult⟩ := nextCoefficients_foldlM hfirst hfold
      refine ⟨List.cons_ne_nil _ _, List.forall_mem_cons.mpr ⟨hvalid, hvalids⟩, ?_⟩
      rwa [routeMap, FractionalMap.composition, List.map_cons, List.foldl_cons,
        FractionalMap.id_andThen]

/-- The constant of a route is an even number, and no coefficient is zero. -/
theorem routeMap_pos {hops : List V2PoolHop} (hne : hops ≠ []) (hvalid : ∀ hop ∈ hops, hop.Valid) :
    0 < (routeMap hops).m ∧ 0 < (routeMap hops).n ∧ 2 ∣ (routeMap hops).m := by
  have hfold : ∀ {rest : List V2PoolHop} {f : FractionalMap ℕ}, (∀ hop ∈ rest, hop.Valid) →
      0 < f.k ∧ 0 < f.m ∧ 0 < f.n ∧ 2 ∣ f.m →
      0 < ((rest.map V2PoolHop.map).foldl FractionalMap.andThen f).m ∧
        0 < ((rest.map V2PoolHop.map).foldl FractionalMap.andThen f).n ∧
        2 ∣ ((rest.map V2PoolHop.map).foldl FractionalMap.andThen f).m := by
    intro rest
    induction rest with
    | nil =>
        intro f _ hf
        exact hf.2
    | cons hop rest ih =>
        intro f hrest hf
        obtain ⟨hk, hm, hn⟩ := (hrest hop List.mem_cons_self).map_pos
        refine ih (fun h hmem => hrest h (List.mem_cons_of_mem _ hmem))
          ⟨Nat.mul_pos hf.1 hk, Nat.mul_pos hf.2.1 hm, ?_, Dvd.dvd.mul_right hf.2.2.2 _⟩
        exact Nat.add_pos_left (Nat.mul_pos hf.2.2.1 hm) _
  cases hops with
  | nil => exact absurd rfl hne
  | cons first rest =>
      obtain ⟨hk, hm, hn⟩ := (hvalid first List.mem_cons_self).map_pos
      have heven : 2 ∣ first.map.m := Dvd.dvd.mul_right (by decide) _
      rw [routeMap, FractionalMap.composition, List.map_cons, List.foldl_cons,
        FractionalMap.id_andThen]
      exact hfold (fun h hmem => hvalid h (List.mem_cons_of_mem _ hmem)) ⟨hk, hm, hn, heven⟩

/-! ## The closed form -/

theorem toNat_sqrtU512 {x : U512} (h : x.toNat + 1 < 2 ^ 512) :
    (sqrtU512 x).toNat = x.toNat.sqrt := by
  unfold sqrtU512
  have hone : (1 : U512).toNat = 1 := toNat_ofNat (Nat.one_lt_two_pow (by norm_num))
  split_ifs with hsmall
  · rw [BitVec.le_def, hone] at hsmall
    rcases Nat.le_one_iff_eq_zero_or_eq_one.mp hsmall with hx | hx
    · rw [hx, Nat.sqrt_zero]
    · rw [hx, Nat.sqrt_one]
  · rw [BitVec.le_def, hone, Nat.not_le] at hsmall
    have hpos : 0 < x.toNat := by omega
    have hself : (x / x).toNat = 1 := by
      rw [BitVec.toNat_udiv]
      exact Nat.div_self hpos
    have hfirst : ((x + x / x) >>> 1).toNat = (x.toNat + 1) / 2 := by
      rw [toNat_half, toNat_add_of_fits (by rw [hself]; exact h), hself]
    have hroot := sqrt_le_newton x.toNat hpos
    rw [Nat.div_self hpos] at hroot
    have hlt : (x + x / x) >>> 1 < x := by
      rw [BitVec.lt_def, hfirst]
      omega
    rw [isqrtLoop, if_pos hlt]
    exact toNat_isqrtLoop (by norm_num) hpos (hroot.trans_eq hfirst.symm)
      (by rw [hfirst]; omega)

theorem optimalV2CycleInput_eq_ok {hops : List V2PoolHop} {x : U256}
    (h : optimalV2CycleInput hops = .ok x) :
    hops ≠ [] ∧ (∀ hop ∈ hops, hop.Valid) ∧ x.toNat = (routeMap hops).rootInput := by
  obtain ⟨⟨k, m, n⟩, hcoefficients, h⟩ := bind_eq_ok.mp h
  obtain ⟨hne, hvalid, hk, hm, hn⟩ := v2RouteMobiusCoefficients_eq_ok hcoefficients
  obtain ⟨hbase, hslope, heven⟩ := routeMap_pos hne hvalid
  refine ⟨hne, hvalid, ?_⟩
  generalize routeMap hops = f at *
  simp only at h hk hm hn
  have hzero : ∀ {rest : U256}, (f.k * f.m).sqrt ≤ f.m → (Except.ok 0 : Except V2OptimizationError U256) =
      .ok rest → rest.toNat = f.rootInput := by
    intro rest hroot hrest
    rw [← Except.ok.inj hrest, FractionalMap.rootInput, Nat.sub_eq_zero_of_le hroot, Nat.zero_div]
    rfl
  split_ifs at h with hflat
  · refine hzero ?_ h
    rcases hflat with hflat | hflat
    · rw [BitVec.le_def, hk, hn] at hflat
      exact (Nat.sqrt_le_sqrt (Nat.mul_le_mul_right _ hflat)).trans_eq (Nat.sqrt_eq _)
    · rw [hflat] at hm
      exact absurd hm (by simp; omega)
  · obtain ⟨target, htarget, h⟩ := bind_eq_ok.mp h
    obtain ⟨-, htarget⟩ := checkedMulU512_eq_ok.mp htarget
    rw [hk, hn] at htarget
    have hroot : (sqrtU512 target).toNat = (f.k * f.m).sqrt := by
      rw [toNat_sqrtU512, htarget]
      have hlt := target.isLt
      have hdvd : 2 ∣ target.toNat := htarget ▸ Dvd.dvd.mul_left heven _
      omega
    split_ifs at h with hbelow
    · refine hzero ?_ h
      rwa [BitVec.le_def, hroot, hn] at hbelow
    · rw [narrowU512ToV2_eq_ok h, BitVec.toNat_udiv,
        BitVec.toNat_sub_of_le (BitVec.le_of_lt (BitVec.not_le.mp hbelow)), hroot, hn, hm]
      rfl

/-! ## The optimum -/

/-- The input where the profit of the composed map is largest, without rounding. -/
noncomputable def optimum (f : FractionalMap ℕ) : ℝ := max 0 ((√(f.k * f.m) - f.m) / f.n)

theorem optimum_nonneg (f : FractionalMap ℕ) : 0 ≤ optimum f := le_max_left _ _

theorem optimum_maximal {f : FractionalMap ℕ} (hm : 0 < f.m) (hn : 0 < f.n) {y : ℝ} (hy : 0 ≤ y) :
    (f.cast ℝ).surplus y ≤ (f.cast ℝ).surplus (optimum f) := by
  have hslope : (0 : ℝ) < f.n := Nat.cast_pos.mpr hn
  have hproduct : (0 : ℝ) ≤ f.k * f.m := by positivity
  refine FractionalMap.surplus_le (FractionalMap.cast_regular hm) (optimum_nonneg f) hy ?_
  by_cases hflat : √((f.k : ℝ) * f.m) ≤ f.m
  · refine Or.inr ⟨max_eq_left (div_nonpos_of_nonpos_of_nonneg (by linarith) hslope.le), ?_⟩
    calc (f.cast ℝ).k * (f.cast ℝ).m = √((f.k : ℝ) * f.m) ^ 2 := (Real.sq_sqrt hproduct).symm
      _ ≤ (f.m : ℝ) ^ 2 := pow_le_pow_left₀ (Real.sqrt_nonneg _) hflat 2
      _ = (f.cast ℝ).m * (f.cast ℝ).m := sq _
  · have hpos : 0 ≤ (√((f.k : ℝ) * f.m) - f.m) / f.n :=
      div_nonneg (by linarith) hslope.le
    have hdenominator : (f.cast ℝ).m + (f.cast ℝ).n * optimum f = √((f.k : ℝ) * f.m) := by
      rw [optimum, max_eq_right hpos, FractionalMap.cast, mul_div_cancel₀ _ hslope.ne']
      ring
    rw [hdenominator]
    exact Or.inl (Real.mul_self_sqrt hproduct)

theorem floor_optimum {f : FractionalMap ℕ} (hn : 0 < f.n) : ⌊optimum f⌋₊ = f.rootInput := by
  have hslope : (0 : ℝ) < f.n := Nat.cast_pos.mpr hn
  rw [Nat.floor_eq_iff (optimum_nonneg f)]
  constructor
  · rcases Nat.eq_zero_or_pos f.rootInput with hzero | hpos
    · rw [hzero, Nat.cast_zero]
      exact le_max_left _ _
    · refine le_max_of_le_right ((le_div_iff₀ hslope).mpr ?_)
      have hroot : ((f.m + f.n * f.rootInput : ℕ) : ℝ) ≤ √((f.k : ℝ) * f.m) := by
        refine (Nat.cast_le.mpr (FractionalMap.rootInput_le_root hpos)).trans ?_
        refine (Real.nat_sqrt_le_real_sqrt).trans_eq ?_
        rw [Nat.cast_mul]
      push_cast at hroot
      linarith
  · refine max_lt (by positivity) ((div_lt_iff₀ hslope).mpr ?_)
    have hupper : √((f.k : ℝ) * f.m) < ((f.m + f.n * (f.rootInput + 1) : ℕ) : ℝ) := by
      rw [← Nat.cast_mul]
      refine (Real.real_sqrt_lt_nat_sqrt_succ).trans_le ?_
      exact_mod_cast FractionalMap.root_lt_rootInput hn
    push_cast at hupper
    linarith

theorem v2RouteOutput_le_exactRoute {hops : List V2PoolHop} {amountIn amountOut : U256}
    (h : v2RouteOutput hops amountIn = .ok amountOut) :
    (amountOut.toNat : ℚ) ≤ exactRoute ℚ hops amountIn.toNat := by
  obtain ⟨hne, hvalid, hbounds⟩ := v2RouteOutput_bounds h
  have hregular : ((routeMap hops).cast ℚ).Regular :=
    FractionalMap.cast_regular (routeMap_pos hne hvalid).1
  rw [exactRoute_eq_eval hvalid (Nat.cast_nonneg _), FractionalMap.eval,
    le_div_iff₀ (hregular.denom_pos (Nat.cast_nonneg _))]
  simp only [FractionalMap.cast]
  unfold FractionalMap.Bounds at hbounds
  exact_mod_cast hbounds

theorem exactProfit_le_max {hops : List V2PoolHop} {x : U256}
    (h : optimalV2CycleInput hops = .ok x) (input : ℕ) :
    exactProfit ℚ hops input ≤
      max (exactProfit ℚ hops x.toNat) (exactProfit ℚ hops (x.toNat + 1 : ℕ)) := by
  obtain ⟨hne, hvalid, hx⟩ := optimalV2CycleInput_eq_ok h
  obtain ⟨hm, hn, -⟩ := routeMap_pos hne hvalid
  rw [exactProfit_eq_surplus hvalid (Nat.cast_nonneg _),
    exactProfit_eq_surplus hvalid (Nat.cast_nonneg _),
    exactProfit_eq_surplus hvalid (Nat.cast_nonneg _), hx]
  exact FractionalMap.cast_surplus_le_max hm hn input

theorem exists_optimum {hops : List V2PoolHop} {x : U256}
    (h : optimalV2CycleInput hops = .ok x) :
    ∃ optimum : ℝ, 0 ≤ optimum ∧ x.toNat = ⌊optimum⌋₊ ∧
      ∀ y, 0 ≤ y → exactProfit ℝ hops y ≤ exactProfit ℝ hops optimum := by
  obtain ⟨hne, hvalid, hx⟩ := optimalV2CycleInput_eq_ok h
  obtain ⟨hm, hn, -⟩ := routeMap_pos hne hvalid
  refine ⟨optimum (routeMap hops), optimum_nonneg _, hx.trans (floor_optimum hn).symm, ?_⟩
  intro y hy
  rw [exactProfit_eq_surplus hvalid hy, exactProfit_eq_surplus hvalid (optimum_nonneg _)]
  exact optimum_maximal hm hn hy

/-- The returned input of a cycle is its real optimum rounded down, and no simulated output is
above the exact one. -/
theorem optimalV2CycleInput_optimal (hops : List V2PoolHop) :
    (∀ x, optimalV2CycleInput hops = .ok x →
      (∃ optimum : ℝ, 0 ≤ optimum ∧ x.toNat = ⌊optimum⌋₊ ∧
        ∀ y, 0 ≤ y → exactProfit ℝ hops y ≤ exactProfit ℝ hops optimum) ∧
      ∀ input : ℕ, exactProfit ℚ hops input ≤
        max (exactProfit ℚ hops x.toNat) (exactProfit ℚ hops (x.toNat + 1 : ℕ))) ∧
    ∀ amountIn amountOut, v2RouteOutput hops amountIn = .ok amountOut →
      (amountOut.toNat : ℚ) ≤ exactRoute ℚ hops amountIn.toNat :=
  ⟨fun _ h => ⟨exists_optimum h, exactProfit_le_max h⟩, fun _ _ => v2RouteOutput_le_exactRoute⟩

/-- Two pools with the prices of the tests. -/
def twoPools : List V2PoolHop := [⟨1960000, 1000, 30⟩, ⟨1000, 2000000, 30⟩]

theorem optimalV2CycleInput_twoPools : ∃ optimum : ℝ, 0 ≤ optimum ∧ 7011 = ⌊optimum⌋₊ ∧
    ∀ y, 0 ≤ y → exactProfit ℝ twoPools y ≤ exactProfit ℝ twoPools optimum := by
  have h : optimalV2CycleInput twoPools = .ok 7011 := by decide +kernel
  exact ((optimalV2CycleInput_optimal twoPools).1 7011 h).1

end Degenbot.Stylus
