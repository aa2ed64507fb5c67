import Degenbot.Verification.V3.Comparison

/-! # The frontrun of `v3_sandwich_max_size`

The doubling phase stops at the first size that leaves the victim no more than its minimum,
and the bisection phase searches below it. A size that leaves exactly the minimum ends the
first phase, but the second phase would accept it. -/

namespace Degenbot.V3Simulation

open Library

/-! ## Runs with a budget -/

theorem andThen_eq_ok {α β : Type} {run : Option (Except String α)}
    {next : α → Option (Except String β)} {b : β} :
    andThen run next = some (.ok b) ↔ ∃ a, run = some (.ok a) ∧ next a = some (.ok b) := by
  rcases run with _ | _ | a
  · simp [andThen]
  · simp [andThen]
  · simp [andThen]

section Budget

variable {math : UniswapV3Math} {pool next : V3Snapshot} {zeroForOne : Bool} {fuel fuel' : ℕ}
  {amount victimAmountIn a b out out' : ℕ}

theorem swapLoop_mono {outcome : Except String LoopState}
    (h : swapLoop math pool zeroForOne fuel amount = some outcome) (hle : fuel ≤ fuel') :
    swapLoop math pool zeroForOne fuel' amount = some outcome := by
  unfold swapLoop at h ⊢
  cases hcheck : checkSwap pool amount with
  | error report => simpa only [hcheck] using h
  | ok checked =>
      simp only [hcheck] at h ⊢
      exact whileLoop_mono h hle

theorem amountOut_mono {outcome : Except String ℕ}
    (h : amountOut math pool zeroForOne fuel amount = some outcome) (hle : fuel ≤ fuel') :
    amountOut math pool zeroForOne fuel' amount = some outcome := by
  unfold amountOut at h ⊢
  split_ifs at h ⊢ with hzero
  · exact h
  · obtain ⟨state, hstate, rfl⟩ := Option.map_eq_some_iff.mp h
    rw [swapLoop_mono hstate hle]
    rfl

theorem amountOutWithState_mono {outcome : Except String (ℕ × V3Snapshot)}
    (h : amountOutWithState math pool zeroForOne fuel amount = some outcome) (hle : fuel ≤ fuel') :
    amountOutWithState math pool zeroForOne fuel' amount = some outcome := by
  unfold amountOutWithState at h ⊢
  split_ifs at h ⊢ with hzero
  · exact h
  · obtain ⟨state, hstate, rfl⟩ := Option.map_eq_some_iff.mp h
    rw [swapLoop_mono hstate hle]
    rfl

theorem vicOut_mono (h : vicOut math pool zeroForOne fuel victimAmountIn amount = some (.ok out))
    (hle : fuel ≤ fuel') :
    vicOut math pool zeroForOne fuel' victimAmountIn amount = some (.ok out) := by
  obtain ⟨frontrun, hfront, hvictim⟩ := andThen_eq_ok.mp h
  exact andThen_eq_ok.mpr
    ⟨frontrun, amountOutWithState_mono hfront hle, amountOut_mono hvictim hle⟩

theorem lt_of_checkSwap {checked : ℤ × ℤ} (h : checkSwap pool amount = .ok checked) :
    amount < 2 ^ 255 := by
  unfold checkSwap at h
  split_ifs at h
  cases hpips : pool.feePips with
  | none =>
      rw [hpips] at h
      cases h
  | some feePips =>
      rw [hpips] at h
      obtain ⟨value, hvalue, -⟩ := bind_eq_ok.mp h
      unfold toI256 at hvalue
      split_ifs at hvalue with hmem
      exact_mod_cast hmem.2

theorem lt_of_swapLoop {state : LoopState}
    (h : swapLoop math pool zeroForOne fuel amount = some (.ok state)) : amount < 2 ^ 255 := by
  unfold swapLoop at h
  cases hcheck : checkSwap pool amount with
  | error report =>
      rw [hcheck] at h
      cases h
  | ok checked => exact lt_of_checkSwap hcheck

theorem map_eq_ok {α β : Type} {f : α → β} {outcome : Except String α} {b : β}
    (h : outcome.map f = .ok b) : ∃ a, outcome = .ok a := by
  cases outcome with
  | error report => cases h
  | ok a => exact ⟨a, rfl⟩

/-- A victim whose output is known has an input that is positive and fits. -/
theorem amountOut_bounds (h : amountOut math pool zeroForOne fuel amount = some (.ok out)) :
    0 < amount ∧ amount < 2 ^ 255 := by
  unfold amountOut at h
  split_ifs at h with hzero
  · cases h
  · obtain ⟨outcome, hloop, hmap⟩ := Option.map_eq_some_iff.mp h
    obtain ⟨state, rfl⟩ := map_eq_ok hmap
    exact ⟨Nat.pos_of_ne_zero hzero, lt_of_swapLoop hloop⟩

theorem lt_of_vicOut
    (h : vicOut math pool zeroForOne fuel victimAmountIn amount = some (.ok out)) :
    amount < 2 ^ 255 := by
  obtain ⟨frontrun, hfront, -⟩ := andThen_eq_ok.mp h
  unfold amountOutWithState at hfront
  split_ifs at hfront with hzero
  · rw [hzero]
    exact Nat.two_pow_pos 255
  · obtain ⟨outcome, hloop, hmap⟩ := Option.map_eq_some_iff.mp hfront
    obtain ⟨state, rfl⟩ := map_eq_ok hmap
    exact lt_of_swapLoop hloop

/-- Without a frontrun the victim swaps on the pool itself. -/
theorem vicOut_zero : vicOut math pool zeroForOne fuel victimAmountIn 0 =
    amountOut math pool zeroForOne fuel victimAmountIn := by
  rw [vicOut, amountOutWithState, if_pos rfl]
  rfl

end Budget

/-! ## What the victim gets -/

section Search

variable (math : UniswapV3Math) (pool : V3Snapshot) (zeroForOne : Bool)
  (victimAmountIn victimMinOut : ℕ)

/-- The output of the victim after a frontrun, where both swaps succeed. -/
def VictimGets (amount out : ℕ) : Prop :=
  ∃ fuel, vicOut math pool zeroForOne fuel victimAmountIn amount = some (.ok out)

/-- A frontrun that the victim survives. -/
def Admits (amount : ℕ) : Prop :=
  ∃ out, VictimGets math pool zeroForOne victimAmountIn amount out ∧ victimMinOut ≤ out

/-- The search range ends at the first doubling of the victim's input that leaves no more than
the minimum, and at the 32nd at the latest. There is none when already the baseline is no
more than the minimum. -/
structure RangeEnd (hi : ℕ) : Prop where
  above : ∃ baseline, VictimGets math pool zeroForOne victimAmountIn 0 baseline ∧
    victimMinOut < baseline
  doubled : ∃ k ≤ 32, hi = victimAmountIn * 2 ^ k ∧
    (∀ j < k, ∃ out, VictimGets math pool zeroForOne victimAmountIn (victimAmountIn * 2 ^ j) out ∧
      victimMinOut < out) ∧
    (k < 32 → ∃ out, VictimGets math pool zeroForOne victimAmountIn hi out ∧ out ≤ victimMinOut)

/-- The output of the victim does not increase inside the search range. -/
def NonIncreasing : Prop :=
  ∀ hi, RangeEnd math pool zeroForOne victimAmountIn victimMinOut hi → ∀ a b out out',
    a ≤ b → b ≤ hi → VictimGets math pool zeroForOne victimAmountIn a out →
      VictimGets math pool zeroForOne victimAmountIn b out' → out' ≤ out

/-- The victim survives `amount`, and no larger frontrun of the search range. -/
structure Largest (amount : ℕ) : Prop where
  admits : Admits math pool zeroForOne victimAmountIn victimMinOut amount
  tight : ∀ hi, RangeEnd math pool zeroForOne victimAmountIn victimMinOut hi → ∀ b out,
    amount < b → b ≤ hi → VictimGets math pool zeroForOne victimAmountIn b out →
      out < victimMinOut

/-- The lower end of the interval that is left after `rounds` halvings towards `t`; the sum of
the ends wraps. -/
def halvings : ℕ → ℕ → ℕ → ℕ → ℕ
  | 0, lo, _, _ => lo
  | rounds + 1, lo, hi, t =>
      if hi - lo ≤ 1 then lo
      else
        let mid := (lo + hi) % 2 ^ 256 / 2
        if mid ≤ t then halvings rounds mid hi t else halvings rounds lo mid t

/-- The halvings isolate every number below the upper end, if there are enough of them. -/
theorem halvings_eq_iff {rounds lo hi t : ℕ} (hlo : lo < hi) (ht : lo ≤ t)
    (hwidth : hi - lo ≤ 2 ^ rounds) (hfits : hi + hi ≤ 2 ^ 256) :
    halvings rounds lo hi t = t ↔ t < hi := by
  induction rounds generalizing lo hi with
  | zero =>
      rw [halvings]
      rw [pow_zero] at hwidth
      omega
  | succ rounds ih =>
      rw [halvings]
      by_cases hclose : hi - lo ≤ 1
      · rw [if_pos hclose]
        omega
      · have hmod : (lo + hi) % 2 ^ 256 = lo + hi := Nat.mod_eq_of_lt (by omega)
        rw [if_neg hclose, hmod]
        rw [pow_succ] at hwidth
        dsimp only
        by_cases hmid : (lo + hi) / 2 ≤ t
        · rw [if_pos hmid]
          exact ih (by omega) hmid (by omega) hfits
        · rw [if_neg hmid, ih (by omega) ht (by omega) (by omega)]
          omega

end Search

section Run

variable {math : UniswapV3Math} {pool : V3Snapshot} {zeroForOne : Bool}
  {victimAmountIn victimMinOut : ℕ}

theorem VictimGets.unique {amount out out' : ℕ}
    (h : VictimGets math pool zeroForOne victimAmountIn amount out)
    (h' : VictimGets math pool zeroForOne victimAmountIn amount out') : out = out' := by
  obtain ⟨n, hn⟩ := h
  obtain ⟨m, hm⟩ := h'
  have hboth := (vicOut_mono hn (Nat.le_max_left n m)).symm.trans
    (vicOut_mono hm (Nat.le_max_right n m))
  exact Except.ok.inj (Option.some.inj hboth)

theorem VictimGets.lt {amount out : ℕ}
    (h : VictimGets math pool zeroForOne victimAmountIn amount out) : amount < 2 ^ 255 := by
  obtain ⟨fuel, hfuel⟩ := h
  exact lt_of_vicOut hfuel

theorem RangeEnd.unique {hi hi' : ℕ}
    (h : RangeEnd math pool zeroForOne victimAmountIn victimMinOut hi)
    (h' : RangeEnd math pool zeroForOne victimAmountIn victimMinOut hi') : hi = hi' := by
  obtain ⟨k, hk, rfl, hbefore, hlast⟩ := h.doubled
  obtain ⟨k', hk', rfl, hbefore', hlast'⟩ := h'.doubled
  rcases lt_trichotomy k k' with hlt | rfl | hlt
  · obtain ⟨out, hout, hgt⟩ := hbefore' k hlt
    obtain ⟨out', hout', hle⟩ := hlast (by omega)
    rw [hout.unique hout'] at hgt
    omega
  · rfl
  · obtain ⟨out, hout, hgt⟩ := hbefore k' hlt
    obtain ⟨out', hout', hle⟩ := hlast' (by omega)
    rw [hout.unique hout'] at hgt
    omega

theorem RangeEnd.pos {hi : ℕ}
    (h : RangeEnd math pool zeroForOne victimAmountIn victimMinOut hi) : 0 < hi := by
  obtain ⟨baseline, ⟨fuel, hbaseline⟩, -⟩ := h.above
  rw [vicOut_zero] at hbaseline
  obtain ⟨k, -, rfl, -⟩ := h.doubled
  exact Nat.mul_pos (amountOut_bounds hbaseline).1 (Nat.two_pow_pos k)

/-! ## The two phases -/

theorem doubling_spec {fuel rounds hi result : ℕ}
    (h : doubling math pool zeroForOne fuel victimAmountIn victimMinOut rounds hi =
      some (.ok result)) :
    ∃ k ≤ rounds, result = hi * 2 ^ k ∧
      (∀ j < k, ∃ out, VictimGets math pool zeroForOne victimAmountIn (hi * 2 ^ j) out ∧
        victimMinOut < out) ∧
      (k < rounds → ∃ out, VictimGets math pool zeroForOne victimAmountIn result out ∧
        out ≤ victimMinOut) := by
  induction rounds generalizing hi with
  | zero =>
      rw [doubling] at h
      cases h
      exact ⟨0, le_rfl, by simp, by simp, by simp⟩
  | succ rounds ih =>
      rw [doubling] at h
      obtain ⟨out, hout, hrest⟩ := andThen_eq_ok.mp h
      by_cases hle : out ≤ victimMinOut
      · rw [if_pos hle] at hrest
        cases hrest
        exact ⟨0, Nat.zero_le _, by simp, by simp, fun _ => ⟨out, ⟨fuel, hout⟩, hle⟩⟩
      · rw [if_neg hle] at hrest
        have hlt := lt_of_vicOut hout
        rw [Nat.mod_eq_of_lt (by omega)] at hrest
        obtain ⟨k, hk, hresult, hbefore, hlast⟩ := ih hrest
        refine ⟨k + 1, by omega, by rw [hresult, pow_succ]; ring, ?_, fun hk' => hlast (by omega)⟩
        intro j hj
        cases j with
        | zero => exact ⟨out, ⟨fuel, by simpa using hout⟩, by omega⟩
        | succ j =>
            obtain ⟨out', hout', hgt⟩ := hbefore j (by omega)
            refine ⟨out', ?_, hgt⟩
            rwa [pow_succ', ← mul_assoc]

/-- The bisection follows the halvings towards the largest frontrun of the range. -/
theorem bisection_eq {fuel rounds lo hi top t result : ℕ} (htop : top < 2 ^ 256)
    (ht : Admits math pool zeroForOne victimAmountIn victimMinOut t) (htle : t ≤ top)
    (hmax : ∀ b ≤ top, Admits math pool zeroForOne victimAmountIn victimMinOut b → b ≤ t)
    (hmono : ∀ a b out out', a ≤ b → b ≤ top →
      VictimGets math pool zeroForOne victimAmountIn a out →
        VictimGets math pool zeroForOne victimAmountIn b out' → out' ≤ out)
    (hlo : lo ≤ t) (hlt : lo < hi) (hhi : hi ≤ top)
    (hadmits : Admits math pool zeroForOne victimAmountIn victimMinOut lo)
    (h : bisection math pool zeroForOne fuel victimAmountIn victimMinOut rounds lo hi =
      some (.ok result)) :
    result = halvings rounds lo hi t ∧ result ≤ t ∧
      Admits math pool zeroForOne victimAmountIn victimMinOut result := by
  induction rounds generalizing lo hi with
  | zero =>
      rw [bisection] at h
      cases h
      exact ⟨rfl, hlo, hadmits⟩
  | succ rounds ih =>
      rw [bisection] at h
      have hsub : (hi + 2 ^ 256 - lo) % 2 ^ 256 = hi - lo := by
        rw [Nat.sub_add_comm hlt.le, Nat.add_mod_right, Nat.mod_eq_of_lt (by omega)]
      rw [hsub] at h
      rw [halvings]
      by_cases hclose : hi - lo ≤ 1
      · rw [if_pos hclose] at h ⊢
        cases h
        exact ⟨rfl, hlo, hadmits⟩
      · rw [if_neg hclose] at h ⊢
        dsimp only at h ⊢
        have hmid : (lo + hi) % 2 ^ 256 / 2 < hi := by
          have hle := Nat.mod_le (lo + hi) (2 ^ 256)
          omega
        generalize (lo + hi) % 2 ^ 256 / 2 = mid at h hmid ⊢
        obtain ⟨out, hout, hrest⟩ := andThen_eq_ok.mp h
        have hgets : VictimGets math pool zeroForOne victimAmountIn mid out := ⟨fuel, hout⟩
        by_cases hge : victimMinOut ≤ out
        · have hadmitted : Admits math pool zeroForOne victimAmountIn victimMinOut mid :=
            ⟨out, hgets, hge⟩
          have hle := hmax mid (by omega) hadmitted
          rw [if_pos hge] at hrest
          rw [if_pos hle]
          exact ih hle hmid hhi hadmitted hrest
        · have hgt : ¬mid ≤ t := by
            intro hle
            obtain ⟨out', hout', hge'⟩ := ht
            have hdrop := hmono mid t out out' hle htle hgets hout'
            omega
          rw [if_neg hge] at hrest
          rw [if_neg hgt]
          exact ih hlo (by omega) (by omega) hadmits hrest

/-- The largest frontrun of a range that holds one. -/
theorem exists_greatest {top : ℕ} (h : Admits math pool zeroForOne victimAmountIn victimMinOut 0) :
    ∃ t, IsGreatest {b | b ≤ top ∧ Admits math pool zeroForOne victimAmountIn victimMinOut b} t := by
  set admitted := {b | b ≤ top ∧ Admits math pool zeroForOne victimAmountIn victimMinOut b}
  have hne : admitted.Nonempty := ⟨0, Nat.zero_le _, h⟩
  have hbound : BddAbove admitted := ⟨top, fun b hb => hb.1⟩
  exact ⟨sSup admitted, Nat.sSup_mem hne hbound, fun b hb => le_csSup hbound hb⟩

/-- What a successful call has done: no search, or both phases. -/
theorem v3SandwichMaxSize_cases {fuel a : ℕ}
    (h : v3SandwichMaxSize math pool zeroForOne fuel victimAmountIn victimMinOut =
      some (.ok a)) :
    ∃ baseline, VictimGets math pool zeroForOne victimAmountIn 0 baseline ∧
      ((baseline ≤ victimMinOut ∧ a = 0) ∨
        (victimMinOut < baseline ∧ ∃ hi, hi < 2 ^ 256 ∧
          RangeEnd math pool zeroForOne victimAmountIn victimMinOut hi ∧
          bisection math pool zeroForOne fuel victimAmountIn victimMinOut 64 0 hi =
            some (.ok a))) := by
  obtain ⟨baseline, hbaseline, hsearch⟩ := andThen_eq_ok.mp h
  have hgets : VictimGets math pool zeroForOne victimAmountIn 0 baseline :=
    ⟨fuel, vicOut_zero.trans hbaseline⟩
  have hlt := (amountOut_bounds hbaseline).2
  refine ⟨baseline, hgets, ?_⟩
  by_cases hle : baseline ≤ victimMinOut
  · rw [if_pos hle] at hsearch
    cases hsearch
    exact .inl ⟨hle, rfl⟩
  · rw [if_neg hle] at hsearch
    obtain ⟨hi, hdoubling, hbisection⟩ := andThen_eq_ok.mp hsearch
    obtain ⟨k, hk, hhi, hbefore, hlast⟩ := doubling_spec hdoubling
    have hfits : hi < 2 ^ 256 := by
      cases k with
      | zero =>
          rw [hhi, pow_zero, mul_one]
          omega
      | succ j =>
          obtain ⟨out, hout, -⟩ := hbefore j j.lt_succ_self
          have hhalf := hout.lt
          rw [hhi, pow_succ, ← mul_assoc]
          omega
    exact .inr ⟨not_le.mp hle, hi, hfits,
      ⟨⟨baseline, hgets, not_le.mp hle⟩, k, hk, hhi, hbefore, hlast⟩, hbisection⟩

theorem largest_iff {a : ℕ}
    (hmono : NonIncreasing math pool zeroForOne victimAmountIn victimMinOut)
    (hreturns : ∃ fuel, v3SandwichMaxSize math pool zeroForOne fuel victimAmountIn victimMinOut =
      some (.ok a)) :
    Largest math pool zeroForOne victimAmountIn victimMinOut a ↔
      Admits math pool zeroForOne victimAmountIn victimMinOut 0 ∧
        ∀ hi t, RangeEnd math pool zeroForOne victimAmountIn victimMinOut hi →
          IsGreatest {b | b ≤ hi ∧ Admits math pool zeroForOne victimAmountIn victimMinOut b} t →
            halvings 64 0 hi t = t := by
  obtain ⟨fuel, hreturns⟩ := hreturns
  obtain ⟨baseline, hbaseline, hcases⟩ := v3SandwichMaxSize_cases hreturns
  rcases hcases with ⟨hle, rfl⟩ | ⟨hgt, hi, hfits, hrange, hbisection⟩
  · -- no range at all
    have hnone : ∀ hi, ¬RangeEnd math pool zeroForOne victimAmountIn victimMinOut hi := by
      intro hi hrange
      obtain ⟨baseline', hbaseline', hgt⟩ := hrange.above
      rw [hbaseline'.unique hbaseline] at hgt
      omega
    constructor
    · intro hlargest
      exact ⟨hlargest.admits, fun hi t hrange _ => absurd hrange (hnone hi)⟩
    · intro hcond
      exact ⟨hcond.1, fun hi hrange => absurd hrange (hnone hi)⟩
  · have hzero : Admits math pool zeroForOne victimAmountIn victimMinOut 0 :=
      ⟨baseline, hbaseline, hgt.le⟩
    have hexists : ∃ t, IsGreatest
        {b | b ≤ hi ∧ Admits math pool zeroForOne victimAmountIn victimMinOut b} t :=
      exists_greatest hzero
    have hfound : ∀ t, IsGreatest
        {b | b ≤ hi ∧ Admits math pool zeroForOne victimAmountIn victimMinOut b} t →
        a = halvings 64 0 hi t ∧ a ≤ t ∧
          Admits math pool zeroForOne victimAmountIn victimMinOut a := by
      intro t ht
      exact bisection_eq hfits ht.1.2 ht.1.1 (fun b hb hadmits => ht.2 ⟨hb, hadmits⟩)
        (hmono hi hrange) (Nat.zero_le _) hrange.pos le_rfl hzero hbisection
    constructor
    · intro hlargest
      refine ⟨hzero, ?_⟩
      intro hi' t hrange' ht
      obtain rfl := hrange.unique hrange'
      obtain ⟨heq, hle, -⟩ := hfound t ht
      rw [← heq]
      by_contra hne
      obtain ⟨out, hout, hge⟩ := ht.1.2
      have hbelow := hlargest.tight hi hrange t out (by omega) ht.1.1 hout
      omega
    · intro hcond
      obtain ⟨t, ht⟩ := hexists
      obtain ⟨heq, -, hadmits⟩ := hfound t ht
      rw [hcond.2 hi t hrange ht] at heq
      subst heq
      refine ⟨hadmits, ?_⟩
      intro hi' hrange' b out hlt hb hout
      obtain rfl := hrange.unique hrange'
      by_contra hge
      have hle := ht.2 ⟨hb, out, hout, not_lt.mp hge⟩
      omega

/-- The returned size is the largest one if and only if the victim survives without a frontrun
and, where there is a search, 64 halvings isolate the largest frontrun of the range. In a range
up to `2 ^ 64` they isolate every size but its end. -/
theorem v3SandwichMaxSize_largest_iff {a : ℕ}
    (hmono : NonIncreasing math pool zeroForOne victimAmountIn victimMinOut)
    (hreturns : ∃ fuel, v3SandwichMaxSize math pool zeroForOne fuel victimAmountIn victimMinOut =
      some (.ok a)) :
    (Largest math pool zeroForOne victimAmountIn victimMinOut a ↔
      Admits math pool zeroForOne victimAmountIn victimMinOut 0 ∧
        ∀ hi t, RangeEnd math pool zeroForOne victimAmountIn victimMinOut hi →
          IsGreatest {b | b ≤ hi ∧ Admits math pool zeroForOne victimAmountIn victimMinOut b} t →
            halvings 64 0 hi t = t) ∧
      ∀ hi t, RangeEnd math pool zeroForOne victimAmountIn victimMinOut hi → hi ≤ 2 ^ 64 →
        (halvings 64 0 hi t = t ↔ t < hi) := by
  refine ⟨largest_iff hmono hreturns, ?_⟩
  intro hi t hrange hle
  exact halvings_eq_iff hrange.pos (Nat.zero_le _) hle (by omega)

end Run

/-! ## Sample pools -/

/-- A pool with a liquidity of 100 and no ticks. -/
def thinPool : V3Snapshot where
  sqrtPriceX96 := 2 ^ 96
  liquidity := 100
  tick := 0
  feeBps := 30
  tickSpacing := 60
  tickBitmap := ∅
  tickNetLiquidity := ∅

/-- A pool whose price has fallen to the limit. -/
def exhaustedPool : V3Snapshot :=
  { thinPool with sqrtPriceX96 := 4295128739 + 1, tick := -887272 }

/-- The outputs of a victim of 10 after the frontruns from 0 to 10. -/
theorem thinPool_outs : ∀ amount ≤ 10, vicOut portMath thinPool true 5 10 amount =
    some (.ok (if amount < 3 then 8 else if amount < 10 then 7 else 6)) := by
  decide +kernel

theorem thinPool_gets {amount out : ℕ} (hle : amount ≤ 10)
    (h : VictimGets portMath thinPool true 10 amount out) :
    out = if amount < 3 then 8 else if amount < 10 then 7 else 6 :=
  h.unique ⟨5, thinPool_outs amount hle⟩

/-- With a minimum of 6 or 7 the first phase ends at the victim's own input. -/
theorem thinPool_rangeEnd {victimMinOut : ℕ} (hlow : 6 ≤ victimMinOut) (hhigh : victimMinOut < 8) :
    RangeEnd portMath thinPool true 10 victimMinOut 10 where
  above := ⟨8, ⟨5, thinPool_outs 0 (by decide)⟩, hhigh⟩
  doubled := ⟨0, by decide, rfl, by simp, fun _ => ⟨6, ⟨5, thinPool_outs 10 le_rfl⟩, hlow⟩⟩

theorem thinPool_nonIncreasing {victimMinOut : ℕ} (hlow : 6 ≤ victimMinOut)
    (hhigh : victimMinOut < 8) : NonIncreasing portMath thinPool true 10 victimMinOut := by
  intro hi hrange a b out out' hab hb hout hout'
  obtain rfl := hrange.unique (thinPool_rangeEnd hlow hhigh)
  rw [thinPool_gets (hab.trans hb) hout, thinPool_gets hb hout']
  split_ifs <;> omega

/-- With a minimum of 7 the search finds the largest frontrun, which is 9. -/
theorem v3SandwichMaxSize_largest_iff_thin :
    v3SandwichMaxSize portMath thinPool true 5 10 7 = some (.ok 9) ∧
      (Largest portMath thinPool true 10 7 9 ↔
        Admits portMath thinPool true 10 7 0 ∧
          ∀ hi t, RangeEnd portMath thinPool true 10 7 hi →
            IsGreatest {b | b ≤ hi ∧ Admits portMath thinPool true 10 7 b} t →
              halvings 64 0 hi t = t) ∧
      ∀ hi t, RangeEnd portMath thinPool true 10 7 hi → hi ≤ 2 ^ 64 →
        (halvings 64 0 hi t = t ↔ t < hi) := by
  have hruns : v3SandwichMaxSize portMath thinPool true 5 10 7 = some (.ok 9) := by
    decide +kernel
  exact ⟨hruns, v3SandwichMaxSize_largest_iff
    (thinPool_nonIncreasing (by decide) (by decide)) ⟨5, hruns⟩⟩

theorem exhaustedPool_vicOut {amount : ℕ} (hlt : amount < 2 ^ 255) :
    vicOut portMath exhaustedPool true 1 10 amount = some (.ok 0) := by
  have hvictim : amountOut portMath exhaustedPool true 1 10 = some (.ok 0) := by decide
  by_cases hzero : amount = 0
  · rw [hzero, vicOut_zero]
    exact hvictim
  · have hcheck : checkSwap exhaustedPool amount = .ok (3000, (amount : ℤ)) :=
      checkSwap_eq (by decide) (by decide) rfl hlt
    have hloop : swapLoop portMath exhaustedPool true 1 amount =
        some (.ok ⟨4295128740, -887272, 100, amount, 0⟩) := by
      rw [swapLoop, hcheck]
      exact whileLoop_exit 0 (by simp [guard, sqrtPriceLimit, exhaustedPool])
    apply andThen_eq_ok.mpr
    refine ⟨(0, exhaustedPool), ?_, hvictim⟩
    rw [amountOutWithState, if_neg hzero, hloop]
    rfl

/-- A frontrun of 10 leaves exactly 6, and with a minimum of 6 the search returns 9; without
liquidity and with a minimum of 1 it returns 0, where the victim gets nothing. -/
theorem v3SandwichMaxSize_not_largest :
    (v3SandwichMaxSize portMath thinPool true 5 10 6 = some (.ok 9) ∧
      NonIncreasing portMath thinPool true 10 6 ∧ ¬Largest portMath thinPool true 10 6 9) ∧
    (v3SandwichMaxSize portMath exhaustedPool true 1 10 1 = some (.ok 0) ∧
      (∀ a b out out', VictimGets portMath exhaustedPool true 10 a out →
        VictimGets portMath exhaustedPool true 10 b out' → out' ≤ out) ∧
      ¬Largest portMath exhaustedPool true 10 1 0) := by
  have hout : ∀ a out, VictimGets portMath exhaustedPool true 10 a out → out = 0 :=
    fun a out hgets => hgets.unique ⟨1, exhaustedPool_vicOut hgets.lt⟩
  refine ⟨⟨by decide +kernel, thinPool_nonIncreasing (by decide) (by decide), ?_⟩,
    ⟨by decide, ?_, ?_⟩⟩
  · intro hlargest
    have hbelow := hlargest.tight 10 (thinPool_rangeEnd (by decide) (by decide)) 10 6 (by decide)
      le_rfl ⟨5, thinPool_outs 10 le_rfl⟩
    omega
  · intro a b out out' hgets hgets'
    rw [hout a out hgets, hout b out' hgets']
  · intro hlargest
    obtain ⟨out, hgets, hge⟩ := hlargest.admits
    rw [hout 0 out hgets] at hge
    omega

end Degenbot.V3Simulation
