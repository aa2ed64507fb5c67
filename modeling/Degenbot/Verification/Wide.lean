import Degenbot.Algorithm.Wide
import Degenbot.Library.Outcome
import Degenbot.Library.Rounding
import Mathlib.Tactic

/-! # What the wide helpers return -/

namespace Degenbot.Wide

open Library

theorem toNat_widen {w : ℕ} (hw : w ≤ 512) (value : BitVec w) :
    (widen value).toNat = value.toNat := by
  rw [widen, BitVec.toNat_setWidth]
  exact Nat.mod_eq_of_lt (lt_of_lt_of_le value.isLt (Nat.pow_le_pow_right Nat.zero_lt_two hw))

@[simp] theorem toNat_widen_u256 (value : U256) : (widen value).toNat = value.toNat :=
  toNat_widen (by decide) value

@[simp] theorem toNat_widen_u64 (value : BitVec 64) : (widen value).toNat = value.toNat :=
  toNat_widen (by decide) value

theorem toNat_ofNat {w n : ℕ} (h : n < 2 ^ w) : (BitVec.ofNat w n).toNat = n := by
  rw [BitVec.toNat_ofNat, Nat.mod_eq_of_lt h]

theorem toNat_pos {w : ℕ} {a : BitVec w} (h : a ≠ 0) : 0 < a.toNat := by
  apply Nat.pos_of_ne_zero
  intro hzero
  exact h (BitVec.eq_of_toNat_eq (by simpa using hzero))

theorem ne_zero_of_toNat_pos {w : ℕ} {a : BitVec w} (h : 0 < a.toNat) : a ≠ 0 := by
  rintro rfl
  simp at h

theorem lt_wide {n w : ℕ} (hn : n < 2 ^ w) (hw : w ≤ 512) : n < 2 ^ 512 :=
  hn.trans_le (Nat.pow_le_pow_right Nat.zero_lt_two hw)

/-- A product of wide numbers is exact if it fits. -/
theorem toNat_mul_of_fits {w : ℕ} {a b : BitVec w} (h : a.toNat * b.toNat < 2 ^ w) :
    (a * b).toNat = a.toNat * b.toNat := by
  rw [BitVec.toNat_mul, Nat.mod_eq_of_lt h]

theorem toNat_add_of_fits {w : ℕ} {a b : BitVec w} (h : a.toNat + b.toNat < 2 ^ w) :
    (a + b).toNat = a.toNat + b.toNat := by
  rw [BitVec.toNat_add, Nat.mod_eq_of_lt h]

theorem toNat_widen_mul (a b : U256) : (widen a * widen b).toNat = a.toNat * b.toNat := by
  have hlt : a.toNat * b.toNat < 2 ^ 256 * 2 ^ 256 := Nat.mul_lt_mul'' a.isLt b.isLt
  rw [toNat_mul_of_fits, toNat_widen_u256, toNat_widen_u256]
  rwa [toNat_widen_u256, toNat_widen_u256, show 512 = 256 + 256 from rfl, pow_add]

section Values

variable {w m n : ℕ} {a b : BitVec w} (ha : a.toNat = m) (hb : b.toNat = n)

include ha hb

theorem toNat_mul_eq (h : m * n < 2 ^ w) : (a * b).toNat = m * n := by
  rw [← ha, ← hb] at h ⊢
  exact toNat_mul_of_fits h

theorem toNat_add_eq (h : m + n < 2 ^ w) : (a + b).toNat = m + n := by
  rw [← ha, ← hb] at h ⊢
  exact toNat_add_of_fits h

theorem toNat_div_eq : (a / b).toNat = m / n := by
  rw [BitVec.toNat_udiv, ha, hb]

end Values

/-! ## Checked operations -/

theorem okOrElse_eq_ok {α : Type} {value : Option α} {report : String} {a : α} :
    okOrElse value report = .ok a ↔ value = some a := by
  cases value with
  | none => simp [okOrElse]
  | some b => simp [okOrElse]

theorem checkedMul_eq_some {w : ℕ} {a b c : BitVec w} :
    checkedMul a b = some c ↔ a.toNat * b.toNat < 2 ^ w ∧ c.toNat = a.toNat * b.toNat := by
  unfold checkedMul
  constructor
  · intro h
    obtain ⟨hfits, hc⟩ := Option.ite_none_right_eq_some.mp h
    rw [← Option.some.inj hc]
    exact ⟨hfits, toNat_mul_of_fits hfits⟩
  · rintro ⟨hfits, hc⟩
    rw [if_pos hfits]
    exact congrArg some (BitVec.eq_of_toNat_eq ((toNat_mul_of_fits hfits).trans hc.symm))

theorem checkedAdd_eq_some {w : ℕ} {a b c : BitVec w} :
    checkedAdd a b = some c ↔ a.toNat + b.toNat < 2 ^ w ∧ c.toNat = a.toNat + b.toNat := by
  unfold checkedAdd
  constructor
  · intro h
    obtain ⟨hfits, hc⟩ := Option.ite_none_right_eq_some.mp h
    rw [← Option.some.inj hc]
    exact ⟨hfits, toNat_add_of_fits hfits⟩
  · rintro ⟨hfits, hc⟩
    rw [if_pos hfits]
    exact congrArg some (BitVec.eq_of_toNat_eq ((toNat_add_of_fits hfits).trans hc.symm))

section Chain

variable {w : ℕ} {α : Type} {a b : BitVec w} {report : String} {next : BitVec w → Except String α}
  {r : α}

theorem okOrElse_checkedMul_bind : (okOrElse (checkedMul a b) report >>= next) = .ok r ↔
    a.toNat * b.toNat < 2 ^ w ∧ next (a * b) = .ok r := by
  unfold checkedMul
  split_ifs with hfits
  · exact (and_iff_right hfits).symm
  · exact iff_of_false (fun h => by cases h) fun h => hfits h.1

theorem okOrElse_checkedAdd_bind : (okOrElse (checkedAdd a b) report >>= next) = .ok r ↔
    a.toNat + b.toNat < 2 ^ w ∧ next (a + b) = .ok r := by
  unfold checkedAdd
  split_ifs with hfits
  · exact (and_iff_right hfits).symm
  · exact iff_of_false (fun h => by cases h) fun h => hfits h.1

theorem okOrElse_checkedSub_bind : (okOrElse (checkedSub a b) report >>= next) = .ok r ↔
    b ≤ a ∧ next (a - b) = .ok r := by
  unfold checkedSub
  split_ifs with hfits
  · exact (and_iff_right hfits).symm
  · exact iff_of_false (fun h => by cases h) fun h => hfits h.1

end Chain

theorem narrowU512_eq_ok {value : U512} {error : String} {y : U256} :
    narrowU512 value error = .ok y ↔ y.toNat = value.toNat := by
  unfold narrowU512
  split_ifs with hfits
  · rw [Except.ok.injEq, ← BitVec.toNat_inj, BitVec.toNat_setWidth, Nat.mod_eq_of_lt hfits]
    exact eq_comm
  · constructor
    · intro h
      cases h
    · intro h
      exact absurd (h ▸ y.isLt) hfits

theorem mulDiv_eq_ok {a b denom y : U256} :
    mulDiv a b denom = .ok y ↔
      denom ≠ 0 ∧ y.toNat = a.toNat * b.toNat / denom.toNat := by
  unfold mulDiv
  split_ifs with hzero
  · simp [hzero]
  · rw [narrowU512_eq_ok, BitVec.toNat_udiv, toNat_widen_mul, toNat_widen_u256]
    exact (and_iff_right hzero).symm

/-! ## The square root -/

section Root

variable {w : ℕ}

theorem toNat_half (n : BitVec w) : (n >>> 1).toNat = n.toNat / 2 := by
  rw [BitVec.toNat_ushiftRight, Nat.shiftRight_one]

theorem newton_fits (hw : 5 ≤ w) {n x : BitVec w} (hroot : n.toNat.sqrt ≤ x.toNat)
    (hhalf : x.toNat ≤ n.toNat / 2 + 1) : x.toNat + (n / x).toNat < 2 ^ w := by
  have hsmall : 24 < 2 ^ w := (show 24 < 2 ^ 5 by decide).trans_le
    (Nat.pow_le_pow_right Nat.zero_lt_two hw)
  rw [BitVec.toNat_udiv]
  exact (newton_sum_le hroot hhalf).trans_lt (max_lt n.isLt hsmall)

theorem toNat_newton (hw : 5 ≤ w) {n x : BitVec w} (hroot : n.toNat.sqrt ≤ x.toNat)
    (hhalf : x.toNat ≤ n.toNat / 2 + 1) :
    ((x + n / x) >>> 1).toNat = (x.toNat + n.toNat / x.toNat) / 2 := by
  rw [toNat_half, toNat_add_of_fits (newton_fits hw hroot hhalf), BitVec.toNat_udiv]

theorem toNat_isqrtLoop (hw : 5 ≤ w) {n x : BitVec w} (hn : 0 < n.toNat)
    (hroot : n.toNat.sqrt ≤ x.toNat) (hhalf : x.toNat ≤ n.toNat / 2 + 1) :
    (isqrtLoop n x).toNat = n.toNat.sqrt := by
  have hx : 0 < x.toNat := (Nat.sqrt_pos.mpr hn).trans_le hroot
  have hnewton := toNat_newton hw hroot hhalf
  induction x using isqrtLoop.induct n with
  | case1 x y hlt ih =>
      have hy : y.toNat < x.toNat := BitVec.lt_def.mp hlt
      have hroot' : n.toNat.sqrt ≤ y.toNat := (sqrt_le_newton _ hx).trans_eq hnewton.symm
      have hhalf' : y.toNat ≤ n.toNat / 2 + 1 := hy.le.trans hhalf
      rw [isqrtLoop, if_pos hlt]
      exact ih hroot' hhalf' ((Nat.sqrt_pos.mpr hn).trans_le hroot')
        (toNat_newton hw hroot' hhalf')
  | case2 x y hstop =>
      have hy : x.toNat ≤ y.toNat := Nat.le_of_not_lt fun h => hstop (BitVec.lt_def.mpr h)
      rw [isqrtLoop, if_neg hstop]
      exact eq_sqrt_of_le_newton hroot (hy.trans_eq hnewton)

/-- The start `n / 2 + 1` does not wrap and is not below the root. -/
theorem newton_start (hw : 5 ≤ w) {n : BitVec w} (hn : 0 < n.toNat) :
    (n >>> 1).toNat + 1 < 2 ^ w ∧ n.toNat.sqrt ≤ ((n >>> 1) + 1).toNat ∧
      ((n >>> 1) + 1).toNat ≤ n.toNat / 2 + 1 := by
  have hone : (1 : BitVec w).toNat = 1 := toNat_ofNat (Nat.one_lt_two_pow (by omega))
  have hfits : (n >>> 1).toNat + 1 < 2 ^ w := by
    rw [toNat_half]
    have hlt := n.isLt
    have htwo : 2 ^ 1 < 2 ^ w := Nat.pow_lt_pow_right Nat.one_lt_two (by omega)
    omega
  have hstart : ((n >>> 1) + 1).toNat = n.toNat / 2 + 1 := by
    rw [toNat_add_of_fits (by rwa [hone]), toNat_half, hone]
  have hroot : n.toNat.sqrt < n.toNat / 2 + 2 := by
    rw [Nat.sqrt_lt]
    have hdiv : n.toNat < 2 * (n.toNat / 2) + 2 := by omega
    nlinarith
  exact ⟨hfits, (Nat.lt_succ_iff.mp hroot).trans_eq hstart.symm, hstart.le⟩

theorem toNat_isqrtLoop_start (hw : 5 ≤ w) {n : BitVec w} (hzero : n ≠ 0) :
    (isqrtLoop n ((n >>> 1) + 1)).toNat = n.toNat.sqrt := by
  have hn : 0 < n.toNat := toNat_pos hzero
  obtain ⟨-, hroot, hhalf⟩ := newton_start hw hn
  exact toNat_isqrtLoop hw hn hroot hhalf

theorem newton_fits_of_fits {n x : BitVec w} (hn : 0 < n.toNat) (hroot : n.toNat.sqrt ≤ x.toNat)
    (hfits : x.toNat + n.toNat.sqrt + 2 < 2 ^ w) : x.toNat + (n / x).toNat < 2 ^ w := by
  have hquotient : n.toNat / x.toNat ≤ n.toNat.sqrt + 2 := by
    refine (Nat.div_le_div_left hroot (Nat.sqrt_pos.mpr hn)).trans (Nat.div_le_of_le_mul ?_)
    have hlt := Nat.sqrt_le_add n.toNat
    nlinarith
  rw [BitVec.toNat_udiv]
  omega

theorem toNat_newton_of_fits {n x : BitVec w} (hn : 0 < n.toNat) (hroot : n.toNat.sqrt ≤ x.toNat)
    (hfits : x.toNat + n.toNat.sqrt + 2 < 2 ^ w) :
    ((x + n / x) >>> 1).toNat = (x.toNat + n.toNat / x.toNat) / 2 := by
  rw [toNat_half, toNat_add_of_fits (newton_fits_of_fits hn hroot hfits), BitVec.toNat_udiv]

/-- Any start from the root up is good as long as its sums fit. -/
theorem toNat_isqrtLoop_of_fits {n x : BitVec w} (hn : 0 < n.toNat) (hroot : n.toNat.sqrt ≤ x.toNat)
    (hfits : x.toNat + n.toNat.sqrt + 2 < 2 ^ w) : (isqrtLoop n x).toNat = n.toNat.sqrt := by
  induction x using isqrtLoop.induct n with
  | case1 x y hlt ih =>
      have hnewton := toNat_newton_of_fits hn hroot hfits
      have hy : y.toNat < x.toNat := BitVec.lt_def.mp hlt
      have hpos : 0 < x.toNat := (Nat.sqrt_pos.mpr hn).trans_le hroot
      have hroot' : n.toNat.sqrt ≤ y.toNat := (sqrt_le_newton _ hpos).trans_eq hnewton.symm
      rw [isqrtLoop, if_pos hlt]
      exact ih hroot' (by omega)
  | case2 x y hstop =>
      have hnewton := toNat_newton_of_fits hn hroot hfits
      have hy : x.toNat ≤ y.toNat := Nat.le_of_not_lt fun h => hstop (BitVec.lt_def.mpr h)
      rw [isqrtLoop, if_neg hstop]
      exact eq_sqrt_of_le_newton hroot (hy.trans_eq hnewton)

/-- The loop from `x` ends after finitely many passes and leaves `r`; no pass divides by zero
and no sum wraps. -/
inductive Returns (n : BitVec w) : BitVec w → BitVec w → Prop where
  | stop {x : BitVec w} (hne : x ≠ 0) (hfits : x.toNat + (n / x).toNat < 2 ^ w)
      (hle : ¬(x + n / x) >>> 1 < x) : Returns n x x
  | again {x r : BitVec w} (hne : x ≠ 0) (hfits : x.toNat + (n / x).toNat < 2 ^ w)
      (hlt : (x + n / x) >>> 1 < x) (hrest : Returns n ((x + n / x) >>> 1) r) : Returns n x r

theorem returns_of_invariant {P : BitVec w → Prop} {n x : BitVec w}
    (hsafe : ∀ x, P x → x ≠ 0 ∧ x.toNat + (n / x).toNat < 2 ^ w)
    (hstep : ∀ x, P x → (x + n / x) >>> 1 < x → P ((x + n / x) >>> 1)) (hx : P x) :
    Returns n x (isqrtLoop n x) := by
  induction x using isqrtLoop.induct n with
  | case1 x y hlt ih =>
      obtain ⟨hne, hfits⟩ := hsafe x hx
      rw [isqrtLoop, if_pos hlt]
      exact .again hne hfits hlt (ih (hstep x hx hlt))
  | case2 x y hle =>
      obtain ⟨hne, hfits⟩ := hsafe x hx
      rw [isqrtLoop, if_neg hle]
      exact .stop hne hfits hle

theorem ne_zero_of_sqrt_le {n x : BitVec w} (hn : 0 < n.toNat) (hroot : n.toNat.sqrt ≤ x.toNat) :
    x ≠ 0 :=
  ne_zero_of_toNat_pos ((Nat.sqrt_pos.mpr hn).trans_le hroot)

theorem returns_start (hw : 5 ≤ w) {n : BitVec w} (hzero : n ≠ 0) :
    (n >>> 1).toNat + 1 < 2 ^ w ∧
      Returns n ((n >>> 1) + 1) (isqrtLoop n ((n >>> 1) + 1)) := by
  have hn : 0 < n.toNat := toNat_pos hzero
  obtain ⟨hfits, hroot, hhalf⟩ := newton_start hw hn
  refine ⟨hfits, ?_⟩
  refine returns_of_invariant (P := fun x => n.toNat.sqrt ≤ x.toNat ∧ x.toNat ≤ n.toNat / 2 + 1)
    ?_ ?_ ⟨hroot, hhalf⟩
  · rintro x ⟨hroot, hhalf⟩
    exact ⟨ne_zero_of_sqrt_le hn hroot, newton_fits hw hroot hhalf⟩
  · rintro x ⟨hroot, hhalf⟩ hlt
    have hpos : 0 < x.toNat := (Nat.sqrt_pos.mpr hn).trans_le hroot
    have hnewton := toNat_newton hw hroot hhalf
    exact ⟨(sqrt_le_newton _ hpos).trans_eq hnewton.symm,
      (BitVec.lt_def.mp hlt).le.trans hhalf⟩

theorem returns_of_fits {n x : BitVec w} (hn : 0 < n.toNat) (hroot : n.toNat.sqrt ≤ x.toNat)
    (hfits : x.toNat + n.toNat.sqrt + 2 < 2 ^ w) : Returns n x (isqrtLoop n x) := by
  refine returns_of_invariant
    (P := fun x => n.toNat.sqrt ≤ x.toNat ∧ x.toNat + n.toNat.sqrt + 2 < 2 ^ w) ?_ ?_
    ⟨hroot, hfits⟩
  · rintro x ⟨hroot, hfits⟩
    exact ⟨ne_zero_of_sqrt_le hn hroot, newton_fits_of_fits hn hroot hfits⟩
  · rintro x ⟨hroot, hfits⟩ hlt
    have hpos : 0 < x.toNat := (Nat.sqrt_pos.mpr hn).trans_le hroot
    have hnewton := toNat_newton_of_fits hn hroot hfits
    have hy := BitVec.lt_def.mp hlt
    exact ⟨(sqrt_le_newton _ hpos).trans_eq hnewton.symm, by omega⟩

theorem toNat_isqrt (n : U256) : (isqrt n).toNat = n.toNat.sqrt := by
  unfold isqrt
  split_ifs with hzero
  · simp [hzero]
  · exact toNat_isqrtLoop_start (by decide) hzero

theorem toNat_isqrtU512 (n : U512) : (isqrtU512 n).toNat = n.toNat.sqrt := by
  unfold isqrtU512
  split_ifs with hzero
  · simp [hzero]
  · exact toNat_isqrtLoop_start (by decide) hzero

/-- `r` is the floor root of `n`. -/
def IsFloorRoot (n r : ℕ) : Prop := r ^ 2 ≤ n ∧ n < (r + 1) ^ 2

theorem isFloorRoot_sqrt (n : ℕ) : IsFloorRoot n n.sqrt :=
  ⟨Nat.sqrt_le' n, Nat.lt_succ_sqrt' n⟩

/-- Both roots: the start fits, the loop ends without a wrap, and the result is the floor
root. -/
theorem isqrt_isFloorRoot :
    (∀ n : U256, (n = 0 ∨ ((n >>> 1).toNat + 1 < 2 ^ 256 ∧
        Returns n ((n >>> 1) + 1) (isqrt n))) ∧ IsFloorRoot n.toNat (isqrt n).toNat) ∧
      ∀ n : U512, (n = 0 ∨ ((n >>> 1).toNat + 1 < 2 ^ 512 ∧
        Returns n ((n >>> 1) + 1) (isqrtU512 n))) ∧ IsFloorRoot n.toNat (isqrtU512 n).toNat := by
  constructor
  · intro n
    refine ⟨?_, by rw [toNat_isqrt]; exact isFloorRoot_sqrt _⟩
    by_cases hzero : n = 0
    · exact .inl hzero
    · rw [isqrt, if_neg hzero]
      exact .inr (returns_start (by decide) hzero)
  · intro n
    refine ⟨?_, by rw [toNat_isqrtU512]; exact isFloorRoot_sqrt _⟩
    by_cases hzero : n = 0
    · exact .inl hzero
    · rw [isqrtU512, if_neg hzero]
      exact .inr (returns_start (by decide) hzero)

end Root

end Degenbot.Wide
