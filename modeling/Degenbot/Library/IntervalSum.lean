import Mathlib.Algebra.BigOperators.Finsupp.Basic
import Mathlib.Algebra.Order.BigOperators.Group.Finset
import Mathlib.Algebra.Order.Group.Defs
import Mathlib.Algebra.Order.Group.Unbundled.Abs
import Mathlib.Tactic.Abel

/-! # Weighted half-open intervals

A finitely supported weight on intervals, its sums at the endpoints, and the weight over
a point. The weight over a point is the sum of the endpoint differences before it. -/

namespace Degenbot.Library

open Finset

variable {α M : Type*} [LinearOrder α] [AddCommGroup M]

section Sums

/-- The weights of the intervals with endpoint `t`. -/
noncomputable def endpointGross (w : α × α →₀ M) (t : α) : M :=
  w.sum fun r m => if t = r.1 ∨ t = r.2 then m else 0

/-- The weights that start at `t` less the weights that end there. -/
noncomputable def endpointNet (w : α × α →₀ M) (t : α) : M :=
  w.sum fun r m => (if t = r.1 then m else 0) - if t = r.2 then m else 0

/-- The weight over the point `x`. -/
noncomputable def weightOver (w : α × α →₀ M) (x : α) : M :=
  w.sum fun r m => if r.1 ≤ x ∧ x < r.2 then m else 0

variable (w : α × α →₀ M) (r : α × α) (m : M) (t : α)

theorem endpointGross_add_single : endpointGross (w + Finsupp.single r m) t =
    endpointGross w t + if t = r.1 ∨ t = r.2 then m else 0 := by
  unfold endpointGross
  rw [Finsupp.sum_add_index', Finsupp.sum_single_index] <;> intros <;> split_ifs <;> simp

theorem endpointNet_add_single : endpointNet (w + Finsupp.single r m) t =
    endpointNet w t + ((if t = r.1 then m else 0) - if t = r.2 then m else 0) := by
  unfold endpointNet
  rw [Finsupp.sum_add_index', Finsupp.sum_single_index]
  · simp
  · simp
  · intros
    split_ifs <;> abel

theorem weightOver_add_single : weightOver (w + Finsupp.single r m) t =
    weightOver w t + if r.1 ≤ t ∧ t < r.2 then m else 0 := by
  unfold weightOver
  rw [Finsupp.sum_add_index', Finsupp.sum_single_index] <;> intros <;> split_ifs <;> simp

end Sums

/-! ## Prefix sums of the differences -/

section PrefixSums

variable {w : α × α →₀ M} {S : Finset α}

/-- The weight over a point is the sum of the differences at or before it. -/
theorem sum_endpointNet_le (hS : ∀ r ∈ w.support, r.1 ∈ S ∧ r.2 ∈ S)
    (hlt : ∀ r ∈ w.support, r.1 < r.2) (x : α) :
    ∑ t ∈ S with t ≤ x, endpointNet w t = weightOver w x := by
  unfold endpointNet weightOver Finsupp.sum
  rw [sum_comm]
  refine sum_congr rfl fun r hr => ?_
  obtain ⟨hlower, hupper⟩ := hS r hr
  rw [sum_sub_distrib, sum_ite_eq', sum_ite_eq']
  simp only [mem_filter, hlower, hupper, true_and]
  have hlt := hlt r hr
  by_cases hle : r.2 ≤ x
  · simp [hle, hlt.le.trans hle, not_lt.mpr hle]
  · simp [hle, not_le.mp hle]

theorem sum_endpointNet_eq_zero (hS : ∀ r ∈ w.support, r.1 ∈ S ∧ r.2 ∈ S) :
    ∑ t ∈ S, endpointNet w t = 0 := by
  unfold endpointNet Finsupp.sum
  rw [sum_comm]
  refine sum_eq_zero fun r hr => ?_
  obtain ⟨hlower, hupper⟩ := hS r hr
  rw [sum_sub_distrib, sum_ite_eq', sum_ite_eq', if_pos hlower, if_pos hupper, sub_self]

end PrefixSums

/-! ## Nonnegative weights -/

section Nonneg

variable [LinearOrder M] [IsOrderedAddMonoid M] {w : α × α →₀ M}

/-- The difference at a point is bounded by the weights at it. -/
theorem abs_endpointNet_le (hw : ∀ r, 0 ≤ w r) (hne : ∀ r ∈ w.support, r.1 ≠ r.2) (t : α) :
    |endpointNet w t| ≤ endpointGross w t := by
  unfold endpointNet endpointGross Finsupp.sum
  refine (abs_sum_le_sum_abs _ _).trans (sum_le_sum fun r hr => ?_)
  have hnn := hw r
  have hne := hne r hr
  by_cases hlower : t = r.1
  · subst hlower
    simp [hne, abs_of_nonneg hnn]
  · by_cases hupper : t = r.2
    · subst hupper
      simp [hlower, abs_of_nonneg hnn]
    · simp [hlower, hupper]

/-- An interval with weight has weight at both its endpoints. -/
theorem endpointGross_pos (hw : ∀ r, 0 ≤ w r) {r : α × α} (hr : r ∈ w.support) {t : α}
    (ht : t = r.1 ∨ t = r.2) : 0 < endpointGross w t := by
  unfold endpointGross Finsupp.sum
  refine sum_pos' (fun r' _ => ?_) ⟨r, hr, ?_⟩
  · dsimp only
    split_ifs
    · exact hw r'
    · exact le_rfl
  · dsimp only
    rw [if_pos ht]
    exact lt_of_le_of_ne (hw r) (Finsupp.mem_support_iff.mp hr).symm

end Nonneg

end Degenbot.Library
