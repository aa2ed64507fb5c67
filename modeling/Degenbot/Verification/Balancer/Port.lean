import Degenbot.Verification.Balancer.BelowOne

/-! # Where the port of the weighted math agrees with truncating division -/

namespace Degenbot.WeightedMath

open Library LogExpMath

/-! ## Fixed point -/

theorem mulUp_eq {a b : ℤ} (ha : 0 ≤ a) (hb : 0 ≤ b) : mulUp solidity a b = mulUp python a b := by
  unfold mulUp
  dsimp only
  by_cases hzero : a * b = 0
  · rw [if_pos hzero, if_pos hzero]
  · have hpos : 0 ≤ a * b - 1 := by
      have := mul_nonneg ha hb
      omega
    rw [quotient_eq hpos (by decide)]

theorem divUp_eq {a b : ℤ} (ha : 0 ≤ a) (hb : 0 ≤ b) : divUp solidity a b = divUp python a b := by
  unfold divUp
  by_cases hzero : a = 0
  · rw [if_pos hzero, if_pos hzero]
  · have hpos : 0 ≤ a * one - 1 := by
      have hone : one = 10 ^ 18 := rfl
      rw [hone]
      omega
    rw [quotient_eq hpos hb]

theorem divDown_eq_ok {a b : ℕ} {r : ℤ} (h : divDown python a b = .ok r) :
    b ≠ 0 ∧ a * 10 ^ 18 < 2 ^ 256 ∧ r = ((a * 10 ^ 18 / b : ℕ) : ℤ) := by
  have hone : one = 10 ^ 18 := rfl
  have hmax : maxUint256 = 2 ^ 256 - 1 := rfl
  unfold divDown at h
  rw [ite_error_eq_ok] at h
  obtain ⟨hb, h⟩ := h
  refine ⟨by simpa using hb, ?_⟩
  by_cases hzero : a = 0
  · subst hzero
    rw [if_pos (by simp)] at h
    exact ⟨by norm_num, by simpa using (Except.ok.inj h).symm⟩
  · rw [if_neg (by simpa using hzero), ite_error_eq_ok, hone, hmax] at h
    refine ⟨by omega, ?_⟩
    rw [← Except.ok.inj h.2]
    change ((a : ℤ) * 10 ^ 18).fdiv b = _
    rw [Int.fdiv_eq_ediv_of_nonneg _ (by positivity)]
    push_cast
    rfl

end Degenbot.WeightedMath
