import Degenbot.Verification.Balancer.DirectedPower

/-! # Division that truncates instead of rounding down

Both divisions agree while nothing is negative: in `exp`, in `_ln`, and in `_ln_36` and `pow` for
arguments that are not below one. -/

namespace Degenbot.LogExpMath

open Library

/-! ## Quotients -/

theorem quotient_eq {a b : ℤ} (ha : 0 ≤ a) (hb : 0 ≤ b) :
    solidity.quotient a b = python.quotient a b := by
  change a.tdiv b = a.fdiv b
  rw [Int.tdiv_eq_ediv_of_nonneg ha, Int.fdiv_eq_ediv_of_nonneg a hb]

end Degenbot.LogExpMath
