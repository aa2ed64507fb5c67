import Degenbot.Verification.Balancer.Truncation

/-! # Powers of numbers below one

Below one the logarithm is negative and, but for rounding, never a whole number, so that the two
divisions give exponents that differ by one. -/

namespace Degenbot.LogExpMath

open Library

/-! ## No logarithm is a whole number -/

def margin (k : ℕ) : ℕ := if k < 4 then 8 else 2
end Degenbot.LogExpMath
