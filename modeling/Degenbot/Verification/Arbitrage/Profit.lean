import Degenbot.Algorithm.LpCycle
import Degenbot.Library.Outcome
import Mathlib.Tactic

/-! # The profit objective and the swap amounts of a cycle

After a failed swap the objective still holds the output of the swap before it, an amount of
another token. -/

namespace Degenbot.UniswapLpCycle

open Library

/-- What the pools of a cycle do with an amount: failures are reverts or errors of the pool,
nothing is paid out for nothing, and outputs are not negative. -/
structure Quotes.Sound (quotes : Quotes) : Prop where
  failure : ∀ pool token amount e, quotes pool token amount = .error e → e.isSwapFailure = true
  zero : ∀ pool token out, quotes pool token 0 ≠ .ok out
  nonneg : ∀ pool token amount out, quotes pool token amount = .ok out → 0 ≤ out

/-- The constructor refuses other classes of pools. -/
def Named (pools : List LiquidityPool) : Prop :=
  ∀ pool ∈ pools, ∀ typeName typeRepr, pool.kind ≠ .other typeName typeRepr

/-- If a pool of the path fails at the amount it receives, the output of the swap before it;
`held` before the first swap. -/
def heldAtFailure (quotes : Quotes) : ℤ → ℤ → List LiquidityPool → List SwapVector → Option ℤ
  | held, amount, pool :: pools, vector :: vectors =>
      match quotes pool vector.tokenIn amount with
      | .error _ => some held
      | .ok quantity => heldAtFailure quotes quantity quantity pools vectors
  | _, _, _, _ => none

/-- The objective at `x` is the profit of the swap amounts, and not positive without them. -/
def AgreesAt (quotes : Quotes) (pools : List LiquidityPool) (vectors : List SwapVector) (x : ℤ) :
    Prop :=
  ∃ profit, arbProfit quotes x pools vectors = .ok profit ∧
    (∀ amounts, buildSwapAmounts quotes 0 x pools vectors = .ok amounts →
      ∃ final, amounts.getLast? = some final ∧ extractOutputAmount final x = .ok profit) ∧
    (∀ e, buildSwapAmounts quotes 0 x pools vectors = .error e → profit ≤ 0)

section Cons

variable {quotes : Quotes} {held amount quantity : ℤ} {pool : LiquidityPool}
  {pools : List LiquidityPool} {vector : SwapVector} {vectors : List SwapVector} {e : Exn}

theorem arbProfitLoop_error (hnamed : Named (pool :: pools))
    (hquote : quotes pool vector.tokenIn amount = .error e) :
    arbProfitLoop quotes held amount (pool :: pools) (vector :: vectors) = (held, some e) := by
  have hkind := hnamed pool List.mem_cons_self
  cases hk : pool.kind with
  | other typeName typeRepr => exact absurd hk (hkind typeName typeRepr)
  | _ => simp [arbProfitLoop, hk, hquote]

theorem arbProfitLoop_ok (hnamed : Named (pool :: pools))
    (hquote : quotes pool vector.tokenIn amount = .ok quantity) :
    arbProfitLoop quotes held amount (pool :: pools) (vector :: vectors) =
      arbProfitLoop quotes quantity quantity pools vectors := by
  have hkind := hnamed pool List.mem_cons_self
  cases hk : pool.kind with
  | other typeName typeRepr => exact absurd hk (hkind typeName typeRepr)
  | _ => simp [arbProfitLoop, hk, hquote]

theorem raiseArbitrageError_error (e : Exn) :
    ∃ e', raiseArbitrageError (.error e : Except Exn ℤ) = .error e' := by
  unfold raiseArbitrageError
  split <;> exact ⟨_, rfl⟩

@[simp] theorem raiseArbitrageError_ok (a : ℤ) :
    raiseArbitrageError (.ok a : Except Exn ℤ) = .ok a := rfl

/-- The amounts of a swap, by the class of its pool. -/
def hopAmount (pool : LiquidityPool) (vector : SwapVector) (amount quantity : ℤ) : SwapAmount :=
  match pool.kind with
  | .uniswapV3 | .aerodromeV3 => uniswapV3Amounts pool vector amount quantity
  | .uniswapV4 => uniswapV4Amounts pool vector amount quantity
  | _ => uniswapV2Amounts pool vector amount quantity

theorem buildSwapAmounts_named (hnamed : Named (pool :: pools)) (hamount : amount ≠ 0) :
    buildSwapAmounts quotes held amount (pool :: pools) (vector :: vectors) =
      (raiseArbitrageError (quotes pool vector.tokenIn amount) >>= fun quantity =>
        (hopAmount pool vector amount quantity).validate >>= fun amounts =>
          buildSwapAmounts quotes quantity quantity pools vectors >>= fun rest =>
            .ok (amounts :: rest)) := by
  have hkind := hnamed pool List.mem_cons_self
  rw [buildSwapAmounts, if_neg hamount]
  cases hk : pool.kind with
  | other typeName typeRepr => exact absurd hk (hkind typeName typeRepr)
  | _ => simp only [hopAmount, hk]

theorem extractOutputAmount_hopAmount (hquantity : 0 ≤ quantity) (x : ℤ) :
    extractOutputAmount (hopAmount pool vector amount quantity) x = .ok (quantity - x) := by
  have hv2 : extractOutputAmount (uniswapV2Amounts pool vector amount quantity) x =
      .ok (quantity - x) := by
    cases hzero : vector.zeroForOne <;>
      simp [extractOutputAmount, uniswapV2Amounts, hzero, hquantity]
  unfold hopAmount
  split
  · rfl
  · rfl
  · rfl
  · exact hv2

theorem eq_of_validate {amounts here : SwapAmount} (h : amounts.validate = .ok here) :
    here = amounts := by
  cases amounts <;> simp only [SwapAmount.validate, ite_error_eq_ok, Except.ok.injEq] at h <;>
    exact h.2.symm

/-- Only an output of zero from a V2 pool is refused. -/
theorem validate_hopAmount (hamount : amount ≠ 0) :
    (hopAmount pool vector amount quantity).validate = .ok (hopAmount pool vector amount quantity) ∨
      quantity = 0 := by
  by_cases hquantity : quantity = 0
  · exact .inr hquantity
  · left
    have hv2 : (uniswapV2Amounts pool vector amount quantity).validate =
        .ok (uniswapV2Amounts pool vector amount quantity) := by
      cases hzero : vector.zeroForOne <;>
        simp [SwapAmount.validate, uniswapV2Amounts, hzero, hamount, hquantity]
    unfold hopAmount
    split
    · simp [uniswapV3Amounts, SwapAmount.validate, hamount]
    · simp [uniswapV3Amounts, SwapAmount.validate, hamount]
    · simp [uniswapV4Amounts, SwapAmount.validate, hamount]
    · exact hv2

end Cons

/-! ## Paths -/

section Paths

variable {quotes : Quotes}

/-- When a pool fails, the objective holds what that pool received, and there are no swap
amounts. -/
theorem loop_of_failure (hsound : quotes.Sound) {pools : List LiquidityPool}
    {vectors : List SwapVector} {held amount atFailure : ℤ} (hnamed : Named pools)
    (hfails : heldAtFailure quotes held amount pools vectors = some atFailure) :
    (∃ e, arbProfitLoop quotes held amount pools vectors = (atFailure, some e) ∧
      e.isSwapFailure = true) ∧
      ∃ e, buildSwapAmounts quotes held amount pools vectors = .error e := by
  induction pools generalizing vectors held amount with
  | nil => simp [heldAtFailure] at hfails
  | cons pool pools ih =>
      cases vectors with
      | nil => simp [heldAtFailure] at hfails
      | cons vector vectors =>
          have hrest : Named pools := fun p hp => hnamed p (List.mem_cons_of_mem _ hp)
          rw [heldAtFailure] at hfails
          cases hquote : quotes pool vector.tokenIn amount with
          | error e =>
              simp only [hquote, Option.some.injEq] at hfails
              subst hfails
              refine ⟨⟨e, arbProfitLoop_error hnamed hquote, hsound.failure _ _ _ _ hquote⟩, ?_⟩
              by_cases hamount : amount = 0
              · exact ⟨_, by rw [buildSwapAmounts, if_pos hamount]⟩
              · obtain ⟨e', he'⟩ := raiseArbitrageError_error e
                exact ⟨e', by rw [buildSwapAmounts_named hnamed hamount, hquote, he', error_bind]⟩
          | ok quantity =>
              simp only [hquote] at hfails
              obtain ⟨hloop, e, hbuild⟩ := ih hrest hfails
              refine ⟨by rwa [arbProfitLoop_ok hnamed hquote], ?_⟩
              have hamount : amount ≠ 0 := by
                intro hzero
                exact hsound.zero pool vector.tokenIn quantity (hzero ▸ hquote)
              rw [buildSwapAmounts_named hnamed hamount, hquote, raiseArbitrageError_ok, ok_bind]
              cases (hopAmount pool vector amount quantity).validate with
              | error e' => exact ⟨e', rfl⟩
              | ok amounts => exact ⟨e, by rw [ok_bind, hbuild, error_bind]⟩

/-- An output of zero is the last one, as the next pool would refuse it. -/
theorem last_eq_zero (hsound : quotes.Sound) {pools : List LiquidityPool}
    {vectors : List SwapVector} {last : ℤ}
    (hloop : arbProfitLoop quotes 0 0 pools vectors = (last, none))
    (hfails : heldAtFailure quotes 0 0 pools vectors = none) : last = 0 := by
  cases pools with
  | nil =>
      cases vectors with
      | nil =>
          cases hloop
          rfl
      | cons vector vectors => simp [arbProfitLoop] at hloop
  | cons pool pools =>
      cases vectors with
      | nil => simp [arbProfitLoop] at hloop
      | cons vector vectors =>
          rw [heldAtFailure] at hfails
          cases hquote : quotes pool vector.tokenIn 0 with
          | error e => simp [hquote] at hfails
          | ok quantity => exact absurd hquote (hsound.zero _ _ _)

/-- When no pool fails, the objective holds the last output. The swap amounts end with it, or
it is zero. -/
theorem loop_of_success (hsound : quotes.Sound) {pools : List LiquidityPool}
    {vectors : List SwapVector} {held amount : ℤ} (hnamed : Named pools)
    (hlength : pools.length = vectors.length)
    (hfails : heldAtFailure quotes held amount pools vectors = none) :
    ∃ last, arbProfitLoop quotes held amount pools vectors = (last, none) ∧
      (∀ amounts, buildSwapAmounts quotes held amount pools vectors = .ok amounts →
        (pools = [] ∧ amounts = [] ∧ last = held) ∨ ∃ final, amounts.getLast? = some final ∧
          ∀ x, extractOutputAmount final x = .ok (last - x)) ∧
      (∀ e, buildSwapAmounts quotes held amount pools vectors = .error e → last = 0) := by
  induction pools generalizing vectors held amount with
  | nil =>
      cases vectors with
      | cons vector vectors => simp at hlength
      | nil =>
          refine ⟨held, rfl, fun amounts h => ?_, fun e h => by cases h⟩
          cases h
          exact .inl ⟨rfl, rfl, rfl⟩
  | cons pool pools ih =>
      cases vectors with
      | nil => simp at hlength
      | cons vector vectors =>
          have hrest : Named pools := fun p hp => hnamed p (List.mem_cons_of_mem _ hp)
          rw [heldAtFailure] at hfails
          cases hquote : quotes pool vector.tokenIn amount with
          | error e => simp [hquote] at hfails
          | ok quantity =>
              simp only [hquote] at hfails
              obtain ⟨last, hloop, hok, herror⟩ := ih hrest (by simpa using hlength) hfails
              have hamount : amount ≠ 0 := by
                intro hzero
                exact hsound.zero pool vector.tokenIn quantity (hzero ▸ hquote)
              refine ⟨last, by rwa [arbProfitLoop_ok hnamed hquote], ?_, ?_⟩
              all_goals
                rw [buildSwapAmounts_named hnamed hamount, hquote, raiseArbitrageError_ok, ok_bind]
              · intro amounts h
                obtain ⟨here, hhere, h⟩ := bind_eq_ok.mp h
                obtain ⟨rest, hbuild, h⟩ := bind_eq_ok.mp h
                cases h
                right
                rcases hok rest hbuild with ⟨-, rfl, rfl⟩ | ⟨final, hfinal, hextract⟩
                · refine ⟨here, rfl, fun x => ?_⟩
                  rw [eq_of_validate hhere]
                  exact extractOutputAmount_hopAmount (hsound.nonneg _ _ _ _ hquote) x
                · exact ⟨final, by rw [List.getLast?_cons, hfinal, Option.getD_some], hextract⟩
              · intro e h
                have hvalidate : (hopAmount pool vector amount quantity).validate =
                    .ok (hopAmount pool vector amount quantity) ∨ quantity = 0 :=
                  validate_hopAmount hamount
                rcases hvalidate with hvalid | hzero
                · rw [hvalid, ok_bind] at h
                  cases hbuild : buildSwapAmounts quotes quantity quantity pools vectors with
                  | error e' => exact herror e' hbuild
                  | ok rest =>
                      rw [hbuild] at h
                      cases h
                · exact last_eq_zero hsound (hzero ▸ hloop) (hzero ▸ hfails)

end Paths

/-- The objective agrees with the swap amounts exactly when no pool fails on more than the
input of the cycle. -/
theorem agreesAt_iff (quotes : Quotes) (pools : List LiquidityPool) (vectors : List SwapVector)
    (x : ℤ) (hsound : quotes.Sound) (hnamed : Named pools) (hpools : pools ≠ [])
    (hlength : pools.length = vectors.length) (hx : 0 ≤ x) :
    AgreesAt quotes pools vectors x ↔
      ∀ held, heldAtFailure quotes 0 x pools vectors = some held → held ≤ x := by
  cases hfails : heldAtFailure quotes 0 x pools vectors with
  | some held =>
      obtain ⟨⟨e, hloop, hfailure⟩, e', hbuild⟩ := loop_of_failure hsound hnamed hfails
      have hprofit : arbProfit quotes x pools vectors = .ok (held - x) := by
        simp [arbProfit, hloop, hfailure]
      constructor
      · rintro ⟨profit, harb, -, hnot⟩ held' hheld'
        cases hheld'
        rw [hprofit] at harb
        cases harb
        have hle := hnot e' hbuild
        omega
      · intro h
        refine ⟨held - x, hprofit, fun amounts hok => ?_, fun _ _ => ?_⟩
        · rw [hbuild] at hok
          cases hok
        · have hle := h held rfl
          omega
  | none =>
      obtain ⟨last, hloop, hok, herror⟩ := loop_of_success hsound hnamed hlength hfails
      have hprofit : arbProfit quotes x pools vectors = .ok (last - x) := by
        simp [arbProfit, hloop]
      refine ⟨?_, fun _ => ⟨last - x, hprofit, ?_, ?_⟩⟩
      · intro _ held hheld
        cases hheld
      · intro amounts hbuild
        rcases hok amounts hbuild with ⟨hnil, -⟩ | ⟨final, hfinal, hextract⟩
        · exact absurd hnil hpools
        · exact ⟨final, hfinal, hextract x⟩
      · intro e hbuild
        have hzero := herror e hbuild
        omega

/-! ## A pool that fails -/

def sampleToken (address : ℕ) : Erc20Token := ⟨address, 1, "T", 18⟩

def samplePool (kind : PoolKind) (address : ℕ) : LiquidityPool :=
  ⟨kind, address, none, 1, sampleToken 10, sampleToken 11, rfl, rfl⟩

/-- Pool 1 pays five for one, and pool 2 has no liquidity. -/
def sampleQuotes : Quotes := fun pool _ amount =>
  if amount ≤ 0 then .error .invalidSwapInputAmount
  else if pool.address = 1 then .ok (5 * amount)
  else .error (.incompleteSwap 0 0)

theorem sampleQuotes_sound : sampleQuotes.Sound where
  failure := by
    intro pool token amount e h
    unfold sampleQuotes at h
    split at h
    · cases h
      rfl
    · split at h
      · cases h
      · cases h
        rfl
  zero := by
    intro pool token out h
    simp [sampleQuotes] at h
  nonneg := by
    intro pool token amount out h
    unfold sampleQuotes at h
    split at h
    · cases h
    · split at h
      · cases h
        omega
      · cases h

def sampleVectors : List SwapVector :=
  [⟨sampleToken 10, sampleToken 11, true⟩, ⟨sampleToken 11, sampleToken 10, false⟩]

theorem samplePools_named (kind kind' : PoolKind) (address address' : ℕ)
    (hkind : kind = .uniswapV2 ∨ kind = .uniswapV3) (hkind' : kind' = .uniswapV2 ∨ kind' = .uniswapV3) :
    Named [samplePool kind address, samplePool kind' address'] := by
  intro pool hpool typeName typeRepr
  rcases List.mem_pair.mp hpool with rfl | rfl
  · rcases hkind with rfl | rfl <;> simp [samplePool]
  · rcases hkind' with rfl | rfl <;> simp [samplePool]

theorem agreesAt_first_fails :
    AgreesAt sampleQuotes [samplePool .uniswapV3 2, samplePool .uniswapV2 1] sampleVectors 10 := by
  refine (agreesAt_iff sampleQuotes _ sampleVectors 10 sampleQuotes_sound
    (samplePools_named _ _ _ _ (.inr rfl) (.inl rfl)) (by simp) rfl (by decide)).mpr ?_
  intro held hheld
  cases hheld
  decide

/-- One token in, five of the next one, and the second pool fails: a profit of four. -/
theorem second_fails_positive :
    sampleQuotes.Sound ∧ Named [samplePool .uniswapV2 1, samplePool .uniswapV3 2] ∧
      ¬AgreesAt sampleQuotes [samplePool .uniswapV2 1, samplePool .uniswapV3 2] sampleVectors 1 := by
  refine ⟨sampleQuotes_sound, samplePools_named _ _ _ _ (.inl rfl) (.inr rfl), ?_⟩
  rintro ⟨profit, harb, -, hnot⟩
  have hprofit : profit = 4 := by
    cases harb
    rfl
  have hle := hnot _ rfl
  omega

end Degenbot.UniswapLpCycle
