import Degenbot.Algorithm.CyclePayloads
import Degenbot.Library.Outcome

/-! # Payloads and the swaps they make -/

/-! ## Executing the payloads of a cycle

A ledger of who holds what, and the effect of each call on it. A swap is made only when its
input is in place: received by a V2 pool, held by the sender for a V3 or Curve pool. The
pool then pays its stated output to the recipient that the call names. -/

namespace Degenbot

/-! ## Legs and ledgers -/

/-- The stated input and output of one swap. The input of a prepaid swap is received by the
pool before the call. -/
structure Leg where
  address : ℕ
  prepaid : Bool
  tokenIn : ℕ
  amountIn : ℤ
  tokenOut : ℕ
  amountOut : ℤ
deriving DecidableEq

/-- The account that has the input of a swap when its call is made. -/
def Leg.payer (leg : Leg) (fromAddress : ℕ) : ℕ :=
  if leg.prepaid then leg.address else fromAddress

/-- What each account holds of each token; for a V2 pool, what it has received. -/
abbrev Ledger := ℕ → ℕ → ℤ

def Ledger.add (ledger : Ledger) (account token : ℕ) (amount : ℤ) : Ledger :=
  fun account' token' =>
    if account' = account ∧ token' = token then ledger account' token' + amount
    else ledger account' token'

def Ledger.move (ledger : Ledger) (account token : ℕ) (amount : ℤ) (account' token' : ℕ)
    (amount' : ℤ) : Ledger :=
  (ledger.add account token (-amount)).add account' token' amount'

/-! ## The effect of a call -/

/-- The next swap of the path, by a call to an address. The call states the amounts. -/
def swapNext (fromAddress recipient address : ℕ) (prepaid : Bool) (states : Leg → Bool) :
    Ledger × List Leg → Option (Ledger × List Leg)
  | (_, []) => none
  | (ledger, leg :: legs) =>
      if leg.address = address ∧ leg.prepaid = prepaid ∧ states leg ∧
          leg.amountIn ≤ ledger (leg.payer fromAddress) leg.tokenIn then
        some (ledger.move (leg.payer fromAddress) leg.tokenIn leg.amountIn recipient leg.tokenOut
          leg.amountOut, legs)
      else none

/-- A call by the sender, with the swaps that are still to be made. -/
def execute (fromAddress : ℕ) (state : Ledger × List Leg) :
    Payload → Option (Ledger × List Leg)
  | .call token (.transfer recipient amount) _ =>
      if amount ≤ state.1 fromAddress token then
        some (state.1.move fromAddress token amount recipient token amount, state.2)
      else none
  | .call _ (.approve _ _) _ => some state
  | .call pool (.swapV2 amount0Out amount1Out recipient) _ =>
      swapNext fromAddress recipient pool true (fun leg => amount0Out + amount1Out = leg.amountOut)
        state
  | .call pool (.swapV3 recipient _ amountSpecified _) _ =>
      swapNext fromAddress recipient pool false (fun leg => amountSpecified = leg.amountIn) state
  | .call pool (.exchange _ _ dx minDy) _ | .call pool (.exchangeUnderlying _ _ dx minDy) _ =>
      swapNext fromAddress fromAddress pool false
        (fun leg => dx = leg.amountIn ∧ minDy = leg.amountOut) state
  | .v4PoolKey _ _ => none

/-- The address of a swap call. -/
def Payload.swapAddress : Payload → Option ℕ
  | .call pool (.swapV2 ..) _ | .call pool (.swapV3 ..) _ | .call pool (.exchange ..) _
  | .call pool (.exchangeUnderlying ..) _ => some pool
  | _ => none

/-- The addresses of the swap calls, in order. -/
def swapAddresses (payloads : List Payload) : List ℕ := payloads.filterMap Payload.swapAddress

/-! ## Funds along a path -/

/-- An account holds an amount of a token, and nobody owes anything. -/
def Funded (ledger : Ledger) (account token : ℕ) (amount : ℤ) : Prop :=
  ∀ account' token', (if account' = account ∧ token' = token then amount else 0) ≤
    ledger account' token'

section Funds

variable {ledger : Ledger} {account token account' token' : ℕ} {amount amount' : ℤ}

theorem Funded.le (h : Funded ledger account token amount) : amount ≤ ledger account token := by
  simpa using h account token

theorem Funded.move (h : Funded ledger account token amount) (hamount : 0 ≤ amount') :
    Funded (ledger.move account token amount account' token' amount') account' token' amount' := by
  intro a t
  have hat := h a t
  unfold Ledger.move Ledger.add
  split_ifs at hat ⊢ <;> omega

end Funds

/-- The payloads of one pool make its swap, and leave the output where it is needed next. -/
structure HopRuns (fromAddress holder next : ℕ) (leg : Leg) (payloads : List Payload) : Prop where
  swaps : swapAddresses payloads = [leg.address]
  runs : ∀ ledger legs, Funded ledger holder leg.tokenIn leg.amountIn →
    ∃ ledger', payloads.foldlM (execute fromAddress) (ledger, leg :: legs) = some (ledger', legs) ∧
      Funded ledger' next leg.tokenOut leg.amountOut

/-- The payloads of a path make its swaps, each once and in order. -/
structure PathRuns (fromAddress holder token : ℕ) (amount : ℤ) (legs : List Leg)
    (payloads : List Payload) : Prop where
  swaps : swapAddresses payloads = legs.map Leg.address
  runs : ∀ ledger, Funded ledger holder token amount →
    ∃ ledger', payloads.foldlM (execute fromAddress) (ledger, legs) = some (ledger', [])

section Path

variable {fromAddress holder next : ℕ} {leg : Leg} {legs : List Leg} {here later : List Payload}

theorem PathRuns.nil {token : ℕ} {amount : ℤ} :
    PathRuns fromAddress holder token amount [] [] :=
  ⟨rfl, fun ledger _ => ⟨ledger, rfl⟩⟩

theorem PathRuns.cons (hhere : HopRuns fromAddress holder next leg here)
    (hlater : PathRuns fromAddress next leg.tokenOut leg.amountOut legs later) :
    PathRuns fromAddress holder leg.tokenIn leg.amountIn (leg :: legs) (here ++ later) := by
  refine ⟨?_, fun ledger hfunded => ?_⟩
  · rw [swapAddresses, List.filterMap_append]
    exact congrArg₂ (· ++ ·) hhere.swaps hlater.swaps
  · obtain ⟨middle, hmiddle, hnext⟩ := hhere.runs ledger legs hfunded
    obtain ⟨ledger', hledger'⟩ := hlater.runs middle hnext
    refine ⟨ledger', ?_⟩
    rw [List.foldlM_append, hmiddle]
    exact hledger'

/-! ## The payloads of one pool -/

/-- A swap call on its own. -/
theorem hopRuns_call {payload : Payload} (leg : Leg) (states : Leg → Bool)
    (hexecute : ∀ state, execute fromAddress state payload =
      swapNext fromAddress next leg.address leg.prepaid states state)
    (haddress : payload.swapAddress = some leg.address) (hstates : states leg = true)
    (hout : 0 ≤ leg.amountOut) :
    HopRuns fromAddress (leg.payer fromAddress) next leg [payload] := by
  refine ⟨?_, fun ledger legs hfunded => ?_⟩
  · rw [swapAddresses, List.filterMap_cons, haddress]
    rfl
  · refine ⟨_, ?_, hfunded.move hout⟩
    rw [List.foldlM_cons, hexecute, swapNext, if_pos ⟨rfl, rfl, hstates, hfunded.le⟩]
    rfl

/-- The sender transfers the input before the swap. -/
theorem HopRuns.transfer_first {account : ℕ} {payloads : List Payload}
    (h : HopRuns fromAddress account next leg payloads) (hin : 0 ≤ leg.amountIn) :
    HopRuns fromAddress fromAddress next leg
      (.call leg.tokenIn (.transfer account leg.amountIn) 0 :: payloads) := by
  refine ⟨h.swaps, fun ledger legs hfunded => ?_⟩
  rw [List.foldlM_cons, execute, if_pos hfunded.le]
  exact h.runs _ legs (hfunded.move hin)

/-- The sender transfers the output after the swap. -/
theorem HopRuns.transfer_last {account : ℕ} {payloads : List Payload}
    (h : HopRuns fromAddress holder fromAddress leg payloads) (hout : 0 ≤ leg.amountOut) :
    HopRuns fromAddress holder account leg
      (payloads ++ [.call leg.tokenOut (.transfer account leg.amountOut) 0]) := by
  refine ⟨?_, fun ledger legs hfunded => ?_⟩
  · rw [swapAddresses, List.filterMap_append]
    exact (congrArg (· ++ []) h.swaps).trans (List.append_nil _)
  · obtain ⟨middle, hmiddle, hnext⟩ := h.runs ledger legs hfunded
    refine ⟨_, ?_, hnext.move hout⟩
    rw [List.foldlM_append, hmiddle]
    simp only [Option.bind_eq_bind, Option.bind_some, List.foldlM_cons, List.foldlM_nil, execute,
      if_pos hnext.le]
    rfl

theorem HopRuns.approve_first {token spender : ℕ} {amount : ℤ} {payloads : List Payload}
    (h : HopRuns fromAddress holder next leg payloads) :
    HopRuns fromAddress holder next leg (.call token (.approve spender amount) 0 :: payloads) :=
  ⟨h.swaps, h.runs⟩

end Path

/-! ## The swaps that a path states

The stated input and output of each swap, the law that the payloads of a cycle obey, and
the swap calls of V2 and V3 pools. -/

open Library

/-! ## Stated legs -/

/-- The amounts are in the ranges of the calls that state them. -/
def SwapAmount.InRange : SwapAmount → Prop
  | .uniswapV2 _ amountsIn amountsOut => isUint256 amountsIn.1 ∧ isUint256 amountsIn.2 ∧
      isUint256 amountsOut.1 ∧ isUint256 amountsOut.2
  | .uniswapV3 _ amountIn amountOut amountSpecified _ _
  | .uniswapV4 _ _ amountIn amountOut amountSpecified _ _ =>
      isUint256 amountIn ∧ isUint256 amountOut ∧ isInt256 amountSpecified
  | .curve _ tokenInIndex _ tokenOutIndex amountIn minAmountOut _ =>
      isInt128 tokenInIndex ∧ isInt128 tokenOutIndex ∧ isUint256 amountIn ∧ isUint256 minAmountOut

def LiquidityPool.leg (pool : LiquidityPool) : SwapAmount → Option Leg
  | .uniswapV2 _ amountsIn amountsOut => some
      { address := pool.address
        prepaid := true
        tokenIn := if amountsIn.1 ≠ 0 then pool.token0.address else pool.token1.address
        amountIn := amountsIn.1 + amountsIn.2
        tokenOut := if amountsOut.1 ≠ 0 then pool.token0.address else pool.token1.address
        amountOut := amountsOut.1 + amountsOut.2 }
  | .uniswapV3 _ amountIn amountOut _ zeroForOne _ => some
      { address := pool.address
        prepaid := false
        tokenIn := if zeroForOne then pool.token0.address else pool.token1.address
        amountIn := amountIn
        tokenOut := if zeroForOne then pool.token1.address else pool.token0.address
        amountOut := amountOut }
  | _ => none

def CurveOrUniswapPool.leg : CurveOrUniswapPool → SwapAmount → Option Leg
  | .uniswap pool, amounts => pool.leg amounts
  | .curve pool, .curve tokenIn _ tokenOut _ amountIn minAmountOut _ =>
      some ⟨pool.address, false, tokenIn.address, amountIn, tokenOut.address, minAmountOut⟩
  | .curve _, _ => none

def statedLegs {P : Type} (leg : P → SwapAmount → Option Leg) :
    List P → List SwapAmount → Option (List Leg)
  | [], [] => some []
  | pool :: pools, amounts :: rest => do
      let here ← leg pool amounts
      let later ← statedLegs leg pools rest
      some (here :: later)
  | _, _ => none

/-- A list with one swap call for each pool in path order, which can be executed in order by a
sender that holds the swap amount: whenever a swap is called, its stated input is in place. -/
def PayloadsExecute (fromAddress inputToken : ℕ) (swapAmount : ℤ) (addresses : List ℕ)
    (legs : Option (List Leg)) (payloads : Except Exn (List Payload)) : Prop :=
  ∃ stated calls, legs = some stated ∧ payloads = .ok calls ∧ swapAddresses calls = addresses ∧
    ∀ ledger : Ledger, (∀ account token, 0 ≤ ledger account token) →
      swapAmount ≤ ledger fromAddress inputToken →
      ∃ ledger', calls.foldlM (execute fromAddress) (ledger, stated) = some (ledger', [])

theorem PathRuns.payloadsExecute {fromAddress inputToken : ℕ} {swapAmount : ℤ} {legs : List Leg}
    {calls : List Payload} (h : PathRuns fromAddress fromAddress inputToken swapAmount legs calls) :
    PayloadsExecute fromAddress inputToken swapAmount (legs.map Leg.address) (some legs)
      (.ok calls) := by
  refine ⟨legs, calls, rfl, rfl, h.swaps, fun ledger hledger hheld => h.runs ledger ?_⟩
  intro account token
  split_ifs with hfrom
  · rw [hfrom.1, hfrom.2]
    exact hheld
  · exact hledger account token

/-! ## Consistent vectors -/

/-- The vector goes from one token of the pool to the other. -/
def SwapVector.Fits (vector : SwapVector) (pool : LiquidityPool) : Prop :=
  vector.tokenIn.address =
      (if vector.zeroForOne then pool.token0.address else pool.token1.address) ∧
    vector.tokenOut.address =
      (if vector.zeroForOne then pool.token1.address else pool.token0.address)

/-- Each vector fits its pool and takes the output token of the one before it. -/
def ConsistentLpVectors : ℕ → List LiquidityPool → List SwapVector → Prop
  | _, [], [] => True
  | token, pool :: pools, vector :: vectors => vector.tokenIn.address = token ∧
      vector.Fits pool ∧ ConsistentLpVectors vector.tokenOut.address pools vectors
  | _, _, _ => False

def ConsistentCurveVectors : ℕ → List CurveOrUniswapPool → List CurveOrUniswapVector → Prop
  | _, [], [] => True
  | token, .uniswap pool :: pools, .uniswap vector :: vectors => vector.tokenIn.address = token ∧
      vector.Fits pool ∧ ConsistentCurveVectors vector.tokenOut.address pools vectors
  | token, .curve _ :: pools, .curve tokenIn tokenOut :: vectors => tokenIn.address = token ∧
      ConsistentCurveVectors tokenOut.address pools vectors
  | _, _, _ => False

/-! ## One Uniswap pool -/

section Uniswap

variable {pool : LiquidityPool} {vector : SwapVector} {amountIn amountOut : ℤ}

theorem leg_uniswapV2Amounts (hfits : vector.Fits pool) (hin : amountIn ≠ 0)
    (hout : amountOut ≠ 0) :
    pool.leg (uniswapV2Amounts pool vector amountIn amountOut) =
      some ⟨pool.address, true, vector.tokenIn.address, amountIn, vector.tokenOut.address,
        amountOut⟩ := by
  rw [hfits.1, hfits.2]
  cases hz : vector.zeroForOne <;> simp [LiquidityPool.leg, uniswapV2Amounts, hz, hin, hout]

theorem leg_uniswapV3Amounts (hfits : vector.Fits pool) :
    pool.leg (uniswapV3Amounts pool vector amountIn amountOut) =
      some ⟨pool.address, false, vector.tokenIn.address, amountIn, vector.tokenOut.address,
        amountOut⟩ := by
  rw [hfits.1, hfits.2]
  rfl

theorem inRange_uniswapV2Amounts
    (h : (uniswapV2Amounts pool vector amountIn amountOut).InRange) :
    isUint256 amountIn = true ∧ isUint256 amountOut = true := by
  cases hz : vector.zeroForOne <;> simp [SwapAmount.InRange, uniswapV2Amounts, hz] at h <;>
    exact ⟨by tauto, by tauto⟩

theorem validate_uniswapV2Amounts {amounts : SwapAmount}
    (h : (uniswapV2Amounts pool vector amountIn amountOut).validate = .ok amounts) :
    amounts = uniswapV2Amounts pool vector amountIn amountOut ∧ amountIn ≠ 0 ∧ amountOut ≠ 0 := by
  cases hz : vector.zeroForOne <;>
    simp [SwapAmount.validate, uniswapV2Amounts, hz, ite_error_eq_ok] at h ⊢ <;>
    exact ⟨h.2.symm, by tauto, by tauto⟩

theorem encodeCall_ok {address : ℕ} {calldata : Calldata} (h : calldata.encodes = true) :
    encodeCall address calldata = .ok (.call address calldata 0) := if_pos h

theorem isUint160_sqrtPriceLimit (zeroForOne : Bool) :
    isUint160 (sqrtPriceLimit zeroForOne) = true := by
  cases zeroForOne <;> decide

theorem nonneg_of_isUint256 {n : ℤ} (h : isUint256 n = true) : 0 ≤ n := by
  simp only [isUint256, decide_eq_true_eq] at h
  exact h.1

/-- The leg of a Uniswap pool with a vector. -/
def uniswapLeg (pool : LiquidityPool) (vector : SwapVector) (prepaid : Bool)
    (amountIn amountOut : ℤ) : Leg :=
  ⟨pool.address, prepaid, vector.tokenIn.address, amountIn, vector.tokenOut.address, amountOut⟩

theorem uniswapV2Amounts_eq (pool : LiquidityPool) (vector : SwapVector)
    (amountIn amountOut : ℤ) : ∃ amountsIn amountsOut : ℤ × ℤ,
      uniswapV2Amounts pool vector amountIn amountOut =
        .uniswapV2 pool.address amountsIn amountsOut ∧
      amountsOut.1 + amountsOut.2 = amountOut ∧
      (isUint256 amountOut = true → isUint256 amountsOut.1 && isUint256 amountsOut.2) := by
  refine ⟨_, _, rfl, ?_, fun h => ?_⟩
  · cases vector.zeroForOne <;> simp
  · cases vector.zeroForOne <;> simp [h] <;> decide

/-- The swap call of a V2 pool, made with its input received. -/
theorem hopRuns_swapV2 {fromAddress next : ℕ} {amount0Out amount1Out : ℤ}
    (hstated : amount0Out + amount1Out = amountOut) (hout : 0 ≤ amountOut) :
    HopRuns fromAddress pool.address next (uniswapLeg pool vector true amountIn amountOut)
      [.call pool.address (.swapV2 amount0Out amount1Out next) 0] :=
  hopRuns_call (uniswapLeg pool vector true amountIn amountOut)
    (fun leg => amount0Out + amount1Out = leg.amountOut) (fun _ => rfl) rfl
    (decide_eq_true hstated) hout

/-- The swap call of a V3 pool, made with its input held by the sender. -/
theorem hopRuns_swapV3 {fromAddress next : ℕ} (zeroForOne : Bool) (limit : ℤ)
    (hout : 0 ≤ amountOut) :
    HopRuns fromAddress fromAddress next (uniswapLeg pool vector false amountIn amountOut)
      [.call pool.address (.swapV3 next zeroForOne amountIn limit) 0] :=
  hopRuns_call (uniswapLeg pool vector false amountIn amountOut)
    (fun leg => amountIn = leg.amountIn) (fun _ => rfl) rfl (decide_eq_true rfl) hout

end Uniswap

theorem kind_of_isV2 {kind : PoolKind} (h : kind.isV2 = true) :
    kind = .aerodromeV2 ∨ kind = .uniswapV2 := by
  simpa [PoolKind.isV2] using h

theorem kind_of_isV3 {kind : PoolKind} (h : kind.isV3 = true) :
    kind = .uniswapV3 ∨ kind = .aerodromeV3 := by
  cases kind <;> simp [PoolKind.isV3] at h ⊢

end Degenbot

/-! ## `UniswapLpCycle.generate_payloads`

The amounts of `_build_swap_amounts` chain: each swap takes what the one before it gives.
The payloads make these swaps from the sender's funds. -/

namespace Degenbot

open Library

namespace UniswapLpCycle

/-! ## One pool -/

variable {inputToken : Erc20Token} {fromAddress : ℕ} {swapAmount : ℤ} {i : ℕ}
  {pool : LiquidityPool} {next : Option LiquidityPool} {vector : SwapVector}
  {amountIn amountOut : ℤ}

/-- The account that holds the input of a pool when its payloads begin. -/
def holder (fromAddress i : ℕ) (pool : LiquidityPool) : ℕ :=
  if i ≠ 0 ∧ pool.kind.isV2 then pool.address else fromAddress

theorem hopPayloads_v2 (hkind : pool.kind.isV2 = true)
    (hrange : (uniswapV2Amounts pool vector amountIn amountOut).InRange)
    (hfirst : i = 0 → swapAmount = amountIn ∧ inputToken.address = vector.tokenIn.address) :
    ∃ payloads, hopPayloads inputToken fromAddress swapAmount i pool next
        (uniswapV2Amounts pool vector amountIn amountOut) = .ok payloads ∧
      HopRuns fromAddress (holder fromAddress i pool) (destination fromAddress next)
        (uniswapLeg pool vector true amountIn amountOut) payloads := by
  obtain ⟨hin, hout⟩ := inRange_uniswapV2Amounts hrange
  obtain ⟨amountsIn, amountsOut, hamounts, hsum, hencodes⟩ :=
    uniswapV2Amounts_eq pool vector amountIn amountOut
  have hswap : encodeCall pool.address (.swapV2 amountsOut.1 amountsOut.2
      (destination fromAddress next)) = .ok _ := encodeCall_ok (hencodes hout)
  have hruns : HopRuns fromAddress pool.address (destination fromAddress next)
      (uniswapLeg pool vector true amountIn amountOut) _ :=
    hopRuns_swapV2 hsum (nonneg_of_isUint256 hout)
  rw [hamounts]
  by_cases hi : i = 0
  · obtain ⟨rfl, htoken⟩ := hfirst hi
    have htransfer : encodeCall inputToken.address (.transfer pool.address swapAmount) =
        .ok (.call vector.tokenIn.address (.transfer pool.address swapAmount) 0) := by
      rw [htoken]
      exact encodeCall_ok hin
    have hholder : holder fromAddress i pool = fromAddress := by simp [holder, hi]
    rw [hholder]
    refine ⟨_, ?_, hruns.transfer_first (nonneg_of_isUint256 hin)⟩
    rcases kind_of_isV2 hkind with hkind | hkind <;>
      simp only [hopPayloads, hkind, hi, if_true, htransfer, hswap, ok_bind] <;> rfl
  · have hholder : holder fromAddress i pool = pool.address := by simp [holder, hi, hkind]
    rw [hholder]
    refine ⟨_, ?_, hruns⟩
    rcases kind_of_isV2 hkind with hkind | hkind <;>
      simp only [hopPayloads, hkind, hi, if_false, hswap, ok_bind]

theorem hopPayloads_v3 (hkind : pool.kind.isV3 = true)
    (hrange : (uniswapV3Amounts pool vector amountIn amountOut).InRange) :
    ∃ payloads, hopPayloads inputToken fromAddress swapAmount i pool next
        (uniswapV3Amounts pool vector amountIn amountOut) = .ok payloads ∧
      HopRuns fromAddress (holder fromAddress i pool) (destination fromAddress next)
        (uniswapLeg pool vector false amountIn amountOut) payloads := by
  obtain ⟨-, hout, hspecified⟩ := hrange
  have hswap : encodeCall pool.address (.swapV3 (destination fromAddress next) vector.zeroForOne
      amountIn (sqrtPriceLimit vector.zeroForOne)) = .ok _ :=
    encodeCall_ok (Bool.and_eq_true_iff.mpr ⟨hspecified, isUint160_sqrtPriceLimit _⟩)
  have hholder : holder fromAddress i pool = fromAddress := by
    rcases kind_of_isV3 hkind with hkind | hkind <;> simp [holder, PoolKind.isV2, hkind]
  rw [hholder]
  refine ⟨_, ?_, hopRuns_swapV3 vector.zeroForOne (sqrtPriceLimit vector.zeroForOne)
    (nonneg_of_isUint256 hout)⟩
  rcases kind_of_isV3 hkind with hkind | hkind <;>
    simp only [hopPayloads, uniswapV3Amounts, hkind, hswap, ok_bind]

/-! ## The path -/

/-- The amounts of one pool are those of its kind, and its output is the next input. -/
theorem buildSwapAmounts_cons {quotes : Quotes} {pools : List LiquidityPool}
    {vectors : List SwapVector} {amounts : List SwapAmount} {last : ℤ}
    (hkind : pool.kind.isV2 = true ∨ pool.kind.isV3 = true)
    (h : buildSwapAmounts quotes last amountIn (pool :: pools) (vector :: vectors) =
      .ok amounts) :
    ∃ amountOut here later, amounts = here :: later ∧
      buildSwapAmounts quotes amountOut amountOut pools vectors = .ok later ∧
      (pool.kind.isV2 = true ∧ here = uniswapV2Amounts pool vector amountIn amountOut ∧
          amountIn ≠ 0 ∧ amountOut ≠ 0 ∨
        pool.kind.isV3 = true ∧ here = uniswapV3Amounts pool vector amountIn amountOut) := by
  rw [buildSwapAmounts] at h
  simp only [ite_error_eq_ok] at h
  obtain ⟨-, h⟩ := h
  rcases hkind with hkind | hkind
  · rcases kind_of_isV2 hkind with hk | hk
    all_goals
      simp only [hk] at h
      obtain ⟨amountOut, -, h⟩ := bind_eq_ok.mp h
      obtain ⟨here, hhere, h⟩ := bind_eq_ok.mp h
      obtain ⟨later, hlater, h⟩ := bind_eq_ok.mp h
      cases h
      exact ⟨amountOut, here, later, rfl, hlater, .inl ⟨hkind, validate_uniswapV2Amounts hhere⟩⟩
  · rcases kind_of_isV3 hkind with hk | hk
    all_goals
      simp only [hk] at h
      obtain ⟨amountOut, -, h⟩ := bind_eq_ok.mp h
      obtain ⟨here, hhere, h⟩ := bind_eq_ok.mp h
      obtain ⟨later, hlater, h⟩ := bind_eq_ok.mp h
      cases h
      simp only [uniswapV3Amounts, SwapAmount.validate, ite_error_eq_ok, Except.ok.injEq] at hhere
      exact ⟨amountOut, here, later, rfl, hlater, .inr ⟨hkind, hhere.2.symm⟩⟩

theorem destination_eq_holder (fromAddress i : ℕ) (next : Option LiquidityPool) :
    destination fromAddress next = next.elim fromAddress (holder fromAddress (i + 1)) := by
  cases next with
  | none => rfl
  | some next => simp [destination, holder]

/-- The amounts built for a path of V2 and V3 pools, and the swaps they state. -/
theorem payloads_run (fromAddress i : ℕ) {quotes : Quotes} {pools : List LiquidityPool} {vectors : List SwapVector}
    {amounts : List SwapAmount} {last : ℤ} {token : ℕ}
    (hbuilt : buildSwapAmounts quotes last amountIn pools vectors = .ok amounts)
    (hvectors : ConsistentLpVectors token pools vectors)
    (hkinds : ∀ pool ∈ pools, pool.kind.isV2 = true ∨ pool.kind.isV3 = true)
    (hrange : ∀ a ∈ amounts, a.InRange)
    (hfirst : i = 0 → swapAmount = amountIn ∧ inputToken.address = token) :
    ∃ legs payloads, statedLegs LiquidityPool.leg pools amounts = some legs ∧
      legs.map Leg.address = pools.map LiquidityPool.address ∧
      payloadsFrom (hopPayloads inputToken fromAddress swapAmount) i pools amounts =
        .ok payloads ∧
      PathRuns fromAddress (pools.head?.elim fromAddress (holder fromAddress i)) token amountIn
        legs payloads := by
  induction pools generalizing vectors amounts last amountIn token i with
  | nil =>
      cases vectors with
      | cons vector vectors => exact hvectors.elim
      | nil =>
          cases hbuilt
          exact ⟨[], [], rfl, rfl, rfl, .nil⟩
  | cons pool pools ih =>
      cases vectors with
      | nil => exact hvectors.elim
      | cons vector vectors =>
          obtain ⟨rfl, hfits, hvectors⟩ := hvectors
          obtain ⟨amountOut, here, later, rfl, hlater, hhere⟩ :=
            buildSwapAmounts_cons (hkinds pool List.mem_cons_self) hbuilt
          have hrangeHere := hrange here List.mem_cons_self
          -- the payloads of the first pool, by its kind
          obtain ⟨prepaid, payloads, hleg, hpayloads, hhop⟩ : ∃ prepaid payloads,
              pool.leg here = some (uniswapLeg pool vector prepaid amountIn amountOut) ∧
              hopPayloads inputToken fromAddress swapAmount i pool pools.head? here =
                .ok payloads ∧
              HopRuns fromAddress (holder fromAddress i pool)
                (destination fromAddress pools.head?)
                (uniswapLeg pool vector prepaid amountIn amountOut) payloads := by
            rcases hhere with ⟨hkind, rfl, hin, hout⟩ | ⟨hkind, rfl⟩
            · exact ⟨true, _, leg_uniswapV2Amounts hfits hin hout,
                (hopPayloads_v2 hkind hrangeHere hfirst).choose_spec⟩
            · exact ⟨false, _, leg_uniswapV3Amounts hfits,
                (hopPayloads_v3 hkind hrangeHere).choose_spec⟩
          obtain ⟨legs, rest, hlegs, haddresses, hrest, hruns⟩ :=
            ih (i + 1) hlater hvectors (fun p hp => hkinds p (List.mem_cons_of_mem _ hp))
              (fun a ha => hrange a (List.mem_cons_of_mem _ ha)) (fun h => absurd h (by omega))
          rw [← destination_eq_holder] at hruns
          refine ⟨uniswapLeg pool vector prepaid amountIn amountOut :: legs, payloads ++ rest,
            ?_, ?_, ?_, PathRuns.cons hhop hruns⟩
          · rw [statedLegs, hleg, hlegs]
            rfl
          · rw [List.map_cons, List.map_cons, haddresses]
            rfl
          · rw [payloadsFrom, hpayloads, hrest]
            rfl

end UniswapLpCycle

end Degenbot
