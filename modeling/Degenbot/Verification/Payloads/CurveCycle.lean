import Degenbot.Verification.Payloads.Execution

/-! # `UniswapCurveCycle.generate_payloads`

The payloads make the swaps that the amounts state, unless the first pool is of type V2:
it gets its input, and is never swapped. -/

namespace Degenbot

open Library

namespace UniswapCurveCycle

variable {sender : Sender} {i : ℕ} {next : Option CurveOrUniswapPool} {amountIn amountOut : ℤ}

/-- The pools that a cycle takes. -/
def Supported : CurveOrUniswapPool → Prop
  | .uniswap pool => pool.kind.isUniswapV2 = true ∨ pool.kind.isV3 = true
  | .curve _ => True

/-- A pool of type V2. -/
def isV2 : CurveOrUniswapPool → Bool
  | .uniswap pool => pool.kind.isUniswapV2
  | .curve _ => false

/-- The account that holds the input of a pool. -/
def holder (fromAddress : ℕ) (pool : CurveOrUniswapPool) : ℕ :=
  if isV2 pool then pool.address else fromAddress

theorem destination_eq_holder (fromAddress : ℕ) (hnext : ∀ pool ∈ next, Supported pool) :
    destination fromAddress next = .ok (next.elim fromAddress (holder fromAddress)) := by
  cases next with
  | none => rfl
  | some pool =>
      cases pool with
      | curve pool => rfl
      | uniswap pool =>
          rcases hnext _ rfl with hkind | hkind
          · simp [destination, holder, isV2, hkind, CurveOrUniswapPool.address]
          · by_cases hv2 : pool.kind.isUniswapV2 = true
            · simp [destination, holder, isV2, hv2, CurveOrUniswapPool.address]
            · simp [destination, holder, isV2, hv2, hkind]

/-! ## One Curve pool -/

section Curve

variable {pool : CurvePathPool} {tokenIn tokenOut : Erc20Token} {inIndex outIndex : ℕ}
  {underlying : Bool}

def curveLeg (pool : CurvePathPool) (tokenIn tokenOut : Erc20Token)
    (amountIn amountOut : ℤ) : Leg :=
  ⟨pool.address, false, tokenIn.address, amountIn, tokenOut.address, amountOut⟩

def exchangeCalldata (underlying : Bool) (i j dx minDy : ℤ) : Calldata :=
  if underlying then .exchangeUnderlying i j dx minDy else .exchange i j dx minDy

theorem hopRuns_exchange {fromAddress : ℕ} (inIndex outIndex : ℤ) (underlying : Bool)
    (hout : 0 ≤ amountOut) :
    HopRuns fromAddress fromAddress fromAddress (curveLeg pool tokenIn tokenOut amountIn amountOut)
      [.call pool.address (exchangeCalldata underlying inIndex outIndex amountIn amountOut) 0] := by
  cases underlying <;>
    exact hopRuns_call (curveLeg pool tokenIn tokenOut amountIn amountOut)
      (fun leg => amountIn = leg.amountIn ∧ amountOut = leg.amountOut) (fun _ => rfl) rfl
      (decide_eq_true ⟨rfl, rfl⟩) hout

/-- An approval, where one is needed, comes first. -/
theorem approval_eq_ok (sender : Sender) (pool : CurvePathPool) (tokenIn : Erc20Token)
    (hin : isUint256 amountIn = true) : ∃ approval,
    ((amountToApprove sender.infiniteApproval (sender.getApproval tokenIn pool.address)
      amountIn).toList.mapM fun amount =>
        encodeCall tokenIn.address (.approve pool.address amount)) = .ok approval ∧
    ∀ holder account leg payloads, HopRuns sender.fromAddress holder account leg payloads →
      HopRuns sender.fromAddress holder account leg (approval ++ payloads) := by
  have hrange : ∀ amount ∈ amountToApprove sender.infiniteApproval
      (sender.getApproval tokenIn pool.address) amountIn, isUint256 amount = true := by
    intro amount hamount
    unfold amountToApprove at hamount
    split_ifs at hamount
    · cases hamount
      decide
    · cases hamount
      exact hin
    · cases hamount
  cases happrove : amountToApprove sender.infiniteApproval
      (sender.getApproval tokenIn pool.address) amountIn with
  | none => exact ⟨[], rfl, fun _ _ _ _ h => h⟩
  | some amount =>
      have hencodes : encodeCall tokenIn.address (.approve pool.address amount) = .ok _ :=
        encodeCall_ok (hrange amount happrove)
      refine ⟨[.call tokenIn.address (.approve pool.address amount) 0], ?_,
        fun _ _ _ _ h => h.approve_first⟩
      rw [Option.toList_some, List.mapM_cons, hencodes]
      rfl

theorem curvePayloads_run (sender : Sender) (pool : CurvePathPool)
    (hnext : ∀ pool ∈ next, Supported pool)
    (hrange : (SwapAmount.curve tokenIn inIndex tokenOut outIndex amountIn amountOut
      underlying).InRange) :
    ∃ payloads, curvePayloads sender pool next tokenIn inIndex tokenOut outIndex amountIn amountOut
        underlying = .ok payloads ∧
      HopRuns sender.fromAddress sender.fromAddress
        (next.elim sender.fromAddress (holder sender.fromAddress))
        (curveLeg pool tokenIn tokenOut amountIn amountOut) payloads := by
  obtain ⟨hi, hj, hin, hout⟩ := hrange
  have hnonneg := nonneg_of_isUint256 hout
  obtain ⟨approval, happroval, hfirst⟩ := approval_eq_ok sender pool tokenIn hin
  have hexchange : encodeCall pool.address (exchangeCalldata underlying inIndex outIndex amountIn
      amountOut) = .ok (.call pool.address (exchangeCalldata underlying inIndex outIndex amountIn
        amountOut) 0) := by
    apply encodeCall_ok
    cases underlying <;> simp [exchangeCalldata, Calldata.encodes, hi, hj, hin, hout]
  have hruns : HopRuns sender.fromAddress sender.fromAddress sender.fromAddress
      (curveLeg pool tokenIn tokenOut amountIn amountOut) _ :=
    hopRuns_exchange inIndex outIndex underlying hnonneg
  unfold curvePayloads
  rw [happroval, ok_bind]
  simp only [exchangeCalldata] at hexchange hruns
  rw [hexchange, ok_bind]
  by_cases hv2 : ∃ nextPool, next = some (.uniswap nextPool) ∧ nextPool.kind.isUniswapV2 = true
  · obtain ⟨nextPool, rfl, hv2⟩ := hv2
    have htransfer : encodeCall tokenOut.address (.transfer nextPool.address amountOut) =
        .ok (.call tokenOut.address (.transfer nextPool.address amountOut) 0) := encodeCall_ok hout
    have hholder : (some (CurveOrUniswapPool.uniswap nextPool)).elim sender.fromAddress
        (holder sender.fromAddress) = nextPool.address := by
      simp [holder, isV2, hv2, CurveOrUniswapPool.address]
    rw [hholder]
    refine ⟨_, ?_, hfirst _ _ _ _ (hruns.transfer_last hnonneg)⟩
    simp only [hv2, if_true, List.mapM_cons, List.mapM_nil, htransfer, ok_bind]
    rfl
  · have hholder : next.elim sender.fromAddress (holder sender.fromAddress) =
        sender.fromAddress := by
      cases next with
      | none => rfl
      | some nextPool =>
          cases nextPool with
          | curve nextPool => rfl
          | uniswap nextPool =>
              have hkind : nextPool.kind.isUniswapV2 = false :=
                Bool.eq_false_iff.mpr fun hkind => hv2 ⟨nextPool, rfl, hkind⟩
              simp [holder, isV2, hkind]
    rw [hholder]
    refine ⟨_, ?_, hfirst _ _ _ _ hruns⟩
    cases next with
    | none => rfl
    | some nextPool =>
        cases nextPool with
        | curve nextPool => rfl
        | uniswap nextPool =>
            have hkind : nextPool.kind.isUniswapV2 = false :=
              Bool.eq_false_iff.mpr fun hkind => hv2 ⟨nextPool, rfl, hkind⟩
            simp only [hkind, Bool.false_eq_true, if_false, List.mapM_nil]
            rfl

end Curve

/-! ## The path -/

theorem raiseArbitrageError_eq_ok {α : Type} {outcome : Except Exn α} {value : α} :
    raiseArbitrageError outcome = .ok value ↔ outcome = .ok value := by
  unfold raiseArbitrageError
  split <;> simp

/-- The amounts of one swap, by the class of its pool. -/
theorem hopAmounts_cases {quotes : Quotes} {pool : CurveOrUniswapPool}
    {vector : CurveOrUniswapVector} {amounts : SwapAmount}
    (h : hopAmounts quotes pool vector amountIn = .ok (amountOut, amounts)) :
    (∃ p v, pool = .uniswap p ∧ vector = .uniswap v ∧
      (p.kind.isUniswapV2 = true ∧ amounts = uniswapV2Amounts p v amountIn amountOut ∧
          amountIn ≠ 0 ∧ amountOut ≠ 0 ∨
        p.kind.isUniswapV2 = false ∧ p.kind.isV3 = true ∧
          amounts = uniswapV3Amounts p v amountIn amountOut)) ∨
    ∃ p tokenIn inIndex tokenOut outIndex underlying, pool = .curve p ∧
      vector = .curve tokenIn tokenOut ∧
      amounts = .curve tokenIn inIndex tokenOut outIndex amountIn amountOut underlying := by
  unfold hopAmounts at h
  cases pool with
  | uniswap p =>
      cases vector with
      | curve tokenIn tokenOut => cases h
      | uniswap v =>
          refine .inl ⟨p, v, rfl, rfl, ?_⟩
          dsimp only at h
          split_ifs at h with hv2 hv3
          · obtain ⟨tokenOut, -, h⟩ := bind_eq_ok.mp h
            obtain ⟨-, h⟩ := ite_error_eq_ok.mp h
            obtain ⟨validated, hvalidated, h⟩ := bind_eq_ok.mp h
            cases h
            exact .inl ⟨hv2, validate_uniswapV2Amounts hvalidated⟩
          · obtain ⟨tokenOut, -, h⟩ := bind_eq_ok.mp h
            obtain ⟨-, h⟩ := ite_error_eq_ok.mp h
            obtain ⟨validated, hvalidated, h⟩ := bind_eq_ok.mp h
            cases h
            simp only [uniswapV3Amounts, SwapAmount.validate, ite_error_eq_ok,
              Except.ok.injEq] at hvalidated
            exact .inr ⟨Bool.eq_false_iff.mpr hv2, hv3, hvalidated.2.symm⟩
  | curve p =>
      cases vector with
      | uniswap v => cases h
      | curve tokenIn tokenOut =>
          refine .inr ?_
          obtain ⟨quote, -, h⟩ := bind_eq_ok.mp h
          obtain ⟨-, h⟩ := ite_error_eq_ok.mp h
          obtain ⟨inIndex, -, h⟩ := bind_eq_ok.mp h
          obtain ⟨outIndex, -, h⟩ := bind_eq_ok.mp h
          obtain ⟨validated, hvalidated, h⟩ := bind_eq_ok.mp h
          cases h
          simp only [SwapAmount.validate, ite_error_eq_ok, Except.ok.injEq] at hvalidated
          exact ⟨p, tokenIn, inIndex, tokenOut, outIndex, _, rfl, rfl, hvalidated.2.symm⟩

theorem kind_of_isUniswapV2 {kind : PoolKind} (h : kind.isUniswapV2 = true) :
    kind = .uniswapV2 := by
  simpa [PoolKind.isUniswapV2] using h

theorem hopPayloads_v2 {pool : LiquidityPool} {vector : SwapVector} (hi : i ≠ 0)
    (hkind : pool.kind.isUniswapV2 = true) (hnext : ∀ pool ∈ next, Supported pool)
    (hrange : (uniswapV2Amounts pool vector amountIn amountOut).InRange) :
    ∃ payloads, hopPayloads sender i (.uniswap pool) next
        (uniswapV2Amounts pool vector amountIn amountOut) = .ok payloads ∧
      HopRuns sender.fromAddress (holder sender.fromAddress (.uniswap pool))
        (next.elim sender.fromAddress (holder sender.fromAddress))
        (uniswapLeg pool vector true amountIn amountOut) payloads := by
  obtain ⟨hin, hout⟩ := inRange_uniswapV2Amounts hrange
  obtain ⟨amountsIn, amountsOut, hamounts, hsum, hencodes⟩ :=
    uniswapV2Amounts_eq pool vector amountIn amountOut
  have hholder : holder sender.fromAddress (.uniswap pool) = pool.address := by
    simp [holder, isV2, hkind, CurveOrUniswapPool.address]
  have hswap : encodeCall pool.address (.swapV2 amountsOut.1 amountsOut.2
      (next.elim sender.fromAddress (holder sender.fromAddress))) = .ok _ :=
    encodeCall_ok (hencodes hout)
  rw [hholder]
  refine ⟨_, ?_, hopRuns_swapV2 hsum (nonneg_of_isUint256 hout)⟩
  rw [hamounts, hopPayloads, destination_eq_holder _ hnext, ok_bind]
  simp only [hi, false_and, if_false, kind_of_isUniswapV2 hkind, hswap, ok_bind]

theorem hopPayloads_v3 {pool : LiquidityPool} {vector : SwapVector}
    (hv2 : pool.kind.isUniswapV2 = false) (hkind : pool.kind.isV3 = true)
    (hnext : ∀ pool ∈ next, Supported pool)
    (hrange : (uniswapV3Amounts pool vector amountIn amountOut).InRange) :
    ∃ payloads, hopPayloads sender i (.uniswap pool) next
        (uniswapV3Amounts pool vector amountIn amountOut) = .ok payloads ∧
      HopRuns sender.fromAddress (holder sender.fromAddress (.uniswap pool))
        (next.elim sender.fromAddress (holder sender.fromAddress))
        (uniswapLeg pool vector false amountIn amountOut) payloads := by
  obtain ⟨-, hout, hspecified⟩ := hrange
  have hencodes : (Calldata.swapV3 (next.elim sender.fromAddress (holder sender.fromAddress))
      vector.zeroForOne amountIn (sqrtPriceLimit vector.zeroForOne)).encodes = true :=
    Bool.and_eq_true_iff.mpr ⟨hspecified, isUint160_sqrtPriceLimit _⟩
  have hholder : holder sender.fromAddress (.uniswap pool) = sender.fromAddress := by
    simp [holder, isV2, hv2]
  rw [hholder]
  refine ⟨_, ?_, hopRuns_swapV3 vector.zeroForOne (sqrtPriceLimit vector.zeroForOne)
    (nonneg_of_isUint256 hout)⟩
  have hnot : ¬(i = 0 ∧ pool.kind.isUniswapV2 = true) := by simp [hv2]
  rw [hopPayloads, destination_eq_holder _ hnext, ok_bind]
  simp only [uniswapV3Amounts, if_neg hnot]
  rcases kind_of_isV3 hkind with hk | hk <;>
    simp only [hk, encodeCall_ok hencodes, ok_bind]

/-- Where the first pool is not of type V2, the payloads make the swaps that the amounts
state. -/
theorem payloads_run (sender : Sender) (i : ℕ) {quotes : Quotes} {pools : List CurveOrUniswapPool}
    {vectors : List CurveOrUniswapVector} {amounts : List SwapAmount} {token : ℕ}
    (hbuilt : buildSwapAmounts quotes amountIn pools vectors = .ok amounts)
    (hvectors : ConsistentCurveVectors token pools vectors)
    (hsupported : ∀ pool ∈ pools, Supported pool) (hrange : ∀ a ∈ amounts, a.InRange)
    (hfirst : i = 0 → ∀ pool ∈ pools.head?, isV2 pool = false) :
    ∃ legs payloads, statedLegs CurveOrUniswapPool.leg pools amounts = some legs ∧
      legs.map Leg.address = pools.map CurveOrUniswapPool.address ∧
      payloadsFrom (hopPayloads sender) i pools amounts = .ok payloads ∧
      PathRuns sender.fromAddress
        (pools.head?.elim sender.fromAddress (holder sender.fromAddress)) token amountIn
        legs payloads := by
  induction pools generalizing vectors amounts amountIn token i with
  | nil =>
      cases vectors with
      | cons vector vectors => simp [ConsistentCurveVectors] at hvectors
      | nil =>
          cases hbuilt
          exact ⟨[], [], rfl, rfl, rfl, .nil⟩
  | cons pool pools ih =>
      cases vectors with
      | nil => cases pool <;> simp [ConsistentCurveVectors] at hvectors
      | cons vector vectors =>
          rw [buildSwapAmounts] at hbuilt
          obtain ⟨-, hbuilt⟩ := ite_error_eq_ok.mp hbuilt
          obtain ⟨⟨amountOut, here⟩, hhere, hbuilt⟩ := bind_eq_ok.mp hbuilt
          obtain ⟨later, hlater, hbuilt⟩ := bind_eq_ok.mp hbuilt
          cases hbuilt
          have hnext : ∀ p ∈ pools.head?, Supported p := fun p hp =>
            hsupported p (List.mem_cons_of_mem _ (List.mem_of_mem_head? hp))
          have hrangeHere := hrange here List.mem_cons_self
          -- the payloads of the first pool, by its class
          obtain ⟨leg, payloads, hleg, haddress, rfl, rfl, hout, hrest, hpayloads, hhop⟩ :
              ∃ leg payloads, pool.leg here = some leg ∧ leg.address = pool.address ∧
                leg.tokenIn = token ∧ leg.amountIn = amountIn ∧ leg.amountOut = amountOut ∧
                ConsistentCurveVectors leg.tokenOut pools vectors ∧
                hopPayloads sender i pool pools.head? here = .ok payloads ∧
                HopRuns sender.fromAddress (holder sender.fromAddress pool)
                  (pools.head?.elim sender.fromAddress (holder sender.fromAddress)) leg
                  payloads := by
            obtain ⟨p, v, rfl, rfl, hamounts⟩ | ⟨p, tokenIn, inIndex, tokenOut, outIndex,
                underlying, rfl, rfl, rfl⟩ :=
              hopAmounts_cases (raiseArbitrageError_eq_ok.mp hhere)
            · obtain ⟨rfl, hfits, hvectors⟩ := hvectors
              rcases hamounts with ⟨hkind, rfl, hin, hout⟩ | ⟨hv2, hkind, rfl⟩
              · have hi : i ≠ 0 := by
                  intro hi
                  have hnot := hfirst hi _ rfl
                  rw [isV2, hkind] at hnot
                  cases hnot
                exact ⟨_, _, leg_uniswapV2Amounts hfits hin hout, rfl, rfl, rfl, rfl, hvectors,
                  (hopPayloads_v2 hi hkind hnext hrangeHere).choose_spec⟩
              · exact ⟨_, _, leg_uniswapV3Amounts hfits, rfl, rfl, rfl, rfl, hvectors,
                  (hopPayloads_v3 hv2 hkind hnext hrangeHere).choose_spec⟩
            · obtain ⟨rfl, hvectors⟩ := hvectors
              obtain ⟨payloads, hpayloads, hhop⟩ :=
                curvePayloads_run sender p hnext hrangeHere
              refine ⟨_, payloads, rfl, rfl, rfl, rfl, rfl, hvectors, ?_, hhop⟩
              rw [hopPayloads, destination_eq_holder _ hnext, ok_bind]
              exact hpayloads
          rw [← hout] at hlater
          obtain ⟨legs, rest, hlegs, haddresses, hpath, hruns⟩ :=
            ih (i + 1) hlater hrest (fun p hp => hsupported p (List.mem_cons_of_mem _ hp))
              (fun a ha => hrange a (List.mem_cons_of_mem _ ha)) (fun h => absurd h (by omega))
          refine ⟨leg :: legs, payloads ++ rest, ?_, ?_, ?_, PathRuns.cons hhop hruns⟩
          · rw [statedLegs, hleg, hlegs]
            rfl
          · rw [List.map_cons, List.map_cons, haddresses, haddress]
          · rw [payloadsFrom, hpayloads, hpath]
            rfl

/-! ## Counting swap calls -/

theorem encodeCall_eq_ok {address : ℕ} {calldata : Calldata} {payload : Payload}
    (h : encodeCall address calldata = .ok payload) : payload = .call address calldata 0 := by
  unfold encodeCall at h
  split at h
  · cases h
    rfl
  · cases h

theorem swapAddresses_mapM {α : Type} (calls : α → ℕ × Calldata)
    (hcalls : ∀ a, (Payload.call (calls a).1 (calls a).2 0).swapAddress = none) {as : List α}
    {payloads : List Payload}
    (h : (as.mapM fun a => encodeCall (calls a).1 (calls a).2) = .ok payloads) :
    swapAddresses payloads = [] := by
  rw [swapAddresses, List.filterMap_eq_nil_iff]
  intro payload hpayload
  obtain ⟨a, -, ha⟩ := exists_of_mapM_eq_ok h hpayload
  rw [encodeCall_eq_ok ha]
  exact hcalls a

theorem curvePayloads_swapCount {pool : CurvePathPool} {tokenIn tokenOut : Erc20Token}
    {inIndex outIndex : ℕ} {underlying : Bool} {payloads : List Payload}
    (h : curvePayloads sender pool next tokenIn inIndex tokenOut outIndex amountIn amountOut
      underlying = .ok payloads) : (swapAddresses payloads).length = 1 := by
  unfold curvePayloads at h
  obtain ⟨approval, happroval, h⟩ := bind_eq_ok.mp h
  obtain ⟨exchange, hexchange, h⟩ := bind_eq_ok.mp h
  obtain ⟨transfer, htransfer, h⟩ := bind_eq_ok.mp h
  cases h
  have hfirst := swapAddresses_mapM (fun amount =>
    (tokenIn.address, .approve pool.address amount)) (fun _ => rfl) happroval
  have hlast := swapAddresses_mapM (fun address =>
    (tokenOut.address, .transfer address amountOut)) (fun _ => rfl) htransfer
  have hswap : exchange.swapAddress = some pool.address := by
    rw [encodeCall_eq_ok hexchange]
    cases underlying <;> rfl
  unfold swapAddresses at hfirst hlast ⊢
  rw [List.filterMap_append, List.filterMap_cons, hswap, hfirst, hlast]
  rfl

/-- Each pool after the first has one swap call. -/
theorem hopPayloads_swapCount {pool : CurveOrUniswapPool} {amounts : SwapAmount}
    {payloads : List Payload} (h : hopPayloads sender (i + 1) pool next amounts = .ok payloads) :
    (swapAddresses payloads).length = 1 := by
  unfold hopPayloads at h
  obtain ⟨recipient, -, h⟩ := bind_eq_ok.mp h
  split at h
  · rw [if_neg (by omega)] at h
    split at h
    all_goals first
      | cases h
      | (obtain ⟨swap, hswap, h⟩ := bind_eq_ok.mp h
         cases h
         rw [encodeCall_eq_ok hswap]
         rfl)
  · exact curvePayloads_swapCount h
  · cases h

theorem payloadsFrom_swapCount {pools : List CurveOrUniswapPool} {amounts : List SwapAmount}
    {payloads : List Payload}
    (h : payloadsFrom (hopPayloads sender) (i + 1) pools amounts = .ok payloads) :
    (swapAddresses payloads).length = pools.length := by
  induction pools generalizing amounts payloads i with
  | nil =>
      cases amounts with
      | nil => cases h; rfl
      | cons amount amounts => cases h
  | cons pool pools ih =>
      cases amounts with
      | nil => cases h
      | cons amount amounts =>
          rw [payloadsFrom] at h
          obtain ⟨here, hhere, h⟩ := bind_eq_ok.mp h
          obtain ⟨later, hlater, h⟩ := bind_eq_ok.mp h
          cases h
          have hcount := hopPayloads_swapCount hhere
          have hrest := ih hlater
          unfold swapAddresses at hcount hrest ⊢
          rw [List.filterMap_append, List.length_append, hcount, hrest, List.length_cons, add_comm]

/-- A first pool of type V2 gets its input and is never swapped. -/
theorem payloadsFrom_v2_first {pool : CurveOrUniswapPool} {pools : List CurveOrUniswapPool}
    {amounts : List SwapAmount} {payloads : List Payload} (hv2 : isV2 pool = true)
    (h : payloadsFrom (hopPayloads sender) 0 (pool :: pools) amounts = .ok payloads) :
    (swapAddresses payloads).length = pools.length := by
  cases amounts with
  | nil => cases h
  | cons amount amounts =>
      rw [payloadsFrom] at h
      obtain ⟨here, hhere, h⟩ := bind_eq_ok.mp h
      obtain ⟨later, hlater, h⟩ := bind_eq_ok.mp h
      cases h
      have hnone : swapAddresses here = [] := by
        cases pool with
        | curve pool => cases hv2
        | uniswap pool =>
            unfold hopPayloads at hhere
            obtain ⟨recipient, -, hhere⟩ := bind_eq_ok.mp hhere
            dsimp only at hhere
            rw [if_pos ⟨rfl, hv2⟩] at hhere
            obtain ⟨transfer, htransfer, hhere⟩ := bind_eq_ok.mp hhere
            cases hhere
            rw [encodeCall_eq_ok htransfer]
            rfl
      have hrest := payloadsFrom_swapCount hlater
      unfold swapAddresses at hnone hrest ⊢
      rw [List.filterMap_append, hnone, hrest.symm]
      rfl

end UniswapCurveCycle

/-! ## The law of both cycles -/

/-- A cycle of V2 and V3 pools with consistent vectors, and the amounts built for it from the
swap amount. -/
structure LpSwaps where
  quotes : UniswapLpCycle.Quotes
  inputToken : Erc20Token
  swapPools : List LiquidityPool
  swapVectors : List SwapVector
  fromAddress : ℕ
  swapAmount : ℤ
  poolSwapAmounts : List SwapAmount
  kinds : ∀ pool ∈ swapPools, pool.kind.isV2 = true ∨ pool.kind.isV3 = true
  consistent : ConsistentLpVectors inputToken.address swapPools swapVectors
  built : UniswapLpCycle.buildSwapAmounts quotes 0 swapAmount swapPools swapVectors =
    .ok poolSwapAmounts
  inRange : ∀ amounts ∈ poolSwapAmounts, amounts.InRange

def LpSwaps.Execute (swaps : LpSwaps) : Prop :=
  PayloadsExecute swaps.fromAddress swaps.inputToken.address swaps.swapAmount
    (swaps.swapPools.map LiquidityPool.address)
    (statedLegs LiquidityPool.leg swaps.swapPools swaps.poolSwapAmounts)
    (UniswapLpCycle.generatePayloads swaps.inputToken swaps.swapPools swaps.fromAddress
      swaps.swapAmount swaps.poolSwapAmounts)

/-- A cycle of V2, V3 and Curve pools, wherever the Curve pools stand in it. -/
structure CurveSwaps where
  quotes : UniswapCurveCycle.Quotes
  sender : UniswapCurveCycle.Sender
  swapPools : List CurveOrUniswapPool
  swapVectors : List CurveOrUniswapVector
  poolSwapAmounts : List SwapAmount
  supported : ∀ pool ∈ swapPools, UniswapCurveCycle.Supported pool
  consistent : ConsistentCurveVectors sender.inputToken.address swapPools swapVectors
  built : UniswapCurveCycle.buildSwapAmounts quotes sender.swapAmount swapPools swapVectors =
    .ok poolSwapAmounts
  inRange : ∀ amounts ∈ poolSwapAmounts, amounts.InRange

def CurveSwaps.Execute (swaps : CurveSwaps) : Prop :=
  PayloadsExecute swaps.sender.fromAddress swaps.sender.inputToken.address swaps.sender.swapAmount
    (swaps.swapPools.map CurveOrUniswapPool.address)
    (statedLegs CurveOrUniswapPool.leg swaps.swapPools swaps.poolSwapAmounts)
    (UniswapCurveCycle.generatePayloads swaps.sender swaps.swapPools swaps.poolSwapAmounts)

theorem LpSwaps.execute (swaps : LpSwaps) : swaps.Execute := by
  obtain ⟨legs, payloads, hlegs, haddresses, hpayloads, hruns⟩ :=
    UniswapLpCycle.payloads_run swaps.fromAddress 0 swaps.built swaps.consistent swaps.kinds
      swaps.inRange (fun _ => ⟨rfl, rfl⟩)
  have hholder : swaps.swapPools.head?.elim swaps.fromAddress
      (UniswapLpCycle.holder swaps.fromAddress 0) = swaps.fromAddress := by
    cases swaps.swapPools <;> rfl
  rw [hholder] at hruns
  have hexecute := hruns.payloadsExecute
  rw [haddresses, ← hlegs, ← hpayloads] at hexecute
  exact hexecute

theorem CurveSwaps.execute (swaps : CurveSwaps)
    (hfirst : ∀ pool ∈ swaps.swapPools.head?, UniswapCurveCycle.isV2 pool = false) :
    swaps.Execute := by
  obtain ⟨legs, payloads, hlegs, haddresses, hpayloads, hruns⟩ :=
    UniswapCurveCycle.payloads_run swaps.sender 0 swaps.built swaps.consistent swaps.supported
      swaps.inRange (fun _ => hfirst)
  have hholder : swaps.swapPools.head?.elim swaps.sender.fromAddress
      (UniswapCurveCycle.holder swaps.sender.fromAddress) = swaps.sender.fromAddress := by
    cases hhead : swaps.swapPools.head? with
    | none => rfl
    | some pool => simp [UniswapCurveCycle.holder, hfirst pool hhead]
  rw [hholder] at hruns
  have hexecute := hruns.payloadsExecute
  rw [haddresses, ← hlegs, ← hpayloads] at hexecute
  exact hexecute

/-- The payloads of a cycle execute, one swap for each pool in path order, except those of a
`UniswapCurveCycle` whose first pool is of type V2. -/
theorem generatePayloads_execute (lpSwaps : LpSwaps) (swaps : CurveSwaps) :
    lpSwaps.Execute ∧
      (swaps.Execute ↔ ∀ pool ∈ swaps.swapPools.head?, UniswapCurveCycle.isV2 pool = false) := by
  refine ⟨lpSwaps.execute, fun hexecute pool hpool => ?_, swaps.execute⟩
  obtain ⟨stated, calls, -, hcalls, haddresses, -⟩ := hexecute
  by_contra hv2
  cases hpools : swaps.swapPools with
  | nil => simp [hpools] at hpool
  | cons first rest =>
      rw [hpools] at hpool hcalls haddresses
      cases hpool
      -- one swap call is missing
      have hcount := UniswapCurveCycle.payloadsFrom_v2_first (Bool.not_eq_false _ ▸ hv2) hcalls
      rw [haddresses, List.length_map, List.length_cons] at hcount
      omega

/-! ### A cycle with a first pool of type V2 -/

def payloadToken (address : ℕ) : Erc20Token := ⟨address, 1, "", 18⟩

def payloadPool (kind : PoolKind) (address token0 token1 : ℕ) : LiquidityPool :=
  ⟨kind, address, none, 1, payloadToken token0, payloadToken token1, rfl, rfl⟩

/-- WETH to DAI through a V2 pool, to USDC through a Curve pool, and back through a V3 pool. -/
def sampleSwaps : CurveSwaps where
  quotes := ⟨fun _ _ amount => .ok amount, fun _ _ _ amount => .ok amount, id⟩
  sender := ⟨payloadToken 1, 99, 1000, false, fun _ _ => 0⟩
  swapPools := [.uniswap (payloadPool .uniswapV2 10 1 2),
    .curve ⟨20, [payloadToken 2, payloadToken 3], false, []⟩,
    .uniswap (payloadPool .uniswapV3 30 3 1)]
  swapVectors := [.uniswap ⟨payloadToken 1, payloadToken 2, true⟩,
    .curve (payloadToken 2) (payloadToken 3), .uniswap ⟨payloadToken 3, payloadToken 1, true⟩]
  poolSwapAmounts := [.uniswapV2 10 (1000, 0) (0, 1000),
    .curve (payloadToken 2) 0 (payloadToken 3) 1 1000 1000 false,
    .uniswapV3 30 1000 1000 1000 true (minSqrtRatio + 1)]
  supported := by simp [UniswapCurveCycle.Supported, payloadPool, PoolKind.isUniswapV2, PoolKind.isV3]
  consistent := by simp [ConsistentCurveVectors, SwapVector.Fits, payloadPool, payloadToken]
  built := rfl
  inRange := by
    intro amounts hamounts
    simp only [List.mem_cons, List.not_mem_nil, or_false] at hamounts
    rcases hamounts with rfl | rfl | rfl <;> simp only [SwapAmount.InRange] <;> decide

/-- WETH to DAI through a V2 pool and back through a V3 pool. -/
def sampleLpSwaps : LpSwaps where
  quotes := fun _ _ amount => .ok (amount - 3)
  inputToken := payloadToken 1
  swapPools := [payloadPool .uniswapV2 10 1 2, payloadPool .uniswapV3 30 2 1]
  swapVectors := [⟨payloadToken 1, payloadToken 2, true⟩, ⟨payloadToken 2, payloadToken 1, true⟩]
  fromAddress := 99
  swapAmount := 1000
  poolSwapAmounts := [.uniswapV2 10 (1000, 0) (0, 997),
    .uniswapV3 30 997 994 997 true (minSqrtRatio + 1)]
  kinds := by simp [payloadPool, PoolKind.isV2, PoolKind.isV3]
  consistent := by simp [ConsistentLpVectors, SwapVector.Fits, payloadPool, payloadToken]
  built := rfl
  inRange := by
    intro amounts hamounts
    simp only [List.mem_cons, List.not_mem_nil, or_false] at hamounts
    rcases hamounts with rfl | rfl <;> simp only [SwapAmount.InRange] <;> decide

/-- The V2 pool is paid first, and its output goes to the sender, who pays the V3 pool. -/
theorem generatePayloads_execute_sample :
    UniswapLpCycle.generatePayloads sampleLpSwaps.inputToken sampleLpSwaps.swapPools
        sampleLpSwaps.fromAddress sampleLpSwaps.swapAmount sampleLpSwaps.poolSwapAmounts =
      .ok [.call 1 (.transfer 10 1000) 0, .call 10 (.swapV2 0 997 99) 0,
        .call 30 (.swapV3 99 true 997 (minSqrtRatio + 1)) 0] ∧ sampleLpSwaps.Execute :=
  ⟨by decide, (generatePayloads_execute sampleLpSwaps sampleSwaps).1⟩

/-- The first pool receives its input, and the calls swap only at the two other pools. -/
theorem generatePayloads_v2_first : ¬sampleSwaps.Execute := by
  rintro ⟨stated, calls, -, hcalls, haddresses, -⟩
  have hpayloads : UniswapCurveCycle.generatePayloads sampleSwaps.sender sampleSwaps.swapPools
      sampleSwaps.poolSwapAmounts = .ok [.call 1 (.transfer 10 1000) 0,
        .call 2 (.approve 20 1000) 0, .call 20 (.exchange 0 1 1000 1000) 0,
        .call 30 (.swapV3 99 true 1000 (minSqrtRatio + 1)) 0] := by decide
  rw [hpayloads] at hcalls
  cases hcalls
  revert haddresses
  decide

end Degenbot
