import Degenbot.Verification.Matching.PythonClearing
import Degenbot.Verification.Matching.UniswapxFill

/-! # The CoW leg of an internal match under GPv2's execution rule

The settlement prices the order at its own limits, not at the pair's clearing price, and executes
a fill-or-kill order in full. -/

namespace Degenbot.InternalMatch

open Library PriceCompat

/-! ## GPv2's rule -/

/-- Rounding up. -/
def ceilDivide (a b : ℤ) : ℤ := (a + b - 1) / b

/-- What the order gives and receives; no result where the contract divides by a price of zero. -/
def Settle.execution (settle : Settle) : Option (ℤ × ℤ) := do
  let trade := settle.trade
  let sellPrice ← settle.clearingPrices[trade.sellTokenIndex]?
  let buyPrice ← settle.clearingPrices[trade.buyTokenIndex]?
  if trade.flags.testBit 0 then
    let receives := if trade.flags.testBit 1 then trade.executedAmount else trade.buyAmount
    if sellPrice = 0 then none else some (receives * buyPrice / sellPrice, receives)
  else
    let gives := if trade.flags.testBit 1 then trade.executedAmount else trade.sellAmount
    if buyPrice = 0 then none else some (gives, ceilDivide (gives * sellPrice) buyPrice)

/-! ## The contract -/

/-- The two legs of a fill, for an order that sells on the given side. -/
def soldOf (counter : Bool) (fill projected : ℤ) : ℤ := if counter then projected else fill

def boughtOf (counter : Bool) (fill projected : ℤ) : ℤ := if counter then fill else projected

/-- The candidates are those of the two orders, the CoW order on the given side. -/
structure Carries (cowOrder : CowOrderSummary) (uniswapxOrder : UniswapXOrderSummary)
    (pair : MatchPair) (counter : Bool) : Prop where
  cow : (if counter then pair.c else pair.o).pairSell = cowOrder.sellToken ∧
    (if counter then pair.c else pair.o).pairBuy = cowOrder.buyToken ∧
    (if counter then pair.c else pair.o).amountSell = cowOrder.sellAmount ∧
    (if counter then pair.c else pair.o).amountBuyMin = cowOrder.buyAmount
  uniswapx : (if counter then pair.o else pair.c).pairSell = uniswapxOrder.inputToken ∧
    (if counter then pair.o else pair.c).pairBuy = uniswapxOrder.outputToken ∧
    (if counter then pair.o else pair.c).amountSell = uniswapxOrder.inputAmount ∧
    (if counter then pair.o else pair.c).amountBuyMin = uniswapxOrder.outputAmountMin
  decimals : pair.o.pairSellDecimals = pair.c.pairBuyDecimals ∧
    pair.o.pairBuyDecimals = pair.c.pairSellDecimals

/-- The order gives no more than the pair matches and is paid from the transfer. -/
def SettlesPair (pair : MatchPair) (counter : Bool) (projected : ℤ) (settle : Settle) : Prop :=
  ∃ gives receives, settle.execution = some (gives, receives) ∧
    gives ≤ soldOf counter pair.fillAmount projected ∧ receives ≤ settle.buyTokenPayout

/-- A fill-or-kill order is filled; a partially fillable sell order is paid its limit price by the
fill; a partially fillable buy order would not have to give a unit more at its limit price.
`taken` is the side the encoder takes the order to be on. -/
structure FillCovers (cowOrder : CowOrderSummary) (counter taken : Bool) (fill projected : ℤ) :
    Prop where
  price : cowOrder.kind = .buy → cowOrder.buyAmount ≠ 0
  filled : cowOrder.partiallyFillable = false →
    cowOrder.sellAmount ≤ soldOf counter fill projected
  sell : cowOrder.partiallyFillable = true → cowOrder.kind = .sell →
    soldOf taken fill projected ≤ soldOf counter fill projected ∧
    soldOf taken fill projected * cowOrder.buyAmount ≤
      boughtOf taken fill projected * cowOrder.sellAmount
  buy : cowOrder.partiallyFillable = true → cowOrder.kind = .buy →
    boughtOf taken fill projected * cowOrder.sellAmount <
      (soldOf counter fill projected + 1) * cowOrder.buyAmount

/-! ## Arithmetic -/

theorem ceilDivide_le_iff {a b c : ℤ} (hb : 0 < b) : ceilDivide a b ≤ c ↔ a ≤ c * b := by
  rw [ceilDivide, ← Int.lt_add_one_iff, Int.ediv_lt_iff_lt_mul hb, add_mul]
  constructor
  · intro h
    omega
  · intro h
    omega

theorem ceilDivide_mul {a b : ℤ} (hb : 0 < b) : ceilDivide (b * a) b = a := by
  refine le_antisymm ((ceilDivide_le_iff hb).mpr (by rw [mul_comm])) ?_
  rw [ceilDivide, Int.le_ediv_iff_mul_le hb, mul_comm]
  omega

theorem ediv_le_iff {a b c : ℤ} (hb : 0 < b) : a / b ≤ c ↔ a < (c + 1) * b := by
  rw [← Int.lt_add_one_iff, Int.ediv_lt_iff_lt_mul hb]

/-! ## Flags -/

theorem testBit_kind (order : CowOrderSummary) :
    (packOrderFlags order).testBit 0 = decide (order.kind = .buy) := by
  unfold packOrderFlags
  cases order.kind <;> cases order.partiallyFillable <;> cases order.signingScheme <;> decide

theorem testBit_fillable (order : CowOrderSummary) :
    (packOrderFlags order).testBit 1 = order.partiallyFillable := by
  unfold packOrderFlags
  cases order.kind <;> cases order.partiallyFillable <;> cases order.signingScheme <;> decide

/-! ## Yielded pairs -/

theorem normalize_eq_ok {amount wad : ℤ} {decimals : ℤ}
    (h : normalizeAmountToWad amount decimals = .ok wad) : 0 ≤ amount ∧ (amount = 0 → wad = 0) := by
  rw [normalizeAmountToWad, ite_error_eq_ok] at h
  obtain ⟨hnonneg, h⟩ := h
  obtain ⟨_, _, h⟩ := bind_eq_ok.mp h
  refine ⟨by omega, ?_⟩
  rintro rfl
  split at h
  · exact (Except.ok.inj h).symm
  · split at h
    · simpa using (Except.ok.inj h).symm
    · simpa using (Except.ok.inj h).symm

theorem denormalize_zero {decimals : ℤ} {amount : ℤ}
    (h : denormalizeAmountFromWad 0 decimals = .ok amount) : amount = 0 := by
  rw [denormalizeAmountFromWad, ite_error_eq_ok] at h
  obtain ⟨_, _, h⟩ := bind_eq_ok.mp h.2
  split at h
  · exact (Except.ok.inj h).symm
  · split at h
    · simpa using (Except.ok.inj h).symm
    · simpa using (Except.ok.inj h).symm

/-- A pair is only priced where the amounts are not negative, the outbound order sells and the
counter order buys. -/
theorem amounts_of_clearingPrice {o c : MatchCandidate} {price : ℤ}
    (h : PriceCompat.clearingPrice o c = .ok price) :
    0 < o.amountSell ∧ 0 ≤ o.amountBuyMin ∧ 0 ≤ c.amountSell ∧ 0 < c.amountBuyMin := by
  obtain ⟨lo, hlo, h⟩ := bind_eq_ok.mp h
  obtain ⟨hi, hhi, -⟩ := bind_eq_ok.mp h
  obtain ⟨sellWad, hsellWad, hlo⟩ := bind_eq_ok.mp hlo
  rw [ite_error_eq_ok] at hlo
  obtain ⟨buyWad, hbuyWad, -⟩ := bind_eq_ok.mp hlo.2
  obtain ⟨buyWad', hbuyWad', hhi⟩ := bind_eq_ok.mp hhi
  rw [ite_error_eq_ok] at hhi
  obtain ⟨sellWad', hsellWad', -⟩ := bind_eq_ok.mp hhi.2
  have hsell := normalize_eq_ok hsellWad
  have hbuy := normalize_eq_ok hbuyWad'
  have hsell_ne : o.amountSell ≠ 0 := fun hzero => hlo.1 (hsell.2 hzero)
  have hbuy_ne : c.amountBuyMin ≠ 0 := fun hzero => hhi.1 (hbuy.2 hzero)
  exact ⟨lt_of_le_of_ne hsell.1 hsell_ne.symm, (normalize_eq_ok hbuyWad).1,
    (normalize_eq_ok hsellWad').1, lt_of_le_of_ne hbuy.1 hbuy_ne.symm⟩

/-- A counter order that sells nothing fills nothing. -/
theorem fillAmount_of_zero {o c : MatchCandidate} {fill : ℤ} (h : PriceCompat.fillAmount o c = .ok fill)
    (hzero : c.amountSell = 0) : fill = 0 := by
  obtain ⟨price, hprice, h⟩ := bind_eq_ok.mp h
  have hamounts := amounts_of_clearingPrice hprice
  split at h
  · exact (Except.ok.inj h).symm
  · obtain ⟨budget, hbudget, h⟩ := bind_eq_ok.mp h
    rw [projectBuyToSell, ite_error_eq_ok, hzero] at hbudget
    obtain ⟨wad, hwad, hbudget⟩ := bind_eq_ok.mp hbudget.2
    rw [(normalize_eq_ok hwad).2 rfl, zero_mul, Int.zero_fdiv] at hbudget
    have hbudget_zero := denormalize_zero hbudget
    have hmin := Except.ok.inj h
    omega

theorem amounts_of_yielded {outbound inbound uniswapx : List MatchCandidate} {pair : MatchPair}
    {cowOrder : CowOrderSummary} {uniswapxOrder : UniswapXOrderSummary} {counter : Bool}
    (hpair : pair ∈ (PriceCompat.findMatches outbound inbound uniswapx).1)
    (hcarries : Carries cowOrder uniswapxOrder pair counter) :
    0 < cowOrder.sellAmount ∧ 0 ≤ cowOrder.buyAmount := by
  obtain ⟨-, -, hne, hfill, hprice, -⟩ := PriceCompat.tryMatch_eq_ok (PriceCompat.mem_findMatches hpair).2.2
  have hamounts := amounts_of_clearingPrice hprice
  have hcow := hcarries.cow
  cases counter with
  | false =>
      simp only [Bool.false_eq_true, if_false] at hcow
      rw [← hcow.2.2.1, ← hcow.2.2.2]
      exact ⟨hamounts.1, hamounts.2.1⟩
  | true =>
      simp only [if_true] at hcow
      rw [← hcow.2.2.1, ← hcow.2.2.2]
      have hsell : pair.c.amountSell ≠ 0 := fun hzero => hne (fillAmount_of_zero hfill hzero)
      exact ⟨lt_of_le_of_ne hamounts.2.2.1 hsell.symm, hamounts.2.2.2.le⟩

/-! ## The encoded settlement -/

/-- The executed amount and the payout, from the legs of the fill. -/
theorem cowSettle_eq_ok {pair : MatchPair} {cowOrder : CowOrderSummary} {executor : Abi.Address}
    {taken : Bool} {projected : ℤ} {settle : Settle}
    (hprojected : projectOSellToOBuy pair pair.fillAmount = .ok projected)
    (h : cowSettle pair cowOrder pair.fillAmount executor taken = .ok settle) :
    settle.clearingPrices = [cowOrder.buyAmount, cowOrder.sellAmount] ∧
    settle.trade.sellTokenIndex = 0 ∧ settle.trade.buyTokenIndex = 1 ∧
    settle.trade.sellAmount = cowOrder.sellAmount ∧
    settle.trade.buyAmount = cowOrder.buyAmount ∧
    settle.trade.flags = packOrderFlags cowOrder ∧
    (cowOrder.partiallyFillable = true → settle.trade.executedAmount =
      if cowOrder.kind = .sell then soldOf taken pair.fillAmount projected
      else boughtOf taken pair.fillAmount projected) ∧
    settle.buyTokenPayout = if cowOrder.partiallyFillable then
      boughtOf taken pair.fillAmount projected else cowOrder.buyAmount := by
  have hbuy : (if taken = true then (.ok pair.fillAmount : Except Exn ℤ)
      else projectOSellToOBuy pair pair.fillAmount) =
        .ok (boughtOf taken pair.fillAmount projected) := by
    cases taken <;> simp [boughtOf, hprojected]
  have hsell : (if ¬taken = true then (.ok pair.fillAmount : Except Exn ℤ)
      else projectOSellToOBuy pair pair.fillAmount) =
        .ok (soldOf taken pair.fillAmount projected) := by
    cases taken <;> simp [soldOf, hprojected]
  rw [cowSettle] at h
  simp only [hbuy, hsell] at h
  cases hfillable : cowOrder.partiallyFillable <;> cases hkind : cowOrder.kind <;>
    simp only [hfillable, hkind, Bool.false_eq_true, not_false_eq_true, not_true_eq_false, if_true,
      if_false, ok_bind, reduceCtorEq] at h <;>
    cases h <;> simp

section Execution

variable {settle : Settle} {cowOrder : CowOrderSummary}

theorem execution_buy (hprices : settle.clearingPrices = [cowOrder.buyAmount, cowOrder.sellAmount])
    (hsellIndex : settle.trade.sellTokenIndex = 0) (hbuyIndex : settle.trade.buyTokenIndex = 1)
    (hflags : settle.trade.flags = packOrderFlags cowOrder) (hkind : cowOrder.kind = .buy)
    {receives : ℤ} (hreceives : (if cowOrder.partiallyFillable then settle.trade.executedAmount
      else settle.trade.buyAmount) = receives) :
    settle.execution = if cowOrder.buyAmount = 0 then none
      else some (receives * cowOrder.sellAmount / cowOrder.buyAmount, receives) := by
  have hbit : (packOrderFlags cowOrder).testBit 0 = true := by
    rw [testBit_kind, hkind]
    rfl
  simp only [Settle.execution, hprices, hsellIndex, hbuyIndex, hflags, hbit, testBit_fillable,
    hreceives, List.getElem?_cons_zero, List.getElem?_cons_succ, Option.bind_eq_bind,
    Option.bind_some, if_true]

theorem execution_sell (hprices : settle.clearingPrices = [cowOrder.buyAmount, cowOrder.sellAmount])
    (hsellIndex : settle.trade.sellTokenIndex = 0) (hbuyIndex : settle.trade.buyTokenIndex = 1)
    (hflags : settle.trade.flags = packOrderFlags cowOrder) (hkind : cowOrder.kind = .sell)
    (hpos : 0 < cowOrder.sellAmount)
    {gives : ℤ} (hgives : (if cowOrder.partiallyFillable then settle.trade.executedAmount
      else settle.trade.sellAmount) = gives) :
    settle.execution =
      some (gives, ceilDivide (gives * cowOrder.buyAmount) cowOrder.sellAmount) := by
  have hbit : (packOrderFlags cowOrder).testBit 0 = false := by
    rw [testBit_kind, hkind]
    rfl
  simp only [Settle.execution, hprices, hsellIndex, hbuyIndex, hflags, hbit, testBit_fillable,
    hgives, hpos.ne', List.getElem?_cons_zero, List.getElem?_cons_succ, Option.bind_eq_bind,
    Option.bind_some, Bool.false_eq_true, if_false]

end Execution

/-- The two inequalities, branch by branch of the encoder. -/
theorem settlesPair_iff {pair : MatchPair} {cowOrder : CowOrderSummary} {executor : Abi.Address}
    {counter taken : Bool} {projected : ℤ} {settle : Settle}
    (hsell : 0 < cowOrder.sellAmount) (hbuy : 0 ≤ cowOrder.buyAmount)
    (hprojected : projectOSellToOBuy pair pair.fillAmount = .ok projected)
    (h : cowSettle pair cowOrder pair.fillAmount executor taken = .ok settle) :
    SettlesPair pair counter projected settle ↔
      FillCovers cowOrder counter taken pair.fillAmount projected := by
  obtain ⟨hprices, hsellIndex, hbuyIndex, hsellAmount, hbuyAmount, hflags, hexecuted, hpayout⟩ :=
    cowSettle_eq_ok hprojected h
  unfold SettlesPair
  rw [hpayout]
  cases hkind : cowOrder.kind with
  | buy =>
      cases hfillable : cowOrder.partiallyFillable with
      | false =>
          rw [execution_buy hprices hsellIndex hbuyIndex hflags hkind
            (by rw [hfillable, if_neg Bool.false_ne_true, hbuyAmount])]
          constructor
          · rintro ⟨gives, receives, hrun, hgives, -⟩
            rw [Option.ite_none_left_eq_some] at hrun
            obtain ⟨hne, hrun⟩ := hrun
            cases hrun
            rw [mul_comm, Int.mul_ediv_cancel _ hne] at hgives
            exact ⟨fun _ => hne, fun _ => hgives, by simp [hfillable], by simp [hfillable]⟩
          · intro hcovers
            have hne := hcovers.price hkind
            refine ⟨cowOrder.sellAmount, cowOrder.buyAmount, ?_, hcovers.filled hfillable, le_rfl⟩
            rw [if_neg hne, mul_comm, Int.mul_ediv_cancel _ hne]
      | true =>
          have hexec := hexecuted hfillable
          rw [hkind, if_neg (by decide)] at hexec
          rw [execution_buy hprices hsellIndex hbuyIndex hflags hkind
            (by rw [hfillable, if_pos rfl, hexec])]
          constructor
          · rintro ⟨gives, receives, hrun, hgives, -⟩
            rw [Option.ite_none_left_eq_some] at hrun
            obtain ⟨hne, hrun⟩ := hrun
            cases hrun
            rw [ediv_le_iff (lt_of_le_of_ne hbuy (Ne.symm hne))] at hgives
            exact ⟨fun _ => hne, by simp [hfillable], by simp [hkind], fun _ _ => hgives⟩
          · intro hcovers
            have hne := hcovers.price hkind
            refine ⟨_, _, if_neg hne, ?_, le_rfl⟩
            rw [ediv_le_iff (lt_of_le_of_ne hbuy (Ne.symm hne))]
            exact hcovers.buy hfillable hkind
  | sell =>
      cases hfillable : cowOrder.partiallyFillable with
      | false =>
          rw [execution_sell hprices hsellIndex hbuyIndex hflags hkind hsell
            (by rw [hfillable, if_neg Bool.false_ne_true, hsellAmount])]
          constructor
          · rintro ⟨gives, receives, hrun, hgives, -⟩
            cases hrun
            exact ⟨by simp [hkind], fun _ => hgives, by simp [hfillable], by simp [hfillable]⟩
          · intro hcovers
            refine ⟨_, _, rfl, hcovers.filled hfillable, ?_⟩
            rw [ceilDivide_mul hsell]
            exact le_rfl
      | true =>
          have hexec := hexecuted hfillable
          rw [hkind, if_pos rfl] at hexec
          rw [execution_sell hprices hsellIndex hbuyIndex hflags hkind hsell
            (by rw [hfillable, if_pos rfl, hexec])]
          constructor
          · rintro ⟨gives, receives, hrun, hgives, hreceives⟩
            cases hrun
            rw [if_pos rfl, ceilDivide_le_iff hsell] at hreceives
            exact ⟨by simp [hkind], by simp [hfillable], fun _ _ => ⟨hgives, hreceives⟩,
              by simp [hkind]⟩
          · intro hcovers
            obtain ⟨hgives, hreceives⟩ := hcovers.sell hfillable hkind
            refine ⟨_, _, rfl, hgives, ?_⟩
            rw [if_pos rfl, ceilDivide_le_iff hsell]
            exact hreceives

/-- For a pair of the matcher that the encoder turns into a trade, the settlement keeps to the
pair exactly when the fill covers the CoW order. -/
theorem settlement_matches_iff (outbound inbound uniswapx : List MatchCandidate) (pair : MatchPair)
    (cowOrder : CowOrderSummary) (uniswapxOrder : UniswapXOrderSummary) (counter : Bool)
    (estimatedProfitWei flashAmount minProfitBps : ℤ) (flashToken executor : Abi.Address)
    (signature : Option (List UInt8)) (trade : MatchedTrade)
    (hpair : pair ∈ (PriceCompat.findMatches outbound inbound uniswapx).1)
    (hcarries : Carries cowOrder uniswapxOrder pair counter)
    (htrade : encodeMatchPair pair cowOrder uniswapxOrder estimatedProfitWei flashToken flashAmount
      executor minProfitBps signature = .ok trade) :
    ∃ settle projected cowCandidate, settle.calldata = .ok trade.cowSettlementCalldata ∧
      projectOSellToOBuy pair pair.fillAmount = .ok projected ∧
      identifyCowCandidate pair cowOrder = .ok cowCandidate ∧
      cowSettle pair cowOrder pair.fillAmount executor (takenAsCounter pair cowCandidate) =
        .ok settle ∧
      (SettlesPair pair counter projected settle ↔
        FillCovers cowOrder counter (takenAsCounter pair cowCandidate) pair.fillAmount
          projected) := by
  have hamounts := amounts_of_yielded hpair hcarries
  obtain ⟨⟨cowCandidate, settle, hcandidate, hsettle, hcalldata⟩, ⟨projected, hprojected⟩, -⟩ :=
    encodeMatchPair_eq_ok htrade
  exact ⟨settle, projected, cowCandidate, hcalldata, hprojected, hcandidate, hsettle,
    settlesPair_iff hamounts.1 hamounts.2 hprojected hsettle⟩

/-! ## Samples -/

/-- Half of a fill-or-kill order is matched. -/
def sellHundred : MatchCandidate :=
  { wethUsdc with id := "cow", amountSell := 100, amountBuyMin := 100 }

def sellFifty : MatchCandidate :=
  { usdcWeth with id := "ux", amountSell := 50, amountBuyMin := 50 }

def halfPair : MatchPair := ⟨sellHundred, sellFifty, 50, 10 ^ 18⟩

def fillOrKill : CowOrderSummary :=
  ⟨"0x01", 11, 12, 100, 100, 0, 1, .sell, false, .eip712, [], []⟩

def fiftyOrder : UniswapXOrderSummary := ⟨12, 11, 50, 50, 1, [], []⟩

theorem halfPair_yielded : halfPair ∈ (PriceCompat.findMatches [sellHundred] [] [sellFifty]).1 := by
  decide

theorem halfPair_carries (order : CowOrderSummary) (htokens : order.sellToken = 11)
    (htokens' : order.buyToken = 12) (hsell : order.sellAmount = 100)
    (hbuy : order.buyAmount = 100) : Carries order fiftyOrder halfPair false :=
  ⟨⟨htokens.symm, htokens'.symm, hsell.symm, hbuy.symm⟩, ⟨rfl, rfl, rfl, rfl⟩, rfl, rfl⟩

theorem halfPair_encodes (order : CowOrderSummary)
    (h : (encodeMatchPair halfPair order fiftyOrder 0 11 50 1 9500 none).toBool = true) :
    ∃ trade, encodeMatchPair halfPair order fiftyOrder 0 11 50 1 9500 none = .ok trade := by
  cases hrun : encodeMatchPair halfPair order fiftyOrder 0 11 50 1 9500 none with
  | ok trade => exact ⟨trade, rfl⟩
  | error e =>
      rw [hrun] at h
      cases h

/-- The same order, partially fillable, settles the half it is matched for. -/
theorem settlement_matches_half :
    ∃ settle, cowSettle halfPair { fillOrKill with partiallyFillable := true } 50 1 false =
        .ok settle ∧ SettlesPair halfPair false 50 settle := by
  obtain ⟨trade, htrade⟩ := halfPair_encodes { fillOrKill with partiallyFillable := true }
    (by decide)
  obtain ⟨settle, projected, cowCandidate, -, hprojected, hcandidate, hsettle, hiff⟩ :=
    settlement_matches_iff [sellHundred] [] [sellFifty] halfPair
      { fillOrKill with partiallyFillable := true } fiftyOrder false 0 50 9500 11 1 none trade
      halfPair_yielded (halfPair_carries _ rfl rfl rfl rfl) htrade
  have hfifty : projected = 50 := by
    have hrun : projectOSellToOBuy halfPair halfPair.fillAmount = .ok 50 := by decide
    rw [hrun] at hprojected
    exact (Except.ok.inj hprojected).symm
  have htaken : takenAsCounter halfPair cowCandidate = false := by
    have hrun : identifyCowCandidate halfPair { fillOrKill with partiallyFillable := true } =
        .ok sellHundred := by decide
    rw [hrun] at hcandidate
    cases hcandidate
    decide
  rw [htaken] at hsettle hiff
  subst hfifty
  refine ⟨settle, hsettle, hiff.mpr ⟨by decide, by decide, fun _ _ => by decide, by decide⟩⟩

/-- A fill-or-kill order for a hundred, matched for fifty, gives a hundred. -/
theorem fillOrKill_overdrawn :
    ¬ ∀ (outbound inbound uniswapx : List MatchCandidate) (pair : MatchPair)
      (cowOrder : CowOrderSummary) (uniswapxOrder : UniswapXOrderSummary) (counter : Bool)
      (estimatedProfitWei flashAmount minProfitBps : ℤ) (flashToken executor : Abi.Address)
      (signature : Option (List UInt8)) (trade : MatchedTrade) (projected : ℤ)
      (cowCandidate : MatchCandidate) (settle : Settle),
      pair ∈ (PriceCompat.findMatches outbound inbound uniswapx).1 →
      Carries cowOrder uniswapxOrder pair counter →
      encodeMatchPair pair cowOrder uniswapxOrder estimatedProfitWei flashToken flashAmount
        executor minProfitBps signature = .ok trade →
      projectOSellToOBuy pair pair.fillAmount = .ok projected →
      identifyCowCandidate pair cowOrder = .ok cowCandidate →
      cowSettle pair cowOrder pair.fillAmount executor (takenAsCounter pair cowCandidate) =
        .ok settle →
      settle.calldata = .ok trade.cowSettlementCalldata →
      SettlesPair pair counter projected settle := by
  intro h
  obtain ⟨trade, htrade⟩ := halfPair_encodes fillOrKill (by decide)
  obtain ⟨⟨cowCandidate, settle, hcandidate, hsettle, hcalldata⟩, ⟨projected, hprojected⟩, -⟩ :=
    encodeMatchPair_eq_ok htrade
  have hsettles := h [sellHundred] [] [sellFifty] halfPair fillOrKill fiftyOrder false 0 50 9500 11 1
    none trade projected cowCandidate settle halfPair_yielded (halfPair_carries _ rfl rfl rfl rfl)
    htrade hprojected hcandidate hsettle hcalldata
  have hcovers := (settlesPair_iff (by decide) (by decide) hprojected hsettle).mp hsettles
  have hhundred : (100 : ℤ) ≤ 50 := hcovers.filled rfl
  exact absurd hhundred (by decide)

end Degenbot.InternalMatch
