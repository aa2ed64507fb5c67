import Degenbot.Algorithm.Matching
import Degenbot.Library.Lists
import Degenbot.Library.Outcome
import Mathlib.Tactic

/-! # Matches of the Python matcher

The clearing price lies between two floored limit prices. Every conversion rounds down, so
that no side pays more than its limit, and the outbound side loses at most a unit of the
price and a unit of the token it receives. -/

namespace Degenbot.PriceCompat

open Library

variable {α : Type}

/-! ## The domain -/

/-- Amounts are positive and tokens have at most 18 decimals. -/
structure MatchCandidate.Valid (candidate : MatchCandidate α) : Prop where
  amountSell : 0 < candidate.amountSell
  amountBuyMin : 0 < candidate.amountBuyMin
  sellDecimals : 0 ≤ candidate.pairSellDecimals ∧ candidate.pairSellDecimals ≤ 18
  buyDecimals : 0 ≤ candidate.pairBuyDecimals ∧ candidate.pairBuyDecimals ≤ 18

/-- Both sides report the same decimals for the same token. -/
def SameDecimals (o c : MatchCandidate α) : Prop :=
  o.pairSellDecimals = c.pairBuyDecimals ∧ o.pairBuyDecimals = c.pairSellDecimals

/-- Feasible and individually rational at the clearing price; the last field is in 18-decimal
units of the token that the outbound side receives. -/
structure MatchPair.Rational (m : MatchPair α) : Prop where
  fill_pos : 0 < m.fillAmount
  fill_le : m.fillAmount ≤ m.o.amountSell
  counter : ∃ received, projectSellToBuy m.fillAmount m.clearingPrice m.o.pairSellDecimals
      m.o.pairBuyDecimals = .ok received ∧
    received ≤ m.c.amountSell ∧
    received * m.c.amountBuyMin ≤ m.c.amountSell * m.fillAmount ∧
    ∃ fillWad receivedWad minWad unitWad, normalizeAmountToWad m.fillAmount m.o.pairSellDecimals =
        .ok fillWad ∧
      normalizeAmountToWad received m.o.pairBuyDecimals = .ok receivedWad ∧
      normalizeAmountToWad m.o.amountBuyMin m.o.pairBuyDecimals = .ok minWad ∧
      normalizeAmountToWad 1 m.o.pairBuyDecimals = .ok unitWad ∧
      (minWad : ℚ) * m.fillAmount / m.o.amountSell - fillWad / 10 ^ 18 - unitWad ≤ receivedWad

/-! ## Conversions -/

/-- The wad units of one unit of a token. -/
def unit (decimals : ℤ) : ℤ := 10 ^ (18 - decimals).toNat

theorem unit_pos (decimals : ℤ) : 0 < unit decimals := by
  unfold unit
  positivity

section Conversions

variable {amount decimals : ℤ}

theorem validateDecimals_eq (h : 0 ≤ decimals ∧ decimals ≤ 18) :
    validateDecimals decimals = .ok () := by
  rw [validateDecimals, if_pos]
  exact ⟨h.1, h.2.trans (by norm_num [maxTokenDecimals])⟩

theorem normalizeAmountToWad_eq (hamount : 0 ≤ amount) (h : 0 ≤ decimals ∧ decimals ≤ 18) :
    normalizeAmountToWad amount decimals = .ok (amount * unit decimals) := by
  rw [normalizeAmountToWad, if_neg (by omega), validateDecimals_eq h, ok_bind]
  split
  case isTrue heighteen => simp [unit, heighteen]
  case isFalse hne => rw [if_pos (by omega), unit]

theorem denormalizeAmountFromWad_eq (hamount : 0 ≤ amount) (h : 0 ≤ decimals ∧ decimals ≤ 18) :
    denormalizeAmountFromWad amount decimals = .ok (amount / unit decimals) := by
  rw [denormalizeAmountFromWad, if_neg (by omega), validateDecimals_eq h, ok_bind]
  split
  case isTrue heighteen => simp [unit, heighteen]
  case isFalse hne => rw [if_pos (by omega), unit]

end Conversions

/-! ## Rounding -/

section Rounding

variable {sell buyMin counterSell counterBuyMin u v s price fill received : ℤ}

/-- What is converted back fits the counter's budget. -/
theorem fill_mul_price_le (hu : 0 < u) (hprice : 0 < price)
    (hfill : fill ≤ counterSell * v * s / price / u) :
    fill * u * price ≤ counterSell * v * s := by
  have hbudget : fill * u ≤ counterSell * v * s / price := (Int.le_ediv_iff_mul_le hu).mp hfill
  exact (Int.le_ediv_iff_mul_le hprice).mp hbudget

theorem received_mul_le (hv : 0 < v) (hs : 0 < s) (hreceived : received = fill * u * price / s / v) :
    received * v * s ≤ fill * u * price := by
  have hwad : received * v ≤ fill * u * price / s := (Int.le_ediv_iff_mul_le hv).mp hreceived.le
  exact (Int.le_ediv_iff_mul_le hs).mp hwad

theorem lt_received_add_one (hv : 0 < v) (hs : 0 < s)
    (hreceived : received = fill * u * price / s / v) :
    fill * u * price < (received + 1) * v * s := by
  have hwad : fill * u * price / s < (received + 1) * v := by
    rw [← Int.ediv_lt_iff_lt_mul hv, ← hreceived]
    exact Int.lt_succ received
  exact (Int.ediv_lt_iff_lt_mul hs).mp hwad

theorem received_le_counterSell (hv : 0 < v) (hs : 0 < s)
    (hbudget : fill * u * price ≤ counterSell * v * s)
    (hpaid : received * v * s ≤ fill * u * price) : received ≤ counterSell := by
  have hle : received * (v * s) ≤ counterSell * (v * s) := by linarith
  exact le_of_mul_le_mul_right hle (mul_pos hv hs)

/-- The counter side pays at most its limit price. -/
theorem received_mul_counterBuyMin_le (hu : 0 < u) (hv : 0 < v) (hs : 0 < s) (hfill : 0 < fill)
    (hcounter : 0 < counterBuyMin)
    (hhi : price ≤ counterSell * v * s / (counterBuyMin * u))
    (hpaid : received * v * s ≤ fill * u * price) :
    received * counterBuyMin ≤ counterSell * fill := by
  have hlimit : price * (counterBuyMin * u) ≤ counterSell * v * s :=
    (Int.le_ediv_iff_mul_le (mul_pos hcounter hu)).mp hhi
  have hchain : received * counterBuyMin * (v * s * u) ≤ counterSell * fill * (v * s * u) := by
    calc received * counterBuyMin * (v * s * u)
        = received * v * s * (counterBuyMin * u) := by ring
      _ ≤ fill * u * price * (counterBuyMin * u) :=
          mul_le_mul_of_nonneg_right hpaid (mul_pos hcounter hu).le
      _ = fill * u * (price * (counterBuyMin * u)) := by ring
      _ ≤ fill * u * (counterSell * v * s) :=
          mul_le_mul_of_nonneg_left hlimit (mul_pos hfill hu).le
      _ = counterSell * fill * (v * s * u) := by ring
  exact le_of_mul_le_mul_right hchain (mul_pos (mul_pos hv hs) hu)

/-- The outbound side receives its limit price, up to a unit of the price and one of the
token. -/
theorem sub_le_received (hu : 0 < u) (hs : 0 < s) (hfill : 0 < fill)
    (hsell : 0 < sell) (hlo : buyMin * v * s / (sell * u) ≤ price)
    (hpaid : fill * u * price < (received + 1) * v * s) :
    ((buyMin * v : ℤ) : ℚ) * fill / sell - ((fill * u : ℤ) : ℚ) / s - v ≤ ((received * v : ℤ) : ℚ) := by
  have hlimit : buyMin * v * s < (price + 1) * (sell * u) :=
    (Int.ediv_lt_iff_lt_mul (mul_pos hsell hu)).mp (Int.lt_add_one_of_le hlo)
  have hsellQ : (0 : ℚ) < sell := by exact_mod_cast hsell
  have hsQ : (0 : ℚ) < s := by exact_mod_cast hs
  have hfillQ : (0 : ℚ) < fill := by exact_mod_cast hfill
  have huQ : (0 : ℚ) < u := by exact_mod_cast hu
  have hlimitQ : (buyMin : ℚ) * v * s ≤ (price + 1) * (sell * u) := by exact_mod_cast hlimit.le
  have hpaidQ : (fill : ℚ) * u * price ≤ (received + 1) * v * s := by exact_mod_cast hpaid.le
  -- pro rata, at the floored limit price plus one unit
  have hshare : (buyMin : ℚ) * v * fill / sell ≤ fill * u * (price + 1) / s := by
    rw [div_le_div_iff₀ hsellQ hsQ]
    calc (buyMin : ℚ) * v * fill * s = buyMin * v * s * fill := by ring
      _ ≤ (price + 1) * (sell * u) * fill := mul_le_mul_of_nonneg_right hlimitQ hfillQ.le
      _ = fill * u * (price + 1) * sell := by ring
  have hprice : (fill : ℚ) * u * price / s ≤ (received + 1) * v := by
    rw [div_le_iff₀ hsQ]
    exact hpaidQ
  have hsplit : (fill : ℚ) * u * (price + 1) / s = fill * u * price / s + fill * u / s := by ring
  push_cast
  linarith

end Rounding

/-! ## A turn of the loop -/

theorem priceScale_pos : 0 < priceScale := by
  norm_num [priceScale]

/-- The limit price of the outbound side. -/
def outboundLimit (o : MatchCandidate α) : ℤ :=
  o.amountBuyMin * unit o.pairBuyDecimals * priceScale / (o.amountSell * unit o.pairSellDecimals)

/-- The limit price of the counter side. -/
def counterLimit (c : MatchCandidate α) : ℤ :=
  c.amountSell * unit c.pairSellDecimals * priceScale / (c.amountBuyMin * unit c.pairBuyDecimals)

section Turn

variable {o c : MatchCandidate α} {fill price : ℤ}

theorem outboundMinPrice_eq (h : o.Valid) : outboundMinPrice o = .ok (outboundLimit o) := by
  have hsell : o.amountSell * unit o.pairSellDecimals ≠ 0 :=
    (mul_pos h.amountSell (unit_pos _)).ne'
  rw [outboundMinPrice, normalizeAmountToWad_eq h.amountSell.le h.sellDecimals, ok_bind,
    if_neg hsell, normalizeAmountToWad_eq h.amountBuyMin.le h.buyDecimals, ok_bind, outboundLimit]

theorem counterMaxPrice_eq (h : c.Valid) : counterMaxPrice c = .ok (counterLimit c) := by
  have hbuyMin : c.amountBuyMin * unit c.pairBuyDecimals ≠ 0 :=
    (mul_pos h.amountBuyMin (unit_pos _)).ne'
  rw [counterMaxPrice, normalizeAmountToWad_eq h.amountBuyMin.le h.buyDecimals, ok_bind,
    if_neg hbuyMin, normalizeAmountToWad_eq h.amountSell.le h.sellDecimals, ok_bind, counterLimit]

theorem outboundLimit_nonneg (h : o.Valid) : 0 ≤ outboundLimit o :=
  Int.ediv_nonneg (mul_pos (mul_pos h.amountBuyMin (unit_pos _)) priceScale_pos).le
    (mul_pos h.amountSell (unit_pos _)).le

theorem clearingPrice_eq (ho : o.Valid) (hc : c.Valid) :
    clearingPrice o c = .ok ((outboundLimit o + counterLimit c) / 2) := by
  rw [clearingPrice, outboundMinPrice_eq ho, ok_bind, counterMaxPrice_eq hc, ok_bind]

theorem projectSellToBuy_eq {sellDecimals buyDecimals : ℤ} (hfill : 0 ≤ fill) (hprice : 0 ≤ price)
    (hsell : 0 ≤ sellDecimals ∧ sellDecimals ≤ 18) (hbuy : 0 ≤ buyDecimals ∧ buyDecimals ≤ 18) :
    projectSellToBuy fill price sellDecimals buyDecimals =
      .ok (fill * unit sellDecimals * price / priceScale / unit buyDecimals) := by
  have hwad : 0 ≤ fill * unit sellDecimals * price / priceScale :=
    Int.ediv_nonneg (mul_nonneg (mul_nonneg hfill (unit_pos _).le) hprice) priceScale_pos.le
  rw [projectSellToBuy, normalizeAmountToWad_eq hfill hsell, ok_bind,
    denormalizeAmountFromWad_eq hwad hbuy]

/-- What the counter's budget buys at a price. -/
def budgetAt (o c : MatchCandidate α) (price : ℤ) : ℤ :=
  c.amountSell * unit o.pairBuyDecimals * priceScale / price / unit o.pairSellDecimals

theorem budgetAt_nonneg (hc : c.Valid) (hprice : 0 < price) : 0 ≤ budgetAt o c price :=
  Int.ediv_nonneg (Int.ediv_nonneg (mul_pos (mul_pos hc.amountSell (unit_pos _))
    priceScale_pos).le hprice.le) (unit_pos _).le

theorem projectBuyToSell_eq (ho : o.Valid) (hc : c.Valid) (hprice : 0 < price) :
    projectBuyToSell c.amountSell price o.pairSellDecimals o.pairBuyDecimals =
      .ok (budgetAt o c price) := by
  have hwad : 0 ≤ c.amountSell * unit o.pairBuyDecimals * priceScale / price :=
    Int.ediv_nonneg (mul_pos (mul_pos hc.amountSell (unit_pos _)) priceScale_pos).le hprice.le
  rw [projectBuyToSell, if_neg hprice.ne', normalizeAmountToWad_eq hc.amountSell.le ho.buyDecimals,
    ok_bind, Int.fdiv_eq_ediv_of_nonneg _ hprice.le, denormalizeAmountFromWad_eq hwad
    ho.sellDecimals, budgetAt]

/-- A match at a price between the limits is rational. -/
theorem rational_of_price (ho : o.Valid) (hc : c.Valid) (hsame : SameDecimals o c)
    (hprice : 0 < price) (hlo : outboundLimit o ≤ price) (hhi : price ≤ counterLimit c)
    (hfill : 0 < fill) (hsell : fill ≤ o.amountSell) (hbudget : fill ≤ budgetAt o c price) :
    (MatchPair.mk o c fill price).Rational := by
  obtain ⟨hsellDecimals, hbuyDecimals⟩ := hsame
  rw [counterLimit, ← hsellDecimals, ← hbuyDecimals] at hhi
  have hu := unit_pos o.pairSellDecimals
  have hv := unit_pos o.pairBuyDecimals
  have hs := priceScale_pos
  have hle := fill_mul_price_le hu hprice hbudget
  have hpaid := received_mul_le hv hs (rfl : fill * unit o.pairSellDecimals * price / priceScale /
    unit o.pairBuyDecimals = _)
  have hreceived : 0 ≤ fill * unit o.pairSellDecimals * price / priceScale /
      unit o.pairBuyDecimals :=
    Int.ediv_nonneg (Int.ediv_nonneg (mul_pos (mul_pos hfill hu) hprice).le hs.le) hv.le
  have hshort := sub_le_received hu hs hfill ho.amountSell hlo (lt_received_add_one hv hs rfl)
  refine ⟨hfill, hsell, _, projectSellToBuy_eq hfill.le hprice.le ho.sellDecimals ho.buyDecimals,
    received_le_counterSell hv hs hle hpaid,
    received_mul_counterBuyMin_le hu hv hs hfill hc.amountBuyMin hhi hpaid, _, _, _, _,
    normalizeAmountToWad_eq hfill.le ho.sellDecimals,
    normalizeAmountToWad_eq hreceived ho.buyDecimals,
    normalizeAmountToWad_eq ho.amountBuyMin.le ho.buyDecimals,
    normalizeAmountToWad_eq zero_le_one ho.buyDecimals, ?_⟩
  rw [one_mul]
  simpa only [priceScale, Int.cast_pow, Int.cast_ofNat] using hshort

variable [DecidableEq α] [LowerCase α]

/-- A turn does not raise, and what it yields is rational. -/
theorem tryMatch_rational (ho : o.Valid) (hc : c.Valid)
    (hsame : isOpposingPair o c = true → SameDecimals o c) :
    ∃ result, tryMatch o c = .ok result ∧ ∀ m ∈ result, m.Rational := by
  have hnone : ∃ result, (.ok none : Except Exn (Option (MatchPair α))) = .ok result ∧
      ∀ m ∈ result, m.Rational := ⟨none, rfl, by simp⟩
  unfold tryMatch isPriceCompatible
  by_cases hopposing : isOpposingPair o c = true
  · rw [if_neg (by simp [hopposing]), outboundMinPrice_eq ho, ok_bind, counterMaxPrice_eq hc,
      ok_bind, ok_bind]
    split
    case isTrue => exact hnone
    case isFalse hcompatible =>
      have hle : outboundLimit o ≤ counterLimit c :=
        of_decide_eq_true (not_not.mp hcompatible)
      have hmin := outboundLimit_nonneg ho
      rw [fillAmount, clearingPrice_eq ho hc, ok_bind]
      split
      case isTrue => exact hnone
      case isFalse hne =>
        have hprice : 0 < (outboundLimit o + counterLimit c) / 2 := by omega
        rw [projectBuyToSell_eq ho hc hprice, ok_bind, ok_bind]
        split
        case isTrue => exact hnone
        case isFalse hfill =>
          refine ⟨_, rfl, fun m hm => ?_⟩
          cases hm
          have hfillPos := lt_of_le_of_ne
            (le_min ho.amountSell.le (budgetAt_nonneg (o := o) hc hprice)) (Ne.symm hfill)
          exact rational_of_price ho hc (hsame hopposing) hprice (by omega) (by omega) hfillPos
            (min_le_left _ _) (min_le_right _ _)
  · rw [if_pos hopposing, ok_bind]
    exact hnone

theorem tryMatch_eq_ok {m : MatchPair α} (h : tryMatch o c = .ok (some m)) :
    m.o = o ∧ m.c = c ∧ m.fillAmount ≠ 0 ∧ fillAmount o c = .ok m.fillAmount ∧
      clearingPrice o c = .ok m.clearingPrice ∧ isPriceCompatible o c = .ok true := by
  rw [tryMatch] at h
  obtain ⟨compatible, hcompatible, h⟩ := bind_eq_ok.mp h
  split at h
  · cases h
  · rename_i hyes
    obtain ⟨fill, hfill, h⟩ := bind_eq_ok.mp h
    split at h
    · cases h
    · rename_i hne
      obtain ⟨price, hprice, h⟩ := bind_eq_ok.mp h
      cases h
      rw [not_not.mp hyes] at hcompatible
      exact ⟨rfl, rfl, hne, hfill, hprice, hcompatible⟩

end Turn

/-! ## All matches -/

section Matches

theorem yieldAll_rational {turns : List (Except Exn (Option (MatchPair α)))}
    (h : ∀ turn ∈ turns, ∃ result, turn = .ok result ∧ ∀ m ∈ result, m.Rational) :
    (yieldAll turns).2 = .ok () ∧ ∀ m ∈ (yieldAll turns).1, m.Rational := by
  induction turns with
  | nil => exact ⟨rfl, by simp [yieldAll]⟩
  | cons turn turns ih =>
      obtain ⟨hend, hyields⟩ := ih fun turn hturn => h turn (List.mem_cons_of_mem _ hturn)
      obtain ⟨result, rfl, hresult⟩ := h turn List.mem_cons_self
      cases result with
      | none => exact ⟨hend, hyields⟩
      | some m =>
          refine ⟨hend, fun m' hm' => ?_⟩
          rcases List.mem_cons.mp hm' with rfl | hm'
          · exact hresult m' rfl
          · exact hyields m' hm'

theorem mem_yieldAll {turns : List (Except Exn (Option (MatchPair α)))} {m : MatchPair α}
    (h : m ∈ (yieldAll turns).1) : .ok (some m) ∈ turns := by
  induction turns with
  | nil => simp [yieldAll] at h
  | cons turn turns ih =>
      match turn with
      | .error e => simp [yieldAll] at h
      | .ok none => exact List.mem_cons_of_mem _ (ih h)
      | .ok (some first) =>
          rcases List.mem_cons.mp h with rfl | h
          · exact List.mem_cons_self
          · exact List.mem_cons_of_mem _ (ih h)

variable [DecidableEq α] [LowerCase α]

/-- Every pair comes from the turn of its two sides. -/
theorem mem_findMatches {outbound inbound uniswapx : List (MatchCandidate α)} {m : MatchPair α}
    (h : m ∈ (findMatches outbound inbound uniswapx).1) :
    m.o ∈ outbound ∧ m.c ∈ inbound ++ uniswapx ∧ tryMatch m.o m.c = .ok (some m) := by
  obtain ⟨o, ho, hturn⟩ := List.mem_flatMap.mp (mem_yieldAll h)
  obtain ⟨c, hc, hmatch⟩ := List.mem_map.mp hturn
  obtain ⟨rfl, rfl, -⟩ := tryMatch_eq_ok hmatch
  exact ⟨ho, hc, hmatch⟩

theorem findBestMatch_spec {outbound inbound uniswapx : List (MatchCandidate α)} {m : MatchPair α}
    (h : findBestMatch outbound inbound uniswapx = .ok (some m)) :
    m.o ∈ outbound ∧ m.c ∈ inbound ++ uniswapx ∧ tryMatch m.o m.c = .ok (some m) := by
  unfold findBestMatch at h
  obtain ⟨_, -, h⟩ := bind_eq_ok.mp h
  apply mem_findMatches
  refine mem_of_foldl_choice ?_ (Except.ok.inj h)
  intro best x
  cases best with
  | none => exact .inr rfl
  | some b =>
      by_cases hgt : x.fillAmount > b.fillAmount
      · exact .inr (if_pos hgt)
      · exact .inl (if_neg hgt)

/-- The matcher runs to its end, and every pair that it yields is feasible and rational. -/
theorem findMatches_rational (outbound inbound uniswapx : List (MatchCandidate α))
    (houtbound : ∀ o ∈ outbound, o.Valid) (hcounters : ∀ c ∈ inbound ++ uniswapx, c.Valid)
    (hsame : ∀ o ∈ outbound, ∀ c ∈ inbound ++ uniswapx, isOpposingPair o c = true →
      SameDecimals o c) :
    (findMatches outbound inbound uniswapx).2 = .ok () ∧
      ∀ m ∈ (findMatches outbound inbound uniswapx).1, m.Rational := by
  apply yieldAll_rational
  intro turn hturn
  obtain ⟨o, ho, hturn⟩ := List.mem_flatMap.mp hturn
  obtain ⟨c, hc, rfl⟩ := List.mem_map.mp hturn
  exact tryMatch_rational (houtbound o ho) (hcounters c hc) (hsame o ho c hc)

end Matches

/-- An order of a token with 6 decimals for one with 18, and the other way round. -/
def sampleOutbound : MatchCandidate String :=
  ⟨"out-1", "0xAa", "0xbB", 6, 18, 3000000, 10 ^ 15, .native, 0⟩

def sampleInbound : MatchCandidate String :=
  ⟨"in-1", "0xBB", "0xaa", 18, 6, 2 * 10 ^ 15, 3000001, .native, 0⟩

theorem toLower_eq_of_toList {a b : String}
    (h : a.toList.map Char.toLower = b.toList.map Char.toLower) : a.toLower = b.toLower := by
  refine String.toList_inj.mp ?_
  change (a.map Char.toLower).toList = (b.map Char.toLower).toList
  rw [String.toList_map, String.toList_map, h]

theorem sample_isOpposingPair : isOpposingPair sampleOutbound sampleInbound = true :=
  decide_eq_true ⟨toLower_eq_of_toList (by decide), toLower_eq_of_toList (by decide)⟩

theorem sample_isPriceCompatible : isPriceCompatible sampleOutbound sampleInbound = .ok true := by
  unfold isPriceCompatible
  rw [if_neg (not_not.mpr sample_isOpposingPair)]
  decide

theorem sample_tryMatch : tryMatch sampleOutbound sampleInbound =
    .ok (some ⟨sampleOutbound, sampleInbound, 3000000, 499999888888925⟩) := by
  rw [tryMatch, sample_isPriceCompatible]
  decide

theorem findMatches_rational_sample :
    ∃ m ∈ (findMatches [sampleOutbound] [sampleInbound] []).1, m.fillAmount = 3000000 ∧
      m.Rational := by
  have hvalid : sampleOutbound.Valid ∧ sampleInbound.Valid :=
    ⟨⟨by decide, by decide, by decide, by decide⟩, ⟨by decide, by decide, by decide, by decide⟩⟩
  have hrational := (findMatches_rational [sampleOutbound] [sampleInbound] []
    (by simpa using hvalid.1) (by simpa using hvalid.2) (by simp [SameDecimals, sampleOutbound,
      sampleInbound])).2
  have hfill : ((findMatches [sampleOutbound] [sampleInbound] []).1.map
      MatchPair.fillAmount).head? = some 3000000 := by
    simp [findMatches, sample_tryMatch, yieldAll]
  cases hmatches : (findMatches [sampleOutbound] [sampleInbound] []).1 with
  | nil => simp [hmatches] at hfill
  | cons m rest =>
      rw [hmatches] at hfill hrational
      exact ⟨m, List.mem_cons_self, by simpa using hfill, hrational m List.mem_cons_self⟩

end Degenbot.PriceCompat
