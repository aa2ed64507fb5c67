import Degenbot.Algorithm.Matching
import Degenbot.Library.Lists
import Mathlib.Tactic

/-! # Feasibility of internal matches

`fill_amount` compares the taker's sell amount with the counter's sell amount, but the two
are amounts of different tokens: the counter's budget is never divided by the price. -/

namespace Degenbot

/-! ## The contract -/

/-- What the counter gives for the fill at the clearing price. -/
def MatchPair.counterAmount (m : MatchPair) : ℕ := m.fillAmount * m.clearingPrice / priceScale

/-- The pair is feasible and individually rational, up to one unit of the token received. -/
structure MatchPair.Rational (m : MatchPair) : Prop where
  fill_le : m.fillAmount ≤ m.o.amountSell
  counter_le : m.counterAmount ≤ m.c.amountSell
  taker : m.o.amountBuyMin * m.fillAmount ≤ (m.counterAmount + 1) * m.o.amountSell
  counter : m.c.amountBuyMin * m.counterAmount ≤ (m.fillAmount + 1) * m.c.amountSell

/-! ## The condition on the orders -/

namespace MatchCandidate

/-- Midpoint of the limit prices of two orders. -/
def midpoint (o c : MatchCandidate) : ℕ :=
  wrapU256 (wrapU256 (o.amountBuyMin * priceScale) / o.amountSell +
    wrapU256 (c.amountSell * priceScale) / c.amountBuyMin) / 2

/-- The counter's sell amount, rounded through its limit price and not converted. -/
def unconverted (c : MatchCandidate) : ℕ :=
  c.amountBuyMin * (wrapU256 (c.amountSell * priceScale) / c.amountBuyMin) / priceScale

/-- The counter can pay for the whole taker order, or for its own figure counted in the
taker's token; and the midpoint misses the taker's limit by less than a unit in all. -/
structure Settles (o c : MatchCandidate) : Prop where
  budget : o.amountSell * midpoint o c < (c.amountSell + 1) * priceScale ∨
    unconverted c * midpoint o c < (c.amountSell + 1) * priceScale
  limit : min o.amountSell (unconverted c) *
      (o.amountBuyMin * priceScale - o.amountSell * midpoint o c) ≤
    o.amountSell * (priceScale - min o.amountSell (unconverted c) * midpoint o c % priceScale)

end MatchCandidate

/-! ## What the matcher emits -/

theorem tryMatch_eq_some {o c : MatchCandidate} {m : MatchPair} :
    tryMatch o c = some m ↔ isPriceCompatible o c ∧ fillAmount o c ≠ 0 ∧
      m = ⟨o, c, fillAmount o c, clearingPrice o c⟩ := by
  unfold tryMatch
  by_cases hcompat : isPriceCompatible o c
  · by_cases hfill : fillAmount o c = 0
    · simp [hcompat, hfill]
    · simp [hcompat, hfill, eq_comm]
  · simp [hcompat]

theorem mem_findMatches {outbound counters : List MatchCandidate} {m : MatchPair} :
    m ∈ findMatches outbound counters ↔
      ∃ o ∈ outbound, ∃ c ∈ counters, tryMatch o c = some m := by
  simp [findMatches]

/-- The best match is one of the matches. -/
theorem findBestMatch_mem {outbound counters : List MatchCandidate} {m : MatchPair}
    (h : findBestMatch outbound counters = some m) : m ∈ findMatches outbound counters := by
  refine Library.mem_of_foldl_choice (fun best m => ?_) h
  cases best with
  | none => exact .inr rfl
  | some b =>
      by_cases hgt : m.fillAmount > b.fillAmount
      · exact .inr (if_pos hgt)
      · exact .inl (if_neg hgt)

theorem exists_tryMatch {outbound counters : List MatchCandidate} {m : MatchPair}
    (hm : m ∈ findMatches outbound counters ∨ findBestMatch outbound counters = some m) :
    tryMatch m.o m.c = some m := by
  have hmem : m ∈ findMatches outbound counters := hm.elim id findBestMatch_mem
  obtain ⟨o, _, c, _, htry⟩ := mem_findMatches.mp hmem
  obtain ⟨_, _, rfl⟩ := tryMatch_eq_some.mp htry
  exact htry

/-! ## Prices -/

theorem wrapU256_le (value : ℕ) : wrapU256 value ≤ value := Nat.mod_le _ _

theorem wrapU256_of_lt {value : ℕ} (h : value < 2 ^ 256) : wrapU256 value = value :=
  Nat.mod_eq_of_lt h

theorem counterMaxPrice_mul_le (c : MatchCandidate) :
    c.amountBuyMin * counterMaxPrice c ≤ wrapU256 (c.amountSell * priceScale) := by
  unfold counterMaxPrice
  split
  · simp
  · exact Nat.mul_div_le _ _

/-- The product in `fill_amount` does not wrap. -/
theorem fillAmount_eq {o c : MatchCandidate} (hc : c.amountBuyMin ≠ 0) :
    fillAmount o c = min o.amountSell c.unconverted := by
  have hlt : c.amountBuyMin * counterMaxPrice c < 2 ^ 256 :=
    (counterMaxPrice_mul_le c).trans_lt (Nat.mod_lt _ (by norm_num))
  simp only [fillAmount, wrapU256_of_lt hlt, MatchCandidate.unconverted]
  simp only [counterMaxPrice, if_neg hc]

theorem clearingPrice_eq {o c : MatchCandidate} (ho : o.amountSell ≠ 0)
    (hc : c.amountBuyMin ≠ 0) : clearingPrice o c = o.midpoint c := by
  simp only [clearingPrice, outboundMinPrice, counterMaxPrice, if_neg ho, if_neg hc,
    MatchCandidate.midpoint]

theorem clearingPrice_le {o c : MatchCandidate} (h : isPriceCompatible o c) :
    clearingPrice o c ≤ counterMaxPrice c := by
  have hle : outboundMinPrice o ≤ counterMaxPrice c := by
    unfold isPriceCompatible at h
    split at h
    · cases h
    · simpa using h
  have hwrap := wrapU256_le (outboundMinPrice o + counterMaxPrice c)
  simp only [clearingPrice]
  omega

/-- A filled pair sells and asks for something. -/
theorem amounts_ne_zero {o c : MatchCandidate} (h : fillAmount o c ≠ 0) :
    o.amountSell ≠ 0 ∧ c.amountBuyMin ≠ 0 := by
  constructor
  · rintro ho
    simp [fillAmount, ho] at h
  · rintro hc
    simp [fillAmount, hc, wrapU256] at h

/-! ## The four parts of the contract -/

theorem priceScale_pos : 0 < priceScale := by decide

/-- The clearing price is never worse for the counter than its limit. -/
theorem counter_rational {o c : MatchCandidate} (h : isPriceCompatible o c) (fill : ℕ) :
    c.amountBuyMin * (fill * clearingPrice o c / priceScale) ≤ (fill + 1) * c.amountSell := by
  have hprice : c.amountBuyMin * clearingPrice o c ≤ c.amountSell * priceScale :=
    calc c.amountBuyMin * clearingPrice o c
        ≤ c.amountBuyMin * counterMaxPrice c := Nat.mul_le_mul_left _ (clearingPrice_le h)
      _ ≤ wrapU256 (c.amountSell * priceScale) := counterMaxPrice_mul_le c
      _ ≤ c.amountSell * priceScale := wrapU256_le _
  have hfloor : fill * clearingPrice o c / priceScale * priceScale ≤ fill * clearingPrice o c :=
    Nat.div_mul_le_self _ _
  refine Nat.le_of_mul_le_mul_right ?_ priceScale_pos
  calc c.amountBuyMin * (fill * clearingPrice o c / priceScale) * priceScale
      = c.amountBuyMin * (fill * clearingPrice o c / priceScale * priceScale) := by ring
    _ ≤ c.amountBuyMin * (fill * clearingPrice o c) := Nat.mul_le_mul_left _ hfloor
    _ = fill * (c.amountBuyMin * clearingPrice o c) := by ring
    _ ≤ fill * (c.amountSell * priceScale) := Nat.mul_le_mul_left _ hprice
    _ ≤ (fill + 1) * c.amountSell * priceScale := by
        rw [mul_assoc]
        exact Nat.mul_le_mul_right _ (Nat.le_succ fill)

theorem counter_le_iff (sell unconverted price amount : ℕ) :
    min sell unconverted * price / priceScale ≤ amount ↔
      sell * price < (amount + 1) * priceScale ∨
        unconverted * price < (amount + 1) * priceScale := by
  rw [← Nat.lt_succ_iff, Nat.div_lt_iff_lt_mul priceScale_pos, ← Nat.mul_min_mul_right,
    min_lt_iff]

theorem taker_iff (fill price buyMin sell : ℕ) :
    buyMin * fill ≤ (fill * price / priceScale + 1) * sell ↔
      fill * (buyMin * priceScale - sell * price) ≤
        sell * (priceScale - fill * price % priceScale) := by
  have hfill := Nat.div_add_mod (fill * price) priceScale
  obtain ⟨e, he⟩ := Nat.exists_eq_add_of_le (Nat.mod_lt (fill * price) priceScale_pos).le
  generalize fill * price / priceScale = q at *
  generalize fill * price % priceScale = r at *
  have hrest : priceScale - r = e := by omega
  have hpaid : (q + 1) * sell * priceScale = fill * (sell * price) + sell * e := by
    calc (q + 1) * sell * priceScale = sell * (priceScale * q + priceScale) := by ring
      _ = sell * (priceScale * q + r + e) := by rw [add_assoc, ← he]
      _ = fill * (sell * price) + sell * e := by rw [hfill]; ring
  rw [← Nat.mul_le_mul_right_iff priceScale_pos, hpaid, hrest,
    show buyMin * fill * priceScale = fill * (buyMin * priceScale) by ring]
  rcases Nat.le_total (sell * price) (buyMin * priceScale) with hle | hle
  · obtain ⟨d, hd⟩ := Nat.exists_eq_add_of_le hle
    rw [hd, Nat.add_sub_cancel_left, Nat.mul_add, Nat.add_le_add_iff_left]
  · rw [Nat.sub_eq_zero_of_le hle]
    have hkept := Nat.mul_le_mul_left fill hle
    exact iff_of_true (by omega) (by simp)

/-! ## Main result -/

/-- A match is feasible and rational exactly when its orders settle at their midpoint. -/
theorem match_rational_iff {outbound counters : List MatchCandidate} {m : MatchPair}
    (hm : m ∈ findMatches outbound counters ∨ findBestMatch outbound counters = some m) :
    m.Rational ↔ m.o.Settles m.c := by
  obtain ⟨hcompat, hfill, heq⟩ := tryMatch_eq_some.mp (exists_tryMatch hm)
  obtain ⟨ho, hc⟩ := amounts_ne_zero hfill
  generalize m.o = o at *
  generalize m.c = c at *
  subst heq
  have hfillEq := fillAmount_eq (o := o) hc
  have hpriceEq := clearingPrice_eq ho hc
  constructor
  · intro h
    have hcounter := h.counter_le
    have htaker := h.taker
    simp only [MatchPair.counterAmount, hfillEq, hpriceEq] at hcounter htaker
    exact ⟨(counter_le_iff ..).mp hcounter, (taker_iff ..).mp htaker⟩
  · intro h
    refine ⟨Nat.min_le_left _ _, ?_, ?_, counter_rational hcompat _⟩
    · simp only [MatchPair.counterAmount, hfillEq, hpriceEq]
      exact (counter_le_iff ..).mpr h.budget
    · simp only [MatchPair.counterAmount, hfillEq, hpriceEq]
      exact (taker_iff ..).mpr h.limit

/-- 100 sold for at least 50, against 80 sold for at least 100. -/
theorem match_rational_half_price :
    ∃ m ∈ findMatches [⟨1, 2, 100, 50⟩] [⟨2, 1, 80, 100⟩], m.Rational := by
  have hmem : (⟨⟨1, 2, 100, 50⟩, ⟨2, 1, 80, 100⟩, 80, 65 * 10 ^ 16⟩ : MatchPair) ∈
      findMatches [⟨1, 2, 100, 50⟩] [⟨2, 1, 80, 100⟩] := by decide
  exact ⟨_, hmem, (match_rational_iff (.inl hmem)).mpr ⟨by decide, by decide⟩⟩

/-- 1000 sold for at least 2000, against 300 sold for at least 100: the fill of 300 costs
the counter 750. -/
theorem match_overdraws_counter :
    ∃ m ∈ findMatches [⟨1, 2, 1000, 2000⟩] [⟨2, 1, 300, 100⟩],
      m.c.amountSell = 300 ∧ m.counterAmount = 750 ∧ ¬m.Rational := by
  refine ⟨⟨⟨1, 2, 1000, 2000⟩, ⟨2, 1, 300, 100⟩, 300, 25 * 10 ^ 17⟩, by decide, rfl,
    by decide, fun h => ?_⟩
  have hle := h.counter_le
  revert hle
  decide

end Degenbot
