import Degenbot.Verification.TickBitmap.Walk
import Degenbot.Library.SortedSearch

/-! # The two one-word searches

On a consistent map both `next_initialized_tick_within_one_word` and its legacy form,
which scans the bitmap, return the next stop of the walk. -/

namespace Degenbot

open Library

/-- The bitmap and the tick mapping describe the same set of initialized ticks. Words
that are absent from the bitmap say nothing. -/
structure ConsistentTickMap (tickBitmap : InitializedTickMap) (tickData : LiquidityMap)
    (tickSpacing : ℤ) : Prop where
  spacing_pos : 0 < tickSpacing
  aligned : ∀ t ∈ tickData, tickSpacing ∣ t
  bits : ∀ wordPos word, tickBitmap.lookup wordPos = some word →
    ∀ bitPos < 256, word.bitmap.testBit bitPos = true ↔
      (256 * wordPos + bitPos) * tickSpacing ∈ tickData

theorem consistentTickMap_iff {tickBitmap : InitializedTickMap} {tickData : LiquidityMap}
    {tickSpacing : ℤ} : ConsistentTickMap tickBitmap tickData tickSpacing ↔
      0 < tickSpacing ∧ (∀ t ∈ tickData.keys, tickSpacing ∣ t) ∧
        ∀ entry ∈ tickBitmap.entries, ∀ bitPos < 256, entry.2.bitmap.testBit bitPos = true ↔
          (256 * entry.1 + bitPos) * tickSpacing ∈ tickData := by
  constructor
  · rintro ⟨hs, haligned, hbits⟩
    refine ⟨hs, fun t ht => haligned t (AList.mem_keys.mp ht), ?_⟩
    rintro ⟨wordPos, word⟩ hentry
    exact hbits wordPos word (AList.mem_lookup_iff.mpr hentry)
  · rintro ⟨hs, haligned, hbits⟩
    refine ⟨hs, fun t ht => haligned t (AList.mem_keys.mpr ht), ?_⟩
    intro wordPos word hlookup
    exact hbits ⟨wordPos, word⟩ (AList.mem_lookup_iff.mp hlookup)

instance (tickBitmap : InitializedTickMap) (tickData : LiquidityMap) (tickSpacing : ℤ) :
    Decidable (ConsistentTickMap tickBitmap tickData tickSpacing) :=
  decidable_of_iff _ consistentTickMap_iff.symm

/-! ## Sorted keys -/

theorem sorted_pairwise (xs : List ℤ) : (sorted xs).Pairwise (· ≤ ·) :=
  List.pairwise_insertionSort _ _

@[simp] theorem mem_sorted {xs : List ℤ} {x : ℤ} : x ∈ sorted xs ↔ x ∈ xs :=
  (List.perm_insertionSort _ _).mem_iff

theorem bisectLeft_pred_isGreatest {xs : List ℤ} {tick : ℤ}
    (h : bisectLeft (sorted xs) tick ≠ 0) :
    IsGreatest {t | t ∈ xs ∧ t < tick}
      ((sorted xs).getD (bisectLeft (sorted xs) tick - 1) 0) := by
  have hsplit := isGreatest_before_split (p := (· < tick)) (sorted_pairwise xs)
    (fun a b hab hb => by simp at *; omega) h 0
  simpa [bisectLeft] using hsplit

theorem bisectLeft_eq_zero {xs : List ℤ} {tick : ℤ} (h : bisectLeft (sorted xs) tick = 0) :
    ∀ t ∈ xs, tick ≤ t := by
  intro t ht
  by_contra hlt
  have hin := (mem_takeWhile_iff_of_sorted (p := (· < tick)) (sorted_pairwise xs)
    (fun a b hab hb => by simp at *; omega) t).mpr ⟨mem_sorted.mpr ht, by simpa using hlt⟩
  have hnil := List.length_eq_zero_iff.mp h
  simp [hnil] at hin

theorem bisectRight_isLeast {xs : List ℤ} {tick : ℤ}
    (h : bisectRight (sorted xs) tick ≠ (sorted xs).length) :
    IsLeast {t | t ∈ xs ∧ tick < t} ((sorted xs).getD (bisectRight (sorted xs) tick) 0) := by
  have hsplit := isLeast_at_split (p := (· ≤ tick)) (sorted_pairwise xs)
    (fun a b hab hb => by simp at *; omega) h 0
  simpa [bisectRight] using hsplit

theorem bisectRight_eq_length {xs : List ℤ} {tick : ℤ}
    (h : bisectRight (sorted xs) tick = (sorted xs).length) : ∀ t ∈ xs, t ≤ tick := by
  intro t ht
  have hall : (sorted xs).takeWhile (· ≤ tick) = sorted xs :=
    (List.takeWhile_prefix _).eq_of_length h
  have hin : t ∈ (sorted xs).takeWhile (· ≤ tick) := by simpa [hall] using ht
  simpa using (mem_takeWhile_iff_of_sorted (p := (· ≤ tick)) (sorted_pairwise xs)
    (fun a b hab hb => by simp at *; omega) t).mp hin |>.2

/-! ## The search over sorted keys -/

theorem nextInitializedTickWithinOneWord_down {tickBitmap : InitializedTickMap}
    {tickData : LiquidityMap} {tickSpacing tick : ℤ} (hs : 0 < tickSpacing)
    (hword : touchedWord tickSpacing true tick ∈ tickBitmap) :
    ∃ next, IsNextStop tickData tickSpacing true tick next ∧
      nextInitializedTickWithinOneWord tickBitmap tickData tick tickSpacing true =
        .ok (next, decide (next ∈ tickData)) := by
  obtain ⟨q, -, hle, -⟩ := boundaryTick_down_spec hs tick
  have hlow : tickSpacing * (256 * (position (tick.fdiv tickSpacing)).1) =
      boundaryTick tickSpacing true tick := by
    simp [boundaryTick, touchedWord]
  have hword' : (position (tick.fdiv tickSpacing)).1 ∈ tickBitmap := by
    simpa [touchedWord] using hword
  by_cases hin : tick ∈ tickData
  · refine ⟨tick, ⟨⟨.inl hin, le_rfl⟩, fun t ht => ht.2⟩, ?_⟩
    simp [nextInitializedTickWithinOneWord, hin]
  have hne : ∀ t ∈ tickData, t ≤ tick → t < tick := fun t ht hta =>
    lt_of_le_of_ne hta fun heq => hin (heq ▸ ht)
  by_cases hzero : bisectLeft (sorted tickData.keys) tick = 0
  · -- no initialized tick is left below: the boundary stops the search
    refine ⟨boundaryTick tickSpacing true tick, ⟨⟨.inr rfl, hle⟩, ?_⟩, ?_⟩
    · rintro t ⟨ht | rfl, hta⟩
      · have hge := bisectLeft_eq_zero hzero t (AList.mem_keys.mpr ht)
        have hlt := hne t ht hta
        omega
      · exact le_rfl
    · simp [nextInitializedTickWithinOneWord, hin, hword', hzero, hlow]
  · have hgreatest := bisectLeft_pred_isGreatest hzero
    set pred := (sorted tickData.keys).getD (bisectLeft (sorted tickData.keys) tick - 1) 0
      with hpred
    refine ⟨max (boundaryTick tickSpacing true tick) pred, ⟨⟨?_, ?_⟩, ?_⟩, ?_⟩
    · rcases max_choice (boundaryTick tickSpacing true tick) pred with hmax | hmax
      · exact .inr hmax
      · rw [hmax]
        exact .inl (AList.mem_keys.mp hgreatest.1.1)
    · exact max_le hle hgreatest.1.2.le
    · rintro t ⟨ht | rfl, hta⟩
      · exact le_max_of_le_right (hgreatest.2 ⟨AList.mem_keys.mpr ht, hne t ht hta⟩)
      · exact le_max_left _ _
    · simp [nextInitializedTickWithinOneWord, hin, hword', hzero, hlow, hpred]

theorem nextInitializedTickWithinOneWord_up {tickBitmap : InitializedTickMap}
    {tickData : LiquidityMap} {tickSpacing tick : ℤ} (hs : 0 < tickSpacing)
    (hword : touchedWord tickSpacing false tick ∈ tickBitmap) :
    ∃ next, IsNextStop tickData tickSpacing false tick next ∧
      nextInitializedTickWithinOneWord tickBitmap tickData tick tickSpacing false =
        .ok (next, decide (next ∈ tickData)) := by
  obtain ⟨q, -, -, hlt⟩ := boundaryTick_up_spec hs tick
  have hhigh : tickSpacing * (256 * (position (tick.fdiv tickSpacing + 1)).1) +
      tickSpacing * 255 = boundaryTick tickSpacing false tick := by
    simp only [boundaryTick, touchedWord, Bool.false_eq_true, if_false]
    ring
  have hword' : (position (tick.fdiv tickSpacing + 1)).1 ∈ tickBitmap := by
    simpa [touchedWord] using hword
  by_cases hlen : bisectRight (sorted tickData.keys) tick = (sorted tickData.keys).length
  · refine ⟨boundaryTick tickSpacing false tick, ⟨⟨.inr rfl, hlt⟩, ?_⟩, ?_⟩
    · rintro t ⟨ht | rfl, hta⟩
      · have hge := bisectRight_eq_length hlen t (AList.mem_keys.mpr ht)
        omega
      · exact le_rfl
    · simp [nextInitializedTickWithinOneWord, hword', hlen, hhigh]
  · have hleast := bisectRight_isLeast hlen
    set succ := (sorted tickData.keys).getD (bisectRight (sorted tickData.keys) tick) 0
      with hsucc
    refine ⟨min (boundaryTick tickSpacing false tick) succ, ⟨⟨?_, ?_⟩, ?_⟩, ?_⟩
    · rcases min_choice (boundaryTick tickSpacing false tick) succ with hmin | hmin
      · exact .inr hmin
      · rw [hmin]
        exact .inl (AList.mem_keys.mp hleast.1.1)
    · exact lt_min hlt hleast.1.2
    · rintro t ⟨ht | rfl, hta⟩
      · exact min_le_of_right_le (hleast.2 ⟨AList.mem_keys.mpr ht, hta⟩)
      · exact min_le_left _ _
    · simp [nextInitializedTickWithinOneWord, hword', hlen, hhigh, hsucc]

/-- The search over sorted keys returns the next stop. -/
theorem nextInitializedTickWithinOneWord_spec {tickBitmap : InitializedTickMap}
    (tickData : LiquidityMap) {tickSpacing tick : ℤ} {lte : Bool} (hs : 0 < tickSpacing)
    (hword : touchedWord tickSpacing lte tick ∈ tickBitmap) :
    ∃ next, IsNextStop tickData tickSpacing lte tick next ∧
      nextInitializedTickWithinOneWord tickBitmap tickData tick tickSpacing lte =
        .ok (next, decide (next ∈ tickData)) := by
  cases lte with
  | true => exact nextInitializedTickWithinOneWord_down hs hword
  | false => exact nextInitializedTickWithinOneWord_up hs hword

/-! ## The search over bits -/

theorem mostSignificantBit_spec {n : ℕ} (hpos : n ≠ 0) (hlt : n < 2 ^ 256) :
    ∃ msb, mostSignificantBit n = .ok msb ∧ n.testBit msb = true ∧
      ∀ i, n.testBit i = true → i ≤ msb := by
  have hne : n.bits.getLast? = some true := bits_getLast hpos
  have hrev : n.bits.reverse.idxOf true = 0 := by
    rw [← List.head?_reverse] at hne
    cases hdigits : n.bits.reverse with
    | nil => simp [hdigits] at hne
    | cons digit digits =>
        rw [hdigits] at hne
        simp [Option.some.inj hne]
  obtain ⟨hset, hmax⟩ := testBit_length_bits hpos
  refine ⟨n.bits.length - 1, ?_, hset, hmax⟩
  have hmaxU : ¬(n : ℤ) > maxUint256 := by
    simp only [maxUint256]
    omega
  simp [mostSignificantBit, hpos, hmaxU, binaryDigits, hrev]

theorem leastSignificantBit_spec {n : ℕ} (hpos : n ≠ 0) (hlt : n < 2 ^ 256) :
    ∃ lsb, leastSignificantBit n = .ok lsb ∧ n.testBit lsb = true ∧
      ∀ i, n.testBit i = true → lsb ≤ i := by
  obtain ⟨hset, hmin⟩ := testBit_idxOf_bits hpos
  refine ⟨n.bits.idxOf true, ?_, hset, hmin⟩
  have hmaxU : ¬(n : ℤ) > maxUint256 := by
    simp only [maxUint256]
    omega
  simp [leastSignificantBit, hpos, hmaxU, binaryDigits]

/-- The bits of the downward mask are those at or to the right of `bitPos`. -/
theorem testBit_mask_down (bitmap bitPos i : ℕ) :
    (bitmap &&& (2 * (1 <<< bitPos) - 1)).testBit i = true ↔
      bitmap.testBit i = true ∧ i ≤ bitPos := by
  have hmask : 2 * (1 <<< bitPos) - 1 = 2 ^ (bitPos + 1) - 1 := by
    rw [Nat.one_shiftLeft, Nat.pow_succ']
  rw [hmask, Nat.testBit_and, Nat.testBit_two_pow_sub_one]
  simp

/-- The bits of the upward mask are those at or to the left of `bitPos`. -/
theorem testBit_mask_up (bitmap bitPos i : ℕ) :
    (Nat.ldiff bitmap ((1 <<< bitPos) - 1)).testBit i = true ↔
      bitmap.testBit i = true ∧ bitPos ≤ i := by
  rw [Nat.one_shiftLeft, Nat.testBit_ldiff, Nat.testBit_two_pow_sub_one]
  simp

theorem position_eq (compressed : ℤ) :
    compressed = 256 * (position compressed).1 + ((position compressed).2 : ℤ) := by
  rw [position_fst]
  simp only [position]
  omega

/-- The ticks of a word at or below `tick` are its bits at or to the right of the bit
of `tick`. -/
theorem exists_bit_of_le {tickSpacing tick t wordPos : ℤ} {bitPos : ℕ} (hs : 0 < tickSpacing)
    (hpos : tick.fdiv tickSpacing = 256 * wordPos + bitPos) (hdvd : tickSpacing ∣ t)
    (hlow : tickSpacing * (256 * wordPos) ≤ t) (hle : t ≤ tick) :
    ∃ i : ℕ, i ≤ bitPos ∧ t = (256 * wordPos + i) * tickSpacing := by
  obtain ⟨k, rfl⟩ := hdvd
  rw [Int.fdiv_eq_ediv_of_nonneg _ hs.le] at hpos
  have hk : k ≤ 256 * wordPos + bitPos := by
    rw [← hpos, Int.le_ediv_iff_mul_le hs]
    linarith
  have hk' : 256 * wordPos ≤ k := le_of_mul_le_mul_left hlow hs
  obtain ⟨i, hi⟩ := Int.eq_ofNat_of_zero_le (sub_nonneg.mpr hk')
  refine ⟨i, by omega, ?_⟩
  rw [← hi]
  ring

/-- The ticks of a word above `tick` are its bits at or to the left of the bit of the
first tick above. -/
theorem exists_bit_of_gt {tickSpacing tick t wordPos : ℤ} {bitPos : ℕ} (hs : 0 < tickSpacing)
    (hpos : tick.fdiv tickSpacing + 1 = 256 * wordPos + bitPos) (hdvd : tickSpacing ∣ t)
    (hhigh : t ≤ tickSpacing * (256 * wordPos + 255)) (hlt : tick < t) :
    ∃ i : ℕ, bitPos ≤ i ∧ i < 256 ∧ t = (256 * wordPos + i) * tickSpacing := by
  obtain ⟨k, rfl⟩ := hdvd
  rw [Int.fdiv_eq_ediv_of_nonneg _ hs.le] at hpos
  have hk : tick / tickSpacing < k := by
    rw [Int.ediv_lt_iff_lt_mul hs]
    linarith
  have hk' : k ≤ 256 * wordPos + 255 := le_of_mul_le_mul_left hhigh hs
  obtain ⟨i, hi⟩ := Int.eq_ofNat_of_zero_le (a := k - 256 * wordPos) (by omega)
  refine ⟨i, by omega, by omega, ?_⟩
  rw [← hi]
  ring

theorem nextInitializedTickWithinOneWordLegacy_down {tickBitmap : InitializedTickMap}
    {tickData : LiquidityMap} {tickSpacing tick : ℤ}
    (hcons : ConsistentTickMap tickBitmap tickData tickSpacing)
    (hword : touchedWord tickSpacing true tick ∈ tickBitmap) :
    ∃ next, IsNextStop tickData tickSpacing true tick next ∧
      nextInitializedTickWithinOneWordLegacy tickBitmap tick tickSpacing true =
        .ok (next, decide (next ∈ tickData)) := by
  have hs := hcons.spacing_pos
  have hpos := position_eq (tick.fdiv tickSpacing)
  have hbit := position_snd_lt (tick.fdiv tickSpacing)
  have hlow : boundaryTick tickSpacing true tick =
      tickSpacing * (256 * (position (tick.fdiv tickSpacing)).1) := by
    simp [boundaryTick, touchedWord]
  obtain ⟨word, hlookup⟩ := Option.isSome_iff_exists.mp (AList.lookup_isSome.mpr hword)
  replace hlookup : tickBitmap.lookup (position (tick.fdiv tickSpacing)).1 = some word := by
    simpa [touchedWord] using hlookup
  have hbits := hcons.bits _ word hlookup
  generalize hw : (position (tick.fdiv tickSpacing)).1 = wordPos at *
  generalize hb : (position (tick.fdiv tickSpacing)).2 = bitPos at *
  have hfloor : (256 * wordPos + bitPos) * tickSpacing ≤ tick := by
    rw [← hpos, Int.fdiv_eq_ediv_of_nonneg _ hs.le]
    exact Int.ediv_mul_le _ hs.ne'
  have hin : ∀ i, (word.bitmap &&& (2 * (1 <<< bitPos) - 1)).testBit i = true ↔
      i ≤ bitPos ∧ (256 * wordPos + i) * tickSpacing ∈ tickData := by
    intro i
    rw [testBit_mask_down]
    constructor
    · rintro ⟨hset, hi⟩
      exact ⟨hi, (hbits i (by omega)).mp hset⟩
    · rintro ⟨hi, hmem⟩
      exact ⟨(hbits i (by omega)).mpr hmem, hi⟩
  have hpair : position (tick.fdiv tickSpacing) = (wordPos, bitPos) := Prod.ext hw hb
  have hlookup' : tickBitmap.lookup (position (tick.fdiv tickSpacing)).1 = some word :=
    hw ▸ hlookup
  by_cases hzero : word.bitmap &&& (2 * (1 <<< bitPos) - 1) = 0
  · -- an empty mask: no initialized tick between the boundary and `tick`
    have hnone : ∀ t ∈ tickData, boundaryTick tickSpacing true tick ≤ t → ¬t ≤ tick := by
      intro t ht hge hle
      obtain ⟨i, hi, rfl⟩ := exists_bit_of_le hs hpos (hcons.aligned t ht) (hlow ▸ hge) hle
      have hset := (hin i).mpr ⟨hi, ht⟩
      simp [hzero] at hset
    have hle : boundaryTick tickSpacing true tick ≤ tick := by
      simpa [Ahead] using boundaryTick_ahead hs true tick
    refine ⟨boundaryTick tickSpacing true tick, ⟨⟨.inr rfl, hle⟩, ?_⟩, ?_⟩
    · rintro t ⟨ht | rfl, hta⟩
      · by_contra hgt
        exact hnone t ht (by omega) hta
      · exact le_rfl
    · have hnot : boundaryTick tickSpacing true tick ∉ tickData := fun h =>
        hnone _ h le_rfl hle
      have hnext : (tick.fdiv tickSpacing - bitPos) * tickSpacing =
          boundaryTick tickSpacing true tick := by
        rw [hlow, hpos]
        ring
      simp [nextInitializedTickWithinOneWordLegacy, hpair, hlookup', hzero, hnext, hnot]
  · have hlt : word.bitmap &&& (2 * (1 <<< bitPos) - 1) < 2 ^ 256 :=
      Nat.and_le_left.trans_lt word.bitmap_lt
    obtain ⟨msb, hmsb, hset, hmax⟩ := mostSignificantBit_spec hzero hlt
    obtain ⟨hle, hmem⟩ := (hin msb).mp hset
    have hnext : (tick.fdiv tickSpacing - (bitPos - msb)) * tickSpacing =
        (256 * wordPos + msb) * tickSpacing := by
      rw [hpos]
      ring
    have hboundary : boundaryTick tickSpacing true tick ≤ (256 * wordPos + msb) * tickSpacing := by
      rw [hlow]
      nlinarith
    refine ⟨(256 * wordPos + msb) * tickSpacing, ⟨⟨.inl hmem, ?_⟩, ?_⟩, ?_⟩
    · have hle' : (msb : ℤ) ≤ bitPos := by exact_mod_cast hle
      nlinarith
    · rintro t ⟨ht | rfl, hta⟩
      · rcases le_total (boundaryTick tickSpacing true tick) t with hge | hle'
        · obtain ⟨i, hi, rfl⟩ := exists_bit_of_le hs hpos (hcons.aligned t ht) (hlow ▸ hge) hta
          have hi' : (i : ℤ) ≤ msb := by exact_mod_cast hmax i ((hin i).mpr ⟨hi, ht⟩)
          nlinarith
        · exact hle'.trans hboundary
      · exact hboundary
    · simp only [nextInitializedTickWithinOneWordLegacy, if_true, hpair, hlookup', ne_eq, hzero,
        not_false_eq_true, hmsb]
      simp [Bind.bind, Except.bind, hnext, hmem]

theorem nextInitializedTickWithinOneWordLegacy_up {tickBitmap : InitializedTickMap}
    {tickData : LiquidityMap} {tickSpacing tick : ℤ}
    (hcons : ConsistentTickMap tickBitmap tickData tickSpacing)
    (hword : touchedWord tickSpacing false tick ∈ tickBitmap) :
    ∃ next, IsNextStop tickData tickSpacing false tick next ∧
      nextInitializedTickWithinOneWordLegacy tickBitmap tick tickSpacing false =
        .ok (next, decide (next ∈ tickData)) := by
  have hs := hcons.spacing_pos
  have hpos := position_eq (tick.fdiv tickSpacing + 1)
  have hbit := position_snd_lt (tick.fdiv tickSpacing + 1)
  have hhigh : boundaryTick tickSpacing false tick =
      tickSpacing * (256 * (position (tick.fdiv tickSpacing + 1)).1 + 255) := by
    simp [boundaryTick, touchedWord]
  obtain ⟨word, hlookup⟩ := Option.isSome_iff_exists.mp (AList.lookup_isSome.mpr hword)
  replace hlookup : tickBitmap.lookup (position (tick.fdiv tickSpacing + 1)).1 = some word := by
    simpa [touchedWord] using hlookup
  have hbits := hcons.bits _ word hlookup
  generalize hw : (position (tick.fdiv tickSpacing + 1)).1 = wordPos at *
  generalize hb : (position (tick.fdiv tickSpacing + 1)).2 = bitPos at *
  have hceil : tick < (256 * wordPos + bitPos) * tickSpacing := by
    rw [← hpos, Int.fdiv_eq_ediv_of_nonneg _ hs.le]
    linarith [Int.lt_ediv_add_one_mul_self tick hs]
  have hin : ∀ i < 256, (Nat.ldiff word.bitmap ((1 <<< bitPos) - 1)).testBit i = true ↔
      bitPos ≤ i ∧ (256 * wordPos + i) * tickSpacing ∈ tickData := by
    intro i hi
    rw [testBit_mask_up, hbits i hi, and_comm]
  have hpair : position (tick.fdiv tickSpacing + 1) = (wordPos, bitPos) := Prod.ext hw hb
  have hlookup' : tickBitmap.lookup (position (tick.fdiv tickSpacing + 1)).1 = some word :=
    hw ▸ hlookup
  by_cases hzero : Nat.ldiff word.bitmap ((1 <<< bitPos) - 1) = 0
  · have hnone : ∀ t ∈ tickData, t ≤ boundaryTick tickSpacing false tick → ¬tick < t := by
      intro t ht hle hlt
      obtain ⟨i, hi, hi', rfl⟩ := exists_bit_of_gt hs hpos (hcons.aligned t ht) (hhigh ▸ hle) hlt
      have hset := (hin i hi').mpr ⟨hi, ht⟩
      simp [hzero] at hset
    have hlt : tick < boundaryTick tickSpacing false tick := by
      simpa [Ahead] using boundaryTick_ahead hs false tick
    refine ⟨boundaryTick tickSpacing false tick, ⟨⟨.inr rfl, hlt⟩, ?_⟩, ?_⟩
    · rintro t ⟨ht | rfl, hta⟩
      · by_contra hgt
        exact hnone t ht (by omega) hta
      · exact le_rfl
    · have hnot : boundaryTick tickSpacing false tick ∉ tickData := fun h =>
        hnone _ h le_rfl hlt
      have hnext : (tick.fdiv tickSpacing + 1 + (maxUint8 - bitPos)) * tickSpacing =
          boundaryTick tickSpacing false tick := by
        rw [hhigh, hpos, maxUint8]
        ring
      simp [nextInitializedTickWithinOneWordLegacy, hpair, hlookup', hzero, hnext, hnot]
  · have hlt : Nat.ldiff word.bitmap ((1 <<< bitPos) - 1) < 2 ^ 256 := by
      apply Nat.lt_pow_two_of_testBit
      intro i hi
      by_contra hset
      have hset' := ((testBit_mask_up _ _ _).mp (by simpa using hset)).1
      rw [Nat.testBit_lt_two_pow (word.bitmap_lt.trans_le (Nat.pow_le_pow_right (by norm_num) hi))]
        at hset'
      cases hset'
    obtain ⟨lsb, hlsb, hset, hmin⟩ := leastSignificantBit_spec hzero hlt
    have hlsb_lt : lsb < 256 := by
      by_contra hge
      rw [Nat.testBit_lt_two_pow (hlt.trans_le (Nat.pow_le_pow_right (by norm_num) (by omega)))]
        at hset
      cases hset
    obtain ⟨hle, hmem⟩ := (hin lsb hlsb_lt).mp hset
    have hnext : (tick.fdiv tickSpacing + 1 + (lsb - bitPos)) * tickSpacing =
        (256 * wordPos + lsb) * tickSpacing := by
      rw [hpos]
      ring
    have hlsb' : (lsb : ℤ) ≤ 255 := by omega
    have hboundary : (256 * wordPos + lsb) * tickSpacing ≤ boundaryTick tickSpacing false tick := by
      rw [hhigh]
      nlinarith
    refine ⟨(256 * wordPos + lsb) * tickSpacing, ⟨⟨.inl hmem, ?_⟩, ?_⟩, ?_⟩
    · have hle' : (bitPos : ℤ) ≤ lsb := by exact_mod_cast hle
      nlinarith
    · rintro t ⟨ht | rfl, hta⟩
      · rcases le_total t (boundaryTick tickSpacing false tick) with hle' | hge
        · obtain ⟨i, hi, hi', rfl⟩ :=
            exists_bit_of_gt hs hpos (hcons.aligned t ht) (hhigh ▸ hle') hta
          have hmin' : (lsb : ℤ) ≤ i := by exact_mod_cast hmin i ((hin i hi').mpr ⟨hi, ht⟩)
          nlinarith
        · exact hboundary.trans hge
      · exact hboundary
    · simp only [nextInitializedTickWithinOneWordLegacy, Bool.false_eq_true, if_false, hpair,
        hlookup', ne_eq, hzero, not_false_eq_true, if_true, hlsb]
      simp [Bind.bind, Except.bind, hnext, hmem]

/-- The search over bits returns the next stop. -/
theorem nextInitializedTickWithinOneWordLegacy_spec {tickBitmap : InitializedTickMap}
    {tickData : LiquidityMap} {tickSpacing tick : ℤ} {lte : Bool}
    (hcons : ConsistentTickMap tickBitmap tickData tickSpacing)
    (hword : touchedWord tickSpacing lte tick ∈ tickBitmap) :
    ∃ next, IsNextStop tickData tickSpacing lte tick next ∧
      nextInitializedTickWithinOneWordLegacy tickBitmap tick tickSpacing lte =
        .ok (next, decide (next ∈ tickData)) := by
  cases lte with
  | true => exact nextInitializedTickWithinOneWordLegacy_down hcons hword
  | false => exact nextInitializedTickWithinOneWordLegacy_up hcons hword

end Degenbot
