import Degenbot.Algorithm.TickBitmap
import Mathlib.Order.Bounds.Basic

/-! # The ticks at which a walk stops

A walk over a liquidity map stops at the nearest tick, in its direction, that is
initialized or is the last tick of the current bitmap word. This module states that
meaning on its own and shows that `gen_ticks` yields exactly these stops. -/

namespace Degenbot

/-! ## Stops -/

/-- The word read by a search from `tick`. -/
def touchedWord (tickSpacing : ℤ) (lessThanOrEqual : Bool) (tick : ℤ) : ℤ :=
  (position (if lessThanOrEqual then tick.fdiv tickSpacing else tick.fdiv tickSpacing + 1)).1

/-- The last tick of the touched word in the direction of travel. -/
def boundaryTick (tickSpacing : ℤ) (lessThanOrEqual : Bool) (tick : ℤ) : ℤ :=
  let word := touchedWord tickSpacing lessThanOrEqual tick
  if lessThanOrEqual then tickSpacing * (256 * word) else tickSpacing * (256 * word + 255)

/-- Where a search resumes after stopping at `next`. -/
def advance (lessThanOrEqual : Bool) (next : ℤ) : ℤ :=
  if lessThanOrEqual then next - 1 else next

/-- `next` is the first stop reached from `tick`. -/
def IsNextStop (tickData : LiquidityMap) (tickSpacing : ℤ) (lessThanOrEqual : Bool)
    (tick next : ℤ) : Prop :=
  let stops := {t | t ∈ tickData ∨ t = boundaryTick tickSpacing lessThanOrEqual tick}
  if lessThanOrEqual then IsGreatest {t ∈ stops | t ≤ tick} next
  else IsLeast {t ∈ stops | tick < t} next

theorem IsNextStop.unique {tickData : LiquidityMap} {tickSpacing tick a b : ℤ} {lte : Bool}
    (ha : IsNextStop tickData tickSpacing lte tick a)
    (hb : IsNextStop tickData tickSpacing lte tick b) : a = b := by
  cases lte with
  | true => exact IsGreatest.unique ha hb
  | false => exact IsLeast.unique ha hb

/-! ## Words as intervals of ticks -/

theorem position_fst (tick : ℤ) : (position tick).1 = tick / 256 := by
  simp [position, Int.shiftRight_eq_div_pow]

theorem position_fdiv_fst {tickSpacing : ℤ} (hs : 0 < tickSpacing) (tick : ℤ) :
    (position (tick.fdiv tickSpacing)).1 = tick / (tickSpacing * 256) := by
  rw [position_fst, Int.fdiv_eq_ediv_of_nonneg _ hs.le, Int.ediv_ediv_of_nonneg hs.le]

theorem position_fdiv_succ_fst {tickSpacing : ℤ} (hs : 0 < tickSpacing) (tick : ℤ) :
    (position (tick.fdiv tickSpacing + 1)).1 = (tick + tickSpacing) / (tickSpacing * 256) := by
  rw [← position_fdiv_fst hs, Int.fdiv_eq_ediv_of_nonneg _ hs.le,
    Int.fdiv_eq_ediv_of_nonneg _ hs.le, Int.add_ediv_of_dvd_right dvd_rfl, Int.ediv_self hs.ne']

/-- A boundary is the largest (smallest) grid point at or below (above) the tick; the
grid has the width of a word. -/
theorem boundaryTick_down_eq {tickSpacing tick b q : ℤ} (hs : 0 < tickSpacing)
    (hq : b = tickSpacing * 256 * q) (hle : b ≤ tick) (hlt : tick < b + tickSpacing * 256) :
    boundaryTick tickSpacing true tick = b := by
  have hword : tick / (tickSpacing * 256) = q := by
    rw [Int.ediv_eq_iff_of_pos (by omega)]
    constructor <;> nlinarith
  simp only [boundaryTick, touchedWord, if_true, position_fdiv_fst hs, hword, hq]
  ring

theorem boundaryTick_up_eq {tickSpacing tick b q : ℤ} (hs : 0 < tickSpacing)
    (hq : b + tickSpacing = tickSpacing * 256 * (q + 1)) (hle : b ≤ tick + tickSpacing * 256)
    (hlt : tick < b) : boundaryTick tickSpacing false tick = b := by
  have hword : (tick + tickSpacing) / (tickSpacing * 256) = q := by
    rw [Int.ediv_eq_iff_of_pos (by omega)]
    constructor <;> nlinarith
  simp only [boundaryTick, touchedWord, Bool.false_eq_true, if_false,
    position_fdiv_succ_fst hs, hword]
  linarith

theorem boundaryTick_down_spec {tickSpacing : ℤ} (hs : 0 < tickSpacing) (tick : ℤ) :
    ∃ q, boundaryTick tickSpacing true tick = tickSpacing * 256 * q ∧
      boundaryTick tickSpacing true tick ≤ tick ∧
      tick < boundaryTick tickSpacing true tick + tickSpacing * 256 := by
  have hw : 0 < tickSpacing * 256 := by omega
  have hb : boundaryTick tickSpacing true tick =
      tickSpacing * 256 * (tick / (tickSpacing * 256)) := by
    simp only [boundaryTick, touchedWord, if_true, position_fdiv_fst hs]
    ring
  refine ⟨tick / (tickSpacing * 256), hb, ?_, ?_⟩
  · rw [hb]
    exact Int.mul_ediv_self_le hw.ne'
  · rw [hb]
    linarith [Int.lt_mul_ediv_self_add (x := tick) hw]

theorem boundaryTick_up_spec {tickSpacing : ℤ} (hs : 0 < tickSpacing) (tick : ℤ) :
    ∃ q, boundaryTick tickSpacing false tick + tickSpacing = tickSpacing * 256 * (q + 1) ∧
      boundaryTick tickSpacing false tick ≤ tick + tickSpacing * 256 ∧
      tick < boundaryTick tickSpacing false tick := by
  have hw : 0 < tickSpacing * 256 := by omega
  have hb : boundaryTick tickSpacing false tick + tickSpacing =
      tickSpacing * 256 * ((tick + tickSpacing) / (tickSpacing * 256) + 1) := by
    simp only [boundaryTick, touchedWord, Bool.false_eq_true, if_false,
      position_fdiv_succ_fst hs]
    ring
  have hle := Int.mul_ediv_self_le (x := tick + tickSpacing) hw.ne'
  have hlt := Int.lt_mul_ediv_self_add (x := tick + tickSpacing) hw
  refine ⟨(tick + tickSpacing) / (tickSpacing * 256), hb, ?_, ?_⟩ <;> linarith

/-- Stopping at the boundary moves the search into the next word. -/
theorem boundaryTick_advance_boundary {tickSpacing : ℤ} (hs : 0 < tickSpacing)
    (lte : Bool) (tick : ℤ) :
    boundaryTick tickSpacing lte (advance lte (boundaryTick tickSpacing lte tick)) =
      boundaryTick tickSpacing lte tick +
        if lte then -256 * tickSpacing else 256 * tickSpacing := by
  cases lte with
  | true =>
      obtain ⟨q, hq, -, -⟩ := boundaryTick_down_spec hs tick
      simp only [advance, if_true]
      apply boundaryTick_down_eq hs (q := q - 1) <;> linarith
  | false =>
      obtain ⟨q, hq, -, -⟩ := boundaryTick_up_spec hs tick
      simp only [advance, Bool.false_eq_true, if_false]
      apply boundaryTick_up_eq hs (q := q + 1) <;> linarith

/-- Stopping before the boundary keeps the search in its word. -/
theorem boundaryTick_advance_of_before {tickSpacing tick next : ℤ} (hs : 0 < tickSpacing)
    {lte : Bool}
    (hn : if lte then boundaryTick tickSpacing lte tick < next ∧ next ≤ tick
      else tick < next ∧ next < boundaryTick tickSpacing lte tick) :
    boundaryTick tickSpacing lte (advance lte next) = boundaryTick tickSpacing lte tick := by
  cases lte with
  | true =>
      obtain ⟨q, hq, hle, hlt⟩ := boundaryTick_down_spec hs tick
      simp only [if_true] at hn
      simp only [advance, if_true]
      apply boundaryTick_down_eq hs (q := q) <;> omega
  | false =>
      obtain ⟨q, hq, hle, hlt⟩ := boundaryTick_up_spec hs tick
      simp only [Bool.false_eq_true, if_false] at hn
      simp only [advance, Bool.false_eq_true, if_false]
      apply boundaryTick_up_eq hs (q := q) <;> omega

/-! ## The generator -/

/-- `a` is passed before `b` in the direction of travel. -/
def Before (lessThanOrEqual : Bool) (a b : ℤ) : Prop :=
  if lessThanOrEqual then b < a else a < b

instance (lessThanOrEqual : Bool) (a b : ℤ) : Decidable (Before lessThanOrEqual a b) :=
  inferInstanceAs (Decidable (if lessThanOrEqual then b < a else a < b))

/-- The ticks still ahead of a search at `tick`; going down includes `tick` itself. -/
def Ahead (lessThanOrEqual : Bool) (tick t : ℤ) : Prop :=
  if lessThanOrEqual then t ≤ tick else tick < t

/-- The suspended generator has yielded every stop before `tick` and nothing else. -/
structure TickGen.At (g : TickGen) (tickData : LiquidityMap) (tickSpacing : ℤ)
    (lessThanOrEqual : Bool) (tick : ℤ) : Prop where
  direction : g.lessThanOrEqual = lessThanOrEqual
  spacing : g.tickSpacing = tickSpacing
  ordered : g.initializedTicks.Pairwise (Before lessThanOrEqual)
  mem_iff : ∀ t, t ∈ g.initializedTicks ↔ t ∈ tickData ∧ Ahead lessThanOrEqual tick t
  boundary : g.nextBoundaryTick = boundaryTick tickSpacing lessThanOrEqual tick

theorem ahead_advance {lte : Bool} {next t : ℤ} :
    Ahead lte (advance lte next) t ↔ Before lte next t := by
  cases lte
  · simp [Ahead, advance, Before]
  · simp only [Ahead, advance, Before, if_true]
    omega

theorem Ahead.trans_before {lte : Bool} {tick a b : ℤ} (ha : Ahead lte tick a)
    (hab : Before lte a b) : Ahead lte tick b := by
  cases lte <;> simp only [Ahead, Before, if_true, Bool.false_eq_true, if_false] at * <;> omega

theorem before_trans {lte : Bool} {a b c : ℤ} (hab : Before lte a b) (hbc : Before lte b c) :
    Before lte a c := by
  cases lte <;> simp only [Before, if_true, Bool.false_eq_true, if_false] at * <;> omega

theorem before_asymm {lte : Bool} {a b : ℤ} (hab : Before lte a b) : ¬Before lte b a := by
  cases lte <;> simp only [Before, if_true, Bool.false_eq_true, if_false] at * <;> omega

theorem before_irrefl {lte : Bool} {a : ℤ} : ¬Before lte a a := fun h => before_asymm h h

theorem eq_of_not_before {lte : Bool} {a b : ℤ} (hab : ¬Before lte a b)
    (hba : ¬Before lte b a) : a = b := by
  cases lte <;> simp only [Before, if_true, Bool.false_eq_true, if_false] at * <;> omega

theorem boundaryTick_ahead {tickSpacing : ℤ} (hs : 0 < tickSpacing) (lte : Bool) (tick : ℤ) :
    Ahead lte tick (boundaryTick tickSpacing lte tick) := by
  cases lte with
  | true =>
      obtain ⟨q, -, hle, -⟩ := boundaryTick_down_spec hs tick
      simpa [Ahead] using hle
  | false =>
      obtain ⟨q, -, -, hlt⟩ := boundaryTick_up_spec hs tick
      simpa [Ahead] using hlt

/-- A stop is an initialized tick or the boundary, ahead of the search, with every
other such tick behind it. -/
theorem isNextStop_iff {tickData : LiquidityMap} {tickSpacing tick next : ℤ} {lte : Bool} :
    IsNextStop tickData tickSpacing lte tick next ↔
      (next ∈ tickData ∨ next = boundaryTick tickSpacing lte tick) ∧ Ahead lte tick next ∧
        ∀ t, (t ∈ tickData ∨ t = boundaryTick tickSpacing lte tick) → Ahead lte tick t →
          t ≠ next → Before lte next t := by
  cases lte with
  | true =>
      simp only [IsNextStop, if_true, IsGreatest, upperBounds, Set.mem_ofPred_eq, Ahead, Before]
      constructor
      · rintro ⟨⟨hstop, hle⟩, hmax⟩
        exact ⟨hstop, hle, fun t ht hta hne => lt_of_le_of_ne (hmax ⟨ht, hta⟩) hne⟩
      · rintro ⟨hstop, hle, hmax⟩
        refine ⟨⟨hstop, hle⟩, ?_⟩
        rintro t ⟨ht, hta⟩
        by_cases hne : t = next
        · exact hne.le
        · exact (hmax t ht hta hne).le
  | false =>
      simp only [IsNextStop, Bool.false_eq_true, if_false, IsLeast, lowerBounds,
        Set.mem_ofPred_eq, Ahead, Before]
      constructor
      · rintro ⟨⟨hstop, hle⟩, hmin⟩
        exact ⟨hstop, hle, fun t ht hta hne => lt_of_le_of_ne (hmin ⟨ht, hta⟩) (Ne.symm hne)⟩
      · rintro ⟨hstop, hle, hmin⟩
        refine ⟨⟨hstop, hle⟩, ?_⟩
        rintro t ⟨ht, hta⟩
        by_cases hne : t = next
        · exact hne.ge
        · exact (hmin t ht hta hne).le

theorem genTicks_at {tickSpacing : ℤ} (hs : 0 < tickSpacing) (tickData : LiquidityMap)
    (startingTick : ℤ) (lte : Bool) :
    (genTicks tickData startingTick tickSpacing lte).At tickData tickSpacing lte
      startingTick := by
  cases lte with
  | true =>
      refine ⟨by simp [genTicks], by simp [genTicks], ?_, ?_, ?_⟩
      · simp only [genTicks, if_true, sortedReverse]
        have hnodup : (tickData.keys.filter (· ≤ startingTick)).Nodup :=
          tickData.keys_nodup.filter _
        have hsorted := List.pairwise_insertionSort (· ≥ ·)
          (tickData.keys.filter (· ≤ startingTick))
        have hnodup' := (List.perm_insertionSort (· ≥ ·)
          (tickData.keys.filter (· ≤ startingTick))).nodup_iff.mpr hnodup
        refine (hsorted.and hnodup').imp ?_
        rintro a b ⟨hge, hne⟩
        simp only [Before, if_true]
        omega
      · intro t
        simp [genTicks, sortedReverse, Ahead, AList.mem_keys]
      · simp only [genTicks, if_true, boundaryTick, touchedWord]
        ring
  | false =>
      refine ⟨by simp [genTicks], by simp [genTicks], ?_, ?_, ?_⟩
      · simp only [genTicks, Bool.false_eq_true, if_false, sorted]
        have hnodup : (tickData.keys.filter (· > startingTick)).Nodup :=
          tickData.keys_nodup.filter _
        have hsorted := List.pairwise_insertionSort (· ≤ ·)
          (tickData.keys.filter (· > startingTick))
        have hnodup' := (List.perm_insertionSort (· ≤ ·)
          (tickData.keys.filter (· > startingTick))).nodup_iff.mpr hnodup
        refine (hsorted.and hnodup').imp ?_
        rintro a b ⟨hge, hne⟩
        simp only [Before, Bool.false_eq_true, if_false]
        omega
      · intro t
        simp [genTicks, sorted, Ahead, AList.mem_keys]
      · -- the special case of a start at or past the last tick of its word
        simp only [genTicks, Bool.false_eq_true, if_false, position_fdiv_fst hs]
        have hle := Int.mul_ediv_self_le (x := startingTick) (k := tickSpacing * 256) (by omega)
        have hlt := Int.lt_mul_ediv_self_add (x := startingTick) (k := tickSpacing * 256)
          (by omega)
        symm
        split_ifs with hstart
        · apply boundaryTick_up_eq hs (q := startingTick / (tickSpacing * 256) + 1) <;>
            linarith
        · apply boundaryTick_up_eq hs (q := startingTick / (tickSpacing * 256)) <;> linarith

/-- The three ways in which the generator yields, in terms of `Before`. -/
theorem TickGen.next_eq (g : TickGen) :
    g.next = match g.initializedTicks with
      | [] => ((g.nextBoundaryTick, false),
          { g with nextBoundaryTick := g.nextBoundaryTick + g.stepDistance })
      | tick :: rest =>
          if Before g.lessThanOrEqual tick g.nextBoundaryTick then
            ((tick, true), { g with initializedTicks := rest })
          else if Before g.lessThanOrEqual g.nextBoundaryTick tick then
            ((g.nextBoundaryTick, false),
              { g with nextBoundaryTick := g.nextBoundaryTick + g.stepDistance })
          else ((g.nextBoundaryTick, true),
            { g with nextBoundaryTick := g.nextBoundaryTick + g.stepDistance,
                     initializedTicks := rest }) := by
  obtain ⟨lte, spacing, inits, boundary⟩ := g
  cases inits <;> cases lte <;> simp [TickGen.next, Before]

/-- What one `yield` does: it names the next stop, says whether it is initialized and
leaves the generator suspended just past it. -/
theorem TickGen.At.next {g : TickGen} {tickData : LiquidityMap} {tickSpacing tick : ℤ}
    {lte : Bool} (hs : 0 < tickSpacing) (h : g.At tickData tickSpacing lte tick) :
    IsNextStop tickData tickSpacing lte tick g.next.1.1 ∧
      (g.next.1.2 = true ↔ g.next.1.1 ∈ tickData) ∧
      g.next.2.At tickData tickSpacing lte (advance lte g.next.1.1) := by
  obtain ⟨lte', spacing', inits, boundary⟩ := g
  obtain ⟨hdir, hspacing, hord, hmem, hboundary⟩ := h
  simp only at hdir hspacing hord hmem hboundary
  subst hdir hspacing hboundary
  have hahead := boundaryTick_ahead hs lte' tick
  have hstep := boundaryTick_advance_boundary hs lte' tick
  rw [TickGen.next_eq]
  cases inits with
  | nil =>
      -- every initialized tick is behind: only boundaries remain
      have hnone : ∀ t, t ∈ tickData → ¬Ahead lte' tick t := by
        intro t ht hta
        exact List.not_mem_nil ((hmem t).mpr ⟨ht, hta⟩)
      refine ⟨isNextStop_iff.mpr ⟨.inr rfl, hahead, ?_⟩, ?_, rfl, rfl, .nil, ?_, ?_⟩
      · rintro t (ht | rfl) hta hne
        · exact absurd hta (hnone t ht)
        · exact absurd rfl hne
      · simpa using fun ht => hnone _ ht hahead
      · intro t
        simp only [List.not_mem_nil, false_iff, not_and, ahead_advance]
        exact fun ht hb => hnone t ht (hahead.trans_before hb)
      · exact hstep.symm
  | cons first rest =>
      obtain ⟨hfirst, hrest⟩ := List.pairwise_cons.mp hord
      have hdata : first ∈ tickData ∧ Ahead lte' tick first := (hmem first).mp (by simp)
      have hbehind : ∀ t, t ∈ tickData → Ahead lte' tick t → t ≠ first →
          Before lte' first t := by
        intro t ht hta hne
        have hin := (hmem t).mpr ⟨ht, hta⟩
        rcases List.mem_cons.mp hin with rfl | hin
        · exact absurd rfl hne
        · exact hfirst t hin
      -- past `first`, exactly the remaining list is ahead
      have hpast : ∀ t, t ∈ rest ↔ t ∈ tickData ∧ Ahead lte' (advance lte' first) t := by
        intro t
        rw [ahead_advance]
        constructor
        · intro ht
          exact ⟨((hmem t).mp (by simp [ht])).1, hfirst t ht⟩
        · rintro ⟨ht, hb⟩
          have hin := (hmem t).mpr ⟨ht, hdata.2.trans_before hb⟩
          rcases List.mem_cons.mp hin with rfl | hin
          · exact absurd hb before_irrefl
          · exact hin
      simp only
      split_ifs with hfb hbf
      · refine ⟨isNextStop_iff.mpr ⟨.inl hdata.1, hdata.2, ?_⟩, by simpa using hdata.1,
          rfl, rfl, hrest, hpast, ?_⟩
        · rintro t (ht | rfl) hta hne
          · exact hbehind t ht hta hne
          · exact hfb
        · refine (boundaryTick_advance_of_before hs ?_).symm
          cases lte' <;> simp_all [Before, Ahead]
      · refine ⟨isNextStop_iff.mpr ⟨.inr rfl, hahead, ?_⟩, ?_, rfl, rfl, hord, ?_, hstep.symm⟩
        · rintro t (ht | rfl) hta hne
          · by_cases htf : t = first
            · exact htf ▸ hbf
            · exact before_trans hbf (hbehind t ht hta htf)
          · exact absurd rfl hne
        · simp only [false_iff]
          intro hb
          have hne : boundaryTick spacing' lte' tick ≠ first := by
            rintro heq
            exact before_irrefl (heq ▸ hbf)
          exact before_asymm hbf (hbehind _ hb hahead hne)
        · intro t
          simp only [ahead_advance]
          constructor
          · intro ht
            have hin := (hmem t).mp ht
            refine ⟨hin.1, ?_⟩
            rcases List.mem_cons.mp ht with rfl | ht
            · exact hbf
            · exact before_trans hbf (hfirst t ht)
          · rintro ⟨ht, hb⟩
            exact (hmem t).mpr ⟨ht, hahead.trans_before hb⟩
      · have heq := eq_of_not_before hfb hbf
        subst heq
        refine ⟨isNextStop_iff.mpr ⟨.inr rfl, hahead, ?_⟩, by simpa using hdata.1,
          rfl, rfl, hrest, hpast, hstep.symm⟩
        rintro t (ht | rfl) hta hne
        · exact hbehind t ht hta hne
        · exact absurd rfl hne

end Degenbot
