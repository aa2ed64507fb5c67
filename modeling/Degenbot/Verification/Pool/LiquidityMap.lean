import Degenbot.Algorithm.Pool
import Degenbot.Library.IntervalSum
import Degenbot.Library.Outcome
import Degenbot.Verification.Simulator.Loop

/-! # The liquidity map of a complete pool

What one tick of `update_liquidity_map` does to the bitmap and to the mapping, for a pool
whose map is not sparse. -/

namespace Degenbot

open Library

/-! ## Bits of the bitmap -/

/-- The bit of a tick; an absent word has no bit set. -/
def bitAt (tickBitmap : InitializedTickMap) (tickSpacing tick : ℤ) : Bool :=
  let pos := position (tick / tickSpacing)
  match tickBitmap.lookup pos.1 with
  | none => false
  | some word => word.bitmap.testBit pos.2

theorem position_injective {a b : ℤ} (h : position a = position b) : a = b := by
  rw [position_eq a, position_eq b, h]

theorem evmDivide_of_dvd {tick tickSpacing : ℤ} (hs : 0 < tickSpacing) (h : tickSpacing ∣ tick) :
    evmDivide tick tickSpacing = tick / tickSpacing := by
  obtain ⟨q, rfl⟩ := h
  unfold evmDivide
  split_ifs with hneg
  · rw [← mul_neg, Int.fdiv_eq_ediv_of_nonneg _ hs.le, Int.mul_ediv_cancel_left _ hs.ne',
      Int.mul_ediv_cancel_left _ hs.ne', neg_neg]
  · rw [Int.fdiv_eq_ediv_of_nonneg _ hs.le]

theorem testBit_xor_shiftLeft (bitmap i j : ℕ) :
    (bitmap ^^^ (1 <<< i)).testBit j = (bitmap.testBit j ^^ decide (i = j)) := by
  rw [Nat.testBit_xor, Nat.one_shiftLeft, Nat.testBit_two_pow]

section Flip

variable {tickBitmap tickBitmap' : InitializedTickMap} {tickSpacing tick : ℤ} {block : ℕ}

/-- Flipping changes the bit of the tick and no other. -/
theorem flipTick_eq_ok (hs : 0 < tickSpacing)
    (h : flipTick tickBitmap false tick tickSpacing block = .ok tickBitmap') :
    tickSpacing ∣ tick ∧ ∀ t, tickSpacing ∣ t →
      bitAt tickBitmap' tickSpacing t = (bitAt tickBitmap tickSpacing t ^^ decide (t = tick)) := by
  simp only [flipTick, ite_error_eq_ok, ne_eq, not_not, Bool.false_eq_true, if_false] at h
  obtain ⟨hmod, h⟩ := h
  have hdvd : tickSpacing ∣ tick := Int.dvd_of_fmod_eq_zero hmod
  refine ⟨hdvd, fun t ht => ?_⟩
  have hcompressed := evmDivide_of_dvd hs hdvd
  -- distinct aligned ticks have distinct positions
  have heq : t = tick ↔
      position (t / tickSpacing) = position (evmDivide tick tickSpacing) := by
    rw [hcompressed]
    constructor
    · rintro rfl
      rfl
    · intro hpos
      have hdiv := position_injective hpos
      rw [← Int.ediv_mul_cancel ht, ← Int.ediv_mul_cancel hdvd, hdiv]
  dsimp only [bitAt]
  by_cases hword :
      (position (t / tickSpacing)).1 = (position (evmDivide tick tickSpacing)).1
  · have hbit : decide (t = tick) = decide
        ((position (evmDivide tick tickSpacing)).2 = (position (t / tickSpacing)).2) := by
      rw [decide_eq_decide, heq]
      constructor
      · intro hpos
        rw [hpos]
      · intro hbit
        exact Prod.ext hword hbit.symm
    rw [hbit, hword]
    cases hlookup : tickBitmap.lookup (position (evmDivide tick tickSpacing)).1 with
    | none =>
        rw [hlookup] at h
        cases h
        simp only [AList.lookup_insert, testBit_xor_shiftLeft, Nat.zero_testBit]
    | some word =>
        rw [hlookup] at h
        cases h
        simp only [AList.lookup_insert, testBit_xor_shiftLeft]
  · have hne : t ≠ tick := fun hteq => hword (congrArg Prod.fst (heq.mp hteq))
    have hlookup : tickBitmap'.lookup (position (t / tickSpacing)).1 =
        tickBitmap.lookup (position (t / tickSpacing)).1 := by
      split at h <;> cases h <;> exact AList.lookup_insert_ne hword
    rw [hlookup]
    simp [hne]

end Flip

/-! ## Runs of flips -/

/-- The ticks of a list flipped in order, each in its block. -/
def flipTicks (sparse : Bool) (tickSpacing : ℤ) (tickBitmap : InitializedTickMap)
    (flips : List (ℤ × ℕ)) : Except Exn InitializedTickMap :=
  flips.foldlM (fun map flip => flipTick map sparse flip.1 tickSpacing flip.2) tickBitmap

section FlipRun

variable {tickBitmap tickBitmap' : InitializedTickMap} {tickSpacing tick : ℤ} {block : ℕ}
  {sparse : Bool}

/-- A sparse map only refuses more. -/
theorem flipTick_of_sparse
    (h : flipTick tickBitmap sparse tick tickSpacing block = .ok tickBitmap') :
    flipTick tickBitmap false tick tickSpacing block = .ok tickBitmap' := by
  cases sparse with
  | false => exact h
  | true =>
      simp only [flipTick, ite_error_eq_ok, Bool.false_eq_true, if_false, if_true] at h ⊢
      refine ⟨h.1, ?_⟩
      cases hlookup : tickBitmap.lookup (position (evmDivide tick tickSpacing)).1 with
      | none => simp [hlookup] at h
      | some word => simpa [hlookup] using h.2

theorem exists_flipTick (h : tickSpacing ∣ tick) :
    ∃ flipped, flipTick tickBitmap false tick tickSpacing block = .ok flipped := by
  have hmod : ¬tick.fmod tickSpacing ≠ 0 := by
    rw [not_not]
    exact Int.fmod_eq_zero_of_dvd h
  unfold flipTick
  rw [if_neg hmod]
  dsimp only
  cases tickBitmap.lookup (position (evmDivide tick tickSpacing)).1 with
  | none => exact ⟨_, rfl⟩
  | some word => exact ⟨_, rfl⟩

theorem flipTicks_cons (flip : ℤ × ℕ) (flips : List (ℤ × ℕ)) :
    flipTicks sparse tickSpacing tickBitmap (flip :: flips) =
      flipTick tickBitmap sparse flip.1 tickSpacing flip.2 >>= fun map =>
        flipTicks sparse tickSpacing map flips :=
  List.foldlM_cons

/-- After any run of flips a tick has changed exactly when it was flipped an odd number of times,
whatever the order; a map that is not sparse refuses only ticks off the spacing. -/
theorem flipTicks_parity (hs : 0 < tickSpacing) (flips : List (ℤ × ℕ)) :
    (flipTicks sparse tickSpacing tickBitmap flips = .ok tickBitmap' →
      ∀ t, tickSpacing ∣ t → bitAt tickBitmap' tickSpacing t =
        (bitAt tickBitmap tickSpacing t ^^ decide ((flips.map Prod.fst).count t % 2 = 1))) ∧
    ((∃ flipped, flipTicks false tickSpacing tickBitmap flips = .ok flipped) ↔
      ∀ flip ∈ flips, tickSpacing ∣ flip.1) := by
  constructor
  · induction flips generalizing tickBitmap with
    | nil =>
        intro h t _
        cases h
        simp
    | cons flip flips ih =>
        intro h t ht
        rw [flipTicks_cons, bind_eq_ok] at h
        obtain ⟨map, hflip, hrest⟩ := h
        have hbits := (flipTick_eq_ok hs (flipTick_of_sparse hflip)).2 t ht
        rw [ih hrest t ht, hbits, List.map_cons, List.count_cons]
        by_cases heq : t = flip.1
        · have hbeq : (flip.1 == t) = true := by simp [heq]
          rw [hbeq, if_pos rfl, decide_eq_true heq, Bool.xor_assoc]
          rcases Nat.mod_two_eq_zero_or_one ((flips.map Prod.fst).count t) with hzero | hone
          · simp [hzero, Nat.add_mod]
          · simp [hone, Nat.add_mod]
        · have hbeq : (flip.1 == t) = false := by simp [Ne.symm heq]
          simp [hbeq, heq]
  · induction flips generalizing tickBitmap with
    | nil => simp [flipTicks, pure, Except.pure]
    | cons flip flips ih =>
        simp only [flipTicks_cons, bind_eq_ok, List.forall_mem_cons]
        constructor
        · rintro ⟨flipped, map, hflip, hrest⟩
          exact ⟨(flipTick_eq_ok hs hflip).1, ih.mp ⟨flipped, hrest⟩⟩
        · rintro ⟨hdvd, hall⟩
          obtain ⟨map, hflip⟩ : ∃ map,
              flipTick tickBitmap false flip.1 tickSpacing flip.2 = .ok map := exists_flipTick hdvd
          obtain ⟨flipped, hrest⟩ : ∃ flipped,
              flipTicks false tickSpacing map flips = .ok flipped := ih.mpr hall
          exact ⟨flipped, map, hflip, hrest⟩

end FlipRun

theorem flipTicks_parity_sample :
    (∃ flipped, flipTicks false 60 ∅ [(60, 1), (-120, 2), (60, 3)] = .ok flipped) ∧
      ¬∃ flipped, flipTicks false 60 ∅ [(60, 1), (61, 2)] = .ok flipped :=
  ⟨(@flipTicks_parity ∅ ∅ 60 false (by decide) _).2.mpr (by decide),
    fun h => absurd ((@flipTicks_parity ∅ ∅ 60 false (by decide) _).2.mp h) (by decide)⟩

/-! ## One tick of an update -/

/-- The gross liquidity of a tick, zero where the tick is not initialized. -/
def grossAt (tickData : LiquidityMap) (tick : ℤ) : ℤ :=
  match tickData.lookup tick with
  | some info => info.liquidityGross
  | none => 0

theorem grossAt_of_lookup {tickData : LiquidityMap} {tick : ℤ} {info : LiquidityAtTick}
    (h : tickData.lookup tick = some info) : grossAt tickData tick = info.liquidityGross := by
  simp [grossAt, h]

theorem grossAt_of_notMem {tickData : LiquidityMap} {tick : ℤ} (h : tick ∉ tickData) :
    grossAt tickData tick = 0 := by
  simp [grossAt, AList.lookup_eq_none.mpr h]

/-- A tick is in the mapping iff its bit is set iff it has gross liquidity. -/
structure MapInv (tickSpacing : ℤ) (map : InitializedTickMap × LiquidityMap) : Prop where
  aligned : ∀ t ∈ map.2, tickSpacing ∣ t
  bits : ∀ t, tickSpacing ∣ t → (t ∈ map.2 ↔ bitAt map.1 tickSpacing t = true)
  gross : ∀ t, t ∈ map.2 ↔ 0 < grossAt map.2 t

/-- The map after one tick: the gross liquidity changes there by the update, the net one
by the signed update unless the tick is deleted, and no other tick changes. -/
structure TickChange (tick gross net : ℤ) (tickData tickData' : LiquidityMap) : Prop where
  others : ∀ t, t ≠ tick → tickData'.lookup t = tickData.lookup t
  gross_eq : grossAt tickData' tick = grossAt tickData tick + gross
  net_eq : grossAt tickData' tick ≠ 0 → netAt tickData' tick = netAt tickData tick + net

section Tick

variable {pool : Pool} {update : LiquidityMappingUpdate} {tick : ℤ} {block : ℕ}
  {map map' : InitializedTickMap × LiquidityMap}

theorem Pool.completeWord_complete (hsparse : pool.sparseLiquidityMap = false)
    (provider : Provider) : pool.completeWord provider tick block map = .ok map := by
  simp [Pool.completeWord, hsparse]

/-- The map with an entered tick, before its liquidity is adjusted. -/
theorem Pool.enterTick_eq_ok (hs : 0 < pool.tickSpacing)
    (hsparse : pool.sparseLiquidityMap = false) (hinv : MapInv pool.tickSpacing map)
    (h : pool.enterTick tick block map = .ok map') :
    pool.tickSpacing ∣ tick ∧ tick ∈ map'.2 ∧
      (∀ t, pool.tickSpacing ∣ t → (t ∈ map'.2 ↔ bitAt map'.1 pool.tickSpacing t = true)) ∧
      (∀ t, t ≠ tick → map'.2.lookup t = map.2.lookup t) ∧
      grossAt map'.2 tick = grossAt map.2 tick ∧ netAt map'.2 tick = netAt map.2 tick := by
  unfold Pool.enterTick at h
  split at h
  · rename_i hnew
    rw [hsparse] at h
    obtain ⟨tickBitmap, hflip, h⟩ := bind_eq_ok.mp h
    cases h
    obtain ⟨hdvd, hbits⟩ := flipTick_eq_ok hs hflip
    refine ⟨hdvd, by simp, fun t ht => ?_, fun t ht => AList.lookup_insert_ne ht, ?_, ?_⟩
    · rw [hbits t ht, AList.mem_insert, hinv.bits t ht]
      by_cases heq : t = tick
      · subst heq
        have hclear : bitAt map.1 pool.tickSpacing t = false := by
          rw [← Bool.not_eq_true, ← hinv.bits t ht]
          exact hnew
        simp [hclear]
      · simp [heq]
    · rw [grossAt_of_lookup (AList.lookup_insert _), grossAt_of_notMem hnew]
      rfl
    · rw [netAt_of_lookup (AList.lookup_insert _), netAt_of_notMem hnew]
      rfl
  · rename_i hmem
    cases h
    have hmem := not_not.mp hmem
    exact ⟨hinv.aligned tick hmem, hmem, hinv.bits, fun _ _ => rfl, rfl, rfl⟩

theorem LiquidityAtTick.validated_eq_ok {net gross : ℤ} {entry : LiquidityAtTick}
    (h : LiquidityAtTick.validated net gross block = .ok entry) :
    entry.liquidityNet = net ∧ entry.liquidityGross = gross := by
  unfold LiquidityAtTick.validated at h
  split at h
  · split at h
    · cases h
      exact ⟨rfl, rfl⟩
    · cases h
  · cases h

/-- What one tick of an accepted update does. -/
theorem Pool.updateTick_eq_ok {provider : Provider} (hs : 0 < pool.tickSpacing)
    (hsparse : pool.sparseLiquidityMap = false) (hinv : MapInv pool.tickSpacing map)
    (h : pool.updateTick provider update tick map = .ok map') :
    MapInv pool.tickSpacing map' ∧ TickChange tick update.liquidity
      (if tick = update.tickLower then update.liquidity else -update.liquidity)
      map.2 map'.2 := by
  simp only [Pool.updateTick, Pool.completeWord_complete hsparse, ok_bind] at h
  obtain ⟨entered, henter, h⟩ := bind_eq_ok.mp h
  obtain ⟨hdvd, hmem, hbits, hothers, hgross, hnet⟩ :=
    Pool.enterTick_eq_ok hs hsparse hinv henter
  obtain ⟨current, hcurrent⟩ := Option.isSome_iff_exists.mp (AList.lookup_isSome.mpr hmem)
  rw [grossAt_of_lookup hcurrent] at hgross
  rw [netAt_of_lookup hcurrent] at hnet
  simp only [Pool.adjustTick, hcurrent, ite_error_eq_ok, not_not] at h
  obtain ⟨hnn, h⟩ := h
  -- keys other than the tick have kept their liquidity
  have hkeys : ∀ t, t ≠ tick → (t ∈ entered.2 ↔ t ∈ map.2) ∧
      grossAt entered.2 t = grossAt map.2 t := by
    intro t ht
    rw [← AList.lookup_isSome, ← AList.lookup_isSome, grossAt, grossAt, hothers t ht]
    exact ⟨Iff.rfl, rfl⟩
  split at h
  · rename_i hzero
    rw [hsparse] at h
    obtain ⟨tickBitmap, hflip, h⟩ := bind_eq_ok.mp h
    cases h
    obtain ⟨-, hflipped⟩ := flipTick_eq_ok hs hflip
    have hgone : tick ∉ entered.2.erase tick := by simp [AList.mem_erase]
    have hsame : ∀ t, t ≠ tick → (entered.2.erase tick).lookup t = entered.2.lookup t :=
      fun t ht => AList.lookup_erase_ne ht
    refine ⟨⟨fun t ht => ?_, fun t ht => ?_, fun t => ?_⟩,
      ⟨fun t ht => (hsame t ht).trans (hothers t ht), ?_, fun hne => ?_⟩⟩
    · obtain ⟨hne, ht⟩ := AList.mem_erase.mp ht
      exact hinv.aligned t ((hkeys t hne).1.mp ht)
    · rw [hflipped t ht, AList.mem_erase, hbits t ht]
      by_cases heq : t = tick
      · subst heq
        simp [(hbits t ht).mp hmem]
      · simp [heq]
    · by_cases heq : t = tick
      · subst heq
        rw [grossAt_of_notMem hgone]
        simp
      · have hgrosst : grossAt (entered.2.erase tick) t = grossAt map.2 t := by
          rw [grossAt, hsame t heq, ← (hkeys t heq).2]
          rfl
        rw [hgrosst, AList.mem_erase, (hkeys t heq).1, ← hinv.gross t]
        simp [heq]
    · rw [grossAt_of_notMem hgone, ← hgross]
      exact hzero.symm
    · exact absurd (grossAt_of_notMem hgone) hne
  · rename_i hne
    obtain ⟨entry, hentry, h⟩ := bind_eq_ok.mp h
    cases h
    obtain ⟨hnet', hgross'⟩ := LiquidityAtTick.validated_eq_ok hentry
    have hlookup : (entered.2.insert tick entry).lookup tick = some entry := AList.lookup_insert _
    have hsame : ∀ t, t ≠ tick →
        (entered.2.insert tick entry).lookup t = entered.2.lookup t :=
      fun t ht => AList.lookup_insert_ne ht
    refine ⟨⟨fun t ht => ?_, fun t ht => ?_, fun t => ?_⟩,
      ⟨fun t ht => (hsame t ht).trans (hothers t ht), ?_, fun _ => ?_⟩⟩
    · rcases (AList.mem_insert _).mp ht with rfl | ht
      · exact hdvd
      · by_cases heq : t = tick
        · exact heq ▸ hdvd
        · exact hinv.aligned t ((hkeys t heq).1.mp ht)
    · rw [← hbits t ht, AList.mem_insert]
      constructor
      · rintro (rfl | ht)
        · exact hmem
        · exact ht
      · exact .inr
    · by_cases heq : t = tick
      · subst heq
        rw [grossAt_of_lookup hlookup, hgross']
        simp only [AList.mem_insert, true_or, true_iff]
        omega
      · have hgrosst : grossAt (entered.2.insert tick entry) t = grossAt map.2 t := by
          rw [grossAt, hsame t heq, ← (hkeys t heq).2]
          rfl
        rw [hgrosst, AList.mem_insert, (hkeys t heq).1, ← hinv.gross t]
        simp [heq]
    · rw [grossAt_of_lookup hlookup, hgross', hgross]
    · rw [netAt_of_lookup hlookup, hnet', ← hnet]
      split_ifs <;> ring

end Tick

end Degenbot
