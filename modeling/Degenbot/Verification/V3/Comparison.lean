import Degenbot.Algorithm.LiquidityUpdates
import Degenbot.Algorithm.V3Simulation
import Degenbot.Verification.Simulator.Rate
import Degenbot.Verification.Simulator.Viability
import Degenbot.Verification.StoredLiquidity.Replay
import Degenbot.Verification.TickBitmap.Search

/-! # Pools in both languages

The search of `uniswap_v3_math/tick_bitmap.rs` reads one word, with zero for a word that is
absent. It computes what `next_initialized_tick_within_one_word_legacy` computes on the map of
that word alone, so it returns the next stop of a complete bitmap. A Rust snapshot holds the state
from which a Python swap starts, and the Python ports are functions like the vendored ones. -/

namespace Degenbot.V3Simulation

/-! ## The search -/

theorem mostSignificantBit_eq {x : ℕ} (hx : x ≠ 0) (hlt : x < 2 ^ 256) {msb : ℕ}
    (h : Degenbot.mostSignificantBit x = .ok msb) : mostSignificantBit x = .ok msb := by
  obtain ⟨msb', hok, hset, hmax⟩ := mostSignificantBit_spec hx hlt
  rw [hok] at h
  cases h
  have hsize : x.size ≤ 256 := Nat.size_le.mpr hlt
  have hpos : 0 < x.size := Nat.size_pos.mpr (Nat.pos_of_ne_zero hx)
  have hlow : msb < x.size := Nat.lt_size.mpr (Nat.ge_two_pow_of_testBit hset)
  have htop : x.size ≤ msb + 1 := by
    rw [Nat.size_le]
    apply Nat.lt_pow_two_of_testBit
    intro i hi
    by_contra hbit
    have hle := hmax i (by simpa using hbit)
    omega
  rw [mostSignificantBit, if_neg hx]
  congr 1
  omega

theorem leastSignificantBit_eq {x : ℕ} (hx : x ≠ 0) (hlt : x < 2 ^ 256) {lsb : ℕ}
    (h : Degenbot.leastSignificantBit x = .ok lsb) : leastSignificantBit x = .ok lsb := by
  have hpos : ¬(x : ℤ) ≤ 0 := by omega
  have hmax : ¬(x : ℤ) > maxUint256 := by
    simp only [maxUint256]
    omega
  rw [Degenbot.leastSignificantBit, if_neg hpos, if_neg hmax] at h
  rw [leastSignificantBit, if_neg hx]
  simpa [binaryDigits] using h

/-- The adjusted quotient is the floor. -/
theorem compressed_eq {tick tickSpacing : ℤ} (hs : 0 < tickSpacing) :
    (if tick < 0 ∧ tick.tmod tickSpacing ≠ 0 then tick.tdiv tickSpacing - 1
      else tick.tdiv tickSpacing) = tick.fdiv tickSpacing := by
  have hmod : tick.tmod tickSpacing = 0 ↔ tickSpacing ∣ tick :=
    ⟨Int.dvd_of_tmod_eq_zero, Int.tmod_eq_zero_of_dvd⟩
  have hsign : tickSpacing.sign = 1 := Int.sign_eq_one_of_pos hs
  rw [Int.fdiv_eq_ediv_of_nonneg _ hs.le, Int.tdiv_eq_ediv, hsign]
  by_cases hdvd : tickSpacing ∣ tick
  · have hzero : ¬(tick < 0 ∧ tick.tmod tickSpacing ≠ 0) := fun h => h.2 (hmod.mpr hdvd)
    rw [if_neg hzero, if_pos (.inr hdvd), add_zero]
  · by_cases hneg : tick < 0
    · have hboth : tick < 0 ∧ tick.tmod tickSpacing ≠ 0 := ⟨hneg, fun h => hdvd (hmod.mp h)⟩
      have hnone : ¬(0 ≤ tick ∨ tickSpacing ∣ tick) := by
        rintro (hnonneg | hdvd')
        · omega
        · exact hdvd hdvd'
      rw [if_pos hboth, if_neg hnone]
      ring
    · rw [if_neg fun h => hneg h.1, if_pos (.inl (not_lt.mp hneg)), add_zero]

/-- The words of a snapshot hold exactly the initialized ticks. -/
structure Complete (words : ℤ → ℕ) (tickData : LiquidityMap) (tickSpacing : ℤ) : Prop where
  spacing_pos : 0 < tickSpacing
  aligned : ∀ t ∈ tickData, tickSpacing ∣ t
  word_lt : ∀ wordPos, words wordPos < 2 ^ 256
  bits : ∀ wordPos, ∀ bitPos < 256, (words wordPos).testBit bitPos = true ↔
    (256 * wordPos + bitPos) * tickSpacing ∈ tickData

section Search

variable {words : ℤ → ℕ} {tickData : LiquidityMap} {tickSpacing tick : ℤ} {lte : Bool}

/-- The map that holds one word only. -/
def Complete.wordMap (h : Complete words tickData tickSpacing) (wordPos : ℤ) :
    InitializedTickMap := AList.insert wordPos ⟨words wordPos, 0, h.word_lt wordPos⟩ ∅

theorem Complete.wordMap_consistent (h : Complete words tickData tickSpacing) (wordPos : ℤ) :
    ConsistentTickMap (h.wordMap wordPos) tickData tickSpacing where
  spacing_pos := h.spacing_pos
  aligned := h.aligned
  bits := by
    intro other word hlookup
    by_cases heq : other = wordPos
    · subst heq
      rw [Complete.wordMap, AList.lookup_insert] at hlookup
      cases hlookup
      exact h.bits other
    · rw [Complete.wordMap, AList.lookup_insert_ne heq] at hlookup
      cases hlookup

theorem Complete.search_eq_legacy (h : Complete words tickData tickSpacing) {stop : ℤ × Bool}
    (hlegacy : nextInitializedTickWithinOneWordLegacy
      (h.wordMap (touchedWord tickSpacing lte tick)) tick tickSpacing lte = .ok stop) :
    nextInitializedTickWithinOneWord words tick tickSpacing lte = .ok stop := by
  have hword : ∀ wordPos, (h.wordMap wordPos).lookup wordPos =
      some ⟨words wordPos, 0, h.word_lt wordPos⟩ := fun wordPos => AList.lookup_insert _
  have hposition : ∀ t, position t = Degenbot.position t := fun _ => rfl
  simp only [nextInitializedTickWithinOneWord, compressed_eq h.spacing_pos, hposition]
  cases lte with
  | true =>
      simp only [touchedWord, if_true, nextInitializedTickWithinOneWordLegacy, hword] at hlegacy ⊢
      have hbit := position_snd_lt (tick.fdiv tickSpacing)
      generalize (Degenbot.position (tick.fdiv tickSpacing)).2 = bitPos at *
      generalize hw : words (Degenbot.position (tick.fdiv tickSpacing)).1 = word at *
      have hmask : (1 <<< bitPos) - 1 + (1 <<< bitPos) = 2 * (1 <<< bitPos) - 1 := by
        have hpow : 0 < 1 <<< bitPos := by
          rw [Nat.one_shiftLeft]
          exact Nat.two_pow_pos bitPos
        omega
      rw [hmask]
      by_cases hzero : word &&& (2 * (1 <<< bitPos) - 1) = 0
      · rw [if_neg (not_not.mpr hzero)] at hlegacy ⊢
        cases hlegacy
        rfl
      · rw [if_pos hzero] at hlegacy ⊢
        have hlt : word &&& (2 * (1 <<< bitPos) - 1) < 2 ^ 256 :=
          Nat.and_le_left.trans_lt (hw ▸ h.word_lt _)
        obtain ⟨msb, hmsb, hset, -⟩ := mostSignificantBit_spec hzero hlt
        have hle := ((testBit_mask_down word bitPos msb).mp hset).2
        have hsub : ((bitPos : ℤ) - msb) % 256 = bitPos - msb := by omega
        rw [hmsb] at hlegacy
        cases hlegacy
        rw [mostSignificantBit_eq hzero hlt hmsb, Library.ok_bind, hsub]
  | false =>
      simp only [touchedWord, Bool.false_eq_true, if_false,
        nextInitializedTickWithinOneWordLegacy, hword] at hlegacy ⊢
      generalize (Degenbot.position (tick.fdiv tickSpacing + 1)).2 = bitPos at *
      generalize hw : words (Degenbot.position (tick.fdiv tickSpacing + 1)).1 = word at *
      by_cases hzero : Nat.ldiff word ((1 <<< bitPos) - 1) = 0
      · rw [if_neg (not_not.mpr hzero)] at hlegacy ⊢
        cases hlegacy
        rfl
      · rw [if_pos hzero] at hlegacy ⊢
        have hword_lt : word < 2 ^ 256 := hw ▸ h.word_lt _
        have hup := testBit_mask_up word bitPos
        have hlt : Nat.ldiff word ((1 <<< bitPos) - 1) < 2 ^ 256 := by
          apply Nat.lt_pow_two_of_testBit
          intro i hi
          by_contra hbit
          have hset := ((hup i).mp (by simpa using hbit)).1
          have hge := Nat.ge_two_pow_of_testBit hset
          have hpow : 2 ^ 256 ≤ 2 ^ i := Nat.pow_le_pow_right (by norm_num) hi
          omega
        obtain ⟨lsb, hlsb, hset, -⟩ := leastSignificantBit_spec hzero hlt
        have hge := ((hup lsb).mp hset).2
        have htop : lsb < 256 := by
          have hpow := (Nat.ge_two_pow_of_testBit hset).trans_lt hlt
          exact (Nat.pow_lt_pow_iff_right (by norm_num)).mp hpow
        have hsub : ((lsb : ℤ) - bitPos) % 256 = lsb - bitPos := by omega
        rw [hlsb] at hlegacy
        cases hlegacy
        rw [leastSignificantBit_eq hzero hlt hlsb, Library.ok_bind, hsub]

/-- The search returns the next stop, as the walk of the other port does. -/
theorem Complete.search_spec (h : Complete words tickData tickSpacing) (tick : ℤ) (lte : Bool) :
    ∃ next, IsNextStop tickData tickSpacing lte tick next ∧
      nextInitializedTickWithinOneWord words tick tickSpacing lte =
        .ok (next, decide (next ∈ tickData)) := by
  have hpresent : touchedWord tickSpacing lte tick ∈
      h.wordMap (touchedWord tickSpacing lte tick) := by
    rw [Complete.wordMap, AList.mem_insert]
    exact .inl rfl
  obtain ⟨next, hnext, hlegacy⟩ :=
    nextInitializedTickWithinOneWordLegacy_spec (h.wordMap_consistent _) hpresent
  exact ⟨next, hnext, h.search_eq_legacy hlegacy⟩

end Search

open Library V3

/-! ## The same pool -/

/-- A snapshot holds the state from which a swap over a full map starts. -/
structure Represents (pool : V3Snapshot) (args : SwapArgs) : Prop where
  price_eq : (pool.sqrtPriceX96 : ℤ) = args.sqrtPriceX96Start
  liquidity_eq : pool.liquidity = args.liquidityStart
  tick_eq : pool.tick = args.tickStart
  fee_eq : pool.feeBps * 100 = args.fee
  spacing_eq : pool.tickSpacing = args.snapshot.tickSpacing
  complete : Complete (getTick pool) args.snapshot.tickData args.snapshot.tickSpacing
  nets_eq : ∀ t ∈ args.snapshot.tickData,
    pool.tickNetLiquidity.lookup t = some (netAt args.snapshot.tickData t)
  full : args.snapshot.sparse = false

/-- Active liquidity that fits into 128 bits at every tick, and nets that can be negated at the
ticks that the swap can cross downwards. -/
structure Bounded (args : SwapArgs) : Prop where
  liquidity_mem : ∀ t, 0 ≤ liquidityAt args.snapshot.tickData t ∧
    liquidityAt args.snapshot.tickData t < 2 ^ 128
  net_gt : args.zeroForOne = true → ∀ t ∈ args.snapshot.tickData, t ≤ args.tickStart →
    -2 ^ 127 < netAt args.snapshot.tickData t

/-- The arguments of an exact input with the extreme price limit. -/
structure ExactInput (args : SwapArgs) (amountIn : ℕ) : Prop where
  amount_eq : args.amountSpecified = amountIn
  amount_pos : 0 < amountIn
  amount_lt : amountIn < 2 ^ 255
  limit_eq : args.sqrtPriceLimitX96 = sqrtPriceLimit args.zeroForOne

theorem ExactInput.exact {args : SwapArgs} {amountIn : ℕ} (hin : ExactInput args amountIn) :
    args.exactInput = true := by
  have hpos := hin.amount_pos
  simp only [SwapArgs.exactInput, hin.amount_eq, gt_iff_lt, Nat.cast_pos, decide_eq_true_eq]
  exact hpos

def StepResult.toSwapStep (step : StepResult) : SwapStep where
  sqrtRatioNextX96 := step.sqrtRatioNextX96
  amountIn := step.amountIn
  amountOut := step.amountOut
  feeAmount := step.feeAmount

/-- The vendored functions agree with their ports on the steps of a swap. -/
structure AgreesOn (math : UniswapV3Math) (args : SwapArgs) : Prop where
  ratio : ∀ tick, ValidTick tick → ExceptRel (fun _ _ => True) (fun (r : ℕ) r' => (r : ℤ) = r')
    (math.getSqrtRatioAtTick tick) (getSqrtRatioAtTick tick)
  tick : ∀ price : ℕ, minSqrtRatio ≤ price → (price : ℤ) < maxSqrtRatio →
    ExceptRel (fun _ _ => True) (· = ·) (math.getTickAtSqrtRatio price) (getTickAtSqrtRatio price)
  step : ∀ state : SwapState, Visits args.guard args.body args.initialState state →
    args.guard state = true → ∀ current target : ℕ, state.sqrtPriceX96 = current →
      ExceptRel (fun _ _ => True) (fun r step => r.toSwapStep = step)
        (math.computeSwapStep current target state.liquidity state.amountSpecifiedRemaining args.fee)
        (computeSwapStep current target state.liquidity state.amountSpecifiedRemaining args.fee)

/-- The swaps over which both languages are compared. -/
structure Compared (math : UniswapV3Math) (pool : V3Snapshot) (args : SwapArgs) (amountIn : ℕ) :
    Prop where
  consistent : args.Consistent
  represents : Represents pool args
  input : ExactInput args amountIn
  liquidity_mem : ∀ t, 0 ≤ liquidityAt args.snapshot.tickData t ∧
    liquidityAt args.snapshot.tickData t < 2 ^ 128
  agrees : AgreesOn math args

theorem toI256_of_mem {value : ℤ} {report : String} (hlow : -2 ^ 255 ≤ value)
    (hhigh : value < 2 ^ 255) : toI256 value report = .ok value := if_pos ⟨hlow, hhigh⟩

theorem checkSwap_eq {pool : V3Snapshot} {feePips : ℤ} {amountIn : ℕ} (hfee : pool.feeBps < 10000)
    (hspacing : 0 < pool.tickSpacing) (hpips : pool.feePips = some feePips)
    (hamount : amountIn < 2 ^ 255) : checkSwap pool amountIn = .ok (feePips, (amountIn : ℤ)) := by
  have hfits : toI256 amountIn "v3::amount_out: amount_in exceeds I256 range" =
      .ok (amountIn : ℤ) := by
    apply toI256_of_mem
    · exact le_trans (by norm_num) (Int.natCast_nonneg _)
    · exact_mod_cast hamount
  rw [checkSwap, if_neg (not_le.mpr hfee), if_neg (not_le.mpr hspacing), hpips]
  dsimp only
  rw [hfits]
  rfl

/-- The sums of the nets change only at the keys. -/
theorem liquidityAt_mem_of_keys {tickData : LiquidityMap}
    (h : ∀ k ∈ tickData.keys, 0 ≤ liquidityAt tickData k ∧ liquidityAt tickData k < 2 ^ 128)
    (t : ℤ) : 0 ≤ liquidityAt tickData t ∧ liquidityAt tickData t < 2 ^ 128 := by
  by_cases hnone : ∀ k ∈ tickData, t < k
  · rw [liquidityAt_eq_zero_below hnone]
    norm_num
  · push Not at hnone
    obtain ⟨first, hfirst, hle⟩ := hnone
    have hne : (tickData.keys.toFinset.filter (· ≤ t)).Nonempty :=
      ⟨first, Finset.mem_filter.mpr ⟨List.mem_toFinset.mpr hfirst, hle⟩⟩
    obtain ⟨k, hk, hmax⟩ := Finset.exists_max_image _ id hne
    rw [Finset.mem_filter, List.mem_toFinset] at hk
    have hgap : ∀ key ∈ tickData, key ≤ k ∨ t < key := by
      intro key hkey
      by_cases hkt : key ≤ t
      · exact .inl (hmax key (Finset.mem_filter.mpr ⟨List.mem_toFinset.mpr hkey, hkt⟩))
      · exact .inr (not_le.mp hkt)
    rw [liquidityAt_eq_of_gap hk.2 hgap]
    exact h k hk.1

/-! ## Snapshots of Python states -/

/-- The snapshot of the state from which a swap starts. -/
def snapshotOf (args : SwapArgs) (feeBps : ℤ) : V3Snapshot where
  sqrtPriceX96 := args.sqrtPriceX96Start.toNat
  liquidity := args.liquidityStart
  tick := args.tickStart
  feeBps := feeBps
  tickSpacing := args.snapshot.tickSpacing
  tickBitmap := mapValues BitmapAtWord.bitmap args.snapshot.tickBitmap
  tickNetLiquidity := mapValues LiquidityAtTick.liquidityNet args.snapshot.tickData

theorem represents_snapshotOf {args : SwapArgs} {feeBps : ℤ} (hprice : 0 ≤ args.sqrtPriceX96Start)
    (hfee : feeBps * 100 = args.fee) (hfull : args.snapshot.sparse = false)
    (hcons : ConsistentTickMap args.snapshot.tickBitmap args.snapshot.tickData
      args.snapshot.tickSpacing)
    (hwords : ∀ t ∈ args.snapshot.tickData,
      (position (t / args.snapshot.tickSpacing)).1 ∈ args.snapshot.tickBitmap) :
    Represents (snapshotOf args feeBps) args where
  price_eq := Int.toNat_of_nonneg hprice
  liquidity_eq := rfl
  tick_eq := rfl
  fee_eq := hfee
  spacing_eq := rfl
  full := hfull
  nets_eq := by
    intro t ht
    obtain ⟨info, hinfo⟩ := Option.isSome_iff_exists.mp (AList.lookup_isSome.mpr ht)
    rw [snapshotOf, lookup_mapValues, hinfo, netAt_of_lookup hinfo]
    rfl
  complete := by
    have hs := hcons.spacing_pos
    have hread : ∀ wordPos, getTick (snapshotOf args feeBps) wordPos =
        ((args.snapshot.tickBitmap.lookup wordPos).map BitmapAtWord.bitmap).getD 0 := by
      intro wordPos
      rw [getTick, snapshotOf, lookup_mapValues]
    refine ⟨hs, hcons.aligned, ?_, ?_⟩
    · intro wordPos
      rw [hread]
      cases hword : args.snapshot.tickBitmap.lookup wordPos with
      | none => exact Nat.two_pow_pos 256
      | some word => exact word.bitmap_lt
    · intro wordPos bitPos hbit
      rw [hread]
      cases hword : args.snapshot.tickBitmap.lookup wordPos with
      | some word => exact hcons.bits wordPos word hword bitPos hbit
      | none =>
          -- a tick in this word would have made the word present
          have hnone : (256 * wordPos + bitPos) * args.snapshot.tickSpacing ∉
              args.snapshot.tickData := by
            intro hmem
            have hpresent := hwords _ hmem
            rw [Int.mul_ediv_cancel _ hs.ne'] at hpresent
            have hpos : (position (256 * wordPos + bitPos)).1 = wordPos := by
              simp only [position, Int.shiftRight_eq_div_pow]
              omega
            rw [hpos, ← AList.lookup_isSome, hword] at hpresent
            cases hpresent
          simp [hnone]

/-! ## The ports as vendored functions -/

/-- The step of the Python port, with its results as words. -/
def StepResult.ofSwapStep (step : SwapStep) : StepResult where
  sqrtRatioNextX96 := step.sqrtRatioNextX96.toNat
  amountIn := step.amountIn.toNat
  amountOut := step.amountOut.toNat
  feeAmount := step.feeAmount.toNat

/-- The errors of the ports, without their texts. -/
def ofPort {α β : Type} (f : α → β) (outcome : Except Exn α) : Except String β :=
  match outcome with
  | .ok a => .ok (f a)
  | .error _ => .error "port"

def portMath : UniswapV3Math where
  computeSwapStep current target liquidity remaining feePips :=
    ofPort StepResult.ofSwapStep (computeSwapStep current target liquidity remaining feePips)
  getSqrtRatioAtTick tick := ofPort Int.toNat (getSqrtRatioAtTick tick)
  getTickAtSqrtRatio price := ofPort id (getTickAtSqrtRatio price)

theorem ofPort_rel {α β : Type} {f : α → β} {R : β → α → Prop} {outcome : Except Exn α}
    (h : ∀ a, outcome = .ok a → R (f a) a) :
    ExceptRel (fun _ _ => True) R (ofPort f outcome) outcome := by
  cases outcome with
  | error e => exact .error trivial
  | ok a => exact .ok (h a rfl)

/-- The amounts of an exact-input step are not negative. -/
theorem toSwapStep_ofSwapStep {current target liquidity remaining fee : ℤ} {step : SwapStep}
    (hrem : 0 ≤ remaining) (hfee : 0 ≤ fee)
    (h : computeSwapStep current target liquidity remaining fee = .ok step) :
    (StepResult.ofSwapStep step).toSwapStep = step := by
  obtain ⟨hL, hc, ht, hcases⟩ := computeSwapStep_exactIn hrem h
  have hdir := toward_of_ge current target
  have hnonneg : 0 ≤ step.sqrtRatioNextX96 ∧ 0 ≤ step.amountIn ∧ 0 ≤ step.amountOut ∧
      0 ≤ step.feeAmount := by
    rcases hcases with ⟨-, ⟨-, hfee1⟩, rfl⟩ | ⟨hless, -, hLpos, -, hto, hfrom, rfl⟩
    · have hin := inputAmount_nonneg hL hc ht hdir
      exact ⟨ht.le, hin, outputAmount_nonneg hL hc ht hdir,
        ceilDiv_nonneg (mul_nonneg hin hfee) (by omega)⟩
    · have hpos := pos_of_toward hc ht hto hfrom
      have hpaid := inputAmount_priceFromInput_le hLpos hc hless hpos
      have hle : remaining * (1000000 - fee) / 1000000 ≤ remaining := by
        apply Int.ediv_le_of_le_mul (by norm_num)
        nlinarith
      exact ⟨hpos.le, inputAmount_nonneg hL hc hpos hto, outputAmount_nonneg hL hc hpos hto,
        by dsimp only; omega⟩
  obtain ⟨hnext, hin, hout, hfee'⟩ := hnonneg
  simp only [StepResult.ofSwapStep, StepResult.toSwapStep, Int.toNat_of_nonneg hnext,
    Int.toNat_of_nonneg hin, Int.toNat_of_nonneg hout, Int.toNat_of_nonneg hfee']

theorem portMath_ratio (tick : ℤ) :
    ExceptRel (fun _ _ => True) (fun (r : ℕ) r' => (r : ℤ) = r')
      (portMath.getSqrtRatioAtTick tick) (getSqrtRatioAtTick tick) := by
  apply ofPort_rel
  intro ratio hratio
  obtain ⟨-, rfl⟩ := getSqrtRatioAtTick_eq_ok_iff.mp hratio
  exact Int.toNat_of_nonneg (Int.natCast_nonneg _)

theorem portMath_agreesOn {args : SwapArgs} {amountIn : ℕ} (hin : ExactInput args amountIn)
    (hcons : args.Consistent) (hvalid : args.Valid) (hfee : 0 ≤ args.fee) :
    AgreesOn portMath args where
  ratio := fun tick _ => portMath_ratio tick
  tick := fun price _ _ => ofPort_rel fun _ _ => rfl
  step := by
    intro state hvisits hguard current target hcurrent
    apply ofPort_rel
    intro step hstep
    have hinv : args.Inv state := by
      clear hguard hcurrent hstep
      induction hvisits with
      | refl => exact SwapArgs.initial_inv hvalid hcons
      | tail _ hiter ih => exact SwapArgs.body_inv hvalid hcons.spacing_pos ih hiter
    have hsign := hinv.signKept
    simp only [SwapArgs.SignKept, hin.exact, if_true] at hsign
    exact toSwapStep_ofSwapStep hsign hfee hstep

end Degenbot.V3Simulation
