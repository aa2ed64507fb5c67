import Degenbot.Algorithm.AavePosition
import Degenbot.Library.Digits

/-! # The configuration of a reserve, packed and decoded

Three masks are narrower than their fields, one window starts at the field before, and the
flag of another setting is read as the isolation mode. -/

namespace Degenbot.Aave

open Library

/-- The configuration of a reserve as the Pool stores it, from the lowest bit up. -/
structure ReserveConfiguration where
  ltv : BitVec 16
  liquidationThreshold : BitVec 16
  liquidationBonus : BitVec 16
  decimals : BitVec 8
  active : Bool
  frozen : Bool
  borrowingEnabled : Bool
  stableBorrowingEnabled : Bool
  paused : Bool
  borrowableInIsolation : Bool
  siloedBorrowing : Bool
  flashLoanEnabled : Bool
  reserveFactor : BitVec 16
  borrowCap : BitVec 36
  supplyCap : BitVec 36
  liquidationProtocolFee : BitVec 16
  eModeCategory : BitVec 8
  unbackedMintCap : BitVec 36
  debtCeiling : BitVec 40
  upper : BitVec 4

namespace ReserveConfiguration

def fields (c : ReserveConfiguration) : List BitField :=
  [(16, c.ltv.toNat), (16, c.liquidationThreshold.toNat), (16, c.liquidationBonus.toNat),
   (8, c.decimals.toNat), (1, c.active.toNat), (1, c.frozen.toNat), (1, c.borrowingEnabled.toNat),
   (1, c.stableBorrowingEnabled.toNat), (1, c.paused.toNat), (1, c.borrowableInIsolation.toNat),
   (1, c.siloedBorrowing.toNat), (1, c.flashLoanEnabled.toNat), (16, c.reserveFactor.toNat),
   (36, c.borrowCap.toNat), (36, c.supplyCap.toNat), (16, c.liquidationProtocolFee.toNat),
   (8, c.eModeCategory.toNat), (36, c.unbackedMintCap.toNat), (40, c.debtCeiling.toNat),
   (4, c.upper.toNat)]

/-- The word of the Pool. -/
@[irreducible] def word (c : ReserveConfiguration) : ℕ := pack c.fields

/-- The decoded fields are those of the configuration, and isolation mode is a nonzero debt
ceiling. A category of zero is none. -/
structure DecodedExactly (c : ReserveConfiguration) (d : ReserveConfigurationBitmap) : Prop where
  ltv : d.ltv = c.ltv.toNat
  liquidationThreshold : d.liquidationThreshold = c.liquidationThreshold.toNat
  liquidationBonus : d.liquidationBonus = c.liquidationBonus.toNat
  decimals : d.decimals = c.decimals.toNat
  isActive : d.isActive = c.active
  isFrozen : d.isFrozen = c.frozen
  borrowingEnabled : d.borrowingEnabled = c.borrowingEnabled
  borrowableInIsolation : d.borrowableInIsolation = c.borrowableInIsolation
  flashLoanEnabled : d.flashLoanEnabled = c.flashLoanEnabled
  reserveFactor : d.reserveFactor = c.reserveFactor.toNat
  borrowCap : d.borrowCap = c.borrowCap.toNat
  supplyCap : d.supplyCap = c.supplyCap.toNat
  liquidationProtocolFee : d.liquidationProtocolFee = c.liquidationProtocolFee.toNat
  eModeCategoryId : d.eModeCategoryId =
    if c.eModeCategory.toNat = 0 then none else some c.eModeCategory.toNat
  unbackedMintCap : d.unbackedMintCap = c.unbackedMintCap.toNat
  debtCeiling : d.debtCeiling = c.debtCeiling.toNat
  isolationMode : d.isolationMode = true ↔ c.debtCeiling.toNat ≠ 0

variable (c : ReserveConfiguration)

theorem fields_fit : ∀ field ∈ c.fields, field.Fits := by
  simp only [fields, List.forall_mem_cons, BitField.Fits, BitVec.isLt, Bool.toNat_lt, pow_one,
    List.not_mem_nil, false_imp_iff, implies_true, and_self]

/-! ## Windows of the word -/

section Windows

variable {k start width mask : ℕ} {field : BitField}

theorem word_window (hget : c.fields[k]? = some field)
    (hstart : widthOf (c.fields.take k) = start) (hmask : 2 ^ width - 1 = mask)
    (hwidth : width ≤ field.1) : (c.word >>> start) &&& mask = field.2 % 2 ^ width := by
  rw [← hmask, ← hstart, word]
  exact window_getElem c.fields_fit hget hwidth

theorem word_field (hget : c.fields[k]? = some field)
    (hstart : widthOf (c.fields.take k) = start) (hmask : 2 ^ field.1 - 1 = mask) :
    (c.word >>> start) &&& mask = field.2 := by
  rw [c.word_window hget hstart hmask le_rfl]
  exact Nat.mod_eq_of_lt (c.fields_fit field (List.mem_of_getElem? hget))

theorem word_flag {flag : Bool} (hget : c.fields[k]? = some (1, flag.toNat))
    (hstart : widthOf (c.fields.take k) = start) : flagAt c.word start = flag := by
  have hbit : (c.word >>> start) &&& 1 = flag.toNat := c.word_field hget hstart rfl
  unfold flagAt
  rw [hbit]
  cases flag <;> rfl

/-- The window at bit 168 holds the category and the low bits of the cap. -/
theorem word_unbacked : (c.word >>> 168) &&& 0xFFFFFFFF =
    c.eModeCategory.toNat + 2 ^ 8 * (c.unbackedMintCap.toNat % 2 ^ 24) := by
  have hfits : ∀ field ∈ c.fields.take 16, field.Fits :=
    fun field hfield => c.fields_fit field (List.mem_of_mem_take hfield)
  have hwindow : window (pack (c.fields.take 16 ++ c.fields.drop 16)) (widthOf (c.fields.take 16)) 32 =
      pack (c.fields.drop 16) % 2 ^ 32 := window_pack_append hfits 32
  have hpack : pack (c.fields.drop 16) = c.eModeCategory.toNat + 2 ^ 8 *
      (c.unbackedMintCap.toNat + 2 ^ 36 * pack (c.fields.drop 18)) := rfl
  have hcategory := c.eModeCategory.isLt
  have hwidth : widthOf (c.fields.take 16) = 168 := by simp [fields, widthOf]
  rw [List.take_append_drop, hpack, hwidth, window] at hwindow
  norm_num only at hwindow
  rw [word, hwindow]
  omega

end Windows

/-- The four settings for which the decoder is right about the others too. -/
def Decodable (c : ReserveConfiguration) : Prop :=
  c.borrowCap.toNat < 2 ^ 32 ∧ c.supplyCap.toNat < 2 ^ 32 ∧
    c.unbackedMintCap.toNat = 0x01010101 * c.eModeCategory.toNat ∧
    (c.siloedBorrowing = true ↔ c.debtCeiling.toNat ≠ 0)

theorem unbacked_iff {category cap : ℕ} (hcategory : category < 2 ^ 8) (hcap : cap < 2 ^ 36) :
    category + 2 ^ 8 * (cap % 2 ^ 24) = cap ↔ cap = 0x01010101 * category := by
  omega

/-- Bit 62 is the flag of siloed borrowing. -/
theorem decode_isolationMode :
    (decodeReserveConfigurationBitmap c.word).isolationMode = c.siloedBorrowing :=
  c.word_flag (k := 10) rfl (by simp [fields, widthOf])

theorem decode_borrowCap :
    (decodeReserveConfigurationBitmap c.word).borrowCap = c.borrowCap.toNat % 2 ^ 32 :=
  c.word_window (k := 13) rfl (by simp [fields, widthOf]) (by norm_num) (by simp)

theorem decode_supplyCap :
    (decodeReserveConfigurationBitmap c.word).supplyCap = c.supplyCap.toNat % 2 ^ 32 :=
  c.word_window (k := 14) rfl (by simp [fields, widthOf]) (by norm_num) (by simp)

theorem decode_unbackedMintCap :
    (decodeReserveConfigurationBitmap c.word).unbackedMintCap =
      c.eModeCategory.toNat + 2 ^ 8 * (c.unbackedMintCap.toNat % 2 ^ 24) :=
  c.word_unbacked

theorem decode_eModeCategoryId :
    (decodeReserveConfigurationBitmap c.word).eModeCategoryId =
      if c.eModeCategory.toNat = 0 then none else some c.eModeCategory.toNat := by
  have hcategory : (c.word >>> 168) &&& 0xFF = c.eModeCategory.toNat :=
    c.word_field (k := 16) rfl (by simp [fields, widthOf]) (by norm_num)
  simp only [decodeReserveConfigurationBitmap, hcategory, gt_iff_lt, Nat.pos_iff_ne_zero, ite_not]

/-- The decoder is exact for these configurations and for no others. -/
theorem decodedExactly_iff (c : ReserveConfiguration) :
    c.DecodedExactly (decodeReserveConfigurationBitmap c.word) ↔ c.Decodable := by
  constructor
  · intro h
    have hborrow := c.decode_borrowCap.symm.trans h.borrowCap
    have hsupply := c.decode_supplyCap.symm.trans h.supplyCap
    have hunbacked := c.decode_unbackedMintCap.symm.trans h.unbackedMintCap
    have hisolation := h.isolationMode
    rw [c.decode_isolationMode] at hisolation
    refine ⟨?_, ?_, ?_, hisolation⟩
    · rw [← hborrow]
      exact Nat.mod_lt _ (by norm_num)
    · rw [← hsupply]
      exact Nat.mod_lt _ (by norm_num)
    · exact (unbacked_iff c.eModeCategory.isLt c.unbackedMintCap.isLt).mp hunbacked
  · rintro ⟨hborrow, hsupply, hunbacked, hisolation⟩
    exact {
      ltv := c.word_field (k := 0) rfl (by simp [widthOf] : _ = 0) (by norm_num)
      liquidationThreshold := c.word_field (k := 1) rfl (by simp [fields, widthOf]) (by norm_num)
      liquidationBonus := c.word_field (k := 2) rfl (by simp [fields, widthOf]) (by norm_num)
      decimals := c.word_field (k := 3) rfl (by simp [fields, widthOf]) (by norm_num)
      isActive := c.word_flag (k := 4) rfl (by simp [fields, widthOf])
      isFrozen := c.word_flag (k := 5) rfl (by simp [fields, widthOf])
      borrowingEnabled := c.word_flag (k := 6) rfl (by simp [fields, widthOf])
      borrowableInIsolation := c.word_flag (k := 9) rfl (by simp [fields, widthOf])
      flashLoanEnabled := c.word_flag (k := 11) rfl (by simp [fields, widthOf])
      reserveFactor := c.word_field (k := 12) rfl (by simp [fields, widthOf]) (by norm_num)
      borrowCap := c.decode_borrowCap.trans (Nat.mod_eq_of_lt hborrow)
      supplyCap := c.decode_supplyCap.trans (Nat.mod_eq_of_lt hsupply)
      liquidationProtocolFee := c.word_field (k := 15) rfl (by simp [fields, widthOf]) (by norm_num)
      eModeCategoryId := c.decode_eModeCategoryId
      unbackedMintCap := c.decode_unbackedMintCap.trans
        ((unbacked_iff c.eModeCategory.isLt c.unbackedMintCap.isLt).mpr hunbacked)
      debtCeiling := c.word_field (k := 18) rfl (by simp [fields, widthOf]) (by norm_num)
      isolationMode := by
        rw [c.decode_isolationMode]
        exact hisolation }

/-- A reserve whose borrow cap of 5,000,000,000 needs 33 bits. -/
def wideBorrowCap : ReserveConfiguration where
  ltv := 8000
  liquidationThreshold := 8250
  liquidationBonus := 10500
  decimals := 18
  active := true
  frozen := false
  borrowingEnabled := true
  stableBorrowingEnabled := false
  paused := false
  borrowableInIsolation := false
  siloedBorrowing := false
  flashLoanEnabled := true
  reserveFactor := 1000
  borrowCap := 5000000000
  supplyCap := 0
  liquidationProtocolFee := 1000
  eModeCategory := 0
  unbackedMintCap := 0
  debtCeiling := 0
  upper := 0

theorem wideBorrowCap_not_exact :
    ¬wideBorrowCap.DecodedExactly (decodeReserveConfigurationBitmap wideBorrowCap.word) := by
  intro h
  have hborrow := wideBorrowCap.decode_borrowCap.symm.trans h.borrowCap
  exact absurd hborrow (by decide)

end ReserveConfiguration

end Degenbot.Aave
