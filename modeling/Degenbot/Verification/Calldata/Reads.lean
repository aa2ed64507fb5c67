import Degenbot.Algorithm.AbiHelpers
import Degenbot.Algorithm.FrontrunCalldata
import Degenbot.Library.Abi
import Degenbot.Library.Lists
import Degenbot.Library.Outcome

/-! # Writing and reading words -/

/-! ## Words of the hand-written encoders

Every helper that appends a word appends the standard one. -/

namespace Degenbot.Abi

open Library Library.HeadTail Library.Abi

@[simp] theorem pushU256Word_eq (value : U256) : pushU256Word value = word value.toNat := rfl

@[simp] theorem word_toNat_ofUsize (value : ℕ) : word (ofUsize value).toNat = word value := by
  have hmod : (ofUsize value).toNat = value % 256 ^ 32 := by
    rw [ofUsize, BitVec.toNat_ofNat]
    norm_num
  rw [hmod]
  exact beBytes_mod 32 value

@[simp] theorem pushAddressWord_eq (address : Address) :
    pushAddressWord address = word address.toNat := by
  have hlt : address.toNat < 256 ^ 20 := lt_of_lt_of_eq address.isLt (by norm_num)
  exact zeros_append_beBytes 12 hlt

theorem zeros_append_byte (byte : UInt8) : zeros 31 ++ [byte] = word byte.toNat := by
  have hbytes : beBytes 1 byte.toNat = [byte] := by
    simp [beBytes]
  rw [← hbytes]
  exact zeros_append_beBytes 31 byte.toNat_lt

@[simp] theorem pushU8Word_eq (value : UInt8) : pushU8Word value = word value.toNat :=
  zeros_append_byte value

@[simp] theorem pushBoolWord_eq (value : Bool) : pushBoolWord value = word value.toNat := by
  cases value
  · exact zeros_append_byte 0
  · exact zeros_append_byte 1

@[simp] theorem pushBytesTail_eq (bytes : List UInt8) : pushBytesTail bytes = bytesTail bytes := by
  simp only [pushBytesTail, pushU256Word_eq, word_toNat_ofUsize]
  rfl

theorem length_bytesTail (bytes : List UInt8) :
    (bytesTail bytes).length = encodedBytesLen bytes.length := by
  simp only [bytesTail, List.length_append, length_word, List.length_replicate, padding,
    encodedBytesLen, paddedByteLen]
  omega

end Degenbot.Abi

/-! ## Reading what was written

A read at the offset of a word, of bytes or of an array returns its value: the checked
additions stay below the end of the data, which fits a `usize`. -/

namespace Degenbot.FrontrunCalldata

open Library Library.HeadTail Library.Abi Abi

variable {target : Target} {data : List UInt8} {offset : ℕ}

theorem Target.isizeMax_le (target : Target) : target.isizeMax ≤ target.usizeMax := by
  cases target <;> decide

theorem Target.usizeMax_lt (target : Target) : target.usizeMax < 2 ^ 256 := by
  cases target <;> decide

theorem checkedEnd_eq {len : ℕ} (h : offset + len ≤ target.usizeMax) :
    checkedEnd target offset len = some (offset + len) := if_pos h

/-! ## Words -/

/-- The word of a number below `2 ^ 160` starts with twelve zeros. -/
theorem word_eq_zeros_append {n : ℕ} (h : n < 2 ^ 160) : word n = zeros 12 ++ beBytes 20 n := by
  have hlt : n < 256 ^ 20 := lt_of_lt_of_eq h (by norm_num)
  exact (zeros_append_beBytes 12 hlt).symm

theorem any_take_word {n : ℕ} (h : n < 2 ^ 160) : ((word n).take 12).any (· ≠ 0) = false := by
  rw [word_eq_zeros_append h, List.take_left' (by simp [zeros])]
  rfl

section Words

variable (hdata : data.length ≤ target.isizeMax)

include hdata

theorem readWord_eq {n : ℕ} (h : SegmentAt data offset (word n)) :
    FrontrunCalldata.readWord target data offset = .ok (word n) := by
  have hend := h.le_length
  rw [length_word] at hend
  have hmax := target.isizeMax_le
  have hslice : slice data offset (offset + 32) = some (word n) := by
    rw [slice, if_pos ⟨by omega, hend⟩]
    have htake := h.take_drop
    rw [length_word] at htake
    simp [htake]
  simp [FrontrunCalldata.readWord, checkedEnd_eq (show offset + 32 ≤ target.usizeMax by omega),
    hslice]

theorem readU256_eq {value : U256} (h : SegmentAt data offset (word value.toNat)) :
    readU256 target data offset = .ok value := by
  have hvalue : beValue (word value.toNat) = value.toNat :=
    beValue_beBytes_of_lt (lt_of_lt_of_eq value.isLt (by norm_num))
  simp [readU256, readWord_eq hdata h, hvalue]

theorem readU256Usize_eq {n : ℕ} (hn : n ≤ target.usizeMax)
    (h : SegmentAt data offset (word n)) : readU256Usize target data offset = .ok n := by
  have hlt : n < 2 ^ 256 := hn.trans_lt target.usizeMax_lt
  have htoNat : (BitVec.ofNat 256 n).toNat = n := by
    rw [BitVec.toNat_ofNat, Nat.mod_eq_of_lt hlt]
  have hread : readU256 target data offset = .ok (BitVec.ofNat 256 n) := by
    apply readU256_eq hdata
    rwa [htoNat]
  simp [readU256Usize, hread, u256ToUsize, htoNat, Nat.not_lt.mpr hn]

theorem readAddress_eq {address : Address} (h : SegmentAt data offset (word address.toNat)) :
    readAddress target data offset = .ok address := by
  have hdrop : (word address.toNat).drop 12 = beBytes 20 address.toNat := by
    rw [word_eq_zeros_append address.isLt, List.drop_left' (by simp [zeros])]
  have hvalue : beValue (beBytes 20 address.toNat) = address.toNat :=
    beValue_beBytes_of_lt (lt_of_lt_of_eq address.isLt (by norm_num))
  have hany := any_take_word address.isLt
  simp only [readAddress, readWord_eq hdata h, ok_bind, hany, hdrop, addressFromSlice, hvalue,
    Bool.false_eq_true, if_false, BitVec.ofNat_toNat, BitVec.setWidth_eq]

theorem readU160AsU256_eq {value : U256} (hvalue : value.toNat < 2 ^ 160)
    (h : SegmentAt data offset (word value.toNat)) :
    readU160AsU256 target data offset = .ok value := by
  have hword : beValue (word value.toNat) = value.toNat :=
    beValue_beBytes_of_lt (lt_of_lt_of_eq value.isLt (by norm_num))
  have hany := any_take_word hvalue
  simp only [readU160AsU256, readWord_eq hdata h, ok_bind, hany, hword, Bool.false_eq_true,
    if_false, BitVec.ofNat_toNat, BitVec.setWidth_eq]

theorem readU24_eq {fee : UInt32} (hfee : fee.toNat < 2 ^ 24)
    (h : SegmentAt data offset (word fee.toNat)) : readU24 target data offset = .ok fee := by
  have htoNat : (BitVec.ofNat 256 fee.toNat).toNat = fee.toNat := by
    rw [BitVec.toNat_ofNat, Nat.mod_eq_of_lt (hfee.trans (by norm_num))]
  have hread : readU256 target data offset = .ok (BitVec.ofNat 256 fee.toNat) := by
    apply readU256_eq hdata
    rwa [htoNat]
  have hle : ¬ fee.toNat > 0x00ffffff := by omega
  simp [readU24, hread, htoNat, hle]

theorem readBool_eq {value : Bool} (h : SegmentAt data offset (word value.toNat)) :
    readBool target data offset = .ok value := by
  cases value with
  | false =>
      have hread : readU256 target data offset = .ok 0 := readU256_eq hdata h
      simp [readBool, hread]
  | true =>
      have hread : readU256 target data offset = .ok 1 := readU256_eq hdata h
      simp [readBool, hread]

end Words

/-! ## Bytes and arrays -/

/-- Where the tail of an array element starts, after the tails of those before it. -/
def tailStart (inputs : List (List UInt8)) (index : ℕ) : ℕ :=
  ((inputs.take index).map fun input => encodedBytesLen input.length).sum

theorem segment_offsets (base : ℕ) (inputs : List (List UInt8)) (index : Fin inputs.length) :
    SegmentAt (pushBytesArrayOffsets base inputs) (index * 32)
      (word (base + tailStart inputs index)) := by
  induction inputs generalizing base with
  | nil => exact index.elim0
  | cons input inputs ih =>
      rw [pushBytesArrayOffsets, pushU256Word_eq, word_toNat_ofUsize]
      cases index using Fin.cases with
      | zero =>
          have hhead := SegmentAt.head (word base)
            (pushBytesArrayOffsets (base + encodedBytesLen input.length) inputs)
          simpa [tailStart] using hhead
      | succ index =>
          have hrest := (ih (base + encodedBytesLen input.length) index).skip (word base)
          have hoffset : (index.succ : ℕ) * 32 = (word base).length + index * 32 := by
            rw [Fin.val_succ, length_word]
            omega
          rw [hoffset]
          simpa [tailStart, Nat.add_assoc] using hrest

theorem segment_tails (inputs : List (List UInt8)) (index : Fin inputs.length) :
    SegmentAt (inputs.flatMap bytesTail) (tailStart inputs index)
      (bytesTail (inputs.get index)) := by
  induction inputs with
  | nil => exact index.elim0
  | cons input inputs ih =>
      rw [List.flatMap_cons]
      cases index using Fin.cases with
      | zero => exact SegmentAt.head _ _
      | succ index =>
          have hrest := (ih index).skip (bytesTail input)
          rw [length_bytesTail] at hrest
          simpa [tailStart] using hrest

theorem length_pushBytesArrayOffsets (base : ℕ) (inputs : List (List UInt8)) :
    (pushBytesArrayOffsets base inputs).length = inputs.length * 32 := by
  induction inputs generalizing base with
  | nil => rfl
  | cons input inputs ih =>
      rw [pushBytesArrayOffsets, List.length_append, ih, pushU256Word_eq, length_word,
        List.length_cons]
      omega

theorem checkedArea_eq {start len : ℕ} (hdata : data.length ≤ target.isizeMax)
    (h : start + len * 32 ≤ data.length) : checkedArea target data start len = .ok () := by
  have hmax := target.isizeMax_le
  have hmul : len * 32 ≤ target.usizeMax := by omega
  have hend : start + len * 32 ≤ target.usizeMax := by omega
  simp [checkedArea, hmul, checkedEnd_eq hend, Nat.not_lt.mpr h]

section Arrays

variable (hdata : data.length ≤ target.isizeMax)

include hdata

theorem readBytes_eq {bytes : List UInt8} (h : SegmentAt data offset (bytesTail bytes)) :
    readBytes target data offset = .ok bytes := by
  have hend := h.le_length
  rw [length_bytesTail, encodedBytesLen, paddedByteLen] at hend
  have hmax := target.isizeMax_le
  have hlen : readU256Usize target data offset = .ok bytes.length := by
    refine readU256Usize_eq hdata (by omega) ?_
    unfold bytesTail at h
    exact h.left.left
  have hbytes : SegmentAt data (offset + 32) bytes := by
    unfold bytesTail at h
    have hright := h.left.right
    rwa [length_word] at hright
  have hstart : checkedEnd target offset 32 = some (offset + 32) := checkedEnd_eq (by omega)
  have hstop : checkedEnd target (offset + 32) bytes.length = some (offset + 32 + bytes.length) :=
    checkedEnd_eq (by omega)
  have hpadded : paddedByteLenChecked target bytes.length =
      some (bytes.length + (32 - bytes.length % 32) % 32) := checkedEnd_eq (by omega)
  have hpaddedEnd : checkedEnd target (offset + 32)
      (bytes.length + (32 - bytes.length % 32) % 32) =
        some (offset + 32 + (bytes.length + (32 - bytes.length % 32) % 32)) :=
    checkedEnd_eq (by omega)
  have hinside : ¬ offset + 32 + (bytes.length + (32 - bytes.length % 32) % 32) > data.length := by
    omega
  simp only [readBytes, hlen, ok_bind, hstart, hstop, hpadded, hpaddedEnd, okOr_some, if_neg hinside,
    Nat.add_sub_cancel_left, hbytes.take_drop]

theorem readAddressArray_eq {addresses : List Address}
    (h : SegmentAt data offset (word addresses.length ++ addresses.flatMap pushAddressWord)) :
    readAddressArray target data offset = .ok addresses := by
  have hwidth (address : Address) : (pushAddressWord address).length = 32 := by
    rw [pushAddressWord_eq, length_word]
  have hlength : (addresses.flatMap pushAddressWord).length = addresses.length * 32 := by
    rw [List.length_flatMap]
    simp [List.map_const']
  have hend := h.le_length
  rw [List.length_append, length_word, hlength] at hend
  have hmax := target.isizeMax_le
  have helements := h.right
  rw [length_word] at helements
  have hlen : readU256Usize target data offset = .ok addresses.length :=
    readU256Usize_eq hdata (by omega) h.left
  have hstart : checkedEnd target offset 32 = some (offset + 32) := checkedEnd_eq (by omega)
  have harea : checkedArea target data (offset + 32) addresses.length = .ok () :=
    checkedArea_eq hdata (by omega)
  simp only [readAddressArray, hlen, ok_bind, hstart, okOr_some, harea]
  apply mapM_range_eq_ok
  intro index
  apply readAddress_eq hdata
  have hword := helements.within (SegmentAt.flatMap_get hwidth addresses index)
  rwa [pushAddressWord_eq] at hword

theorem readBytesArray_eq {inputs : List (List UInt8)}
    (h : SegmentAt data offset (pushBytesArrayTail inputs)) :
    readBytesArray target data offset = .ok inputs := by
  have hpush : pushBytesTail = bytesTail := funext pushBytesTail_eq
  rw [pushBytesArrayTail, pushU256Word_eq, word_toNat_ofUsize, hpush] at h
  have hoffsets := h.left.right
  have htails := h.right
  simp only [List.length_append, length_word, length_pushBytesArrayOffsets] at hoffsets htails
  have hend := hoffsets.le_length
  rw [length_pushBytesArrayOffsets] at hend
  have hmax := target.isizeMax_le
  have hlen : readU256Usize target data offset = .ok inputs.length :=
    readU256Usize_eq hdata (by omega) h.left.left
  have hstart : checkedEnd target offset 32 = some (offset + 32) := checkedEnd_eq (by omega)
  have harea : checkedArea target data (offset + 32) inputs.length = .ok () :=
    checkedArea_eq hdata (by omega)
  simp only [readBytesArray, hlen, ok_bind, hstart, okOr_some, harea]
  apply mapM_range_eq_ok
  intro index
  have htail := htails.within (segment_tails inputs index)
  have htailEnd := htail.le_length
  have hrelative : readU256Usize target data (offset + 32 + index * 32) =
      .ok (32 + inputs.length * 32 + tailStart inputs index) :=
    readU256Usize_eq hdata (by omega)
      (hoffsets.within (segment_offsets (32 + inputs.length * 32) inputs index))
  have helement : checkedEnd target offset (32 + inputs.length * 32 + tailStart inputs index) =
      some (offset + (32 + inputs.length * 32 + tailStart inputs index)) :=
    checkedEnd_eq (by omega)
  simp only [hrelative, ok_bind, helement]
  apply readBytes_eq hdata
  rwa [← Nat.add_assoc]

end Arrays

end Degenbot.FrontrunCalldata
