import Degenbot.Algorithm.LibZip
import Degenbot.Library.Lz

/-! # FastLZ instructions

The bytes of a token, and what the decompressor makes of them. -/

namespace Degenbot.LibZip

open Library Library.Lz

/-! ## Bits -/

theorem shiftRight_five (n : ℕ) : n >>> 5 = n / 32 := Nat.shiftRight_eq_div_pow n 5

theorem shiftRight_eight (n : ℕ) : n >>> 8 = n / 256 := Nat.shiftRight_eq_div_pow n 8

theorem and_low_five (n : ℕ) : n &&& 0b00011111 = n % 32 := Nat.and_two_pow_sub_one_eq_mod n 5

theorem and_low_eight (n : ℕ) : n &&& 0b11111111 = n % 256 := Nat.and_two_pow_sub_one_eq_mod n 8

theorem shiftLeft_five (n : ℕ) : n <<< 5 = n * 32 := Nat.shiftLeft_eq n 5

theorem toNat_ofNat {n : ℕ} (h : n < 256) : (UInt8.ofNat n).toNat = n :=
  UInt8.toNat_ofNat_of_lt h

/-! ## Tokens as bytes -/

/-- The tokens that an instruction can carry. -/
def Fits : Token UInt8 → Prop
  | .literals items => 0 < items.length ∧ items.length ≤ 32
  | .copy distance length => 0 < distance ∧ distance ≤ 8192 ∧ 3 ≤ length ∧ length ≤ 264

def instruction : Token UInt8 → Bytes
  | .literals items => UInt8.ofNat (items.length - 1) :: items
  | .copy distance length =>
      if length < 9 then
        [UInt8.ofNat ((length - 2) * 32 + (distance - 1) / 256),
          UInt8.ofNat ((distance - 1) % 256)]
      else
        [UInt8.ofNat (224 + (distance - 1) / 256), UInt8.ofNat (length - 9),
          UInt8.ofNat ((distance - 1) % 256)]

def program (tokens : List (Token UInt8)) : Bytes := tokens.flatMap instruction

@[simp] theorem program_append (first second : List (Token UInt8)) :
    program (first ++ second) = program first ++ program second :=
  List.flatMap_append

/-! ## The decompressor -/

theorem copyMatch_eq_ok {referenceOffset count : ℕ} {output result : Bytes} :
    copyMatch referenceOffset count output = .ok result ↔
      copyBack (referenceOffset + 1) count output = some result := by
  induction count generalizing output with
  | zero =>
      rw [copyMatch, copyBack]
      exact ⟨fun h => congrArg some (Except.ok.inj h), fun h => congrArg _ (Option.some.inj h)⟩
  | succ count ih =>
      rw [copyMatch, copyBack, Nat.add_comm 1]
      split
      · rename_i hle
        rw [show output.length - 1 - referenceOffset = output.length - (referenceOffset + 1) by
          omega]
        cases hitem : output[output.length - (referenceOffset + 1)]? with
        | some byte => exact ih
        | none => simp
      · simp

theorem decompress_literals {items rest output : Bytes} (h : Fits (.literals items)) :
    decompressLoop (instruction (.literals items) ++ rest) output =
      decompressLoop rest (output ++ items) := by
  obtain ⟨hpos, hle⟩ := h
  have hopcode : (UInt8.ofNat (items.length - 1)).toNat = items.length - 1 :=
    toNat_ofNat (by omega)
  have htype : (items.length - 1) / 32 = 0 := by omega
  have hcount : 1 + (items.length - 1) % 32 = items.length := by omega
  rw [instruction, List.cons_append, decompressLoop.eq_def]
  simp only [hopcode, shiftRight_five, and_low_five, htype, hcount, if_true, List.length_append,
    Nat.le_add_right, List.drop_left, List.take_left]

theorem decompress_copy {distance length : ℕ} {rest output : Bytes}
    (h : Fits (.copy distance length)) :
    decompressLoop (instruction (.copy distance length) ++ rest) output =
      (copyMatch (distance - 1) length output >>= decompressLoop rest) := by
  obtain ⟨hpos, hdistance, hmin, hmax⟩ := h
  rw [instruction]
  split
  · rename_i hshort
    have hopcode : (UInt8.ofNat ((length - 2) * 32 + (distance - 1) / 256)).toNat =
        (length - 2) * 32 + (distance - 1) / 256 := toNat_ofNat (by omega)
    have hlow : (UInt8.ofNat ((distance - 1) % 256)).toNat = (distance - 1) % 256 :=
      toNat_ofNat (by omega)
    have htype : ((length - 2) * 32 + (distance - 1) / 256) / 32 = length - 2 := by omega
    have hhigh : ((length - 2) * 32 + (distance - 1) / 256) % 32 = (distance - 1) / 256 := by
      omega
    have hlength : 2 + (length - 2) = length := by omega
    have hreference : 256 * ((distance - 1) / 256) + (distance - 1) % 256 = distance - 1 :=
      Nat.div_add_mod (distance - 1) 256
    have hne : length - 2 ≠ 0 := by omega
    have hsix : length - 2 ≤ 6 := by omega
    rw [List.cons_append, List.cons_append, List.nil_append, decompressLoop]
    simp only [hopcode, hlow, shiftRight_five, and_low_five, htype, hhigh, hlength, hreference,
      hne, hsix, if_true, if_false]
  · rename_i hlong
    have hopcode : (UInt8.ofNat (224 + (distance - 1) / 256)).toNat =
        224 + (distance - 1) / 256 := toNat_ofNat (by omega)
    have hlow : (UInt8.ofNat ((distance - 1) % 256)).toNat = (distance - 1) % 256 :=
      toNat_ofNat (by omega)
    have hmiddle : (UInt8.ofNat (length - 9)).toNat = length - 9 := toNat_ofNat (by omega)
    have htype : (224 + (distance - 1) / 256) / 32 = 7 := by omega
    have hhigh : (224 + (distance - 1) / 256) % 32 = (distance - 1) / 256 := by omega
    have hlength : 9 + (length - 9) = length := by omega
    have hreference : 256 * ((distance - 1) / 256) + (distance - 1) % 256 = distance - 1 :=
      Nat.div_add_mod (distance - 1) 256
    rw [List.cons_append, List.cons_append, List.cons_append, List.nil_append, decompressLoop]
    simp only [hopcode, hlow, hmiddle, shiftRight_five, and_low_five, htype, hhigh, hlength,
      hreference, if_false, if_true, Nat.reduceLeDiff, OfNat.ofNat_ne_zero]

/-- The decompressor runs the program of a token list. -/
theorem decompressLoop_program {tokens : List (Token UInt8)} (hfits : ∀ token ∈ tokens, Fits token)
    {output result : Bytes} :
    decompressLoop (program tokens) output = .ok result ↔ expand tokens output = some result := by
  induction tokens generalizing output with
  | nil =>
      rw [program, List.flatMap_nil, decompressLoop, expand]
      exact ⟨fun h => congrArg some (Except.ok.inj h), fun h => congrArg _ (Option.some.inj h)⟩
  | cons token tokens ih =>
      have htoken := hfits token List.mem_cons_self
      have htokens : ∀ {next : Bytes}, decompressLoop (program tokens) next = .ok result ↔
          expand tokens next = some result :=
        ih fun other hother => hfits other (List.mem_cons_of_mem token hother)
      rw [program, List.flatMap_cons, ← program, expand]
      cases token with
      | literals items =>
          rw [decompress_literals htoken]
          exact htokens
      | copy distance length =>
          have hdistance : distance - 1 + 1 = distance := Nat.sub_add_cancel htoken.1
          rw [decompress_copy htoken, bind_eq_ok, Token.apply, Option.bind_eq_some_iff]
          simp only [copyMatch_eq_ok, hdistance, htokens]

/-! ## The compressor's output -/

theorem append_eq_ok {value : ℕ} (output : Bytes) (h : value < 256) :
    append output value = .ok (output ++ [UInt8.ofNat value]) :=
  if_pos h

theorem addLiterals_step (data : Bytes) {runLength start count : ℕ} (output : Bytes)
    (hpos : 0 < runLength) (hcount : count = min runLength 32)
    (hfits : start + runLength ≤ data.length) :
    addLiterals data runLength start output =
      addLiterals data (runLength - count) (start + count)
        (output ++ instruction (.literals ((data.drop start).take count))) := by
  have hlength : ((data.drop start).take count).length = count := by
    rw [List.length_take, List.length_drop]
    omega
  rw [addLiterals, dif_pos hpos]
  simp only [maxLiterals, ← hcount]
  rw [append_eq_ok output (by omega), ok_bind, instruction, hlength, List.append_assoc]
  rfl

/-- A literal run is split into tokens that append it. -/
theorem addLiterals_eq_ok (data : Bytes) (runLength start : ℕ) (output : Bytes)
    (hfits : start + runLength ≤ data.length) :
    ∃ tokens, (∀ token ∈ tokens, Fits token) ∧
      addLiterals data runLength start output = .ok (output ++ program tokens) ∧
      totalSize tokens = runLength ∧
      ∀ rebuilt, expand tokens rebuilt = some (rebuilt ++ (data.drop start).take runLength) := by
  induction runLength using Nat.strongRecOn generalizing start output with
  | ind runLength ih =>
      by_cases hpos : 0 < runLength
      · obtain ⟨count, hcount⟩ : ∃ count, count = min runLength 32 := ⟨_, rfl⟩
        have hlength : ((data.drop start).take count).length = count := by
          rw [List.length_take, List.length_drop]
          omega
        obtain ⟨tokens, htokens, hrun, hsize, hexpand⟩ := ih (runLength - count) (by omega)
          (start + count) (output ++ instruction (.literals ((data.drop start).take count)))
          (by omega)
        refine ⟨.literals ((data.drop start).take count) :: tokens, ?_, ?_, ?_, ?_⟩
        · intro token htoken
          rcases List.mem_cons.mp htoken with rfl | htoken
          · exact ⟨by omega, by omega⟩
          · exact htokens token htoken
        · rw [addLiterals_step data output hpos hcount hfits, hrun, List.append_assoc]
          rfl
        · rw [totalSize_cons, hsize, Token.size, hlength]
          omega
        · intro rebuilt
          have hsplit : (data.drop start).take runLength =
              (data.drop start).take count ++
                (data.drop (start + count)).take (runLength - count) := by
            rw [← List.drop_drop, ← List.take_add, Nat.add_sub_cancel' (by omega)]
          rw [expand, Token.apply, Option.bind_some, hexpand, hsplit, List.append_assoc]
      · have hzero : runLength = 0 := by omega
        subst hzero
        refine ⟨[], by simp, ?_, rfl, fun rebuilt => by simp [expand]⟩
        rw [addLiterals, dif_neg hpos, program, List.flatMap_nil, List.append_nil]

theorem appendLongMatch_eq_ok (output : Bytes) {distance lengthByte : ℕ}
    (hdistance : distance ≤ 8191) (hlength : lengthByte < 256) :
    appendLongMatch output distance lengthByte =
      .ok (output ++ instruction (.copy (distance + 1) (lengthByte + 9))) := by
  have hhigh : 0b11100000 + (distance >>> 8) < 256 := by
    rw [shiftRight_eight]
    omega
  have hlow : distance &&& 0b0000011111111 < 256 := by
    rw [and_low_eight]
    omega
  rw [appendLongMatch, append_eq_ok _ hhigh, ok_bind, append_eq_ok _ hlength, ok_bind,
    append_eq_ok _ hlow, instruction, if_neg (by omega)]
  simp [shiftRight_eight, and_low_eight]

theorem appendMatch_long (output : Bytes) {distance matchLength : ℕ} (hdistance : distance ≤ 8191)
    (hlong : 262 ≤ matchLength) :
    appendMatch output distance matchLength =
      appendMatch (output ++ instruction (.copy (distance + 1) 262)) distance
        (matchLength - 262) := by
  have hguard : matchLength ≥ maxMatchLength := hlong
  rw [appendMatch, if_pos hguard, appendLongMatch_eq_ok output hdistance (by decide), ok_bind]
  rfl

/-- A match whose remainder is not zero becomes copies of its whole length. -/
theorem appendMatch_eq_ok (output : Bytes) {distance matchLength : ℕ} (hdistance : distance ≤ 8191)
    (hremainder : matchLength % maxMatchLength ≠ 0) :
    ∃ tokens, (∀ token ∈ tokens, Fits token) ∧
      appendMatch output distance matchLength = .ok (output ++ program tokens) ∧
      totalSize tokens = matchLength + 2 ∧
      ∀ rebuilt, expand tokens rebuilt = copyBack (distance + 1) (matchLength + 2) rebuilt := by
  induction matchLength using Nat.strongRecOn generalizing output with
  | ind matchLength ih =>
      by_cases hlong : 262 ≤ matchLength
      · obtain ⟨tokens, htokens, hrun, hsize, hexpand⟩ := ih (matchLength - 262) (by omega)
          (output ++ instruction (.copy (distance + 1) 262))
          (by rwa [maxMatchLength, ← Nat.mod_eq_sub_mod hlong])
        refine ⟨.copy (distance + 1) 262 :: tokens, ?_, ?_, ?_, ?_⟩
        · intro token htoken
          rcases List.mem_cons.mp htoken with rfl | htoken
          · exact ⟨by omega, by omega, by decide, by decide⟩
          · exact htokens token htoken
        · rw [appendMatch_long output hdistance hlong, hrun, List.append_assoc]
          rfl
        · rw [totalSize_cons, hsize, Token.size]
          omega
        · intro rebuilt
          rw [expand, Token.apply, show matchLength + 2 = 262 + (matchLength - 262 + 2) by omega,
            copyBack_add]
          exact congrArg _ (funext hexpand)
      · have hpos : 0 < matchLength := by
          rw [maxMatchLength, Nat.mod_eq_of_lt (by omega)] at hremainder
          omega
        refine ⟨[.copy (distance + 1) (matchLength + 2)], ?_, ?_, rfl, ?_⟩
        · intro token htoken
          rw [List.mem_singleton.mp htoken]
          exact ⟨by omega, by omega, by omega, by omega⟩
        · have hguard : ¬ matchLength ≥ maxMatchLength := hlong
          rw [appendMatch, if_neg hguard]
          split
          · rename_i hshort
            have hhigh : (matchLength <<< 5) + (distance >>> 8) < 256 := by
              rw [shiftLeft_five, shiftRight_eight]
              omega
            have hlow : distance &&& 0b11111111 < 256 := by
              rw [and_low_eight]
              omega
            rw [append_eq_ok _ hhigh, ok_bind, append_eq_ok _ hlow, program,
              List.flatMap_singleton, instruction, if_pos (by omega), shiftLeft_five,
              shiftRight_eight, and_low_eight]
            simp
          · rename_i hseven
            rw [appendLongMatch_eq_ok output hdistance (by omega), program,
              List.flatMap_singleton, show matchLength - 7 + 9 = matchLength + 2 by omega]
        · intro rebuilt
          rw [expand, Token.apply]
          cases copyBack (distance + 1) (matchLength + 2) rebuilt <;> rfl

/-- A whole number of long matches leaves two more bytes, which read as a literal run. -/
theorem appendMatch_whole (output : Bytes) {distance matchLength : ℕ} (hdistance : distance ≤ 8191)
    (hremainder : matchLength % maxMatchLength = 0) :
    ∃ bytes, appendMatch output distance matchLength = .ok (output ++ bytes) ∧
      (distance < 256 → ∃ tokens, (∀ token ∈ tokens, Fits token) ∧ bytes = program tokens ∧
        totalSize tokens = matchLength + 1) := by
  induction matchLength using Nat.strongRecOn generalizing output with
  | ind matchLength ih =>
      by_cases hlong : 262 ≤ matchLength
      · have htotal : 262 + (matchLength - 262 + 1) = matchLength + 1 := by omega
        obtain ⟨bytes, hrun, hnear⟩ := ih (matchLength - 262) (by omega)
          (output ++ instruction (.copy (distance + 1) 262))
          (by rwa [maxMatchLength, ← Nat.mod_eq_sub_mod hlong])
        refine ⟨instruction (.copy (distance + 1) 262) ++ bytes, ?_, ?_⟩
        · rw [appendMatch_long output hdistance hlong, hrun, List.append_assoc]
        · intro hdistance'
          obtain ⟨tokens, htokens, rfl, hsize⟩ := hnear hdistance'
          refine ⟨.copy (distance + 1) 262 :: tokens, ?_, rfl, ?_⟩
          · intro token htoken
            rcases List.mem_cons.mp htoken with rfl | htoken
            · exact ⟨by omega, by omega, by decide, by decide⟩
            · exact htokens token htoken
          · rw [totalSize_cons, hsize, Token.size, htotal]
      · have hzero : matchLength = 0 := by
          rwa [maxMatchLength, Nat.mod_eq_of_lt (by omega)] at hremainder
        subst hzero
        have hhigh : (0 <<< 5) + (distance >>> 8) < 256 := by
          rw [shiftLeft_five, shiftRight_eight]
          omega
        have hlow : distance &&& 0b11111111 < 256 := by
          rw [and_low_eight]
          omega
        refine ⟨[UInt8.ofNat ((0 <<< 5) + (distance >>> 8)),
          UInt8.ofNat (distance &&& 0b11111111)], ?_, ?_⟩
        · rw [appendMatch, if_neg (by decide), if_pos (by decide), append_eq_ok _ hhigh, ok_bind,
            append_eq_ok _ hlow, List.append_assoc]
          rfl
        · intro hnear
          refine ⟨[.literals [UInt8.ofNat distance]], ?_, ?_, rfl⟩
          · intro token htoken
            rw [List.mem_singleton.mp htoken]
            exact ⟨Nat.one_pos, by norm_num⟩
          · rw [shiftLeft_five, shiftRight_eight, and_low_eight, Nat.mod_eq_of_lt hnear,
              Nat.div_eq_of_lt hnear]
            rfl

end Degenbot.LibZip
