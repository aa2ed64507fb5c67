import Degenbot.Algorithm.Types
import Degenbot.Library.Outcome

/-! # `utils/solady/libzip.py`: FastLZ

Buffers are lists of bytes and the integers of the source natural numbers: the offsets in the hash
table stay below the current one, so that no difference is negative. -/

namespace Degenbot.LibZip

open Library

abbrev Bytes := List UInt8

def maxLiterals : ℕ := 32
def maxMatchLength : ℕ := 262
def maxMatchOffset : ℕ := 8191
def max3ByteInt : ℕ := 0xFFFFFF

/-! ## Buffers -/

/-- `buffer[pos]`. -/
def byteAt (buffer : Bytes) (pos : ℕ) : Except Exn ℕ :=
  match buffer[pos]? with
  | some byte => .ok byte.toNat
  | none => .error .indexError

/-- `bytearray.append`. -/
def append (output : Bytes) (value : ℕ) : Except Exn Bytes :=
  if value < 256 then .ok (output ++ [UInt8.ofNat value])
  else .error (.valueError "byte must be in range(0, 256)")

/-! ## `flz_compress` -/

def get3ByteInt (inputBuffer : Bytes) (pos : ℕ) : Except Exn ℕ := do
  let b0 ← byteAt inputBuffer pos
  let b1 ← byteAt inputBuffer (pos + 1)
  let b2 ← byteAt inputBuffer (pos + 2)
  .ok (b0 + (b1 <<< 8) + (b2 <<< 16))

def hash_ (x : ℕ) : ℕ := ((2654435769 * x) >>> 19) &&& maxMatchOffset

def addLiterals (inputBuffer : Bytes) (runLength inputBufferStartOffset : ℕ) (output : Bytes) :
    Except Exn Bytes :=
  if _hrun : runLength > 0 then do
    let numberOfLiterals := min runLength maxLiterals
    let output ← append output (numberOfLiterals - 1)
    let output := output ++ (inputBuffer.drop inputBufferStartOffset).take numberOfLiterals
    addLiterals inputBuffer (runLength - numberOfLiterals)
      (inputBufferStartOffset + numberOfLiterals) output
  else .ok output
termination_by runLength
decreasing_by
  have hmin : 0 < min runLength maxLiterals := lt_min _hrun (by decide)
  omega

/-- The dictionary, with the default that `get` is called with. -/
abbrev HashTable := ℕ → ℕ

/-- The variables after the inner `while True`. -/
structure Search where
  inputBufferOffset : ℕ
  lastSeenOffset : ℕ
  distanceToLastSeenChunk : ℕ
  hashTable : HashTable

/-- The chunk at the last-seen offset, or a value that no chunk has. -/
def referenceChunkAt (inputBuffer : Bytes) (lastSeenOffset distanceToLastSeenChunk : ℕ) :
    Except Exn ℕ :=
  if distanceToLastSeenChunk ≤ maxMatchOffset then get3ByteInt inputBuffer lastSeenOffset
  else .ok (max3ByteInt + 1)

def search (inputBuffer : Bytes) (compressibleBytes : ℤ) (inputBufferOffset : ℕ)
    (hashTable : HashTable) : Except Exn Search := do
  let inputChunk ← get3ByteInt inputBuffer inputBufferOffset
  let inputChunkHash := hash_ inputChunk
  let lastSeenOffset := hashTable inputChunkHash
  let hashTable := Function.update hashTable inputChunkHash inputBufferOffset
  let distanceToLastSeenChunk := inputBufferOffset - lastSeenOffset
  let referenceChunk ← referenceChunkAt inputBuffer lastSeenOffset distanceToLastSeenChunk
  if hcontinue : (inputBufferOffset : ℤ) < compressibleBytes - 9 ∧ inputChunk ≠ referenceChunk then
    search inputBuffer compressibleBytes (inputBufferOffset + 1) hashTable
  else
    .ok ⟨inputBufferOffset + 1, lastSeenOffset, distanceToLastSeenChunk, hashTable⟩
termination_by (compressibleBytes - inputBufferOffset).toNat
decreasing_by omega

/-- The `for` loop over the offsets from `offset` on. -/
def matchLengthFrom (inputBuffer : Bytes) (p q : ℕ) : ℕ → ℕ → Except Exn ℕ
  | 0, offset => .ok offset
  | remaining + 1, offset => do
      let previous ← byteAt inputBuffer (p + offset)
      let current ← byteAt inputBuffer (q + offset)
      if previous ≠ current then .ok (offset + 1)
      else matchLengthFrom inputBuffer p q remaining (offset + 1)

structure Match where
  inputBufferOffset : ℕ
  distanceToLastSeenChunk : ℕ
  matchLength : ℕ
  hashTable : HashTable

/-- The head of the outer loop's body, to the maximum match length; no match near the end. -/
def findMatch (inputBuffer : Bytes) (compressibleBytes : ℤ) (inputBufferOffset : ℕ)
    (hashTable : HashTable) : Except Exn (Option Match) := do
  let found ← search inputBuffer compressibleBytes inputBufferOffset hashTable
  if (found.inputBufferOffset : ℤ) ≥ compressibleBytes - 9 then .ok none
  else do
    let offset := found.inputBufferOffset - 1
    let p := found.lastSeenOffset + 3
    let q := offset + 3
    let maxPossibleMatchLength := (compressibleBytes - q).toNat
    let matchLength ← matchLengthFrom inputBuffer p q maxPossibleMatchLength 0
    .ok (some ⟨offset, found.distanceToLastSeenChunk, matchLength, found.hashTable⟩)

/-- A long match: three bytes. -/
def appendLongMatch (output : Bytes) (distance lengthByte : ℕ) : Except Exn Bytes := do
  let output ← append output (0b11100000 + (distance >>> 8))
  let output ← append output lengthByte
  append output (distance &&& 0b0000011111111)

/-- The instructions of one match, its distance already less one. -/
def appendMatch (output : Bytes) (distance matchLength : ℕ) : Except Exn Bytes :=
  if matchLength ≥ maxMatchLength then do
    let output ← appendLongMatch output distance (maxMatchLength - 9)
    appendMatch output distance (matchLength - maxMatchLength)
  else if matchLength < 7 then do
    let output ← append output ((matchLength <<< 5) + (distance >>> 8))
    append output (distance &&& 0b11111111)
  else appendLongMatch output distance (matchLength - 7)
termination_by matchLength
decreasing_by simp only [maxMatchLength] at *; omega

/-- The update of the table with the two positions after a match. -/
def rehash (inputBuffer : Bytes) (inputBufferOffset : ℕ) (hashTable : HashTable) :
    Except Exn HashTable := do
  let chunk ← get3ByteInt inputBuffer inputBufferOffset
  let hashTable := Function.update hashTable (hash_ chunk) inputBufferOffset
  let chunk ← get3ByteInt inputBuffer (inputBufferOffset + 1)
  .ok (Function.update hashTable (hash_ chunk) (inputBufferOffset + 1))

/-- The search moves on by at least one byte. -/
theorem search_offset_lt {inputBuffer : Bytes} {compressibleBytes : ℤ} {inputBufferOffset : ℕ}
    {hashTable : HashTable} {found : Search}
    (h : search inputBuffer compressibleBytes inputBufferOffset hashTable = .ok found) :
    inputBufferOffset < found.inputBufferOffset := by
  induction hmeasure : (compressibleBytes - inputBufferOffset).toNat using Nat.strongRecOn
    generalizing inputBufferOffset hashTable with
  | ind measure ih =>
      rw [search] at h
      obtain ⟨inputChunk, -, h⟩ := bind_eq_ok.mp h
      obtain ⟨referenceChunk, -, h⟩ := bind_eq_ok.mp h
      split at h
      · rename_i hcontinue
        have hnext := ih _ (by omega) h rfl
        omega
      · rw [← Except.ok.inj h]
        exact Nat.lt_succ_self inputBufferOffset

theorem findMatch_offset_le {inputBuffer : Bytes} {compressibleBytes : ℤ} {inputBufferOffset : ℕ}
    {hashTable : HashTable} {found : Match}
    (h : findMatch inputBuffer compressibleBytes inputBufferOffset hashTable = .ok (some found)) :
    inputBufferOffset ≤ found.inputBufferOffset := by
  rw [findMatch] at h
  obtain ⟨searched, hsearched, h⟩ := bind_eq_ok.mp h
  split at h
  · cases h
  · obtain ⟨matchLength, -, h⟩ := bind_eq_ok.mp h
    have hlt := search_offset_lt hsearched
    rw [← Option.some.inj (Except.ok.inj h)]
    simp only
    omega

/-- The literals before a match. -/
def addPending (inputBuffer : Bytes) (inputBufferOffset lastLiteralOffset : ℕ) (output : Bytes) :
    Except Exn Bytes :=
  if inputBufferOffset > lastLiteralOffset then
    addLiterals inputBuffer (inputBufferOffset - lastLiteralOffset) lastLiteralOffset output
  else .ok output

/-- The outer loop, to the offset of the remaining literals. -/
def compressLoop (inputBuffer : Bytes) (compressibleBytes : ℤ)
    (inputBufferOffset lastLiteralOffset : ℕ) (hashTable : HashTable) (outputBuffer : Bytes) :
    Except Exn (ℕ × Bytes) :=
  if (inputBufferOffset : ℤ) < compressibleBytes - 9 then
    match _hfind : findMatch inputBuffer compressibleBytes inputBufferOffset hashTable with
    | .error e => .error e
    | .ok none => .ok (lastLiteralOffset, outputBuffer)
    | .ok (some found) => do
        let outputBuffer ←
          addPending inputBuffer found.inputBufferOffset lastLiteralOffset outputBuffer
        let inputBufferOffset := found.inputBufferOffset + found.matchLength
        let outputBuffer ←
          appendMatch outputBuffer (found.distanceToLastSeenChunk - 1) found.matchLength
        let hashTable ← rehash inputBuffer inputBufferOffset found.hashTable
        compressLoop inputBuffer compressibleBytes (inputBufferOffset + 2) (inputBufferOffset + 2)
          hashTable outputBuffer
  else .ok (lastLiteralOffset, outputBuffer)
termination_by (compressibleBytes - inputBufferOffset).toNat
decreasing_by
  have hle := findMatch_offset_le _hfind
  omega

def flzCompress (inputBuffer : Bytes) : Except Exn Bytes := do
  let compressibleBytes : ℤ := inputBuffer.length - 4
  let (lastLiteralOffset, outputBuffer) ←
    compressLoop inputBuffer compressibleBytes 2 0 (fun _ => 0) []
  addLiterals inputBuffer (compressibleBytes + 4 - lastLiteralOffset).toNat lastLiteralOffset
    outputBuffer

/-! ## `flz_decompress` -/

/-- `output_buffer.append(output_buffer[-1 - reference_offset])`, repeated. -/
def copyMatch (referenceOffset : ℕ) : ℕ → Bytes → Except Exn Bytes
  | 0, outputBuffer => .ok outputBuffer
  | count + 1, outputBuffer =>
      if 1 + referenceOffset ≤ outputBuffer.length then
        match outputBuffer[outputBuffer.length - 1 - referenceOffset]? with
        | some byte => copyMatch referenceOffset count (outputBuffer ++ [byte])
        | none => .error .indexError
      else .error .indexError

def decompressLoop (inputBuffer outputBuffer : Bytes) : Except Exn Bytes :=
  match inputBuffer with
  | [] => .ok outputBuffer
  | opcode0 :: rest =>
      let instructionType := opcode0.toNat >>> 5
      if instructionType = 0 then
        let numberOfLiterals := 1 + (opcode0.toNat &&& 0b00011111)
        if numberOfLiterals ≤ rest.length then
          decompressLoop (rest.drop numberOfLiterals)
            (outputBuffer ++ rest.take numberOfLiterals)
        else .error .indexError
      else if instructionType ≤ 6 then
        match rest with
        | opcode1 :: rest => do
            let matchLength := 2 + (opcode0.toNat >>> 5)
            let referenceOffset := 256 * (opcode0.toNat &&& 0b00011111) + opcode1.toNat
            let outputBuffer ← copyMatch referenceOffset matchLength outputBuffer
            decompressLoop rest outputBuffer
        | [] => .error .indexError
      else if instructionType = 7 then
        match rest with
        | opcode1 :: opcode2 :: rest => do
            let matchLength := 9 + opcode1.toNat
            let referenceOffset := 256 * (opcode0.toNat &&& 0b00011111) + opcode2.toNat
            let outputBuffer ← copyMatch referenceOffset matchLength outputBuffer
            decompressLoop rest outputBuffer
        | _ => .error .indexError
      else .error (.valueError "Invalid instruction!")
termination_by inputBuffer.length

def flzDecompress (compressedData : Bytes) : Except Exn Bytes := decompressLoop compressedData []

end Degenbot.LibZip
