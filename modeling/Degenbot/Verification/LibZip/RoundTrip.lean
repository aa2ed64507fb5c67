import Degenbot.Verification.LibZip.Instructions
import Degenbot.Verification.LibZip.Search

/-! # The FastLZ round trip

A match whose length is a multiple of the longest instruction leaves a remainder of zero, which the
compressor encodes as a short match and the decompressor reads as a literal run. -/

namespace Degenbot.LibZip

open Library Library.Lz

/-! ## The matches of a buffer -/

/-- The matches that the outer loop finds. -/
def matchesFrom (inputBuffer : Bytes) (compressibleBytes : ℤ) (inputBufferOffset : ℕ)
    (hashTable : HashTable) : List Match :=
  if (inputBufferOffset : ℤ) < compressibleBytes - 9 then
    match _hfind : findMatch inputBuffer compressibleBytes inputBufferOffset hashTable with
    | .ok (some found) =>
        match rehash inputBuffer (found.inputBufferOffset + found.matchLength)
            found.hashTable with
        | .ok hashTable =>
            found :: matchesFrom inputBuffer compressibleBytes
              (found.inputBufferOffset + found.matchLength + 2) hashTable
        | .error _ => [found]
    | _ => []
  else []
termination_by (compressibleBytes - inputBufferOffset).toNat
decreasing_by
  have hle := findMatch_offset_le _hfind
  omega

def flzMatches (data : Bytes) : List Match := matchesFrom data (data.length - 4) 2 fun _ => 0

/-- The long matches use the length up. -/
def Match.whole (found : Match) : Bool := found.matchLength % maxMatchLength = 0

def wholeCount (found : List Match) : ℕ := found.countP Match.whole

def RoundTrips (data : Bytes) : Prop :=
  ∃ compressed, flzCompress data = .ok compressed ∧ flzDecompress compressed = .ok data

/-! ## One turn -/

variable {data : Bytes}

theorem addPending_eq_ok {offset last : ℕ} (output : Bytes) (hle : last ≤ offset)
    (hinside : offset ≤ data.length) :
    ∃ tokens, (∀ token ∈ tokens, Fits token) ∧
      addPending data offset last output = .ok (output ++ program tokens) ∧
      totalSize tokens = offset - last ∧
      expand tokens (data.take last) = some (data.take offset) := by
  obtain ⟨tokens, hfits, hrun, hsize, hexpand⟩ :=
    addLiterals_eq_ok data (offset - last) last output (by omega)
  refine ⟨tokens, hfits, ?_, hsize, ?_⟩
  · rw [addPending]
    split
    · exact hrun
    · rename_i hnot
      rw [← hrun, show offset - last = 0 by omega, addLiterals, dif_neg (Nat.lt_irrefl 0)]
  · rw [hexpand, ← List.take_add, Nat.add_sub_cancel' hle]

/-- The tokens of a match that leaves a remainder rebuild it; those of a whole match within 256
bytes are one short. -/
theorem appendMatch_found {offset : ℕ} {found : Match} (h : Repeats data offset found)
    (output : Bytes) :
    ∃ bytes, appendMatch output (found.distanceToLastSeenChunk - 1) found.matchLength =
        .ok (output ++ bytes) ∧
      (found.whole = false ∨ found.distanceToLastSeenChunk ≤ 256 →
        ∃ tokens, (∀ token ∈ tokens, Fits token) ∧ bytes = program tokens ∧
          totalSize tokens + (if found.whole then 1 else 0) = found.matchLength + 2 ∧
          (found.whole = false → expand tokens (data.take found.inputBufferOffset) =
            some (data.take (found.inputBufferOffset + found.matchLength + 2)))) := by
  have hnear := h.near
  have hpos := h.distance_pos
  cases hwhole : found.whole with
  | false =>
      obtain ⟨tokens, hfits, hrun, hsize, hexpand⟩ := appendMatch_eq_ok output
        (show found.distanceToLastSeenChunk - 1 ≤ 8191 by omega)
        (by simpa [Match.whole] using hwhole)
      refine ⟨program tokens, hrun, fun _ => ⟨tokens, hfits, rfl, hsize, fun _ => ?_⟩⟩
      have hinside := h.inside
      rw [hexpand, Nat.sub_add_cancel hpos, Nat.add_assoc]
      exact copyBack_take hpos h.earlier (by omega) h.repeats
  | true =>
      obtain ⟨bytes, hrun, htokens⟩ := appendMatch_whole output
        (show found.distanceToLastSeenChunk - 1 ≤ 8191 by omega)
        (by simpa [Match.whole] using hwhole)
      refine ⟨bytes, hrun, ?_⟩
      rintro (hfalse | hdistance)
      · cases hfalse
      · obtain ⟨tokens, hfits, hbytes, hsize⟩ := htokens (by omega)
        refine ⟨tokens, hfits, hbytes, ?_, fun hfalse => by cases hfalse⟩
        rw [hsize, if_pos rfl]

/-! ## The loop -/

/-- What the loop appends between two literal offsets. -/
structure Emits (data : Bytes) (found : List Match) (last last' : ℕ) (bytes : Bytes) : Prop where
  le : last ≤ last'
  inside : last' ≤ data.length
  tokens : (∀ m ∈ found, m.whole = false ∨ m.distanceToLastSeenChunk ≤ 256) →
    ∃ tokens, (∀ token ∈ tokens, Fits token) ∧ bytes = program tokens ∧
      totalSize tokens + wholeCount found = last' - last ∧
      (wholeCount found = 0 → expand tokens (data.take last) = some (data.take last'))

theorem emits_nil {last : ℕ} (h : last ≤ data.length) : Emits data [] last last [] :=
  ⟨le_rfl, h, fun _ => ⟨[], by simp, rfl, by simp [wholeCount], fun _ => rfl⟩⟩

/-- Literals, one match and what follows it. -/
theorem emits_cons {offset last last' : ℕ} {found : Match} {rest : List Match}
    {literals : List (Token UInt8)} {bytes bytes' : Bytes} (hlast : last ≤ offset)
    (hfound : Repeats data offset found) (hliterals : ∀ token ∈ literals, Fits token)
    (hsize : totalSize literals = found.inputBufferOffset - last)
    (hexpand : expand literals (data.take last) = some (data.take found.inputBufferOffset))
    (hmatch : found.whole = false ∨ found.distanceToLastSeenChunk ≤ 256 →
      ∃ tokens, (∀ token ∈ tokens, Fits token) ∧ bytes = program tokens ∧
        totalSize tokens + (if found.whole then 1 else 0) = found.matchLength + 2 ∧
        (found.whole = false → expand tokens (data.take found.inputBufferOffset) =
          some (data.take (found.inputBufferOffset + found.matchLength + 2))))
    (hrest : Emits data rest (found.inputBufferOffset + found.matchLength + 2) last' bytes') :
    Emits data (found :: rest) last last' (program literals ++ bytes ++ bytes') := by
  have hmoved := hfound.moved
  have hle := hrest.le
  refine ⟨by omega, hrest.inside, ?_⟩
  intro hnear
  obtain ⟨tokens, hfits, rfl, hcount, hrebuild⟩ := hmatch (hnear found List.mem_cons_self)
  obtain ⟨tokens', hfits', rfl, hcount', hrebuild'⟩ :=
    hrest.tokens fun m hm => hnear m (List.mem_cons_of_mem found hm)
  refine ⟨literals ++ tokens ++ tokens', ?_, by simp, ?_, ?_⟩
  · intro token htoken
    rcases List.mem_append.mp htoken with htoken | htoken
    · rcases List.mem_append.mp htoken with htoken | htoken
      · exact hliterals token htoken
      · exact hfits token htoken
    · exact hfits' token htoken
  · clear hmatch hrest hnear
    rw [totalSize_append, totalSize_append, hsize, wholeCount, List.countP_cons, ← wholeCount]
    omega
  · intro hnone
    rw [wholeCount, List.countP_cons, ← wholeCount] at hnone
    have hwhole : found.whole = false := by
      cases hfalse : found.whole with
      | false => rfl
      | true =>
          rw [hfalse, if_pos rfl] at hnone
          omega
    rw [expand_append, expand_append, hexpand, Option.bind_some, hrebuild hwhole, Option.bind_some]
    exact hrebuild' (by omega)

section Steps

variable {inputBuffer output : Bytes} {compressibleBytes : ℤ} {offset last : ℕ} {table : HashTable}

theorem compressLoop_none (last : ℕ) (output : Bytes)
    (hguard : (offset : ℤ) < compressibleBytes - 9)
    (hfind : findMatch inputBuffer compressibleBytes offset table = .ok none) :
    compressLoop inputBuffer compressibleBytes offset last table output = .ok (last, output) ∧
      matchesFrom inputBuffer compressibleBytes offset table = [] := by
  constructor
  · rw [compressLoop, if_pos hguard]
    split
    · rename_i hfind'
      rw [hfind] at hfind'
      cases hfind'
    · rfl
    · rename_i hfind'
      rw [hfind] at hfind'
      cases hfind'
  · rw [matchesFrom, if_pos hguard]
    split
    · rename_i hfind'
      rw [hfind] at hfind'
      cases hfind'
    · rfl

theorem compressLoop_some {found : Match} {table' : HashTable} {output' output'' : Bytes}
    (hguard : (offset : ℤ) < compressibleBytes - 9)
    (hfind : findMatch inputBuffer compressibleBytes offset table = .ok (some found))
    (hpending : addPending inputBuffer found.inputBufferOffset last output = .ok output')
    (hmatch : appendMatch output' (found.distanceToLastSeenChunk - 1) found.matchLength =
      .ok output'')
    (hrehash : rehash inputBuffer (found.inputBufferOffset + found.matchLength) found.hashTable =
      .ok table') :
    compressLoop inputBuffer compressibleBytes offset last table output =
        compressLoop inputBuffer compressibleBytes (found.inputBufferOffset + found.matchLength + 2)
          (found.inputBufferOffset + found.matchLength + 2) table' output'' ∧
      matchesFrom inputBuffer compressibleBytes offset table =
        found :: matchesFrom inputBuffer compressibleBytes
          (found.inputBufferOffset + found.matchLength + 2) table' := by
  constructor
  · rw [compressLoop, if_pos hguard]
    split
    · rename_i hfind'
      rw [hfind] at hfind'
      cases hfind'
    · rename_i hfind'
      rw [hfind] at hfind'
      cases hfind'
    · rename_i found' hfind'
      rw [hfind] at hfind'
      cases hfind'
      rw [hpending, ok_bind]
      simp only [hmatch, hrehash, ok_bind]
  · rw [matchesFrom, if_pos hguard]
    split
    · rename_i found' hfind'
      rw [hfind] at hfind'
      cases hfind'
      rw [hrehash]
    · rename_i hfind'
      exact absurd hfind (hfind' found)

end Steps

theorem compressLoop_emits {offset last : ℕ} {table : HashTable} (output : Bytes)
    (htable : ∀ h, table h < offset) (hlast : last ≤ offset) (hinside : last ≤ data.length) :
    ∃ last' bytes, compressLoop data (data.length - 4) offset last table output =
        .ok (last', output ++ bytes) ∧
      Emits data (matchesFrom data (data.length - 4) offset table) last last' bytes := by
  induction hmeasure : data.length - offset using Nat.strongRecOn
    generalizing offset last table output with
  | ind measure ih =>
      by_cases hguard : (offset : ℤ) < (data.length : ℤ) - 4 - 9
      · have hroom : offset + 13 ≤ data.length := by omega
        rcases findMatch_eq_ok hroom htable with hnone | ⟨found, hsome, hfound⟩
        · obtain ⟨hloop, hmatches⟩ := compressLoop_none last output hguard hnone
          rw [hloop, hmatches]
          exact ⟨last, [], by rw [List.append_nil], emits_nil hinside⟩
        · have hmoved := hfound.moved
          have hfits := hfound.inside
          obtain ⟨literals, hliterals, hpending, hsize, hexpand⟩ := addPending_eq_ok output
            (show last ≤ found.inputBufferOffset by omega)
            (show found.inputBufferOffset ≤ data.length by omega)
          obtain ⟨bytes, happend, hmatch⟩ := appendMatch_found hfound (output ++ program literals)
          obtain ⟨table', hrehash, htable'⟩ := rehash_eq_ok
            (show found.inputBufferOffset + found.matchLength + 4 ≤ data.length by omega)
            (fun h => (hfound.table h).trans_le (Nat.add_le_add_left hfound.pos _))
          obtain ⟨hloop, hmatches⟩ :=
            compressLoop_some hguard hsome hpending happend hrehash
          obtain ⟨last', bytes', hrun, hemits⟩ := ih
            (data.length - (found.inputBufferOffset + found.matchLength + 2)) (by omega)
            (output ++ program literals ++ bytes) htable' le_rfl (by omega) rfl
          refine ⟨last', program literals ++ bytes ++ bytes', ?_, ?_⟩
          · rw [hloop, hrun]
            simp only [List.append_assoc]
          · rw [hmatches]
            exact emits_cons hlast hfound hliterals hsize hexpand hmatch hemits
      · rw [compressLoop, matchesFrom, if_neg hguard, if_neg hguard]
        exact ⟨last, [], by rw [List.append_nil], emits_nil hinside⟩

/-! ## The round trip -/

/-- The compressor returns on every buffer. Unless a whole match lies more than 256 bytes after
what it repeats, its output is a program, short by one byte for each whole match. -/
theorem flzCompress_eq_ok (data : Bytes) :
    ∃ compressed, flzCompress data = .ok compressed ∧
      ((∀ m ∈ flzMatches data, m.whole = false ∨ m.distanceToLastSeenChunk ≤ 256) →
        ∃ tokens, (∀ token ∈ tokens, Fits token) ∧ compressed = program tokens ∧
          totalSize tokens + wholeCount (flzMatches data) = data.length ∧
          (wholeCount (flzMatches data) = 0 → expand tokens [] = some data)) := by
  obtain ⟨last, bytes, hloop, hemits⟩ := compressLoop_emits []
    (show ∀ h, (fun _ => 0 : HashTable) h < 2 from fun _ => Nat.two_pos) (Nat.zero_le 2)
    (Nat.zero_le data.length)
  have hinside := hemits.inside
  obtain ⟨literals, hliterals, hrun, hsize, hexpand⟩ :=
    addLiterals_eq_ok data (data.length - last) last bytes (by omega)
  refine ⟨bytes ++ program literals, ?_, ?_⟩
  · rw [flzCompress]
    simp only [hloop, ok_bind, List.nil_append]
    rw [show ((data.length : ℤ) - 4 + 4 - last).toNat = data.length - last by omega, hrun]
  · intro hnear
    obtain ⟨tokens, hfits, rfl, hcount, hrebuild⟩ := hemits.tokens hnear
    refine ⟨tokens ++ literals, ?_, by simp, ?_, ?_⟩
    · intro token htoken
      rcases List.mem_append.mp htoken with htoken | htoken
      · exact hfits token htoken
      · exact hliterals token htoken
    · rw [totalSize_append, hsize, flzMatches]
      omega
    · intro hnone
      rw [expand_append]
      have hfirst := hrebuild hnone
      rw [List.take_zero] at hfirst
      rw [hfirst, Option.bind_some, hexpand, ← List.take_add, Nat.add_sub_cancel' hinside,
        List.take_length]

theorem wholeCount_eq_zero {found : List Match} :
    wholeCount found = 0 ↔ ∀ m ∈ found, m.whole = false := by
  rw [wholeCount, List.countP_eq_zero]
  simp only [Bool.not_eq_true]

/-- The compressor returns, and its output is read back when no match is whole. A whole match
within 256 bytes of what it repeats is never read back. -/
theorem flz_roundTrip (data : Bytes) :
    (∃ compressed, flzCompress data = .ok compressed) ∧
    ((∀ m ∈ flzMatches data, m.whole = false) → RoundTrips data) ∧
    ((∀ m ∈ flzMatches data, m.whole = false ∨ m.distanceToLastSeenChunk ≤ 256) →
      RoundTrips data → ∀ m ∈ flzMatches data, m.whole = false) := by
  obtain ⟨compressed, hcompress, hprogram⟩ := flzCompress_eq_ok data
  refine ⟨⟨compressed, hcompress⟩, ?_, ?_⟩
  · intro hnone
    obtain ⟨tokens, hfits, rfl, -, hexpand⟩ := hprogram fun m hm => .inl (hnone m hm)
    refine ⟨program tokens, hcompress, ?_⟩
    rw [flzDecompress, decompressLoop_program hfits]
    exact hexpand (wholeCount_eq_zero.mpr hnone)
  · rintro hnear ⟨compressed', hcompress', hdecompress⟩
    rw [hcompress] at hcompress'
    cases hcompress'
    obtain ⟨tokens, hfits, rfl, hsize, -⟩ := hprogram hnear
    rw [flzDecompress, decompressLoop_program hfits] at hdecompress
    have hlength := length_expand hdecompress
    rw [List.length_nil, Nat.zero_add] at hlength
    refine wholeCount_eq_zero.mp ?_
    omega

/-- Of 271 zero bytes, 262 are one match. -/
theorem zeros_not_roundTrip : ¬ ∀ data, RoundTrips data := by
  intro h
  obtain ⟨compressed, hcompress, hdecompress⟩ := h (List.replicate 271 0)
  have hrun : flzCompress (List.replicate 271 0) =
      .ok [1, 0, 0, 224, 253, 1, 0, 1, 4, 0, 0, 0, 0, 0] := by
    decide +kernel
  rw [hrun] at hcompress
  cases hcompress
  have hwrong : flzDecompress [1, 0, 0, 224, 253, 1, 0, 1, 4, 0, 0, 0, 0, 0] =
      .ok (List.replicate 264 0 ++ [1, 0, 0, 0, 0, 0]) := by
    decide +kernel
  rw [hwrong] at hdecompress
  have hlength := congrArg List.length (Except.ok.inj hdecompress)
  rw [List.length_append, List.length_replicate, List.length_replicate] at hlength
  exact absurd hlength (by decide)

end Degenbot.LibZip
