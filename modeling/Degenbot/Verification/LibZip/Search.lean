import Degenbot.Algorithm.LibZip

/-! # The match finder

Every read is inside the buffer, and a match is a repetition of what came before. -/

namespace Degenbot.LibZip

open Library

variable {data : Bytes}

/-! ## Reads -/

theorem byteAt_eq_ok {pos : ℕ} (h : pos < data.length) : ∃ byte, byteAt data pos = .ok byte := by
  rw [byteAt, List.getElem?_eq_getElem h]
  exact ⟨_, rfl⟩

theorem byteAt_lt {pos byte : ℕ} (h : byteAt data pos = .ok byte) : byte < 256 := by
  rw [byteAt] at h
  cases hbyte : data[pos]? with
  | none => simp [hbyte] at h
  | some b =>
      simp only [hbyte] at h
      rw [← Except.ok.inj h]
      exact b.toNat_lt

theorem getElem?_eq_of_byteAt {i j byte : ℕ} (hi : byteAt data i = .ok byte)
    (hj : byteAt data j = .ok byte) : data[i]? = data[j]? := by
  rw [byteAt] at hi hj
  cases hbyte : data[i]? with
  | none => simp [hbyte] at hi
  | some b =>
      cases hbyte' : data[j]? with
      | none => simp [hbyte'] at hj
      | some b' =>
          simp only [hbyte, hbyte'] at hi hj
          have heq : b.toNat = b'.toNat := Except.ok.inj (hi.trans hj.symm)
          rw [UInt8.toNat_inj.mp heq]

theorem get3ByteInt_eq_ok {pos : ℕ} (h : pos + 2 < data.length) :
    ∃ chunk, get3ByteInt data pos = .ok chunk := by
  obtain ⟨b0, h0⟩ := byteAt_eq_ok (show pos < data.length by omega)
  obtain ⟨b1, h1⟩ := byteAt_eq_ok (show pos + 1 < data.length by omega)
  obtain ⟨b2, h2⟩ := byteAt_eq_ok h
  exact ⟨b0 + (b1 <<< 8) + (b2 <<< 16), by rw [get3ByteInt, h0, ok_bind, h1, ok_bind, h2, ok_bind]⟩

/-- Three bytes are determined by their number. -/
theorem get3ByteInt_inj {i j chunk : ℕ} (hi : get3ByteInt data i = .ok chunk)
    (hj : get3ByteInt data j = .ok chunk) : ∀ k < 3, data[i + k]? = data[j + k]? := by
  obtain ⟨b0, h0, hi⟩ := bind_eq_ok.mp hi
  obtain ⟨b1, h1, hi⟩ := bind_eq_ok.mp hi
  obtain ⟨b2, h2, hi⟩ := bind_eq_ok.mp hi
  obtain ⟨c0, g0, hj⟩ := bind_eq_ok.mp hj
  obtain ⟨c1, g1, hj⟩ := bind_eq_ok.mp hj
  obtain ⟨c2, g2, hj⟩ := bind_eq_ok.mp hj
  have hsum := (Except.ok.inj hi).trans (Except.ok.inj hj).symm
  simp only [Nat.shiftLeft_eq] at hsum
  have hb0 := byteAt_lt h0
  have hb1 := byteAt_lt h1
  have hb2 := byteAt_lt h2
  have hc0 := byteAt_lt g0
  have hc1 := byteAt_lt g1
  have hc2 := byteAt_lt g2
  have e0 : b0 = c0 := by omega
  have e1 : b1 = c1 := by omega
  have e2 : b2 = c2 := by omega
  subst e0 e1 e2
  intro k hk
  interval_cases k
  · exact getElem?_eq_of_byteAt h0 g0
  · exact getElem?_eq_of_byteAt h1 g1
  · exact getElem?_eq_of_byteAt h2 g2

theorem get3ByteInt_lt {pos chunk : ℕ} (h : get3ByteInt data pos = .ok chunk) :
    chunk ≤ max3ByteInt := by
  obtain ⟨b0, h0, h⟩ := bind_eq_ok.mp h
  obtain ⟨b1, h1, h⟩ := bind_eq_ok.mp h
  obtain ⟨b2, h2, h⟩ := bind_eq_ok.mp h
  have hb0 := byteAt_lt h0
  have hb1 := byteAt_lt h1
  have hb2 := byteAt_lt h2
  rw [← Except.ok.inj h, max3ByteInt]
  simp only [Nat.shiftLeft_eq]
  omega

/-! ## The search -/

theorem update_lt {table : HashTable} {offset bound key : ℕ} (htable : ∀ h, table h < offset)
    (hbound : offset < bound) : ∀ h, Function.update table key offset h < bound := by
  intro h
  by_cases hkey : h = key
  · rw [hkey, Function.update_self]
    exact hbound
  · rw [Function.update_of_ne hkey]
    exact (htable h).trans hbound

/-- What the search reports: a position, an earlier one and, before the end, three equal bytes. -/
structure Found (data : Bytes) (offset : ℕ) (found : Search) : Prop where
  moved : offset < found.inputBufferOffset
  inside : found.inputBufferOffset + 12 ≤ data.length
  table : ∀ h, found.hashTable h < found.inputBufferOffset
  earlier : found.lastSeenOffset < found.inputBufferOffset - 1
  distance : found.distanceToLastSeenChunk = found.inputBufferOffset - 1 - found.lastSeenOffset
  near : found.inputBufferOffset + 12 < data.length →
    found.distanceToLastSeenChunk ≤ maxMatchOffset
  repeats : found.inputBufferOffset + 12 < data.length →
    ∀ k < 3, data[found.lastSeenOffset + k]? = data[found.inputBufferOffset - 1 + k]?

theorem search_found {offset : ℕ} {table : HashTable} (hoffset : offset + 13 ≤ data.length)
    (htable : ∀ h, table h < offset) :
    ∃ found, search data (data.length - 4) offset table = .ok found ∧ Found data offset found := by
  induction hmeasure : data.length - offset using Nat.strongRecOn generalizing offset table with
  | ind measure ih =>
      obtain ⟨chunk, hchunk⟩ := get3ByteInt_eq_ok (show offset + 2 < data.length by omega)
      have hseen := htable (hash_ chunk)
      obtain ⟨reference, hreference⟩ : ∃ reference,
          referenceChunkAt data (table (hash_ chunk)) (offset - table (hash_ chunk)) =
            .ok reference := by
        rw [referenceChunkAt]
        split
        · exact get3ByteInt_eq_ok (by omega)
        · exact ⟨_, rfl⟩
      rw [search, hchunk, ok_bind]
      simp only [hreference, ok_bind]
      split
      · rename_i hcontinue
        have hroom : offset + 1 + 13 ≤ data.length := by omega
        obtain ⟨found, hrun, hfound⟩ := ih (data.length - (offset + 1)) (by omega) hroom
          (update_lt htable (Nat.lt_succ_self offset)) rfl
        exact ⟨found, hrun, { hfound with moved := (Nat.lt_succ_self offset).trans hfound.moved }⟩
      · rename_i hstop
        -- Before the end the search stops only at equal chunks, which are never too far apart.
        have hequal : offset + 1 + 12 < data.length → chunk = reference := by
          intro hbefore
          by_contra hne
          exact hstop ⟨by omega, hne⟩
        have hnear : offset + 1 + 12 < data.length →
            offset - table (hash_ chunk) ≤ maxMatchOffset := by
          intro hbefore
          by_contra hfar
          rw [referenceChunkAt, if_neg hfar] at hreference
          have hchunk_le := get3ByteInt_lt hchunk
          rw [hequal hbefore, ← Except.ok.inj hreference] at hchunk_le
          omega
        refine ⟨_, rfl, Nat.lt_succ_self offset, by simp only; omega,
          update_lt htable (Nat.lt_succ_self offset), hseen, rfl, hnear, ?_⟩
        intro hbefore
        rw [referenceChunkAt, if_pos (hnear hbefore)] at hreference
        rw [hequal hbefore] at hchunk
        exact get3ByteInt_inj hreference hchunk

/-! ## The match length -/

/-- The loop counts one byte more than it found equal, or all it may. -/
theorem matchLengthFrom_eq_ok {p q remaining offset : ℕ} (hpq : p ≤ q)
    (hinside : q + offset + remaining ≤ data.length) :
    ∃ length, matchLengthFrom data p q remaining offset = .ok length ∧ offset ≤ length ∧
      length ≤ offset + remaining ∧ (0 < remaining → offset < length) ∧
      ∀ k, offset ≤ k → k + 1 < length → data[p + k]? = data[q + k]? := by
  induction remaining generalizing offset with
  | zero =>
      refine ⟨offset, rfl, le_rfl, le_rfl, fun h => absurd h (Nat.lt_irrefl 0), ?_⟩
      intro k hk hlt
      omega
  | succ remaining ih =>
      obtain ⟨previous, hprevious⟩ := byteAt_eq_ok (show p + offset < data.length by omega)
      obtain ⟨current, hcurrent⟩ := byteAt_eq_ok (show q + offset < data.length by omega)
      rw [matchLengthFrom, hprevious, ok_bind, hcurrent, ok_bind]
      split
      · refine ⟨offset + 1, rfl, by omega, by omega, fun _ => Nat.lt_succ_self offset, ?_⟩
        intro k hk hlt
        omega
      · rename_i hsame
        obtain ⟨length, hrun, hmin, hmax, -, hequal⟩ :=
          ih (show q + (offset + 1) + remaining ≤ data.length by omega)
        refine ⟨length, hrun, by omega, by omega, fun _ => by omega, ?_⟩
        intro k hk hlt
        by_cases heq : k = offset
        · subst heq
          rw [not_not.mp hsame] at hprevious
          exact getElem?_eq_of_byteAt hprevious hcurrent
        · exact hequal k (by omega) hlt

/-- A match repeats the bytes before it and ends before the last five. -/
structure Repeats (data : Bytes) (offset : ℕ) (found : Match) : Prop where
  moved : offset ≤ found.inputBufferOffset
  pos : 0 < found.matchLength
  inside : found.inputBufferOffset + found.matchLength + 7 ≤ data.length
  table : ∀ h, found.hashTable h < found.inputBufferOffset + 1
  distance_pos : 0 < found.distanceToLastSeenChunk
  near : found.distanceToLastSeenChunk ≤ 8191
  earlier : found.distanceToLastSeenChunk ≤ found.inputBufferOffset
  repeats : ∀ k < found.matchLength + 2,
    data[found.inputBufferOffset - found.distanceToLastSeenChunk + k]? =
      data[found.inputBufferOffset + k]?

theorem findMatch_eq_ok {offset : ℕ} {table : HashTable} (hoffset : offset + 13 ≤ data.length)
    (htable : ∀ h, table h < offset) :
    findMatch data (data.length - 4) offset table = .ok none ∨
      ∃ found, findMatch data (data.length - 4) offset table = .ok (some found) ∧
        Repeats data offset found := by
  obtain ⟨searched, hsearched, hfound⟩ := search_found hoffset htable
  rw [findMatch, hsearched, ok_bind]
  split
  · exact .inl rfl
  · rename_i hbefore
    right
    have hmoved := hfound.moved
    have hearlier := hfound.earlier
    have hdistance := hfound.distance
    have hroom : searched.inputBufferOffset + 13 < data.length := by omega
    obtain ⟨length, hrun, -, hmax, hmin, hequal⟩ := matchLengthFrom_eq_ok
      (show searched.lastSeenOffset + 3 ≤ searched.inputBufferOffset - 1 + 3 by omega)
      (show searched.inputBufferOffset - 1 + 3 + 0 +
        ((data.length : ℤ) - 4 - ((searched.inputBufferOffset - 1 + 3 : ℕ) : ℤ)).toNat ≤
          data.length by omega)
    simp only [hrun, ok_bind]
    refine ⟨_, rfl, by simp only; omega, hmin (by omega), by simp only; omega,
      by simpa [Nat.sub_add_cancel (show 1 ≤ searched.inputBufferOffset by omega)] using
        hfound.table, by simp only; omega, hfound.near (by omega), by simp only; omega, ?_⟩
    intro k hk
    simp only at hk ⊢
    rw [show searched.inputBufferOffset - 1 - searched.distanceToLastSeenChunk =
      searched.lastSeenOffset by omega]
    by_cases hthree : k < 3
    · exact hfound.repeats (by omega) k hthree
    · have hrest := hequal (k - 3) (by omega) (by omega)
      rwa [show searched.lastSeenOffset + 3 + (k - 3) = searched.lastSeenOffset + k by omega,
        show searched.inputBufferOffset - 1 + 3 + (k - 3) =
          searched.inputBufferOffset - 1 + k by omega] at hrest

theorem rehash_eq_ok {offset : ℕ} {table : HashTable} (hoffset : offset + 4 ≤ data.length)
    (htable : ∀ h, table h < offset) :
    ∃ table', rehash data offset table = .ok table' ∧ ∀ h, table' h < offset + 2 := by
  obtain ⟨chunk, hchunk⟩ := get3ByteInt_eq_ok (show offset + 2 < data.length by omega)
  obtain ⟨chunk', hchunk'⟩ := get3ByteInt_eq_ok (show offset + 1 + 2 < data.length by omega)
  refine ⟨_, by rw [rehash, hchunk, ok_bind, hchunk', ok_bind], ?_⟩
  exact update_lt (update_lt htable (Nat.lt_succ_self offset)) (by omega)

end Degenbot.LibZip
