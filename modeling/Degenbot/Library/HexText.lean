import Degenbot.Library.Digits
import Mathlib.Tactic.Ring

/-! # Hexadecimal text -/

namespace Degenbot.Library

def isHexDigit (c : Char) : Bool :=
  c.isDigit || ('a' ≤ c && c ≤ 'f') || ('A' ≤ c && c ≤ 'F')

def readHexDigit (c : Char) : Option ℕ :=
  if c.isDigit then some (c.toNat - 48)
  else if 'a' ≤ c ∧ c ≤ 'f' then some (c.toNat - 87)
  else if 'A' ≤ c ∧ c ≤ 'F' then some (c.toNat - 55)
  else none

/-- Two digits a byte. -/
def readHex : List Char → Option (List UInt8)
  | [] => some []
  | [_] => none
  | c :: d :: s => do
      let high ← readHexDigit c
      let low ← readHexDigit d
      let rest ← readHex s
      some (UInt8.ofNat (high * 16 + low) :: rest)

/-- The number that digits denote. -/
def hexValue (digits : List Char) : ℕ :=
  digits.foldl (fun value c => value * 16 + (readHexDigit c).getD 0) 0

/-- The lower-case digits of bytes. -/
def lowerHex (bytes : List UInt8) : List Char :=
  bytes.flatMap fun byte => [Nat.digitChar (byte.toNat / 16), Nat.digitChar (byte.toNat % 16)]

theorem isHexDigit_iff {c : Char} : isHexDigit c = true ↔ (readHexDigit c).isSome := by
  unfold isHexDigit readHexDigit
  split_ifs <;> simp_all

theorem readHexDigit_lt {c : Char} {digit : ℕ} (h : readHexDigit c = some digit) : digit < 16 := by
  unfold readHexDigit at h
  split_ifs at h with hdigit hlower hupper
  · simp only [Char.isDigit, Bool.and_eq_true, decide_eq_true_eq, ge_iff_le] at hdigit
    have hhigh : c.toNat ≤ 57 := hdigit.2
    cases h
    omega
  · have hhigh : c.toNat ≤ 102 := hlower.2
    cases h
    omega
  · have hhigh : c.toNat ≤ 70 := hupper.2
    cases h
    omega

theorem readHexDigit_digitChar : ∀ d < 16, readHexDigit (Nat.digitChar d) = some d := by decide

theorem readHex_lowerHex (bytes : List UInt8) : readHex (lowerHex bytes) = some bytes := by
  induction bytes with
  | nil => rfl
  | cons byte bytes ih =>
      have hbyte := byte.toNat_lt
      have hhigh := readHexDigit_digitChar (byte.toNat / 16) (by omega)
      have hlow := readHexDigit_digitChar (byte.toNat % 16) (by omega)
      have hsum : byte.toNat / 16 * 16 + byte.toNat % 16 = byte.toNat := by omega
      have hcons : lowerHex (byte :: bytes) = Nat.digitChar (byte.toNat / 16) ::
          Nat.digitChar (byte.toNat % 16) :: lowerHex bytes := rfl
      rw [hcons, readHex, hhigh, hlow, ih]
      change some (UInt8.ofNat (byte.toNat / 16 * 16 + byte.toNat % 16) :: bytes) = _
      rw [hsum, UInt8.ofNat_toNat]

/-- An even number of digits is read. -/
theorem exists_readHex {s : List Char} (hdigits : ∀ c ∈ s, isHexDigit c = true)
    (heven : s.length % 2 = 0) : ∃ bytes, readHex s = some bytes := by
  induction s using readHex.induct with
  | case1 => exact ⟨[], rfl⟩
  | case2 c => simp at heven
  | case3 c d s ih =>
      obtain ⟨high, hhigh⟩ := Option.isSome_iff_exists.mp
        (isHexDigit_iff.mp (hdigits c List.mem_cons_self))
      obtain ⟨low, hlow⟩ := Option.isSome_iff_exists.mp
        (isHexDigit_iff.mp (hdigits d (List.mem_cons_of_mem c List.mem_cons_self)))
      have hrest : ∀ e ∈ s, isHexDigit e = true := fun e he =>
        hdigits e (List.mem_cons_of_mem c (List.mem_cons_of_mem d he))
      have hlength : s.length % 2 = 0 := by
        simp only [List.length_cons] at heven
        omega
      obtain ⟨bytes, hbytes⟩ := ih hrest hlength
      exact ⟨UInt8.ofNat (high * 16 + low) :: bytes, by simp [readHex, hhigh, hlow, hbytes]⟩

theorem length_of_readHex {s : List Char} {bytes : List UInt8} (h : readHex s = some bytes) :
    s.length = 2 * bytes.length := by
  induction s using readHex.induct generalizing bytes with
  | case1 =>
      cases h
      rfl
  | case2 c => cases h
  | case3 c d s ih =>
      rw [readHex] at h
      obtain ⟨high, -, h⟩ := Option.bind_eq_some_iff.mp h
      obtain ⟨low, -, h⟩ := Option.bind_eq_some_iff.mp h
      obtain ⟨rest, hrest, h⟩ := Option.bind_eq_some_iff.mp h
      cases h
      have hlength := ih hrest
      simp only [List.length_cons]
      omega

/-- The bytes and the digits denote the same number, from any numbers before them. -/
theorem foldl_of_readHex {s : List Char} {bytes : List UInt8} (h : readHex s = some bytes)
    (before : ℕ) : bytes.foldl (fun value byte => value * 256 + byte.toNat) before =
      s.foldl (fun value c => value * 16 + (readHexDigit c).getD 0) before := by
  induction s using readHex.induct generalizing bytes before with
  | case1 =>
      cases h
      rfl
  | case2 c => cases h
  | case3 c d s ih =>
      rw [readHex] at h
      obtain ⟨high, hhigh, h⟩ := Option.bind_eq_some_iff.mp h
      obtain ⟨low, hlow, h⟩ := Option.bind_eq_some_iff.mp h
      obtain ⟨rest, hrest, h⟩ := Option.bind_eq_some_iff.mp h
      cases h
      have hhighLt := readHexDigit_lt hhigh
      have hlowLt := readHexDigit_lt hlow
      have hbyte : (UInt8.ofNat (high * 16 + low)).toNat = high * 16 + low :=
        UInt8.toNat_ofNat_of_lt' (by change high * 16 + low < 256; omega)
      have hpair : before * 256 + (high * 16 + low) = (before * 16 + high) * 16 + low := by ring
      rw [List.foldl_cons, hbyte, ih hrest, hpair, List.foldl_cons, List.foldl_cons, hhigh, hlow]
      rfl

theorem beValue_of_readHex {s : List Char} {bytes : List UInt8} (h : readHex s = some bytes) :
    beValue bytes = hexValue s :=
  foldl_of_readHex h 0

end Degenbot.Library
