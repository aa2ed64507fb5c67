import Mathlib.Algebra.Order.Ring.Nat
import Mathlib.Algebra.Ring.Nat
import Mathlib.Tactic

/-! # Numbers as bits, bytes and text -/

/-! ## Fields packed into a word

A word is a list of fields, lowest first, each with its width in bits. A shift and a mask cut
a window out of it. -/

namespace Degenbot.Library

section BitFields

/-- A width and a value. -/
abbrev BitField := ℕ × ℕ

def BitField.Fits (field : BitField) : Prop := field.2 < 2 ^ field.1

def widthOf (fields : List BitField) : ℕ := (fields.map Prod.fst).sum

def pack : List BitField → ℕ
  | [] => 0
  | field :: fields => field.2 + 2 ^ field.1 * pack fields

/-- `(word >> start) & (2 ** width - 1)` -/
def window (word start width : ℕ) : ℕ := (word >>> start) &&& (2 ^ width - 1)

theorem window_eq (word start width : ℕ) : window word start width = word / 2 ^ start % 2 ^ width := by
  rw [window, Nat.shiftRight_eq_div_pow, Nat.and_two_pow_sub_one_eq_mod]

variable {before after fields : List BitField} {field : BitField}

theorem pack_append_div (hfits : ∀ field ∈ before, field.Fits) :
    pack (before ++ after) / 2 ^ widthOf before = pack after := by
  induction before with
  | nil => simp [widthOf]
  | cons field before ih =>
      have hfield : field.Fits := hfits field List.mem_cons_self
      have hrest := ih fun field' hfield' => hfits field' (List.mem_cons_of_mem _ hfield')
      have hwidth : widthOf (field :: before) = field.1 + widthOf before := by
        simp [widthOf]
      rw [List.cons_append, pack, hwidth, pow_add, ← Nat.div_div_eq_div_mul,
        Nat.add_mul_div_left _ _ (Nat.two_pow_pos _), Nat.div_eq_of_lt hfield, Nat.zero_add, hrest]

/-- A window that starts with a field. -/
theorem window_pack_append (hfits : ∀ field ∈ before, field.Fits) (width : ℕ) :
    window (pack (before ++ after)) (widthOf before) width = pack after % 2 ^ width := by
  rw [window_eq, pack_append_div hfits]

/-- A window that is no wider than the field it starts with. -/
theorem window_field (hfits : ∀ field ∈ before, field.Fits) {width : ℕ} (hwidth : width ≤ field.1) :
    window (pack (before ++ field :: after)) (widthOf before) width = field.2 % 2 ^ width := by
  obtain ⟨extra, hextra⟩ := Nat.exists_eq_add_of_le hwidth
  rw [window_pack_append hfits, pack, hextra, pow_add, mul_assoc, Nat.add_mul_mod_self_left]

/-- The window at the position of a field. -/
theorem window_getElem {k width : ℕ} (hfits : ∀ field ∈ fields, field.Fits)
    (hget : fields[k]? = some field) (hwidth : width ≤ field.1) :
    window (pack fields) (widthOf (fields.take k)) width = field.2 % 2 ^ width := by
  obtain ⟨hk, hget⟩ := List.getElem?_eq_some_iff.mp hget
  have hsplit : fields.take k ++ field :: fields.drop (k + 1) = fields := by
    rw [← hget, List.getElem_cons_drop, List.take_append_drop]
  have hbefore : ∀ field ∈ fields.take k, field.Fits :=
    fun field hfield => hfits field (List.mem_of_mem_take hfield)
  have hwindow : window (pack (fields.take k ++ field :: fields.drop (k + 1)))
      (widthOf (fields.take k)) width = field.2 % 2 ^ width := window_field hbefore hwidth
  rwa [hsplit] at hwindow

end BitFields

/-! ## Big-endian byte strings

Numbers of a fixed width, most significant byte first. -/

section BigEndian

/-- The last `width` bytes of `n`. -/
def beBytes : ℕ → ℕ → List UInt8
  | 0, _ => []
  | width + 1, n => beBytes width (n / 256) ++ [UInt8.ofNat n]

/-- The number that a byte string denotes. -/
def beValue (bytes : List UInt8) : ℕ :=
  bytes.foldl (fun value byte => value * 256 + byte.toNat) 0

@[simp] theorem length_beBytes (width n : ℕ) : (beBytes width n).length = width := by
  induction width generalizing n with
  | zero => rfl
  | succ width ih => simp [beBytes, ih]

@[simp] theorem beValue_nil : beValue [] = 0 := rfl

@[simp] theorem beValue_concat (bytes : List UInt8) (byte : UInt8) :
    beValue (bytes ++ [byte]) = beValue bytes * 256 + byte.toNat := by
  simp [beValue]

theorem beValue_beBytes (width n : ℕ) : beValue (beBytes width n) = n % 256 ^ width := by
  induction width generalizing n with
  | zero => simp [beBytes, Nat.mod_one]
  | succ width ih =>
      rw [beBytes, beValue_concat, ih, UInt8.toNat_ofNat', pow_succ' 256 width, Nat.mod_mul]
      omega

theorem beValue_beBytes_of_lt {width n : ℕ} (h : n < 256 ^ width) :
    beValue (beBytes width n) = n := by
  rw [beValue_beBytes, Nat.mod_eq_of_lt h]

theorem beBytes_inj {width n m : ℕ} (hn : n < 256 ^ width) (hm : m < 256 ^ width)
    (h : beBytes width n = beBytes width m) : n = m := by
  rw [← beValue_beBytes_of_lt hn, h, beValue_beBytes_of_lt hm]

theorem beBytes_beValue (bytes : List UInt8) : beBytes bytes.length (beValue bytes) = bytes := by
  induction bytes using List.reverseRecOn with
  | nil => rfl
  | append_singleton bytes byte ih =>
      have hbyte : byte.toNat < 256 := byte.toNat_lt
      have hdiv : (beValue bytes * 256 + byte.toNat) / 256 = beValue bytes := by omega
      have hlast : UInt8.ofNat (beValue bytes * 256 + byte.toNat) = byte := by
        apply UInt8.toNat_inj.mp
        rw [UInt8.toNat_ofNat']
        omega
      rw [List.length_append, List.length_singleton, beBytes, beValue_concat, hdiv, ih, hlast]

theorem beValue_lt (bytes : List UInt8) : beValue bytes < 256 ^ bytes.length := by
  induction bytes using List.reverseRecOn with
  | nil => simp
  | append_singleton bytes byte ih =>
      have hbyte : byte.toNat < 256 := byte.toNat_lt
      rw [beValue_concat, List.length_append, List.length_singleton, pow_succ]
      omega

theorem beBytes_mod (width n : ℕ) : beBytes width (n % 256 ^ width) = beBytes width n := by
  have hvalue : beValue (beBytes width n) = n % 256 ^ width := beValue_beBytes width n
  have hbytes := beBytes_beValue (beBytes width n)
  rwa [length_beBytes, hvalue] at hbytes

theorem beValue_zeros_append (count : ℕ) (bytes : List UInt8) :
    beValue (List.replicate count 0 ++ bytes) = beValue bytes := by
  induction count with
  | zero => rfl
  | succ count ih => simpa [beValue, List.replicate_succ] using ih

/-- A number that fits a smaller width is padded with zeros on the left. -/
theorem zeros_append_beBytes {width n : ℕ} (count : ℕ) (h : n < 256 ^ width) :
    List.replicate count 0 ++ beBytes width n = beBytes (count + width) n := by
  have hvalue : beValue (List.replicate count 0 ++ beBytes width n) = n := by
    rw [beValue_zeros_append, beValue_beBytes_of_lt h]
  have hbytes := beBytes_beValue (List.replicate count 0 ++ beBytes width n)
  rw [hvalue, List.length_append, List.length_replicate, length_beBytes] at hbytes
  exact hbytes.symm

end BigEndian

end Degenbot.Library

/-! ## Base64

The standard alphabet with padding. Decoding refuses missing padding and stray bits in the
last digit. -/

namespace Degenbot.Library.Base64

def alphabet : List Char :=
  "ABCDEFGHIJKLMNOPQRSTUVWXYZabcdefghijklmnopqrstuvwxyz0123456789+/".toList

def pad : Char := '='

def encodeDigit (n : ℕ) : Char := alphabet.getD n pad

def decodeDigit (c : Char) : Option ℕ := alphabet.findIdx? (· = c)

def encodeChars : List UInt8 → List Char
  | [] => []
  | [a] => [encodeDigit (a.toNat / 4), encodeDigit (a.toNat % 4 * 16), pad, pad]
  | [a, b] =>
      [encodeDigit (a.toNat / 4), encodeDigit (a.toNat % 4 * 16 + b.toNat / 16),
        encodeDigit (b.toNat % 16 * 4), pad]
  | a :: b :: c :: rest =>
      encodeDigit (a.toNat / 4) :: encodeDigit (a.toNat % 4 * 16 + b.toNat / 16) ::
        encodeDigit (b.toNat % 16 * 4 + c.toNat / 64) :: encodeDigit (c.toNat % 64) ::
          encodeChars rest

def encode (data : List UInt8) : String := String.ofList (encodeChars data)

def decodeChars : List Char → Option (List UInt8)
  | [] => some []
  | w :: x :: y :: z :: rest => do
      let i ← decodeDigit w
      let j ← decodeDigit x
      let first := UInt8.ofNat (i * 4 + j / 16)
      if rest = [] ∧ z = pad then
        if y = pad then if j % 16 = 0 then some [first] else none
        else do
          let k ← decodeDigit y
          if k % 4 = 0 then some [first, UInt8.ofNat (j % 16 * 16 + k / 4)] else none
      else do
        let k ← decodeDigit y
        let l ← decodeDigit z
        let bytes ← decodeChars rest
        some (first :: UInt8.ofNat (j % 16 * 16 + k / 4) :: UInt8.ofNat (k % 4 * 64 + l) :: bytes)
  | _ => none

def decode (text : String) : Option (List UInt8) := decodeChars text.toList

theorem decodeDigit_encodeDigit {n : ℕ} (h : n < 64) : decodeDigit (encodeDigit n) = some n := by
  revert n
  decide

theorem encodeDigit_ne_pad {n : ℕ} (h : n < 64) : encodeDigit n ≠ pad := by
  revert n
  decide +kernel

theorem ofNat_eq_of_toNat {n : ℕ} {byte : UInt8} (h : n = byte.toNat) : UInt8.ofNat n = byte := by
  subst h
  exact UInt8.ofNat_toNat

theorem decodeChars_encodeChars (data : List UInt8) :
    decodeChars (encodeChars data) = some data := by
  induction data using encodeChars.induct with
  | case1 => rfl
  | case2 a =>
      have ha := a.toNat_lt
      have hi : a.toNat / 4 < 64 := by omega
      have hj : a.toNat % 4 * 16 < 64 := by omega
      have hfirst : UInt8.ofNat (a.toNat / 4 * 4 + a.toNat % 4 * 16 / 16) = a :=
        ofNat_eq_of_toNat (by omega)
      simp only [encodeChars, decodeChars, decodeDigit_encodeDigit, hi, hj, hfirst,
        Option.bind_eq_bind, Option.bind_some, and_self, if_true, Nat.mul_mod_left]
  | case3 a b =>
      have ha := a.toNat_lt
      have hb := b.toNat_lt
      have hi : a.toNat / 4 < 64 := by omega
      have hj : a.toNat % 4 * 16 + b.toNat / 16 < 64 := by omega
      have hk : b.toNat % 16 * 4 < 64 := by omega
      have hfirst : UInt8.ofNat (a.toNat / 4 * 4 + (a.toNat % 4 * 16 + b.toNat / 16) / 16) = a :=
        ofNat_eq_of_toNat (by omega)
      have hsecond : UInt8.ofNat ((a.toNat % 4 * 16 + b.toNat / 16) % 16 * 16 +
          b.toNat % 16 * 4 / 4) = b :=
        ofNat_eq_of_toNat (by omega)
      simp only [encodeChars, decodeChars, decodeDigit_encodeDigit, hi, hj, hk, hfirst, hsecond,
        encodeDigit_ne_pad hk, Option.bind_eq_bind, Option.bind_some, and_self, if_true, if_false,
        Nat.mul_mod_left]
  | case4 a b c rest ih =>
      have ha := a.toNat_lt
      have hb := b.toNat_lt
      have hc := c.toNat_lt
      have hi : a.toNat / 4 < 64 := by omega
      have hj : a.toNat % 4 * 16 + b.toNat / 16 < 64 := by omega
      have hk : b.toNat % 16 * 4 + c.toNat / 64 < 64 := by omega
      have hl : c.toNat % 64 < 64 := by omega
      have hfirst : UInt8.ofNat (a.toNat / 4 * 4 + (a.toNat % 4 * 16 + b.toNat / 16) / 16) = a :=
        ofNat_eq_of_toNat (by omega)
      have hsecond : UInt8.ofNat ((a.toNat % 4 * 16 + b.toNat / 16) % 16 * 16 +
          (b.toNat % 16 * 4 + c.toNat / 64) / 4) = b :=
        ofNat_eq_of_toNat (by omega)
      have hthird : UInt8.ofNat ((b.toNat % 16 * 4 + c.toNat / 64) % 4 * 64 + c.toNat % 64) = c :=
        ofNat_eq_of_toNat (by omega)
      simp only [encodeChars, decodeChars, decodeDigit_encodeDigit, hi, hj, hk, hl, hfirst,
        hsecond, hthird, encodeDigit_ne_pad hl, Option.bind_eq_bind, Option.bind_some, and_false,
        if_false, ih]

theorem decode_encode (data : List UInt8) : decode (encode data) = some data := by
  rw [decode, encode, String.toList_ofList, decodeChars_encodeChars]

end Degenbot.Library.Base64
