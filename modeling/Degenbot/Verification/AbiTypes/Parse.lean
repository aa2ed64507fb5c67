import Degenbot.Algorithm.AbiTypes

/-! # What the type parser accepts

The parser's strings are those of the grammar without tuples, with white space around them. -/

namespace Degenbot.AbiTypes

open Library

/-! ## Grammar -/

def LegalBits (bits : ℕ) : Prop := 0 < bits ∧ bits ≤ 256 ∧ bits % 8 = 0

/-- The elementary types of the ABI and their spelling. -/
inductive SpellsElementary : Str → AbiType → Prop where
  | address : SpellsElementary "address".toList .address
  | bool : SpellsElementary "bool".toList .bool
  | bytes : SpellsElementary "bytes".toList .bytes
  | string : SpellsElementary "string".toList .string
  | function : SpellsElementary "function".toList (.fixedBytes 24)
  | uint : SpellsElementary "uint".toList (.uint 256)
  | int : SpellsElementary "int".toList (.int 256)
  | uintN (bits : ℕ) (h : LegalBits bits) :
      SpellsElementary ("uint".toList ++ decimal bits) (.uint bits)
  | intN (bits : ℕ) (h : LegalBits bits) :
      SpellsElementary ("int".toList ++ decimal bits) (.int bits)
  | bytesN (size : ℕ) (hpos : 0 < size) (hle : size ≤ 32) :
      SpellsElementary ("bytes".toList ++ decimal size) (.fixedBytes size)

/-- The types without tuples; a size has to fit a `usize`. -/
inductive Spells : Str → AbiType → Prop where
  | elementary {s : Str} {t : AbiType} (h : SpellsElementary s t) : Spells s t
  | array {s : Str} {t : AbiType} (h : Spells s t) : Spells (s ++ "[]".toList) (.array t)
  | fixedArray {s : Str} {t : AbiType} (size : ℕ) (hpos : 0 < size) (hsize : size < 2 ^ 64)
      (h : Spells s t) : Spells (s ++ '[' :: decimal size ++ [']']) (.fixedArray t size)

/-- The types the parser can return. -/
def AbiType.Legal : AbiType → Prop
  | .address | .bool | .bytes | .string => True
  | .uint bits | .int bits => LegalBits bits
  | .fixedBytes size => 0 < size ∧ size ≤ 32
  | .array inner => inner.Legal
  | .fixedArray inner size => inner.Legal ∧ 0 < size ∧ size < 2 ^ 64

/-- The types of the ABI, tuples included. -/
inductive SolidityType : Str → Prop where
  | elementary {s : Str} {t : AbiType} (h : SpellsElementary s t) : SolidityType s
  | array {s : Str} (h : SolidityType s) : SolidityType (s ++ "[]".toList)
  | fixedArray {s : Str} (size : ℕ) (hpos : 0 < size) (h : SolidityType s) :
      SolidityType (s ++ '[' :: decimal size ++ [']'])
  | tuple (components : List Str) (h : ∀ s ∈ components, SolidityType s) :
      SolidityType ('(' :: List.intercalate [','] components ++ [')'])

/-- No numeral starts with a sign, or with a zero before another digit. -/
def plainNumerals (afterDigit : Bool) : Str → Bool
  | [] => true
  | c :: s => c ≠ '+' && (c ≠ '0' || afterDigit || !s.head?.any Char.isDigit) &&
      plainNumerals c.isDigit s

/-! ## Numerals -/

theorem isDigit_of_mem_decimal {n : ℕ} {c : Char} (h : c ∈ decimal n) : c.isDigit = true :=
  Nat.isDigit_of_mem_toDigits (by decide) (by decide) h

theorem decimal_ne_nil (n : ℕ) : decimal n ≠ [] := Nat.toDigits_ne_nil

theorem not_mem_decimal {n : ℕ} {c : Char} (h : c.isDigit = false) : c ∉ decimal n := by
  intro hmem
  rw [isDigit_of_mem_decimal hmem] at h
  cases h

theorem parseUsize_decimal {n : ℕ} (h : n < 2 ^ 64) : parseUsize (decimal n) = some n := by
  have hplus : (decimal n).head? ≠ some '+' := by
    intro hhead
    exact not_mem_decimal (by decide) (List.mem_of_mem_head? hhead)
  have hread : Nat.ofDigitChars 10 (decimal n) 0 = n := Nat.ofDigitChars_ten_toDigits
  have hall : (decimal n).all Char.isDigit = true :=
    List.all_eq_true.mpr fun c hc => isDigit_of_mem_decimal hc
  rw [parseUsize]
  simp only [hplus, if_false, hread]
  exact if_pos ⟨decimal_ne_nil n, hall, h⟩

theorem digit_bounds {c : Char} (h : c.isDigit = true) : 48 ≤ c.toNat ∧ c.toNat ≤ 57 := by
  simp only [Char.isDigit, Bool.and_eq_true, decide_eq_true_eq, ge_iff_le] at h
  exact ⟨h.1, h.2⟩

theorem toDigits_digit {c : Char} (h : c.isDigit = true) :
    Nat.toDigits 10 (c.toNat - 48) = [c] := by
  have hbounds := digit_bounds h
  rw [Nat.toDigits_of_lt_base (by omega)]
  have hchar : c = Char.ofNat c.toNat := (Char.ofNat_toNat c).symm
  rw [hchar]
  generalize c.toNat = n at hbounds
  obtain ⟨hlow, hhigh⟩ := hbounds
  interval_cases n <;> rfl

/-- Digits that do not start with a zero are the digits of their number. -/
theorem decimal_ofDigitChars {digits : Str} (hne : digits ≠ [])
    (hall : ∀ c ∈ digits, c.isDigit = true) (hzero : digits.head? ≠ some '0') :
    decimal (Nat.ofDigitChars 10 digits 0) = digits := by
  induction digits using List.reverseRecOn with
  | nil => exact absurd rfl hne
  | append_singleton digits c ih =>
      have hdigit : c.isDigit = true := hall c (by simp)
      have hbounds := digit_bounds hdigit
      rw [Nat.ofDigitChars_append, Nat.ofDigitChars_cons, Nat.ofDigitChars_nil]
      cases digits with
      | nil => simpa [decimal] using toDigits_digit hdigit
      | cons d digits =>
          have hzero' : (d :: digits).head? ≠ some '0' := by simpa using hzero
          have hdigits := ih (List.cons_ne_nil d digits)
            (fun c' hc' => hall c' (List.mem_append_left _ hc')) hzero'
          -- A number that is zero has the one digit zero, which does not start these.
          have hpos : 0 < Nat.ofDigitChars 10 (d :: digits) 0 := by
            by_contra hnot
            rw [Nat.eq_zero_of_not_pos hnot] at hdigits
            rw [← hdigits] at hzero'
            exact hzero' rfl
          rw [decimal, ← Nat.toDigits_append_toDigits (by decide) hpos (by simp; omega)]
          rw [show '0'.toNat = 48 from rfl, toDigits_digit hdigit]
          exact congrArg (· ++ [c]) hdigits

theorem eq_decimal_of_parseUsize {s : Str} {n : ℕ} (h : parseUsize s = some n)
    (hplain : plainNumerals false s = true) : s = decimal n ∧ n < 2 ^ 64 := by
  cases s with
  | nil => simp [parseUsize] at h
  | cons c s =>
      rw [plainNumerals] at hplain
      simp only [ne_eq, decide_not, Bool.or_false, Bool.and_eq_true, Bool.or_eq_true,
        Bool.not_eq_eq_eq_not, Bool.not_true, decide_eq_false_iff_not] at hplain
      obtain ⟨⟨hplus, hzero⟩, -⟩ := hplain
      rw [parseUsize] at h
      simp only [List.head?_cons, Option.some.injEq, hplus, if_false] at h
      split at h
      · rename_i hdigits
        cases h
        have hall := List.all_eq_true.mp hdigits.2.1
        refine ⟨?_, hdigits.2.2⟩
        rcases hzero with hzero | hlone
        · exact (decimal_ofDigitChars hdigits.1 hall (by simpa using hzero)).symm
        · -- no digit follows the first one
          cases s with
          | nil =>
              rw [Nat.ofDigitChars_cons, Nat.ofDigitChars_nil]
              simpa [decimal] using (toDigits_digit (hall c List.mem_cons_self)).symm
          | cons d s =>
              have hd := hall d (by simp)
              simp [hd] at hlone
      · cases h

/-- A character that belongs to no numeral cuts the condition in two. -/
theorem plainNumerals_append {c : Char} (hdigit : c.isDigit = false) (hplus : c ≠ '+')
    (s rest : Str) (afterDigit : Bool) :
    plainNumerals afterDigit (s ++ c :: rest) =
      (plainNumerals afterDigit s && plainNumerals false rest) := by
  have hzero : c ≠ '0' := by
    rintro rfl
    cases hdigit
  induction s generalizing afterDigit with
  | nil => simp [plainNumerals, hdigit, hplus, hzero]
  | cons d s ih =>
      have hhead : (s ++ c :: rest).head?.any Char.isDigit = s.head?.any Char.isDigit := by
        cases s with
        | nil => simp [hdigit]
        | cons => rfl
      rw [List.cons_append, plainNumerals, plainNumerals, hhead, ih, Bool.and_assoc, Bool.and_assoc,
        Bool.and_assoc]

theorem plainNumerals_of_digits {s : Str} (h : ∀ c ∈ s, c.isDigit = true) :
    plainNumerals true s = true := by
  induction s with
  | nil => rfl
  | cons c s ih =>
      have hc : c.isDigit = true := h c List.mem_cons_self
      have hplus : c ≠ '+' := by
        rintro rfl
        cases hc
      simpa [plainNumerals, hplus, hc] using ih fun d hd => h d (List.mem_cons_of_mem c hd)

theorem head_decimal_ne_zero {n : ℕ} (h : 0 < n) : (decimal n).head? ≠ some '0' := by
  induction n using Nat.strongRecOn with
  | ind n ih =>
      rw [decimal, Nat.toDigits_eq_if (by decide)]
      split
      · rename_i hlt
        interval_cases n <;> decide
      · have hdiv : 0 < n / 10 := by omega
        rw [List.head?_append_of_ne_nil _ Nat.toDigits_ne_nil]
        exact ih (n / 10) (by omega) hdiv

theorem plainNumerals_decimal (n : ℕ) : plainNumerals false (decimal n) = true := by
  rcases Nat.eq_zero_or_pos n with rfl | hpos
  · decide
  have hhead := head_decimal_ne_zero hpos
  cases hdecimal : decimal n with
  | nil => rfl
  | cons c s =>
      have hall : ∀ d ∈ c :: s, d.isDigit = true := fun d hd =>
        isDigit_of_mem_decimal (hdecimal ▸ hd)
      have hc : c.isDigit = true := hall c List.mem_cons_self
      have hplus : c ≠ '+' := by
        rintro rfl
        cases hc
      have hzero : c ≠ '0' := by
        rw [hdecimal] at hhead
        simpa using hhead
      have hs := plainNumerals_of_digits fun d hd => hall d (List.mem_cons_of_mem c hd)
      simp [plainNumerals, hplus, hzero, hc, hs]

/-! ## The last bracket -/

theorem rfind_eq_none {pattern : Char} {s : Str} (h : pattern ∉ s) : rfind pattern s = none := by
  induction s with
  | nil => rfl
  | cons c s ih =>
      simp only [List.mem_cons, not_or] at h
      rw [rfind, ih h.2]
      exact if_neg fun hc => h.1 hc.symm

theorem rfind_append {pattern : Char} (base : Str) {rest : Str} (h : pattern ∉ rest) :
    rfind pattern (base ++ pattern :: rest) = some (base, pattern :: rest) := by
  induction base with
  | nil =>
      rw [List.nil_append, rfind, rfind_eq_none h]
      exact if_pos rfl
  | cons c base ih => rw [List.cons_append, rfind, ih]

theorem not_mem_of_rfind_eq_none {pattern : Char} {s : Str} (h : rfind pattern s = none) :
    pattern ∉ s := by
  induction s with
  | nil => exact List.not_mem_nil
  | cons c s ih =>
      rw [rfind] at h
      cases hfind : rfind pattern s with
      | some found => simp [hfind] at h
      | none =>
          rw [hfind] at h
          have hc : c ≠ pattern := by simpa using h
          simp [hc.symm, ih hfind]

theorem rfind_eq_some {pattern : Char} {s base rest : Str}
    (h : rfind pattern s = some (base, rest)) :
    ∃ tail, rest = pattern :: tail ∧ s = base ++ rest ∧ pattern ∉ tail := by
  induction s generalizing base rest with
  | nil => cases h
  | cons c s ih =>
      rw [rfind] at h
      cases hfind : rfind pattern s with
      | some found =>
          rw [hfind] at h
          obtain ⟨rfl, rfl⟩ := Prod.mk.inj (Option.some.inj h)
          obtain ⟨tail, hrest, hs, htail⟩ := ih hfind
          exact ⟨tail, hrest, congrArg (c :: ·) hs, htail⟩
      | none =>
          rw [hfind] at h
          simp only [Option.ite_none_right_eq_some, Option.some.injEq, Prod.mk.injEq] at h
          obtain ⟨rfl, rfl, rfl⟩ := h
          exact ⟨s, rfl, rfl, not_mem_of_rfind_eq_none hfind⟩

/-! ## One level of the parser -/

theorem parseAbiType_array (base : Str) :
    parseAbiType (base ++ "[]".toList) = (do
      let inner ← parseAbiType base
      .ok (.array inner)) := by
  have hfind : rfind '[' (base ++ "[]".toList) = some (base, "[]".toList) :=
    rfind_append base (by decide)
  rw [parseAbiType]
  split
  · rename_i base' rest hfind'
    rw [hfind] at hfind'
    cases hfind'
    rw [if_pos rfl]
  · rename_i hfind'
    rw [hfind] at hfind'
    cases hfind'

theorem parseAbiType_fixedArray (base : Str) {sizeStr : Str} {size : ℕ} (hne : sizeStr ≠ [])
    (hbracket : '[' ∉ sizeStr) (hsize : parseUsize sizeStr = some size) (hpos : 0 < size) :
    parseAbiType (base ++ '[' :: sizeStr ++ [']']) = (do
      let inner ← parseAbiType base
      .ok (.fixedArray inner size)) := by
  have hfind : rfind '[' (base ++ '[' :: sizeStr ++ [']']) =
      some (base, '[' :: (sizeStr ++ [']'])) := by
    rw [List.append_assoc]
    exact rfind_append base (by simp [hbracket])
  have hlast : ('[' :: (sizeStr ++ [']'])).getLast? = some ']' := by
    rw [← List.cons_append]
    exact List.getLast?_concat
  rw [parseAbiType]
  split
  · rename_i base' rest hfind'
    rw [hfind] at hfind'
    cases hfind'
    rw [if_neg (by simpa using hne), if_pos ⟨hlast, rfl⟩]
    simp [hsize, hpos.ne']
  · rename_i hfind'
    rw [hfind] at hfind'
    cases hfind'

theorem parseAbiType_base {s : Str} (h : '[' ∉ s) :
    parseAbiType s = parseBaseType (normalizeType s) := by
  rw [parseAbiType]
  split
  · rename_i base rest hfind
    rw [rfind_eq_none h] at hfind
    cases hfind
  · rfl

/-- The three ways to a type. -/
theorem parseAbiType_cases {s : Str} {t : AbiType} (h : parseAbiType s = .ok t) :
    (∃ base inner, s = base ++ "[]".toList ∧ parseAbiType base = .ok inner ∧ t = .array inner) ∨
    (∃ base sizeStr size inner, s = base ++ '[' :: sizeStr ++ [']'] ∧
      parseUsize sizeStr = some size ∧ 0 < size ∧ parseAbiType base = .ok inner ∧
      t = .fixedArray inner size) ∨
    parseBaseType (normalizeType s) = .ok t := by
  rw [parseAbiType] at h
  split at h
  · rename_i base rest hfind
    obtain ⟨tail, rfl, rfl, htail⟩ := rfind_eq_some hfind
    split at h
    · rename_i hrest
      obtain ⟨inner, hinner, h⟩ := bind_eq_ok.mp h
      exact .inl ⟨base, inner, by rw [hrest], hinner, (Except.ok.inj h).symm⟩
    · split at h
      · rename_i hends
        obtain ⟨sizeStr, rfl⟩ : ∃ sizeStr, tail = sizeStr ++ [']'] := by
          rcases List.eq_nil_or_concat' tail with rfl | ⟨sizeStr, last, rfl⟩
          · simp at hends
          · refine ⟨sizeStr, ?_⟩
            have hlast := hends.1
            rw [← List.cons_append, List.getLast?_concat, Option.some.injEq] at hlast
            rw [hlast]
        rw [List.tail_cons, List.dropLast_concat] at h
        cases hsize : parseUsize sizeStr with
        | none =>
            rw [hsize] at h
            cases h
        | some size =>
            simp only [hsize] at h
            split at h
            · cases h
            · rename_i hzero
              obtain ⟨inner, hinner, h⟩ := bind_eq_ok.mp h
              exact .inr (.inl ⟨base, sizeStr, size, inner, by simp, hsize,
                Nat.pos_of_ne_zero hzero, hinner, (Except.ok.inj h).symm⟩)
      · exact .inr (.inr h)
  · exact .inr (.inr h)

/-! ## Elementary types -/

theorem stripStart_append (start s : Str) : stripStart start (start ++ s) = some s := by
  simp [stripStart]

theorem eq_append_of_stripStart {start s rest : Str} (h : stripStart start s = some rest) :
    s = start ++ rest := by
  rw [stripStart] at h
  split at h
  · rename_i hstart
    obtain ⟨tail, rfl⟩ := List.isPrefixOf_iff_prefix.mp hstart
    simpa using h
  · cases h

theorem parseSizedType_uint {bits : ℕ} (h : LegalBits bits) :
    parseSizedType ("uint".toList ++ decimal bits) = .ok (.uint bits) := by
  have hbytes : stripStart "bytes".toList ("uint".toList ++ decimal bits) = none := by
    simp [stripStart]
  have hfits : bits < 2 ^ 64 := h.2.1.trans_lt (by norm_num)
  rw [parseSizedType, hbytes, stripStart_append]
  simp only [parseUintBits, parseBits, parseUsize_decimal hfits]
  exact if_pos h

theorem parseSizedType_int {bits : ℕ} (h : LegalBits bits) :
    parseSizedType ("int".toList ++ decimal bits) = .ok (.int bits) := by
  have hbytes : stripStart "bytes".toList ("int".toList ++ decimal bits) = none := by
    simp [stripStart]
  have huint : stripStart "uint".toList ("int".toList ++ decimal bits) = none := by
    simp [stripStart]
  have hfits : bits < 2 ^ 64 := h.2.1.trans_lt (by norm_num)
  rw [parseSizedType, hbytes, huint, stripStart_append]
  simp only [parseIntBits, parseBits, parseUsize_decimal hfits]
  exact if_pos h

theorem parseSizedType_bytes {size : ℕ} (hpos : 0 < size) (hle : size ≤ 32) :
    parseSizedType ("bytes".toList ++ decimal size) = .ok (.fixedBytes size) := by
  have hfits : size < 2 ^ 64 := hle.trans_lt (by norm_num)
  rw [parseSizedType, stripStart_append]
  simp only [parseByteSize, parseUsize_decimal hfits]
  exact if_pos ⟨hpos, hle⟩

/-- A name with a numeral after it is no alias and none of the four plain names. -/
theorem parse_sized {name : Str} {n : ℕ}
    (hname : name = "uint".toList ∨ name = "int".toList ∨ name = "bytes".toList) :
    parseBaseType (normalizeType (name ++ decimal n)) = parseSizedType (name ++ decimal n) := by
  have hne := decimal_ne_nil n
  rcases hname with rfl | rfl | rfl <;> simp [normalizeType, parseBaseType, hne]

theorem parseAbiType_elementary {s : Str} {t : AbiType} (h : SpellsElementary s t) :
    parseAbiType s = .ok t := by
  have hbracket : '[' ∉ s := by
    cases h <;> simp [not_mem_decimal (n := _) (c := '[') (by decide)]
  rw [parseAbiType_base hbracket]
  cases h with
  | uintN bits h => rw [parse_sized (.inl rfl), parseSizedType_uint h]
  | intN bits h => rw [parse_sized (.inr (.inl rfl)), parseSizedType_int h]
  | bytesN size hpos hle => rw [parse_sized (.inr (.inr rfl)), parseSizedType_bytes hpos hle]
  | _ => decide

/-- A sized type as the parser reads it: a name and a numeral of any spelling. -/
inductive Sized (nStr : Str) (n : ℕ) : Str → AbiType → Prop where
  | uint (h : LegalBits n) : Sized nStr n ("uint".toList ++ nStr) (.uint n)
  | int (h : LegalBits n) : Sized nStr n ("int".toList ++ nStr) (.int n)
  | bytes (hpos : 0 < n) (hle : n ≤ 32) : Sized nStr n ("bytes".toList ++ nStr) (.fixedBytes n)

theorem parseBits_eq_ok {ofBits : ℕ → AbiType} {typeName nStr : Str} {t : AbiType}
    (h : parseBits ofBits typeName nStr = .ok t) :
    ∃ bits, parseUsize nStr = some bits ∧ LegalBits bits ∧ t = ofBits bits := by
  rw [parseBits] at h
  cases hread : parseUsize nStr with
  | none =>
      rw [hread] at h
      cases h
  | some bits =>
      simp only [hread] at h
      split at h
      · rename_i hbits
        exact ⟨bits, rfl, hbits, (Except.ok.inj h).symm⟩
      · cases h

theorem parseByteSize_eq_ok {typeName nStr : Str} {t : AbiType}
    (h : parseByteSize typeName nStr = .ok t) :
    ∃ n, parseUsize nStr = some n ∧ 0 < n ∧ n ≤ 32 ∧ t = .fixedBytes n := by
  rw [parseByteSize] at h
  cases hread : parseUsize nStr with
  | none =>
      rw [hread] at h
      cases h
  | some n =>
      simp only [hread] at h
      split at h
      · rename_i hn
        exact ⟨n, rfl, hn.1, hn.2, (Except.ok.inj h).symm⟩
      · cases h

theorem parseSizedType_eq_ok {s : Str} {t : AbiType} (h : parseSizedType s = .ok t) :
    ∃ nStr n, parseUsize nStr = some n ∧ Sized nStr n s t := by
  rw [parseSizedType] at h
  cases hbytes : stripStart "bytes".toList s with
  | some nStr =>
      rw [hbytes] at h
      obtain ⟨n, hread, hpos, hle, rfl⟩ := parseByteSize_eq_ok h
      rw [eq_append_of_stripStart hbytes]
      exact ⟨nStr, n, hread, .bytes hpos hle⟩
  | none =>
      simp only [hbytes] at h
      cases huint : stripStart "uint".toList s with
      | some nStr =>
          rw [huint] at h
          obtain ⟨bits, hread, hbits, rfl⟩ := parseBits_eq_ok h
          rw [eq_append_of_stripStart huint]
          exact ⟨nStr, bits, hread, .uint hbits⟩
      | none =>
          simp only [huint] at h
          cases hint : stripStart "int".toList s with
          | some nStr =>
              rw [hint] at h
              obtain ⟨bits, hread, hbits, rfl⟩ := parseBits_eq_ok h
              rw [eq_append_of_stripStart hint]
              exact ⟨nStr, bits, hread, .int hbits⟩
          | none =>
              rw [hint] at h
              cases h

/-- A base type is an elementary type, or one whose numeral is not spelled as the ABI does. -/
theorem parseBase_eq_ok {s : Str} {t : AbiType}
    (h : parseBaseType (normalizeType s) = .ok t) :
    SpellsElementary s t ∨ ∃ nStr n, parseUsize nStr = some n ∧ Sized nStr n s t := by
  rw [normalizeType] at h
  split at h
  · rename_i hs
    have ht : t = .uint 256 := (Except.ok.inj (h.symm.trans (by decide)))
    rw [hs, ht]
    exact .inl .uint
  · split at h
    · rename_i hs
      have ht : t = .int 256 := (Except.ok.inj (h.symm.trans (by decide)))
      rw [hs, ht]
      exact .inl .int
    · split at h
      · rename_i hs
        have ht : t = .fixedBytes 24 := (Except.ok.inj (h.symm.trans (by decide)))
        rw [hs, ht]
        exact .inl .function
      · rw [parseBaseType] at h
        split at h
        · rename_i hs
          rw [hs, ← Except.ok.inj h]
          exact .inl .address
        · split at h
          · rename_i hs
            rw [hs, ← Except.ok.inj h]
            exact .inl .bool
          · split at h
            · rename_i hs
              rw [hs, ← Except.ok.inj h]
              exact .inl .bytes
            · split at h
              · rename_i hs
                rw [hs, ← Except.ok.inj h]
                exact .inl .string
              · exact .inr (parseSizedType_eq_ok h)

theorem spellsElementary_of_parse {s : Str} {t : AbiType}
    (h : parseBaseType (normalizeType s) = .ok t) (hplain : plainNumerals false s = true) :
    SpellsElementary s t := by
  rcases parseBase_eq_ok h with helementary | ⟨nStr, n, hread, hsized⟩
  · exact helementary
  · have hdecimal : plainNumerals false nStr = true → nStr = decimal n := fun hnStr =>
      (eq_decimal_of_parseUsize hread hnStr).1
    cases hsized with
    | uint hbits =>
        rw [hdecimal (by simpa [plainNumerals] using hplain)]
        exact .uintN n hbits
    | int hbits =>
        rw [hdecimal (by simpa [plainNumerals] using hplain)]
        exact .intN n hbits
    | bytes hpos hle =>
        rw [hdecimal (by simpa [plainNumerals] using hplain)]
        exact .bytesN n hpos hle

/-! ## Whole types -/

theorem parseAbiType_of_spells {s : Str} {t : AbiType} (h : Spells s t) :
    parseAbiType s = .ok t := by
  induction h with
  | elementary h => exact parseAbiType_elementary h
  | array _ ih => rw [parseAbiType_array, ih, ok_bind]
  | fixedArray size hpos hsize _ ih =>
      rw [parseAbiType_fixedArray _ (decimal_ne_nil size) (not_mem_decimal (by decide))
        (parseUsize_decimal hsize) hpos, ih, ok_bind]

theorem spells_of_parseAbiType {s : Str} {t : AbiType} (h : parseAbiType s = .ok t)
    (hplain : plainNumerals false s = true) : Spells s t := by
  induction hlength : s.length using Nat.strongRecOn generalizing s t with
  | ind length ih =>
      rcases parseAbiType_cases h with ⟨base, inner, rfl, hinner, rfl⟩ |
        ⟨base, sizeStr, size, inner, rfl, hsize, hpos, hinner, rfl⟩ | hbase
      · have hsplit := plainNumerals_append (c := '[') (by decide) (by decide) base [']'] false
        have hbase : plainNumerals false base = true := by
          rw [show "[]".toList = ['[', ']'] from rfl, hsplit, Bool.and_eq_true] at hplain
          exact hplain.1
        exact .array (ih base.length (by simp [← hlength]) hinner hbase rfl)
      · rw [List.append_assoc, List.cons_append, plainNumerals_append (by decide) (by decide),
          plainNumerals_append (by decide) (by decide)] at hplain
        simp only [Bool.and_eq_true] at hplain
        obtain ⟨hbase, hsizeStr, -⟩ := hplain
        obtain ⟨rfl, hfits⟩ := eq_decimal_of_parseUsize hsize hsizeStr
        refine .fixedArray size hpos hfits (ih base.length ?_ hinner hbase rfl)
        simp [← hlength]
      · exact .elementary (spellsElementary_of_parse hbase hplain)

theorem plainNumerals_of_spells {s : Str} {t : AbiType} (h : Spells s t) :
    plainNumerals false s = true := by
  induction h with
  | elementary h =>
      cases h with
      | uintN bits h => simpa [plainNumerals] using plainNumerals_decimal bits
      | intN bits h => simpa [plainNumerals] using plainNumerals_decimal bits
      | bytesN size _ _ => simpa [plainNumerals] using plainNumerals_decimal size
      | _ => decide
  | array _ ih =>
      rw [show "[]".toList = ['[', ']'] from rfl,
        plainNumerals_append (by decide) (by decide), ih]
      rfl
  | fixedArray size _ _ _ ih =>
      rw [List.append_assoc, List.cons_append, plainNumerals_append (by decide) (by decide),
        plainNumerals_append (by decide) (by decide), ih, plainNumerals_decimal size]
      rfl

theorem spells_typeStr {t : AbiType} (h : t.Legal) : Spells t.typeStr t := by
  induction t with
  | address => exact .elementary .address
  | bool => exact .elementary .bool
  | bytes => exact .elementary .bytes
  | string => exact .elementary .string
  | uint bits => exact .elementary (.uintN bits h)
  | int bits => exact .elementary (.intN bits h)
  | fixedBytes size => exact .elementary (.bytesN size h.1 h.2)
  | array inner ih => exact .array (ih h)
  | fixedArray inner size ih => exact .fixedArray size h.2.1 h.2.2 (ih h.1)

/-! ## Characters -/

/-- The characters an accepted type consists of. -/
def isTypeChar (c : Char) : Bool :=
  c.isLower || c.isDigit || c == '[' || c == ']' || c == '+'

theorem isTypeChar_of_isDigit {c : Char} (h : c.isDigit = true) : isTypeChar c = true := by
  simp [isTypeChar, h]

theorem isWhitespace_of_bounds {c : Char} (h : 43 ≤ c.toNat ∧ c.toNat ≤ 122) :
    isWhitespace c = false := by
  simp only [isWhitespace, Bool.or_eq_false_iff, Bool.and_eq_false_iff, decide_eq_false_iff_not,
    beq_eq_false_iff_ne]
  omega

theorem isWhitespace_of_isTypeChar {c : Char} (h : isTypeChar c = true) :
    isWhitespace c = false := by
  apply isWhitespace_of_bounds
  simp only [isTypeChar, Bool.or_eq_true, beq_iff_eq] at h
  rcases h with (((hlower | hdigit) | rfl) | rfl) | rfl
  · have hletter := Bool.and_eq_true_iff.mp hlower
    have hlow : 97 ≤ c.toNat := of_decide_eq_true hletter.1
    have hhigh : c.toNat ≤ 122 := of_decide_eq_true hletter.2
    omega
  · have hbounds := digit_bounds hdigit
    omega
  all_goals decide

theorem parseUsize_eq_some {s : Str} {n : ℕ} (h : parseUsize s = some n) :
    n < 2 ^ 64 ∧ ∀ c ∈ s, isTypeChar c = true := by
  rw [parseUsize, Option.ite_none_right_eq_some] at h
  obtain ⟨⟨_, hall, hlt⟩, hn⟩ := h
  cases hn
  refine ⟨hlt, ?_⟩
  intro c hc
  have hdigits := List.all_eq_true.mp hall
  by_cases hplus : s.head? = some '+'
  · rw [if_pos hplus] at hdigits
    rw [← List.cons_head?_tail hplus, List.mem_cons] at hc
    rcases hc with rfl | hc
    · decide
    · exact isTypeChar_of_isDigit (hdigits c hc)
  · rw [if_neg hplus] at hdigits
    exact isTypeChar_of_isDigit (hdigits c hc)

theorem isTypeChar_of_decimal (n : ℕ) : ∀ c ∈ decimal n, isTypeChar c = true := fun _ hc =>
  isTypeChar_of_isDigit (isDigit_of_mem_decimal hc)

theorem isTypeChar_append {s rest : Str} (hs : ∀ c ∈ s, isTypeChar c = true)
    (hrest : ∀ c ∈ rest, isTypeChar c = true) : ∀ c ∈ s ++ rest, isTypeChar c = true := by
  intro c hc
  rcases List.mem_append.mp hc with hc | hc
  · exact hs c hc
  · exact hrest c hc

theorem legal_of_elementary {s : Str} {t : AbiType} (h : SpellsElementary s t) :
    t.Legal ∧ ∀ c ∈ s, isTypeChar c = true := by
  cases h with
  | uintN bits h =>
      exact ⟨h, isTypeChar_append (List.all_eq_true.mp (by decide)) (isTypeChar_of_decimal bits)⟩
  | intN bits h =>
      exact ⟨h, isTypeChar_append (List.all_eq_true.mp (by decide)) (isTypeChar_of_decimal bits)⟩
  | bytesN size hpos hle =>
      exact ⟨⟨hpos, hle⟩,
        isTypeChar_append (List.all_eq_true.mp (by decide)) (isTypeChar_of_decimal size)⟩
  | function => exact ⟨⟨by decide, by decide⟩, List.all_eq_true.mp (by decide)⟩
  | uint => exact ⟨⟨by decide, by decide, by decide⟩, List.all_eq_true.mp (by decide)⟩
  | int => exact ⟨⟨by decide, by decide, by decide⟩, List.all_eq_true.mp (by decide)⟩
  | address => exact ⟨trivial, List.all_eq_true.mp (by decide)⟩
  | bool => exact ⟨trivial, List.all_eq_true.mp (by decide)⟩
  | bytes => exact ⟨trivial, List.all_eq_true.mp (by decide)⟩
  | string => exact ⟨trivial, List.all_eq_true.mp (by decide)⟩

theorem legal_of_sized {nStr s : Str} {n : ℕ} {t : AbiType} (hread : parseUsize nStr = some n)
    (h : Sized nStr n s t) : t.Legal ∧ ∀ c ∈ s, isTypeChar c = true := by
  have hnStr := (parseUsize_eq_some hread).2
  cases h with
  | uint h => exact ⟨h, isTypeChar_append (List.all_eq_true.mp (by decide)) hnStr⟩
  | int h => exact ⟨h, isTypeChar_append (List.all_eq_true.mp (by decide)) hnStr⟩
  | bytes hpos hle => exact ⟨⟨hpos, hle⟩, isTypeChar_append (List.all_eq_true.mp (by decide)) hnStr⟩

theorem legal_of_parseAbiType {s : Str} {t : AbiType} (h : parseAbiType s = .ok t) :
    t.Legal ∧ ∀ c ∈ s, isTypeChar c = true := by
  induction hlength : s.length using Nat.strongRecOn generalizing s t with
  | ind length ih =>
      rcases parseAbiType_cases h with ⟨base, inner, rfl, hinner, rfl⟩ |
        ⟨base, sizeStr, size, inner, rfl, hsize, hpos, hinner, rfl⟩ | hbase
      · have hlegal := ih base.length (by simp [← hlength]) hinner rfl
        exact ⟨hlegal.1, isTypeChar_append hlegal.2 (List.all_eq_true.mp (by decide))⟩
      · have hlegal := ih base.length (by simp [← hlength]) hinner rfl
        have hread := parseUsize_eq_some hsize
        refine ⟨⟨hlegal.1, hpos, hread.1⟩, ?_⟩
        have hopen : ∀ c ∈ '[' :: sizeStr, isTypeChar c = true := by
          intro c hc
          rcases List.mem_cons.mp hc with rfl | hc
          · decide
          · exact hread.2 c hc
        exact isTypeChar_append (isTypeChar_append hlegal.2 hopen)
          (List.all_eq_true.mp (by decide))
      · rcases parseBase_eq_ok hbase with helementary | ⟨nStr, n, hread, hsized⟩
        · exact legal_of_elementary helementary
        · exact legal_of_sized hread hsized

/-! ## White space -/

theorem trim_of_isTypeChar {s : Str} (h : ∀ c ∈ s, isTypeChar c = true) : trim s = s := by
  have hspace : ∀ c ∈ s, isWhitespace c = false := fun c hc => isWhitespace_of_isTypeChar (h c hc)
  have hfront : s.dropWhile isWhitespace = s := by
    cases s with
    | nil => rfl
    | cons c s => rw [List.dropWhile_cons_of_neg (by simp [hspace c List.mem_cons_self])]
  rw [trim, hfront, List.rdropWhile_eq_self_iff]
  intro hne
  simp [hspace _ (List.getLast_mem hne)]

theorem mem_dropWhile {p : Char → Bool} {s : Str} {c : Char} (hc : c ∈ s) (hp : p c = false) :
    c ∈ s.dropWhile p := by
  rw [← List.takeWhile_append_dropWhile (p := p) (l := s), List.mem_append] at hc
  rcases hc with hc | hc
  · have hfalse := List.mem_takeWhile_imp hc
    rw [hp] at hfalse
    cases hfalse
  · exact hc

/-- Only white space is trimmed. -/
theorem mem_trim {s : Str} {c : Char} (hc : c ∈ s) (hspace : isWhitespace c = false) :
    c ∈ trim s := by
  have hfront : c ∈ (s.dropWhile isWhitespace).reverse :=
    List.mem_reverse.mpr (mem_dropWhile hc hspace)
  rw [trim, List.rdropWhile, List.mem_reverse]
  exact mem_dropWhile hfront hspace

/-! ## The parser -/

theorem parse_typeStr {t : AbiType} (h : t.Legal) : AbiType.parse t.typeStr = .ok t := by
  have hparse := parseAbiType_of_spells (spells_typeStr h)
  rw [AbiType.parse, trim_of_isTypeChar (legal_of_parseAbiType hparse).2]
  exact hparse

/-- Among the strings whose numerals carry neither a sign nor a zero before another digit, the
accepted ones are the types without tuples. A parenthesis and an illegal width or size are always
refused, and an accepted type is read back from its own text. -/
theorem parse_iff_spells (s : Str) (t : AbiType) :
    (AbiType.parse s = .ok t ∧ plainNumerals false (trim s) = true ↔ Spells (trim s) t) ∧
    (AbiType.parse s = .ok t → '(' ∉ s ∧ ')' ∉ s) ∧
    (AbiType.parse s = .ok t → t.Legal) ∧
    (AbiType.parse s = .ok t → AbiType.parse t.typeStr = .ok t) := by
  refine ⟨⟨?_, ?_⟩, ?_, fun h => (legal_of_parseAbiType h).1, ?_⟩
  · intro h
    exact spells_of_parseAbiType h.1 h.2
  · intro h
    exact ⟨parseAbiType_of_spells h, plainNumerals_of_spells h⟩
  · intro h
    have hchars := (legal_of_parseAbiType h).2
    constructor
    · intro hmem
      exact absurd (hchars _ (mem_trim hmem (by decide))) (by decide)
    · intro hmem
      exact absurd (hchars _ (mem_trim hmem (by decide))) (by decide)
  · intro h
    exact parse_typeStr (legal_of_parseAbiType h).1

/-- The lone zero of a width or of a size is refused. -/
example : ∀ s ∈ ["uint0", "bytes0", "uint256[0]"].map String.toList,
    plainNumerals false s = true ∧ (AbiType.parse s).toOption = none := by
  decide +kernel

/-- A tuple is a type of the ABI. -/
theorem tuple_not_parsed :
    ¬ ∀ s, (∃ t, AbiType.parse s = .ok t) ↔ SolidityType s := by
  intro h
  have htuple : SolidityType "(uint256)".toList :=
    .tuple ["uint256".toList] fun s hs => by
      rw [List.mem_singleton.mp hs]
      exact .elementary (.uintN 256 ⟨by decide, by decide, by decide⟩)
  obtain ⟨t, ht⟩ := (h _).mpr htuple
  have hrejected : AbiType.parse "(uint256)".toList =
      .error (.unknownType "(uint256)".toList) := by
    decide +kernel
  rw [hrejected] at ht
  cases ht

end Degenbot.AbiTypes
