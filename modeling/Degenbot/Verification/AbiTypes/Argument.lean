import Degenbot.Algorithm.AbiArgument
import Degenbot.Library.HexText
import Degenbot.Verification.AbiTypes.CachedRoundTrip

/-! # String arguments

A parsed argument has the shape of its type. An integer is only checked against 256 bits, so it
fits its declared width when its literal does. The text of a value is parsed to the value. -/

namespace Degenbot.AbiTypes

open Library

/-! ## Types of values and of arguments -/

/-- The values of a type, each integer within its declared width. -/
def AbiType.WellTyped : AbiType → AbiValue → Prop
  | .address, .address _ => True
  | .bool, .bool _ => True
  | .uint bits, .uint n bits' => bits' = bits ∧ n.toNat < 2 ^ bits
  | .int bits, .int n bits' =>
      bits' = bits ∧ -2 ^ (bits - 1) ≤ n.toInt ∧ n.toInt < 2 ^ (bits - 1)
  | .fixedBytes size, .fixedBytes data => data.length = size
  | .bytes, .bytes _ => True
  | .string, .string _ => True
  | .array inner, .array values => ∀ value ∈ values, inner.WellTyped value
  | .fixedArray inner size, .array values =>
      values.length = size ∧ ∀ value ∈ values, inner.WellTyped value
  | _, _ => False

/-- No string at any depth. -/
def AbiType.StringFree : AbiType → Prop
  | .string => False
  | .array inner => inner.StringFree
  | .fixedArray inner _ => inner.StringFree
  | _ => True

section Fit

variable (prim : Primitives)

/-- The integers that an argument spells fit the widths that its type declares for them. -/
def IntegersFit : AbiType → Str → Prop
  | .uint bits, arg => ∀ n, parseUint256WithHexPrefix prim (trim arg) = .ok n → n.toNat < 2 ^ bits
  | .int bits, arg => ∀ n, parseInt256WithHexPrefix prim (trim arg) = .ok n →
      -2 ^ (bits - 1) ≤ n.toInt ∧ n.toInt < 2 ^ (bits - 1)
  | .array inner, arg => ∀ elements, parseJsonArray (trim arg) = .ok elements →
      ∀ element ∈ elements, IntegersFit inner element
  | .fixedArray inner _, arg => ∀ elements, parseJsonArray (trim arg) = .ok elements →
      ∀ element ∈ elements, IntegersFit inner element
  | _, _ => True

variable {prim}

theorem forall_mem_iff_of_forall₂ {α β : Type*} {R : α → β → Prop} {P : α → Prop} {Q : β → Prop}
    (hiff : ∀ a b, R a b → (Q b ↔ P a)) {as : List α} {bs : List β} (h : List.Forall₂ R as bs) :
    (∀ b ∈ bs, Q b) ↔ ∀ a ∈ as, P a := by
  induction h with
  | nil => simp
  | cons hab _ ih => simp [hiff _ _ hab, ih]

theorem fromStrArg_elements {inner : AbiType} {elements : List Str} {values : List AbiValue}
    (ih : ∀ arg v, AbiValue.fromStrArg prim inner arg = .ok v →
      (inner.WellTyped v ↔ IntegersFit prim inner arg))
    (h : (elements.mapM fun elem => AbiValue.fromStrArg prim inner elem) = .ok values) :
    values.length = elements.length ∧
      ((∀ value ∈ values, inner.WellTyped value) ↔
        ∀ element ∈ elements, IntegersFit prim inner element) := by
  have hentries := mapM_eq_ok_iff.mp h
  exact ⟨hentries.length_eq.symm, forall_mem_iff_of_forall₂ ih hentries⟩

/-- An accepted argument has its type but for the widths of its integers. -/
theorem wellTyped_iff_integersFit {t : AbiType} : ∀ {arg : Str} {v : AbiValue},
    AbiValue.fromStrArg prim t arg = .ok v → (t.WellTyped v ↔ IntegersFit prim t arg) := by
  induction t with
  | address =>
      intro arg v h
      rw [AbiValue.fromStrArg] at h
      split at h
      · cases h
        exact Iff.rfl
      · cases h
  | bool =>
      intro arg v h
      rw [AbiValue.fromStrArg] at h
      split_ifs at h
      · cases h
        exact Iff.rfl
      · cases h
        exact Iff.rfl
  | uint bits =>
      intro arg v h
      rw [AbiValue.fromStrArg] at h
      split at h
      · rename_i n hn
        cases h
        simp [AbiType.WellTyped, IntegersFit, hn]
      · cases h
  | int bits =>
      intro arg v h
      rw [AbiValue.fromStrArg] at h
      split at h
      · rename_i n hn
        cases h
        simp [AbiType.WellTyped, IntegersFit, hn]
      · cases h
  | fixedBytes size =>
      intro arg v h
      rw [AbiValue.fromStrArg] at h
      split at h
      · cases h
      · split_ifs at h with hsize
        cases h
        exact iff_of_true (not_not.mp hsize) trivial
  | bytes =>
      intro arg v h
      rw [AbiValue.fromStrArg] at h
      split at h
      · cases h
      · cases h
        exact Iff.rfl
  | string =>
      intro arg v h
      rw [AbiValue.fromStrArg] at h
      cases h
      exact Iff.rfl
  | array inner ih =>
      intro arg v h
      rw [AbiValue.fromStrArg] at h
      obtain ⟨elements, helements, h⟩ := bind_eq_ok.mp h
      obtain ⟨values, hvalues, h⟩ := bind_eq_ok.mp h
      cases h
      have hinner := (fromStrArg_elements (fun _ _ => ih) hvalues).2
      simpa [AbiType.WellTyped, IntegersFit, helements] using hinner
  | fixedArray inner size ih =>
      intro arg v h
      rw [AbiValue.fromStrArg] at h
      obtain ⟨elements, helements, h⟩ := bind_eq_ok.mp h
      split_ifs at h with hsize
      obtain ⟨values, hvalues, h⟩ := bind_eq_ok.mp h
      cases h
      obtain ⟨hlength, hinner⟩ := fromStrArg_elements (fun _ _ => ih) hvalues
      have hvalues : values.length = size := hlength.trans (not_not.mp hsize)
      simpa [AbiType.WellTyped, IntegersFit, helements, hvalues] using hinner

end Fit

/-! ## Primitives -/

/-- The decimal digits of an integer, after a minus sign when it is negative. -/
def signedDecimal (n : ℤ) : Str := if n < 0 then '-' :: decimal n.natAbs else decimal n.natAbs

/-- What the primitives are relied on for: they print decimal and lower-case digits, and read
them. -/
structure Primitives.Lawful (prim : Primitives) : Prop where
  uintToString_eq : ∀ n, prim.uintToString n = decimal n.toNat
  uintFromStrRadix_decimal : ∀ n : Abi.U256, prim.uintFromStrRadix (decimal n.toNat) 10 = some n
  intToString_eq : ∀ n, prim.intToString n = signedDecimal n.toInt
  intFromStr_signedDecimal : ∀ n : Abi.U256, prim.intFromStr (signedDecimal n.toInt) = some n
  hexEncode_eq : ∀ bytes, prim.hexEncode bytes = lowerHex bytes
  hexDecode_lowerHex : ∀ bytes, prim.hexDecode (lowerHex bytes) = .ok bytes
  addressFromStr_lowerHex : ∀ address : Abi.Address,
    prim.addressFromStr ("0x".toList ++ lowerHex (beBytes 20 address.toNat)) = some address

/-! ## Texts without white space at their ends -/

/-- Not empty, and no white space at either end. -/
structure Tight (s : Str) : Prop where
  ne_nil : s ≠ []
  head : ∀ c, s.head? = some c → isWhitespace c = false
  last : ∀ c, s.getLast? = some c → isWhitespace c = false

theorem Tight.trim_eq {s : Str} (h : Tight s) : trim s = s := by
  have hfront : s.dropWhile isWhitespace = s := by
    cases s with
    | nil => rfl
    | cons c s => rw [List.dropWhile_cons_of_neg (by simp [h.head c rfl])]
  rw [trim, hfront, List.rdropWhile_eq_self_iff]
  intro hne
  simp [h.last _ (List.getLast?_eq_some_getLast hne)]

theorem Tight.trim_cons {c : Char} {s : Str} (h : Tight s) (hspace : isWhitespace c = true) :
    trim (c :: s) = s := by
  have hcons : trim (c :: s) = trim s := by
    rw [trim, List.dropWhile_cons_of_pos hspace, trim]
  rw [hcons, h.trim_eq]

theorem Tight.append {s mid t : Str} (hs : Tight s) (ht : Tight t) : Tight (s ++ mid ++ t) where
  ne_nil := by simp [hs.ne_nil]
  head := by
    intro c hc
    rw [List.append_assoc, List.head?_append_of_ne_nil _ hs.ne_nil] at hc
    exact hs.head c hc
  last := by
    intro c hc
    rw [List.getLast?_append_of_ne_nil _ ht.ne_nil] at hc
    exact ht.last c hc

theorem tight_of_forall {s : Str} (hne : s ≠ []) (h : ∀ c ∈ s, isWhitespace c = false) :
    Tight s where
  ne_nil := hne
  head := fun c hc => h c (List.mem_of_mem_head? hc)
  last := fun c hc => h c (List.mem_of_getLast? hc)

/-! ## Elements of an array -/

/-- Read at any depth, the text is part of one element, and it leaves the depth as it was. -/
def Closed (s : Str) : Prop :=
  ∀ depth : ℤ, 0 ≤ depth → ∀ current rest,
    splitElements depth current (s ++ rest) = splitElements depth (current ++ s) rest

/-- A character that neither brackets, separates nor pads. -/
def isPlainChar (c : Char) : Bool := !isWhitespace c && c != '[' && c != ']' && c != ','

theorem closed_of_plain {s : Str} (h : ∀ c ∈ s, isPlainChar c = true) : Closed s := by
  intro depth _ current rest
  induction s generalizing current with
  | nil => simp
  | cons c s ih =>
      have hc := h c List.mem_cons_self
      simp only [isPlainChar, Bool.and_eq_true, bne_iff_ne, ne_eq] at hc
      obtain ⟨⟨⟨-, hopen⟩, hclose⟩, hcomma⟩ := hc
      rw [List.cons_append, splitElements, if_neg hopen, if_neg hclose,
        if_neg (fun hsplit => hcomma hsplit.1), ih fun c' hc' => h c' (List.mem_cons_of_mem c hc')]
      simp

/-- The text of an element. -/
structure ElementText (s : Str) : Prop where
  tight : Tight s
  closed : Closed s

theorem elementText_of_plain {s : Str} (hne : s ≠ []) (h : ∀ c ∈ s, isPlainChar c = true) :
    ElementText s where
  tight := tight_of_forall hne fun c hc => by
    have hplain := h c hc
    simp only [isPlainChar, Bool.and_eq_true, Bool.not_eq_true'] at hplain
    exact hplain.1.1.1
  closed := closed_of_plain h

/-- The separator is read over inside an inner array. -/
theorem splitElements_separator {depth : ℤ} (hdepth : 0 < depth) (current rest : Str) :
    splitElements depth current (", ".toList ++ rest) =
      splitElements depth (current ++ ", ".toList) rest := by
  have hcomma : ", ".toList = [',', ' '] := rfl
  rw [hcomma, List.cons_append, List.cons_append, List.nil_append]
  rw [splitElements, if_neg (by decide), if_neg (by decide), if_neg (by omega)]
  rw [splitElements, if_neg (by decide), if_neg (by decide),
    if_neg fun hsplit => absurd hsplit.1 (by decide)]
  simp

theorem intercalate_cons_cons {s t : Str} {texts : List Str} (sep : Str) :
    List.intercalate sep (s :: t :: texts) = s ++ sep ++ List.intercalate sep (t :: texts) := by
  simp [List.intercalate]

theorem intercalate_singleton {s : Str} (sep : Str) : List.intercalate sep [s] = s := by
  simp [List.intercalate]

/-- Inside an inner array the separated texts are read over. -/
theorem splitElements_intercalate {texts : List Str} (h : ∀ s ∈ texts, ElementText s) {depth : ℤ}
    (hdepth : 0 < depth) (current rest : Str) :
    splitElements depth current (List.intercalate ", ".toList texts ++ rest) =
      splitElements depth (current ++ List.intercalate ", ".toList texts) rest := by
  induction texts generalizing current with
  | nil => simp [List.intercalate]
  | cons s texts ih =>
      have hs := (h s List.mem_cons_self).closed depth hdepth.le
      cases texts with
      | nil => rw [intercalate_singleton, hs]
      | cons t texts =>
          rw [intercalate_cons_cons, List.append_assoc, List.append_assoc, hs,
            splitElements_separator hdepth, ih fun s' hs' => h s' (List.mem_cons_of_mem s hs')]
          simp

theorem closed_array {texts : List Str} (h : ∀ s ∈ texts, ElementText s) :
    Closed ('[' :: List.intercalate ", ".toList texts ++ [']']) := by
  intro depth hdepth current rest
  rw [List.cons_append, List.cons_append, splitElements, if_pos rfl, List.append_assoc,
    splitElements_intercalate h (by omega), List.cons_append, List.nil_append, splitElements,
    if_neg (by decide), if_pos rfl]
  simp

theorem elementText_array {texts : List Str} (h : ∀ s ∈ texts, ElementText s) :
    ElementText ('[' :: List.intercalate ", ".toList texts ++ [']']) where
  tight := {
    ne_nil := by simp
    head := fun c hc => by cases hc; decide
    last := fun c hc => by
      rw [List.getLast?_append_of_ne_nil _ (by simp)] at hc
      cases hc
      decide }
  closed := closed_array h

/-- Separated texts are split again, after white space that belongs to the first of them. -/
theorem splitElements_texts {s : Str} {texts : List Str} {current : Str} (hs : ElementText s)
    (h : ∀ t ∈ texts, ElementText t) (htrim : trim (current ++ s) = s) :
    splitElements 0 current (List.intercalate ", ".toList (s :: texts)) = s :: texts := by
  induction texts generalizing s current with
  | nil =>
      have hclosed := hs.closed 0 le_rfl current []
      rw [List.append_nil] at hclosed
      rw [intercalate_singleton, hclosed, splitElements, htrim, if_pos (.inl hs.tight.ne_nil)]
  | cons t texts ih =>
      have ht := h t List.mem_cons_self
      have hspace : trim (([] ++ [' ']) ++ t) = t := ht.tight.trim_cons (by decide)
      have hcomma : ", ".toList = [',', ' '] := rfl
      rw [intercalate_cons_cons, List.append_assoc, hs.closed 0 le_rfl, hcomma, List.cons_append,
        List.cons_append, List.nil_append, splitElements, if_neg (by decide), if_neg (by decide),
        if_pos ⟨rfl, rfl⟩, htrim, if_pos (.inl hs.tight.ne_nil)]
      rw [splitElements, if_neg (by decide), if_neg (by decide), if_neg (by decide), ← hcomma,
        ih ht (fun t' ht' => h t' (List.mem_cons_of_mem t ht')) hspace]
      rfl

theorem tight_intercalate {s : Str} {texts : List Str} (hs : ElementText s)
    (h : ∀ t ∈ texts, ElementText t) : Tight (List.intercalate ", ".toList (s :: texts)) := by
  induction texts generalizing s with
  | nil =>
      rw [intercalate_singleton]
      exact hs.tight
  | cons t texts ih =>
      have ht := ih (h t List.mem_cons_self) fun t' ht' => h t' (List.mem_cons_of_mem t ht')
      rw [intercalate_cons_cons]
      exact hs.tight.append ht

/-- A printed array is split into the texts of its elements. -/
theorem parseJsonArray_array {texts : List Str} (h : ∀ s ∈ texts, ElementText s) :
    parseJsonArray ('[' :: List.intercalate ", ".toList texts ++ [']']) = .ok texts := by
  have htrim := (elementText_array h).tight.trim_eq
  rw [parseJsonArray]
  simp only [htrim]
  have hlast : ('[' :: List.intercalate ", ".toList texts ++ [']']).getLast? = some ']' :=
    List.getLast?_concat
  rw [if_neg (by rw [hlast]; simp)]
  have hcontent : ('[' :: List.intercalate ", ".toList texts ++ [']']).tail.dropLast =
      List.intercalate ", ".toList texts := by simp
  rw [hcontent]
  cases texts with
  | nil => rfl
  | cons s texts =>
      have hs := h s List.mem_cons_self
      have htexts : ∀ t ∈ texts, ElementText t := fun t ht => h t (List.mem_cons_of_mem s ht)
      have htight := tight_intercalate hs htexts
      have hfirst : trim (([] : Str) ++ s) = s := hs.tight.trim_eq
      rw [htight.trim_eq, if_neg htight.ne_nil, splitElements_texts hs htexts hfirst]

/-! ## Texts of scalars -/

theorem isPlainChar_of_isDigit {c : Char} (h : c.isDigit = true) : isPlainChar c = true := by
  have hbounds := digit_bounds h
  have hspace : isWhitespace c = false := isWhitespace_of_bounds (by omega)
  have hopen : c ≠ '[' := by
    rintro rfl
    cases h
  have hclose : c ≠ ']' := by
    rintro rfl
    cases h
  have hcomma : c ≠ ',' := by
    rintro rfl
    cases h
  simp [isPlainChar, hspace, hopen, hclose, hcomma]

theorem elementText_decimal (n : ℕ) : ElementText (decimal n) :=
  elementText_of_plain (decimal_ne_nil n) fun _ hc =>
    isPlainChar_of_isDigit (isDigit_of_mem_decimal hc)

theorem elementText_signedDecimal (n : ℤ) : ElementText (signedDecimal n) := by
  unfold signedDecimal
  split_ifs
  · refine elementText_of_plain (List.cons_ne_nil _ _) fun c hc => ?_
    rcases List.mem_cons.mp hc with rfl | hc
    · decide
    · exact isPlainChar_of_isDigit (isDigit_of_mem_decimal hc)
  · exact elementText_decimal _

theorem hexDigit_facts : ∀ d < 16, isPlainChar (Nat.digitChar d) = true ∧
    Nat.digitChar d ≠ 'X' ∧ (Nat.digitChar d).utf8Size = 1 := by decide

theorem exists_digit_of_mem_lowerHex {bytes : List UInt8} {c : Char} (h : c ∈ lowerHex bytes) :
    ∃ d < 16, c = Nat.digitChar d := by
  obtain ⟨byte, -, hc⟩ := List.mem_flatMap.mp h
  have hbyte := byte.toNat_lt
  simp only [List.mem_cons, List.not_mem_nil, or_false] at hc
  rcases hc with rfl | rfl
  · exact ⟨byte.toNat / 16, by omega, rfl⟩
  · exact ⟨byte.toNat % 16, by omega, rfl⟩

theorem elementText_hex (bytes : List UInt8) : ElementText ("0x".toList ++ lowerHex bytes) := by
  refine elementText_of_plain (List.cons_ne_nil _ _) fun c hc => ?_
  rcases List.mem_append.mp hc with hc | hc
  · exact List.all_eq_true.mp (by decide) c hc
  · obtain ⟨d, hd, rfl⟩ := exists_digit_of_mem_lowerHex hc
    exact (hexDigit_facts d hd).1

theorem stripStart_eq_none {start s : Str} {c : Char} (hc : c ∈ start) (h : c ∉ s) :
    stripStart start s = none := by
  rw [Option.eq_none_iff_forall_ne_some]
  intro rest hrest
  rw [eq_append_of_stripStart hrest] at h
  exact h (List.mem_append_left _ hc)

theorem stripHexMark_eq_none {s : Str} (hlower : 'x' ∉ s) (hupper : 'X' ∉ s) :
    stripHexMark s = none := by
  rw [stripHexMark, stripStart_eq_none (c := 'x') (by decide) hlower,
    stripStart_eq_none (c := 'X') (by decide) hupper]
  rfl

theorem utf8Len_lowerHex (bytes : List UInt8) : utf8Len (lowerHex bytes) = 2 * bytes.length := by
  induction bytes with
  | nil => rfl
  | cons byte bytes ih =>
      have hbyte := byte.toNat_lt
      have hhigh := (hexDigit_facts (byte.toNat / 16) (by omega)).2.2
      have hlow := (hexDigit_facts (byte.toNat % 16) (by omega)).2.2
      rw [utf8Len] at ih
      simp only [lowerHex, List.flatMap_cons, utf8Len, List.map_append, List.map_cons, List.map_nil,
        List.sum_append, List.sum_cons, List.sum_nil, hhigh, hlow, List.length_cons] at ih ⊢
      omega

/-! ## Reading the texts -/

section Reading

variable {prim : Primitives} (hprim : prim.Lawful)

include hprim

theorem decodeHex_lowerHex (bytes : List UInt8) :
    decodeHex prim.hexDecode ("0x".toList ++ lowerHex bytes) = .ok bytes := by
  have hupper : 'X' ∉ lowerHex bytes := by
    intro hmem
    obtain ⟨d, hd, heq⟩ := exists_digit_of_mem_lowerHex hmem
    exact (hexDigit_facts d hd).2.1 heq.symm
  have hnone : stripStart "0X".toList (lowerHex bytes) = none :=
    stripStart_eq_none (by decide) hupper
  rw [decodeHex]
  simp only [stripStart_append, hnone, Option.getD_some, Option.getD_none]
  rw [if_neg (by rw [utf8Len_lowerHex]; omega), hprim.hexDecode_lowerHex]
  rfl

theorem parseUint256_decimal (n : Abi.U256) :
    parseUint256WithHexPrefix prim (decimal n.toNat) = .ok n := by
  have hmark : stripHexMark (decimal n.toNat) = none :=
    stripHexMark_eq_none (not_mem_decimal (by decide)) (not_mem_decimal (by decide))
  rw [parseUint256WithHexPrefix, (elementText_decimal _).tight.trim_eq]
  simp only [hmark]
  rw [hprim.uintFromStrRadix_decimal]
  rfl

theorem parseInt256_signedDecimal (n : Abi.U256) :
    parseInt256WithHexPrefix prim (signedDecimal n.toInt) = .ok n := by
  have hread := hprim.intFromStr_signedDecimal n
  rw [parseInt256WithHexPrefix, (elementText_signedDecimal _).tight.trim_eq]
  have hdecimal : stripHexMark (decimal n.toInt.natAbs) = none :=
    stripHexMark_eq_none (not_mem_decimal (by decide)) (not_mem_decimal (by decide))
  by_cases hneg : n.toInt < 0
  · have htext : signedDecimal n.toInt = ['-'] ++ decimal n.toInt.natAbs := if_pos hneg
    rw [htext] at hread ⊢
    simp only [stripStart_append, hdecimal]
    rw [hread]
    rfl
  · have htext : signedDecimal n.toInt = decimal n.toInt.natAbs := if_neg hneg
    rw [htext] at hread ⊢
    have hminus : stripStart ['-'] (decimal n.toInt.natAbs) = none :=
      stripStart_eq_none (c := '-') (by decide) (not_mem_decimal (by decide))
    simp only [hminus, hdecimal]
    rw [hread]
    rfl

end Reading

/-! ## Round trip -/

section RoundTrip

variable {prim : Primitives}

theorem toContractStrings_eq_map (values : List AbiValue) :
    toContractStrings prim values = values.map (AbiValue.toContractString prim) := by
  induction values with
  | nil => rfl
  | cons value values ih => rw [toContractStrings, ih, List.map_cons]

/-- What is printed for the values of a type, and that it is read back. -/
def Prints (prim : Primitives) (t : AbiType) : Prop :=
  ∀ v, t.WellTyped v → ElementText (v.toContractString prim) ∧
    AbiValue.fromStrArg prim t (v.toContractString prim) = .ok v

theorem prints_elements {inner : AbiType} (ih : Prints prim inner) {values : List AbiValue}
    (h : ∀ value ∈ values, inner.WellTyped value) :
    (∀ s ∈ toContractStrings prim values, ElementText s) ∧
      ((toContractStrings prim values).mapM fun elem => AbiValue.fromStrArg prim inner elem) =
        .ok values := by
  rw [toContractStrings_eq_map]
  constructor
  · intro s hs
    obtain ⟨value, hvalue, rfl⟩ := List.mem_map.mp hs
    exact (ih value (h value hvalue)).1
  · rw [mapM_eq_ok_iff, List.forall₂_map_left_iff, List.forall₂_same]
    exact fun value hvalue => (ih value (h value hvalue)).2

/-- The text of a value is read back as the value. -/
theorem prints (hprim : prim.Lawful) {t : AbiType} (hfree : t.StringFree) : Prints prim t := by
  induction t with
  | address =>
      intro v hv
      cases v with
      | address address =>
          rw [AbiValue.toContractString, hprim.hexEncode_eq]
          have htext := elementText_hex (beBytes 20 address.toNat)
          refine ⟨htext, ?_⟩
          rw [AbiValue.fromStrArg, htext.tight.trim_eq, hprim.addressFromStr_lowerHex]
      | _ => cases hv
  | bool =>
      intro v hv
      cases v with
      | bool b =>
          rw [AbiValue.toContractString, AbiValue.fromStrArg]
          cases b with
          | true =>
              exact ⟨elementText_of_plain (by decide) (List.all_eq_true.mp (by decide)), by rfl⟩
          | false =>
              exact ⟨elementText_of_plain (by decide) (List.all_eq_true.mp (by decide)), by rfl⟩
      | _ => cases hv
  | uint bits =>
      intro v hv
      cases v with
      | uint n bits' =>
          obtain ⟨rfl, -⟩ := hv
          rw [AbiValue.toContractString, hprim.uintToString_eq]
          have htext := elementText_decimal n.toNat
          refine ⟨htext, ?_⟩
          rw [AbiValue.fromStrArg, htext.tight.trim_eq, parseUint256_decimal hprim]
      | _ => cases hv
  | int bits =>
      intro v hv
      cases v with
      | int n bits' =>
          obtain ⟨rfl, -⟩ := hv
          rw [AbiValue.toContractString, hprim.intToString_eq]
          have htext := elementText_signedDecimal n.toInt
          refine ⟨htext, ?_⟩
          rw [AbiValue.fromStrArg, htext.tight.trim_eq, parseInt256_signedDecimal hprim]
      | _ => cases hv
  | fixedBytes size =>
      intro v hv
      cases v with
      | fixedBytes data =>
          have hsize : data.length = size := hv
          rw [AbiValue.toContractString, hprim.hexEncode_eq]
          have htext := elementText_hex data
          refine ⟨htext, ?_⟩
          rw [AbiValue.fromStrArg, htext.tight.trim_eq, decodeHex_lowerHex hprim]
          exact if_neg (not_not_intro hsize)
      | _ => cases hv
  | bytes =>
      intro v hv
      cases v with
      | bytes data =>
          rw [AbiValue.toContractString, hprim.hexEncode_eq]
          have htext := elementText_hex data
          refine ⟨htext, ?_⟩
          rw [AbiValue.fromStrArg, htext.tight.trim_eq, decodeHex_lowerHex hprim]
      | _ => cases hv
  | string => exact hfree.elim
  | array inner ih =>
      intro v hv
      cases v with
      | array values =>
          obtain ⟨htexts, hvalues⟩ := prints_elements (ih hfree) hv
          rw [AbiValue.toContractString]
          have htext := elementText_array htexts
          refine ⟨htext, ?_⟩
          rw [AbiValue.fromStrArg, htext.tight.trim_eq, parseJsonArray_array htexts, ok_bind,
            hvalues, ok_bind]
      | _ => cases hv
  | fixedArray inner size ih =>
      intro v hv
      cases v with
      | array values =>
          obtain ⟨hsize, hall⟩ := hv
          obtain ⟨htexts, hvalues⟩ := prints_elements (ih hfree) hall
          have hlength : (toContractStrings prim values).length = size := by
            rw [toContractStrings_eq_map, List.length_map, hsize]
          rw [AbiValue.toContractString]
          have htext := elementText_array htexts
          refine ⟨htext, ?_⟩
          rw [AbiValue.fromStrArg, htext.tight.trim_eq, parseJsonArray_array htexts, ok_bind,
            if_neg (not_not_intro hlength), hvalues, ok_bind]
      | _ => cases hv

end RoundTrip

/-! ## Sample primitives -/

def readDecimal (s : Str) : Option ℕ :=
  if s ≠ [] ∧ s.all Char.isDigit then some (Nat.ofDigitChars 10 s 0) else none

def readUint (s : Str) (radix : ℕ) : Option Abi.U256 := do
  let n ← if radix = 16 then (readHex (if s.length % 2 = 1 then '0' :: s else s)).map beValue
    else readDecimal s
  if n < 2 ^ 256 then some (BitVec.ofNat 256 n) else none

def readInt (s : Str) : Option Abi.U256 := do
  let n ← (stripStart ['-'] s).elim ((readDecimal s).map Int.ofNat)
    fun digits => (readDecimal digits).map fun n : ℕ => -(n : ℤ)
  if -2 ^ 255 ≤ n ∧ n < 2 ^ 255 then some (BitVec.ofInt 256 n) else none

def readAddress (s : Str) : Option Abi.Address := do
  let bytes ← readHex ((stripStart "0x".toList s).getD s)
  if bytes.length = 20 then some (BitVec.ofNat 160 (beValue bytes)) else none

def samplePrimitives : Primitives where
  uintFromStrRadix := readUint
  uintToString := fun n => decimal n.toNat
  intFromStr := readInt
  intToString := fun n => signedDecimal n.toInt
  addressFromStr := readAddress
  hexDecode := fun s => okOr (readHex s) "invalid hex".toList
  hexEncode := lowerHex

theorem readDecimal_decimal (n : ℕ) : readDecimal (decimal n) = some n := by
  have hall : (decimal n).all Char.isDigit = true :=
    List.all_eq_true.mpr fun _ hc => isDigit_of_mem_decimal hc
  have hread : Nat.ofDigitChars 10 (decimal n) 0 = n := Nat.ofDigitChars_ten_toDigits
  rw [readDecimal, if_pos ⟨decimal_ne_nil n, hall⟩, hread]

theorem samplePrimitives_lawful : samplePrimitives.Lawful where
  uintToString_eq := fun _ => rfl
  uintFromStrRadix_decimal := fun n => by
    change readUint (decimal n.toNat) 10 = some n
    rw [readUint, if_neg (by decide), readDecimal_decimal]
    change (if n.toNat < 2 ^ 256 then some (BitVec.ofNat 256 n.toNat) else none) = some n
    rw [if_pos n.isLt, BitVec.ofNat_toNat, BitVec.setWidth_eq]
  intToString_eq := fun _ => rfl
  intFromStr_signedDecimal := fun n => by
    have hread : ((stripStart ['-'] (signedDecimal n.toInt)).elim
        ((readDecimal (signedDecimal n.toInt)).map Int.ofNat)
        fun digits => (readDecimal digits).map fun n : ℕ => -(n : ℤ)) = some n.toInt := by
      unfold signedDecimal
      split_ifs with hneg
      · change (stripStart ['-'] (['-'] ++ decimal n.toInt.natAbs)).elim _ _ = _
        rw [stripStart_append, Option.elim_some, readDecimal_decimal, Option.map_some]
        congr 1
        omega
      · rw [stripStart_eq_none (c := '-') (by decide) (not_mem_decimal (by decide)),
          Option.elim_none, readDecimal_decimal, Option.map_some]
        congr 1
        exact Int.natAbs_of_nonneg (not_lt.mp hneg)
    have hlow : -2 ^ 255 ≤ n.toInt := BitVec.le_toInt n
    have hhigh : n.toInt < 2 ^ 255 := BitVec.toInt_lt
    change readInt (signedDecimal n.toInt) = some n
    rw [readInt, hread]
    change (if -2 ^ 255 ≤ n.toInt ∧ n.toInt < 2 ^ 255 then some (BitVec.ofInt 256 n.toInt) else none)
      = some n
    rw [if_pos ⟨hlow, hhigh⟩, BitVec.ofInt_toInt]
  hexEncode_eq := fun _ => rfl
  hexDecode_lowerHex := fun bytes => by
    change okOr (readHex (lowerHex bytes)) _ = .ok bytes
    rw [readHex_lowerHex]
    rfl
  addressFromStr_lowerHex := fun address => by
    change readAddress ("0x".toList ++ lowerHex (beBytes 20 address.toNat)) = some address
    have hvalue : beValue (beBytes 20 address.toNat) = address.toNat :=
      beValue_beBytes_of_lt address.isLt
    rw [readAddress, stripStart_append, Option.getD_some, readHex_lowerHex]
    simp only [Option.bind_eq_bind, Option.bind_some, length_beBytes, if_true]
    rw [hvalue, BitVec.ofNat_toNat, BitVec.setWidth_eq]

/-! ## Arguments of a type -/

/-- An accepted argument is a value of its type exactly when its integers fit their declared
widths, and the text of a value without strings is read back as the value. -/
theorem fromStrArg_wellTyped_iff {prim : Primitives} (hprim : prim.Lawful) (t : AbiType) :
    (∀ arg v, AbiValue.fromStrArg prim t arg = .ok v →
      (t.WellTyped v ↔ IntegersFit prim t arg)) ∧
    (t.StringFree → ∀ v, t.WellTyped v →
      AbiValue.fromStrArg prim t (v.toContractString prim) = .ok v) := by
  constructor
  · intro arg v h
    exact wellTyped_iff_integersFit h
  · intro hfree v hv
    exact (prints hprim hfree v hv).2

/-- The element 256 is accepted for `uint8[]` and is no `uint8`, and `[-1, 5]` is read back. -/
theorem fromStrArg_wellTyped_iff_sample :
    AbiValue.fromStrArg samplePrimitives (.array (.uint 8)) "[1, 256]".toList =
      .ok (.array [.uint 1 8, .uint 256 8]) ∧
    ¬(AbiType.array (.uint 8)).WellTyped (.array [.uint 1 8, .uint 256 8]) ∧
    ¬IntegersFit samplePrimitives (.array (.uint 8)) "[1, 256]".toList ∧
    AbiValue.fromStrArg samplePrimitives (.fixedArray (.int 8) 2) "[-1, 5]".toList =
      .ok (.array [.int (-1) 8, .int 5 8]) := by
  have haccepted : AbiValue.fromStrArg samplePrimitives (.array (.uint 8)) "[1, 256]".toList =
      .ok (.array [.uint 1 8, .uint 256 8]) := by
    rfl
  have hwide : ¬(AbiType.array (.uint 8)).WellTyped (.array [.uint 1 8, .uint 256 8]) := by
    intro h
    have hlast := h (.uint 256 8) (by simp)
    exact absurd hlast.2 (by decide)
  have hiff := (fromStrArg_wellTyped_iff samplePrimitives_lawful (.array (.uint 8))).1 _ _ haccepted
  have htyped : (AbiType.fixedArray (.int 8) 2).WellTyped (.array [.int (-1) 8, .int 5 8]) := by
    refine ⟨rfl, fun value hvalue => ?_⟩
    simp only [List.mem_cons, List.not_mem_nil, or_false] at hvalue
    rcases hvalue with rfl | rfl
    · exact ⟨rfl, by decide, by decide⟩
    · exact ⟨rfl, by decide, by decide⟩
  have hprinted := (fromStrArg_wellTyped_iff samplePrimitives_lawful
    (.fixedArray (.int 8) 2)).2 trivial _ htyped
  exact ⟨haccepted, hwide, fun hfit => hwide (hiff.mpr hfit), hprinted⟩

/-- An accepted argument need not be a value of its type. -/
theorem fromStrArg_not_wellTyped :
    ¬ ∀ (prim : Primitives) (t : AbiType) (arg : Str) (v : AbiValue), prim.Lawful →
      AbiValue.fromStrArg prim t arg = .ok v → t.WellTyped v := by
  intro h
  have haccepted : AbiValue.fromStrArg samplePrimitives (.uint 8) "256".toList =
      .ok (.uint 256 8) := by
    rfl
  have htyped := h _ _ _ _ samplePrimitives_lawful haccepted
  exact absurd htyped.2 (by decide)

end Degenbot.AbiTypes
