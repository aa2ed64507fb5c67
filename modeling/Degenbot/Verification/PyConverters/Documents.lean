import Degenbot.Algorithm.PyConverters
import Degenbot.Library.Batch
import Degenbot.Verification.AbiTypes.Argument

/-! # Documents with recognised fields

A quantity with an odd number of digits is refused, and empty data stays text. Every other
document is converted, each recognised string to what it denotes. -/

namespace Degenbot.PyConverters

open Library AbiTypes

/-! ## Documents -/

theorem Json.induction {P : Json → Prop} (null : P .null) (bool : ∀ b, P (.bool b))
    (number : ∀ n, P (.number n)) (string : ∀ s, P (.string s))
    (array : ∀ items, (∀ item ∈ items, P item) → P (.array items))
    (object : ∀ entries, (∀ entry ∈ entries, P entry.2) → P (.object entries)) (json : Json) :
    P json :=
  @Json.rec P (fun items => ∀ item ∈ items, P item) (fun entries => ∀ entry ∈ entries, P entry.2)
    (fun entry => P entry.2) null bool number string array object
    (fun _ h => absurd h List.not_mem_nil)
    (fun _ _ hfirst hrest => List.forall_mem_cons.mpr ⟨hfirst, hrest⟩)
    (fun _ h => absurd h List.not_mem_nil)
    (fun _ _ hfirst hrest => List.forall_mem_cons.mpr ⟨hfirst, hrest⟩)
    (fun _ _ h => h) json

/-- A JSON-RPC quantity below `2 ^ 256`. -/
structure Quantity (s digits : Str) : Prop where
  text : s = "0x".toList ++ digits
  ne_nil : digits ≠ []
  hex : ∀ c ∈ digits, isHexDigit c = true
  no_zero : digits = ['0'] ∨ digits.head? ≠ some '0'
  lt : hexValue digits < 2 ^ 256

/-- Data of whole bytes, possibly none. -/
structure HexData (s digits : Str) : Prop where
  text : s = "0x".toList ++ digits
  hex : ∀ c ∈ digits, isHexDigit c = true
  even : digits.length % 2 = 0

/-- What a string under a field is promised to be. -/
structure StringFits (fieldName : Option String) (s : Str) : Prop where
  numeric : isField numericFields fieldName = true → ∃ digits, Quantity s digits
  data : isField hexbytesFields fieldName = true → ∃ digits, HexData s digits
  address : isField addressFields fieldName = true →
    ∃ digits, HexData s digits ∧ digits.length = 40

mutual

/-- Every recognised string of a document has the form that its field promises. -/
def Fits (fieldName : Option String) : Json → Prop
  | .string s => StringFits fieldName s
  | .array items => ItemsFit fieldName items
  | .object entries => EntriesFit entries
  | _ => True

def ItemsFit (fieldName : Option String) : List Json → Prop
  | [] => True
  | item :: items => Fits fieldName item ∧ ItemsFit fieldName items

def EntriesFit : List (String × Json) → Prop
  | [] => True
  | entry :: entries => Fits (some entry.1) entry.2 ∧ EntriesFit entries

end

/-- What a string denotes under its field. -/
def denotedString (alloy : Alloy) (fieldName : Option String) (s : Str) : PyValue :=
  if isField numericFields fieldName then .int (hexValue (s.drop 2))
  else if isField hexbytesFields fieldName then .hexBytes ((readHex (s.drop 2)).getD [])
  else if isField addressFields fieldName then
    .str (alloy.toChecksum (BitVec.ofNat 160 (hexValue (s.drop 2))))
  else .str s

mutual

def denoted (alloy : Alloy) (fieldName : Option String) : Json → PyValue
  | .null => .none
  | .bool b => .bool b
  | .number n => numberToPy n
  | .string s => denotedString alloy fieldName s
  | .array items => .list (denotedItems alloy fieldName items)
  | .object entries => .dict (denotedEntries alloy entries)

def denotedItems (alloy : Alloy) (fieldName : Option String) : List Json → List PyValue
  | [] => []
  | item :: items => denoted alloy fieldName item :: denotedItems alloy fieldName items

def denotedEntries (alloy : Alloy) : List (String × Json) → List (String × PyValue)
  | [] => []
  | entry :: entries => (entry.1, denoted alloy (some entry.1) entry.2) ::
      denotedEntries alloy entries

end

/-- A quantity has an even number of digits, and data is not empty. -/
structure StringConverts (fieldName : Option String) (s : Str) : Prop where
  numeric : isField numericFields fieldName = true → s.length % 2 = 0
  data : isField hexbytesFields fieldName = true → s ≠ "0x".toList

mutual

def Converts (fieldName : Option String) : Json → Prop
  | .string s => StringConverts fieldName s
  | .array items => ItemsConvert fieldName items
  | .object entries => EntriesConvert entries
  | _ => True

def ItemsConvert (fieldName : Option String) : List Json → Prop
  | [] => True
  | item :: items => Converts fieldName item ∧ ItemsConvert fieldName items

def EntriesConvert : List (String × Json) → Prop
  | [] => True
  | entry :: entries => Converts (some entry.1) entry.2 ∧ EntriesConvert entries

end

/-! ## Strings -/

/-- The decoder accepts exactly hex digits in pairs, after an optional `0x`. -/
structure Alloy.Lawful (alloy : Alloy) : Prop where
  decode_eq_ok : ∀ s bytes, alloy.decode s = .ok bytes ↔
    ∃ digits, (s = digits ∨ s = "0x".toList ++ digits) ∧ readHex digits = some bytes

theorem not_isField_of_disjoint {fields others : List String} {fieldName : Option String}
    (hdisjoint : ∀ name ∈ fields, name ∉ others) (h : isField fields fieldName = true) :
    isField others fieldName = false := by
  cases fieldName with
  | none => cases h
  | some name =>
      have hmem : name ∈ fields := List.contains_iff_mem.mp h
      have hother := hdisjoint name hmem
      simpa [isField] using hother

theorem numeric_disjoint : ∀ name ∈ numericFields, name ∉ hexbytesFields ++ addressFields := by
  decide

theorem hexbytes_disjoint : ∀ name ∈ hexbytesFields, name ∉ addressFields := by
  decide

theorem isHexDigit_facts {c : Char} (h : isHexDigit c = true) :
    c.utf8Size = 1 ∧ c ≠ 'x' ∧ c ≠ 'X' := by
  have hbound : c.val ≤ 127 := by
    simp only [isHexDigit, Char.isDigit, Bool.or_eq_true, Bool.and_eq_true,
      decide_eq_true_eq] at h
    rcases h with (⟨-, hdigit⟩ | ⟨-, hlower⟩) | ⟨-, hupper⟩
    · exact UInt32.le_trans hdigit (by decide)
    · exact UInt32.le_trans hlower (by decide)
    · exact UInt32.le_trans hupper (by decide)
  refine ⟨Char.utf8Size_eq_one_iff.mpr hbound, ?_, ?_⟩
  · rintro rfl
    cases h
  · rintro rfl
    cases h

theorem utf8Len_of_hex {digits : Str} (h : ∀ c ∈ digits, isHexDigit c = true) :
    utf8Len digits = digits.length := by
  induction digits with
  | nil => rfl
  | cons c digits ih =>
      have hc := (isHexDigit_facts (h c List.mem_cons_self)).1
      have hrest := ih fun d hd => h d (List.mem_cons_of_mem c hd)
      rw [utf8Len] at hrest ⊢
      rw [List.map_cons, List.sum_cons, hc, hrest, List.length_cons, Nat.add_comm]

theorem isHexString_iff {digits : Str} (h : ∀ c ∈ digits, isHexDigit c = true) :
    isHexString ("0x".toList ++ digits) = true ↔ digits ≠ [] := by
  have hlength : utf8Len ("0x".toList ++ digits) = 2 + digits.length := by
    have hdigits := utf8Len_of_hex h
    have hmark : utf8Len "0x".toList = 2 := by decide
    rw [utf8Len] at hdigits hmark ⊢
    rw [List.map_append, List.sum_append, hdigits, hmark]
  have hall : digits.all isHexDigit = true := List.all_eq_true.mpr h
  have hmark : "0x".toList.isPrefixOf ("0x".toList ++ digits) = true := by
    rw [List.isPrefixOf_iff_prefix]
    exact List.prefix_append _ _
  have hdrop : ("0x".toList ++ digits).drop 2 = digits := rfl
  rw [isHexString, hlength, hmark, hdrop, hall]
  cases digits with
  | nil => simp
  | cons c digits =>
      rw [if_neg (by simp only [List.length_cons]; omega)]
      simp

section Decoding

variable {alloy : Alloy} (hlawful : alloy.Lawful) {digits : Str}
  (hdigits : ∀ c ∈ digits, isHexDigit c = true)

include hlawful

theorem decode_of_readHex {bytes : List UInt8} (h : readHex digits = some bytes) :
    alloy.decode digits = .ok bytes :=
  (hlawful.decode_eq_ok digits bytes).mpr ⟨digits, .inl rfl, h⟩

include hdigits

/-- Digits are decoded in pairs only. -/
theorem even_of_decode {bytes : List UInt8} (h : alloy.decode digits = .ok bytes) :
    digits.length % 2 = 0 := by
  obtain ⟨others, rfl | rfl, hothers⟩ := (hlawful.decode_eq_ok digits bytes).mp h
  · rw [length_of_readHex hothers]
    omega
  · exact absurd (hdigits 'x' (by simp)) (by decide)

theorem decodeHex_of_readHex {bytes : List UInt8} (h : readHex digits = some bytes) :
    decodeHex alloy.decode ("0x".toList ++ digits) = .ok bytes := by
  have hupper : stripStart "0X".toList digits = none :=
    stripStart_eq_none (c := 'X') (by decide) fun hmem =>
      (isHexDigit_facts (hdigits 'X' hmem)).2.2 rfl
  have hlength := length_of_readHex h
  rw [decodeHex]
  simp only [stripStart_append, hupper, Option.getD_some, Option.getD_none]
  rw [if_neg (by rw [utf8Len_of_hex hdigits]; omega), decode_of_readHex hlawful h]
  rfl

end Decoding

section Strings

variable {alloy : Alloy} {fieldName : Option String} {s digits : Str}

theorem hexToNumber_iff (hlawful : alloy.Lawful) (h : Quantity s digits) :
    hexToNumber alloy s = .ok (.int (hexValue (s.drop 2))) ↔ s.length % 2 = 0 := by
  obtain ⟨rfl, -, hdigits, -, -⟩ := h
  have hdrop : ("0x".toList ++ digits).drop 2 = digits := rfl
  have hlength : ("0x".toList ++ digits).length = 2 + digits.length := List.length_append
  rw [hexToNumber, hdrop, hlength]
  constructor
  · intro h
    obtain ⟨bytes, hbytes, -⟩ := bind_eq_ok.mp h
    cases hdecode : alloy.decode digits with
    | error e =>
        rw [hdecode] at hbytes
        cases hbytes
    | ok decoded =>
        have heven := even_of_decode hlawful hdigits hdecode
        omega
  · intro heven
    obtain ⟨bytes, hbytes⟩ := exists_readHex hdigits (by omega)
    have hvalue := beValue_of_readHex hbytes
    rw [decode_of_readHex hlawful hbytes]
    change (if bytes.length ≤ 32 then _ else _) = _
    rw [beValue_zeros_append, hvalue, ite_self]

theorem hexToHexbytes_eq (hlawful : alloy.Lawful) (h : HexData s digits) :
    hexToHexbytes alloy s = .ok (.hexBytes ((readHex (s.drop 2)).getD [])) := by
  obtain ⟨rfl, hdigits, heven⟩ := h
  obtain ⟨bytes, hbytes⟩ := exists_readHex hdigits heven
  have hdrop : ("0x".toList ++ digits).drop 2 = digits := rfl
  rw [hexToHexbytes, decodeHex_of_readHex hlawful hdigits hbytes, hdrop, hbytes]
  rfl

theorem hexToChecksumAddress_eq (hlawful : alloy.Lawful) (h : HexData s digits)
    (hlength : digits.length = 40) : hexToChecksumAddress alloy s =
      .ok (.str (alloy.toChecksum (BitVec.ofNat 160 (hexValue (s.drop 2))))) := by
  obtain ⟨rfl, hdigits, heven⟩ := h
  obtain ⟨bytes, hbytes⟩ := exists_readHex hdigits heven
  have hdrop : ("0x".toList ++ digits).drop 2 = digits := rfl
  have hbytesLength := length_of_readHex hbytes
  have hvalue := beValue_of_readHex hbytes
  rw [hexToChecksumAddress, decodeHex_of_readHex hlawful hdigits hbytes, hdrop]
  change (if bytes.length ≠ 20 then _ else _) = _
  rw [if_neg (by omega), hvalue]

/-- A recognised string is converted unless it is a quantity of odd length or empty data. -/
theorem stringToPy_iff (hlawful : alloy.Lawful) (h : StringFits fieldName s) :
    stringToPy alloy fieldName s = .ok (denotedString alloy fieldName s) ↔
      StringConverts fieldName s := by
  unfold stringToPy denotedString
  by_cases hnumeric : isField numericFields fieldName = true
  · obtain ⟨digits, hquantity⟩ := h.numeric hnumeric
    have hdata : isField hexbytesFields fieldName = false :=
      not_isField_of_disjoint (fun name hname hmem =>
        numeric_disjoint name hname (List.mem_append_left _ hmem)) hnumeric
    have haddress : isField addressFields fieldName = false :=
      not_isField_of_disjoint (fun name hname hmem =>
        numeric_disjoint name hname (List.mem_append_right _ hmem)) hnumeric
    have hhex : isHexString s = true := by
      rw [hquantity.text]
      exact (isHexString_iff hquantity.hex).mpr hquantity.ne_nil
    simp only [hnumeric, hdata, haddress, hhex, Bool.true_and, Bool.false_and, if_true,
      Bool.false_eq_true, if_false]
    rw [hexToNumber_iff hlawful hquantity]
    exact ⟨fun heven => ⟨fun _ => heven, fun h => by simp [hdata] at h⟩,
      fun hconverts => hconverts.numeric hnumeric⟩
  · rw [Bool.not_eq_true] at hnumeric
    by_cases hdata : isField hexbytesFields fieldName = true
    · obtain ⟨digits, hhexData⟩ := h.data hdata
      have haddress : isField addressFields fieldName = false :=
        not_isField_of_disjoint hexbytes_disjoint hdata
      have hhex : isHexString s = true ↔ digits ≠ [] := by
        rw [hhexData.text]
        exact isHexString_iff hhexData.hex
      have hempty : s = "0x".toList ↔ digits = [] := by
        rw [hhexData.text]
        exact List.append_right_eq_self
      have hconverts : StringConverts fieldName s ↔ digits ≠ [] := by
        rw [Ne, ← hempty]
        exact ⟨fun h => h.data hdata, fun h => ⟨fun hn => by simp [hnumeric] at hn, fun _ => h⟩⟩
      rw [hconverts]
      simp only [hnumeric, hdata, haddress, Bool.true_and, Bool.false_and, if_true,
        Bool.false_eq_true, if_false]
      by_cases hnil : digits = []
      · have hnot : ¬isHexString s = true := fun h => hhex.mp h hnil
        rw [if_neg hnot]
        exact iff_of_false (fun h => by cases h) (not_not_intro hnil)
      · rw [if_pos (hhex.mpr hnil), hexToHexbytes_eq hlawful hhexData]
        exact iff_of_true rfl hnil
    · rw [Bool.not_eq_true] at hdata
      have hconverts : StringConverts fieldName s :=
        ⟨fun h => by simp [hnumeric] at h, fun h => by simp [hdata] at h⟩
      refine iff_of_true ?_ hconverts
      by_cases haddress : isField addressFields fieldName = true
      · obtain ⟨digits, hhexData, hlength⟩ := h.address haddress
        have hhex : isHexString s = true := by
          rw [hhexData.text]
          exact (isHexString_iff hhexData.hex).mpr (List.ne_nil_of_length_eq_add_one hlength)
        simp only [hnumeric, hdata, haddress, hhex, Bool.true_and, if_true, Bool.false_eq_true,
          if_false]
        exact hexToChecksumAddress_eq hlawful hhexData hlength
      · rw [Bool.not_eq_true] at haddress
        simp [hnumeric, hdata, haddress]

end Strings

/-! ## Documents of any depth -/

section Convert

variable {alloy : Alloy} {fieldName : Option String}

theorem items_iff {items : List Json}
    (ih : ∀ item ∈ items, ∀ fieldName, Fits fieldName item →
      (jsonToPyInner alloy fieldName item = .ok (denoted alloy fieldName item) ↔
        Converts fieldName item)) (h : ItemsFit fieldName items) :
    itemsToPy alloy fieldName items = .ok (denotedItems alloy fieldName items) ↔
      ItemsConvert fieldName items := by
  induction items with
  | nil => exact iff_of_true rfl trivial
  | cons item items ihItems =>
      have hfirst := ih item List.mem_cons_self fieldName h.1
      have hrest := ihItems (fun other hother => ih other (List.mem_cons_of_mem item hother)) h.2
      rw [itemsToPy, denotedItems, ItemsConvert, ← hfirst, ← hrest]
      constructor
      · intro hrun
        obtain ⟨first, hfirst, hrun⟩ := bind_eq_ok.mp hrun
        obtain ⟨rest, hrest, hrun⟩ := bind_eq_ok.mp hrun
        cases hrun
        exact ⟨hfirst, hrest⟩
      · rintro ⟨hfirst, hrest⟩
        rw [hfirst, hrest]
        rfl

theorem entries_iff {entries : List (String × Json)}
    (ih : ∀ entry ∈ entries, ∀ fieldName, Fits fieldName entry.2 →
      (jsonToPyInner alloy fieldName entry.2 = .ok (denoted alloy fieldName entry.2) ↔
        Converts fieldName entry.2)) (h : EntriesFit entries) :
    entriesToPy alloy entries = .ok (denotedEntries alloy entries) ↔ EntriesConvert entries := by
  induction entries with
  | nil => exact iff_of_true rfl trivial
  | cons entry entries ihEntries =>
      have hfirst := ih entry List.mem_cons_self (some entry.1) h.1
      have hrest := ihEntries (fun other hother => ih other (List.mem_cons_of_mem entry hother)) h.2
      rw [entriesToPy, denotedEntries, EntriesConvert, ← hfirst, ← hrest]
      constructor
      · intro hrun
        obtain ⟨first, hfirst, hrun⟩ := bind_eq_ok.mp hrun
        obtain ⟨rest, hrest, hrun⟩ := bind_eq_ok.mp hrun
        cases hrun
        exact ⟨hfirst, hrest⟩
      · rintro ⟨hfirst, hrest⟩
        rw [hfirst, hrest]
        rfl

theorem jsonToPyInner_iff (hlawful : alloy.Lawful) (json : Json) :
    ∀ fieldName, Fits fieldName json →
      (jsonToPyInner alloy fieldName json = .ok (denoted alloy fieldName json) ↔
        Converts fieldName json) := by
  induction json using Json.induction with
  | null => exact fun _ _ => iff_of_true rfl trivial
  | bool b => exact fun _ _ => iff_of_true rfl trivial
  | number n => exact fun _ _ => iff_of_true rfl trivial
  | string s => exact fun _ h => stringToPy_iff hlawful h
  | array items ih =>
      intro fieldName h
      rw [jsonToPyInner, denoted, Converts, ← items_iff ih h]
      constructor
      · intro hrun
        obtain ⟨list, hlist, hrun⟩ := bind_eq_ok.mp hrun
        cases hrun
        exact hlist
      · intro hrun
        rw [hrun]
        rfl
  | object entries ih =>
      intro fieldName h
      rw [jsonToPyInner, denoted, Converts, ← entries_iff ih h]
      constructor
      · intro hrun
        obtain ⟨dict, hdict, hrun⟩ := bind_eq_ok.mp hrun
        cases hrun
        exact hdict
      · intro hrun
        rw [hrun]
        rfl

/-- A document is converted to what it denotes exactly when its quantities have an even number of
digits and its data is not empty. -/
theorem jsonToPyWithHexbytes_iff (hlawful : alloy.Lawful) {value : Json} (h : Fits none value) :
    jsonToPyWithHexbytes alloy value = .ok (denoted alloy none value) ↔ Converts none value :=
  jsonToPyInner_iff hlawful value none h

end Convert

/-! ## Samples -/

def sampleAlloy : Alloy where
  decode := fun s =>
    okOr (readHex ((stripStart "0x".toList s).getD s)) "invalid hex".toList
  toChecksum := fun address => "0x".toList ++ lowerHex (beBytes 20 address.toNat)

theorem sampleAlloy_lawful : sampleAlloy.Lawful where
  decode_eq_ok := by
    intro s bytes
    change okOr _ _ = _ ↔ _
    rw [okOr_eq_ok]
    cases hmark : stripStart "0x".toList s with
    | none =>
        rw [Option.getD_none]
        constructor
        · intro h
          exact ⟨s, .inl rfl, h⟩
        · rintro ⟨digits, rfl | rfl, h⟩
          · exact h
          · rw [stripStart_append] at hmark
            cases hmark
    | some rest =>
        rw [Option.getD_some]
        have hs := eq_append_of_stripStart hmark
        constructor
        · intro h
          exact ⟨rest, .inr hs, h⟩
        · rintro ⟨digits, rfl | rfl, h⟩
          · -- An `x` is no digit.
            rw [hs] at h
            cases h
          · rw [stripStart_append] at hmark
            cases hmark
            exact h

def sampleReceipt : Json :=
  .object [("gas_used", .string "0x5208".toList),
    ("logs", .array [.object [("data", .string "0xab01".toList),
      ("topics", .array [.string "0xff".toList])]])]

theorem sampleReceipt_fits : Fits none sampleReceipt := by
  have hgas : Quantity "0x5208".toList "5208".toList :=
    ⟨rfl, by decide, List.all_eq_true.mp (by decide), .inr (by decide), by decide⟩
  have hdata : HexData "0xab01".toList "ab01".toList :=
    ⟨rfl, List.all_eq_true.mp (by decide), rfl⟩
  have htopic : HexData "0xff".toList "ff".toList := ⟨rfl, List.all_eq_true.mp (by decide), rfl⟩
  refine ⟨⟨fun _ => ⟨_, hgas⟩, fun h => ?_, fun h => ?_⟩, ⟨⟨⟨fun h => ?_, fun _ => ⟨_, hdata⟩,
    fun h => ?_⟩, ⟨⟨fun h => ?_, fun _ => ⟨_, htopic⟩, fun h => ?_⟩, trivial⟩, trivial⟩, trivial⟩,
    trivial⟩
  all_goals exact absurd h (by decide)

theorem jsonToPyWithHexbytes_iff_sample :
    jsonToPyWithHexbytes sampleAlloy sampleReceipt = .ok (.dict [("gas_used", .int 21000),
      ("logs", .list [.dict [("data", .hexBytes [0xab, 0x01]),
        ("topics", .list [.hexBytes [0xff]])]])]) := by
  have hconverts : Converts none sampleReceipt := by
    refine ⟨⟨fun _ => rfl, fun h => ?_⟩, ⟨⟨⟨fun h => ?_, fun _ => by decide⟩,
      ⟨⟨fun h => ?_, fun _ => by decide⟩, trivial⟩, trivial⟩, trivial⟩, trivial⟩
    all_goals exact absurd h (by decide)
  exact (jsonToPyWithHexbytes_iff sampleAlloy_lawful sampleReceipt_fits).mpr hconverts

/-- A quantity of one digit is refused. -/
theorem jsonToPyWithHexbytes_refused :
    ¬ ∀ (alloy : Alloy) (value : Json), alloy.Lawful → Fits none value →
      jsonToPyWithHexbytes alloy value = .ok (denoted alloy none value) := by
  intro h
  have hstatus : Quantity "0x1".toList "1".toList :=
    ⟨rfl, by decide, List.all_eq_true.mp (by decide), .inr (by decide), by decide⟩
  have hfits : Fits none (.object [("status", .string "0x1".toList)]) := by
    refine ⟨⟨fun _ => ⟨_, hstatus⟩, fun h => ?_, fun h => ?_⟩, trivial⟩
    all_goals exact absurd h (by decide)
  have hrun : jsonToPyWithHexbytes sampleAlloy (.object [("status", .string "0x1".toList)]) =
      .error (.valueError "Invalid hex number: invalid hex".toList) := by
    rfl
  have hconverted := h sampleAlloy _ sampleAlloy_lawful hfits
  rw [hrun] at hconverted
  cases hconverted

end Degenbot.PyConverters
