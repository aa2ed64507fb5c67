import Degenbot.Algorithm.SignatureParser
import Degenbot.Verification.AbiTypes.Parse

/-! # Printed signatures are read back

The printed form stays within what the character loops of the parser stop at: a name ends at
its parenthesis, a type at a comma or a parenthesis outside brackets. -/

namespace Degenbot.SignatureParsing

open Library AbiTypes SignatureParser

/-- What the parser relies on: a letter is not white space, and a parenthesis is no letter. -/
structure CharTables.Lawful (tables : CharTables) : Prop where
  alphabetic_not_space : ∀ c, tables.isAlphabetic c = true → isWhitespace c = false
  paren : tables.isAlphanumeric '(' = false

variable {tables : CharTables}

def utf8Length (s : Str) : ℕ := (s.map Char.utf8Size).sum

theorem utf8Length_cons (c : Char) (s : Str) : utf8Length (c :: s) = c.utf8Size + utf8Length s := by
  rw [utf8Length, List.map_cons, List.sum_cons, utf8Length]

/-! ## White space and single characters -/

theorem skipWhitespace_of_head {p : SignatureParser} {c : Char} {rest : Str}
    (hchars : p.chars = c :: rest) (hspace : isWhitespace c = false) : p.skipWhitespace = p := by
  obtain ⟨chars, pos⟩ := p
  subst hchars
  rw [skipWhitespace, skipFrom, hspace]
  rfl

theorem expectChar_self {c : Char} (rest : Str) (pos : ℕ) :
    expectChar ⟨c :: rest, pos⟩ c = .ok ⟨rest, pos + c.utf8Size⟩ := by
  unfold expectChar
  dsimp only
  rw [if_pos rfl]
  rfl

/-! ## Names -/

/-- A name that the parser returns. -/
def IsName (tables : CharTables) (name : Str) : Prop :=
  ∃ c rest, name = c :: rest ∧ (tables.isAlphabetic c = true ∨ c = '_') ∧
    ∀ d ∈ rest, tables.isAlphanumeric d = true ∨ d = '_'

theorem identifierFrom_append (pos : ℕ) (result : Str) {s : Str} {stop : Char} (rest : Str)
    (hs : ∀ d ∈ s, tables.isAlphanumeric d = true ∨ d = '_')
    (hstop : ¬(tables.isAlphanumeric stop = true ∨ stop = '_')) :
    identifierFrom tables pos result (s ++ stop :: rest) =
      (result ++ s, ⟨stop :: rest, pos + utf8Length s⟩) := by
  induction s generalizing pos result with
  | nil =>
      rw [List.nil_append, identifierFrom, if_neg hstop, List.append_nil]
      rfl
  | cons c s ih =>
      rw [List.cons_append, identifierFrom, if_pos (hs c List.mem_cons_self),
        ih _ _ fun d hd => hs d (List.mem_cons_of_mem c hd), utf8Length_cons, Nat.add_assoc,
        List.append_assoc]
      rfl

theorem identifierFrom_name {pos : ℕ} {result s : Str} {name : Str} {q : SignatureParser}
    (h : identifierFrom tables pos result s = (name, q)) :
    ∃ rest, name = result ++ rest ∧ ∀ d ∈ rest, tables.isAlphanumeric d = true ∨ d = '_' := by
  induction s generalizing pos result with
  | nil =>
      cases h
      exact ⟨[], (List.append_nil _).symm, fun d hd => absurd hd List.not_mem_nil⟩
  | cons c s ih =>
      rw [identifierFrom] at h
      split_ifs at h with hc
      · obtain ⟨rest, hname, hrest⟩ := ih h
        refine ⟨c :: rest, ?_, ?_⟩
        · rw [hname, List.append_assoc]
          rfl
        · intro d hd
          rcases List.mem_cons.mp hd with rfl | hd
          · exact hc
          · exact hrest d hd
      · cases h
        exact ⟨[], (List.append_nil _).symm, fun d hd => absurd hd List.not_mem_nil⟩

theorem isName_of_parseIdentifier {p q : SignatureParser} {name : Str}
    (h : p.parseIdentifier tables = .ok (name, q)) : IsName tables name := by
  unfold parseIdentifier at h
  split at h
  · cases h
  · rename_i c rest _
    split_ifs at h with hc
    obtain ⟨tail, hname, htail⟩ := identifierFrom_name (Except.ok.inj h)
    exact ⟨c, tail, hname, hc, htail⟩

theorem not_isWhitespace_of_isName (hlawful : tables.Lawful) {c : Char}
    (hc : tables.isAlphabetic c = true ∨ c = '_') : isWhitespace c = false := by
  rcases hc with hletter | rfl
  · exact hlawful.alphabetic_not_space c hletter
  · decide

theorem parseIdentifier_append (hlawful : tables.Lawful) {name : Str} (hname : IsName tables name)
    (rest : Str) (pos : ℕ) : ∃ q, q.chars = '(' :: rest ∧
      (SignatureParser.mk (name ++ '(' :: rest) pos).skipWhitespace.parseIdentifier tables =
        .ok (name, q) := by
  obtain ⟨c, tail, rfl, hc, htail⟩ := hname
  have hstop : ¬(tables.isAlphanumeric '(' = true ∨ '(' = '_') := by
    rw [hlawful.paren]
    decide
  rw [skipWhitespace_of_head (List.cons_append ..) (not_isWhitespace_of_isName hlawful hc),
    List.cons_append, parseIdentifier]
  dsimp only
  rw [if_pos hc, identifierFrom_append _ _ _ htail hstop]
  exact ⟨_, rfl, rfl⟩

/-! ## Types -/

/-- The characters of a type outside its brackets. -/
def isPlain (c : Char) : Bool := isTypeChar c && c ≠ '[' && c ≠ ']'

theorem isPlain_digit {c : Char} (h : c.isDigit = true) : isPlain c = true := by
  have hbounds := digit_bounds h
  have hne : c ≠ '[' ∧ c ≠ ']' := by
    constructor
    · rintro rfl
      exact absurd hbounds.2 (by decide)
    · rintro rfl
      exact absurd hbounds.2 (by decide)
  simp [isPlain, isTypeChar_of_isDigit h, hne]

/-- The loop of `collect_type_string` runs over plain characters at any depth. -/
theorem collectFrom_plain (depth pos : ℕ) (result : Str) {s : Str} (rest : Str)
    (hs : ∀ c ∈ s, isPlain c = true) :
    collectFrom depth pos result (s ++ rest) =
      collectFrom depth (pos + utf8Length s) (result ++ s) rest := by
  induction s generalizing pos result with
  | nil =>
      rw [List.nil_append, List.append_nil]
      rfl
  | cons c s ih =>
      have hc := hs c List.mem_cons_self
      simp only [isPlain, Bool.and_eq_true, decide_eq_true_eq] at hc
      have hspace := isWhitespace_of_isTypeChar hc.1.1
      have hparen : ¬((c = ')' ∨ c = ',') ∧ depth = 0) := by
        rintro ⟨rfl | rfl, _⟩
        · exact absurd hc.1.1 (by decide)
        · exact absurd hc.1.1 (by decide)
      rw [List.cons_append, collectFrom, if_neg hparen, if_neg hc.1.2, if_neg hc.2, hspace,
        if_neg (by simp), ih _ _ fun d hd => hs d (List.mem_cons_of_mem c hd), utf8Length_cons,
        Nat.add_assoc, List.append_assoc]
      rfl

theorem collectFrom_brackets (pos : ℕ) (result : Str) {s : Str} (rest : Str)
    (hs : ∀ c ∈ s, isPlain c = true) :
    collectFrom 0 pos result ('[' :: s ++ ']' :: rest) =
      collectFrom 0 (pos + utf8Length ('[' :: s ++ [']'])) (result ++ ('[' :: s ++ [']'])) rest := by
  have hlength : pos + utf8Length ('[' :: s ++ [']']) =
      pos + '['.utf8Size + utf8Length s + ']'.utf8Size := by
    simp only [utf8Length, List.map_append, List.map_cons, List.sum_append, List.sum_cons,
      List.map_nil, List.sum_nil]
    omega
  rw [List.cons_append, collectFrom, if_neg (by decide), if_pos rfl, collectFrom_plain _ _ _ _ hs,
    collectFrom, if_neg (by decide), if_neg (by decide), if_pos rfl, if_neg (by decide), hlength]
  simp

theorem typeStr_array (inner : AbiType) :
    (AbiType.array inner).typeStr = inner.typeStr ++ "[]".toList := rfl

theorem typeStr_fixedArray (inner : AbiType) (size : ℕ) :
    (AbiType.fixedArray inner size).typeStr = inner.typeStr ++ '[' :: decimal size ++ [']'] := rfl

theorem collected_append (s s' : Str) (pos : ℕ) (result rest : Str) :
    collectFrom 0 (pos + utf8Length s + utf8Length s') (result ++ s ++ s') rest =
      collectFrom 0 (pos + utf8Length (s ++ s')) (result ++ (s ++ s')) rest := by
  simp only [utf8Length, List.map_append, List.sum_append, List.append_assoc, Nat.add_assoc]

/-- A printed type is collected as a whole. -/
theorem collectFrom_typeStr (t : AbiType) (pos : ℕ) (result rest : Str) :
    collectFrom 0 pos result (t.typeStr ++ rest) =
      collectFrom 0 (pos + utf8Length t.typeStr) (result ++ t.typeStr) rest := by
  have hsized : ∀ (word : Str) (n : ℕ), word.all isPlain = true →
      ∀ c ∈ word ++ decimal n, isPlain c = true := by
    intro word n hword c hc
    rcases List.mem_append.mp hc with hc | hc
    · exact List.all_eq_true.mp hword c hc
    · exact isPlain_digit (isDigit_of_mem_decimal hc)
  induction t generalizing pos result rest with
  | address => exact collectFrom_plain _ _ _ _ (List.all_eq_true.mp (by decide))
  | bool => exact collectFrom_plain _ _ _ _ (List.all_eq_true.mp (by decide))
  | bytes => exact collectFrom_plain _ _ _ _ (List.all_eq_true.mp (by decide))
  | string => exact collectFrom_plain _ _ _ _ (List.all_eq_true.mp (by decide))
  | uint bits => exact collectFrom_plain _ _ _ _ (hsized _ bits (by decide))
  | int bits => exact collectFrom_plain _ _ _ _ (hsized _ bits (by decide))
  | fixedBytes size => exact collectFrom_plain _ _ _ _ (hsized _ size (by decide))
  | array inner ih =>
      have hbrackets := collectFrom_brackets (pos + utf8Length inner.typeStr)
        (result ++ inner.typeStr) rest (s := []) fun c hc => absurd hc List.not_mem_nil
      rw [typeStr_array, List.append_assoc, ih, ← collected_append]
      exact hbrackets
  | fixedArray inner size ih =>
      have hbrackets := collectFrom_brackets (pos + utf8Length inner.typeStr)
        (result ++ inner.typeStr) rest (s := decimal size) fun c hc =>
          isPlain_digit (isDigit_of_mem_decimal hc)
      rw [typeStr_fixedArray, List.append_assoc inner.typeStr, List.append_assoc, ih,
        ← collected_append, List.append_assoc]
      exact hbrackets

theorem typeStr_head (t : AbiType) :
    ∃ c rest, t.typeStr = c :: rest ∧ isWhitespace c = false ∧ c ≠ ')' := by
  induction t with
  | array inner ih =>
      obtain ⟨c, rest, hstr, hc⟩ := ih
      exact ⟨c, rest ++ "[]".toList, by rw [typeStr_array, hstr, List.cons_append], hc⟩
  | fixedArray inner size ih =>
      obtain ⟨c, rest, hstr, hc⟩ := ih
      refine ⟨c, rest ++ ('[' :: decimal size) ++ [']'], ?_, hc⟩
      rw [typeStr_fixedArray, hstr, List.cons_append, List.cons_append]
  | _ => exact ⟨_, _, rfl, by decide⟩

theorem collectTypeString_append (t : AbiType) (pos : ℕ) {stop : Char} (rest : Str)
    (hstop : stop = ')' ∨ stop = ',') :
    ∃ q, q.chars = stop :: rest ∧
      collectTypeString ⟨t.typeStr ++ stop :: rest, pos⟩ = .ok (t.typeStr, q) := by
  refine ⟨⟨stop :: rest, pos + utf8Length t.typeStr⟩, rfl, ?_⟩
  rw [collectTypeString]
  dsimp only
  rw [collectFrom_typeStr, collectFrom, if_pos ⟨hstop, rfl⟩, List.nil_append]

/-! ## Lists of types -/

open ParsedSignature

theorem joinTypes_singleton (t : AbiType) : joinTypes [t] = t.typeStr := by
  simp [joinTypes, List.intercalate]

theorem joinTypes_cons_cons (t t' : AbiType) (types : List AbiType) :
    joinTypes (t :: t' :: types) = t.typeStr ++ ',' :: joinTypes (t' :: types) := by
  simp [joinTypes, List.intercalate]

theorem joinTypes_head (t : AbiType) (types : List AbiType) :
    ∃ c rest, joinTypes (t :: types) = c :: rest ∧ isWhitespace c = false ∧ c ≠ ')' := by
  obtain ⟨c, rest, hstr, hc⟩ := typeStr_head t
  cases types with
  | nil => exact ⟨c, rest, by rw [joinTypes_singleton, hstr], hc⟩
  | cons t' types =>
      exact ⟨c, rest ++ ',' :: joinTypes (t' :: types),
        by rw [joinTypes_cons_cons, hstr, List.cons_append], hc⟩

/-- One round of the loop. -/
theorem typeListLoop_of_collect {p q : SignatureParser} {typeStr : Str} {t : AbiType}
    (hcollect : p.skipWhitespace.collectTypeString = .ok (typeStr, q)) (hne : typeStr ≠ [])
    (hparse : AbiType.parse typeStr = .ok t) (read : List AbiType) :
    typeListLoop p read =
      if q.skipWhitespace.peekChar ',' then
        typeListLoop q.skipWhitespace.advance (read ++ [t])
      else if q.skipWhitespace.peekChar ')' then .ok (read ++ [t], q.skipWhitespace)
      else .error (.unexpectedChar q.skipWhitespace.pos "',' or ')'".toList
        q.skipWhitespace.found) := by
  rw [typeListLoop]
  split
  · rename_i e herror
    cases hcollect.symm.trans herror
  · rename_i typeStr' q' hok
    obtain ⟨rfl, rfl⟩ := Prod.mk.inj (Except.ok.inj (hcollect.symm.trans hok))
    rw [if_neg hne, hparse]
    dsimp only
    split_ifs <;> rfl

/-- One round of the loop on a printed type. -/
theorem typeListLoop_append {t : AbiType} (hlegal : t.Legal) (read : List AbiType) (pos : ℕ)
    {stop : Char} (rest : Str) (hstop : stop = ')' ∨ stop = ',') :
    ∃ q, q.chars = stop :: rest ∧ typeListLoop ⟨t.typeStr ++ stop :: rest, pos⟩ read =
      if stop = ',' then typeListLoop q.advance (read ++ [t]) else .ok (read ++ [t], q) := by
  obtain ⟨q, hq, hcollect⟩ := collectTypeString_append t pos rest hstop
  obtain ⟨c, tail, hstr, hc, _⟩ := typeStr_head t
  have hskip : (SignatureParser.mk (t.typeStr ++ stop :: rest) pos).skipWhitespace =
      ⟨t.typeStr ++ stop :: rest, pos⟩ :=
    skipWhitespace_of_head (by rw [hstr, List.cons_append]) hc
  have hstopSpace : isWhitespace stop = false := by
    rcases hstop with rfl | rfl <;> decide
  have hne : t.typeStr ≠ [] := by
    rw [hstr]
    exact List.cons_ne_nil c tail
  have hpeek : ∀ d, q.peekChar d = decide (stop = d) := by
    intro d
    rw [peekChar, hq, List.head?_cons]
    simp
  refine ⟨q, hq, ?_⟩
  rw [← hskip] at hcollect
  rw [typeListLoop_of_collect hcollect hne (parse_typeStr hlegal),
    skipWhitespace_of_head hq hstopSpace, hpeek, hpeek]
  rcases hstop with rfl | rfl
  · rfl
  · rfl

theorem typeListLoop_joinTypes {t : AbiType} {types : List AbiType}
    (hlegal : ∀ u ∈ t :: types, u.Legal) (read : List AbiType) (pos : ℕ) (rest : Str) :
    ∃ q, q.chars = ')' :: rest ∧
      typeListLoop ⟨joinTypes (t :: types) ++ ')' :: rest, pos⟩ read =
        .ok (read ++ t :: types, q) := by
  induction types generalizing t read pos with
  | nil =>
      rw [joinTypes_singleton]
      exact typeListLoop_append (hlegal t List.mem_cons_self) read pos rest (.inl rfl)
  | cons t' types ih =>
      rw [joinTypes_cons_cons, List.append_assoc, List.cons_append]
      obtain ⟨q, hq, hround⟩ := typeListLoop_append (hlegal t List.mem_cons_self) read pos
        (joinTypes (t' :: types) ++ ')' :: rest) (.inr rfl)
      obtain ⟨chars, qpos⟩ := q
      subst hq
      obtain ⟨r, hr, hrest⟩ := ih (fun u hu => hlegal u (List.mem_cons_of_mem t hu)) (read ++ [t])
        (qpos + ','.utf8Size)
      rw [List.append_assoc] at hrest
      exact ⟨r, hr, hround.trans hrest⟩

theorem parseTypeList_joinTypes {types : List AbiType} (hlegal : ∀ u ∈ types, u.Legal) (pos : ℕ)
    (rest : Str) : ∃ q, q.chars = ')' :: rest ∧
      parseTypeList ⟨joinTypes types ++ ')' :: rest, pos⟩ = .ok (types, q) := by
  cases types with
  | nil =>
      refine ⟨⟨')' :: rest, pos⟩, rfl, ?_⟩
      have hskip : (SignatureParser.mk (')' :: rest) pos).skipWhitespace = ⟨')' :: rest, pos⟩ :=
        skipWhitespace_of_head rfl (by decide)
      have hempty : joinTypes [] = [] := rfl
      rw [hempty, List.nil_append, parseTypeList, hskip, if_pos (by simp [peekChar])]
  | cons t types =>
      obtain ⟨c, tail, hstr, hc, hparen⟩ := joinTypes_head t types
      have hskip : (SignatureParser.mk (joinTypes (t :: types) ++ ')' :: rest) pos).skipWhitespace =
          ⟨joinTypes (t :: types) ++ ')' :: rest, pos⟩ :=
        skipWhitespace_of_head (by rw [hstr, List.cons_append]) hc
      have hpeek : ¬(SignatureParser.mk (joinTypes (t :: types) ++ ')' :: rest) pos).peekChar ')' =
          true := by
        simp [peekChar, hstr, hparen]
      rw [parseTypeList, hskip, if_neg hpeek]
      exact typeListLoop_joinTypes hlegal [] pos rest

/-! ## What the parser returns -/

theorem legal_of_parse {s : Str} {t : AbiType} (h : AbiType.parse s = .ok t) : t.Legal :=
  (legal_of_parseAbiType h).1

theorem typeListLoop_eq_ok {p q : SignatureParser} {read types : List AbiType}
    (h : typeListLoop p read = .ok (types, q)) :
    ∃ typeStr rest t, p.skipWhitespace.collectTypeString = .ok (typeStr, rest) ∧
      typeStr ≠ [] ∧ AbiType.parse typeStr = .ok t := by
  rw [typeListLoop] at h
  split at h
  · cases h
  · rename_i typeStr rest hcollect
    by_cases hempty : typeStr = []
    · rw [if_pos hempty] at h
      cases h
    rw [if_neg hempty] at h
    cases hparse : AbiType.parse typeStr with
    | error e =>
        rw [hparse] at h
        cases h
    | ok t => exact ⟨typeStr, rest, t, hcollect, hempty, hparse⟩

theorem legal_of_typeListLoop {p q : SignatureParser} {read types : List AbiType}
    (h : typeListLoop p read = .ok (types, q)) (hread : ∀ t ∈ read, t.Legal) :
    ∀ t ∈ types, t.Legal := by
  induction hlength : p.chars.length using Nat.strongRecOn generalizing p read with
  | ind length ih =>
      obtain ⟨typeStr, rest, t, hcollect, hne, hparse⟩ := typeListLoop_eq_ok h
      have hread' : ∀ u ∈ read ++ [t], u.Legal := by
        intro u hu
        rcases List.mem_append.mp hu with hu | hu
        · exact hread u hu
        · rw [List.mem_singleton.mp hu]
          exact legal_of_parse hparse
      rw [typeListLoop_of_collect hcollect hne hparse] at h
      split_ifs at h with hcomma hparen
      · refine ih _ ?_ h hread' rfl
        rw [← hlength]
        exact (length_advance hcomma).trans_le ((length_skipFrom _ _).trans
          ((length_collectFrom hcollect).trans (length_skipFrom _ _)))
      · cases h
        exact hread'

theorem legal_of_parseTypeList {p q : SignatureParser} {types : List AbiType}
    (h : p.parseTypeList = .ok (types, q)) : ∀ t ∈ types, t.Legal := by
  unfold parseTypeList at h
  split_ifs at h
  · cases h
    exact fun t ht => absurd ht List.not_mem_nil
  · exact legal_of_typeListLoop h fun t ht => absurd ht List.not_mem_nil

theorem legal_of_parseReturnsClause {p q : SignatureParser} {types : List AbiType}
    (h : p.parseReturnsClause = .ok (types, q)) : ∀ t ∈ types, t.Legal := by
  unfold parseReturnsClause at h
  split_ifs at h
  · simp only [bind_eq_ok] at h
    obtain ⟨_, _, _, _, ⟨outputs, r⟩, hlist, _, _, hresult⟩ := h
    cases hresult
    exact legal_of_parseTypeList hlist
  · cases h
    exact fun t ht => absurd ht List.not_mem_nil

/-- A signature that the parser can return. -/
structure ParsedSignature.Valid (tables : CharTables) (signature : ParsedSignature) : Prop where
  name : IsName tables signature.name
  inputs : ∀ t ∈ signature.inputs, t.Legal
  outputs : ∀ t ∈ signature.outputs, t.Legal

theorem valid_of_parse {p : SignatureParser} {signature : ParsedSignature}
    (h : p.parse tables = .ok signature) : signature.Valid tables := by
  unfold SignatureParser.parse at h
  simp only [bind_eq_ok] at h
  obtain ⟨⟨name, p1⟩, hname, h⟩ := h
  dsimp only at h
  split_ifs at h
  simp only [bind_eq_ok] at h
  obtain ⟨p2, _, ⟨inputs, p3⟩, hinputs, p4, _, ⟨outputs, p5⟩, houtputs, h⟩ := h
  dsimp only at h
  split_ifs at h
  cases h
  exact ⟨isName_of_parseIdentifier hname, legal_of_parseTypeList hinputs,
    legal_of_parseReturnsClause houtputs⟩

/-! ## Main result -/

theorem parseReturnsClause_nil (pos : ℕ) :
    parseReturnsClause ⟨[], pos⟩ = .ok ([], ⟨[], pos⟩) := rfl

/-- The keyword and the parenthesis are read. -/
theorem parseReturnsClause_returns (tail : Str) (pos : ℕ) :
    parseReturnsClause ⟨" returns (".toList ++ tail, pos⟩ =
      (parseTypeList ⟨tail, pos + 10⟩ >>= fun list =>
        list.2.expectChar ')' >>= fun p => .ok (list.1, p)) := rfl

theorem parseReturnsClause_joinTypes {types : List AbiType} (hlegal : ∀ u ∈ types, u.Legal)
    (pos : ℕ) : ∃ q, q.chars = [] ∧
      parseReturnsClause ⟨" returns (".toList ++ (joinTypes types ++ [')']), pos⟩ =
        .ok (types, q) := by
  obtain ⟨⟨chars, qpos⟩, hq, hlist⟩ := parseTypeList_joinTypes hlegal (pos + 10) []
  subst hq
  refine ⟨⟨[], qpos + ')'.utf8Size⟩, rfl, ?_⟩
  rw [parseReturnsClause_returns, hlist, ok_bind]
  dsimp only
  rw [expectChar_self, ok_bind]

/-- A name and its inputs are read up to what follows the parenthesis. -/
theorem parse_eq (hlawful : tables.Lawful) {name : Str} (hname : IsName tables name)
    {inputs : List AbiType} (hinputs : ∀ t ∈ inputs, t.Legal) (rest : Str) :
    ∃ pos, parseSignature tables (name ++ '(' :: (joinTypes inputs ++ ')' :: rest)) =
      (parseReturnsClause ⟨rest, pos⟩ >>= fun clause =>
        if clause.2.skipWhitespace.chars ≠ [] then
          .error (.unexpectedChar clause.2.skipWhitespace.pos "end of input".toList
            clause.2.skipWhitespace.found)
        else .ok ⟨name, inputs, clause.1⟩) := by
  obtain ⟨⟨chars, pos1⟩, hchars, hidentifier⟩ :=
    parseIdentifier_append hlawful hname (joinTypes inputs ++ ')' :: rest) 0
  subst hchars
  obtain ⟨⟨chars, pos2⟩, hchars, hlist⟩ :=
    parseTypeList_joinTypes hinputs (pos1 + '('.utf8Size) rest
  subst hchars
  have hne : name ≠ [] := by
    obtain ⟨c, tail, rfl, _⟩ := hname
    exact List.cons_ne_nil c tail
  have hskip : (SignatureParser.mk ('(' :: (joinTypes inputs ++ ')' :: rest)) pos1).skipWhitespace =
      ⟨'(' :: (joinTypes inputs ++ ')' :: rest), pos1⟩ :=
    skipWhitespace_of_head rfl (by decide)
  refine ⟨pos2 + ')'.utf8Size, ?_⟩
  unfold parseSignature SignatureParser.new SignatureParser.parse
  rw [hidentifier, ok_bind]
  dsimp only
  rw [if_neg hne, hskip, expectChar_self, ok_bind, hlist, ok_bind]
  dsimp only
  rw [expectChar_self, ok_bind]

theorem parse_toFullSignatureString (hlawful : tables.Lawful) {signature : ParsedSignature}
    (h : signature.Valid tables) :
    parseSignature tables signature.toFullSignatureString = .ok signature := by
  obtain ⟨name, inputs, outputs⟩ := signature
  unfold toFullSignatureString
  split_ifs with hempty
  · obtain ⟨pos, hparse⟩ := parse_eq hlawful h.name h.inputs []
    obtain rfl : outputs = [] := hempty
    rw [List.append_assoc, List.cons_append, hparse, parseReturnsClause_nil, ok_bind]
    rfl
  · obtain ⟨pos, hparse⟩ := parse_eq hlawful h.name h.inputs
      (" returns (".toList ++ (joinTypes outputs ++ [')']))
    obtain ⟨q, hq, hclause⟩ := parseReturnsClause_joinTypes h.outputs pos
    have hskip : q.skipWhitespace.chars = [] := by
      obtain ⟨chars, qpos⟩ := q
      subst hq
      rfl
    rw [hclause, ok_bind] at hparse
    dsimp only at hparse
    rw [if_neg (not_not.mpr hskip)] at hparse
    rw [← hparse]
    congr 1
    simp

/-- Whatever the parser accepts is read back from its full text. -/
theorem parseSignature_roundTrip (hlawful : tables.Lawful) {s : Str} {signature : ParsedSignature}
    (h : parseSignature tables s = .ok signature) :
    parseSignature tables signature.toFullSignatureString = .ok signature :=
  parse_toFullSignatureString hlawful (valid_of_parse h)

/-- The tables on ASCII. -/
def asciiTables : CharTables := ⟨Char.isAlpha, Char.isDigit⟩

theorem asciiTables_lawful : asciiTables.Lawful where
  alphabetic_not_space := by
    intro c hc
    apply isWhitespace_of_bounds
    rcases Bool.or_eq_true_iff.mp hc with hupper | hlower
    · have hletter := of_decide_eq_true hupper
      have hlow : 65 ≤ c.toNat := hletter.1
      have hhigh : c.toNat ≤ 90 := hletter.2
      omega
    · have hletter := Bool.and_eq_true_iff.mp hlower
      have hlow : 97 ≤ c.toNat := of_decide_eq_true hletter.1
      have hhigh : c.toNat ≤ 122 := of_decide_eq_true hletter.2
      omega
  paren := rfl

theorem transfer_roundTrip :
    parseSignature asciiTables (ParsedSignature.mk "transfer".toList
        [.address, .array (.fixedArray (.uint 256) 3)] [.bool]).toFullSignatureString =
      .ok ⟨"transfer".toList, [.address, .array (.fixedArray (.uint 256) 3)], [.bool]⟩ :=
  parseSignature_roundTrip asciiTables_lawful
    (s := " transfer( address, uint[3][] ) RETURNS (bool )".toList) (by decide +kernel)

end Degenbot.SignatureParsing
