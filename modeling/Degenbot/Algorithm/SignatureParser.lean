import Degenbot.Algorithm.AbiTypes

/-! # `signature_parser.rs`

The parser is the characters that are left and the byte position of the first of them. -/

namespace Degenbot.SignatureParsing

open Library AbiTypes

/-- The texts of the errors are made from these. -/
inductive ParseError where
  | unexpectedChar (pos : ℕ) (expected : Str) (found : Char)
  | unexpectedEnd (pos : ℕ) (expected : Str)
  | invalidType (pos : ℕ) (err : AbiTypeError)
  | emptyFunctionName
  | unmatchedBracket (pos : ℕ)
deriving DecidableEq

structure ParsedSignature where
  name : Str
  inputs : List AbiType
  outputs : List AbiType
deriving DecidableEq

/-- The Unicode tables behind `char::is_alphabetic` and `char::is_numeric`. -/
structure CharTables where
  isAlphabetic : Char → Bool
  isNumeric : Char → Bool

def CharTables.isAlphanumeric (tables : CharTables) (c : Char) : Bool :=
  tables.isAlphabetic c || tables.isNumeric c

structure SignatureParser where
  chars : Str
  pos : ℕ
deriving DecidableEq

namespace SignatureParser

def new (input : Str) : SignatureParser := ⟨input, 0⟩

/-! ## Helper methods -/

def advance (p : SignatureParser) : SignatureParser :=
  match p.chars with
  | [] => p
  | c :: rest => ⟨rest, p.pos + c.utf8Size⟩

def skipFrom (pos : ℕ) : Str → SignatureParser
  | [] => ⟨[], pos⟩
  | c :: rest => if isWhitespace c then skipFrom (pos + c.utf8Size) rest else ⟨c :: rest, pos⟩

def skipWhitespace (p : SignatureParser) : SignatureParser := skipFrom p.pos p.chars

def peekChar (p : SignatureParser) (expected : Char) : Bool := p.chars.head? = some expected

/-- `peek().copied().unwrap_or('\0')`. -/
def found (p : SignatureParser) : Char := p.chars.head?.getD (Char.ofNat 0)

def quoted (c : Char) : Str := ['\'', c, '\'']

def expectChar (p : SignatureParser) (expected : Char) : Except ParseError SignatureParser :=
  match p.chars with
  | [] => .error (.unexpectedEnd p.pos (quoted expected))
  | c :: _ =>
      if c = expected then .ok p.advance else .error (.unexpectedChar p.pos (quoted expected) c)

def eqIgnoreAsciiCase (a b : Char) : Bool := a.toLower = b.toLower

def peekKeyword (p : SignatureParser) (keyword : Str) : Bool :=
  (p.chars.take keyword.length).map Char.toLower = keyword.map Char.toLower

def consumeKeyword (p : SignatureParser) : Str → Except ParseError SignatureParser
  | [] => .ok p
  | expected :: keyword =>
      match p.chars with
      | [] => .error (.unexpectedEnd p.pos (quoted expected))
      | c :: _ =>
          if eqIgnoreAsciiCase c expected then p.advance.consumeKeyword keyword
          else .error (.unexpectedChar p.pos (quoted expected) c)

/-! ## Identifiers -/

section Tables

variable (tables : CharTables)

def identifierFrom (pos : ℕ) (result : Str) : Str → Str × SignatureParser
  | [] => (result, ⟨[], pos⟩)
  | c :: rest =>
      if tables.isAlphanumeric c ∨ c = '_' then
        identifierFrom (pos + c.utf8Size) (result ++ [c]) rest
      else (result, ⟨c :: rest, pos⟩)

def parseIdentifier (p : SignatureParser) : Except ParseError (Str × SignatureParser) :=
  match p.chars with
  | [] => .error (.unexpectedEnd p.pos "function name".toList)
  | c :: rest =>
      if tables.isAlphabetic c ∨ c = '_' then
        .ok (identifierFrom tables (p.pos + c.utf8Size) [c] rest)
      else .error (.unexpectedChar p.pos "letter or '_'".toList c)

end Tables

/-! ## Types -/

/-- The loop of `collect_type_string`. -/
def collectFrom (depth pos : ℕ) (result : Str) : Str → Except ParseError (Str × SignatureParser)
  | [] => if depth > 0 then .error (.unmatchedBracket pos) else .ok (result, ⟨[], pos⟩)
  | c :: rest =>
      if (c = ')' ∨ c = ',') ∧ depth = 0 then .ok (result, ⟨c :: rest, pos⟩)
      else if c = '[' then collectFrom (depth + 1) (pos + c.utf8Size) (result ++ [c]) rest
      else if c = ']' then
        if depth = 0 then .ok (result, ⟨c :: rest, pos⟩)
        else collectFrom (depth - 1) (pos + c.utf8Size) (result ++ [c]) rest
      else if isWhitespace c ∧ depth = 0 then .ok (result, ⟨c :: rest, pos⟩)
      else collectFrom depth (pos + c.utf8Size) (result ++ [c]) rest

def collectTypeString (p : SignatureParser) : Except ParseError (Str × SignatureParser) :=
  collectFrom 0 p.pos [] p.chars

theorem length_skipFrom (pos : ℕ) (s : Str) : (skipFrom pos s).chars.length ≤ s.length := by
  induction s generalizing pos with
  | nil => exact le_rfl
  | cons c rest ih =>
      unfold skipFrom
      split_ifs
      · exact (ih _).trans (Nat.le_succ _)
      · exact le_rfl

theorem length_collectFrom {depth pos : ℕ} {result s typeStr : Str} {q : SignatureParser}
    (h : collectFrom depth pos result s = .ok (typeStr, q)) : q.chars.length ≤ s.length := by
  induction s generalizing depth pos result with
  | nil =>
      unfold collectFrom at h
      split_ifs at h
      cases h
      exact le_rfl
  | cons c rest ih =>
      unfold collectFrom at h
      split_ifs at h
      · cases h
        exact le_rfl
      · exact (ih h).trans (Nat.le_succ _)
      · cases h
        exact le_rfl
      · exact (ih h).trans (Nat.le_succ _)
      · cases h
        exact le_rfl
      · exact (ih h).trans (Nat.le_succ _)

theorem length_advance {p : SignatureParser} {c : Char} (h : p.peekChar c = true) :
    p.advance.chars.length < p.chars.length := by
  obtain ⟨chars, pos⟩ := p
  cases chars with
  | nil => simp [peekChar] at h
  | cons d rest => exact Nat.lt_succ_self _

/-- The `loop` of `parse_type_list`. -/
def typeListLoop (p : SignatureParser) (types : List AbiType) :
    Except ParseError (List AbiType × SignatureParser) :=
  match _hcollect : p.skipWhitespace.collectTypeString with
  | .error e => .error e
  | .ok (typeStr, q) =>
      if typeStr = [] then .error (.unexpectedChar q.pos "type name".toList q.found)
      else
        match AbiType.parse typeStr with
        | .error e => .error (.invalidType p.skipWhitespace.pos e)
        | .ok abiType =>
            if _hcomma : q.skipWhitespace.peekChar ',' then
              typeListLoop q.skipWhitespace.advance (types ++ [abiType])
            else if q.skipWhitespace.peekChar ')' then .ok (types ++ [abiType], q.skipWhitespace)
            else .error (.unexpectedChar q.skipWhitespace.pos "',' or ')'".toList
              q.skipWhitespace.found)
termination_by p.chars.length
decreasing_by
  exact (length_advance _hcomma).trans_le ((length_skipFrom _ _).trans
    ((length_collectFrom _hcollect).trans (length_skipFrom _ _)))

def parseTypeList (p : SignatureParser) : Except ParseError (List AbiType × SignatureParser) :=
  if p.skipWhitespace.peekChar ')' then .ok ([], p.skipWhitespace)
  else p.skipWhitespace.typeListLoop []

/-! ## Signatures -/

def parseReturnsClause (p : SignatureParser) :
    Except ParseError (List AbiType × SignatureParser) :=
  if ¬p.skipWhitespace.peekKeyword "returns".toList then .ok ([], p.skipWhitespace)
  else do
    let p ← p.skipWhitespace.consumeKeyword "returns".toList
    let p ← p.skipWhitespace.expectChar '('
    let (outputs, p) ← p.parseTypeList
    let p ← p.expectChar ')'
    .ok (outputs, p)

def parse (tables : CharTables) (p : SignatureParser) : Except ParseError ParsedSignature := do
  let (name, p) ← p.skipWhitespace.parseIdentifier tables
  if name = [] then .error .emptyFunctionName
  else do
    let p ← p.skipWhitespace.expectChar '('
    let (inputs, p) ← p.parseTypeList
    let p ← p.expectChar ')'
    let (outputs, p) ← p.parseReturnsClause
    if p.skipWhitespace.chars ≠ [] then
      .error (.unexpectedChar p.skipWhitespace.pos "end of input".toList p.skipWhitespace.found)
    else .ok ⟨name, inputs, outputs⟩

end SignatureParser

def parseSignature (tables : CharTables) (input : Str) : Except ParseError ParsedSignature :=
  (SignatureParser.new input).parse tables

namespace ParsedSignature

def joinTypes (types : List AbiType) : Str := List.intercalate [','] (types.map AbiType.typeStr)

def toSignatureString (signature : ParsedSignature) : Str :=
  signature.name ++ '(' :: joinTypes signature.inputs ++ [')']

def toFullSignatureString (signature : ParsedSignature) : Str :=
  if signature.outputs = [] then signature.name ++ '(' :: joinTypes signature.inputs ++ [')']
  else
    signature.name ++ '(' :: joinTypes signature.inputs ++ ") returns (".toList ++
      joinTypes signature.outputs ++ [')']

end ParsedSignature

end Degenbot.SignatureParsing
