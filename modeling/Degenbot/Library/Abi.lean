import Degenbot.Library.HeadTail

/-! # The contract ABI

Values, types, the standard encoding and a decoder that follows the type. -/

namespace Degenbot.Library.Abi

open HeadTail

inductive Value where
  | uint (bits value : ℕ)
  | address (value : ℕ)
  | bytes (data : List UInt8)
  | array (elements : List Value)
  | tuple (fields : List Value)

inductive Ty where
  | uint (bits : ℕ)
  | address
  | bytes
  | array (element : Ty)
  | tuple (fields : List Ty)

/-! ## Encoding -/

mutual

def Value.dynamic : Value → Bool
  | .uint .. | .address _ => false
  | .bytes _ | .array _ => true
  | .tuple fields => anyDynamic fields

def anyDynamic : List Value → Bool
  | [] => false
  | value :: values => value.dynamic || anyDynamic values

end

def padding (length : ℕ) : ℕ := (32 - length % 32) % 32

def bytesTail (data : List UInt8) : List UInt8 :=
  word data.length ++ data ++ List.replicate (padding data.length) 0

mutual

def Value.encode : Value → List UInt8
  | .uint _ value => word value
  | .address value => word value
  | .bytes data => bytesTail data
  | .array elements => word elements.length ++ layout (parts elements)
  | .tuple fields => layout (parts fields)

def parts : List Value → List Part
  | [] => []
  | value :: values => ⟨value.dynamic, value.encode⟩ :: parts values

end

@[simp] theorem encode_uint (bits value : ℕ) : (Value.uint bits value).encode = word value := by
  rfl

@[simp] theorem encode_address (value : ℕ) : (Value.address value).encode = word value := by
  rfl

@[simp] theorem encode_bytes (data : List UInt8) : (Value.bytes data).encode = bytesTail data := by
  rfl

/-- The arguments of a call. -/
def encodeArgs (values : List Value) : List UInt8 := layout (parts values)

/-! ## Types -/

mutual

def Ty.dynamic : Ty → Bool
  | .uint _ | .address => false
  | .bytes | .array _ => true
  | .tuple fields => anyDynamicTy fields

def anyDynamicTy : List Ty → Bool
  | [] => false
  | type :: types => type.dynamic || anyDynamicTy types

end

mutual

def Ty.admits : Ty → Value → Bool
  | .uint bits, .uint bits' value => bits == bits' && bits ≤ 256 && value < 2 ^ bits
  | .address, .address value => value < 2 ^ 160
  | .bytes, .bytes _ => true
  | .array element, .array elements =>
      elements.length < 2 ^ 256 && elements.all element.admits
  | .tuple fields, .tuple values => admitAll fields values
  | _, _ => false

def admitAll : List Ty → List Value → Bool
  | [], [] => true
  | type :: types, value :: values => type.admits value && admitAll types values
  | _, _ => false

end

@[simp] theorem admits_tuple (fields : List Ty) (values : List Value) :
    (Ty.tuple fields).admits (.tuple values) = admitAll fields values := by
  rfl

@[simp] theorem admits_bytes (data : List UInt8) : Ty.bytes.admits (.bytes data) = true := by
  rfl

@[simp] theorem admitAll_nil : admitAll [] [] = true := by
  rfl

@[simp] theorem admitAll_cons (type : Ty) (types : List Ty) (value : Value)
    (values : List Value) :
    admitAll (type :: types) (value :: values) = (type.admits value && admitAll types values) := by
  rfl

theorem admits_uint {bits value : ℕ} (hbits : bits ≤ 256) (h : value < 2 ^ bits) :
    (Ty.uint bits).admits (.uint bits value) = true := by
  simp [Ty.admits, hbits, h]

theorem admits_address {value : ℕ} (h : value < 2 ^ 160) :
    Ty.address.admits (.address value) = true := by
  rw [Ty.admits]
  exact decide_eq_true h

theorem admits_array {element : Ty} {elements : List Value} (hlength : elements.length < 2 ^ 256)
    (h : ∀ value ∈ elements, element.admits value = true) :
    (Ty.array element).admits (.array elements) = true := by
  rw [Ty.admits, Bool.and_eq_true]
  exact ⟨decide_eq_true hlength, List.all_eq_true.mpr h⟩

/-! ## Decoding -/

mutual

/-- The length of a static encoding. -/
def Ty.staticLength : Ty → ℕ
  | .tuple fields => staticLengths fields
  | _ => 32

def staticLengths : List Ty → ℕ
  | [] => 0
  | type :: types => type.staticLength + staticLengths types

end

def Ty.headLength (type : Ty) : ℕ := if type.dynamic then 32 else type.staticLength

def decodeWord (bound : ℕ) (ofWord : ℕ → Value) (data : List UInt8) : Option Value := do
  let value ← readWord data
  if value < bound then some (ofWord value) else none

def decodeBytes (data : List UInt8) : Option (List UInt8) := do
  let length ← readWord data
  if length ≤ (data.drop 32).length then some ((data.drop 32).take length) else none

mutual

def Ty.decode : Ty → List UInt8 → Option Value
  | .uint bits => decodeWord (2 ^ bits) (.uint bits)
  | .address => decodeWord (2 ^ 160) .address
  | .bytes => fun data => (decodeBytes data).map .bytes
  | .array element => fun data => do
      let length ← readWord data
      let elements ← readAll
        (List.replicate length ⟨element.dynamic, element.headLength, element.decode⟩)
        (data.drop 32) 0
      some (.array elements)
  | .tuple fields => fun data => (readAll (readers fields) data 0).map .tuple

def readers : List Ty → List (Reader Value)
  | [] => []
  | type :: types => ⟨type.dynamic, type.headLength, type.decode⟩ :: readers types

end

def decodeArgs (types : List Ty) (data : List UInt8) : Option (List Value) :=
  readAll (readers types) data 0

/-! ## Encodings of a type -/

theorem parts_eq_map (values : List Value) :
    parts values = values.map fun value => ⟨value.dynamic, value.encode⟩ := by
  induction values with
  | nil => rfl
  | cons value values ih => rw [parts, ih, List.map_cons]

mutual

theorem dynamic_eq_of_admits : ∀ {type : Ty} {value : Value}, type.admits value →
    type.dynamic = value.dynamic
  | .uint _, .uint .., _ => rfl
  | .address, .address _, _ => rfl
  | .bytes, .bytes _, _ => rfl
  | .array _, .array _, _ => rfl
  | .tuple _, .tuple _, h => by
      rw [Ty.admits] at h
      exact anyDynamic_eq_of_admitAll h

theorem anyDynamic_eq_of_admitAll : ∀ {types : List Ty} {values : List Value},
    admitAll types values → anyDynamicTy types = anyDynamic values
  | [], [], _ => rfl
  | _ :: _, _ :: _, h => by
      rw [admitAll, Bool.and_eq_true] at h
      rw [anyDynamicTy, anyDynamic, dynamic_eq_of_admits h.1, anyDynamic_eq_of_admitAll h.2]

end

mutual

theorem length_encode_of_static : ∀ {type : Ty} {value : Value}, type.admits value →
    type.dynamic = false → value.encode.length = type.staticLength
  | .uint _, .uint .., _, _ => length_word _
  | .address, .address _, _, _ => length_word _
  | .tuple _, .tuple _, h, hstatic => by
      rw [Ty.admits] at h
      rw [Ty.dynamic] at hstatic
      rw [Value.encode, Ty.staticLength]
      exact length_layout_of_static h hstatic

theorem length_layout_of_static : ∀ {types : List Ty} {values : List Value},
    admitAll types values → anyDynamicTy types = false →
      (layout (parts values)).length = staticLengths types
  | [], [], _, _ => rfl
  | type :: types, value :: values, h, hstatic => by
      rw [admitAll, Bool.and_eq_true] at h
      rw [anyDynamicTy, Bool.or_eq_false_iff] at hstatic
      have hvalue := length_encode_of_static h.1 hstatic.1
      have hvalues := length_layout_of_static h.2 hstatic.2
      rw [length_layout] at hvalues
      have hdynamic : value.dynamic = false := (dynamic_eq_of_admits h.1).symm.trans hstatic.1
      simp only [length_layout, parts, hdynamic, headLength, tails, List.map_cons, List.sum_cons,
        Part.headLength, Bool.false_eq_true, if_false, staticLengths] at hvalues ⊢
      omega

end

/-! ## Round trip -/

theorem length_encoding_le {part : Part} {parts : List Part} (h : part ∈ parts) :
    part.encoding.length ≤ (layout parts).length := by
  rw [length_layout]
  induction parts with
  | nil => simp at h
  | cons first parts ih =>
      obtain ⟨dynamic, encoding⟩ := first
      have hrest : part ∈ parts → part.encoding.length ≤ headLength parts + (tails parts).length :=
        ih
      simp only [headLength, List.map_cons, List.sum_cons] at hrest ⊢
      cases dynamic <;> rcases List.mem_cons.mp h with rfl | hmem <;>
        simp only [Part.headLength, tails, if_true, Bool.false_eq_true, if_false,
          List.length_append] <;> grind

theorem headLength_eq_of_admits {type : Ty} {value : Value} (h : type.admits value) :
    type.headLength = Part.headLength ⟨value.dynamic, value.encode⟩ := by
  have hdynamic := dynamic_eq_of_admits h
  unfold Ty.headLength Part.headLength
  rw [hdynamic]
  cases hvalue : value.dynamic with
  | true => rfl
  | false =>
      rw [hvalue] at hdynamic
      simp [length_encode_of_static h hdynamic]

/-- Elements of one type are found by as many copies of its reader. -/
theorem finds_replicate {type : Ty} {values : List Value}
    (hadmits : ∀ value ∈ values, type.admits value)
    (hdecode : ∀ value ∈ values, ∀ rest, type.decode (value.encode ++ rest) = some value) :
    Finds (List.replicate values.length ⟨type.dynamic, type.headLength, type.decode⟩)
      (parts values) values := by
  induction values with
  | nil => exact .nil
  | cons value values ih =>
      have hvalue := hadmits value List.mem_cons_self
      refine .cons ⟨dynamic_eq_of_admits hvalue, headLength_eq_of_admits hvalue,
        hdecode value List.mem_cons_self⟩ (ih ?_ ?_)
      · exact fun other hother => hadmits other (List.mem_cons_of_mem value hother)
      · exact fun other hother => hdecode other (List.mem_cons_of_mem value hother)

theorem decodeWord_word {bound n : ℕ} (ofWord : ℕ → Value) (hbound : n < bound)
    (hfits : n < 2 ^ 256) (rest : List UInt8) :
    decodeWord bound ofWord (word n ++ rest) = some (ofWord n) := by
  simp [decodeWord, readWord_word_append hfits, hbound]

theorem decodeBytes_bytesTail {data : List UInt8} (h : data.length < 2 ^ 256)
    (rest : List UInt8) : decodeBytes (bytesTail data ++ rest) = some data := by
  have hdrop : (bytesTail data ++ rest).drop 32 =
      data ++ (List.replicate (padding data.length) 0 ++ rest) := by
    simp only [bytesTail, List.append_assoc]
    exact List.drop_left' (length_word _)
  have hword : readWord (bytesTail data ++ rest) = some data.length := by
    simp only [bytesTail, List.append_assoc]
    exact readWord_word_append h _
  simp [decodeBytes, hword, hdrop]

mutual

theorem decode_encode : ∀ {type : Ty} {value : Value}, type.admits value →
    value.encode.length < 2 ^ 256 → ∀ rest, type.decode (value.encode ++ rest) = some value
  | .uint bits, .uint bits' value, h => fun _ rest => by
      simp only [Ty.admits, Bool.and_eq_true, beq_iff_eq, decide_eq_true_eq] at h
      obtain ⟨⟨rfl, hbits⟩, hvalue⟩ := h
      have hfits : value < 2 ^ 256 := hvalue.trans_le (Nat.pow_le_pow_right (by decide) hbits)
      rw [Ty.decode, Value.encode]
      exact decodeWord_word (.uint bits) hvalue hfits rest
  | .address, .address value, h => fun _ rest => by
      simp only [Ty.admits, decide_eq_true_eq] at h
      rw [Ty.decode, Value.encode]
      exact decodeWord_word .address h (h.trans (by norm_num)) rest
  | .bytes, .bytes data, _ => fun hfits rest => by
      have hlength : data.length < 2 ^ 256 := by
        simp only [Value.encode, bytesTail, List.length_append] at hfits
        omega
      simp [Ty.decode, Value.encode, decodeBytes_bytesTail hlength]
  | .array element, .array elements, h => fun hfits rest => by
      simp only [Ty.admits, Bool.and_eq_true, decide_eq_true_eq, List.all_eq_true] at h
      simp only [Value.encode, List.length_append, length_word] at hfits
      have hdecode : ∀ value ∈ elements, ∀ rest,
          element.decode (value.encode ++ rest) = some value := by
        intro value hvalue
        refine decode_encode (h.2 value hvalue) ?_
        have hmem : (⟨value.dynamic, value.encode⟩ : Part) ∈ parts elements := by
          rw [parts_eq_map]
          exact List.mem_map_of_mem hvalue
        have hle : value.encode.length ≤ (layout (parts elements)).length :=
          length_encoding_le hmem
        omega
      have hread := readAll_layout (finds_replicate h.2 hdecode) (by omega) rest
      simp only [Ty.decode, Value.encode, List.append_assoc, readWord_word_append h.1,
        List.drop_left' (length_word _), hread, Option.bind_eq_bind, Option.bind_some]
  | .tuple fields, .tuple values, h => fun hfits rest => by
      rw [Ty.admits] at h
      rw [Value.encode] at hfits ⊢
      have hread := readAll_layout (finds_readers h fun part hpart =>
        (length_encoding_le hpart).trans_lt hfits) hfits rest
      simp only [Ty.decode, hread, Option.map_some]

theorem finds_readers : ∀ {types : List Ty} {values : List Value}, admitAll types values →
    (∀ part ∈ parts values, part.encoding.length < 2 ^ 256) →
      Finds (readers types) (parts values) values
  | [], [], _ => fun _ => .nil
  | type :: types, value :: values, h => fun hfits => by
      rw [admitAll, Bool.and_eq_true] at h
      rw [parts] at hfits ⊢
      rw [readers]
      refine .cons ⟨dynamic_eq_of_admits h.1, headLength_eq_of_admits h.1, ?_⟩ ?_
      · exact decode_encode h.1 (hfits _ List.mem_cons_self)
      · exact finds_readers h.2 fun part hpart => hfits part (List.mem_cons_of_mem _ hpart)

end

/-- A decoder that knows the types recovers the arguments. -/
theorem decodeArgs_encodeArgs {types : List Ty} {values : List Value} (h : admitAll types values)
    (hfits : (encodeArgs values).length < 2 ^ 256) :
    decodeArgs types (encodeArgs values) = some values := by
  have hread := readAll_layout (finds_readers h fun part hpart =>
    (length_encoding_le hpart).trans_lt hfits) hfits []
  simpa [decodeArgs, encodeArgs] using hread

end Degenbot.Library.Abi
