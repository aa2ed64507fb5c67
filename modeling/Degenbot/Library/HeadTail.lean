import Degenbot.Library.Digits

/-! # Head and tail layout

A sequence is laid out as heads followed by tails. A static part sits in the heads, a
dynamic part in the tails behind an offset that counts from the start of the heads. -/

namespace Degenbot.Library.HeadTail

/-! ## Words -/

def word (n : ℕ) : List UInt8 := beBytes 32 n

def readWord (data : List UInt8) : Option ℕ :=
  if 32 ≤ data.length then some (beValue (data.take 32)) else none

@[simp] theorem length_word (n : ℕ) : (word n).length = 32 := length_beBytes 32 n

theorem readWord_word_append {n : ℕ} (h : n < 2 ^ 256) (rest : List UInt8) :
    readWord (word n ++ rest) = some n := by
  have htake : (word n ++ rest).take 32 = word n := List.take_left' (length_word n)
  have hvalue : beValue (word n) = n := by
    refine beValue_beBytes_of_lt (h.trans_le ?_)
    norm_num
  simp [readWord, htake, hvalue]

theorem word_inj {n m : ℕ} (h : word n = word m) : n % 2 ^ 256 = m % 2 ^ 256 := by
  have hvalue := congrArg beValue h
  simpa only [word, beValue_beBytes, show 256 ^ 32 = 2 ^ 256 by norm_num] using hvalue

/-! ## Writing -/

structure Part where
  dynamic : Bool
  encoding : List UInt8

def Part.headLength (part : Part) : ℕ := if part.dynamic then 32 else part.encoding.length

/-- `offset` is where the tail of the next dynamic part starts. -/
def heads : ℕ → List Part → List UInt8
  | _, [] => []
  | offset, ⟨false, encoding⟩ :: parts => encoding ++ heads offset parts
  | offset, ⟨true, encoding⟩ :: parts => word offset ++ heads (offset + encoding.length) parts

def tails : List Part → List UInt8
  | [] => []
  | ⟨false, _⟩ :: parts => tails parts
  | ⟨true, encoding⟩ :: parts => encoding ++ tails parts

def headLength (parts : List Part) : ℕ := (parts.map Part.headLength).sum

def layout (parts : List Part) : List UInt8 := heads (headLength parts) parts ++ tails parts

theorem length_heads (offset : ℕ) (parts : List Part) :
    (heads offset parts).length = headLength parts := by
  induction parts generalizing offset with
  | nil => rfl
  | cons part parts ih =>
      obtain ⟨dynamic, encoding⟩ := part
      cases dynamic <;> simp [heads, headLength, Part.headLength] <;> exact ih _

theorem length_layout (parts : List Part) :
    (layout parts).length = headLength parts + (tails parts).length := by
  rw [layout, List.length_append, length_heads]

/-- The layout of dynamic parts only. -/
theorem headLength_dynamic (encodings : List (List UInt8)) :
    headLength (encodings.map fun encoding => ⟨true, encoding⟩) = encodings.length * 32 := by
  simp [headLength, Part.headLength, Function.comp_def, List.map_const']

theorem tails_dynamic (encodings : List (List UInt8)) :
    tails (encodings.map fun encoding => ⟨true, encoding⟩) = encodings.flatten := by
  induction encodings with
  | nil => rfl
  | cons encoding encodings ih => rw [List.map_cons, tails, ih, List.flatten_cons]

/-- The layout of static parts only. -/
theorem layout_static (encodings : List (List UInt8)) :
    layout (encodings.map fun encoding => ⟨false, encoding⟩) = encodings.flatten := by
  have htails : tails (encodings.map fun encoding => ⟨false, encoding⟩) = [] := by
    induction encodings with
    | nil => rfl
    | cons encoding encodings ih => rw [List.map_cons, tails, ih]
  have hheads (offset : ℕ) :
      heads offset (encodings.map fun encoding => ⟨false, encoding⟩) = encodings.flatten := by
    induction encodings with
    | nil => rfl
    | cons encoding encodings ih =>
        rw [List.map_cons, heads, ih (by simpa [tails] using htails), List.flatten_cons]
  rw [layout, hheads, htails, List.append_nil]

/-! ## Reading -/

structure Reader (α : Type) where
  dynamic : Bool
  headLength : ℕ
  decode : List UInt8 → Option α

variable {α : Type}

/-- The element whose head is at `position` of the frame. -/
def Reader.read (reader : Reader α) (frame : List UInt8) (position : ℕ) : Option α :=
  if reader.dynamic then do
    let offset ← readWord (frame.drop position)
    reader.decode (frame.drop offset)
  else reader.decode (frame.drop position)

def readAll : List (Reader α) → List UInt8 → ℕ → Option (List α)
  | [], _, _ => some []
  | reader :: readers, frame, position => do
      let value ← reader.read frame position
      let values ← readAll readers frame (position + reader.headLength)
      some (value :: values)

/-- The reader finds the value in the part, whatever follows it. -/
structure Reader.Finds (reader : Reader α) (part : Part) (value : α) : Prop where
  dynamic_eq : reader.dynamic = part.dynamic
  headLength_eq : reader.headLength = part.headLength
  decode_eq : ∀ rest, reader.decode (part.encoding ++ rest) = some value

/-- Each reader finds its value in its part. -/
inductive Finds : List (Reader α) → List Part → List α → Prop where
  | nil : Finds [] [] []
  | cons {reader part value readers parts values} : reader.Finds part value →
      Finds readers parts values → Finds (reader :: readers) (part :: parts) (value :: values)

/-- Reading in the middle of a frame: `before` are the heads already read and `passed` their
tails. -/
theorem readAll_of_finds {readers : List (Reader α)} {parts : List Part} {values : List α}
    (h : Finds readers parts values) (before passed rest : List UInt8)
    (hfits : before.length + headLength parts + passed.length + (tails parts).length < 2 ^ 256) :
    readAll readers (before ++ heads (before.length + headLength parts + passed.length) parts ++
      (passed ++ tails parts ++ rest)) before.length = some values := by
  induction h generalizing before passed with
  | nil => rfl
  | @cons reader part value readers parts values hfinds hrest ih =>
      obtain ⟨dynamic, encoding⟩ := part
      obtain ⟨hdynamic, hlength, hdecode⟩ := hfinds
      cases dynamic with
      | false =>
          simp only [Part.headLength, Bool.false_eq_true, if_false] at hlength
          simp only [headLength, List.map_cons, List.sum_cons, Part.headLength,
            Bool.false_eq_true, if_false, tails] at hfits ⊢
          have hread := ih (before ++ encoding) passed (by
            simp only [List.length_append, headLength]
            omega)
          simp only [List.length_append, headLength, List.append_assoc,
            Nat.add_assoc] at hread
          simp only [readAll, Reader.read, hdynamic, Bool.false_eq_true, if_false, heads,
            List.append_assoc, List.drop_left, hdecode, Option.bind_eq_bind, Option.bind_some,
            hlength, Nat.add_assoc, hread]
      | true =>
          simp only [Part.headLength, if_true] at hlength
          simp only [headLength, List.map_cons, List.sum_cons, Part.headLength, if_true, tails,
            List.length_append] at hfits ⊢
          set offset := before.length + (32 + (parts.map Part.headLength).sum) + passed.length
            with hoffset
          have hread := ih (before ++ word offset) (passed ++ encoding) (by
            simp only [List.length_append, headLength, length_word]
            omega)
          have hnext : (before ++ word offset).length + headLength parts +
              (passed ++ encoding).length = offset + encoding.length := by
            simp only [List.length_append, length_word, headLength]
            omega
          have hword : readWord (word offset ++ (heads (offset + encoding.length) parts ++
              (passed ++ (encoding ++ (tails parts ++ rest))))) = some offset :=
            readWord_word_append (by omega) _
          have hframe : before ++ (word offset ++ heads (offset + encoding.length) parts ++
              (passed ++ (encoding ++ (tails parts ++ rest)))) =
              (before ++ word offset ++ heads (offset + encoding.length) parts ++ passed) ++
                (encoding ++ (tails parts ++ rest)) := by
            simp only [List.append_assoc]
          have htail : (before ++ (word offset ++ (heads (offset + encoding.length) parts ++
              (passed ++ (encoding ++ (tails parts ++ rest)))))).drop offset =
              encoding ++ (tails parts ++ rest) := by
            rw [← List.append_assoc (word offset), hframe]
            apply List.drop_left'
            simp only [List.length_append, length_word, length_heads, headLength]
            omega
          rw [hnext] at hread
          simp only [List.append_assoc, List.length_append, length_word] at hread
          simp only [readAll, Reader.read, hdynamic, if_true, heads, List.append_assoc,
            List.drop_left, hword, Option.bind_eq_bind, Option.bind_some, htail, hdecode,
            hlength, hread]

/-- A laid out sequence reads back. -/
theorem readAll_layout {readers : List (Reader α)} {parts : List Part} {values : List α}
    (h : Finds readers parts values) (hfits : (layout parts).length < 2 ^ 256)
    (rest : List UInt8) : readAll readers (layout parts ++ rest) 0 = some values := by
  rw [length_layout] at hfits
  have hread := readAll_of_finds h [] [] rest (by simpa using hfits)
  simpa [layout] using hread

end Degenbot.Library.HeadTail
