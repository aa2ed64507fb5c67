import Degenbot.Library.Abi
import Degenbot.Library.Batch
import Degenbot.Verification.AbiTypes.Parse

/-! # Re-encoding what the cached decoder returns

The decoder forgets whether an array was fixed; the encoder has to find it in the type. -/

namespace Degenbot.AbiTypes

open Library

/-! ## Typing -/

mutual

/-- The values of a type. A length is a `usize`. -/
def DynSolType.hasType : DynSolType → DynSolValue → Bool
  | .address, .address _ => true
  | .bool, .bool _ => true
  | .uint bits, .uint _ bits' => bits == bits'
  | .int bits, .int _ bits' => bits == bits'
  | .fixedBytes size, .fixedBytes _ size' => size == size'
  | .bytes, .bytes bytes => bytes.length < 2 ^ 64
  | .string, .string s => s.utf8ByteSize < 2 ^ 64
  | .array inner, .array values => values.length < 2 ^ 64 && values.all inner.hasType
  | .fixedArray inner size, .fixedArray values =>
      values.length == size && values.all inner.hasType
  | .tuple types, .tuple values => haveTypes types values
  | _, _ => false

def haveTypes : List DynSolType → List DynSolValue → Bool
  | [], [] => true
  | ty :: types, value :: values => ty.hasType value && haveTypes types values
  | _, _ => false

end

/-- What alloy is relied on for, at one list of types. -/
structure Alloy.Lawful (alloy : Alloy) (types : List DynSolType) : Prop where
  isMatch_iff : ∀ ty value, alloy.isMatch ty value = true ↔ ty.hasType value = true
  decode_typed : ∀ data value, alloy.abiDecodeParams (.tuple types) data = .ok value →
    (DynSolType.tuple types).hasType value = true
  decode_nil : ∀ value, alloy.abiDecodeParams (.tuple types) [] ≠ .ok value
  decode_encode : ∀ value, (DynSolType.tuple types).hasType value = true →
    alloy.abiDecodeParams (.tuple types) (alloy.abiEncodeParams value) = .ok value

/-- The values that the decoder returns for a type. -/
def AbiType.hasValue : AbiType → AbiValue → Bool
  | .address, .address _ => true
  | .bool, .bool _ => true
  | .uint bits, .uint _ bits' => bits == bits'
  | .int bits, .int _ bits' => bits == bits'
  | .fixedBytes size, .fixedBytes data => data.length == size
  | .bytes, .bytes data => data.length < 2 ^ 64
  | .string, .string s => s.utf8ByteSize < 2 ^ 64
  | .array inner, .array values => values.length < 2 ^ 64 && values.all inner.hasValue
  | .fixedArray inner size, .array values => values.length == size && values.all inner.hasValue
  | _, _ => false

/-- No fixed array at this place or in the elements. -/
def fixedFree : AbiType → AbiValue → Bool
  | .fixedArray .., _ => false
  | .array inner, .array values => values.all (fixedFree inner)
  | _, _ => true

/-- No dynamic array has a fixed array in it. -/
def fixedOutsideDynamic : AbiType → AbiValue → Bool
  | .array inner, .array values => values.all (fixedFree inner)
  | .fixedArray inner _, .array values => values.all (fixedOutsideDynamic inner)
  | _, _ => true

/-! ## Lists -/

theorem toAlloyAll_eq_mapM (values : List AbiValue) :
    toAlloyAll values = values.mapM AbiValue.toAlloy := by
  induction values with
  | nil => rfl
  | cons value values ih =>
      rw [toAlloyAll, ih, List.mapM_cons]
      rfl

theorem fromAlloyAll_eq_mapM (values : List DynSolValue) :
    fromAlloyAll values = values.mapM AbiValue.fromAlloy := by
  induction values with
  | nil => rfl
  | cons value values ih =>
      rw [fromAlloyAll, ih, List.mapM_cons]
      rfl

/-! ## Decoded values -/

section Lists

variable {inner : AbiType}

theorem fromAlloy_elements
    (ih : ∀ v, inner.toAlloyType.hasType v = true →
      ∃ a, AbiValue.fromAlloy v = .ok a ∧ inner.hasValue a = true)
    {values : List DynSolValue} (h : values.all inner.toAlloyType.hasType = true) :
    ∃ elements, fromAlloyAll values = .ok elements ∧ elements.length = values.length ∧
      elements.all inner.hasValue = true := by
  have hall : ∀ v ∈ values, ∃ a, AbiValue.fromAlloy v = .ok a ∧ inner.hasValue a = true :=
    fun v hv => ih v (List.all_eq_true.mp h v hv)
  obtain ⟨elements, helements⟩ := exists_forall₂ hall
  refine ⟨elements, ?_, helements.length_eq.symm, ?_⟩
  · rw [fromAlloyAll_eq_mapM, mapM_eq_ok_iff]
    exact helements.imp fun _ _ h => h.1
  · clear hall h
    induction helements with
    | nil => rfl
    | cons hhead _ ih => simp [hhead.2, ih]

theorem toAlloy_elements
    (ih : ∀ a, inner.hasValue a = true → ∃ v, a.toAlloy = .ok v ∧
      AbiValue.fromAlloy v = .ok a ∧ inner.toAlloyType.hasType v = fixedFree inner a)
    {elements : List AbiValue} (h : elements.all inner.hasValue = true) :
    ∃ values, toAlloyAll elements = .ok values ∧ fromAlloyAll values = .ok elements ∧
      values.length = elements.length ∧
      values.all inner.toAlloyType.hasType = elements.all (fixedFree inner) := by
  have hall : ∀ a ∈ elements, ∃ v, a.toAlloy = .ok v ∧ AbiValue.fromAlloy v = .ok a ∧
      inner.toAlloyType.hasType v = fixedFree inner a :=
    fun a ha => ih a (List.all_eq_true.mp h a ha)
  obtain ⟨values, hvalues⟩ := exists_forall₂ hall
  refine ⟨values, ?_, ?_, hvalues.length_eq.symm, ?_⟩
  · rw [toAlloyAll_eq_mapM, mapM_eq_ok_iff]
    exact hvalues.imp fun _ _ h => h.1
  · rw [fromAlloyAll_eq_mapM, mapM_eq_ok_iff]
    exact (hvalues.imp fun _ _ h => h.2.1).flip
  · clear hall h
    induction hvalues with
    | nil => rfl
    | cons hhead _ ih => simp [hhead.2.2, ih]

end Lists

theorem fromAlloy_of_hasType {t : AbiType} {v : DynSolValue} (hlegal : t.Legal)
    (h : t.toAlloyType.hasType v = true) :
    ∃ a, AbiValue.fromAlloy v = .ok a ∧ t.hasValue a = true := by
  induction t generalizing v with
  | fixedBytes size =>
      cases v with
      | fixedBytes word size' =>
          have hsize : size = size' := by simpa [AbiType.toAlloyType, DynSolType.hasType] using h
          subst hsize
          refine ⟨.fixedBytes (word.val.take size), if_pos hlegal.2, ?_⟩
          simp [AbiType.hasValue, word.property, hlegal.2]
      | _ => simp [AbiType.toAlloyType, DynSolType.hasType] at h
  | array inner ih =>
      cases v with
      | array values =>
          simp only [AbiType.toAlloyType, DynSolType.hasType, Bool.and_eq_true] at h
          obtain ⟨elements, hfrom, hlength, hall⟩ :=
            fromAlloy_elements (fun v hv => ih hlegal hv) h.2
          refine ⟨.array elements, ?_, ?_⟩
          · rw [AbiValue.fromAlloy, hfrom, ok_bind]
          · rw [AbiType.hasValue, hlength, h.1, hall, Bool.true_and]
      | _ => simp [AbiType.toAlloyType, DynSolType.hasType] at h
  | fixedArray inner size ih =>
      cases v with
      | fixedArray values =>
          simp only [AbiType.toAlloyType, DynSolType.hasType, Bool.and_eq_true] at h
          obtain ⟨elements, hfrom, hlength, hall⟩ :=
            fromAlloy_elements (fun v hv => ih hlegal.1 hv) h.2
          refine ⟨.array elements, ?_, ?_⟩
          · rw [AbiValue.fromAlloy, hfrom, ok_bind]
          · rw [AbiType.hasValue, hlength, h.1, hall, Bool.true_and]
      | _ => simp [AbiType.toAlloyType, DynSolType.hasType] at h
  | address =>
      cases v with
      | address addr =>
          exact ⟨.address addr, rfl, rfl⟩
      | _ => simp [AbiType.toAlloyType, DynSolType.hasType] at h
  | bool =>
      cases v with
      | bool b =>
          exact ⟨.bool b, rfl, rfl⟩
      | _ => simp [AbiType.toAlloyType, DynSolType.hasType] at h
  | uint bits =>
      cases v with
      | uint n bits' =>
          exact ⟨.uint n bits', rfl, h⟩
      | _ => simp [AbiType.toAlloyType, DynSolType.hasType] at h
  | int bits =>
      cases v with
      | int n bits' =>
          exact ⟨.int n bits', rfl, h⟩
      | _ => simp [AbiType.toAlloyType, DynSolType.hasType] at h
  | bytes =>
      cases v with
      | bytes data =>
          exact ⟨.bytes data, rfl, h⟩
      | _ => simp [AbiType.toAlloyType, DynSolType.hasType] at h
  | string =>
      cases v with
      | string s =>
          exact ⟨.string s, rfl, h⟩
      | _ => simp [AbiType.toAlloyType, DynSolType.hasType] at h

theorem toAlloy_fixedBytes {data : List UInt8} (h : data.length ≤ 32) :
    ∃ word : Word, (AbiValue.fixedBytes data).toAlloy = .ok (.fixedBytes word data.length) ∧
      word.val.take data.length = data := by
  refine ⟨⟨data ++ List.replicate (32 - data.length) 0, by simp; omega⟩, ?_, by simp⟩
  rw [AbiValue.toAlloy, if_neg (by omega), copyToWord, dif_pos h, ok_bind]

/-- The untyped conversion succeeds, reads back as the same value, and gives a value of the type
unless it meets a fixed array. -/
theorem toAlloy_of_hasValue {t : AbiType} {a : AbiValue} (hlegal : t.Legal)
    (h : t.hasValue a = true) :
    ∃ v, a.toAlloy = .ok v ∧ AbiValue.fromAlloy v = .ok a ∧
      t.toAlloyType.hasType v = fixedFree t a := by
  induction t generalizing a with
  | address =>
      cases a with
      | address addr => exact ⟨.address addr, rfl, rfl, rfl⟩
      | _ => cases h
  | bool =>
      cases a with
      | bool b => exact ⟨.bool b, rfl, rfl, rfl⟩
      | _ => cases h
  | uint bits =>
      cases a with
      | uint n bits' => exact ⟨.uint n bits', rfl, rfl, h⟩
      | _ => cases h
  | int bits =>
      cases a with
      | int n bits' => exact ⟨.int n bits', rfl, rfl, h⟩
      | _ => cases h
  | bytes =>
      cases a with
      | bytes data => exact ⟨.bytes data, rfl, rfl, h⟩
      | _ => cases h
  | string =>
      cases a with
      | string s => exact ⟨.string s, rfl, rfl, h⟩
      | _ => cases h
  | fixedBytes size =>
      cases a with
      | fixedBytes data =>
          have hsize : data.length = size := by simpa [AbiType.hasValue] using h
          have hle : data.length ≤ 32 := hsize.trans_le hlegal.2
          obtain ⟨word, hword, htake⟩ := toAlloy_fixedBytes hle
          refine ⟨.fixedBytes word data.length, hword, ?_, ?_⟩
          · rw [AbiValue.fromAlloy, if_pos hle, htake]
          · simp [AbiType.toAlloyType, DynSolType.hasType, fixedFree, hsize]
      | _ => cases h
  | array inner ih =>
      cases a with
      | array elements =>
          simp only [AbiType.hasValue, Bool.and_eq_true] at h
          obtain ⟨values, hto, hfrom, hlength, hall⟩ :=
            toAlloy_elements (fun a ha => ih hlegal ha) h.2
          refine ⟨.array values, ?_, ?_, ?_⟩
          · rw [AbiValue.toAlloy, hto, ok_bind]
          · rw [AbiValue.fromAlloy, hfrom, ok_bind]
          · rw [AbiType.toAlloyType, DynSolType.hasType, hlength, h.1, hall, fixedFree,
              Bool.true_and]
      | _ => cases h
  | fixedArray inner size ih =>
      cases a with
      | array elements =>
          simp only [AbiType.hasValue, Bool.and_eq_true] at h
          obtain ⟨values, hto, hfrom, -, -⟩ :=
            toAlloy_elements (fun a ha => ih hlegal.1 ha) h.2
          -- The conversion gives an array, never a fixed one.
          refine ⟨.array values, ?_, ?_, ?_⟩
          · rw [AbiValue.toAlloy, hto, ok_bind]
          · rw [AbiValue.fromAlloy, hfrom, ok_bind]
          · simp [AbiType.toAlloyType, DynSolType.hasType, fixedFree]
      | _ => cases h

/-! ## Conversion for a type -/

section Encoder

variable {alloy : Alloy}

def Converts (alloy : Alloy) (t : AbiType) (a : AbiValue) : Prop :=
  ∃ v, valueToAlloyForType alloy t.toAlloyType a = .ok v ∧ t.toAlloyType.hasType v = true ∧
    AbiValue.fromAlloy v = .ok a

def Rejected (alloy : Alloy) (t : AbiType) (a : AbiValue) : Prop :=
  ∃ e, valueToAlloyForType alloy t.toAlloyType a = .error e

/-- Outside the special cases the conversion is the untyped one and a check. -/
theorem converts_untyped
    (hmatch : ∀ ty value, alloy.isMatch ty value = true ↔ ty.hasType value = true)
    {t : AbiType} {a : AbiValue} (hlegal : t.Legal) (h : t.hasValue a = true)
    (hdefault : valueToAlloyForType alloy t.toAlloyType a = (do
      let alloyValue ← a.toAlloy
      if alloy.isMatch t.toAlloyType alloyValue then .ok alloyValue
      else .error (.error (.unsupportedType (.typeMismatch t.toAlloyType a))))) :
    (fixedFree t a = true → Converts alloy t a) ∧ (fixedFree t a = false → Rejected alloy t a) := by
  obtain ⟨v, hto, hfrom, htype⟩ := toAlloy_of_hasValue hlegal h
  rw [hto, ok_bind] at hdefault
  constructor
  · intro hfree
    rw [hfree] at htype
    rw [if_pos ((hmatch _ _).mpr htype)] at hdefault
    exact ⟨v, hdefault, htype, hfrom⟩
  · intro hfree
    have hnot : ¬ alloy.isMatch t.toAlloyType v = true := by
      rw [hmatch, htype, hfree]
      exact Bool.false_ne_true
    rw [if_neg hnot] at hdefault
    exact ⟨_, hdefault⟩

theorem converts_elements (alloy : Alloy) {inner : AbiType} {elements : List AbiValue}
    (h : ∀ a ∈ elements, Converts alloy inner a) :
    ∃ values, elements.mapM (fun v => valueToAlloyForType alloy inner.toAlloyType v) =
        .ok values ∧ values.length = elements.length ∧
      values.all inner.toAlloyType.hasType = true ∧ fromAlloyAll values = .ok elements := by
  obtain ⟨values, hvalues⟩ := exists_forall₂ h
  refine ⟨values, mapM_eq_ok_iff.mpr (hvalues.imp fun _ _ h => h.1), hvalues.length_eq.symm,
    ?_, ?_⟩
  · clear h
    induction hvalues with
    | nil => rfl
    | cons hhead _ ih => simp [hhead.2.1, ih]
  · rw [fromAlloyAll_eq_mapM, mapM_eq_ok_iff]
    exact (hvalues.imp fun _ _ h => h.2.2).flip

/-- A value of a type is converted unless a dynamic array has a fixed array in it. -/
theorem converts_of_hasValue
    (hmatch : ∀ ty value, alloy.isMatch ty value = true ↔ ty.hasType value = true)
    {t : AbiType} {a : AbiValue} (hlegal : t.Legal) (h : t.hasValue a = true) :
    (fixedOutsideDynamic t a = true → Converts alloy t a) ∧
      (fixedOutsideDynamic t a = false → Rejected alloy t a) := by
  induction t generalizing a with
  | address =>
      cases a with
      | address addr => exact converts_untyped hmatch hlegal h rfl
      | _ => cases h
  | bool =>
      cases a with
      | bool b => exact converts_untyped hmatch hlegal h rfl
      | _ => cases h
  | bytes =>
      cases a with
      | bytes data => exact converts_untyped hmatch hlegal h rfl
      | _ => cases h
  | string =>
      cases a with
      | string s => exact converts_untyped hmatch hlegal h rfl
      | _ => cases h
  | fixedBytes size =>
      cases a with
      | fixedBytes data => exact converts_untyped hmatch hlegal h rfl
      | _ => cases h
  | uint bits =>
      cases a with
      | uint n bits' =>
          have hbits : bits = bits' := by simpa [AbiType.hasValue] using h
          subst hbits
          refine ⟨fun _ => ⟨.uint n bits, ?_, h, rfl⟩, fun hfree => by cases hfree⟩
          rw [AbiType.toAlloyType, valueToAlloyForType, if_pos hlegal.1]
      | _ => cases h
  | int bits =>
      cases a with
      | int n bits' =>
          have hbits : bits = bits' := by simpa [AbiType.hasValue] using h
          subst hbits
          refine ⟨fun _ => ⟨.int n bits, ?_, h, rfl⟩, fun hfree => by cases hfree⟩
          rw [AbiType.toAlloyType, valueToAlloyForType, if_pos hlegal.1]
      | _ => cases h
  | array inner ih =>
      cases a with
      | array elements => exact converts_untyped hmatch hlegal h rfl
      | _ => cases h
  | fixedArray inner size ih =>
      cases a with
      | array elements =>
          simp only [AbiType.hasValue, Bool.and_eq_true, beq_iff_eq] at h
          obtain ⟨hlength, hall⟩ := h
          have helement : ∀ a ∈ elements, inner.hasValue a = true := List.all_eq_true.mp hall
          constructor
          · intro hfree
            rw [fixedOutsideDynamic, List.all_eq_true] at hfree
            obtain ⟨values, hrun, hcount, htypes, hfrom⟩ := converts_elements alloy
              fun a ha => (ih hlegal.1 (helement a ha)).1 (hfree a ha)
            refine ⟨.fixedArray values, ?_, ?_, ?_⟩
            · rw [AbiType.toAlloyType, valueToAlloyForType, if_neg (not_not.mpr hlength), hrun,
                ok_bind]
            · rw [AbiType.toAlloyType, DynSolType.hasType, hcount, htypes, hlength]
              simp
            · rw [AbiValue.fromAlloy, hfrom, ok_bind]
          · intro hfree
            rw [fixedOutsideDynamic, List.all_eq_false] at hfree
            obtain ⟨a, ha, hfixed⟩ := hfree
            obtain ⟨e, he⟩ := (ih hlegal.1 (helement a ha)).2 (Bool.eq_false_of_not_eq_true hfixed)
            obtain ⟨e', he'⟩ := exists_error_of_mapM
              (f := fun v => valueToAlloyForType alloy inner.toAlloyType v) ha he
            refine ⟨e', ?_⟩
            rw [AbiType.toAlloyType, valueToAlloyForType, if_neg (not_not.mpr hlength), he',
              error_bind]
      | _ => cases h

end Encoder

/-! ## Lists of types -/

section Codec

variable {alloy : Alloy} {types : List AbiType}

theorem haveTypes_iff {tys : List DynSolType} {values : List DynSolValue} :
    haveTypes tys values = true ↔ List.Forall₂ (fun ty v => ty.hasType v = true) tys values := by
  induction tys generalizing values with
  | nil =>
      cases values with
      | nil => simp [haveTypes]
      | cons v values => simp [haveTypes]
  | cons ty tys ih =>
      cases values with
      | nil => simp [haveTypes]
      | cons v values => simp [haveTypes, ih]

/-- The values that a run of the decoder returns have their types. -/
theorem hasValue_of_decode (hlegal : ∀ t ∈ types, t.Legal)
    (hlaw : alloy.Lawful (types.map AbiType.toAlloyType)) {data : List UInt8}
    {values : List AbiValue}
    (h : CachedAbiTypes.decode alloy ⟨types, types.map AbiType.toAlloyType,
      .tuple (types.map AbiType.toAlloyType)⟩ data = .ok values) :
    List.Forall₂ (fun t a => t.hasValue a = true) types values := by
  rw [CachedAbiTypes.decode, ite_error_eq_ok] at h
  obtain ⟨_, h⟩ := h
  cases hrun : alloy.abiDecodeParams (.tuple (types.map AbiType.toAlloyType)) data with
  | error e => simp [hrun] at h
  | ok decoded =>
      have htyped := hlaw.decode_typed data decoded hrun
      cases decoded with
      | tuple vals =>
          simp only [hrun] at h
          rw [DynSolType.hasType, haveTypes_iff, List.forall₂_map_left_iff] at htyped
          have hfrom := mapM_eq_ok_iff.mp h
          clear h hrun hlaw
          induction htyped generalizing values with
          | nil =>
              cases hfrom
              exact .nil
          | cons hhead _ ih =>
              cases hfrom with
              | cons hvalue hvalues =>
                  obtain ⟨a, ha, htype⟩ := fromAlloy_of_hasType
                    (hlegal _ List.mem_cons_self) hhead
                  rw [hvalue] at ha
                  cases ha
                  exact .cons htype (ih (fun t ht => hlegal t (List.mem_cons_of_mem _ ht)) hvalues)
      | _ => simp [DynSolType.hasType] at htyped

theorem converts_all
    (hmatch : ∀ ty value, alloy.isMatch ty value = true ↔ ty.hasType value = true)
    {values : List AbiValue} (hlegal : ∀ t ∈ types, t.Legal)
    (h : List.Forall₂ (fun t a => t.hasValue a = true) types values)
    (hfree : List.Forall₂ (fun t a => fixedOutsideDynamic t a = true) types values) :
    ∃ vals, ((types.map AbiType.toAlloyType).zip values).mapM
        (fun entry => valueToAlloyForType alloy entry.1 entry.2) = .ok vals ∧
      haveTypes (types.map AbiType.toAlloyType) vals = true ∧
      vals.mapM AbiValue.fromAlloy = .ok values := by
  induction h with
  | nil => exact ⟨[], rfl, rfl, rfl⟩
  | cons hhead _ ih =>
      cases hfree with
      | cons hfirst hrest =>
          obtain ⟨v, hto, htype, hfrom⟩ :=
            (converts_of_hasValue hmatch (hlegal _ List.mem_cons_self) hhead).1 hfirst
          obtain ⟨vals, hvals, htypes, hback⟩ :=
            ih (fun t ht => hlegal t (List.mem_cons_of_mem _ ht)) hrest
          refine ⟨v :: vals, ?_, ?_, ?_⟩
          · rw [List.map_cons, List.zip_cons_cons, List.mapM_cons, hto, hvals]
            rfl
          · rw [List.map_cons, haveTypes, htype, htypes, Bool.true_and]
          · rw [List.mapM_cons, hfrom, hback]
            rfl

theorem fixedOutsideDynamic_of_converted
    (hmatch : ∀ ty value, alloy.isMatch ty value = true ↔ ty.hasType value = true)
    {values : List AbiValue} (hlegal : ∀ t ∈ types, t.Legal)
    (h : List.Forall₂ (fun t a => t.hasValue a = true) types values) {vals : List DynSolValue}
    (hrun : ((types.map AbiType.toAlloyType).zip values).mapM
      (fun entry => valueToAlloyForType alloy entry.1 entry.2) = .ok vals) :
    List.Forall₂ (fun t a => fixedOutsideDynamic t a = true) types values := by
  induction h generalizing vals with
  | nil => exact .nil
  | @cons t a types' values' hhead _ ih =>
      rw [List.map_cons, List.zip_cons_cons, List.mapM_cons] at hrun
      obtain ⟨v, hv, hrun⟩ := bind_eq_ok.mp hrun
      obtain ⟨rest, hrest, -⟩ := bind_eq_ok.mp hrun
      have hfirst : fixedOutsideDynamic t a = true := by
        by_contra hnot
        obtain ⟨e, he⟩ := (converts_of_hasValue hmatch (hlegal _ List.mem_cons_self) hhead).2
          (Bool.eq_false_of_not_eq_true hnot)
        rw [he] at hv
        cases hv
      exact .cons hfirst (ih (fun t ht => hlegal t (List.mem_cons_of_mem _ ht)) hrest)

theorem fromAbiTypes_eq_ok {cached : CachedAbiTypes}
    (h : CachedAbiTypes.fromAbiTypes types = .ok cached) :
    cached = ⟨types, types.map AbiType.toAlloyType, .tuple (types.map AbiType.toAlloyType)⟩ := by
  rw [CachedAbiTypes.fromAbiTypes, ite_error_eq_ok] at h
  exact (Except.ok.inj h.2).symm

/-- Type strings give legal types. -/
theorem new_eq_ok {strings : List Str} {cached : CachedAbiTypes}
    (h : CachedAbiTypes.new strings = .ok cached) :
    CachedAbiTypes.fromAbiTypes cached.types = .ok cached ∧ ∀ t ∈ cached.types, t.Legal := by
  rw [CachedAbiTypes.new, ite_error_eq_ok] at h
  obtain ⟨hne, h⟩ := h
  obtain ⟨types, htypes, h⟩ := bind_eq_ok.mp h
  cases h
  constructor
  · rw [CachedAbiTypes.fromAbiTypes, if_neg]
    rintro rfl
    exact hne (List.forall₂_nil_right_iff.mp (mapM_eq_ok_iff.mp htypes))
  · intro t ht
    obtain ⟨s, -, hs⟩ := exists_of_mapM_eq_ok htypes ht
    rw [parseType] at hs
    cases hparse : AbiType.parse s with
    | error e => simp [hparse] at hs
    | ok t' =>
        simp only [hparse] at hs
        cases hs
        exact (legal_of_parseAbiType hparse).1

/-- What the decoder returned is encoded and read back exactly when no dynamic array in it has a
fixed array among its elements. -/
theorem reencodes_iff (alloy : Alloy) (types : List AbiType) (cached : CachedAbiTypes)
    (data : List UInt8) (values : List AbiValue) (hlegal : ∀ t ∈ types, t.Legal)
    (hcached : CachedAbiTypes.fromAbiTypes types = .ok cached)
    (hlaw : alloy.Lawful (types.map AbiType.toAlloyType))
    (hdecode : cached.decode alloy data = .ok values) :
    (∃ bytes, cached.encode alloy values = .ok bytes ∧ cached.decode alloy bytes = .ok values) ↔
      List.Forall₂ (fun t a => fixedOutsideDynamic t a = true) types values := by
  rw [fromAbiTypes_eq_ok hcached] at hdecode ⊢
  have hvalues := hasValue_of_decode hlegal hlaw hdecode
  have hlength : ¬ values.length ≠ types.length := not_not.mpr hvalues.length_eq.symm
  constructor
  · rintro ⟨bytes, hencode, -⟩
    rw [CachedAbiTypes.encode, if_neg hlength] at hencode
    obtain ⟨vals, hvals, -⟩ := bind_eq_ok.mp hencode
    exact fixedOutsideDynamic_of_converted hlaw.isMatch_iff hlegal hvalues hvals
  · intro hfree
    obtain ⟨vals, hvals, htypes, hback⟩ := converts_all hlaw.isMatch_iff hlegal hvalues hfree
    have hread := hlaw.decode_encode (.tuple vals) (by rw [DynSolType.hasType, htypes])
    refine ⟨alloy.abiEncodeParams (.tuple vals), ?_, ?_⟩
    · rw [CachedAbiTypes.encode, if_neg hlength, hvals, ok_bind]
    · have hne : alloy.abiEncodeParams (.tuple vals) ≠ [] := by
        intro hnil
        rw [hnil] at hread
        exact hlaw.decode_nil _ hread
      rw [CachedAbiTypes.decode, if_neg hne, hread]
      exact hback

end Codec

/-! ## A row and an array

The types `(uint256[3], T[])` for a static `T`, in the standard encoding. -/

def rowType : AbiType := .fixedArray (.uint 256) 3

def row (x y z : Abi.U256) : DynSolValue := .fixedArray [.uint x 256, .uint y 256, .uint z 256]

/-- A row in the standard encoding: three words in place. -/
def encodeRow : DynSolValue → Library.Abi.Value
  | .fixedArray [.uint x _, .uint y _, .uint z _] =>
      .tuple [.uint 256 x.toNat, .uint 256 y.toNat, .uint 256 z.toNat]
  | _ => .tuple []

def decodeRow : Library.Abi.Value → Option DynSolValue
  | .tuple [.uint _ x, .uint _ y, .uint _ z] =>
      some (row (BitVec.ofNat 256 x) (BitVec.ofNat 256 y) (BitVec.ofNat 256 z))
  | _ => none

def rowLayout : Library.Abi.Ty := .tuple [.uint 256, .uint 256, .uint 256]

def encodeNumber : DynSolValue → Library.Abi.Value
  | .uint x _ => .uint 256 x.toNat
  | _ => .tuple []

def decodeNumber : Library.Abi.Value → Option DynSolValue
  | .uint _ x => some (.uint (BitVec.ofNat 256 x) 256)
  | _ => none

theorem eq_number_of_hasType {v : DynSolValue} (h : (DynSolType.uint 256).hasType v = true) :
    ∃ x, v = .uint x 256 := by
  cases v with
  | uint x bits =>
      have hbits : 256 = bits := by simpa [DynSolType.hasType] using h
      exact ⟨x, by rw [hbits]⟩
  | _ => simp [DynSolType.hasType] at h

theorem eq_row_of_hasType {v : DynSolValue} (h : rowType.toAlloyType.hasType v = true) :
    ∃ x y z, v = row x y z := by
  cases v with
  | fixedArray values =>
      simp only [rowType, AbiType.toAlloyType, DynSolType.hasType, Bool.and_eq_true, beq_iff_eq,
        List.all_eq_true] at h
      obtain ⟨hlength, hall⟩ := h
      obtain ⟨a, b, c, rfl⟩ := List.length_eq_three.mp hlength
      obtain ⟨x, rfl⟩ := eq_number_of_hasType (hall a (by simp))
      obtain ⟨y, rfl⟩ := eq_number_of_hasType (hall b (by simp))
      obtain ⟨z, rfl⟩ := eq_number_of_hasType (hall c (by simp))
      exact ⟨x, y, z, rfl⟩
  | _ => simp [rowType, AbiType.toAlloyType, DynSolType.hasType] at h

/-- An element type of at most three words, and how its values are laid out. -/
structure Element where
  type : AbiType
  layout : Library.Abi.Ty
  write : DynSolValue → Library.Abi.Value
  read : Library.Abi.Value → Option DynSolValue

namespace Element

structure Lawful (element : Element) : Prop where
  static : element.layout.dynamic = false
  length_le : element.layout.staticLength ≤ 96
  admits : ∀ v, element.type.toAlloyType.hasType v = true →
    element.layout.admits (element.write v) = true
  read_write : ∀ v, element.type.toAlloyType.hasType v = true →
    element.read (element.write v) = some v
  typed : ∀ value v, element.read value = some v → element.type.toAlloyType.hasType v = true

def number : Element := ⟨.uint 256, .uint 256, encodeNumber, decodeNumber⟩

def ofRow : Element := ⟨rowType, rowLayout, encodeRow, decodeRow⟩

theorem admits_word (n : Abi.U256) : (Library.Abi.Ty.uint 256).admits (.uint 256 n.toNat) = true :=
  Library.Abi.admits_uint le_rfl n.isLt

theorem number_lawful : number.Lawful where
  static := rfl
  length_le := by decide
  admits v h := by
    obtain ⟨x, rfl⟩ := eq_number_of_hasType h
    exact admits_word x
  read_write v h := by
    obtain ⟨x, rfl⟩ := eq_number_of_hasType h
    simp [number, encodeNumber, decodeNumber]
  typed value v h := by
    simp only [number, decodeNumber] at h
    split at h
    · cases h
      rfl
    · cases h

theorem ofRow_lawful : ofRow.Lawful where
  static := rfl
  length_le := by decide
  admits v h := by
    obtain ⟨x, y, z, rfl⟩ := eq_row_of_hasType h
    simp [ofRow, rowLayout, encodeRow, row, admits_word]
  read_write v h := by
    obtain ⟨x, y, z, rfl⟩ := eq_row_of_hasType h
    simp [ofRow, encodeRow, decodeRow, row]
  typed value v h := by
    simp only [ofRow, decodeRow] at h
    split at h
    · cases h
      rfl
    · cases h

variable {element : Element}

/-- The types of a sample. -/
def types (element : Element) : List AbiType := [rowType, .array element.type]

def layouts (element : Element) : List Library.Abi.Ty := [rowLayout, .array element.layout]

def written (element : Element) (first : DynSolValue) (values : List DynSolValue) :
    List Library.Abi.Value :=
  [encodeRow first, .array (values.map element.write)]

def readAll (element : Element) (data : List UInt8) : Option DynSolValue :=
  match Library.Abi.decodeArgs element.layouts data with
  | some [first, .array rest] => do
      let first ← decodeRow first
      let values ← rest.mapM element.read
      if values.length < 2 ^ 64 then some (.tuple [first, .array values]) else none
  | _ => none

/-- The codec at these types. -/
def alloy (element : Element) : Alloy where
  isMatch := DynSolType.hasType
  abiEncodeParams
    | .tuple [first, .array values] => Library.Abi.encodeArgs (element.written first values)
    | _ => []
  abiDecodeParams _ data :=
    match element.readAll data with
    | some value => .ok value
    | none => .error "buffer overrun while deserializing"

theorem admitAll_written (hlaw : element.Lawful) {first : DynSolValue}
    {values : List DynSolValue} (hfirst : rowType.toAlloyType.hasType first = true)
    (hlength : values.length < 2 ^ 64)
    (h : ∀ v ∈ values, element.type.toAlloyType.hasType v = true) :
    Library.Abi.admitAll element.layouts (element.written first values) = true := by
  rw [layouts, written, Library.Abi.admitAll_cons, Library.Abi.admitAll_cons,
    Library.Abi.admitAll_nil, Bool.and_true, Bool.and_eq_true]
  refine ⟨ofRow_lawful.admits first hfirst, Library.Abi.admits_array ?_ ?_⟩
  · rw [List.length_map]
    exact hlength.trans (by norm_num)
  · intro value hvalue
    obtain ⟨v, hv, rfl⟩ := List.mem_map.mp hvalue
    exact hlaw.admits v (h v hv)

theorem length_encodeArgs_written (hlaw : element.Lawful) {first : DynSolValue}
    {values : List DynSolValue} (hfirst : rowType.toAlloyType.hasType first = true)
    (h : ∀ v ∈ values, element.type.toAlloyType.hasType v = true) :
    (Library.Abi.encodeArgs (element.written first values)).length ≤ 160 + 96 * values.length := by
  obtain ⟨x, y, z, rfl⟩ := eq_row_of_hasType hfirst
  have hadmits : Library.Abi.admitAll (List.replicate values.length element.layout)
      (values.map element.write) = true := by
    induction values with
    | nil => rfl
    | cons v values ih =>
        rw [List.length_cons, List.replicate_succ, List.map_cons, Library.Abi.admitAll_cons,
          hlaw.admits v (h v List.mem_cons_self),
          ih fun w hw => h w (List.mem_cons_of_mem v hw), Bool.true_and]
  have hstatic : ∀ n, Library.Abi.anyDynamicTy (List.replicate n element.layout) = false ∧
      Library.Abi.staticLengths (List.replicate n element.layout) ≤ 96 * n := by
    intro n
    induction n with
    | zero => exact ⟨rfl, le_rfl⟩
    | succ n ih =>
        rw [List.replicate_succ, Library.Abi.anyDynamicTy, Library.Abi.staticLengths, ih.1,
          hlaw.static]
        exact ⟨rfl, (Nat.add_le_add hlaw.length_le ih.2).trans (by omega)⟩
  have hrest := Library.Abi.length_layout_of_static hadmits (hstatic values.length).1
  have hle := (hstatic values.length).2
  have hdynamic : ∀ rest : List Library.Abi.Value, (Library.Abi.Value.array rest).dynamic = true :=
    fun _ => rfl
  have hrow : (encodeRow (row x y z)).dynamic = false := rfl
  have hwords : ((encodeRow (row x y z)).encode).length = 96 :=
    Library.Abi.length_encode_of_static (ofRow_lawful.admits _ hfirst) rfl
  simp only [Library.Abi.encodeArgs, written, Library.Abi.parts, HeadTail.length_layout, hdynamic,
    hrow, hwords, HeadTail.headLength, HeadTail.tails, HeadTail.Part.headLength,
    Library.Abi.Value.encode, List.length_append, List.map_cons, List.map_nil, List.sum_cons,
    List.sum_nil, if_true, HeadTail.length_word, List.length_nil] at hrest ⊢
  simp only [Bool.false_eq_true, if_false]
  omega

theorem readAll_encodeArgs (hlaw : element.Lawful) {first : DynSolValue}
    {values : List DynSolValue} (hfirst : rowType.toAlloyType.hasType first = true)
    (hlength : values.length < 2 ^ 64)
    (h : ∀ v ∈ values, element.type.toAlloyType.hasType v = true) :
    element.readAll (Library.Abi.encodeArgs (element.written first values)) =
      some (.tuple [first, .array values]) := by
  have hbound : 160 + 96 * values.length < 2 ^ 256 := by
    have : 160 + 96 * values.length < 160 + 96 * 2 ^ 64 := by omega
    exact this.trans (by norm_num)
  have hread := Library.Abi.decodeArgs_encodeArgs (admitAll_written hlaw hfirst hlength h)
    ((length_encodeArgs_written hlaw hfirst h).trans_lt hbound)
  have hvalues : (values.map element.write).mapM element.read = some values := by
    clear hread hlength hbound
    induction values with
    | nil => rfl
    | cons v values ih =>
        rw [List.map_cons, List.mapM_cons, hlaw.read_write v (h v List.mem_cons_self),
          ih fun w hw => h w (List.mem_cons_of_mem v hw)]
        rfl
  have hrow : decodeRow (encodeRow first) = some first := ofRow_lawful.read_write first hfirst
  rw [readAll, hread]
  simp only [written, hrow, hvalues]
  exact if_pos hlength

theorem hasType_of_mapM_read (hlaw : element.Lawful) {rest : List Library.Abi.Value}
    {values : List DynSolValue} (h : rest.mapM element.read = some values) :
    values.all element.type.toAlloyType.hasType = true := by
  induction rest generalizing values with
  | nil =>
      cases h
      rfl
  | cons value rest ih =>
      rw [List.mapM_cons] at h
      obtain ⟨v, hv, h⟩ := Option.bind_eq_some_iff.mp h
      obtain ⟨values, hvalues, h⟩ := Option.bind_eq_some_iff.mp h
      cases h
      rw [List.all_cons, hlaw.typed value v hv, ih hvalues, Bool.true_and]

theorem hasType_of_readAll (hlaw : element.Lawful) {data : List UInt8} {value : DynSolValue}
    (h : element.readAll data = some value) :
    (DynSolType.tuple (element.types.map AbiType.toAlloyType)).hasType value = true := by
  unfold readAll at h
  split at h
  · obtain ⟨first, hfirst, h⟩ := Option.bind_eq_some_iff.mp h
    obtain ⟨values, hvalues, h⟩ := Option.bind_eq_some_iff.mp h
    split at h
    · rename_i hlength
      cases h
      have hrow := ofRow_lawful.typed _ first hfirst
      rw [ofRow] at hrow
      simp only [types, List.map_cons, List.map_nil, AbiType.toAlloyType, DynSolType.hasType,
        haveTypes, hasType_of_mapM_read hlaw hvalues, hlength, decide_true, Bool.and_true, hrow]
    · cases h
  · cases h

theorem alloy_lawful (hlaw : element.Lawful) :
    element.alloy.Lawful (element.types.map AbiType.toAlloyType) where
  isMatch_iff _ _ := Iff.rfl
  decode_typed data value h := by
    simp only [alloy] at h
    split at h
    · rename_i decoded hdecoded
      cases h
      exact hasType_of_readAll hlaw hdecoded
    · cases h
  decode_nil value h := by
    have hnone : element.readAll [] = none := rfl
    simp [alloy, hnone] at h
  decode_encode value h := by
    cases value with
    | tuple vals =>
        rw [DynSolType.hasType, haveTypes_iff] at h
        cases h with
        | cons hfirst hrest =>
            cases hrest with
            | cons hsecond hnil =>
                cases hnil
                rename_i second
                cases second with
                | array values =>
                    simp only [AbiType.toAlloyType, DynSolType.hasType, Bool.and_eq_true,
                      decide_eq_true_eq, List.all_eq_true] at hsecond
                    have hread := readAll_encodeArgs hlaw hfirst hsecond.1 hsecond.2
                    simp only [alloy, hread]
                | _ => simp [AbiType.toAlloyType, DynSolType.hasType] at hsecond
    | _ => simp [DynSolType.hasType] at h

def cached (element : Element) : CachedAbiTypes :=
  ⟨element.types, element.types.map AbiType.toAlloyType,
    .tuple (element.types.map AbiType.toAlloyType)⟩

theorem types_legal (h : element.type.Legal) : ∀ t ∈ element.types, t.Legal := by
  intro t ht
  rcases List.mem_cons.mp ht with rfl | ht
  · exact ⟨⟨by decide, by decide, by decide⟩, by decide, by decide⟩
  · rw [List.mem_singleton.mp ht]
    exact h

theorem decode_written (hlaw : element.Lawful) {first : DynSolValue}
    {values : List DynSolValue} {row : AbiValue} {elements : List AbiValue}
    (htype : haveTypes (element.types.map AbiType.toAlloyType) [first, .array values] = true)
    (hrow : AbiValue.fromAlloy first = .ok row)
    (hfrom : AbiValue.fromAlloy (.array values) = .ok (.array elements)) :
    element.cached.decode element.alloy
        (element.alloy.abiEncodeParams (.tuple [first, .array values])) =
      .ok [row, .array elements] := by
  have hread := (alloy_lawful hlaw).decode_encode (.tuple [first, .array values])
    (by rw [DynSolType.hasType, htype])
  have hne : element.alloy.abiEncodeParams (.tuple [first, .array values]) ≠ [] := by
    intro hnil
    rw [hnil] at hread
    exact (alloy_lawful hlaw).decode_nil _ hread
  rw [CachedAbiTypes.decode, if_neg hne, cached, hread]
  simp only [List.mapM_cons, hrow, hfrom, List.mapM_nil]
  rfl

end Element

/-- A fixed array and a dynamic one beside it are encoded again. -/
theorem reencodes_row_and_numbers :
    ∃ bytes,
      Element.number.cached.encode Element.number.alloy
          [.array [.uint 1 256, .uint 2 256, .uint 3 256], .array [.uint 4 256, .uint 5 256]] =
        .ok bytes ∧
      Element.number.cached.decode Element.number.alloy bytes =
        .ok [.array [.uint 1 256, .uint 2 256, .uint 3 256],
          .array [.uint 4 256, .uint 5 256]] :=
  (reencodes_iff Element.number.alloy Element.number.types Element.number.cached
    (Element.number.alloy.abiEncodeParams (.tuple [row 1 2 3, .array [.uint 4 256, .uint 5 256]]))
    [.array [.uint 1 256, .uint 2 256, .uint 3 256], .array [.uint 4 256, .uint 5 256]]
    (Element.types_legal ⟨by decide, by decide, by decide⟩) rfl
    (Element.alloy_lawful Element.number_lawful)
    (Element.decode_written Element.number_lawful rfl rfl rfl)).mpr (.cons rfl (.cons rfl .nil))

/-- A dynamic array with one row in it is refused. -/
theorem one_row_not_reencoded :
    ¬ ∀ (alloy : Alloy) (types : List AbiType) (cached : CachedAbiTypes) (data : List UInt8)
      (values : List AbiValue), (∀ t ∈ types, t.Legal) →
      CachedAbiTypes.fromAbiTypes types = .ok cached →
      alloy.Lawful (types.map AbiType.toAlloyType) → cached.decode alloy data = .ok values →
      ∃ bytes, cached.encode alloy values = .ok bytes ∧ cached.decode alloy bytes = .ok values := by
  intro h
  let first : AbiValue := .array [.uint 1 256, .uint 2 256, .uint 3 256]
  obtain ⟨bytes, hencode, -⟩ := h Element.ofRow.alloy Element.ofRow.types Element.ofRow.cached
    (Element.ofRow.alloy.abiEncodeParams (.tuple [row 1 2 3, .array [row 1 2 3]]))
    [first, .array [first]]
    (Element.types_legal ⟨⟨by decide, by decide, by decide⟩, by decide, by decide⟩) rfl
    (Element.alloy_lawful Element.ofRow_lawful)
    (Element.decode_written Element.ofRow_lawful rfl rfl rfl)
  have hrejected : Element.ofRow.cached.encode Element.ofRow.alloy [first, .array [first]] =
      .error (.error (.unsupportedType
        (.typeMismatch (.array rowType.toAlloyType) (.array [first])))) :=
    rfl
  rw [hrejected] at hencode
  cases hencode

end Degenbot.AbiTypes
