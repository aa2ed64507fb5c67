import Mathlib.Data.List.Basic

/-! # Self-delimiting encodings

An encoding is self-delimiting for an observation when the observation, and where the
encoding ends, can be read off the front of any longer list. -/

namespace Degenbot.Library

universe u v w

variable {α : Type u} {β : Type v} {γ δ : Type w}

def Reads (encode : α → List β) (observe : α → γ) : Prop :=
  ∀ a b s t, encode a ++ s = encode b ++ t → observe a = observe b ∧ s = t

theorem Reads.append {first second : α → List β} {observe : α → γ} {observe' : α → δ}
    (hfirst : Reads first observe) (hsecond : Reads second observe') :
    Reads (fun a => first a ++ second a) fun a => (observe a, observe' a) := by
  intro a b s t h
  rw [List.append_assoc, List.append_assoc] at h
  obtain ⟨hobserve, h⟩ := hfirst a b _ _ h
  obtain ⟨hobserve', h⟩ := hsecond a b _ _ h
  exact ⟨Prod.ext hobserve hobserve', h⟩

theorem Reads.comp {α' : Type*} {encode : α → List β} {observe : α → γ}
    (h : Reads encode observe) (f : α' → α) :
    Reads (fun a => encode (f a)) fun a => observe (f a) :=
  fun a b s t hab => h (f a) (f b) s t hab

/-- A coarser observation can be read too. -/
theorem Reads.coarsen {encode : α → List β} {observe : α → γ} {observe' : α → δ}
    (h : Reads encode observe) (hcoarse : ∀ a b, observe a = observe b → observe' a = observe' b) :
    Reads encode observe' :=
  fun a b s t hab => (h a b s t hab).imp_left (hcoarse a b)

/-- An encoding of fixed width is read by counting. -/
theorem Reads.of_length {encode : α → List β} {observe : α → γ} {width : ℕ}
    (hlength : ∀ a, (encode a).length = width)
    (hinj : ∀ a b, encode a = encode b → observe a = observe b) : Reads encode observe := by
  intro a b s t h
  obtain ⟨hencode, hrest⟩ := List.append_inj h ((hlength a).trans (hlength b).symm)
  exact ⟨hinj a b hencode, hrest⟩

/-- A payload behind its length is read by the length. -/
theorem Reads.length_before {header : ℕ → List β} {payload : α → List β} {observe : α → γ}
    (hheader : Reads (fun a => header (payload a).length) fun a => (payload a).length)
    (hinj : ∀ a b, payload a = payload b → observe a = observe b) :
    Reads (fun a => header (payload a).length ++ payload a) observe := by
  intro a b s t h
  rw [List.append_assoc, List.append_assoc] at h
  obtain ⟨hlength, h⟩ := hheader a b _ _ h
  obtain ⟨hpayload, hrest⟩ := List.append_inj h hlength
  exact ⟨hinj a b hpayload, hrest⟩

/-- Lists of the same length are read item by item. -/
theorem Reads.flatMap {encode : α → List β} {observe : α → γ} (h : Reads encode observe) :
    ∀ {as bs : List α} {s t : List β}, as.length = bs.length →
      as.flatMap encode ++ s = bs.flatMap encode ++ t →
      as.map observe = bs.map observe ∧ s = t := by
  intro as
  induction as with
  | nil =>
      intro bs s t hlength hab
      obtain rfl := List.length_eq_zero_iff.mp hlength.symm
      exact ⟨rfl, hab⟩
  | cons a as ih =>
      intro bs s t hlength hab
      cases bs with
      | nil => cases hlength
      | cons b bs =>
          rw [List.flatMap_cons, List.flatMap_cons, List.append_assoc, List.append_assoc] at hab
          obtain ⟨hhead, hab⟩ := h a b _ _ hab
          obtain ⟨htail, hrest⟩ := ih (Nat.succ.inj hlength) hab
          exact ⟨by rw [List.map_cons, List.map_cons, hhead, htail], hrest⟩

/-! ## A second field that may be missing

Without a separator, the front of the next record can be taken for a second field. -/

/-- The fields one after the other. -/
def concatenated (record : List β × Option (List β)) : List β := record.1 ++ record.2.getD []

structure HasWidths (width width' : ℕ) (record : List β × Option (List β)) : Prop where
  first : record.1.length = width
  second : ∀ field ∈ record.2, field.length = width'

/-- Where the sequences part, the first of them has a record without a second field. -/
def Overlap (records records' : List (List β × Option (List β))) : Prop :=
  ∃ common first second rest rest', records = common ++ (first, none) :: rest ∧
    records' = common ++ (first, some second) :: rest' ∧
    rest.flatMap concatenated = second ++ rest'.flatMap concatenated

variable {width width' : ℕ} {record : List β × Option (List β)}
  {records records' : List (List β × Option (List β))}

theorem Overlap.ne (h : Overlap records records') : records ≠ records' := by
  obtain ⟨common, first, second, rest, rest', rfl, rfl, -⟩ := h
  intro heq
  have hhead := (List.cons.inj (List.append_cancel_left heq)).1
  cases (Prod.ext_iff.mp hhead).2

theorem Overlap.flatMap_eq (h : Overlap records records') :
    records.flatMap concatenated = records'.flatMap concatenated := by
  obtain ⟨common, first, second, rest, rest', rfl, rfl, hrest⟩ := h
  simp [concatenated, hrest]

theorem Overlap.cons (record : List β × Option (List β)) (h : Overlap records records') :
    Overlap (record :: records) (record :: records') := by
  obtain ⟨common, first, second, rest, rest', rfl, rfl, hrest⟩ := h
  exact ⟨record :: common, first, second, rest, rest', rfl, rfl, hrest⟩

theorem HasWidths.concatenated_ne_nil (hwidth : 0 < width) (h : HasWidths width width' record)
    (rest : List β) : concatenated record ++ rest ≠ [] := by
  intro hnil
  have hlength := congrArg List.length hnil
  simp only [concatenated, List.append_assoc, List.length_append, h.first, List.length_nil]
    at hlength
  omega

/-- The records are read back unless the sequences overlap. -/
theorem eq_or_overlap (hwidth : 0 < width) (h : ∀ record ∈ records, HasWidths width width' record)
    (h' : ∀ record ∈ records', HasWidths width width' record)
    (heq : records.flatMap concatenated = records'.flatMap concatenated) :
    records = records' ∨ Overlap records records' ∨ Overlap records' records := by
  induction records generalizing records' with
  | nil =>
      cases records' with
      | nil => exact Or.inl rfl
      | cons record' records' =>
          exact absurd heq.symm ((h' record' List.mem_cons_self).concatenated_ne_nil hwidth _)
  | cons record records ih =>
      cases records' with
      | nil => exact absurd heq ((h record List.mem_cons_self).concatenated_ne_nil hwidth _)
      | cons record' records' =>
          obtain ⟨first, second⟩ := record
          obtain ⟨first', second'⟩ := record'
          obtain ⟨hfirst, hsecond⟩ := h _ List.mem_cons_self
          obtain ⟨hfirst', hsecond'⟩ := h' _ List.mem_cons_self
          simp only [List.flatMap_cons, concatenated, List.append_assoc] at heq
          obtain ⟨rfl, hafter⟩ := List.append_inj heq (hfirst.trans hfirst'.symm)
          have htail := fun heq => ih (fun record hmem => h record (List.mem_cons_of_mem _ hmem))
            (fun record hmem => h' record (List.mem_cons_of_mem _ hmem)) heq
          cases second with
          | none =>
              cases second' with
              | none =>
                  rcases htail hafter with rfl | hover | hover
                  · exact Or.inl rfl
                  · exact Or.inr (Or.inl (hover.cons _))
                  · exact Or.inr (Or.inr (hover.cons _))
              | some second' => exact Or.inr (Or.inl ⟨[], _, _, _, _, rfl, rfl, hafter⟩)
          | some second =>
              cases second' with
              | none => exact Or.inr (Or.inr ⟨[], _, _, _, _, rfl, rfl, hafter.symm⟩)
              | some second' =>
                  obtain ⟨rfl, hrest⟩ := List.append_inj hafter
                    ((hsecond _ rfl).trans (hsecond' _ rfl).symm)
                  rcases htail hrest with rfl | hover | hover
                  · exact Or.inl rfl
                  · exact Or.inr (Or.inl (hover.cons _))
                  · exact Or.inr (Or.inr (hover.cons _))

end Degenbot.Library
