import Mathlib.Data.List.Sort
import Mathlib.Data.Nat.Bitwise
import Mathlib.Tactic

/-! # Searching sorted lists and binary digits

Splitting a sorted list at a threshold, and the first and last set bit of a number
read off its list of binary digits. -/

namespace Degenbot.Library

/-! ## A sorted list split by a downward closed test -/

section Split

variable {α : Type*} [LinearOrder α] {xs : List α} {p : α → Bool}

theorem mem_takeWhile_iff_of_sorted (hs : xs.Pairwise (· ≤ ·))
    (hp : ∀ a b, a ≤ b → p b = true → p a = true) (x : α) :
    x ∈ xs.takeWhile p ↔ x ∈ xs ∧ p x = true := by
  induction xs with
  | nil => simp
  | cons y ys ih =>
      obtain ⟨hy, hys⟩ := List.pairwise_cons.mp hs
      by_cases hpy : p y = true
      · rw [List.takeWhile_cons_of_pos hpy, List.mem_cons, ih hys, List.mem_cons]
        constructor
        · rintro (rfl | ⟨hx, hpx⟩)
          · exact ⟨.inl rfl, hpy⟩
          · exact ⟨.inr hx, hpx⟩
        · rintro ⟨rfl | hx, hpx⟩
          · exact .inl rfl
          · exact .inr ⟨hx, hpx⟩
      · rw [List.takeWhile_cons_of_neg hpy]
        simp only [List.not_mem_nil, false_iff, not_and]
        rintro hx hpx
        rcases List.mem_cons.mp hx with rfl | hx
        · exact hpy hpx
        · exact hpy (hp y x (hy x hx) hpx)

/-- The element just before the split point is the greatest that passes the test. -/
theorem isGreatest_before_split (hs : xs.Pairwise (· ≤ ·))
    (hp : ∀ a b, a ≤ b → p b = true → p a = true) (hne : (xs.takeWhile p).length ≠ 0)
    (default : α) :
    IsGreatest {x | x ∈ xs ∧ p x = true}
      (xs.getD ((xs.takeWhile p).length - 1) default) := by
  have hlt : (xs.takeWhile p).length - 1 < (xs.takeWhile p).length := by omega
  have hget : xs.getD ((xs.takeWhile p).length - 1) default =
      (xs.takeWhile p)[(xs.takeWhile p).length - 1] := by
    rw [List.getD_eq_getElem _ _ (hlt.trans_le (List.takeWhile_prefix p).length_le)]
    exact ((List.takeWhile_prefix p).getElem hlt).symm
  rw [hget]
  refine ⟨(mem_takeWhile_iff_of_sorted hs hp _).mp (List.getElem_mem hlt), ?_⟩
  rintro x hx
  have hsorted : (xs.takeWhile p).Pairwise (· ≤ ·) :=
    hs.sublist (List.takeWhile_prefix p).sublist
  obtain ⟨i, hi, rfl⟩ := List.getElem_of_mem ((mem_takeWhile_iff_of_sorted hs hp x).mpr hx)
  rcases Nat.lt_or_ge i ((xs.takeWhile p).length - 1) with hlt' | hge
  · exact List.pairwise_iff_getElem.mp hsorted _ _ _ _ hlt'
  · exact le_of_eq (by congr 1; omega)

/-- The element at the split point is the least that fails the test. -/
theorem isLeast_at_split (hs : xs.Pairwise (· ≤ ·))
    (hp : ∀ a b, a ≤ b → p b = true → p a = true) (hne : (xs.takeWhile p).length ≠ xs.length)
    (default : α) :
    IsLeast {x | x ∈ xs ∧ ¬p x = true} (xs.getD (xs.takeWhile p).length default) := by
  have hlen := (List.takeWhile_prefix (l := xs) p).length_le
  have hlt : (xs.takeWhile p).length < xs.length := by omega
  rw [List.getD_eq_getElem _ _ hlt]
  constructor
  · refine ⟨List.getElem_mem hlt, ?_⟩
    -- taking stops at the first element that fails
    intro hpx
    have hall : ∀ (ys : List α) (h : (ys.takeWhile p).length < ys.length),
        ¬p (ys[(ys.takeWhile p).length]) = true := by
      intro ys
      induction ys with
      | nil => simp
      | cons y ys ih =>
          intro h
          by_cases hpy : p y = true
          · simp only [List.takeWhile_cons_of_pos hpy, List.length_cons, List.getElem_cons_succ]
            simp only [List.takeWhile_cons_of_pos hpy, List.length_cons] at h
            exact ih (by omega)
          · simpa [List.takeWhile_cons_of_neg hpy] using hpy
    exact hall xs hlt hpx
  · rintro x ⟨hx, hpx⟩
    obtain ⟨i, hi, rfl⟩ := List.getElem_of_mem hx
    rcases Nat.lt_trichotomy i (xs.takeWhile p).length with hlt' | rfl | hgt
    · have hin : xs[i] ∈ xs.takeWhile p := by
        rw [← (List.takeWhile_prefix p).getElem hlt']
        exact List.getElem_mem hlt'
      exact absurd ((mem_takeWhile_iff_of_sorted hs hp _).mp hin).2 hpx
    · exact le_rfl
    · exact List.pairwise_iff_getElem.mp hs _ _ _ _ hgt

end Split

/-! ## Prefixes of a list sorted by a key -/

section Prefix

variable {α β : Type*} [LinearOrder β] {f : α → β} {xs : List α}

theorem countP_eq_zero_of_lt {x : α} {b : β} (hs : (x :: xs).Pairwise fun a a' => f a ≤ f a')
    (hx : ¬f x ≤ b) : (x :: xs).countP (f · ≤ b) = 0 := by
  rw [List.countP_eq_zero]
  intro a ha
  rcases List.mem_cons.mp ha with rfl | ha
  · simpa using hx
  · have hle := (List.pairwise_cons.mp hs).1 a ha
    simpa using (not_le.mp hx).trans_le hle

/-- The elements with a key up to `b` come first. -/
theorem lt_countP_iff_of_sorted (hs : xs.Pairwise fun a a' => f a ≤ f a') {i : ℕ} {a : α}
    (h : xs[i]? = some a) (b : β) : i < xs.countP (f · ≤ b) ↔ f a ≤ b := by
  induction xs generalizing i with
  | nil => simp at h
  | cons x xs ih =>
      by_cases hx : f x ≤ b
      · rw [List.countP_cons_of_pos (by simpa using hx)]
        cases i with
        | zero =>
            cases h
            simp [hx]
        | succ i => simpa using ih (List.pairwise_cons.mp hs).2 (by simpa using h)
      · rw [countP_eq_zero_of_lt hs hx]
        have hle : f x ≤ f a := by
          rcases List.mem_cons.mp (List.mem_of_getElem? h) with rfl | ha
          · exact le_rfl
          · exact (List.pairwise_cons.mp hs).1 a ha
        simpa using (not_le.mp hx).trans_le hle

theorem filter_eq_take_countP (hs : xs.Pairwise fun a a' => f a ≤ f a') (b : β) :
    xs.filter (f · ≤ b) = xs.take (xs.countP (f · ≤ b)) := by
  induction xs with
  | nil => rfl
  | cons x xs ih =>
      by_cases hx : f x ≤ b
      · rw [List.countP_cons_of_pos (by simpa using hx), List.take_succ_cons,
          List.filter_cons_of_pos (by simpa using hx), ih (List.pairwise_cons.mp hs).2]
      · have hzero := countP_eq_zero_of_lt hs hx
        rw [hzero, List.take_zero]
        exact List.length_eq_zero_iff.mp (by rw [← List.countP_eq_length_filter, hzero])

end Prefix

/-! ## Binary digits -/

theorem bits_getLast {n : ℕ} (hn : n ≠ 0) : n.bits.getLast? = some true := by
  induction n using Nat.binaryRec' with
  | zero => exact absurd rfl hn
  | bit b m hb ih =>
      rw [Nat.bits_append_bit m b hb]
      by_cases hm : m = 0
      · simp [hm, hb hm]
      · rw [List.getLast?_cons, ih hm]
        rfl

/-- The last digit is the highest set bit. -/
theorem testBit_length_bits {n : ℕ} (hn : n ≠ 0) :
    n.testBit (n.bits.length - 1) = true ∧
      ∀ i, n.testBit i = true → i ≤ n.bits.length - 1 := by
  have hne : n.bits ≠ [] := by
    intro hnil
    have hlast := bits_getLast hn
    simp [hnil] at hlast
  have hlen : 0 < n.bits.length := List.length_pos_of_ne_nil hne
  constructor
  · have hlast := bits_getLast hn
    rw [List.getLast?_eq_getElem?, List.getElem?_eq_getElem (by omega)] at hlast
    rw [Nat.testBit_eq_inth, List.getI_eq_getElem _ (by omega)]
    exact Option.some.inj hlast
  · intro i hi
    rw [Nat.testBit_eq_inth] at hi
    by_contra hgt
    rw [List.getI_eq_default _ (by omega)] at hi
    cases hi

/-- The first `true` digit is the lowest set bit. -/
theorem testBit_idxOf_bits {n : ℕ} (hn : n ≠ 0) :
    n.testBit (n.bits.idxOf true) = true ∧
      ∀ i, n.testBit i = true → n.bits.idxOf true ≤ i := by
  have hmem : true ∈ n.bits := List.mem_of_getLast? (bits_getLast hn)
  have hlt : n.bits.idxOf true < n.bits.length := List.idxOf_lt_length_iff.mpr hmem
  constructor
  · rw [Nat.testBit_eq_inth, List.getI_eq_getElem _ hlt]
    exact List.getElem_idxOf hlt
  · intro i hi
    rw [Nat.testBit_eq_inth] at hi
    by_contra hgt
    have hilt : i < n.bits.length := by omega
    rw [List.getI_eq_getElem _ hilt] at hi
    have hbefore : i < n.bits.findIdx (· == true) := by
      simpa [List.idxOf] using (by omega : i < n.bits.idxOf true)
    have hfalse := List.not_of_lt_findIdx hbefore
    simp [hi] at hfalse

end Degenbot.Library
