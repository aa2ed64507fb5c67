import Mathlib.Data.List.Forall2
import Mathlib.Data.List.Nodup
import Mathlib.Order.MinMax
import Mathlib.Order.Nat
import Mathlib.Tactic

/-! # Lists: folds, first matches and segments -/

/-! ## Folds over a list -/

namespace Degenbot.Library

section Folds

variable {α : Type*}

/-- A fold that at every element keeps its choice or takes the element chooses from the
list. -/
theorem mem_of_foldl_choice {f : Option α → α → Option α}
    (hf : ∀ best x, f best x = best ∨ f best x = some x) {xs : List α} {y : α}
    (h : xs.foldl f none = some y) : y ∈ xs := by
  suffices hfold : ∀ best, xs.foldl f best = some y → best = some y ∨ y ∈ xs by
    exact (hfold none h).resolve_left (by simp)
  clear h
  induction xs with
  | nil => exact fun best hbest => .inl hbest
  | cons x xs ih =>
      intro best hbest
      rcases ih (f best x) hbest with hfirst | hrest
      · rcases hf best x with hkeep | htake
        · exact .inl (hkeep ▸ hfirst)
        · rw [htake] at hfirst
          cases hfirst
          exact .inr List.mem_cons_self
      · exact .inr (List.mem_cons_of_mem x hrest)

/-- The minimum of a start value and a list is one of them and below all of them. -/
theorem foldl_min_spec [LinearOrder α] (xs : List α) (start : α) :
    (xs.foldl min start = start ∨ xs.foldl min start ∈ xs) ∧
      xs.foldl min start ≤ start ∧ ∀ x ∈ xs, xs.foldl min start ≤ x := by
  induction xs generalizing start with
  | nil => simp
  | cons x xs ih =>
      obtain ⟨hmem, hle, hall⟩ := ih (min start x)
      refine ⟨?_, hle.trans (min_le_left start x), ?_⟩
      · rcases hmem with heq | hmem
        · rw [List.foldl_cons, heq]
          rcases min_choice start x with hmin | hmin
          · exact .inl hmin
          · rw [hmin]
            exact .inr List.mem_cons_self
        · exact .inr (List.mem_cons_of_mem x hmem)
      · intro y hy
        rcases List.mem_cons.mp hy with rfl | hrest
        · exact hle.trans (min_le_right start y)
        · exact hall y hrest

/-! ## Related lists -/

variable {β : Type*}

theorem exists_right_of_forall₂ {R : α → β → Prop} {xs : List α} {ys : List β} {x : α}
    (h : List.Forall₂ R xs ys) (hx : x ∈ xs) : ∃ y ∈ ys, R x y := by
  induction h with
  | nil => cases hx
  | cons hhead _ ih =>
      rcases List.mem_cons.mp hx with rfl | hrest
      · exact ⟨_, List.mem_cons_self, hhead⟩
      · obtain ⟨y, hy, hxy⟩ := ih hrest
        exact ⟨y, List.mem_cons_of_mem _ hy, hxy⟩

theorem exists_left_of_forall₂ {R : α → β → Prop} {xs : List α} {ys : List β} {y : β}
    (h : List.Forall₂ R xs ys) (hy : y ∈ ys) : ∃ x ∈ xs, R x y :=
  exists_right_of_forall₂ h.flip hy

theorem zip_set {xs : List α} {ys : List β} {k : ℕ} (x : α) {y : β} (hy : ys[k]? = some y) :
    (xs.set k x).zip ys = (xs.zip ys).set k (x, y) := by
  induction xs generalizing ys k with
  | nil => rfl
  | cons head xs ih =>
      cases ys with
      | nil => simp at hy
      | cons first ys =>
          cases k with
          | zero =>
              rw [List.getElem?_cons_zero, Option.some.injEq] at hy
              rw [List.set_cons_zero, List.zip_cons_cons, List.zip_cons_cons, List.set_cons_zero,
                hy]
          | succ k =>
              rw [List.getElem?_cons_succ] at hy
              rw [List.set_cons_succ, List.zip_cons_cons, List.zip_cons_cons, List.set_cons_succ,
                ih hy]

/-- Neighbours in a list of pairwise related elements are related. -/
theorem rel_of_mem_zip_tail {R : α → α → Prop} {xs : List α} {a b : α} (h : xs.Pairwise R)
    (hab : (a, b) ∈ xs.zip xs.tail) : R a b := by
  induction xs with
  | nil => simp at hab
  | cons x xs ih =>
      obtain ⟨hhead, htail⟩ := List.pairwise_cons.mp h
      cases xs with
      | nil => simp at hab
      | cons y ys =>
          rw [List.tail_cons, List.zip_cons_cons] at hab
          rcases List.mem_cons.mp hab with heq | hrest
          · obtain ⟨rfl, rfl⟩ := Prod.mk.inj heq
            exact hhead b List.mem_cons_self
          · exact ih htail hrest

end Folds

/-! ## Taking matches in order

A greedy loop that takes, again and again, the first element that is left among those of
interest takes them in the order of the list. -/

section FirstMatch

variable {α : Type*} {xs : List α} {p q : α → Bool} {a : α} {k : ℕ}

/-- With the first `k` elements of interest taken, a search that finds one of interest finds
the next. -/
theorem getElem?_of_find?_eq_some (hnodup : (xs.filter q).Nodup)
    (hp : ∀ x ∈ xs, q x = true → (p x = true ↔ x ∉ (xs.filter q).take k))
    (hfind : xs.find? p = some a) (hq : q a = true) : (xs.filter q)[k]? = some a := by
  obtain ⟨hpa, before, after, hxs, hbefore⟩ := List.find?_eq_some_iff_append.mp hfind
  have hsplit : xs.filter q = before.filter q ++ a :: after.filter q := by
    rw [hxs, List.filter_append, List.filter_cons_of_pos hq]
  have hmem : a ∈ xs := by simp [hxs]
  have htaken : a ∉ (xs.filter q).take k := (hp a hmem hq).mp hpa
  -- everything of interest before `a` is taken, and `a` is not
  have hle : k ≤ (before.filter q).length := by
    by_contra hlt
    rw [not_le] at hlt
    refine htaken ?_
    rw [hsplit, List.take_append]
    refine List.mem_append_right _ (List.mem_take_iff_getElem.mpr ⟨0, ?_, by simp⟩)
    simp only [List.length_cons, lt_min_iff]
    omega
  have hge : (before.filter q).length ≤ k := by
    by_contra hlt
    rw [not_le] at hlt
    have hx := List.getElem_mem hlt
    have hx' := List.mem_filter.mp hx
    have hnot : p (before.filter q)[k] = false := by
      simpa using hbefore _ hx'.1
    have hin : (before.filter q)[k] ∈ (xs.filter q).take k := by
      by_contra hout
      rw [(hp _ (by simp [hxs, hx'.1]) hx'.2).mpr hout] at hnot
      cases hnot
    obtain ⟨i, hi, heq⟩ := List.mem_take_iff_getElem.mp hin
    have hi' := lt_min_iff.mp hi
    have hk : k < (xs.filter q).length := by
      rw [hsplit, List.length_append]
      omega
    have hgetk : (xs.filter q)[k] = (before.filter q)[k] := by
      simp only [hsplit, List.getElem_append_left hlt]
    have hinj := hnodup.getElem_inj_iff.mp (heq.trans hgetk.symm)
    omega
  have hlength : (before.filter q).length = k := le_antisymm hge hle
  rw [hsplit, List.getElem?_append_right hge, hlength]
  simp

theorem notMem_take_of_getElem? (hnodup : xs.Nodup) (hget : xs[k]? = some a) :
    a ∉ xs.take k := by
  obtain ⟨hk, hget⟩ := List.getElem?_eq_some_iff.mp hget
  intro htaken
  obtain ⟨i, hi, heq⟩ := List.mem_take_iff_getElem.mp htaken
  have hi' := lt_min_iff.mp hi
  have hinj := hnodup.getElem_inj_iff.mp (heq.trans hget.symm)
  omega

/-- While an element of interest is left, a search finds something. -/
theorem find?_isSome_of_getElem? (hnodup : (xs.filter q).Nodup)
    (hp : ∀ x ∈ xs, q x = true → (p x = true ↔ x ∉ (xs.filter q).take k))
    (hget : (xs.filter q)[k]? = some a) : (xs.find? p).isSome = true := by
  have hmem := List.mem_filter.mp (List.mem_of_getElem? hget)
  rw [List.find?_isSome]
  refine ⟨a, hmem.1, (hp a hmem.1 hmem.2).mpr ?_⟩
  exact notMem_take_of_getElem? hnodup hget

/-! ## Positions -/

variable {β : Type*}

theorem flatMap_zipIdx_eq_zip (xs : List α) (ys : List β) :
    (xs.zipIdx.flatMap fun x => ys[x.2]?.toList.map (x.1, ·)) = xs.zip ys := by
  induction xs generalizing ys with
  | nil => rfl
  | cons x xs ih =>
      cases ys with
      | nil => simp
      | cons y ys =>
          rw [List.zipIdx_cons', List.flatMap_cons, List.flatMap_map]
          simpa using ih ys

theorem map_fst_zip_eq_take (xs : List α) (ys : List β) :
    (xs.zip ys).map Prod.fst = xs.take ys.length := by
  induction xs generalizing ys with
  | nil => simp
  | cons x xs ih =>
      cases ys with
      | nil => simp
      | cons y ys => simp [ih]

end FirstMatch

/-! ## Segments of a list

A segment is found at an offset. Segments of segments and of concatenations are found by
adding up lengths. -/

section Segments

variable {α : Type*} {data segment inner front rest : List α} {offset position : ℕ}

/-- `segment` stands at `offset` of `data`. -/
def SegmentAt (data : List α) (offset : ℕ) (segment : List α) : Prop :=
  ∃ before after, data = before ++ (segment ++ after) ∧ before.length = offset

namespace SegmentAt

theorem whole (data : List α) : SegmentAt data 0 data := ⟨[], [], by simp, rfl⟩

theorem head (front rest : List α) : SegmentAt (front ++ rest) 0 front := ⟨[], rest, rfl, rfl⟩

theorem within (h : SegmentAt data offset segment) (hinner : SegmentAt segment position inner) :
    SegmentAt data (offset + position) inner := by
  obtain ⟨before, after, rfl, rfl⟩ := h
  obtain ⟨before', after', rfl, rfl⟩ := hinner
  exact ⟨before ++ before', after' ++ after, by simp, by simp⟩

theorem skip (front : List α) (h : SegmentAt rest offset segment) :
    SegmentAt (front ++ rest) (front.length + offset) segment := by
  obtain ⟨before, after, rfl, rfl⟩ := h
  exact ⟨front ++ before, after, by simp, by simp⟩

theorem left (h : SegmentAt data offset (front ++ rest)) : SegmentAt data offset front :=
  h.within (head front rest)

theorem right (h : SegmentAt data offset (front ++ rest)) :
    SegmentAt data (offset + front.length) rest := by
  have hrest := h.within ((whole rest).skip front)
  rwa [Nat.add_zero] at hrest

theorem le_length (h : SegmentAt data offset segment) :
    offset + segment.length ≤ data.length := by
  obtain ⟨before, after, rfl, rfl⟩ := h
  simp only [List.length_append]
  omega

theorem take_drop (h : SegmentAt data offset segment) :
    (data.drop offset).take segment.length = segment := by
  obtain ⟨before, after, rfl, rfl⟩ := h
  rw [List.drop_left, List.take_left]

/-- The segment at an index of equally long ones. -/
theorem flatMap_get {β : Type*} {f : β → List α} {width : ℕ} (hwidth : ∀ b, (f b).length = width)
    (bs : List β) (index : Fin bs.length) :
    SegmentAt (bs.flatMap f) (index * width) (f (bs.get index)) := by
  induction bs with
  | nil => exact index.elim0
  | cons b bs ih =>
      rw [List.flatMap_cons]
      cases index using Fin.cases with
      | zero =>
          rw [Fin.val_zero, Nat.zero_mul]
          exact head _ _
      | succ index =>
          have hrest := (ih index).skip (f b)
          have hoffset : (index.succ : ℕ) * width = (f b).length + index * width := by
            rw [Fin.val_succ, hwidth, Nat.add_mul, Nat.one_mul, Nat.add_comm]
          rw [hoffset]
          exact hrest

end SegmentAt

end Segments

end Degenbot.Library
