import Mathlib.Data.List.Forall2

/-! # Outcomes of fallible computations

Taking a chain of `Except` binds apart, and relating the outcomes of two programs. -/

namespace Degenbot.Library

universe u v

variable {ε ε' : Type*}

section Bind

variable {α β : Type u}

@[simp] theorem ok_bind (a : α) (f : α → Except ε β) : (Except.ok a >>= f) = f a := rfl

@[simp] theorem error_bind (e : ε) (f : α → Except ε β) :
    (Except.error e >>= f) = Except.error e := rfl

theorem bind_eq_ok {x : Except ε α} {f : α → Except ε β} {b : β} :
    (x >>= f) = .ok b ↔ ∃ a, x = .ok a ∧ f a = .ok b := by
  cases x with
  | error e => simp
  | ok a => simp

/-- An error of a chain is one of its two parts. -/
theorem error_of_bind {x : Except ε α} {f : α → Except ε β} {e : ε} {p : ε → Prop}
    (h : (x >>= f) = .error e) (hx : ∀ e, x = .error e → p e)
    (hf : ∀ a, x = .ok a → f a = .error e → p e) : p e := by
  cases x with
  | error e' =>
      cases h
      exact hx e rfl
  | ok a => exact hf a rfl h

theorem run_bind_eq_some_ok {ε α β : Type u} {x : ExceptT ε Option α}
    {f : α → ExceptT ε Option β} {b : β} :
    (x >>= f).run = some (.ok b) ↔ ∃ a, x.run = some (.ok a) ∧ (f a).run = some (.ok b) := by
  rw [ExceptT.run_bind]
  cases x.run with
  | none => simp
  | some outcome =>
      cases outcome with
      | error e => simp
      | ok a => simp

/-- A result, or an error for its absence. -/
def okOr (value : Option α) (error : ε) : Except ε α :=
  match value with
  | some a => .ok a
  | none => .error error

@[simp] theorem okOr_some (a : α) (e : ε) : okOr (some a) e = .ok a := rfl

@[simp] theorem okOr_none (e : ε) : okOr (none : Option α) e = .error e := rfl

theorem okOr_eq_ok {value : Option α} {e : ε} {a : α} : okOr value e = .ok a ↔ value = some a := by
  cases value with
  | none => simp
  | some b => simp

theorem map_eq_ok {x : Except ε α} {f : α → β} {b : β} :
    x.map f = .ok b ↔ ∃ a, x = .ok a ∧ f a = b := by
  cases x with
  | error e => simp [Except.map]
  | ok a => simp [Except.map]

theorem map_map {γ : Type*} (x : Except ε α) (f : α → β) (g : β → γ) :
    (x.map f).map g = x.map fun a => g (f a) := by
  cases x with
  | error e => rfl
  | ok a => rfl

theorem ite_error_eq_ok {p : Prop} [Decidable p] {e : ε} {x : Except ε α} {a : α} :
    (if p then .error e else x) = .ok a ↔ ¬p ∧ x = .ok a := by
  by_cases hp : p <;> simp [hp]

theorem mapM_eq_ok_of_forall₂ {γ : Type u} {f : α → Except ε β} {g : γ → β} {as : List α}
    {cs : List γ} (h : List.Forall₂ (fun a c => f a = .ok (g c)) as cs) :
    as.mapM f = .ok (cs.map g) := by
  induction h with
  | nil => rfl
  | cons hhead _ ih =>
      rw [List.mapM_cons, hhead, ih]
      rfl

/-- What a search returns was tested. -/
theorem of_findM?_eq_ok {α : Type} {p : α → Except ε Bool} {as : List α} {a : α}
    (h : as.findM? p = .ok (some a)) : a ∈ as ∧ p a = .ok true := by
  induction as with
  | nil => cases h
  | cons b as ih =>
      rw [List.findM?, bind_eq_ok] at h
      obtain ⟨found, hfound, h⟩ := h
      cases found with
      | true =>
          cases h
          exact ⟨List.mem_cons_self, hfound⟩
      | false =>
          have hrest := ih h
          exact ⟨List.mem_cons_of_mem b hrest.1, hrest.2⟩

/-- What a traversal returns comes from its elements. -/
theorem exists_of_mapM_eq_ok {f : α → Except ε β} {as : List α} {bs : List β} {b : β}
    (h : as.mapM f = .ok bs) (hb : b ∈ bs) : ∃ a ∈ as, f a = .ok b := by
  induction as generalizing bs with
  | nil =>
      cases h
      simp at hb
  | cons a as ih =>
      rw [List.mapM_cons] at h
      obtain ⟨b', hb', h⟩ := bind_eq_ok.mp h
      obtain ⟨bs', hbs', h⟩ := bind_eq_ok.mp h
      cases h
      rcases List.mem_cons.mp hb with rfl | hrest
      · exact ⟨a, List.mem_cons_self, hb'⟩
      · obtain ⟨a', ha', hfa'⟩ := ih hbs' hrest
        exact ⟨a', List.mem_cons_of_mem a ha', hfa'⟩

/-- Every element has a result in a traversal. -/
theorem exists_result_of_mapM_eq_ok {f : α → Except ε β} {as : List α} {bs : List β} {a : α}
    (h : as.mapM f = .ok bs) (ha : a ∈ as) : ∃ b ∈ bs, f a = .ok b := by
  induction as generalizing bs with
  | nil => simp at ha
  | cons first as ih =>
      rw [List.mapM_cons] at h
      obtain ⟨b, hb, h⟩ := bind_eq_ok.mp h
      obtain ⟨rest, hrest, h⟩ := bind_eq_ok.mp h
      cases h
      rcases List.mem_cons.mp ha with rfl | ha
      · exact ⟨b, List.mem_cons_self, hb⟩
      · obtain ⟨c, hc, hac⟩ := ih hrest ha
        exact ⟨c, List.mem_cons_of_mem b hc, hac⟩

/-- A loop over the indices of a list that returns its elements. -/
theorem mapM_range_eq_ok {β : Type} {f : ℕ → Except ε β} {bs : List β}
    (h : ∀ index : Fin bs.length, f index = .ok (bs.get index)) :
    (List.range bs.length).mapM f = .ok bs := by
  have hforall : List.Forall₂ (fun index b => f index = .ok (id b)) (List.range bs.length) bs := by
    refine List.forall₂_iff_get.mpr ⟨List.length_range, fun index _ hindex => ?_⟩
    simpa using h ⟨index, hindex⟩
  simpa using mapM_eq_ok_of_forall₂ hforall

/-- A traversal that succeeds everywhere. -/
theorem mapM_eq_ok {f : α → Except ε β} {g : α → β} {as : List α}
    (h : ∀ a ∈ as, f a = .ok (g a)) : as.mapM f = .ok (as.map g) := by
  induction as with
  | nil => rfl
  | cons a as ih =>
      rw [List.mapM_cons, h a List.mem_cons_self,
        ih fun a' ha' => h a' (List.mem_cons_of_mem a ha')]
      rfl

end Bind

section Relation

variable {α γ : Type u} {β δ : Type v}

/-- Two outcomes correspond: both failures with related errors, or both results
with related values. -/
inductive ExceptRel (E : ε → ε' → Prop) (R : α → β → Prop) :
    Except ε α → Except ε' β → Prop where
  | error {e e'} : E e e' → ExceptRel E R (.error e) (.error e')
  | ok {a b} : R a b → ExceptRel E R (.ok a) (.ok b)

theorem ExceptRel.bind {E : ε → ε' → Prop} {R : α → β → Prop} {S : γ → δ → Prop}
    {x : Except ε α} {y : Except ε' β} {f : α → Except ε γ} {g : β → Except ε' δ}
    (hxy : ExceptRel E R x y) (hfg : ∀ a b, x = .ok a → y = .ok b → R a b →
      ExceptRel E S (f a) (g b)) : ExceptRel E S (x >>= f) (y >>= g) := by
  cases hxy with
  | error he => exact .error he
  | ok hab => exact hfg _ _ rfl rfl hab

/-- One computation, followed by two that are related on its value. -/
theorem ExceptRel.bind_same {γ δ : Type u} {R : γ → δ → Prop} (x : Except ε α)
    {f : α → Except ε γ} {g : α → Except ε δ} (hfg : ∀ a, ExceptRel (· = ·) R (f a) (g a)) :
    ExceptRel (· = ·) R (x >>= f) (x >>= g) := by
  cases x with
  | error e => exact .error rfl
  | ok a => exact hfg a

theorem ExceptRel.ok_left {E : ε → ε' → Prop} {R : α → β → Prop} {a : α} {y : Except ε' β}
    (h : ExceptRel E R (.ok a) y) : ∃ b, y = .ok b ∧ R a b := by
  cases h with
  | ok hab => exact ⟨_, rfl, hab⟩

/-- Results of related values that agree. -/
theorem ExceptRel.map_eq {ε : Type*} {η : Type*} {R : α → β → Prop} {x : Except ε α}
    {y : Except ε β} {f : α → η} {g : β → η} (h : ExceptRel (· = ·) R x y)
    (hfg : ∀ a b, R a b → f a = g b) : x.map f = y.map g := by
  cases h with
  | error he => rw [he]; rfl
  | ok hab => exact congrArg Except.ok (hfg _ _ hab)

/-- Two computations that return nothing both fail. -/
theorem ExceptRel.of_failures {R : α → β → Prop} {x : Except ε α} {y : Except ε' β}
    (hx : ∀ a, x ≠ .ok a) (hy : ∀ b, y ≠ .ok b) : ExceptRel (fun _ _ => True) R x y := by
  cases x with
  | ok a => exact absurd rfl (hx a)
  | error e =>
      cases y with
      | ok b => exact absurd rfl (hy b)
      | error e' => exact .error trivial

/-- Outcomes that agree on success, whatever the errors. -/
theorem exceptRel_eq_iff {x : Except ε α} {y : Except ε' α} :
    ExceptRel (fun _ _ => True) (· = ·) x y ↔ ∀ a, x = .ok a ↔ y = .ok a := by
  constructor
  · intro h a
    cases h with
    | error => simp
    | ok hab => simp [hab]
  · intro h
    cases x with
    | ok a => rw [(h a).mp rfl]; exact .ok rfl
    | error e =>
        cases y with
        | error e' => exact .error trivial
        | ok b => exact absurd ((h b).mpr rfl) (by simp)

end Relation

end Degenbot.Library
