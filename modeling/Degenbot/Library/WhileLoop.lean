import Degenbot.Library.Outcome
import Mathlib.Data.Nat.Basic
import Mathlib.Logic.Relation

/-! # Fallible loops -/

/-! ## Fallible while loops

A loop is run with a step budget; `none` says that the budget ran out while the
guard was still true. The rules below never mention a particular loop. -/

namespace Degenbot.Library

section Loop

variable {σ τ ε ε' : Type*}

def whileLoop (guard : σ → Bool) (body : σ → Except ε σ) :
    ℕ → σ → Option (Except ε σ)
  | 0, _ => none
  | fuel + 1, s =>
      if guard s then
        match body s with
        | .error e => some (.error e)
        | .ok s' => whileLoop guard body fuel s'
      else some (.ok s)

/-! ## Unfolding -/

section Unfold

variable {guard : σ → Bool} {body : σ → Except ε σ} {s s' : σ} {e : ε}

@[simp] theorem whileLoop_zero : whileLoop guard body 0 s = none := rfl

theorem whileLoop_exit (fuel : ℕ) (h : guard s = false) :
    whileLoop guard body (fuel + 1) s = some (.ok s) := by
  simp [whileLoop, h]

theorem whileLoop_error (fuel : ℕ) (h : guard s = true) (hb : body s = .error e) :
    whileLoop guard body (fuel + 1) s = some (.error e) := by
  simp [whileLoop, h, hb]

theorem whileLoop_step (fuel : ℕ) (h : guard s = true) (hb : body s = .ok s') :
    whileLoop guard body (fuel + 1) s = whileLoop guard body fuel s' := by
  simp [whileLoop, h, hb]

/-- A loop whose guard is false at once returns its state, whatever the budget. -/
theorem whileLoop_eq_of_exit {fuel : ℕ} {r : Except ε σ} (h : guard s = false)
    (hr : whileLoop guard body fuel s = some r) : r = .ok s := by
  cases fuel with
  | zero => cases hr
  | succ fuel =>
      rw [whileLoop_exit fuel h] at hr
      exact (Option.some.inj hr).symm

end Unfold

/-! ## Results do not depend on the budget -/

theorem whileLoop_mono {guard : σ → Bool} {body : σ → Except ε σ} {fuel fuel' : ℕ} {s : σ}
    {r : Except ε σ} (h : whileLoop guard body fuel s = some r) (hle : fuel ≤ fuel') :
    whileLoop guard body fuel' s = some r := by
  induction fuel generalizing fuel' s with
  | zero => simp at h
  | succ fuel ih =>
      obtain ⟨extra, rfl⟩ : ∃ extra, fuel' = extra + 1 := ⟨fuel' - 1, by omega⟩
      cases hg : guard s with
      | false =>
          rw [whileLoop_exit fuel hg] at h
          rw [whileLoop_exit extra hg, h]
      | true =>
          cases hb : body s with
          | error e =>
              rw [whileLoop_error fuel hg hb] at h
              rw [whileLoop_error extra hg hb, h]
          | ok s' =>
              rw [whileLoop_step fuel hg hb] at h
              rw [whileLoop_step extra hg hb]
              exact ih h (by omega)

theorem whileLoop_deterministic {guard : σ → Bool} {body : σ → Except ε σ} {n m : ℕ} {s : σ}
    {r r' : Except ε σ} (h : whileLoop guard body n s = some r)
    (h' : whileLoop guard body m s = some r') : r = r' := by
  have hn := whileLoop_mono h (Nat.le_max_left n m)
  have hm := whileLoop_mono h' (Nat.le_max_right n m)
  exact Option.some.inj (hn.symm.trans hm)

/-! ## Invariant and variant -/

/-- One completed iteration. -/
def Iterates (guard : σ → Bool) (body : σ → Except ε σ) (s s' : σ) : Prop :=
  guard s = true ∧ body s = .ok s'

/-- The states in which the guard is evaluated during a run from `s`. -/
abbrev Visits (guard : σ → Bool) (body : σ → Except ε σ) : σ → σ → Prop :=
  Relation.ReflTransGen (Iterates guard body)

theorem visits_of_exit {guard : σ → Bool} {body : σ → Except ε σ} {s t : σ}
    (hg : guard s = false) (h : Visits guard body s t) : t = s := by
  rcases h.cases_head with heq | ⟨s', ⟨hg', -⟩, -⟩
  · exact heq.symm
  · rw [hg] at hg'
    cases hg'

theorem visits_of_step {guard : σ → Bool} {body : σ → Except ε σ} {s s' t : σ}
    (hb : body s = .ok s') (h : Visits guard body s t) : t = s ∨ Visits guard body s' t := by
  rcases h.cases_head with heq | ⟨s'', ⟨-, hb'⟩, htail⟩
  · exact .inl heq.symm
  · rw [hb] at hb'
    cases hb'
    exact .inr htail

theorem whileLoop_invariant {guard : σ → Bool} {body : σ → Except ε σ} {I : σ → Prop}
    (hstep : ∀ s s', I s → Iterates guard body s s' → I s') {fuel : ℕ} {s t : σ}
    (hs : I s) (h : whileLoop guard body fuel s = some (.ok t)) : I t ∧ guard t = false := by
  induction fuel generalizing s with
  | zero => simp at h
  | succ fuel ih =>
      cases hg : guard s with
      | false =>
          rw [whileLoop_exit fuel hg] at h
          cases h
          exact ⟨hs, hg⟩
      | true =>
          cases hb : body s with
          | error e => simp [whileLoop_error fuel hg hb] at h
          | ok s' =>
              rw [whileLoop_step fuel hg hb] at h
              exact ih (hstep s s' hs ⟨hg, hb⟩) h

/-- An error of a loop is the error of one of its iterations. -/
theorem exists_of_whileLoop_error {guard : σ → Bool} {body : σ → Except ε σ} {fuel : ℕ} {s : σ}
    {e : ε} (h : whileLoop guard body fuel s = some (.error e)) :
    ∃ s', guard s' = true ∧ body s' = .error e := by
  induction fuel generalizing s with
  | zero => simp at h
  | succ fuel ih =>
      cases hg : guard s with
      | false => simp [whileLoop_exit fuel hg] at h
      | true =>
          cases hb : body s with
          | error e' =>
              rw [whileLoop_error fuel hg hb] at h
              cases h
              exact ⟨s, hg, hb⟩
          | ok s' =>
              rw [whileLoop_step fuel hg hb] at h
              exact ih h

/-- A measure that drops whenever another iteration follows bounds the run. -/
theorem whileLoop_terminates {guard : σ → Bool} {body : σ → Except ε σ} {I : σ → Prop}
    (variant : σ → ℕ) (hstep : ∀ s s', I s → Iterates guard body s s' → I s')
    (hvar : ∀ s s', I s → Iterates guard body s s' → guard s' = true → variant s' < variant s)
    {fuel : ℕ} {s : σ} (hs : I s) (hfuel : variant s + 2 ≤ fuel) :
    ∃ r, whileLoop guard body fuel s = some r := by
  induction fuel generalizing s with
  | zero => omega
  | succ fuel ih =>
      cases hg : guard s with
      | false => exact ⟨_, whileLoop_exit fuel hg⟩
      | true =>
          cases hb : body s with
          | error e => exact ⟨_, whileLoop_error fuel hg hb⟩
          | ok s' =>
              rw [whileLoop_step fuel hg hb]
              have hs' := hstep s s' hs ⟨hg, hb⟩
              cases hg' : guard s' with
              | false =>
                  obtain ⟨extra, rfl⟩ : ∃ extra, fuel = extra + 1 := ⟨fuel - 1, by omega⟩
                  exact ⟨_, whileLoop_exit extra hg'⟩
              | true =>
                  have hlt := hvar s s' hs ⟨hg, hb⟩ hg'
                  exact ih hs' (by omega)

/-! ## Returned states -/

/-- The loop ends in `t` for some budget. -/
def WhileReturns (guard : σ → Bool) (body : σ → Except ε σ) (s t : σ) : Prop :=
  ∃ fuel, whileLoop guard body fuel s = some (.ok t)

section Returns

variable {guard : σ → Bool} {body : σ → Except ε σ} {s s' t : σ}

theorem whileReturns_exit (h : guard s = false) : WhileReturns guard body s t ↔ t = s := by
  constructor
  · intro ⟨fuel, hfuel⟩
    exact Except.ok.inj (whileLoop_eq_of_exit h hfuel)
  · rintro rfl
    exact ⟨1, whileLoop_exit 0 h⟩

theorem whileReturns_step (h : guard s = true) (hb : body s = .ok s') :
    WhileReturns guard body s t ↔ WhileReturns guard body s' t := by
  constructor
  · intro ⟨fuel, hfuel⟩
    cases fuel with
    | zero => simp at hfuel
    | succ fuel => exact ⟨fuel, (whileLoop_step fuel h hb).symm.trans hfuel⟩
  · intro ⟨fuel, hfuel⟩
    exact ⟨fuel + 1, (whileLoop_step fuel h hb).trans hfuel⟩

theorem not_whileReturns_of_error {e : ε} (h : guard s = true) (hb : body s = .error e) :
    ¬WhileReturns guard body s t := by
  rintro ⟨fuel, hfuel⟩
  cases fuel with
  | zero => simp at hfuel
  | succ fuel =>
      rw [whileLoop_error fuel h hb] at hfuel
      cases hfuel

theorem whileReturns_invariant {I : σ → Prop}
    (hstep : ∀ s s', I s → Iterates guard body s s' → I s') (hs : I s)
    (h : WhileReturns guard body s t) : I t := by
  obtain ⟨fuel, hfuel⟩ := h
  exact (whileLoop_invariant hstep hs hfuel).1

end Returns

/-! ## Lockstep simulation -/

/-- Loops with equal guards and corresponding bodies have corresponding outcomes at
every budget. -/
theorem whileLoop_rel {guard : σ → Bool} {body : σ → Except ε σ} {guard' : τ → Bool}
    {body' : τ → Except ε' τ} {E : ε → ε' → Prop} {R : σ → τ → Prop}
    (hguard : ∀ s t, R s t → guard s = guard' t)
    (hbody : ∀ s t, R s t → guard s = true → ExceptRel E R (body s) (body' t))
    (fuel : ℕ) {s : σ} {t : τ} (h : R s t) :
    Option.Rel (ExceptRel E R) (whileLoop guard body fuel s) (whileLoop guard' body' fuel t) := by
  induction fuel generalizing s t with
  | zero => exact .none
  | succ fuel ih =>
      have hgt := hguard s t h
      cases hg : guard s with
      | false =>
          rw [whileLoop_exit fuel hg, whileLoop_exit fuel (hgt ▸ hg)]
          exact .some (.ok h)
      | true =>
          have hg' : guard' t = true := hgt ▸ hg
          have hr := hbody s t h hg
          cases hb : body s with
          | error e =>
              rw [hb] at hr
              cases hb' : body' t with
              | error e' =>
                  rw [hb'] at hr
                  rw [whileLoop_error fuel hg hb, whileLoop_error fuel hg' hb']
                  exact .some hr
              | ok t' => rw [hb'] at hr; cases hr
          | ok s' =>
              rw [hb] at hr
              cases hb' : body' t with
              | error e' => rw [hb'] at hr; cases hr
              | ok t' =>
                  rw [hb'] at hr
                  rw [whileLoop_step fuel hg hb, whileLoop_step fuel hg' hb']
                  cases hr with
                  | ok hr => exact ih hr

end Loop

/-! ## Iterations that stop when two values are close

And a refinement for programs that may give up: the second outcome is that of the first one,
unless the first one gives up. -/

section Converge

universe u v

/-- `for _ in range(rounds)`, returning the first value that is close to the one before. -/
def converge {α : Type*} {ε : Type*} (next : α → Except ε α) (close : α → α → Bool) (failure : ε) :
    ℕ → α → Except ε α
  | 0, _ => .error failure
  | rounds + 1, a =>
      match next a with
      | .error e => .error e
      | .ok b => if close a b then .ok b else converge next close failure rounds b

variable {ε ε' : Type*}

/-- Both return related values, both fail with related errors, or the first gives up. -/
inductive RefinesUpTo {α : Type u} {β : Type v} (gaveUp : ε → Prop) (E : ε → ε' → Prop)
    (R : α → β → Prop) : Except ε α → Except ε' β → Prop where
  | ok {a b} : R a b → RefinesUpTo gaveUp E R (.ok a) (.ok b)
  | error {e e'} : E e e' → RefinesUpTo gaveUp E R (.error e) (.error e')
  | gaveUp {e y} : gaveUp e → RefinesUpTo gaveUp E R (.error e) y

namespace RefinesUpTo

variable {gaveUp : ε → Prop} {E : ε → ε' → Prop}

theorem bind {α γ : Type u} {β δ : Type v} {R : α → β → Prop} {S : γ → δ → Prop}
    {x : Except ε α} {y : Except ε' β} {f : α → Except ε γ} {g : β → Except ε' δ}
    (hxy : RefinesUpTo gaveUp E R x y)
    (hfg : ∀ a b, x = .ok a → R a b → RefinesUpTo gaveUp E S (f a) (g b)) :
    RefinesUpTo gaveUp E S (x >>= f) (y >>= g) := by
  cases hxy with
  | ok hab => exact hfg _ _ rfl hab
  | error he => exact .error he
  | gaveUp he => exact .gaveUp he

/-- A step of the first program alone, which may give up. -/
theorem bind_left {α γ : Type u} {δ : Type v} {S : γ → δ → Prop} {x : Except ε α}
    {f : α → Except ε γ} {y : Except ε' δ} (hx : ∀ e, x = .error e → gaveUp e)
    (hf : ∀ a, x = .ok a → RefinesUpTo gaveUp E S (f a) y) :
    RefinesUpTo gaveUp E S (x >>= f) y := by
  cases x with
  | ok a => exact hf a rfl
  | error e => exact .gaveUp (hx e rfl)

theorem ite_left {α : Type u} {β : Type v} {R : α → β → Prop} {p : Prop} [Decidable p] {e : ε}
    {x : Except ε α} {y : Except ε' β} (he : gaveUp e)
    (hx : ¬p → RefinesUpTo gaveUp E R x y) :
    RefinesUpTo gaveUp E R (if p then .error e else x) y := by
  by_cases hp : p
  · rw [if_pos hp]
    exact .gaveUp he
  · rw [if_neg hp]
    exact hx hp

/-- Two loops over related lists. -/
theorem foldlM {α : Type u} {β : Type v} {ι κ : Type*} {R : α → β → Prop} {Q : ι → κ → Prop}
    {f : α → ι → Except ε α} {g : β → κ → Except ε' β} {as : List ι} {bs : List κ}
    (hlists : List.Forall₂ Q as bs) {a : α} {b : β} (hab : R a b)
    (hstep : ∀ a b i k, R a b → Q i k → RefinesUpTo gaveUp E R (f a i) (g b k)) :
    RefinesUpTo gaveUp E R (as.foldlM f a) (bs.foldlM g b) := by
  induction hlists generalizing a b with
  | nil => exact .ok hab
  | cons hhead _ ih =>
      rw [List.foldlM_cons, List.foldlM_cons]
      exact bind (hstep a b _ _ hab hhead) fun _ _ _ hnext => ih hnext

/-- Two traversals of related lists. -/
theorem mapM {α : Type u} {β : Type v} {ι κ : Type*} {R : α → β → Prop} {Q : ι → κ → Prop}
    {f : ι → Except ε α} {g : κ → Except ε' β} {as : List ι} {bs : List κ}
    (hlists : List.Forall₂ Q as bs) (h : ∀ i k, Q i k → RefinesUpTo gaveUp E R (f i) (g k)) :
    RefinesUpTo gaveUp E (List.Forall₂ R) (as.mapM f) (bs.mapM g) := by
  induction hlists with
  | nil => exact .ok .nil
  | cons hhead _ ih =>
      rw [List.mapM_cons, List.mapM_cons]
      refine bind (h _ _ hhead) fun _ _ _ hfirst => bind ih fun _ _ _ hrest => ?_
      exact .ok (.cons hfirst hrest)

/-- Two iterations that agree at every value stop at the same one. -/
theorem converge {α : Type u} {β : Type v} {R : α → β → Prop} {next : α → Except ε α}
    {next' : β → Except ε' β} {close : α → α → Bool} {close' : β → β → Bool} {failure : ε}
    {failure' : ε'} (hfailure : E failure failure')
    (hnext : ∀ a b, R a b → RefinesUpTo gaveUp E R (next a) (next' b))
    (hclose : ∀ a b a' b', R a b → R a' b' → close a a' = close' b b') (rounds : ℕ) {a : α} {b : β}
    (hab : R a b) :
    RefinesUpTo gaveUp E R (Library.converge next close failure rounds a)
      (Library.converge next' close' failure' rounds b) := by
  induction rounds generalizing a b with
  | zero => exact .error hfailure
  | succ rounds ih =>
      have hstep := hnext a b hab
      simp only [Library.converge]
      generalize next a = x at hstep
      generalize next' b = y at hstep
      cases hstep with
      | error he => exact .error he
      | gaveUp he => exact .gaveUp he
      | @ok a' b' hnew =>
          simp only [hclose a b a' b' hab hnew]
          by_cases hstop : close' b b' = true
          · rw [if_pos hstop, if_pos hstop]
            exact .ok hnew
          · rw [if_neg hstop, if_neg hstop]
            exact ih hnew

end RefinesUpTo

end Converge

/-! ## Rounds that return a result or the next value -/

section Rounds

variable {α β ε : Type*}

/-- `for _ in range(rounds)` with a `return` inside. -/
def boundedRounds (round : α → Except ε (β ⊕ α)) (failure : ε) : ℕ → α → Except ε β
  | 0, _ => .error failure
  | rounds + 1, a =>
      match round a with
      | .error e => .error e
      | .ok (.inl b) => .ok b
      | .ok (.inr a') => boundedRounds round failure rounds a'

/-- The value after a number of rounds that did not return. -/
def RoundsReach (round : α → Except ε (β ⊕ α)) : ℕ → α → α → Prop
  | 0, a, a' => a = a'
  | n + 1, a, a' => ∃ next, round a = .ok (.inr next) ∧ RoundsReach round n next a'

theorem boundedRounds_eq_ok {round : α → Except ε (β ⊕ α)} {failure : ε} {rounds : ℕ} {a : α}
    {b : β} : boundedRounds round failure rounds a = .ok b ↔
      ∃ n < rounds, ∃ a', RoundsReach round n a a' ∧ round a' = .ok (.inl b) := by
  induction rounds generalizing a with
  | zero => simp [boundedRounds]
  | succ rounds ih =>
      rw [boundedRounds]
      constructor
      · intro h
        cases hround : round a with
        | error e => rw [hround] at h; cases h
        | ok outcome =>
            rw [hround] at h
            cases outcome with
            | inl b' =>
                cases h
                exact ⟨0, Nat.succ_pos rounds, a, rfl, hround⟩
            | inr next =>
                obtain ⟨n, hn, a', hreach, hb⟩ := ih.mp h
                exact ⟨n + 1, Nat.succ_lt_succ hn, a', ⟨next, hround, hreach⟩, hb⟩
      · rintro ⟨n, hn, a', hreach, hb⟩
        cases n with
        | zero =>
            cases hreach
            rw [hb]
        | succ n =>
            obtain ⟨next, hround, hreach⟩ := hreach
            rw [hround]
            exact ih.mpr ⟨n, Nat.lt_of_succ_lt_succ hn, a', hreach, hb⟩

end Rounds

end Degenbot.Library
