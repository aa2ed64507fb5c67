import Mathlib.Data.List.Induction
import Mathlib.Tactic.Common

/-! # Runs of a partial step function

A state machine takes a list of inputs, one step for each; an input that is not possible in a
state has no step. Properties are stated of every state, or of every step, of a run. -/

namespace Degenbot.Library

variable {σ ι : Type*} (step : σ → ι → Option σ) (start : σ)

/-- The inputs lead from the start to `s`. -/
def Reaches (inputs : List ι) (s : σ) : Prop := inputs.foldlM step start = some s

/-- Every state that the run passes through. -/
def AllStates (P : σ → Prop) (inputs : List ι) : Prop :=
  ∀ before after, inputs = before ++ after → ∀ s, Reaches step start before s → P s

/-- Every input of the run, with the state in which it is taken. -/
def AllSteps (Allowed : σ → ι → Prop) (inputs : List ι) : Prop :=
  ∀ before input after, inputs = before ++ input :: after →
    ∀ s, Reaches step start before s → Allowed s input

variable {step start} {P Q : σ → Prop} {Allowed : σ → ι → Prop} {inputs : List ι} {input : ι}
  {s s' : σ}

theorem reaches_nil : Reaches step start [] s ↔ start = s := by
  simp [Reaches]

theorem reaches_concat :
    Reaches step start (inputs ++ [input]) s' ↔
      ∃ s, Reaches step start inputs s ∧ step s input = some s' := by
  simp [Reaches, List.foldlM_append, Option.bind_eq_some_iff]

theorem AllSteps.of_concat (h : AllSteps step start Allowed (inputs ++ [input])) :
    AllSteps step start Allowed inputs := by
  intro before input' after hsplit
  apply h before input' (after ++ [input])
  rw [hsplit, List.append_assoc, List.cons_append]

theorem AllStates.of_concat (h : AllStates step start P (inputs ++ [input])) :
    AllStates step start P inputs := by
  intro before after hsplit
  apply h before (after ++ [input])
  rw [hsplit, List.append_assoc]

/-- What every allowed step keeps holds at the end of a run of allowed steps. -/
theorem Reaches.invariant (h : Reaches step start inputs s)
    (hallowed : AllSteps step start Allowed inputs) (hstart : P start)
    (hstep : ∀ s input s', P s → Allowed s input → step s input = some s' → P s') : P s := by
  induction inputs using List.reverseRecOn generalizing s with
  | nil =>
      rw [reaches_nil] at h
      exact h ▸ hstart
  | append_singleton inputs input ih =>
      obtain ⟨s₀, hreaches, hs⟩ := reaches_concat.mp h
      have hs₀ := ih hreaches hallowed.of_concat
      exact hstep s₀ input s hs₀ (hallowed inputs input [] rfl s₀ hreaches) hs

theorem allSteps_nil : AllSteps step start Allowed [] := by
  intro before input after hsplit
  simp at hsplit

theorem AllSteps.cons (hallowed : Allowed start input) (hstep : step start input = some s')
    (h : AllSteps step s' Allowed inputs) : AllSteps step start Allowed (input :: inputs) := by
  intro before input' after hsplit s hreaches
  cases before with
  | nil =>
      cases hsplit
      rw [reaches_nil] at hreaches
      exact hreaches ▸ hallowed
  | cons first before =>
      obtain ⟨rfl, htail⟩ := List.cons_eq_cons.mp hsplit
      refine h before input' after htail s ?_
      rw [Reaches, List.foldlM_cons, hstep] at hreaches
      exact hreaches

theorem AllSteps.of_append {after : List ι}
    (h : AllSteps step start Allowed (inputs ++ after)) : AllSteps step start Allowed inputs := by
  intro before input after' hsplit
  apply h before input (after' ++ after)
  rw [hsplit, List.append_assoc, List.cons_append]

/-- What every step keeps holds at the end of a run. -/
theorem Reaches.invariant_of_step (h : Reaches step start inputs s) (hstart : P start)
    (hstep : ∀ s input s', P s → step s input = some s' → P s') : P s := by
  have hall : AllSteps step start (fun _ _ => True) inputs := fun _ _ _ _ _ _ => trivial
  exact h.invariant hall hstart fun s input s' hs _ => hstep s input s' hs

/-- What every allowed step keeps holds of every state of a run of allowed steps. -/
theorem AllSteps.allStates (h : AllSteps step start Allowed inputs) (hstart : P start)
    (hstep : ∀ s input s', P s → Allowed s input → step s input = some s' → P s') :
    AllStates step start P inputs := by
  intro before after hsplit s hreaches
  subst hsplit
  exact hreaches.invariant h.of_append hstart hstep

/-- When every step that is not allowed shows at once, the runs that never show it are those
of allowed steps. -/
theorem allStates_iff_allSteps (hstart : P start)
    (hstep : ∀ s input s', P s → Allowed s input → step s input = some s' → P s')
    (hshows : ∀ s, P s → Q s)
    (hneeds : ∀ s input, P s → ¬Allowed s input → ∃ s', step s input = some s' ∧ ¬Q s')
    (inputs : List ι) :
    AllStates step start Q inputs ↔ AllSteps step start Allowed inputs := by
  constructor
  · intro h
    induction inputs using List.reverseRecOn with
    | nil =>
        intro before input after hsplit
        simp at hsplit
    | append_singleton inputs last ih =>
        have hinputs := ih h.of_concat
        intro before input after hsplit s hreaches
        rcases List.eq_nil_or_concat after with rfl | ⟨after, last', rfl⟩
        · rw [List.append_singleton_inj] at hsplit
          obtain ⟨rfl, rfl⟩ := hsplit
          by_contra hnot
          have hs := hreaches.invariant hinputs hstart hstep
          obtain ⟨s', hs', hbad⟩ := hneeds s _ hs hnot
          exact hbad (h _ [] (by simp) s' (reaches_concat.mpr ⟨s, hreaches, hs'⟩))
        · rw [List.concat_eq_append, ← List.cons_append, ← List.append_assoc,
            List.append_singleton_inj] at hsplit
          exact hinputs before input after hsplit.1 s hreaches
  · intro h before after hsplit s hreaches
    exact hshows s (h.allStates hstart hstep before after hsplit s hreaches)

end Degenbot.Library
