import Degenbot.Library.Outcome
import Mathlib.Algebra.BigOperators.Group.List.Basic

/-! # Entries and batches -/

/-! ## Traversals, entry by entry -/

namespace Degenbot.Library

universe w

section Traverse

variable {ε : Type*} {α β : Type w} {f : α → Except ε β} {as : List α} {bs : List β}

theorem mapM_eq_ok_iff :
    as.mapM f = .ok bs ↔ List.Forall₂ (fun a b => f a = .ok b) as bs := by
  induction as generalizing bs with
  | nil =>
      rw [List.mapM_nil, List.forall₂_nil_left_iff]
      exact ⟨fun h => (Except.ok.inj h).symm, fun h => congrArg Except.ok h.symm⟩
  | cons a as ih =>
      rw [List.mapM_cons, List.forall₂_cons_left_iff, bind_eq_ok]
      constructor
      · rintro ⟨b, hb, h⟩
        obtain ⟨rest, hrest, h⟩ := bind_eq_ok.mp h
        exact ⟨b, rest, hb, ih.mp hrest, (Except.ok.inj h).symm⟩
      · rintro ⟨b, rest, hb, hrest, rfl⟩
        exact ⟨b, hb, bind_eq_ok.mpr ⟨rest, ih.mpr hrest, rfl⟩⟩

/-- A traversal fails when one of its entries does. -/
theorem exists_error_of_mapM {a : α} {e : ε} (ha : a ∈ as) (h : f a = .error e) :
    ∃ e', as.mapM f = .error e' := by
  cases hrun : as.mapM f with
  | error e' => exact ⟨e', rfl⟩
  | ok bs =>
      obtain ⟨b, _, hb⟩ := exists_result_of_mapM_eq_ok hrun ha
      rw [h] at hb
      cases hb

/-- Every failure of a traversal is a failure at one of the entries. -/
theorem exists_of_mapM_error {e : ε} (h : as.mapM f = .error e) : ∃ a ∈ as, f a = .error e := by
  induction as with
  | nil => cases h
  | cons a as ih =>
      rw [List.mapM_cons] at h
      cases ha : f a with
      | error e' =>
          rw [ha] at h
          cases h
          exact ⟨a, List.mem_cons_self, ha⟩
      | ok b =>
          rw [ha, ok_bind] at h
          cases hrest : as.mapM f with
          | error e' =>
              rw [hrest] at h
              cases h
              obtain ⟨a', ha', he⟩ := ih hrest
              exact ⟨a', List.mem_cons_of_mem a ha', he⟩
          | ok bs =>
              rw [hrest] at h
              cases h

/-- A traversal sees an entry through its image. -/
theorem mapM_set_congr {a a' : α} (h : f a = f a') (k : ℕ) :
    (as.set k a).mapM f = (as.set k a').mapM f := by
  induction as generalizing k with
  | nil => rfl
  | cons head as ih =>
      cases k with
      | zero => rw [List.set_cons_zero, List.set_cons_zero, List.mapM_cons, List.mapM_cons, h]
      | succ k => rw [List.set_cons_succ, List.set_cons_succ, List.mapM_cons, List.mapM_cons, ih k]

theorem exists_forall₂ {R : α → β → Prop} (h : ∀ a ∈ as, ∃ b, R a b) :
    ∃ bs, List.Forall₂ R as bs := by
  induction as with
  | nil => exact ⟨[], .nil⟩
  | cons a as ih =>
      obtain ⟨b, hb⟩ := h a List.mem_cons_self
      obtain ⟨bs, hbs⟩ := ih fun a' ha' => h a' (List.mem_cons_of_mem a ha')
      exact ⟨b :: bs, .cons hb hbs⟩

end Traverse

/-! ## Replaying events in batches

A row is loaded into a working state, a batch of events is replayed on it, and the state
is stored in the row. When a stored state that is loaded again behaves like the state
itself, the batches of a list of events leave the same contents as the whole list. -/

section Batch

variable {ρ σ ι ε γ : Type}

/-- What every accepted event keeps holds after a replay. -/
theorem foldlM_invariant {step : σ → ι → Except ε σ} {P : σ → Prop} {events : List ι}
    (hstep : ∀ event ∈ events, ∀ s s', P s → step s event = .ok s' → P s') {s s' : σ}
    (hs : P s) (h : events.foldlM step s = .ok s') : P s' := by
  induction events generalizing s with
  | nil =>
      cases h
      exact hs
  | cons event events ih =>
      rw [List.foldlM_cons] at h
      obtain ⟨next, hnext, h⟩ := bind_eq_ok.mp h
      have hnextP := hstep event List.mem_cons_self s next hs hnext
      exact ih (fun event hevent => hstep event (List.mem_cons_of_mem _ hevent)) hnextP h

/-- An invariant that mentions the events replayed so far. A step knows the runs before and
after it. -/
theorem foldlM_run_invariant {step : σ → ι → Except ε σ} {P : List ι → σ → Prop}
    {events : List ι} {s₀ final : σ}
    (hstep : ∀ done event todo s s', events = done ++ event :: todo →
      done.foldlM step s₀ = .ok s → step s event = .ok s' → todo.foldlM step s' = .ok final →
      P done s → P (done ++ [event]) s')
    (hs : P [] s₀) (h : events.foldlM step s₀ = .ok final) : P events final := by
  have hloop : ∀ todo done s, events = done ++ todo → done.foldlM step s₀ = .ok s → P done s →
      todo.foldlM step s = .ok final → P events final := by
    intro todo
    induction todo with
    | nil =>
        intro done s hevents _ hs h
        cases h
        rw [hevents, List.append_nil]
        exact hs
    | cons event todo ih =>
        intro done s hevents hdone hs h
        rw [List.foldlM_cons] at h
        obtain ⟨next, hnext, h⟩ := bind_eq_ok.mp h
        have hdone' : (done ++ [event]).foldlM step s₀ = .ok next := by
          rw [List.foldlM_append, hdone, ok_bind, List.foldlM_cons, hnext]
          rfl
        refine ih (done ++ [event]) next ?_ hdone'
          (hstep done event todo s next hevents hdone hnext h hs) h
        rw [hevents, List.append_assoc, List.singleton_append]
  exact hloop events [] s₀ rfl rfl hs h

/-- A quantity to which every event adds its amount. -/
theorem foldlM_add_sum {M : Type} [AddMonoid M] {step : σ → ι → Except ε σ} (quantity : σ → M)
    {amount : ι → M} {events : List ι}
    (hstep : ∀ event ∈ events, ∀ s s', step s event = .ok s' →
      quantity s' = quantity s + amount event) {s s' : σ}
    (h : events.foldlM step s = .ok s') :
    quantity s' = quantity s + (events.map amount).sum := by
  induction events generalizing s with
  | nil =>
      cases h
      simp
  | cons event events ih =>
      rw [List.foldlM_cons] at h
      obtain ⟨next, hnext, h⟩ := bind_eq_ok.mp h
      rw [ih (fun event hevent => hstep event (List.mem_cons_of_mem _ hevent)) h,
        hstep event List.mem_cons_self s next hnext, List.map_cons, List.sum_cons, add_assoc]

/-- Related states replay a list of events alike. -/
theorem foldlM_exceptRel {step : σ → ι → Except ε σ} {R : σ → σ → Prop}
    (hstep : ∀ s s' event, R s s' → ExceptRel (· = ·) R (step s event) (step s' event))
    {s s' : σ} (hs : R s s') (events : List ι) :
    ExceptRel (· = ·) R (events.foldlM step s) (events.foldlM step s') := by
  induction events generalizing s s' with
  | nil => exact .ok hs
  | cons event events ih =>
      rw [List.foldlM_cons, List.foldlM_cons]
      exact (hstep s s' event hs).bind fun _ _ _ _ hnext => ih hnext

variable (load : ρ → σ) (step : σ → ι → Except ε σ) (store : ρ → σ → ρ)

def replayBatch (row : ρ) (events : List ι) : Except ε ρ :=
  (events.foldlM step (load row)).map (store row)

/-- A stored state loads again as a state with the same behaviour. `Of row` are the states
that a replay of the row can reach. -/
structure Reloads (Inv : ρ → Prop) (Of : ρ → σ → Prop) (Same : σ → σ → Prop)
    (contents : ρ → γ) : Prop where
  of_load : ∀ row, Of row (load row)
  of_step : ∀ row s event s', Of row s → step s event = .ok s' → Of row s'
  same_step : ∀ s s' event, Same s s' → ExceptRel (· = ·) Same (step s event) (step s' event)
  same_reload : ∀ row s, Of row s → Same (load (store row s)) s
  store_same : ∀ row s s₁ s₂, Same s₁ s₂ →
    contents (store (store row s) s₁) = contents (store row s₂)
  inv_store : ∀ row s, Inv (store row s)
  store_load : ∀ row, Inv row → contents (store row (load row)) = contents row

variable {load step store} {Inv : ρ → Prop} {Of : ρ → σ → Prop} {Same : σ → σ → Prop}
  {contents : ρ → γ}

/-- Storing in between does not change what the later events leave. -/
theorem Reloads.replayBatch_append (hreloads : Reloads load step store Inv Of Same contents)
    (row : ρ) (first rest : List ι) :
    (replayBatch load step store row first >>= fun row' =>
      replayBatch load step store row' rest).map contents =
        (replayBatch load step store row (first ++ rest)).map contents := by
  unfold replayBatch
  rw [List.foldlM_append]
  cases hfirst : first.foldlM step (load row) with
  | error e => rfl
  | ok s =>
      have hof : Of row s := foldlM_invariant (fun event _ s s' => hreloads.of_step row s event s')
        (hreloads.of_load row) hfirst
      have hrest := foldlM_exceptRel hreloads.same_step (hreloads.same_reload row s hof) rest
      have hcontents := hrest.map_eq (fun s₁ s₂ => hreloads.store_same row s s₁ s₂)
      simp only [← map_map] at hcontents
      exact hcontents

theorem Reloads.foldlM_replayBatch (hreloads : Reloads load step store Inv Of Same contents)
    (batches : List (List ι)) {row : ρ} (hrow : Inv row) :
    (batches.foldlM (replayBatch load step store) row).map contents =
      (replayBatch load step store row batches.flatten).map contents := by
  induction batches generalizing row with
  | nil => exact congrArg Except.ok (hreloads.store_load row hrow).symm
  | cons batch batches ih =>
      rw [List.foldlM_cons, List.flatten_cons, ← hreloads.replayBatch_append]
      cases hbatch : replayBatch load step store row batch with
      | error e => rfl
      | ok row' =>
          have hrow' : Inv row' := by
            obtain ⟨s, -, rfl⟩ := map_eq_ok.mp hbatch
            exact hreloads.inv_store row s
          exact ih hrow'

end Batch

end Degenbot.Library
