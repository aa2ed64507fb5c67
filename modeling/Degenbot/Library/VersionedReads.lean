import Mathlib.Tactic.Common
import Mathlib.Logic.Function.Basic

/-! # Adaptive reads of a changing store

A reader asks for one key after another, each choice depending on the answers so far. The
store has versions, and every read is answered at the version that is current then. The
reads are those of a single version for every content of the store exactly when the version
does not change between them. -/

namespace Degenbot.Library

/-- A computation that reads; a read may fail. -/
inductive Reader (Key : Type) (Value : Key → Type) (ε α : Type) where
  | done (result : α)
  | read (key : Key) (next : Except ε (Value key) → Reader Key Value ε α)

namespace Reader

variable {Key : Type} {Value : Key → Type} {ε α β : Type}

def bind : Reader Key Value ε α → (α → Reader Key Value ε β) → Reader Key Value ε β
  | done result, f => f result
  | read key next, f => read key fun answer => (next answer).bind f

instance : Monad (Reader Key Value ε) where
  pure := done
  bind := bind

/-- A single read. -/
def ask (key : Key) : Reader Key Value ε (Except ε (Value key)) := read key done

/-- The version at which each read is answered, by its number, and the reads that fail. -/
structure Schedule (ε : Type) where
  version : ℕ → ℕ
  failure : ℕ → Option ε

/-- Every read is answered at version `v`. -/
def Schedule.pinned (schedule : Schedule ε) (v : ℕ) : Schedule ε :=
  { schedule with version := fun _ => v }

/-- A read that was answered. -/
structure Answered (Key : Type) (Value : Key → Type) where
  key : Key
  value : Value key
  version : ℕ

/-- The contents of the store, by version. -/
abbrev History (Key : Type) (Value : Key → Type) := ℕ → (key : Key) → Value key

/-- The result of a computation whose first read has number `i`, and its answered reads. -/
def run (history : History Key Value) (schedule : Schedule ε) :
    Reader Key Value ε α → ℕ → α × List (Answered Key Value)
  | done result, _ => (result, [])
  | read key next, i =>
      match schedule.failure i with
      | some e => run history schedule (next (.error e)) (i + 1)
      | none =>
          let v := schedule.version i
          let rest := run history schedule (next (.ok (history v key))) (i + 1)
          (rest.1, ⟨key, history v key, v⟩ :: rest.2)

variable {history : History Key Value} {schedule : Schedule ε} {program : Reader Key Value ε α}
  {i v : ℕ}

theorem value_eq_of_mem_run {answered : Answered Key Value}
    (h : answered ∈ (program.run history schedule i).2) :
    answered.value = history answered.version answered.key := by
  induction program generalizing i with
  | done result => simp [run] at h
  | read key next ih =>
      unfold run at h
      split at h
      case h_1 e _ => exact ih _ h
      case h_2 =>
        rcases List.mem_cons.mp h with rfl | h
        · rfl
        · exact ih _ h

/-- Reads that are those of version `v` give the result of that version. -/
theorem run_pinned_of_values
    (h : ∀ answered ∈ (program.run history schedule i).2,
      answered.value = history v answered.key) :
    (program.run history (schedule.pinned v) i).1 = (program.run history schedule i).1 := by
  induction program generalizing i with
  | done result => rfl
  | read key next ih =>
      unfold run at h ⊢
      cases hfailure : schedule.failure i with
      | some e =>
          simp only [hfailure, Schedule.pinned] at h ⊢
          exact ih _ h
      | none =>
          simp only [hfailure, Schedule.pinned] at h ⊢
          have hvalue := h _ List.mem_cons_self
          simp only at hvalue
          rw [← hvalue]
          exact ih _ fun answered hanswered => h answered (List.mem_cons_of_mem _ hanswered)

/-- The answered reads, and with them the result, are those of one version. -/
def Consistent (history : History Key Value) (schedule : Schedule ε)
    (program : Reader Key Value ε α) : Prop :=
  ∃ v, (∀ answered ∈ (program.run history schedule 0).2,
      answered.value = history v answered.key) ∧
    (program.run history (schedule.pinned v) 0).1 = (program.run history schedule 0).1

/-- The version stays the same from the first answered read to the last. -/
def OneVersion (history : History Key Value) (schedule : Schedule ε)
    (program : Reader Key Value ε α) : Prop :=
  ∃ v, ∀ answered ∈ (program.run history schedule 0).2, answered.version = v

theorem OneVersion.consistent (h : OneVersion history schedule program) :
    Consistent history schedule program := by
  obtain ⟨v, hv⟩ := h
  have hvalues : ∀ answered ∈ (program.run history schedule 0).2,
      answered.value = history v answered.key := by
    intro answered hanswered
    rw [← hv answered hanswered]
    exact value_eq_of_mem_run hanswered
  exact ⟨v, hvalues, run_pinned_of_values hvalues⟩

/-! ## The converse -/

/-- A store that keeps the contents of version `v` and has other ones everywhere else. -/
def isolate (other : (key : Key) → Value key → Value key) (history : History Key Value) (v : ℕ) :
    History Key Value :=
  fun version key => if version = v then history v key else other key (history v key)

/-- Until the version changes, the isolated store answers alike; the first read after that is
answered differently from version `v`. -/
theorem run_isolate {other : (key : Key) → Value key → Value key}
    (hother : ∀ key value, other key value ≠ value)
    (h : ∃ answered ∈ (program.run history schedule i).2, answered.version ≠ v) :
    ∃ answered ∈ (program.run (isolate other history v) schedule i).2,
      answered.value ≠ history v answered.key := by
  induction program generalizing i with
  | done result => simp [run] at h
  | read key next ih =>
      unfold run at h ⊢
      cases hfailure : schedule.failure i with
      | some e =>
          simp only [hfailure] at h ⊢
          exact ih _ h
      | none =>
          simp only [hfailure] at h ⊢
          by_cases hversion : schedule.version i = v
          · have hsame : isolate other history v (schedule.version i) key =
                history (schedule.version i) key := by
              rw [isolate, if_pos hversion, hversion]
            rw [hsame]
            obtain ⟨answered, hmem, hne⟩ := h
            rcases List.mem_cons.mp hmem with rfl | hmem
            · exact absurd hversion hne
            · obtain ⟨answered', hmem', hne'⟩ := ih _ ⟨answered, hmem, hne⟩
              exact ⟨answered', List.mem_cons_of_mem _ hmem', hne'⟩
          · refine ⟨_, List.mem_cons_self, ?_⟩
            simp only [isolate, if_neg hversion]
            exact hother _ _

/-- The first answered read. -/
theorem run_isolate_head (other : (key : Key) → Value key → Value key)
    {first : Answered Key Value} {rest : List (Answered Key Value)}
    (h : (program.run history schedule i).2 = first :: rest) :
    ∃ rest', (program.run (isolate other history first.version) schedule i).2 = first :: rest' := by
  induction program generalizing i with
  | done result => simp [run] at h
  | read key next ih =>
      unfold run at h ⊢
      cases hfailure : schedule.failure i with
      | some e =>
          simp only [hfailure] at h ⊢
          exact ih _ h
      | none =>
          simp only [hfailure, List.cons.injEq] at h ⊢
          obtain ⟨rfl, -⟩ := h
          exact ⟨_, by simp [isolate], rfl⟩

/-- A computation that is consistent whatever the store holds never sees the version change. -/
theorem oneVersion_of_consistent {other : (key : Key) → Value key → Value key}
    (hother : ∀ key value, other key value ≠ value)
    (h : ∀ history, Consistent history schedule program) (history : History Key Value) :
    OneVersion history schedule program := by
  cases hreads : (program.run history schedule 0).2 with
  | nil => exact ⟨0, by simp [hreads]⟩
  | cons first rest =>
      refine ⟨first.version, ?_⟩
      by_contra hchanged
      push Not at hchanged
      obtain ⟨v, hvalues, -⟩ := h (isolate other history first.version)
      obtain ⟨answered, hmem, hne⟩ := run_isolate hother hchanged
      have hanswered := hvalues answered hmem
      by_cases hv : v = first.version
      · rw [isolate, if_pos hv] at hanswered
        exact hne hanswered
      · -- at any other version the first read has another value
        obtain ⟨rest', hrest'⟩ := run_isolate_head other hreads
        have hfirst := hvalues first (by rw [hrest']; exact List.mem_cons_self)
        have hvalue : first.value = history first.version first.key :=
          value_eq_of_mem_run (by rw [hreads]; exact List.mem_cons_self)
        rw [isolate, if_neg hv, hvalue] at hfirst
        exact hother _ _ hfirst.symm

end Reader

end Degenbot.Library
