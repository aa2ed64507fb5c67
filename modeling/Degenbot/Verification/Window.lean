import Degenbot.Algorithm.Window
import Mathlib.Data.List.DropRight
import Mathlib.Tactic.Common

/-! # What a window retains

Entry times do not decrease, so that the live elements are the newest ones and every rule of
eviction cuts the elements from the old end. -/

namespace Degenbot.Window

variable {α : Type}

/-! ## Operations -/

inductive Operation (α : Type) where
  | add (value : α) (now : ℕ)
  | oldest (now : ℕ)
  | len (now : ℕ)
  | isEmpty (now : ℕ)

namespace Operation

def now : Operation α → ℕ
  | add _ now => now
  | oldest now => now
  | len now => now
  | isEmpty now => now

def apply (window : Window α) : Operation α → Window α
  | add value now => window.add value now
  | oldest now => (window.oldest now).2
  | len now => (window.len now).2
  | isEmpty now => (window.isEmpty now).2

/-- The node that an operation adds. -/
def added : Operation α → List (Node α)
  | add value now => [⟨value, now⟩]
  | _ => []

end Operation

def run (window : Window α) (operations : List (Operation α)) : Window α :=
  operations.foldl Operation.apply window

/-- The nodes added by a run, oldest first. -/
def added (operations : List (Operation α)) : List (Node α) := operations.flatMap Operation.added

/-- The timestamps do not decrease. -/
def Ordered (operations : List (Operation α)) : Prop :=
  operations.Pairwise fun earlier later => earlier.now ≤ later.now

instance (operations : List (Operation α)) : Decidable (Ordered operations) :=
  inferInstanceAs (Decidable (List.Pairwise _ _))

/-- Not longer in the window than `ttl`. -/
def live (ttl now : ℕ) (node : Node α) : Bool := now - node.entryTime ≤ ttl

/-- The live elements, or the newest `min_size` elements when fewer are live. -/
def retained (ttl minSize now : ℕ) (nodes : List (Node α)) : List (Node α) :=
  if (nodes.filter (live ttl now)).length < minSize then nodes.rtake minSize
  else nodes.filter (live ttl now)

/-! ## The newest elements of a list -/

section Newest

variable {β : Type} {l : List β} {j k : ℕ}

theorem rtake_of_length_le (h : l.length ≤ k) : l.rtake k = l := by
  rw [List.rtake, Nat.sub_eq_zero_of_le h, List.drop_zero]

theorem rtake_cons_of_le {b : β} (h : k ≤ l.length) : (b :: l).rtake k = l.rtake k := by
  rw [List.rtake, List.rtake, List.length_cons, Nat.sub_add_comm h, List.drop_succ_cons]

theorem length_rtake : (l.rtake k).length = min k l.length := by
  rw [List.rtake, List.length_drop]
  omega

theorem rtake_rtake : (l.rtake j).rtake k = l.rtake (min k j) := by
  rw [List.rtake, length_rtake, List.rtake, List.rtake, List.drop_drop]
  congr 1
  omega

end Newest

/-! ## Live elements -/

section Live

variable {ttl minSize maxSize now : ℕ} {nodes : List (Node α)} {node : Node α}

/-- Oldest first. -/
def Sorted (nodes : List (Node α)) : Prop :=
  nodes.Pairwise fun older newer => older.entryTime ≤ newer.entryTime

def liveCount (ttl now : ℕ) (nodes : List (Node α)) : ℕ := nodes.countP (live ttl now)

theorem liveCount_le : liveCount ttl now nodes ≤ nodes.length := List.countP_le_length

/-- Behind a live element all are live. -/
theorem liveCount_cons_of_live (hsorted : Sorted (node :: nodes)) (hlive : live ttl now node = true) :
    liveCount ttl now (node :: nodes) = nodes.length + 1 := by
  rw [liveCount, ← List.length_cons, List.countP_eq_length]
  intro newer hnewer
  rcases List.mem_cons.mp hnewer with rfl | hmem
  · exact hlive
  · have hle := (List.pairwise_cons.mp hsorted).1 newer hmem
    simp only [live, decide_eq_true_eq] at hlive ⊢
    omega

theorem liveCount_cons_of_not_live (hlive : live ttl now node = false) :
    liveCount ttl now (node :: nodes) = liveCount ttl now nodes := by
  rw [liveCount, List.countP_cons_of_neg (by simp [hlive])]
  rfl

/-- The live elements are the newest ones. -/
theorem filter_live (hsorted : Sorted nodes) :
    nodes.filter (live ttl now) = nodes.rtake (liveCount ttl now nodes) := by
  induction nodes with
  | nil => rfl
  | cons node nodes ih =>
      cases hlive : live ttl now node with
      | true =>
          have hcount := liveCount_cons_of_live hsorted hlive
          rw [rtake_of_length_le (by rw [hcount, List.length_cons]), List.filter_eq_self,
            ← List.countP_eq_length]
          exact hcount
      | false =>
          rw [List.filter_cons_of_neg (by simp [hlive]), ih hsorted.of_cons,
            liveCount_cons_of_not_live hlive, rtake_cons_of_le liveCount_le]

theorem liveCount_rtake (hsorted : Sorted nodes) {k : ℕ} :
    liveCount ttl now (nodes.rtake k) = min k (liveCount ttl now nodes) := by
  induction nodes with
  | nil => simp [liveCount]
  | cons node nodes ih =>
      rcases Nat.lt_or_ge nodes.length k with hlong | hshort
      · rw [rtake_of_length_le (by rw [List.length_cons]; omega), Nat.min_eq_right]
        exact liveCount_le.trans (by rw [List.length_cons]; omega)
      · rw [rtake_cons_of_le hshort, ih hsorted.of_cons]
        cases hlive : live ttl now node with
        | true =>
            have hall : liveCount ttl now nodes = nodes.length := by
              have hcount := liveCount_cons_of_live hsorted hlive
              rw [liveCount, List.countP_cons_of_pos (by exact hlive)] at hcount
              exact Nat.succ_injective hcount
            rw [liveCount_cons_of_live hsorted hlive]
            omega
        | false => rw [liveCount_cons_of_not_live hlive]

theorem liveCount_anti {later : ℕ} (h : now ≤ later) :
    liveCount ttl later nodes ≤ liveCount ttl now nodes := by
  apply List.countP_mono_left
  intro node _ hlive
  simp only [live, decide_eq_true_eq] at hlive ⊢
  omega

/-- Eviction leaves the newest elements. -/
theorem popStale_eq (hsorted : Sorted nodes) :
    popStale ttl minSize now nodes =
      nodes.rtake (max (liveCount ttl now nodes) minSize) := by
  induction nodes with
  | nil => rw [popStale, List.rtake_nil]
  | cons node nodes ih =>
      rw [popStale]
      by_cases hfew : nodes.length + 1 > minSize
      · rw [if_pos hfew]
        cases hlive : live ttl now node with
        | true =>
            have hcount := liveCount_cons_of_live hsorted hlive
            rw [if_neg (by simpa only [live, decide_eq_true_eq, not_lt] using hlive),
              rtake_of_length_le (by rw [hcount, List.length_cons]; exact le_max_left _ _)]
        | false =>
            rw [if_pos (by simpa only [live, decide_eq_false_iff_not, not_le] using hlive), ih hsorted.of_cons,
              liveCount_cons_of_not_live hlive,
              rtake_cons_of_le (max_le liveCount_le (Nat.lt_succ_iff.mp hfew))]
      · rw [if_neg hfew, rtake_of_length_le]
        rw [List.length_cons]
        omega

theorem retained_eq (hsorted : Sorted nodes) :
    retained ttl minSize now nodes =
      nodes.rtake (max (liveCount ttl now nodes) minSize) := by
  rw [retained, ← List.countP_eq_length_filter, ← liveCount]
  split_ifs with hfew
  · rw [max_eq_right hfew.le]
  · rw [filter_live hsorted, max_eq_left (not_lt.mp hfew)]

end Live

/-! ## Runs -/

section Runs

variable {window : Window α} {operations : List (Operation α)} {operation : Operation α}
  {ttl maxSize minSize now : ℕ} {nodes : List (Node α)}

/-- The number of elements that the three rules leave. -/
def keptCount (ttl maxSize minSize now : ℕ) (nodes : List (Node α)) : ℕ :=
  min maxSize (max (liveCount ttl now nodes) minSize)

/-- The window holds the newest of the nodes that were added. -/
structure Holds (window : Window α) (nodes : List (Node α)) (now : ℕ) : Prop where
  sorted : Sorted nodes
  past : ∀ node ∈ nodes, node.entryTime ≤ now
  elements : window.elements =
    nodes.rtake (keptCount window.ttl window.maxSize window.minSize now nodes)

theorem Holds.elements_of_le (hholds : Holds window nodes now) :
    ∃ k, window.elements = nodes.rtake k ∧ k ≤ window.maxSize ∧
      k = min window.maxSize (max (liveCount window.ttl now nodes) window.minSize) :=
  ⟨_, hholds.elements, min_le_left _ _, rfl⟩

/-- Reading the window at a later time. -/
theorem Holds.removeStale {later : ℕ} (hholds : Holds window nodes now) (hlater : now ≤ later) :
    Holds (window.removeStale later) nodes later := by
  refine ⟨hholds.sorted, fun node hnode => (hholds.past node hnode).trans hlater, ?_⟩
  have hanti : liveCount window.ttl later nodes ≤ liveCount window.ttl now nodes :=
    liveCount_anti hlater
  have hsorted : Sorted window.elements := by
    rw [hholds.elements]
    exact hholds.sorted.sublist (List.drop_sublist _ _)
  rw [Window.removeStale, popStale_eq hsorted, hholds.elements, liveCount_rtake hholds.sorted,
    rtake_rtake, keptCount, keptCount]
  refine congrArg nodes.rtake ?_
  change _ = min window.maxSize (max (liveCount window.ttl later nodes) window.minSize)
  omega

theorem sorted_concat (hsorted : Sorted nodes) (hpast : ∀ node ∈ nodes, node.entryTime ≤ now)
    (value : α) : Sorted (nodes ++ [⟨value, now⟩]) := by
  refine List.pairwise_append.mpr ⟨hsorted, List.pairwise_singleton _ _, ?_⟩
  intro older holder newer hnewer
  rw [List.mem_singleton] at hnewer
  rw [hnewer]
  exact hpast older holder

theorem rtake_eq_rtake {j k : ℕ} (h : min j nodes.length = min k nodes.length) :
    nodes.rtake j = nodes.rtake k := by
  rw [List.rtake, List.rtake]
  congr 1
  omega

theorem tail_rtake {k : ℕ} (h : k + 1 ≤ nodes.length) :
    (nodes.rtake (k + 1)).tail = nodes.rtake k := by
  rw [List.rtake, List.tail_drop, List.rtake]
  congr 1
  omega

/-- Adding a value: the new node is live, and at most one element is over the capacity. -/
theorem Holds.add {later : ℕ} (hholds : Holds window nodes now) (hlater : now ≤ later)
    (value : α) : Holds (window.add value later) (nodes ++ [⟨value, later⟩]) later := by
  have hsorted := sorted_concat hholds.sorted
    (fun node hnode => (hholds.past node hnode).trans hlater) value
  obtain ⟨k, helements, hk, hkept⟩ := hholds.elements_of_le
  set nodes' := nodes ++ [⟨value, later⟩] with hnodes'
  have hlive : liveCount window.ttl later nodes' ≤ liveCount window.ttl now nodes + 1 := by
    rw [hnodes', liveCount, List.countP_append]
    exact Nat.add_le_add (liveCount_anti hlater) List.countP_le_length
  have hpushed : window.elements ++ [⟨value, later⟩] = nodes'.rtake (k + 1) := by
    rw [helements, hnodes', List.rtake_concat_succ]
  have hpushedSorted : Sorted (window.elements ++ [⟨value, later⟩]) := by
    rw [hpushed]
    exact hsorted.sublist (List.drop_sublist _ _)
  have hstale : (Window.removeStale { window with elements := window.elements ++ [⟨value, later⟩] }
      later).elements = nodes'.rtake
        (min (max (min (k + 1) (liveCount window.ttl later nodes')) window.minSize) (k + 1)) := by
    rw [Window.removeStale, popStale_eq hpushedSorted]
    simp only
    rw [hpushed, liveCount_rtake hsorted, rtake_rtake]
  refine ⟨hsorted, ?_, ?_⟩
  · intro node hnode
    rcases List.mem_append.mp hnode with hold | hnew
    · exact (hholds.past node hold).trans hlater
    · rw [List.mem_singleton.mp hnew]
  · generalize hpopped : Window.removeStale
      { window with elements := window.elements ++ [⟨value, later⟩] } later = popped at hstale
    have hconfig : popped.ttl = window.ttl ∧ popped.maxSize = window.maxSize ∧
        popped.minSize = window.minSize := by
      rw [← hpopped]
      exact ⟨rfl, rfl, rfl⟩
    rw [Window.add, hpopped, keptCount]
    by_cases hfull : popped.elements.length > popped.maxSize
    · have hlength := hfull
      rw [hstale, length_rtake, hconfig.2.1] at hlength
      rw [if_pos hfull]
      simp only
      rw [hstale, hconfig.1, hconfig.2.1, hconfig.2.2,
        show min (max (min (k + 1) (liveCount window.ttl later nodes')) window.minSize) (k + 1) =
          window.maxSize + 1 by omega, tail_rtake (by omega)]
      exact rtake_eq_rtake (by omega)
    · have hlength := hfull
      rw [hstale, length_rtake, hconfig.2.1] at hlength
      rw [if_neg hfull, hstale, hconfig.1, hconfig.2.1, hconfig.2.2]
      exact rtake_eq_rtake (by omega)

/-- What one operation preserves. -/
theorem Holds.apply (hholds : Holds window nodes now) (hnow : now ≤ operation.now) :
    Holds (operation.apply window) (nodes ++ operation.added) operation.now := by
  cases operation with
  | add value now => exact hholds.add hnow value
  | oldest now =>
      change Holds _ (nodes ++ []) now
      rw [List.append_nil]
      exact hholds.removeStale hnow
  | len now =>
      change Holds _ (nodes ++ []) now
      rw [List.append_nil]
      exact hholds.removeStale hnow
  | isEmpty now =>
      change Holds _ (nodes ++ []) now
      rw [List.append_nil]
      exact hholds.removeStale hnow

@[simp] theorem run_concat :
    run window (operations ++ [operation]) = operation.apply (run window operations) := by
  simp [run]

@[simp] theorem added_concat :
    added (operations ++ [operation]) = added operations ++ operation.added := by
  simp [added]

/-- What a whole run preserves. -/
theorem run_holds (hordered : Ordered operations)
    (hnow : ∀ operation ∈ operations, operation.now ≤ now) :
    ∃ last ≤ now, Holds (run (new ttl maxSize minSize) operations) (added operations) last := by
  induction operations using List.reverseRecOn generalizing now with
  | nil => exact ⟨0, Nat.zero_le _, List.Pairwise.nil, by simp [added], (List.rtake_nil _).symm⟩
  | append_singleton operations operation ih =>
      obtain ⟨hbefore, -, hlast⟩ := List.pairwise_append.mp hordered
      obtain ⟨last, hlastNow, hholds⟩ := ih hbefore
        fun earlier hearlier => hlast earlier hearlier operation (List.mem_singleton_self _)
      refine ⟨operation.now, hnow operation (by simp), ?_⟩
      rw [run_concat, added_concat]
      exact hholds.apply hlastNow

theorem apply_config (operation : Operation α) :
    (operation.apply window).ttl = window.ttl ∧
      (operation.apply window).maxSize = window.maxSize ∧
      (operation.apply window).minSize = window.minSize := by
  cases operation with
  | add value now =>
      simp only [Operation.apply, Window.add]
      split_ifs <;> exact ⟨rfl, rfl, rfl⟩
  | oldest now => exact ⟨rfl, rfl, rfl⟩
  | len now => exact ⟨rfl, rfl, rfl⟩
  | isEmpty now => exact ⟨rfl, rfl, rfl⟩

theorem run_config (window : Window α) (operations : List (Operation α)) :
    (run window operations).ttl = window.ttl ∧
      (run window operations).maxSize = window.maxSize ∧
      (run window operations).minSize = window.minSize := by
  induction operations using List.reverseRecOn with
  | nil => exact ⟨rfl, rfl, rfl⟩
  | append_singleton operations operation ih =>
      rw [run_concat]
      have hstep := @apply_config α (run window operations) operation
      exact ⟨hstep.1.trans ih.1, hstep.2.1.trans ih.2.1, hstep.2.2.trans ih.2.2⟩

end Runs

/-! ## Main result -/

/-- After every operation of a run the window holds a suffix of what was added, not more than
its capacity: the newest of the elements that age and the minimum size leave. -/
theorem run_elements {ttl maxSize minSize : ℕ} {operations : List (Operation α)}
    {operation : Operation α} (hordered : Ordered (operations ++ [operation])) :
    (run (new ttl maxSize minSize) (operations ++ [operation])).elements <:+
        added (operations ++ [operation]) ∧
      (run (new ttl maxSize minSize) (operations ++ [operation])).elements.length ≤ maxSize ∧
      (run (new ttl maxSize minSize) (operations ++ [operation])).elements =
        (retained ttl minSize operation.now (added (operations ++ [operation]))).rtake maxSize := by
  obtain ⟨hbefore, -, hlast⟩ := List.pairwise_append.mp hordered
  obtain ⟨last, hlastNow, hbeforeHolds⟩ := @run_holds α operations ttl maxSize minSize
    operation.now hbefore
    fun earlier hearlier => hlast earlier hearlier operation (List.mem_singleton_self _)
  have hholds := hbeforeHolds.apply hlastNow
  rw [← run_concat, ← added_concat] at hholds
  obtain ⟨httl, hmax, hmin⟩ := run_config (new ttl maxSize minSize) (operations ++ [operation])
  have helements := hholds.elements
  rw [keptCount, httl, hmax, hmin] at helements
  refine ⟨?_, ?_, ?_⟩
  · rw [helements]
    exact List.drop_suffix _ _
  · rw [helements, length_rtake]
    exact (min_le_left _ _).trans (min_le_left _ _)
  · rw [helements, retained_eq hholds.sorted, rtake_rtake]
    rfl

theorem run_elements_sample :
    (run (new 10 100 1) [.add 1 0, .add 2 1, .len 12]).elements = [⟨2, 1⟩] := by
  have hordered : Ordered ([.add 1 0, .add 2 1] ++ [.len 12] : List (Operation ℕ)) := by decide
  exact (run_elements hordered).2.2

/-- At its capacity a window drops an element that has not expired. -/
theorem run_elements_full :
    ¬∀ (ttl maxSize minSize : ℕ) (operations : List (Operation ℕ)) (operation : Operation ℕ),
      Ordered (operations ++ [operation]) →
      (run (new ttl maxSize minSize) (operations ++ [operation])).elements =
        retained ttl minSize operation.now (added (operations ++ [operation])) := by
  intro h
  exact absurd (h 10 1 0 [.add 1 0] (.add 2 0) (by decide)) (by decide)

end Degenbot.Window
