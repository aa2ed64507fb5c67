import Degenbot.Algorithm.Pathfinding
import Degenbot.Library.Multigraph
import Mathlib.Tactic

/-! # The pruned graph

The graph that the search runs on keeps the tokens of every supported set and the pools
between them. -/

namespace Degenbot.Pathfinding

open Library

/-! ## Graphs as multigraphs -/

/-- Edges of pools: no pool twice, and no pool of a token with itself. -/
structure PoolEdges (edges : List Edge) : Prop where
  pools_nodup : (edges.map Edge.pool).Nodup
  loopless : ∀ e ∈ edges, e.token0 ≠ e.token1

theorem PoolEdges.sublist {edges edges' : List Edge} (h : PoolEdges edges)
    (hsub : edges'.Sublist edges) : PoolEdges edges' where
  pools_nodup := h.pools_nodup.sublist (hsub.map _)
  loopless e he := h.loopless e (hsub.subset he)

theorem PoolEdges.pool_injOn {edges : List Edge} (h : PoolEdges edges) {e e' : Edge}
    (he : e ∈ edges) (he' : e' ∈ edges) (hpool : e.pool = e'.pool) : e = e' :=
  List.inj_on_of_nodup_map h.pools_nodup he he' hpool

def PoolEdges.multigraph {edges : List Edge} (h : PoolEdges edges) : Multigraph TokenId Edge where
  fst := Edge.token0
  snd := Edge.token1
  edges := edges
  nodup := h.pools_nodup.of_map _
  loopless := h.loopless

section Edges

variable {edges : List Edge} {h : PoolEdges edges} {e : Edge} {a b v : TokenId}

theorem other_eq_some_iff (he : e ∈ edges) :
    e.other a = some b ↔ h.multigraph.Joins e a b := by
  have hne := h.loopless e he
  unfold Edge.other
  change _ ↔ (e.token0 = a ∧ e.token1 = b) ∨ (e.token1 = a ∧ e.token0 = b)
  by_cases hfirst : e.token0 = a
  · subst hfirst
    simp [hne.symm]
  · by_cases hsecond : e.token1 = a
    · simp [hfirst, hsecond]
    · simp [hfirst, hsecond]

/-- Without self-loops, a degree counts the edges of the token. -/
theorem two_le_degree_iff {g : Graph} (hg : PoolEdges g.edges) :
    2 ≤ g.degree v ↔ hg.multigraph.TwoAt g.edges v := by
  have hcount : g.degree v = (g.edges.filter fun e => e.token0 = v ∨ e.token1 = v).length := by
    unfold Graph.degree
    rw [← List.countP_eq_length_filter]
    have hloopless := hg.loopless
    clear hg
    generalize g.edges = edges at hloopless ⊢
    induction edges with
    | nil => rfl
    | cons e rest ih =>
        have hne := hloopless e List.mem_cons_self
        have hrest := ih fun e' he' => hloopless e' (List.mem_cons_of_mem e he')
        simp only [List.countP_cons]
        by_cases hfirst : e.token0 = v
        · have hsecond : e.token1 ≠ v := fun heq => hne (hfirst.trans heq.symm)
          simp only [hfirst, hsecond, decide_true, decide_false, Bool.false_eq_true, ite_true,
            ite_false, true_or]
          omega
        · by_cases hsecond : e.token1 = v
          · simp only [hfirst, hsecond, decide_true, decide_false, Bool.false_eq_true, ite_true,
              ite_false, or_true]
            omega
          · simp only [hfirst, hsecond, decide_false, Bool.false_eq_true, ite_false, or_self]
            omega
  have hnodup : (g.edges.filter fun e => e.token0 = v ∨ e.token1 = v).Nodup :=
    hg.multigraph.nodup.filter _
  rw [hcount, ← List.toFinset_card_of_nodup hnodup]
  change 1 < _ ↔ _
  rw [Finset.one_lt_card]
  simp only [List.mem_toFinset, List.mem_filter, decide_eq_true_eq]
  constructor
  · intro ⟨e, ⟨he, hv⟩, e', ⟨he', hv'⟩, hne⟩
    exact ⟨e, he, e', he', hne, hv, hv'⟩
  · intro ⟨e, he, e', he', hne, hv, hv'⟩
    exact ⟨e, ⟨he, hv⟩, e', ⟨he', hv'⟩, hne⟩

end Edges

/-! ## Pruning -/

/-- The graph is what the nodes leave of the full one, and its nodes include every supported
set. -/
structure Pruned {full : List Edge} (hfull : PoolEdges full) (g : Graph) : Prop where
  sublist : g.edges.Sublist full
  mem_edges : ∀ e, e ∈ g.edges ↔ e ∈ full ∧ e.token0 ∈ g.nodes ∧ e.token1 ∈ g.nodes
  keeps : ∀ S, hfull.multigraph.Supported S → ∀ v ∈ S, v ∈ g.nodes

namespace Pruned

variable {full : List Edge} {hfull : PoolEdges full} {g : Graph}

theorem poolEdges (h : Pruned hfull g) : PoolEdges g.edges := hfull.sublist h.sublist

/-- A token of a supported set is not a dead end. -/
theorem two_le_degree (h : Pruned hfull g) {S : Set TokenId}
    (hS : hfull.multigraph.Supported S) {v : TokenId} (hv : v ∈ S) : 2 ≤ g.degree v := by
  obtain ⟨e, he, e', he', hne, htouch, htouch', hin, hin'⟩ := hS v hv
  refine (two_le_degree_iff h.poolEdges).mpr ⟨e, ?_, e', ?_, hne, htouch, htouch'⟩
  · exact (h.mem_edges e).mpr ⟨he, h.keeps S hS _ hin.1, h.keeps S hS _ hin.2⟩
  · exact (h.mem_edges e').mpr ⟨he', h.keeps S hS _ hin'.1, h.keeps S hS _ hin'.2⟩

theorem removeNodesFrom (h : Pruned hfull g) :
    Pruned hfull (g.removeNodesFrom g.tokensToPrune) where
  sublist := List.filter_sublist.trans h.sublist
  mem_edges e := by
    simp only [Graph.removeNodesFrom, List.mem_filter, decide_eq_true_eq, h.mem_edges e]
    tauto
  keeps S hS v hv := by
    refine List.mem_filter.mpr ⟨h.keeps S hS v hv, ?_⟩
    have hdegree := h.two_le_degree hS hv
    simp only [Graph.tokensToPrune, List.mem_filter, decide_eq_true_eq, not_and, not_le]
    omega

theorem prune (h : Pruned hfull g) (fuel : ℕ) : Pruned hfull (g.prune fuel) := by
  induction fuel generalizing g with
  | zero => exact h
  | succ fuel ih =>
      unfold Graph.prune
      split
      · exact h
      · exact ih h.removeNodesFrom

end Pruned

/-- Enough rounds leave no dead end. -/
theorem tokensToPrune_prune (fuel : ℕ) (g : Graph) (hfuel : g.nodes.length ≤ fuel) :
    (g.prune fuel).tokensToPrune = [] := by
  induction fuel generalizing g with
  | zero =>
      have hnil : g.nodes = [] := List.length_eq_zero_iff.mp (Nat.le_zero.mp hfuel)
      simp [Graph.prune, Graph.tokensToPrune, hnil]
  | succ fuel ih =>
      unfold Graph.prune
      split
      case isTrue hnone => exact hnone
      case isFalse hsome =>
        apply ih
        obtain ⟨token, htoken⟩ := List.exists_mem_of_ne_nil _ hsome
        have hlt : (g.removeNodesFrom g.tokensToPrune).nodes.length < g.nodes.length := by
          refine List.length_filter_lt_length_iff_exists.mpr ⟨token, ?_, by simpa using htoken⟩
          exact (List.mem_filter.mp htoken).1
        omega

/-! ## The graph of the search -/

section Prepare

variable {db : Database} {chainId : ℕ} {poolTypes : List PoolType}

theorem mem_firstOccurrences {α : Type} [DecidableEq α] {x : α} {xs : List α} :
    x ∈ firstOccurrences xs ↔ x ∈ xs := by simp [firstOccurrences]

theorem nodup_firstOccurrences {α : Type} [DecidableEq α] (xs : List α) :
    (firstOccurrences xs).Nodup := by simp [firstOccurrences, List.nodup_dedup]

/-- The candidates are the tokens of degree two in the full graph. -/
theorem mem_getTokensWithMinDegree {v : TokenId} :
    v ∈ getTokensWithMinDegree 2 db chainId poolTypes ↔
      2 ≤ (Graph.addEdgesFrom (poolEdges db chainId poolTypes)).degree v := by
  have hcount : ∀ types : List PoolType, (types.flatMap fun poolType =>
        (db.poolsOn chainId poolType).map (·.token0) ++
          (db.poolsOn chainId poolType).map (·.token1)).count v =
      (poolEdges db chainId types).countP (·.token0 = v) +
        (poolEdges db chainId types).countP (·.token1 = v) := by
    intro types
    induction types with
    | nil => rfl
    | cons poolType rest ih =>
        have hcons : poolEdges db chainId (poolType :: rest) =
            (db.poolsOn chainId poolType).map
              (fun row => ⟨row.token0, row.token1, row.id, poolType⟩) ++
              poolEdges db chainId rest := rfl
        rw [hcons, List.flatMap_cons, List.count_append, ih]
        simp only [List.countP_append, List.count_eq_countP, List.countP_map]
        have hsame : ∀ f : PoolRow → TokenId,
            (db.poolsOn chainId poolType).countP ((fun x => x == v) ∘ f) =
              (db.poolsOn chainId poolType).countP (fun row => decide (f row = v)) := by
          intro f
          congr 1
        rw [hsame, hsame]
        simp only [Function.comp_def]
        omega
  unfold getTokensWithMinDegree
  simp only [List.mem_filter, List.mem_dedup, decide_eq_true_eq]
  rw [← List.count_pos_iff, hcount]
  change _ ↔ 2 ≤ (poolEdges db chainId poolTypes).countP (·.token0 = v) +
    (poolEdges db chainId poolTypes).countP (·.token1 = v)
  omega

theorem pruned_prepareGraph (hfull : PoolEdges (poolEdges db chainId poolTypes)) :
    Pruned hfull (prepareGraph db chainId poolTypes) := by
  refine Pruned.prune ?_ _
  have hnodes : ∀ v, v ∈ (Graph.addEdgesFrom ((poolEdges db chainId poolTypes).filter fun e =>
      e.token0 ∈ getTokensWithMinDegree 2 db chainId poolTypes ∧
        e.token1 ∈ getTokensWithMinDegree 2 db chainId poolTypes)).nodes ↔
      ∃ e ∈ poolEdges db chainId poolTypes,
        (e.token0 ∈ getTokensWithMinDegree 2 db chainId poolTypes ∧
          e.token1 ∈ getTokensWithMinDegree 2 db chainId poolTypes) ∧
          (e.token0 = v ∨ e.token1 = v) := by
    intro v
    simp only [Graph.addEdgesFrom, mem_firstOccurrences, List.mem_flatMap, List.mem_filter,
      decide_eq_true_eq, List.mem_cons, List.not_mem_nil, or_false, and_assoc, eq_comm (a := v)]
  have hcandidate : ∀ v, v ∈ (Graph.addEdgesFrom ((poolEdges db chainId poolTypes).filter fun e =>
      e.token0 ∈ getTokensWithMinDegree 2 db chainId poolTypes ∧
        e.token1 ∈ getTokensWithMinDegree 2 db chainId poolTypes)).nodes →
      v ∈ getTokensWithMinDegree 2 db chainId poolTypes := by
    intro v hv
    obtain ⟨e, -, hends, rfl | rfl⟩ := (hnodes v).mp hv
    · exact hends.1
    · exact hends.2
  have hsupported : ∀ S, hfull.multigraph.Supported S → ∀ v ∈ S,
      v ∈ getTokensWithMinDegree 2 db chainId poolTypes := by
    intro S hS v hv
    obtain ⟨e, he, e', he', hne, htouch, htouch', -, -⟩ := hS v hv
    exact mem_getTokensWithMinDegree.mpr
      ((two_le_degree_iff (g := Graph.addEdgesFrom (poolEdges db chainId poolTypes)) hfull).mpr
        ⟨e, he, e', he', hne, htouch, htouch'⟩)
  refine ⟨List.filter_sublist, fun e => ?_, fun S hS v hv => ?_⟩
  · change e ∈ List.filter _ _ ↔ _
    simp only [List.mem_filter, decide_eq_true_eq]
    constructor
    · intro ⟨he, hends⟩
      exact ⟨he, (hnodes _).mpr ⟨e, he, hends, .inl rfl⟩, (hnodes _).mpr ⟨e, he, hends, .inr rfl⟩⟩
    · intro ⟨he, hfirst, hsecond⟩
      exact ⟨he, hcandidate _ hfirst, hcandidate _ hsecond⟩
  · obtain ⟨e, he, _, _, _, htouch, _, hin, _⟩ := hS v hv
    exact (hnodes v).mpr
      ⟨e, he, ⟨hsupported S hS _ hin.1, hsupported S hS _ hin.2⟩, htouch⟩

/-- The nodes of the search support themselves. -/
theorem supported_prepareGraph (hfull : PoolEdges (poolEdges db chainId poolTypes)) :
    hfull.multigraph.Supported {v | v ∈ (prepareGraph db chainId poolTypes).nodes} := by
  have hpruned := pruned_prepareGraph hfull
  intro v hv
  have hnone : (prepareGraph db chainId poolTypes).tokensToPrune = [] :=
    tokensToPrune_prune _ _ le_rfl
  have hdegree : 2 ≤ (prepareGraph db chainId poolTypes).degree v := by
    by_contra hsmall
    have hmem : v ∈ (prepareGraph db chainId poolTypes).tokensToPrune :=
      List.mem_filter.mpr ⟨hv, decide_eq_true (by omega)⟩
    simp [hnone] at hmem
  obtain ⟨e, he, e', he', hne, htouch, htouch'⟩ := (two_le_degree_iff hpruned.poolEdges).mp hdegree
  obtain ⟨hmem, hin⟩ := (hpruned.mem_edges e).mp he
  obtain ⟨hmem', hin'⟩ := (hpruned.mem_edges e').mp he'
  exact ⟨e, hmem, e', hmem', hne, htouch, htouch', hin, hin'⟩

theorem mem_nodes_iff (hfull : PoolEdges (poolEdges db chainId poolTypes)) {v : TokenId} :
    v ∈ (prepareGraph db chainId poolTypes).nodes ↔ hfull.multigraph.Anchored v := by
  constructor
  · intro hv
    exact ⟨_, supported_prepareGraph hfull, hv⟩
  · intro ⟨S, hS, hv⟩
    exact (pruned_prepareGraph hfull).keeps S hS v hv

end Prepare

end Degenbot.Pathfinding
