import Degenbot.Verification.Pathfinding.Graph
import Degenbot.Algorithm.Pathfinding
import Degenbot.Library.Outcome
import Mathlib.Tactic

/-! # The depth-first search

From a token of the graph, the search yields each extension of the working path to the end
token once. -/

namespace Degenbot.Pathfinding

open Library

/-- The pools of a path within the bounds. -/
structure WithinBounds (minDepth : ℕ) (maxDepth : Option ℕ) (pools : List (ℕ × PoolType)) :
    Prop where
  nodup : pools.Nodup
  min_le : minDepth ≤ pools.length
  le_max : ∀ depth ∈ maxDepth, pools.length ≤ depth

/-- The working path is extended by a walk to the end token. -/
def Extends {edges : List Edge} (h : PoolEdges edges) (minDepth : ℕ) (maxDepth : Option ℕ)
    (startToken endToken : TokenId) (workingPath pools : List (ℕ × PoolType)) : Prop :=
  WithinBounds minDepth maxDepth pools ∧ ∃ es, h.multigraph.Walk startToken es endToken ∧
    pools = workingPath ++ es.map Edge.pool

section Search

variable {g : Graph}

theorem enumerates_hops (hg : PoolEdges g.edges) (token : TokenId) :
    Enumerates (g.hops token) fun hop => hop.2 ∈ g.edges ∧ hop.2.other token = some hop.1 := by
  have hparts : Enumerates (g.hops token) fun hop =>
      ∃ neighbor ∈ firstOccurrences (g.edges.filterMap (·.other token)),
        hop.1 = neighbor ∧ hop.2 ∈ g.edges ∧ hop.2.other token = some neighbor := by
    refine Enumerates.flatMap (nodup_firstOccurrences _) ?_ ?_
    · intro neighbor _
      constructor
      · have hnodup := hg.multigraph.nodup.filter fun e => e.other token = some neighbor
        exact hnodup.map fun e e' heq => (Prod.mk.inj heq).2
      · intro ⟨next, e⟩
        simp only [List.mem_map, List.mem_filter, decide_eq_true_eq, Prod.mk.injEq]
        constructor
        · intro ⟨e', he', hnext, hsame⟩
          subst hsame
          exact ⟨hnext.symm, he'⟩
        · intro ⟨hnext, he⟩
          exact ⟨e, he, hnext.symm, rfl⟩
    · intro n _ m _ hop hn hm
      exact hn.1.symm.trans hm.1
  refine hparts.congr fun hop => ?_
  constructor
  · intro ⟨neighbor, _, hnext, hedge⟩
    exact ⟨hedge.1, hnext ▸ hedge.2⟩
  · intro ⟨he, hother⟩
    refine ⟨hop.1, ?_, rfl, he, hother⟩
    exact mem_firstOccurrences.mpr (List.mem_filterMap.mpr ⟨hop.2, he, hother⟩)

/-- The pools that a path can still use. -/
def unused (g : Graph) (workingPath : List (ℕ × PoolType)) : List Edge :=
  g.edges.filter fun e => !workingPath.contains e.pool

theorem length_unused_snoc {e : Edge} {workingPath : List (ℕ × PoolType)} (he : e ∈ g.edges)
    (hfresh : e.pool ∉ workingPath) :
    (unused g (workingPath ++ [e.pool])).length < (unused g workingPath).length := by
  have hsplit : unused g (workingPath ++ [e.pool]) =
      (unused g workingPath).filter fun e' => e'.pool ≠ e.pool := by
    unfold unused
    rw [List.filter_filter]
    congr 1
    funext e'
    simp [Bool.and_comm]
  rw [hsplit]
  refine List.length_filter_lt_length_iff_exists.mpr ⟨e, ?_, by simp⟩
  exact List.mem_filter.mpr ⟨he, by simpa using hfresh⟩

variable (hg : PoolEdges g.edges) {minDepth : ℕ} {maxDepth : Option ℕ}
  {startToken endToken : TokenId} {workingPath pools : List (ℕ × PoolType)}

/-- The working path itself is yielded at the end token. -/
theorem enumerates_found (minDepth : ℕ) (startToken endToken : TokenId)
    (hbounds : workingPath.Nodup)
    (hmax : ∀ depth ∈ maxDepth, workingPath.length ≤ depth) :
    Enumerates
      (if startToken = endToken ∧ workingPath.length ≥ minDepth then [workingPath] else [])
      fun pools => WithinBounds minDepth maxDepth pools ∧ startToken = endToken ∧
        pools = workingPath := by
  by_cases hend : startToken = endToken ∧ workingPath.length ≥ minDepth
  · rw [if_pos hend]
    refine ⟨List.nodup_singleton _, fun pools => ?_⟩
    rw [List.mem_singleton]
    constructor
    · rintro rfl
      exact ⟨⟨hbounds, hend.2, hmax⟩, hend.1, rfl⟩
    · intro ⟨_, _, heq⟩
      exact heq
  · rw [if_neg hend]
    refine ⟨List.nodup_nil, fun pools => ?_⟩
    simp only [List.not_mem_nil, false_iff]
    rintro ⟨hwithin, hsame, rfl⟩
    exact hend ⟨hsame, hwithin.min_le⟩

/-- An extension is the working path at the end token, or goes on with a fresh hop. -/
theorem extends_iff :
    Extends hg minDepth maxDepth startToken endToken workingPath pools ↔
      (WithinBounds minDepth maxDepth pools ∧ startToken = endToken ∧ pools = workingPath) ∨
      ∃ hop ∈ g.hops startToken, hop.2.pool ∉ workingPath ∧
        Extends hg minDepth maxDepth hop.1 endToken (workingPath ++ [hop.2.pool]) pools := by
  constructor
  · intro ⟨hwithin, es, hwalk, hpools⟩
    cases es with
    | nil => exact .inl ⟨hwithin, hwalk, by simpa using hpools⟩
    | cons e rest =>
        obtain ⟨he, next, hjoins, hrest⟩ := hwalk
        have hhop : (next, e) ∈ g.hops startToken :=
          ((enumerates_hops hg startToken).2 (next, e)).mpr
            ⟨he, (other_eq_some_iff he).mpr hjoins⟩
        have hfresh : e.pool ∉ workingPath := by
          intro hused
          have hnodup := hpools ▸ hwithin.nodup
          exact (List.nodup_append.mp hnodup).2.2 _ hused e.pool (by simp) rfl
        refine .inr ⟨(next, e), hhop, hfresh, hwithin, rest, hrest, ?_⟩
        simpa using hpools
  · rintro (⟨hwithin, rfl, rfl⟩ | ⟨⟨next, e⟩, hhop, -, hwithin, rest, hrest, hpools⟩)
    · exact ⟨hwithin, [], rfl, by simp⟩
    · obtain ⟨he, hother⟩ := ((enumerates_hops hg startToken).2 (next, e)).mp hhop
      refine ⟨hwithin, e :: rest, ⟨he, next, (other_eq_some_iff he).mp hother, hrest⟩, ?_⟩
      simpa using hpools

theorem length_lt_of_extends_snoc {next : TokenId} {pool : ℕ × PoolType}
    (h : Extends hg minDepth maxDepth next endToken (workingPath ++ [pool]) pools) :
    workingPath.length < pools.length := by
  obtain ⟨-, es, -, rfl⟩ := h
  simp only [List.length_append, List.length_cons, List.length_nil]
  omega

/-- The hop that an extension goes on with is determined. -/
theorem hop_unique {hop hop' : TokenId × Edge} (hmem : hop ∈ g.hops startToken)
    (hmem' : hop' ∈ g.hops startToken)
    (h : Extends hg minDepth maxDepth hop.1 endToken (workingPath ++ [hop.2.pool]) pools)
    (h' : Extends hg minDepth maxDepth hop'.1 endToken (workingPath ++ [hop'.2.pool]) pools) :
    hop = hop' := by
  obtain ⟨he, hother⟩ := ((enumerates_hops hg startToken).2 hop).mp hmem
  obtain ⟨he', hother'⟩ := ((enumerates_hops hg startToken).2 hop').mp hmem'
  obtain ⟨-, es, -, hpools⟩ := h
  obtain ⟨-, es', -, hpools'⟩ := h'
  have hpool : hop.2.pool = hop'.2.pool := by
    have heq := hpools.symm.trans hpools'
    simp only [List.append_assoc, List.append_cancel_left_eq, List.cons_append,
      List.nil_append, List.cons.injEq] at heq
    exact heq.1
  have hedge := hg.pool_injOn he he' hpool
  refine Prod.ext ?_ hedge
  exact Option.some.inj (hother.symm.trans (hedge ▸ hother'))

theorem enumerates_dfs (hnodes : ∀ e ∈ g.edges, e.token0 ∈ g.nodes ∧ e.token1 ∈ g.nodes)
    (fuel : ℕ) (hstart : startToken ∈ g.nodes) (hnodup : workingPath.Nodup)
    (hmax : ∀ depth ∈ maxDepth, workingPath.length ≤ depth)
    (hfuel : (unused g workingPath).length ≤ fuel) :
    Enumerates (dfs g endToken minDepth maxDepth fuel startToken workingPath)
      (Extends hg minDepth maxDepth startToken endToken workingPath) := by
  have hfound := enumerates_found minDepth startToken endToken hnodup hmax
  induction fuel generalizing startToken workingPath with
  | zero =>
      unfold dfs
      rw [if_neg (not_not.mpr hstart)]
      refine hfound.congr fun pools => ?_
      rw [extends_iff hg]
      refine ⟨.inl, fun h => h.resolve_right ?_⟩
      rintro ⟨hop, hhop, hfresh, -⟩
      -- all pools are used
      have hedge := ((enumerates_hops hg startToken).2 hop).mp hhop
      have hlt := length_unused_snoc hedge.1 hfresh
      omega
  | succ fuel ih =>
      unfold dfs
      rw [if_neg (not_not.mpr hstart)]
      by_cases hfull : some workingPath.length = maxDepth
      · rw [if_pos hfull, List.append_nil]
        refine hfound.congr fun pools => ?_
        rw [extends_iff hg]
        refine ⟨.inl, fun h => h.resolve_right ?_⟩
        rintro ⟨hop, -, -, hextends⟩
        have hlt := length_lt_of_extends_snoc hg hextends
        have hle := hextends.1.le_max _ hfull.symm
        omega
      · rw [if_neg hfull]
        refine (hfound.append (Enumerates.flatMap (r := fun hop pools =>
          hop.2.pool ∉ workingPath ∧ Extends hg minDepth maxDepth hop.1 endToken
            (workingPath ++ [hop.2.pool]) pools) (enumerates_hops hg startToken).1 ?_ ?_) ?_).congr
          fun pools => (extends_iff hg).symm
        · intro hop hhop
          obtain ⟨he, hother⟩ := ((enumerates_hops hg startToken).2 hop).mp hhop
          by_cases hused : hop.2.pool ∈ workingPath
          · rw [if_pos hused]
            exact ⟨List.nodup_nil, fun pools => by simp [hused]⟩
          · rw [if_neg hused]
            have hnext : hop.1 ∈ g.nodes := by
              have htouch := ((other_eq_some_iff (h := hg) he).mp hother).touches_right
              rcases htouch with heq | heq
              · exact heq ▸ (hnodes _ he).1
              · exact heq ▸ (hnodes _ he).2
            have hlonger : ∀ depth ∈ maxDepth, (workingPath ++ [hop.2.pool]).length ≤ depth := by
              intro depth hdepth
              have hle := hmax depth hdepth
              have hne : workingPath.length ≠ depth := by
                rintro rfl
                exact hfull hdepth.symm
              simp only [List.length_append, List.length_singleton]
              omega
            have hfresh : (workingPath ++ [hop.2.pool]).Nodup := by
              rw [List.nodup_append]
              refine ⟨hnodup, List.nodup_singleton _, ?_⟩
              rintro pool hpool _ hlast rfl
              rw [List.mem_singleton] at hlast
              exact hused (hlast ▸ hpool)
            have hlt := length_unused_snoc he hused
            refine (ih hnext hfresh hlonger (by omega)
              (enumerates_found _ _ _ hfresh hlonger)).congr fun pools => ?_
            simp [hused]
        · intro hop hhop hop' hhop' pools h h'
          exact hop_unique hg hhop hhop' h.2 h'.2
        · rintro pools ⟨-, -, rfl⟩ ⟨hop, -, -, hextends⟩
          exact absurd (length_lt_of_extends_snoc hg hextends) (lt_irrefl _)

/-- From any token, the search yields each nonempty path to the end token once. -/
theorem enumerates_dfs_start (hnodes : ∀ e ∈ g.edges, e.token0 ∈ g.nodes ∧ e.token1 ∈ g.nodes)
    (hmin : 1 ≤ minDepth) (startToken endToken : TokenId) :
    Enumerates (dfs g endToken minDepth maxDepth g.edges.length startToken [])
      (Extends hg minDepth maxDepth startToken endToken []) := by
  by_cases hstart : startToken ∈ g.nodes
  · refine enumerates_dfs hg hnodes _ hstart List.nodup_nil (by simp) ?_
    exact List.length_filter_le _ _
  · have hnone : dfs g endToken minDepth maxDepth g.edges.length startToken [] = [] := by
      cases g.edges.length with
      | zero => simp [dfs, hstart]
      | succ fuel => simp [dfs, hstart]
    rw [hnone]
    refine ⟨List.nodup_nil, fun pools => ?_⟩
    simp only [List.not_mem_nil, false_iff]
    rintro ⟨hwithin, es, hwalk, rfl⟩
    cases es with
    | nil =>
        have := hwithin.min_le
        simp only [List.map_nil, List.append_nil, List.length_nil] at this
        omega
    | cons e rest =>
        obtain ⟨he, next, hjoins, -⟩ := hwalk
        rcases hjoins.touches_left with heq | heq
        · exact hstart (heq ▸ (hnodes e he).1)
        · exact hstart (heq ▸ (hnodes e he).2)

end Search

end Degenbot.Pathfinding

/-! ## The traversal plan

Consolidating a pair of searches keeps the pairs of tokens that the plan covers. -/

namespace Degenbot.Pathfinding

open Library

/-- The pairs that an entry of the plan searches. -/
def coveredBy (entry : (Address × Address) × Direction) : List (Address × Address) :=
  if entry.2 = .forwardAndReverse then [entry.1, (entry.1.2, entry.1.1)] else [entry.1]

def covered (plan : Plan) : List (Address × Address) := plan.flatMap coveredBy

/-! ## Combinations -/

/-- Neither the same pair nor the same pair the other way round. -/
def Apart {α : Type} (p q : α × α) : Prop := p ≠ q ∧ p ≠ (q.2, q.1)

theorem mem_of_mem_combinations {α : Type} {xs : List α} {p : α × α}
    (h : p ∈ combinations xs) : p.1 ∈ xs ∧ p.2 ∈ xs := by
  induction xs with
  | nil => cases h
  | cons x xs ih =>
      rcases List.mem_append.mp h with hfirst | hrest
      · obtain ⟨y, hy, rfl⟩ := List.mem_map.mp hfirst
        exact ⟨List.mem_cons_self, List.mem_cons_of_mem x hy⟩
      · exact (ih hrest).imp (List.mem_cons_of_mem x) (List.mem_cons_of_mem x)

theorem combinations_spec {α : Type} {xs : List α} (h : xs.Nodup) :
    (∀ p ∈ combinations xs, p.1 ≠ p.2) ∧ (combinations xs).Pairwise Apart := by
  induction xs with
  | nil => exact ⟨fun p hp => absurd hp (List.not_mem_nil), List.Pairwise.nil⟩
  | cons x xs ih =>
      obtain ⟨hx, hxs⟩ := List.nodup_cons.mp h
      obtain ⟨hne, hpairwise⟩ := ih hxs
      constructor
      · intro p hp
        rcases List.mem_append.mp hp with hfirst | hrest
        · obtain ⟨y, hy, rfl⟩ := List.mem_map.mp hfirst
          intro heq
          obtain rfl : x = y := heq
          exact hx hy
        · exact hne p hrest
      · refine List.pairwise_append.mpr ⟨?_, hpairwise, ?_⟩
        · refine List.pairwise_map.mpr (hxs.imp_of_mem fun hy hz hyz => ?_)
          refine ⟨fun heq => hyz (Prod.mk.inj heq).2, fun heq => hx ?_⟩
          exact (Prod.mk.inj heq).1 ▸ hz
        · intro p hp q hq
          obtain ⟨y, hy, rfl⟩ := List.mem_map.mp hp
          obtain ⟨hq1, hq2⟩ := mem_of_mem_combinations hq
          constructor
          · rintro rfl
            exact hx hq1
          · intro heq
            obtain rfl : x = q.2 := congrArg Prod.fst heq
            exact hx hq2

/-! ## Consolidation -/

section Consolidate

variable {plan : Plan} {pair : Address × Address}

theorem covered_perm {plan' : Plan} (h : plan.Perm plan') :
    (covered plan).Perm (covered plan') := h.flatMap_right _

/-- Both directions of the pair are searched separately. -/
structure Separate (plan : Plan) (pair : Address × Address) : Prop where
  ne : pair.1 ≠ pair.2
  forth : (pair, .forward) ∈ plan
  back : ((pair.2, pair.1), .forward) ∈ plan

theorem consolidate_spec (hkeys : (plan.map Prod.fst).Nodup) (hpair : Separate plan pair) :
    ∃ plan', consolidate plan pair = .ok plan' ∧ (plan'.map Prod.fst).Nodup ∧
      (covered plan').Perm (covered plan) ∧
      ∀ other, Apart pair other → Separate plan other → Separate plan' other := by
  obtain ⟨x, y⟩ := pair
  have hxy : (y, x) ≠ (x, y) := fun heq => hpair.ne (Prod.mk.inj heq).2
  have hset : Plan.set plan (x, y) .forwardAndReverse =
      plan.map fun entry => if entry.1 = (x, y) then ((x, y), .forwardAndReverse) else entry := by
    unfold Plan.set
    rw [if_pos]
    exact List.any_eq_true.mpr ⟨_, hpair.forth, by simp⟩
  have hdelete : consolidate plan (x, y) = .ok ((plan.map fun entry =>
      if entry.1 = (x, y) then ((x, y), Direction.forwardAndReverse) else entry).filter
        fun entry => entry.1 ≠ (y, x)) := by
    unfold consolidate Plan.delete
    rw [hset, if_pos]
    refine List.any_eq_true.mpr ⟨((y, x), .forward), List.mem_map.mpr ⟨_, hpair.back, ?_⟩, by simp⟩
    exact if_neg hxy
  refine ⟨_, hdelete, ?_, ?_, ?_⟩
  · have hsame : (plan.map fun entry => if entry.1 = (x, y) then
        ((x, y), Direction.forwardAndReverse) else entry).map Prod.fst = plan.map Prod.fst := by
      rw [List.map_map]
      refine List.map_congr_left fun entry _ => ?_
      by_cases heq : entry.1 = (x, y)
      · simp [heq]
      · simp [heq]
    exact (hsame ▸ hkeys).sublist (List.filter_sublist.map _)
  · -- the two entries to the front; what remains has other keys
    obtain ⟨rest, hperm⟩ : ∃ rest, plan.Perm
        (((x, y), .forward) :: ((y, x), .forward) :: rest) := by
      have hback : ((y, x), Direction.forward) ∈ plan.erase ((x, y), .forward) :=
        (List.mem_erase_of_ne (fun heq => hxy (Prod.mk.inj heq).1)).mpr hpair.back
      exact ⟨_, (List.perm_cons_erase hpair.forth).trans
        ((List.perm_cons_erase hback).cons _)⟩
    have hnodup := (hperm.map Prod.fst).nodup_iff.mp hkeys
    simp only [List.map_cons, List.nodup_cons, List.mem_cons, not_or] at hnodup
    have hrest : ∀ entry ∈ rest, entry.1 ≠ (x, y) ∧ entry.1 ≠ (y, x) := by
      intro entry hentry
      refine ⟨fun heq => hnodup.1.2 ?_, fun heq => hnodup.2.1 ?_⟩
      · exact heq ▸ List.mem_map_of_mem hentry
      · exact heq ▸ List.mem_map_of_mem hentry
    have hkept : (rest.map fun entry => if entry.1 = (x, y) then
        ((x, y), Direction.forwardAndReverse) else entry).filter
          (fun entry => entry.1 ≠ (y, x)) = rest := by
      have hmap : (rest.map fun entry => if entry.1 = (x, y) then
          ((x, y), Direction.forwardAndReverse) else entry) = rest := by
        conv_rhs => rw [← List.map_id rest]
        exact List.map_congr_left fun entry hentry => if_neg (hrest entry hentry).1
      rw [hmap, List.filter_eq_self]
      exact fun entry hentry => decide_eq_true (hrest entry hentry).2
    refine (covered_perm ((hperm.map _).filter _)).trans ?_
    refine List.Perm.trans ?_ (covered_perm hperm).symm
    rw [List.map_cons, List.map_cons, if_pos rfl, if_neg hxy,
      List.filter_cons_of_pos (by simp [hxy.symm]), List.filter_cons_of_neg (by simp), hkept]
    simp [covered, coveredBy]
  · intro other hapart hother
    have hkept : ∀ key, key ≠ (x, y) → key ≠ (y, x) → (key, Direction.forward) ∈ plan →
        (key, Direction.forward) ∈ (plan.map fun entry => if entry.1 = (x, y) then
          ((x, y), Direction.forwardAndReverse) else entry).filter
            fun entry => entry.1 ≠ (y, x) := by
      intro key hforth hback hmem
      refine List.mem_filter.mpr ⟨List.mem_map.mpr ⟨_, hmem, if_neg hforth⟩, ?_⟩
      exact decide_eq_true hback
    refine ⟨hother.ne, hkept _ hapart.1.symm ?_ hother.forth, hkept _ hapart.2.symm ?_ hother.back⟩
    · intro heq
      exact hapart.2 (by rw [heq])
    · intro heq
      apply hapart.1
      rw [show other = ((other.2, other.1).2, (other.2, other.1).1) from rfl, heq]

theorem foldlM_consolidate_spec (pairs : List (Address × Address))
    (hkeys : (plan.map Prod.fst).Nodup) (hapart : pairs.Pairwise Apart)
    (hseparate : ∀ pair ∈ pairs, Separate plan pair) :
    ∃ plan', pairs.foldlM consolidate plan = .ok plan' ∧ (covered plan').Perm (covered plan) := by
  induction pairs generalizing plan with
  | nil => exact ⟨plan, rfl, .refl _⟩
  | cons pair rest ih =>
      obtain ⟨hfirst, hrest⟩ := List.pairwise_cons.mp hapart
      obtain ⟨next, hnext, hnextKeys, hcovered, hkept⟩ :=
        consolidate_spec hkeys (hseparate pair List.mem_cons_self)
      obtain ⟨plan', hplan', hperm⟩ := ih hnextKeys hrest fun other hother =>
        hkept other (hfirst other hother) (hseparate other (List.mem_cons_of_mem pair hother))
      refine ⟨plan', ?_, hperm.trans hcovered⟩
      rw [List.foldlM_cons, hnext]
      exact hplan'

end Consolidate

/-! ## Main result -/

/-- The plan is made, and covers every pair of a start and an end token once. -/
theorem prepareTraversalPlan_spec {iterate : List Address → List Address}
    (hiterate : ∀ xs, (iterate xs).Perm xs) {startTokens endTokens : List Address}
    (hstart : startTokens.Nodup) (hend : endTokens.Nodup) :
    ∃ plan, prepareTraversalPlan iterate startTokens endTokens = .ok plan ∧
      (covered plan).Perm (product startTokens endTokens) := by
  have hbase : covered ((product startTokens endTokens).map fun pair => (pair, .forward)) =
      product startTokens endTokens := by
    simp [covered, coveredBy, List.flatMap_map]
  unfold prepareTraversalPlan
  dsimp only
  split
  · have hcommon : (iterate (startTokens.filter (· ∈ endTokens))).Nodup :=
      (hiterate _).nodup_iff.mpr (hstart.filter _)
    have hmem : ∀ token ∈ iterate (startTokens.filter (· ∈ endTokens)),
        token ∈ startTokens ∧ token ∈ endTokens := by
      intro token htoken
      simpa using (hiterate _).mem_iff.mp htoken
    obtain ⟨hne, hapart⟩ := combinations_spec hcommon
    have hkeys : (((product startTokens endTokens).map fun pair =>
        (pair, Direction.forward)).map Prod.fst).Nodup := by
      rw [List.map_map, Function.comp_def, List.map_id']
      exact hstart.product hend
    have hproduct : ∀ x y, x ∈ startTokens → y ∈ endTokens → ((x, y), Direction.forward) ∈
        (product startTokens endTokens).map fun pair => (pair, Direction.forward) := by
      intro x y hx hy
      exact List.mem_map.mpr ⟨(x, y), List.mem_product.mpr ⟨hx, hy⟩, rfl⟩
    obtain ⟨plan, hplan, hperm⟩ := foldlM_consolidate_spec _ hkeys hapart fun pair hpair => by
      obtain ⟨hfst, hsnd⟩ := mem_of_mem_combinations hpair
      exact ⟨hne pair hpair, hproduct _ _ (hmem _ hfst).1 (hmem _ hsnd).2,
        hproduct _ _ (hmem _ hsnd).1 (hmem _ hfst).2⟩
    exact ⟨plan, hplan, hbase ▸ hperm⟩
  · refine ⟨_, rfl, ?_⟩
    rw [hbase]

end Degenbot.Pathfinding
