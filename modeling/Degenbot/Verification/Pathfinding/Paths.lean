import Degenbot.Verification.Pathfinding.Search

/-! # The paths that are found

The search over the pruned graph finds every closed path. A path between different tokens is
lost exactly when one of its ends is a dead end. -/

namespace Degenbot.Pathfinding

open Library

/-! ## The contract -/

/-- The arguments of `find_paths`, with a database whose pools join two tokens and whose
token table knows the given tokens. -/
structure Query where
  db : Database
  iterate : List Address → List Address
  chainId : ℕ
  startTokens : List Address
  endTokens : List Address
  minDepth : ℕ
  maxDepth : Option ℕ
  poolTypes : List PoolType
  iterate_perm : ∀ xs, (iterate xs).Perm xs
  pool_types : poolTypes.Nodup
  loopless : ∀ poolType ∈ poolTypes, ∀ row ∈ db.poolsOn chainId poolType, row.token0 ≠ row.token1
  tokens_known : ∀ token ∈ startTokens ++ endTokens,
    ∃ row ∈ db.tokens, row.address = token ∧ row.chain = chainId
  one_le_min : 1 ≤ minDepth
  min_le_max : ∀ depth ∈ maxDepth, minDepth ≤ depth

namespace Query

variable (q : Query)

def findPaths : Except Exn (List (List PathStep)) :=
  Pathfinding.findPaths q.db q.iterate q.chainId q.startTokens q.endTokens q.minDepth q.maxDepth
    q.poolTypes

def edges : List Edge := poolEdges q.db q.chainId q.poolTypes

theorem poolEdges_edges : PoolEdges q.edges where
  pools_nodup := by
    unfold edges poolEdges
    rw [List.map_flatMap]
    refine List.nodup_flatMap.mpr ⟨fun poolType _ => ?_, ?_⟩
    · rw [List.map_map]
      have hids : ((q.db.poolsOn q.chainId poolType).map PoolRow.id).Nodup :=
        (q.db.pool_ids poolType).sublist (List.filter_sublist.map _)
      have hpools := hids.map (f := fun id => (id, poolType)) fun a b h => (Prod.mk.inj h).1
      rwa [List.map_map] at hpools
    · refine q.pool_types.imp fun hne => ?_
      intro pool hpool hpool'
      simp only [List.map_map, List.mem_map, Function.comp_apply] at hpool hpool'
      obtain ⟨row, -, rfl⟩ := hpool
      obtain ⟨row', -, heq⟩ := hpool'
      exact hne (Prod.mk.inj heq).2.symm
  loopless e he := by
    obtain ⟨poolType, htype, hmem⟩ := List.mem_flatMap.mp he
    obtain ⟨row, hrow, rfl⟩ := List.mem_map.mp hmem
    exact q.loopless poolType htype row hrow

/-- All pools of the chain as a multigraph of tokens. -/
def graph : Multigraph TokenId Edge := q.poolEdges_edges.multigraph

def idOf (token : Address) : TokenId :=
  ((q.db.tokens.find? fun row => row.address = token ∧ row.chain = q.chainId).map
    TokenRow.id).getD 0

/-- The pools of a walk from `a` to `b` that uses no pool twice and keeps the bounds. -/
def IsPath (a b : TokenId) (pools : List (ℕ × PoolType)) : Prop :=
  WithinBounds q.minDepth q.maxDepth pools ∧
    ∃ es, q.graph.Walk a es b ∧ pools = es.map Edge.pool

/-- A walk, as its first token and its pools, from a start token to an end token. -/
def IsRequested (walk : TokenId × List (ℕ × PoolType)) : Prop :=
  ∃ a ∈ q.startTokens, ∃ b ∈ q.endTokens, walk.1 = q.idOf a ∧ q.IsPath walk.1 (q.idOf b) walk.2

/-- The search ends and yields the steps of every requested walk, once for each. -/
def YieldsExactly : Prop :=
  ∃ found walks steps, q.findPaths = .ok found ∧ Enumerates walks q.IsRequested ∧
    walks.mapM (fun walk => walk.2.mapM (pathStep q.db)) = .ok steps ∧ found.Perm steps

/-- Different tokens that are joined by a path are both in a set of tokens of which each has
two pools within the set. -/
def EndsAnchored : Prop :=
  ∀ a ∈ q.startTokens, ∀ b ∈ q.endTokens, q.idOf a ≠ q.idOf b →
    (∃ pools, q.IsPath (q.idOf a) (q.idOf b) pools) →
      q.graph.Anchored (q.idOf a) ∧ q.graph.Anchored (q.idOf b)

/-! ## Tokens and steps -/

variable {q}

theorem exists_row {token : Address} (h : token ∈ q.startTokens ++ q.endTokens) :
    ∃ row ∈ q.db.tokens, row.address = token ∧ q.idOf token = row.id ∧
      (q.db.tokens.find? fun row => row.address = token ∧ row.chain = q.chainId) = some row := by
  obtain ⟨known, hmem, hknown⟩ := q.tokens_known token h
  cases hfind : q.db.tokens.find? fun row => row.address = token ∧ row.chain = q.chainId with
  | none =>
      have hnone := List.find?_eq_none.mp hfind known hmem
      simp only [decide_eq_true_eq] at hnone
      exact absurd hknown hnone
  | some row =>
      have hrow := List.find?_some hfind
      simp only [decide_eq_true_eq] at hrow
      refine ⟨row, List.mem_of_find?_eq_some hfind, hrow.1, ?_, rfl⟩
      unfold idOf
      rw [hfind]
      rfl

theorem tokenId_eq {token : Address} (role : String)
    (h : token ∈ q.startTokens ++ q.endTokens) :
    tokenId q.db q.chainId role token = .ok (q.idOf token) := by
  obtain ⟨row, -, -, hid, hfind⟩ := exists_row h
  unfold tokenId
  rw [hfind, hid]

theorem idOf_inj {a b : Address} (ha : a ∈ q.startTokens ++ q.endTokens)
    (hb : b ∈ q.startTokens ++ q.endTokens) (h : q.idOf a = q.idOf b) : a = b := by
  obtain ⟨row, hmem, haddress, hid, -⟩ := exists_row ha
  obtain ⟨row', hmem', haddress', hid', -⟩ := exists_row hb
  have hrow : row = row' := List.inj_on_of_nodup_map q.db.token_ids hmem hmem'
    (hid.symm.trans (h.trans hid'))
  rw [← haddress, ← haddress', hrow]

theorem filter_id_eq {rows : List PoolRow} (hids : (rows.map PoolRow.id).Nodup) {row : PoolRow}
    (hrow : row ∈ rows) : (rows.filter fun other => other.id = row.id) = [row] := by
  induction rows with
  | nil => cases hrow
  | cons first rest ih =>
      rw [List.map_cons, List.nodup_cons] at hids
      rcases List.mem_cons.mp hrow with rfl | hmem
      · rw [List.filter_cons_of_pos (by simp)]
        congr 1
        refine List.filter_eq_nil_iff.mpr fun other hother => ?_
        simp only [decide_eq_true_eq]
        exact fun heq => hids.1 (heq ▸ List.mem_map_of_mem hother)
      · have hne : first.id ≠ row.id := fun heq => hids.1 (heq ▸ List.mem_map_of_mem hmem)
        rw [List.filter_cons_of_neg (by simpa using hne), ih hids.2 hmem]

variable (q) in
/-- The step of a pool of the database. -/
def stepOf (pool : ℕ × PoolType) : PathStep :=
  (pathStep q.db pool).toOption.getD ⟨"", pool.2, none⟩

theorem pathStep_eq {e : Edge} (he : e ∈ q.edges) :
    pathStep q.db e.pool = .ok (q.stepOf e.pool) := by
  obtain ⟨poolType, htype, hmem⟩ := List.mem_flatMap.mp he
  obtain ⟨row, hrow, rfl⟩ := List.mem_map.mp hmem
  have hsingle := filter_id_eq (q.db.pool_ids poolType) (List.mem_of_mem_filter hrow)
  have hstep : ∃ step, pathStep q.db (row.id, poolType) = .ok step := by
    unfold pathStep
    rw [hsingle]
    cases poolType.managed with
    | true => exact ⟨_, rfl⟩
    | false => exact ⟨_, rfl⟩
  obtain ⟨step, hstep⟩ := hstep
  unfold stepOf
  rw [show Edge.pool ⟨row.token0, row.token1, row.id, poolType⟩ = (row.id, poolType) from rfl,
    hstep]
  rfl

theorem mapM_pathStep_eq {a b : TokenId} {pools : List (ℕ × PoolType)} (h : q.IsPath a b pools) :
    pools.mapM (pathStep q.db) = .ok (pools.map q.stepOf) := by
  obtain ⟨-, es, hwalk, rfl⟩ := h
  refine mapM_eq_ok fun pool hpool => ?_
  obtain ⟨e, he, rfl⟩ := List.mem_map.mp hpool
  exact pathStep_eq (hwalk.mem_edges he)

theorem pathSteps_eq {a b : TokenId} {pools : List (ℕ × PoolType)} (h : q.IsPath a b pools) :
    pathSteps q.db q.minDepth q.maxDepth pools = .ok (pools.map q.stepOf) := by
  have hlong : q.minDepth ≤ (pools.map q.stepOf).length := by
    rw [List.length_map]
    exact h.1.min_le
  have hshort : ¬∃ depth ∈ q.maxDepth, depth ≠ 0 ∧ ¬(pools.map q.stepOf).length ≤ depth := by
    rintro ⟨depth, hdepth, -, hover⟩
    rw [List.length_map] at hover
    exact hover (h.1.le_max depth hdepth)
  unfold pathSteps
  rw [mapM_pathStep_eq h, ok_bind, if_neg (not_not.mpr hlong), if_neg hshort]

theorem IsPath.reverse {a b : TokenId} {pools : List (ℕ × PoolType)} (h : q.IsPath a b pools) :
    q.IsPath b a pools.reverse := by
  obtain ⟨hwithin, es, hwalk, rfl⟩ := h
  refine ⟨⟨List.nodup_reverse.mpr hwithin.nodup, ?_, ?_⟩, es.reverse, hwalk.reverse, ?_⟩
  · rw [List.length_reverse]
    exact hwithin.min_le
  · intro depth hdepth
    rw [List.length_reverse]
    exact hwithin.le_max depth hdepth
  · rw [List.map_reverse]

/-- The pools of a path determine its edges. -/
theorem IsPath.end_unique {a b c : TokenId} {pools : List (ℕ × PoolType)}
    (h : q.IsPath a b pools) (h' : q.IsPath a c pools) : b = c := by
  obtain ⟨-, es, hwalk, rfl⟩ := h
  obtain ⟨-, es', hwalk', hpools⟩ := h'
  have hes : es = es' := by
    have hlength : es.length = es'.length := by simpa using congrArg List.length hpools
    refine List.ext_get hlength fun i hi hi' => ?_
    have hget : (es.get ⟨i, hi⟩).pool = (es'.get ⟨i, hi'⟩).pool := by
      have hall := congrArg (fun pools => pools[i]?) hpools
      simpa [hi, hi'] using hall
    exact q.poolEdges_edges.pool_injOn (hwalk.mem_edges (List.get_mem es _))
      (hwalk'.mem_edges (List.get_mem es' _)) hget
  subst hes
  exact hwalk.unique hwalk'

/-! ## The pruned graph -/

variable (q) in
def pruned : Graph := prepareGraph q.db q.chainId q.poolTypes

theorem pruned_spec : Pruned q.poolEdges_edges q.pruned := pruned_prepareGraph q.poolEdges_edges

variable (q) in
/-- The paths that the search finds between two tokens. -/
def pathsBetween (a b : TokenId) : List (List (ℕ × PoolType)) :=
  dfs q.pruned b q.minDepth q.maxDepth q.pruned.edges.length a []

/-- A path survives the pruning if and only if it is closed or both of its ends do. -/
theorem enumerates_pathsBetween (a b : TokenId) :
    Enumerates (q.pathsBetween a b) fun pools =>
      q.IsPath a b pools ∧ (a = b ∨ q.graph.Anchored a ∧ q.graph.Anchored b) := by
  have hpruned := pruned_spec (q := q)
  refine (enumerates_dfs_start hpruned.poolEdges (fun e he => ((hpruned.mem_edges e).mp he).2)
    q.one_le_min a b).congr fun pools => ?_
  constructor
  · rintro ⟨hwithin, es, hwalk, rfl⟩
    have hfull : q.graph.Walk a es b :=
      hwalk.transfer (show q.graph.fst = hpruned.poolEdges.multigraph.fst from rfl)
        (show q.graph.snd = hpruned.poolEdges.multigraph.snd from rfl)
        fun e he => hpruned.sublist.subset (hwalk.mem_edges he)
    refine ⟨⟨hwithin, es, hfull, rfl⟩, .inr ?_⟩
    have hne : es ≠ [] := by
      rintro rfl
      have := hwithin.min_le
      have := q.one_le_min
      simp only [List.map_nil, List.append_nil, List.length_nil] at *
      omega
    have hanchored : ∀ e ∈ es, ∀ v, q.graph.Touches e v → q.graph.Anchored v := by
      intro e he v hv
      have hends := ((hpruned.mem_edges e).mp (hwalk.mem_edges he)).2
      refine (mem_nodes_iff q.poolEdges_edges).mp ?_
      rcases hv with heq | heq
      · exact heq ▸ hends.1
      · exact heq ▸ hends.2
    obtain ⟨e, he, hfirst⟩ := hfull.exists_touches_first hne
    obtain ⟨e', he', hlast⟩ := hfull.exists_touches_last hne
    exact ⟨hanchored e he a hfirst, hanchored e' he' b hlast⟩
  · rintro ⟨⟨hwithin, es, hwalk, rfl⟩, hends⟩
    refine ⟨hwithin, es, ?_, rfl⟩
    have hes : es.Nodup := hwithin.nodup.of_map _
    refine hwalk.transfer (show hpruned.poolEdges.multigraph.fst = q.graph.fst from rfl)
      (show hpruned.poolEdges.multigraph.snd = q.graph.snd from rfl) fun e he => ?_
    -- the tokens of the path, with those that survive, support themselves
    have hsurvives : ∀ v, q.graph.Touches e v → v ∈ q.pruned.nodes := by
      intro v hv
      refine (mem_nodes_iff q.poolEdges_edges).mpr ?_
      refine hwalk.anchored (supported_prepareGraph q.poolEdges_edges) hes ?_ he hv
      refine hends.imp_right fun h => ?_
      exact ⟨(mem_nodes_iff q.poolEdges_edges).mpr h.1, (mem_nodes_iff q.poolEdges_edges).mpr h.2⟩
    exact (hpruned.mem_edges e).mpr
      ⟨hwalk.mem_edges he, hsurvives _ (.inl rfl), hsurvives _ (.inr rfl)⟩

theorem pathsBetween_reverse_perm (a b : TokenId) :
    ((q.pathsBetween a b).map List.reverse).Perm (q.pathsBetween b a) := by
  have hforth := enumerates_pathsBetween (q := q) a b
  have hback := enumerates_pathsBetween (q := q) b a
  refine (List.perm_ext_iff_of_nodup (hforth.1.map List.reverse_injective) hback.1).mpr
    fun pools => ?_
  rw [List.mem_map, hback.2]
  constructor
  · rintro ⟨pools, hmem, rfl⟩
    obtain ⟨hpath, hends⟩ := (hforth.2 pools).mp hmem
    exact ⟨hpath.reverse, hends.imp Eq.symm And.symm⟩
  · intro ⟨hpath, hends⟩
    exact ⟨pools.reverse, (hforth.2 _).mpr ⟨hpath.reverse, hends.imp Eq.symm And.symm⟩,
      List.reverse_reverse pools⟩

/-! ## What is yielded -/

variable (q) in
/-- The steps of the paths that are found for a pair of tokens. -/
def stepsBetween (pair : Address × Address) : List (List PathStep) :=
  (q.pathsBetween (q.idOf pair.1) (q.idOf pair.2)).map fun pools => pools.map q.stepOf

theorem search_spec {entry : (Address × Address) × Direction}
    (hstart : entry.1.1 ∈ q.startTokens ++ q.endTokens)
    (hend : entry.1.2 ∈ q.startTokens ++ q.endTokens) :
    ∃ found, search q.db q.chainId q.minDepth q.maxDepth q.pruned entry = .ok found ∧
      found.Perm ((coveredBy entry).flatMap q.stepsBetween) := by
  have hsteps : (q.pathsBetween (q.idOf entry.1.1) (q.idOf entry.1.2)).mapM
      (pathSteps q.db q.minDepth q.maxDepth) = .ok (q.stepsBetween entry.1) :=
    mapM_eq_ok fun pools hpools =>
      pathSteps_eq (((enumerates_pathsBetween _ _).2 pools).mp hpools).1
  unfold search
  rw [tokenId_eq "Start" hstart, tokenId_eq "End" hend]
  refine ⟨_, by rw [ok_bind, ok_bind]; exact congrArg (· >>= _) hsteps, ?_⟩
  unfold coveredBy
  split
  · -- the reversed paths are those of the pair the other way round
    have hback : ((q.stepsBetween entry.1).map List.reverse).Perm
        (q.stepsBetween (entry.1.2, entry.1.1)) := by
      have hperm := (pathsBetween_reverse_perm (q := q) (q.idOf entry.1.1)
        (q.idOf entry.1.2)).map fun pools => pools.map q.stepOf
      rw [List.map_map] at hperm
      unfold stepsBetween
      rw [List.map_map]
      simpa [Function.comp_def, List.map_reverse] using hperm
    have hflat : (q.stepsBetween entry.1).flatMap (fun steps => [steps, steps.reverse]) =
        (q.stepsBetween entry.1).flatMap fun steps => [steps] ++ [steps.reverse] := rfl
    rw [hflat]
    refine (List.flatMap_append_perm _ _ _).symm.trans ?_
    have hforth : (q.stepsBetween entry.1).flatMap (fun steps => [steps]) =
        q.stepsBetween entry.1 := by simp
    rw [hforth, ← List.map_eq_flatMap, List.flatMap_cons, List.flatMap_singleton]
    exact hback.append_left _
  · simp

theorem findPaths_spec :
    ∃ found, q.findPaths = .ok found ∧
      found.Perm ((product q.startTokens.dedup q.endTokens.dedup).flatMap q.stepsBetween) := by
  have hstarts := q.iterate_perm q.startTokens.dedup
  have hends := q.iterate_perm q.endTokens.dedup
  obtain ⟨plan, hplan, hcovered⟩ := prepareTraversalPlan_spec q.iterate_perm
    (hstarts.nodup_iff.mpr (List.nodup_dedup _)) (hends.nodup_iff.mpr (List.nodup_dedup _))
  have hknown : ∀ entry ∈ plan, entry.1.1 ∈ q.startTokens ++ q.endTokens ∧
      entry.1.2 ∈ q.startTokens ++ q.endTokens := by
    intro entry hentry
    have hmem : entry.1 ∈ covered plan := by
      refine List.mem_flatMap.mpr ⟨entry, hentry, ?_⟩
      unfold coveredBy
      split <;> simp
    obtain ⟨hfst, hsnd⟩ := List.mem_product.mp (hcovered.mem_iff.mp hmem)
    have hfst' := List.mem_dedup.mp (hstarts.mem_iff.mp hfst)
    have hsnd' := List.mem_dedup.mp (hends.mem_iff.mp hsnd)
    exact ⟨List.mem_append_left _ hfst', List.mem_append_right _ hsnd'⟩
  have hsearch : ∀ plan' : Plan, (∀ entry ∈ plan', entry ∈ plan) → ∃ found,
      plan'.mapM (search q.db q.chainId q.minDepth q.maxDepth q.pruned) = .ok found ∧
        found.flatten.Perm ((covered plan').flatMap q.stepsBetween) := by
    intro plan' hsub
    induction plan' with
    | nil => exact ⟨[], rfl, .refl _⟩
    | cons entry rest ih =>
        obtain ⟨hfst, hsnd⟩ := hknown entry (hsub entry List.mem_cons_self)
        obtain ⟨first, hfirst, hfirstPerm⟩ := search_spec hfst hsnd
        obtain ⟨others, hothers, hothersPerm⟩ :=
          ih fun entry' hentry' => hsub entry' (List.mem_cons_of_mem entry hentry')
        refine ⟨first :: others, ?_, ?_⟩
        · rw [List.mapM_cons, hfirst, hothers]
          rfl
        · unfold covered at hothersPerm ⊢
          rw [List.flatten_cons, List.flatMap_cons, List.flatMap_append]
          exact hfirstPerm.append hothersPerm
  obtain ⟨found, hfound, hperm⟩ := hsearch plan fun entry hentry => hentry
  refine ⟨found.flatten, ?_, hperm.trans ?_⟩
  · unfold findPaths Pathfinding.findPaths
    rw [hplan, ok_bind]
    exact congrArg (· >>= fun yielded => Except.ok yielded.flatten) hfound
  · refine (hcovered.flatMap_right _).trans (List.Perm.flatMap_right _ ?_)
    exact hstarts.product hends

/-! ## Main result -/

variable (q) in
/-- The requested walks that survive the pruning. -/
def Survives (walk : TokenId × List (ℕ × PoolType)) : Prop :=
  ∃ a ∈ q.startTokens, ∃ b ∈ q.endTokens, walk.1 = q.idOf a ∧ q.IsPath walk.1 (q.idOf b) walk.2 ∧
    (q.idOf a = q.idOf b ∨ q.graph.Anchored (q.idOf a) ∧ q.graph.Anchored (q.idOf b))

variable (q) in
def survivingWalks : List (TokenId × List (ℕ × PoolType)) :=
  (product q.startTokens.dedup q.endTokens.dedup).flatMap fun pair =>
    (q.pathsBetween (q.idOf pair.1) (q.idOf pair.2)).map fun pools => (q.idOf pair.1, pools)

theorem enumerates_survivingWalks : Enumerates q.survivingWalks q.Survives := by
  have hmem : ∀ pair ∈ product q.startTokens.dedup q.endTokens.dedup,
      pair.1 ∈ q.startTokens ∧ pair.2 ∈ q.endTokens := by
    intro pair hpair
    obtain ⟨hfst, hsnd⟩ := List.mem_product.mp hpair
    exact ⟨List.mem_dedup.mp hfst, List.mem_dedup.mp hsnd⟩
  have hparts : Enumerates q.survivingWalks fun walk =>
      ∃ pair ∈ product q.startTokens.dedup q.endTokens.dedup, walk.1 = q.idOf pair.1 ∧
        q.IsPath walk.1 (q.idOf pair.2) walk.2 ∧ (q.idOf pair.1 = q.idOf pair.2 ∨
          q.graph.Anchored (q.idOf pair.1) ∧ q.graph.Anchored (q.idOf pair.2)) := by
    refine Enumerates.flatMap ((List.nodup_dedup _).product (List.nodup_dedup _)) ?_ ?_
    · intro pair _
      have hpaths := enumerates_pathsBetween (q := q) (q.idOf pair.1) (q.idOf pair.2)
      refine ⟨hpaths.1.map fun pools pools' heq => (Prod.mk.inj heq).2, fun walk => ?_⟩
      rw [List.mem_map]
      constructor
      · rintro ⟨pools, hpools, rfl⟩
        exact ⟨rfl, (hpaths.2 pools).mp hpools⟩
      · intro ⟨hfirst, hpath, hends⟩
        exact ⟨walk.2, (hpaths.2 walk.2).mpr ⟨hfirst ▸ hpath, hends⟩, Prod.ext hfirst.symm rfl⟩
    · intro pair hpair pair' hpair' walk h h'
      obtain ⟨hstart, hend⟩ := hmem pair hpair
      obtain ⟨hstart', hend'⟩ := hmem pair' hpair'
      refine Prod.ext ?_ ?_
      · exact idOf_inj (List.mem_append_left _ hstart) (List.mem_append_left _ hstart')
          (h.1.symm.trans h'.1)
      · exact idOf_inj (List.mem_append_right _ hend) (List.mem_append_right _ hend')
          (h.2.1.end_unique h'.2.1)
  refine hparts.congr fun walk => ?_
  constructor
  · intro ⟨pair, hpair, hwalk⟩
    exact ⟨pair.1, (hmem pair hpair).1, pair.2, (hmem pair hpair).2, hwalk⟩
  · intro ⟨a, ha, b, hb, hwalk⟩
    refine ⟨(a, b), List.mem_product.mpr ⟨?_, ?_⟩, hwalk⟩
    · exact List.mem_dedup.mpr ha
    · exact List.mem_dedup.mpr hb

theorem findPaths_perm_survivingWalks :
    ∃ found, q.findPaths = .ok found ∧
      found.Perm (q.survivingWalks.map fun walk => walk.2.map q.stepOf) := by
  obtain ⟨found, hfound, hperm⟩ := findPaths_spec (q := q)
  refine ⟨found, hfound, ?_⟩
  have hsame : (product q.startTokens.dedup q.endTokens.dedup).flatMap q.stepsBetween =
      q.survivingWalks.map fun walk => walk.2.map q.stepOf := by
    simp only [survivingWalks, List.map_flatMap, List.map_map, Function.comp_def]
    rfl
  rwa [hsame] at hperm

theorem mapM_steps_eq {walks : List (TokenId × List (ℕ × PoolType))}
    (h : ∀ walk ∈ walks, q.IsRequested walk) :
    walks.mapM (fun walk => walk.2.mapM (pathStep q.db)) =
      .ok (walks.map fun walk => walk.2.map q.stepOf) := by
  refine mapM_eq_ok fun walk hwalk => ?_
  obtain ⟨a, -, b, -, -, hpath⟩ := h walk hwalk
  exact mapM_pathStep_eq hpath

/-- The search yields exactly the requested walks, each once, if and only if no walk between
different tokens starts or ends in a dead end. -/
theorem yieldsExactly_iff (q : Query) : q.YieldsExactly ↔ q.EndsAnchored := by
  obtain ⟨found, hfound, hperm⟩ := findPaths_perm_survivingWalks (q := q)
  have hsurviving := enumerates_survivingWalks (q := q)
  have hrequested : ∀ walk, q.Survives walk → q.IsRequested walk := by
    rintro walk ⟨a, ha, b, hb, hfirst, hpath, -⟩
    exact ⟨a, ha, b, hb, hfirst, hpath⟩
  constructor
  · rintro ⟨found', walks, steps, hfound', hwalks, hsteps, hperm'⟩
    obtain rfl : found = found' := Except.ok.inj (hfound.symm.trans hfound')
    have hlength : q.survivingWalks.length = walks.length := by
      rw [mapM_steps_eq fun walk hwalk => (hwalks.2 walk).mp hwalk] at hsteps
      have heq := hperm.symm.trans (Except.ok.inj hsteps ▸ hperm')
      simpa using heq.length_eq
    intro a ha b hb hne ⟨pools, hpath⟩
    obtain ⟨a', -, b', -, hfirst, hpath', hends⟩ :=
      hsurviving.mem_of_length_eq hwalks hrequested hlength (x := (q.idOf a, pools))
        ⟨a, ha, b, hb, rfl, hpath⟩
    have hlast := hpath.end_unique hpath'
    rw [← show q.idOf a = q.idOf a' from hfirst, ← hlast] at hends
    exact hends.resolve_left hne
  · intro hanchored
    have hall : Enumerates q.survivingWalks q.IsRequested := by
      refine hsurviving.congr fun walk => ⟨hrequested walk, ?_⟩
      intro ⟨a, ha, b, hb, hfirst, hpath⟩
      refine ⟨a, ha, b, hb, hfirst, hpath, or_iff_not_imp_left.mpr fun hne => ?_⟩
      exact hanchored a ha b hb hne ⟨walk.2, hfirst ▸ hpath⟩
    refine ⟨found, q.survivingWalks, _, hfound, hall, ?_, hperm⟩
    exact mapM_steps_eq fun walk hwalk => (hall.2 walk).mp hwalk

end Query

/-! ## Two tokens -/

def uniswapV2 : PoolType := ⟨"UniswapV2PoolTable", false⟩

/-- `count` pools between the tokens `A` and `B`. -/
def parallelPools (count : ℕ) : Database where
  pools poolType := if poolType = uniswapV2 then
    (List.range count).map fun id => ⟨id, "P" ++ toString id, none, 1, 1, 2⟩ else []
  tokens := [⟨1, "A", 1⟩, ⟨2, "B", 1⟩]
  pool_ids poolType := by
    split
    · rw [List.map_map]
      simpa [Function.comp_def] using List.nodup_range
    · exact List.nodup_nil
  token_ids := by decide

/-- Two pools give two closed paths. -/
example : findPaths (parallelPools 2) id 1 ["A"] ["A"] 2 (some 2) [uniswapV2] =
    .ok [[⟨"P0", uniswapV2, none⟩, ⟨"P1", uniswapV2, none⟩],
      [⟨"P1", uniswapV2, none⟩, ⟨"P0", uniswapV2, none⟩]] := by
  decide

/-- The paths of one pool from `A` to `B` where there is one pool. -/
def onePool : Query where
  db := parallelPools 1
  iterate := id
  chainId := 1
  startTokens := ["A"]
  endTokens := ["B"]
  minDepth := 1
  maxDepth := some 1
  poolTypes := [uniswapV2]
  iterate_perm := List.Perm.refl
  pool_types := by decide
  loopless := by decide
  tokens_known := by decide
  one_le_min := le_rfl
  min_le_max := by simp

theorem onePool_not_yielded : ¬onePool.YieldsExactly := by
  rintro ⟨found, walks, steps, hfound, hwalks, hsteps, hperm⟩
  have hnone : onePool.findPaths = .ok [] := by decide
  rw [hnone] at hfound
  cases hfound
  have hempty : steps = [] := List.nil_perm.mp hperm
  -- the walk over the only pool is requested
  have hrequested : onePool.IsRequested (1, [(0, uniswapV2)]) := by
    refine ⟨"A", by decide, "B", by decide, by decide, ⟨by decide, by decide, by decide⟩, ?_⟩
    refine ⟨[⟨1, 2, 0, uniswapV2⟩], ⟨by decide, 2, .inl ⟨rfl, rfl⟩, rfl⟩, rfl⟩
  have hmem := (hwalks.2 _).mpr hrequested
  rw [hempty] at hsteps
  cases walks with
  | nil => cases hmem
  | cons walk rest =>
      rw [List.mapM_cons] at hsteps
      obtain ⟨first, -, hsteps⟩ := bind_eq_ok.mp hsteps
      obtain ⟨others, -, hsteps⟩ := bind_eq_ok.mp hsteps
      cases hsteps

/-- The paths of one pool from `A` to `B` where there are two pools. -/
def twoPools : Query where
  db := parallelPools 2
  iterate := id
  chainId := 1
  startTokens := ["A"]
  endTokens := ["B"]
  minDepth := 1
  maxDepth := some 1
  poolTypes := [uniswapV2]
  iterate_perm := List.Perm.refl
  pool_types := by decide
  loopless := by decide
  tokens_known := by decide
  one_le_min := le_rfl
  min_le_max := by simp

/-- The two pools support both tokens. -/
theorem twoPools_supported : twoPools.graph.Supported {1, 2} := by
  have hedges : twoPools.graph.edges = [⟨1, 2, 0, uniswapV2⟩, ⟨1, 2, 1, uniswapV2⟩] := by decide
  intro token htoken
  refine ⟨⟨1, 2, 0, uniswapV2⟩, by simp [hedges], ⟨1, 2, 1, uniswapV2⟩, by simp [hedges],
    by decide, ?_, ?_, ⟨.inl rfl, .inr rfl⟩, ⟨.inl rfl, .inr rfl⟩⟩ <;>
  · rcases htoken with rfl | rfl
    · exact .inl rfl
    · exact .inr rfl

theorem twoPools_yieldsExactly :
    twoPools.findPaths = .ok [[⟨"P0", uniswapV2, none⟩], [⟨"P1", uniswapV2, none⟩]] ∧
      twoPools.YieldsExactly := by
  refine ⟨by decide, (Query.yieldsExactly_iff twoPools).mpr ?_⟩
  intro a ha b hb _ _
  obtain rfl : a = "A" := List.mem_singleton.mp ha
  obtain rfl : b = "B" := List.mem_singleton.mp hb
  exact ⟨⟨_, twoPools_supported, .inl rfl⟩, ⟨_, twoPools_supported, .inr rfl⟩⟩

end Degenbot.Pathfinding
