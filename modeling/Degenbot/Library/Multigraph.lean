import Mathlib.Data.List.Nodup
import Mathlib.Data.List.Perm.Subperm
import Mathlib.Data.Set.Basic

/-! # Undirected multigraphs

Edges are data, so that parallel edges keep their identity. A walk is a list of edges. A set
of vertices supports itself if each of its vertices has two edges inside the set; the largest
such set is what remains when vertices of degree at most one are removed repeatedly. -/

namespace Degenbot.Library

structure Multigraph (V E : Type*) where
  fst : E → V
  snd : E → V
  edges : List E
  nodup : edges.Nodup
  loopless : ∀ e ∈ edges, fst e ≠ snd e

namespace Multigraph

variable {V E : Type*} (G : Multigraph V E)

def Joins (e : E) (a b : V) : Prop := (G.fst e = a ∧ G.snd e = b) ∨ (G.snd e = a ∧ G.fst e = b)

def Touches (e : E) (v : V) : Prop := G.fst e = v ∨ G.snd e = v

def Inside (S : Set V) (e : E) : Prop := G.fst e ∈ S ∧ G.snd e ∈ S

/-- The edges lead from `a` to `b`. -/
def Walk : V → List E → V → Prop
  | a, [], b => a = b
  | a, e :: rest, b => e ∈ G.edges ∧ ∃ c, G.Joins e a c ∧ Walk c rest b

/-- Two edges of the list meet in `v`. -/
def TwoAt (es : List E) (v : V) : Prop :=
  ∃ e ∈ es, ∃ e' ∈ es, e ≠ e' ∧ G.Touches e v ∧ G.Touches e' v

/-- Every vertex of the set has two edges inside it. -/
def Supported (S : Set V) : Prop :=
  ∀ v ∈ S, ∃ e ∈ G.edges, ∃ e' ∈ G.edges, e ≠ e' ∧ G.Touches e v ∧ G.Touches e' v ∧
    G.Inside S e ∧ G.Inside S e'

/-- A vertex that no removal of dead ends reaches. -/
def Anchored (v : V) : Prop := ∃ S, G.Supported S ∧ v ∈ S

variable {G} {a b c v : V} {e : E} {es : List E}

/-! ## Edges -/

theorem Joins.symm (h : G.Joins e a b) : G.Joins e b a := by
  rcases h with ⟨hfst, hsnd⟩ | ⟨hsnd, hfst⟩
  · exact .inr ⟨hsnd, hfst⟩
  · exact .inl ⟨hfst, hsnd⟩

theorem Joins.touches_left (h : G.Joins e a b) : G.Touches e a := h.imp And.left And.left

theorem Joins.touches_right (h : G.Joins e a b) : G.Touches e b := h.symm.touches_left

theorem Joins.eq_or_eq (h : G.Joins e a b) (hv : G.Touches e v) : v = a ∨ v = b := by
  rcases h with ⟨rfl, rfl⟩ | ⟨rfl, rfl⟩
  · exact hv.imp Eq.symm Eq.symm
  · exact hv.symm.imp Eq.symm Eq.symm

theorem Joins.ne (h : G.Joins e a b) (he : e ∈ G.edges) : a ≠ b := by
  have hne := G.loopless e he
  rcases h with ⟨rfl, rfl⟩ | ⟨rfl, rfl⟩
  · exact hne
  · exact hne.symm

/-- The far end of an edge is determined by the near one. -/
theorem Joins.unique (h : G.Joins e a b) (h' : G.Joins e a c) (he : e ∈ G.edges) : b = c :=
  ((h.eq_or_eq h'.touches_right).resolve_left (h'.ne he).symm).symm

/-! ## Walks -/

theorem Walk.unique (h : G.Walk a es b) (h' : G.Walk a es c) : b = c := by
  induction es generalizing a with
  | nil => exact h.symm.trans h'
  | cons e rest ih =>
      obtain ⟨he, x, hx, hrest⟩ := h
      obtain ⟨_, y, hy, hrest'⟩ := h'
      obtain rfl := hx.unique hy he
      exact ih hrest hrest'

theorem Walk.snoc (h : G.Walk a es b) (he : e ∈ G.edges) (hj : G.Joins e b c) :
    G.Walk a (es ++ [e]) c := by
  induction es generalizing a with
  | nil =>
      obtain rfl : a = b := h
      exact ⟨he, c, hj, rfl⟩
  | cons e' rest ih =>
      obtain ⟨he', x, hx, hrest⟩ := h
      exact ⟨he', x, hx, ih hrest⟩

theorem Walk.reverse (h : G.Walk a es b) : G.Walk b es.reverse a := by
  induction es generalizing a with
  | nil => exact Eq.symm h
  | cons e rest ih =>
      obtain ⟨he, x, hx, hrest⟩ := h
      rw [List.reverse_cons]
      exact (ih hrest).snoc he hx.symm

/-- A walk keeps its edges in another graph that has them with the same ends. -/
theorem Walk.transfer {G' : Multigraph V E} (hfst : G'.fst = G.fst) (hsnd : G'.snd = G.snd)
    (hes : ∀ e ∈ es, e ∈ G'.edges) (h : G.Walk a es b) : G'.Walk a es b := by
  induction es generalizing a with
  | nil => exact h
  | cons e rest ih =>
      obtain ⟨-, x, hx, hrest⟩ := h
      refine ⟨hes e List.mem_cons_self, x, ?_, ?_⟩
      · simpa only [Joins, hfst, hsnd] using hx
      · exact ih (fun e' he' => hes e' (List.mem_cons_of_mem e he')) hrest

theorem Walk.mem_edges (h : G.Walk a es b) (he : e ∈ es) : e ∈ G.edges := by
  induction es generalizing a with
  | nil => cases he
  | cons e' rest ih =>
      obtain ⟨he', x, -, hrest⟩ := h
      rcases List.mem_cons.mp he with rfl | hmem
      · exact he'
      · exact ih hrest hmem

theorem Walk.exists_touches_last (h : G.Walk a es b) (hne : es ≠ []) :
    ∃ e ∈ es, G.Touches e b := by
  induction es generalizing a with
  | nil => exact absurd rfl hne
  | cons e rest ih =>
      obtain ⟨_, x, hx, hrest⟩ := h
      by_cases hempty : rest = []
      · subst hempty
        obtain rfl : x = b := hrest
        exact ⟨e, List.mem_cons_self, hx.touches_right⟩
      · obtain ⟨e', he', htouch⟩ := ih hrest hempty
        exact ⟨e', List.mem_cons_of_mem e he', htouch⟩

theorem Walk.exists_touches_first (h : G.Walk a es b) (hne : es ≠ []) :
    ∃ e ∈ es, G.Touches e a := by
  cases es with
  | nil => exact absurd rfl hne
  | cons e rest =>
      obtain ⟨_, x, hx, _⟩ := h
      exact ⟨e, List.mem_cons_self, hx.touches_left⟩

/-! ## Walks that repeat no edge -/

theorem TwoAt.cons (h : G.TwoAt es v) : G.TwoAt (e :: es) v := by
  obtain ⟨e₁, h₁, e₂, h₂, hne, hv⟩ := h
  exact ⟨e₁, List.mem_cons_of_mem e h₁, e₂, List.mem_cons_of_mem e h₂, hne, hv⟩

/-- A vertex on the walk is one of its ends, or the walk enters and leaves it by two
edges. -/
theorem Walk.eq_or_twoAt (h : G.Walk a es b) (hnodup : es.Nodup) (he : e ∈ es)
    (hv : G.Touches e v) : v = a ∨ v = b ∨ G.TwoAt es v := by
  induction es generalizing a e with
  | nil => cases he
  | cons e' rest ih =>
      obtain ⟨_, x, hx, hrest⟩ := h
      obtain ⟨hfresh, hnodup'⟩ := List.nodup_cons.mp hnodup
      -- a vertex that the walk meets after its first step
      have hlater : ∀ e'' ∈ rest, G.Touches e'' v → v = a ∨ v = b ∨ G.TwoAt (e' :: rest) v := by
        intro e'' he'' hv''
        rcases ih hrest hnodup' he'' hv'' with rfl | hend | htwo
        · have hne : e' ≠ e'' := fun heq => hfresh (heq ▸ he'')
          exact .inr (.inr ⟨e', List.mem_cons_self, e'', List.mem_cons_of_mem e' he'', hne,
            hx.touches_right, hv''⟩)
        · exact .inr (.inl hend)
        · exact .inr (.inr htwo.cons)
      rcases List.mem_cons.mp he with rfl | hmem
      · rcases hx.eq_or_eq hv with hfirst | rfl
        · exact .inl hfirst
        · by_cases hempty : rest = []
          · subst hempty
            exact .inr (.inl hrest)
          · obtain ⟨e'', he'', hv''⟩ := hrest.exists_touches_first hempty
            exact hlater e'' he'' hv''
      · exact hlater e hmem hv

theorem Walk.twoAt_of_closed (h : G.Walk a es a) (hnodup : es.Nodup) (hne : es ≠ []) :
    G.TwoAt es a := by
  cases es with
  | nil => exact absurd rfl hne
  | cons e rest =>
      obtain ⟨he, x, hx, hrest⟩ := h
      have hempty : rest ≠ [] := by
        rintro rfl
        exact hx.ne he (Eq.symm hrest)
      obtain ⟨e', he', htouch⟩ := hrest.exists_touches_last hempty
      have hfresh : e ≠ e' := fun heq => (List.nodup_cons.mp hnodup).1 (heq ▸ he')
      exact ⟨e, List.mem_cons_self, e', List.mem_cons_of_mem e he', hfresh, hx.touches_left,
        htouch⟩

/-! ## Supported sets -/

/-- A closed walk, or one between vertices of a supported set, can be added to the set. -/
theorem Supported.union_walk {S : Set V} (hS : G.Supported S) (h : G.Walk a es b)
    (hnodup : es.Nodup) (hends : a = b ∨ a ∈ S ∧ b ∈ S) :
    G.Supported (S ∪ {v | ∃ e ∈ es, G.Touches e v}) := by
  have hkept : ∀ e, G.Inside S e → G.Inside (S ∪ {v | ∃ e ∈ es, G.Touches e v}) e :=
    fun e he => ⟨.inl he.1, .inl he.2⟩
  have hused : ∀ e ∈ es, G.Inside (S ∪ {v | ∃ e ∈ es, G.Touches e v}) e :=
    fun e he => ⟨.inr ⟨e, he, .inl rfl⟩, .inr ⟨e, he, .inr rfl⟩⟩
  have hold : ∀ v ∈ S, ∃ e ∈ G.edges, ∃ e' ∈ G.edges, e ≠ e' ∧ G.Touches e v ∧ G.Touches e' v ∧
      G.Inside (S ∪ {v | ∃ e ∈ es, G.Touches e v}) e ∧
      G.Inside (S ∪ {v | ∃ e ∈ es, G.Touches e v}) e' := by
    intro v hv
    obtain ⟨e, he, e', he', hne, htouch, htouch', hin, hin'⟩ := hS v hv
    exact ⟨e, he, e', he', hne, htouch, htouch', hkept e hin, hkept e' hin'⟩
  have hnew : ∀ v, G.TwoAt es v → ∃ e ∈ G.edges, ∃ e' ∈ G.edges, e ≠ e' ∧ G.Touches e v ∧
      G.Touches e' v ∧ G.Inside (S ∪ {v | ∃ e ∈ es, G.Touches e v}) e ∧
      G.Inside (S ∪ {v | ∃ e ∈ es, G.Touches e v}) e' := by
    intro v ⟨e, he, e', he', hne, htouch, htouch'⟩
    exact ⟨e, h.mem_edges he, e', h.mem_edges he', hne, htouch, htouch', hused e he, hused e' he'⟩
  intro v hv
  rcases hv with hv | ⟨e, he, htouch⟩
  · exact hold v hv
  · rcases h.eq_or_twoAt hnodup he htouch with rfl | rfl | htwo
    · rcases hends with rfl | ⟨hfirst, -⟩
      · exact hnew v (h.twoAt_of_closed hnodup (List.ne_nil_of_mem he))
      · exact hold v hfirst
    · rcases hends with rfl | ⟨-, hlast⟩
      · exact hnew a (h.twoAt_of_closed hnodup (List.ne_nil_of_mem he))
      · exact hold v hlast
    · exact hnew v htwo

/-- Where every vertex of a nonempty walk is anchored if it is closed or its ends are. -/
theorem Walk.anchored {S : Set V} (hS : G.Supported S) (h : G.Walk a es b) (hnodup : es.Nodup)
    (hends : a = b ∨ a ∈ S ∧ b ∈ S) (he : e ∈ es) (hv : G.Touches e v) : G.Anchored v :=
  ⟨_, hS.union_walk h hnodup hends, .inr ⟨e, he, hv⟩⟩

end Multigraph

/-! ## Enumerations -/

/-- The list has every element with the property, once. -/
def Enumerates {α : Type*} (xs : List α) (p : α → Prop) : Prop :=
  xs.Nodup ∧ ∀ x, x ∈ xs ↔ p x

namespace Enumerates

variable {α β : Type*} {xs ys : List α} {p q : α → Prop}

theorem congr (h : Enumerates xs p) (hpq : ∀ x, p x ↔ q x) : Enumerates xs q :=
  ⟨h.1, fun x => (h.2 x).trans (hpq x)⟩

/-- Enumerations of a property and of a weaker one that have the same length agree. -/
theorem mem_of_length_eq (hx : Enumerates xs p) (hy : Enumerates ys q) (hpq : ∀ x, p x → q x)
    (hlength : xs.length = ys.length) {x : α} (hqx : q x) : p x := by
  have hsub : xs ⊆ ys := fun x hmem => (hy.2 x).mpr (hpq x ((hx.2 x).mp hmem))
  have hperm := (List.subperm_of_subset hx.1 hsub).perm_of_length_le hlength.ge
  exact (hx.2 x).mp (hperm.mem_iff.mpr ((hy.2 x).mpr hqx))

theorem append (hx : Enumerates xs p) (hy : Enumerates ys q) (hdisjoint : ∀ x, p x → ¬q x) :
    Enumerates (xs ++ ys) fun x => p x ∨ q x := by
  refine ⟨List.nodup_append.mpr ⟨hx.1, hy.1, ?_⟩, fun x => ?_⟩
  · intro x hxs y hys heq
    exact hdisjoint x ((hx.2 x).mp hxs) ((hy.2 x).mp (heq ▸ hys))
  · rw [List.mem_append, hx.2, hy.2]

/-- Disjoint enumerations, one for each entry of a duplicate-free list. -/
theorem flatMap {is : List β} {f : β → List α} {r : β → α → Prop} (his : is.Nodup)
    (hf : ∀ i ∈ is, Enumerates (f i) (r i))
    (hdisjoint : ∀ i ∈ is, ∀ j ∈ is, ∀ x, r i x → r j x → i = j) :
    Enumerates (is.flatMap f) fun x => ∃ i ∈ is, r i x := by
  constructor
  · refine List.nodup_flatMap.mpr ⟨fun i hi => (hf i hi).1, ?_⟩
    refine his.imp_of_mem fun hi hj hne => ?_
    intro x hxi hxj
    exact hne (hdisjoint _ hi _ hj x (((hf _ hi).2 x).mp hxi) (((hf _ hj).2 x).mp hxj))
  · intro x
    rw [List.mem_flatMap]
    constructor
    · intro ⟨i, hi, hx⟩
      exact ⟨i, hi, ((hf i hi).2 x).mp hx⟩
    · intro ⟨i, hi, hx⟩
      exact ⟨i, hi, ((hf i hi).2 x).mpr hx⟩

end Enumerates

end Degenbot.Library
