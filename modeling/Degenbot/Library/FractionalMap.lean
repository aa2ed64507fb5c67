import Mathlib.Algebra.Order.Field.Basic
import Mathlib.Algebra.Order.Ring.Canonical
import Mathlib.Tactic

/-! # Fractional maps `x ↦ k x / (m + n x)`

Their composition, values rounded below them, and the input of the largest surplus. -/

namespace Degenbot.Library

@[ext] structure FractionalMap (α : Type*) where
  k : α
  m : α
  n : α

namespace FractionalMap

/-! ## Composition -/

section Composition

variable {α : Type*} [CommSemiring α]

def id : FractionalMap α := ⟨1, 1, 0⟩

/-- `f` first. -/
def andThen (f g : FractionalMap α) : FractionalMap α :=
  ⟨f.k * g.k, f.m * g.m, f.n * g.m + f.k * g.n⟩

@[simp] theorem id_andThen (f : FractionalMap α) : id.andThen f = f := by
  ext <;> simp [id, andThen]

/-- The maps of a list, the first one first. -/
def composition (maps : List (FractionalMap α)) : FractionalMap α := maps.foldl andThen id

end Composition

/-! ## Values below the map -/

section Bounds

variable {α : Type*} [CommSemiring α] [LinearOrder α] {f g : FractionalMap α} {x y z : α}

/-- `y` is at most the value at `x`. -/
def Bounds (f : FractionalMap α) (x y : α) : Prop := y * (f.m + f.n * x) ≤ f.k * x

theorem bounds_id (x : α) : id.Bounds x x := by
  simp [Bounds, id]

variable [IsStrictOrderedRing α] [CanonicallyOrderedAdd α]

/-- A value below the limit `k / n` of the second map stays below the composition. -/
theorem Bounds.andThen (hf : f.Bounds x y) (hg : g.Bounds y z) (hlimit : z * g.n ≤ g.k) :
    (f.andThen g).Bounds x z := by
  obtain ⟨t, ht⟩ := exists_add_of_le hlimit
  have hrest : z * g.m ≤ t * y := by
    unfold Bounds at hg
    have hsum : z * g.n * y + z * g.m ≤ z * g.n * y + t * y := by
      calc z * g.n * y + z * g.m = z * (g.m + g.n * y) := by ring
        _ ≤ g.k * y := hg
        _ = z * g.n * y + t * y := by rw [ht]; ring
    exact le_of_add_le_add_left hsum
  calc z * (f.m * g.m + (f.n * g.m + f.k * g.n) * x)
      = z * g.m * (f.m + f.n * x) + z * g.n * (f.k * x) := by ring
    _ ≤ t * y * (f.m + f.n * x) + z * g.n * (f.k * x) := by gcongr
    _ = t * (y * (f.m + f.n * x)) + z * g.n * (f.k * x) := by ring
    _ ≤ t * (f.k * x) + z * g.n * (f.k * x) := by
      unfold Bounds at hf
      gcongr
    _ = f.k * g.k * x := by rw [ht]; ring

/-- A map that is flat at zero returns no more than it is given. -/
theorem Bounds.le (h : f.Bounds x y) (hflat : f.k ≤ f.m) (hm : 0 < f.m) : y ≤ x := by
  have hscaled : f.m * y ≤ f.m * x :=
    calc f.m * y
        ≤ f.m * y + y * (f.n * x) := le_self_add
      _ = y * (f.m + f.n * x) := by ring
      _ ≤ f.k * x := h
      _ ≤ f.m * x := by gcongr
  exact le_of_mul_le_mul_left hscaled hm

end Bounds

/-! ## The largest surplus -/

section Surplus

variable {α : Type*} [Field α] [LinearOrder α] [IsStrictOrderedRing α] {f g : FractionalMap α}
  {x : α}

def eval (f : FractionalMap α) (x : α) : α := f.k * x / (f.m + f.n * x)

/-- What the map returns above its input. -/
def surplus (f : FractionalMap α) (x : α) : α := f.eval x - x

/-- No pole is at or above zero. -/
structure Regular (f : FractionalMap α) : Prop where
  m_pos : 0 < f.m
  n_nonneg : 0 ≤ f.n

theorem Regular.denom_pos (hf : f.Regular) (hx : 0 ≤ x) : 0 < f.m + f.n * x :=
  add_pos_of_pos_of_nonneg hf.m_pos (mul_nonneg hf.n_nonneg hx)

theorem eval_andThen (hf : f.Regular) (hx : 0 ≤ x) :
    (f.andThen g).eval x = g.eval (f.eval x) := by
  have hdenom := (hf.denom_pos hx).ne'
  have hinner : g.m + g.n * f.eval x =
      (f.m * g.m + (f.n * g.m + f.k * g.n) * x) / (f.m + f.n * x) := by
    have hcancel : f.eval x * (f.m + f.n * x) = f.k * x := div_mul_cancel₀ _ hdenom
    rw [eq_div_iff hdenom]
    linear_combination g.n * hcancel
  rw [eval, eval, hinner, eval, ← mul_div_assoc, div_div_div_cancel_right₀ hdenom, andThen]
  ring_nf

/-- How the surpluses of two inputs differ. -/
theorem surplus_sub (hf : f.Regular) {y : α} (hx : 0 ≤ x) (hy : 0 ≤ y) :
    f.surplus x - f.surplus y =
      (x - y) * (f.k * f.m - (f.m + f.n * x) * (f.m + f.n * y)) /
        ((f.m + f.n * x) * (f.m + f.n * y)) := by
  have hhere := (hf.denom_pos hx).ne'
  have hthere := (hf.denom_pos hy).ne'
  have hcancel : f.eval x * (f.m + f.n * x) = f.k * x := div_mul_cancel₀ _ hhere
  have hcancel' : f.eval y * (f.m + f.n * y) = f.k * y := div_mul_cancel₀ _ hthere
  rw [eq_div_iff (mul_ne_zero hhere hthere), surplus, surplus]
  linear_combination (f.m + f.n * y) * hcancel - (f.m + f.n * x) * hcancel'

theorem surplus_gain (hf : f.Regular) (hx : 0 ≤ x) :
    f.surplus (x + 1) - f.surplus x =
      (f.k * f.m - (f.m + f.n * x) * (f.m + f.n * (x + 1))) /
        ((f.m + f.n * x) * (f.m + f.n * (x + 1))) := by
  rw [surplus_sub hf (add_nonneg hx zero_le_one) hx, add_sub_cancel_left, one_mul,
    mul_comm (f.m + f.n * (x + 1))]

/-- The surplus is largest where the denominator comes to the square root of `k m`, or at zero
when it starts above the root. -/
theorem surplus_le (hf : f.Regular) {y : α} (hx : 0 ≤ x) (hy : 0 ≤ y)
    (h : (f.m + f.n * x) * (f.m + f.n * x) = f.k * f.m ∨ (x = 0 ∧ f.k * f.m ≤ f.m * f.m)) :
    f.surplus y ≤ f.surplus x := by
  have hhere := hf.denom_pos hx
  have hthere := hf.denom_pos hy
  rw [← sub_nonneg, surplus_sub hf hx hy]
  apply div_nonneg _ (mul_pos hhere hthere).le
  rcases h with hroot | ⟨rfl, hflat⟩
  · have hproduct : (x - y) * (f.k * f.m - (f.m + f.n * x) * (f.m + f.n * y)) =
        f.n * (f.m + f.n * x) * (x - y) ^ 2 := by
      rw [← hroot]
      ring
    rw [hproduct]
    exact mul_nonneg (mul_nonneg hf.n_nonneg hhere.le) (sq_nonneg _)
  · have hgap : f.k * f.m ≤ f.m * (f.m + f.n * y) := by
      have hrest := mul_nonneg hf.m_pos.le (mul_nonneg hf.n_nonneg hy)
      rw [mul_add]
      exact hflat.trans (le_add_of_nonneg_right hrest)
    have hproduct : (0 - y) * (f.k * f.m - (f.m + f.n * 0) * (f.m + f.n * y)) =
        y * (f.m * (f.m + f.n * y) - f.k * f.m) := by ring
    rw [hproduct]
    exact mul_nonneg hy (sub_nonneg.mpr hgap)

/-- The surplus grows by a step as long as the slope of the map is above one there. -/
theorem surplus_lt_step_iff (hf : f.Regular) (hx : 0 ≤ x) :
    f.surplus x < f.surplus (x + 1) ↔
      (f.m + f.n * x) * (f.m + f.n * (x + 1)) < f.k * f.m := by
  have hdenom := mul_pos (hf.denom_pos hx) (hf.denom_pos (add_nonneg hx zero_le_one))
  rw [← sub_pos, surplus_gain hf hx, div_pos_iff_of_pos_right hdenom, sub_pos]

theorem Regular.andThen (hf : f.Regular) (hg : g.Regular) (hk : 0 ≤ f.k) : (f.andThen g).Regular where
  m_pos := mul_pos hf.m_pos hg.m_pos
  n_nonneg := add_nonneg (mul_nonneg hf.n_nonneg hg.m_pos.le) (mul_nonneg hk hg.n_nonneg)

/-- Applying the maps one after the other is applying their composition. -/
theorem eval_foldl {maps : List (FractionalMap α)} (hmaps : ∀ g ∈ maps, g.Regular ∧ 0 ≤ g.k)
    (hf : f.Regular) (hk : 0 ≤ f.k) (hx : 0 ≤ x) :
    (maps.foldl andThen f).eval x = maps.foldl (fun y g => g.eval y) (f.eval x) := by
  induction maps generalizing f with
  | nil => rfl
  | cons g maps ih =>
      obtain ⟨hg, hgk⟩ := hmaps g List.mem_cons_self
      rw [List.foldl_cons, List.foldl_cons, ← eval_andThen hf hx]
      exact ih (fun h hmem => hmaps h (List.mem_cons_of_mem _ hmem)) (hf.andThen hg hk)
        (mul_nonneg hk hgk)

end Surplus

end FractionalMap

/-- A sequence that rises up to `c` and falls after `c + 1` is largest at one of them. -/
theorem le_max_of_unimodal {α : Type*} [LinearOrder α] {f : ℕ → α} {c : ℕ}
    (hrise : ∀ n < c, f n ≤ f (n + 1)) (hfall : ∀ n, c < n → f (n + 1) ≤ f n) (n : ℕ) :
    f n ≤ max (f c) (f (c + 1)) := by
  rcases Nat.lt_or_ge c n with hlt | hle
  · apply le_max_of_le_right
    induction n, hlt using Nat.le_induction with
    | base => exact le_rfl
    | succ n hn ih => exact (hfall n hn).trans ih
  · apply le_max_of_le_left
    induction hle using Nat.decreasingInduction with
    | self => exact le_rfl
    | of_succ n hn ih => exact (hrise n hn).trans ih

/-! ## Natural coefficients -/

namespace FractionalMap

variable {f : FractionalMap ℕ}

/-- The input where the denominator comes to the root of `k m`, rounded down. -/
def rootInput (f : FractionalMap ℕ) : ℕ := ((f.k * f.m).sqrt - f.m) / f.n

theorem rootInput_le_root (h : 0 < f.rootInput) : f.m + f.n * f.rootInput ≤ (f.k * f.m).sqrt := by
  have hle : f.n * f.rootInput ≤ (f.k * f.m).sqrt - f.m := Nat.mul_div_le _ _
  have hn : 0 < f.n := by
    by_contra hzero
    rw [rootInput, Nat.eq_zero_of_not_pos hzero, Nat.div_zero] at h
    exact lt_irrefl 0 h
  have hpos := Nat.mul_pos hn h
  omega

theorem root_lt_rootInput (hn : 0 < f.n) : (f.k * f.m).sqrt < f.m + f.n * (f.rootInput + 1) := by
  have hlt : (f.k * f.m).sqrt - f.m < f.n * (f.rootInput + 1) := Nat.lt_mul_div_succ _ hn
  omega

/-- The map with its coefficients in another semiring. -/
def cast (f : FractionalMap ℕ) (α : Type*) [NatCast α] : FractionalMap α := ⟨f.k, f.m, f.n⟩

theorem cast_andThen (f g : FractionalMap ℕ) (α : Type*) [CommSemiring α] :
    (f.andThen g).cast α = (f.cast α).andThen (g.cast α) := by
  ext <;> simp [cast, andThen]

theorem cast_composition (maps : List (FractionalMap ℕ)) (α : Type*) [CommSemiring α] :
    (composition maps).cast α = composition (maps.map fun g => g.cast α) := by
  have hid : (id : FractionalMap ℕ).cast α = id := by ext <;> simp [cast, id]
  rw [composition, composition, ← hid]
  generalize (id : FractionalMap ℕ) = f
  induction maps generalizing f with
  | nil => rfl
  | cons g maps ih =>
      rw [List.map_cons, List.foldl_cons, List.foldl_cons, ih, cast_andThen]

variable {α : Type*} [Field α] [LinearOrder α] [IsStrictOrderedRing α]

theorem cast_regular (hm : 0 < f.m) : (f.cast α).Regular where
  m_pos := Nat.cast_pos.mpr hm
  n_nonneg := Nat.cast_nonneg _

theorem cast_surplus_lt_succ_iff (hm : 0 < f.m) (input : ℕ) :
    (f.cast α).surplus input < (f.cast α).surplus (input + 1 : ℕ) ↔
      (f.m + f.n * input) * (f.m + f.n * (input + 1)) < f.k * f.m := by
  rw [Nat.cast_succ, surplus_lt_step_iff (cast_regular hm) (Nat.cast_nonneg _),
    ← Nat.cast_lt (α := α)]
  push_cast
  rfl

/-- One of the two inputs around the root has the largest surplus of all natural inputs. -/
theorem cast_surplus_le_max (hm : 0 < f.m) (hn : 0 < f.n) (input : ℕ) :
    (f.cast α).surplus input ≤
      max ((f.cast α).surplus f.rootInput) ((f.cast α).surplus (f.rootInput + 1 : ℕ)) := by
  have hupper := root_lt_rootInput (f := f) hn
  refine le_max_of_unimodal (f := fun input : ℕ => (f.cast α).surplus input)
    (fun n hlt => ?_) (fun n hlt => ?_) input
  · have hroot := rootInput_le_root (Nat.zero_lt_of_lt hlt)
    have hnext : f.m + f.n * (n + 1) ≤ (f.k * f.m).sqrt :=
      (Nat.add_le_add_left (Nat.mul_le_mul_left _ hlt) _).trans hroot
    refine ((cast_surplus_lt_succ_iff hm n).mpr ?_).le
    calc (f.m + f.n * n) * (f.m + f.n * (n + 1))
        < (f.m + f.n * (n + 1)) * (f.m + f.n * (n + 1)) := by
          refine Nat.mul_lt_mul_of_pos_right ?_ (by omega)
          rw [Nat.mul_succ]
          omega
      _ ≤ (f.k * f.m).sqrt * (f.k * f.m).sqrt := Nat.mul_le_mul hnext hnext
      _ ≤ f.k * f.m := Nat.sqrt_le _
  · have hhere : (f.k * f.m).sqrt < f.m + f.n * n :=
      hupper.trans_le (Nat.add_le_add_left (Nat.mul_le_mul_left _ hlt) _)
    refine not_lt.mp (mt (cast_surplus_lt_succ_iff hm n).mp (not_lt.mpr ?_))
    calc f.k * f.m
        ≤ (f.m + f.n * n) * (f.m + f.n * n) := (Nat.sqrt_lt.mp hhere).le
      _ ≤ (f.m + f.n * n) * (f.m + f.n * (n + 1)) := by gcongr; omega

end FractionalMap

end Degenbot.Library
