import Degenbot.Algorithm.StepMerging
import Degenbot.Library.Batch
import Degenbot.Library.Lists
import Degenbot.Library.SelfDelimiting
import Degenbot.Library.WhileLoop

/-! # Merging routes by their intermediate tokens

The scan visits the first route of every class, and merges the whole class there. -/

namespace Degenbot.StepMerging

open Library

/-! ## The scan -/

section Scan

variable (sigs : List Bytes32)

/-- No earlier route has the signature, or it has none. -/
def IsFirst (i : ℕ) : Prop :=
  sigs[i]?.getD zeroBytes = zeroBytes ∨
    ∀ j < i, sigs[j]?.getD zeroBytes ≠ sigs[i]?.getD zeroBytes

instance (i : ℕ) : Decidable (IsFirst sigs i) := by unfold IsFirst; infer_instance

/-- The routes that are merged with the one at `i`. -/
def signatureClass (i : ℕ) : List ℕ :=
  (List.range sigs.length).filter fun j =>
    j = i ∨ sigs[i]?.getD zeroBytes ≠ zeroBytes ∧ sigs[j]?.getD zeroBytes = sigs[i]?.getD zeroBytes

/-- The flags before the visit of `k`. -/
def usedBefore (k : ℕ) : List Bool :=
  (List.range sigs.length).map fun j =>
    decide (j < k ∨ sigs[j]?.getD zeroBytes ≠ zeroBytes ∧
      ∃ i < k, sigs[i]?.getD zeroBytes = sigs[j]?.getD zeroBytes)

variable {sigs} {i j k : ℕ}

theorem getD_usedBefore (hj : j < sigs.length) : (usedBefore sigs k)[j]?.getD false =
    decide (j < k ∨ sigs[j]?.getD zeroBytes ≠ zeroBytes ∧
      ∃ i < k, sigs[i]?.getD zeroBytes = sigs[j]?.getD zeroBytes) := by
  simp [usedBefore, hj]

theorem getD_usedBefore_self (hk : k < sigs.length) :
    (usedBefore sigs k)[k]?.getD false = true ↔ ¬IsFirst sigs k := by
  rw [getD_usedBefore hk, decide_eq_true_iff, IsFirst]
  simp

theorem ext_getD {xs ys : List Bool} (hlength : xs.length = ys.length)
    (h : ∀ j < ys.length, xs[j]?.getD false = ys[j]?.getD false) : xs = ys := by
  refine List.ext_getElem hlength fun j hx hy => ?_
  simpa [hx, hy] using h j hy

theorem getD_set_true {used : List Bool} (hi : i < used.length) :
    (used.set i true)[j]?.getD false = (decide (j = i) || used[j]?.getD false) := by
  rw [List.getElem?_set]
  by_cases hj : j = i
  · simp [hj, hi]
  · simp [hj, Ne.symm hj]

theorem range_succ_iff {start len : ℕ} {p : Prop} (hj : j ≠ start) :
    (start + 1 ≤ j ∧ j < start + 1 + len ∧ p) ↔ (start ≤ j ∧ j < start + (len + 1) ∧ p) := by
  rw [← and_assoc, ← and_assoc]
  refine and_congr_left fun _ => ?_
  omega

/-- The inner loop takes the unused routes of the signature, and marks them. -/
theorem foldl_collect (sig : Bytes32) (len : ℕ) : ∀ (start : ℕ) (used : List Bool)
    (indexes : List ℕ), start + len ≤ used.length →
    let collected := (List.range' start len).foldl (collect sigs sig) (used, indexes)
    collected.1.length = used.length ∧
      (∀ j, collected.1[j]?.getD false =
        (used[j]?.getD false ||
          decide (start ≤ j ∧ j < start + len ∧ sigs[j]?.getD zeroBytes = sig))) ∧
      collected.2 = indexes ++ (List.range' start len).filter fun j =>
        used[j]?.getD false = false ∧ sigs[j]?.getD zeroBytes = sig := by
  induction len with
  | zero =>
      intro start used indexes _
      refine ⟨rfl, fun j => ?_, by simp⟩
      have hnone : ¬(start ≤ j ∧ j < start + 0 ∧ sigs[j]?.getD zeroBytes = sig) := by omega
      simp only [List.range'_zero, List.foldl_nil, hnone, decide_false, Bool.or_false]
  | succ len ih =>
      intro start used indexes hlength
      rw [List.range'_succ, List.foldl_cons]
      by_cases htake : used[start]?.getD false = false ∧ sigs[start]?.getD zeroBytes = sig
      · rw [collect, if_pos htake]
        obtain ⟨hlen, hused, hindexes⟩ := ih (start + 1) (used.set start true) (indexes ++ [start])
          (by rw [List.length_set]; omega)
        refine ⟨by rw [hlen, List.length_set], fun j => ?_, ?_⟩
        · rw [hused, getD_set_true (by omega)]
          by_cases hj : j = start
          · subst hj
            simp [htake.2]
          · simp only [hj, range_succ_iff hj, decide_false, Bool.false_or]
        · rw [hindexes, List.filter_cons_of_pos (by simpa using htake), List.append_assoc,
            List.singleton_append]
          congr 2
          refine List.filter_congr fun j hj => ?_
          have hne : j ≠ start := by
            have := List.mem_range'_1.mp hj
            omega
          rw [getD_set_true (by omega)]
          simp [hne]
      · rw [collect, if_neg htake]
        obtain ⟨hlen, hused, hindexes⟩ := ih (start + 1) used indexes (by omega)
        refine ⟨hlen, fun j => ?_, ?_⟩
        · rw [hused]
          by_cases hj : j = start
          · subst hj
            cases hflag : used[j]?.getD false with
            | true => simp
            | false =>
                have hsig : sigs[j]?.getD zeroBytes ≠ sig := fun hsig => htake ⟨hflag, hsig⟩
                simp [hsig]
          · simp only [range_succ_iff hj]
        · rw [hindexes, List.filter_cons_of_neg (by simpa using htake)]

theorem signatureClass_of_zero (hk : k < sigs.length)
    (hzero : sigs[k]?.getD zeroBytes = zeroBytes) : signatureClass sigs k = [k] := by
  have hfilter : signatureClass sigs k = (List.range sigs.length).filter fun j => j == k := by
    refine List.filter_congr fun j _ => ?_
    simp [hzero, beq_eq_decide]
  rw [hfilter, List.filter_beq, List.count_eq_one_of_mem List.nodup_range (List.mem_range.mpr hk)]
  rfl

/-- The class of a first route: the route and the later ones of its signature. -/
theorem signatureClass_of_first (hk : k < sigs.length) (hfirst : IsFirst sigs k)
    (hsig : sigs[k]?.getD zeroBytes ≠ zeroBytes) :
    signatureClass sigs k =
      k :: (List.range' (k + 1) (sigs.length - (k + 1))).filter fun j =>
        sigs[j]?.getD zeroBytes = sigs[k]?.getD zeroBytes := by
  have hnew := hfirst.resolve_left hsig
  have hrange : List.range sigs.length =
      List.range k ++ k :: List.range' (k + 1) (sigs.length - (k + 1)) := by
    have happend := @List.range'_append_1 0 k (sigs.length - (k + 1) + 1)
    rw [zero_add] at happend
    rw [← List.range'_succ, List.range_eq_range', List.range_eq_range', happend]
    congr 1
    omega
  have hbefore : (List.range k).filter (fun j =>
      j = k ∨ sigs[k]?.getD zeroBytes ≠ zeroBytes ∧
        sigs[j]?.getD zeroBytes = sigs[k]?.getD zeroBytes) = [] := by
    rw [List.filter_eq_nil_iff]
    intro j hj
    have hlt := List.mem_range.mp hj
    simp [hlt.ne, hnew j hlt]
  rw [signatureClass, hrange, List.filter_append, hbefore, List.nil_append,
    List.filter_cons_of_pos (by simp)]
  congr 1
  refine List.filter_congr fun j hj => ?_
  have hne : j ≠ k := by
    have := List.mem_range'_1.mp hj
    omega
  simp [hne, hsig]

theorem usedBefore_succ_of_not_first (hfirst : ¬IsFirst sigs k) :
    usedBefore sigs (k + 1) = usedBefore sigs k := by
  rw [IsFirst, not_or] at hfirst
  obtain ⟨hsig, hearlier⟩ := hfirst
  push Not at hearlier
  obtain ⟨first, hlt, hsame⟩ := hearlier
  refine List.map_congr_left fun j _ => decide_eq_decide.mpr ⟨?_, ?_⟩
  · rintro (hj | ⟨hj, i, hi, hij⟩)
    · rcases Nat.lt_succ_iff_lt_or_eq.mp hj with hj | rfl
      · exact .inl hj
      · exact .inr ⟨hsig, first, hlt, hsame⟩
    · rcases Nat.lt_succ_iff_lt_or_eq.mp hi with hi | rfl
      · exact .inr ⟨hj, i, hi, hij⟩
      · exact .inr ⟨hj, first, hlt, hsame.trans hij⟩
  · rintro (hj | ⟨hj, i, hi, hij⟩)
    · exact .inl (by omega)
    · exact .inr ⟨hj, i, by omega, hij⟩

theorem length_usedBefore : (usedBefore sigs k).length = sigs.length := by simp [usedBefore]

theorem set_usedBefore (hk : k < sigs.length) (hzero : sigs[k]?.getD zeroBytes = zeroBytes) :
    (usedBefore sigs k).set k true = usedBefore sigs (k + 1) := by
  refine ext_getD (by rw [List.length_set, length_usedBefore, length_usedBefore]) fun j hj => ?_
  rw [length_usedBefore] at hj
  rw [getD_set_true (by rwa [length_usedBefore]), getD_usedBefore hj, getD_usedBefore hj,
    ← Bool.decide_or, decide_eq_decide]
  constructor
  · rintro (rfl | hlt | ⟨hsig, i, hi, hij⟩)
    · exact .inl (Nat.lt_succ_self j)
    · exact .inl (by omega)
    · exact .inr ⟨hsig, i, by omega, hij⟩
  · rintro (hlt | ⟨hsig, i, hi, hij⟩)
    · rcases Nat.lt_succ_iff_lt_or_eq.mp hlt with hlt | rfl
      · exact .inr (.inl hlt)
      · exact .inl rfl
    · rcases Nat.lt_succ_iff_lt_or_eq.mp hi with hi | rfl
      · exact .inr (.inr ⟨hsig, i, hi, hij⟩)
      · exact absurd (hij.symm.trans hzero) hsig

/-- The visit of a first route with a signature collects its class. -/
theorem collect_first (hk : k < sigs.length) (hfirst : IsFirst sigs k)
    (hsig : sigs[k]?.getD zeroBytes ≠ zeroBytes) :
    (List.range' (k + 1) (sigs.length - (k + 1))).foldl (collect sigs (sigs[k]?.getD zeroBytes))
        ((usedBefore sigs k).set k true, [k]) =
      (usedBefore sigs (k + 1), signatureClass sigs k) := by
  have hnew := hfirst.resolve_left hsig
  have hlen : k < (usedBefore sigs k).length := by rwa [length_usedBefore]
  obtain ⟨hlength, hused, hindexes⟩ := @foldl_collect sigs (sigs[k]?.getD zeroBytes)
    (sigs.length - (k + 1)) (k + 1) ((usedBefore sigs k).set k true) [k]
    (by rw [List.length_set, length_usedBefore]; omega)
  refine Prod.ext ?_ ?_
  · rw [List.length_set, length_usedBefore] at hlength
    refine ext_getD (by rw [hlength, length_usedBefore]) fun j hj => ?_
    rw [length_usedBefore] at hj
    rw [hused, getD_set_true hlen, getD_usedBefore hj, getD_usedBefore hj, ← Bool.decide_or,
      ← Bool.decide_or, decide_eq_decide]
    constructor
    · rintro ((rfl | hlt | ⟨hj, i, hi, hij⟩) | ⟨-, -, hj⟩)
      · exact .inl (Nat.lt_succ_self j)
      · exact .inl (by omega)
      · exact .inr ⟨hj, i, by omega, hij⟩
      · exact .inr ⟨hj ▸ hsig, k, Nat.lt_succ_self k, hj.symm⟩
    · rintro (hlt | ⟨hj, i, hi, hij⟩)
      · rcases Nat.lt_succ_iff_lt_or_eq.mp hlt with hlt | rfl
        · exact .inl (.inr (.inl hlt))
        · exact .inl (.inl rfl)
      · rcases Nat.lt_succ_iff_lt_or_eq.mp hi with hi | rfl
        · exact .inl (.inr (.inr ⟨hj, i, hi, hij⟩))
        · rcases lt_trichotomy j i with hji | rfl | hji
          · exact .inl (.inr (.inl hji))
          · exact .inl (.inl rfl)
          · exact .inr ⟨hji, by omega, hij.symm⟩
  · rw [hindexes, signatureClass_of_first hk hfirst hsig, List.singleton_append]
    congr 1
    refine List.filter_congr fun j hj => decide_eq_decide.mpr (and_iff_right_of_imp fun hsame => ?_)
    obtain ⟨hkj, hjn⟩ := List.mem_range'_1.mp hj
    rw [getD_set_true hlen, getD_usedBefore (by omega), ← Bool.decide_or, decide_eq_false_iff_not]
    rintro (rfl | hlt | ⟨-, i, hi, hij⟩)
    · omega
    · omega
    · exact hnew i hi (hij.trans hsame)

end Scan

/-! ## The run of the scan -/

section Run

variable (keccak256 : List UInt8 → Bytes32) (arithmetic : Arithmetic)

def signatures (routes : List Route) : List Bytes32 :=
  routes.map fun route => intermediateSignature keccak256 route.hops

/-- The route that stands for the class of `i`, and the group of a merge. -/
def outcome (routes : List Route) (sigs : List Bytes32) (finalToken : Bytes32) (i : ℕ) :
    Except MergePanic (Route × Option MergedGroup) :=
  if (signatureClass sigs i).length = 1 then .ok (routes[i]?.getD default, none)
  else do
    let merged ← buildMergedRoute arithmetic routes (signatureClass sigs i)
      (sigs[i]?.getD zeroBytes) finalToken
    .ok (merged.1, some merged.2)

def firsts (sigs : List Bytes32) : List ℕ := (List.range sigs.length).filter (IsFirst sigs)

variable {arithmetic} {routes : List Route} {sigs : List Bytes32} {finalToken : Bytes32} {k : ℕ}
  {optimised : List Route} {groups : List MergedGroup}

theorem visit_not_first (hk : k < sigs.length) (hfirst : ¬IsFirst sigs k) :
    visit arithmetic routes sigs finalToken ⟨usedBefore sigs k, optimised, groups⟩ k =
      .ok ⟨usedBefore sigs (k + 1), optimised, groups⟩ := by
  rw [visit, if_pos ((getD_usedBefore_self hk).mpr hfirst), usedBefore_succ_of_not_first hfirst]

theorem visit_first (hlength : routes.length = sigs.length) (hk : k < sigs.length)
    (hfirst : IsFirst sigs k) :
    visit arithmetic routes sigs finalToken ⟨usedBefore sigs k, optimised, groups⟩ k =
      outcome arithmetic routes sigs finalToken k >>= fun result =>
        .ok ⟨usedBefore sigs (k + 1), optimised ++ [result.1], groups ++ result.2.toList⟩ := by
  have hunused : ¬(usedBefore sigs k)[k]?.getD false = true :=
    fun hused => (getD_usedBefore_self hk).mp hused hfirst
  rw [visit, if_neg hunused]
  dsimp only
  by_cases hsig : sigs[k]?.getD zeroBytes = zeroBytes
  · rw [if_pos hsig, set_usedBefore hk hsig, outcome, signatureClass_of_zero hk hsig,
      if_pos List.length_singleton]
    simp
  · rw [if_neg hsig, hlength, collect_first hk hfirst hsig, outcome]
    by_cases halone : (signatureClass sigs k).length = 1
    · rw [if_pos halone, if_pos halone]
      simp
    · rw [if_neg halone, if_neg halone]
      cases buildMergedRoute arithmetic routes (signatureClass sigs k)
          (sigs[k]?.getD zeroBytes) finalToken with
      | error e => rfl
      | ok merged => rfl

/-- The visits of the first `m` routes. -/
theorem foldlM_visit (hlength : routes.length = sigs.length) {m : ℕ} (hm : m ≤ sigs.length) :
    (List.range m).foldlM (visit arithmetic routes sigs finalToken)
        ⟨List.replicate sigs.length false, [], []⟩ =
      ((List.range m).filter (IsFirst sigs)).mapM (outcome arithmetic routes sigs finalToken) >>=
        fun results => .ok ⟨usedBefore sigs m, results.map Prod.fst,
          results.filterMap Prod.snd⟩ := by
  induction m with
  | zero =>
      have hnone : usedBefore sigs 0 = List.replicate sigs.length false := by
        simp [usedBefore, List.map_const']
      simp [hnone]
      rfl
  | succ m ih =>
      rw [List.range_succ, List.foldlM_append, ih (by omega), List.filter_append, List.mapM_append]
      cases hrun : ((List.range m).filter (IsFirst sigs)).mapM
          (outcome arithmetic routes sigs finalToken) with
      | error e => rfl
      | ok results =>
          by_cases hfirst : IsFirst sigs m
          · rw [List.filter_cons_of_pos (by simpa using hfirst), List.filter_nil]
            simp only [ok_bind, List.foldlM_cons, List.foldlM_nil, visit_first hlength hm hfirst]
            cases hresult : outcome arithmetic routes sigs finalToken m with
            | error e => simp [hresult]
            | ok result =>
                obtain ⟨route, group⟩ := result
                cases group <;> simp [hresult]
          · rw [List.filter_cons_of_neg (by simpa using hfirst), List.filter_nil]
            simp [visit_not_first hm hfirst]

theorem mergeSteps_eq :
    mergeStepsByIntermediate keccak256 arithmetic routes finalToken =
      (firsts (signatures keccak256 routes)).mapM
          (outcome arithmetic routes (signatures keccak256 routes) finalToken) >>=
        fun results => .ok (results.map Prod.fst, results.filterMap Prod.snd) := by
  have hlength : routes.length = (signatures keccak256 routes).length := by simp [signatures]
  unfold mergeStepsByIntermediate
  split
  · subst routes
    rfl
  · have hrun := @foldlM_visit arithmetic _ _ finalToken hlength _ le_rfl
    rw [← hlength] at hrun
    dsimp only
    rw [signatures] at hrun
    rw [hrun, firsts, signatures, List.length_map]
    simp

end Run

/-! ## Overflows

The run that reports an overflow, and the run that does not notice one, agree until the first
overflow. -/

section Overflows

universe u

/-- The same result, or an overflow that the first run reports. -/
def Agrees {α : Type u} (x y : Except MergePanic α) : Prop :=
  RefinesUpTo (· = MergePanic.overflow) (fun _ _ : MergePanic => False) Eq x y

theorem Agrees.bind {α β : Type u} {x y : Except MergePanic α} {f g : α → Except MergePanic β}
    (hxy : Agrees x y) (hfg : ∀ a, x = .ok a → Agrees (f a) (g a)) :
    Agrees (x >>= f) (y >>= g) := by
  refine RefinesUpTo.bind hxy ?_
  rintro a _ ha rfl
  exact hfg a ha

theorem Agrees.pure {α : Type u} (a : α) :
    Agrees (.ok a : Except MergePanic α) (.ok a) := RefinesUpTo.ok rfl

theorem Agrees.foldlM {α : Type u} {ι : Type*} {f g : α → ι → Except MergePanic α} {is : List ι}
    (h : ∀ a, ∀ i ∈ is, Agrees (f a i) (g a i)) (a : α) :
    Agrees (is.foldlM f a) (is.foldlM g a) := by
  have hlists : List.Forall₂ (fun i j => i = j ∧ i ∈ is) is is := by
    rw [List.forall₂_same]
    exact fun i hi => ⟨rfl, hi⟩
  refine RefinesUpTo.foldlM hlists rfl ?_
  rintro b _ i _ rfl ⟨rfl, hi⟩
  exact h b i hi

theorem Agrees.mapM {α : Type u} {ι : Type*} {f g : ι → Except MergePanic α} {is : List ι}
    (h : ∀ i ∈ is, Agrees (f i) (g i)) : Agrees (is.mapM f) (is.mapM g) := by
  have hlists : List.Forall₂ (fun i j => i = j ∧ i ∈ is) is is := by
    rw [List.forall₂_same]
    exact fun i hi => ⟨rfl, hi⟩
  have hruns : RefinesUpTo (· = MergePanic.overflow) (fun _ _ : MergePanic => False)
      (List.Forall₂ Eq) (is.mapM f) (is.mapM g) := by
    refine RefinesUpTo.mapM hlists ?_
    rintro i _ ⟨rfl, hi⟩
    exact h i hi
  rw [List.forall₂_eq_eq_eq] at hruns
  exact hruns

/-- Without an overflow both runs return. -/
theorem Agrees.exists_ok {α : Type u} {x y : Except MergePanic α} (h : Agrees x y)
    (hfits : x ≠ .error .overflow) : ∃ a, x = .ok a ∧ y = .ok a := by
  cases h with
  | ok hab => exact ⟨_, rfl, congrArg Except.ok hab.symm⟩
  | error hnone => exact hnone.elim
  | gaveUp hoverflow => exact absurd (congrArg Except.error hoverflow) hfits

variable {arithmetic : Arithmetic} {a b c : U256}

theorem agrees_add : Agrees (Arithmetic.reported.add a b) (arithmetic.add a b) := by
  unfold Arithmetic.add
  by_cases hover : 2 ^ 256 ≤ a.toNat + b.toNat
  · rw [if_pos ⟨rfl, hover⟩]
    exact .gaveUp rfl
  · rw [if_neg fun h => hover h.2, if_neg fun h => hover h.2]
    exact .pure _

theorem agrees_mul : Agrees (Arithmetic.reported.mul a b) (arithmetic.mul a b) := by
  unfold Arithmetic.mul
  by_cases hover : 2 ^ 256 ≤ a.toNat * b.toNat
  · rw [if_pos ⟨rfl, hover⟩]
    exact .gaveUp rfl
  · rw [if_neg fun h => hover h.2, if_neg fun h => hover h.2]
    exact .pure _

theorem agrees_div (hb : b ≠ 0) : Agrees (div a b) (div a b) := by
  rw [div, if_neg hb]
  exact .pure _

theorem agrees_mulDiv (hc : c ≠ 0) : Agrees (mulDiv a b c) (mulDiv a b c) := by
  unfold mulDiv
  split
  · exact .gaveUp rfl
  · exact agrees_div hc

theorem toNat_of_add (h : Arithmetic.reported.add a b = .ok c) :
    c.toNat = a.toNat + b.toNat := by
  unfold Arithmetic.add at h
  split_ifs at h with hover
  rw [← Except.ok.inj h, BitVec.toNat_add, Nat.mod_eq_of_lt]
  exact not_le.mp fun hle => hover ⟨rfl, hle⟩

theorem toNat_of_mul (h : Arithmetic.reported.mul a b = .ok c) :
    c.toNat = a.toNat * b.toNat := by
  unfold Arithmetic.mul at h
  split_ifs at h with hover
  rw [← Except.ok.inj h, BitVec.toNat_mul, Nat.mod_eq_of_lt]
  exact not_le.mp fun hle => hover ⟨rfl, hle⟩

theorem agrees_simulatePriceImpact (amountIn poolLiquidity : U256) :
    Agrees (simulatePriceImpactU256 .reported amountIn poolLiquidity)
      (simulatePriceImpactU256 arithmetic amountIn poolLiquidity) := by
  unfold simulatePriceImpactU256
  by_cases hempty : poolLiquidity = 0
  · rw [if_pos hempty, if_pos hempty]
    exact .pure 0
  · rw [if_neg hempty, if_neg hempty]
    refine agrees_add.bind fun denominator hdenominator => ?_
    have hne : denominator ≠ 0 := by
      rintro rfl
      have hsum : 0 = poolLiquidity.toNat + amountIn.toNat := toNat_of_add hdenominator
      have hnone : poolLiquidity.toNat = 0 := by omega
      exact hempty (BitVec.eq_of_toNat_eq hnone)
    refine (agrees_mulDiv hne).bind fun impactFactor _ => ?_
    refine agrees_mul.bind fun feeScaled _ => ?_
    refine (agrees_div (by decide)).bind fun feePart _ => ?_
    refine (agrees_mulDiv (by decide)).bind fun impactPart _ => ?_
    refine agrees_add.bind fun penalty _ => ?_
    refine (agrees_div (by decide)).bind fun floorRate _ => ?_
    exact .pure _

theorem agrees_makeRoute (hops : List Hop) :
    Agrees (makeRoute .reported hops) (makeRoute arithmetic hops) := by
  unfold makeRoute
  cases hops.getLast? with
  | none => exact .pure _
  | some last =>
      refine Agrees.bind (Agrees.foldlM (fun sum hop _ => agrees_add) 0) fun totalGas _ => ?_
      exact .pure _

theorem agrees_buildMergedRoute {routes : List Route} {indexes : List ℕ} {sig finalToken : Bytes32}
    (hfirst : ((routes[indexes.headD 0]?.getD default).fromEnd 1).amountIn ≠ 0)
    (hmembers : ∀ index ∈ indexes, ((routes[index]?.getD default).fromEnd 1).amountIn ≠ 0) :
    Agrees (buildMergedRoute .reported routes indexes sig finalToken)
      (buildMergedRoute arithmetic routes indexes sig finalToken) := by
  refine (agrees_mulDiv hfirst).bind fun firstRate _ => ?_
  refine Agrees.bind (Agrees.foldlM ?_ _) fun best _ => ?_
  · intro best route hroute
    obtain ⟨index, hindex, rfl⟩ := List.mem_map.mp hroute
    refine agrees_add.bind fun totalAtMerge _ => ?_
    refine (agrees_mulDiv (hmembers index hindex)).bind fun rate _ => ?_
    exact .pure _
  refine (agrees_simulatePriceImpact _ _).bind fun effectiveRate _ => ?_
  refine (agrees_mulDiv (by decide)).bind fun mergedAmountOut _ => ?_
  refine agrees_mul.bind fun gasScaled _ => ?_
  refine (agrees_div (by decide)).bind fun mergedGas _ => ?_
  refine (agrees_makeRoute _).bind fun mergedRoute _ => ?_
  refine Agrees.bind (Agrees.foldlM ?_ _) fun totals _ => ?_
  · intro totals route _
    refine agrees_add.bind fun originalTotalGas _ => ?_
    exact .pure _
  exact .pure _

end Overflows

/-! ## The merged route -/

section Build

variable {arithmetic : Arithmetic} {routes : List Route} {indexes : List ℕ}
  {sig finalToken : Bytes32} {route : Route} {group : MergedGroup}

/-- The gas of the hops is the gas of the route. -/
def GasOfHops (route : Route) : Prop :=
  route.totalGas.toNat = (route.hops.map fun hop => hop.gas.toNat).sum

theorem hops_of_makeRoute {hops : List Hop} (h : makeRoute arithmetic hops = .ok route) :
    route.hops = hops := by
  unfold makeRoute at h
  cases hlast : hops.getLast? with
  | none =>
      rw [hlast] at h
      cases h
      exact (List.getLast?_eq_none_iff.mp hlast).symm
  | some last =>
      rw [hlast] at h
      obtain ⟨totalGas, -, h⟩ := bind_eq_ok.mp h
      cases h
      rfl

theorem gasOfHops_of_makeRoute {hops : List Hop} (h : makeRoute .reported hops = .ok route) :
    GasOfHops route := by
  unfold GasOfHops
  rw [hops_of_makeRoute h]
  unfold makeRoute at h
  cases hlast : hops.getLast? with
  | none =>
      rw [hlast] at h
      cases h
      rw [List.getLast?_eq_none_iff.mp hlast]
      rfl
  | some last =>
      rw [hlast] at h
      obtain ⟨totalGas, hsum, h⟩ := bind_eq_ok.mp h
      cases h
      have hgas := foldlM_add_sum BitVec.toNat (fun _ _ _ _ hadd => toNat_of_add hadd) hsum
      have hzero : BitVec.toNat (0 : U256) = 0 := rfl
      rwa [hzero, zero_add] at hgas

theorem fromEnd_one (route : Route) (hops : List Hop) (last : Hop)
    (h : route.hops = hops ++ [last]) : route.fromEnd 1 = last := by
  simp [Route.fromEnd, h]

theorem exists_hops_append (h : route.hops ≠ []) :
    route.hops = route.hops.dropLast ++ [route.fromEnd 1] := by
  obtain ⟨hops, last, hsplit⟩ := List.eq_nil_or_concat'  route.hops |>.resolve_left h
  rw [fromEnd_one route hops last hsplit, hsplit, List.dropLast_concat]

theorem set_last {hops : List Hop} (h : hops ≠ []) (hop : Hop) :
    hops.set (hops.length - 1) hop = hops.dropLast ++ [hop] := by
  obtain ⟨before, last, rfl⟩ := List.eq_nil_or_concat' hops |>.resolve_left h
  simp

/-- The first loop: the amounts add up, and the best final hop is one of the final hops. -/
theorem foldlM_bestFinal {members : List Route} {start best : BestFinal}
    (h : members.foldlM (BestFinal.visit .reported) start = .ok best) :
    best.totalAtMerge.toNat =
        start.totalAtMerge.toNat +
          (members.map fun member => (member.fromEnd 2).amountOut.toNat).sum ∧
      (best.bestFinal = start.bestFinal ∨
        ∃ member ∈ members, best.bestFinal = member.fromEnd 1) := by
  constructor
  · refine foldlM_add_sum (fun best : BestFinal => best.totalAtMerge.toNat) ?_ h
    intro member _ s s' hvisit
    obtain ⟨totalAtMerge, hadd, hvisit⟩ := bind_eq_ok.mp hvisit
    obtain ⟨rate, -, hvisit⟩ := bind_eq_ok.mp hvisit
    rw [← Except.ok.inj hvisit, ← toNat_of_add hadd]
    split <;> rfl
  · refine foldlM_invariant (P := fun best : BestFinal => best.bestFinal = start.bestFinal ∨
      ∃ member ∈ members, best.bestFinal = member.fromEnd 1) ?_ (.inl rfl) h
    intro member hmember s s' hs hvisit
    obtain ⟨totalAtMerge, -, hvisit⟩ := bind_eq_ok.mp hvisit
    obtain ⟨rate, -, hvisit⟩ := bind_eq_ok.mp hvisit
    rw [← Except.ok.inj hvisit]
    split
    · exact .inr ⟨member, hmember, rfl⟩
    · exact hs

theorem toNat_of_div {a b c : U256} (h : div a b = .ok c) : c.toNat = a.toNat / b.toNat := by
  unfold div at h
  split_ifs at h
  rw [← Except.ok.inj h, BitVec.toNat_udiv]

/-- `merged` takes the place of the routes `members`, whose first one is `first`. -/
structure MergesClass (first : Route) (members : List Route) (finalToken : Bytes32)
    (merged : Route) (group : MergedGroup) : Prop where
  hops : ∃ final, merged.hops = first.hops.dropLast ++ [final] ∧ final.toToken = finalToken ∧
    final.amountIn.toNat = (members.map fun member => (member.fromEnd 2).amountOut.toNat).sum
  /-- A `Vec` has fewer than `2 ^ 64` elements. -/
  mergedCount : members.length < 2 ^ 64 → group.mergedCount.toNat = members.length
  gas : merged.totalGas.toNat ≤ (members.map fun member => member.totalGas.toNat).sum

/-- Whatever final hop is the best one, its gas and that of the first hops is some of the gas of
the class. -/
theorem best_gas_le {first : Route} {members : List Route} {best : Hop} (hfirst : first ∈ members)
    (hmembers : ∀ member ∈ members, GasOfHops member ∧ member.hops ≠ [])
    (hbest : ∃ member ∈ members, best = member.fromEnd 1) :
    (first.hops.dropLast.map fun hop => hop.gas.toNat).sum + best.gas.toNat ≤
      (members.map fun member => member.totalGas.toNat).sum := by
  have hsplit : ∀ member ∈ members, member.totalGas.toNat =
      (member.hops.dropLast.map fun hop => hop.gas.toNat).sum + (member.fromEnd 1).gas.toNat := by
    intro member hmember
    obtain ⟨hgas, hne⟩ := hmembers member hmember
    rw [hgas, exists_hops_append hne]
    simp
  have htotal : (members.map fun member => member.totalGas.toNat).sum =
      (members.map fun member => (member.hops.dropLast.map fun hop => hop.gas.toNat).sum).sum +
        (members.map fun member => (member.fromEnd 1).gas.toNat).sum := by
    rw [List.map_congr_left hsplit, List.sum_map_add]
  obtain ⟨member, hmember, rfl⟩ := hbest
  have hheads := List.single_le_sum (fun _ _ => Nat.zero_le _) _ (List.mem_map_of_mem
    (f := fun member : Route => (member.hops.dropLast.map fun hop => hop.gas.toNat).sum) hfirst)
  have hlast := List.single_le_sum (fun _ _ => Nat.zero_le _) _ (List.mem_map_of_mem
    (f := fun member : Route => (member.fromEnd 1).gas.toNat) hmember)
  rw [htotal]
  exact Nat.add_le_add hheads hlast

theorem mergesClass_of_build {i : ℕ} {later : List ℕ}
    (hmembers : ∀ index ∈ i :: later,
      GasOfHops (routes[index]?.getD default) ∧ (routes[index]?.getD default).hops ≠ [])
    (h : buildMergedRoute .reported routes (i :: later) sig finalToken = .ok (route, group)) :
    MergesClass (routes[i]?.getD default)
      ((i :: later).map fun index => routes[index]?.getD default) finalToken route group := by
  obtain ⟨firstRate, -, h⟩ := bind_eq_ok.mp h
  obtain ⟨best, hbest, h⟩ := bind_eq_ok.mp h
  obtain ⟨effectiveRate, -, h⟩ := bind_eq_ok.mp h
  obtain ⟨mergedAmountOut, -, h⟩ := bind_eq_ok.mp h
  obtain ⟨gasScaled, hgasScaled, h⟩ := bind_eq_ok.mp h
  obtain ⟨mergedGas, hmergedGas, h⟩ := bind_eq_ok.mp h
  obtain ⟨mergedRoute, hmergedRoute, h⟩ := bind_eq_ok.mp h
  obtain ⟨totals, -, h⟩ := bind_eq_ok.mp h
  cases h
  have hmem : i ∈ i :: later := List.mem_cons_self
  obtain ⟨htotal, hfinal⟩ := foldlM_bestFinal hbest
  have hne : (routes[i]?.getD default).hops ≠ [] := (hmembers i hmem).2
  have hhops := hops_of_makeRoute hmergedRoute
  have hgas := gasOfHops_of_makeRoute hmergedRoute
  rw [GasOfHops, hhops] at hgas
  simp only [List.headD_cons] at hhops hgas hfinal
  rw [set_last hne] at hhops hgas
  refine ⟨⟨_, hhops, rfl, ?_⟩, ?_, ?_⟩
  · have hzero : BitVec.toNat (0 : U256) = 0 := rfl
    rw [htotal, hzero, zero_add]
  · intro hlength
    rw [List.length_map] at hlength ⊢
    simp only [BitVec.toNat_ofNat]
    exact Nat.mod_eq_of_lt (hlength.trans (by decide))
  · have hclass : ∀ member ∈ (i :: later).map fun index => routes[index]?.getD default,
        GasOfHops member ∧ member.hops ≠ [] := by
      intro member hmember
      obtain ⟨index, hindex, rfl⟩ := List.mem_map.mp hmember
      exact hmembers index hindex
    have hbestFinal : ∃ member ∈ (i :: later).map fun index => routes[index]?.getD default,
        best.bestFinal = member.fromEnd 1 := by
      rcases hfinal with hfirst | hother
      · exact ⟨_, List.mem_map_of_mem hmem, hfirst⟩
      · exact hother
    have hle := best_gas_le (List.mem_map_of_mem hmem) hclass hbestFinal
    have hscaled := toNat_of_mul hgasScaled
    have hmerged : mergedGas.toNat = gasScaled.toNat / 100 := toNat_of_div hmergedGas
    have hnumerator : mergedGasNumerator.toNat = 62 := rfl
    rw [hnumerator] at hscaled
    rw [hgas, List.map_append, List.sum_append, List.map_singleton, List.sum_singleton]
    dsimp only
    omega

end Build

/-! ## Classes of routes -/

section Classes

/-- Two routes of two hops or more through the same intermediate tokens. -/
def SameIntermediates (a b : Route) : Prop :=
  2 ≤ a.hops.length ∧ 2 ≤ b.hops.length ∧
    a.hops.dropLast.map Hop.toToken = b.hops.dropLast.map Hop.toToken

instance (a b : Route) : Decidable (SameIntermediates a b) := by
  unfold SameIntermediates
  infer_instance

def routeAt (routes : List Route) (i : ℕ) : Route := routes[i]?.getD default

/-- The routes that come first with their intermediate tokens. -/
def leaders (routes : List Route) : List ℕ :=
  (List.range routes.length).filter fun i =>
    ∀ j < i, ¬SameIntermediates (routeAt routes j) (routeAt routes i)

/-- The routes with the intermediate tokens of the one at `i`. -/
def sharers (routes : List Route) (i : ℕ) : List ℕ :=
  (List.range routes.length).filter fun j =>
    j = i ∨ SameIntermediates (routeAt routes i) (routeAt routes j)

/-- What stands for the class of the route at `i`: the route itself when it shares its tokens with
no other one, and otherwise a merged route and its group. -/
inductive Outcome (routes : List Route) (finalToken : Bytes32) (i : ℕ) :
    Route × Option MergedGroup → Prop where
  | unchanged : sharers routes i = [i] → Outcome routes finalToken i (routeAt routes i, none)
  | merged {route group} : 2 ≤ (sharers routes i).length →
      MergesClass (routeAt routes i) ((sharers routes i).map (routeAt routes)) finalToken route
        group → Outcome routes finalToken i (route, some group)

/-- On the packed tokens of these routes, `keccak256` has no collisions and is not zero. -/
def CollisionFree (keccak256 : List UInt8 → Bytes32) (hopLists : List (List Hop)) : Prop :=
  ∀ a ∈ hopLists, 2 ≤ a.length → keccak256 (packed a) ≠ zeroBytes ∧
    ∀ b ∈ hopLists, 2 ≤ b.length → keccak256 (packed a) = keccak256 (packed b) →
      packed a = packed b

/-- Tokens of 32 bytes are read off their packed form. -/
theorem packed_eq_iff {a b : List Hop} :
    packed a = packed b ↔ a.dropLast.map Hop.toToken = b.dropLast.map Hop.toToken := by
  have hreads : Reads (fun hop : Hop => slice hop.toToken) Hop.toToken := by
    refine Reads.of_length (fun hop => length_beBytes 32 _) fun x y h => ?_
    exact BitVec.eq_of_toNat_eq (beBytes_inj x.toToken.isLt y.toToken.isLt h)
  have hlength : ∀ hops : List Hop, (packed hops).length = 32 * hops.dropLast.length := by
    intro hops
    simp [packed, List.length_flatMap, slice, length_beBytes, mul_comm]
  constructor
  · intro h
    have hsame : a.dropLast.length = b.dropLast.length := by
      have hlengths := congrArg List.length h
      rw [hlength, hlength] at hlengths
      omega
    exact (hreads.flatMap hsame (s := []) (t := []) (by simpa [packed] using h)).1
  · intro h
    have hslices := congrArg (List.flatMap slice) h
    rw [List.flatMap_map, List.flatMap_map] at hslices
    exact hslices

variable {keccak256 : List UInt8 → Bytes32} {routes : List Route} {i j : ℕ}

theorem getD_signatures (hi : i < routes.length) :
    (signatures keccak256 routes)[i]?.getD zeroBytes =
      intermediateSignature keccak256 (routeAt routes i).hops := by
  simp [signatures, routeAt, hi]

theorem intermediateSignature_eq_iff (h : CollisionFree keccak256 (routes.map Route.hops))
    (hi : i < routes.length) (hj : j < routes.length) :
    (signatures keccak256 routes)[i]?.getD zeroBytes ≠ zeroBytes ∧
        (signatures keccak256 routes)[j]?.getD zeroBytes =
          (signatures keccak256 routes)[i]?.getD zeroBytes ↔
      SameIntermediates (routeAt routes i) (routeAt routes j) := by
  have hmem : ∀ k, k < routes.length → (routeAt routes k).hops ∈ routes.map Route.hops := by
    intro k hk
    refine List.mem_map_of_mem ?_
    simp [routeAt, hk]
  rw [getD_signatures hi, getD_signatures hj]
  unfold intermediateSignature SameIntermediates
  by_cases hlong : 2 ≤ (routeAt routes i).hops.length
  · obtain ⟨hne, hinj⟩ := h _ (hmem i hi) hlong
    rw [if_neg (not_lt.mpr hlong)]
    by_cases hlong' : 2 ≤ (routeAt routes j).hops.length
    · rw [if_neg (not_lt.mpr hlong'), ← packed_eq_iff]
      constructor
      · rintro ⟨-, heq⟩
        exact ⟨hlong, hlong', hinj _ (hmem j hj) hlong' heq.symm⟩
      · rintro ⟨-, -, heq⟩
        exact ⟨hne, by rw [heq]⟩
    · rw [if_pos (not_le.mp hlong')]
      simp [hlong', Ne.symm hne]
  · rw [if_pos (not_le.mp hlong)]
    simp [hlong]

theorem firsts_eq_leaders (h : CollisionFree keccak256 (routes.map Route.hops)) :
    firsts (signatures keccak256 routes) = leaders routes := by
  have hlength : (signatures keccak256 routes).length = routes.length := by simp [signatures]
  rw [firsts, leaders, hlength]
  refine List.filter_congr fun i hi => decide_eq_decide.mpr ?_
  have hi := List.mem_range.mp hi
  rw [IsFirst, or_iff_not_imp_left]
  constructor
  · intro hfirst j hj hsame
    obtain ⟨hne, heq⟩ := (intermediateSignature_eq_iff h (hj.trans hi) hi).mpr hsame
    exact hfirst (heq ▸ hne) j hj heq.symm
  · intro hleader hne j hj heq
    exact hleader j hj ((intermediateSignature_eq_iff h (hj.trans hi) hi).mp ⟨heq ▸ hne, heq.symm⟩)

theorem signatureClass_eq_sharers (h : CollisionFree keccak256 (routes.map Route.hops))
    (hi : i < routes.length) :
    signatureClass (signatures keccak256 routes) i = sharers routes i := by
  have hlength : (signatures keccak256 routes).length = routes.length := by simp [signatures]
  rw [signatureClass, sharers, hlength]
  refine List.filter_congr fun j hj => decide_eq_decide.mpr (or_congr_right ?_)
  exact intermediateSignature_eq_iff h hi (List.mem_range.mp hj)

/-! ## The class of a leader -/

variable {finalToken : Bytes32} {arithmetic : Arithmetic}

theorem long_of_signature (hi : i < routes.length)
    (hsig : (signatures keccak256 routes)[i]?.getD zeroBytes ≠ zeroBytes) :
    2 ≤ (routeAt routes i).hops.length := by
  rw [getD_signatures hi, intermediateSignature] at hsig
  by_contra hshort
  exact hsig (if_pos (not_le.mp hshort))

theorem long_of_mem_signatureClass {index : ℕ}
    (hsig : (signatures keccak256 routes)[i]?.getD zeroBytes ≠ zeroBytes) (hi : i < routes.length)
    (hindex : index ∈ signatureClass (signatures keccak256 routes) i) :
    index < routes.length ∧ 2 ≤ (routeAt routes index).hops.length := by
  obtain ⟨hrange, hclass⟩ := List.mem_filter.mp hindex
  have hlt : index < routes.length := by simpa [signatures] using List.mem_range.mp hrange
  rcases of_decide_eq_true hclass with rfl | ⟨-, hsame⟩
  · exact ⟨hlt, long_of_signature hi hsig⟩
  · exact ⟨hlt, long_of_signature hlt (hsame ▸ hsig)⟩

/-- A class of more than one route has a signature, and its leader is the first of it. -/
theorem signatureClass_of_many (hi : i < routes.length)
    (hfirst : IsFirst (signatures keccak256 routes) i)
    (hmany : (signatureClass (signatures keccak256 routes) i).length ≠ 1) :
    (signatures keccak256 routes)[i]?.getD zeroBytes ≠ zeroBytes ∧
      ∃ j later, signatureClass (signatures keccak256 routes) i = i :: j :: later := by
  have hlength : i < (signatures keccak256 routes).length := by simpa [signatures] using hi
  have hsig : (signatures keccak256 routes)[i]?.getD zeroBytes ≠ zeroBytes := by
    intro hzero
    rw [signatureClass_of_zero hlength hzero] at hmany
    exact hmany rfl
  refine ⟨hsig, ?_⟩
  rw [signatureClass_of_first hlength hfirst hsig] at hmany ⊢
  cases hlater : (List.range' (i + 1) ((signatures keccak256 routes).length - (i + 1))).filter
      fun j => (signatures keccak256 routes)[j]?.getD zeroBytes =
        (signatures keccak256 routes)[i]?.getD zeroBytes with
  | nil => simp [hlater] at hmany
  | cons j later => exact ⟨j, later, rfl⟩

/-- The final hops have inputs. -/
def FinalInputs (routes : List Route) : Prop :=
  ∀ route ∈ routes, route.hops ≠ [] → (route.fromEnd 1).amountIn ≠ 0

theorem agrees_outcome (hinputs : FinalInputs routes) (hi : i < routes.length)
    (hfirst : IsFirst (signatures keccak256 routes) i) :
    Agrees (outcome .reported routes (signatures keccak256 routes) finalToken i)
      (outcome arithmetic routes (signatures keccak256 routes) finalToken i) := by
  unfold outcome
  by_cases halone : (signatureClass (signatures keccak256 routes) i).length = 1
  · rw [if_pos halone, if_pos halone]
    exact .pure _
  · rw [if_neg halone, if_neg halone]
    obtain ⟨hsig, j, later, hclass⟩ := signatureClass_of_many hi hfirst halone
    have hmembers : ∀ index ∈ signatureClass (signatures keccak256 routes) i,
        ((routes[index]?.getD default).fromEnd 1).amountIn ≠ 0 := by
      intro index hindex
      obtain ⟨hlt, hlong⟩ := long_of_mem_signatureClass hsig hi hindex
      refine hinputs (routeAt routes index) (by simp [routeAt, hlt]) ?_
      rintro hnil
      rw [hnil] at hlong
      exact absurd hlong (by decide)
    have hhead : (signatureClass (signatures keccak256 routes) i).headD 0 ∈
        signatureClass (signatures keccak256 routes) i := by
      rw [hclass]
      exact List.mem_cons_self
    refine (agrees_buildMergedRoute (hmembers _ hhead) hmembers).bind fun merged _ => ?_
    exact .pure _

theorem signature_of_build {indexes : List ℕ} {sig : Bytes32} {route : Route} {group : MergedGroup}
    (hlong : 2 ≤ (routes[indexes.headD 0]?.getD default).hops.length)
    (h : buildMergedRoute arithmetic routes indexes sig finalToken = .ok (route, group)) :
    intermediateSignature keccak256 route.hops =
      intermediateSignature keccak256 (routes[indexes.headD 0]?.getD default).hops := by
  obtain ⟨firstRate, -, h⟩ := bind_eq_ok.mp h
  obtain ⟨best, -, h⟩ := bind_eq_ok.mp h
  obtain ⟨effectiveRate, -, h⟩ := bind_eq_ok.mp h
  obtain ⟨mergedAmountOut, -, h⟩ := bind_eq_ok.mp h
  obtain ⟨gasScaled, -, h⟩ := bind_eq_ok.mp h
  obtain ⟨mergedGas, -, h⟩ := bind_eq_ok.mp h
  obtain ⟨mergedRoute, hmergedRoute, h⟩ := bind_eq_ok.mp h
  obtain ⟨totals, -, h⟩ := bind_eq_ok.mp h
  cases h
  have hne : (routes[indexes.headD 0]?.getD default).hops ≠ [] := by
    rintro hnil
    rw [hnil] at hlong
    exact absurd hlong (by decide)
  have hhops := hops_of_makeRoute hmergedRoute
  rw [hhops, intermediateSignature, intermediateSignature, packed, packed, List.length_set,
    set_last hne, List.dropLast_concat]

theorem outcome_spec (hfree : CollisionFree keccak256 (routes.map Route.hops))
    (hgas : ∀ route ∈ routes, GasOfHops route) (hi : i < routes.length)
    (hfirst : IsFirst (signatures keccak256 routes) i) {result : Route × Option MergedGroup}
    (h : outcome .reported routes (signatures keccak256 routes) finalToken i = .ok result) :
    Outcome routes finalToken i result ∧
      intermediateSignature keccak256 result.1.hops =
        (signatures keccak256 routes)[i]?.getD zeroBytes := by
  have hshare := signatureClass_eq_sharers hfree hi
  unfold outcome at h
  by_cases halone : (signatureClass (signatures keccak256 routes) i).length = 1
  · rw [if_pos halone] at h
    cases h
    have hself : i ∈ sharers routes i := by simp [sharers, hi]
    obtain ⟨only, honly⟩ := List.length_eq_one_iff.mp halone
    rw [← hshare, honly, List.mem_singleton] at hself
    refine ⟨.unchanged ?_, (getD_signatures hi).symm⟩
    rw [← hshare, honly, hself]
  · rw [if_neg halone] at h
    obtain ⟨hsig, j, later, hclass⟩ := signatureClass_of_many hi hfirst halone
    obtain ⟨⟨route, group⟩, hbuild, h⟩ := bind_eq_ok.mp h
    cases h
    have hlong := fun index hindex =>
      @long_of_mem_signatureClass _ _ _ index hsig hi hindex
    rw [hclass] at hbuild hlong
    constructor
    · have hmembers : ∀ index ∈ i :: j :: later, GasOfHops (routes[index]?.getD default) ∧
          (routes[index]?.getD default).hops ≠ [] := by
        intro index hindex
        obtain ⟨hlt, hlength⟩ := hlong index hindex
        refine ⟨hgas _ (by simp [hlt]), ?_⟩
        rintro hnil
        rw [routeAt, hnil] at hlength
        exact absurd hlength (by decide)
      have hmerges := mergesClass_of_build hmembers hbuild
      refine .merged ?_ ?_
      · rw [← hshare, hclass]
        simp
      · rw [← hshare, hclass]
        exact hmerges
    · rw [getD_signatures hi]
      exact @signature_of_build _ _ _ _ (i :: j :: later) _ _ _ (hlong i List.mem_cons_self).2 hbuild

/-! ## Merging again -/

/-- Routes of different signatures are left as they are. -/
theorem mergeSteps_of_distinct
    (h : (signatures keccak256 routes).Pairwise fun a b => b = zeroBytes ∨ a ≠ b) :
    mergeStepsByIntermediate keccak256 arithmetic routes finalToken = .ok (routes, []) := by
  have hlength : (signatures keccak256 routes).length = routes.length := by simp [signatures]
  have hpair : ∀ j i, j < i → i < routes.length →
      (signatures keccak256 routes)[i]?.getD zeroBytes = zeroBytes ∨
        (signatures keccak256 routes)[j]?.getD zeroBytes ≠
          (signatures keccak256 routes)[i]?.getD zeroBytes := by
    intro j i hji hi
    have hlt : i < (signatures keccak256 routes).length := by omega
    have hlt' : j < (signatures keccak256 routes).length := by omega
    have hdistinct := List.pairwise_iff_getElem.mp h j i hlt' hlt hji
    simpa [hlt, hlt'] using hdistinct
  have hfirst : ∀ i < routes.length, IsFirst (signatures keccak256 routes) i := by
    intro i hi
    rw [IsFirst, or_iff_not_imp_left]
    intro hsig j hj
    exact (hpair j i hj hi).resolve_left hsig
  have halone : ∀ i < routes.length,
      (signatureClass (signatures keccak256 routes) i).length = 1 := by
    intro i hi
    by_contra hmany
    obtain ⟨hsig, -⟩ := signatureClass_of_many hi (hfirst i hi) hmany
    refine hmany ?_
    rw [signatureClass_of_first (by omega) (hfirst i hi) hsig, List.filter_eq_nil_iff.mpr]
    · rfl
    · intro j hj hsame
      obtain ⟨hij, hjn⟩ := List.mem_range'_1.mp hj
      have hsame := of_decide_eq_true hsame
      rcases hpair i j hij (by omega) with hzero | hne
      · exact hsig (hsame ▸ hzero)
      · exact hne hsame.symm
  have hleaders : firsts (signatures keccak256 routes) = List.range routes.length := by
    rw [firsts, hlength, List.filter_eq_self]
    exact fun i hi => decide_eq_true (hfirst i (List.mem_range.mp hi))
  have hrun : (List.range routes.length).mapM
      (outcome arithmetic routes (signatures keccak256 routes) finalToken) =
        .ok ((List.range routes.length).map fun i => (routeAt routes i, none)) :=
    mapM_eq_ok fun i hi => if_pos (halone i (List.mem_range.mp hi))
  rw [mergeSteps_eq, hleaders, hrun]
  have hroutes : (List.range routes.length).map (routeAt routes) = routes := by
    refine List.ext_getElem (by simp) fun i _ hi => ?_
    simp [routeAt, hi]
  simp [List.map_map, Function.comp_def, hroutes, List.filterMap_map]

/-- The routes are built, merged, and left unchanged when they are merged again. -/
theorem merge_by_intermediate (keccak256 : List UInt8 → Bytes32) (arithmetic : Arithmetic)
    (hopLists : List (List Hop)) (finalToken : Bytes32)
    (hkeccak : CollisionFree keccak256 hopLists)
    (hinputs : ∀ hops ∈ hopLists, ∀ last, hops.getLast? = some last → last.amountIn ≠ 0)
    (hfits : (hopLists.mapM (makeRoute .reported) >>= fun routes =>
      mergeStepsByIntermediate keccak256 .reported routes finalToken) ≠ .error .overflow) :
    ∃ routes results, hopLists.mapM (makeRoute arithmetic) = .ok routes ∧
      mergeStepsByIntermediate keccak256 arithmetic routes finalToken =
        .ok (results.map Prod.fst, results.filterMap Prod.snd) ∧
      List.Forall₂ (Outcome routes finalToken) (leaders routes) results ∧
      ∀ token, mergeStepsByIntermediate keccak256 arithmetic (results.map Prod.fst) token =
        .ok (results.map Prod.fst, []) := by
  have hbuilt : hopLists.mapM (makeRoute .reported) ≠ .error .overflow := by
    intro hover
    rw [hover] at hfits
    exact hfits rfl
  obtain ⟨routes, hreported, hrun⟩ := (Agrees.mapM fun hops _ =>
    @agrees_makeRoute arithmetic hops).exists_ok hbuilt
  rw [hreported, ok_bind] at hfits
  have hall := mapM_eq_ok_iff.mp hreported
  have hhops : hopLists = routes.map Route.hops := by
    rw [← List.forall₂_eq_eq_eq, List.forall₂_map_right_iff]
    exact hall.imp fun _ _ hmake => (hops_of_makeRoute hmake).symm
  have hgas : ∀ route ∈ routes, GasOfHops route := by
    intro route hroute
    obtain ⟨hops, -, hmake⟩ := exists_left_of_forall₂ hall hroute
    exact gasOfHops_of_makeRoute hmake
  have hfinal : FinalInputs routes := by
    intro route hroute hne
    refine hinputs route.hops (by rw [hhops]; exact List.mem_map_of_mem hroute) _ ?_
    rw [exists_hops_append hne]
    simp
  have hleader : ∀ i ∈ firsts (signatures keccak256 routes),
      i < routes.length ∧ IsFirst (signatures keccak256 routes) i := by
    intro i hi
    obtain ⟨hrange, hfirst⟩ := List.mem_filter.mp hi
    exact ⟨by simpa [signatures] using List.mem_range.mp hrange, of_decide_eq_true hfirst⟩
  have houtcomes : (firsts (signatures keccak256 routes)).mapM
      (outcome .reported routes (signatures keccak256 routes) finalToken) ≠ .error .overflow := by
    intro hover
    rw [mergeSteps_eq, hover] at hfits
    exact hfits rfl
  obtain ⟨results, hresults, hmerged⟩ := (Agrees.mapM fun i hi =>
    @agrees_outcome _ _ _ _ arithmetic hfinal (hleader i hi).1 (hleader i hi).2).exists_ok
      houtcomes
  have hspec : List.Forall₂ (fun i result => Outcome routes finalToken i result ∧
      intermediateSignature keccak256 result.1.hops =
        (signatures keccak256 routes)[i]?.getD zeroBytes)
      (firsts (signatures keccak256 routes)) results := by
    have hpairs := (List.forall₂_and_left _ _).mpr ⟨hleader, mapM_eq_ok_iff.mp hresults⟩
    refine hpairs.imp ?_
    rintro i result ⟨⟨hi, hfirst⟩, houtcome⟩
    exact outcome_spec (hhops ▸ hkeccak) hgas hi hfirst houtcome
  refine ⟨routes, results, hrun, ?_, ?_, ?_⟩
  · rw [mergeSteps_eq, hmerged]
    rfl
  · rw [← firsts_eq_leaders (hhops ▸ hkeccak)]
    exact hspec.imp fun _ _ h => h.1
  · intro token
    refine mergeSteps_of_distinct ?_
    have hsignatures : (firsts (signatures keccak256 routes)).map
        (fun i => (signatures keccak256 routes)[i]?.getD zeroBytes) =
          signatures keccak256 (results.map Prod.fst) := by
      have hmap : signatures keccak256 (results.map Prod.fst) =
          results.map fun result => intermediateSignature keccak256 result.1.hops := by
        rw [signatures, List.map_map]
        rfl
      rw [hmap, ← List.forall₂_eq_eq_eq, List.forall₂_map_left_iff, List.forall₂_map_right_iff]
      exact hspec.imp fun _ _ h => h.2.symm
    rw [← hsignatures, List.pairwise_map]
    have hsorted : (firsts (signatures keccak256 routes)).Pairwise (· < ·) :=
      List.pairwise_lt_range.filter _
    refine hsorted.imp_of_mem ?_
    intro i j _ hj hij
    rcases (hleader j hj).2 with hzero | hnew
    · exact .inl hzero
    · exact .inr (hnew i hij)

end Classes

/-! ## An example -/

/-- The digests of the tokens one and two. -/
def sampleKeccak (bytes : List UInt8) : Bytes32 :=
  if bytes = slice 1 then 0xb10e2d527612073b26eecdfd717e6a320cf44b4afac2b0732d9fcbe2b7fa0cf6
  else 0x405787fa12a823e0f2b7631cc41b3ba8828b3321ca811111fa75cd3aa3bb5ace

def sampleHop (fromToken toToken : Bytes32) (amountIn amountOut : U256) : Hop :=
  ⟨7, fromToken, toToken, amountIn, amountOut, 90000, 1000000⟩

/-- Two routes through the token one, and a route through the token two between them. -/
def sampleHopLists : List (List Hop) :=
  [[sampleHop 0 1 1000 900, sampleHop 1 3 900 800], [sampleHop 0 2 1000 950, sampleHop 2 3 950 700],
    [sampleHop 0 1 2000 1700, sampleHop 1 3 1700 1600]]

theorem merge_by_intermediate_sample :
    ∃ routes results, sampleHopLists.mapM (makeRoute .wrapping) = .ok routes ∧
      mergeStepsByIntermediate sampleKeccak .wrapping routes 3 =
        .ok (results.map Prod.fst, results.filterMap Prod.snd) ∧
      List.Forall₂ (Outcome routes 3) (leaders routes) results ∧
      ∀ token, mergeStepsByIntermediate sampleKeccak .wrapping (results.map Prod.fst) token =
        .ok (results.map Prod.fst, []) :=
  merge_by_intermediate sampleKeccak .wrapping sampleHopLists 3 (by unfold CollisionFree; decide)
    (by
      have hlast : sampleHopLists.all fun hops =>
          hops.getLast?.all fun last => last.amountIn ≠ 0 := by decide
      intro hops hhops last hget
      have hall := List.all_eq_true.mp hlast hops hhops
      rw [hget] at hall
      simpa using hall)
    (by
      have hok : (sampleHopLists.mapM (makeRoute .reported) >>= fun routes =>
          mergeStepsByIntermediate sampleKeccak .reported routes 3).isOk = true := by decide
      intro hover
      rw [hover] at hok
      cases hok)

end Degenbot.StepMerging
