import Degenbot.Verification.Matching.Expiry

/-! # Routing and the queues

Which of its candidates the engine selects, and what becomes of the entries of the queues over a
run. -/

namespace Degenbot.Coordinator

open Library

/-! ## The best route -/

theorem DecisionKind.priorityIndex_injective {a b : DecisionKind} :
    a.priorityIndex = b.priorityIndex ↔ a = b := by
  constructor
  · cases a <;> cases b <;> simp [priorityIndex]
  · exact congrArg priorityIndex

/-- `a` is ahead of `b`: by its kind, or by its score among routes of one kind. -/
def RouteCandidate.Beats (a b : RouteCandidate) : Prop :=
  comparePriority a.kind b.kind < 0 ∨ (a.kind = b.kind ∧ a.scoreWei > b.scoreWei)

theorem RouteCandidate.beats_iff {a b : RouteCandidate} :
    a.Beats b ↔ a.kind.priorityIndex < b.kind.priorityIndex ∨
      (a.kind.priorityIndex = b.kind.priorityIndex ∧ b.scoreWei < a.scoreWei) := by
  rw [Beats, comparePriority, DecisionKind.priorityIndex_injective]
  exact or_congr (by omega) Iff.rfl

namespace DecisionEngine

/-- The routes that are compared: those that do something, and pass the simulation. -/
def Eligible (engine : DecisionEngine) (opp : Opportunity) (candidate : RouteCandidate) : Prop :=
  candidate.kind ≠ .pass ∧ engine.candidatePassesRevm candidate opp = true

/-- `best` is what the loop keeps of `candidates`: the first of the routes that no other beats. -/
def Keeps (engine : DecisionEngine) (opp : Opportunity) (candidates : List RouteCandidate) :
    Option RouteCandidate → Prop
  | none => ∀ c ∈ candidates, ¬engine.Eligible opp c
  | some best => engine.Eligible opp best ∧
      (∀ c ∈ candidates, engine.Eligible opp c → ¬c.Beats best) ∧
      ∃ earlier later, candidates = earlier ++ best :: later ∧
        ∀ c ∈ earlier, engine.Eligible opp c → best.Beats c

variable {engine : DecisionEngine} {opp : Opportunity}

theorem better_of_not_eligible {candidate : RouteCandidate}
    (h : ¬engine.Eligible opp candidate) (best : Option RouteCandidate) :
    engine.better opp best candidate = best := by
  unfold better
  by_cases hpass : candidate.kind = .pass
  · rw [if_pos hpass]
  · have hfails : ¬engine.candidatePassesRevm candidate opp = true := fun hok => h ⟨hpass, hok⟩
    rw [if_neg hpass, if_pos hfails]

theorem better_of_eligible {candidate : RouteCandidate} (h : engine.Eligible opp candidate)
    (best : Option RouteCandidate) : (best = none → engine.better opp best candidate =
      some candidate) ∧ ∀ b, best = some b →
        (candidate.Beats b → engine.better opp best candidate = some candidate) ∧
        (¬candidate.Beats b → engine.better opp best candidate = some b) := by
  unfold better RouteCandidate.Beats
  rw [if_neg h.1, if_neg (not_not.mpr h.2)]
  refine ⟨fun hnone => by rw [hnone], fun b hb => ?_⟩
  rw [hb]
  exact ⟨fun hbeats => if_pos hbeats, fun hbeats => if_neg hbeats⟩

/-- One turn of the loop. -/
theorem Keeps.better {candidates : List RouteCandidate} {best : Option RouteCandidate}
    (h : engine.Keeps opp candidates best) (candidate : RouteCandidate) :
    engine.Keeps opp (candidates ++ [candidate]) (engine.better opp best candidate) := by
  by_cases heligible : engine.Eligible opp candidate
  · obtain ⟨hfirst, hnext⟩ := better_of_eligible heligible best
    cases best with
    | none =>
        rw [hfirst rfl]
        refine ⟨heligible, ?_, candidates, [], rfl, fun c hc hc' => absurd hc' (h c hc)⟩
        intro c hc hc'
        rcases List.mem_append.mp hc with hmem | hmem
        · exact absurd hc' (h c hmem)
        · rw [List.mem_singleton.mp hmem, RouteCandidate.beats_iff]
          omega
    | some b =>
        obtain ⟨hb, hunbeaten, earlier, later, hsplit, hearlier⟩ := h
        by_cases hbeats : candidate.Beats b
        · rw [(hnext b rfl).1 hbeats]
          have hahead : ∀ c ∈ candidates, engine.Eligible opp c → candidate.Beats c := by
            intro c hc hc'
            have hnot := hunbeaten c hc hc'
            rw [RouteCandidate.beats_iff] at hnot hbeats ⊢
            omega
          refine ⟨heligible, ?_, candidates, [], rfl, hahead⟩
          intro c hc hc'
          rcases List.mem_append.mp hc with hmem | hmem
          · have hc := hahead c hmem hc'
            rw [RouteCandidate.beats_iff] at hc ⊢
            omega
          · rw [List.mem_singleton.mp hmem, RouteCandidate.beats_iff]
            omega
        · rw [(hnext b rfl).2 hbeats]
          refine ⟨hb, ?_, earlier, later ++ [candidate], by simp [hsplit], hearlier⟩
          intro c hc hc'
          rcases List.mem_append.mp hc with hmem | hmem
          · exact hunbeaten c hmem hc'
          · rwa [List.mem_singleton.mp hmem]
  · rw [better_of_not_eligible heligible]
    cases best with
    | none =>
        intro c hc
        rcases List.mem_append.mp hc with hmem | hmem
        · exact h c hmem
        · rwa [List.mem_singleton.mp hmem]
    | some b =>
        obtain ⟨hb, hunbeaten, earlier, later, hsplit, hearlier⟩ := h
        refine ⟨hb, ?_, earlier, later ++ [candidate], by simp [hsplit], hearlier⟩
        intro c hc hc'
        rcases List.mem_append.mp hc with hmem | hmem
        · exact hunbeaten c hmem hc'
        · rw [List.mem_singleton.mp hmem] at hc'
          exact absurd hc' heligible

theorem keeps_foldl (candidates : List RouteCandidate) :
    engine.Keeps opp candidates (candidates.foldl (engine.better opp) none) := by
  have hrun : ∀ (before : List RouteCandidate) (best : Option RouteCandidate),
      engine.Keeps opp before best →
        engine.Keeps opp (before ++ candidates) (candidates.foldl (engine.better opp) best) := by
    induction candidates with
    | nil =>
        intro before best h
        simpa using h
    | cons candidate candidates ih =>
        intro before best h
        have hrest := ih (before ++ [candidate]) _ (h.better candidate)
        rwa [List.append_assoc] at hrest
  exact hrun [] none (fun c hc => absurd hc List.not_mem_nil)

theorem Keeps.mem {candidates : List RouteCandidate} {best : RouteCandidate}
    (h : engine.Keeps opp candidates (some best)) : best ∈ candidates := by
  obtain ⟨-, -, earlier, later, hsplit, -⟩ := h
  simp [hsplit]

/-- The order of the candidates decides at most between routes of one kind and score. -/
theorem Keeps.perm {candidates candidates' : List RouteCandidate}
    {best best' : Option RouteCandidate} (hperm : candidates.Perm candidates')
    (h : engine.Keeps opp candidates best) (h' : engine.Keeps opp candidates' best') :
    best.map (fun c => (c.kind, c.scoreWei)) = best'.map fun c => (c.kind, c.scoreWei) := by
  cases best with
  | none =>
      cases best' with
      | none => rfl
      | some best' => exact absurd h'.1 (h best' (hperm.mem_iff.mpr h'.mem))
  | some best =>
      cases best' with
      | none => exact absurd h.1 (h' best (hperm.mem_iff.mp h.mem))
      | some best' =>
          have hnot := h.2.1 best' (hperm.mem_iff.mpr h'.mem) h'.1
          have hnot' := h'.2.1 best (hperm.mem_iff.mp h.mem) h.1
          rw [RouteCandidate.beats_iff] at hnot hnot'
          have hkind : best.kind.priorityIndex = best'.kind.priorityIndex := by omega
          have hscore : best.scoreWei = best'.scoreWei := by omega
          simp [DecisionKind.priorityIndex_injective.mp hkind, hscore]

theorem selectBestRoute_eq (candidates : List RouteCandidate) :
    engine.selectBestRoute candidates opp =
      (candidates.foldl (engine.better opp) none).getD
        (passDecision "no_profitable_route_simulated") := by
  unfold selectBestRoute
  cases candidates.foldl (engine.better opp) none with
  | none => rfl
  | some best => rfl

/-- The route selected is the first of those that no other beats, and nothing is done only when
no route is eligible. Its kind and score do not depend on the order of the candidates. -/
theorem selectBestRoute_best (candidates : List RouteCandidate) :
    ((∀ c ∈ candidates, ¬engine.Eligible opp c) →
      engine.selectBestRoute candidates opp = passDecision "no_profitable_route_simulated") ∧
    ((∃ c ∈ candidates, engine.Eligible opp c) →
      engine.Keeps opp candidates (some (engine.selectBestRoute candidates opp))) ∧
    ∀ candidates', candidates.Perm candidates' →
      (engine.selectBestRoute candidates' opp).kind = (engine.selectBestRoute candidates opp).kind ∧
      (engine.selectBestRoute candidates' opp).scoreWei =
        (engine.selectBestRoute candidates opp).scoreWei := by
  have h := @keeps_foldl engine opp candidates
  simp only [selectBestRoute_eq]
  refine ⟨fun hnone => ?_, fun hsome => ?_, fun candidates' hperm => ?_⟩
  · cases hbest : candidates.foldl (engine.better opp) none with
    | none => rfl
    | some best =>
        rw [hbest] at h
        exact absurd h.1 (hnone best h.mem)
  · cases hbest : candidates.foldl (engine.better opp) none with
    | none =>
        rw [hbest] at h
        obtain ⟨c, hc, heligible⟩ := hsome
        exact absurd heligible (h c hc)
    | some best => rwa [hbest] at h
  · have hmap := h.perm hperm (@keeps_foldl engine opp candidates')
    cases hbest : candidates.foldl (engine.better opp) none <;>
      cases hbest' : candidates'.foldl (engine.better opp) none <;>
        simp only [hbest, hbest', Option.map_some, Option.map_none, Option.some.injEq,
          Prod.mk.injEq, reduceCtorEq] at hmap
    · exact ⟨rfl, rfl⟩
    · exact ⟨hmap.1.symm, hmap.2.symm⟩

end DecisionEngine

/-! ## Accounts of a run -/

namespace UnifiedQueue

/-- The entries of the three queues of candidates. -/
def candidates (q : UnifiedQueue) : List (QueueItem MatchCandidate) :=
  q.outboundQ ++ q.inboundQ ++ q.uniswapxQ

/-- How often a candidate is queued. -/
def held (id : String) (q : UnifiedQueue) : ℕ :=
  q.candidates.countP fun entry => entry.value.id = id

def run (q : UnifiedQueue) (steps : List TimedOperation) : UnifiedQueue := steps.foldl apply q

/-- What the steps of a run count up to, each on the queue that it finds. -/
def total (count : UnifiedQueue → Operation → ℕ) (q : UnifiedQueue) : List TimedOperation → ℕ
  | [] => 0
  | step :: rest => count q step.operation + total count (q.apply step) rest

end UnifiedQueue

/-- The entries of a candidate that an operation adds. -/
def added (id : String) (_ : UnifiedQueue) : Operation → ℕ
  | .addOutbound c | .addInbound c | .addUniswapx c => if c.id = id then 1 else 0
  | _ => 0

/-- The candidates that a caller is told to be its own. -/
def taken (id : String) (q : UnifiedQueue) : Operation → ℕ
  | .consume item => if item.id = id ∧ (q.consume item).2 then 1 else 0
  | _ => 0

/-- The expired entries of a candidate that a sweep finds. -/
def lapsed (id : String) (q : UnifiedQueue) : Operation → ℕ
  | .sweepExpired nowMs => q.candidates.countP fun entry =>
      entry.value.id = id ∧ entry.expiresAtMs ≤ nowMs
  | _ => 0

/-- What an operation reports to have taken out of the queues, native opportunities included. -/
def reported (q : UnifiedQueue) : Operation → ℕ
  | .consume item => (q.consume item).2.toNat
  | .consumeNative id => (q.consumeNative id).2.toNat
  | .sweepExpired nowMs => (q.sweepExpired nowMs).2
  | _ => 0

def entered (_ : UnifiedQueue) : Operation → ℕ
  | .addOutbound _ | .addInbound _ | .addUniswapx _ | .addNative _ => 1
  | _ => 0

theorem countP_eraseP_of_any {α : Type*} {p q : α → Bool} {l : List α} (hany : l.any p = true)
    (hpq : ∀ a, p a = true → q a = true) : (l.eraseP p).countP q + 1 = l.countP q := by
  induction l with
  | nil => simp at hany
  | cons a l ih =>
      by_cases hp : p a = true
      · rw [List.eraseP_cons_of_pos hp, List.countP_cons_of_pos (hpq a hp)]
      · rw [List.eraseP_cons_of_neg hp, List.countP_cons, List.countP_cons,
          ← ih (by simpa [hp] using hany)]
        omega

theorem countP_eraseP_of_disjoint {α : Type*} {p q : α → Bool} (l : List α)
    (hpq : ∀ a, p a = true → q a = false) : (l.eraseP p).countP q = l.countP q := by
  induction l with
  | nil => rfl
  | cons a l ih =>
      by_cases hp : p a = true
      · rw [List.eraseP_cons_of_pos hp, List.countP_cons_of_neg (by simp [hpq a hp])]
      · rw [List.eraseP_cons_of_neg hp, List.countP_cons, List.countP_cons, ih]

theorem countP_filter_add {α : Type*} (p q : α → Bool) (l : List α) :
    (l.filter p).countP q + l.countP (fun a => q a && !p a) = l.countP q := by
  induction l with
  | nil => rfl
  | cons a l ih =>
      cases hp : p a <;> cases hq : q a <;> simp [hp, hq] <;> omega

namespace UnifiedQueue

variable (q : UnifiedQueue)

theorem held_eq (id : String) : q.held id =
    q.outboundQ.countP (fun entry => entry.value.id = id) +
      q.inboundQ.countP (fun entry => entry.value.id = id) +
        q.uniswapxQ.countP (fun entry => entry.value.id = id) := by
  rw [held, candidates, List.countP_append, List.countP_append]

/-- Whether an entry is one of a candidate. -/
def holds (item : MatchCandidate) (entry : QueueItem MatchCandidate) : Bool :=
  entry.value.id = item.id

/-- What `consume` can do. -/
theorem consume_cases (item : MatchCandidate) :
    (q.outboundQ.any (holds item) = true ∧
      q.consume item = ({ q with outboundQ := q.outboundQ.eraseP (holds item) }, true)) ∨
    (q.inboundQ.any (holds item) = true ∧
      q.consume item = ({ q with inboundQ := q.inboundQ.eraseP (holds item) }, true)) ∨
    (q.uniswapxQ.any (holds item) = true ∧
      q.consume item = ({ q with uniswapxQ := q.uniswapxQ.eraseP (holds item) }, true)) ∨
    q.consume item = (q, false) := by
  by_cases houtbound : q.outboundQ.any (holds item) = true
  · exact .inl ⟨houtbound, if_pos houtbound⟩
  · by_cases hinbound : q.inboundQ.any (holds item) = true
    · exact .inr (.inl ⟨hinbound, (if_neg houtbound).trans (if_pos hinbound)⟩)
    · by_cases huniswapx : q.uniswapxQ.any (holds item) = true
      · exact .inr (.inr (.inl ⟨huniswapx,
          (if_neg houtbound).trans ((if_neg hinbound).trans (if_pos huniswapx))⟩))
      · exact .inr (.inr (.inr
          ((if_neg houtbound).trans ((if_neg hinbound).trans (if_neg huniswapx)))))

/-- One entry less for the candidate, and as many as before for any other. -/
theorem countP_eraseP_holds {l : List (QueueItem MatchCandidate)} {item : MatchCandidate}
    (hany : l.any (holds item) = true) (id : String) :
    (l.eraseP (holds item)).countP (fun entry => decide (entry.value.id = id)) +
      (if item.id = id then 1 else 0) = l.countP (fun entry => decide (entry.value.id = id)) := by
  by_cases hid : item.id = id
  · subst hid
    rw [if_pos rfl]
    exact countP_eraseP_of_any hany fun entry h => h
  · rw [if_neg hid, add_zero]
    refine countP_eraseP_of_disjoint l fun entry h => ?_
    rw [of_decide_eq_true h]
    exact decide_eq_false hid

/-- What `consume` does to any count of the queues in which each entry it drops counts `d`. -/
theorem count_consume {item : MatchCandidate} {f : List (QueueItem MatchCandidate) → ℕ} {d : ℕ}
    (hf : ∀ l, l.any (holds item) = true → f (l.eraseP (holds item)) + d = f l) :
    f (q.consume item).1.outboundQ + f (q.consume item).1.inboundQ +
        f (q.consume item).1.uniswapxQ + (if (q.consume item).2 then d else 0) =
      f q.outboundQ + f q.inboundQ + f q.uniswapxQ ∧
    (q.consume item).1.nativeQ = q.nativeQ := by
  rcases q.consume_cases item with ⟨hany, heq⟩ | ⟨hany, heq⟩ | ⟨hany, heq⟩ | heq
  · have hcount := hf _ hany
    simp only [heq, if_true, and_true]
    omega
  · have hcount := hf _ hany
    simp only [heq, if_true, and_true]
    omega
  · have hcount := hf _ hany
    simp only [heq, if_true, and_true]
    omega
  · simp [heq]

theorem held_consume (id : String) (item : MatchCandidate) :
    (q.consume item).1.held id + taken id q (.consume item) = q.held id := by
  have htaken : taken id q (.consume item) =
      if (q.consume item).2 then (if item.id = id then 1 else 0) else 0 := by
    simp only [taken]
    split_ifs <;> simp_all
  rw [htaken, held_eq, held_eq]
  exact (q.count_consume fun l hany => countP_eraseP_holds hany id).1

theorem held_sweepExpired (id : String) (nowMs : ℤ) :
    (q.sweepExpired nowMs).1.held id + lapsed id q (.sweepExpired nowMs) = q.held id := by
  have hqueue : ∀ l : List (QueueItem MatchCandidate),
      (unexpired nowMs l).countP (fun entry => decide (entry.value.id = id)) +
        l.countP (fun entry => decide (entry.value.id = id ∧ entry.expiresAtMs ≤ nowMs)) =
          l.countP (fun entry => decide (entry.value.id = id)) := by
    intro l
    have heq : (fun entry : QueueItem MatchCandidate =>
        decide (entry.value.id = id ∧ entry.expiresAtMs ≤ nowMs)) =
          fun entry => decide (entry.value.id = id) && !decide (entry.expiresAtMs > nowMs) := by
      funext entry
      rw [Bool.decide_and, ← decide_not]
      simp only [gt_iff_lt, not_lt]
    rw [heq]
    exact countP_filter_add _ _ l
  simp only [sweepExpired, lapsed, candidates, held_eq, List.countP_append]
  have houtbound := hqueue q.outboundQ
  have hinbound := hqueue q.inboundQ
  have huniswapx := hqueue q.uniswapxQ
  omega

theorem length_eraseP_of_any {α : Type*} {p : α → Bool} {l : List α} (h : l.any p = true) :
    (l.eraseP p).length + 1 = l.length := by
  have hpos : 0 < l.length := by
    cases l with
    | nil => simp at h
    | cons a l => simp
  rw [List.length_eraseP, if_pos h]
  omega

theorem size_consume (item : MatchCandidate) :
    (q.consume item).1.size + reported q (.consume item) = q.size := by
  obtain ⟨hcount, hnative⟩ := @count_consume q item List.length 1 fun l => length_eraseP_of_any
  have hreported : reported q (.consume item) = if (q.consume item).2 then 1 else 0 := by
    simp only [reported]
    cases (q.consume item).2 <;> rfl
  rw [hreported, size, size, hnative]
  omega

theorem size_consumeNative (id : String) :
    (q.consumeNative id).1.size + reported q (.consumeNative id) = q.size := by
  simp only [reported, consumeNative, size]
  split_ifs with hnative
  · have := length_eraseP_of_any hnative
    simp only [Bool.toNat_true]
    omega
  · simp

theorem size_sweepExpired (nowMs : ℤ) :
    (q.sweepExpired nowMs).1.size + reported q (.sweepExpired nowMs) = q.size := by
  have hle : (q.sweepExpired nowMs).1.size ≤ q.size := by
    simp only [sweepExpired, size, unexpired]
    have houtbound := List.length_filter_le (fun e => decide (e.expiresAtMs > nowMs)) q.outboundQ
    have hinbound := List.length_filter_le (fun e => decide (e.expiresAtMs > nowMs)) q.inboundQ
    have huniswapx := List.length_filter_le (fun e => decide (e.expiresAtMs > nowMs)) q.uniswapxQ
    have hnative := List.length_filter_le (fun e => decide (e.expiresAtMs > nowMs)) q.nativeQ
    omega
  exact Nat.add_sub_cancel' hle

/-- One step of a run. -/
theorem apply_accounts (id : String) (step : TimedOperation) :
    (q.apply step).held id + taken id q step.operation + lapsed id q step.operation =
        q.held id + added id q step.operation ∧
      (q.apply step).size + reported q step.operation = q.size + entered q step.operation := by
  obtain ⟨atMs, operation⟩ := step
  cases operation with
  | addOutbound c | addInbound c | addUniswapx c =>
      simp only [apply, addOutbound, addInbound, addUniswapx, wrapCandidate, held_eq, taken, lapsed,
        added, reported, entered, size, List.countP_append, List.countP_singleton,
        List.length_append, List.length_singleton, decide_eq_true_eq]
      omega
  | addNative native =>
      simp only [apply, addNative, held_eq, taken, lapsed, added, reported, entered, size,
        List.length_append, List.length_singleton, true_and]
      omega
  | consume item =>
      have hheld := q.held_consume id item
      have hsize := q.size_consume item
      simp only [apply, lapsed, added, entered]
      omega
  | consumeNative native =>
      have hsize := q.size_consumeNative native
      have hheld : (q.consumeNative native).1.held id = q.held id := by
        unfold consumeNative
        dsimp only
        split <;> rfl
      simp only [apply, taken, lapsed, added, entered]
      omega
  | sweepExpired nowMs =>
      have hheld := q.held_sweepExpired id nowMs
      have hsize := q.size_sweepExpired nowMs
      simp only [apply, taken, added, entered]
      omega
  | routeOpportunity opp => simp [apply, taken, lapsed, added, reported, entered]

/-- Nothing is lost or handed out twice: over any run, what is queued for a candidate at the end,
what callers took and what lapsed make up what was queued and added, and the sizes follow what
the calls report. -/
theorem run_accounts (q : UnifiedQueue) (steps : List TimedOperation) :
    (∀ id, (q.run steps).held id + total (taken id) q steps + total (lapsed id) q steps =
      q.held id + total (added id) q steps) ∧
    (q.run steps).size + total reported q steps = q.size + total entered q steps := by
  induction steps generalizing q with
  | nil => exact ⟨fun id => rfl, rfl⟩
  | cons step rest ih =>
      obtain ⟨hheld, hsize⟩ := ih (q.apply step)
      refine ⟨fun id => ?_, ?_⟩
      · have hrest := hheld id
        have hstep := (q.apply_accounts id step).1
        simp only [run, total, List.foldl_cons] at hrest hstep ⊢
        omega
      · have hstep := (q.apply_accounts "" step).2
        simp only [run, total, List.foldl_cons] at hsize hstep ⊢
        omega

end UnifiedQueue

end Degenbot.Coordinator
