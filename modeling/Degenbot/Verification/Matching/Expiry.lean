import Degenbot.Algorithm.DecisionEngine
import Degenbot.Verification.Matching.PythonClearing

/-! # Expired candidates

The matcher reads the values of the queues without their expiry, so that only a sweep keeps
an expired candidate out of a match. -/

namespace Degenbot.Coordinator

open Library

/-! ## Runs -/

inductive Operation where
  | addOutbound (o : MatchCandidate)
  | addInbound (c : MatchCandidate)
  | addUniswapx (c : MatchCandidate)
  | addNative (id : String)
  | consume (item : MatchCandidate)
  | consumeNative (id : String)
  | sweepExpired (nowMs : ℤ)
  | routeOpportunity (opp : Opportunity)
deriving DecidableEq

/-- An operation and the clock at which it takes the lock. -/
structure TimedOperation where
  atMs : ℤ
  operation : Operation
deriving DecidableEq

/-- Routing reads the queue and leaves it alone. -/
def UnifiedQueue.apply (q : UnifiedQueue) (step : TimedOperation) : UnifiedQueue :=
  match step.operation with
  | .addOutbound o => q.addOutbound step.atMs o
  | .addInbound c => q.addInbound step.atMs c
  | .addUniswapx c => q.addUniswapx step.atMs c
  | .addNative id => q.addNative step.atMs id
  | .consume item => (q.consume item).1
  | .consumeNative id => (q.consumeNative id).1
  | .sweepExpired nowMs => (q.sweepExpired nowMs).1
  | .routeOpportunity _ => q

/-- The routing calls of a run, each with the queue and the time at which it is made. -/
def routings (q : UnifiedQueue) : List TimedOperation → List (UnifiedQueue × ℤ × Opportunity)
  | [] => []
  | step :: rest =>
      let later := routings (q.apply step) rest
      match step.operation with
      | .routeOpportunity opp => (q, step.atMs, opp) :: later
      | _ => later

/-- The clock of a run never goes back. -/
def NondecreasingClock (steps : List TimedOperation) : Prop :=
  (steps.map TimedOperation.atMs).Pairwise (· ≤ ·)

instance (steps : List TimedOperation) : Decidable (NondecreasingClock steps) :=
  inferInstanceAs (Decidable (List.Pairwise _ _))

/-! ## The contract -/

namespace QueueItem

variable {α : Type}

def Expired (entry : QueueItem α) (nowMs : ℤ) : Prop := entry.expiresAtMs ≤ nowMs

end QueueItem

/-- The entries from which the matcher takes its counterparties. -/
def UnifiedQueue.counters (q : UnifiedQueue) : List (QueueItem MatchCandidate) :=
  q.inboundQ ++ q.uniswapxQ

/-- A side of the pair has an expired entry in the queue that it is taken from. -/
def InvolvesExpired (q : UnifiedQueue) (nowMs : ℤ) (m : MatchPair) : Prop :=
  (∃ entry ∈ q.outboundQ, entry.value = m.o ∧ entry.Expired nowMs) ∨
    ∃ entry ∈ q.counters, entry.value = m.c ∧ entry.Expired nowMs

/-- No internal match that a routing call of the run selects involves an expired candidate. -/
def NoExpiredMatch (engine : DecisionEngine) (q : UnifiedQueue) (steps : List TimedOperation) :
    Prop :=
  ∀ queue nowMs opp, (queue, nowMs, opp) ∈ routings q steps →
    ∀ decision, engine.routeOpportunity queue opp = .ok decision → decision.kind = .internalMatch →
      ∀ m, decision.route.pair = some m → ¬InvolvesExpired queue nowMs m

/-- The engine matches internally for the opportunity. -/
def DecisionEngine.Matches (engine : DecisionEngine) (opp : Opportunity) : Prop :=
  engine.strategiesEnabled ∧ 0 < opp.flashAmount ∧
    engine.internalMatchEnabled ∧ engine.queueConfigured

/-- An expired entry is in no viable pair: one that is price compatible with a nonzero
fill. -/
def FreshPairs (q : UnifiedQueue) (nowMs : ℤ) : Prop :=
  ∀ o ∈ q.outboundQ, ∀ c ∈ q.counters, ∀ m, PriceCompat.tryMatch o.value c.value = .ok (some m) →
    ¬o.Expired nowMs ∧ ¬c.Expired nowMs

/-! ## What the matcher selects -/

namespace DecisionEngine

variable (engine : DecisionEngine)

theorem better_choice (opp : Opportunity) (best : Option RouteCandidate)
    (candidate : RouteCandidate) :
    engine.better opp best candidate = best ∨
      engine.better opp best candidate = some candidate := by
  unfold better
  split
  · exact .inl rfl
  · split
    · exact .inl rfl
    · split
      · exact .inr rfl
      · split
        · exact .inr rfl
        · exact .inl rfl

theorem selectBestRoute_mem {candidates : List RouteCandidate} {opp : Opportunity}
    (h : (engine.selectBestRoute candidates opp).kind ≠ .pass) :
    engine.selectBestRoute candidates opp ∈ candidates := by
  unfold selectBestRoute at h ⊢
  cases hbest : candidates.foldl (engine.better opp) none with
  | none => simp [hbest, passDecision] at h
  | some best => exact mem_of_foldl_choice (engine.better_choice opp) hbest

theorem kind_of_mem_otherCandidates {opp : Opportunity} {candidate : RouteCandidate}
    (h : candidate ∈ engine.otherCandidates opp) : candidate.kind ≠ .internalMatch := by
  simp only [otherCandidates, List.mem_append, List.mem_ite_nil_right, List.mem_singleton,
    List.mem_map] at h
  rcases h with (((⟨-, rfl⟩ | ⟨-, rfl⟩) | ⟨-, _, -, rfl⟩) | ⟨-, _, -, rfl⟩) | ⟨-, _, -, rfl⟩ <;>
    simp

theorem mem_internalMatchCandidates {queue : UnifiedQueue} {internal : List RouteCandidate}
    {candidate : RouteCandidate} (h : engine.internalMatchCandidates queue = .ok internal)
    (hmem : candidate ∈ internal) :
    engine.internalMatchEnabled ∧ engine.queueConfigured ∧
      ∃ m, PriceCompat.findBestMatch queue.outbound queue.inbound queue.uniswapx = .ok (some m) ∧
        candidate.route.pair = some m := by
  unfold internalMatchCandidates at h
  split at h
  case isTrue henabled =>
    obtain ⟨found, hfound, h⟩ := bind_eq_ok.mp h
    cases found with
    | none =>
        cases h
        simp at hmem
    | some m =>
        cases h
        obtain rfl := List.mem_singleton.mp hmem
        exact ⟨henabled.1, henabled.2, m, hfound, rfl⟩
  case isFalse =>
    cases h
    simp at hmem

/-- A selected internal match is a viable pair of the queue. -/
theorem routeOpportunity_pair {queue : UnifiedQueue} {opp : Opportunity}
    {decision : RouteCandidate} {m : MatchPair}
    (h : engine.routeOpportunity queue opp = .ok decision)
    (hkind : decision.kind = .internalMatch) (hpair : decision.route.pair = some m) :
    engine.Matches opp ∧ m.o ∈ queue.outbound ∧ m.c ∈ queue.inbound ++ queue.uniswapx ∧
      PriceCompat.tryMatch m.o m.c = .ok (some m) := by
  unfold routeOpportunity at h
  split at h
  case isTrue =>
    cases h
    cases hkind
  case isFalse hstrategies =>
    split at h
    case isTrue =>
      cases h
      cases hkind
    case isFalse hflash =>
      obtain ⟨internal, hinternal, h⟩ := bind_eq_ok.mp h
      dsimp only at h
      split at h
      case isTrue =>
        cases h
        cases hkind
      case isFalse =>
        cases h
        have hmem := engine.selectBestRoute_mem (by rw [hkind]; simp)
        rcases List.mem_append.mp hmem with hin | hother
        · obtain ⟨henabled, hqueue, m', hbest, hpair'⟩ :=
            engine.mem_internalMatchCandidates hinternal hin
          obtain rfl : m' = m := Option.some.inj (hpair'.symm.trans hpair)
          exact ⟨⟨not_not.mp hstrategies, not_le.mp hflash, henabled, hqueue⟩,
            PriceCompat.findBestMatch_spec hbest⟩
        · exact absurd hkind (engine.kind_of_mem_otherCandidates hother)

end DecisionEngine

/-! ## Main result -/

theorem not_involvesExpired {queue : UnifiedQueue} {nowMs : ℤ} {m : MatchPair}
    (hfresh : FreshPairs queue nowMs) (ho : m.o ∈ queue.outbound)
    (hc : m.c ∈ queue.inbound ++ queue.uniswapx) (hm : PriceCompat.tryMatch m.o m.c = .ok (some m)) :
    ¬InvolvesExpired queue nowMs m := by
  have hcounter : m.c ∈ queue.counters.map (·.value) := by
    simpa [UnifiedQueue.counters, UnifiedQueue.inbound, UnifiedQueue.uniswapx] using hc
  obtain ⟨oEntry, hoMem, hoValue⟩ := List.mem_map.mp ho
  obtain ⟨cEntry, hcMem, hcValue⟩ := List.mem_map.mp hcounter
  intro hexpired
  rcases hexpired with ⟨entry, hentry, hvalue, hold⟩ | ⟨entry, hentry, hvalue, hold⟩
  · exact (hfresh entry hentry cEntry hcMem m (by rw [hvalue, hcValue, hm])).1 hold
  · exact (hfresh oEntry hoMem entry hentry m (by rw [hoValue, hvalue, hm])).2 hold

/-- In a run whose routing calls never find an expired entry in a viable pair, no expired
candidate is matched. -/
theorem noExpiredMatch_of_freshPairs (engine : DecisionEngine) (q : UnifiedQueue)
    (steps : List TimedOperation)
    (hfresh : ∀ queue nowMs opp, (queue, nowMs, opp) ∈ routings q steps →
      engine.Matches opp → FreshPairs queue nowMs) :
    NoExpiredMatch engine q steps := by
  intro queue nowMs opp hrouting decision hdecision hkind m hpair
  obtain ⟨hmatches, ho, hc, hm⟩ := engine.routeOpportunity_pair hdecision hkind hpair
  exact not_involvesExpired (hfresh queue nowMs opp hrouting hmatches) ho hc hm

/-- A sweep right before the call is enough. -/
theorem freshPairs_sweepExpired (q : UnifiedQueue) {nowMs sweptMs : ℤ} (h : nowMs ≤ sweptMs) :
    FreshPairs (q.sweepExpired sweptMs).1 nowMs := by
  have hlive : ∀ (entries : List (QueueItem MatchCandidate)),
      ∀ entry ∈ UnifiedQueue.unexpired sweptMs entries, ¬entry.Expired nowMs := by
    intro entries entry hentry
    have hafter := (List.mem_filter.mp hentry).2
    simp only [gt_iff_lt, decide_eq_true_eq] at hafter
    simp only [QueueItem.Expired, not_le]
    omega
  intro o ho c hc m _
  refine ⟨hlive _ o ho, ?_⟩
  rcases List.mem_append.mp hc with hin | hux
  · exact hlive _ c hin
  · exact hlive _ c hux

/-! ## A run with and without a sweep -/

def sampleOutbound : MatchCandidate where
  id := "out-1"
  pairSell := 1
  pairBuy := 2
  amountSell := 100
  amountBuyMin := 100
  sourceVenue := .native
  sourceExpiresAt := 0

def sampleInbound : MatchCandidate where
  id := "in-1"
  pairSell := 2
  pairBuy := 1
  amountSell := 100
  amountBuyMin := 100
  sourceVenue := .native
  sourceExpiresAt := 0

def sampleOpportunity : Opportunity where
  id := "opp-1"
  kind := "NativeArb"
  flashAmount := 1
  estimatedProfitWei := 0

def matchingEngine : DecisionEngine where
  strategiesEnabled := true
  internalMatchEnabled := true

/-- Both candidates live for 30 seconds and the routing call comes after `waitMs`. -/
def sampleRun (waitMs : ℤ) (sweeps : List TimedOperation) : List TimedOperation :=
  [⟨0, .addOutbound sampleOutbound⟩, ⟨0, .addInbound sampleInbound⟩] ++ sweeps ++
    [⟨waitMs, .routeOpportunity sampleOpportunity⟩]

theorem noExpiredMatch_sampleRun :
    NoExpiredMatch matchingEngine {} (sampleRun 20000 [⟨20000, .sweepExpired 20000⟩]) ∧
      (matchingEngine.routeOpportunity
        ((({} : UnifiedQueue).addOutbound 0 sampleOutbound).addInbound 0 sampleInbound)
        sampleOpportunity).toOption.bind (·.route.pair) =
          some ⟨sampleOutbound, sampleInbound, 100, 10 ^ 18⟩ := by
  refine ⟨noExpiredMatch_of_freshPairs _ _ _ ?_, by decide⟩
  intro queue nowMs opp hrouting _
  simp only [sampleRun, routings, List.cons_append, List.nil_append, List.mem_singleton,
    Prod.mk.injEq] at hrouting
  obtain ⟨rfl, rfl, rfl⟩ := hrouting
  exact freshPairs_sweepExpired _ le_rfl

/-- Without a sweep, the two are matched at the moment of their expiry. -/
theorem sampleRun_matches_expired :
    NondecreasingClock (sampleRun 30000 []) ∧
      ¬NoExpiredMatch matchingEngine {} (sampleRun 30000 []) := by
  refine ⟨by decide, fun hrun => ?_⟩
  let queue := (({} : UnifiedQueue).addOutbound 0 sampleOutbound).addInbound 0 sampleInbound
  let m : MatchPair := ⟨sampleOutbound, sampleInbound, 100, 10 ^ 18⟩
  have hrouted : matchingEngine.routeOpportunity queue sampleOpportunity =
      .ok ⟨.internalMatch, { kind := .internalMatch, pair := some m }, 100⟩ := by decide
  refine hrun queue 30000 sampleOpportunity (List.mem_singleton.mpr rfl) _ hrouted rfl m rfl ?_
  exact .inl ⟨_, List.mem_singleton.mpr rfl, rfl, le_rfl⟩

end Degenbot.Coordinator
