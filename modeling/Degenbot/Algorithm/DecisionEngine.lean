import Degenbot.Algorithm.UnifiedQueue

/-! # `decision/precedence.py` and `decision/engine.py`

`route_opportunity` with the answers of the strategies and of the simulator as parameters
of the engine. Timeboost economics only enrich a decision and are left out. -/

namespace Degenbot.Coordinator

/-! ## Precedence -/

inductive DecisionKind where
  | internalMatch
  | fourLeg
  | morphoLiquidation
  | dolomiteLiquidation
  | nativeArb
  | oracleSandwich
  | sandwich
  | launchSniper
  | cowUserSubmit
  | acrossFill
  | pass
deriving DecidableEq, Repr

/-- `PRIORITY_INDEX`. -/
def DecisionKind.priorityIndex : DecisionKind → ℕ
  | internalMatch => 0
  | fourLeg => 1
  | morphoLiquidation => 2
  | dolomiteLiquidation => 3
  | nativeArb => 4
  | oracleSandwich => 5
  | sandwich => 6
  | launchSniper => 7
  | cowUserSubmit => 8
  | acrossFill => 9
  | pass => 10

def comparePriority (a b : DecisionKind) : ℤ := (a.priorityIndex : ℤ) - b.priorityIndex

/-! ## Routes -/

/-- `DecisionRoute`, less what the strategies put in it for their own use. -/
structure DecisionRoute where
  kind : DecisionKind
  reason : Option String := none
  pair : Option MatchPair := none
  opportunityId : Option String := none
deriving DecidableEq

/-- `RouteCandidate`, and `RoutedDecision` less its context. -/
structure RouteCandidate where
  kind : DecisionKind
  route : DecisionRoute
  scoreWei : ℤ := 0
deriving DecidableEq

/-- The decision to do nothing. -/
def passDecision (reason : String) : RouteCandidate :=
  ⟨.pass, { kind := .pass, reason := some reason }, 0⟩

/-- `Opportunity`, less the fields that only the strategies read. -/
structure Opportunity where
  id : String
  kind : String
  flashAmount : ℤ
  estimatedProfitWei : ℤ
  hasMorphoLiquidation : Bool := false
deriving DecidableEq

/-- The settings, the profit of the plan of each strategy that has one, and the verdict of
the simulator. -/
structure DecisionEngine where
  strategiesEnabled : Bool
  internalMatchEnabled : Bool
  fourLegEnabled : Bool := false
  oracleSandwichEnabled : Bool := false
  sandwichEnabled : Bool := false
  nativeArbEnabled : Bool := false
  queueConfigured : Bool := true
  fourLegPreflight : Opportunity → Bool := fun _ => false
  oracleSandwichPreflight : Opportunity → Option ℤ := fun _ => none
  sandwichPreflight : Opportunity → Option ℤ := fun _ => none
  evaluateNativeArb : Opportunity → Option ℤ := fun _ => none
  candidatePassesRevm : RouteCandidate → Opportunity → Bool := fun _ _ => true

namespace DecisionEngine

variable (engine : DecisionEngine)

/-- One turn of the loop of `_select_best_route`. -/
def better (opp : Opportunity) (best : Option RouteCandidate) (candidate : RouteCandidate) :
    Option RouteCandidate :=
  if candidate.kind = .pass then best
  else if ¬engine.candidatePassesRevm candidate opp then best
  else match best with
    | none => some candidate
    | some b =>
        if comparePriority candidate.kind b.kind < 0 ∨
            (candidate.kind = b.kind ∧ candidate.scoreWei > b.scoreWei) then some candidate
        else best

def selectBestRoute (candidates : List RouteCandidate) (opp : Opportunity) : RouteCandidate :=
  match candidates.foldl (engine.better opp) none with
  | none => passDecision "no_profitable_route_simulated"
  | some best => best

/-- Pick A. -/
def internalMatchCandidates (queue : UnifiedQueue) : Except Exn (List RouteCandidate) :=
  if engine.internalMatchEnabled ∧ engine.queueConfigured then do
    let found ← PriceCompat.findBestMatch queue.outbound queue.inbound queue.uniswapx
    match found with
    | some m => .ok [⟨.internalMatch, { kind := .internalMatch, pair := some m }, m.fillAmount⟩]
    | none => .ok []
  else .ok []

/-- The candidates of the other strategies, in the order of the source. -/
def otherCandidates (opp : Opportunity) : List RouteCandidate :=
  let simple (kind : DecisionKind) (score : ℤ) : RouteCandidate :=
    ⟨kind, { kind, opportunityId := some opp.id }, score⟩
  (if engine.fourLegEnabled ∧ ¬opp.hasMorphoLiquidation ∧ engine.fourLegPreflight opp then
      [simple .fourLeg opp.estimatedProfitWei] else []) ++
  (if opp.kind.startsWith "MorphoLiquidation" then [simple .morphoLiquidation 0] else []) ++
  (if engine.oracleSandwichEnabled then
      (engine.oracleSandwichPreflight opp).toList.map (simple .oracleSandwich) else []) ++
  (if engine.sandwichEnabled then
      (engine.sandwichPreflight opp).toList.map (simple .sandwich) else []) ++
  (if engine.nativeArbEnabled then
      (engine.evaluateNativeArb opp).toList.map (simple .nativeArb) else [])

def routeOpportunity (queue : UnifiedQueue) (opp : Opportunity) : Except Exn RouteCandidate :=
  if ¬engine.strategiesEnabled then .ok (passDecision "kill_switch_active")
  else if opp.flashAmount ≤ 0 then .ok (passDecision "zero_flash_amount")
  else do
    let internal ← engine.internalMatchCandidates queue
    let candidates := internal ++ engine.otherCandidates opp
    if candidates = [] then .ok (passDecision "no_profitable_route")
    else .ok (engine.selectBestRoute candidates opp)

end DecisionEngine

end Degenbot.Coordinator
