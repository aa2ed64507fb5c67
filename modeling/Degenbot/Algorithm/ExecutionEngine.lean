import Degenbot.Algorithm.AbiHelpers

/-! # `execution_engine.rs`

Composition of an execution job and the hash that identifies it. `keccak256` is a
parameter. -/

namespace Degenbot.ExecutionEngine

open Library

/-- A `String`; its length is a `usize`. -/
structure Text where
  value : String
  size_lt : value.utf8ByteSize < 2 ^ 64
deriving DecidableEq

/-- `Bytes`; their length is a `usize`. -/
structure Bytes where
  data : List UInt8
  length_lt : data.length < 2 ^ 64
deriving DecidableEq

abbrev Address := BitVec 160
abbrev U256 := BitVec 256

inductive StrategyKind where
  | nativeArb
  | internalMatch
  | fourLeg
  | uniswapXFlashFill
  | acrossIntentFill
  | morphoLiquidation
  | oracleUpdateSandwich
  | oneInchFusionGap
  | custom (value : Text)
deriving DecidableEq

def StrategyKind.asWire : StrategyKind → String
  | nativeArb => "native_arb"
  | internalMatch => "internal_match"
  | fourLeg => "four_leg"
  | uniswapXFlashFill => "uniswapx_flash_fill"
  | acrossIntentFill => "across_intent_fill"
  | morphoLiquidation => "morpho_liquidation"
  | oracleUpdateSandwich => "oracle_update_sandwich"
  | oneInchFusionGap => "oneinch_fusion_gap"
  | custom value => value.value

inductive BroadcastLane where
  | publicRpc
  | privateRelay
  | kairos
  | timeboost
deriving DecidableEq, Repr

def BroadcastLane.asWire : BroadcastLane → String
  | publicRpc => "public_rpc"
  | privateRelay => "private_relay"
  | kairos => "kairos"
  | timeboost => "timeboost"

structure SourceArtifact where
  name : Text
  blockNumber : UInt64
  observedAtNs : UInt64
deriving DecidableEq

structure GateArtifact where
  name : Text
  admitted : Bool
  reason : Option Text
deriving DecidableEq

structure SimulationArtifact where
  success : Bool
  expectedProfitWei : U256
  gasUsed : UInt64
  stateReadCount : UInt64
  revertReason : Option Text
deriving DecidableEq

structure EnginePolicy where
  expectedChainId : UInt64
  minProfitWei : U256
  maxGasLimit : UInt64
  requirePreflight : Bool
  requireLiveSources : Bool
  minGateCount : UInt64
  minDeadlineMsFromNow : UInt64
  allowedTargets : List Address
  allowedLanes : List BroadcastLane
deriving DecidableEq

structure ExecutionPlan where
  traceId : Text
  strategy : StrategyKind
  chainId : UInt64
  target : Address
  calldata : Bytes
  value : U256
  gasLimit : UInt64
  maxFeePerGas : U256
  maxPriorityFeePerGas : U256
  deadlineMs : UInt64
  profitToken : Address
  minProfitWei : U256
  requirePreflight : Bool
  dryRun : Bool
  broadcastLane : BroadcastLane
deriving DecidableEq

structure BroadcastEnvelope where
  lane : BroadcastLane
  submit : Bool
  privateSubmission : Bool
  requirePreflight : Bool
deriving DecidableEq

structure ComposedEngineJob where
  planHash : B256
  plan : ExecutionPlan
  sources : List SourceArtifact
  gates : List GateArtifact
  simulation : SimulationArtifact
  broadcast : BroadcastEnvelope
deriving DecidableEq

inductive EngineError where
  | invalidField (object field message : String)
  | chainMismatch (actual expected : UInt64)
  | targetNotAllowed (target : Address)
  | laneNotAllowed (lane : BroadcastLane)
  | deadlineTooSoon (deadlineMs requiredMinimumMs : ℕ)
  | gasLimitExceeded (gasLimit maxGasLimit : UInt64)
  | preflightRequired
  | missingLiveSources
  | gateCountTooLow (actual required : ℕ)
  | gateRejected (name reason : String)
  | simulationRejected (reason : String)
  | profitBelowFloor (actual required : U256)
deriving DecidableEq

/-! ## Validation -/

/-- `char::is_whitespace`. -/
def isWhitespace (c : Char) : Bool :=
  let n := c.toNat
  (0x9 ≤ n ∧ n ≤ 0xD) ∨ n = 0x20 ∨ n = 0x85 ∨ n = 0xA0 ∨ n = 0x1680 ∨
    (0x2000 ≤ n ∧ n ≤ 0x200A) ∨ n = 0x2028 ∨ n = 0x2029 ∨ n = 0x202F ∨ n = 0x205F ∨ n = 0x3000

/-- `name.trim().is_empty()`. -/
def isBlank (name : Text) : Bool := name.value.toList.all isWhitespace

def requiredProfitFloor (plan : ExecutionPlan) (policy : EnginePolicy) : U256 :=
  if plan.minProfitWei > policy.minProfitWei then plan.minProfitWei else policy.minProfitWei

def validatePlanCore (plan : ExecutionPlan) (policy : EnginePolicy) (nowMs : UInt64) :
    Except EngineError Unit :=
  if plan.chainId ≠ policy.expectedChainId then
    .error (.chainMismatch plan.chainId policy.expectedChainId)
  else if plan.target = 0 then .error (.invalidField "plan" "target" "zero address target")
  else if ¬policy.allowedTargets.isEmpty ∧ plan.target ∉ policy.allowedTargets then
    .error (.targetNotAllowed plan.target)
  else if ¬policy.allowedLanes.isEmpty ∧ plan.broadcastLane ∉ policy.allowedLanes then
    .error (.laneNotAllowed plan.broadcastLane)
  else if plan.calldata.data.length < 4 then
    .error (.invalidField "plan" "calldata" "calldata must include a 4-byte selector")
  else if plan.gasLimit = 0 then
    .error (.invalidField "plan" "gas_limit" "gas_limit must be positive")
  else if plan.gasLimit > policy.maxGasLimit then
    .error (.gasLimitExceeded plan.gasLimit policy.maxGasLimit)
  else
    -- `saturating_add`
    let requiredMinimumMs := min (nowMs.toNat + policy.minDeadlineMsFromNow.toNat) (2 ^ 64 - 1)
    if plan.deadlineMs.toNat < requiredMinimumMs then
      .error (.deadlineTooSoon plan.deadlineMs.toNat requiredMinimumMs)
    else if policy.requirePreflight ∧ ¬plan.requirePreflight then .error .preflightRequired
    else .ok ()

def validateSource (source : SourceArtifact) : Except EngineError Unit :=
  if isBlank source.name then
    .error (.invalidField "source" "name" "source name cannot be empty")
  else if source.observedAtNs = 0 then
    .error (.invalidField "source" "observed_at_ns"
      "source observation timestamp cannot be zero")
  else .ok ()

def validateSources (policy : EnginePolicy) (sources : List SourceArtifact) :
    Except EngineError Unit :=
  if policy.requireLiveSources ∧ sources.isEmpty then .error .missingLiveSources
  else sources.forM validateSource

def validateGate (gate : GateArtifact) : Except EngineError Unit :=
  if isBlank gate.name then .error (.invalidField "gate" "name" "gate name cannot be empty")
  else if ¬gate.admitted then
    .error (.gateRejected gate.name.value ((gate.reason.map Text.value).getD "no reason supplied"))
  else .ok ()

def validateGates (policy : EnginePolicy) (gates : List GateArtifact) : Except EngineError Unit :=
  if gates.length < policy.minGateCount.toNat then
    .error (.gateCountTooLow gates.length policy.minGateCount.toNat)
  else gates.forM validateGate

def validateSimulation (plan : ExecutionPlan) (policy : EnginePolicy)
    (simulation : SimulationArtifact) : Except EngineError Unit :=
  if ¬simulation.success then
    .error (.simulationRejected
      ((simulation.revertReason.map Text.value).getD "simulation success=false"))
  else
    let floor := requiredProfitFloor plan policy
    if simulation.expectedProfitWei < floor then
      .error (.profitBelowFloor simulation.expectedProfitWei floor)
    else .ok ()

def validatePlan (plan : ExecutionPlan) (policy : EnginePolicy) (sources : List SourceArtifact)
    (gates : List GateArtifact) (simulation : SimulationArtifact) (nowMs : UInt64) :
    Except EngineError Unit := do
  validatePlanCore plan policy nowMs
  validateSources policy sources
  validateGates policy gates
  validateSimulation plan policy simulation

/-! ## `compute_plan_hash` -/

/-- `reason.as_deref().unwrap_or("")`. -/
def reasonOrEmpty (reason : Option Text) : String := (reason.map Text.value).getD ""

def planBytes (plan : ExecutionPlan) : List UInt8 :=
  pushStr plan.traceId.value ++ pushStr plan.strategy.asWire ++ u64Bytes plan.chainId.toNat ++
    addressBytes plan.target.toNat ++ pushBytes plan.calldata.data ++ pushU256 plan.value.toNat ++
    u64Bytes plan.gasLimit.toNat ++ pushU256 plan.maxFeePerGas.toNat ++
    pushU256 plan.maxPriorityFeePerGas.toNat ++ u64Bytes plan.deadlineMs.toNat ++
    addressBytes plan.profitToken.toNat ++ pushU256 plan.minProfitWei.toNat ++
    boolByte plan.requirePreflight ++ boolByte plan.dryRun ++ pushStr plan.broadcastLane.asWire

/-- The policy up to its two lists. -/
def policyBytes (policy : EnginePolicy) : List UInt8 :=
  u64Bytes policy.expectedChainId.toNat ++ pushU256 policy.minProfitWei.toNat ++
    u64Bytes policy.maxGasLimit.toNat ++ boolByte policy.requirePreflight ++
    boolByte policy.requireLiveSources ++ u64Bytes policy.minGateCount.toNat ++
    u64Bytes policy.minDeadlineMsFromNow.toNat

def targetBytes (target : Address) : List UInt8 := addressBytes target.toNat

def laneBytes (lane : BroadcastLane) : List UInt8 := pushStr lane.asWire

def sourceBytes (source : SourceArtifact) : List UInt8 :=
  pushStr source.name.value ++ u64Bytes source.blockNumber.toNat ++
    u64Bytes source.observedAtNs.toNat

def gateBytes (gate : GateArtifact) : List UInt8 :=
  pushStr gate.name.value ++ boolByte gate.admitted ++ pushStr (reasonOrEmpty gate.reason)

def simulationBytes (simulation : SimulationArtifact) : List UInt8 :=
  boolByte simulation.success ++ pushU256 simulation.expectedProfitWei.toNat ++
    u64Bytes simulation.gasUsed.toNat ++ u64Bytes simulation.stateReadCount.toNat ++
    pushStr (reasonOrEmpty simulation.revertReason)

def broadcastBytes (broadcast : BroadcastEnvelope) : List UInt8 :=
  pushStr broadcast.lane.asWire ++ boolByte broadcast.submit ++
    boolByte broadcast.privateSubmission ++ boolByte broadcast.requirePreflight

/-- The bytes that are hashed. The lists are written one after another, without lengths. -/
def planPreimage (plan : ExecutionPlan) (policy : EnginePolicy) (sources : List SourceArtifact)
    (gates : List GateArtifact) (simulation : SimulationArtifact)
    (broadcast : BroadcastEnvelope) : List UInt8 :=
  pushStr "degenbot-engine-v1" ++ planBytes plan ++ policyBytes policy ++
    policy.allowedTargets.flatMap targetBytes ++ policy.allowedLanes.flatMap laneBytes ++
    sources.flatMap sourceBytes ++ gates.flatMap gateBytes ++ simulationBytes simulation ++
    broadcastBytes broadcast

def computePlanHash (keccak256 : List UInt8 → B256) (plan : ExecutionPlan)
    (policy : EnginePolicy) (sources : List SourceArtifact) (gates : List GateArtifact)
    (simulation : SimulationArtifact) (broadcast : BroadcastEnvelope) : B256 :=
  keccak256 (planPreimage plan policy sources gates simulation broadcast)

/-! ## `compose_engine_job` -/

def composeEngineJob (keccak256 : List UInt8 → B256) (plan : ExecutionPlan)
    (policy : EnginePolicy) (sources : List SourceArtifact) (gates : List GateArtifact)
    (simulation : SimulationArtifact) (nowMs : UInt64) :
    Except EngineError ComposedEngineJob := do
  validatePlan plan policy sources gates simulation nowMs
  let broadcast : BroadcastEnvelope :=
    { lane := plan.broadcastLane
      submit := !plan.dryRun
      privateSubmission := plan.broadcastLane matches .privateRelay | .kairos | .timeboost
      requirePreflight := plan.requirePreflight || policy.requirePreflight || plan.dryRun }
  let planHash := computePlanHash keccak256 plan policy sources gates simulation broadcast
  .ok { planHash, plan, sources, gates, simulation, broadcast }

end Degenbot.ExecutionEngine
