import Degenbot.Algorithm.AbiHelpers

/-! # `executor/mod.rs`: the executor actor

`run_one_plan` with the backend, the clock and the rate limiter as an environment. The
outcome of a run is the list of its calls to the backend and of the settlements that it
emits, in order. -/

namespace Degenbot.Executor

inductive Lane where
  | default
  | privateRelay
  | kairos
  | timeboost
deriving DecidableEq, Repr

/-- `Plan`, less the fields that only the backend reads. -/
structure Plan where
  traceId : String
  admissionHash : Option B256
  deadlineMs : ℕ
  requirePreflight : Bool
  expectedBalanceDeltaFloor : ℤ
  submissionLane : Lane
  timeboostBidWei : Option ℕ
  dryRun : Bool
deriving DecidableEq

inductive SettlementStatus where
  | preflightFailed
  | preflightPassed
  | broadcastFailed
  | submitted
  | included
  | reverted
  | replaced
  | dropped
deriving DecidableEq, Repr

structure Timestamps where
  receivedNs : ℕ
  preflightNs : Option ℕ := none
  broadcastNs : Option ℕ := none
  includedNs : Option ℕ := none
deriving DecidableEq

structure SettlementExtras where
  blockNumber : Option ℕ := none
  effectiveGasPriceWei : Option ℕ := none
  gasUsed : Option ℕ := none
  realizedBalanceDelta : Option ℤ := none
  revertReason : Option String := none
deriving DecidableEq

structure Settlement extends SettlementExtras where
  traceId : String
  status : SettlementStatus
  txHash : Option B256
  timestamps : Timestamps
  dryRun : Bool
deriving DecidableEq

/-! ## The backend -/

structure InclusionReceipt where
  blockNumber : ℕ
  gasUsed : ℕ
  effectiveGasPriceWei : ℕ
  realizedBalanceDelta : ℤ
  status : Bool
  revertReason : Option String
deriving DecidableEq

inductive InclusionOutcome where
  | mined (receipt : InclusionReceipt)
  | replaced
  | dropped
deriving DecidableEq

inductive PreflightError where
  | deltaBelowFloor (actual floor : ℤ)
  | simulationReverted (msg : String)
  | forkFailed (msg : String)
  | unavailable (msg : String)
deriving DecidableEq

def PreflightError.toString : PreflightError → String
  | deltaBelowFloor actual floor => "simulated balance delta " ++ ToString.toString actual ++
      " below floor " ++ ToString.toString floor ++ " on profit_token"
  | simulationReverted msg => "simulated tx reverted: " ++ msg
  | forkFailed msg => "REVM fork failed: " ++ msg
  | unavailable msg => "preflight backend unavailable: " ++ msg

inductive SubmitError where
  | rpc (msg : String)
  | signer (msg : String)
  | nonce (msg : String)
  | gas (msg : String)
deriving DecidableEq

def SubmitError.toString : SubmitError → String
  | rpc msg => "RPC submission failed: " ++ msg
  | signer msg => "tx signing failed: " ++ msg
  | nonce msg => "nonce error: " ++ msg
  | gas msg => "gas error: " ++ msg

inductive InclusionError where
  | rpc (msg : String)
deriving DecidableEq

def InclusionError.toString : InclusionError → String
  | rpc msg => "RPC error while polling: " ++ msg

/-- `ExecutorBackend`: what each call answers. -/
structure Backend where
  preflight : Plan → Except PreflightError ℤ
  signAndSubmit : Plan → Except SubmitError B256
  awaitInclusion : B256 → ℕ → Except InclusionError InclusionOutcome

/-- What a run depends on besides its plan. The clock is read at four places; the limiter,
if there is one, admits or blocks. -/
structure Env where
  backend : Backend
  receivedNs : ℕ
  preflightNs : ℕ
  broadcastNs : ℕ
  includedNs : ℕ
  rateLimiter : Option Bool

/-! ## `validate_submission_policy` -/

def validateSubmissionPolicy (plan : Plan) : Except String Unit :=
  if plan.dryRun then .ok ()
  else if plan.admissionHash.getD 0 = 0 then
    .error "missing or zero admission_hash; non-dry-run execution requires sealed provenance"
  else
    let timeboostBid := plan.timeboostBidWei.getD 0
    match plan.submissionLane with
    | .timeboost =>
        if timeboostBid = 0 then
          .error "timeboost_bid_wei must be positive when submission_lane=Timeboost"
        else if ¬0 < plan.expectedBalanceDeltaFloor then
          .error "Timeboost bid requires a positive expected profit floor"
        else
          let profitFloor := plan.expectedBalanceDeltaFloor.toNat
          if timeboostBid ≥ profitFloor then
            .error ("timeboost_bid_wei " ++ toString timeboostBid ++
              " must stay below profit floor " ++ toString profitFloor)
          else .ok ()
    | _ =>
        if timeboostBid > 0 then .error "timeboost_bid_wei is only valid on the Timeboost lane"
        else .ok ()

/-! ## `run_one_plan` -/

/-- Calls to the backend, with their answers, and emitted settlements. -/
inductive Event where
  | preflight (result : Except PreflightError ℤ)
  | signAndSubmit (result : Except SubmitError B256)
  | awaitInclusion (result : Except InclusionError InclusionOutcome)
  | emit (settlement : Settlement)

/-- The builder `mk`. -/
def mk (plan : Plan) (status : SettlementStatus) (txHash : Option B256) (ts : Timestamps)
    (extras : SettlementExtras) : Settlement :=
  { extras with traceId := plan.traceId, status, txHash, timestamps := ts, dryRun := plan.dryRun }

/-- Step 5. -/
def awaitInclusion (env : Env) (plan : Plan) (txHash : B256) (timestamps : Timestamps) :
    List Event :=
  let result := env.backend.awaitInclusion txHash plan.deadlineMs
  let settlement := match result with
    | .ok (.mined receipt) =>
        let status := if receipt.status then SettlementStatus.included else .reverted
        mk plan status (some txHash) { timestamps with includedNs := some env.includedNs }
          { blockNumber := some receipt.blockNumber
            effectiveGasPriceWei := some receipt.effectiveGasPriceWei
            gasUsed := some receipt.gasUsed
            realizedBalanceDelta := some receipt.realizedBalanceDelta
            revertReason := receipt.revertReason }
    | .ok .replaced => mk plan .replaced (some txHash) timestamps {}
    | .ok .dropped => mk plan .dropped (some txHash) timestamps
        { revertReason := some "deadline elapsed without inclusion" }
    | .error err => mk plan .broadcastFailed (some txHash) timestamps
        { revertReason := some ("inclusion watch error: " ++ err.toString) }
  [.awaitInclusion result, .emit settlement]

/-- Steps 3 and 4. -/
def broadcast (env : Env) (plan : Plan) (timestamps : Timestamps) : List Event :=
  let result := env.backend.signAndSubmit plan
  .signAndSubmit result :: match result with
    | .ok txHash =>
        let timestamps := { timestamps with broadcastNs := some env.broadcastNs }
        .emit (mk plan .submitted (some txHash) timestamps {}) ::
          awaitInclusion env plan txHash timestamps
    | .error err =>
        [.emit (mk plan .broadcastFailed none timestamps { revertReason := some err.toString })]

/-- From the dry-run exit on. -/
def afterPreflight (env : Env) (plan : Plan) (timestamps : Timestamps) : List Event :=
  if plan.dryRun then [.emit (mk plan .preflightPassed none timestamps {})]
  else if env.rateLimiter = some false then
    [.emit (mk plan .dropped none timestamps
      { revertReason := some "tx-rate ceiling exceeded; submission blocked by kill-switch" })]
  else broadcast env plan timestamps

/-- Step 2. -/
def preflight (env : Env) (plan : Plan) (timestamps : Timestamps) : List Event :=
  let result := env.backend.preflight plan
  let timestamps := { timestamps with preflightNs := some env.preflightNs }
  .preflight result :: match result with
    | .ok delta =>
        if delta < plan.expectedBalanceDeltaFloor then
          let err := PreflightError.deltaBelowFloor delta plan.expectedBalanceDeltaFloor
          [.emit (mk plan .preflightFailed none timestamps
            { revertReason := some err.toString })]
        else afterPreflight env plan timestamps
    | .error err =>
        [.emit (mk plan .preflightFailed none timestamps { revertReason := some err.toString })]

def runOnePlan (env : Env) (plan : Plan) : List Event :=
  let timestamps : Timestamps := { receivedNs := env.receivedNs }
  let nowMs := env.receivedNs / 1000000
  if plan.deadlineMs < nowMs then
    [.emit (mk plan .dropped none timestamps
      { revertReason := some "deadline expired before broadcast" })]
  else match validateSubmissionPolicy plan with
    | .error reason =>
        [.emit (mk plan .dropped none timestamps { revertReason := some reason })]
    | .ok () =>
        if plan.dryRun ∨ plan.requirePreflight then preflight env plan timestamps
        else afterPreflight env plan timestamps

end Degenbot.Executor
