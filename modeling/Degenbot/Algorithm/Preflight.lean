import Degenbot.Algorithm.Executor
import Degenbot.Library.HeadTail
import Degenbot.Library.VersionedReads

/-! # `executor/preflight.rs`: simulation over a fork of the latest block

REVM and its `CacheDB` are parameters that may read the chain in any order; `Web3Db`, which
they read through, sends a call to the node for every read. -/

namespace Degenbot.Preflight

open Executor Library Library.HeadTail

/-! ## Calls to the node -/

/-- What one call asks for. -/
inductive Key where
  | transactionCount (address : ℕ)
  | balance (address : ℕ)
  | code (address : ℕ)
  | storage (address index : ℕ)
deriving DecidableEq

def Key.Value : Key → Type
  | .code _ => List UInt8
  | _ => ℕ

/-- A computation that calls the node; a call may fail. -/
abbrev Rpc := Reader Key Key.Value String

inductive BlockId where
  | latest
  | number (block : ℕ)
deriving DecidableEq

/-- The block that is named when the head of the chain is `head`. -/
def BlockId.resolve (head : ℕ) : BlockId → ℕ
  | latest => head
  | number block => block

/-- The state of every block, the head when each call arrives, and the calls that fail. -/
structure Node where
  chain : Reader.History Key Key.Value
  head : ℕ → ℕ
  failure : ℕ → Option String

/-- The block whose state answers each call. -/
def Node.schedule (node : Node) (blockId : BlockId) : Reader.Schedule String :=
  ⟨fun i => blockId.resolve (node.head i), node.failure⟩

/-! ## `Web3Db` -/

structure AccountInfo where
  balance : ℕ
  nonce : ℕ
  codeHash : ℕ
  code : Option (List UInt8)
deriving DecidableEq

def keccakEmpty : ℕ := 0xc5d2460186f7233c927e7db2dcc703c0e500b653ca82273b7bfad8045d85a470

/-- `DatabaseRef` -/
structure DatabaseRef where
  basicRef : ℕ → Rpc (Except String (Option AccountInfo))
  codeByHashRef : ℕ → Rpc (Except String (List UInt8))
  storageRef : ℕ → ℕ → Rpc (Except String ℕ)

def withContext {α : Type} (context : String) (result : Except String α) : Except String α :=
  result.mapError fun e => "Web3Db: " ++ context ++ ": " ++ e

/-- The three calls are joined: all are sent before an error is looked at. -/
def basicRef (hashSlow : List UInt8 → ℕ) (address : ℕ) :
    Rpc (Except String (Option AccountInfo)) := do
  let nonce ← Reader.ask (.transactionCount address)
  let balance ← Reader.ask (.balance address)
  let code ← Reader.ask (.code address)
  pure do
    let nonce : ℕ ← withContext ("nonce " ++ toString address) nonce
    let balance : ℕ ← withContext ("balance " ++ toString address) balance
    let code : List UInt8 ← withContext ("code " ++ toString address) code
    .ok (some ⟨balance, nonce, if code = [] then keccakEmpty else hashSlow code, some code⟩)

def storageRef (address index : ℕ) : Rpc (Except String ℕ) := do
  let value ← Reader.ask (.storage address index)
  pure (withContext ("storage " ++ toString address ++ "[" ++ toString index ++ "]") value)

def web3Db (hashSlow : List UInt8 → ℕ) : DatabaseRef :=
  ⟨basicRef hashSlow, fun _ => pure (.ok []), storageRef⟩

/-! ## REVM -/

structure TxEnv where
  caller : ℕ
  kind : ℕ
  data : List UInt8
  value : ℕ
  gasLimit : ℕ
  gasPrice : ℕ
  gasPriorityFee : Option ℕ
deriving DecidableEq

inductive ExecutionResult where
  | success (output : List UInt8)
  | revert (output : List UInt8)
  | halt (reason : String)
deriving DecidableEq

/-- REVM over a `CacheDB` of some database; `transact` does not keep the changes of the
transaction. `decodeUint` and `decodeString` are the decoders of return and revert data. -/
structure Revm (CacheDb : Type) where
  new : CacheDb
  basic : DatabaseRef → CacheDb → ℕ → Rpc (Except String (Option AccountInfo) × CacheDb)
  codeByHash : DatabaseRef → CacheDb → ℕ → Rpc (Except String (List UInt8) × CacheDb)
  insertAccountInfo : CacheDb → ℕ → AccountInfo → CacheDb
  transact : DatabaseRef → CacheDb → TxEnv → Rpc (Except String ExecutionResult × CacheDb)
  transactCommit : DatabaseRef → CacheDb → TxEnv → Rpc (Except String ExecutionResult × CacheDb)
  hashSlow : List UInt8 → ℕ
  decodeUint : List UInt8 → Except String ℕ
  decodeString : List UInt8 → Option String

structure Eip7702Delegation where
  authority : ℕ
  delegateAddress : ℕ
deriving DecidableEq

/-- The fields of a `Plan` that the simulation reads. -/
structure Plan where
  target : ℕ
  calldata : List UInt8
  value : ℕ
  gasLimit : ℕ
  profitToken : ℕ
  eip7702 : Option Eip7702Delegation
deriving DecidableEq

def nativeToken : ℕ := 0

def balanceOfGasLimit : ℕ := 100000

def hexDigit (n : ℕ) : Char := (Nat.digitChar n)

def hexEncode (data : List UInt8) : String :=
  String.ofList (data.flatMap fun byte => [hexDigit (byte.toNat / 16), hexDigit (byte.toNat % 16)])

section Simulation

variable {CacheDb : Type} (revm : Revm CacheDb)

def formatRevertReason (data : List UInt8) : String :=
  let reason := if data.take 4 = [0x08, 0xc3, 0x79, 0xa0] then revm.decodeString (data.drop 4)
    else none
  match reason with
  | some reason => "revert: " ++ reason
  | none => if data = [] then "revert: <empty>" else "revert: 0x" ++ hexEncode data

/-- The designator `0xef0100 ++ address` of `Bytecode::new_eip7702`. -/
def eip7702Designator (address : ℕ) : List UInt8 := [0xef, 0x01, 0x00] ++ beBytes 20 address

def applyEip7702DelegationOverlay (cacheDb : CacheDb) (plan : Plan) (fromAddress : ℕ) :
    Rpc (Except PreflightError CacheDb) :=
  match plan.eip7702 with
  | none => pure (.ok cacheDb)
  | some delegation =>
      if delegation.authority ≠ fromAddress then
        pure (.error (.simulationReverted "eip7702 authority must equal preflight signer"))
      else if plan.target ≠ delegation.authority then
        pure (.error (.simulationReverted "eip7702 plan target must equal authority"))
      else do
        let (delegateInfo, cacheDb) ←
          revm.basic (web3Db revm.hashSlow) cacheDb delegation.delegateAddress
        match delegateInfo with
        | .error e => pure (.error (.unavailable ("eip7702 delegate account: " ++ e)))
        | .ok none => pure (.error (.simulationReverted
            ("eip7702 delegate " ++ toString delegation.delegateAddress ++ " has no account")))
        | .ok (some delegateInfo) => do
            let (delegateCode, cacheDb) ← match delegateInfo.code with
              | some code => pure (.ok code, cacheDb)
              | none => revm.codeByHash (web3Db revm.hashSlow) cacheDb delegateInfo.codeHash
            match delegateCode with
            | .error e => pure (.error (.unavailable ("eip7702 delegate code: " ++ e)))
            | .ok [] => pure (.error (.simulationReverted
                ("eip7702 delegate " ++ toString delegation.delegateAddress ++ " has empty code")))
            | .ok (_ :: _) => do
                let (authorityInfo, cacheDb) ←
                  revm.basic (web3Db revm.hashSlow) cacheDb delegation.authority
                match authorityInfo with
                | .error e => pure (.error (.unavailable ("eip7702 authority account: " ++ e)))
                | .ok authorityInfo =>
                    let authorityInfo := authorityInfo.getD ⟨0, 0, keccakEmpty, some []⟩
                    let designator := eip7702Designator delegation.delegateAddress
                    pure (.ok (revm.insertAccountInfo cacheDb delegation.authority
                      { authorityInfo with
                        codeHash := revm.hashSlow designator, code := some designator }))

inductive BalanceReadError where
  | reverted (msg : String)
  | decode (msg : String)
  | evm (msg : String)
deriving DecidableEq

def mapBalanceErr (stage : String) : BalanceReadError → PreflightError
  | .reverted s => .simulationReverted (stage ++ " balanceOf: " ++ s)
  | .decode s => .simulationReverted (stage ++ " balanceOf decode: " ++ s)
  | .evm s => .unavailable (stage ++ " balanceOf evm: " ++ s)

def executePlanTx (cacheDb : CacheDb) (plan : Plan) (fromAddress : ℕ) :
    Rpc (Except PreflightError CacheDb) := do
  let (result, cacheDb) ← revm.transactCommit (web3Db revm.hashSlow) cacheDb
    ⟨fromAddress, plan.target, plan.calldata, plan.value, plan.gasLimit, 0, some 0⟩
  pure <| match result with
    | .error e => .error (.simulationReverted ("plan exec: " ++ e))
    | .ok (.success _) => .ok cacheDb
    | .ok (.revert output) => .error (.simulationReverted (formatRevertReason revm output))
    | .ok (.halt reason) => .error (.simulationReverted ("halt: " ++ reason))

/-- `IERC20Min::balanceOfCall { owner }.abi_encode()` -/
def balanceOfCall (owner : ℕ) : List UInt8 := [0x70, 0xa0, 0x82, 0x31] ++ word owner

def readErc20Balance (cacheDb : CacheDb) (token owner : ℕ) :
    Rpc (Except BalanceReadError (ℕ × CacheDb)) := do
  let (result, cacheDb) ← revm.transact (web3Db revm.hashSlow) cacheDb
    ⟨owner, token, balanceOfCall owner, 0, balanceOfGasLimit, 0, some 0⟩
  pure <| match result with
    | .error e => .error (.evm ("balanceOf transact: " ++ e))
    | .ok (.success output) =>
        match revm.decodeUint output with
        | .ok balance => .ok (balance, cacheDb)
        | .error e => .error (.decode e)
    | .ok (.revert output) => .error (.reverted (formatRevertReason revm output))
    | .ok (.halt reason) => .error (.reverted ("halt: " ++ reason))

def readNativeBalance (cacheDb : CacheDb) (owner : ℕ) :
    Rpc (Except BalanceReadError (ℕ × CacheDb)) := do
  let (account, cacheDb) ← revm.basic (web3Db revm.hashSlow) cacheDb owner
  pure <| match account with
    | .error e => .error (.evm ("native balance: " ++ e))
    | .ok account => .ok (account.elim 0 AccountInfo.balance, cacheDb)

def i256Max : ℤ := 2 ^ 255 - 1

/-- Saturates at the bounds of `I256`. -/
def u256DiffToI256 (post pre : ℕ) : ℤ :=
  if post ≥ pre then min ((post - pre : ℕ) : ℤ) i256Max
  else -min ((pre - post : ℕ) : ℤ) i256Max

/-- Pre-balance, plan, post-balance; the two reads are made alike. -/
def measure (readBalance : CacheDb → Rpc (Except BalanceReadError (ℕ × CacheDb)))
    (cacheDb : CacheDb) (plan : Plan) (fromAddress : ℕ) : Rpc (Except PreflightError ℤ) := do
  match ← readBalance cacheDb with
  | .error e => pure (.error (mapBalanceErr "pre" e))
  | .ok (preBalance, cacheDb) =>
      match ← executePlanTx revm cacheDb plan fromAddress with
      | .error e => pure (.error e)
      | .ok cacheDb =>
          match ← readBalance cacheDb with
          | .error e => pure (.error (mapBalanceErr "post" e))
          | .ok (postBalance, _) => pure (.ok (u256DiffToI256 postBalance preBalance))

/-- The calls that `run_preflight_blocking` makes, and its result. -/
def preflight (plan : Plan) (fromAddress : ℕ) : Rpc (Except PreflightError ℤ) := do
  match ← applyEip7702DelegationOverlay revm revm.new plan fromAddress with
  | .error e => pure (.error e)
  | .ok cacheDb =>
      if plan.profitToken = nativeToken then
        measure revm (readNativeBalance revm · fromAddress) cacheDb plan fromAddress
      else
        measure revm (readErc20Balance revm · plan.profitToken fromAddress) cacheDb plan fromAddress

/-- `Web3Db` is built with `BlockId::latest()`, and every call names that block. -/
def preflightBlockId : BlockId := .latest

/-- The result, beside the calls that were answered. -/
def runPreflightBlocking (node : Node) (plan : Plan) (fromAddress : ℕ) :
    Except PreflightError ℤ × List (Reader.Answered Key Key.Value) :=
  (preflight revm plan fromAddress).run node.chain (node.schedule preflightBlockId) 0

end Simulation

end Degenbot.Preflight
