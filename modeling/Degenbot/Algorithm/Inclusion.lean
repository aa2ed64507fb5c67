import Degenbot.Algorithm.Executor

/-! # `executor/inclusion.rs`: the inclusion watcher

Blocks are produced between any two calls to the node. The canonical chain only grows; the
node answers a call from the chain as it is then, or the call fails. -/

namespace Degenbot.Inclusion

open Executor

/-! ## The chain -/

structure TransactionReceipt where
  transactionHash : B256
  blockNumber : Option ℕ
  gasUsed : ℕ
  effectiveGasPrice : ℕ
  status : Bool
deriving DecidableEq

/-- The account and the nonce that a transaction was signed with, by its hash. -/
structure Signatures where
  sender : B256 → ℕ
  nonce : B256 → ℕ

/-- The receipts of the mined transactions, in order. -/
abbrev Chain := List TransactionReceipt

def Chain.mined (chain : Chain) : List B256 := chain.map TransactionReceipt.transactionHash

/-- The mined nonce of an account: the number of its transactions. -/
def Chain.minedNonce (chain : Chain) (signed : Signatures) (account : ℕ) : ℕ :=
  chain.mined.countP fun hash => signed.sender hash = account

/-- A block is valid when each transaction has the next nonce of its sender. -/
def Chain.accepts (signed : Signatures) (chain : Chain) : List TransactionReceipt → Bool
  | [] => true
  | receipt :: block =>
      signed.nonce receipt.transactionHash =
          chain.minedNonce signed (signed.sender receipt.transactionHash) &&
        Chain.accepts signed (chain ++ [receipt]) block

/-! ## Reads -/

/-- `Provider`: what a call answers. -/
structure Provider where
  getTransactionReceipt : B256 → Except String (Option TransactionReceipt)
  getTransactionCount : ℕ → Except String ℕ

/-- The node at a chain; a call that fails gives its error. -/
def Chain.provider (chain : Chain) (signed : Signatures) (failure : Option String) : Provider :=
  match failure with
  | some e => ⟨fun _ => .error e, fun _ => .error e⟩
  | none => ⟨fun hash => .ok (chain.find? (·.transactionHash = hash)),
      fun account => .ok (chain.minedNonce signed account)⟩

structure ReplacementProbe where
  sender : ℕ
  nonce : ℕ
deriving DecidableEq

def decodeReceipt (receipt : TransactionReceipt) : InclusionReceipt where
  blockNumber := receipt.blockNumber.getD 0
  gasUsed := receipt.gasUsed
  effectiveGasPriceWei := receipt.effectiveGasPrice
  realizedBalanceDelta := 0
  status := receipt.status
  revertReason :=
    if receipt.status then none else some "reverted; receipt did not expose revert data"

def checkReceipt (provider : Provider) (txHash : B256) :
    Except InclusionError (Option InclusionOutcome) :=
  match provider.getTransactionReceipt txHash with
  | .ok (some receipt) => .ok (some (.mined (decodeReceipt receipt)))
  | .ok none => .ok none
  | .error e => .error (.rpc ("get_receipt: " ++ e))

def checkReplacement (provider : Provider) (replacement : Option ReplacementProbe) :
    Except InclusionError (Option InclusionOutcome) :=
  match replacement with
  | none => .ok none
  | some probe =>
      match provider.getTransactionCount probe.sender with
      | .ok minedNonce => if minedNonce > probe.nonce then .ok (some .replaced) else .ok none
      | .error e => .error (.rpc ("get_transaction_count: " ++ e))

/-! ## The loop of `watch_internal` -/

/-- A watched transaction: `watch` has no probe, and `watch_with_replacement` gets the sender
and the nonce of the transaction. -/
structure Watch (signed : Signatures) where
  txHash : B256
  replacement : Option ReplacementProbe
  probe_eq : ∀ probe ∈ replacement, probe = ⟨signed.sender txHash, signed.nonce txHash⟩

inductive Phase where
  | loopHead
  | checkReceipt
  | checkReplacement
  | waiting
  | returned (result : Except InclusionError InclusionOutcome)
deriving DecidableEq

structure State where
  chain : Chain
  phase : Phase
deriving DecidableEq

/-- What happens next: a block arrives, the deadline is compared with the clock, a call is
answered or fails, or the wait ends. -/
inductive Action where
  | mine (block : List TransactionReceipt)
  | deadline (passed : Bool)
  | receipt (failure : Option String)
  | replacement (failure : Option String)
  | wake (deadlineElapsed : Bool)
deriving DecidableEq

/-- `?` and the early return of an outcome. -/
def afterCheck (next : Phase) : Except InclusionError (Option InclusionOutcome) → Phase
  | .error e => .returned (.error e)
  | .ok (some outcome) => .returned (.ok outcome)
  | .ok none => next

def step {signed : Signatures} (watch : Watch signed) : State → Action → Option State
  | ⟨chain, phase⟩, .mine block =>
      if chain.accepts signed block then some ⟨chain ++ block, phase⟩ else none
  | ⟨chain, .loopHead⟩, .deadline passed =>
      some ⟨chain, if passed then .returned (.ok .dropped) else .checkReceipt⟩
  | ⟨chain, .checkReceipt⟩, .receipt failure =>
      some ⟨chain, afterCheck .checkReplacement
        (Inclusion.checkReceipt (chain.provider signed failure) watch.txHash)⟩
  | ⟨chain, .checkReplacement⟩, .replacement failure =>
      some ⟨chain, afterCheck .waiting
        (Inclusion.checkReplacement (chain.provider signed failure) watch.replacement)⟩
  | ⟨chain, .waiting⟩, .wake deadlineElapsed =>
      some ⟨chain, if deadlineElapsed then .returned (.ok .dropped) else .loopHead⟩
  | _, _ => none

/-- Blocks may arrive before the watcher starts. -/
def State.initial : State := ⟨[], .loopHead⟩

end Degenbot.Inclusion
