import Degenbot.Algorithm.Preflight

/-! # The state that a preflight simulates on

The calls of one preflight name the latest block, and each is answered at the head of the
moment. They see one state for every content of the chain exactly when no block arrives
between them. -/

namespace Degenbot.Preflight

open Executor Library Library.HeadTail

section OneBlock

variable {CacheDb : Type} (revm : Revm CacheDb) (node : Node) (plan : Plan) (fromAddress : ℕ)

/-- Every answer is the state of one block, and the result is that of a simulation whose
calls name that block. -/
def ReadsOneBlock : Prop :=
  ∃ block, (∀ answered ∈ (runPreflightBlocking revm node plan fromAddress).2,
      answered.value = node.chain block answered.key) ∧
    ((preflight revm plan fromAddress).run node.chain (node.schedule (.number block)) 0).1 =
      (runPreflightBlocking revm node plan fromAddress).1

/-- The head is the same from the first answered call to the last. -/
def NoBlockBetween : Prop :=
  ∃ block, ∀ answered ∈ (runPreflightBlocking revm node plan fromAddress).2,
    answered.version = block

end OneBlock

theorem readsOneBlock_iff_consistent {CacheDb : Type} {revm : Revm CacheDb} {node : Node}
    {plan : Plan} {fromAddress : ℕ} :
    ReadsOneBlock revm node plan fromAddress ↔
      Reader.Consistent node.chain (node.schedule preflightBlockId)
        (preflight revm plan fromAddress) :=
  Iff.rfl

/-- A value of the same kind that differs. -/
def Key.other : (key : Key) → key.Value → key.Value
  | .transactionCount _, value => Nat.succ value
  | .balance _, value => Nat.succ value
  | .code _, value => (0 : UInt8) :: value
  | .storage _ _, value => Nat.succ value

theorem Key.other_ne (key : Key) (value : key.Value) : key.other value ≠ value := by
  cases key with
  | transactionCount | balance | storage => exact Nat.succ_ne_self value
  | code => exact List.cons_ne_self _ _

/-- A preflight during which no block arrives simulates on a state that existed. Where this
holds for every content of the chain, no block arrives. -/
theorem readsOneBlock_iff {CacheDb : Type} (revm : Revm CacheDb) (plan : Plan) (fromAddress : ℕ)
    (head : ℕ → ℕ) (failure : ℕ → Option String) :
    (∀ chain, NoBlockBetween revm ⟨chain, head, failure⟩ plan fromAddress →
      ReadsOneBlock revm ⟨chain, head, failure⟩ plan fromAddress) ∧
    ((∀ chain, ReadsOneBlock revm ⟨chain, head, failure⟩ plan fromAddress) ↔
      ∀ chain, NoBlockBetween revm ⟨chain, head, failure⟩ plan fromAddress) := by
  have henough : ∀ chain, NoBlockBetween revm ⟨chain, head, failure⟩ plan fromAddress →
      ReadsOneBlock revm ⟨chain, head, failure⟩ plan fromAddress := by
    intro chain h
    rw [readsOneBlock_iff_consistent]
    exact Reader.OneVersion.consistent h
  refine ⟨henough, fun h chain => ?_, fun h chain => henough chain (h chain)⟩
  apply Reader.oneVersion_of_consistent Key.other_ne
  intro chain'
  exact readsOneBlock_iff_consistent.mp (h chain')

/-! ## A block between two storage reads -/

/-- Accounts that are loaded, and the balance of the profit token once it is. -/
abbrev PoolCache := List ℕ × Option ℕ

/-- Loads the accounts that are not cached. -/
def loadAccounts (db : DatabaseRef) : List ℕ → PoolCache → Rpc PoolCache
  | [], cache => pure cache
  | address :: addresses, cache => do
      if address ∈ cache.1 then loadAccounts db addresses cache
      else
        let _ ← db.basicRef address
        loadAccounts db addresses (address :: cache.1, cache.2)

/-- A token that keeps the balance of the signer in slot 0, and a target that pays it the
difference of its own slots 1 and 0. -/
def poolRevm : Revm PoolCache where
  new := ([], none)
  basic db cache address := do
    let info ← db.basicRef address
    pure (info, (address :: cache.1, cache.2))
  codeByHash db cache hash := do
    let code ← db.codeByHashRef hash
    pure (code, cache)
  insertAccountInfo cache address _ := (address :: cache.1, cache.2)
  transact db cache tx := do
    let cache ← loadAccounts db [tx.caller, tx.kind] cache
    match cache.2 with
    | some balance => pure (.ok (.success (word balance)), cache)
    | none =>
        match ← db.storageRef tx.kind 0 with
        | .ok balance => pure (.ok (.success (word balance)), (cache.1, some balance))
        | .error e => pure (.error e, cache)
  transactCommit db cache tx := do
    let cache ← loadAccounts db [tx.caller, tx.kind] cache
    match ← db.storageRef tx.kind 0, ← db.storageRef tx.kind 1 with
    | .ok reserve0, .ok reserve1 =>
        pure (.ok (.success []), (cache.1, cache.2.map (· + reserve1 - reserve0)))
    | .error e, _ => pure (.error e, cache)
    | _, .error e => pure (.error e, cache)
  hashSlow code := code.length
  decodeUint data := match readWord data with
    | some value => .ok value
    | none => .error "buffer overrun"
  decodeString _ := none

/-- Both slots of the target hold 100 in block 1 and 200 in block 2. -/
def twoReserves : Reader.History Key Key.Value
  | block, .storage 3 _ => (100 * block : ℕ)
  | _, .storage _ _ => (0 : ℕ)
  | _, .code _ => ([] : List UInt8)
  | _, .balance _ => (0 : ℕ)
  | _, .transactionCount _ => (0 : ℕ)

/-- Block 2 arrives before the twelfth call, which asks for slot 1. -/
def lateNode : Node := ⟨twoReserves, fun i => if i < 11 then 1 else 2, fun _ => none⟩

def poolPlan : Plan := ⟨3, [], 0, 100000, 2, none⟩

/-- The preflight measures a profit of 100, where the plan earns nothing in either block. -/
theorem lateNode_not_readsOneBlock :
    (runPreflightBlocking poolRevm lateNode poolPlan 1).1 = .ok 100 ∧
      (∀ block ∈ [1, 2], ((preflight poolRevm poolPlan 1).run twoReserves
        (lateNode.schedule (.number block)) 0).1 = .ok 0) ∧
      ¬ReadsOneBlock poolRevm lateNode poolPlan 1 := by
  refine ⟨by decide, by decide, ?_⟩
  rintro ⟨block, hvalues, -⟩
  have hreads : (runPreflightBlocking poolRevm lateNode poolPlan 1).2.drop 10 =
      [⟨.storage 3 0, (100 : ℕ), 1⟩, ⟨.storage 3 1, (200 : ℕ), 2⟩] := rfl
  have hslot0 : (100 : ℕ) = 100 * block :=
    hvalues ⟨.storage 3 0, (100 : ℕ), 1⟩ (List.mem_of_mem_drop (by rw [hreads]; simp))
  have hslot1 : (200 : ℕ) = 100 * block :=
    hvalues ⟨.storage 3 1, (200 : ℕ), 2⟩ (List.mem_of_mem_drop (by rw [hreads]; simp))
  omega

end Degenbot.Preflight
