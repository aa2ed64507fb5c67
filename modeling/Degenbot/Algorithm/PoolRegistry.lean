import Degenbot.Algorithm.Types

/-! # `registry/pool.py`: the pool registries

A method returns its outcome beside the registry it leaves, so that a call that raises may
still have written. Pools are compared by identity and are always truthy. -/

namespace Degenbot.Registry

/-- `get_checksum_address` and `HexBytes`: the spellings of addresses and pool ids that are
accepted, each with its normal form. -/
structure Spellings (Address PoolId : Type) where
  getChecksumAddress : Address → Except Exn Address
  hexBytes : PoolId → Except Exn PoolId
  checksum_checksum : ∀ address checksum, getChecksumAddress address = .ok checksum →
    getChecksumAddress checksum = .ok checksum
  hexBytes_hexBytes : ∀ poolId bytes, hexBytes poolId = .ok bytes → hexBytes bytes = .ok bytes

section Registries

variable {Address PoolId Pool : Type} [DecidableEq Address] [DecidableEq PoolId]

/-! ## `ManagedPoolRegistry` -/

structure ManagedPoolRegistry (Address PoolId Pool : Type) where
  allV4Pools : Dict (ℕ × Address × PoolId) Pool

namespace ManagedPoolRegistry

def empty : ManagedPoolRegistry Address PoolId Pool := ⟨∅⟩

variable (spell : Spellings Address PoolId) (registry : ManagedPoolRegistry Address PoolId Pool)

def get (chainId : ℕ) (poolManagerAddress : Address) (poolId : PoolId) :
    Except Exn (Option Pool) := do
  let poolManagerAddress ← spell.getChecksumAddress poolManagerAddress
  let poolId ← spell.hexBytes poolId
  .ok (registry.allV4Pools.lookup (chainId, poolManagerAddress, poolId))

def add (pool : Pool) (chainId : ℕ) (poolManagerAddress : Address) (poolId : PoolId) :
    Except Exn Unit × ManagedPoolRegistry Address PoolId Pool :=
  match spell.getChecksumAddress poolManagerAddress, spell.hexBytes poolId with
  | .error e, _ => (.error e, registry)
  | .ok _, .error e => (.error e, registry)
  | .ok poolManagerAddress, .ok poolId =>
      match registry.get spell chainId poolManagerAddress poolId with
      | .error e => (.error e, registry)
      | .ok (some _) => (.error (.degenbotValueError "Pool is already registered"), registry)
      | .ok none =>
          (.ok (), ⟨registry.allV4Pools.insert (chainId, poolManagerAddress, poolId) pool⟩)

def remove (poolManagerAddress : Address) (chainId : ℕ) (poolId : PoolId) :
    Except Exn Unit × ManagedPoolRegistry Address PoolId Pool :=
  match spell.getChecksumAddress poolManagerAddress, spell.hexBytes poolId with
  | .error e, _ => (.error e, registry)
  | .ok _, .error e => (.error e, registry)
  | .ok poolManagerAddress, .ok poolId =>
      (.ok (), ⟨registry.allV4Pools.erase (chainId, poolManagerAddress, poolId)⟩)

def reset (_ : ManagedPoolRegistry Address PoolId Pool) :
    ManagedPoolRegistry Address PoolId Pool := empty

end ManagedPoolRegistry

/-! ## `PoolRegistry` -/

structure PoolRegistry (Address PoolId Pool : Type) where
  allPools : Dict (ℕ × Address) Pool
  v4PoolRegistry : ManagedPoolRegistry Address PoolId Pool

namespace PoolRegistry

def empty : PoolRegistry Address PoolId Pool := ⟨∅, .empty⟩

variable (spell : Spellings Address PoolId) (registry : PoolRegistry Address PoolId Pool)

def get (chainId : ℕ) (poolAddress : Address) (poolId : Option PoolId) :
    Except Exn (Option Pool) := do
  let poolAddress ← spell.getChecksumAddress poolAddress
  match poolId with
  | some poolId => registry.v4PoolRegistry.get spell chainId poolAddress poolId
  | none => .ok (registry.allPools.lookup (chainId, poolAddress))

/-- The assignment at the end is made for a pool with an id too. -/
def add (pool : Pool) (chainId : ℕ) (poolAddress : Address) (poolId : Option PoolId) :
    Except Exn Unit × PoolRegistry Address PoolId Pool :=
  match spell.getChecksumAddress poolAddress with
  | .error e => (.error e, registry)
  | .ok poolAddress =>
      let assign (registry : PoolRegistry Address PoolId Pool) :=
        { registry with allPools := registry.allPools.insert (chainId, poolAddress) pool }
      match poolId with
      | some poolId =>
          match registry.v4PoolRegistry.add spell pool chainId poolAddress poolId with
          | (.error e, v4PoolRegistry) => (.error e, { registry with v4PoolRegistry })
          | (.ok _, v4PoolRegistry) => (.ok (), assign { registry with v4PoolRegistry })
      | none =>
          match registry.get spell chainId poolAddress none with
          | .error e => (.error e, registry)
          | .ok (some _) => (.error (.degenbotValueError "Pool is already registered"), registry)
          | .ok none => (.ok (), assign registry)

def remove (chainId : ℕ) (poolAddress : Address) (poolId : Option PoolId) :
    Except Exn Unit × PoolRegistry Address PoolId Pool :=
  match spell.getChecksumAddress poolAddress with
  | .error e => (.error e, registry)
  | .ok poolAddress =>
      match poolId with
      | some poolId =>
          let (outcome, v4PoolRegistry) :=
            registry.v4PoolRegistry.remove spell poolAddress chainId poolId
          (outcome, { registry with v4PoolRegistry })
      | none => (.ok (), { registry with allPools := registry.allPools.erase (chainId, poolAddress) })

/-- `_reset` -/
def reset (registry : PoolRegistry Address PoolId Pool) : PoolRegistry Address PoolId Pool :=
  ⟨∅, registry.v4PoolRegistry.reset⟩

end PoolRegistry

/-! ## Runs of calls -/

inductive Call (Address PoolId Pool : Type) where
  | add (pool : Pool) (chainId : ℕ) (poolAddress : Address) (poolId : Option PoolId)
  | remove (chainId : ℕ) (poolAddress : Address) (poolId : Option PoolId)
  | reset
deriving DecidableEq

def PoolRegistry.perform (spell : Spellings Address PoolId)
    (registry : PoolRegistry Address PoolId Pool) :
    Call Address PoolId Pool → Except Exn Unit × PoolRegistry Address PoolId Pool
  | .add pool chainId poolAddress poolId => registry.add spell pool chainId poolAddress poolId
  | .remove chainId poolAddress poolId => registry.remove spell chainId poolAddress poolId
  | .reset => (.ok (), registry.reset)

end Registries

end Degenbot.Registry
