import Mathlib.Algebra.Ring.Nat
import Mathlib.Data.List.Basic
import Mathlib.Logic.Function.Basic

/-! # `executor/nonce.rs` and `utils/nonce.rs` -/

/-! ## `executor/nonce.rs` and the nonces of `LiveBackend`

Concurrent `sign_and_submit` calls on clones of one backend. The clones share the nonce
cache and the refresh lock; a step below is what one call does between two points where
another call may run. -/

namespace Degenbot.Nonce

/-! ## `PendingNonceCache` -/

structure PendingNonceCache where
  pending : Option ℕ
  lastRefreshUnixMs : ℕ
deriving DecidableEq

namespace PendingNonceCache

def new : PendingNonceCache := ⟨none, 0⟩

def takeAndIncrementIfFresh (cache : PendingNonceCache) (nowUnixMs ttlMs : ℕ) :
    Option ℕ × PendingNonceCache :=
  match cache.pending with
  | none => (none, cache)
  | some n =>
      -- `saturating_sub`
      if nowUnixMs - cache.lastRefreshUnixMs > ttlMs then (none, { cache with pending := none })
      else (some n, { cache with pending := some (n + 1) })

def prime (_ : PendingNonceCache) (pending refreshUnixMs : ℕ) : PendingNonceCache :=
  ⟨some pending, refreshUnixMs⟩

def clear (_ : PendingNonceCache) : PendingNonceCache := ⟨none, 0⟩

end PendingNonceCache

/-- `NONCE_CACHE_TTL_MS`. -/
def nonceCacheTtlMs : ℕ := 1000

/-! ## Calls -/

/-- Where a call is in `sign_and_submit`. -/
inductive Phase where
  | start
  | awaitingLock
  | locked
  | refreshing (refreshedAt : ℕ)
  | counted (refreshedAt pending : ℕ)
  | primed
  | holding (nonce : ℕ)
  | rejected
  | done
deriving DecidableEq

/-- The shared state, the phases of the calls and the nonces of the accepted
transactions, last first. -/
structure State where
  cache : PendingNonceCache
  lock : Option ℕ
  phase : ℕ → Phase
  accepted : List ℕ

def State.init : State := ⟨.new, none, fun _ => .start, []⟩

/-- One step of a call. Clock readings are arguments. -/
inductive Action where
  | balanceFailed (call : ℕ)
  | take (call now : ℕ)
  | lock (call : ℕ)
  | takeLocked (call now refreshedAt : ℕ)
  | count (call : ℕ)
  | countFailed (call : ℕ)
  | prime (call : ℕ)
  | takePrimed (call now : ℕ)
  | accept (call : ℕ)
  | reject (call : ℕ)
  | clear (call : ℕ)
deriving DecidableEq

namespace State

def move (s : State) (call : ℕ) (phase : Phase) : State :=
  { s with phase := Function.update s.phase call phase }

def unlock (s : State) : State := { s with lock := none }

/-- A take, and the phases that follow it with and without a nonce. -/
def take (s : State) (call now : ℕ) (missed : Phase) : State :=
  let (nonce, cache) := s.cache.takeAndIncrementIfFresh now nonceCacheTtlMs
  { s with cache }.move call (match nonce with
    | some n => .holding n
    | none => missed)

/-- The lock is released when `next_nonce` returns. -/
def releaseIfDone (s : State) (call : ℕ) : State :=
  match s.phase call with
  | .holding _ | .done => s.unlock
  | _ => s

def step (s : State) : Action → Option State
  | .balanceFailed call => match s.phase call with
      | .start => some (s.move call .done)
      | _ => none
  | .take call now => match s.phase call with
      | .start => some (s.take call now .awaitingLock)
      | _ => none
  | .lock call => match s.phase call, s.lock with
      | .awaitingLock, none => some ({ s with lock := some call }.move call .locked)
      | _, _ => none
  | .takeLocked call now refreshedAt => match s.phase call with
      | .locked => some ((s.take call now (.refreshing refreshedAt)).releaseIfDone call)
      | _ => none
  -- the pending count of the provider
  | .count call => match s.phase call with
      | .refreshing refreshedAt =>
          some (s.move call (.counted refreshedAt s.accepted.length))
      | _ => none
  | .countFailed call => match s.phase call with
      | .refreshing _ => some (s.unlock.move call .done)
      | _ => none
  | .prime call => match s.phase call with
      | .counted refreshedAt pending =>
          some ({ s with cache := s.cache.prime pending refreshedAt }.move call .primed)
      | _ => none
  -- a cache that was cleared or went stale meanwhile is an error
  | .takePrimed call now => match s.phase call with
      | .primed => some ((s.take call now .done).releaseIfDone call)
      | _ => none
  | .accept call => match s.phase call with
      | .holding n => some ({ s with accepted := n :: s.accepted }.move call .done)
      | _ => none
  | .reject call => match s.phase call with
      | .holding _ => some (s.move call .rejected)
      | _ => none
  | .clear call => match s.phase call with
      | .rejected => some ({ s with cache := s.cache.clear }.move call .done)
      | _ => none

/-- A schedule of steps, from a state. -/
def run (s : State) (actions : List Action) : Option State := actions.foldlM step s

end State

end Degenbot.Nonce

/-! ## `utils/nonce.rs`

Threads that share one `NonceManager`. A step is one atomic access to the counter, or the
answer of the provider; arithmetic on `u64` wraps, as in a release build. -/

namespace Degenbot.NonceManager

/-- The number of values of a `u64`. -/
def u64Size : ℕ := 2 ^ 64

inductive NonceSync where
  | inSync
  | reanchor (value : ℕ)
  | driftAhead (localNonce chain : ℕ)
deriving DecidableEq

def evaluate (localNonce chain : ℕ) : NonceSync :=
  if chain > localNonce then .reanchor chain
  else if localNonce > (chain + 1) % u64Size then .driftAhead localNonce chain
  else .inSync

/-- Where a call of `reconcile` is. A drift is an error. -/
inductive Phase where
  | start
  | fetched (chain : ℕ)
  | reanchoring (loaded value : ℕ)
  | done
  | failed
deriving DecidableEq

/-- The counter, the calls of `reconcile` and the nonces handed out, last first. -/
structure State where
  inner : ℕ
  phase : ℕ → Phase
  handedOut : List ℕ

namespace State

def new (initial : ℕ) : State := ⟨initial, fun _ => .start, []⟩

def move (s : State) (call : ℕ) (phase : Phase) : State :=
  { s with phase := Function.update s.phase call phase }

/-- `fetch_add(1)`. -/
def acquire (s : State) : State :=
  { s with inner := (s.inner + 1) % u64Size, handedOut := s.inner :: s.handedOut }

/-- `store(value)`. -/
def reset (s : State) (value : ℕ) : State := { s with inner := value }

end State

/-- One step of a thread. -/
inductive Action where
  | acquire
  | fetch (call chain : ℕ)
  | fetchFailed (call : ℕ)
  | load (call : ℕ)
  | store (call : ℕ)
deriving DecidableEq

def phaseOf (loaded : ℕ) : NonceSync → Phase
  | .inSync => .done
  | .reanchor value => .reanchoring loaded value
  | .driftAhead _ _ => .failed

def step (s : State) : Action → Option State
  | .acquire => some s.acquire
  | .fetch call chain => match s.phase call with
      | .start => if chain < u64Size then some (s.move call (.fetched chain)) else none
      | _ => none
  | .fetchFailed call => match s.phase call with
      | .start => some (s.move call .failed)
      | _ => none
  | .load call => match s.phase call with
      | .fetched chain => some (s.move call (phaseOf s.inner (evaluate s.inner chain)))
      | _ => none
  | .store call => match s.phase call with
      | .reanchoring _ value => some ((s.reset value).move call .done)
      | _ => none

end Degenbot.NonceManager
