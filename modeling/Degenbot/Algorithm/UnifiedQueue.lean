import Degenbot.Algorithm.Matching

/-! # `matching/unified_queue.py` -/

namespace Degenbot.Coordinator

/-- The queued candidates; addresses are their values. -/
abbrev MatchCandidate := PriceCompat.MatchCandidate (BitVec 160)

abbrev MatchPair := PriceCompat.MatchPair (BitVec 160)

structure QueueItem (α : Type) where
  value : α
  enqueuedAtMs : ℤ
  expiresAtMs : ℤ
deriving DecidableEq

/-- The queues, with the identifiers of native opportunities for their values. -/
structure UnifiedQueue where
  outboundQ : List (QueueItem MatchCandidate) := []
  inboundQ : List (QueueItem MatchCandidate) := []
  uniswapxQ : List (QueueItem MatchCandidate) := []
  nativeQ : List (QueueItem String) := []
  defaultCandidateTtlMs : ℤ := 30000
  defaultNativeTtlMs : ℤ := 5000
deriving DecidableEq

namespace UnifiedQueue

variable (q : UnifiedQueue)

def wrapCandidate (now : ℤ) (c : MatchCandidate) : QueueItem MatchCandidate :=
  let sourceExpiryMs := c.sourceExpiresAt * 1000
  let ttlExpiryMs := now + q.defaultCandidateTtlMs
  let expiresAtMs :=
    if 0 < sourceExpiryMs ∧ sourceExpiryMs < ttlExpiryMs then sourceExpiryMs else ttlExpiryMs
  ⟨c, now, expiresAtMs⟩

def addOutbound (now : ℤ) (o : MatchCandidate) : UnifiedQueue :=
  { q with outboundQ := q.outboundQ ++ [q.wrapCandidate now o] }

def addInbound (now : ℤ) (c : MatchCandidate) : UnifiedQueue :=
  { q with inboundQ := q.inboundQ ++ [q.wrapCandidate now c] }

def addUniswapx (now : ℤ) (c : MatchCandidate) : UnifiedQueue :=
  { q with uniswapxQ := q.uniswapxQ ++ [q.wrapCandidate now c] }

def addNative (now : ℤ) (id : String) : UnifiedQueue :=
  { q with nativeQ := q.nativeQ ++ [⟨id, now, now + q.defaultNativeTtlMs⟩] }

/-- The first queue that holds the candidate loses its first entry for it. -/
def consume (item : MatchCandidate) : UnifiedQueue × Bool :=
  let holds (entry : QueueItem MatchCandidate) : Bool := entry.value.id = item.id
  if q.outboundQ.any holds then ({ q with outboundQ := q.outboundQ.eraseP holds }, true)
  else if q.inboundQ.any holds then ({ q with inboundQ := q.inboundQ.eraseP holds }, true)
  else if q.uniswapxQ.any holds then ({ q with uniswapxQ := q.uniswapxQ.eraseP holds }, true)
  else (q, false)

def consumeNative (id : String) : UnifiedQueue × Bool :=
  let holds (entry : QueueItem String) : Bool := entry.value = id
  if q.nativeQ.any holds then ({ q with nativeQ := q.nativeQ.eraseP holds }, true)
  else (q, false)

/-- The entries of one queue that `sweep_expired` keeps. -/
def unexpired {α : Type} (nowMs : ℤ) (entries : List (QueueItem α)) : List (QueueItem α) :=
  entries.filter fun entry => decide (entry.expiresAtMs > nowMs)

def size : ℕ :=
  q.outboundQ.length + q.inboundQ.length + q.uniswapxQ.length + q.nativeQ.length

def sweepExpired (nowMs : ℤ) : UnifiedQueue × ℕ :=
  let swept := { q with
    outboundQ := unexpired nowMs q.outboundQ
    inboundQ := unexpired nowMs q.inboundQ
    uniswapxQ := unexpired nowMs q.uniswapxQ
    nativeQ := unexpired nowMs q.nativeQ }
  (swept, q.size - swept.size)

def outbound : List MatchCandidate := q.outboundQ.map (·.value)
def inbound : List MatchCandidate := q.inboundQ.map (·.value)
def uniswapx : List MatchCandidate := q.uniswapxQ.map (·.value)

end UnifiedQueue

end Degenbot.Coordinator
