import Degenbot.Library.Binary64

/-! # `functions.py`: log fetching

A provider is the outcome of each of its requests, in the order in which they are made. What it
delivers are the logs that pass the filter, in block order. -/

namespace Degenbot.Fetching

open Library

/-! ## Working span

The spans are widened and narrowed through floats. `none` is an `OverflowError`. -/

def increaseWorkingSpan (workingSpan percent ceiling : ℕ) : Option ℕ := do
  let rate ← binary64 (percent / 100)
  let span ← binary64 workingSpan
  let increment ← binary64 (span * rate)
  let increased ← binary64 (span + increment)
  some (min ceiling ⌊increased⌋.toNat)

def reduceWorkingSpan (workingSpan percent : ℕ) : Option ℕ := do
  let rate ← binary64 (percent / 100)
  let span ← binary64 workingSpan
  let decrement ← binary64 (span * rate)
  let reduced ← binary64 (span - decrement)
  some (max 1 ⌊reduced⌋.toNat)

/-! ## Requests -/

/-- The logs, a `Timeout`, `Web3Exception` or `RequestException`, or another exception. -/
inductive Outcome where
  | delivered
  | retryable
  | other
deriving DecidableEq

inductive FetchError where
  | valueError (msg : String)
  | logFetchingTimeout (maxRetries : ℤ)
  | overflowError
  | other
deriving DecidableEq

section Fetch

variable {Log : Type} (blockLogs : ℕ → List Log)

/-- The logs of the blocks from one to another. -/
def rangeLogs (fromBlock toBlock : ℕ) : List Log :=
  (List.range' fromBlock (toBlock + 1 - fromBlock)).flatMap blockLogs

/-- The variables of the loop. `request` counts the requests made. -/
structure FetchState (Log : Type) where
  startBlock : ℕ
  workingSpan : ℕ
  request : ℕ
  eventLogs : List Log

variable (schedule : ℕ → Outcome) (endBlock : ℕ) (maxRetries : ℤ) (maxBlocksPerRequest : ℕ)

/-- `for attempt in retrier`, with a number of attempts left after the present one. The result is
`chunk_end` after the attempt that succeeded. -/
def attemptChunk : ℕ → FetchState Log → Except FetchError (ℕ × FetchState Log)
  | attemptsLeft, s =>
      let chunkEnd := min endBlock (s.startBlock + s.workingSpan - 1)
      match schedule s.request with
      | .delivered =>
          match increaseWorkingSpan s.workingSpan 5 maxBlocksPerRequest with
          | none => .error .overflowError
          | some span => .ok (chunkEnd, { s with
              workingSpan := span
              request := s.request + 1
              eventLogs := s.eventLogs ++ rangeLogs blockLogs s.startBlock chunkEnd })
      | .retryable =>
          match reduceWorkingSpan s.workingSpan 25 with
          | none => .error .overflowError
          | some span =>
              match attemptsLeft with
              | 0 => .error (.logFetchingTimeout maxRetries)
              | attemptsLeft + 1 =>
                  attemptChunk attemptsLeft
                    { s with workingSpan := span, request := s.request + 1 }
      | .other =>
          match reduceWorkingSpan s.workingSpan 25 with
          | none => .error .overflowError
          | some _ => .error .other

/-- `stop_after_attempt`: the attempts after the first one. -/
def retries : ℕ := (maxRetries - 1).toNat

/-- `while True` -/
def fetchLoop : ℕ → FetchState Log → Option (Except FetchError (List Log))
  | 0, _ => none
  | fuel + 1, s =>
      match attemptChunk blockLogs schedule endBlock maxRetries maxBlocksPerRequest
          (retries maxRetries) s with
      | .error e => some (.error e)
      | .ok (chunkEnd, s) =>
          if chunkEnd = endBlock then some (.ok s.eventLogs)
          else fetchLoop fuel { s with startBlock := chunkEnd + 1 }

end Fetch

def maxBlocks (maxBlocksPerRequest : Option ℕ) : ℕ := maxBlocksPerRequest.getD 5000

def firstState {Log : Type} (startBlock : ℕ) (maxBlocksPerRequest : Option ℕ) : FetchState Log where
  startBlock := startBlock
  workingSpan := maxBlocks maxBlocksPerRequest
  request := 0
  eventLogs := []

def fetchLogsRetrying {Log : Type} (blockLogs : ℕ → List Log) (schedule : ℕ → Outcome)
    (startBlock endBlock : ℕ) (maxRetries : ℤ) (maxBlocksPerRequest : Option ℕ) (fuel : ℕ) :
    Option (Except FetchError (List Log)) :=
  if endBlock < startBlock then
    some (.error (.valueError "End block cannot be earlier than start block."))
  else
    fetchLoop blockLogs schedule endBlock maxRetries (maxBlocks maxBlocksPerRequest) fuel
      (firstState startBlock maxBlocksPerRequest)

end Degenbot.Fetching
