import Degenbot.Algorithm.Types
import Degenbot.Library.WhileLoop
import Mathlib.Data.PNat.Basic

/-! # `cli/pool.py: pool_update` and `cli/aave/commands.py: aave_update`

The loop over block ranges that both commands run for a chain, once the last block is known.
What the updaters and the checks of a checkpoint do to the pools or positions is left out, and
they succeed: each exchange (or market) keeps the list of the ranges for which its updater was
called. -/

namespace Degenbot.UpdateLoop

open Library

/-- A row of `ExchangeTable` or of `AaveV3Market`, with the calls of its updater so far. -/
structure Exchange where
  name : String
  lastUpdateBlock : Option ℕ
  updates : List (ℕ × ℕ) := []
deriving DecidableEq

namespace Exchange

/-- The block at which an update starts. -/
def nextBlock (exchange : Exchange) : ℕ :=
  match exchange.lastUpdateBlock with
  | none => 0
  | some block => block + 1

/-- Membership in `exchanges_to_update`. -/
def isDue (exchange : Exchange) (workingStartBlock : ℕ) : Bool :=
  match exchange.lastUpdateBlock with
  | none => true
  | some block => block + 1 = workingStartBlock

/-- The call of the updater and the stamp. -/
def update (workingStartBlock workingEndBlock : ℕ) (exchange : Exchange) : Exchange :=
  if exchange.isDue workingStartBlock then
    { exchange with
      lastUpdateBlock := some workingEndBlock
      updates := exchange.updates ++ [(workingStartBlock, workingEndBlock)] }
  else exchange

end Exchange

structure State where
  workingStartBlock : ℕ
  exchanges : List Exchange
  done : Bool := false
deriving DecidableEq

/-- The stamps that cap the working end block. -/
def laterStamps (workingStartBlock : ℕ) (exchanges : List Exchange) : List ℕ :=
  (exchanges.filterMap Exchange.lastUpdateBlock).filter (· > workingStartBlock)

def workingEndBlock (chunkSize : ℕ+) (lastBlock workingStartBlock : ℕ)
    (exchanges : List Exchange) : ℕ :=
  ((workingStartBlock + chunkSize - 1) :: laterStamps workingStartBlock exchanges).foldl min
    lastBlock

/-- `for exchange in exchanges_to_update`. -/
def updateExchanges (workingStartBlock workingEndBlock : ℕ) (exchanges : List Exchange) :
    Except Exn (List Exchange) :=
  .ok (exchanges.map (Exchange.update workingStartBlock workingEndBlock))

/-- The options `--verify-all` and `--backup-interval` of `aave_update`. -/
structure VerifyOptions where
  verifyAll : Bool := true
  backupInterval : ℤ := 500000

/-- The test for a full verification. -/
def VerifyOptions.isCheckpoint (options : VerifyOptions)
    (workingStartBlock workingEndBlock : ℕ) : Except Exn Bool :=
  if options.verifyAll then
    if options.backupInterval = 0 then .error .zeroDivisionError
    else .ok (Int.fdiv workingEndBlock options.backupInterval ≠
        Int.fdiv workingStartBlock options.backupInterval ∨
      Int.fmod workingEndBlock options.backupInterval = 0)
  else .ok false

/-- `for market in markets_to_update`. A checkpoint removes the session, and the markets that
are left in the set are detached: reading one raises inside the `try` around its update. -/
def updateMarkets (options : VerifyOptions) (workingStartBlock workingEndBlock : ℕ)
    (removed : Bool) : List Exchange → Except Exn (List Exchange)
  | [] => .ok []
  | market :: markets =>
      if market.isDue workingStartBlock then
        if removed then .error (.systemExit 1)
        else do
          let checkpoint ← options.isCheckpoint workingStartBlock workingEndBlock
          let rest ← updateMarkets options workingStartBlock workingEndBlock checkpoint markets
          .ok (market.update workingStartBlock workingEndBlock :: rest)
      else do
        let rest ← updateMarkets options workingStartBlock workingEndBlock removed markets
        .ok (market :: rest)

/-- The inner loop of a command, for one range of blocks. -/
abbrev Updater := ℕ → ℕ → List Exchange → Except Exn (List Exchange)

/-- One turn of `while True`. -/
def body (updater : Updater) (chunkSize : ℕ+) (lastBlock : ℕ) (s : State) : Except Exn State :=
  let endBlock := workingEndBlock chunkSize lastBlock s.workingStartBlock s.exchanges
  if ¬endBlock ≥ s.workingStartBlock then .error .assertionError
  else do
    let exchanges ← updater s.workingStartBlock endBlock s.exchanges
    if endBlock = lastBlock then .ok { s with exchanges, done := true }
    else .ok { s with exchanges, workingStartBlock := endBlock + 1 }

def guard (s : State) : Bool := !s.done

/-- The loop, from the first block that some exchange has not seen. -/
def loop (updater : Updater) (chunkSize : ℕ+) (lastBlock initialStartBlock : ℕ)
    (exchanges : List Exchange) (fuel : ℕ) : Option (Except Exn State) :=
  whileLoop guard (body updater chunkSize lastBlock) fuel ⟨initialStartBlock, exchanges, false⟩

/-! ## The commands

`none` says that a command leaves the chain alone. -/

/-- `min` of a list that Python refuses when it is empty. -/
def initialStartBlock (exchanges : List Exchange) : Except Exn ℕ :=
  match exchanges with
  | [] => .error (.valueError "min() iterable argument is empty")
  | first :: rest => .ok ((rest.map Exchange.nextBlock).foldl min first.nextBlock)

def poolUpdate (chunkSize : ℕ+) (lastBlock : ℕ) (exchanges : List Exchange) (fuel : ℕ) :
    Option (Except Exn (Option State)) :=
  match initialStartBlock exchanges with
  | .error e => some (.error e)
  | .ok start =>
      if start ≥ lastBlock then some (.ok none)
      else (loop updateExchanges chunkSize lastBlock start exchanges fuel).map fun r => r.map some

def aaveUpdate (options : VerifyOptions) (chainId : ℕ) (chunkSize : ℕ+) (lastBlock : ℕ)
    (markets : List Exchange) (fuel : ℕ) : Option (Except Exn (Option State)) :=
  if markets = [] then some (.ok none)
  else match initialStartBlock markets with
    | .error e => some (.error e)
    | .ok start =>
        if start > lastBlock then
          some (.error (.valueError ("Chain " ++ toString chainId ++ ": --to-block must be " ++
            "greater than the market's last update block (" ++ toString ((start : ℤ) - 1) ++
            ").")))
        else
          (loop (fun start stop => updateMarkets options start stop false) chunkSize lastBlock
            start markets fuel).map fun r => r.map some

end Degenbot.UpdateLoop
