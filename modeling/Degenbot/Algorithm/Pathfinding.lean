import Degenbot.Algorithm.SolverCodec
import Degenbot.Algorithm.Types
import Mathlib.Data.List.Dedup

/-! # `pathfinding.py`

The path search over the pools of a database. A generator is the list of what it yields when
it is run to its end. The order in which Python iterates over a set is a parameter. -/

namespace Degenbot.Pathfinding

abbrev Address := String
abbrev TokenId := ℕ

/-! ## The database -/

/-- A mapped class of pools. The managed ones are those of `UniswapV4PoolTable`. -/
structure PoolType where
  name : String
  managed : Bool
deriving DecidableEq

/-- What the search selects of a pool. The address of a managed pool is that of its manager,
and only a managed pool has a hash. -/
structure PoolRow where
  id : ℕ
  address : Address
  hash : Option String
  chain : ℕ
  token0 : TokenId
  token1 : TokenId
deriving DecidableEq

structure TokenRow where
  id : TokenId
  address : Address
  chain : ℕ
deriving DecidableEq

/-- The tables, with their primary keys. -/
structure Database where
  pools : PoolType → List PoolRow
  tokens : List TokenRow
  pool_ids : ∀ poolType, ((pools poolType).map PoolRow.id).Nodup
  token_ids : (tokens.map TokenRow.id).Nodup

/-- The rows of the chain. -/
def Database.poolsOn (db : Database) (chainId : ℕ) (poolType : PoolType) : List PoolRow :=
  (db.pools poolType).filter fun row => row.chain = chainId

/-! ## The graph -/

/-- A pool as an edge, identified by its table and its key there. -/
structure Edge where
  token0 : TokenId
  token1 : TokenId
  poolId : ℕ
  poolType : PoolType
deriving DecidableEq

def Edge.pool (e : Edge) : ℕ × PoolType := (e.poolId, e.poolType)

/-- The other end of an edge of `token`. -/
def Edge.other (e : Edge) (token : TokenId) : Option TokenId :=
  if e.token0 = token then some e.token1
  else if e.token1 = token then some e.token0
  else none

/-- `MultiGraph`. -/
structure Graph where
  nodes : List TokenId
  edges : List Edge
deriving DecidableEq

/-- A list without its later duplicates, as the keys of a dictionary. -/
def firstOccurrences {α : Type} [DecidableEq α] (xs : List α) : List α :=
  xs.reverse.dedup.reverse

namespace Graph

variable (g : Graph)

def addEdgesFrom (edges : List Edge) : Graph where
  nodes := firstOccurrences (edges.flatMap fun e => [e.token0, e.token1])
  edges := edges

/-- An edge from a node to itself counts twice. -/
def degree (token : TokenId) : ℕ :=
  g.edges.countP (·.token0 = token) + g.edges.countP (·.token1 = token)

def removeNodesFrom (tokens : List TokenId) : Graph where
  nodes := g.nodes.filter (· ∉ tokens)
  edges := g.edges.filter fun e => e.token0 ∉ tokens ∧ e.token1 ∉ tokens

/-- The neighbours of a token with the edges to each of them, as the two nested loops over
`graph[token]` visit them. -/
def hops (token : TokenId) : List (TokenId × Edge) :=
  (firstOccurrences (g.edges.filterMap (·.other token))).flatMap fun neighbor =>
    (g.edges.filter fun e => e.other token = some neighbor).map fun e => (neighbor, e)

def tokensToPrune : List TokenId := g.nodes.filter fun token => g.degree token ≤ 1

/-- Every round but the last removes a node, so that as many rounds as there are nodes are
enough. -/
def prune : ℕ → Graph → Graph
  | 0, g => g
  | fuel + 1, g =>
      if g.tokensToPrune = [] then g else prune fuel (g.removeNodesFrom g.tokensToPrune)

end Graph

/-- The tokens held by at least `degree` of the pools. -/
def getTokensWithMinDegree (degree : ℕ) (db : Database) (chainId : ℕ)
    (poolTypes : List PoolType) : List TokenId :=
  let tokenIds := poolTypes.flatMap fun poolType =>
    (db.poolsOn chainId poolType).map (·.token0) ++ (db.poolsOn chainId poolType).map (·.token1)
  tokenIds.dedup.filter fun token => degree ≤ tokenIds.count token

/-- The edges of all pools. -/
def poolEdges (db : Database) (chainId : ℕ) (poolTypes : List PoolType) : List Edge :=
  poolTypes.flatMap fun poolType =>
    (db.poolsOn chainId poolType).map fun row => ⟨row.token0, row.token1, row.id, poolType⟩

def prepareGraph (db : Database) (chainId : ℕ) (poolTypes : List PoolType) : Graph :=
  let candidateTokens := getTokensWithMinDegree 2 db chainId poolTypes
  let graph := Graph.addEdgesFrom ((poolEdges db chainId poolTypes).filter fun e =>
    e.token0 ∈ candidateTokens ∧ e.token1 ∈ candidateTokens)
  graph.prune graph.nodes.length

/-! ## The traversal plan -/

inductive Direction where
  | forward
  | forwardAndReverse
deriving DecidableEq, Repr

/-- A dictionary of pairs of tokens. -/
abbrev Plan := List ((Address × Address) × Direction)

/-- `plan[pair] = direction`. -/
def Plan.set (plan : Plan) (pair : Address × Address) (direction : Direction) : Plan :=
  if plan.any fun entry => entry.1 = pair then
    plan.map fun entry => if entry.1 = pair then (pair, direction) else entry
  else plan ++ [(pair, direction)]

/-- `del plan[pair]`. -/
def Plan.delete (plan : Plan) (pair : Address × Address) : Except Exn Plan :=
  if plan.any fun entry => entry.1 = pair then .ok (plan.filter fun entry => entry.1 ≠ pair)
  else .error .keyError

/-- `itertools.combinations(xs, 2)`. -/
def combinations {α : Type} : List α → List (α × α)
  | [] => []
  | x :: xs => xs.map (fun y => (x, y)) ++ combinations xs

/-- `itertools.product(xs, ys)`. -/
def product {α : Type} (xs ys : List α) : List (α × α) :=
  xs.flatMap fun x => ys.map fun y => (x, y)

/-- Two searches become one that also yields the reversed paths. -/
def consolidate (plan : Plan) (pair : Address × Address) : Except Exn Plan :=
  (plan.set pair .forwardAndReverse).delete (pair.2, pair.1)

/-- The sets are given without duplicates and `iterate` orders the third one. -/
def prepareTraversalPlan (iterate : List Address → List Address)
    (startTokens endTokens : List Address) : Except Exn Plan :=
  let plan : Plan := (product startTokens endTokens).map fun pair => (pair, .forward)
  let tokensUsedForStartAndEnd := iterate (startTokens.filter (· ∈ endTokens))
  if tokensUsedForStartAndEnd.length > 1 then
    (combinations tokensUsedForStartAndEnd).foldlM consolidate plan
  else .ok plan

/-! ## The search -/

structure PathStep where
  address : Address
  type : PoolType
  hash : Option String := none
deriving DecidableEq

/-- The pools of the paths that `_dfs` finds, each with the working path before it. The fuel
bounds the pools that a path can still use. -/
def dfs (graph : Graph) (endToken : TokenId) (minDepth : ℕ) (maxDepth : Option ℕ) :
    ℕ → TokenId → List (ℕ × PoolType) → List (List (ℕ × PoolType))
  | 0, startToken, workingPath =>
      if startToken ∉ graph.nodes then []
      else if startToken = endToken ∧ workingPath.length ≥ minDepth then [workingPath] else []
  | fuel + 1, startToken, workingPath =>
      if startToken ∉ graph.nodes then []
      else
        (if startToken = endToken ∧ workingPath.length ≥ minDepth then [workingPath] else []) ++
        (if some workingPath.length = maxDepth then []
         else (graph.hops startToken).flatMap fun hop =>
           if hop.2.pool ∈ workingPath then []
           else dfs graph endToken minDepth maxDepth fuel hop.1 (workingPath ++ [hop.2.pool]))

/-- The step of a pool of the working path. `one` fails unless there is a single row. -/
def pathStep (db : Database) (pool : ℕ × PoolType) : Except Exn PathStep :=
  match (db.pools pool.2).filter fun row => row.id = pool.1 with
  | [row] =>
      if pool.2.managed then .ok { address := row.address, hash := row.hash, type := pool.2 }
      else .ok { address := row.address, type := pool.2 }
  | _ => .error (.runtimeError "exactly one row was required")

def pathSteps (db : Database) (minDepth : ℕ) (maxDepth : Option ℕ)
    (workingPath : List (ℕ × PoolType)) : Except Exn (List PathStep) := do
  let steps ← workingPath.mapM (pathStep db)
  if ¬minDepth ≤ steps.length then .error .assertionError
  else if ∃ depth ∈ maxDepth, depth ≠ 0 ∧ ¬steps.length ≤ depth then .error .assertionError
  else .ok steps

def tokenId (db : Database) (chainId : ℕ) (role : String) (token : Address) :
    Except Exn TokenId :=
  match db.tokens.find? fun row => row.address = token ∧ row.chain = chainId with
  | some row => .ok row.id
  | none => .error (.degenbotValueError
      (role ++ " token " ++ token ++ " was not found in the database."))

/-- The search of one entry of the plan. -/
def search (db : Database) (chainId minDepth : ℕ) (maxDepth : Option ℕ) (graph : Graph)
    (entry : (Address × Address) × Direction) : Except Exn (List (List PathStep)) := do
  let startTokenId ← tokenId db chainId "Start" entry.1.1
  let endTokenId ← tokenId db chainId "End" entry.1.2
  let found ← (dfs graph endTokenId minDepth maxDepth graph.edges.length startTokenId []).mapM
    (pathSteps db minDepth maxDepth)
  .ok (found.flatMap fun steps =>
    if entry.2 = .forwardAndReverse then [steps, steps.reverse] else [steps])

/-- The given tokens are checksummed, and the sets of them have no duplicates. -/
def findPaths (db : Database) (iterate : List Address → List Address) (chainId : ℕ)
    (startTokens endTokens : List Address) (minDepth : ℕ) (maxDepth : Option ℕ)
    (poolTypes : List PoolType) : Except Exn (List (List PathStep)) := do
  let graph := prepareGraph db chainId poolTypes
  let plan ← prepareTraversalPlan iterate (iterate startTokens.dedup) (iterate endTokens.dedup)
  let yielded ← plan.mapM (search db chainId minDepth maxDepth graph)
  .ok yielded.flatten

/-! ## The identity of a path

SHA-256 is a parameter; a hasher holds the bytes that were added to it. -/

open SolverCodec (PyError fromHex withoutPrefix)

def hexToFixedWidthBytes (value : String) (width : ℕ) : Except PyError (List UInt8) := do
  let hexValue := (withoutPrefix ['0', 'x'] value.toList).map Char.toLower
  let raw ← fromHex (if hexValue.length % 2 ≠ 0 then '0' :: hexValue else hexValue)
  if raw.length > width then .error .valueError
  else .ok (List.replicate (width - raw.length) 0 ++ raw)

/-- The updates of the hasher for one step. -/
def updateHasher (hasher : List UInt8) (step : PathStep) : Except PyError (List UInt8) := do
  let hasher := hasher ++ (← hexToFixedWidthBytes step.address 20)
  match step.hash with
  | some hash => .ok (hasher ++ (← hexToFixedWidthBytes hash 32))
  | none => .ok hasher

variable {Digest : Type} (sha256 : List UInt8 → Digest)

def pathHash (path : List PathStep) : Except PyError Digest :=
  sha256 <$> path.foldlM updateHasher []

/-- The generator from where it has seen the given identities. -/
def deduplicateFrom [DecidableEq Digest] (seen : List Digest) :
    List (List PathStep) → Except PyError (List (List PathStep))
  | [] => .ok []
  | path :: paths => do
      let identity ← pathHash sha256 path
      if identity ∈ seen then deduplicateFrom seen paths
      else
        let later ← deduplicateFrom (identity :: seen) paths
        .ok (path :: later)

def deduplicatePaths [DecidableEq Digest] (paths : List (List PathStep)) :
    Except PyError (List (List PathStep)) :=
  deduplicateFrom sha256 [] paths

end Degenbot.Pathfinding
