import Degenbot.Verification.Aave.Configuration
import Degenbot.Verification.Aave.GhoDebt
import Degenbot.Verification.Aave.HealthFactor
import Degenbot.Verification.Aave.Rounding
import Degenbot.Verification.Aave.ScaledBalance
import Degenbot.Verification.AaveLiquidations.ScaledDebt
import Degenbot.Verification.AaveOperations.Containment
import Degenbot.Verification.AbiTypes.Argument
import Degenbot.Verification.AbiTypes.Signature
import Degenbot.Verification.Arbitrage.OptimalInput
import Degenbot.Verification.Arbitrage.RateCheck
import Degenbot.Verification.Balancer.ComposableStable
import Degenbot.Verification.Balancer.StableInvariant
import Degenbot.Verification.Balancer.Port
import Degenbot.Verification.Balancer.StableBalance
import Degenbot.Verification.Calldata.ExecutorCalldata
import Degenbot.Verification.Calldata.PackedPath
import Degenbot.Verification.Calldata.RoundTrip
import Degenbot.Verification.Curve.NextGeneration
import Degenbot.Verification.Curve.Overrides
import Degenbot.Verification.Execution.Inclusion
import Degenbot.Verification.Execution.Nonces
import Degenbot.Verification.Execution.PlanHash
import Degenbot.Verification.Execution.Preflight
import Degenbot.Verification.Execution.Settlement
import Degenbot.Verification.Feed.RoundTrip
import Degenbot.Verification.Fetching.Chunks
import Degenbot.Verification.LibZip.RoundTrip
import Degenbot.Verification.Matching.Admission
import Degenbot.Verification.Matching.Clearing
import Degenbot.Verification.Matching.CowSettle
import Degenbot.Verification.Matching.Expiry
import Degenbot.Verification.Matching.PythonClearing
import Degenbot.Verification.Mobius.Path
import Degenbot.Verification.MorphoPreliquidation
import Degenbot.Verification.Pathfinding.Identity
import Degenbot.Verification.Pathfinding.Paths
import Degenbot.Verification.Payloads.CurveCycle
import Degenbot.Verification.Pool.Delivery
import Degenbot.Verification.Pool.StateCache
import Degenbot.Verification.Pool.TickRanges
import Degenbot.Verification.PyConverters.Documents
import Degenbot.Verification.Registry.FiniteMap
import Degenbot.Verification.Simulation.Chaining
import Degenbot.Verification.Simulation.RegistryPath
import Degenbot.Verification.Simulator.Agreement
import Degenbot.Verification.Simulator.Covering
import Degenbot.Verification.Simulator.SingleTick
import Degenbot.Verification.Simulator.SparseFull
import Degenbot.Verification.Simulator.Splitting
import Degenbot.Verification.Simulator.Viability
import Degenbot.Verification.Snapshot.Completeness
import Degenbot.Verification.StoredLiquidity.Batches
import Degenbot.Verification.Solidly.SolverHops
import Degenbot.Verification.Solidly.StableInvariant
import Degenbot.Verification.Stylus.CycleInput
import Degenbot.Verification.Stylus.Frontrun
import Degenbot.Verification.Stylus.StepMerging
import Degenbot.Verification.SwapMath.Contract
import Degenbot.Verification.TickMath.Internal
import Degenbot.Verification.Update.Ranges
import Degenbot.Verification.V2.OptimalFrontrun
import Degenbot.Verification.V2.OptimalInput
import Degenbot.Verification.V2.Quote
import Degenbot.Verification.V3.Agreement
import Degenbot.Verification.V3.Sandwich
import Degenbot.Verification.Window
import Degenbot.Verification.Matching.Routing
