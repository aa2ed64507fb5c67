import Degenbot.Algorithm.ExecutionEngine
import Degenbot.Library.SelfDelimiting

/-! # What the plan hash commits to

Every field is written so that it can be read back, except that the lists carry no
lengths, an absent reason is written as an empty one, and a custom strategy is written as
its bare name. -/

namespace Degenbot.ExecutionEngine

open Library

/-- The arguments of `compute_plan_hash`. -/
structure HashedTuple where
  plan : ExecutionPlan
  policy : EnginePolicy
  sources : List SourceArtifact
  gates : List GateArtifact
  simulation : SimulationArtifact
  broadcast : BroadcastEnvelope
deriving DecidableEq

namespace HashedTuple

def preimage (t : HashedTuple) : List UInt8 :=
  planPreimage t.plan t.policy t.sources t.gates t.simulation t.broadcast

/-- The engine composes a job from the tuple. -/
def Accepted (keccak256 : List UInt8 → B256) (t : HashedTuple) : Prop :=
  ∃ nowMs job, composeEngineJob keccak256 t.plan t.policy t.sources t.gates t.simulation nowMs =
    .ok job ∧ job.broadcast = t.broadcast

/-- The four lists are as long as those of the other tuple. -/
structure SameLengths (t t' : HashedTuple) : Prop where
  targets : t.policy.allowedTargets.length = t'.policy.allowedTargets.length
  lanes : t.policy.allowedLanes.length = t'.policy.allowedLanes.length
  sources : t.sources.length = t'.sources.length
  gates : t.gates.length = t'.gates.length

end HashedTuple

/-! ## Spelling -/

/-- An empty reason counts as absent. -/
def spelledReason (reason : Option Text) : Option Text := reason.filter fun r => r.value ≠ ""

def StrategyKind.builtIn : List StrategyKind :=
  [nativeArb, internalMatch, fourLeg, uniswapXFlashFill, acrossIntentFill, morphoLiquidation,
    oracleUpdateSandwich, oneInchFusionGap]

/-- A custom strategy with the wire name of a built-in one counts as that one. -/
def StrategyKind.spelled (strategy : StrategyKind) : StrategyKind :=
  (builtIn.find? fun k => k.asWire = strategy.asWire).getD strategy

def GateArtifact.spelled (gate : GateArtifact) : GateArtifact :=
  { gate with reason := spelledReason gate.reason }

/-- The tuple up to the two spellings that the hash does not tell apart. -/
def HashedTuple.spelled (t : HashedTuple) : HashedTuple :=
  { t with
    plan := { t.plan with strategy := t.plan.strategy.spelled }
    gates := t.gates.map GateArtifact.spelled
    simulation := { t.simulation with revertReason := spelledReason t.simulation.revertReason } }

theorem Text.ext_value {a b : Text} (h : a.value = b.value) : a = b := by
  cases a
  cases b
  simpa using h

theorem reasonOrEmpty_eq_iff {a b : Option Text} :
    reasonOrEmpty a = reasonOrEmpty b ↔ spelledReason a = spelledReason b := by
  have hspelled : ∀ r : Option Text,
      (spelledReason r = none ∧ reasonOrEmpty r = "") ∨
        ∃ t : Text, spelledReason r = some t ∧ t.value = reasonOrEmpty r ∧ t.value ≠ "" := by
    intro r
    cases r with
    | none => exact .inl ⟨rfl, rfl⟩
    | some t =>
        by_cases ht : t.value = ""
        · exact .inl ⟨by simp [spelledReason, ht], by simpa [reasonOrEmpty] using ht⟩
        · exact .inr ⟨t, by simp [spelledReason, Option.filter, ht], rfl, ht⟩
  rcases hspelled a with ⟨ha, ha'⟩ | ⟨ta, ha, ha', hne⟩ <;>
    rcases hspelled b with ⟨hb, hb'⟩ | ⟨tb, hb, hb', hne'⟩
  · simp [ha, hb, ha', hb']
  · rw [ha, hb, ha', ← hb']
    exact iff_of_false (Ne.symm hne') (by simp)
  · rw [ha, hb, hb', ← ha']
    exact iff_of_false hne (by simp)
  · rw [ha, hb, ← ha', ← hb', Option.some.injEq]
    exact ⟨Text.ext_value, congrArg Text.value⟩

theorem StrategyKind.mem_builtIn_or_custom (strategy : StrategyKind) :
    strategy ∈ builtIn ∨ ∃ value, strategy = custom value := by
  cases strategy with
  | custom value => exact .inr ⟨value, rfl⟩
  | _ => exact .inl (by simp [builtIn])

theorem StrategyKind.asWire_spelled (strategy : StrategyKind) :
    strategy.spelled.asWire = strategy.asWire := by
  unfold spelled
  cases hfind : builtIn.find? fun k => k.asWire = strategy.asWire with
  | none => rfl
  | some k => simpa using List.find?_some hfind

theorem StrategyKind.asWire_eq_iff {a b : StrategyKind} :
    a.asWire = b.asWire ↔ a.spelled = b.spelled := by
  constructor
  · intro h
    unfold spelled
    rw [h]
    cases hfind : builtIn.find? fun k => k.asWire = b.asWire with
    | some k => rfl
    | none =>
        -- neither is built in, so both are their own wire name
        have hcustom : ∀ k : StrategyKind, k.asWire = b.asWire → ∃ value, k = custom value := by
          intro k hk
          rcases k.mem_builtIn_or_custom with hmem | hcustom
          · have := List.find?_eq_none.mp hfind k hmem
            simp [hk] at this
          · exact hcustom
        obtain ⟨va, rfl⟩ := hcustom a h
        obtain ⟨vb, rfl⟩ := hcustom b rfl
        exact congrArg custom (Text.ext_value h)
  · intro h
    rw [← asWire_spelled a, h, asWire_spelled]

/-! ## Fields -/

theorem u64Bytes_reads : Reads (fun n : UInt64 => u64Bytes n.toNat) id := by
  refine Reads.of_length (fun n => length_beBytes 8 n.toNat) fun n m h => ?_
  exact UInt64.toNat_inj.mp (beBytes_inj n.toNat_lt m.toNat_lt h)

theorem targetBytes_reads : Reads targetBytes id := by
  refine Reads.of_length (fun a => length_beBytes 20 a.toNat) fun a b h => ?_
  exact BitVec.eq_of_toNat_eq (beBytes_inj a.isLt b.isLt h)

theorem boolByte_reads : Reads boolByte id := by
  refine Reads.of_length (fun _ => rfl) fun a b h => ?_
  revert h
  cases a <;> cases b <;> decide

theorem pushBytes_reads {α : Type} {payload : α → List UInt8}
    (hlength : ∀ a, (payload a).length < 2 ^ 64) :
    Reads (fun a => pushBytes (payload a)) payload := by
  refine Reads.length_before ?_ fun _ _ => id
  refine Reads.of_length (fun a => length_beBytes 8 _) fun a b h => ?_
  exact beBytes_inj (hlength a) (hlength b) h

theorem strBytes_inj {a b : String} (h : strBytes a = strBytes b) : a = b := by
  apply String.toByteArray_inj.mp
  exact ByteArray.ext (Array.toList_inj.mp h)

theorem pushStr_reads {α : Type} {text : α → String}
    (hsize : ∀ a, (text a).utf8ByteSize < 2 ^ 64) : Reads (fun a => pushStr (text a)) text :=
  Reads.coarsen (pushBytes_reads fun a => hsize a) fun _ _ => strBytes_inj

theorem utf8ByteSize_repr_le {n k : ℕ} (hk : 0 < k) (h : n < 10 ^ k) :
    n.repr.utf8ByteSize ≤ k := by
  have hdigit : ∀ d < 10, (Nat.repr d).utf8ByteSize = 1 := by decide
  induction k, hk using Nat.le_induction generalizing n with
  | base => exact (hdigit n h).le
  | succ k hk ih =>
      rcases Nat.lt_or_ge n 10 with hlt | hge
      · rw [hdigit n hlt]
        omega
      · have hrest : n / 10 < 10 ^ k := by
          rw [pow_succ] at h
          omega
        rw [Nat.repr_eq_repr_append_repr hge, String.utf8ByteSize_append,
          hdigit _ (Nat.mod_lt _ (by norm_num))]
        exact Nat.succ_le_succ (ih hrest)

theorem utf8ByteSize_u256_lt (n : U256) : (toString n.toNat).utf8ByteSize < 2 ^ 64 := by
  have hdigits : n.toNat < 10 ^ 78 := n.isLt.trans (by norm_num)
  exact (utf8ByteSize_repr_le (by norm_num) hdigits).trans_lt (by norm_num)

theorem toString_inj {n m : ℕ} (h : toString n = toString m) : n = m := by
  have hdigits : Nat.toDigits 10 n = Nat.toDigits 10 m := by
    rw [← Nat.toList_repr, ← Nat.toList_repr]
    exact congrArg String.toList h
  have hread : ∀ k, Nat.ofDigitChars 10 (Nat.toDigits 10 k) 0 = k :=
    fun k => Nat.ofDigitChars_toDigits (by decide) le_rfl
  rw [← hread n, hdigits, hread]

theorem pushU256_reads : Reads (fun n : U256 => pushU256 n.toNat) id := by
  refine Reads.coarsen (pushStr_reads utf8ByteSize_u256_lt) ?_
  intro a b h
  exact BitVec.eq_of_toNat_eq (toString_inj h)

theorem pushText_reads : Reads (fun t : Text => pushStr t.value) id :=
  Reads.coarsen (pushStr_reads Text.size_lt) fun _ _ => Text.ext_value

theorem calldata_reads : Reads (fun bytes : Bytes => pushBytes bytes.data) id := by
  refine Reads.coarsen (pushBytes_reads Bytes.length_lt) fun a b h => ?_
  cases a
  cases b
  simpa using h

theorem laneBytes_reads : Reads laneBytes id := by
  refine Reads.coarsen (pushStr_reads fun lane : BroadcastLane => ?_) fun a b => ?_
  · cases lane <;> decide
  · cases a <;> cases b <;> decide

theorem strategy_reads :
    Reads (fun k : StrategyKind => pushStr k.asWire) StrategyKind.spelled := by
  refine Reads.coarsen (pushStr_reads fun k : StrategyKind => ?_)
    fun _ _ => StrategyKind.asWire_eq_iff.mp
  cases k with
  | custom value => exact value.size_lt
  | _ => decide

theorem reason_reads : Reads (fun r : Option Text => pushStr (reasonOrEmpty r)) spelledReason := by
  refine Reads.coarsen (pushStr_reads fun r : Option Text => ?_)
    fun _ _ => reasonOrEmpty_eq_iff.mp
  cases r with
  | none => decide
  | some t => exact t.size_lt

/-! ## Records -/

theorem planBytes_reads :
    Reads planBytes fun plan => { plan with strategy := plan.strategy.spelled } := by
  have hfields := pushText_reads.comp ExecutionPlan.traceId
    |>.append (strategy_reads.comp ExecutionPlan.strategy)
    |>.append (u64Bytes_reads.comp ExecutionPlan.chainId)
    |>.append (targetBytes_reads.comp ExecutionPlan.target)
    |>.append (calldata_reads.comp ExecutionPlan.calldata)
    |>.append (pushU256_reads.comp ExecutionPlan.value)
    |>.append (u64Bytes_reads.comp ExecutionPlan.gasLimit)
    |>.append (pushU256_reads.comp ExecutionPlan.maxFeePerGas)
    |>.append (pushU256_reads.comp ExecutionPlan.maxPriorityFeePerGas)
    |>.append (u64Bytes_reads.comp ExecutionPlan.deadlineMs)
    |>.append (targetBytes_reads.comp ExecutionPlan.profitToken)
    |>.append (pushU256_reads.comp ExecutionPlan.minProfitWei)
    |>.append (boolByte_reads.comp ExecutionPlan.requirePreflight)
    |>.append (boolByte_reads.comp ExecutionPlan.dryRun)
    |>.append (laneBytes_reads.comp ExecutionPlan.broadcastLane)
  refine Reads.coarsen hfields fun a b h => ?_
  simp only [id, Prod.mk.injEq] at h
  obtain ⟨⟨⟨⟨⟨⟨⟨⟨⟨⟨⟨⟨⟨⟨htrace, hstrategy⟩, hchain⟩, htarget⟩, hcalldata⟩, hvalue⟩, hgas⟩, hfee⟩,
    hpriority⟩, hdeadline⟩, htoken⟩, hprofit⟩, hpreflight⟩, hdry⟩, hlane⟩ := h
  cases a
  cases b
  simp_all

theorem policyBytes_reads :
    Reads policyBytes fun policy => { policy with allowedTargets := [], allowedLanes := [] } := by
  have hfields := u64Bytes_reads.comp EnginePolicy.expectedChainId
    |>.append (pushU256_reads.comp EnginePolicy.minProfitWei)
    |>.append (u64Bytes_reads.comp EnginePolicy.maxGasLimit)
    |>.append (boolByte_reads.comp EnginePolicy.requirePreflight)
    |>.append (boolByte_reads.comp EnginePolicy.requireLiveSources)
    |>.append (u64Bytes_reads.comp EnginePolicy.minGateCount)
    |>.append (u64Bytes_reads.comp EnginePolicy.minDeadlineMsFromNow)
  refine Reads.coarsen hfields fun a b h => ?_
  simp only [id, Prod.mk.injEq] at h
  simp [h]

theorem sourceBytes_reads : Reads sourceBytes id := by
  have hfields := pushText_reads.comp SourceArtifact.name
    |>.append (u64Bytes_reads.comp SourceArtifact.blockNumber)
    |>.append (u64Bytes_reads.comp SourceArtifact.observedAtNs)
  refine Reads.coarsen hfields fun a b h => ?_
  simp only [id, Prod.mk.injEq] at h
  cases a
  cases b
  simp_all

theorem gateBytes_reads : Reads gateBytes GateArtifact.spelled := by
  have hfields := pushText_reads.comp GateArtifact.name
    |>.append (boolByte_reads.comp GateArtifact.admitted)
    |>.append (reason_reads.comp GateArtifact.reason)
  refine Reads.coarsen hfields fun a b h => ?_
  simp only [id, Prod.mk.injEq] at h
  simp [GateArtifact.spelled, h]

theorem simulationBytes_reads :
    Reads simulationBytes fun simulation =>
      { simulation with revertReason := spelledReason simulation.revertReason } := by
  have hfields := boolByte_reads.comp SimulationArtifact.success
    |>.append (pushU256_reads.comp SimulationArtifact.expectedProfitWei)
    |>.append (u64Bytes_reads.comp SimulationArtifact.gasUsed)
    |>.append (u64Bytes_reads.comp SimulationArtifact.stateReadCount)
    |>.append (reason_reads.comp SimulationArtifact.revertReason)
  refine Reads.coarsen hfields fun a b h => ?_
  simp only [id, Prod.mk.injEq] at h
  simp [h]

theorem broadcastBytes_reads : Reads broadcastBytes id := by
  have hfields := laneBytes_reads.comp BroadcastEnvelope.lane
    |>.append (boolByte_reads.comp BroadcastEnvelope.submit)
    |>.append (boolByte_reads.comp BroadcastEnvelope.privateSubmission)
    |>.append (boolByte_reads.comp BroadcastEnvelope.requirePreflight)
  refine Reads.coarsen hfields fun a b h => ?_
  simp only [id, Prod.mk.injEq] at h
  cases a
  cases b
  simp_all

/-! ## Whole tuples -/

theorem preimage_spelled (t : HashedTuple) : t.spelled.preimage = t.preimage := by
  have hreason : ∀ r, reasonOrEmpty (spelledReason r) = reasonOrEmpty r := by
    intro r
    rw [reasonOrEmpty_eq_iff]
    simp [spelledReason, Option.filter_filter]
  have hgates : (t.gates.map GateArtifact.spelled).flatMap gateBytes =
      t.gates.flatMap gateBytes := by
    rw [List.flatMap_map]
    congr 1
    funext gate
    simp [gateBytes, GateArtifact.spelled, hreason]
  simp only [HashedTuple.preimage, HashedTuple.spelled, planPreimage, planBytes, simulationBytes,
    StrategyKind.asWire_spelled, hreason, hgates]

theorem preimage_eq_iff {t t' : HashedTuple} (hlengths : t.SameLengths t') :
    t.preimage = t'.preimage ↔ t.spelled = t'.spelled := by
  constructor
  · intro h
    simp only [HashedTuple.preimage, planPreimage, List.append_assoc] at h
    have h := List.append_cancel_left h
    obtain ⟨hplan, h⟩ := planBytes_reads _ _ _ _ h
    obtain ⟨hpolicy, h⟩ := policyBytes_reads _ _ _ _ h
    obtain ⟨htargets, h⟩ := targetBytes_reads.flatMap hlengths.targets h
    obtain ⟨hlanes, h⟩ := laneBytes_reads.flatMap hlengths.lanes h
    obtain ⟨hsources, h⟩ := sourceBytes_reads.flatMap hlengths.sources h
    obtain ⟨hgates, h⟩ := gateBytes_reads.flatMap hlengths.gates h
    obtain ⟨hsimulation, h⟩ := simulationBytes_reads _ _ _ _ h
    obtain ⟨hbroadcast, -⟩ := broadcastBytes_reads _ _ [] [] (by simpa using h)
    simp only [List.map_id] at htargets hlanes hsources
    have hpolicy' : t.policy = t'.policy := by
      cases hp : t.policy
      cases hp' : t'.policy
      simp_all
    simp only [HashedTuple.spelled, hplan, hpolicy', hsources, hgates, hsimulation, id] at hbroadcast ⊢
    rw [hbroadcast]
  · intro h
    rw [← preimage_spelled t, h, preimage_spelled]

/-- Among tuples with equally long lists, two that differ are hashed differently exactly
when they differ in more than spelling. -/
theorem preimage_injective_iff {t t' : HashedTuple} (hlengths : t.SameLengths t') :
    (t ≠ t' → t.preimage ≠ t'.preimage) ↔ (t.spelled = t'.spelled → t = t') := by
  rw [ne_eq, ne_eq, preimage_eq_iff hlengths, not_imp_not]

/-! ## Instances -/

/-- A dry run without targets, lanes, sources or gates. -/
def bareTuple : HashedTuple where
  plan :=
    { traceId := ⟨"trace", by decide⟩, strategy := .nativeArb, chainId := 42161, target := 1
      calldata := ⟨[1, 2, 3, 4], by decide⟩, value := 0, gasLimit := 500000
      maxFeePerGas := 2, maxPriorityFeePerGas := 1, deadlineMs := 1000, profitToken := 2
      minProfitWei := 5, requirePreflight := true, dryRun := true, broadcastLane := .kairos }
  policy :=
    { expectedChainId := 42161, minProfitWei := 5, maxGasLimit := 1000000
      requirePreflight := true, requireLiveSources := false, minGateCount := 0
      minDeadlineMsFromNow := 100, allowedTargets := [], allowedLanes := [] }
  sources := []
  gates := []
  simulation :=
    { success := true, expectedProfitWei := 7, gasUsed := 21000, stateReadCount := 3
      revertReason := none }
  broadcast := ⟨.kairos, false, true, true⟩

/-- A tuple with two allowed targets, one lane, two sources and two gates, the second of them
shut for a reason; the simulation reverts. -/
def listedTuple : HashedTuple :=
  { bareTuple with
    policy.allowedTargets := [1, 9]
    policy.allowedLanes := [.kairos]
    sources := [⟨⟨"pool", by decide⟩, 100, 2000⟩, ⟨⟨"oracle", by decide⟩, 101, 2500⟩]
    gates := [⟨⟨"risk", by decide⟩, true, none⟩,
      ⟨⟨"balance", by decide⟩, false, some ⟨"low", by decide⟩⟩]
    simulation.success := false
    simulation.revertReason := some ⟨"STF", by decide⟩ }

/-- The same tuple with the second gate shut for another reason. -/
def listedTuple' : HashedTuple :=
  { listedTuple with
    gates := [⟨⟨"risk", by decide⟩, true, none⟩,
      ⟨⟨"balance", by decide⟩, false, some ⟨"stale", by decide⟩⟩] }

theorem preimage_injective_listed : listedTuple.preimage ≠ listedTuple'.preimage := by
  have hlengths : listedTuple.SameLengths listedTuple' := ⟨rfl, rfl, rfl, rfl⟩
  exact (preimage_injective_iff hlengths).mpr (by decide) (by decide)

/-- One source in place of one gate: the block number and the time of the source spell the
admission and the reason of the gate. -/
theorem preimage_source_as_gate :
    ∃ t t' : HashedTuple, t.Accepted beValue ∧ t'.Accepted beValue ∧ t ≠ t' ∧
      t.preimage = t'.preimage := by
  refine ⟨{ bareTuple with sources := [⟨⟨"pool", by decide⟩, 0x0100000000000000, 0x076f6f6f6f6f6f6f⟩] },
    { bareTuple with gates := [⟨⟨"pool", by decide⟩, true, some ⟨"ooooooo", by decide⟩⟩] },
    ⟨0, _, rfl, rfl⟩, ⟨0, _, rfl, rfl⟩, by decide, by decide +kernel⟩

end Degenbot.ExecutionEngine
