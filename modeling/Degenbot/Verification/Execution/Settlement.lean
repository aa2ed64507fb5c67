import Degenbot.Algorithm.Executor
import Mathlib.Tactic

/-! # Settlements of one plan

Every run of the executor ends in one terminal settlement, and only a plan that passed
every gate is broadcast. -/

namespace Degenbot.Executor

/-! ## The contract -/

/-- `Submitted` is the only intermediate status. -/
def Settlement.Terminal (s : Settlement) : Prop := s.status ≠ .submitted

instance (s : Settlement) : Decidable s.Terminal := inferInstanceAs (Decidable (_ ≠ _))

def Event.settlement? : Event → Option Settlement
  | .emit s => some s
  | _ => none

def Event.isSignAndSubmit : Event → Bool
  | .signAndSubmit _ => true
  | _ => false

/-- The settlements of a trace, in the order of emission. -/
def settlements (trace : List Event) : List Settlement := trace.filterMap Event.settlement?

def broadcasts (trace : List Event) : ℕ := trace.countP Event.isSignAndSubmit

/-- One terminal settlement, with at most a `Submitted` right before it. -/
def OneTerminal (emitted : List Settlement) : Prop :=
  ∃ last, last.Terminal ∧ (emitted = [last] ∨
    ∃ submitted, submitted.status = .submitted ∧ emitted = [submitted, last])

/-- The bid of a plan fits its lane. -/
def Plan.LaneAccepts (plan : Plan) : Prop :=
  if plan.submissionLane = .timeboost then
    0 < plan.timeboostBidWei.getD 0 ∧ (plan.timeboostBidWei.getD 0 : ℤ) <
      plan.expectedBalanceDeltaFloor
  else plan.timeboostBidWei.getD 0 = 0

/-- The gates before a broadcast, given what happened before it. -/
structure Plan.MayBroadcast (plan : Plan) (before : List Event) : Prop where
  live : plan.dryRun = false
  admitted : ∃ hash, plan.admissionHash = some hash ∧ hash ≠ 0
  lane : plan.LaneAccepts
  preflight : plan.requirePreflight = true →
    ∃ delta, Event.preflight (.ok delta) ∈ before ∧ plan.expectedBalanceDeltaFloor ≤ delta

/-- The events before the first broadcast. -/
def beforeBroadcast (trace : List Event) : List Event :=
  trace.takeWhile fun e => !e.isSignAndSubmit

/-! ## Traces -/

section Traces

variable {s : Settlement} {trace : List Event}

@[simp] theorem settlements_emit :
    settlements (.emit s :: trace) = s :: settlements trace := rfl

@[simp] theorem settlements_preflight {result : Except PreflightError ℤ} :
    settlements (.preflight result :: trace) = settlements trace := rfl

@[simp] theorem settlements_signAndSubmit {result : Except SubmitError B256} :
    settlements (.signAndSubmit result :: trace) = settlements trace := rfl

@[simp] theorem settlements_awaitInclusion {result : Except InclusionError InclusionOutcome} :
    settlements (.awaitInclusion result :: trace) = settlements trace := rfl

@[simp] theorem settlements_nil : settlements [] = [] := rfl

@[simp] theorem broadcasts_signAndSubmit {result : Except SubmitError B256} :
    broadcasts (.signAndSubmit result :: trace) = broadcasts trace + 1 :=
  List.countP_cons_of_pos rfl

theorem broadcasts_cons_of_not {e : Event} (h : e.isSignAndSubmit = false) :
    broadcasts (e :: trace) = broadcasts trace := by
  simp [broadcasts, h]

@[simp] theorem broadcasts_emit : broadcasts (.emit s :: trace) = broadcasts trace :=
  broadcasts_cons_of_not rfl

@[simp] theorem broadcasts_preflight {result : Except PreflightError ℤ} :
    broadcasts (.preflight result :: trace) = broadcasts trace := broadcasts_cons_of_not rfl

@[simp] theorem broadcasts_awaitInclusion {result : Except InclusionError InclusionOutcome} :
    broadcasts (.awaitInclusion result :: trace) = broadcasts trace := broadcasts_cons_of_not rfl

@[simp] theorem broadcasts_nil : broadcasts [] = 0 := rfl

theorem oneTerminal_single (h : s.Terminal) : OneTerminal [s] := ⟨s, h, .inl rfl⟩

end Traces

/-! ## Stages -/

theorem terminal_mk {plan : Plan} {status : SettlementStatus} {txHash : Option B256}
    {ts : Timestamps} {extras : SettlementExtras} (h : status ≠ .submitted) :
    (mk plan status txHash ts extras).Terminal := h

theorem awaitInclusion_settles (env : Env) (plan : Plan) (txHash : B256)
    (timestamps : Timestamps) :
    (∃ last : Settlement, last.Terminal ∧
      settlements (awaitInclusion env plan txHash timestamps) = [last]) ∧
      broadcasts (awaitInclusion env plan txHash timestamps) = 0 := by
  refine ⟨⟨_, ?_, rfl⟩, by simp [awaitInclusion]⟩
  cases env.backend.awaitInclusion txHash plan.deadlineMs with
  | error err => exact terminal_mk (by decide)
  | ok outcome =>
      cases outcome with
      | mined receipt =>
          refine terminal_mk ?_
          split <;> decide
      | replaced => exact terminal_mk (by decide)
      | dropped => exact terminal_mk (by decide)

theorem broadcast_settles (env : Env) (plan : Plan) (timestamps : Timestamps) :
    OneTerminal (settlements (broadcast env plan timestamps)) ∧
      broadcasts (broadcast env plan timestamps) = 1 := by
  unfold broadcast
  cases env.backend.signAndSubmit plan with
  | error err => exact ⟨oneTerminal_single (terminal_mk (by decide)), by simp⟩
  | ok txHash =>
      let sentAt := { timestamps with broadcastNs := some env.broadcastNs }
      obtain ⟨⟨last, hlast, hsettlements⟩, hnone⟩ := awaitInclusion_settles env plan txHash sentAt
      refine ⟨⟨last, hlast, .inr ⟨mk plan .submitted (some txHash) sentAt {}, rfl, ?_⟩⟩, ?_⟩
      · simp only [settlements_signAndSubmit, settlements_emit]
        rw [hsettlements]
      · simp only [broadcasts_signAndSubmit, broadcasts_emit]
        rw [hnone]

/-- Only a live plan is broadcast from here, and nothing precedes the broadcast. -/
theorem afterPreflight_settles (env : Env) (plan : Plan) (timestamps : Timestamps) :
    OneTerminal (settlements (afterPreflight env plan timestamps)) ∧
      broadcasts (afterPreflight env plan timestamps) ≤ 1 ∧
      (0 < broadcasts (afterPreflight env plan timestamps) → plan.dryRun = false) := by
  unfold afterPreflight
  by_cases hdry : plan.dryRun = true
  · rw [if_pos hdry]
    exact ⟨oneTerminal_single (terminal_mk (by decide)), by simp, by simp⟩
  · rw [if_neg hdry]
    by_cases hlimit : env.rateLimiter = some false
    · rw [if_pos hlimit]
      exact ⟨oneTerminal_single (terminal_mk (by decide)), by simp, by simp⟩
    · rw [if_neg hlimit]
      obtain ⟨hsettles, hone⟩ := broadcast_settles env plan timestamps
      exact ⟨hsettles, hone.le, fun _ => by simpa using hdry⟩

theorem preflight_settles (env : Env) (plan : Plan) (timestamps : Timestamps) :
    OneTerminal (settlements (preflight env plan timestamps)) ∧
      broadcasts (preflight env plan timestamps) ≤ 1 ∧
      (0 < broadcasts (preflight env plan timestamps) → plan.dryRun = false ∧
        ∃ delta, Event.preflight (.ok delta) ∈ beforeBroadcast (preflight env plan timestamps) ∧
          plan.expectedBalanceDeltaFloor ≤ delta) := by
  unfold preflight
  cases env.backend.preflight plan with
  | error err => exact ⟨oneTerminal_single (terminal_mk (by decide)), by simp, by simp⟩
  | ok delta =>
      simp only [settlements_preflight, broadcasts_preflight]
      by_cases hfloor : delta < plan.expectedBalanceDeltaFloor
      · rw [if_pos hfloor]
        exact ⟨oneTerminal_single (terminal_mk (by decide)), by simp, by simp⟩
      · rw [if_neg hfloor]
        obtain ⟨hsettles, hone, hlive⟩ := afterPreflight_settles env plan
          { timestamps with preflightNs := some env.preflightNs }
        refine ⟨hsettles, hone, fun hpos => ⟨hlive hpos, delta, ?_, not_lt.mp hfloor⟩⟩
        simp [beforeBroadcast, Event.isSignAndSubmit]

/-! ## The submission policy -/

theorem validateSubmissionPolicy_ok {plan : Plan} (hlive : plan.dryRun = false)
    (h : validateSubmissionPolicy plan = .ok ()) :
    (∃ hash, plan.admissionHash = some hash ∧ hash ≠ 0) ∧ plan.LaneAccepts := by
  unfold validateSubmissionPolicy at h
  rw [if_neg (by simp [hlive])] at h
  by_cases hhash : plan.admissionHash.getD 0 = 0
  · rw [if_pos hhash] at h
    cases h
  rw [if_neg hhash] at h
  refine ⟨?_, ?_⟩
  · cases hadmission : plan.admissionHash with
    | none => simp [hadmission] at hhash
    | some hash => exact ⟨hash, rfl, by simpa [hadmission] using hhash⟩
  · unfold Plan.LaneAccepts
    cases hlane : plan.submissionLane <;> simp only [hlane, reduceCtorEq, ↓reduceIte] at h ⊢
    case timeboost =>
      split_ifs at h with hbid hfloor hbelow
      omega
    all_goals
      split_ifs at h with hbid
      omega

/-! ## Main result -/

/-- Every plan ends in exactly one terminal settlement, and is broadcast at most once and
only through every gate. -/
theorem runOnePlan_settles (env : Env) (plan : Plan) :
    OneTerminal (settlements (runOnePlan env plan)) ∧
      broadcasts (runOnePlan env plan) ≤ 1 ∧
      (0 < broadcasts (runOnePlan env plan) →
        plan.MayBroadcast (beforeBroadcast (runOnePlan env plan))) ∧
      (plan.dryRun = true → broadcasts (runOnePlan env plan) = 0) := by
  -- a broadcast of a dry run would have to be live
  suffices h : OneTerminal (settlements (runOnePlan env plan)) ∧
      broadcasts (runOnePlan env plan) ≤ 1 ∧
      (0 < broadcasts (runOnePlan env plan) →
        plan.MayBroadcast (beforeBroadcast (runOnePlan env plan))) by
    refine ⟨h.1, h.2.1, h.2.2, fun hdry => ?_⟩
    by_contra hne
    have hlive := (h.2.2 (Nat.pos_of_ne_zero hne)).live
    rw [hdry] at hlive
    cases hlive
  unfold runOnePlan
  by_cases hdeadline : plan.deadlineMs < env.receivedNs / 1000000
  · simp only [if_pos hdeadline]
    exact ⟨oneTerminal_single (terminal_mk (by decide)), by simp, by simp⟩
  simp only [if_neg hdeadline]
  cases hpolicy : validateSubmissionPolicy plan with
  | error reason => exact ⟨oneTerminal_single (terminal_mk (by decide)), by simp, by simp⟩
  | ok accepted =>
      by_cases hrequired : plan.dryRun = true ∨ plan.requirePreflight = true
      · simp only [if_pos hrequired]
        obtain ⟨hsettles, hone, hgates⟩ :=
          preflight_settles env plan { receivedNs := env.receivedNs }
        refine ⟨hsettles, hone, fun hpos => ?_⟩
        obtain ⟨hlive, hdelta⟩ := hgates hpos
        obtain ⟨hadmitted, hlane⟩ := validateSubmissionPolicy_ok hlive hpolicy
        exact ⟨hlive, hadmitted, hlane, fun _ => hdelta⟩
      · simp only [if_neg hrequired]
        obtain ⟨hsettles, hone, hgates⟩ :=
          afterPreflight_settles env plan { receivedNs := env.receivedNs }
        refine ⟨hsettles, hone, fun hpos => ?_⟩
        have hlive := hgates hpos
        obtain ⟨hadmitted, hlane⟩ := validateSubmissionPolicy_ok hlive hpolicy
        exact ⟨hlive, hadmitted, hlane, fun hrequire => absurd (.inr hrequire) hrequired⟩

end Degenbot.Executor

/-! ## The deadline of a broadcast

A run compares the deadline with the time at which the plan was received, once. The steps
between that comparison and the broadcast take any time. -/

namespace Degenbot.Executor

/-! ## Timed runs -/

/-- A backend and a limiter with the nanoseconds that each step of a run takes. The clock
never goes back, since a step takes a nonnegative time. -/
structure Schedule where
  backend : Backend
  rateLimiter : Option Bool
  receivedNs : ℕ
  policyNs : ℕ
  preflightNs : ℕ
  limiterNs : ℕ
  submitNs : ℕ
  inclusionNs : ℕ

namespace Schedule

variable (s : Schedule) (plan : Plan)

/-- The clock after the policy gate and the preflight, if there is one. -/
def preflightDoneNs : ℕ :=
  s.receivedNs + s.policyNs +
    if plan.dryRun = true ∨ plan.requirePreflight = true then s.preflightNs else 0

/-- The clock when `sign_and_submit` is called, if it is. -/
def submitCalledNs : ℕ := s.preflightDoneNs plan + s.limiterNs

def env : Env where
  backend := s.backend
  receivedNs := s.receivedNs
  preflightNs := s.preflightDoneNs plan
  broadcastNs := s.submitCalledNs plan + s.submitNs
  includedNs := s.submitCalledNs plan + s.submitNs + s.inclusionNs
  rateLimiter := s.rateLimiter

/-- The times of the calls to `sign_and_submit`, in milliseconds. -/
def submitTimesMs : List ℕ :=
  ((runOnePlan (s.env plan) plan).filter Event.isSignAndSubmit).map fun _ =>
    s.submitCalledNs plan / 1000000

/-- No broadcast later than the deadline. -/
def KeepsDeadline : Prop := ∀ t ∈ s.submitTimesMs plan, t ≤ plan.deadlineMs

/-- A plan that every gate before the broadcast lets through. -/
structure PassesGates : Prop where
  received : s.receivedNs / 1000000 ≤ plan.deadlineMs
  policy : validateSubmissionPolicy plan = .ok ()
  live : plan.dryRun = false
  preflight : plan.requirePreflight = true →
    ∃ delta, s.backend.preflight plan = .ok delta ∧ plan.expectedBalanceDeltaFloor ≤ delta
  limiter : s.rateLimiter ≠ some false

end Schedule

/-! ## Which plans are broadcast -/

theorem afterPreflight_broadcasts_pos_iff (env : Env) (plan : Plan) (timestamps : Timestamps) :
    0 < broadcasts (afterPreflight env plan timestamps) ↔
      plan.dryRun = false ∧ env.rateLimiter ≠ some false := by
  unfold afterPreflight
  by_cases hdry : plan.dryRun = true
  · simp [hdry]
  · rw [if_neg hdry]
    by_cases hlimit : env.rateLimiter = some false
    · simp [hlimit]
    · rw [if_neg hlimit, (broadcast_settles env plan timestamps).2]
      simp [hdry, hlimit]

theorem preflight_broadcasts_pos_iff (env : Env) (plan : Plan) (timestamps : Timestamps) :
    0 < broadcasts (preflight env plan timestamps) ↔
      (∃ delta, env.backend.preflight plan = .ok delta ∧
        plan.expectedBalanceDeltaFloor ≤ delta) ∧
        plan.dryRun = false ∧ env.rateLimiter ≠ some false := by
  unfold preflight
  cases env.backend.preflight plan with
  | error err => simp
  | ok delta =>
      by_cases hfloor : delta < plan.expectedBalanceDeltaFloor
      · simp [hfloor]
      · simp [hfloor, afterPreflight_broadcasts_pos_iff, not_lt.mp hfloor]

theorem runOnePlan_broadcasts_pos_iff (s : Schedule) (plan : Plan) :
    0 < broadcasts (runOnePlan (s.env plan) plan) ↔ s.PassesGates plan := by
  unfold runOnePlan
  by_cases hdeadline : plan.deadlineMs < (s.env plan).receivedNs / 1000000
  · simp only [if_pos hdeadline, broadcasts_emit, broadcasts_nil, lt_irrefl, false_iff]
    intro hgates
    exact absurd hgates.received (not_le.mpr hdeadline)
  have hreceived : s.receivedNs / 1000000 ≤ plan.deadlineMs := not_lt.mp hdeadline
  simp only [if_neg hdeadline]
  cases hpolicy : validateSubmissionPolicy plan with
  | error reason =>
      simp only [broadcasts_emit, broadcasts_nil, lt_irrefl, false_iff]
      intro hgates
      rw [hgates.policy] at hpolicy
      cases hpolicy
  | ok accepted =>
      by_cases hrequired : plan.dryRun = true ∨ plan.requirePreflight = true
      · simp only [if_pos hrequired]
        rw [preflight_broadcasts_pos_iff]
        constructor
        · intro ⟨hdelta, hlive, hlimit⟩
          exact ⟨hreceived, hpolicy, hlive, fun _ => hdelta, hlimit⟩
        · intro hgates
          have hrequire : plan.requirePreflight = true := by simpa [hgates.live] using hrequired
          exact ⟨hgates.preflight hrequire, hgates.live, hgates.limiter⟩
      · simp only [if_neg hrequired]
        rw [afterPreflight_broadcasts_pos_iff]
        constructor
        · intro ⟨hlive, hlimit⟩
          exact ⟨hreceived, hpolicy, hlive, fun h => absurd (.inr h) hrequired, hlimit⟩
        · intro hgates
          exact ⟨hgates.live, hgates.limiter⟩

theorem mem_submitTimesMs {s : Schedule} {plan : Plan} {t : ℕ} :
    t ∈ s.submitTimesMs plan ↔
      s.PassesGates plan ∧ t = s.submitCalledNs plan / 1000000 := by
  rw [← runOnePlan_broadcasts_pos_iff, broadcasts, List.countP_pos_iff]
  simp only [Schedule.submitTimesMs, List.mem_map, List.mem_filter]
  constructor
  · rintro ⟨e, he, ht⟩
    exact ⟨⟨e, he⟩, ht.symm⟩
  · rintro ⟨⟨e, he⟩, ht⟩
    exact ⟨e, he, ht.symm⟩

/-! ## Main result -/

/-- The deadline is kept exactly when a gate stops the plan, or when the policy gate, the
preflight and the limiter together end in time. -/
theorem keepsDeadline_iff (s : Schedule) (plan : Plan) :
    s.KeepsDeadline plan ↔
      ¬s.PassesGates plan ∨ s.submitCalledNs plan / 1000000 ≤ plan.deadlineMs := by
  constructor
  · intro hkeeps
    by_cases hgates : s.PassesGates plan
    · exact .inr (hkeeps _ (mem_submitTimesMs.mpr ⟨hgates, rfl⟩))
    · exact .inl hgates
  · intro hcond t ht
    obtain ⟨hgates, rfl⟩ := mem_submitTimesMs.mp ht
    exact hcond.resolve_left (not_not.mpr hgates)

/-- A plan whose simulation ends five milliseconds after its deadline. -/
def latePlan : Plan where
  traceId := "late"
  admissionHash := some 1
  deadlineMs := 10
  requirePreflight := true
  expectedBalanceDeltaFloor := 1
  submissionLane := .default
  timeboostBidWei := none
  dryRun := false

def slowPreflight : Schedule where
  backend := ⟨fun _ => .ok 5, fun _ => .ok 7, fun _ _ => .ok .dropped⟩
  rateLimiter := none
  receivedNs := 9000000
  policyNs := 0
  preflightNs := 6000000
  limiterNs := 0
  submitNs := 0
  inclusionNs := 0

theorem slowPreflight_late : ¬slowPreflight.KeepsDeadline latePlan := by
  intro hkeeps
  have hlate := hkeeps 15 (by decide)
  exact absurd hlate (by decide)

end Degenbot.Executor
