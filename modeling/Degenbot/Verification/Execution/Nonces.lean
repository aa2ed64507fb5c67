import Degenbot.Algorithm.Nonce
import Degenbot.Library.Runs
import Mathlib.Tactic

/-! # Nonces handed out around a reconciliation

`reconcile` decides on the counter it has loaded and stores later. An `acquire` in between
may carry the counter past the value that is stored. -/

namespace Degenbot.NonceManager

open Library

/-- A store that lowers the counter, decided on the value that the counter still has. -/
def DecidedLower (s : State) (action : Action) : Prop :=
  ∃ call loaded value, action = .store call ∧ s.phase call = .reanchoring loaded value ∧
    value < s.inner ∧ loaded = s.inner

/-- At the end of the run no nonce was handed out twice, unless the counter was lowered on
the basis of its value at that moment. -/
def NeverTwice (initial : ℕ) (actions : List Action) : Prop :=
  ∀ s, Reaches step (.new initial) actions s → s.handedOut.Nodup ∨
    ∃ before action after s', actions = before ++ action :: after ∧
      Reaches step (.new initial) before s' ∧ DecidedLower s' action

/-- A store does not lower the counter, and an `acquire` does not wrap it. -/
def Keeps (s : State) : Action → Prop
  | .acquire => s.inner + 1 < u64Size
  | .store call => ∀ loaded value, s.phase call = .reanchoring loaded value → s.inner ≤ value
  | _ => True

/-! ## Steps -/

/-- What a step can do. -/
theorem step_cases {s s' : State} {action : Action} (h : step s action = some s') :
    (action = .acquire ∧ s' = s.acquire) ∨
    (∃ call loaded value, action = .store call ∧ s.phase call = .reanchoring loaded value ∧
      s' = (s.reset value).move call .done) ∨
    (∃ call phase, s' = s.move call phase ∧
      ∀ loaded value, phase = .reanchoring loaded value → loaded < value) := by
  cases action with
  | acquire =>
      left
      exact ⟨rfl, (Option.some.inj h).symm⟩
  | fetch call chain =>
      right
      right
      simp only [step] at h
      split at h
      · split at h
        · refine ⟨call, .fetched chain, (Option.some.inj h).symm, ?_⟩
          rintro loaded value ⟨⟩
        · cases h
      · cases h
  | fetchFailed call =>
      right
      right
      simp only [step] at h
      split at h
      · refine ⟨call, .failed, (Option.some.inj h).symm, ?_⟩
        rintro loaded value ⟨⟩
      · cases h
  | load call =>
      right
      right
      simp only [step] at h
      split at h
      case h_1 chain hphase =>
        refine ⟨call, _, (Option.some.inj h).symm, ?_⟩
        intro loaded value hreanchor
        unfold evaluate at hreanchor
        split at hreanchor
        case isTrue hlt =>
          cases hreanchor
          exact hlt
        case isFalse =>
          split at hreanchor <;> cases hreanchor
      case h_2 => cases h
  | store call =>
      right
      left
      simp only [step] at h
      split at h
      case h_1 loaded value hphase =>
        exact ⟨call, loaded, value, rfl, hphase, (Option.some.inj h).symm⟩
      case h_2 => cases h

/-- A decision raises the counter that it was based on. -/
def RaisesLoaded (s : State) : Prop :=
  ∀ call loaded value, s.phase call = .reanchoring loaded value → loaded < value

theorem RaisesLoaded.move {s : State} (h : RaisesLoaded s) {call : ℕ} {phase : Phase}
    (hphase : ∀ loaded value, phase = .reanchoring loaded value → loaded < value) :
    RaisesLoaded (s.move call phase) := by
  intro call' loaded value hcall'
  by_cases heq : call' = call
  · subst heq
    simp only [State.move, Function.update_self] at hcall'
    exact hphase loaded value hcall'
  · simp only [State.move, Function.update_of_ne heq] at hcall'
    exact h call' loaded value hcall'

theorem step_raisesLoaded {s s' : State} {action : Action} (hs : RaisesLoaded s)
    (h : step s action = some s') : RaisesLoaded s' := by
  obtain ⟨-, rfl⟩ | ⟨call, loaded, value, -, -, rfl⟩ | ⟨call, phase, rfl, hphase⟩ := step_cases h
  · exact hs
  · refine RaisesLoaded.move hs ?_
    rintro loaded value ⟨⟩
  · exact hs.move hphase

/-- No reconciliation lowers the counter knowingly. -/
theorem not_decidedLower {initial : ℕ} {actions : List Action} {s : State} {action : Action}
    (h : Reaches step (.new initial) actions s) : ¬DecidedLower s action := by
  have hraises : RaisesLoaded s := by
    refine h.invariant_of_step ?_ fun s input s' hs hstep => step_raisesLoaded hs hstep
    rintro call loaded value ⟨⟩
  rintro ⟨call, loaded, value, -, hphase, hlower, hloaded⟩
  have hlt := hraises call loaded value hphase
  omega

/-! ## Runs -/

/-- The counter is above every nonce handed out. -/
structure Above (s : State) : Prop where
  nodup : s.handedOut.Nodup
  lt_inner : ∀ n ∈ s.handedOut, n < s.inner

theorem step_above {s s' : State} {action : Action} (hs : Above s) (hkeeps : Keeps s action)
    (h : step s action = some s') : Above s' := by
  obtain ⟨hnodup, hlt⟩ := hs
  obtain ⟨rfl, rfl⟩ | ⟨call, loaded, value, rfl, hphase, rfl⟩ | ⟨call, phase, rfl, -⟩ :=
    step_cases h
  · have hinner : (s.inner + 1) % u64Size = s.inner + 1 := Nat.mod_eq_of_lt hkeeps
    refine ⟨List.nodup_cons.mpr ⟨fun hmem => Nat.lt_irrefl _ (hlt _ hmem), hnodup⟩, ?_⟩
    intro n hn
    simp only [State.acquire, List.mem_cons, hinner] at hn ⊢
    rcases hn with rfl | hn
    · exact Nat.lt_succ_self _
    · exact Nat.lt_succ_of_lt (hlt n hn)
  · refine ⟨hnodup, fun n hn => ?_⟩
    exact Nat.lt_of_lt_of_le (hlt n hn) (hkeeps loaded value hphase)
  · exact ⟨hnodup, hlt⟩

/-- While no store lowers the counter and no `acquire` wraps it, no nonce is handed out
twice. -/
theorem neverTwice_of_keeps (initial : ℕ) (actions : List Action)
    (hkeeps : AllSteps step (.new initial) Keeps actions) :
    AllStates step (.new initial) (fun s => s.handedOut.Nodup) actions ∧
      NeverTwice initial actions := by
  have hinit : Above (.new initial) := ⟨List.nodup_nil, by simp [State.new]⟩
  have habove := hkeeps.allStates hinit fun s action s' hs hk hstep => step_above hs hk hstep
  have hnodup : AllStates step (.new initial) (fun s => s.handedOut.Nodup) actions :=
    fun before after hsplit s hs => (habove before after hsplit s hs).nodup
  exact ⟨hnodup, fun s hs => .inl (hnodup actions [] (by simp) s hs)⟩

/-- The chain is at 7 when the counter is at 5. -/
def reconcileThenStore (between : List Action) : List Action :=
  [.fetch 0 7, .load 0] ++ between ++ [.store 0, .acquire]

theorem neverTwice_one_between :
    NeverTwice 5 (reconcileThenStore [.acquire]) := by
  have hkeeps : AllSteps step (.new 5) Keeps (reconcileThenStore [.acquire]) := by
    refine .cons trivial rfl (.cons trivial rfl (.cons ?_ rfl (.cons ?_ rfl
      (.cons ?_ rfl allSteps_nil))))
    · show 5 + 1 < u64Size
      decide
    · rintro loaded value ⟨⟩
      decide
    · show 7 + 1 < u64Size
      decide
  exact (neverTwice_of_keeps 5 _ hkeeps).2

/-- Three nonces are taken between the load and the store, and the third one again. -/
theorem handedOut_twice : ¬NeverTwice 5 (reconcileThenStore [.acquire, .acquire, .acquire]) := by
  intro hnever
  have hreaches : ∃ s, Reaches step (.new 5)
      (reconcileThenStore [.acquire, .acquire, .acquire]) s ∧ s.handedOut = [7, 7, 6, 5] :=
    ⟨_, rfl, rfl⟩
  obtain ⟨s, hs, hhanded⟩ := hreaches
  rcases hnever s hs with hnodup | ⟨before, action, after, s', -, hs', hlower⟩
  · rw [hhanded] at hnodup
    exact absurd hnodup (by decide)
  · exact not_decidedLower hs' hlower

end Degenbot.NonceManager

/-! ## Nonces of concurrent submissions

A nonce is taken before its transaction is sent, while the pending count that refreshes
the cache sees accepted transactions only. -/

namespace Degenbot.Nonce

namespace State

/-- A nonce that has left the cache: its transaction was accepted, or its call still
holds it. -/
def Taken (s : State) (n : ℕ) : Prop := n ∈ s.accepted ∨ ∃ call, s.phase call = .holding n

/-- The pending count is safe to read: no call holds an unsent nonce, and no accepted
nonce reaches the count. -/
structure Settled (s : State) : Prop where
  none_held : ∀ call n, s.phase call ≠ .holding n
  accepted_lt : ∀ n ∈ s.accepted, n < s.accepted.length

end State

/-- States reached by schedules that read the count only when it is safe. -/
inductive SettledRun : State → Prop where
  | init : SettledRun .init
  | step {s s' : State} {action : Action} : SettledRun s →
      (∀ call, action = .count call → s.Settled) → s.step action = some s' → SettledRun s'

/-! ## The invariant -/

/-- The phases in which a call owns the refresh lock. -/
def Phase.OwnsLock : Phase → Prop
  | .locked | .refreshing _ | .counted _ _ | .primed => True
  | _ => False

structure Inv (s : State) : Prop where
  accepted_nodup : s.accepted.Nodup
  held_new : ∀ call n, s.phase call = .holding n → n ∉ s.accepted
  held_unique : ∀ call call' n, s.phase call = .holding n → s.phase call' = .holding n →
    call = call'
  lt_pending : ∀ p, s.cache.pending = some p → ∀ n, s.Taken n → n < p
  owner : ∀ call, (s.phase call).OwnsLock → s.lock = some call
  refreshing : ∀ call r, s.phase call = .refreshing r → s.cache.pending = none
  counted : ∀ call r p, s.phase call = .counted r p → s.cache.pending = none ∧
    ∀ n, s.Taken n → n < p

theorem init_inv : Inv .init where
  accepted_nodup := List.nodup_nil
  held_new := by simp [State.init]
  held_unique := by simp [State.init]
  lt_pending := by simp [State.init, PendingNonceCache.new]
  owner := fun call h => h.elim
  refreshing := by simp [State.init]
  counted := by simp [State.init]

/-! ## Moves -/

section Moves

variable {s : State} {call : ℕ} {phase : Phase}

@[simp] theorem move_phase_self : (s.move call phase).phase call = phase :=
  Function.update_self ..

theorem move_phase_of_ne {call' : ℕ} (h : call' ≠ call) :
    (s.move call phase).phase call' = s.phase call' := Function.update_of_ne h ..

/-- A phase of the moved state is the new one or an old one. -/
theorem move_phase_eq {call' : ℕ} {phase' : Phase}
    (h : (s.move call phase).phase call' = phase') :
    (call' = call ∧ phase' = phase) ∨ (call' ≠ call ∧ s.phase call' = phase') := by
  by_cases hcall : call' = call
  · subst hcall
    rw [move_phase_self] at h
    exact .inl ⟨rfl, h.symm⟩
  · rw [move_phase_of_ne hcall] at h
    exact .inr ⟨hcall, h⟩

theorem taken_of_move (hphase : ∀ n, phase ≠ .holding n) {n : ℕ}
    (h : (s.move call phase).Taken n) : s.Taken n := by
  rcases h with h | ⟨call', h⟩
  · exact .inl h
  · rcases move_phase_eq h with ⟨_, heq⟩ | ⟨_, h⟩
    · exact absurd heq.symm (hphase n)
    · exact .inr ⟨call', h⟩

/-- A call that does not come to hold a nonce moves without touching the cache. -/
theorem move_inv (h : Inv s) (hphase : ∀ n, phase ≠ .holding n)
    (howner : phase.OwnsLock → s.lock = some call)
    (hrefreshing : ∀ r, phase = .refreshing r → s.cache.pending = none)
    (hcounted : ∀ r p, phase = .counted r p → s.cache.pending = none ∧
      ∀ n, s.Taken n → n < p) : Inv (s.move call phase) where
  accepted_nodup := h.accepted_nodup
  held_new call' n hheld := by
    rcases move_phase_eq hheld with ⟨_, heq⟩ | ⟨_, hheld⟩
    · exact absurd heq.symm (hphase n)
    · exact h.held_new call' n hheld
  held_unique call' call'' n hheld hheld' := by
    rcases move_phase_eq hheld with ⟨_, heq⟩ | ⟨_, hheld⟩
    · exact absurd heq.symm (hphase n)
    · rcases move_phase_eq hheld' with ⟨_, heq⟩ | ⟨_, hheld'⟩
      · exact absurd heq.symm (hphase n)
      · exact h.held_unique call' call'' n hheld hheld'
  lt_pending p hp n htaken := h.lt_pending p hp n (taken_of_move hphase htaken)
  owner call' howns := by
    by_cases hcall : call' = call
    · subst hcall
      rw [move_phase_self] at howns
      exact howner howns
    · rw [move_phase_of_ne hcall] at howns
      exact h.owner call' howns
  refreshing call' r hr := by
    rcases move_phase_eq hr with ⟨_, heq⟩ | ⟨_, hr⟩
    · exact hrefreshing r heq.symm
    · exact h.refreshing call' r hr
  counted call' r p hc := by
    rcases move_phase_eq hc with ⟨_, heq⟩ | ⟨_, hc⟩
    · obtain ⟨hnone, hlt⟩ := hcounted r p heq.symm
      exact ⟨hnone, fun n htaken => hlt n (taken_of_move hphase htaken)⟩
    · obtain ⟨hnone, hlt⟩ := h.counted call' r p hc
      exact ⟨hnone, fun n htaken => hlt n (taken_of_move hphase htaken)⟩

end Moves

/-! ## The cache and the lock -/

section Shared

variable {s : State} {call : ℕ}

/-- Emptying the cache is always safe. -/
theorem empty_inv (h : Inv s) {cache : PendingNonceCache} (hcache : cache.pending = none) :
    Inv { s with cache } where
  accepted_nodup := h.accepted_nodup
  held_new := h.held_new
  held_unique := h.held_unique
  lt_pending p hp := by simp [hcache] at hp
  owner := h.owner
  refreshing _ _ _ := hcache
  counted call r p hc := ⟨hcache, (h.counted call r p hc).2⟩

theorem unlock_inv (h : Inv s) (hnone : ∀ call, ¬(s.phase call).OwnsLock) : Inv s.unlock :=
  { h with owner := fun call howns => absurd howns (hnone call) }

/-- The owner of the lock releases it once it is past the refresh. -/
theorem releaseIfDone_inv (h : Inv s) (hlock : s.lock = some call) :
    Inv (s.releaseIfDone call) := by
  have hrelease : ¬(s.phase call).OwnsLock → Inv s.unlock := by
    intro hpast
    refine unlock_inv h fun call' howns => ?_
    have heq : call' = call := by simpa [hlock] using (h.owner call' howns).symm
    subst heq
    exact hpast howns
  unfold State.releaseIfDone
  split
  · next n hheld => exact hrelease (by simp [hheld, Phase.OwnsLock])
  · next hdone => exact hrelease (by simp [hdone, Phase.OwnsLock])
  · exact h

/-- The cached nonce goes to a call. -/
theorem hold_inv (h : Inv s) {n : ℕ} (hpending : s.cache.pending = some n)
    {cache : PendingNonceCache} (hcache : cache.pending = some (n + 1)) :
    Inv ({ s with cache }.move call (.holding n)) where
  accepted_nodup := h.accepted_nodup
  held_new call' m hheld hmem := by
    rcases move_phase_eq hheld with ⟨_, heq⟩ | ⟨_, hheld⟩
    · obtain rfl := Phase.holding.inj heq
      exact (h.lt_pending m hpending m (.inl hmem)).false
    · exact h.held_new call' m hheld hmem
  held_unique call' call'' m hheld hheld' := by
    -- the new holder has the cached nonce, every other one a smaller one
    have hlt : ∀ c, s.phase c ≠ .holding n :=
      fun c hc => (h.lt_pending n hpending n (.inr ⟨c, hc⟩)).false
    rcases move_phase_eq hheld with ⟨hcall, heq⟩ | ⟨_, hold⟩ <;>
      rcases move_phase_eq hheld' with ⟨hcall', heq'⟩ | ⟨_, hold'⟩
    · exact hcall.trans hcall'.symm
    · obtain rfl := Phase.holding.inj heq
      exact absurd hold' (hlt call'')
    · obtain rfl := Phase.holding.inj heq'
      exact absurd hold (hlt call')
    · exact h.held_unique call' call'' m hold hold'
  lt_pending p hp m htaken := by
    obtain rfl : n + 1 = p := by
      have hp : cache.pending = some p := hp
      rw [hcache] at hp
      exact Option.some.inj hp
    rcases htaken with hmem | ⟨call', hheld⟩
    · exact (h.lt_pending n hpending m (.inl hmem)).trans (Nat.lt_succ_self n)
    · rcases move_phase_eq hheld with ⟨_, heq⟩ | ⟨_, hheld⟩
      · obtain rfl := Phase.holding.inj heq
        exact Nat.lt_succ_self m
      · exact (h.lt_pending n hpending m (.inr ⟨call', hheld⟩)).trans (Nat.lt_succ_self n)
  owner call' howns := by
    by_cases hcall : call' = call
    · subst hcall
      rw [move_phase_self] at howns
      exact howns.elim
    · rw [move_phase_of_ne hcall] at howns
      exact h.owner call' howns
  refreshing call' r hr := by
    rcases move_phase_eq hr with ⟨_, heq⟩ | ⟨_, hr⟩
    · cases heq
    · have hnone := h.refreshing call' r hr
      rw [hpending] at hnone
      cases hnone
  counted call' r p hc := by
    rcases move_phase_eq hc with ⟨_, heq⟩ | ⟨_, hc⟩
    · cases heq
    · have hnone := (h.counted call' r p hc).1
      rw [hpending] at hnone
      cases hnone

theorem take_inv (h : Inv s) {now : ℕ} {missed : Phase} (hheld : ∀ n, missed ≠ .holding n)
    (hcounted : ∀ r p, missed ≠ .counted r p) (howner : missed.OwnsLock → s.lock = some call) :
    Inv (s.take call now missed) := by
  have hmissed : ∀ cache : PendingNonceCache, cache.pending = none →
      Inv ({ s with cache }.move call missed) := fun cache hcache =>
    move_inv (empty_inv h hcache) hheld howner (fun _ _ => hcache)
      fun r p heq => absurd heq (hcounted r p)
  unfold State.take PendingNonceCache.takeAndIncrementIfFresh
  cases hpending : s.cache.pending with
  | none => exact hmissed s.cache hpending
  | some n =>
      by_cases hstale : now - s.cache.lastRefreshUnixMs > nonceCacheTtlMs
      · simp only [if_pos hstale]
        exact hmissed _ rfl
      · simp only [if_neg hstale]
        exact hold_inv h hpending rfl

end Shared

/-! ## Steps -/

section Steps

variable {s : State} {call : ℕ}

theorem lock_inv (h : Inv s) (hfree : s.lock = none) :
    Inv ({ s with lock := some call }.move call .locked) := by
  have hnone : ∀ call', ¬(s.phase call').OwnsLock := by
    intro call' howns
    have hlock := h.owner call' howns
    rw [hfree] at hlock
    cases hlock
  have hset : Inv { s with lock := some call } :=
    { h with owner := fun call' howns => absurd howns (hnone call') }
  exact move_inv hset (by simp) (fun _ => rfl) (by simp) (by simp)

/-- The count of a settled state is above every nonce taken. -/
theorem count_inv (h : Inv s) {r : ℕ} (hphase : s.phase call = .refreshing r)
    (hsettled : s.Settled) : Inv (s.move call (.counted r s.accepted.length)) := by
  have hnone := h.refreshing call r hphase
  have hlock : s.lock = some call := h.owner call (by simp [hphase, Phase.OwnsLock])
  refine move_inv h (by simp) (fun _ => hlock) (by simp) ?_
  intro r' p heq
  obtain ⟨-, rfl⟩ := Phase.counted.inj heq
  refine ⟨hnone, fun n htaken => ?_⟩
  rcases htaken with hmem | ⟨call', hheld⟩
  · exact hsettled.accepted_lt n hmem
  · exact absurd hheld (hsettled.none_held call' n)

/-- A value above every nonce taken may enter the cache while no call is refreshing. -/
theorem fill_inv (h : Inv s) {cache : PendingNonceCache} {p : ℕ} (hcache : cache.pending = some p)
    (hlt : ∀ n, s.Taken n → n < p)
    (hidle : ∀ call, (∀ r, s.phase call ≠ .refreshing r) ∧ ∀ r q, s.phase call ≠ .counted r q) :
    Inv { s with cache } where
  accepted_nodup := h.accepted_nodup
  held_new := h.held_new
  held_unique := h.held_unique
  lt_pending p' hp n htaken := by
    have hp : cache.pending = some p' := hp
    rw [hcache] at hp
    obtain rfl := Option.some.inj hp
    exact hlt n htaken
  owner := h.owner
  refreshing call r hr := absurd hr ((hidle call).1 r)
  counted call r q hc := absurd hc ((hidle call).2 r q)

/-- Only the owner of the lock primes, so that no other call is refreshing. -/
theorem prime_inv (h : Inv s) {r p : ℕ} (hphase : s.phase call = .counted r p) :
    Inv ({ s with cache := s.cache.prime p r }.move call .primed) := by
  obtain ⟨_, hlt⟩ := h.counted call r p hphase
  have hlock : s.lock = some call := h.owner call (by simp [hphase, Phase.OwnsLock])
  have hmoved : Inv (s.move call .primed) :=
    move_inv h (by simp) (fun _ => hlock) (by simp) (by simp)
  have howner : ∀ call', ((s.move call .primed).phase call').OwnsLock → call' = call := by
    intro call' howns
    have hlock' : s.lock = some call' := hmoved.owner call' howns
    rw [hlock] at hlock'
    exact (Option.some.inj hlock').symm
  have hidle : ∀ call', (∀ r, (s.move call .primed).phase call' ≠ .refreshing r) ∧
      ∀ r q, (s.move call .primed).phase call' ≠ .counted r q := by
    intro call'
    constructor
    · intro r' hr
      obtain rfl := howner call' (by simp [hr, Phase.OwnsLock])
      simp at hr
    · intro r' q hc
      obtain rfl := howner call' (by simp [hc, Phase.OwnsLock])
      simp at hc
  exact fill_inv hmoved rfl (fun n htaken => hlt n (taken_of_move (by simp) htaken)) hidle

/-- An accepted nonce was held by its call alone. -/
theorem accept_inv (h : Inv s) {n : ℕ} (hphase : s.phase call = .holding n) :
    Inv ({ s with accepted := n :: s.accepted }.move call .done) := by
  have hmoved : Inv (s.move call .done) :=
    move_inv h (by simp) (fun howns => howns.elim) (by simp) (by simp)
  have htaken : ∀ m, ({ s with accepted := n :: s.accepted }.move call .done).Taken m →
      s.Taken m := by
    intro m hm
    rcases hm with hmem | ⟨call', hheld⟩
    · rcases List.mem_cons.mp hmem with rfl | hmem
      · exact .inr ⟨call, hphase⟩
      · exact .inl hmem
    · exact taken_of_move (by simp) (.inr ⟨call', hheld⟩)
  refine
    { accepted_nodup := List.nodup_cons.mpr ⟨h.held_new call n hphase, h.accepted_nodup⟩
      held_new := fun call' m hheld hmem => ?_
      held_unique := hmoved.held_unique
      lt_pending := fun p hp m hm => h.lt_pending p hp m (htaken m hm)
      owner := hmoved.owner
      refreshing := hmoved.refreshing
      counted := fun call' r p hc => ?_ }
  · rcases List.mem_cons.mp hmem with rfl | hmem
    · rcases move_phase_eq hheld with ⟨_, heq⟩ | ⟨hne, hold⟩
      · cases heq
      · exact hne (h.held_unique call' call m hold hphase)
    · exact hmoved.held_new call' m hheld hmem
  · rcases move_phase_eq hc with ⟨_, heq⟩ | ⟨_, hold⟩
    · cases heq
    · obtain ⟨hnone, hlt⟩ := h.counted call' r p hold
      exact ⟨hnone, fun m hm => hlt m (htaken m hm)⟩

/-- Every step keeps the invariant, a count only from a settled state. -/
theorem step_inv {s' : State} {action : Action} (h : Inv s)
    (hcount : ∀ call, action = .count call → s.Settled) (hstep : s.step action = some s') :
    Inv s' := by
  cases action with
  | balanceFailed call =>
      simp only [State.step] at hstep
      split at hstep
      · obtain rfl := Option.some.inj hstep
        exact move_inv h (by simp) (fun howns => howns.elim) (by simp) (by simp)
      · cases hstep
  | take call now =>
      simp only [State.step] at hstep
      split at hstep
      · obtain rfl := Option.some.inj hstep
        exact take_inv h (by simp) (by simp) fun howns => howns.elim
      · cases hstep
  | lock call =>
      simp only [State.step] at hstep
      split at hstep
      · next hfree =>
          obtain rfl := Option.some.inj hstep
          exact lock_inv h hfree
      · cases hstep
  | takeLocked call now refreshedAt =>
      simp only [State.step] at hstep
      split at hstep
      · next hphase =>
          obtain rfl := Option.some.inj hstep
          have hlock : s.lock = some call := h.owner call (by simp [hphase, Phase.OwnsLock])
          exact releaseIfDone_inv (take_inv h (by simp) (by simp) fun _ => hlock) hlock
      · cases hstep
  | count call =>
      simp only [State.step] at hstep
      split at hstep
      · next hphase =>
          obtain rfl := Option.some.inj hstep
          exact count_inv h hphase (hcount call rfl)
      · cases hstep
  | countFailed call =>
      simp only [State.step] at hstep
      split at hstep
      · next hphase =>
          obtain rfl := Option.some.inj hstep
          have hlock : s.lock = some call := h.owner call (by simp [hphase, Phase.OwnsLock])
          have hdone : Inv (s.move call .done) :=
            move_inv h (by simp) (fun howns => howns.elim) (by simp) (by simp)
          have hunlocked : Inv (s.move call .done).unlock := by
            simpa [State.releaseIfDone] using releaseIfDone_inv hdone hlock
          exact hunlocked
      · cases hstep
  | prime call =>
      simp only [State.step] at hstep
      split at hstep
      · next hphase =>
          obtain rfl := Option.some.inj hstep
          exact prime_inv h hphase
      · cases hstep
  | takePrimed call now =>
      simp only [State.step] at hstep
      split at hstep
      · next hphase =>
          obtain rfl := Option.some.inj hstep
          have hlock : s.lock = some call := h.owner call (by simp [hphase, Phase.OwnsLock])
          exact releaseIfDone_inv (take_inv h (by simp) (by simp) fun howns => howns.elim) hlock
      · cases hstep
  | accept call =>
      simp only [State.step] at hstep
      split at hstep
      · next hphase =>
          obtain rfl := Option.some.inj hstep
          exact accept_inv h hphase
      · cases hstep
  | reject call =>
      simp only [State.step] at hstep
      split at hstep
      · obtain rfl := Option.some.inj hstep
        exact move_inv h (by simp) (fun howns => howns.elim) (by simp) (by simp)
      · cases hstep
  | clear call =>
      simp only [State.step] at hstep
      split at hstep
      · obtain rfl := Option.some.inj hstep
        exact move_inv (empty_inv h rfl) (by simp) (fun howns => howns.elim) (by simp) (by simp)
      · cases hstep

end Steps

/-! ## Runs -/

/-- Along schedules that read the count only in settled states, no nonce is used twice. -/
theorem accepted_nodup_of_settled {s : State} (h : SettledRun s) : s.accepted.Nodup := by
  suffices hinv : Inv s from hinv.accepted_nodup
  induction h with
  | init => exact init_inv
  | step _ hcount hstep ih => exact step_inv ih hcount hstep

/-- The first call waits for the pending count. -/
def firstRefresh : State :=
  (State.init.run [.take 0 0, .lock 0, .takeLocked 0 1 1]).getD .init

/-- One call refreshes the cache and is accepted, and a second takes the next nonce. -/
theorem accepted_nodup_two_calls :
    ∃ s, SettledRun s ∧ s.accepted = [1, 0] ∧ s.accepted.Nodup := by
  have hbefore : SettledRun firstRefresh := SettledRun.init
    |>.step (by simp) (show State.init.step (.take 0 0) = some _ from rfl)
    |>.step (by simp) (show State.step _ (.lock 0) = some _ from rfl)
    |>.step (by simp) (show State.step _ (.takeLocked 0 1 1) = some _ from rfl)
  have hsettled : firstRefresh.Settled := by
    refine ⟨fun call n hheld => ?_, fun n hmem => by cases hmem⟩
    cases call with
    | zero => cases hheld
    | succ call => cases hheld
  have hafter := hbefore
    |>.step (fun _ _ => hsettled) (show firstRefresh.step (.count 0) = some _ from rfl)
    |>.step (by simp) (show State.step _ (.prime 0) = some _ from rfl)
    |>.step (by simp) (show State.step _ (.takePrimed 0 2) = some _ from rfl)
    |>.step (by simp) (show State.step _ (.take 1 3) = some _ from rfl)
    |>.step (by simp) (show State.step _ (.accept 0) = some _ from rfl)
    |>.step (by simp) (show State.step _ (.accept 1) = some _ from rfl)
  exact ⟨_, hafter, rfl, accepted_nodup_of_settled hafter⟩

/-- A second call finds the cache stale while the first holds nonce 0 unsent, reads a
pending count of 0 and takes nonce 0 again. -/
theorem accepted_twice :
    ∃ s, State.init.run
        [.take 0 0, .lock 0, .takeLocked 0 0 0, .count 0, .prime 0, .takePrimed 0 0,
          .take 1 1001, .lock 1, .takeLocked 1 1001 1001, .count 1, .prime 1, .takePrimed 1 1001,
          .accept 0, .accept 1] = some s ∧
      s.accepted = [0, 0] ∧ ¬s.accepted.Nodup :=
  ⟨_, rfl, rfl, by decide⟩

end Degenbot.Nonce
