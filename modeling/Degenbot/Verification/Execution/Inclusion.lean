import Degenbot.Algorithm.Inclusion
import Degenbot.Library.Runs

/-! # Replaced transactions

A nonce that is used up by another transaction keeps the watched one out of the chain for
good. The verdict is wrong only when the watched transaction is mined after its receipt was
looked up and before the nonce is read. -/

namespace Degenbot.Inclusion

open Executor Library

variable {signed : Signatures}

/-! ## Nonces on the chain -/

/-- Each mined transaction has used up its nonce. -/
def Chain.Spent (signed : Signatures) (chain : Chain) : Prop :=
  ∀ hash ∈ chain.mined, signed.nonce hash < chain.minedNonce signed (signed.sender hash)

theorem minedNonce_append (chain block : Chain) (account : ℕ) :
    (chain ++ block).minedNonce signed account =
      chain.minedNonce signed account + Chain.minedNonce block signed account := by
  simp [Chain.minedNonce, Chain.mined, List.map_append, List.countP_append]

theorem Chain.Spent.concat {chain : Chain} {receipt : TransactionReceipt}
    (hspent : chain.Spent signed)
    (hnonce : signed.nonce receipt.transactionHash =
      chain.minedNonce signed (signed.sender receipt.transactionHash)) :
    Chain.Spent signed (chain ++ [receipt]) := by
  intro hash hmem
  rw [minedNonce_append]
  simp only [Chain.mined, List.map_append, List.map_cons, List.map_nil, List.mem_append,
    List.mem_singleton] at hmem
  rcases hmem with hmem | rfl
  · exact Nat.lt_add_right _ (hspent hash hmem)
  · rw [hnonce]
    simp [Chain.minedNonce, Chain.mined]

/-- A valid block keeps the account of nonces, and takes only nonces that were left. -/
theorem spent_of_accepts {chain : Chain} {block : List TransactionReceipt}
    (hspent : chain.Spent signed) (haccepts : chain.accepts signed block = true) :
    Chain.Spent signed (chain ++ block) ∧
      ∀ hash ∈ Chain.mined block, chain.minedNonce signed (signed.sender hash) ≤
        signed.nonce hash := by
  induction block generalizing chain with
  | nil => simp [Chain.mined, hspent]
  | cons receipt block ih =>
      simp only [Chain.accepts, Bool.and_eq_true, decide_eq_true_eq] at haccepts
      obtain ⟨hnonce, haccepts⟩ := haccepts
      obtain ⟨hspent', hleft⟩ := ih (hspent.concat hnonce) haccepts
      constructor
      · rw [List.append_cons]
        exact hspent'
      · intro hash hmem
        rcases List.mem_cons.mp hmem with rfl | hmem
        · exact hnonce.ge
        · have hle := hleft hash hmem
          rw [minedNonce_append] at hle
          exact le_of_add_le_left hle

/-! ## One action -/

/-- The nonces are in order, and a transaction reported as replaced has lost its nonce to
another one. -/
structure Inv (watch : Watch signed) (s : State) : Prop where
  spent : s.chain.Spent signed
  replaced : s.phase = .returned (.ok .replaced) → watch.txHash ∉ s.chain.mined ∧
    signed.nonce watch.txHash < s.chain.minedNonce signed (signed.sender watch.txHash)

/-- The nonce is read while the transaction is still not mined. -/
def ReadsTogether (watch : Watch signed) (s : State) : Action → Prop
  | .replacement none => s.phase = .checkReplacement → watch.replacement.isSome = true →
      watch.txHash ∉ s.chain.mined
  | _ => True

theorem afterCheck_receipt_ne (provider : Provider) (txHash : B256) :
    afterCheck .checkReplacement (checkReceipt provider txHash) ≠ .returned (.ok .replaced) := by
  unfold checkReceipt
  split <;> simp [afterCheck]

variable {watch : Watch signed} {s s' : State}

/-- A nonce that is read answers for the chain of that moment. -/
theorem afterCheck_replacement_eq {chain : Chain} {failure : Option String}
    (h : afterCheck .waiting (checkReplacement (chain.provider signed failure) watch.replacement) =
      .returned (.ok .replaced)) :
    failure = none ∧ watch.replacement.isSome = true ∧
      signed.nonce watch.txHash < chain.minedNonce signed (signed.sender watch.txHash) := by
  cases hprobe : watch.replacement with
  | none => simp [checkReplacement, hprobe, afterCheck] at h
  | some probe =>
      cases failure with
      | some e => simp [checkReplacement, hprobe, Chain.provider, afterCheck] at h
      | none =>
          refine ⟨rfl, rfl, ?_⟩
          rw [watch.probe_eq probe hprobe] at hprobe
          by_contra hle
          simp [checkReplacement, hprobe, Chain.provider, hle, afterCheck] at h

theorem step_inv {action : Action} (h : step watch s action = some s') (hinv : Inv watch s)
    (htogether : ReadsTogether watch s action) : Inv watch s' := by
  obtain ⟨chain, phase⟩ := s
  cases action with
  | mine block =>
      simp only [step, Option.ite_none_right_eq_some, Option.some.injEq] at h
      obtain ⟨haccepts, rfl⟩ := h
      obtain ⟨hspent, hleft⟩ := spent_of_accepts hinv.spent haccepts
      refine ⟨hspent, fun hphase => ?_⟩
      obtain ⟨hmined, hlost⟩ := hinv.replaced hphase
      constructor
      · simp only [Chain.mined, List.map_append, List.mem_append, not_or]
        exact ⟨hmined, fun hmem => absurd (hleft _ hmem) (not_le.mpr hlost)⟩
      · rw [minedNonce_append]
        exact Nat.lt_add_right _ hlost
  | deadline passed =>
      cases phase with
      | loopHead =>
          cases h
          refine ⟨hinv.spent, fun hphase => ?_⟩
          cases passed <;> simp at hphase
      | _ => cases h
  | receipt failure =>
      cases phase with
      | checkReceipt =>
          cases h
          exact ⟨hinv.spent, fun hphase => absurd hphase (afterCheck_receipt_ne _ _)⟩
      | _ => cases h
  | replacement failure =>
      cases phase with
      | checkReplacement =>
          cases h
          refine ⟨hinv.spent, fun hphase => ?_⟩
          obtain ⟨rfl, hprobe, hlost⟩ := afterCheck_replacement_eq hphase
          exact ⟨htogether rfl hprobe, hlost⟩
      | _ => cases h
  | wake deadlineElapsed =>
      cases phase with
      | waiting =>
          cases h
          refine ⟨hinv.spent, fun hphase => ?_⟩
          cases deadlineElapsed <;> simp at hphase
      | _ => cases h

/-- With the transaction mined, the nonce that is read reports it as replaced. -/
theorem step_replaced (hinv : Inv watch s) (hphase : s.phase = .checkReplacement)
    (hprobe : watch.replacement.isSome = true) (hmined : watch.txHash ∈ s.chain.mined) :
    step watch s (.replacement none) = some ⟨s.chain, .returned (.ok .replaced)⟩ := by
  obtain ⟨chain, phase⟩ := s
  obtain rfl : phase = .checkReplacement := hphase
  obtain ⟨probe, hprobe⟩ := Option.isSome_iff_exists.mp hprobe
  have hlost := hinv.spent watch.txHash hmined
  rw [watch.probe_eq probe hprobe] at hprobe
  simp only [step, checkReplacement, hprobe, Chain.provider, gt_iff_lt]
  rw [if_pos hlost]
  rfl

/-! ## Runs -/

/-- In no state of the run is a mined transaction reported as replaced. -/
def NeverMisreports (watch : Watch signed) (actions : List Action) : Prop :=
  AllStates (step watch) .initial
    (fun s => s.phase = .returned (.ok .replaced) → watch.txHash ∉ s.chain.mined) actions

theorem initial_inv : Inv watch .initial := by
  constructor
  · intro hash hmem
    simp [State.initial, Chain.mined] at hmem
  · intro hphase
    cases hphase

/-- The verdict is right in exactly the runs in which the transaction is never mined between
the lookup of its receipt and the answer for the nonce. -/
theorem neverMisreports_iff (watch : Watch signed) (actions : List Action) :
    NeverMisreports watch actions ↔
      AllSteps (step watch) .initial (ReadsTogether watch) actions := by
  apply allStates_iff_allSteps initial_inv
  · intro s action s' hinv htogether h
    exact step_inv h hinv htogether
  · intro s hinv hphase
    exact (hinv.replaced hphase).1
  · intro s action hinv hnot
    cases action with
    | replacement failure =>
        cases failure with
        | some e => exact absurd trivial hnot
        | none =>
            simp only [ReadsTogether, not_forall, not_not] at hnot
            obtain ⟨hphase, hprobe, hmined⟩ := hnot
            refine ⟨_, step_replaced hinv hphase hprobe hmined, ?_⟩
            simpa using hmined
    | mine | deadline | receipt | wake => exact absurd trivial hnot

/-! ## A block between the two reads -/

/-- Account 1, with the nonces 0, 1, 2, … of its transactions. -/
def sampleSignatures : Signatures := ⟨fun _ => 1, id⟩

def sampleWatch : Watch sampleSignatures := ⟨0, some ⟨1, 0⟩, by simp [sampleSignatures]⟩

def lateBlock : List Action :=
  [.deadline false, .receipt none, .mine [⟨0, some 7, 21000, 1, true⟩], .replacement none]

/-- The transaction is mined in block 7, after its receipt was looked up, and its own nonce
makes the watcher report it as replaced. -/
theorem lateBlock_misreported :
    Reaches (step sampleWatch) .initial lateBlock
        ⟨[⟨0, some 7, 21000, 1, true⟩], .returned (.ok .replaced)⟩ ∧
      ¬NeverMisreports sampleWatch lateBlock := by
  have hreaches : Reaches (step sampleWatch) .initial lateBlock
      ⟨[⟨0, some 7, 21000, 1, true⟩], .returned (.ok .replaced)⟩ := by
    unfold Reaches
    decide
  exact ⟨hreaches, fun h => h lateBlock [] (by simp) _ hreaches rfl (by decide)⟩

end Degenbot.Inclusion
