import Degenbot.Algorithm.PoolRegistry
import Degenbot.Library.Outcome

/-! # The pool registry as a finite map

The map that a run of calls describes has one key for an address without a pool id and one
for each pool id. The registry agrees with it as long as no pool with an id is written over
the plain entry of its address. -/

namespace Degenbot.Registry

open Library

section FiniteMap

variable {Address PoolId Pool : Type} [DecidableEq Address] [DecidableEq PoolId]

/-! ## The map of a run -/

/-- The key of a lookup, by the normal forms of the address and the pool id. -/
def Spellings.key (spell : Spellings Address PoolId) (chainId : ℕ) (poolAddress : Address)
    (poolId : Option PoolId) : Except Exn (ℕ × Address × Option PoolId) := do
  let poolAddress ← spell.getChecksumAddress poolAddress
  match poolId with
  | some poolId => do
      let poolId ← spell.hexBytes poolId
      .ok (chainId, poolAddress, some poolId)
  | none => .ok (chainId, poolAddress, none)

abbrev Contents (Address PoolId Pool : Type) := ℕ × Address × Option PoolId → Option Pool

/-- Writes at a key, if it is one. -/
def Contents.write (contents : Contents Address PoolId Pool)
    (key : Except Exn (ℕ × Address × Option PoolId)) (value : Option Pool) :
    Contents Address PoolId Pool :=
  match key with
  | .ok key => Function.update contents key value
  | .error _ => contents

/-- What is registered after a call, by whether it was accepted. -/
def Contents.record (spell : Spellings Address PoolId) (contents : Contents Address PoolId Pool)
    (call : Call Address PoolId Pool) (outcome : Except Exn Unit) :
    Contents Address PoolId Pool :=
  match outcome, call with
  | .error _, _ => contents
  | .ok _, .add pool chainId poolAddress poolId =>
      contents.write (spell.key chainId poolAddress poolId) (some pool)
  | .ok _, .remove chainId poolAddress poolId =>
      contents.write (spell.key chainId poolAddress poolId) none
  | .ok _, .reset => fun _ => none

/-- The registry after a run of calls, beside what is registered then. -/
def run (spell : Spellings Address PoolId) (calls : List (Call Address PoolId Pool)) :
    PoolRegistry Address PoolId Pool × Contents Address PoolId Pool :=
  calls.foldl
    (fun state call =>
      let (outcome, registry) := state.1.perform spell call
      (registry, state.2.record spell call outcome))
    (.empty, fun _ => none)

/-- Every lookup returns what is registered at its key. -/
def Agrees (spell : Spellings Address PoolId) (registry : PoolRegistry Address PoolId Pool)
    (contents : Contents Address PoolId Pool) : Prop :=
  ∀ chainId poolAddress poolId, registry.get spell chainId poolAddress poolId =
    (spell.key chainId poolAddress poolId).map contents

/-- The registry agrees with the map after every call, and a call that is rejected leaves it
as it was. -/
structure Behaves (spell : Spellings Address PoolId) (calls : List (Call Address PoolId Pool)) :
    Prop where
  agrees : ∀ before after, calls = before ++ after →
    Agrees spell (run spell before).1 (run spell before).2
  unchanged : ∀ before call after, calls = before ++ call :: after → ∀ e,
    ((run spell before).1.perform spell call).1 = .error e →
    ((run spell before).1.perform spell call).2 = (run spell before).1

/-- The call is not the `add` of a pool with a new id over another plain entry. -/
def KeepsPlain (spell : Spellings Address PoolId) (registry : PoolRegistry Address PoolId Pool) :
    Call Address PoolId Pool → Prop
  | .add pool chainId poolAddress (some poolId) =>
      registry.get spell chainId poolAddress (some poolId) = .ok none →
      registry.get spell chainId poolAddress none = .ok (some pool)
  | _ => True

/-! ## Methods -/

section Dict

variable {α β : Type} [DecidableEq α] {dict : Dict α β} {key key' : α} {value : β}

theorem lookup_insert_eq_ite :
    (dict.insert key value).lookup key' = if key' = key then some value else dict.lookup key' := by
  split
  case isTrue heq =>
    subst heq
    exact AList.lookup_insert dict
  case isFalse hne => exact AList.lookup_insert_ne hne

theorem lookup_erase_eq_ite :
    (dict.erase key).lookup key' = if key' = key then none else dict.lookup key' := by
  split
  case isTrue heq =>
    subst heq
    exact AList.lookup_erase _ dict
  case isFalse hne => exact AList.lookup_erase_ne hne

end Dict

/-- Both stores of the registry, under the keys of the map. -/
def PoolRegistry.entry (registry : PoolRegistry Address PoolId Pool) :
    Contents Address PoolId Pool
  | (chainId, address, none) => registry.allPools.lookup (chainId, address)
  | (chainId, address, some poolId) =>
      registry.v4PoolRegistry.allV4Pools.lookup (chainId, address, poolId)

variable {spell : Spellings Address PoolId} {registry registry' : PoolRegistry Address PoolId Pool}
  {contents : Contents Address PoolId Pool} {chainId : ℕ} {poolAddress : Address}
  {poolId : Option PoolId} {pool : Pool}

omit [DecidableEq Address] [DecidableEq PoolId] in
theorem key_eq_ok {key : ℕ × Address × Option PoolId}
    (h : spell.key chainId poolAddress poolId = .ok key) :
    ∃ address, spell.getChecksumAddress poolAddress = .ok address ∧
      ((poolId = none ∧ key = (chainId, address, none)) ∨
        ∃ id bytes, poolId = some id ∧ spell.hexBytes id = .ok bytes ∧
          key = (chainId, address, some bytes)) := by
  obtain ⟨address, haddress, h⟩ := bind_eq_ok.mp h
  refine ⟨address, haddress, ?_⟩
  cases poolId with
  | none =>
      cases h
      exact .inl ⟨rfl, rfl⟩
  | some id =>
      obtain ⟨bytes, hbytes, h⟩ := bind_eq_ok.mp h
      cases h
      exact .inr ⟨id, bytes, rfl, hbytes, rfl⟩

/-- A spelling that is refused is refused by every method, before anything is written. -/
theorem methods_of_key_error {e : Exn} (h : spell.key chainId poolAddress poolId = .error e) :
    registry.get spell chainId poolAddress poolId = .error e ∧
    (∀ pool, registry.add spell pool chainId poolAddress poolId = (.error e, registry)) ∧
    registry.remove spell chainId poolAddress poolId = (.error e, registry) := by
  cases hchecksum : spell.getChecksumAddress poolAddress with
  | error e' =>
      simp only [Spellings.key, hchecksum, error_bind, Except.error.injEq] at h
      subst h
      simp [PoolRegistry.get, PoolRegistry.add, PoolRegistry.remove, hchecksum]
  | ok checksum =>
      have hchecksum' := spell.checksum_checksum _ _ hchecksum
      cases poolId with
      | none => simp [Spellings.key, hchecksum] at h
      | some poolId =>
          cases hbytes : spell.hexBytes poolId with
          | ok bytes => simp [Spellings.key, hchecksum, hbytes] at h
          | error e' =>
              simp only [Spellings.key, hchecksum, hbytes, ok_bind, error_bind,
                Except.error.injEq] at h
              subst h
              simp [PoolRegistry.get, PoolRegistry.add, PoolRegistry.remove,
                ManagedPoolRegistry.get, ManagedPoolRegistry.add, ManagedPoolRegistry.remove,
                hchecksum, hchecksum', hbytes]

theorem get_eq_entry (registry : PoolRegistry Address PoolId Pool) : registry.get spell chainId poolAddress poolId =
    (spell.key chainId poolAddress poolId).map registry.entry := by
  cases hkey : spell.key chainId poolAddress poolId with
  | error e => exact (methods_of_key_error hkey).1
  | ok key =>
      obtain ⟨address, haddress, ⟨rfl, rfl⟩ | ⟨id, bytes, rfl, hbytes, rfl⟩⟩ := key_eq_ok hkey
      · simp [PoolRegistry.get, haddress, PoolRegistry.entry, Except.map]
      · have haddress' := spell.checksum_checksum _ _ haddress
        simp [PoolRegistry.get, ManagedPoolRegistry.get, haddress, haddress', hbytes,
          PoolRegistry.entry, Except.map]

/-- An `add` is accepted where its key is free. It then writes at the key, and at the plain
key of the address. -/
theorem add_of_key (registry : PoolRegistry Address PoolId Pool) (pool : Pool)
    {key : ℕ × Address × Option PoolId}
    (hkey : spell.key chainId poolAddress poolId = .ok key) :
    (∃ registered, registry.entry key = some registered ∧
      registry.add spell pool chainId poolAddress poolId =
        (.error (.degenbotValueError "Pool is already registered"), registry)) ∨
    (registry.entry key = none ∧
      ∃ registry', registry.add spell pool chainId poolAddress poolId = (.ok (), registry') ∧
        registry'.entry = Function.update
          (Function.update registry.entry (key.1, key.2.1, none) (some pool)) key (some pool)) := by
  obtain ⟨address, haddress, ⟨rfl, rfl⟩ | ⟨id, bytes, rfl, hbytes, rfl⟩⟩ := key_eq_ok hkey
  · have haddress' := spell.checksum_checksum _ _ haddress
    cases hentry : registry.allPools.lookup (chainId, address) with
    | some registered =>
        refine .inl ⟨registered, hentry, ?_⟩
        simp [PoolRegistry.add, PoolRegistry.get, haddress, haddress', hentry]
    | none =>
        refine .inr ⟨hentry,
          { registry with allPools := registry.allPools.insert (chainId, address) pool }, ?_, ?_⟩
        · simp [PoolRegistry.add, PoolRegistry.get, haddress, haddress', hentry]
        · rw [Function.update_idem]
          funext key'
          obtain ⟨chainId', address', poolId'⟩ := key'
          cases poolId' <;>
            simp [PoolRegistry.entry, Function.update_apply, lookup_insert_eq_ite]
  · have haddress' := spell.checksum_checksum _ _ haddress
    have hbytes' := spell.hexBytes_hexBytes _ _ hbytes
    cases hentry : registry.v4PoolRegistry.allV4Pools.lookup (chainId, address, bytes) with
    | some registered =>
        refine .inl ⟨registered, hentry, ?_⟩
        simp [PoolRegistry.add, ManagedPoolRegistry.add, ManagedPoolRegistry.get, haddress,
          haddress', hbytes, hbytes', hentry]
    | none =>
        refine .inr ⟨hentry, ⟨registry.allPools.insert (chainId, address) pool,
          ⟨registry.v4PoolRegistry.allV4Pools.insert (chainId, address, bytes) pool⟩⟩, ?_, ?_⟩
        · simp [PoolRegistry.add, ManagedPoolRegistry.add, ManagedPoolRegistry.get, haddress,
            haddress', hbytes, hbytes', hentry]
        · funext key'
          obtain ⟨chainId', address', poolId'⟩ := key'
          cases poolId' <;>
            simp [PoolRegistry.entry, Function.update_apply, lookup_insert_eq_ite]

theorem remove_of_key (registry : PoolRegistry Address PoolId Pool)
    {key : ℕ × Address × Option PoolId}
    (hkey : spell.key chainId poolAddress poolId = .ok key) :
    ∃ registry', registry.remove spell chainId poolAddress poolId = (.ok (), registry') ∧
      registry'.entry = Function.update registry.entry key none := by
  obtain ⟨address, haddress, ⟨rfl, rfl⟩ | ⟨id, bytes, rfl, hbytes, rfl⟩⟩ := key_eq_ok hkey
  · refine ⟨{ registry with allPools := registry.allPools.erase (chainId, address) }, ?_, ?_⟩
    · simp [PoolRegistry.remove, haddress]
    · funext key'
      obtain ⟨chainId', address', poolId'⟩ := key'
      cases poolId' <;> simp [PoolRegistry.entry, Function.update_apply, lookup_erase_eq_ite]
  · have haddress' := spell.checksum_checksum _ _ haddress
    refine ⟨{ registry with v4PoolRegistry :=
      ⟨registry.v4PoolRegistry.allV4Pools.erase (chainId, address, bytes)⟩ }, ?_, ?_⟩
    · simp [PoolRegistry.remove, ManagedPoolRegistry.remove, haddress, haddress', hbytes]
    · funext key'
      obtain ⟨chainId', address', poolId'⟩ := key'
      cases poolId' <;> simp [PoolRegistry.entry, Function.update_apply, lookup_erase_eq_ite]

theorem entry_reset : registry.reset.entry = fun _ => none := by
  funext key
  obtain ⟨chainId, address, poolId⟩ := key
  cases poolId <;> rfl

/-! ## One call -/

theorem agrees_iff : Agrees spell registry contents ↔
    ∀ chainId poolAddress poolId key, spell.key chainId poolAddress poolId = .ok key →
      registry.entry key = contents key := by
  constructor
  · intro h chainId poolAddress poolId key hkey
    have hget := h chainId poolAddress poolId
    rw [get_eq_entry, hkey] at hget
    exact Except.ok.inj hget
  · intro h chainId poolAddress poolId
    rw [get_eq_entry]
    cases hkey : spell.key chainId poolAddress poolId with
    | error e => rfl
    | ok key => exact congrArg Except.ok (h chainId poolAddress poolId key hkey)

theorem perform_unchanged {call : Call Address PoolId Pool} {e : Exn}
    (h : (registry.perform spell call).1 = .error e) :
    (registry.perform spell call).2 = registry := by
  cases call with
  | add pool chainId poolAddress poolId =>
      cases hkey : spell.key chainId poolAddress poolId with
      | error e' => rw [PoolRegistry.perform, (methods_of_key_error hkey).2.1]
      | ok key =>
          rcases add_of_key registry pool hkey with
            ⟨registered, -, hadd⟩ | ⟨-, registry', hadd, -⟩
          · rw [PoolRegistry.perform, hadd]
          · rw [PoolRegistry.perform, hadd] at h
            cases h
  | remove chainId poolAddress poolId =>
      cases hkey : spell.key chainId poolAddress poolId with
      | error e' => rw [PoolRegistry.perform, (methods_of_key_error hkey).2.2]
      | ok key =>
          obtain ⟨registry', hremove, -⟩ := remove_of_key registry hkey
          rw [PoolRegistry.perform, hremove] at h
          cases h
  | reset => cases h

/-- A call keeps the agreement, unless it writes a pool with an id over the plain entry of
its address. -/
theorem perform_agrees (hagrees : Agrees spell registry contents)
    {call : Call Address PoolId Pool} (hkeeps : KeepsPlain spell registry call) :
    Agrees spell (registry.perform spell call).2
      (contents.record spell call (registry.perform spell call).1) := by
  cases call with
  | add pool chainId poolAddress poolId =>
      cases hkey : spell.key chainId poolAddress poolId with
      | error e =>
          rw [PoolRegistry.perform, (methods_of_key_error hkey).2.1]
          exact hagrees
      | ok key =>
          rcases add_of_key registry pool hkey with
            ⟨registered, -, hadd⟩ | ⟨hfree, registry', hadd, hentry⟩
          · rw [PoolRegistry.perform, hadd]
            exact hagrees
          · rw [PoolRegistry.perform, hadd, agrees_iff]
            intro chainId' poolAddress' poolId' key' hkey'
            have hsame := agrees_iff.mp hagrees _ _ _ _ hkey'
            simp only [Contents.record, hkey, Contents.write, hentry, Function.update_apply]
            split
            case isTrue => rfl
            case isFalse hne =>
              split
              case isFalse => exact hsame
              case isTrue hplain =>
                -- the plain key of the address, written for a pool with an id
                obtain ⟨address, haddress, ⟨rfl, rfl⟩ | ⟨id, bytes, rfl, hbytes, rfl⟩⟩ :=
                  key_eq_ok hkey
                · exact absurd hplain hne
                · have hget := hkeeps (by rw [get_eq_entry, hkey, ← hfree]; rfl)
                  have hplainKey : spell.key chainId poolAddress none =
                      .ok (chainId, address, none) := by
                    simp [Spellings.key, haddress]
                  rw [get_eq_entry, hplainKey] at hget
                  rw [← hsame, hplain]
                  exact (Except.ok.inj hget).symm
  | remove chainId poolAddress poolId =>
      cases hkey : spell.key chainId poolAddress poolId with
      | error e =>
          rw [PoolRegistry.perform, (methods_of_key_error hkey).2.2]
          exact hagrees
      | ok key =>
          obtain ⟨registry', hremove, hentry⟩ := remove_of_key registry hkey
          rw [PoolRegistry.perform, hremove, agrees_iff]
          intro chainId' poolAddress' poolId' key' hkey'
          have hsame := agrees_iff.mp hagrees _ _ _ _ hkey'
          simp only [Contents.record, hkey, Contents.write, hentry, Function.update_apply]
          split
          case isTrue => rfl
          case isFalse => exact hsame
  | reset =>
      rw [PoolRegistry.perform, agrees_iff]
      intro _ _ _ key _
      rw [entry_reset]
      rfl

/-- Agreement before and after an `add` leaves no choice for the plain entry. -/
theorem keepsPlain_of_agrees (hagrees : Agrees spell registry contents)
    {call : Call Address PoolId Pool}
    (hagrees' : Agrees spell (registry.perform spell call).2
      (contents.record spell call (registry.perform spell call).1)) :
    KeepsPlain spell registry call := by
  cases call with
  | remove | reset => trivial
  | add pool chainId poolAddress poolId =>
      cases poolId with
      | none => trivial
      | some poolId =>
          intro hfree
          cases hkey : spell.key chainId poolAddress (some poolId) with
          | error e =>
              rw [get_eq_entry, hkey] at hfree
              cases hfree
          | ok key =>
              rw [get_eq_entry, hkey] at hfree
              have hfree : registry.entry key = none := Except.ok.inj hfree
              rcases add_of_key registry pool hkey with
                ⟨registered, hregistered, -⟩ | ⟨-, registry', hadd, hentry⟩
              · rw [hfree] at hregistered
                cases hregistered
              · obtain ⟨address, haddress, ⟨hnone, -⟩ | ⟨id, bytes, -, -, rfl⟩⟩ := key_eq_ok hkey
                · cases hnone
                · have hplainKey : spell.key chainId poolAddress none =
                      .ok (chainId, address, none) := by
                    simp [Spellings.key, haddress]
                  have hbefore := agrees_iff.mp hagrees _ _ _ _ hplainKey
                  rw [PoolRegistry.perform, hadd] at hagrees'
                  have hafter := agrees_iff.mp hagrees' _ _ _ _ hplainKey
                  simp only [Contents.record, hkey, Contents.write, hentry,
                    Function.update_apply] at hafter
                  rw [get_eq_entry, hplainKey]
                  simp only [Prod.mk.injEq, reduceCtorEq, and_false, if_false, if_true] at hafter
                  exact congrArg Except.ok (hbefore.trans hafter.symm)

/-! ## Runs -/

theorem run_concat (calls : List (Call Address PoolId Pool)) (call : Call Address PoolId Pool) :
    run spell (calls ++ [call]) =
      (((run spell calls).1.perform spell call).2,
        (run spell calls).2.record spell call ((run spell calls).1.perform spell call).1) := by
  simp [run, List.foldl_append]

theorem empty_agrees :
    Agrees spell (PoolRegistry.empty : PoolRegistry Address PoolId Pool) fun _ => none := by
  rw [agrees_iff]
  intro _ _ _ key _
  obtain ⟨chainId, address, poolId⟩ := key
  cases poolId <;> rfl

theorem run_agrees {calls : List (Call Address PoolId Pool)}
    (hkeeps : ∀ before call after, calls = before ++ call :: after →
      KeepsPlain spell (run spell before).1 call) :
    Agrees spell (run spell calls).1 (run spell calls).2 := by
  induction calls using List.reverseRecOn with
  | nil => exact empty_agrees
  | append_singleton calls call ih =>
      rw [run_concat]
      refine perform_agrees (ih ?_) (hkeeps calls call [] rfl)
      intro before call' after hsplit
      refine hkeeps before call' (after ++ [call]) ?_
      rw [hsplit, List.append_assoc, List.cons_append]

/-- The registry is the map exactly in the runs in which every `add` of a pool with a new id
finds that pool in the plain entry of its address already. -/
theorem behaves_iff (spell : Spellings Address PoolId)
    (calls : List (Call Address PoolId Pool)) :
    Behaves spell calls ↔ ∀ before call after, calls = before ++ call :: after →
      KeepsPlain spell (run spell before).1 call := by
  constructor
  · intro h before call after hsplit
    have hbefore := h.agrees before (call :: after) hsplit
    have hafter := h.agrees (before ++ [call]) after (by simp [hsplit])
    rw [run_concat] at hafter
    exact keepsPlain_of_agrees hbefore hafter
  · intro h
    refine ⟨fun before after hsplit => run_agrees fun before' call after' hsplit' => ?_, ?_⟩
    · refine h before' call (after' ++ after) ?_
      rw [hsplit, hsplit', List.append_assoc, List.cons_append]
    · intro before call after _ e he
      exact perform_unchanged he

end FiniteMap

/-! ## A managed pool that is removed again -/

/-- Addresses and pool ids that are their own normal forms. -/
def plainSpellings : Spellings ℕ ℕ := ⟨.ok, .ok, fun _ _ _ => rfl, fun _ _ _ => rfl⟩

def managedCalls : List (Call ℕ ℕ ℕ) := [.add 7 1 100 (some 9), .remove 1 100 (some 9)]

/-- The pool is found under the address, where it was never added, after it is removed. -/
theorem managedCalls_not_behaves :
    (run plainSpellings managedCalls).1.get plainSpellings 1 100 none = .ok (some 7) ∧
      (run plainSpellings managedCalls).2 (1, 100, none) = none ∧
      ¬Behaves plainSpellings managedCalls := by
  have hget : (run plainSpellings managedCalls).1.get plainSpellings 1 100 none = .ok (some 7) := by
    decide
  refine ⟨hget, rfl, fun h => ?_⟩
  have hagrees := h.agrees managedCalls [] (by simp) 1 100 none
  rw [hget] at hagrees
  cases hagrees

end Degenbot.Registry
