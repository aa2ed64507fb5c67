import Degenbot.Algorithm.Pathfinding
import Degenbot.Library.Outcome
import Degenbot.Library.SelfDelimiting
import Mathlib.Tactic

/-! # The identity of a path

A plain pool is hashed as its address, a managed one as the address of its manager and the hash
of the pool. The identity separates two paths unless one has a plain pool at the address where
the other has a manager, and the rest of both spells the same. -/

namespace Degenbot.Pathfinding

open Library
open SolverCodec (PyError fromHex withoutPrefix hexDigit hexChar isHexSpace)

/-! ## Pools as hex digits -/

def digits (text : String) : List Char := (withoutPrefix ['0', 'x'] text.toList).map Char.toLower

/-- The text has two hex digits for each of the bytes. -/
structure IsHex (text : String) (width : ℕ) : Prop where
  length : (digits text).length = 2 * width
  digits : ∀ c ∈ digits text, ∃ digit < 16, hexChar digit = c

structure PathStep.WellFormed (step : PathStep) : Prop where
  address : IsHex step.address 20
  hash : ∀ hash ∈ step.hash, IsHex hash 32

def PathStep.pool (step : PathStep) : List Char × Option (List Char) :=
  (digits step.address, step.hash.map digits)

def SamePools (path path' : List PathStep) : Prop :=
  path.map PathStep.pool = path'.map PathStep.pool

/-- Where the paths part, the first has a plain pool and the other the manager of that address,
and what follows the plain pool spells the pool hash and what follows it. -/
def Confusable (path path' : List PathStep) : Prop :=
  Overlap (path.map PathStep.pool) (path'.map PathStep.pool)

/-! ## The hashed bytes -/

def spelled (bytes : List UInt8) : List Char :=
  bytes.flatMap fun byte => [hexChar (byte.toNat / 16), hexChar (byte.toNat % 16)]

theorem hexDigit_hexChar {digit : ℕ} (h : digit < 16) :
    hexDigit (hexChar digit) = .ok digit ∧ isHexSpace (hexChar digit) = false := by
  interval_cases digit <;> decide

theorem hexChar_inj {digit digit' : ℕ} (h : digit < 16) (h' : digit' < 16)
    (heq : hexChar digit = hexChar digit') : digit = digit' := by
  have hdigit := (hexDigit_hexChar h).1
  rw [heq, (hexDigit_hexChar h').1] at hdigit
  exact (Except.ok.inj hdigit).symm

theorem spelled_append (bytes bytes' : List UInt8) :
    spelled (bytes ++ bytes') = spelled bytes ++ spelled bytes' := List.flatMap_append

theorem spelled_injective : Function.Injective spelled := by
  intro bytes
  induction bytes with
  | nil =>
      intro bytes' h
      cases bytes' with
      | nil => rfl
      | cons byte' bytes' => cases h
  | cons byte bytes ih =>
      intro bytes' h
      cases bytes' with
      | nil => cases h
      | cons byte' bytes' =>
          obtain ⟨hhigh, htail⟩ := List.cons.inj h
          obtain ⟨hlow, hrest⟩ := List.cons.inj htail
          have hbyte := byte.toNat_lt
          have hbyte' := byte'.toNat_lt
          have hdiv := hexChar_inj (by omega) (by omega) hhigh
          have hmod := hexChar_inj (Nat.mod_lt _ (by norm_num)) (Nat.mod_lt _ (by norm_num)) hlow
          have heq : byte.toNat = byte'.toNat := by omega
          rw [UInt8.toNat_inj.mp heq, ih hrest]

theorem fromHex_of_digits {count : ℕ} {cs : List Char} (hlength : cs.length = 2 * count)
    (hdigits : ∀ c ∈ cs, ∃ digit < 16, hexChar digit = c) :
    ∃ bytes, fromHex cs = .ok bytes ∧ bytes.length = count ∧ spelled bytes = cs := by
  induction count generalizing cs with
  | zero =>
      obtain rfl := List.length_eq_zero_iff.mp hlength
      exact ⟨[], rfl, rfl, rfl⟩
  | succ count ih =>
      obtain ⟨c, d, cs, rfl⟩ : ∃ c d cs', cs = c :: d :: cs' := by
        cases cs with
        | nil => cases hlength
        | cons c cs =>
            cases cs with
            | nil => simp only [List.length_cons, List.length_nil] at hlength; omega
            | cons d cs => exact ⟨c, d, cs, rfl⟩
      obtain ⟨high, hhigh, rfl⟩ := hdigits c List.mem_cons_self
      obtain ⟨low, hlow, rfl⟩ := hdigits d (List.mem_cons_of_mem _ List.mem_cons_self)
      obtain ⟨bytes, hbytes, hcount, hspelled⟩ := @ih cs
        (by simp only [List.length_cons] at hlength; omega)
        fun c hc => hdigits c (List.mem_cons_of_mem _ (List.mem_cons_of_mem _ hc))
      refine ⟨UInt8.ofNat (high * 16 + low) :: bytes, ?_, by rw [List.length_cons, hcount], ?_⟩
      · rw [fromHex, if_neg (by simp [(hexDigit_hexChar hhigh).2]), (hexDigit_hexChar hhigh).1,
          (hexDigit_hexChar hlow).1, hbytes]
        rfl
      · have hvalue : (UInt8.ofNat (high * 16 + low)).toNat = high * 16 + low := by
          rw [UInt8.toNat_ofNat']
          exact Nat.mod_eq_of_lt (by omega)
        have hdiv : (high * 16 + low) / 16 = high := by omega
        have hmod : (high * 16 + low) % 16 = low := by omega
        rw [spelled, List.flatMap_cons, hvalue, hdiv, hmod, ← spelled, hspelled]
        rfl

theorem hexToFixedWidthBytes_of_isHex {text : String} {width : ℕ} (h : IsHex text width) :
    ∃ bytes, hexToFixedWidthBytes text width = .ok bytes ∧ spelled bytes = digits text := by
  obtain ⟨bytes, hbytes, hlength, hspelled⟩ := fromHex_of_digits h.length h.digits
  refine ⟨bytes, ?_, hspelled⟩
  have heven : ¬(digits text).length % 2 ≠ 0 := by rw [h.length]; omega
  change (fromHex (if (digits text).length % 2 ≠ 0 then '0' :: digits text else digits text) >>=
    fun raw => if raw.length > width then .error .valueError
      else .ok (List.replicate (width - raw.length) 0 ++ raw)) = _
  rw [if_neg heven, hbytes, ok_bind, if_neg (by omega), hlength, Nat.sub_self]
  rfl

theorem updateHasher_of_wellFormed {step : PathStep} (h : step.WellFormed) (hasher : List UInt8) :
    ∃ hasher', updateHasher hasher step = .ok hasher' ∧
      spelled hasher' = spelled hasher ++ concatenated step.pool := by
  obtain ⟨bytes, hbytes, hspelled⟩ := hexToFixedWidthBytes_of_isHex h.address
  rw [updateHasher, hbytes, ok_bind]
  cases hhash : step.hash with
  | none =>
      exact ⟨_, rfl, by rw [spelled_append, hspelled]; simp [concatenated, PathStep.pool, hhash]⟩
  | some hash =>
      obtain ⟨tail, htail, hspelled'⟩ := hexToFixedWidthBytes_of_isHex (h.hash hash hhash)
      refine ⟨_, by simp only [htail]; rfl, ?_⟩
      rw [spelled_append, spelled_append, hspelled, hspelled']
      simp [concatenated, PathStep.pool, hhash]

theorem foldlM_updateHasher {path : List PathStep} (h : ∀ step ∈ path, step.WellFormed)
    (hasher : List UInt8) :
    ∃ bytes, path.foldlM updateHasher hasher = .ok bytes ∧
      spelled bytes = spelled hasher ++ (path.map PathStep.pool).flatMap concatenated := by
  induction path generalizing hasher with
  | nil => exact ⟨hasher, rfl, by simp⟩
  | cons step path ih =>
      obtain ⟨hasher', hstep, hspelled⟩ :=
        updateHasher_of_wellFormed (h step List.mem_cons_self) hasher
      obtain ⟨bytes, hpath, hbytes⟩ := ih (fun s hs => h s (List.mem_cons_of_mem _ hs)) hasher'
      refine ⟨bytes, by rw [List.foldlM_cons, hstep, ok_bind, hpath], ?_⟩
      rw [hbytes, hspelled, List.map_cons, List.flatMap_cons, List.append_assoc]

theorem PathStep.WellFormed.hasWidths {step : PathStep} (h : step.WellFormed) :
    HasWidths 40 64 step.pool := by
  refine ⟨h.address.length, ?_⟩
  intro field hfield
  obtain ⟨hash, hhash, rfl⟩ := Option.map_eq_some_iff.mp hfield
  exact (h.hash hash hhash).length

/-! ## Dropped paths -/

section Deduplicated

variable {Digest : Type} {sha256 : List UInt8 → Digest}

/-- Two paths of the list with the same digest are hashed as the same bytes. -/
def CollisionFree (sha256 : List UInt8 → Digest) (paths : List (List PathStep)) : Prop :=
  Set.InjOn sha256 {bytes | ∃ path ∈ paths, path.foldlM updateHasher [] = .ok bytes}

/-- The generator yields nothing on a path that comes after the earlier ones. -/
def Drops [DecidableEq Digest] (sha256 : List UInt8 → Digest) (earlier : List (List PathStep))
    (path : List PathStep) : Prop :=
  deduplicatePaths sha256 (earlier ++ [path]) = deduplicatePaths sha256 earlier

theorem deduplicateFrom_concat [DecidableEq Digest] {identity : List PathStep → Digest}
    {earlier : List (List PathStep)} {path : List PathStep}
    (h : ∀ p ∈ earlier ++ [path], pathHash sha256 p = .ok (identity p)) (seen : List Digest) :
    ∃ kept, deduplicateFrom sha256 seen earlier = .ok kept ∧
      deduplicateFrom sha256 seen (earlier ++ [path]) =
        .ok (if identity path ∈ seen ∨ ∃ p ∈ earlier, identity p = identity path then kept
          else kept ++ [path]) := by
  induction earlier generalizing seen with
  | nil =>
      refine ⟨[], rfl, ?_⟩
      rw [List.nil_append, deduplicateFrom, h path (by simp), ok_bind]
      by_cases hseen : identity path ∈ seen
      · rw [if_pos hseen, if_pos (Or.inl hseen), deduplicateFrom]
      · rw [if_neg hseen, if_neg (by simp [hseen]), deduplicateFrom]
        rfl
  | cons p earlier ih =>
      have hrest : ∀ q ∈ earlier ++ [path], pathHash sha256 q = .ok (identity q) :=
        fun q hq => h q (List.mem_cons_of_mem _ hq)
      rw [List.cons_append, deduplicateFrom, deduplicateFrom, h p List.mem_cons_self, ok_bind,
        ok_bind]
      by_cases hseen : identity p ∈ seen
      · obtain ⟨kept, hkept, hconcat⟩ := ih hrest seen
        rw [if_pos hseen, if_pos hseen]
        refine ⟨kept, hkept, hconcat.trans ?_⟩
        have hiff : (identity path ∈ seen ∨ ∃ q ∈ earlier, identity q = identity path) ↔
            identity path ∈ seen ∨ ∃ q ∈ p :: earlier, identity q = identity path := by
          constructor
          · rintro (hmem | ⟨q, hq, heq⟩)
            · exact Or.inl hmem
            · exact Or.inr ⟨q, List.mem_cons_of_mem _ hq, heq⟩
          · rintro (hmem | ⟨q, hq, heq⟩)
            · exact Or.inl hmem
            · rcases List.mem_cons.mp hq with rfl | hq
              · exact Or.inl (heq ▸ hseen)
              · exact Or.inr ⟨q, hq, heq⟩
        simp only [hiff]
      · obtain ⟨kept, hkept, hconcat⟩ := ih hrest (identity p :: seen)
        rw [if_neg hseen, if_neg hseen, hkept, hconcat, ok_bind, ok_bind]
        refine ⟨p :: kept, rfl, ?_⟩
        have hiff : (identity path ∈ identity p :: seen ∨
            ∃ q ∈ earlier, identity q = identity path) ↔
            identity path ∈ seen ∨ ∃ q ∈ p :: earlier, identity q = identity path := by
          simp only [List.mem_cons, exists_eq_or_imp]
          rw [eq_comm (a := identity path)]
          tauto
        simp only [hiff]
        split <;> rfl

variable {paths : List (List PathStep)} {p q : List PathStep}

theorem foldlM_updateHasher_eq_iff {bytes bytes' : List UInt8}
    (hp : ∀ step ∈ p, step.WellFormed) (hq : ∀ step ∈ q, step.WellFormed)
    (hbytes : p.foldlM updateHasher [] = .ok bytes)
    (hbytes' : q.foldlM updateHasher [] = .ok bytes') :
    bytes = bytes' ↔ SamePools p q ∨ Confusable p q ∨ Confusable q p := by
  have hspelled : ∀ {path : List PathStep} {hashed : List UInt8},
      (∀ step ∈ path, step.WellFormed) → path.foldlM updateHasher [] = .ok hashed →
      spelled hashed = (path.map PathStep.pool).flatMap concatenated := by
    intro path hashed hwf hok
    obtain ⟨found, hfound, hspelled⟩ := foldlM_updateHasher hwf []
    rw [hok] at hfound
    rw [Except.ok.inj hfound, hspelled]
    rfl
  have hwidths : ∀ {path : List PathStep}, (∀ step ∈ path, step.WellFormed) →
      ∀ record ∈ path.map PathStep.pool, HasWidths 40 64 record := by
    intro path hwf record hrecord
    obtain ⟨step, hstep, rfl⟩ := List.mem_map.mp hrecord
    exact (hwf step hstep).hasWidths
  rw [← spelled_injective.eq_iff, hspelled hp hbytes, hspelled hq hbytes']
  constructor
  · exact eq_or_overlap (by norm_num) (hwidths hp) (hwidths hq)
  · rintro (hsame | hover | hover)
    · exact congrArg _ hsame
    · exact hover.flatMap_eq
    · exact hover.flatMap_eq.symm

theorem drops_iff [DecidableEq Digest] {earlier later : List (List PathStep)}
    (hwf : ∀ path ∈ earlier ++ p :: later, ∀ step ∈ path, step.WellFormed)
    (hsha : CollisionFree sha256 (earlier ++ p :: later)) :
    Drops sha256 earlier p ↔ ∃ q ∈ earlier, SamePools q p ∨ Confusable q p ∨ Confusable p q := by
  have hhashed : ∀ path ∈ earlier ++ p :: later, ∃ bytes,
      path.foldlM updateHasher [] = .ok bytes :=
    fun path hpath => (foldlM_updateHasher (hwf path hpath) []).imp fun _ h => h.1
  choose! hashed hok using hhashed
  have hmem : ∀ path ∈ earlier ++ [p], path ∈ earlier ++ p :: later := by
    intro path hpath
    rcases List.mem_append.mp hpath with hpath | hpath
    · exact List.mem_append_left _ hpath
    · rw [List.mem_singleton.mp hpath]
      exact List.mem_append_right _ List.mem_cons_self
  have hidentity : ∀ path ∈ earlier ++ [p], pathHash sha256 path = .ok (sha256 (hashed path)) := by
    intro path hpath
    rw [pathHash, hok path (hmem path hpath)]
    rfl
  obtain ⟨kept, hkept, hconcat⟩ := deduplicateFrom_concat hidentity []
  have hp := hmem p (List.mem_append_right _ List.mem_cons_self)
  have hiff : ∀ q ∈ earlier, sha256 (hashed q) = sha256 (hashed p) ↔
      SamePools q p ∨ Confusable q p ∨ Confusable p q := by
    intro q hq
    have hq := hmem q (List.mem_append_left _ hq)
    rw [hsha.eq_iff ⟨q, hq, hok q hq⟩ ⟨p, hp, hok p hp⟩,
      foldlM_updateHasher_eq_iff (hwf q hq) (hwf p hp) (hok q hq) (hok p hp)]
  have hexists : (∃ q ∈ earlier, sha256 (hashed q) = sha256 (hashed p)) ↔
      ∃ q ∈ earlier, SamePools q p ∨ Confusable q p ∨ Confusable p q :=
    exists_congr fun q => and_congr_right (hiff q)
  rw [Drops, deduplicatePaths, deduplicatePaths, hkept, hconcat, Except.ok.injEq, ← hexists]
  by_cases hsame : ∃ q ∈ earlier, sha256 (hashed q) = sha256 (hashed p)
  · rw [if_pos (Or.inr hsame)]
    exact iff_of_true rfl hsame
  · rw [if_neg (by simpa using hsame)]
    exact iff_of_false (by simp) hsame

/-! ## The dropped paths are those of earlier pools -/

theorem exists_first {P : List PathStep → Prop} (h : p ∈ paths) (hp : P p) :
    ∃ earlier path later, paths = earlier ++ path :: later ∧ P path ∧ ∀ q ∈ earlier, ¬P q := by
  classical
  have hfound : (paths.find? fun path => decide (P path)).isSome :=
    List.find?_isSome.mpr ⟨p, h, by simpa using hp⟩
  obtain ⟨path, hpath⟩ := Option.isSome_iff_exists.mp hfound
  obtain ⟨hP, earlier, later, rfl, hearlier⟩ := List.find?_eq_some_iff_append.mp hpath
  exact ⟨earlier, path, later, rfl, by simpa using hP, fun q hq => by simpa using hearlier q hq⟩

theorem same_place_or_before {earlier later earlier' later' : List (List PathStep)}
    (h : earlier ++ p :: later = earlier' ++ q :: later') :
    p = q ∨ p ∈ earlier' ∨ q ∈ earlier := by
  rcases List.append_eq_append_iff.mp h with ⟨between, rfl, hrest⟩ | ⟨between, rfl, hrest⟩
  · cases between with
    | nil => exact Or.inl (List.cons.inj hrest).1
    | cons r between =>
        obtain ⟨rfl, -⟩ := List.cons.inj hrest
        exact Or.inr (Or.inl (by simp))
  · cases between with
    | nil => exact Or.inl (List.cons.inj hrest).1.symm
    | cons r between =>
        obtain ⟨rfl, -⟩ := List.cons.inj hrest
        exact Or.inr (Or.inr (by simp))

theorem Confusable.congr {p' q' : List PathStep} (h : Confusable p q) (hp : SamePools p' p)
    (hq : SamePools q' q) : Confusable p' q' := by
  rw [Confusable, hp, hq]
  exact h

/-- A path is dropped exactly when its pools were seen, as long as no two paths of the list are
confusable. -/
theorem deduplicatePaths_drops_iff [DecidableEq Digest]
    (hwf : ∀ path ∈ paths, ∀ step ∈ path, step.WellFormed)
    (hsha : CollisionFree sha256 paths) :
    (∀ earlier path later, paths = earlier ++ path :: later →
      (Drops sha256 earlier path ↔ ∃ p ∈ earlier, SamePools p path)) ↔
      ∀ p ∈ paths, ∀ q ∈ paths, ¬Confusable p q := by
  constructor
  · intro h p hp q hq hconfusable
    have hearlier : ∀ {path : List PathStep}, path ∈ paths → ∃ earlier first later,
        paths = earlier ++ first :: later ∧ SamePools first path ∧
          ¬Drops sha256 earlier first := by
      intro path hpath
      obtain ⟨earlier, first, later, hsplit, hsame, hnone⟩ :=
        exists_first (P := fun p => SamePools p path) hpath rfl
      refine ⟨earlier, first, later, hsplit, hsame, fun hdrops => ?_⟩
      obtain ⟨r, hr, hr'⟩ := (h earlier first later hsplit).mp hdrops
      exact hnone r hr (hr'.trans hsame)
    obtain ⟨before, p', after, hp', hsame, hkept⟩ := hearlier hp
    obtain ⟨before', q', after', hq', hsame', hkept'⟩ := hearlier hq
    have hconfusable' := hconfusable.congr hsame hsame'
    rcases same_place_or_before (hp'.symm.trans hq') with rfl | hmem | hmem
    · exact hconfusable'.ne rfl
    · rw [hq'] at hwf hsha
      exact hkept' ((drops_iff hwf hsha).mpr ⟨p', hmem, Or.inr (Or.inl hconfusable')⟩)
    · rw [hp'] at hwf hsha
      exact hkept ((drops_iff hwf hsha).mpr ⟨q', hmem, Or.inr (Or.inr hconfusable')⟩)
  · rintro h earlier path later rfl
    rw [drops_iff hwf hsha]
    refine exists_congr fun p => and_congr_right fun hp => ?_
    have hp' : p ∈ earlier ++ path :: later := List.mem_append_left _ hp
    have hpath : path ∈ earlier ++ path :: later := List.mem_append_right _ List.mem_cons_self
    simp only [h p hp' path hpath, h path hpath p hp', or_false]

/-! ## Paths with and without a collision -/

def plainPool (address : Address) : PathStep := ⟨address, ⟨"UniswapV2PoolTable", false⟩, none⟩

def managedPool (address : Address) (hash : String) : PathStep :=
  ⟨address, ⟨"UniswapV4PoolTable", true⟩, some hash⟩

def viaManaged : List PathStep :=
  [managedPool "0x4200000000000000000000000000000000000006"
      "0xaaaaaaaaaaaaaaaaaaaaaaaaaaaaaaaaaaaaaaaabbbbbbbbbbbbbbbbbbbbbbbb",
    plainPool "0xcccccccccccccccccccccccccccccccccccccccc"]

/-- The plain pool is at the address of the manager above. -/
def viaPlain : List PathStep :=
  [plainPool "0x4200000000000000000000000000000000000006",
    managedPool "0xaaaaaaaaaaaaaaaaaaaaaaaaaaaaaaaaaaaaaaaa"
      "0xbbbbbbbbbbbbbbbbbbbbbbbbcccccccccccccccccccccccccccccccccccccccc"]

theorem isHex_iff {text : String} {width : ℕ} : IsHex text width ↔
    (digits text).length = 2 * width ∧ ∀ c ∈ digits text, ∃ digit < 16, hexChar digit = c :=
  ⟨fun h => ⟨h.length, h.digits⟩, fun h => ⟨h.1, h.2⟩⟩

instance (text : String) (width : ℕ) : Decidable (IsHex text width) :=
  have : Decidable (∀ c ∈ digits text, ∃ digit < 16, hexChar digit = c) := List.decidableBAll _ _
  decidable_of_iff _ isHex_iff.symm

theorem wellFormed_iff {step : PathStep} : step.WellFormed ↔
    IsHex step.address 20 ∧ ∀ hash ∈ step.hash, IsHex hash 32 :=
  ⟨fun h => ⟨h.address, h.hash⟩, fun h => ⟨h.1, h.2⟩⟩

instance (step : PathStep) : Decidable step.WellFormed := decidable_of_iff _ wellFormed_iff.symm

theorem viaManaged_wellFormed : ∀ step ∈ viaManaged, step.WellFormed := by decide

theorem viaPlain_wellFormed : ∀ step ∈ viaPlain, step.WellFormed := by decide

def sampleSha256 (bytes : List UInt8) : String :=
  if bytes.head? = some 0x42 then
    "58440fcf65c0f30c30867c5a33a443ff984ee8ebadef88c684ef5c65c3719d5d"
  else "296f912a3930db4f14b02a7218e0f04ec93e48d41fc6543cd73d736261f2164a"

def samplePaths : List (List PathStep) := [viaManaged, viaManaged.reverse, viaManaged]

theorem samplePaths_cases {path : List PathStep} (h : path ∈ samplePaths) :
    path = viaManaged ∨ path = viaManaged.reverse := by
  simp only [samplePaths, List.mem_cons, List.not_mem_nil, or_false] at h
  tauto

theorem samplePaths_collisionFree : CollisionFree sampleSha256 samplePaths := by
  have hfirst : (viaManaged.foldlM updateHasher []).map sampleSha256 =
    .ok "58440fcf65c0f30c30867c5a33a443ff984ee8ebadef88c684ef5c65c3719d5d" := by decide
  have hsecond : (viaManaged.reverse.foldlM updateHasher []).map sampleSha256 =
    .ok "296f912a3930db4f14b02a7218e0f04ec93e48d41fc6543cd73d736261f2164a" := by decide
  rintro bytes ⟨path, hpath, hok⟩ bytes' ⟨path', hpath', hok'⟩ heq
  rcases samplePaths_cases hpath with rfl | rfl <;> rcases samplePaths_cases hpath' with rfl | rfl
  · exact Except.ok.inj (hok.symm.trans hok')
  · rw [hok] at hfirst
    rw [hok'] at hsecond
    simp only [Except.map, Except.ok.injEq, heq] at hfirst hsecond
    exact absurd (hfirst.symm.trans hsecond) (by decide)
  · rw [hok'] at hfirst
    rw [hok] at hsecond
    simp only [Except.map, Except.ok.injEq, heq] at hfirst hsecond
    exact absurd (hfirst.symm.trans hsecond) (by decide)
  · exact Except.ok.inj (hok.symm.trans hok')

theorem samplePaths_not_confusable : ∀ p ∈ samplePaths, ∀ q ∈ samplePaths, ¬Confusable p q := by
  have hspelled : (viaManaged.map PathStep.pool).flatMap concatenated ≠
    (viaManaged.reverse.map PathStep.pool).flatMap concatenated := by decide
  intro p hp q hq h
  rcases samplePaths_cases hp with rfl | rfl <;> rcases samplePaths_cases hq with rfl | rfl
  · exact h.ne rfl
  · exact hspelled h.flatMap_eq
  · exact hspelled h.flatMap_eq.symm
  · exact h.ne rfl

theorem deduplicatePaths_drops_iff_sample :
    (∀ earlier path later, samplePaths = earlier ++ path :: later →
      (Drops sampleSha256 earlier path ↔ ∃ p ∈ earlier, SamePools p path)) ∧
      ∀ p ∈ samplePaths, ∀ q ∈ samplePaths, ¬Confusable p q :=
  ⟨(deduplicatePaths_drops_iff
    (fun path hpath step hstep => by
      rcases samplePaths_cases hpath with rfl | rfl
      · exact viaManaged_wellFormed step hstep
      · exact viaManaged_wellFormed step (List.mem_reverse.mp hstep))
    samplePaths_collisionFree).mpr samplePaths_not_confusable, samplePaths_not_confusable⟩

/-- A path of other pools is dropped, whatever the digest is. -/
theorem drops_viaPlain (sha256 : List UInt8 → String) :
    (∀ path ∈ [viaManaged, viaPlain], ∀ step ∈ path, step.WellFormed) ∧
      CollisionFree sha256 [viaManaged, viaPlain] ∧ Drops sha256 [viaManaged] viaPlain ∧
      ¬∃ p ∈ [viaManaged], SamePools p viaPlain := by
  have hsame : viaPlain.foldlM updateHasher [] = viaManaged.foldlM updateHasher [] := by decide
  have hwf : ∀ path ∈ [viaManaged, viaPlain], ∀ step ∈ path, step.WellFormed := by
    intro path hpath
    rcases List.mem_pair.mp hpath with rfl | rfl
    · exact viaManaged_wellFormed
    · exact viaPlain_wellFormed
  have hsha : CollisionFree sha256 [viaManaged, viaPlain] := by
    have hok : ∀ path ∈ [viaManaged, viaPlain],
        path.foldlM updateHasher [] = viaManaged.foldlM updateHasher [] := by
      intro path hpath
      rcases List.mem_pair.mp hpath with rfl | rfl
      · rfl
      · exact hsame
    rintro bytes ⟨path, hpath, hbytes⟩ bytes' ⟨path', hpath', hbytes'⟩ -
    rw [hok path hpath] at hbytes
    rw [hok path' hpath'] at hbytes'
    exact Except.ok.inj (hbytes.symm.trans hbytes')
  have hconfusable : Confusable viaPlain viaManaged :=
    ⟨[], _, _, _, _, rfl, rfl, by decide⟩
  refine ⟨hwf, hsha, ?_, ?_⟩
  · exact (@drops_iff _ _ _ _ [viaManaged] [] hwf hsha).mpr
      ⟨viaManaged, List.mem_singleton_self _, Or.inr (Or.inr hconfusable)⟩
  · rintro ⟨p, hp, hpools⟩
    rw [List.mem_singleton.mp hp] at hpools
    exact hconfusable.ne hpools.symm

theorem deduplicatePaths_drops_other :
    (∀ path ∈ [viaManaged, viaPlain], ∀ step ∈ path, step.WellFormed) ∧
      CollisionFree sampleSha256 [viaManaged, viaPlain] ∧
      Drops sampleSha256 [viaManaged] viaPlain ∧ ¬∃ p ∈ [viaManaged], SamePools p viaPlain :=
  drops_viaPlain sampleSha256

end Deduplicated

end Degenbot.Pathfinding
