import Degenbot.Algorithm.UpdateLoop
import Degenbot.Library.Lists
import Mathlib.Tactic

/-! # Block ranges of an update

Each exchange should see every block from its stamp to the last block once. The loop caps a
chunk at the stamps above its start, so that an exchange whose stamp is the start itself is
passed over. A checkpoint of the markets detaches those that are updated after the first. -/

namespace Degenbot.UpdateLoop

open Library

/-! ## The contract -/

/-- Ranges that follow each other without a gap, from block `first` up to `stop`, which is
excluded. -/
inductive Tiles : ℕ → List (ℕ × ℕ) → ℕ → Prop where
  | nil (stop : ℕ) : Tiles stop [] stop
  | cons {first last stop : ℕ} {rest : List (ℕ × ℕ)} (hle : first ≤ last)
      (hrest : Tiles (last + 1) rest stop) : Tiles first ((first, last) :: rest) stop

theorem Tiles.snoc {first start last : ℕ} {ranges : List (ℕ × ℕ)} (h : Tiles first ranges start)
    (hle : start ≤ last) : Tiles first (ranges ++ [(start, last)]) (last + 1) := by
  induction h with
  | nil stop => exact .cons hle (.nil (last + 1))
  | cons hfirst _ ih => exact .cons hfirst (ih hle)

/-- The updater of an exchange was called for ranges that tile the blocks up to `stop`. -/
def Covered (stop : ℕ) (before after : Exchange) : Prop :=
  ∃ ranges, after.updates = before.updates ++ ranges ∧ Tiles before.nextBlock ranges stop

/-- No block of the exchange is skipped or repeated, and the stamp is the last block. -/
structure CaughtUp (lastBlock : ℕ) (before after : Exchange) : Prop where
  stamp : after.lastUpdateBlock = some lastBlock
  ranges : Covered (lastBlock + 1) before after

/-- The command ends with every exchange caught up. -/
def Completes (lastBlock : ℕ) (exchanges : List Exchange)
    (command : ℕ → Option (Except Exn (Option State))) : Prop :=
  ∃ fuel final, command fuel = some (.ok (some final)) ∧
    List.Forall₂ (CaughtUp lastBlock) exchanges final.exchanges

/-- First blocks of two exchanges with no exchange in between. -/
structure Consecutive (exchanges : List Exchange) (a b : ℕ) : Prop where
  lower : a ∈ exchanges.map Exchange.nextBlock
  upper : b ∈ exchanges.map Exchange.nextBlock
  lt : a < b
  between : ∀ x ∈ exchanges.map Exchange.nextBlock, x ≤ a ∨ b ≤ x

/-- The chunks that start at one stamp never start a chunk on the next stamp below the last
block, counted from block `start` on. -/
def SpacedFrom (chunkSize : ℕ+) (lastBlock start : ℕ) (exchanges : List Exchange) : Prop :=
  chunkSize = 1 ∨ ∀ a b, Consecutive exchanges a b → start < b → b ≤ lastBlock →
    ¬(chunkSize : ℕ) ∣ b - a - 1

/-- A chunk that starts at the first block of an exchange or a whole number of chunks after it,
with no other first block in between, and that ends before the next one. -/
structure Chunk (chunkSize : ℕ+) (lastBlock : ℕ) (exchanges : List Exchange) (start stop : ℕ) :
    Prop where
  le_last : start ≤ lastBlock
  aligned : ∃ a ∈ exchanges.map Exchange.nextBlock, a ≤ start ∧ (chunkSize : ℕ) ∣ start - a ∧
    ∀ b ∈ exchanges.map Exchange.nextBlock, b ≤ a ∨ start < b
  start_le_stop : start ≤ stop
  stop_le_last : stop ≤ lastBlock
  stop_lt_chunk : stop < start + chunkSize
  stop_lt_first : ∀ b ∈ exchanges.map Exchange.nextBlock, start < b → stop < b
  stop_reached : stop = lastBlock ∨ stop + 1 = start + chunkSize ∨
    stop + 1 ∈ exchanges.map Exchange.nextBlock

/-- The exchanges whose first block is not above `start`. -/
def started (exchanges : List Exchange) (start : ℕ) : ℕ :=
  exchanges.countP fun exchange => exchange.nextBlock ≤ start

/-- A predicate on the range and the number of exchanges in it holds of the chunks that start at
`start` or later. -/
def QuietFrom (quiet : ℕ → ℕ → ℕ → Prop) (chunkSize : ℕ+) (lastBlock start : ℕ)
    (exchanges : List Exchange) : Prop :=
  ∀ first last, start ≤ first → Chunk chunkSize lastBlock exchanges first last →
    quiet first last (started exchanges first)

/-- The markets of a chunk are verified without harm: the interval is not zero, and a checkpoint
has a single market. -/
def VerifyOptions.Quiet (options : VerifyOptions) (start stop count : ℕ) : Prop :=
  options.verifyAll = true → options.backupInterval ≠ 0 ∧
    (2 ≤ count → Int.fdiv stop options.backupInterval = Int.fdiv start options.backupInterval ∧
      Int.fmod stop options.backupInterval ≠ 0)

/-! ## One exchange -/

namespace Exchange

variable {exchange : Exchange} {start stop : ℕ}

theorem isDue_iff :
    exchange.isDue start = true ↔
      exchange.lastUpdateBlock = none ∨ exchange.nextBlock = start := by
  unfold isDue nextBlock
  cases exchange.lastUpdateBlock with
  | none => simp
  | some block => simp

theorem update_of_due (h : exchange.nextBlock = start) :
    exchange.update start stop =
      { exchange with
        lastUpdateBlock := some stop
        updates := exchange.updates ++ [(start, stop)] } := by
  unfold update
  rw [if_pos (isDue_iff.mpr (.inr h))]

theorem update_of_later (h : start < exchange.nextBlock) :
    exchange.update start stop = exchange := by
  unfold update
  rw [if_neg]
  rw [isDue_iff]
  unfold nextBlock at *
  cases hblock : exchange.lastUpdateBlock with
  | none => simp [hblock] at h
  | some block =>
      simp only [hblock] at h
      simp only [reduceCtorEq, false_or]
      omega

theorem update_of_behind {block : ℕ} (hblock : exchange.lastUpdateBlock = some block)
    (h : block + 1 ≠ start) : exchange.update start stop = exchange := by
  unfold update
  rw [if_neg]
  rw [isDue_iff]
  simp [hblock, nextBlock, h]

end Exchange

/-! ## The exchanges of one range

An updater is used through this specification only. -/

/-- A range is stamped on every due exchange if it is quiet for their number, and fails
otherwise. -/
structure Stamps (updater : Updater) (quiet : ℕ → ℕ → ℕ → Prop) : Prop where
  stamped : ∀ start stop exchanges, (∃ exchange ∈ exchanges, exchange.isDue start = true) →
    quiet start stop (exchanges.countP fun exchange => exchange.isDue start) →
      updater start stop exchanges = .ok (exchanges.map (Exchange.update start stop))
  fails : ∀ start stop exchanges, (∃ exchange ∈ exchanges, exchange.isDue start = true) →
    ¬quiet start stop (exchanges.countP fun exchange => exchange.isDue start) →
      ∃ e, updater start stop exchanges = .error e
  eq_of_ok : ∀ start stop exchanges updated, updater start stop exchanges = .ok updated →
    updated = exchanges.map (Exchange.update start stop)

theorem updateExchanges_stamps : Stamps updateExchanges fun _ _ _ => True where
  stamped _ _ _ _ _ := rfl
  fails _ _ _ _ h := absurd trivial h
  eq_of_ok _ _ _ _ h := (Except.ok.inj h).symm

section Markets

variable {options : VerifyOptions} {start stop : ℕ} {removed : Bool} {market : Exchange}
  {markets updated : List Exchange}

theorem Exchange.update_of_not_due (h : ¬market.isDue start = true) :
    market.update start stop = market := if_neg h

theorem updateMarkets_of_due (h : market.isDue start = true) :
    updateMarkets options start stop false (market :: markets) = (do
      let checkpoint ← options.isCheckpoint start stop
      let rest ← updateMarkets options start stop checkpoint markets
      .ok (market.update start stop :: rest)) := by
  rw [updateMarkets, if_pos h, if_neg Bool.false_ne_true]

theorem updateMarkets_of_not_due (h : ¬market.isDue start = true) :
    updateMarkets options start stop removed (market :: markets) = (do
      let rest ← updateMarkets options start stop removed markets
      .ok (market.update start stop :: rest)) := by
  rw [updateMarkets, if_neg h, Exchange.update_of_not_due h]

/-- Once the session is removed, a due market ends the command. -/
theorem updateMarkets_removed (h : ∃ market ∈ markets, market.isDue start = true) :
    updateMarkets options start stop true markets = .error (.systemExit 1) := by
  induction markets with
  | nil =>
      obtain ⟨market, hmem, -⟩ := h
      cases hmem
  | cons market markets ih =>
      by_cases hdue : market.isDue start = true
      · rw [updateMarkets, if_pos hdue, if_pos rfl]
      · have hrest : ∃ market ∈ markets, market.isDue start = true := by
          obtain ⟨found, hmem, hfound⟩ := h
          rcases List.mem_cons.mp hmem with rfl | hmem
          · exact absurd hfound hdue
          · exact ⟨found, hmem, hfound⟩
        rw [updateMarkets_of_not_due hdue, ih hrest]
        rfl

theorem updateMarkets_none_due (h : ∀ market ∈ markets, ¬market.isDue start = true) :
    updateMarkets options start stop removed markets =
      .ok (markets.map (Exchange.update start stop)) := by
  induction markets with
  | nil => rfl
  | cons market markets ih =>
      rw [updateMarkets_of_not_due (h market List.mem_cons_self),
        ih fun m hm => h m (List.mem_cons_of_mem _ hm)]
      rfl

theorem updateMarkets_ok (h : updateMarkets options start stop removed markets = .ok updated) :
    updated = markets.map (Exchange.update start stop) := by
  induction markets generalizing removed updated with
  | nil => exact (Except.ok.inj h).symm
  | cons market markets ih =>
      by_cases hdue : market.isDue start = true
      · cases removed with
        | true =>
            rw [updateMarkets_removed ⟨market, List.mem_cons_self, hdue⟩] at h
            cases h
        | false =>
            rw [updateMarkets_of_due hdue] at h
            obtain ⟨checkpoint, -, h⟩ := bind_eq_ok.mp h
            obtain ⟨rest, hrest, h⟩ := bind_eq_ok.mp h
            rw [← Except.ok.inj h, ih hrest, List.map_cons]
      · rw [updateMarkets_of_not_due hdue] at h
        obtain ⟨rest, hrest, h⟩ := bind_eq_ok.mp h
        rw [← Except.ok.inj h, ih hrest, List.map_cons]

/-- Without a checkpoint every due market is stamped. -/
theorem updateMarkets_of_not_checkpoint (hcheck : options.isCheckpoint start stop = .ok false) :
    updateMarkets options start stop false markets =
      .ok (markets.map (Exchange.update start stop)) := by
  induction markets with
  | nil => rfl
  | cons market markets ih =>
      by_cases hdue : market.isDue start = true
      · rw [updateMarkets_of_due hdue, hcheck, ok_bind, ih]
        rfl
      · rw [updateMarkets_of_not_due hdue, ih]
        rfl

/-- The markets before the first due one do not matter. -/
theorem updateMarkets_append {before : List Exchange}
    (hbefore : ∀ m ∈ before, ¬m.isDue start = true) :
    updateMarkets options start stop removed (before ++ markets) = (do
      let rest ← updateMarkets options start stop removed markets
      .ok (before.map (Exchange.update start stop) ++ rest)) := by
  induction before with
  | nil =>
      rw [List.nil_append]
      cases updateMarkets options start stop removed markets <;> rfl
  | cons m before ih =>
      rw [List.cons_append, updateMarkets_of_not_due (hbefore m List.mem_cons_self),
        ih fun m' hm' => hbefore m' (List.mem_cons_of_mem _ hm')]
      cases updateMarkets options start stop removed markets <;> rfl

/-- At a checkpoint the first due market is stamped and those after it end the command. -/
theorem updateMarkets_of_checkpoint (hcheck : options.isCheckpoint start stop = .ok true)
    (hexists : ∃ market ∈ markets, market.isDue start = true) :
    updateMarkets options start stop false markets =
      if 2 ≤ markets.countP fun market => market.isDue start then .error (.systemExit 1)
      else .ok (markets.map (Exchange.update start stop)) := by
  obtain ⟨first, hfirst⟩ := Option.isSome_iff_exists.mp (List.find?_isSome.mpr hexists)
  obtain ⟨hdue, before, rest, rfl, hbefore⟩ := List.find?_eq_some_iff_append.mp hfirst
  have hbefore : ∀ m ∈ before, ¬m.isDue start = true := by simpa using hbefore
  have hnone : before.countP (fun market => market.isDue start) = 0 := List.countP_eq_zero.mpr hbefore
  rw [updateMarkets_append hbefore, updateMarkets_of_due hdue, hcheck, ok_bind,
    List.countP_append, hnone, List.countP_cons_of_pos (p := fun m : Exchange => m.isDue start) hdue,
    List.map_append, List.map_cons]
  by_cases hmore : ∃ market ∈ rest, market.isDue start = true
  · have hcount := List.countP_pos_iff.mpr hmore
    rw [updateMarkets_removed hmore, if_pos (by omega)]
    rfl
  · have hcount : rest.countP (fun market => market.isDue start) = 0 :=
      List.countP_eq_zero.mpr fun m hm hdue' => hmore ⟨m, hm, hdue'⟩
    rw [updateMarkets_none_due fun m hm hdue' => hmore ⟨m, hm, hdue'⟩, hcount, if_neg (by omega)]
    rfl

theorem isCheckpoint_eq_true_iff (hverify : options.verifyAll = true)
    (hinterval : options.backupInterval ≠ 0) :
    options.isCheckpoint start stop = .ok true ↔
      ¬(Int.fdiv stop options.backupInterval = Int.fdiv start options.backupInterval ∧
        Int.fmod stop options.backupInterval ≠ 0) := by
  rw [VerifyOptions.isCheckpoint, if_pos hverify, if_neg hinterval, Except.ok.injEq,
    decide_eq_true_iff]
  tauto

theorem updateMarkets_stamps (options : VerifyOptions) :
    Stamps (fun start stop => updateMarkets options start stop false) options.Quiet where
  eq_of_ok _ _ _ _ h := updateMarkets_ok h
  stamped start stop markets hexists hquiet := by
    by_cases hverify : options.verifyAll = true
    · obtain ⟨hinterval, hcount⟩ := hquiet hverify
      by_cases hcheck : options.isCheckpoint start stop = .ok true
      · have hfew := fun h => (isCheckpoint_eq_true_iff hverify hinterval).mp hcheck (hcount h)
        exact (updateMarkets_of_checkpoint hcheck hexists).trans (if_neg hfew)
      · refine updateMarkets_of_not_checkpoint ?_
        rw [VerifyOptions.isCheckpoint, if_pos hverify, if_neg hinterval] at hcheck ⊢
        simpa using hcheck
    · exact updateMarkets_of_not_checkpoint (by rw [VerifyOptions.isCheckpoint, if_neg hverify])
  fails start stop markets hexists hloud := by
    obtain ⟨hverify, hloud⟩ := Classical.not_imp.mp hloud
    by_cases hinterval : options.backupInterval = 0
    · obtain ⟨first, hfirst⟩ := Option.isSome_iff_exists.mp (List.find?_isSome.mpr hexists)
      obtain ⟨hdue, before, rest, rfl, hbefore⟩ := List.find?_eq_some_iff_append.mp hfirst
      refine ⟨.zeroDivisionError, ?_⟩
      rw [updateMarkets_append (by simpa using hbefore), updateMarkets_of_due hdue,
        VerifyOptions.isCheckpoint, if_pos hverify, if_pos hinterval]
      rfl
    · obtain ⟨hmany, hcheck⟩ := Classical.not_imp.mp fun h => hloud ⟨hinterval, h⟩
      have hcheck := (isCheckpoint_eq_true_iff hverify hinterval).mpr hcheck
      exact ⟨_, (updateMarkets_of_checkpoint hcheck hexists).trans (if_pos hmany)⟩

end Markets

/-! ## The working end block -/

section WorkingEndBlock

variable (chunkSize : ℕ+) (lastBlock start : ℕ) (exchanges : List Exchange)

theorem mem_laterStamps {t : ℕ} :
    t ∈ laterStamps start exchanges ↔
      start < t ∧ ∃ exchange ∈ exchanges, exchange.lastUpdateBlock = some t := by
  simp [laterStamps, and_comm]

theorem workingEndBlock_le_last : workingEndBlock chunkSize lastBlock start exchanges ≤ lastBlock :=
  (foldl_min_spec _ lastBlock).2.1

theorem workingEndBlock_le_chunk :
    workingEndBlock chunkSize lastBlock start exchanges ≤ start + chunkSize - 1 :=
  (foldl_min_spec _ lastBlock).2.2 _ List.mem_cons_self

theorem workingEndBlock_le_stamp {t : ℕ} (ht : t ∈ laterStamps start exchanges) :
    workingEndBlock chunkSize lastBlock start exchanges ≤ t :=
  (foldl_min_spec _ lastBlock).2.2 _ (List.mem_cons_of_mem _ ht)

theorem workingEndBlock_cases :
    workingEndBlock chunkSize lastBlock start exchanges = lastBlock ∨
      workingEndBlock chunkSize lastBlock start exchanges = start + chunkSize - 1 ∨
      workingEndBlock chunkSize lastBlock start exchanges ∈ laterStamps start exchanges := by
  have hmem := (foldl_min_spec
    ((start + (chunkSize : ℕ) - 1) :: laterStamps start exchanges) lastBlock).1
  rwa [List.mem_cons] at hmem

theorem start_le_workingEndBlock (h : start ≤ lastBlock) :
    start ≤ workingEndBlock chunkSize lastBlock start exchanges := by
  have hchunk := chunkSize.pos
  rcases workingEndBlock_cases chunkSize lastBlock start exchanges with heq | heq | hmem
  · omega
  · omega
  · have := ((mem_laterStamps start exchanges).mp hmem).1
    omega

end WorkingEndBlock

/-! ## The invariant -/

/-- An exchange that the loop has reached is covered up to the working start block. The
others are as they were. -/
structure Progress (start : ℕ) (before now : Exchange) : Prop where
  reached : before.nextBlock ≤ start → now.nextBlock = start ∧ Covered start before now
  later : start < before.nextBlock → now = before

/-- Between two turns: the working start block is a whole number of chunks after the first
block of the exchange that was reached last. -/
structure Inv (chunkSize : ℕ+) (lastBlock : ℕ) (exchanges : List Exchange) (s : State) :
    Prop where
  running : s.done = false
  le_last : s.workingStartBlock ≤ lastBlock
  aligned : ∃ a ∈ exchanges.map Exchange.nextBlock, a ≤ s.workingStartBlock ∧
    (chunkSize : ℕ) ∣ s.workingStartBlock - a ∧
    ∀ b ∈ exchanges.map Exchange.nextBlock, b ≤ a ∨ s.workingStartBlock < b
  progress : List.Forall₂ (Progress s.workingStartBlock) exchanges s.exchanges

section Step

variable {updater : Updater} {quiet : ℕ → ℕ → ℕ → Prop} {chunkSize : ℕ+} {lastBlock : ℕ}
  {exchanges : List Exchange} {s : State}

/-- The end block of the turn that starts in `s`. -/
def State.endBlock (chunkSize : ℕ+) (lastBlock : ℕ) (s : State) : ℕ :=
  workingEndBlock chunkSize lastBlock s.workingStartBlock s.exchanges

/-- The exchanges after that turn. -/
def State.updated (chunkSize : ℕ+) (lastBlock : ℕ) (s : State) : List Exchange :=
  s.exchanges.map (Exchange.update s.workingStartBlock (s.endBlock chunkSize lastBlock))

/-- The state after that turn. -/
def State.next (chunkSize : ℕ+) (lastBlock : ℕ) (s : State) : State :=
  if s.endBlock chunkSize lastBlock = lastBlock then
    { s with exchanges := s.updated chunkSize lastBlock, done := true }
  else { s with
    exchanges := s.updated chunkSize lastBlock
    workingStartBlock := s.endBlock chunkSize lastBlock + 1 }

theorem body_eq (h : s.workingStartBlock ≤ s.endBlock chunkSize lastBlock) :
    body updater chunkSize lastBlock s = (do
      let updated ← updater s.workingStartBlock (s.endBlock chunkSize lastBlock) s.exchanges
      if s.endBlock chunkSize lastBlock = lastBlock then
        .ok { s with exchanges := updated, done := true }
      else .ok { s with
        exchanges := updated
        workingStartBlock := s.endBlock chunkSize lastBlock + 1 }) := by
  unfold body
  exact if_neg (not_not.mpr h)

theorem body_of_stamped (h : s.workingStartBlock ≤ s.endBlock chunkSize lastBlock)
    (hstamped : updater s.workingStartBlock (s.endBlock chunkSize lastBlock) s.exchanges =
      .ok (s.updated chunkSize lastBlock)) :
    body updater chunkSize lastBlock s = .ok (s.next chunkSize lastBlock) := by
  rw [body_eq h, hstamped, ok_bind, State.next]
  split_ifs <;> rfl

/-- A turn that succeeds stamps what is due. -/
theorem body_eq_ok (hupdater : Stamps updater quiet) {s' : State}
    (h : body updater chunkSize lastBlock s = .ok s') :
    s.workingStartBlock ≤ s.endBlock chunkSize lastBlock ∧ s' = s.next chunkSize lastBlock := by
  by_cases hle : s.workingStartBlock ≤ s.endBlock chunkSize lastBlock
  · rw [body_eq hle] at h
    obtain ⟨updated, hupdated, h⟩ := bind_eq_ok.mp h
    rw [hupdater.eq_of_ok _ _ _ _ hupdated] at h
    refine ⟨hle, ?_⟩
    unfold State.next
    split_ifs at h ⊢ <;> exact (Except.ok.inj h).symm
  · have hfails : body updater chunkSize lastBlock s = .error .assertionError := if_pos hle
    rw [hfails] at h
    cases h

/-- A first block above the working start block is still stored. -/
theorem exists_stamp (hinv : Inv chunkSize lastBlock exchanges s) {b : ℕ}
    (hb : b ∈ exchanges.map Exchange.nextBlock) (hlt : s.workingStartBlock < b) :
    ∃ exchange ∈ s.exchanges, exchange.lastUpdateBlock = some (b - 1) := by
  obtain ⟨before, hbefore, rfl⟩ := List.mem_map.mp hb
  obtain ⟨now, hnow, hprogress⟩ := exists_right_of_forall₂ hinv.progress hbefore
  obtain rfl := hprogress.later hlt
  refine ⟨now, hnow, ?_⟩
  unfold Exchange.nextBlock at *
  cases hblock : now.lastUpdateBlock with
  | none => simp [hblock] at hlt
  | some block => simp

/-- The turn passes over no exchange. -/
def Passes (chunkSize : ℕ+) (lastBlock : ℕ) (exchanges : List Exchange) (s : State) : Prop :=
  ∀ b ∈ exchanges.map Exchange.nextBlock, s.workingStartBlock < b →
    s.endBlock chunkSize lastBlock < b

/-- A turn passes over an exchange only if its stamp is the working start block. -/
theorem passes_or (hinv : Inv chunkSize lastBlock exchanges s) :
    Passes chunkSize lastBlock exchanges s ∨
      s.workingStartBlock + 1 ∈ exchanges.map Exchange.nextBlock ∧
        s.workingStartBlock < s.endBlock chunkSize lastBlock := by
  by_cases hskip : s.workingStartBlock + 1 ∈ exchanges.map Exchange.nextBlock ∧
      s.workingStartBlock < s.endBlock chunkSize lastBlock
  · exact .inr hskip
  refine .inl ?_
  intro b hb hlt
  by_cases hadjacent : b = s.workingStartBlock + 1
  · subst hadjacent
    have hnot : ¬s.workingStartBlock < s.endBlock chunkSize lastBlock := fun h => hskip ⟨hb, h⟩
    omega
  · obtain ⟨exchange, hmem, hstamp⟩ := exists_stamp hinv hb hlt
    have hcap := workingEndBlock_le_stamp chunkSize lastBlock s.workingStartBlock s.exchanges
      ((mem_laterStamps _ _).mpr ⟨by omega, exchange, hmem, hstamp⟩)
    unfold State.endBlock
    omega

theorem progress_update {start stop : ℕ} {before now : Exchange}
    (h : Progress start before now) (hle : start ≤ stop)
    (hpass : start < before.nextBlock → stop < before.nextBlock) :
    Progress (stop + 1) before (now.update start stop) := by
  by_cases hreached : before.nextBlock ≤ start
  · obtain ⟨hnext, ranges, hupdates, htiles⟩ := h.reached hreached
    rw [Exchange.update_of_due hnext]
    refine ⟨fun _ => ⟨rfl, ranges ++ [(start, stop)], ?_, htiles.snoc hle⟩, ?_⟩
    · simp [hupdates]
    · intro hlater
      omega
  · have hlater := not_le.mp hreached
    have hstop := hpass hlater
    obtain rfl := h.later hlater
    rw [Exchange.update_of_later hlater]
    refine ⟨fun hle' => ?_, fun _ => rfl⟩
    have heq : now.nextBlock = stop + 1 := by omega
    exact ⟨heq, [], by simp, heq ▸ .nil _⟩

theorem progress_map_update (hinv : Inv chunkSize lastBlock exchanges s)
    (hpass : Passes chunkSize lastBlock exchanges s) :
    List.Forall₂ (Progress (s.endBlock chunkSize lastBlock + 1)) exchanges
      (s.updated chunkSize lastBlock) := by
  have hle := start_le_workingEndBlock chunkSize lastBlock s.workingStartBlock s.exchanges
    hinv.le_last
  unfold State.updated
  rw [List.forall₂_map_right_iff]
  refine ((List.forall₂_and_left exchanges s.exchanges).mpr
    ⟨fun before hbefore => hbefore, hinv.progress⟩).imp ?_
  intro before now ⟨hbefore, hprogress⟩
  exact progress_update hprogress hle (hpass _ (List.mem_map_of_mem hbefore))

/-- A stamp that caps a turn is that of an exchange that the loop has not reached. -/
theorem mem_first_of_stamp (hinv : Inv chunkSize lastBlock exchanges s) {stamp : ℕ}
    (h : stamp ∈ laterStamps s.workingStartBlock s.exchanges) :
    stamp + 1 ∈ exchanges.map Exchange.nextBlock := by
  obtain ⟨hlater, now, hnow, hnowStamp⟩ := (mem_laterStamps _ _).mp h
  obtain ⟨before, hbefore, hprogress⟩ := exists_left_of_forall₂ hinv.progress hnow
  have hnext : now.nextBlock = stamp + 1 := by simp [Exchange.nextBlock, hnowStamp]
  by_cases hearly : before.nextBlock ≤ s.workingStartBlock
  · have := (hprogress.reached hearly).1
    omega
  · obtain rfl := hprogress.later (not_le.mp hearly)
    exact hnext ▸ List.mem_map_of_mem hbefore

/-- The invariant after a turn that is not the last one. -/
theorem inv_step (hinv : Inv chunkSize lastBlock exchanges s)
    (hpass : Passes chunkSize lastBlock exchanges s)
    (hmore : s.endBlock chunkSize lastBlock ≠ lastBlock) :
    Inv chunkSize lastBlock exchanges
      { s with
        exchanges := s.updated chunkSize lastBlock
        workingStartBlock := s.endBlock chunkSize lastBlock + 1 } := by
  have hlast : s.endBlock chunkSize lastBlock ≤ lastBlock :=
    workingEndBlock_le_last chunkSize lastBlock s.workingStartBlock s.exchanges
  have hstart : s.workingStartBlock ≤ s.endBlock chunkSize lastBlock :=
    start_le_workingEndBlock chunkSize lastBlock s.workingStartBlock s.exchanges hinv.le_last
  refine ⟨hinv.running, Nat.lt_of_le_of_ne hlast hmore, ?_, progress_map_update hinv hpass⟩
  obtain ⟨a, ha, hale, hdvd, hmax⟩ := hinv.aligned
  dsimp only
  by_cases hreached : s.endBlock chunkSize lastBlock + 1 ∈ exchanges.map Exchange.nextBlock
  · -- an exchange is reached, and is now the last one
    refine ⟨_, hreached, le_rfl, by simp, ?_⟩
    intro b _
    omega
  · -- no stamp capped the turn, so that it was a full chunk
    have hfull : s.endBlock chunkSize lastBlock + 1 = s.workingStartBlock + chunkSize := by
      have hchunk := chunkSize.pos
      rcases workingEndBlock_cases chunkSize lastBlock s.workingStartBlock s.exchanges with
        heq | heq | hstamp
      · exact absurd heq hmore
      · unfold State.endBlock
        omega
      · exact absurd (mem_first_of_stamp hinv hstamp) hreached
    refine ⟨a, ha, by omega, ?_, ?_⟩
    · rw [hfull, Nat.sub_add_comm hale]
      exact Nat.dvd_add hdvd dvd_rfl
    · intro b hb
      rcases hmax b hb with hsmall | hlater
      · exact .inl hsmall
      · have := hpass b hb hlater
        have hne : b ≠ s.endBlock chunkSize lastBlock + 1 := fun h => hreached (h ▸ hb)
        exact .inr (by omega)

/-! ## A lost exchange -/

/-- Some exchange has a stamp that no later chunk starts after. -/
def Lost (lastBlock : ℕ) (s : State) : Prop :=
  ∃ exchange ∈ s.exchanges, ∃ block, exchange.lastUpdateBlock = some block ∧ block < lastBlock ∧
    (s.done = true ∨ block + 1 < s.workingStartBlock)

theorem lost_step (hupdater : Stamps updater quiet) {s s' : State} (h : Lost lastBlock s)
    (hstep : Iterates guard (body updater chunkSize lastBlock) s s') : Lost lastBlock s' := by
  obtain ⟨exchange, hmem, block, hblock, hlt, hbehind⟩ := h
  obtain ⟨hguard, hbody⟩ := hstep
  have hbehind : block + 1 < s.workingStartBlock := by
    rcases hbehind with hdone | hbehind
    · simp [guard, hdone] at hguard
    · exact hbehind
  have hkept : exchange ∈ s.updated chunkSize lastBlock :=
    List.mem_map.mpr ⟨exchange, hmem, Exchange.update_of_behind hblock hbehind.ne⟩
  obtain ⟨hle, rfl⟩ := body_eq_ok hupdater hbody
  unfold State.next
  split_ifs
  · exact ⟨exchange, hkept, block, hblock, hlt, .inl rfl⟩
  · refine ⟨exchange, hkept, block, hblock, hlt, .inr ?_⟩
    dsimp only
    omega

theorem not_caughtUp_of_lost {s : State} (h : Lost lastBlock s) :
    ¬List.Forall₂ (CaughtUp lastBlock) exchanges s.exchanges := by
  intro hall
  obtain ⟨exchange, hmem, block, hblock, hlt, -⟩ := h
  obtain ⟨before, -, hcaught⟩ := exists_left_of_forall₂ hall hmem
  have heq := hblock.symm.trans hcaught.stamp
  simp only [Option.some.injEq] at heq
  omega

/-- A turn that starts on a stamp and ends after it loses the exchange. -/
theorem lost_of_skip (hinv : Inv chunkSize lastBlock exchanges s)
    (hnext : s.workingStartBlock + 1 ∈ exchanges.map Exchange.nextBlock)
    (hlt : s.workingStartBlock < s.endBlock chunkSize lastBlock) :
    Lost lastBlock (s.next chunkSize lastBlock) := by
  obtain ⟨exchange, hmem, hstamp⟩ := exists_stamp hinv hnext (Nat.lt_succ_self _)
  have hlast : s.endBlock chunkSize lastBlock ≤ lastBlock :=
    workingEndBlock_le_last chunkSize lastBlock s.workingStartBlock s.exchanges
  rw [Nat.add_sub_cancel] at hstamp
  have hkept : exchange ∈ s.updated chunkSize lastBlock := by
    refine List.mem_map.mpr ⟨exchange, hmem, ?_⟩
    exact Exchange.update_of_behind hstamp (by omega)
  unfold State.next
  split_ifs
  · exact ⟨exchange, hkept, _, hstamp, by omega, .inl rfl⟩
  · refine ⟨exchange, hkept, _, hstamp, by omega, .inr ?_⟩
    dsimp only
    omega

/-! ## The condition, turn by turn -/

theorem not_spacedFrom_of_skip (hinv : Inv chunkSize lastBlock exchanges s)
    (hnext : s.workingStartBlock + 1 ∈ exchanges.map Exchange.nextBlock)
    (hlt : s.workingStartBlock < s.endBlock chunkSize lastBlock) :
    ¬SpacedFrom chunkSize lastBlock s.workingStartBlock exchanges := by
  have hlast : s.endBlock chunkSize lastBlock ≤ lastBlock :=
    workingEndBlock_le_last chunkSize lastBlock s.workingStartBlock s.exchanges
  have hchunk : s.endBlock chunkSize lastBlock ≤ s.workingStartBlock + chunkSize - 1 :=
    workingEndBlock_le_chunk chunkSize lastBlock s.workingStartBlock s.exchanges
  obtain ⟨a, ha, hale, hdvd, hmax⟩ := hinv.aligned
  intro hspaced
  rcases hspaced with hone | hspaced
  · rw [hone] at hchunk hlt
    simp only [PNat.val_ofNat, Nat.add_sub_cancel] at hchunk
    omega
  · have hconsecutive : Consecutive exchanges a (s.workingStartBlock + 1) := by
      refine ⟨ha, hnext, by omega, ?_⟩
      intro x hx
      exact (hmax x hx).imp_right Nat.succ_le_of_lt
    refine hspaced a _ hconsecutive (Nat.lt_succ_self _) (by omega) ?_
    have hsub : s.workingStartBlock + 1 - a - 1 = s.workingStartBlock - a := by omega
    rwa [hsub]

/-- In a turn that ends at the last block, no exchange lies ahead. -/
theorem spacedFrom_of_last (hpass : Passes chunkSize lastBlock exchanges s)
    (hend : s.endBlock chunkSize lastBlock = lastBlock) :
    SpacedFrom chunkSize lastBlock s.workingStartBlock exchanges := by
  refine .inr ?_
  intro a b hconsecutive hlt hle
  have := hpass b hconsecutive.upper hlt
  omega

/-- A turn between two chunks settles no pair of stamps: an exchange that it reaches was not
a whole number of chunks away. -/
theorem spacedFrom_step (hinv : Inv chunkSize lastBlock exchanges s)
    (hpass : Passes chunkSize lastBlock exchanges s)
    (hmore : s.endBlock chunkSize lastBlock ≠ lastBlock) :
    SpacedFrom chunkSize lastBlock s.workingStartBlock exchanges ↔
      SpacedFrom chunkSize lastBlock (s.endBlock chunkSize lastBlock + 1) exchanges := by
  have hstart : s.workingStartBlock ≤ s.endBlock chunkSize lastBlock :=
    start_le_workingEndBlock chunkSize lastBlock s.workingStartBlock s.exchanges hinv.le_last
  have hchunk : s.endBlock chunkSize lastBlock ≤ s.workingStartBlock + chunkSize - 1 :=
    workingEndBlock_le_chunk chunkSize lastBlock s.workingStartBlock s.exchanges
  obtain ⟨a, ha, hale, hdvd, hmax⟩ := hinv.aligned
  constructor
  · intro hspaced
    refine hspaced.imp_right fun hspaced a' b hconsecutive hlt hle => ?_
    exact hspaced a' b hconsecutive (by omega) hle
  · intro hspaced
    refine or_iff_not_imp_left.mpr fun hone a' b hconsecutive hlt hle => ?_
    have hspaced := hspaced.resolve_left hone
    by_cases hahead : s.endBlock chunkSize lastBlock + 1 < b
    · exact hspaced a' b hconsecutive hahead hle
    · -- the turn ends right before `b`, and `a` is the stamp before it
      have hb : b = s.endBlock chunkSize lastBlock + 1 := by
        have := hpass b hconsecutive.upper hlt
        omega
      have haa : a' = a := by
        have := hconsecutive.lt
        have := hmax a' hconsecutive.lower
        have := hconsecutive.between a ha
        have := hpass a' hconsecutive.lower
        omega
      subst haa
      have hpos : 1 < (chunkSize : ℕ) := by
        have hne : (chunkSize : ℕ) ≠ 1 := fun h => hone (PNat.coe_eq_one_iff.mp h)
        have := chunkSize.pos
        omega
      intro hdvd'
      have hsplit : b - a' - 1 =
          (s.workingStartBlock - a') + (s.endBlock chunkSize lastBlock - s.workingStartBlock) := by
        omega
      rw [hsplit, Nat.dvd_add_right hdvd] at hdvd'
      have hzero := Nat.eq_zero_of_dvd_of_lt hdvd' (by omega)
      -- a turn of one block that is not the last one needs chunks of one block
      rcases workingEndBlock_cases chunkSize lastBlock s.workingStartBlock s.exchanges with
        heq | heq | hstamp
      · exact hmore heq
      · unfold State.endBlock at hzero
        omega
      · have := ((mem_laterStamps _ _).mp hstamp).1
        unfold State.endBlock at hzero
        omega

/-! ## The chunks of a run -/

theorem Chunk.stop_le {first last last' : ℕ}
    (h : Chunk chunkSize lastBlock exchanges first last)
    (h' : Chunk chunkSize lastBlock exchanges first last') : last' ≤ last := by
  by_contra hlt
  rcases h.stop_reached with heq | heq | hmem
  · have := h'.stop_le_last
    omega
  · have := h'.stop_lt_chunk
    omega
  · have := h.start_le_stop
    have := h'.stop_lt_first _ hmem (by omega)
    omega

/-- A turn that passes over no exchange is a chunk. -/
theorem chunk_of_passes (hinv : Inv chunkSize lastBlock exchanges s)
    (hpass : Passes chunkSize lastBlock exchanges s) :
    Chunk chunkSize lastBlock exchanges s.workingStartBlock (s.endBlock chunkSize lastBlock) where
  le_last := hinv.le_last
  aligned := hinv.aligned
  start_le_stop := start_le_workingEndBlock chunkSize lastBlock s.workingStartBlock s.exchanges
    hinv.le_last
  stop_le_last := workingEndBlock_le_last chunkSize lastBlock s.workingStartBlock s.exchanges
  stop_lt_chunk := by
    have hchunk := workingEndBlock_le_chunk chunkSize lastBlock s.workingStartBlock s.exchanges
    have := chunkSize.pos
    unfold State.endBlock
    omega
  stop_lt_first := hpass
  stop_reached := by
    rcases workingEndBlock_cases chunkSize lastBlock s.workingStartBlock s.exchanges with
      heq | heq | hstamp
    · exact .inl heq
    · have := chunkSize.pos
      refine .inr (.inl ?_)
      unfold State.endBlock
      omega
    · exact .inr (.inr (mem_first_of_stamp hinv hstamp))

/-- No chunk starts inside a turn. -/
theorem not_chunk_inside (hinv : Inv chunkSize lastBlock exchanges s)
    (hpass : Passes chunkSize lastBlock exchanges s) {first last : ℕ}
    (hlt : s.workingStartBlock < first) (hle : first ≤ s.endBlock chunkSize lastBlock) :
    ¬Chunk chunkSize lastBlock exchanges first last := by
  intro hchunk
  obtain ⟨a, ha, hale, hdvd, hmax⟩ := hinv.aligned
  obtain ⟨a', ha', hale', hdvd', hmax'⟩ := hchunk.aligned
  have hsame : a' = a := by
    have := hmax' a ha
    have := hmax a' ha'
    have := hpass a' ha'
    omega
  subst hsame
  have hsplit : first - a' = (s.workingStartBlock - a') + (first - s.workingStartBlock) := by omega
  rw [hsplit, Nat.dvd_add_right hdvd] at hdvd'
  have hshort := (chunk_of_passes hinv hpass).stop_lt_chunk
  have := Nat.eq_zero_of_dvd_of_lt hdvd' (by omega)
  omega

/-- What is due in a turn are the exchanges that the loop has reached. -/
theorem countP_isDue (hinv : Inv chunkSize lastBlock exchanges s) :
    s.exchanges.countP (fun exchange => exchange.isDue s.workingStartBlock) =
      started exchanges s.workingStartBlock := by
  have hprogress := hinv.progress
  unfold started
  generalize s.exchanges = now at hprogress
  clear hinv
  induction hprogress with
  | nil => rfl
  | @cons before now _ _ hhead _ ih =>
      rw [List.countP_cons, List.countP_cons, ih]
      congr 1
      by_cases hreached : before.nextBlock ≤ s.workingStartBlock
      · have hdue := Exchange.isDue_iff.mpr (.inr (hhead.reached hreached).1)
        simp [hdue, hreached]
      · obtain rfl := hhead.later (not_le.mp hreached)
        have hdue : ¬now.isDue s.workingStartBlock = true := by
          rw [Exchange.isDue_iff]
          rintro (hnone | heq)
          · simp [Exchange.nextBlock, hnone] at hreached
          · exact hreached heq.le
        simp [hdue, hreached]

theorem exists_isDue (hinv : Inv chunkSize lastBlock exchanges s) :
    ∃ exchange ∈ s.exchanges, exchange.isDue s.workingStartBlock = true := by
  obtain ⟨a, ha, hale, -, -⟩ := hinv.aligned
  obtain ⟨before, hbefore, rfl⟩ := List.mem_map.mp ha
  obtain ⟨now, hnow, hprogress⟩ := exists_right_of_forall₂ hinv.progress hbefore
  exact ⟨now, hnow, Exchange.isDue_iff.mpr (.inr (hprogress.reached hale).1)⟩

/-- The quiet chunks from a turn on are its own and those that start after it. -/
theorem quietFrom_step (hinv : Inv chunkSize lastBlock exchanges s)
    (hpass : Passes chunkSize lastBlock exchanges s) :
    QuietFrom quiet chunkSize lastBlock s.workingStartBlock exchanges ↔
      quiet s.workingStartBlock (s.endBlock chunkSize lastBlock)
          (started exchanges s.workingStartBlock) ∧
        QuietFrom quiet chunkSize lastBlock (s.endBlock chunkSize lastBlock + 1) exchanges := by
  have hturn := chunk_of_passes hinv hpass
  have hle := hturn.start_le_stop
  constructor
  · intro hquiet
    exact ⟨hquiet _ _ le_rfl hturn, fun first last hfirst => hquiet first last (by omega)⟩
  · rintro ⟨hhead, hrest⟩ first last hfirst hchunk
    rcases hfirst.eq_or_lt with rfl | hlt
    · have hlast : last = s.endBlock chunkSize lastBlock :=
        le_antisymm (hturn.stop_le hchunk) (hchunk.stop_le hturn)
      exact hlast ▸ hhead
    · by_cases hinside : first ≤ s.endBlock chunkSize lastBlock
      · exact absurd hchunk (not_chunk_inside hinv hpass hlt hinside)
      · exact hrest first last (by omega) hchunk

/-! ## Whole runs -/

theorem caughtUp_of_progress {start stop : ℕ} {before now : Exchange}
    (h : Progress (stop + 1) before (now.update start stop))
    (hstamp : before.nextBlock ≤ stop + 1) : CaughtUp stop before (now.update start stop) := by
  obtain ⟨hnext, hcovered⟩ := h.reached hstamp
  refine ⟨?_, hcovered⟩
  unfold Exchange.nextBlock at hnext
  cases hblock : (now.update start stop).lastUpdateBlock with
  | none => simp [hblock] at hnext
  | some block =>
      simp only [hblock] at hnext
      congr 1
      omega

/-- From any state between two turns, the loop catches every exchange up exactly when the
stamps ahead are spaced and the chunks ahead are quiet. -/
theorem returns_caughtUp_iff (hupdater : Stamps updater quiet)
    (hstamps : ∀ exchange ∈ exchanges, exchange.nextBlock ≤ lastBlock + 1)
    (hinv : Inv chunkSize lastBlock exchanges s) :
    (∃ t, WhileReturns guard (body updater chunkSize lastBlock) s t ∧
        List.Forall₂ (CaughtUp lastBlock) exchanges t.exchanges) ↔
      SpacedFrom chunkSize lastBlock s.workingStartBlock exchanges ∧
        QuietFrom quiet chunkSize lastBlock s.workingStartBlock exchanges := by
  generalize hfuel : lastBlock - s.workingStartBlock = fuel
  induction fuel using Nat.strongRecOn generalizing s with
  | ind fuel ih =>
      have hguard : guard s = true := by simp [guard, hinv.running]
      have hstart : s.workingStartBlock ≤ s.endBlock chunkSize lastBlock :=
        start_le_workingEndBlock chunkSize lastBlock s.workingStartBlock s.exchanges hinv.le_last
      have hlast : s.endBlock chunkSize lastBlock ≤ lastBlock :=
        workingEndBlock_le_last chunkSize lastBlock s.workingStartBlock s.exchanges
      have hdue := countP_isDue hinv
      rcases passes_or hinv with hpass | ⟨hnext, hlt⟩
      · rw [quietFrom_step hinv hpass]
        by_cases hquiet : quiet s.workingStartBlock (s.endBlock chunkSize lastBlock)
            (started exchanges s.workingStartBlock)
        · have hstep := body_of_stamped hstart
            (hupdater.stamped _ _ _ (exists_isDue hinv) (hdue ▸ hquiet))
          rw [State.next] at hstep
          simp only [whileReturns_step hguard hstep, hquiet, true_and]
          by_cases hend : s.endBlock chunkSize lastBlock = lastBlock
          · -- the last turn
            simp only [if_pos hend, whileReturns_exit, guard, Bool.not_true, exists_eq_left]
            refine iff_of_true ?_ ⟨spacedFrom_of_last hpass hend, ?_⟩
            · have hprogress := progress_map_update hinv hpass
              unfold State.updated at hprogress ⊢
              rw [List.forall₂_map_right_iff] at hprogress ⊢
              refine ((List.forall₂_and_left exchanges s.exchanges).mpr
                ⟨hstamps, hprogress⟩).imp ?_
              intro before now ⟨hstamp, hnow⟩
              rw [hend] at hnow ⊢
              exact caughtUp_of_progress hnow hstamp
            · intro first last hfirst hchunk
              have := hchunk.le_last
              omega
          · simp only [if_neg hend]
            rw [spacedFrom_step hinv hpass hend]
            exact ih (lastBlock - (s.endBlock chunkSize lastBlock + 1)) (by omega)
              (inv_step hinv hpass hend) rfl
        · refine iff_of_false ?_ fun h => hquiet h.2.1
          rintro ⟨t, hreturns, -⟩
          obtain ⟨e, he⟩ := hupdater.fails _ (s.endBlock chunkSize lastBlock) _ (exists_isDue hinv)
            (hdue ▸ hquiet)
          have hfails : body updater chunkSize lastBlock s = .error e := by
            rw [body_eq hstart, he, error_bind]
          exact not_whileReturns_of_error hguard hfails hreturns
      · refine iff_of_false ?_ fun h => not_spacedFrom_of_skip hinv hnext hlt h.1
        rintro ⟨t, hreturns, hcaught⟩
        cases hbody : body updater chunkSize lastBlock s with
        | error e => exact not_whileReturns_of_error hguard hbody hreturns
        | ok s' =>
            obtain ⟨-, rfl⟩ := body_eq_ok hupdater hbody
            rw [whileReturns_step hguard hbody] at hreturns
            have hlost := whileReturns_invariant (fun _ _ => lost_step hupdater)
              (lost_of_skip hinv hnext hlt) hreturns
            exact not_caughtUp_of_lost hlost hcaught

end Step

/-! ## Main result -/

theorem initialStartBlock_spec {exchanges : List Exchange} {start : ℕ}
    (h : initialStartBlock exchanges = .ok start) :
    start ∈ exchanges.map Exchange.nextBlock ∧
      ∀ b ∈ exchanges.map Exchange.nextBlock, start ≤ b := by
  cases exchanges with
  | nil => cases h
  | cons first rest =>
      obtain ⟨hmem, hle, hall⟩ := foldl_min_spec (rest.map Exchange.nextBlock) first.nextBlock
      rw [Except.ok.inj h] at hmem hle hall
      rw [List.map_cons, List.mem_cons]
      refine ⟨hmem, fun b hb => ?_⟩
      rcases List.mem_cons.mp hb with rfl | hrest
      · exact hle
      · exact hall b hrest

theorem inv_initial (chunkSize : ℕ+) {lastBlock start : ℕ} {exchanges : List Exchange}
    (hstart : initialStartBlock exchanges = .ok start) (hle : start ≤ lastBlock) :
    Inv chunkSize lastBlock exchanges ⟨start, exchanges, false⟩ := by
  obtain ⟨hmem, hmin⟩ := initialStartBlock_spec hstart
  refine ⟨rfl, hle, ⟨start, hmem, le_rfl, by simp, ?_⟩, ?_⟩
  · intro b hb
    have := hmin b hb
    dsimp only
    omega
  · refine List.forall₂_same.mpr fun exchange hexchange => ?_
    have hfirst := hmin _ (List.mem_map_of_mem hexchange)
    refine ⟨fun hreached => ?_, fun _ => rfl⟩
    have heq : exchange.nextBlock = start := by
      dsimp only at hreached
      omega
    exact ⟨heq, [], by simp, heq ▸ .nil _⟩

/-- A command that runs the loop completes exactly when the stamps are spaced and the chunks are
quiet. -/
theorem completes_iff_of_loop {updater : Updater} {quiet : ℕ → ℕ → ℕ → Prop}
    (hupdater : Stamps updater quiet) (chunkSize : ℕ+) {lastBlock start : ℕ}
    {exchanges : List Exchange} {command : ℕ → Option (Except Exn (Option State))}
    (hstart : initialStartBlock exchanges = .ok start) (hle : start ≤ lastBlock)
    (hstamps : ∀ exchange ∈ exchanges, ∀ block, exchange.lastUpdateBlock = some block →
      block ≤ lastBlock)
    (hcommand : ∀ fuel, command fuel =
      (loop updater chunkSize lastBlock start exchanges fuel).map fun r => r.map some) :
    Completes lastBlock exchanges command ↔
      SpacedFrom chunkSize lastBlock start exchanges ∧
        QuietFrom quiet chunkSize lastBlock start exchanges := by
  have hnext : ∀ exchange ∈ exchanges, exchange.nextBlock ≤ lastBlock + 1 := by
    intro exchange hexchange
    unfold Exchange.nextBlock
    cases hblock : exchange.lastUpdateBlock with
    | none => simp
    | some block => simpa using hstamps exchange hexchange block hblock
  rw [← returns_caughtUp_iff hupdater hnext (inv_initial chunkSize hstart hle)]
  constructor
  · intro ⟨fuel, final, hfinal, hcaught⟩
    rw [hcommand] at hfinal
    obtain ⟨r, hloop, hr⟩ := Option.map_eq_some_iff.mp hfinal
    cases r with
    | error e => cases hr
    | ok t =>
        cases hr
        exact ⟨final, ⟨fuel, hloop⟩, hcaught⟩
  · intro ⟨t, ⟨fuel, hloop⟩, hcaught⟩
    refine ⟨fuel, t, ?_, hcaught⟩
    rw [hcommand]
    exact Option.map_eq_some_iff.mpr ⟨.ok t, hloop, rfl⟩

/-- Once its loop is entered, `pool_update` completes if and only if no stamp below the last
block is a whole number of chunks after the stamp before it (or the chunks are single blocks).
For `aave_update` with full verification also no chunk with two or more markets is a
checkpoint, and the interval between checkpoints is not zero. -/
theorem update_completes_iff (options : VerifyOptions) (chainId : ℕ) (chunkSize : ℕ+)
    (lastBlock start : ℕ) (exchanges : List Exchange)
    (hstart : initialStartBlock exchanges = .ok start)
    (hstamps : ∀ exchange ∈ exchanges, ∀ block, exchange.lastUpdateBlock = some block →
      block ≤ lastBlock) :
    (start < lastBlock →
      (Completes lastBlock exchanges (poolUpdate chunkSize lastBlock exchanges) ↔
        SpacedFrom chunkSize lastBlock start exchanges)) ∧
    (start ≤ lastBlock →
      (Completes lastBlock exchanges (aaveUpdate options chainId chunkSize lastBlock exchanges) ↔
        SpacedFrom chunkSize lastBlock start exchanges ∧
          QuietFrom options.Quiet chunkSize lastBlock start exchanges)) := by
  constructor
  · intro hlt
    rw [completes_iff_of_loop updateExchanges_stamps chunkSize hstart hlt.le hstamps fun fuel => ?_]
    · exact and_iff_left fun _ _ _ _ => trivial
    · unfold poolUpdate
      rw [hstart]
      exact if_neg (not_le.mpr hlt)
  · intro hle
    refine completes_iff_of_loop (updateMarkets_stamps options) chunkSize hstart hle hstamps
      fun fuel => ?_
    have hne : exchanges ≠ [] := by
      rintro rfl
      cases hstart
    unfold aaveUpdate
    rw [if_neg hne, hstart]
    exact if_neg (not_lt.mpr hle)

/-- Two exchanges with stamps `first` and `second`. -/
def twoExchanges (first second : ℕ) : List Exchange :=
  [⟨"uniswap_v2", some first, []⟩, ⟨"uniswap_v3", some second, []⟩]

theorem twoExchanges_spaced : SpacedFrom 4 20 10 (twoExchanges 9 15) := by
  refine .inr fun a b hconsecutive _ _ => ?_
  have hlower := hconsecutive.lower
  have hupper := hconsecutive.upper
  have hlt := hconsecutive.lt
  simp only [twoExchanges, Exchange.nextBlock, List.map_cons, List.map_nil, List.mem_cons,
    List.not_mem_nil, or_false] at hlower hupper
  obtain ⟨rfl, rfl⟩ : a = 10 ∧ b = 16 := by omega
  decide

/-- Below the first interval no chunk is a checkpoint. -/
theorem twoExchanges_quiet :
    QuietFrom (VerifyOptions.Quiet {}) 4 20 10 (twoExchanges 9 15) := by
  intro first last hfirst hchunk _
  have hle := hchunk.start_le_stop
  have hlast := hchunk.stop_le_last
  refine ⟨by decide, fun _ => ?_⟩
  interval_cases last <;> interval_cases first <;> decide

/-- Stamps 9 and 15 with chunks of four blocks. -/
theorem update_completes_spaced :
    Completes 20 (twoExchanges 9 15) (poolUpdate 4 20 (twoExchanges 9 15)) ∧
      Completes 20 (twoExchanges 9 15) (aaveUpdate {} 1 4 20 (twoExchanges 9 15)) := by
  have hiff := update_completes_iff {} 1 4 20 10 (twoExchanges 9 15) rfl (by decide)
  exact ⟨(hiff.1 (by decide)).mpr twoExchanges_spaced,
    (hiff.2 (by decide)).mpr ⟨twoExchanges_spaced, twoExchanges_quiet⟩⟩

/-- The first chunk is a checkpoint with two markets. -/
example : aaveUpdate { backupInterval := 12 } 1 4 20 (twoExchanges 9 9) 5 =
    some (.error (.systemExit 1)) := by decide

/-- With adjacent stamps, the second exchange keeps its stamp. -/
theorem poolUpdate_skips_adjacent :
    ¬Completes 50 (twoExchanges 9 10) (poolUpdate 100 50 (twoExchanges 9 10)) := by
  rintro ⟨fuel, final, hfinal, hcaught⟩
  cases fuel with
  | zero => cases (show none = some _ from hfinal)
  | succ fuel =>
      cases fuel with
      | zero => cases (show none = some _ from hfinal)
      | succ fuel =>
          have hend : poolUpdate 100 50 (twoExchanges 9 10) (fuel + 2) = some (.ok (some
              ⟨10, [⟨"uniswap_v2", some 50, [(10, 50)]⟩, ⟨"uniswap_v3", some 10, []⟩], true⟩)) :=
            rfl
          rw [hend] at hfinal
          cases hfinal
          simp only [twoExchanges, List.forall₂_cons] at hcaught
          exact absurd hcaught.2.1.stamp (by decide)

end Degenbot.UpdateLoop
