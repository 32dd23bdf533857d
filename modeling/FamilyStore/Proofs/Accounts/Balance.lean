import FamilyStore.DataFuncs.Builtin
import FamilyStore.Proofs.Accounts.Closing
import FamilyStore.Proofs.Accounts.Cursors
import FamilyStore.Proofs.Accounts.Families

/-!
The accounts of a run.

In every store that operations lead to, what the engine has given out is what the handles of callers
stand for, and it got back what closed handles stood for, once each. One thing is left over: a
configuration block for which the file system failed.
-/

namespace FamilyStore.Store

/-- All accounts of a store, with the configuration blocks that have been lost so far. -/
structure Balanced (s : Store) (lost : Nat) : Prop where
  databases : DatabasesBalanced s
  blocks : BlocksBalanced s lost
  families : FamiliesBalanced s
  cursors : CursorsBalanced s
  lookups : LookupsBalanced s

theorem balanced_initial (files : Files) : Balanced (Store.initial files) 0 where
  databases := databasesBalanced_initial files
  blocks := blocksBalanced_initial files
  families := familiesBalanced_initial files
  cursors := cursorsBalanced_initial files
  lookups := lookupsBalanced_initial files

section

variable {s : Store} {n : Nat}

/-- One operation keeps all accounts. -/
theorem balanced_perform (hs : Reachable s) (hb : Balanced s n) (op : Operation) :
    Balanced (s.perform op).2 (n + (s.transition op).losesBlock.toNat) := by
  have hf := hs.founded
  obtain ⟨hdatabases, hblocks⟩ := databases_perform hf hb.databases hb.blocks op
  exact
    { databases := hdatabases
      blocks := hblocks
      families := families_perform hf hs.sound.linked.families hb.families op
      cursors := cursors_perform hs.sound hb.cursors op
      lookups := lookups_perform hf hb.lookups op }

theorem Reachable.balanced (hs : Reachable s) : ∃ n, Balanced s n := by
  induction hs with
  | initial files => exact ⟨0, balanced_initial files⟩
  | step op hs ih =>
    obtain ⟨n, hb⟩ := ih
    exact ⟨_, balanced_perform hs hb op⟩

/-- A run keeps all accounts. -/
theorem balanced_after (hs : Reachable s) (hb : Balanced s n) (ops : List Operation) :
    Balanced (s.after ops) (n + (s.trace ops).countP Transition.losesBlock) := by
  induction ops generalizing s n with
  | nil => exact hb
  | cons op ops ih =>
    have hrest := ih (hs.step op) (balanced_perform hs hb op)
    rw [countP_trace_cons, ← Nat.add_assoc]
    exact hrest

/-- A transition of a run is what its operation makes of a store that the run leads to. -/
theorem exists_transition_of_mem_trace {t : Transition} {ops : List Operation}
    (ht : t ∈ s.trace ops) : ∃ earlier op, t = (s.after earlier).transition op := by
  obtain ⟨earlier, later, -, hbefore, hperform, -⟩ := exists_of_mem_trace ht
  refine ⟨earlier, t.operation, ?_⟩
  rw [hbefore, transition, hperform]

end

/-! ## Databases, families, cursors and lookups -/

/-- What the engine has given out and got back, as the handles of callers tell it. -/
structure Accounts (s : Store) : Prop where
  liveDatabases : s.engine.liveDatabases = s.openDatabases
  closes : s.engine.callCount .close = s.closedDatabases
  closesOnce : (s.engine.subjects .close).Nodup
  liveFamilies : s.engine.liveFamilies = s.openFamilies
  deletes : s.engine.callCount .familyDelete = s.closedFamilies
  deletesOnce : (s.engine.subjects .familyDelete).Nodup
  liveCursors : s.engine.liveCursors = s.openIterators
  deinits : s.engine.callCount .iteratorDeinit = s.closedIterators
  deinitsOnce : (s.engine.subjects .iteratorDeinit).Nodup
  liveLookups : s.engine.liveLookups = 0
  lookups : s.engine.callCount .lookupInit = s.engine.callCount .lookupDeinit
  accumulators : s.engine.accumulators.size = 0

theorem Balanced.accounts {s : Store} {n : Nat} (hb : Balanced s n) : Accounts s where
  liveDatabases := hb.databases.live
  closes := hb.databases.calls
  closesOnce := hb.databases.once
  liveFamilies := hb.families.live
  deletes := hb.families.calls
  deletesOnce := hb.families.once
  liveCursors := hb.cursors.live
  deinits := hb.cursors.calls
  deinitsOnce := hb.cursors.once
  liveLookups := by
    rw [Engine.liveLookups, ← Table.length_keys, hb.lookups.cleared]
    rfl
  lookups := hb.lookups.calls
  accumulators := by
    rw [← Table.length_keys, hb.lookups.accumulators]
    rfl

/-- The accounts of databases, families, cursors and lookups hold after every run. A close that
succeeds closes the handle, and a closed handle stays closed whatever is done later; to close it
again does nothing. -/
theorem resources_accounted (files : Files) (ops : List Operation) :
    let s := (Store.initial files).after ops
    Accounts s ∧ ∀ h : Holding,
      (∀ reply, (s.perform h.close).1 = .ok reply → h.isClosed (s.perform h.close).2 = true) ∧
      (h.isClosed s = true → ∀ later, h.isClosed (s.after later) = true ∧
        (s.after later).perform h.close = (.ok .done, s.after later)) := by
  intro s
  have hs : Reachable s := (Reachable.initial files).after ops
  obtain ⟨n, hb⟩ := hs.balanced
  refine ⟨hb.accounts, fun h => ⟨fun reply hok => ?_, fun hc later => ?_⟩⟩
  · exact isClosed_of_close hs.sound hok
  · have hstays := isClosed_after hs hc later
    exact ⟨hstays, close_of_isClosed hstays⟩

/-- A run in which a database is closed before its family is. -/
def closeParentFirst : List Operation :=
  [.connect (.str "db") .defaults false,
    .createFamily 0 (.ofInstance (DataFuncs.Builtin.funcs .default)) .null, .range 0 .null,
    .closeDatabase 0, .closeFamily 0]

/-- Both handles are closed for good. -/
theorem closed_for_good :
    let s := (Store.initial (.empty "/")).after closeParentFirst
    s.openDatabases = 0 ∧ s.engine.liveDatabases = 0 ∧
    Holding.isClosed s (.family 0) = true ∧
    (s.after [.closeDatabase 0]).perform (.closeFamily 0) =
      (.ok .done, s.after [.closeDatabase 0]) := by
  intro s
  obtain ⟨haccounts, hclosing⟩ := resources_accounted (.empty "/") closeParentFirst
  have hopen : s.openDatabases = 0 := by decide +kernel
  have hclosed : Holding.isClosed s (.family 0) = true := by decide +kernel
  exact ⟨hopen, haccounts.liveDatabases.trans hopen, hclosed,
    ((hclosing (.family 0)).2 hclosed [.closeDatabase 0]).2⟩

/-! ## Configuration blocks -/

/-- There are as many configuration blocks as open databases, but for the lost ones. A request for
a database that fails leaves no block behind unless the file system failed; then it leaves the one
that it had made. Closing an open handle gives back its own block, and no other. -/
theorem blocks_accounted (files : Files) (ops : List Operation) :
    let s := (Store.initial files).after ops
    let history := (Store.initial files).trace ops
    s.engine.liveConfigBlocks = s.engine.liveDatabases + history.countP Transition.losesBlock ∧
    ∀ t ∈ history,
      (∀ failure, t.operation.asksDatabase = true → t.reply = .error failure →
        t.after.engine.configBlocks = t.before.engine.configBlocks ++
          if failure.isFault then [t.before.engine.nextHandle] else []) ∧
      ∀ b d h k, t.operation = .closeDatabase b → t.before.databases.get? b = some d →
        d.phase = .opened h k → t.reply = .ok .done ∧
          t.after.engine.configBlocks = t.before.engine.configBlocks.filter (· ≠ k) ∧
          t.after.engine.liveConfigBlocks + 1 = t.before.engine.liveConfigBlocks := by
  intro s history
  have hstart : Reachable (Store.initial files) := .initial files
  have hb : ∀ ops : List Operation, ∃ n,
      Balanced ((Store.initial files).after ops) n ∧
        n = ((Store.initial files).trace ops).countP Transition.losesBlock := fun ops =>
    ⟨_, balanced_after hstart (balanced_initial files) ops, Nat.zero_add _⟩
  refine ⟨?_, fun t ht => ?_⟩
  · obtain ⟨n, hbalanced, hn⟩ := hb ops
    rw [hbalanced.databases.live, ← hn]
    exact hbalanced.blocks.live
  · obtain ⟨earlier, op, rfl⟩ := exists_transition_of_mem_trace ht
    obtain ⟨n, hbalanced, -⟩ := hb earlier
    have hf := (hstart.after earlier).founded
    refine ⟨fun failure ha hr => blocks_of_failed hf hbalanced.blocks ha hr, ?_⟩
    rintro b d h k hop hd hp
    obtain rfl : op = .closeDatabase b := hop
    exact block_of_closed hf hbalanced.blocks hd hp

/-- A database is opened where a directory lies, and another one is made and closed. -/
def loseOne : List Operation :=
  [.changeFiles ⟨[(["d"], .directory)]⟩, .connect (.str "d") .defaults true,
    .connect (.str "db") .defaults false, .closeDatabase 0]

/-- The close gives one of the two blocks back, and the other one stays. -/
theorem one_block_given_back :
    ((Store.initial (.empty "/")).after loseOne).engine.liveConfigBlocks =
      ((Store.initial (.empty "/")).after loseOne).engine.liveDatabases + 1 ∧
    ∃ t ∈ (Store.initial (.empty "/")).trace loseOne, t.operation = .closeDatabase 0 ∧
      t.reply = .ok .done ∧ t.before.engine.liveConfigBlocks = 2 ∧
      t.after.engine.liveConfigBlocks + 1 = t.before.engine.liveConfigBlocks := by
  obtain ⟨hcount, hsteps⟩ := blocks_accounted (.empty "/") loseOne
  have hlost : ((Store.initial (.empty "/")).trace loseOne).countP Transition.losesBlock = 1 := by
    decide +kernel
  rw [hlost] at hcount
  let s := (Store.initial (.empty "/")).after (loseOne.take 3)
  have hmem : s.transition (.closeDatabase 0) ∈ (Store.initial (.empty "/")).trace loseOne := by
    simp [trace, transition, after, loseOne, s]
  have hphase : (s.databases.get? 0).any (fun d => !d.isClosed) = true := by decide +kernel
  have htwo : s.engine.liveConfigBlocks = 2 := by decide +kernel
  obtain ⟨d, hd, hopened⟩ := (Option.any_eq_true _ _).1 hphase
  cases hp : d.phase with
  | opened h k =>
    obtain ⟨hreply, -, hone⟩ := (hsteps _ hmem).2 0 d h k rfl hd hp
    exact ⟨hcount, _, hmem, rfl, hreply, htwo, hone⟩
  | fresh | closed =>
    unfold Database.isClosed at hopened
    rw [hp] at hopened
    exact absurd hopened (by simp)

/-- A directory lies where a database is to be opened. -/
def openDirectory : List Operation :=
  [.changeFiles ⟨[(["d"], .directory)]⟩, .connect (.str "d") .defaults true]

/-- The block of a database that could not be opened stays. -/
theorem block_without_database :
    ((Store.initial (.empty "/")).after openDirectory).engine.liveConfigBlocks = 1 ∧
    ((Store.initial (.empty "/")).after openDirectory).engine.liveDatabases = 0 := by
  decide +kernel

end FamilyStore.Store
