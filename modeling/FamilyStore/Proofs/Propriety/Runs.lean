import FamilyStore.DataFuncs.Builtin
import FamilyStore.Proofs.Propriety.Replies

/-!
Runs never misuse the engine.

An operation on a handle that the caller has may fail for many reasons, but not because the engine
refuses how it is used; and an operation on anything else does nothing. That is so because handles
are grounded: what an open handle names is there in the engine, and in use.
-/

namespace FamilyStore.Store

variable {s t : Store}

/-- Whether an operation is on something that callers have been given, if it is on anything. -/
def Operation.isKnown (s : Store) : Operation → Bool
  | .changeFiles _ | .failNext _ _ | .failIterationAt _ | .refuseResize _ | .newDatabase
  | .connect _ _ _ => true
  | .start id _ _ _ | .register id | .deregister id | .createFamily id _ _ | .closeDatabase id =>
    s.databases.contains id
  | .point id _ | .range id _ | .closeFamily id => s.families.contains id
  | .advance id | .next id | .closeIterator id => s.iterators.contains id
  | .isValid id | .copy id | .viewKey id | .viewValue id => s.records.contains id
  | .readView id | .releaseView id | .holdView id | .unholdView id => s.views.contains id

/-! ## Operations on what is known -/

/-- Every database of the engine has stores for its families. -/
theorem Reachable.stocked (hs : Reachable s) : s.engine.Stocked := by
  have hkept : ∃ L, Kept s L := by
    induction hs with
    | initial files => exact ⟨_, kept_initial files⟩
    | step op hs ih =>
      obtain ⟨L, hk⟩ := ih
      exact ⟨_, kept_perform hk hs op⟩
  obtain ⟨L, hk⟩ := hkept
  exact hk.stocked

/-- An operation on a handle that the caller has is careful. -/
theorem careful_operation (hs : Reachable s) {op : Operation} (hk : op.isKnown s = true) :
    Careful op.run s := by
  have hf := hs.founded
  obtain ⟨lost, -, hblocks⟩ := hs.exists_balanced
  cases op with
  | changeFiles | failNext | failIterationAt | refuseResize | newDatabase =>
    exact .of_run rfl (.ok _)
  | connect path settings existing => exact (Run.careful_connect path settings existing).map _
  | start id path settings existing =>
    obtain ⟨d, hd⟩ := Option.isSome_iff_exists.1 hk
    exact (Run.careful_start hd path settings existing).map _
  | register id =>
    obtain ⟨d, hd⟩ := Option.isSome_iff_exists.1 hk
    exact (Run.careful_register hd).map _
  | deregister id =>
    obtain ⟨d, hd⟩ := Option.isSome_iff_exists.1 hk
    exact (Run.careful_deregister hd).map _
  | createFamily id funcs maxKeySize =>
    obtain ⟨d, hd⟩ := Option.isSome_iff_exists.1 hk
    exact (Run.careful_createFamily hf hs.stocked hd funcs maxKeySize).map _
  | closeDatabase id =>
    obtain ⟨d, hd⟩ := Option.isSome_iff_exists.1 hk
    exact (Run.careful_closeDatabase hf hblocks hd).map _
  | point id call =>
    obtain ⟨f, hget⟩ := Option.isSome_iff_exists.1 hk
    exact Run.careful_point hf hget call
  | range id start =>
    obtain ⟨f, hget⟩ := Option.isSome_iff_exists.1 hk
    exact (Run.careful_range hf hget start).map _
  | closeFamily id =>
    obtain ⟨f, hget⟩ := Option.isSome_iff_exists.1 hk
    exact (Run.careful_closeFamily hs hget).map _
  | advance i =>
    obtain ⟨it, hi⟩ := Option.isSome_iff_exists.1 hk
    exact (Run.careful_advance hs.sound hi).map _
  | next i =>
    obtain ⟨it, hi⟩ := Option.isSome_iff_exists.1 hk
    exact (Run.careful_next hs.sound hi).map _
  | closeIterator i =>
    obtain ⟨it, hi⟩ := Option.isSome_iff_exists.1 hk
    exact (Run.careful_closeIterator hs hi).map _
  | isValid ρ =>
    obtain ⟨r, hr⟩ := Option.isSome_iff_exists.1 hk
    exact (Run.careful_isValid hs.sound hr).map _
  | copy ρ =>
    obtain ⟨r, hr⟩ := Option.isSome_iff_exists.1 hk
    exact (Run.careful_copyRecord hs.sound hr).map _
  | viewKey ρ =>
    obtain ⟨r, hr⟩ := Option.isSome_iff_exists.1 hk
    exact (Run.careful_viewPart hs.sound hr Record.key).map _
  | viewValue ρ =>
    obtain ⟨r, hr⟩ := Option.isSome_iff_exists.1 hk
    exact (Run.careful_viewPart hs.sound hr Record.value).map _
  | readView v =>
    obtain ⟨vw, hv⟩ := Option.isSome_iff_exists.1 hk
    exact (Run.careful_readView hv).map _
  | releaseView v =>
    obtain ⟨vw, hv⟩ := Option.isSome_iff_exists.1 hk
    exact (Run.careful_releaseView hv).map _
  | holdView v =>
    obtain ⟨vw, hv⟩ := Option.isSome_iff_exists.1 hk
    exact (Run.careful_holdView hv).map _
  | unholdView v =>
    obtain ⟨vw, hv⟩ := Option.isSome_iff_exists.1 hk
    exact (Run.careful_unholdView hv).map _

/-! ## Operations on what is not known -/

/-- Work that fails and does nothing. -/
def Idle {α : Type} (x : Run α) (s : Store) : Prop := ∃ failure, x.run s = (.error failure, s)

namespace Idle

variable {α β : Type} {x : Run α}

theorem bind (h : Idle x s) (f : α → Run β) : Idle (x >>= f) s := by
  obtain ⟨failure, hrun⟩ := h
  refine ⟨failure, ?_⟩
  rw [run_bind, hrun]

theorem map (h : Idle x s) (f : α → β) : Idle (f <$> x) s := by
  obtain ⟨failure, hrun⟩ := h
  refine ⟨failure, ?_⟩
  rw [run_map, hrun]
  rfl

end Idle

theorem idle_openFamily {id : FamilyId} (hn : s.families.get? id = none) :
    Idle (Run.openFamily id) s :=
  Idle.bind ⟨_, Run.run_storeFamily_none hn⟩ _

theorem idle_lookup {id : FamilyId} (hn : s.families.get? id = none) (key : Value) :
    Idle (Run.lookup id key) s :=
  (idle_openFamily hn).bind _

theorem idle_point {id : FamilyId} (hn : s.families.get? id = none) (call : PointCall) :
    Idle (call.run id) s := by
  have hcontains : ∀ key : Value, Idle (Run.contains id key) s := by
    intro key
    have hrest : Idle (do
        let size ← Run.ofExcept key.size
        let f ← Run.family id
        if f.config.maxKeySize < size then return false
        return (← Run.lookup id key).isSome : Run Bool) s := by
      cases hsize : key.size with
      | error failure => exact Idle.bind ⟨failure, rfl⟩ _
      | ok size => exact Idle.bind ⟨_, Run.run_storeFamily_none hn⟩ _
    cases key with
    | null => exact (idle_lookup hn .null).bind _
    | _ => exact hrest
  cases call with
  | insert key value => exact ((idle_openFamily hn).bind _).map _
  | update key delta => exact ((idle_openFamily hn).bind _).map _
  | delete key => exact ((idle_openFamily hn).bind _).map _
  | lookup key => exact (idle_lookup hn key).map _
  | get key default => exact ((idle_lookup hn key).bind _).map _
  | contains key => exact (hcontains key).map _

/-- An operation on what the caller was never given does nothing. -/
theorem idle_operation {op : Operation} (hk : op.isKnown s = false) : Idle op.run s := by
  have hno : ∀ {ν : Type} {t : Table Nat ν} {k : Nat}, t.contains k = false → t.get? k = none :=
    fun h => Option.isNone_iff_eq_none.1 (Option.isSome_eq_false_iff.1 h)
  cases op with
  | changeFiles | failNext | failIterationAt | refuseResize | newDatabase | connect =>
    exact absurd hk (by simp [Operation.isKnown])
  | start | closeDatabase => exact (Idle.bind ⟨_, Run.run_database_none (hno hk)⟩ _).map _
  | register | deregister | createFamily =>
    exact ((Idle.bind ⟨_, Run.run_database_none (hno hk)⟩ _).bind _).map _
  | point id call => exact idle_point (hno hk) call
  | range id start => exact ((idle_openFamily (hno hk)).bind _).map _
  | closeFamily id => exact (Idle.bind ⟨_, Run.run_storeFamily_none (hno hk)⟩ _).map _
  | advance | closeIterator => exact (Idle.bind ⟨_, Run.run_iterator_none (hno hk)⟩ _).map _
  | next => exact ((Idle.bind ⟨_, Run.run_iterator_none (hno hk)⟩ _).bind _).map _
  | isValid | copy | viewKey | viewValue =>
    exact (Idle.bind ⟨_, Run.run_record_none (hno hk)⟩ _).map _
  | readView | releaseView | holdView | unholdView =>
    exact (Idle.bind ⟨_, Run.run_view_none (hno hk)⟩ _).map _

/-! ## What handles stand on -/

/-- What handles name is there in the engine, and in use. -/
structure Grounded (s : Store) : Prop where
  /-- The database of an open handle is open, has stores for its families, and has its block. -/
  databases : ∀ {b d h k}, s.databases.get? b = some d → d.phase = .opened h k →
    k ∈ s.engine.configBlocks ∧ ∃ c stores, s.engine.databases.get? h = some c ∧
      c.isOpen = true ∧ s.engine.stores.get? c.path = some stores
  /-- The family of an open handle is not deleted, and its database is there, open while the handle
  on that is. -/
  families : ∀ {id f fh}, s.families.get? id = some f → f.handle = some fh →
    ∃ fam c d, s.engine.families.get? fh = some fam ∧ fam.deleted = false ∧
      s.engine.databases.get? fam.database = some c ∧ s.databases.get? f.database = some d ∧
      (d.isClosed = false → c.isOpen = true)
  /-- The cursor of an open iterator is there, at a record if the iterator is. -/
  iterators : ∀ {i it h}, s.iterators.get? i = some it → it.cursor = some h →
    ∃ c, s.engine.cursors.get? h = some c ∧
      (it.positioned = true → c.position < c.records.length)
  records : ∀ {ρ r}, s.records.get? ρ = some r → ∃ it, s.iterators.get? r.iterator = some it
  /-- No lookup and no merge is left half done. -/
  lookups : s.engine.lookups.keys = []
  accumulators : s.engine.accumulators.keys = []

theorem Reachable.grounded (hs : Reachable s) : Grounded s where
  databases hd hp := by
    obtain ⟨lost, -, hblocks⟩ := hs.exists_balanced
    obtain ⟨c, hc, ho⟩ := hs.founded.opened hd hp
    obtain ⟨stores, hstores⟩ := hs.stocked _ c hc
    exact ⟨hblocks.holds hd hp, c, stores, hc, ho, hstores⟩
  families {id f fh} hf hh := by
    obtain ⟨⟨fam, hfam, hdel, -⟩, d, hd, hphase⟩ := hs.founded.stands hf hh
    obtain ⟨hdb, c, hc, -⟩ := hs.founded.housed.families hfam
    refine ⟨fam, c, d, hfam, hdel, by rw [hdb]; exact hc, hd, fun ho => ?_⟩
    rcases hphase with hp | ⟨k, hp⟩
    · rw [Database.isClosed, hp] at ho
      exact absurd ho (by simp)
    · obtain ⟨c', hc', ho'⟩ := hs.founded.opened hd hp
      obtain rfl := Option.some.inj (hc.symm.trans hc')
      exact ho'
  iterators hi hh := by
    obtain ⟨c, hc, hstep, -⟩ := hs.sound.exists_cursor hi hh
    refine ⟨c, hc, fun hp => ?_⟩
    obtain ⟨⟨k, v⟩, hcur⟩ := Option.isSome_iff_exists.1 (hstep.lent.trans hp)
    obtain ⟨-, r, hr, -⟩ := hs.sound.lent.holds hc hcur
    exact (List.getElem?_eq_some_iff.1 hr).1
  records hr := by
    obtain ⟨it, hi, -⟩ := hs.sound.placed _ _ hr
    exact ⟨it, hi⟩
  lookups := by
    obtain ⟨n, hb⟩ := hs.balanced
    exact hb.lookups.cleared
  accumulators := by
    obtain ⟨n, hb⟩ := hs.balanced
    exact hb.lookups.accumulators

/-! ## Runs -/

/-- No run misuses the engine. Whatever operations are done in whatever order, and whatever failures
are set up, an operation on something that the caller has is not refused for the way in which it
uses the engine, and an operation on something else does nothing at all. The same holds of closing a
family in another order than that in which its iterators were made. No misuse is hidden: a lookup is
the only operation that calls the engine after a failure, and then it fails with a misuse too. At
every time the engine has what open handles name, and in a state in which it may be used; nothing of
a lookup or a merge is left. -/
theorem never_misused {s₀ : Store} (h₀ : Reachable s₀) (ops : List Operation) :
    (∀ t ∈ s₀.trace ops,
      (t.operation.isKnown t.before = true → Proper t.reply) ∧
      (t.operation.isKnown t.before = false →
        ∃ failure, t.reply = .error failure ∧ t.after = t.before)) ∧
    (∀ id f order, (s₀.after ops).families.get? id = some f → Lists (s₀.after ops) f order →
      Proper ((Run.closeFamilyIn id order).run (s₀.after ops)).1) ∧
    (∀ fh span address s m, ((Run.lookupIn fh span address).run s).1 = .error (.misuse m) →
      ¬ Proper ((Run.ensuring (Run.lookupIn fh span address)
        (Run.engine (Engine.Run.lookupDeinit address))).run s).1) ∧
    Grounded (s₀.after ops) := by
  have hs : Reachable (s₀.after ops) := h₀.after ops
  refine ⟨fun t ht => ?_, fun id f order hget ho => Run.careful_closeFamilyIn hs hget ho,
    fun fh span address s m hm => ?_, hs.grounded⟩
  · obtain ⟨earlier, later, -, hbefore, hperform, -⟩ := exists_of_mem_trace ht
    have hreach : Reachable t.before := hbefore ▸ h₀.after earlier
    have hreply : t.reply = (t.before.perform t.operation).1 := by rw [hperform]
    refine ⟨fun hk => ?_, fun hk => ?_⟩
    · rw [hreply]
      exact careful_operation hreach hk
    · obtain ⟨failure, hrun⟩ := idle_operation hk
      obtain ⟨hr, ha⟩ := Prod.mk.inj (hperform.symm.trans hrun)
      exact ⟨failure, hr, ha⟩
  · obtain ⟨m', hm'⟩ := Run.misuse_of_ensuring hm address
    exact fun hproper => hproper m' hm'

/-- Handles are closed twice, parents before children, and used after that, with a failure set up
and a view held on the way. -/
def outOfOrder : List Operation :=
  [.connect (.str "db") .defaults false,
    .createFamily 0 (.ofInstance (DataFuncs.Builtin.funcs .default)) .null,
    .point 0 (.insert (.bytes [97]) (.bytes [1])), .range 0 .null, .advance 0, .viewKey 0,
    .holdView 0, .closeFamily 0, .failNext .lookupValue Status.ioError,
    .point 0 (.lookup (.bytes [97])), .closeDatabase 0, .closeDatabase 0,
    .point 0 (.insert (.bytes [97]) (.bytes [2])), .range 0 .null, .register 0, .unholdView 0,
    .advance 0, .closeFamily 0, .closeFamily 0, .advance 0, .closeIterator 0,
    .start 0 (.str "db") .defaults true, .connect (.str "db") .defaults true]

/-- None of it misuses the engine. Much of it fails for other reasons. -/
theorem proper_out_of_order :
    (∀ t ∈ (Store.initial (.empty "/")).trace outOfOrder, Proper t.reply) ∧
    ((Store.initial (.empty "/")).trace outOfOrder).countP
      (fun t => t.reply.toOption.isNone) = 7 := by
  have hknown : ((Store.initial (.empty "/")).trace outOfOrder).all
      (fun t => t.operation.isKnown t.before) = true := by decide +kernel
  obtain ⟨hall, -, -, -⟩ := never_misused (.initial (.empty "/")) outOfOrder
  refine ⟨fun t ht => (hall t ht).1 (List.all_eq_true.1 hknown t ht), ?_⟩
  decide +kernel

end FamilyStore.Store
