import FamilyStore.Proofs.Accounts.Balance
import FamilyStore.Proofs.Reopening.Meantime

/-!
Opening a database again.

A database that has been created or opened can be opened again, by any name of its path, as long as
its file is left alone from outside. The families that are made on the new handle have, one after
the other, the records that the ledger tells for the path and their index.
-/

namespace FamilyStore.Store

section

variable {s : Store} {L : Ledger}

theorem asksDatabase_of_asksAt {op : Operation} {p : String} (h : op.asksAt p = true) :
    op.asksDatabase = true := by
  unfold Operation.asksAt at h
  split at h
  · rfl
  · rfl
  · exact absurd h Bool.false_ne_true

/-- An operation asks for a database at one path only. -/
theorem eq_of_asksAt {op : Operation} {p q : String} (hp : op.asksAt p = true)
    (hq : op.asksAt q = true) : p = q := by
  unfold Operation.asksAt at hp hq
  split at hp
  · exact (eq_of_beq hp).symm.trans (eq_of_beq hq)
  · exact (eq_of_beq hp).symm.trans (eq_of_beq hq)
  · exact absurd hp Bool.false_ne_true

/-- Where a database was created or opened there is the mark of one. -/
theorem marked_of_ok (hf : Founded s) {op : Operation} {p : String} (hp : op.asksAt p = true)
    {reply : Reply} (hr : (s.perform op).1 = .ok reply) :
    (s.perform op).2.engine.files.IsMarked
      (Files.upToZero (Files.absolutePath s.engine.files.home p)) := by
  cases answered_of_asksDatabase hf (asksDatabase_of_asksAt hp) with
  | failed hfailed _ _ _ =>
    rw [hr] at hfailed
    exact absurd hfailed (by simp)
  | opened hp' ho _ =>
    obtain rfl := eq_of_asksAt hp hp'
    obtain ⟨files, hanswer, he⟩ := ho.engine
    rw [he]
    exact (Engine.marked_of_answer hanswer).1

/-! ## Opening again -/

/-- Where the mark of a database is, there is something to open. -/
theorem checkedPlace_of_marked {files : Files} {path : String} (hz : Files.hasZero path = false)
    (hm : files.IsMarked path) : checkedPlace files (.text path) true = .ok () := by
  have hfound : (PathArgument.text path).inFiles?.filter files.contains = some path := by
    show (some path).filter files.contains = some path
    rw [Option.filter_some, if_pos (Files.contains_of_read hz hm)]
  unfold checkedPlace
  rw [hfound]
  rfl

theorem connect_marked {q : String} {settings : Settings} {sizes : Sizes}
    (hz : Files.hasZero (Files.absolutePath s.engine.files.home q) = false)
    (hm : s.engine.files.IsMarked (Files.absolutePath s.engine.files.home q))
    (hv : settings.validate = .ok sizes)
    (hp : Engine.Run.pendingStatus s.engine .openExisting = Status.success) :
    (s.perform (.connect (.str q) settings true)).1 = .ok (.database s.databases.size) := by
  have hd : s.withFresh.databases.get? s.databases.size = some ⟨.fresh, none, 0⟩ :=
    Table.get?_set_self _ _ _
  have hfiles : s.withFresh.engine.files = s.engine.files := rfl
  have ha : aim s.engine.files (.str q) settings true =
      .ok (Files.absolutePath s.engine.files.home q, sizes) := by
    rw [aim_text, hv, checkedPlace_of_marked hz hm]
    rfl
  have hread : s.engine.files.read (Files.absolutePath s.engine.files.home q) =
    .ok Engine.Run.databaseMark := hm
  have hanswer : s.withFresh.engine.answer true (Files.absolutePath s.engine.files.home q) =
      .ok (.ok s.engine.files) := by
    show s.engine.answer true _ = _
    unfold Engine.answer Engine.verdict
    dsimp only [Engine.requestEntry]
    rw [if_pos rfl, if_neg (not_not_intro hp), if_pos rfl, if_pos (Files.contains_of_read hz hm),
      hread]
    exact if_pos rfl
  have hrun : s.perform (.connect (.str q) settings true) = _ := run_map _ _ s
  rw [hrun, Run.connect_eq, Run.run_start hd rfl, hfiles, ha]
  dsimp only
  rw [Run.run_ask, Files.upToZero_eq_self hz, hanswer]
  rfl

theorem isUsed_of_connect (hf : Founded s) {path : Value} {settings : Settings} {existing : Bool}
    {reply : Reply} (hr : (s.perform (.connect path settings existing)).1 = .ok reply) :
    (s.perform (.connect path settings existing)).2.IsUsed s.databases.size := by
  obtain ⟨hrequest, -⟩ := connect_requested hf.databases.get?_size path settings existing
  have hrun : s.perform (.connect path settings existing) = _ := run_map _ _ s
  rw [hrun] at hr ⊢
  generalize (Run.connect path settings existing).run s = answer at hr hrequest ⊢
  cases hrequest with
  | failed => exact absurd hr (by simp [Except.map])
  | opened _ ho =>
    obtain ⟨d, hd, hp⟩ := ho.databases
    refine ⟨d, ?_, by simp [hp]⟩
    dsimp only
    rw [hd, Table.get?_set_self]

/-- A path keeps the mark of a database from when one is created or opened there, as long as its
file is left alone from outside. -/
theorem marked_since {files : Files} {p : String} {before between : List Operation}
    {op : Operation} {reply : Reply}
    (hz : Files.hasZero (Files.absolutePath files.home p) = false) (hop : op.asksAt p = true)
    (hr : (((Store.initial files).after before).perform op).1 = .ok reply)
    (huntouched : ∀ t ∈ ((Store.initial files).after (before ++ [op])).trace between,
      t.Spares (Files.absolutePath files.home p)) :
    ((Store.initial files).after (before ++ op :: between)).engine.files.IsMarked
      (Files.absolutePath files.home p) := by
  have hstart : Reachable (Store.initial files) := .initial files
  have hbefore : Reachable ((Store.initial files).after before) := hstart.after before
  have hmade := marked_of_ok hbefore.founded hop hr
  rw [home_after hstart before] at hmade
  rw [show (Store.initial files).engine.files.home = files.home from rfl,
    Files.upToZero_eq_self hz] at hmade
  rw [after_append] at huntouched
  have hstays := marked_after (hbefore.step op) hmade huntouched
  rw [← after_cons, ← after_append] at hstays
  exact hstays

/-- After a database is opened the ledger goes on from the new handle, which is at the first index
of its path. -/
theorem ledger_connected {files : Files} {past : List Operation} {q : String} {settings : Settings}
    {existing : Bool} {b : DatabaseId}
    (hopen : (((Store.initial files).after past).perform (.connect (.str q) settings existing)).1 =
      .ok (.database b)) (later : List Operation) :
    ledger files (past ++ .connect (.str q) settings existing :: later) =
      ((((Store.initial files).after past).perform (.connect (.str q) settings existing)).2.trace
        later).foldl Ledger.step ((ledger files past).connect b (Files.upToZero
          (Files.absolutePath ((Store.initial files).after past).engine.files.home q))
            existing) := by
  have hstep : (ledger files past).step
      (((Store.initial files).after past).transition (.connect (.str q) settings existing)) =
      (ledger files past).connect b (Files.upToZero
        (Files.absolutePath ((Store.initial files).after past).engine.files.home q)) existing := by
    unfold transition
    rw [hopen]
    rfl
  rw [← hstep]
  unfold ledger
  rw [trace_append, List.foldl_append]
  rfl

/-! ## Families -/

/-- A family that is made has the records of the next index of its handle. -/
theorem stored_of_made (hk : Kept s L) (hs : Reachable s) {b : DatabaseId} {funcs : FuncsArgument}
    {maxKeySize : Value} {f : FamilyId}
    (hr : (s.perform (.createFamily b funcs maxKeySize)).1 = .ok (.family f)) :
    (s.perform (.createFamily b funcs maxKeySize)).2.stored f =
      L.records (L.path b) (L.used b + 1) := by
  have hkept := kept_createFamily hk hs b funcs maxKeySize
  have hmade := createFamily_furnished hs.founded hk.stocked b funcs maxKeySize
  have hrun : s.perform (.createFamily b funcs maxKeySize) = _ := run_map _ _ s
  unfold transition at hkept
  rw [hrun] at hr hkept ⊢
  generalize (Run.createFamily b funcs maxKeySize).run s = answer at hr hkept hmade ⊢
  cases hmade with
  | refused => exact absurd hr (by simp [Except.map])
  | @made d h k c config σ e log hd hp hc he =>
    obtain rfl := Reply.family.inj (Except.ok.inj hr)
    set t : Store := { s with
      engine := e
      families := s.families.set s.families.size ⟨b, config, some (h, c.nextFamily), [], 0⟩
      log := log } with ht
    have hkept : Kept t (L.make b s.families.size) := hkept
    have hfam : t.engineFamily? s.families.size = some ⟨h, config.record, σ, false⟩ := by
      unfold engineFamily?
      rw [ht, Table.get?_set_self, Option.bind_some, Option.bind_some, he.families,
        Table.get?_set_self]
    have hslot := (hkept.place hfam (L.path b) (L.used b + 1)).2 (Function.update_self _ _ _)
    show t.stored s.families.size = _
    rw [stored_eq hfam, ← Engine.shelf_of_slot? hslot]
    exact hkept.shelf (L.path b) (L.used b + 1)

/-- A request for a family that fails has done nothing. -/
theorem createFamily_failed (hk : Kept s L) (hf : Founded s) {b : DatabaseId}
    {funcs : FuncsArgument} {maxKeySize : Value} {failure : Failure}
    (hr : (s.perform (.createFamily b funcs maxKeySize)).1 = .error failure) :
    (s.perform (.createFamily b funcs maxKeySize)).2 = s := by
  have hfurnished := createFamily_furnished hf hk.stocked b funcs maxKeySize
  have hrun : s.perform (.createFamily b funcs maxKeySize) = _ := run_map _ _ s
  rw [hrun] at hr ⊢
  generalize (Run.createFamily b funcs maxKeySize).run s = answer at hr hfurnished ⊢
  cases hfurnished with
  | refused => rfl
  | made => exact absurd hr (by simp [Except.map])

end

/-- A database that was created or opened at a path can be opened again, by any name of the path,
with any settings that are good, whether its handles are closed or not, if its file was left alone
from outside and no failure is set up. Each family that is then made on the new handle has exactly
the records that were written at the path under its index since a database was last created there,
in their order, with whatever data functions and key size it is made; where nothing was made there
are no records. A request for a family that fails has done nothing: the engine has noted no call,
and the next family has the index that this one would have had. -/
theorem reopening_restores {files : Files} {p q : String} {before between : List Operation}
    {op : Operation} {reply : Reply} {settings : Settings} {sizes : Sizes}
    (hhome : Files.hasZero files.home = false) (hp : Files.hasZero p = false)
    (hq : Files.absolutePath files.home q = Files.absolutePath files.home p)
    (hop : op.asksAt p = true)
    (hr : (((Store.initial files).after before).perform op).1 = .ok reply)
    (huntouched : ∀ t ∈ ((Store.initial files).after (before ++ [op])).trace between,
      t.Spares (Files.absolutePath files.home p))
    (hv : settings.validate = .ok sizes)
    (hfronts : Engine.Run.pendingStatus
      ((Store.initial files).after (before ++ op :: between)).engine
      .openExisting = Status.success) :
    let path := Files.absolutePath files.home p
    let past := before ++ op :: between
    let s := (Store.initial files).after past
    let b := s.databases.size
    let reopen := Operation.connect (.str q) settings true
    (s.perform reopen).1 = .ok (.database b) ∧
    ∀ later,
      let history := (s.perform reopen).2.trace later
      let u := (s.perform reopen).2.after later
      let L := ledger files (past ++ reopen :: later)
      let n := history.countP (·.makesFamily b)
      (∀ funcs size f, (u.perform (.createFamily b funcs size)).1 = .ok (.family f) →
        (u.perform (.createFamily b funcs size)).2.stored f = L.records path (n + 1)) ∧
      (∀ k, (∀ f, L.place f ≠ some (path, k)) → L.records path k = .empty) ∧
      ∀ c funcs size failure, (u.perform (.createFamily c funcs size)).1 = .error failure →
        (u.perform (.createFamily c funcs size)).2 = u := by
  intro path past s b reopen
  have hstart : Reachable (Store.initial files) := .initial files
  have hs : Reachable s := hstart.after past
  have hz : Files.hasZero path = false := Files.hasZero_absolutePath hhome hp
  have hsame : s.engine.files.home = files.home := home_after hstart past
  have hmark : s.engine.files.IsMarked path := marked_since hz hop hr huntouched
  have hopen : (s.perform reopen).1 = .ok (.database b) := by
    refine connect_marked ?_ ?_ hv hfronts
    · rw [hsame, hq]
      exact hz
    · rw [hsame, hq]
      exact hmark
  refine ⟨hopen, fun later => ?_⟩
  intro history u L n
  have ht : Reachable (s.perform reopen).2 := hs.step reopen
  have hu : Reachable u := ht.after later
  have hk : Kept u L := by
    have hkept := kept_ledger files (past ++ reopen :: later)
    rw [after_append] at hkept
    exact hkept
  -- The new handle starts at the first index of the path.
  have hL : L = history.foldl Ledger.step ((ledger files past).connect b path true) := by
    have hspelled := ledger_connected hopen later
    rw [home_after hstart past] at hspelled
    rw [show Files.absolutePath (Store.initial files).engine.files.home q = path from hq,
      Files.upToZero_eq_self hz] at hspelled
    exact hspelled
  obtain ⟨hpath, hused⟩ := handle_run (L := (ledger files past).connect b path true) ht
    (isUsed_of_connect hs.founded hopen) later
  rw [← hL] at hpath hused
  have hfirst : L.path b = path := hpath.trans (Function.update_self _ _ _)
  have hcount : L.used b = n := by
    rw [hused]
    show Function.update (ledger files past).used b 0 b + n = n
    rw [Function.update_self, Nat.zero_add]
  refine ⟨fun funcs size f hmade => ?_, fun k hno => hk.plain path k hno,
    fun c funcs size failure hfailed => createFamily_failed hk hu.founded hfailed⟩
  rw [stored_of_made hk hu hmade, hfirst, hcount]

/-- Operations that change no files from outside spare all files. -/
theorem spares_of_not_mem {s : Store} {ops : List Operation}
    (h : ∀ nodes, Operation.changeFiles nodes ∉ ops) (path : String) :
    ∀ t ∈ s.trace ops, t.Spares path := by
  intro t ht nodes hop
  obtain ⟨earlier, later, hops, -⟩ := exists_of_mem_trace ht
  rw [hop] at hops
  exact absurd (hops ▸ List.mem_append_right _ List.mem_cons_self) (h nodes)

/-- A record is written, and the database is closed. -/
def writeOne : List Operation :=
  [.createFamily 0 (.ofInstance (DataFuncs.Builtin.funcs .default)) .null,
    .point 0 (.insert (.bytes [97]) (.bytes [1])), .closeDatabase 0]

/-- The store in which a database with a record has been closed. -/
def closedOne : Store :=
  (Store.initial (.empty "/")).after (.connect (.str "db") .defaults false :: writeOne)

/-- The record is there when the database is opened again by another name. -/
theorem record_reopened :
    let reopen := Operation.connect (.str "/x/../db") .defaults true
    let again := Operation.createFamily 1 (.ofInstance (DataFuncs.Builtin.funcs .reverse)) (.int 9)
    (closedOne.perform reopen).1 = .ok (.database 1) ∧
    (((closedOne.perform reopen).2.perform again).2.stored 1).entries = [([97], [1])] := by
  intro reopen again
  have hfirst : (((Store.initial (.empty "/")).after []).perform
      (.connect (.str "db") .defaults false)).1.toOption.isSome = true := by decide +kernel
  obtain ⟨reply, hreply⟩ := Option.isSome_iff_exists.1 hfirst
  have hvalid : Settings.defaults.validate.toOption.isSome = true := by decide +kernel
  obtain ⟨sizes, hsizes⟩ := Option.isSome_iff_exists.1 hvalid
  have hfiles : ∀ nodes, Operation.changeFiles nodes ∉ writeOne := by simp [writeOne]
  obtain ⟨hopen, hlater⟩ := reopening_restores (p := "db") (q := "/x/../db") (by decide +kernel)
    (by decide +kernel) (by decide +kernel) rfl (eq_ok_of_toOption hreply)
    (spares_of_not_mem hfiles _) (eq_ok_of_toOption hsizes) (by decide +kernel)
  have hsize : closedOne.databases.size = 1 := by decide +kernel
  have hagain : ((Run.createFamily 1 (.ofInstance (DataFuncs.Builtin.funcs .reverse)) (.int 9)).run
      (closedOne.perform reopen).2).1.toOption = some 1 := by decide +kernel
  have hmade : ((closedOne.perform reopen).2.perform (.createFamily closedOne.databases.size
      (.ofInstance (DataFuncs.Builtin.funcs .reverse)) (.int 9))).1 = .ok (.family 1) := by
    rw [hsize]
    exact congrArg Prod.fst (perform_eq rfl (run_eq_of_toOption hagain))
  have hstored : ((closedOne.perform reopen).2.perform (.createFamily closedOne.databases.size
      (.ofInstance (DataFuncs.Builtin.funcs .reverse)) (.int 9))).2.stored 1 =
      (ledger (.empty "/") (.connect (.str "db") .defaults false :: (writeOne ++ [reopen]))).records
        (Files.absolutePath "/" "db") 1 := (hlater []).1 _ _ 1 hmade
  change (closedOne.perform reopen).1 = .ok (.database closedOne.databases.size) at hopen
  rw [hsize] at hopen hstored
  refine ⟨hopen, ?_⟩
  rw [show ((closedOne.perform reopen).2.perform again).2.stored 1 = _ from hstored]
  decide +kernel

end FamilyStore.Store
