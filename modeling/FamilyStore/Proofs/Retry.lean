import FamilyStore.DataFuncs.Builtin
import FamilyStore.Proofs.Agreement
import FamilyStore.Proofs.Failing

/-!
Calls that are repeated after a failure that was set up.

A failed call leaves behind what a store looks like for which nothing had been set up. Repeated, the
call replies what it would have replied there. The engine's next handle is the one thing that may
differ, and a caller never sees it.
-/

namespace FamilyStore.Store

/-- The store as it would be had no status been set up for an entry point. -/
def spared (s : Store) (entry : Engine.EntryPoint) : Store :=
  { s with engine := { s.engine with pending := s.engine.pending.erase entry } }

/-- Stores that differ in calls, in the next handle and in statuses that are set up, but that are to
report the same. -/
inductive Kin (s : Store) : Store → Prop
  | of (calls : List Engine.Call) (next : Engine.Handle) (pending : Table Engine.EntryPoint Status)
    (h : ∀ entry, (pending.get? entry).getD Status.success =
      Engine.Run.pendingStatus s.engine entry) :
    Kin s { s with engine :=
      { s.engine with calls := calls, nextHandle := next, pending := pending } }

/-- What a caller sees of a database handle. -/
def Database.face (d : Database) : Option Site × Bool × Nat := (d.site, d.isClosed, d.keepers)

/-- Outcomes with the same reply, the same files and records, and the same handles. -/
structure SameOutcome {α : Type} (x y : Except Failure α × Store) : Prop where
  reply : y.1 = x.1
  files : y.2.engine.files = x.2.engine.files
  stores : y.2.engine.stores = x.2.engine.stores
  records : y.2.engine.records = x.2.engine.records
  databases : ∀ b, (y.2.databases.get? b).map Database.face =
    (x.2.databases.get? b).map Database.face
  families : y.2.families = x.2.families
  iterators : y.2.iterators = x.2.iterators
  log : y.2.log = x.2.log

/-! ## Databases -/

section

variable {s t : Store}

/-- A handle that is closed or opened in the same way shows the same face. -/
theorem map_face_set (ds : Table DatabaseId Database) (b : DatabaseId) {d d' : Database}
    (h : d'.face = d.face) (c : DatabaseId) :
    ((ds.set b d').get? c).map Database.face = ((ds.set b d).get? c).map Database.face := by
  rw [Table.get?_set, Table.get?_set]
  split
  · exact congrArg some h
  · rfl

theorem Kin.answer (h : Kin s t) (existing : Bool) (path : String) :
    t.engine.answer existing path = s.engine.answer existing path := by
  obtain ⟨calls, next, pending, h⟩ := h
  unfold Engine.answer
  dsimp only
  have hstatus := h (Engine.requestEntry existing)
  unfold Engine.Run.pendingStatus at hstatus ⊢
  dsimp only
  rw [hstatus]

theorem Run.same_ask (h : Kin s t) (b : DatabaseId) (d : Database) (text : String) (sizes : Sizes)
    (existing : Bool) : SameOutcome ((ask b d text sizes existing).run s)
      ((ask b d text sizes existing).run t) := by
  rw [run_ask, run_ask, h.answer]
  obtain ⟨calls, next, pending, -⟩ := h
  cases s.engine.answer existing (Files.upToZero text) with
  | error failure => exact ⟨rfl, rfl, rfl, rfl, fun _ => rfl, rfl, rfl, rfl⟩
  | ok result =>
    cases result with
    | error status => exact ⟨rfl, rfl, rfl, rfl, fun _ => rfl, rfl, rfl, rfl⟩
    | ok files => exact ⟨rfl, rfl, rfl, rfl, map_face_set s.databases b rfl, rfl, rfl, rfl⟩

theorem Run.same_start (h : Kin s t) (b : DatabaseId) (path : Value) (settings : Settings)
    (existing : Bool) : SameOutcome ((start b path settings existing).run s)
      ((start b path settings existing).run t) := by
  have hdatabases : t.databases = s.databases := by
    obtain ⟨_, _, _, _⟩ := h
    rfl
  have hfiles : t.engine.files = s.engine.files := by
    obtain ⟨_, _, _, _⟩ := h
    rfl
  have hsame : ∀ r : Except Failure Unit, SameOutcome (r, s) (r, t) := by
    obtain ⟨_, _, _, _⟩ := h
    exact fun _ => ⟨rfl, rfl, rfl, rfl, fun _ => rfl, rfl, rfl, rfl⟩
  cases hd : s.databases.get? b with
  | none =>
    unfold start
    rw [run_bind, run_bind, run_database_none hd, run_database_none (by rw [hdatabases, hd])]
    exact hsame _
  | some d =>
    have hd' : t.databases.get? b = some d := by rw [hdatabases, hd]
    by_cases hp : d.phase = .fresh
    · rw [run_start hd hp, run_start hd' hp, hfiles]
      cases aim s.engine.files path settings existing with
      | error failure => exact hsame _
      | ok target => exact same_ask h b d target.1 target.2 existing
    · unfold start
      rw [run_bind, run_bind, run_database hd, run_database hd']
      dsimp only
      rw [run_ite, run_ite, if_pos hp, if_pos hp]
      exact hsame _

theorem Run.same_connect (h : Kin s t) (path : Value) (settings : Settings) (existing : Bool) :
    SameOutcome ((connect path settings existing).run s)
      ((connect path settings existing).run t) := by
  have hfresh : Kin s.withFresh t.withFresh := by
    obtain ⟨calls, next, pending, h⟩ := h
    exact .of calls next pending h
  have hsize : t.databases.size = s.databases.size := by
    obtain ⟨_, _, _, _⟩ := h
    rfl
  have hstart := same_start hfresh s.databases.size path settings existing
  rw [connect_eq, connect_eq, hsize]
  generalize (start s.databases.size path settings existing).run s.withFresh = x at hstart ⊢
  generalize (start s.databases.size path settings existing).run t.withFresh = y at hstart ⊢
  obtain ⟨r, s'⟩ := x
  obtain ⟨r', t'⟩ := y
  obtain ⟨rfl, hfiles, hstores, hrecords, hdatabases, hfamilies, hiterators, hlog⟩ := hstart
  cases r' with
  | ok _ => exact ⟨rfl, hfiles, hstores, hrecords, hdatabases, hfamilies, hiterators, hlog⟩
  | error failure =>
    refine ⟨rfl, hfiles, hstores, hrecords, fun b => ?_, hfamilies, hiterators, hlog⟩
    rw [Table.get?_erase, Table.get?_erase]
    split
    · rfl
    · exact hdatabases b

end

/-! ## Operations -/

theorem SameOutcome.map {α β : Type} {work : Run α} {s t : Store}
    (h : SameOutcome (work.run s) (work.run t)) (f : α → β) :
    SameOutcome ((f <$> work).run s) ((f <$> work).run t) := by
  rw [run_map, run_map]
  exact ⟨congrArg (Except.map f) h.reply, h.files, h.stores, h.records, h.databases, h.families,
    h.iterators, h.log⟩

theorem SameOutcome.of_twins {α : Type} {work : Run α} (hw : Agrees Twins work) {s t : Store}
    (h : Twins s t) : SameOutcome (work.run s) (work.run t) := by
  obtain ⟨hreply, hrest⟩ := hw s t h
  generalize work.run s = x at hreply hrest ⊢
  generalize work.run t = y at hreply hrest ⊢
  obtain ⟨r, s'⟩ := x
  obtain ⟨r', t'⟩ := y
  obtain ⟨⟨_, _, _⟩⟩ := hrest
  exact ⟨hreply, rfl, rfl, rfl, fun _ => rfl, rfl, rfl, rfl⟩

variable {s t : Store} {entry : Engine.EntryPoint} {passed : Engine.Handle}

/-- What the failed call leaves behind is to report what the spared store is to report. -/
theorem Unwound.pendingStatus (h : Unwound passed entry s t) (x : Engine.EntryPoint) :
    Engine.Run.pendingStatus t.engine x = Engine.Run.pendingStatus (s.spared entry).engine x := by
  unfold Engine.Run.pendingStatus spared
  dsimp only
  rw [Table.get?_erase]
  by_cases hx : x = entry
  · rw [if_pos hx, hx, h.taken]
  · rw [if_neg hx]
    rcases h.others x hx with hsame | ⟨hsuccess, hnone⟩
    · rw [hsame]
    · rw [hsuccess, hnone]
      rfl

/-- A call that is repeated comes to what it would have come to. -/
theorem Unwound.same_perform {op : Operation} (hop : op.isTried = true)
    (h : Unwound op.passed entry s t) :
    SameOutcome ((s.spared entry).perform op) (t.perform op) := by
  have hstatus := h.pendingStatus
  obtain ⟨calls, pending, rfl⟩ := h.same
  have hkin : Kin (s.spared entry) _ :=
    .of calls (s.engine.nextHandle + op.passed) pending hstatus
  cases op with
  | start b path settings existing =>
    exact (Run.same_start hkin b path settings existing).map _
  | connect path settings existing =>
    exact (Run.same_connect hkin path settings existing).map _
  | point id call => exact .of_twins (Run.twins_point id call) (.of (.of calls pending hstatus))
  | range id start =>
    exact .of_twins (Agrees.map (Run.twins_range id start) _) (.of (.of calls pending hstatus))
  | _ => exact absurd hop (by simp [Operation.isTried])

/-- A call that takes a failure that was set up raises exactly that status, and has done nothing
else: the files, all records, what the engine has given out, and all handles are as before, and so
are the failures that are set up elsewhere. Repeated, it comes to what it would have come to had the
failure never been set up. -/
theorem failure_leaves_nothing (hs : Reachable s) {op : Operation} (hop : op.isTried = true)
    {c : Status} (hc : s.engine.pending.get? entry = some c) (hne : c ≠ Status.success)
    (hfits : Status.fits c = true)
    (ht : (s.perform op).2.engine.pending.get? entry = none) :
    (∃ fault, (s.perform op).1 = .error (.store fault) ∧ fault.code = c) ∧
    Unwound op.passed entry s (s.perform op).2 ∧
    SameOutcome ((s.spared entry).perform op) ((s.perform op).2.perform op) := by
  have htried := tried_perform hs hop
  obtain ⟨r, t, hrun⟩ : ∃ r t, s.perform op = (r, t) := ⟨_, _, rfl⟩
  rw [hrun] at htried ht ⊢
  obtain ⟨⟨task, rfl⟩, hunwound⟩ := htried.exists_task hc hne ht
  refine ⟨⟨.engine task c, ?_, rfl⟩, hunwound, hunwound.same_perform hop⟩
  unfold Run.statusFailure
  rw [if_pos hfits]

/-- A database with one record, and a failure that is set up for reading what a lookup found. -/
def unreadable : Store :=
  (Store.initial (.empty "/")).after
    [.connect (.str "db") .defaults false,
      .createFamily 0 (.ofInstance (DataFuncs.Builtin.funcs .default)) .null,
      .point 0 (.insert (.bytes [97]) (.bytes [1])), .failNext .lookupValue 5]

/-- A lookup whose result cannot be read fails, and finds the value the next time. -/
theorem lookup_repeated :
    let op := Operation.point 0 (.lookup (.bytes [97]))
    (∃ fault, (unreadable.perform op).1 = .error (.store fault) ∧ fault.code = 5) ∧
    ((unreadable.perform op).2.perform op).1 = ((unreadable.spared .lookupValue).perform op).1 ∧
    ((unreadable.spared .lookupValue).perform op).1.toOption.any
      (fun r => match r with | .found value? => value? == some [1] | _ => false) = true := by
  have hs : Reachable unreadable := (Reachable.initial _).after _
  have hc : unreadable.engine.pending.get? .lookupValue = some 5 := by decide +kernel
  have ht : (unreadable.perform (.point 0 (.lookup (.bytes [97])))).2.engine.pending.get?
      .lookupValue = none := by decide +kernel
  have hop : (Operation.point 0 (.lookup (.bytes [97]))).isTried = true := rfl
  obtain ⟨hfault, -, hsame⟩ := failure_leaves_nothing hs hop hc (by decide) (by decide) ht
  exact ⟨hfault, hsame.reply, by decide +kernel⟩

end FamilyStore.Store
