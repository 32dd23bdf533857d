import FamilyStore.Proofs.Accounts.Databases
import FamilyStore.Proofs.Iteration.Course

/-!
Handles that are closed.

A close that succeeds leaves the handle closed. A closed handle stays closed, whatever is done
later, and to close it again does nothing at all.
-/

namespace FamilyStore.Store

/-- A handle that stands for something of the engine, until it is closed. -/
inductive Holding where
  | database (id : DatabaseId)
  | family (id : FamilyId)
  | iterator (id : IteratorId)

namespace Holding

/-- Whether a handle has been closed. -/
def isClosed (s : Store) : Holding → Bool
  | .database id => (s.databases.get? id).any fun d => decide (d.phase = .closed)
  | .family id => (s.families.get? id).any Family.isClosed
  | .iterator id => (s.iterators.get? id).any Iterator.isClosed

/-- The operation that closes a handle. -/
def close : Holding → Operation
  | .database id => .closeDatabase id
  | .family id => .closeFamily id
  | .iterator id => .closeIterator id

/-- The work of closing a handle. -/
def work : Holding → Run Unit
  | .database id => Run.closeDatabase id
  | .family id => Run.closeFamily id
  | .iterator id => Run.closeIterator id

end Holding

section

variable {s : Store}

theorem perform_close (h : Holding) (s : Store) : s.perform h.close =
    ((h.work.run s).1.map fun _ => .done, (h.work.run s).2) := by
  cases h with
  | database b => exact run_map _ _ s
  | family id => exact run_map _ _ s
  | iterator i => exact run_map _ _ s

theorem work_of_isClosed {h : Holding} (hc : h.isClosed s = true) : h.work.run s = (.ok (), s) := by
  cases h with
  | database b =>
    obtain ⟨d, hd, hp⟩ := (Option.any_eq_true _ _).1 hc
    have hp : d.phase = .closed := of_decide_eq_true hp
    have hrun := Run.run_closeDatabase_of_ne hd fun h k heq =>
      absurd (hp.symm.trans heq) (by simp)
    have hsame : ({ d with phase := .closed } : Database) = d := by rw [← hp]
    rw [hsame, Table.set_of_get? hd] at hrun
    exact hrun
  | family id =>
    obtain ⟨f, hf, hn⟩ := (Option.any_eq_true _ _).1 hc
    show (Run.closeFamily id).run s = (.ok (), s)
    unfold Run.closeFamily
    rw [run_bind, Run.run_storeFamily hf]
    dsimp only
    rw [Option.isNone_iff_eq_none.1 hn]
    rfl
  | iterator i =>
    obtain ⟨it, hi, hn⟩ := (Option.any_eq_true _ _).1 hc
    show (Run.closeIterator i).run s = (.ok (), s)
    unfold Run.closeIterator
    rw [run_bind, Run.run_iterator hi]
    dsimp only
    rw [Option.isNone_iff_eq_none.1 hn]
    rfl

/-- A closed handle may be closed again: nothing happens. -/
theorem close_of_isClosed {h : Holding} (hc : h.isClosed s = true) :
    s.perform h.close = (.ok .done, s) := by
  rw [perform_close, work_of_isClosed hc]
  rfl

/-! ## Closing -/

/-- Closing changes the handle, and then only the engine and the log. -/
theorem databases_closeDatabase {b : DatabaseId} {d : Database} (hd : s.databases.get? b = some d) :
    ((Run.closeDatabase b).run s).2.databases = s.databases.set b { d with phase := .closed } := by
  unfold Run.closeDatabase Run.setDatabase
  rw [run_bind, Run.run_database hd]
  dsimp only
  rw [run_bind, run_modify]
  dsimp only
  cases d.phase with
  | fresh | closed => rfl
  | opened h k =>
    have hrest : ∀ {last : Run Unit}, Within (SameHandles [.databases]) last →
        Within (SameHandles [.databases]) (Run.engine (Engine.Run.close h) >>= fun _ =>
          Run.engine (Engine.Run.configDeinit k) >>= fun _ => last) := by
      intro last hlast
      refine Within.bind (Run.sameHandles_engine (Engine.Run.sameCursors_close (by decide) h))
        fun _ => ?_
      exact Within.bind (Run.sameHandles_engine (Engine.Run.sameCursors_configDeinit k))
        fun _ => hlast
    refine (hrest ?_ _).databases
    cases d.site with
    | some site => exact Run.sameHandles_note _
    | none => exact Within.pure _

/-- The end of a family handle that was open, if its iterators can be closed. -/
theorem families_closeFamily (id : FamilyId) :
    let t := (Run.closeFamily id).run s
    (∀ f, s.families.get? id = some f → t.1 = .ok () →
      ∃ g, t.2.families.get? id = some g ∧ g.isClosed = true) ∧
    ∀ {j f}, s.families.get? j = some f → f.isClosed = true →
      ∃ g, t.2.families.get? j = some g ∧ g.isClosed = true := by
  have hstays : ∀ {ids : List IteratorId} {r t}, (ids.forM Run.closeIterator).run s = (r, t) →
      ∀ {j f}, s.families.get? j = some f → f.isClosed = true →
        ∃ g, t.families.get? j = some g ∧ g.isClosed = true := by
    intro ids r t hrun j f hf hn
    have hfronts : SameFamilies s t := (Run.sameFamilies_closeIterators ids).of_run hrun
    obtain ⟨g, hg, hgh⟩ := hfronts.exists_family hf
    refine ⟨g, hg, ?_⟩
    rw [Family.isClosed, hgh]
    exact hn
  have hend := Run.closeFamily_end s id
  generalize (Run.closeFamily id).run s = answer at hend ⊢
  cases hend with
  | unknown => exact ⟨fun _ _ h => absurd h (by simp), fun hf hn => ⟨_, hf, hn⟩⟩
  | @already f hf hh =>
    refine ⟨fun _ _ _ => ⟨f, hf, ?_⟩, fun hf hn => ⟨_, hf, hn⟩⟩
    rw [Family.isClosed, hh]
    rfl
  | heldUp _ _ hrun => exact ⟨fun _ _ h => absurd h (by simp), hstays hrun⟩
  | @reached f g fh t r e log _ _ hrun hg hgh hdelete =>
    refine ⟨fun _ _ _ => ⟨_, Table.get?_set_self _ _ _, rfl⟩, fun {j f'} hf hn => ?_⟩
    obtain ⟨g', hg', hn'⟩ := hstays hrun hf hn
    by_cases hj : j = id
    · rw [hj]
      exact ⟨_, Table.get?_set_self _ _ _, rfl⟩
    · exact ⟨g', (Table.get?_set_ne _ hj _).trans hg', hn'⟩

/-- A handle is closed once closing it has succeeded. -/
theorem isClosed_of_work (hs : Sound s) {h : Holding} (hok : (h.work.run s).1 = .ok ()) :
    h.isClosed (h.work.run s).2 = true := by
  cases h with
  | database b =>
    cases hd : s.databases.get? b with
    | none =>
      have hnone : (Run.closeDatabase b).run s = (.error (.misuse .unknownHandle), s) := by
        unfold Run.closeDatabase
        rw [run_bind, Run.run_database_none hd]
      rw [Holding.work, hnone] at hok
      exact absurd hok (by simp)
    | some d =>
      refine (Option.any_eq_true _ _).2 ⟨{ d with phase := .closed }, ?_, rfl⟩
      rw [Holding.work, databases_closeDatabase hd]
      exact Table.get?_set_self _ _ _
  | family id =>
    cases hf : s.families.get? id with
    | none =>
      have hnone : (Run.closeFamily id).run s = (.error (.misuse .unknownHandle), s) := by
        unfold Run.closeFamily
        rw [run_bind, Run.run_storeFamily_none hf]
      rw [Holding.work, hnone] at hok
      exact absurd hok (by simp)
    | some f => exact (Option.any_eq_true _ _).2 ((families_closeFamily id).1 f hf hok)
  | iterator i =>
    obtain ⟨r, t, hrun, hmove, -, -, hr⟩ := Run.closeIterator_spec hs i
    rw [Holding.work, hrun] at hok ⊢
    rcases hr with ⟨-, hn, it, hi⟩ | ⟨⟨failure, rfl⟩, -⟩
    · refine (Option.any_eq_true _ _).2 ⟨it, hi, ?_⟩
      cases hh : it.cursor with
      | none =>
        rw [Iterator.isClosed, hh]
        rfl
      | some h =>
        obtain ⟨c, hc, -, -⟩ := hmove.sound.exists_cursor hi hh
        rw [course?_eq hi hh hc] at hn
        exact absurd hn (by simp)
    · exact absurd hok (by simp)

theorem isClosed_of_close (hs : Sound s) {h : Holding} {reply : Reply}
    (hok : (s.perform h.close).1 = .ok reply) : h.isClosed (s.perform h.close).2 = true := by
  rw [perform_close] at hok ⊢
  refine isClosed_of_work hs ?_
  cases hr : (h.work.run s).1 with
  | error failure =>
    rw [hr] at hok
    exact absurd hok (by simp [Except.map])
  | ok _ => rfl

/-! ## Afterwards -/

/-- A handle that has been used stays as it is when a database is started. -/
theorem Run.start_keeps {b : DatabaseId} {d : Database} (hd : s.databases.get? b = some d)
    (hp : d.phase ≠ .fresh) (c : DatabaseId) (path : Value) (settings : Settings)
    (existing : Bool) :
    ((Run.start c path settings existing).run s).2.databases.get? b = some d := by
  rcases Run.starts_start c path settings existing s with hg | ⟨e, he, hfe, hst⟩
  · rw [hg.databases]
    exact hd
  · rcases hst.databases with hsame | ⟨e', h, k, hset, -⟩
    · rw [hsame]
      exact hd
    · -- What was opened had been fresh, so it is not this handle.
      have hne : b ≠ c := by
        rintro rfl
        obtain rfl := Option.some.inj (hd.symm.trans he)
        exact hp hfe
      rw [hset]
      exact (Table.get?_set_ne _ hne _).trans hd

/-- Only a fresh handle on a database can be opened; one that has been opened, or was closed, stays
as it is until it is closed. -/
theorem database_stays (hf : Founded s) {b : DatabaseId} {d : Database}
    (hd : s.databases.get? b = some d) (hp : d.phase ≠ .fresh) (op : Operation) :
    (s.perform op).2.databases.get? b = some d ∨
      (s.perform op).2.databases.get? b = some { d with phase := .closed } := by
  have hfresh : s.withFresh.databases.get? b = some d :=
    (Table.get?_set_ne _ (hf.databases.ne_size hd) _).trans hd
  have hother : .databases ∉ op.resources → (s.perform op).2.databases.get? b = some d := by
    intro hn
    have hsame : (s.perform op).2.databases = s.databases := (op.sameCounts s).databases hn
    rw [hsame]
    exact hd
  cases op with
  | newDatabase => exact .inl hfresh
  | start c path settings existing =>
    have hrun : s.perform (.start c path settings existing) = _ := run_map _ _ s
    rw [hrun]
    exact .inl (Run.start_keeps hd hp c path settings existing)
  | connect path settings existing =>
    have hrun : s.perform (.connect path settings existing) = _ := run_map _ _ s
    have hthere := Run.start_keeps hfresh hp s.databases.size path settings existing
    rw [hrun, Run.connect_eq]
    generalize (Run.start s.databases.size path settings existing).run s.withFresh = answer
      at hthere ⊢
    obtain ⟨r, t⟩ := answer
    cases r with
    | ok _ => exact .inl hthere
    | error failure =>
      refine .inl ?_
      show (t.databases.erase s.databases.size).get? b = some d
      rw [Table.get?_erase, if_neg (hf.databases.ne_size hd)]
      exact hthere
  | closeDatabase c =>
    have hrun : s.perform (.closeDatabase c) = _ := run_map _ _ s
    rw [hrun]
    by_cases hbc : b = c
    · subst hbc
      refine .inr ?_
      show ((Run.closeDatabase b).run s).2.databases.get? b = _
      rw [databases_closeDatabase hd, Table.get?_set_self]
    · refine .inl ?_
      cases hc : s.databases.get? c with
      | none =>
        unfold Run.closeDatabase
        rw [run_bind, Run.run_database_none hc]
        exact hd
      | some e =>
        show ((Run.closeDatabase c).run s).2.databases.get? b = some d
        rw [databases_closeDatabase hc]
        exact (Table.get?_set_ne _ hbc _).trans hd
  | _ => exact .inl (hother (by simp [Operation.resources]))

theorem database_stays_closed (hf : Founded s) {b : DatabaseId} {d : Database}
    (hd : s.databases.get? b = some d) (hp : d.phase = .closed) (op : Operation) :
    (s.perform op).2.databases.get? b = some d := by
  have hsame : ({ d with phase := .closed } : Database) = d := by rw [← hp]
  rcases database_stays hf hd (by simp [hp]) op with hstays | hclosed
  · exact hstays
  · rw [hclosed, hsame]

/-- An operation other than closing a family keeps the families or the iterators. -/
theorem Operation.keepsFamilies_or (op : Operation) :
    op.keepsFamilies = true ∨ op.keepsIterators = true ∨ ∃ id, op = .closeFamily id := by
  cases op with
  | closeFamily id => exact .inr (.inr ⟨id, rfl⟩)
  | _ => simp [Operation.keepsFamilies, Operation.keepsIterators]

theorem family_stays_closed (hn : s.families.Numbered) {id : FamilyId} {f : Family}
    (hf : s.families.get? id = some f) (hc : f.isClosed = true) (op : Operation) :
    ∃ g, (s.perform op).2.families.get? id = some g ∧ g.isClosed = true := by
  rcases op.keepsFamilies_or with hfronts | hiterators | ⟨j, rfl⟩
  · obtain ⟨g, hg, hgh⟩ := (sameFamilies_of_keepsFamilies hfronts s).exists_family hf
    refine ⟨g, hg, ?_⟩
    rw [Family.isClosed, hgh]
    exact hc
  · exact ⟨f, ((sameIterators_of_keepsIterators hiterators s).families hn).2 id f hf, hc⟩
  · have hrun : s.perform (.closeFamily j) = _ := run_map _ _ s
    rw [hrun]
    exact (families_closeFamily j).2 hf hc

/-- Whatever is done, a closed handle stays closed. -/
theorem isClosed_perform (hs : Reachable s) {h : Holding} (hc : h.isClosed s = true)
    (op : Operation) : h.isClosed (s.perform op).2 = true := by
  cases h with
  | database b =>
    obtain ⟨d, hd, hp⟩ := (Option.any_eq_true _ _).1 hc
    exact (Option.any_eq_true _ _).2
      ⟨d, database_stays_closed hs.founded hd (of_decide_eq_true hp) op, hp⟩
  | family id =>
    obtain ⟨f, hf, hn⟩ := (Option.any_eq_true _ _).1 hc
    exact (Option.any_eq_true _ _).2 (family_stays_closed hs.sound.linked.families hf hn op)
  | iterator i =>
    obtain ⟨it, hi, hn⟩ := (Option.any_eq_true _ _).1 hc
    obtain ⟨it', hi', ha⟩ := (perform_spec hs.sound op).1.later.iterators hi
    refine (Option.any_eq_true _ _).2 ⟨it', hi', ?_⟩
    rw [Iterator.isClosed, ha.closed (Option.isNone_iff_eq_none.1 hn)]
    rfl

theorem isClosed_after (hs : Reachable s) {h : Holding} (hc : h.isClosed s = true)
    (ops : List Operation) : h.isClosed (s.after ops) = true := by
  induction ops generalizing s with
  | nil => exact hc
  | cons op ops ih => exact ih (hs.step op) (isClosed_perform hs hc op)

end

end FamilyStore.Store
