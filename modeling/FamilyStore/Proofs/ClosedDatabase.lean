import FamilyStore.DataFuncs.Builtin
import FamilyStore.Proofs.Accounts.Closing

/-!
What a closed database lets through.

A call on a family asks first whether the family and its database are open, so it is refused before
anything happens. A step of an iterator asks for the iterator and the family only: an iterator that
was left open goes on with the engine, unless it is over or a view holds it up.
-/

namespace FamilyStore

namespace Engine

/-- Calls are added, and none is struck out. -/
def Hears (e e' : Engine) : Prop := e.calls.length ≤ e'.calls.length

instance : Frame Hears := ⟨fun _ => Nat.le_refl _, Nat.le_trans⟩

namespace Run

theorem hears_note (entry : EntryPoint) (subject : Subject) : Within Hears (note entry subject) :=
  Within.modify fun _ => Nat.le_succ _

theorem hears_cursor (h : Handle) : Within Hears (cursor h) :=
  Within.bind Within.get fun _ => within_require _

theorem hears_setCursor (h : Handle) (c : Cursor) : Within Hears (setCursor h c) :=
  Within.modify fun _ => Nat.le_refl _

theorem hears_lend (h : Handle) (c : Cursor) (r : Record) : Within Hears (lend h c r) := by
  unfold lend
  cases c.current with
  | some a => exact Within.pure _
  | none => exact Within.get_bind fun _ => Nat.le_refl _

theorem hears_iteratorGetCurrent (h : Handle) : Within Hears (iteratorGetCurrent h) := by
  refine Within.bind (hears_note _ _) fun _ => Within.bind (hears_cursor h) fun c => ?_
  cases c.records[c.position]? with
  | none => exact within_refuse _
  | some r => exact Within.bind (hears_lend h c r) fun _ => Within.pure _

theorem hears_iteratorStatus (h : Handle) : Within Hears (iteratorStatus h) :=
  Within.bind (hears_note _ _) fun _ => Within.bind (hears_cursor h) fun _ => Within.pure _

/-- To ask a cursor whether it is at a record is a call. -/
theorem lt_calls_iteratorValid (h : Handle) (e : Engine) :
    e.calls.length < ((iteratorValid h).run e).2.calls.length := by
  have hrest : Within Hears (cursor h >>= fun c => if failsHere c then
      setCursor h { c with status := Status.ioError } >>= fun _ => pure false
      else pure (decide (c.position < c.records.length))) := by
    refine Within.bind (hears_cursor h) fun c => ?_
    exact Within.ite (Within.bind (hears_setCursor _ _) fun _ => Within.pure _) (Within.pure _)
  exact Nat.lt_of_lt_of_le (Nat.lt_succ_self _)
    (hrest { e with calls := ⟨.iteratorValid, .handle h⟩ :: e.calls })

end Run

end Engine

namespace Store

/-- An operation is rejected: with a failure of the store, and without any change. -/
def Rejects (s : Store) (op : Operation) : Prop :=
  ∃ fault, s.perform op = (.error (.store fault), s)

/-- A view that cannot be released: other objects hold on to its bytes. -/
def holdsUp (s : Store) (v : ViewId) : Bool :=
  (s.views.get? v).all fun vw => !vw.released && decide (0 < vw.holders)

/-- A view of an iterator's present record cannot be released. -/
def isStuck (s : Store) (it : Iterator) : Bool := it.views.any s.holdsUp

/-- Calls are added to those that the engine has noted. -/
def Hears (s s' : Store) : Prop := Engine.Hears s.engine s'.engine

instance : Frame Hears := ⟨fun _ => Nat.le_refl _, Nat.le_trans⟩

variable {s : Store} {i : IteratorId} {it : Iterator} {h : Engine.Handle}

namespace Run

/-! ## Views in the way -/

theorem releaseView_of_holdsUp {v : ViewId} (hv : s.holdsUp v = true) :
    ∃ failure, (releaseView v).run s = (.error failure, s) := by
  unfold releaseView
  cases hw : s.views.get? v with
  | none =>
    rw [run_bind, run_view_none hw]
    exact ⟨_, rfl⟩
  | some vw =>
    rw [holdsUp, hw, Option.all_some, Bool.and_eq_true, Bool.not_eq_true',
      decide_eq_true_eq] at hv
    rw [run_bind, run_view hw]
    dsimp only
    rw [run_ite, if_neg (by rw [hv.1]; exact Bool.false_ne_true), run_ite, if_pos hv.2]
    exact ⟨_, rfl⟩

/-- What is not held up is released, and that holds up nothing else. -/
theorem releaseView_of_not_holdsUp {v : ViewId} (hv : s.holdsUp v = false) :
    ∃ t, (releaseView v).run s = (.ok (), { s with views := t }) ∧
      ∀ w, holdsUp { s with views := t } w = s.holdsUp w := by
  rcases releaseView_cases v s with ⟨failure, hrun⟩ | ⟨vw, hw, hrun⟩
  · cases hw : s.views.get? v with
    | none =>
      rw [holdsUp, hw] at hv
      exact absurd hv (by simp)
    | some vw =>
      rw [holdsUp, hw, Option.all_some] at hv
      unfold releaseView at hrun
      rw [run_bind, run_view hw] at hrun
      dsimp only at hrun
      rw [run_ite] at hrun
      cases hr : vw.released with
      | true =>
        rw [if_pos hr] at hrun
        exact absurd hrun.symm error_ne_ok
      | false =>
        have hn : ¬ 0 < vw.holders := by simpa [hr] using hv
        rw [if_neg (by rw [hr]; exact Bool.false_ne_true), run_ite, if_neg hn] at hrun
        exact absurd hrun.symm error_ne_ok
  · refine ⟨_, hrun, fun w => ?_⟩
    unfold holdsUp
    rw [Table.get?_set]
    split
    · next hwv =>
      subst hwv
      rw [holdsUp] at hv
      rw [hv]
      rfl
    · rfl

/-- The views of an iterator are released unless one of them holds it up. -/
theorem releaseViews_reply (vs : List ViewId) : ∀ {s : Store} {it : Iterator},
    s.iterators.get? i = some it → ((releaseViews i vs).run s).1 =
      if vs.any s.holdsUp then .error heldUp else .ok () := by
  induction vs with
  | nil =>
    intro s it hi
    rfl
  | cons v rest ih =>
    intro s it hi
    unfold releaseViews
    rw [run_bind, run_outcome, List.any_cons]
    dsimp only
    cases hv : s.holdsUp v with
    | true =>
      obtain ⟨failure, hrun⟩ := releaseView_of_holdsUp hv
      rw [hrun]
      rfl
    | false =>
      obtain ⟨t, hrun, hothers⟩ := releaseView_of_not_holdsUp hv
      rw [hrun]
      dsimp only
      rw [run_bind, run_iterator (s := { s with views := t }) hi]
      dsimp only
      rw [run_bind]
      refine (ih (Table.get?_set_self _ _ _)).trans ?_
      rw [Bool.false_or]
      congr 2
      exact congrArg (List.any rest) (funext hothers)

/-! ## Steps that reach the engine -/

theorem hears_engine {α : Type} {work : Engine.Run α} (hw : Within Engine.Hears work) :
    Within Hears (engine work) :=
  within_engine (fun _ _ h => h) hw

theorem hears_setIterator (id : IteratorId) (it : Iterator) : Within Hears (setIterator id it) :=
  Within.modify fun _ => Nat.le_refl _

theorem hears_giveOut (i : IteratorId) (h : Engine.Handle) : Within Hears (giveOut i h) := by
  refine Within.bind (hears_engine (Engine.Run.hears_iteratorGetCurrent h)) fun r => ?_
  refine Within.bind (within_iterator i) fun it => ?_
  refine Within.bind (hears_setIterator i _) fun _ => ?_
  exact Within.get_bind fun _ => Nat.le_refl _

theorem hears_endIteration (i : IteratorId) (h : Engine.Handle) :
    Within Hears (endIteration i h) := by
  refine Within.bind (hears_engine (Engine.Run.hears_iteratorStatus h)) fun status => ?_
  refine Within.bind (within_iterator i) fun it => Within.ite ?_ (hears_setIterator _ _)
  exact Within.bind (hears_setIterator _ _) fun _ => Within.bind (Within.throw _) fun _ =>
    hears_setIterator _ _

/-- To go on from a record that has been left is a call at least. -/
theorem lt_calls_goOn (i : IteratorId) (h : Engine.Handle) (s : Store) :
    s.engine.calls.length < ((goOn i h).run s).2.engine.calls.length := by
  have hvalid := Engine.Run.lt_calls_iteratorValid h s.engine
  unfold goOn
  rw [run_bind, run_engine]
  generalize (Engine.Run.iteratorValid h).run s.engine = answer at hvalid ⊢
  obtain ⟨r, e⟩ := answer
  cases r with
  | error failure => exact hvalid
  | ok valid =>
    have hrest : Within Hears (if valid = true then giveOut i h >>= fun ρ => pure (some ρ)
        else endIteration i h >>= fun _ => pure none) := Within.ite
      (Within.bind (hears_giveOut i h) fun _ => Within.pure _)
      (Within.bind (hears_endIteration i h) fun _ => Within.pure _)
    exact Nat.lt_of_lt_of_le hvalid (hrest { s with engine := e })

/-- To leave a record is a call, unless a view holds the iterator up. -/
theorem leaveRecord_calls (hs : Sound s) (hi : s.iterators.get? i = some it)
    (hh : it.cursor = some h) :
    if s.isStuck it then
      ∃ t, (leaveRecord i h).run s = (.error heldUp, t) ∧ t.engine = s.engine
    else
      ∃ t, (leaveRecord i h).run s = (.ok (), t) ∧
        s.engine.calls.length < t.engine.calls.length := by
  obtain ⟨r, views, rest, hrun, -, -⟩ := releaseViews_spec it.views hs hi hh rfl
  have hreply := releaseViews_reply (i := i) it.views hi
  rw [hrun] at hreply
  obtain rfl : r = _ := hreply
  obtain ⟨c, hc, -, -⟩ := hs.exists_cursor hi hh
  unfold leaveRecord isStuck
  rw [run_bind, run_iterator hi]
  dsimp only
  rw [run_bind, hrun]
  cases it.views.any s.holdsUp with
  | true => exact ⟨_, rfl, rfl⟩
  | false =>
    have hnow : Table.get? (s.iterators.set i { it with views := rest }) i =
        some { it with views := rest } := Table.get?_set_self _ _ _
    rw [if_neg Bool.false_ne_true, if_neg Bool.false_ne_true]
    dsimp only
    rw [run_bind, run_iterator hnow]
    dsimp only
    rw [run_bind]
    unfold setIterator
    rw [run_modify]
    dsimp only
    rw [run_engine, Engine.Run.run_iteratorNext hc]
    exact ⟨_, rfl, Nat.lt_succ_self _⟩

end Run

/-! ## Steps of iterators -/

namespace Run

theorem advance_of_isClosed (hi : s.iterators.get? i = some it) (hn : it.isClosed = true) :
    (advance i).run s = (.error (.store .iteratorClosed), s) := by
  unfold advance
  rw [run_bind, run_iterator hi]
  dsimp only
  rw [Option.isNone_iff_eq_none.1 hn]
  rfl

/-- An open iterator belongs to an open family, and how far it has come decides what it does. -/
theorem run_advance (hs : Sound s) (hi : s.iterators.get? i = some it)
    (hh : it.cursor = some h) : (advance i).run s =
      match it.progress with
      | .failed status => (.error (.store (.iteratorStopped status)), s)
      | .exhausted => (.ok none, s)
      | .running =>
        if it.positioned then (leaveRecord i h >>= fun _ => goOn i h).run s
        else (goOn i h).run s := by
  have hopen : it.isClosed = false := by
    rw [Iterator.isClosed, hh]
    rfl
  obtain ⟨f, hf, hfo, -⟩ := hs.linked.listed hi hopen
  unfold advance
  rw [run_bind, run_iterator hi]
  dsimp only
  rw [hh]
  dsimp only
  rw [run_bind, run_storeFamily hf]
  dsimp only
  rw [run_ite, if_neg (by rw [hfo]; exact Bool.false_ne_true)]
  cases it.progress with
  | failed status => rfl
  | exhausted => rfl
  | running =>
    dsimp only
    rw [run_ite]
    rfl

/-- A running iterator comes to the engine unless a view holds it up. -/
theorem advance_of_running (hs : Sound s) (hi : s.iterators.get? i = some it)
    (hh : it.cursor = some h) (hp : it.progress = .running) :
    if s.isStuck it then
      ∃ t, (advance i).run s = (.error heldUp, t) ∧ t.engine = s.engine
    else s.engine.calls.length < ((advance i).run s).2.engine.calls.length := by
  obtain ⟨c, hc, hstep, -⟩ := hs.exists_cursor hi hh
  rw [run_advance hs hi hh, hp]
  dsimp only
  cases hpos : it.positioned with
  | false =>
    have hfree : s.isStuck it = false := by
      rw [isStuck, hstep.views hpos]
      rfl
    rw [hfree, if_neg Bool.false_ne_true, if_neg Bool.false_ne_true]
    exact lt_calls_goOn i h s
  | true =>
    have hleave := leaveRecord_calls hs hi hh
    rw [if_pos rfl, run_bind]
    cases hstuck : s.isStuck it with
    | true =>
      rw [hstuck] at hleave
      obtain ⟨t, hrun, he⟩ := hleave
      rw [hrun]
      exact ⟨t, rfl, he⟩
    | false =>
      rw [hstuck] at hleave
      obtain ⟨t, hrun, hlt⟩ := hleave
      rw [hrun]
      exact Nat.lt_trans hlt (lt_calls_goOn i h t)

/-- Copying what was given out changes nothing. -/
theorem run_next (i : IteratorId) (s : Store) :
    ((next i).run s).2 = ((advance i).run s).2 ∧
    (∀ failure, ((advance i).run s).1 = .error failure → ((next i).run s).1 = .error failure) ∧
    (((advance i).run s).1 = .ok none → ((next i).run s).1 = .ok none) := by
  have hsame : Frame (fun s t : Store => t = s) := ⟨fun _ => rfl, fun h h' => h'.trans h⟩
  unfold next
  rw [run_bind]
  generalize (advance i).run s = answer
  obtain ⟨r, t⟩ := answer
  cases r with
  | error failure => exact ⟨rfl, fun _ h => by simpa using h, fun h => absurd h (by simp)⟩
  | ok ρ? =>
    cases ρ? with
    | none => exact ⟨rfl, fun _ h => absurd h (by simp), fun _ => rfl⟩
    | some ρ =>
      refine ⟨?_, fun _ h => absurd h (by simp), fun h => absurd h (by simp)⟩
      exact (Within.bind (within_copyRecord ρ) fun _ => Within.pure _ :
        Within (fun s t : Store => t = s) (copyRecord ρ >>= fun pair => pure (some pair))) t

end Run

/-- An operation that goes on with an iterator does what advancing it does. -/
theorem perform_of_stepsOn {op : Operation} (hop : op.stepsOn i = true) (s : Store) :
    let answer := (Run.advance i).run s
    (s.perform op).2 = answer.2 ∧
    (∀ failure, answer.1 = .error failure → (s.perform op).1 = .error failure) ∧
    (answer.1 = .ok none → shown s (s.perform op).1 = .ok none) := by
  intro answer
  cases op with
  | advance j =>
    obtain rfl : j = i := by simpa [Operation.stepsOn] using hop
    have hrun : s.perform (.advance j) = (answer.1.map .record, answer.2) := run_map _ _ s
    rw [hrun]
    exact ⟨rfl, fun _ h => by rw [h]; rfl, fun h => by rw [h]; rfl⟩
  | next j =>
    obtain rfl : j = i := by simpa [Operation.stepsOn] using hop
    have hrun : s.perform (.next j) =
        (((Run.next j).run s).1.map .next, ((Run.next j).run s).2) := run_map _ _ s
    obtain ⟨hstore, herror, hnone⟩ := Run.run_next j s
    rw [hrun]
    exact ⟨hstore, fun failure h => by rw [herror failure h]; rfl, fun h => by rw [hnone h]; rfl⟩
  | _ => exact absurd hop Bool.false_ne_true

/-- What a step of an iterator comes to. Whether its database is open is no matter. -/
structure Steps (s : Store) (i : IteratorId) (it : Iterator) (op : Operation) : Prop where
  closed : it.isClosed = true → s.Rejects op
  failed : ∀ status, it.progress = .failed status → s.Rejects op
  exhausted : it.isClosed = false → it.progress = .exhausted →
    shown s (s.perform op).1 = .ok none ∧ (s.perform op).2 = s
  stuck : it.isClosed = false → it.progress = .running → s.isStuck it = true →
    (s.perform op).1 = .error heldUp ∧ (s.perform op).2.engine = s.engine
  reaches : it.isClosed = false → it.progress = .running → s.isStuck it = false →
    s.engine.calls.length < (s.perform op).2.engine.calls.length

theorem steps_of_stepsOn (hs : Sound s) (hi : s.iterators.get? i = some it) {op : Operation}
    (hop : op.stepsOn i = true) : Steps s i it op := by
  obtain ⟨hstore, herror, hnone⟩ := perform_of_stepsOn hop s
  have hrejects : ∀ {fault}, (Run.advance i).run s = (.error (.store fault), s) →
      s.Rejects op := by
    intro fault hrun
    rw [hrun] at hstore herror
    exact ⟨fault, Prod.ext (herror _ rfl) hstore⟩
  cases hh : it.cursor with
  | none =>
    have hn : it.isClosed = true := by
      rw [Iterator.isClosed, hh]
      rfl
    have href : s.Rejects op := hrejects (Run.advance_of_isClosed hi hn)
    have hno : it.isClosed ≠ false := by
      rw [hn]
      exact Ne.symm Bool.false_ne_true
    exact ⟨fun _ => href, fun _ _ => href, fun ho => absurd ho hno, fun ho => absurd ho hno,
      fun ho => absurd ho hno⟩
  | some h =>
    have ho : it.isClosed = false := by
      rw [Iterator.isClosed, hh]
      rfl
    have hrun := Run.run_advance hs hi hh
    refine ⟨fun hn => absurd (ho.symm.trans hn) Bool.false_ne_true, fun status hp => ?_,
      fun _ hp => ?_, fun _ hp hstuck => ?_, fun _ hp hstuck => ?_⟩
    · rw [hp] at hrun
      exact hrejects hrun
    · rw [hp] at hrun
      rw [hrun] at hstore hnone
      exact ⟨hnone rfl, hstore⟩
    · have hstep := Run.advance_of_running hs hi hh hp
      rw [hstuck, if_pos rfl] at hstep
      obtain ⟨t, hrun, he⟩ := hstep
      rw [hrun] at hstore herror
      exact ⟨herror _ rfl, by rw [hstore]; exact he⟩
    · have hstep := Run.advance_of_running hs hi hh hp
      rw [hstuck, if_neg Bool.false_ne_true] at hstep
      rw [hstore]
      exact hstep

/-! ## Calls on families -/

/-- A family of a closed database is not open. -/
theorem openFamily_of_isClosed {id : FamilyId} {f : Family} (hf : s.families.get? id = some f)
    (hc : (Holding.database f.database).isClosed s = true) :
    ∃ fault, (Run.openFamily id).run s = (.error (.store fault), s) := by
  obtain ⟨d, hd, hp⟩ := (Option.any_eq_true _ _).1 hc
  have hclosed : d.isClosed = true := by
    unfold Database.isClosed
    rw [of_decide_eq_true hp]
  unfold Run.openFamily
  rw [run_bind, Run.run_storeFamily hf]
  dsimp only
  cases f.handle with
  | none => exact ⟨_, rfl⟩
  | some fh =>
    dsimp only
    rw [run_bind, Run.run_database hd]
    dsimp only
    rw [run_ite, if_pos hclosed]
    exact ⟨_, rfl⟩

/-- Work that starts by asking for the open family is refused with it. -/
theorem rejects_of_openFamily {α : Type} {op : Operation}
    {work : Family × Engine.FamilyHandle → Run α} {id : FamilyId} {g : α → Reply}
    (hop : op.run = g <$> (Run.openFamily id >>= work))
    (h : ∃ fault, (Run.openFamily id).run s = (.error (.store fault), s)) : s.Rejects op := by
  obtain ⟨fault, hrun⟩ := h
  have hwork : (Run.openFamily id >>= work).run s = (.error (.store fault), s) := by
    rw [run_bind, hrun]
  exact ⟨fault, perform_eq hop hwork⟩

theorem lookup_of_refused {id : FamilyId} {fault : StoreFault} (key : Value)
    (h : (Run.openFamily id).run s = (.error (.store fault), s)) :
    (Run.lookup id key).run s = (.error (.store fault), s) := by
  unfold Run.lookup
  rw [run_bind, h]

/-- A key is asked for in a family that is not open: nothing is found, and nothing happens. -/
theorem contains_of_refused {id : FamilyId} {f : Family} {fault : StoreFault} (key : Value)
    (hf : s.families.get? id = some f)
    (h : (Run.openFamily id).run s = (.error (.store fault), s)) :
    ∃ reply, (Run.contains id key).run s = (reply, s) ∧ reply ≠ .ok true := by
  have hlookup := lookup_of_refused key h
  have hsized : ∃ reply, (Run.ofExcept key.size >>= fun size => Run.family id >>= fun f =>
      if f.config.maxKeySize < size then pure false
      else Run.lookup id key >>= fun found => pure found.isSome).run s = (reply, s) ∧
        reply ≠ .ok true := by
    rw [run_bind, Run.run_ofExcept]
    cases key.size with
    | error failure => exact ⟨_, rfl, by simp⟩
    | ok size =>
      dsimp only
      rw [run_bind, Run.run_storeFamily hf]
      dsimp only
      rw [run_ite]
      by_cases hlong : f.config.maxKeySize < size
      · rw [if_pos hlong]
        exact ⟨_, rfl, by simp⟩
      · rw [if_neg hlong, run_bind, hlookup]
        exact ⟨_, rfl, by simp⟩
  unfold Run.contains
  cases key with
  | null =>
    rw [run_bind, hlookup]
    exact ⟨_, rfl, by simp⟩
  | _ => exact hsized

/-- A call on a family that is not open is refused. Only to ask whether a key is there may be
answered: a key that is too long is not. -/
theorem point_of_refused {id : FamilyId} {f : Family} (hf : s.families.get? id = some f)
    (h : ∃ fault, (Run.openFamily id).run s = (.error (.store fault), s)) (call : PointCall) :
    (s.perform (.point id call)).2 = s ∧ (s.perform (.point id call)).1 ≠ .ok (.flag true) ∧
      ((∀ key, call ≠ .contains key) → s.Rejects (.point id call)) := by
  have hrejects : s.Rejects (.point id call) → (s.perform (.point id call)).2 = s ∧
      (s.perform (.point id call)).1 ≠ .ok (.flag true) ∧
        ((∀ key, call ≠ .contains key) → s.Rejects (.point id call)) := by
    rintro ⟨fault, hrun⟩
    rw [hrun]
    exact ⟨rfl, by simp, fun _ => ⟨fault, hrun⟩⟩
  cases call with
  | insert key value => exact hrejects (rejects_of_openFamily (g := fun _ => .done) rfl h)
  | update key delta => exact hrejects (rejects_of_openFamily (g := fun _ => .done) rfl h)
  | delete key => exact hrejects (rejects_of_openFamily (g := fun _ => .done) rfl h)
  | lookup key => exact hrejects (rejects_of_openFamily (g := .found) rfl h)
  | get key default =>
    obtain ⟨fault, hopen⟩ := h
    have hwork : (Run.getOr id key default).run s = (.error (.store fault), s) := by
      unfold Run.getOr
      rw [run_bind, lookup_of_refused key hopen]
    exact hrejects ⟨fault, perform_eq rfl hwork⟩
  | contains key =>
    obtain ⟨fault, hopen⟩ := h
    obtain ⟨reply, hwork, hne⟩ := contains_of_refused key hf hopen
    have hrun : s.perform (.point id (.contains key)) = (reply.map .flag, s) :=
      perform_eq rfl hwork
    rw [hrun]
    refine ⟨rfl, ?_, fun hno => absurd rfl (hno key)⟩
    cases reply with
    | error failure => exact fun heq => absurd heq (by simp [Except.map])
    | ok b =>
      intro heq
      obtain rfl : b = true := Reply.flag.inj (Except.ok.inj heq)
      exact hne rfl

/-- Once a database handle is closed, every call on a family of it is refused and changes nothing,
and so is a step of an iterator that is closed or has failed. An iterator that has come to its end
says so. But one that was left running goes on: unless a view holds it up, its step makes calls of
the engine. -/
theorem closed_database_rejects {s : Store} (hs : Reachable s) {b : DatabaseId} {reply : Reply}
    (hclose : (s.perform (.closeDatabase b)).1 = .ok reply) (ops : List Operation) :
    let t := (s.perform (.closeDatabase b)).2.after ops
    ∀ id f, t.families.get? id = some f → f.database = b →
      (∀ call, (t.perform (.point id call)).2 = t ∧
        (t.perform (.point id call)).1 ≠ .ok (.flag true) ∧
        ((∀ key, call ≠ .contains key) → t.Rejects (.point id call))) ∧
      (∀ key, t.Rejects (.range id key)) ∧
      ∀ i it, t.iterators.get? i = some it → it.family = id →
        ∀ op : Operation, op.stepsOn i = true → Steps t i it op := by
  intro t id f hf hb
  have hstep : Reachable (s.perform (.closeDatabase b)).2 := hs.step _
  have hclosed : (Holding.database b).isClosed t = true :=
    isClosed_after hstep (isClosed_of_close (h := .database b) hs.sound hclose) ops
  subst hb
  have hopen := openFamily_of_isClosed hf hclosed
  exact ⟨point_of_refused hf hopen, fun key => rejects_of_openFamily (g := .iterator) rfl hopen,
    fun i it hi _ op hop => steps_of_stepsOn (hstep.after ops).sound hi hop⟩

/-- A family with one record and two iterators, of which one has come to its end. -/
def beginTwo : List Operation :=
  [.connect (.str "db") .defaults false,
    .createFamily 0 (.ofInstance (DataFuncs.Builtin.funcs .default)) .null,
    .point 0 (.insert (.bytes [97]) (.bytes [1])), .range 0 .null, .range 0 .null,
    .next 0, .next 0]

/-- A store with two iterators over a family of an open database. -/
def twoIterating : Store := (Store.initial (.empty "/")).after beginTwo

/-- The same store when the database is closed. -/
def twoOrphans : Store := (twoIterating.perform (.closeDatabase 0)).2

/-- An insertion is refused, and the iterator at its end finds nothing more. -/
theorem orphans_refused : twoOrphans.Rejects (.point 0 (.insert (.bytes [98]) (.bytes [2]))) ∧
    shown twoOrphans (twoOrphans.perform (.next 0)).1 = .ok none ∧
    (twoOrphans.perform (.next 0)).2 = twoOrphans := by
  have hs : Reachable twoIterating := (Reachable.initial _).after beginTwo
  have hclose : (twoIterating.perform (.closeDatabase 0)).1.toOption.isSome = true := by
    decide +kernel
  obtain ⟨reply, hreply⟩ := Option.isSome_iff_exists.1 hclose
  have hfamily : (twoOrphans.families.get? 0).any (fun f => f.database == 0) = true := by
    decide +kernel
  have hiterator : (twoOrphans.iterators.get? 0).any (fun it =>
      !it.isClosed && it.progress == .exhausted && it.family == 0) = true := by
    decide +kernel
  obtain ⟨f, hf, hb⟩ := (Option.any_eq_true _ _).1 hfamily
  obtain ⟨it, hi, hit⟩ := (Option.any_eq_true _ _).1 hiterator
  simp only [Bool.and_eq_true, Bool.not_eq_true', beq_iff_eq] at hit
  obtain ⟨⟨hopen, hexhausted⟩, hif⟩ := hit
  have hrejects := closed_database_rejects hs (eq_ok_of_toOption hreply) []
  rw [after_nil, ← twoOrphans] at hrejects
  obtain ⟨hpoint, -, hsteps⟩ := hrejects 0 f hf (beq_iff_eq.1 hb)
  exact ⟨(hpoint _).2.2 fun _ => PointCall.noConfusion,
    (hsteps 0 it hi hif (.next 0) rfl).exhausted hopen hexhausted⟩

/-- An iterator that was left running gives out a record of a closed database. -/
theorem orphan_goes_on :
    (twoIterating.perform (.closeDatabase 0)).1.toOption.isSome = true ∧
    (twoOrphans.databases.get? 0).any Database.isClosed = true ∧
    (shown twoOrphans (twoOrphans.perform (.next 1)).1).toOption = some (some ([97], [1])) ∧
    twoOrphans.engine.calls.length < (twoOrphans.perform (.next 1)).2.engine.calls.length := by
  decide +kernel

end Store

end FamilyStore
