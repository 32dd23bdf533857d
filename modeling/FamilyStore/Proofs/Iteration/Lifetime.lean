import FamilyStore.Proofs.Iteration.Steps

/-!
The beginning and the end of iterators, and what operations on views and records do to them.

An iterator is closed once all its views are released. The end of a family closes its iterators one
after the other, and stops where one cannot be closed.
-/

namespace FamilyStore.Store

variable {s : Store} {i : IteratorId} {it : Iterator} {h : Engine.Handle} {c : Engine.Cursor}

/-- Some iterators may have been closed; the others are where they were. -/
def Closing (s s' : Store) : Prop :=
  ∀ i, s'.course? i = s.course? i ∨ s'.course? i = none

theorem Closing.trans {s' s'' : Store} (h : Closing s s') (h' : Closing s' s'') :
    Closing s s'' := fun i => by
  rcases h' i with he | he
  · rw [he]
    exact h i
  · exact .inr he

/-- The end of an iterator is no matter for the others. -/
theorem course?_shut_ne (hl : Linked s) (hi : s.iterators.get? i = some it)
    (hh : it.cursor = some h) {j : IteratorId} (hj : j ≠ i) :
    (Sound.shut s i it h c).course? j = s.course? j := by
  unfold course?
  rw [Sound.shut, Table.get?_set_ne _ hj]
  cases hjt : s.iterators.get? j with
  | none => rfl
  | some jt =>
    rw [Option.bind_some, Option.bind_some]
    cases hg : jt.cursor with
    | none => rfl
    | some g =>
      have hgh : g ≠ h := by
        rintro rfl
        exact hj (hl.apart hjt hi hg hh)
      rw [Option.bind_some, Option.bind_some, Engine.withoutCursor, Table.get?_erase, if_neg hgh]

/-- A later store does not open an iterator again. -/
theorem Later.course?_none {s' : Store} (hs : Sound s) (hl : Later s s')
    (hi : s.iterators.get? i = some it) (hn : s.course? i = none) : s'.course? i = none := by
  obtain ⟨it', hi', ha⟩ := hl.iterators hi
  refine course?_of_closed hi' (ha.closed ?_)
  cases hh : it.cursor with
  | none => rfl
  | some h =>
    obtain ⟨c, hc, -, -⟩ := hs.exists_cursor hi hh
    rw [course?_eq hi hh hc] at hn
    exact absurd hn (by simp)

namespace Run

/-- Closing an iterator succeeds, or is held up. Nothing else happens to families. -/
theorem closeIterator_spec (hs : Sound s) (i : IteratorId) :
    ∃ r s', (closeIterator i).run s = (r, s') ∧ Move s s' ∧ Elsewhere i s s' ∧
      s'.families = s.families ∧
      (r = .ok () ∧ s'.course? i = none ∧ (∃ it, s'.iterators.get? i = some it) ∨
        (∃ f, r = .error f) ∧ s'.course? i = s.course? i) := by
  unfold closeIterator
  cases hi : s.iterators.get? i with
  | none =>
    rw [run_bind, run_iterator_none hi]
    exact ⟨_, _, rfl, hs.stay, fun _ _ => rfl, rfl, .inr ⟨⟨_, rfl⟩, rfl⟩⟩
  | some it =>
    rw [run_bind, run_iterator hi]
    dsimp only
    cases hh : it.cursor with
    | none =>
      exact ⟨_, _, rfl, hs.stay, fun _ _ => rfl, rfl, .inl ⟨rfl, course?_of_closed hi hh, it, hi⟩⟩
    | some h =>
      obtain ⟨c, hc, -, -⟩ := hs.exists_cursor hi hh
      obtain ⟨r, t, rest, hrun, hmove, hr⟩ := releaseViews_spec it.views hs hi hh rfl
      dsimp only
      rw [run_bind, hrun]
      rcases hr with ⟨rfl, rfl⟩ | ⟨rfl, -⟩
      · dsimp only
        have hnow : Table.get? (s.iterators.set i { it with views := [] }) i =
            some { it with views := [] } := Table.get?_set_self _ _ _
        have hclose := hmove.sound.close hnow hh hc rfl
        rw [run_bind, run_iterator hnow]
        dsimp only
        rw [run_bind]
        unfold setIterator
        rw [run_modify]
        dsimp only
        rw [run_engine, Engine.Run.run_iteratorDeinit hc]
        refine ⟨_, _, rfl, hmove.trans hclose, fun j hj => ?_, rfl, .inl ⟨rfl, ?_, _,
          Table.get?_set_self _ _ _⟩⟩
        · refine Eq.trans ?_ (course?_views hi t [] j)
          exact course?_shut_ne hmove.sound.linked hnow hh hj
        · exact course?_of_closed (Table.get?_set_self _ _ _) rfl
      · exact ⟨_, _, rfl, hmove, fun j _ => course?_views hi t rest j, rfl,
          .inr ⟨⟨_, rfl⟩, course?_views hi t rest i⟩⟩

/-- Closing iterators one after the other. Success means that all of them are closed. -/
theorem closeIterators_spec (l : List IteratorId) : ∀ {s : Store}, Sound s →
    ∃ r s', (l.forM closeIterator).run s = (r, s') ∧ Move s s' ∧ Closing s s' ∧
      s'.families = s.families ∧ (∀ j, j ∉ l → s'.course? j = s.course? j) ∧
      (r = .ok ⟨⟩ → ∀ i ∈ l, s'.course? i = none) := by
  induction l with
  | nil =>
    intro s hs
    exact ⟨_, _, rfl, hs.stay, fun _ => .inl rfl, rfl, fun _ _ => rfl,
      fun _ i hm => absurd hm List.not_mem_nil⟩
  | cons i l ih =>
    intro s hs
    obtain ⟨r, s', hrun, hmove, helse, hfam, hr⟩ := closeIterator_spec hs i
    have hclosing : Closing s s' := fun j => by
      by_cases hj : j = i
      · rw [hj]
        rcases hr with ⟨-, hn, -⟩ | ⟨-, he⟩
        · exact .inr hn
        · exact .inl he
      · exact .inl (helse j hj)
    have hforM : (i :: l).forM closeIterator =
        (closeIterator i >>= fun _ => l.forM closeIterator) := rfl
    rw [hforM, run_bind, hrun]
    rcases hr with ⟨rfl, hn, it, hi⟩ | ⟨⟨f, rfl⟩, he⟩
    · obtain ⟨r, s'', hrun', hmove', hclosing', hfam', helse', hall⟩ := ih hmove.sound
      refine ⟨r, s'', hrun', hmove.trans hmove', hclosing.trans hclosing', hfam'.trans hfam,
        fun j hj => ?_, fun hok j hj => ?_⟩
      · exact (helse' j fun hm => hj (List.mem_cons_of_mem _ hm)).trans
          (helse j fun hji => hj (by rw [hji]; exact List.mem_cons_self))
      · rcases List.mem_cons.1 hj with rfl | hj
        · exact hmove'.later.course?_none hmove.sound hi hn
        · exact hall hok j hj
    · refine ⟨_, _, rfl, hmove, hclosing, hfam, fun j hj => ?_, fun hok => absurd hok (by simp)⟩
      exact helse j fun hji => hj (by rw [hji]; exact List.mem_cons_self)

/-- The end of a family closes iterators, and touches nothing else of iterators. -/
theorem closeFamily_spec (hs : Sound s) (id : FamilyId) :
    ∃ r s', (closeFamily id).run s = (r, s') ∧ Move s s' ∧ Closing s s' := by
  unfold closeFamily
  cases hf : s.families.get? id with
  | none =>
    rw [run_bind, run_storeFamily_none hf]
    exact ⟨_, _, rfl, hs.stay, fun _ => .inl rfl⟩
  | some f =>
    rw [run_bind, run_storeFamily hf]
    dsimp only
    cases hh : f.handle with
    | none => exact ⟨_, _, rfl, hs.stay, fun _ => .inl rfl⟩
    | some fh =>
      obtain ⟨r, s', hrun, hmove, hclosing, hfam, -, hall⟩ := closeIterators_spec f.iterators hs
      dsimp only
      rw [run_bind, hrun]
      cases r with
      | error failure => exact ⟨_, _, rfl, hmove, hclosing⟩
      | ok u =>
        have hf' : s'.families.get? id = some f := by rw [hfam]; exact hf
        have hclosed : ∀ i ∈ f.iterators, ∀ it, s'.iterators.get? i = some it →
            it.isClosed = true := by
          intro i hm it hi
          have hn := hall rfl i hm
          unfold Iterator.isClosed
          cases hcur : it.cursor with
          | none => rfl
          | some h =>
            obtain ⟨c, hc, -, -⟩ := hmove.sound.exists_cursor hi hcur
            rw [course?_eq hi hcur hc] at hn
            exact absurd hn (by simp)
        have hend := hmove.sound.endFamily hf' hclosed
        have hrest : Within (SameIterators [.families]) (do
            engine (Engine.Run.familyDelete fh)
            note [.familyClosed f.config.typeName] : Run Unit) :=
          Within.bind (sameIterators_engine (Engine.Run.sameCursors_familyDelete (by decide) fh))
            fun _ =>
            sameIterators_note _
        have hiterators := hrest (Sound.ended s' id f)
        dsimp only
        rw [run_bind, run_storeFamily hf']
        dsimp only
        rw [run_bind]
        unfold setFamily
        rw [run_modify]
        refine ⟨_, _, rfl, (hmove.trans hend).trans
          ⟨hend.sound.sameIterators hiterators, hiterators.later⟩, ?_⟩
        exact hclosing.trans fun i => .inl (hiterators.course? i)

/-- The part of starting an iteration that comes after the arguments have been checked. -/
def begin (id : FamilyId) (fh : Engine.FamilyHandle) (span : Span) : Run IteratorId := do
  let (result, events) ← engine (Engine.Run.iteratorInit fh span)
  note events
  match result with
  | .error status => throw (statusFailure .startIteration status)
  | .ok cursor =>
    let s ← get
    let iteratorId := s.iterators.size
    setIterator iteratorId ⟨id, some cursor, .running, false, 0, []⟩
    let f ← family id
    setFamily id { f with iterators := f.iterators ++ [iteratorId] }
    return iteratorId

theorem run_range {id : FamilyId} {f : Family} {fh : Engine.FamilyHandle}
    (hserves : Serves s id f fh) (start : Value) :
    (range id start).run s =
      match f.startSpan start with
      | .ok span => (begin id fh span).run s
      | .error failure => (.error failure, s) := by
  unfold range
  rw [run_bind, run_openFamily hserves]
  dsimp only
  by_cases hnull : start = .null
  · rw [hnull]
    rfl
  · rw [f.startSpan_of_ne hnull]
    split
    · exact absurd rfl hnull
    · rw [run_bind, run_keySpan]
      cases f.span start with
      | error failure => rfl
      | ok span => rfl

/-- A new cursor gets a new iterator, which its family keeps track of. -/
theorem run_begin {id : FamilyId} {f : Family} {fh : Engine.FamilyHandle} {fam : Engine.Family}
    {span : Span} {events : List Event} (hserves : Serves s id f fh)
    (hinit : (Engine.Run.iteratorInit fh span).run s.engine =
      (.ok (.ok s.engine.nextHandle, events),
        s.engine.withCursor fh (s.engine.newCursor fam span))) :
    (begin id fh span).run s = (.ok s.iterators.size,
      { Sound.begun s id f fh (s.engine.newCursor fam span) with
        log := events.reverse ++ s.log }) := by
  unfold begin
  rw [run_bind, run_engine, hinit]
  dsimp only
  rw [run_bind, run_note]
  dsimp only
  rw [run_bind, run_get]
  dsimp only
  unfold setIterator setFamily
  rw [run_bind, run_modify]
  dsimp only
  rw [run_bind, run_storeFamily (by exact hserves.1)]
  rfl

/-- What it means that an iterator has been started, whatever was noted in the log. -/
structure Started (s s' : Store) (records : List Engine.Record) : Prop where
  move : Move s s'
  others : ∀ {i κ}, s.course? i = some κ → s'.course? i = some κ
  course : s'.course? s.iterators.size = some (Course.fresh records s.engine.failIterationAt)
  unviewed : Unviewed s' s.iterators.size

theorem started_begun (hs : Sound s) {id : FamilyId} {f : Family} {fh : Engine.FamilyHandle}
    (hserves : Serves s id f fh) (fam : Engine.Family) (span : Span) {log : List Event} {s' : Store}
    (hs' : s' = { Sound.begun s id f fh (s.engine.newCursor fam span) with log := log }) :
    Started s s'
      (Engine.selected fam.config.funcs (s.engine.recordsOf fam.store) span) := by
  have hopen : f.isClosed = false := by
    rw [Family.isClosed, hserves.2.1]
    rfl
  have hbegin := hs.begin (c := s.engine.newCursor fam span) hserves.1 hopen fh rfl rfl rfl
  have hlog : SameIterators [] (Sound.begun s id f fh (s.engine.newCursor fam span)) s' := by
    rw [hs']
    exact ⟨Frame.refl _, fun hn => ⟨hn, fun _ _ hg => hg⟩, rfl, rfl, rfl⟩
  have hi : s'.iterators.get? s.iterators.size =
      some ⟨id, some s.engine.nextHandle, .running, false, 0, []⟩ := by
    rw [hs']
    exact Table.get?_set_self _ _ _
  have hc : s'.engine.cursors.get? s.engine.nextHandle = some (s.engine.newCursor fam span) := by
    rw [hs']
    exact Table.get?_set_self _ _ _
  refine ⟨hbegin.trans ⟨hbegin.sound.sameIterators hlog, hlog.later⟩, fun {j κ} hκ => ?_,
    course?_eq hi rfl hc, _, hi, rfl⟩
  obtain ⟨it, h, c, hj, hh, hc, -⟩ := exists_of_course? hκ
  rw [← hκ, course?_eq hj hh hc, hs']
  refine course?_eq ?_ hh ?_
  · exact (Table.get?_set_ne _ (hs.linked.iterators.ne_size hj) _).trans hj
  · exact (Table.get?_set_ne _ (Nat.ne_of_lt (hs.linked.handles hc)) _).trans hc

/-- A new iterator, or a failure that changes nothing about iterators. -/
theorem range_spec (hs : Sound s) (id : FamilyId) (start : Value) :
    (∃ failure s', (range id start).run s = (.error failure, s') ∧ SameIterators [] s s') ∨
    ∃ f fh fam span s', Serves s id f fh ∧ f.startSpan start = .ok span ∧
      Engine.Run.Serves s.engine fh fam ∧
      (range id start).run s = (.ok s.iterators.size, s') ∧
      Started s s' (Engine.selected fam.config.funcs (s.engine.recordsOf fam.store) span) := by
  rcases openFamily_cases s id with ⟨failure, hrun⟩ | ⟨f, fh, hserves⟩
  · unfold range
    rw [run_bind, hrun]
    exact .inl ⟨failure, s, rfl, Frame.refl s⟩
  · rw [run_range hserves]
    cases hspan : f.startSpan start with
    | error failure => exact .inl ⟨failure, s, rfl, Frame.refl s⟩
    | ok span =>
      dsimp only
      rcases Engine.Run.iteratorInit_cases fh span s.engine with
        ⟨hno, hcursors⟩ | ⟨fam, hfam, hinit⟩
      · unfold begin
        rw [run_bind, run_engine]
        have hq : ∀ log, SameIterators [] s { s with
            engine := ((Engine.Run.iteratorInit fh span).run s.engine).2, log := log } := fun _ =>
          ⟨hcursors, fun hn => ⟨hn, fun _ _ hg => hg⟩, rfl, rfl, rfl⟩
        cases hr : ((Engine.Run.iteratorInit fh span).run s.engine).1 with
        | error failure => exact .inl ⟨failure, _, rfl, hq _⟩
        | ok p =>
          obtain ⟨r, events⟩ := p
          cases r with
          | ok h => exact absurd hr (hno h events)
          | error status => exact .inl ⟨_, _, rfl, hq _⟩
      · rw [run_begin hserves hinit]
        exact .inr ⟨f, fh, fam, span, _, hserves, hspan, hfam, rfl,
          started_begun hs hserves fam span rfl⟩

/-! ## Views -/

/-- The view of a part of a record: of its key or of its value. -/
def viewPart (part : Record → Engine.Extent) (id : RecordId) : Run ViewId := do
  let r ← record id
  checkValid r
  newView r.iterator (part r)

/-- The view that shows an extent; an empty one needs no memory. -/
def freshView (x : Engine.Extent) : View := ⟨if x.length = 0 then none else some x, false, 0⟩

theorem run_record_none {ρ : RecordId} (hr : s.records.get? ρ = none) :
    (record ρ).run s = (.error (.misuse .unknownHandle), s) := by
  unfold record
  rw [run_bind, run_get]
  dsimp only
  rw [hr]
  rfl

/-- A record of the present generation gives a new view. -/
theorem run_viewPart (part : Record → Engine.Extent) {ρ : RecordId} {r : Record}
    (hr : s.records.get? ρ = some r) (hi : s.iterators.get? r.iterator = some it)
    (hg : it.generation = r.generation) : (viewPart part ρ).run s =
      (.ok s.views.size, Sound.viewed s r.iterator it (freshView (part r))) := by
  unfold viewPart
  rw [run_bind, run_record hr]
  dsimp only
  rw [run_bind, run_checkValid hi hg]
  dsimp only
  unfold newView setView setIterator
  rw [run_bind, run_get]
  dsimp only
  rw [run_bind, run_modify]
  dsimp only
  rw [run_bind, run_iterator (by exact hi)]
  rfl

/-- A view is refused, or it is a new view of a record of the present generation. -/
theorem viewPart_cases (hs : Sound s) (part : Record → Engine.Extent) (ρ : RecordId) :
    (∃ failure, (viewPart part ρ).run s = (.error failure, s)) ∨
    ∃ r it, s.records.get? ρ = some r ∧ s.iterators.get? r.iterator = some it ∧
      it.generation = r.generation ∧ (viewPart part ρ).run s =
        (.ok s.views.size, Sound.viewed s r.iterator it (freshView (part r))) := by
  cases hr : s.records.get? ρ with
  | none =>
    unfold viewPart
    rw [run_bind, run_record_none hr]
    exact .inl ⟨_, rfl⟩
  | some r =>
    obtain ⟨it, hi, -, -⟩ := hs.placed ρ r hr
    by_cases hg : it.generation = r.generation
    · exact .inr ⟨r, it, rfl, hi, hg, run_viewPart part hr hi hg⟩
    · unfold viewPart
      rw [run_bind, run_record hr]
      dsimp only
      rw [run_bind, run_checkValid_of_stale hi hg]
      exact .inl ⟨_, rfl⟩

theorem viewPart_move (hs : Sound s) (part : Record → Engine.Extent) (ρ : RecordId) :
    Move s ((viewPart part ρ).run s).2 ∧
      ∀ j, ((viewPart part ρ).run s).2.course? j = s.course? j := by
  rcases viewPart_cases hs part ρ with ⟨failure, hrun⟩ | ⟨r, it, hr, hi, hg, hrun⟩
  · rw [hrun]
    exact ⟨hs.stay, fun _ => rfl⟩
  · obtain ⟨jt, hj, -, hlends⟩ := hs.placed ρ r hr
    obtain rfl := Option.some.inj (hi.symm.trans hj)
    obtain ⟨hpos, h, -, -, -, -, hh, -⟩ := hlends hg.symm
    rw [hrun]
    exact ⟨hs.addView hi hh hpos _, fun j => course?_views hi _ _ j⟩

theorem releaseView_move (hs : Sound s) (v : ViewId) :
    Move s ((releaseView v).run s).2 ∧
      ∀ j, ((releaseView v).run s).2.course? j = s.course? j := by
  rcases releaseView_cases v s with ⟨failure, hrun⟩ | ⟨vw, hv, hrun⟩
  · rw [hrun]
    exact ⟨hs.stay, fun _ => rfl⟩
  · rw [hrun]
    exact ⟨hs.changeView hv rfl fun hr => absurd hr (by simp), fun _ => rfl⟩

theorem holdView_move (hs : Sound s) (v : ViewId) :
    Move s ((holdView v).run s).2 ∧ ∀ j, ((holdView v).run s).2.course? j = s.course? j := by
  unfold holdView checkReadable
  cases hv : s.views.get? v with
  | none =>
    rw [run_bind, run_view_none hv]
    exact ⟨hs.stay, fun _ => rfl⟩
  | some vw =>
    rw [run_bind, run_view hv]
    dsimp only
    rw [run_bind, run_ite]
    cases hr : vw.released with
    | true => exact ⟨hs.stay, fun _ => rfl⟩
    | false => exact ⟨hs.changeView hv rfl fun _ => hr, fun _ => rfl⟩

theorem unholdView_move (hs : Sound s) (v : ViewId) :
    Move s ((unholdView v).run s).2 ∧ ∀ j, ((unholdView v).run s).2.course? j = s.course? j := by
  unfold unholdView
  cases hv : s.views.get? v with
  | none =>
    rw [run_bind, run_view_none hv]
    exact ⟨hs.stay, fun _ => rfl⟩
  | some vw =>
    rw [run_bind, run_view hv]
    exact ⟨hs.changeView hv rfl fun hr => hr, fun _ => rfl⟩

end Run

end FamilyStore.Store
