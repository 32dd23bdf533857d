import FamilyStore.Proofs.Engine.Housed
import FamilyStore.Proofs.SameHandles

/-!
Operations that leave databases and families alone.

Whatever is done with iterators, records and views, all databases and families stay as they are, but
for the lists of iterators that families keep. The same holds of threads and of failures that are
set up.
-/

namespace FamilyStore

namespace Engine.Run

/-! ## Work of cursors -/

variable {parts : List Part}

theorem sameParts_of_sameCursors {α : Type} {work : Engine.Run α}
    (h : Within (SameCursors parts) work) : Within (SameParts parts) work :=
  h.mono fun _ _ hq => hq.sameParts

/-- Only cursors and memory change. -/
theorem sameParts_cursors (e : Engine) (t : Table Handle Cursor) (m : Memory) :
    SameParts parts e { e with cursors := t, memory := m } :=
  ⟨Nat.le_refl _, fun p _ => by
    cases p with
    | settings => exact ⟨rfl, rfl, fun _ h => h⟩
    | databases | families | stores | records => rfl⟩

theorem sameParts_note (entry : EntryPoint) (subject : Subject) :
    Within (SameParts parts) (note entry subject) :=
  Within.modify fun e => ⟨Nat.le_refl _, fun p _ => by
    cases p with
    | settings => exact ⟨rfl, rfl, fun _ h => h⟩
    | databases | families | stores | records => rfl⟩

theorem sameParts_cursor (h : Handle) : Within (SameParts parts) (cursor h) :=
  Within.bind Within.get fun _ => within_require _

theorem sameParts_setCursor (h : Handle) (c : Cursor) : Within (SameParts parts) (setCursor h c) :=
  Within.modify fun e => sameParts_cursors e _ e.memory

theorem sameParts_releaseCurrent (c : Cursor) : Within (SameParts parts) (releaseCurrent c) := by
  unfold releaseCurrent
  cases c.current with
  | none => exact Within.pure _
  | some a => exact Within.modify fun e => sameParts_cursors e e.cursors _

theorem sameParts_iteratorInit (f : FamilyHandle) (start : Span) :
    Within (SameParts parts) (iteratorInit f start) := by
  refine Within.bind (sameParts_note _ _) fun _ => Within.bind (within_family f) fun fam => ?_
  refine Within.bind (sameParts_of_sameCursors (sameCursors_takePending _)) fun status => ?_
  refine Within.ite (Within.pure _) (Within.bind Within.get fun e => ?_)
  refine Within.bind (sameParts_of_sameCursors sameCursors_newHandle) fun h => ?_
  exact Within.bind (Within.modify fun e => sameParts_cursors e _ e.memory) fun _ => Within.pure _

theorem sameParts_iteratorValid (h : Handle) : Within (SameParts parts) (iteratorValid h) := by
  refine Within.bind (sameParts_note _ _) fun _ => Within.bind (sameParts_cursor h) fun c => ?_
  exact Within.ite (Within.bind (sameParts_setCursor _ _) fun _ => Within.pure _) (Within.pure _)

theorem sameParts_iteratorNext (h : Handle) : Within (SameParts parts) (iteratorNext h) := by
  refine Within.bind (sameParts_note _ _) fun _ => Within.bind (sameParts_cursor h) fun c => ?_
  exact Within.bind (sameParts_releaseCurrent c) fun _ => sameParts_setCursor _ _

theorem sameParts_lend (h : Handle) (c : Cursor) (r : Record) :
    Within (SameParts parts) (lend h c r) := by
  unfold lend
  cases c.current with
  | some a => exact Within.pure _
  | none => exact Within.get_bind fun e => sameParts_cursors e _ _

theorem sameParts_iteratorGetCurrent (h : Handle) :
    Within (SameParts parts) (iteratorGetCurrent h) := by
  refine Within.bind (sameParts_note _ _) fun _ => Within.bind (sameParts_cursor h) fun c => ?_
  cases c.records[c.position]? with
  | none => exact within_refuse _
  | some r => exact Within.bind (sameParts_lend h c r) fun _ => Within.pure _

theorem sameParts_iteratorStatus (h : Handle) : Within (SameParts parts) (iteratorStatus h) :=
  Within.bind (sameParts_note _ _) fun _ => Within.bind (sameParts_cursor h) fun _ => Within.pure _

theorem sameParts_iteratorDeinit (h : Handle) : Within (SameParts parts) (iteratorDeinit h) := by
  refine Within.bind (sameParts_note _ _) fun _ => Within.bind (sameParts_cursor h) fun c => ?_
  refine Within.bind (Within.modify fun e => sameParts_cursors e _ e.memory) fun _ => ?_
  exact sameParts_releaseCurrent c

end Engine.Run

namespace Store

/-- What a family handle stands for. -/
def Family.front (f : Family) : DatabaseId × DataConfig × Option Engine.FamilyHandle :=
  (f.database, f.config, f.handle)

/-- Databases and families are the same, and so are their records. -/
structure SameFamilies (s s' : Store) : Prop where
  engine : Engine.SameParts [.settings] s.engine s'.engine
  databases : s'.databases = s.databases
  families : ∀ id, (s'.families.get? id).map Family.front = (s.families.get? id).map Family.front

/-- Each family handle is there as before. -/
theorem SameFamilies.exists_family {s s' : Store} (h : SameFamilies s s') {id : FamilyId}
    {f : Family} (hf : s.families.get? id = some f) :
    ∃ g, s'.families.get? id = some g ∧ g.handle = f.handle := by
  have hfront := h.families id
  rw [hf, Option.map_some] at hfront
  obtain ⟨g, hg, hgf⟩ := Option.map_eq_some_iff.1 hfront
  exact ⟨g, hg, congrArg (fun p => p.2.2) hgf⟩

instance : Frame SameFamilies where
  refl _ := ⟨Frame.refl _, rfl, fun _ => rfl⟩
  trans h h' :=
    { engine := Frame.trans h.engine h'.engine
      databases := h'.databases.trans h.databases
      families := fun id => (h'.families id).trans (h.families id) }

theorem SameHandles.sameFamilies {s s' : Store} (h : SameHandles [.settings] s s') :
    SameFamilies s s' :=
  ⟨h.engine.sameParts, h.databases, fun _ => by rw [h.families]⟩

namespace Run

theorem sameFamilies_engine {α : Type} {work : Engine.Run α}
    (h : Within (Engine.SameParts [.settings]) work) : Within SameFamilies (engine work) :=
  within_engine (fun _ _ h => ⟨h, rfl, fun _ => rfl⟩) h

theorem sameFamilies_note (events : List Event) : Within SameFamilies (note events) :=
  (sameHandles_note events).mono fun _ _ h => h.sameFamilies

theorem sameFamilies_setIterator (id : IteratorId) (i : Iterator) :
    Within SameFamilies (setIterator id i) :=
  Within.modify fun _ => ⟨Frame.refl _, rfl, fun _ => rfl⟩

theorem sameFamilies_setView (id : ViewId) (v : View) : Within SameFamilies (setView id v) :=
  Within.modify fun _ => ⟨Frame.refl _, rfl, fun _ => rfl⟩

/-- A family may get another list of iterators. -/
theorem sameFamilies_setFamily (s : Store) {id : FamilyId} {f f' : Family}
    (hf : s.families.get? id = some f) (hfront : f'.front = f.front) :
    SameFamilies s { s with families := s.families.set id f' } := by
  refine ⟨Frame.refl _, rfl, fun id' => ?_⟩
  dsimp only
  rw [Table.get?_set]
  split
  · rename_i heq
    rw [heq, hf, Option.map_some, Option.map_some, hfront]
  · rfl

/-- A new iterator is noted in the list of its family. -/
theorem sameFamilies_addIterator (id : FamilyId) (i : IteratorId) : Within SameFamilies (do
    let f ← family id
    setFamily id { f with iterators := f.iterators ++ [i] }
    return i) := by
  intro s
  cases hf : s.families.get? id with
  | none =>
    unfold family
    rw [run_bind, run_bind, run_get]
    dsimp only
    rw [hf]
    exact Frame.refl s
  | some f =>
    unfold family
    rw [run_bind, run_bind, run_get]
    dsimp only
    rw [hf]
    exact sameFamilies_setFamily s hf rfl

theorem sameFamilies_range (id : FamilyId) (start : Value) :
    Within SameFamilies (range id start) := by
  refine Within.bind (within_openFamily id) fun r => ?_
  have hkey : Within SameFamilies (keySpan r.1 start) := within_keySpan _ _
  have hnull : Within SameFamilies (pure (Span.null 0) : Run Span) := Within.pure _
  cases start
  -- Where the span comes from differs; what is done with it does not.
  all_goals
    refine Within.bind (by first | exact hnull | exact hkey) fun span => ?_
    refine Within.bind (sameFamilies_engine (Engine.Run.sameParts_iteratorInit r.2 span))
      fun result => ?_
    refine Within.bind (sameFamilies_note _) fun _ => ?_
    cases result.1 with
    | error status => exact Within.throw _
    | ok cursor =>
      exact Within.bind Within.get fun s => Within.bind (sameFamilies_setIterator _ _) fun _ =>
        sameFamilies_addIterator id _

/-! ## Views and records -/

theorem sameFamilies_releaseView (v : ViewId) : Within SameFamilies (releaseView v) := by
  refine Within.bind (within_view v) fun vw => Within.ite (Within.pure _) ?_
  exact Within.guard (Within.throw _) (sameFamilies_setView _ _)

theorem sameFamilies_holdView (v : ViewId) : Within SameFamilies (holdView v) := by
  refine Within.bind (within_view v) fun vw => Within.bind ?_ fun _ => sameFamilies_setView _ _
  exact Within.ite (Within.throw _) (Within.pure _)

theorem sameFamilies_unholdView (v : ViewId) : Within SameFamilies (unholdView v) :=
  Within.bind (within_view v) fun _ => sameFamilies_setView _ _

theorem sameFamilies_releaseViews (id : IteratorId) (views : List ViewId) :
    Within SameFamilies (releaseViews id views) := by
  induction views with
  | nil => exact Within.pure _
  | cons v rest ih =>
    refine Within.bind (within_outcome (sameFamilies_releaseView v)) fun r => ?_
    cases r with
    | error failure => exact within_fail _
    | ok _ => exact Within.bind (within_iterator id) fun i =>
        Within.bind (sameFamilies_setIterator _ _) fun _ => ih

theorem sameFamilies_newView (id : IteratorId) (x : Engine.Extent) :
    Within SameFamilies (newView id x) := by
  refine Within.bind Within.get fun s => Within.bind (sameFamilies_setView _ _) fun _ => ?_
  exact Within.bind (within_iterator id) fun i =>
    Within.bind (sameFamilies_setIterator _ _) fun _ => Within.pure _

theorem sameFamilies_viewPart (part : Record → Engine.Extent) (ρ : RecordId) :
    Within SameFamilies (do
    let r ← record ρ
    checkValid r
    newView r.iterator (part r)) := by
  exact Within.bind (within_record ρ) fun r => Within.bind (within_checkValid r) fun _ =>
    sameFamilies_newView _ _

/-! ## Iterators -/

theorem sameFamilies_leaveRecord (id : IteratorId) (cursor : Engine.Handle) :
    Within SameFamilies (leaveRecord id cursor) := by
  refine Within.bind (within_iterator id) fun i =>
    Within.bind (sameFamilies_releaseViews _ _) fun _ => ?_
  refine Within.bind (within_iterator id) fun i =>
    Within.bind (sameFamilies_setIterator _ _) fun _ => ?_
  exact sameFamilies_engine (Engine.Run.sameParts_iteratorNext cursor)

theorem sameFamilies_giveOut (id : IteratorId) (cursor : Engine.Handle) :
    Within SameFamilies (giveOut id cursor) := by
  refine Within.bind (sameFamilies_engine (Engine.Run.sameParts_iteratorGetCurrent cursor))
    fun x => ?_
  refine Within.bind (within_iterator id) fun i =>
    Within.bind (sameFamilies_setIterator _ _) fun _ => ?_
  exact Within.get_bind fun s => ⟨Frame.refl _, rfl, fun _ => rfl⟩

theorem sameFamilies_endIteration (id : IteratorId) (cursor : Engine.Handle) :
    Within SameFamilies (endIteration id cursor) := by
  refine Within.bind (sameFamilies_engine (Engine.Run.sameParts_iteratorStatus cursor))
    fun status => ?_
  refine Within.bind (within_iterator id) fun i => Within.ite ?_ (sameFamilies_setIterator _ _)
  exact Within.bind (sameFamilies_setIterator _ _) fun _ => Within.bind (Within.throw _) fun _ =>
    sameFamilies_setIterator _ _

theorem sameFamilies_advance (id : IteratorId) : Within SameFamilies (advance id) := by
  have hgo : ∀ cursor, Within SameFamilies (do
      if ← engine (Engine.Run.iteratorValid cursor) then
        return some (← giveOut id cursor)
      endIteration id cursor
      return none) := by
    intro cursor
    refine Within.bind (sameFamilies_engine (Engine.Run.sameParts_iteratorValid cursor))
      fun valid => ?_
    refine Within.ite (Within.bind (sameFamilies_giveOut id cursor) fun _ => Within.pure _) ?_
    exact Within.bind (sameFamilies_endIteration id cursor) fun _ => Within.pure _
  refine Within.bind (within_iterator id) fun i => ?_
  cases i.cursor with
  | none => exact within_fail _
  | some cursor =>
    refine Within.bind (within_family _) fun f => Within.guard (within_fail _) ?_
    cases i.progress with
    | failed status => exact within_fail _
    | exhausted => exact Within.pure _
    | running => exact Within.guard (sameFamilies_leaveRecord id cursor) (hgo cursor)

theorem sameFamilies_next (id : IteratorId) : Within SameFamilies (next id) := by
  refine Within.bind (sameFamilies_advance id) fun r => ?_
  cases r with
  | some ρ => exact Within.bind (within_copyRecord ρ) fun _ => Within.pure _
  | none => exact Within.pure _

theorem sameFamilies_closeIterator (id : IteratorId) : Within SameFamilies (closeIterator id) := by
  refine Within.bind (within_iterator id) fun i => ?_
  cases i.cursor with
  | none => exact Within.pure _
  | some cursor =>
    refine Within.bind (sameFamilies_releaseViews _ _) fun _ =>
      Within.bind (within_iterator id) fun i => ?_
    refine Within.bind (sameFamilies_setIterator _ _) fun _ => ?_
    exact sameFamilies_engine (Engine.Run.sameParts_iteratorDeinit cursor)

theorem sameFamilies_closeIterators (ids : List IteratorId) :
    Within SameFamilies (ids.forM closeIterator) := by
  induction ids with
  | nil => exact Within.pure _
  | cons id ids ih => exact Within.bind (sameFamilies_closeIterator id) fun _ => ih

end Run

/-- Whether an operation is about the failures that are set up, threads, iterators, records or
views. -/
def Operation.keepsFamilies : Operation → Bool
  | .newDatabase | .start _ _ _ _ | .connect _ _ _ | .createFamily _ _ _ | .closeDatabase _
  | .point _ _ | .closeFamily _ => false
  | _ => true

theorem sameFamilies_of_keepsFamilies {op : Operation} (h : op.keepsFamilies = true) :
    Within SameFamilies op.run := by
  have htune : ∀ change, (∀ e, ∃ files pending failIterationAt refuseResize,
      change e = { e with files, pending, failIterationAt, refuseResize }) →
      Within SameFamilies (Run.tune change) := fun change hc =>
    (Run.sameHandles_tune List.mem_cons_self change hc).mono fun _ _ h => h.sameFamilies
  cases op with
  | changeFiles nodes => exact htune _ fun e => ⟨_, _, _, _, rfl⟩
  | failNext entry status => exact htune _ fun e => ⟨_, _, _, _, rfl⟩
  | failIterationAt position => exact htune _ fun e => ⟨_, _, _, _, rfl⟩
  | refuseResize on => exact htune _ fun e => ⟨_, _, _, _, rfl⟩
  | register id => exact (Within.map (Run.sameHandles_register id) _).mono fun _ _ h =>
      h.sameFamilies
  | deregister id => exact (Within.map (Run.sameHandles_deregister id) _).mono fun _ _ h =>
      h.sameFamilies
  | range id key => exact Within.map (Run.sameFamilies_range id key) _
  | advance id => exact Within.map (Run.sameFamilies_advance id) _
  | next id => exact Within.map (Run.sameFamilies_next id) _
  | closeIterator id => exact Within.map (Run.sameFamilies_closeIterator id) _
  | isValid id => exact Within.map (Run.within_isValid id) _
  | copy id => exact Within.map (Run.within_copyRecord id) _
  | viewKey id => exact Within.map (Run.sameFamilies_viewPart Record.key id) _
  | viewValue id => exact Within.map (Run.sameFamilies_viewPart Record.value id) _
  | readView id => exact Within.map (Run.within_readView id) _
  | releaseView id => exact Within.map (Run.sameFamilies_releaseView id) _
  | holdView id => exact Within.map (Run.sameFamilies_holdView id) _
  | unholdView id => exact Within.map (Run.sameFamilies_unholdView id) _
  | newDatabase | start | connect | createFamily | closeDatabase | point | closeFamily =>
    exact absurd h Bool.false_ne_true

end Store

end FamilyStore
