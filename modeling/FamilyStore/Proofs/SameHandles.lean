import FamilyStore.Proofs.Engine.SameCursors
import FamilyStore.Proofs.Operation
import FamilyStore.Proofs.Table

/-!
Operations that leave iterators alone.

All operations but those on iterators, their records and their views keep the iterators the same: no
iterator, record or view changes, and no cursor of the engine. A point call keeps all handles.
-/

namespace FamilyStore.Store

variable {parts : List Engine.Part}

/-- All handles are the same: only the engine changes, but not its cursors, and the log. -/
structure SameHandles (parts : List Engine.Part) (s s' : Store) : Prop where
  engine : Engine.SameCursors parts s.engine s'.engine
  databases : s'.databases = s.databases
  families : s'.families = s.families
  iterators : s'.iterators = s.iterators
  records : s'.records = s.records
  views : s'.views = s.views

instance : Frame (SameHandles parts) where
  refl _ := ⟨Frame.refl _, rfl, rfl, rfl, rfl, rfl⟩
  trans h h' :=
    { engine := Frame.trans h.engine h'.engine
      databases := h'.databases.trans h.databases
      families := h'.families.trans h.families
      iterators := h'.iterators.trans h.iterators
      records := h'.records.trans h.records
      views := h'.views.trans h.views }

/-- Iterators, records, views and the families that are there are the same. -/
structure SameIterators (parts : List Engine.Part) (s s' : Store) : Prop where
  engine : Engine.SameCursors parts s.engine s'.engine
  families : s.families.Numbered → s'.families.Numbered ∧
    ∀ id f, s.families.get? id = some f → s'.families.get? id = some f
  iterators : s'.iterators = s.iterators
  records : s'.records = s.records
  views : s'.views = s.views

instance : Frame (SameIterators parts) where
  refl _ := ⟨Frame.refl _, fun h => ⟨h, fun _ _ hf => hf⟩, rfl, rfl, rfl⟩
  trans h h' :=
    { engine := Frame.trans h.engine h'.engine
      families := fun hn =>
        ⟨(h'.families (h.families hn).1).1, fun id f hf =>
          (h'.families (h.families hn).1).2 id f ((h.families hn).2 id f hf)⟩
      iterators := h'.iterators.trans h.iterators
      records := h'.records.trans h.records
      views := h'.views.trans h.views }

instance : Frame (fun s s' : Store => s' = s) where
  refl _ := rfl
  trans h h' := h'.trans h

theorem SameHandles.sameIterators {s s' : Store} (h : SameHandles parts s s') :
    SameIterators parts s s' where
  engine := h.engine
  families hn := by
    rw [h.families]
    exact ⟨hn, fun _ _ hf => hf⟩
  iterators := h.iterators
  records := h.records
  views := h.views

namespace Run

theorem sameHandles_engine {α : Type} {work : Engine.Run α}
    (h : Within (Engine.SameCursors parts) work) : Within (SameHandles parts) (engine work) :=
  within_engine (fun _ _ h => ⟨h, rfl, rfl, rfl, rfl, rfl⟩) h

theorem sameHandles_note (events : List Event) : Within (SameHandles parts) (note events) :=
  Within.modify fun _ => ⟨Frame.refl _, rfl, rfl, rfl, rfl, rfl⟩

/-! ## Point calls -/

theorem within_openFamily {R : Store → Store → Prop} [Frame R] (id : FamilyId) :
    Within R (openFamily id) := by
  refine Within.bind (within_family id) fun f => ?_
  cases f.handle with
  | none => exact within_fail _
  | some handle =>
    exact Within.bind (within_database _) fun d => Within.guard (within_fail _) (Within.pure _)

theorem within_keySpan {R : Store → Store → Prop} [Frame R] (f : Family) (key : Value) :
    Within R (keySpan f key) := by
  unfold keySpan
  split
  · exact Within.throw _
  · exact Within.bind (within_ofExcept _) fun slice => Within.guard (within_fail _) (Within.pure _)

theorem within_valueSpan {R : Store → Store → Prop} [Frame R] (v : Value) :
    Within R (valueSpan v) :=
  Within.bind (within_ofExcept _) fun _ => Within.pure _

theorem sameHandles_insert (h : .records ∈ parts) (id : FamilyId) (key value : Value) :
    Within (SameHandles parts) (insert id key value) := by
  refine Within.bind (within_openFamily id) fun r => Within.bind (within_keySpan _ _) fun k => ?_
  refine Within.bind (within_valueSpan _) fun v => ?_
  exact Within.bind (sameHandles_engine (Engine.Run.sameCursors_insert h _ _ _)) fun _ =>
    within_checkStatus _ _

theorem sameHandles_update (h : .records ∈ parts) (id : FamilyId) (key delta : Value) :
    Within (SameHandles parts) (update id key delta) := by
  refine Within.bind (within_openFamily id) fun r => Within.bind (within_keySpan _ _) fun k => ?_
  refine Within.bind (within_valueSpan _) fun d => ?_
  refine Within.bind (sameHandles_engine (Engine.Run.sameCursors_update h _ _ _)) fun r => ?_
  exact Within.bind (sameHandles_note _) fun _ => within_checkStatus _ _

theorem sameHandles_delete (h : .records ∈ parts) (id : FamilyId) (key : Value) :
    Within (SameHandles parts) (delete id key) := by
  refine Within.bind (within_openFamily id) fun r => Within.bind (within_keySpan _ _) fun k => ?_
  exact Within.bind (sameHandles_engine (Engine.Run.sameCursors_delete h _ _)) fun _ =>
    within_checkStatus _ _

theorem sameHandles_lookupIn (handle : Engine.FamilyHandle) (key : Span) (address : Nat) :
    Within (SameHandles parts) (lookupIn handle key address) := by
  refine Within.bind (sameHandles_engine (Engine.Run.sameCursors_lookup _ _ _)) fun status => ?_
  refine Within.bind (within_checkStatus _ _) fun _ => ?_
  refine Within.bind (sameHandles_engine (Engine.Run.sameCursors_lookupFound _)) fun found => ?_
  refine Within.ite ?_ (Within.pure _)
  refine Within.bind (sameHandles_engine (Engine.Run.sameCursors_lookupValue _)) fun result => ?_
  cases result with
  | ok value => exact Within.pure _
  | error status => exact Within.throw _

theorem sameHandles_lookup (id : FamilyId) (key : Value) :
    Within (SameHandles parts) (lookup id key) := by
  refine Within.bind (within_openFamily id) fun r => Within.bind (within_keySpan _ _) fun k => ?_
  refine Within.bind Within.get fun s => ?_
  refine Within.bind (sameHandles_engine (Engine.Run.sameCursors_lookupInit _ _)) fun _ => ?_
  exact within_ensuring (sameHandles_lookupIn _ _ _)
    (sameHandles_engine (Engine.Run.sameCursors_lookupDeinit _))

theorem sameHandles_getOr (id : FamilyId) (key default : Value) :
    Within (SameHandles parts) (getOr id key default) := by
  refine Within.bind (sameHandles_lookup id key) fun found => ?_
  cases found <;> exact Within.pure _

theorem sameHandles_contains (id : FamilyId) (key : Value) :
    Within (SameHandles parts) (contains id key) := by
  unfold contains
  split
  · exact Within.bind (sameHandles_lookup _ _) fun _ => Within.pure _
  · refine Within.bind (within_ofExcept _) fun size => Within.bind (within_family id) fun f => ?_
    exact Within.ite (Within.pure _) (Within.bind (sameHandles_lookup _ _) fun _ => Within.pure _)

/-- A point call changes records only. -/
theorem sameHandles_point (h : .records ∈ parts) (id : FamilyId) (call : PointCall) :
    Within (SameHandles parts) (call.run id) := by
  cases call with
  | insert key value => exact Within.map (sameHandles_insert h id key value) _
  | update key delta => exact Within.map (sameHandles_update h id key delta) _
  | delete key => exact Within.map (sameHandles_delete h id key) _
  | lookup key => exact Within.map (sameHandles_lookup id key) _
  | get key default => exact Within.map (sameHandles_getOr id key default) _
  | contains key => exact Within.map (sameHandles_contains id key) _

/-! ## Reading -/

theorem within_isValid {R : Store → Store → Prop} [Frame R] (ρ : RecordId) :
    Within R (record ρ >>= isValid) :=
  Within.bind (within_record ρ) fun _ => Within.bind (within_iterator _) fun _ => Within.pure _

theorem within_checkValid {R : Store → Store → Prop} [Frame R] (r : Record) :
    Within R (checkValid r) := by
  refine Within.bind (Within.bind (within_iterator _) fun _ => Within.pure _) fun valid => ?_
  exact Within.ite (within_fail _) (Within.pure _)

theorem within_copyRecord {R : Store → Store → Prop} [Frame R] (ρ : RecordId) :
    Within R (copyRecord ρ) := by
  refine Within.bind (within_record ρ) fun r => Within.bind (within_checkValid r) fun _ => ?_
  exact Within.bind (Within.bind Within.get fun _ => Within.pure _) fun _ =>
    Within.bind (Within.bind Within.get fun _ => Within.pure _) fun _ => Within.pure _

theorem within_readView {R : Store → Store → Prop} [Frame R] (v : ViewId) :
    Within R (readView v) := by
  refine Within.bind (within_view v) fun vw => Within.bind ?_ fun _ => ?_
  · exact Within.ite (Within.throw _) (Within.pure _)
  · refine Within.bind Within.get fun s => ?_
    split
    · exact Within.pure _
    · exact Within.pure _

/-- A change from outside sets up failures, or is about files. -/
theorem sameHandles_tune (h : .settings ∈ parts) (change : Engine → Engine)
    (hc : ∀ e, ∃ files pending failIterationAt refuseResize,
      change e = { e with files, pending, failIterationAt, refuseResize }) :
    Within (SameHandles parts) (tune change) := by
  refine Within.bind (Within.modify fun s => ⟨?_, rfl, rfl, rfl, rfl, rfl⟩) fun _ => Within.pure _
  obtain ⟨files, pending, failIterationAt, refuseResize, he⟩ := hc s.engine
  rw [he]
  exact Engine.SameCursors.of_parts rfl rfl (Nat.le_refl _) rfl (.inl h) (.inr rfl) (.inr rfl)
    (.inr rfl) (.inr rfl)

/-! ## Databases -/

theorem sameIterators_engine {α : Type} {work : Engine.Run α}
    (h : Within (Engine.SameCursors parts) work) : Within (SameIterators parts) (engine work) :=
  (sameHandles_engine h).mono fun _ _ h => h.sameIterators

theorem sameIterators_note (events : List Event) : Within (SameIterators parts) (note events) :=
  (sameHandles_note events).mono fun _ _ h => h.sameIterators

/-- Handles of databases may change in between. -/
theorem sameIterators_databases (s : Store) (t : Table DatabaseId Database) :
    SameIterators parts s { s with databases := t } :=
  ⟨Frame.refl _, fun h => ⟨h, fun _ _ hf => hf⟩, rfl, rfl, rfl⟩

theorem sameIterators_setDatabase (id : DatabaseId) (d : Database) :
    Within (SameIterators parts) (setDatabase id d) :=
  Within.modify fun s => sameIterators_databases s _

theorem sameIterators_newDatabase : Within (SameIterators parts) newDatabase :=
  Within.bind Within.get fun _ => Within.bind (sameIterators_setDatabase _ _) fun _ => Within.pure _

theorem sameIterators_checkPlace (path : PathArgument) (existing : Bool) :
    Within (SameIterators parts) (checkPlace path existing) := by
  refine Within.bind Within.get fun s => Within.guard (within_fail _) ?_
  exact Within.ite (within_fail _) (Within.pure _)

theorem sameIterators_start (hd : .databases ∈ parts) (hs : .stores ∈ parts) (id : DatabaseId)
    (path : Value) (settings : Settings) (existing : Bool) :
    Within (SameIterators parts) (start id path settings existing) := by
  have hcall : ∀ config, Within (Engine.SameCursors parts)
      ((if existing then Engine.Run.openExisting else Engine.Run.create) config) := by
    intro config
    cases existing with
    | true => exact Engine.Run.sameCursors_openExisting hd hs config
    | false => exact Engine.Run.sameCursors_create hd hs config
  refine Within.bind (within_database id) fun d => Within.guard (within_fail _) ?_
  refine Within.bind (within_ofExcept _) fun sizes => Within.bind (within_ofExcept _) fun p => ?_
  refine Within.bind Within.get fun s => Within.bind (sameIterators_checkPlace _ _) fun _ => ?_
  refine Within.bind (within_ofExcept _) fun text => ?_
  refine Within.bind (sameIterators_engine Engine.Run.sameCursors_configInit) fun block => ?_
  refine Within.bind (sameIterators_engine (hcall _)) fun result => ?_
  cases result with
  | error status =>
    exact Within.bind (sameIterators_engine (Engine.Run.sameCursors_configDeinit _)) fun _ =>
      Within.throw _
  | ok handle => exact Within.bind (sameIterators_setDatabase _ _) fun _ => sameIterators_note _

theorem sameIterators_connect (hd : .databases ∈ parts) (hs : .stores ∈ parts) (path : Value)
    (settings : Settings) (existing : Bool) :
    Within (SameIterators parts) (connect path settings existing) := by
  refine Within.bind sameIterators_newDatabase fun id => ?_
  refine Within.bind (within_outcome (sameIterators_start hd hs id path settings existing))
    fun result => ?_
  cases result with
  | ok _ => exact Within.pure _
  | error f =>
    exact Within.bind (Within.modify fun s => sameIterators_databases s _) fun _ => Within.throw _

theorem within_openDatabase {R : Store → Store → Prop} [Frame R] (id : DatabaseId) :
    Within R (openDatabase id) := by
  refine Within.bind (within_database id) fun d => ?_
  split
  · exact Within.pure _
  · exact within_fail _

theorem sameHandles_register (id : DatabaseId) : Within (SameHandles parts) (register id) :=
  Within.bind (within_openDatabase id) fun _ =>
    sameHandles_engine (Engine.Run.sameCursors_registerThread _)

theorem sameHandles_deregister (id : DatabaseId) : Within (SameHandles parts) (deregister id) :=
  Within.bind (within_openDatabase id) fun _ =>
    sameHandles_engine (Engine.Run.sameCursors_deregisterThread _)

theorem sameIterators_closeDatabase (hd : .databases ∈ parts) (id : DatabaseId) :
    Within (SameIterators parts) (closeDatabase id) := by
  refine Within.bind (within_database id) fun d =>
    Within.bind (sameIterators_setDatabase _ _) fun _ => ?_
  split
  · refine Within.bind (sameIterators_engine (Engine.Run.sameCursors_close hd _)) fun _ => ?_
    refine Within.bind (sameIterators_engine (Engine.Run.sameCursors_configDeinit _)) fun _ => ?_
    split
    · exact sameIterators_note _
    · exact Within.pure _
  · exact Within.pure _

/-! ## Making families -/

theorem sameIterators_addFamily (s : Store) (f : Family) :
    SameIterators parts s { s with families := s.families.set s.families.size f } where
  engine := Frame.refl _
  families h := by
    refine ⟨h.set_size f, fun id g hg => ?_⟩
    rw [Table.get?_set_ne _ (h.ne_size hg)]
    exact hg
  iterators := rfl
  records := rfl
  views := rfl

theorem sameIterators_createFamily (hd : .databases ∈ parts) (hf : .families ∈ parts)
    (hs : .stores ∈ parts) (hr : .records ∈ parts) (id : DatabaseId) (funcs : FuncsArgument)
    (maxKeySize : Value) : Within (SameIterators parts) (createFamily id funcs maxKeySize) := by
  refine Within.bind (within_openDatabase id) fun r => Within.bind (within_ofExcept _) fun fs => ?_
  refine Within.bind (within_ofExcept _) fun config => ?_
  refine Within.bind (sameIterators_engine (Engine.Run.sameCursors_familyCreate hd hf hs hr _ _))
    fun fam => ?_
  refine Within.bind (sameIterators_note _) fun _ => ?_
  exact Within.get_bind fun s => sameIterators_addFamily s _

end Run

/-- Whether an operation is neither about iterators, records or views nor the end of a family. -/
def Operation.keepsIterators : Operation → Bool
  | .range _ _ | .closeFamily _ | .advance _ | .next _ | .closeIterator _ | .isValid _ | .copy _
  | .viewKey _ | .viewValue _ | .readView _ | .releaseView _ | .holdView _ | .unholdView _ => false
  | _ => true

/-- The parts of the engine that may change while the iterators are the same. -/
def allParts : List Engine.Part := [.settings, .databases, .families, .stores, .records]

theorem sameIterators_of_keepsIterators {op : Operation} (h : op.keepsIterators = true) :
    Within (SameIterators allParts) op.run := by
  have hs : Engine.Part.settings ∈ allParts := by decide
  have hd : Engine.Part.databases ∈ allParts := by decide
  have hf : Engine.Part.families ∈ allParts := by decide
  have ht : Engine.Part.stores ∈ allParts := by decide
  have hr : Engine.Part.records ∈ allParts := by decide
  have htune : ∀ change, (∀ e, ∃ files pending failIterationAt refuseResize,
      change e = { e with files, pending, failIterationAt, refuseResize }) →
      Within (SameIterators allParts) (Run.tune change) := fun change hc =>
    (Run.sameHandles_tune hs change hc).mono fun _ _ h => h.sameIterators
  cases op with
  | changeFiles nodes => exact htune _ fun e => ⟨_, _, _, _, rfl⟩
  | failNext entry status => exact htune _ fun e => ⟨_, _, _, _, rfl⟩
  | failIterationAt position => exact htune _ fun e => ⟨_, _, _, _, rfl⟩
  | refuseResize on => exact htune _ fun e => ⟨_, _, _, _, rfl⟩
  | newDatabase => exact Within.map Run.sameIterators_newDatabase _
  | start id path settings existing =>
    exact Within.map (Run.sameIterators_start hd ht id path settings existing) _
  | connect path settings existing =>
    exact Within.map (Run.sameIterators_connect hd ht path settings existing) _
  | register id => exact (Within.map (Run.sameHandles_register id) _).mono fun _ _ h =>
      h.sameIterators
  | deregister id => exact (Within.map (Run.sameHandles_deregister id) _).mono fun _ _ h =>
      h.sameIterators
  | createFamily id funcs maxKeySize =>
    exact Within.map (Run.sameIterators_createFamily hd hf ht hr id funcs maxKeySize) _
  | closeDatabase id => exact Within.map (Run.sameIterators_closeDatabase hd id) _
  | point id call => exact (Run.sameHandles_point hr id call).mono fun _ _ h => h.sameIterators
  | range | closeFamily | advance | next | closeIterator | isValid | copy | viewKey | viewValue
  | readView | releaseView | holdView | unholdView => exact absurd h Bool.false_ne_true

end FamilyStore.Store
