import FamilyStore.Proofs.Agreement
import FamilyStore.Proofs.Engine.Kindred
import FamilyStore.Proofs.Operation

/-!
What callers see of data functions.

Stores are kindred when their engines are, when their family handles have concurring data functions,
and when they differ in nothing else but the log. Every operation replies the same on kindred stores
and leaves kindred stores behind; so whole runs give the same replies.
-/

namespace FamilyStore

/-- Configurations with concurring data functions. -/
inductive DataConfig.Concur (c : DataConfig) : DataConfig → Prop
  | of {g : DataFuncs} (h : c.funcs.Concur g) : Concur c { c with funcs := g }

/-- Arguments that are the same, or that give concurring data functions. -/
inductive FuncsArgument.Concur : FuncsArgument → FuncsArgument → Prop
  | refl (a : FuncsArgument) : Concur a a
  | of {a b : FuncsArgument} {f g : DataFuncs} (ha : a.resolve = .ok f) (hb : b.resolve = .ok g)
    (h : f.Concur g) : Concur a b

namespace Store

/-- Operations that are the same but for concurring data functions of a family that they make. -/
inductive Operation.Concur : Operation → Operation → Prop
  | refl (op : Operation) : Concur op op
  | createFamily (id : DatabaseId) {a b : FuncsArgument} (h : a.Concur b) (maxKeySize : Value) :
    Concur (.createFamily id a maxKeySize) (.createFamily id b maxKeySize)

/-- Family handles with concurring data functions. -/
inductive Family.Kindred (f : Family) : Family → Prop
  | of {g : DataFuncs} (h : f.config.funcs.Concur g) :
    Kindred f { f with config := { f.config with funcs := g } }

/-- Stores whose families have concurring data functions, and that differ in nothing else but the
log. -/
inductive Kindred (s : Store) : Store → Prop
  | of {e : Engine} {families : Table FamilyId Family} {log : List Event}
    (he : s.engine.Kindred e) (h : s.families.Related Family.Kindred families) :
    Kindred s { s with engine := e, families := families, log := log }

namespace Run

variable {α β : Type}

theorem similar_engine {V : α → β → Prop} {work : Engine.Run α} {work' : Engine.Run β}
    (hw : Similar Engine.Kindred V work work') :
    Similar Kindred V (engine work) (engine work') := by
  rintro s - ⟨he, h⟩
  have hwork := hw _ _ he
  exact ⟨hwork.1, .of hwork.2 h⟩

theorem kindred_engine {work : Engine.Run α} (hw : Agrees Engine.Kindred work) :
    Agrees Kindred (engine work) :=
  (similar_engine (Similar.of_agrees hw)).agrees

/-- The log is no part of what is compared. -/
theorem similar_note (events events' : List Event) :
    Similar Kindred Eq (note events) (note events') :=
  Similar.modify fun _ _ ⟨he, h⟩ => .of he h

theorem kindred_note (events : List Event) : Agrees Kindred (note events) :=
  (similar_note events events).agrees

/-! ## Handles -/

theorem kindred_database (id : DatabaseId) : Agrees Kindred (database id) :=
  Agrees.look (fun _ _ ⟨_, _⟩ => rfl) fun _ => agrees_require _

theorem kindred_iterator (id : IteratorId) : Agrees Kindred (iterator id) :=
  Agrees.look (fun _ _ ⟨_, _⟩ => rfl) fun _ => agrees_require _

theorem kindred_record (id : RecordId) : Agrees Kindred (record id) :=
  Agrees.look (fun _ _ ⟨_, _⟩ => rfl) fun _ => agrees_require _

theorem kindred_view (id : ViewId) : Agrees Kindred (view id) :=
  Agrees.look (fun _ _ ⟨_, _⟩ => rfl) fun _ => agrees_require _

theorem kindred_setDatabase (id : DatabaseId) (d : Database) :
    Agrees Kindred (setDatabase id d) :=
  Agrees.modify fun _ _ ⟨he, h⟩ => .of he h

theorem kindred_setIterator (id : IteratorId) (i : Iterator) :
    Agrees Kindred (setIterator id i) :=
  Agrees.modify fun _ _ ⟨he, h⟩ => .of he h

theorem kindred_setView (id : ViewId) (v : View) : Agrees Kindred (setView id v) :=
  Agrees.modify fun _ _ ⟨he, h⟩ => .of he h

theorem similar_setFamily (id : FamilyId) {f f' : Family} (hf : f.Kindred f') :
    Similar Kindred Eq (setFamily id f) (setFamily id f') :=
  Similar.modify fun _ _ ⟨he, h⟩ => .of he (h.set id hf)

theorem similar_family (id : FamilyId) :
    Similar Kindred Family.Kindred (family id) (family id) := by
  refine Similar.get_bind fun s _ ⟨he, h⟩ => ?_
  dsimp only
  rcases h.get? id with ⟨hn, hn'⟩ | ⟨f, f', hf, hf', hkin⟩
  · rw [hn, hn']
    exact ⟨.error _, .of he h⟩
  · rw [hf, hf']
    exact ⟨.ok hkin, .of he h⟩

theorem similar_openFamily (id : FamilyId) :
    Similar Kindred (fun r r' => r.1.Kindred r'.1 ∧ r.2 = r'.2) (openFamily id)
      (openFamily id) := by
  refine Similar.bind (similar_family id) fun f f' hkin => ?_
  have hsame : f'.handle = f.handle ∧ f'.database = f.database := by
    obtain ⟨_⟩ := hkin
    exact ⟨rfl, rfl⟩
  rw [hsame.1, hsame.2]
  cases f.handle with
  | none => exact Similar.throw _
  | some fh =>
    refine Similar.bind_agrees (kindred_database _) fun d => ?_
    exact Similar.guard (agrees_fail _) (Similar.pure ⟨hkin, rfl⟩)

/-- What follows looks at no more of a family than its handle and its key size. -/
theorem kindred_openFamily (id : FamilyId) {rest : Family × Engine.FamilyHandle → Run α}
    (hsame : ∀ f fh g, rest ({ f with config := { f.config with funcs := g } }, fh) = rest (f, fh))
    (hrest : ∀ r, Agrees Kindred (rest r)) : Agrees Kindred (openFamily id >>= rest) := by
  refine Agrees.bind_similar (similar_openFamily id) ?_
  rintro ⟨f, fh⟩ ⟨_, _⟩ ⟨@⟨g, _⟩, rfl⟩
  exact Similar.of_eq (hsame f fh g) (hrest (f, fh))

/-! ## Calls on one key -/

theorem kindred_insert (id : FamilyId) (key value : Value) :
    Agrees Kindred (insert id key value) := by
  refine kindred_openFamily id (fun _ _ _ => rfl) fun r => ?_
  refine Agrees.bind (agrees_keySpan _ _) fun k => Agrees.bind (agrees_valueSpan _) fun v => ?_
  refine Agrees.bind (kindred_engine (Engine.Run.kindred_insert _ _ _)) fun status => ?_
  exact agrees_checkStatus _ _

theorem kindred_update (id : FamilyId) (key delta : Value) :
    Agrees Kindred (update id key delta) := by
  refine kindred_openFamily id (fun _ _ _ => rfl) fun r => ?_
  refine Agrees.bind (agrees_keySpan _ _) fun k => Agrees.bind (agrees_valueSpan _) fun v => ?_
  refine Agrees.bind (kindred_engine (Engine.Run.kindred_update _ _ _)) fun result => ?_
  exact Agrees.bind (kindred_note _) fun _ => agrees_checkStatus _ _

theorem kindred_delete (id : FamilyId) (key : Value) : Agrees Kindred (delete id key) := by
  refine kindred_openFamily id (fun _ _ _ => rfl) fun r => ?_
  refine Agrees.bind (agrees_keySpan _ _) fun k => ?_
  refine Agrees.bind (kindred_engine (Engine.Run.kindred_delete _ _)) fun status => ?_
  exact agrees_checkStatus _ _

theorem kindred_lookupIn (handle : Engine.FamilyHandle) (key : Span) (address : Nat) :
    Agrees Kindred (lookupIn handle key address) := by
  refine Agrees.bind (kindred_engine (Engine.Run.kindred_lookup _ _ _)) fun status => ?_
  refine Agrees.bind (agrees_checkStatus _ _) fun _ => ?_
  refine Agrees.bind (kindred_engine (Engine.Run.kindred_lookupFound _)) fun found => ?_
  refine Agrees.ite (Agrees.bind (kindred_engine (Engine.Run.kindred_lookupValue _)) fun r => ?_)
    (Agrees.pure _)
  cases r with
  | ok value => exact Agrees.pure _
  | error status => exact Agrees.throw _

theorem kindred_lookup (id : FamilyId) (key : Value) : Agrees Kindred (lookup id key) := by
  refine kindred_openFamily id (fun _ _ _ => rfl) fun r => ?_
  refine Agrees.bind (agrees_keySpan _ _) fun k => ?_
  refine Agrees.look (fun _ _ ⟨⟨_⟩, _⟩ => rfl) fun s => ?_
  refine Agrees.bind (kindred_engine (Engine.Run.kindred_lookupInit _ _)) fun _ => ?_
  exact agrees_ensuring (kindred_lookupIn _ _ _)
    (kindred_engine (Engine.Run.kindred_lookupDeinit _))

theorem kindred_getOr (id : FamilyId) (key default : Value) :
    Agrees Kindred (getOr id key default) := by
  refine Agrees.bind (kindred_lookup id key) fun found => ?_
  cases found with
  | some value => exact Agrees.pure _
  | none => exact Agrees.pure _

theorem kindred_contains (id : FamilyId) (key : Value) : Agrees Kindred (contains id key) := by
  have hfound : Agrees Kindred (do return (← lookup id key).isSome : Run Bool) :=
    Agrees.bind (kindred_lookup id key) fun _ => Agrees.pure _
  have hrest : Agrees Kindred (do
      let size ← ofExcept key.size
      let f ← family id
      if f.config.maxKeySize < size then return false
      return (← lookup id key).isSome : Run Bool) :=
    Agrees.bind (agrees_ofExcept _) fun size =>
      Agrees.bind_similar (similar_family id) fun f _ ⟨_⟩ =>
        Similar.of_agrees (Agrees.ite (Agrees.pure _) hfound)
  cases key with
  | null => exact hfound
  | _ => exact hrest

theorem kindred_point (id : FamilyId) (call : PointCall) : Agrees Kindred (call.run id) := by
  cases call with
  | insert key value => exact Agrees.map (kindred_insert id key value) _
  | update key delta => exact Agrees.map (kindred_update id key delta) _
  | delete key => exact Agrees.map (kindred_delete id key) _
  | lookup key => exact Agrees.map (kindred_lookup id key) _
  | get key default => exact Agrees.map (kindred_getOr id key default) _
  | contains key => exact Agrees.map (kindred_contains id key) _

/-! ## Views -/

theorem kindred_checkReadable (v : View) : Agrees Kindred (checkReadable v) :=
  Agrees.ite (Agrees.throw _) (Agrees.pure _)

theorem kindred_bytesOf (v : View) : Agrees Kindred (bytesOf v) := by
  refine Agrees.look (fun _ _ ⟨⟨_⟩, _⟩ => rfl) fun s => ?_
  cases v.extent with
  | none => exact Agrees.pure _
  | some extent => exact Agrees.pure _

theorem kindred_readView (id : ViewId) : Agrees Kindred (readView id) := by
  refine Agrees.bind (kindred_view id) fun v => ?_
  exact Agrees.bind (kindred_checkReadable v) fun _ => kindred_bytesOf v

theorem kindred_releaseView (id : ViewId) : Agrees Kindred (releaseView id) := by
  refine Agrees.bind (kindred_view id) fun v => Agrees.ite (Agrees.pure _) ?_
  exact Agrees.guard (Agrees.throw _) (kindred_setView _ _)

theorem kindred_holdView (id : ViewId) : Agrees Kindred (holdView id) := by
  refine Agrees.bind (kindred_view id) fun v => ?_
  exact Agrees.bind (kindred_checkReadable v) fun _ => kindred_setView _ _

theorem kindred_unholdView (id : ViewId) : Agrees Kindred (unholdView id) :=
  Agrees.bind (kindred_view id) fun _ => kindred_setView _ _

theorem kindred_releaseViews (id : IteratorId) (views : List ViewId) :
    Agrees Kindred (releaseViews id views) := by
  induction views with
  | nil => exact Agrees.pure _
  | cons v rest ih =>
    refine Agrees.bind (agrees_outcome (kindred_releaseView v)) fun r => ?_
    cases r with
    | error failure => exact agrees_fail _
    | ok _ =>
      refine Agrees.bind (kindred_iterator id) fun i => ?_
      exact Agrees.bind (kindred_setIterator _ _) fun _ => ih

theorem kindred_newView (id : IteratorId) (extent : Engine.Extent) :
    Agrees Kindred (newView id extent) := by
  refine Agrees.look (fun _ _ ⟨_, _⟩ => rfl) fun s => ?_
  refine Agrees.bind (kindred_setView _ _) fun _ => Agrees.bind (kindred_iterator id) fun i => ?_
  exact Agrees.bind (kindred_setIterator _ _) fun _ => Agrees.pure _

/-! ## Iterators -/

theorem kindred_begin (id : FamilyId) (fh : Engine.FamilyHandle) (span : Span) :
    Agrees Kindred (begin id fh span) := by
  refine Agrees.bind_similar (similar_engine (Engine.Run.similar_iteratorInit _ _)) ?_
  rintro ⟨r, events⟩ ⟨_, events'⟩ rfl
  refine Similar.bind (similar_note events events') fun _ _ _ => ?_
  cases r with
  | error status => exact Similar.throw _
  | ok cursor =>
    refine Similar.get_bind fun s _ ⟨he, h⟩ => ?_
    refine Similar.bind_agrees (kindred_setIterator _ _) (fun _ => ?_) s _ (.of he h)
    refine Similar.bind (similar_family id) fun f _ ⟨hconcur⟩ => ?_
    exact Similar.bind (similar_setFamily id (.of hconcur)) fun _ _ _ => Similar.pure rfl

theorem kindred_range (id : FamilyId) (start : Value) : Agrees Kindred (range id start) := by
  cases start with
  | null => exact kindred_openFamily id (fun _ _ _ => rfl) fun r => kindred_begin id r.2 _
  | _ =>
    refine kindred_openFamily id (fun _ _ _ => rfl) fun r => ?_
    exact Agrees.bind (agrees_keySpan _ _) fun span => kindred_begin id r.2 span

theorem kindred_leaveRecord (id : IteratorId) (cursor : Engine.Handle) :
    Agrees Kindred (leaveRecord id cursor) := by
  refine Agrees.bind (kindred_iterator id) fun i => ?_
  refine Agrees.bind (kindred_releaseViews id _) fun _ => ?_
  refine Agrees.bind (kindred_iterator id) fun i => ?_
  refine Agrees.bind (kindred_setIterator _ _) fun _ => ?_
  exact kindred_engine (Engine.Run.kindred_iteratorNext _)

theorem kindred_endIteration (id : IteratorId) (cursor : Engine.Handle) :
    Agrees Kindred (endIteration id cursor) := by
  refine Agrees.bind (kindred_engine (Engine.Run.kindred_iteratorStatus _)) fun status => ?_
  refine Agrees.bind (kindred_iterator id) fun i => ?_
  exact Agrees.ite
    (Agrees.bind (kindred_setIterator _ _) fun _ => Agrees.bind (Agrees.throw _) fun _ =>
      kindred_setIterator _ _)
    (kindred_setIterator _ _)

theorem kindred_giveOut (id : IteratorId) (cursor : Engine.Handle) :
    Agrees Kindred (giveOut id cursor) := by
  refine Agrees.bind (kindred_engine (Engine.Run.kindred_iteratorGetCurrent _)) fun r => ?_
  refine Agrees.bind (kindred_iterator id) fun i => ?_
  refine Agrees.bind (kindred_setIterator _ _) fun _ => ?_
  exact Agrees.get_bind fun _ _ ⟨he, h⟩ => ⟨rfl, .of he h⟩

theorem kindred_advance (id : IteratorId) : Agrees Kindred (advance id) := by
  refine Agrees.bind (kindred_iterator id) fun i => ?_
  cases i.cursor with
  | none => exact agrees_fail _
  | some cursor =>
    refine Agrees.bind_similar (similar_family _) fun f _ ⟨_⟩ => Similar.of_agrees ?_
    refine Agrees.guard (agrees_fail _) ?_
    cases i.progress with
    | failed status => exact agrees_fail _
    | exhausted => exact Agrees.pure _
    | running =>
      refine Agrees.guard (kindred_leaveRecord _ _) ?_
      refine Agrees.bind (kindred_engine (Engine.Run.kindred_iteratorValid _)) fun valid => ?_
      refine Agrees.ite (Agrees.bind (kindred_giveOut _ _) fun _ => Agrees.pure _) ?_
      exact Agrees.bind (kindred_endIteration _ _) fun _ => Agrees.pure _

theorem kindred_closeIterator (id : IteratorId) : Agrees Kindred (closeIterator id) := by
  refine Agrees.bind (kindred_iterator id) fun i => ?_
  cases i.cursor with
  | none => exact Agrees.pure _
  | some cursor =>
    refine Agrees.bind (kindred_releaseViews id _) fun _ => ?_
    refine Agrees.bind (kindred_iterator id) fun i => ?_
    refine Agrees.bind (kindred_setIterator _ _) fun _ => ?_
    exact kindred_engine (Engine.Run.kindred_iteratorDeinit _)

theorem kindred_isValid (r : Record) : Agrees Kindred (isValid r) :=
  Agrees.bind (kindred_iterator _) fun _ => Agrees.pure _

theorem kindred_checkValid (r : Record) : Agrees Kindred (checkValid r) :=
  Agrees.bind (kindred_isValid r) fun _ => Agrees.ite (agrees_fail _) (Agrees.pure _)

theorem kindred_copyExtent (x : Engine.Extent) : Agrees Kindred (copyExtent x) :=
  Agrees.look (fun _ _ ⟨⟨_⟩, _⟩ => rfl) fun _ => Agrees.pure _

theorem kindred_copyRecord (id : RecordId) : Agrees Kindred (copyRecord id) := by
  refine Agrees.bind (kindred_record id) fun r => Agrees.bind (kindred_checkValid r) fun _ => ?_
  refine Agrees.bind (kindred_copyExtent _) fun key => ?_
  exact Agrees.bind (kindred_copyExtent _) fun value => Agrees.pure _

theorem kindred_viewKey (id : RecordId) : Agrees Kindred (viewKey id) := by
  refine Agrees.bind (kindred_record id) fun r => Agrees.bind (kindred_checkValid r) fun _ => ?_
  exact kindred_newView _ _

theorem kindred_viewValue (id : RecordId) : Agrees Kindred (viewValue id) := by
  refine Agrees.bind (kindred_record id) fun r => Agrees.bind (kindred_checkValid r) fun _ => ?_
  exact kindred_newView _ _

theorem kindred_next (id : IteratorId) : Agrees Kindred (next id) := by
  refine Agrees.bind (kindred_advance id) fun record? => ?_
  cases record? with
  | none => exact Agrees.pure _
  | some r => exact Agrees.bind (kindred_copyRecord r) fun _ => Agrees.pure _

theorem kindred_closeFamily (id : FamilyId) : Agrees Kindred (closeFamily id) := by
  refine Agrees.bind_similar (similar_family id) fun f f' hkin => ?_
  have hsame : f'.handle = f.handle ∧ f'.iterators = f.iterators := by
    obtain ⟨_⟩ := hkin
    exact ⟨rfl, rfl⟩
  rw [hsame.1, hsame.2]
  cases f.handle with
  | none => exact Similar.pure rfl
  | some fh =>
    refine Similar.bind_agrees (agrees_forM kindred_closeIterator) fun _ => ?_
    refine Similar.bind (similar_family id) fun g _ ⟨hconcur⟩ => ?_
    refine Similar.bind (similar_setFamily id (.of hconcur)) fun _ _ _ => ?_
    refine Similar.bind_agrees (kindred_engine (Engine.Run.kindred_familyDelete _)) fun _ => ?_
    exact similar_note _ _

/-! ## Databases -/

theorem kindred_newDatabase : Agrees Kindred newDatabase :=
  Agrees.look (fun _ _ ⟨_, _⟩ => rfl) fun _ =>
    Agrees.bind (kindred_setDatabase _ _) fun _ => Agrees.pure _

theorem kindred_checkPlace (path : PathArgument) (existing : Bool) :
    Agrees Kindred (checkPlace path existing) := by
  refine Agrees.look (fun _ _ ⟨⟨_⟩, _⟩ => rfl) fun s => ?_
  exact Agrees.guard (agrees_fail _) (Agrees.ite (agrees_fail _) (Agrees.pure _))

theorem kindred_start (id : DatabaseId) (path : Value) (settings : Settings) (existing : Bool) :
    Agrees Kindred (start id path settings existing) := by
  refine Agrees.bind (kindred_database id) fun d => Agrees.guard (agrees_fail _) ?_
  refine Agrees.bind (agrees_ofExcept _) fun sizes => Agrees.bind (agrees_ofExcept _) fun p => ?_
  refine Agrees.look (fun _ _ ⟨⟨_⟩, _⟩ => rfl) fun s => ?_
  refine Agrees.bind (kindred_checkPlace _ _) fun _ => ?_
  refine Agrees.bind (agrees_ofExcept _) fun text => ?_
  refine Agrees.bind (kindred_engine Engine.Run.kindred_configInit) fun block => ?_
  have hcall : ∀ config, Agrees Engine.Kindred
      ((if existing then Engine.Run.openExisting else Engine.Run.create) config) := fun config => by
    split
    · exact Engine.Run.kindred_openExisting config
    · exact Engine.Run.kindred_create config
  refine Agrees.bind (kindred_engine (hcall _)) fun result => ?_
  cases result with
  | error status =>
    refine Agrees.bind (kindred_engine (Engine.Run.kindred_configDeinit _)) fun _ => ?_
    exact Agrees.throw _
  | ok handle => exact Agrees.bind (kindred_setDatabase _ _) fun _ => kindred_note _

theorem kindred_connect (path : Value) (settings : Settings) (existing : Bool) :
    Agrees Kindred (connect path settings existing) := by
  refine Agrees.bind kindred_newDatabase fun id => ?_
  refine Agrees.bind (agrees_outcome (kindred_start _ _ _ _)) fun r => ?_
  cases r with
  | ok _ => exact Agrees.pure _
  | error failure =>
    exact Agrees.bind (Agrees.modify fun _ _ ⟨he, h⟩ => .of he h) fun _ => Agrees.throw _

theorem kindred_openDatabase (id : DatabaseId) : Agrees Kindred (openDatabase id) := by
  refine Agrees.bind (kindred_database id) fun d => ?_
  split
  · exact Agrees.pure _
  · exact agrees_fail _

theorem kindred_register (id : DatabaseId) : Agrees Kindred (register id) :=
  Agrees.bind (kindred_openDatabase id) fun _ =>
    kindred_engine (Engine.Run.kindred_registerThread _)

theorem kindred_deregister (id : DatabaseId) : Agrees Kindred (deregister id) :=
  Agrees.bind (kindred_openDatabase id) fun _ =>
    kindred_engine (Engine.Run.kindred_deregisterThread _)

theorem kindred_closeDatabase (id : DatabaseId) : Agrees Kindred (closeDatabase id) := by
  refine Agrees.bind (kindred_database id) fun d => ?_
  refine Agrees.bind (kindred_setDatabase _ _) fun _ => ?_
  cases d.phase with
  | opened handle block =>
    refine Agrees.bind (kindred_engine (Engine.Run.kindred_close _)) fun _ => ?_
    refine Agrees.bind (kindred_engine (Engine.Run.kindred_configDeinit _)) fun _ => ?_
    cases d.site with
    | none => exact Agrees.pure _
    | some site => exact kindred_note _
  | fresh | closed => exact Agrees.pure _

/-! ## Making families -/

/-- What resolving gives concurs, or is refused alike. -/
theorem similar_resolve {a b : FuncsArgument} (h : a.Concur b) :
    Similar Kindred DataFuncs.Concur (ofExcept a.resolve) (ofExcept b.resolve) := by
  cases h with
  | refl =>
    cases a.resolve with
    | ok f => exact Similar.pure (.refl f)
    | error failure => exact Similar.throw failure
  | of ha hb h =>
    rw [ha, hb]
    exact Similar.pure h

/-- Checking a key size does not look at the data functions. -/
theorem similar_make {f g : DataFuncs} (h : f.Concur g) (size limit : Value) :
    Similar Kindred DataConfig.Concur (ofExcept (DataConfig.make f size limit))
      (ofExcept (DataConfig.make g size limit)) := by
  unfold DataConfig.make
  cases size.size? with
  | none => exact Similar.throw _
  | some n =>
    dsimp only
    cases DataConfig.exceeds n.1 limit with
    | error failure => exact Similar.throw failure
    | ok above =>
      cases above with
      | true => exact Similar.throw _
      | false => exact Similar.pure (.of h)

theorem similar_createFamily (id : DatabaseId) {a b : FuncsArgument} (h : a.Concur b)
    (maxKeySize : Value) :
    Similar Kindred Eq (createFamily id a maxKeySize) (createFamily id b maxKeySize) := by
  refine Similar.bind_agrees (kindred_openDatabase id) fun site => ?_
  refine Similar.bind (similar_resolve h) fun _ _ hconcur => ?_
  refine Similar.bind (similar_make hconcur _ _) fun c _ hc => ?_
  obtain @⟨g, hfuncs⟩ := hc
  refine Similar.bind (similar_engine (Engine.Run.similar_familyCreate _ c.record hfuncs _)) ?_
  rintro fh - rfl
  refine Similar.bind (similar_note _ _) fun _ _ _ => ?_
  refine Similar.get_bind fun s _ ⟨he, hrel⟩ => ?_
  dsimp only
  rw [hrel.size]
  have hset : Similar Kindred Eq (setFamily s.families.size ⟨id, c, some fh, [], 0⟩)
      (setFamily s.families.size ⟨id, { c with funcs := g }, some fh, [], 0⟩) :=
    similar_setFamily _ (.of hfuncs)
  exact Similar.bind hset (fun _ _ _ => Similar.pure rfl) s _ (.of he hrel)

end Run

/-! ## Operations and runs -/

theorem Run.kindred_tune {change : Engine → Engine}
    (h : ∀ e e' : Engine, e.Kindred e' → (change e).Kindred (change e')) :
    Agrees Kindred (tune change) :=
  Agrees.bind (Agrees.modify fun _ _ ⟨he, hrel⟩ => .of (h _ _ he) hrel) fun _ => Agrees.pure _

/-- Concurring operations reply the same in kindred stores. -/
theorem Operation.Concur.similar {op op' : Operation} (h : op.Concur op') :
    Similar Kindred Eq op.run op'.run := by
  cases h with
  | createFamily id h maxKeySize =>
    refine Similar.bind (Run.similar_createFamily id h maxKeySize) ?_
    rintro familyId - rfl
    exact Similar.pure rfl
  | refl =>
    refine Similar.of_agrees ?_
    cases op with
    | changeFiles | failNext | failIterationAt | refuseResize =>
      exact Run.kindred_tune fun _ _ ⟨h⟩ => .of h
    | newDatabase => exact Agrees.map Run.kindred_newDatabase _
    | start id path settings existing => exact Agrees.map (Run.kindred_start id path settings _) _
    | connect path settings existing => exact Agrees.map (Run.kindred_connect path settings _) _
    | register id => exact Agrees.map (Run.kindred_register id) _
    | deregister id => exact Agrees.map (Run.kindred_deregister id) _
    | createFamily id funcs maxKeySize =>
      exact Agrees.map (Run.similar_createFamily id (.refl funcs) maxKeySize).agrees _
    | closeDatabase id => exact Agrees.map (Run.kindred_closeDatabase id) _
    | point id call => exact Run.kindred_point id call
    | range id key => exact Agrees.map (Run.kindred_range id key) _
    | closeFamily id => exact Agrees.map (Run.kindred_closeFamily id) _
    | advance id => exact Agrees.map (Run.kindred_advance id) _
    | next id => exact Agrees.map (Run.kindred_next id) _
    | closeIterator id => exact Agrees.map (Run.kindred_closeIterator id) _
    | isValid id =>
      exact Agrees.map (Agrees.bind (Run.kindred_record id) fun r => Run.kindred_isValid r) _
    | copy id => exact Agrees.map (Run.kindred_copyRecord id) _
    | viewKey id => exact Agrees.map (Run.kindred_viewKey id) _
    | viewValue id => exact Agrees.map (Run.kindred_viewValue id) _
    | readView id => exact Agrees.map (Run.kindred_readView id) _
    | releaseView id => exact Agrees.map (Run.kindred_releaseView id) _
    | holdView id => exact Agrees.map (Run.kindred_holdView id) _
    | unholdView id => exact Agrees.map (Run.kindred_unholdView id) _

/-- One operation of two runs: the replies are the same, and the stores stay kindred. -/
theorem Kindred.perform {s s' : Store} (h : s.Kindred s') {op op' : Operation}
    (hop : op.Concur op') : (s'.perform op').1 = (s.perform op).1 ∧
      (s.perform op).2.Kindred (s'.perform op').2 := by
  obtain ⟨hreply, hstores⟩ := hop.similar s s' h
  exact ⟨hreply.eq.symm, hstores⟩

/-- Runs of concurring operations from kindred stores have the same replies. -/
theorem Kindred.trace {s s' : Store} (h : s.Kindred s') {ops ops' : List Operation}
    (hops : List.Forall₂ Operation.Concur ops ops') :
    (s'.trace ops').map Transition.reply = (s.trace ops).map Transition.reply ∧
      (s.after ops).Kindred (s'.after ops') := by
  induction hops generalizing s s' with
  | nil => exact ⟨rfl, h⟩
  | @cons op op' ops ops' hop hops ih =>
    obtain ⟨hreply, hstores⟩ := h.perform hop
    obtain ⟨hreplies, hafter⟩ := ih hstores
    refine ⟨?_, hafter⟩
    rw [Store.trace, Store.trace, List.map_cons, List.map_cons, hreplies]
    exact congrArg (· :: _) hreply

end Store

end FamilyStore
