import FamilyStore.Proofs.Engine.Exchange
import FamilyStore.Proofs.Iteration.Lifetime

/-!
Operations that leave the accounts of resources alone.

Open handles stand for what the engine has given out. Work keeps the counts when the engine gives
nothing out or takes it back, and no handle is opened or closed, but for some resources. Each
operation names the resources that it may deal with; for all others it keeps the counts.
-/

namespace FamilyStore.Store

variable {parts : List Engine.Resource}

/-- Nothing is given out or back, and no handle is opened or closed, but for some resources. -/
structure SameCounts (parts : List Engine.Resource) (s s' : Store) : Prop where
  engine : Engine.SameResources parts s.engine s'.engine
  databases : .databases ∉ parts → s'.databases = s.databases
  families : .families ∉ parts → ∀ p : Bool → Bool,
    s'.families.count (fun f => p f.isClosed) = s.families.count fun f => p f.isClosed
  iterators : .cursors ∉ parts → ∀ p : Bool → Bool,
    s'.iterators.count (fun i => p i.isClosed) = s.iterators.count fun i => p i.isClosed

instance : Frame (SameCounts parts) where
  refl _ := ⟨Frame.refl _, fun _ => rfl, fun _ _ => rfl, fun _ _ => rfl⟩
  trans h h' :=
    { engine := Frame.trans h.engine h'.engine
      databases := fun hn => (h'.databases hn).trans (h.databases hn)
      families := fun hn p => (h'.families hn p).trans (h.families hn p)
      iterators := fun hn p => (h'.iterators hn p).trans (h.iterators hn p) }

/-- Only the engine changes, and what is no handle on a resource. -/
theorem SameCounts.of_engine {s s' : Store} (he : Engine.SameResources parts s.engine s'.engine)
    (hd : s'.databases = s.databases) (hf : s'.families = s.families)
    (hi : s'.iterators = s.iterators) : SameCounts parts s s' :=
  ⟨he, fun _ => hd, fun _ _ => by rw [hf], fun _ _ => by rw [hi]⟩

namespace Run

theorem sameCounts_engine {α : Type} {work : Engine.Run α}
    (h : Within (Engine.SameResources parts) work) : Within (SameCounts parts) (engine work) :=
  within_engine (fun _ _ he => SameCounts.of_engine he rfl rfl rfl) h

theorem sameCounts_note (events : List Event) : Within (SameCounts parts) (note events) :=
  Within.modify fun _ => SameCounts.of_engine (Frame.refl _) rfl rfl rfl

theorem sameCounts_setView (id : ViewId) (v : View) : Within (SameCounts parts) (setView id v) :=
  Within.modify fun _ => SameCounts.of_engine (Frame.refl _) rfl rfl rfl

theorem sameCounts_setIterator {s : Store} {id : IteratorId} {i i' : Iterator}
    (hi : s.iterators.get? id = some i) (hc : .cursors ∈ parts ∨ i'.isClosed = i.isClosed) :
    SameCounts parts s { s with iterators := s.iterators.set id i' } := by
  refine ⟨Frame.refl _, fun _ => rfl, fun _ _ => rfl, fun hn p => ?_⟩
  have hcount := Table.count_set_of_get? (fun i => p i.isClosed) hi i'
  rw [hc.resolve_left hn] at hcount
  exact Nat.add_right_cancel hcount

/-- Work on an iterator that is there. -/
theorem sameCounts_iterator {α : Type} (id : IteratorId) {f : Iterator → Run α}
    (hf : ∀ s i, s.iterators.get? id = some i → SameCounts parts s ((f i).run s).2) :
    Within (SameCounts parts) (iterator id >>= f) := by
  intro s
  unfold iterator
  rw [run_bind, run_bind, run_get]
  dsimp only
  cases hi : s.iterators.get? id with
  | none => exact Frame.refl s
  | some i => exact hf s i hi

/-- An iterator is changed but stays as open as it is, and work goes on. -/
theorem sameCounts_changeIterator {α : Type} (id : IteratorId) (g : Iterator → Iterator)
    (hg : ∀ i, .cursors ∈ parts ∨ (g i).isClosed = i.isClosed) {f : Iterator → Run α}
    (hf : ∀ i, Within (SameCounts parts) (f i)) :
    Within (SameCounts parts) (iterator id >>= fun i => setIterator id (g i) >>= fun _ => f i) :=
  sameCounts_iterator id fun _ i hi => Frame.trans (sameCounts_setIterator hi (hg i)) (hf i _)

/-! ## Databases -/

theorem sameCounts_register (id : DatabaseId) : Within (SameCounts parts) (register id) :=
  Within.bind (within_openDatabase id) fun _ =>
    sameCounts_engine (Engine.Run.sameResources_registerThread _)

theorem sameCounts_deregister (id : DatabaseId) : Within (SameCounts parts) (deregister id) :=
  Within.bind (within_openDatabase id) fun _ =>
    sameCounts_engine (Engine.Run.sameResources_deregisterThread _)

theorem sameCounts_databases (hd : .databases ∈ parts) (s : Store) (t : Table DatabaseId Database) :
    SameCounts parts s { s with databases := t } :=
  ⟨Frame.refl _, fun hn => absurd hd hn, fun _ _ => rfl, fun _ _ => rfl⟩

theorem sameCounts_setDatabase (hd : .databases ∈ parts) (id : DatabaseId) (d : Database) :
    Within (SameCounts parts) (setDatabase id d) :=
  Within.modify fun s => sameCounts_databases hd s _

theorem sameCounts_newDatabase (hd : .databases ∈ parts) : Within (SameCounts parts) newDatabase :=
  Within.bind Within.get fun _ => Within.bind (sameCounts_setDatabase hd _ _) fun _ => Within.pure _

theorem sameCounts_checkPlace (path : PathArgument) (existing : Bool) :
    Within (SameCounts parts) (checkPlace path existing) := by
  refine Within.bind Within.get fun s => Within.guard (within_fail _) ?_
  exact Within.ite (within_fail _) (Within.pure _)

theorem sameCounts_start (hd : .databases ∈ parts) (hb : .blocks ∈ parts) (id : DatabaseId)
    (path : Value) (settings : Settings) (existing : Bool) :
    Within (SameCounts parts) (start id path settings existing) := by
  have hcall : ∀ config, Within (Engine.SameResources parts)
      ((if existing then Engine.Run.openExisting else Engine.Run.create) config) := by
    intro config
    cases existing with
    | true => exact Engine.Run.sameResources_openExisting hd config
    | false => exact Engine.Run.sameResources_create hd config
  refine Within.bind (within_database id) fun d => Within.guard (within_fail _) ?_
  refine Within.bind (within_ofExcept _) fun sizes => Within.bind (within_ofExcept _) fun p => ?_
  refine Within.bind Within.get fun s => Within.bind (sameCounts_checkPlace _ _) fun _ => ?_
  refine Within.bind (within_ofExcept _) fun text => ?_
  refine Within.bind (sameCounts_engine (Engine.Run.sameResources_configInit hb)) fun block => ?_
  refine Within.bind (sameCounts_engine (hcall _)) fun result => ?_
  cases result with
  | error status =>
    exact Within.bind (sameCounts_engine (Engine.Run.sameResources_configDeinit hb _)) fun _ =>
      Within.throw _
  | ok handle => exact Within.bind (sameCounts_setDatabase hd _ _) fun _ => sameCounts_note _

theorem sameCounts_connect (hd : .databases ∈ parts) (hb : .blocks ∈ parts) (path : Value)
    (settings : Settings) (existing : Bool) :
    Within (SameCounts parts) (connect path settings existing) := by
  refine Within.bind (sameCounts_newDatabase hd) fun id => ?_
  refine Within.bind (within_outcome (sameCounts_start hd hb id path settings existing))
    fun result => ?_
  cases result with
  | ok _ => exact Within.pure _
  | error f =>
    exact Within.bind (Within.modify fun s => sameCounts_databases hd s _) fun _ => Within.throw _

theorem sameCounts_closeDatabase (hd : .databases ∈ parts) (hb : .blocks ∈ parts)
    (id : DatabaseId) : Within (SameCounts parts) (closeDatabase id) := by
  refine Within.bind (within_database id) fun d =>
    Within.bind (sameCounts_setDatabase hd _ _) fun _ => ?_
  split
  · refine Within.bind (sameCounts_engine (Engine.Run.sameResources_close hd _)) fun _ => ?_
    refine Within.bind (sameCounts_engine (Engine.Run.sameResources_configDeinit hb _)) fun _ => ?_
    split
    · exact sameCounts_note _
    · exact Within.pure _
  · exact Within.pure _

/-! ## Families -/

theorem sameCounts_families (hf : .families ∈ parts) (s : Store) (t : Table FamilyId Family) :
    SameCounts parts s { s with families := t } :=
  ⟨Frame.refl _, fun _ => rfl, fun hn => absurd hf hn, fun _ _ => rfl⟩

theorem sameCounts_createFamily (hf : .families ∈ parts) (id : DatabaseId) (funcs : FuncsArgument)
    (maxKeySize : Value) : Within (SameCounts parts) (createFamily id funcs maxKeySize) := by
  refine Within.bind (within_openDatabase id) fun r => Within.bind (within_ofExcept _) fun fs => ?_
  refine Within.bind (within_ofExcept _) fun config => ?_
  refine Within.bind (sameCounts_engine (Engine.Run.sameResources_familyCreate hf _ _))
    fun fam => ?_
  refine Within.bind (sameCounts_note _) fun _ => ?_
  exact Within.get_bind fun s => sameCounts_families hf s _

/-- Looking a key up, between setting memory aside and giving it back, keeps all counts. -/
theorem sameCounts_lookupIn (fh : Engine.FamilyHandle) (key : Span) (address : Nat) :
    Within (SameCounts parts) (lookupIn fh key address) := by
  refine Within.bind (sameCounts_engine (Engine.Run.sameResources_lookup _ _ _)) fun status => ?_
  refine Within.bind (within_checkStatus _ _) fun _ => ?_
  refine Within.bind (sameCounts_engine (Engine.Run.sameResources_lookupFound _)) fun found => ?_
  refine Within.ite ?_ (Within.pure _)
  refine Within.bind (sameCounts_engine (Engine.Run.sameResources_lookupValue _)) fun result => ?_
  cases result with
  | ok value => exact Within.pure _
  | error status => exact Within.throw _

theorem sameCounts_lookup (hl : .lookups ∈ parts) (id : FamilyId) (key : Value) :
    Within (SameCounts parts) (lookup id key) := by
  refine Within.bind (within_openFamily id) fun r => Within.bind (within_keySpan _ _) fun k => ?_
  refine Within.bind Within.get fun s => ?_
  refine Within.bind (sameCounts_engine (Engine.Run.sameResources_lookupInit hl _ _)) fun _ => ?_
  exact within_ensuring (sameCounts_lookupIn _ _ _)
    (sameCounts_engine (Engine.Run.sameResources_lookupDeinit hl _))

/-- A call that writes keeps all counts. -/
theorem sameCounts_insert (id : FamilyId) (key value : Value) :
    Within (SameCounts parts) (insert id key value) := by
  refine Within.bind (within_openFamily id) fun r => Within.bind (within_keySpan _ _) fun k => ?_
  refine Within.bind (within_valueSpan _) fun v => ?_
  exact Within.bind (sameCounts_engine (Engine.Run.sameResources_insert _ _ _)) fun _ =>
    within_checkStatus _ _

theorem sameCounts_update (id : FamilyId) (key delta : Value) :
    Within (SameCounts parts) (update id key delta) := by
  refine Within.bind (within_openFamily id) fun r => Within.bind (within_keySpan _ _) fun k => ?_
  refine Within.bind (within_valueSpan _) fun d => ?_
  refine Within.bind (sameCounts_engine (Engine.Run.sameResources_update _ _ _)) fun r => ?_
  exact Within.bind (sameCounts_note _) fun _ => within_checkStatus _ _

theorem sameCounts_delete (id : FamilyId) (key : Value) :
    Within (SameCounts parts) (delete id key) := by
  refine Within.bind (within_openFamily id) fun r => Within.bind (within_keySpan _ _) fun k => ?_
  exact Within.bind (sameCounts_engine (Engine.Run.sameResources_delete _ _)) fun _ =>
    within_checkStatus _ _

theorem sameCounts_point (hl : .lookups ∈ parts) (id : FamilyId) (call : PointCall) :
    Within (SameCounts parts) (call.run id) := by
  cases call with
  | insert key value => exact Within.map (sameCounts_insert id key value) _
  | update key delta => exact Within.map (sameCounts_update id key delta) _
  | delete key => exact Within.map (sameCounts_delete id key) _
  | lookup key => exact Within.map (sameCounts_lookup hl id key) _
  | get key default =>
    refine Within.map (Within.bind (sameCounts_lookup hl id key) fun found => ?_) _
    cases found <;> exact Within.pure _
  | contains key =>
    refine Within.map ?_ _
    unfold contains
    split
    · exact Within.bind (sameCounts_lookup hl _ _) fun _ => Within.pure _
    · refine Within.bind (within_ofExcept _) fun size => Within.bind (within_family id) fun f => ?_
      exact Within.ite (Within.pure _)
        (Within.bind (sameCounts_lookup hl _ _) fun _ => Within.pure _)

/-! ## Views and records -/

theorem sameCounts_releaseView (v : ViewId) : Within (SameCounts parts) (releaseView v) := by
  refine Within.bind (within_view v) fun vw => Within.ite (Within.pure _) ?_
  exact Within.guard (Within.throw _) (sameCounts_setView _ _)

theorem sameCounts_holdView (v : ViewId) : Within (SameCounts parts) (holdView v) := by
  refine Within.bind (within_view v) fun vw => Within.bind ?_ fun _ => sameCounts_setView _ _
  exact Within.ite (Within.throw _) (Within.pure _)

theorem sameCounts_unholdView (v : ViewId) : Within (SameCounts parts) (unholdView v) :=
  Within.bind (within_view v) fun _ => sameCounts_setView _ _

theorem sameCounts_releaseViews (id : IteratorId) (views : List ViewId) :
    Within (SameCounts parts) (releaseViews id views) := by
  induction views with
  | nil => exact Within.pure _
  | cons v rest ih =>
    refine Within.bind (within_outcome (sameCounts_releaseView v)) fun r => ?_
    cases r with
    | error failure => exact within_fail _
    | ok _ =>
      exact sameCounts_changeIterator id (fun i => { i with views := rest }) (fun _ => .inr rfl)
        fun _ => ih

theorem sameCounts_viewPart (part : Record → Engine.Extent) (ρ : RecordId) :
    Within (SameCounts parts) (do
    let r ← record ρ
    checkValid r
    newView r.iterator (part r)) := by
  refine Within.bind (within_record ρ) fun r => Within.bind (within_checkValid r) fun _ => ?_
  refine Within.bind Within.get fun s => Within.bind (sameCounts_setView _ _) fun _ => ?_
  exact sameCounts_changeIterator r.iterator (fun i => { i with views := s.views.size :: i.views })
    (fun _ => .inr rfl) fun _ => Within.pure _

/-! ## Iterators -/

theorem sameCounts_leaveRecord (id : IteratorId) (cursor : Engine.Handle) :
    Within (SameCounts parts) (leaveRecord id cursor) := by
  refine Within.bind (within_iterator id) fun i =>
    Within.bind (sameCounts_releaseViews _ _) fun _ => ?_
  refine sameCounts_changeIterator id
    (fun i => { i with generation := i.generation + 1, positioned := false }) (fun _ => .inr rfl)
    fun _ => ?_
  exact sameCounts_engine (Engine.Run.sameResources_iteratorNext cursor)

theorem sameCounts_giveOut (id : IteratorId) (cursor : Engine.Handle) :
    Within (SameCounts parts) (giveOut id cursor) := by
  refine Within.bind (sameCounts_engine (Engine.Run.sameResources_iteratorGetCurrent cursor))
    fun x => ?_
  refine sameCounts_changeIterator id (fun i => { i with positioned := true }) (fun _ => .inr rfl)
    fun _ => ?_
  exact Within.get_bind fun s => SameCounts.of_engine (Frame.refl _) rfl rfl rfl

theorem sameCounts_endIteration (id : IteratorId) (cursor : Engine.Handle) :
    Within (SameCounts parts) (endIteration id cursor) := by
  refine Within.bind (sameCounts_engine (Engine.Run.sameResources_iteratorStatus cursor))
    fun status => ?_
  refine sameCounts_iterator id fun s i hi => ?_
  rw [run_ite]
  split
  · exact sameCounts_setIterator hi (.inr rfl)
  · exact sameCounts_setIterator hi (.inr rfl)

theorem sameCounts_advance (id : IteratorId) : Within (SameCounts parts) (advance id) := by
  have hgo : ∀ cursor, Within (SameCounts parts) (do
      if ← engine (Engine.Run.iteratorValid cursor) then
        return some (← giveOut id cursor)
      endIteration id cursor
      return none) := by
    intro cursor
    refine Within.bind (sameCounts_engine (Engine.Run.sameResources_iteratorValid cursor))
      fun valid => ?_
    refine Within.ite (Within.bind (sameCounts_giveOut id cursor) fun _ => Within.pure _) ?_
    exact Within.bind (sameCounts_endIteration id cursor) fun _ => Within.pure _
  refine Within.bind (within_iterator id) fun i => ?_
  cases i.cursor with
  | none => exact within_fail _
  | some cursor =>
    refine Within.bind (within_family _) fun f => Within.guard (within_fail _) ?_
    cases i.progress with
    | failed status => exact within_fail _
    | exhausted => exact Within.pure _
    | running => exact Within.guard (sameCounts_leaveRecord id cursor) (hgo cursor)

theorem sameCounts_next (id : IteratorId) : Within (SameCounts parts) (next id) := by
  refine Within.bind (sameCounts_advance id) fun r => ?_
  cases r with
  | some ρ => exact Within.bind (within_copyRecord ρ) fun _ => Within.pure _
  | none => exact Within.pure _

theorem sameCounts_closeIterator (hc : .cursors ∈ parts) (id : IteratorId) :
    Within (SameCounts parts) (closeIterator id) := by
  refine Within.bind (within_iterator id) fun i => ?_
  cases i.cursor with
  | none => exact Within.pure _
  | some cursor =>
    refine Within.bind (sameCounts_releaseViews _ _) fun _ => ?_
    refine sameCounts_changeIterator id (fun i => { i with
      cursor := none, generation := i.generation + 1, positioned := false }) (fun _ => .inl hc)
      fun _ => ?_
    exact sameCounts_engine (Engine.Run.sameResources_iteratorDeinit hc cursor)

theorem sameCounts_closeIterators (hc : .cursors ∈ parts) (ids : List IteratorId) :
    Within (SameCounts parts) (ids.forM closeIterator) := by
  induction ids with
  | nil => exact Within.pure _
  | cons id ids ih => exact Within.bind (sameCounts_closeIterator hc id) fun _ => ih

theorem sameCounts_closeFamily (hf : .families ∈ parts) (hc : .cursors ∈ parts) (id : FamilyId) :
    Within (SameCounts parts) (closeFamily id) := by
  refine Within.bind (within_family id) fun f => ?_
  cases f.handle with
  | none => exact Within.pure _
  | some fh =>
    refine Within.bind (sameCounts_closeIterators hc _) fun _ => ?_
    refine Within.bind (within_family id) fun g => ?_
    refine Within.bind (Within.modify fun s => sameCounts_families hf s _) fun _ => ?_
    exact Within.bind (sameCounts_engine (Engine.Run.sameResources_familyDelete hf _)) fun _ =>
      sameCounts_note _

/-- A family gets another list of iterators. -/
theorem sameCounts_setFamily {s : Store} {id : FamilyId} {f f' : Family}
    (hf : s.families.get? id = some f) (hc : .families ∈ parts ∨ f'.isClosed = f.isClosed) :
    SameCounts parts s { s with families := s.families.set id f' } := by
  refine ⟨Frame.refl _, fun _ => rfl, fun hn p => ?_, fun _ _ => rfl⟩
  have hcount := Table.count_set_of_get? (fun f => p f.isClosed) hf f'
  rw [hc.resolve_left hn] at hcount
  exact Nat.add_right_cancel hcount

theorem sameCounts_begin (hc : .cursors ∈ parts) (id : FamilyId) (fh : Engine.FamilyHandle)
    (span : Span) : Within (SameCounts parts) (begin id fh span) := by
  refine Within.bind (sameCounts_engine (Engine.Run.sameResources_iteratorInit hc fh span))
    fun result => ?_
  refine Within.bind (sameCounts_note _) fun _ => ?_
  cases result.1 with
  | error status => exact Within.throw _
  | ok cursor =>
    refine Within.bind Within.get fun s => Within.bind (Within.modify fun s => ?_) fun _ => ?_
    · exact ⟨Frame.refl _, fun _ => rfl, fun _ _ => rfl, fun hn => absurd hc hn⟩
    · intro s
      unfold family
      rw [run_bind, run_bind, run_get]
      dsimp only
      cases hf : s.families.get? id with
      | none => exact Frame.refl s
      | some f => exact sameCounts_setFamily hf (.inr rfl)

theorem sameCounts_range (hc : .cursors ∈ parts) (id : FamilyId) (start : Value) :
    Within (SameCounts parts) (range id start) := by
  intro s
  rcases openFamily_cases s id with ⟨failure, hrun⟩ | ⟨f, fh, hserves⟩
  · unfold range
    rw [run_bind, hrun]
    exact Frame.refl s
  · rw [run_range hserves]
    cases f.startSpan start with
    | error failure => exact Frame.refl s
    | ok span => exact sameCounts_begin hc id fh span s

theorem sameCounts_tune (change : Engine → Engine)
    (hc : ∀ e, ∃ files pending failIterationAt refuseResize,
      change e = { e with files, pending, failIterationAt, refuseResize }) :
    Within (SameCounts parts) (tune change) := by
  refine Within.bind (Within.modify fun s => SameCounts.of_engine ?_ rfl rfl rfl) fun _ =>
    Within.pure _
  obtain ⟨files, pending, failIterationAt, refuseResize, he⟩ := hc s.engine
  rw [he]
  exact Engine.SameResources.of_rest rfl (Nat.le_refl _) id rfl rfl rfl rfl rfl

end Run

/-- The resources that an operation may deal with. -/
def Operation.resources : Operation → List Engine.Resource
  | .newDatabase | .start _ _ _ _ | .connect _ _ _ | .closeDatabase _ => [.databases, .blocks]
  | .createFamily _ _ _ => [.families]
  | .point _ _ => [.lookups]
  | .range _ _ | .closeIterator _ => [.cursors]
  | .closeFamily _ => [.families, .cursors]
  | _ => []

/-- An operation keeps the counts of all resources but those that it deals with. -/
theorem Operation.sameCounts (op : Operation) : Within (SameCounts op.resources) op.run := by
  cases op with
  | changeFiles nodes => exact Run.sameCounts_tune _ fun e => ⟨_, _, _, _, rfl⟩
  | failNext entry status => exact Run.sameCounts_tune _ fun e => ⟨_, _, _, _, rfl⟩
  | failIterationAt position => exact Run.sameCounts_tune _ fun e => ⟨_, _, _, _, rfl⟩
  | refuseResize on => exact Run.sameCounts_tune _ fun e => ⟨_, _, _, _, rfl⟩
  | newDatabase => exact Within.map (Run.sameCounts_newDatabase (by simp [resources])) _
  | start id path settings existing =>
    have hd : .databases ∈ resources (.start id path settings existing) := by simp [resources]
    have hb : .blocks ∈ resources (.start id path settings existing) := by simp [resources]
    exact Within.map (Run.sameCounts_start hd hb id path settings existing) _
  | connect path settings existing =>
    have hd : .databases ∈ resources (.connect path settings existing) := by simp [resources]
    have hb : .blocks ∈ resources (.connect path settings existing) := by simp [resources]
    exact Within.map (Run.sameCounts_connect hd hb path settings existing) _
  | register id => exact Within.map (Run.sameCounts_register id) _
  | deregister id => exact Within.map (Run.sameCounts_deregister id) _
  | createFamily id funcs maxKeySize =>
    exact Within.map (Run.sameCounts_createFamily (by simp [resources]) id funcs maxKeySize) _
  | closeDatabase id =>
    have hd : .databases ∈ resources (.closeDatabase id) := by simp [resources]
    have hb : .blocks ∈ resources (.closeDatabase id) := by simp [resources]
    exact Within.map (Run.sameCounts_closeDatabase hd hb id) _
  | point id call => exact Run.sameCounts_point (by simp [resources]) id call
  | range id key => exact Within.map (Run.sameCounts_range (by simp [resources]) id key) _
  | closeFamily id =>
    have hf : .families ∈ resources (.closeFamily id) := by simp [resources]
    have hc : .cursors ∈ resources (.closeFamily id) := by simp [resources]
    exact Within.map (Run.sameCounts_closeFamily hf hc id) _
  | advance id => exact Within.map (Run.sameCounts_advance id) _
  | next id => exact Within.map (Run.sameCounts_next id) _
  | closeIterator id => exact Within.map (Run.sameCounts_closeIterator (by simp [resources]) id) _
  | isValid id => exact Within.map (Run.within_isValid id) _
  | copy id => exact Within.map (Run.within_copyRecord id) _
  | viewKey id => exact Within.map (Run.sameCounts_viewPart Record.key id) _
  | viewValue id => exact Within.map (Run.sameCounts_viewPart Record.value id) _
  | readView id => exact Within.map (Run.within_readView id) _
  | releaseView id => exact Within.map (Run.sameCounts_releaseView id) _
  | holdView id => exact Within.map (Run.sameCounts_holdView id) _
  | unholdView id => exact Within.map (Run.sameCounts_unholdView id) _

end FamilyStore.Store
