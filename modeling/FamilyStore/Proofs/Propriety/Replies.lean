import FamilyStore.Proofs.ClosingFamilies
import FamilyStore.Proofs.Failing
import FamilyStore.Proofs.Iteration.Breaking
import FamilyStore.Proofs.Reopening.Upkeep

/-!
No operation misuses the engine.

The engine refuses a handle that it does not have, a family or a database that is of no use any
more, memory that is set aside twice, and a cursor that is read behind its last record. In a store
that operations lead to, an operation on a handle that the caller has is never refused for such a
reason, whatever state the handle is in and whatever failures are set up.
-/

namespace FamilyStore

/-- A result is no misuse of the engine. -/
def Proper {α : Type} (r : Except Failure α) : Prop := ∀ m, r ≠ .error (.misuse m)

namespace Proper

variable {α β : Type} {r : Except Failure α}

theorem ok (a : α) : Proper (.ok a) := fun _ h => nomatch h

theorem error {failure : Failure} (h : ∀ m, failure ≠ .misuse m) :
    Proper (.error failure : Except Failure α) := fun m heq => h m (Except.error.inj heq)

theorem map (hr : Proper r) (f : α → β) : Proper (r.map f) := by
  cases r with
  | error failure => exact fun m heq => hr m (congrArg Except.error (Except.error.inj heq))
  | ok a => exact .ok _

end Proper

theorem Failure.ne_misuse_of_isPlain {failure : Failure} (h : failure.isPlain = true)
    (m : Engine.Misuse) : failure ≠ .misuse m := by
  rintro rfl
  exact absurd h Bool.false_ne_true

theorem Plain.proper {α : Type} {r : Except Failure α} (h : Plain r) : Proper r :=
  fun m heq => Failure.ne_misuse_of_isPlain (h _ heq) m rfl

/-! ## Work -/

/-- Work that is begun in a state does not misuse the engine. -/
def Careful {σ α : Type} (x : ExceptT Failure (StateM σ) α) (s : σ) : Prop := Proper (x.run s).1

namespace Careful

variable {σ α β : Type} {x : ExceptT Failure (StateM σ) α} {f : α → ExceptT Failure (StateM σ) β}
  {s t : σ}

theorem of_run {r : Except Failure α} (h : x.run s = (r, t)) (hr : Proper r) : Careful x s := by
  unfold Careful
  rw [h]
  exact hr

theorem pure (a : α) : Careful (pure a : ExceptT Failure (StateM σ) α) s := .ok a

/-- What comes next has to be careful where the work before it leads. -/
theorem bind (hx : Careful x s) (hf : ∀ a t, x.run s = (.ok a, t) → Careful (f a) t) :
    Careful (x >>= f) s := by
  unfold Careful at hx ⊢
  rw [run_bind]
  cases h : x.run s with
  | mk r t =>
    cases r with
    | ok a => exact hf a t h
    | error failure =>
      rw [h] at hx
      exact fun m heq => hx m (congrArg Except.error (Except.error.inj heq))

/-- Nothing comes after work that fails. -/
theorem stop (hx : Careful x s) {failure : Failure} (h : x.run s = (.error failure, t)) :
    Careful (x >>= f) s :=
  hx.bind fun _ _ hok => absurd (h.symm.trans hok) error_ne_ok

theorem bind_ok {a : α} (h : x.run s = (.ok a, t)) (hf : Careful (f a) t) :
    Careful (x >>= f) s := by
  unfold Careful
  rw [run_bind, h]
  exact hf

/-- Work that only gives a result. -/
theorem bind_result {r : Except Failure α} (h : x.run s = (r, s)) (hr : Plain r)
    (hf : ∀ a, r = .ok a → Careful (f a) s) : Careful (x >>= f) s := by
  cases r with
  | error failure => exact (of_run h hr.proper).stop h
  | ok a => exact .bind_ok h (hf a rfl)

theorem map (hx : Careful x s) (g : α → β) : Careful (g <$> x) s := by
  unfold Careful
  rw [run_map]
  exact Proper.map hx g

theorem ite {c : Prop} [Decidable c] {y : ExceptT Failure (StateM σ) α} (hx : Careful x s)
    (hy : Careful y s) : Careful (if c then x else y) s := by
  split
  · exact hx
  · exact hy

end Careful

namespace Engine

/-- The engine answers a request with a database, a status or a failure of the file system. -/
theorem proper_answer (e : Engine) (existing : Bool) (path : String) :
    Proper (e.answer existing path) := by
  unfold answer verdict
  dsimp only
  split
  · exact .ok _
  · split
    · split
      · split
        · exact .error (by simp)
        · split
          · exact .ok _
          · exact .ok _
      · exact .ok _
    · split
      · exact .error (by simp)
      · exact .ok _

end Engine

namespace Store

variable {s : Store} {α β : Type}

namespace Run

theorem careful_engine {work : Engine.Run α} (h : Careful work s.engine) :
    Careful (engine work) s := h

theorem careful_fail (fault : StoreFault) : Careful (fail fault : Run α) s :=
  Proper.error fun _ => by simp

theorem careful_throw {failure : Failure} (h : failure.isPlain = true) :
    Careful (throw failure : Run α) s :=
  Proper.error (Failure.ne_misuse_of_isPlain h)

theorem careful_checkStatus (task : EngineTask) (status : Status) :
    Careful (checkStatus task status) s :=
  .ite (.pure _) (careful_throw (isPlain_statusFailure task status))

/-! ## Databases -/

section

variable {b : DatabaseId} {d : Database}

theorem careful_start (hd : s.databases.get? b = some d) (path : Value) (settings : Settings)
    (existing : Bool) : Careful (start b path settings existing) s := by
  by_cases hp : d.phase = .fresh
  · have haim := plain_aim s.engine.files path settings existing
    have hanswer := s.engine.proper_answer existing
    unfold Careful
    rw [run_start hd hp]
    cases ha : aim s.engine.files path settings existing with
    | error failure => exact .error (Failure.ne_misuse_of_isPlain (haim failure ha))
    | ok target =>
      dsimp only
      rw [run_ask]
      cases hans : s.engine.answer existing (Files.upToZero target.1) with
      | error failure =>
        exact .error fun m hm => hanswer _ m (hans.trans (congrArg Except.error hm))
      | ok result =>
        cases result with
        | error status => exact careful_throw (s := s) (isPlain_statusFailure _ status)
        | ok files => exact .ok _
  · unfold start
    refine .bind_ok (run_database hd) ?_
    rw [if_pos hp]
    exact (careful_fail _).stop rfl

theorem careful_connect (path : Value) (settings : Settings) (existing : Bool) :
    Careful (connect path settings existing) s := by
  have hstart : Careful (start s.databases.size path settings existing) s.withFresh :=
    careful_start (Table.get?_set_self _ _ _) path settings existing
  unfold Careful at hstart ⊢
  rw [connect_eq]
  generalize (start s.databases.size path settings existing).run s.withFresh = answer at hstart
  obtain ⟨r, t⟩ := answer
  cases r with
  | ok _ => exact .ok _
  | error failure => exact .error fun m hm => hstart m (congrArg Except.error hm)

theorem careful_openDatabase (hd : s.databases.get? b = some d) : Careful (openDatabase b) s := by
  unfold openDatabase
  refine .bind_ok (run_database hd) ?_
  split
  · exact .pure _
  · exact careful_fail _

theorem careful_register (hd : s.databases.get? b = some d) : Careful (register b) s :=
  (careful_openDatabase hd).bind fun _ _ _ => Careful.of_run rfl (.ok ())

theorem careful_deregister (hd : s.databases.get? b = some d) : Careful (deregister b) s :=
  (careful_openDatabase hd).bind fun _ _ _ => Careful.of_run rfl (.ok ())

/-- The database of an open handle is there, with stores for its families. -/
theorem careful_createFamily (hf : Founded s) (hst : s.engine.Stocked)
    (hd : s.databases.get? b = some d) (funcs : FuncsArgument) (maxKeySize : Value) :
    Careful (createFamily b funcs maxKeySize) s := by
  unfold createFamily
  rcases openDatabase_cases s b with ⟨failure, hrun⟩ | ⟨d', h, k, sizes, hd', hp, hrun⟩
  · exact (careful_openDatabase hd).stop hrun
  · obtain ⟨c, hc, -⟩ := hf.opened hd' hp
    refine .bind_ok hrun (.bind_result (run_ofExcept _ s) funcs.plain_resolve fun fs _ => ?_)
    refine .bind_result (run_ofExcept _ s) (DataConfig.plain_make _ _ _) fun config _ => ?_
    obtain ⟨σ, e', hcall, -⟩ := Engine.Run.run_familyCreate hf.housed hst hc config.record
    have hengine : (engine (Engine.Run.familyCreate h config.record)).run s =
        (.ok (h, c.nextFamily), { s with engine := e' }) := by
      rw [run_engine, hcall]
    exact .bind_ok hengine (Careful.of_run rfl (.ok _))

theorem careful_closeDatabase (hf : Founded s) {lost : Nat} (hk : BlocksBalanced s lost)
    (hd : s.databases.get? b = some d) : Careful (closeDatabase b) s := by
  cases hp : d.phase with
  | opened h k =>
    obtain ⟨c, hc, ho⟩ := hf.opened hd hp
    obtain ⟨log, hrun⟩ := run_closeDatabase hd hp hc ho (hk.holds hd hp)
    exact .of_run hrun (.ok ())
  | fresh | closed => exact .of_run (run_closeDatabase_of_ne hd (by simp [hp])) (.ok ())

end

/-! ## Calls on families -/

section

variable {id : FamilyId} {f : Family}

theorem careful_openFamily (hf : Founded s) (hget : s.families.get? id = some f) :
    Careful (openFamily id) s := by
  unfold openFamily
  refine .bind_ok (run_storeFamily hget) ?_
  cases hh : f.handle with
  | none => exact careful_fail _
  | some fh =>
    obtain ⟨-, d, hd, -⟩ := hf.stands hget hh
    refine .bind_ok (run_database hd) ?_
    split
    · exact (careful_fail _).stop rfl
    · exact .pure _

/-- A call that gets as far as the engine finds its family in use there. -/
theorem careful_keyed (hf : Founded s) (hget : s.families.get? id = some f) (key : Value)
    (rest : Family × Engine.FamilyHandle → Span → Run α)
    (h : ∀ fh fam span, Engine.Run.Serves s.engine fh fam → Careful (rest (f, fh) span) s) :
    Careful (openFamily id >>= fun r => keySpan r.1 key >>= rest r) s := by
  rcases openFamily_cases s id with ⟨failure, hrun⟩ | ⟨g, fh, hserves⟩
  · exact (careful_openFamily hf hget).stop hrun
  · obtain rfl := Option.some.inj (hget.symm.trans hserves.1)
    obtain ⟨fam, hfam, -, -⟩ := hf.exists_inUse hserves
    refine .bind_ok (run_openFamily hserves) ?_
    exact .bind_result (run_keySpan f key s) (f.plain_span key) fun span _ => h fh fam span hfam

theorem careful_valued (value : Value) (rest : Span → Run α) (h : ∀ span, Careful (rest span) s) :
    Careful (valueSpan value >>= rest) s :=
  .bind_result (run_valueSpan value s) ((Slice.plain_ofValue value).map _) fun span _ => h span

theorem careful_insert (hf : Founded s) (hget : s.families.get? id = some f) (key value : Value) :
    Careful (insert id key value) s := by
  refine careful_keyed hf hget key _ fun fh fam k hfam => careful_valued value _ fun v => ?_
  obtain ⟨r, e', hrun, -⟩ := Engine.Run.run_insert hfam k v
  exact (careful_engine (.of_run hrun (.ok r))).bind fun _ _ _ => careful_checkStatus _ _

theorem careful_delete (hf : Founded s) (hget : s.families.get? id = some f) (key : Value) :
    Careful (delete id key) s := by
  refine careful_keyed hf hget key _ fun fh fam k hfam => ?_
  obtain ⟨r, e', hrun, -⟩ := Engine.Run.run_delete hfam k
  exact (careful_engine (.of_run hrun (.ok r))).bind fun _ _ _ => careful_checkStatus _ _

theorem careful_update (hf : Founded s) (hget : s.families.get? id = some f) (key delta : Value) :
    Careful (update id key delta) s := by
  refine careful_keyed hf hget key _ fun fh fam k hfam => careful_valued delta _ fun v => ?_
  obtain ⟨r, e', hrun, -⟩ := Engine.Run.run_update hfam k v rfl
  refine (careful_engine (.of_run hrun (.ok r))).bind fun _ t _ => ?_
  exact .bind_ok (run_note _ t) (careful_checkStatus _ _)

/-- Giving memory back hides no misuse: it fails, if it does, with another one. -/
theorem misuse_of_ensuring {work : Run α} {m : Engine.Misuse}
    (hm : (work.run s).1 = .error (.misuse m)) (address : Nat) :
    ∃ m', ((ensuring work (engine (Engine.Run.lookupDeinit address))).run s).1 =
      .error (.misuse m') := by
  unfold ensuring
  rw [run_bind, run_outcome]
  dsimp only
  rw [run_bind, run_engine]
  cases hfound : (work.run s).2.engine.lookups.get? address with
  | none =>
    refine ⟨.unknownHandle, ?_⟩
    unfold Engine.Run.lookupDeinit
    rw [run_bind, Engine.Run.run_note]
    dsimp only
    rw [run_bind, run_get]
    dsimp only
    rw [hfound]
    rfl
  | some found =>
    rw [Engine.Run.run_lookupDeinit hfound, hm]
    exact ⟨m, rfl⟩

/-- A lookup goes on in memory that it has set aside itself, and gives it back. -/
theorem careful_seek {fh : Engine.FamilyHandle} {fam : Engine.Family}
    (hfam : Engine.Run.Serves s.engine fh fam) (span : Span) : Careful (seek fh span) s := by
  by_cases hp : Engine.Run.pendingStatus s.engine .lookup = Status.success
  · obtain ⟨calls, hrun⟩ := run_lookupIn_of_success hfam span
      (⟨.lookupInit, .lookup s.engine.freeLookup⟩ :: s.engine.calls) hp
    cases hfound : (s.engine.recordsOf fam.store).get? span.read with
    | none =>
      rw [hfound] at hrun
      exact .of_run (run_seek_of hfam hrun) (.ok none)
    | some value =>
      rw [hfound] at hrun
      refine .of_run (run_seek_of hfam hrun) ?_
      split
      · exact .ok _
      · exact careful_throw (s := s) (isPlain_statusFailure _ _)
  · obtain ⟨calls, hrun⟩ := run_lookupIn_of_pending hfam span
      (⟨.lookupInit, .lookup s.engine.freeLookup⟩ :: s.engine.calls) hp
    exact .of_run (run_seek_of hfam hrun) (careful_throw (s := s) (isPlain_statusFailure _ _))

theorem careful_lookup (hf : Founded s) (hget : s.families.get? id = some f) (key : Value) :
    Careful (lookup id key) s :=
  careful_keyed hf hget key (fun r span => seek r.2 span) fun _ _ span hfam =>
    careful_seek hfam span

theorem careful_getOr (hf : Founded s) (hget : s.families.get? id = some f) (key default : Value) :
    Careful (getOr id key default) s := by
  refine (careful_lookup hf hget key).bind fun found t _ => ?_
  cases found with
  | none => exact .pure _
  | some value => exact .pure _

theorem careful_contains (hf : Founded s) (hget : s.families.get? id = some f) (key : Value) :
    Careful (contains id key) s := by
  have hfound : Careful (do return (← lookup id key).isSome : Run Bool) s :=
    (careful_lookup hf hget key).bind fun _ _ _ => .pure _
  have hrest : Careful (do
      let size ← ofExcept key.size
      let f ← family id
      if f.config.maxKeySize < size then return false
      return (← lookup id key).isSome : Run Bool) s := by
    refine .bind_result (run_ofExcept _ s) key.plain_size fun size _ => ?_
    exact .bind_ok (run_storeFamily hget) (.ite (.pure _) hfound)
  cases key with
  | null => exact hfound
  | _ => exact hrest

theorem careful_point (hf : Founded s) (hget : s.families.get? id = some f) (call : PointCall) :
    Careful (call.run id) s := by
  cases call with
  | insert key value => exact (careful_insert hf hget key value).map _
  | update key delta => exact (careful_update hf hget key delta).map _
  | delete key => exact (careful_delete hf hget key).map _
  | lookup key => exact (careful_lookup hf hget key).map _
  | get key default => exact (careful_getOr hf hget key default).map _
  | contains key => exact (careful_contains hf hget key).map _

theorem careful_begin {fh : Engine.FamilyHandle} (hserves : Serves s id f fh) (hf : Founded s)
    (span : Span) : Careful (begin id fh span) s := by
  obtain ⟨fam, hfam, -, -⟩ := hf.exists_inUse hserves
  have hinit := Engine.Run.run_iteratorInit_of_serves hfam span
  by_cases hp : Engine.Run.pendingStatus s.engine .iteratorInit = Status.success
  · rw [if_pos hp] at hinit
    exact .of_run (run_begin hserves hinit) (.ok _)
  · rw [if_neg hp] at hinit
    unfold begin
    refine (careful_engine (.of_run hinit (.ok _))).bind fun result t hrun => ?_
    rw [run_engine, hinit] at hrun
    obtain ⟨hresult, -⟩ := Prod.mk.inj hrun
    obtain rfl := Except.ok.inj hresult
    exact .bind_ok (run_note _ t) (careful_throw (isPlain_statusFailure _ _))

theorem careful_range (hf : Founded s) (hget : s.families.get? id = some f) (start : Value) :
    Careful (range id start) s := by
  rcases openFamily_cases s id with ⟨failure, hrun⟩ | ⟨g, fh, hserves⟩
  · exact (careful_openFamily hf hget).stop hrun
  · have hspan := g.plain_startSpan start
    unfold Careful
    rw [run_range hserves]
    cases hs : g.startSpan start with
    | error failure => exact .error (Failure.ne_misuse_of_isPlain (hspan failure hs))
    | ok span => exact careful_begin hserves hf span

end

/-! ## Iterators, records and views -/

section

variable {i : IteratorId} {it : Iterator} {ρ : RecordId} {r : Record} {v : ViewId} {vw : View}

/-- A step of a course only fails with a status or with what came of an earlier one. -/
theorem plain_step (κ : Course) : Plain κ.step.2 := by
  unfold Course.step Course.settle
  split
  · exact .error rfl
  · exact .ok _
  · split
    · exact .error (isPlain_statusFailure _ _)
    · split
      · exact .ok _
      · exact .ok _

theorem plain_of_gives {reply : Except Failure (Option RecordId)}
    {out : Except Failure (Option Engine.Record)} (h : Gives s i reply out) (hout : Plain out) :
    Plain reply := by
  cases reply with
  | ok ρ? => exact .ok _
  | error failure =>
    cases out with
    | ok kv? => exact absurd h (by simp [Gives])
    | error failure' => exact .error (hout failure (congrArg Except.error h.symm))

/-- The cursor of an open iterator is there, and it is read at a record only. -/
theorem careful_advance (hs : Sound s) (hi : s.iterators.get? i = some it) :
    Careful (advance i) s := by
  cases hκ : s.course? i with
  | none => exact .of_run (run_advance_of_closed hs hi hκ) (careful_fail (s := s) _)
  | some κ =>
    obtain ⟨r, t, hrun, -, -, -, hr⟩ := advance_spec hs hκ
    refine .of_run hrun ?_
    rcases hr with ⟨rfl, -⟩ | ⟨-, hgives, -⟩
    · exact careful_fail (s := s) _
    · exact (plain_of_gives hgives (plain_step κ)).proper

theorem careful_next (hs : Sound s) (hi : s.iterators.get? i = some it) : Careful (next i) s := by
  cases hκ : s.course? i with
  | none =>
    exact (careful_advance hs hi).stop (run_advance_of_closed hs hi hκ)
  | some κ =>
    obtain ⟨r, t, hrun, -, -, -, hr⟩ := next_spec hs hκ
    refine .of_run hrun ?_
    rcases hr with ⟨rfl, -⟩ | ⟨-, rfl, -⟩
    · exact careful_fail (s := s) _
    · exact (plain_step κ).proper

theorem careful_closeIterator (hs : Reachable s) (hi : s.iterators.get? i = some it) :
    Careful (closeIterator i) s := by
  obtain ⟨t, closes, hrun, -⟩ := closes_closeIterator hs hi (List.mem_singleton.2 rfl)
  refine .of_run hrun ?_
  split
  · exact careful_fail (s := s) _
  · exact .ok _

/-- A family may be closed in whatever order its iterators are listed. -/
theorem careful_closeFamilyIn (hs : Reachable s) {id : FamilyId} {f : Family}
    (hget : s.families.get? id = some f) {order : List IteratorId} (ho : Lists s f order) :
    Careful (closeFamilyIn id order) s := by
  cases hh : f.handle with
  | none =>
    unfold closeFamilyIn
    refine .bind_ok (run_storeFamily hget) ?_
    rw [hh]
    exact .pure _
  | some fh =>
    obtain ⟨t, closes, fam, -, -, -, -, -, hrun, -⟩ := exists_closes hs hget hh ho
    refine .of_run (r := ((closeFamilyIn id order).run s).1) rfl ?_
    rw [hrun]
    split
    · exact careful_fail (s := s) _
    · exact .ok _

theorem careful_closeFamily (hs : Reachable s) {id : FamilyId} {f : Family}
    (hget : s.families.get? id = some f) : Careful (closeFamily id) s := by
  unfold Careful
  rw [closeFamily_eq hget]
  exact careful_closeFamilyIn hs hget ⟨fun _ hi => hi, fun _ hi _ => hi⟩

/-- The iterator of a record is there. -/
theorem careful_isValid (hs : Sound s) (hr : s.records.get? ρ = some r) :
    Careful (record ρ >>= isValid) s := by
  obtain ⟨it, hi, -, -⟩ := hs.placed ρ r hr
  exact .bind_ok (run_record hr) (.of_run (run_isValid hi) (.ok _))

theorem careful_checkValid (hs : Sound s) (hr : s.records.get? ρ = some r) :
    Careful (checkValid r) s := by
  obtain ⟨it, hi, -, -⟩ := hs.placed ρ r hr
  by_cases hg : it.generation = r.generation
  · exact .of_run (run_checkValid hi hg) (.ok _)
  · exact .of_run (run_checkValid_of_stale hi hg) (careful_fail (s := s) _)

theorem careful_copyRecord (hs : Sound s) (hr : s.records.get? ρ = some r) :
    Careful (copyRecord ρ) s :=
  .bind_ok (run_record hr) ((careful_checkValid hs hr).bind fun _ _ _ => .of_run rfl (.ok _))

theorem careful_viewPart (hs : Sound s) (hr : s.records.get? ρ = some r)
    (part : Record → Engine.Extent) : Careful (viewPart part ρ) s := by
  obtain ⟨it, hi, -, -⟩ := hs.placed ρ r hr
  by_cases hg : it.generation = r.generation
  · exact .of_run (run_viewPart part hr hi hg) (.ok _)
  · exact .bind_ok (run_record hr)
      ((careful_checkValid hs hr).stop (run_checkValid_of_stale hi hg))

theorem careful_readView (hv : s.views.get? v = some vw) : Careful (readView v) s := by
  cases hr : vw.released with
  | true => exact .of_run (run_readView_of_released hv hr) (careful_throw (s := s) rfl)
  | false => exact .of_run (run_readView hv hr) (.ok _)

theorem careful_releaseView (hv : s.views.get? v = some vw) : Careful (releaseView v) s := by
  unfold releaseView
  refine .bind_ok (run_view hv) ?_
  split
  · exact .pure _
  · split
    · exact (careful_throw rfl).stop rfl
    · exact .of_run rfl (.ok _)

theorem careful_holdView (hv : s.views.get? v = some vw) : Careful (holdView v) s := by
  unfold holdView checkReadable
  refine .bind_ok (run_view hv) ?_
  split
  · exact (careful_throw rfl).stop rfl
  · exact .of_run rfl (.ok _)

theorem careful_unholdView (hv : s.views.get? v = some vw) : Careful (unholdView v) s :=
  .bind_ok (run_view hv) (.of_run rfl (.ok _))

end

end Run

end Store

end FamilyStore
