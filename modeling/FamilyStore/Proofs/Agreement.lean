import FamilyStore.Proofs.Engine.Twins
import FamilyStore.Proofs.Iteration.Lifetime

/-!
Calls on families do not look at what the engine noted.

Stores are twins when their engines are. Every call on a family then replies the same in both, and
leaves twins behind.
-/

namespace FamilyStore.Store

/-- Stores with twin engines that differ in nothing else. -/
inductive Twins (s : Store) : Store → Prop
  | of {e : Engine} (h : s.engine.Twins e) : Twins s { s with engine := e }

namespace Run

variable {α β : Type}

/-! ## Work that does not look at the store -/

section

variable {R : Store → Store → Prop}

theorem agrees_fail (fault : StoreFault) : Agrees R (fail fault : Run α) := Agrees.throw _

theorem agrees_ofExcept (r : Except Failure α) : Agrees R (ofExcept r) := by
  cases r with
  | ok a => exact Agrees.pure a
  | error failure => exact Agrees.throw _

theorem agrees_require (found : Option α) : Agrees R (require found) := by
  cases found with
  | none => exact Agrees.throw _
  | some a => exact Agrees.pure a

theorem agrees_checkStatus (task : EngineTask) (status : Status) :
    Agrees R (checkStatus task status) :=
  Agrees.ite (Agrees.pure _) (Agrees.throw _)

theorem agrees_outcome {work : Run α} (hw : Agrees R work) : Agrees R (outcome work) :=
  fun s t h => ⟨congrArg Except.ok (hw s t h).1, (hw s t h).2⟩

theorem agrees_ensuring {work : Run α} {last : Run Unit} (hw : Agrees R work)
    (hl : Agrees R last) : Agrees R (ensuring work last) :=
  Agrees.bind (agrees_outcome hw) fun _ => Agrees.bind hl fun _ => agrees_ofExcept _

theorem agrees_forM {xs : List β} {f : β → Run Unit} (hf : ∀ b, Agrees R (f b)) :
    Agrees R (xs.forM f) := by
  induction xs with
  | nil => exact Agrees.pure _
  | cons b xs ih => exact Agrees.bind (hf b) fun _ => ih

theorem agrees_keySpan (f : Family) (key : Value) : Agrees R (keySpan f key) := by
  have hrest : Agrees R (do
      let slice ← sliceOf key
      if f.config.maxKeySize < slice.length then
        fail (.keyTooLarge slice.length f.config.maxKeySize)
      return slice.span key.contents : Run Span) :=
    Agrees.bind (agrees_ofExcept _) fun slice => Agrees.guard (agrees_fail _) (Agrees.pure _)
  cases key with
  | null => exact Agrees.throw _
  | _ => exact hrest

theorem agrees_valueSpan (v : Value) : Agrees R (valueSpan v) :=
  Agrees.bind (agrees_ofExcept _) fun _ => Agrees.pure _

end

/-! ## Twins -/

theorem twins_engine {work : Engine.Run α} (hw : Agrees Engine.Twins work) :
    Agrees Twins (engine work) := by
  rintro s - ⟨h⟩
  have hwork := hw _ _ h
  exact ⟨hwork.1, .of hwork.2⟩

theorem twins_note (events : List Event) : Agrees Twins (note events) :=
  Agrees.modify fun _ _ ⟨h⟩ => .of h

theorem twins_family (id : FamilyId) : Agrees Twins (family id) :=
  Agrees.look (fun _ _ ⟨_⟩ => rfl) fun _ => agrees_require _

theorem twins_database (id : DatabaseId) : Agrees Twins (database id) :=
  Agrees.look (fun _ _ ⟨_⟩ => rfl) fun _ => agrees_require _

theorem twins_openFamily (id : FamilyId) : Agrees Twins (openFamily id) := by
  refine Agrees.bind (twins_family id) fun f => ?_
  cases f.handle with
  | none => exact agrees_fail _
  | some fh =>
    refine Agrees.bind (twins_database _) fun d => ?_
    exact Agrees.guard (agrees_fail _) (Agrees.pure _)

/-! ## Calls on families -/

theorem twins_insert (id : FamilyId) (key value : Value) : Agrees Twins (insert id key value) := by
  refine Agrees.bind (twins_openFamily id) fun r => Agrees.bind (agrees_keySpan _ _) fun k => ?_
  refine Agrees.bind (agrees_valueSpan _) fun v => ?_
  refine Agrees.bind (twins_engine (Engine.Run.twins_insert _ _ _)) fun status => ?_
  exact agrees_checkStatus _ _

theorem twins_update (id : FamilyId) (key delta : Value) : Agrees Twins (update id key delta) := by
  refine Agrees.bind (twins_openFamily id) fun r => Agrees.bind (agrees_keySpan _ _) fun k => ?_
  refine Agrees.bind (agrees_valueSpan _) fun v => ?_
  refine Agrees.bind (twins_engine (Engine.Run.twins_update _ _ _)) fun result => ?_
  exact Agrees.bind (twins_note _) fun _ => agrees_checkStatus _ _

theorem twins_delete (id : FamilyId) (key : Value) : Agrees Twins (delete id key) := by
  refine Agrees.bind (twins_openFamily id) fun r => Agrees.bind (agrees_keySpan _ _) fun k => ?_
  refine Agrees.bind (twins_engine (Engine.Run.twins_delete _ _)) fun status => ?_
  exact agrees_checkStatus _ _

theorem twins_lookupIn (handle : Engine.FamilyHandle) (key : Span) (address : Nat) :
    Agrees Twins (lookupIn handle key address) := by
  refine Agrees.bind (twins_engine (Engine.Run.twins_lookup _ _ _)) fun status => ?_
  refine Agrees.bind (agrees_checkStatus _ _) fun _ => ?_
  refine Agrees.bind (twins_engine (Engine.Run.twins_lookupFound _)) fun found => ?_
  refine Agrees.ite (Agrees.bind (twins_engine (Engine.Run.twins_lookupValue _)) fun r => ?_)
    (Agrees.pure _)
  cases r with
  | ok value => exact Agrees.pure _
  | error status => exact Agrees.throw _

theorem twins_lookup (id : FamilyId) (key : Value) : Agrees Twins (lookup id key) := by
  refine Agrees.bind (twins_openFamily id) fun r => Agrees.bind (agrees_keySpan _ _) fun k => ?_
  refine Agrees.look (fun _ _ ⟨⟨_, _, _⟩⟩ => rfl) fun s => ?_
  refine Agrees.bind (twins_engine (Engine.Run.twins_lookupInit _ _)) fun _ => ?_
  exact agrees_ensuring (twins_lookupIn _ _ _) (twins_engine (Engine.Run.twins_lookupDeinit _))

theorem twins_getOr (id : FamilyId) (key default : Value) :
    Agrees Twins (getOr id key default) := by
  refine Agrees.bind (twins_lookup id key) fun found => ?_
  cases found with
  | some value => exact Agrees.pure _
  | none => exact Agrees.pure _

theorem twins_contains (id : FamilyId) (key : Value) : Agrees Twins (contains id key) := by
  have hfound : Agrees Twins (do return (← lookup id key).isSome : Run Bool) :=
    Agrees.bind (twins_lookup id key) fun _ => Agrees.pure _
  have hrest : Agrees Twins (do
      let size ← ofExcept key.size
      let f ← family id
      if f.config.maxKeySize < size then return false
      return (← lookup id key).isSome : Run Bool) :=
    Agrees.bind (agrees_ofExcept _) fun size => Agrees.bind (twins_family id) fun f =>
      Agrees.ite (Agrees.pure _) hfound
  cases key with
  | null => exact hfound
  | _ => exact hrest

/-- A call on a family replies the same in twin stores. -/
theorem twins_point (id : FamilyId) (call : PointCall) : Agrees Twins (call.run id) := by
  cases call with
  | insert key value => exact Agrees.map (twins_insert id key value) _
  | update key delta => exact Agrees.map (twins_update id key delta) _
  | delete key => exact Agrees.map (twins_delete id key) _
  | lookup key => exact Agrees.map (twins_lookup id key) _
  | get key default => exact Agrees.map (twins_getOr id key default) _
  | contains key => exact Agrees.map (twins_contains id key) _

theorem twins_begin (id : FamilyId) (fh : Engine.FamilyHandle) (span : Span) :
    Agrees Twins (begin id fh span) := by
  refine Agrees.bind (twins_engine (Engine.Run.twins_iteratorInit _ _)) fun result => ?_
  refine Agrees.bind (twins_note _) fun _ => ?_
  cases result.1 with
  | error status => exact Agrees.throw _
  | ok cursor =>
    refine Agrees.look (fun _ _ ⟨_⟩ => rfl) fun s => ?_
    refine Agrees.bind (Agrees.modify fun _ _ ⟨h⟩ => .of h) fun _ => ?_
    refine Agrees.bind (twins_family id) fun f => ?_
    exact Agrees.bind (Agrees.modify fun _ _ ⟨h⟩ => .of h) fun _ => Agrees.pure _

theorem twins_range (id : FamilyId) (start : Value) : Agrees Twins (range id start) := by
  refine Agrees.bind (twins_openFamily id) fun r => ?_
  cases start with
  | null => exact twins_begin id r.2 _
  | _ => exact Agrees.bind (agrees_keySpan _ _) fun span => twins_begin id r.2 span

end Run

end FamilyStore.Store
