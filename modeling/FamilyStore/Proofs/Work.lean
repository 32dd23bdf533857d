import FamilyStore.Store.State

/-!
Work that may fail and that changes a state.

`run_bind` and its companions say what a state becomes, step by step. `Within R` says that work
takes every state to one that `R` allows, also when it fails half way; it passes from the parts of
some work to the whole.
-/

namespace FamilyStore

section

variable {ε σ α β : Type}

theorem run_pure (a : α) (s : σ) : (pure a : ExceptT ε (StateM σ) α).run s = (.ok a, s) := rfl

theorem run_get (s : σ) : (get : ExceptT ε (StateM σ) σ).run s = (.ok s, s) := rfl

theorem run_set (s t : σ) : (set t : ExceptT ε (StateM σ) PUnit).run s = (.ok ⟨⟩, t) := rfl

theorem run_modify (f : σ → σ) (s : σ) :
    (modify f : ExceptT ε (StateM σ) PUnit).run s = (.ok ⟨⟩, f s) := rfl

/-- What comes next runs only if the work before it did not fail. -/
theorem run_bind (x : ExceptT ε (StateM σ) α) (f : α → ExceptT ε (StateM σ) β) (s : σ) :
    (x >>= f).run s =
      match x.run s with
      | (.ok a, t) => (f a).run t
      | (.error e, t) => (.error e, t) := by
  rw [ExceptT.run_bind]
  show (match (x.run s).1 with
    | .ok a => (f a).run
    | .error e => pure (.error e)) (x.run s).2 = _
  obtain ⟨r, t⟩ := x.run s
  cases r <;> rfl

theorem run_map (x : ExceptT ε (StateM σ) α) (f : α → β) (s : σ) :
    (f <$> x).run s = ((x.run s).1.map f, (x.run s).2) := by
  rw [map_eq_pure_bind, run_bind]
  obtain ⟨r, t⟩ := x.run s
  cases r <;> rfl

theorem run_ite (c : Prop) [Decidable c] (x y : ExceptT ε (StateM σ) α) (s : σ) :
    (if c then x else y).run s = if c then x.run s else y.run s := by
  split <;> rfl

/-- Work that did not fail did not fail in its first part. -/
theorem exists_of_run_bind {x : ExceptT ε (StateM σ) α} {f : α → ExceptT ε (StateM σ) β} {s t : σ}
    {b : β} (h : (x >>= f).run s = (.ok b, t)) :
    ∃ a s', x.run s = (.ok a, s') ∧ (f a).run s' = (.ok b, t) := by
  rw [run_bind] at h
  cases hx : x.run s with
  | mk r s' =>
    rw [hx] at h
    cases r with
    | ok a => exact ⟨a, s', rfl, h⟩
    | error e => exact absurd (congrArg Prod.fst h) (by simp)

theorem error_ne_ok {f : ε} {a : α} {s t : σ} :
    ((.error f, s) : Except ε α × σ) ≠ (.ok a, t) :=
  fun h => nomatch congrArg Prod.fst h

theorem exists_of_bind_ok {x : Except ε α} {f : α → Except ε β} {b : β}
    (h : (x >>= f) = .ok b) : ∃ a, x = .ok a ∧ f a = .ok b := by
  cases x with
  | error failure => exact absurd h (by simp [bind, Except.bind])
  | ok a => exact ⟨a, rfl, h⟩

/-- Work in two parts fails in the first of them or in the second. -/
theorem bind_eq_error_iff {x : Except ε α} {f : α → Except ε β} {e : ε} :
    (x >>= f) = .error e ↔ x = .error e ∨ ∃ a, x = .ok a ∧ f a = .error e := by
  constructor
  · intro h
    cases x with
    | error e' => exact .inl (congrArg Except.error (Except.error.inj h))
    | ok a => exact .inr ⟨a, rfl, h⟩
  · rintro (rfl | ⟨a, rfl, h⟩)
    · rfl
    · exact h

theorem eq_ok_of_toOption {x : Except ε α} {a : α} (h : x.toOption = some a) : x = .ok a := by
  cases x with
  | error f => exact nomatch h
  | ok b => exact congrArg Except.ok (Option.some.inj h)

theorem run_eq_of_toOption {x : ExceptT ε (StateM σ) α} {s : σ} {a : α}
    (h : (x.run s).1.toOption = some a) : x.run s = (.ok a, (x.run s).2) :=
  Prod.ext (eq_ok_of_toOption h) rfl

/-! ## What work allows to change -/

/-- A relation of states that work may stay within, one piece after the other. -/
class Frame (R : σ → σ → Prop) : Prop where
  refl : ∀ s, R s s
  trans : ∀ {s t u}, R s t → R t u → R s u

/-- Work takes every state to one that `R` allows, whether it fails or not. -/
def Within (R : σ → σ → Prop) (x : ExceptT ε (StateM σ) α) : Prop := ∀ s, R s (x.run s).2

namespace Within

variable {R : σ → σ → Prop}

theorem of_run {x : ExceptT ε (StateM σ) α} (hx : Within R x) {s t : σ} {r : Except ε α}
    (h : x.run s = (r, t)) : R s t := by
  have hs := hx s
  rwa [h] at hs

theorem mono {Q : σ → σ → Prop} {x : ExceptT ε (StateM σ) α} (hx : Within R x)
    (h : ∀ s t, R s t → Q s t) : Within Q x :=
  fun s => h s _ (hx s)

theorem modify {f : σ → σ} (h : ∀ s, R s (f s)) :
    Within R (modify f : ExceptT ε (StateM σ) PUnit) := h

/-- Work that starts by looking at the state. -/
theorem get_bind {f : σ → ExceptT ε (StateM σ) α} (h : ∀ s, R s ((f s).run s).2) :
    Within R (MonadState.get >>= f) := by
  intro s
  rw [run_bind, run_get]
  exact h s

theorem map {x : ExceptT ε (StateM σ) α} (hx : Within R x) (f : α → β) : Within R (f <$> x) := by
  intro s
  rw [run_map]
  exact hx s

theorem ite {c : Prop} [Decidable c] {x y : ExceptT ε (StateM σ) α}
    (hx : Within R x) (hy : Within R y) : Within R (if c then x else y) := by
  split
  · exact hx
  · exact hy

/-- Work that comes after work of another kind. -/
theorem bind_of {Q : σ → σ → Prop} {x : ExceptT ε (StateM σ) α}
    {f : α → ExceptT ε (StateM σ) β} (hx : Within R x) (hstop : ∀ s t, R s t → Q s t)
    (hgo : ∀ s t u, R s t → Q t u → Q s u) (hf : ∀ a, Within Q (f a)) : Within Q (x >>= f) := by
  intro s
  have hxs := hx s
  rw [run_bind]
  cases h : x.run s with
  | mk r t =>
    rw [h] at hxs
    cases r with
    | ok a => exact hgo s t _ hxs (hf a t)
    | error e => exact hstop s t hxs

variable [Frame R]

theorem pure (a : α) : Within R (pure a : ExceptT ε (StateM σ) α) := Frame.refl

theorem throw (e : ε) : Within R (throw e : ExceptT ε (StateM σ) α) := Frame.refl

theorem get : Within R (get : ExceptT ε (StateM σ) σ) := Frame.refl

theorem bind {x : ExceptT ε (StateM σ) α} {f : α → ExceptT ε (StateM σ) β}
    (hx : Within R x) (hf : ∀ a, Within R (f a)) : Within R (x >>= f) :=
  hx.bind_of (fun _ _ h => h) (fun _ _ _ => Frame.trans) hf

/-- A refusal in front of further work. -/
theorem guard {c : Prop} [Decidable c] {x : ExceptT ε (StateM σ) PUnit}
    {f : PUnit → ExceptT ε (StateM σ) β} (hx : Within R x) (hf : Within R (f ⟨⟩)) :
    Within R (if c then x >>= f else f ⟨⟩) :=
  ite (bind hx fun _ => hf) hf

end Within

end

/-! ## Work in the store -/

namespace Store.Run

variable {α : Type}

theorem run_engine (work : Engine.Run α) (s : Store) :
    (engine work).run s = ((work.run s.engine).1, { s with engine := (work.run s.engine).2 }) := rfl

theorem run_outcome (work : Run α) (s : Store) :
    (outcome work).run s = (.ok (work.run s).1, (work.run s).2) := rfl

theorem run_ofExcept (r : Except Failure α) (s : Store) : (ofExcept r).run s = (r, s) := by
  cases r <;> rfl

theorem run_note (events : List Event) (s : Store) :
    (note events).run s = (.ok ⟨⟩, { s with log := events.reverse ++ s.log }) := rfl

variable {R : Store → Store → Prop}

theorem within_engine {Q : Engine → Engine → Prop} {work : Engine.Run α}
    (h : ∀ s e, Q s.engine e → R s { s with engine := e }) (hw : Within Q work) :
    Within R (engine work) :=
  fun s => h s _ (hw s.engine)

theorem within_outcome {work : Run α} (hw : Within R work) : Within R (outcome work) := hw

variable [Frame R]

theorem within_ofExcept (r : Except Failure α) : Within R (ofExcept r) := by
  intro s
  rw [run_ofExcept]
  exact Frame.refl s

theorem within_fail (fault : StoreFault) : Within R (fail fault : Run α) := Within.throw _

theorem within_require (found : Option α) : Within R (require found) := by
  cases found with
  | none => exact Within.throw _
  | some a => exact Within.pure a

theorem within_checkStatus (task : EngineTask) (status : Status) :
    Within R (checkStatus task status) :=
  Within.ite (Within.pure _) (Within.throw _)

theorem within_database (id : DatabaseId) : Within R (database id) :=
  Within.bind Within.get fun _ => within_require _

theorem within_family (id : FamilyId) : Within R (family id) :=
  Within.bind Within.get fun _ => within_require _

theorem within_iterator (id : IteratorId) : Within R (iterator id) :=
  Within.bind Within.get fun _ => within_require _

theorem within_record (id : RecordId) : Within R (record id) :=
  Within.bind Within.get fun _ => within_require _

theorem within_view (id : ViewId) : Within R (view id) :=
  Within.bind Within.get fun _ => within_require _

theorem within_ensuring {work : Run α} {last : Run Unit} (hw : Within R work)
    (hl : Within R last) : Within R (ensuring work last) :=
  Within.bind (within_outcome hw) fun _ => Within.bind hl fun _ => within_ofExcept _

end Store.Run

/-! ## Work in the engine -/

namespace Engine.Run

variable {α : Type}

theorem run_note (entry : EntryPoint) (subject : Subject) (e : Engine) :
    (note entry subject).run e = (.ok (), { e with calls := ⟨entry, subject⟩ :: e.calls }) := rfl

/-- The status that an entry point is to report. -/
def pendingStatus (e : Engine) (entry : EntryPoint) : Status :=
  (e.pending.get? entry).getD Status.success

theorem run_takePending (entry : EntryPoint) (e : Engine) : (takePending entry).run e =
    (.ok (pendingStatus e entry), { e with pending := e.pending.erase entry }) := rfl

theorem run_newHandle (e : Engine) : newHandle.run e =
    (.ok e.nextHandle, { e with nextHandle := e.nextHandle + handleStep }) := rfl

theorem run_require_some (a : α) (e : Engine) : (require (some a)).run e = (.ok a, e) := rfl

variable {R : Engine → Engine → Prop} [Frame R]

theorem within_refuse (m : Misuse) : Within R (refuse m : Run α) := Within.throw _

theorem within_require (found : Option α) : Within R (require found) := by
  cases found with
  | none => exact Within.throw _
  | some a => exact Within.pure a

/-- A handle stands for a family that is in use. -/
def Serves (e : Engine) (f : FamilyHandle) (fam : Family) : Prop :=
  e.families.get? f = some fam ∧ fam.deleted = false ∧
    ∃ d, e.databases.get? fam.database = some d ∧ d.isOpen = true

theorem run_family {e : Engine} {f : FamilyHandle} {fam : Family} (h : Serves e f fam) :
    (family f).run e = (.ok fam, e) := by
  obtain ⟨hf, hd, d, hdb, ho⟩ := h
  unfold family
  rw [run_bind, run_get]
  dsimp only
  rw [hf, run_bind, run_require_some]
  dsimp only
  rw [run_ite, if_neg (by rw [hd]; exact Bool.false_ne_true), hdb, run_bind, run_require_some]
  dsimp only
  rw [run_ite, if_neg (by rw [ho]; exact Bool.false_ne_true)]
  rfl

theorem serves_of_run_family {e e' : Engine} {f : FamilyHandle} {fam : Family}
    (h : (family f).run e = (.ok fam, e')) : Serves e f fam := by
  unfold family at h
  rw [run_bind, run_get] at h
  dsimp only at h
  cases hf : e.families.get? f with
  | none =>
    rw [hf] at h
    exact absurd h error_ne_ok
  | some g =>
    rw [hf, run_bind, run_require_some] at h
    dsimp only at h
    rw [run_ite] at h
    split at h
    · exact absurd h error_ne_ok
    · cases hdb : e.databases.get? g.database with
      | none =>
        rw [hdb] at h
        exact absurd h error_ne_ok
      | some d =>
        rw [hdb, run_bind, run_require_some] at h
        dsimp only at h
        rw [run_ite] at h
        split at h
        · exact absurd h error_ne_ok
        · have hg : g = fam := by simpa [run_pure] using congrArg Prod.fst h
          subst hg
          exact ⟨hf, by simpa using ‹¬ g.deleted = true›, d, hdb,
            by simpa using ‹¬ (!d.isOpen) = true›⟩

/-- Asking for the family under a handle changes nothing. -/
theorem run_family_snd (f : FamilyHandle) (e : Engine) : ((family f).run e).2 = e := by
  have : Within (fun a b : Engine => b = a) (family f) := by
    have : Frame (fun a b : Engine => b = a) := ⟨fun _ => rfl, fun h h' => h'.trans h⟩
    refine Within.bind Within.get fun e => Within.bind (within_require _) fun fam => ?_
    refine Within.guard (within_refuse _) (Within.bind (within_require _) fun d => ?_)
    exact Within.guard (within_refuse _) (Within.pure fam)
  exact this e

theorem within_family (f : FamilyHandle) : Within R (family f) := by
  intro e
  rw [run_family_snd]
  exact Frame.refl e

end Engine.Run

end FamilyStore
