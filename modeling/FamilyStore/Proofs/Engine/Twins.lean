import FamilyStore.Proofs.Engine.Points

/-!
What the engine's work with records looks at.

Two engines are twins when they differ in nothing but the calls that they noted and the statuses
that are set up, and when every entry point is to report the same status. Work with records then
replies the same for both, and leaves twins behind. `Agrees` says so of any work, and passes from
the parts of some work to the whole.
-/

namespace FamilyStore

section

variable {ε σ α β : Type}

/-- Work that replies the same in related states, and leaves related states behind. -/
def Agrees (R : σ → σ → Prop) (x : ExceptT ε (StateM σ) α) : Prop :=
  ∀ s t, R s t → (x.run t).1 = (x.run s).1 ∧ R (x.run s).2 (x.run t).2

namespace Agrees

variable {R : σ → σ → Prop}

theorem pure (a : α) : Agrees R (pure a : ExceptT ε (StateM σ) α) := fun _ _ h => ⟨rfl, h⟩

theorem throw (e : ε) : Agrees R (throw e : ExceptT ε (StateM σ) α) := fun _ _ h => ⟨rfl, h⟩

theorem modify {f : σ → σ} (h : ∀ s t, R s t → R (f s) (f t)) :
    Agrees R (modify f : ExceptT ε (StateM σ) PUnit) := fun s t hst => ⟨rfl, h s t hst⟩

theorem bind {x : ExceptT ε (StateM σ) α} {f : α → ExceptT ε (StateM σ) β} (hx : Agrees R x)
    (hf : ∀ a, Agrees R (f a)) : Agrees R (x >>= f) := by
  intro s t hst
  have hxs := hx s t hst
  rw [run_bind, run_bind]
  generalize x.run s = answer at hxs ⊢
  generalize x.run t = answer' at hxs ⊢
  obtain ⟨r, s'⟩ := answer
  obtain ⟨r', t'⟩ := answer'
  obtain ⟨rfl, hst'⟩ := hxs
  cases r' with
  | error e => exact ⟨rfl, hst'⟩
  | ok a => exact hf a s' t' hst'

/-- Work that starts by looking at the state. -/
theorem get_bind {f : σ → ExceptT ε (StateM σ) α}
    (h : ∀ s t, R s t → ((f t).run t).1 = ((f s).run s).1 ∧ R ((f s).run s).2 ((f t).run t).2) :
    Agrees R (get >>= f) := by
  intro s t hst
  rw [run_bind, run_bind, run_get, run_get]
  exact h s t hst

/-- Work that sees the same in related states. -/
theorem look {f : σ → ExceptT ε (StateM σ) α} (hsame : ∀ s t, R s t → f t = f s)
    (hf : ∀ s, Agrees R (f s)) : Agrees R (get >>= f) :=
  get_bind fun s t hst => by
    rw [hsame s t hst]
    exact hf s s t hst

theorem ite {c : Prop} [Decidable c] {x y : ExceptT ε (StateM σ) α} (hx : Agrees R x)
    (hy : Agrees R y) : Agrees R (if c then x else y) := by
  split
  · exact hx
  · exact hy

theorem map {x : ExceptT ε (StateM σ) α} (hx : Agrees R x) (f : α → β) : Agrees R (f <$> x) := by
  intro s t hst
  rw [run_map, run_map]
  exact ⟨congrArg (Except.map f) (hx s t hst).1, (hx s t hst).2⟩

/-- A refusal in front of further work. -/
theorem guard {c : Prop} [Decidable c] {x : ExceptT ε (StateM σ) PUnit}
    {f : PUnit → ExceptT ε (StateM σ) β} (hx : Agrees R x) (hf : Agrees R (f ⟨⟩)) :
    Agrees R (if c then x >>= f else f ⟨⟩) :=
  ite (bind hx fun _ => hf) hf

end Agrees

end

namespace Engine

/-- Engines that differ in calls and in statuses that are set up, but are to report the same. -/
inductive Twins (e : Engine) : Engine → Prop
  | of (calls : List Call) (pending : Table EntryPoint Status)
    (h : ∀ entry, (pending.get? entry).getD Status.success = Run.pendingStatus e entry) :
    Twins e { e with calls := calls, pending := pending }

namespace Run

variable {α : Type}

/-! ## Work that does not look at the engine -/

theorem agrees_refuse {R : Engine → Engine → Prop} (m : Misuse) : Agrees R (refuse m : Run α) :=
  Agrees.throw _

theorem agrees_require {R : Engine → Engine → Prop} (found : Option α) :
    Agrees R (require found) := by
  cases found with
  | none => exact Agrees.throw _
  | some a => exact Agrees.pure a

/-! ## Twins -/

theorem twins_note (entry : EntryPoint) (subject : Subject) : Agrees Twins (note entry subject) :=
  Agrees.modify fun _ _ ⟨_, pending, h⟩ => .of _ pending h

theorem twins_takePending (entry : EntryPoint) : Agrees Twins (takePending entry) := by
  rintro e - ⟨calls, pending, h⟩
  refine ⟨congrArg Except.ok (h entry), .of calls (pending.erase entry) fun other => ?_⟩
  have hother := h other
  unfold pendingStatus at hother ⊢
  rw [run_takePending]
  dsimp only
  rw [Table.get?_erase, Table.get?_erase]
  split
  · rfl
  · exact hother

theorem twins_newHandle : Agrees Twins newHandle := by
  rintro e - ⟨calls, pending, h⟩
  exact ⟨rfl, .of calls pending h⟩

theorem twins_family (f : FamilyHandle) : Agrees Twins (family f) := by
  refine Agrees.look (fun _ _ ⟨_, _, _⟩ => rfl) fun e => ?_
  refine Agrees.bind (agrees_require _) fun fam => ?_
  refine Agrees.guard (agrees_refuse _) (Agrees.bind (agrees_require _) fun d => ?_)
  exact Agrees.guard (agrees_refuse _) (Agrees.pure fam)

theorem twins_setRecords (σ : StoreId) (R : Records) : Agrees Twins (setRecords σ R) :=
  Agrees.modify fun _ _ ⟨_, pending, h⟩ => .of _ pending h

/-! ## Writing, removing and updating -/

theorem twins_insert (f : FamilyHandle) (key value : Span) : Agrees Twins (insert f key value) := by
  refine Agrees.bind (twins_note _ _) fun _ => Agrees.bind (twins_family f) fun fam => ?_
  refine Agrees.bind (twins_takePending _) fun status => Agrees.ite (Agrees.pure _) ?_
  refine Agrees.ite (Agrees.pure _) (Agrees.look (fun _ _ ⟨_, _, _⟩ => rfl) fun e => ?_)
  exact Agrees.bind (twins_setRecords _ _) fun _ => Agrees.pure _

theorem twins_delete (f : FamilyHandle) (key : Span) : Agrees Twins (delete f key) := by
  refine Agrees.bind (twins_note _ _) fun _ => Agrees.bind (twins_family f) fun fam => ?_
  refine Agrees.bind (twins_takePending _) fun status => Agrees.ite (Agrees.pure _) ?_
  refine Agrees.look (fun _ _ ⟨_, _, _⟩ => rfl) fun e => ?_
  exact Agrees.bind (twins_setRecords _ _) fun _ => Agrees.pure _

theorem twins_accumulators (change : Table Handle Accumulator → Table Handle Accumulator) :
    Agrees Twins (modify fun e : Engine => { e with accumulators := change e.accumulators } :
      Run PUnit) :=
  Agrees.modify fun _ _ ⟨_, pending, h⟩ => .of _ pending h

theorem twins_merge (fam : Family) (key : Bytes) (acc : Handle) :
    Agrees Twins (merge fam key acc) := by
  rintro e - ⟨calls, pending, h⟩
  cases ha : e.accumulators.get? acc with
  | none =>
    unfold merge
    rw [run_bind, run_bind, run_get, run_get]
    dsimp only
    rw [ha]
    exact ⟨rfl, .of calls pending h⟩
  | some a =>
    obtain ⟨o, ho⟩ : ∃ o, mergeOutcome fam.config.funcs (e.recordsOf fam.store) key a
        e.refuseResize = o := ⟨_, rfl⟩
    rw [run_merge ha ho, run_merge (e := { e with calls := calls, pending := pending }) ha ho]
    refine ⟨rfl, ?_⟩
    by_cases hs : o.status = Status.success
    · rw [if_pos hs, if_pos hs]
      exact .of _ pending h
    · rw [if_neg hs, if_neg hs]
      exact .of _ pending h

theorem twins_update (f : FamilyHandle) (key delta : Span) : Agrees Twins (update f key delta) := by
  refine Agrees.bind (twins_note _ _) fun _ => Agrees.bind (twins_family f) fun fam => ?_
  refine Agrees.bind (twins_takePending _) fun status => Agrees.ite (Agrees.pure _) ?_
  refine Agrees.ite (Agrees.pure _) (Agrees.bind twins_newHandle fun acc => ?_)
  refine Agrees.bind (twins_accumulators fun t => t.set acc _) fun _ => ?_
  refine Agrees.bind (twins_merge _ _ _) fun result => ?_
  exact Agrees.bind (twins_accumulators fun t => t.erase acc) fun _ => Agrees.pure _

/-! ## Looking up -/

theorem twins_lookups (change : Table Nat (Option Bytes) → Table Nat (Option Bytes)) :
    Agrees Twins (modify fun e : Engine => { e with lookups := change e.lookups } : Run PUnit) :=
  Agrees.modify fun _ _ ⟨_, pending, h⟩ => .of _ pending h

theorem twins_lookupInit (f : FamilyHandle) (address : Nat) :
    Agrees Twins (lookupInit f address) := by
  refine Agrees.bind (twins_note _ _) fun _ => Agrees.bind (twins_family f) fun fam => ?_
  refine Agrees.get_bind fun _ _ ⟨calls, pending, h⟩ => ?_
  rw [run_ite, run_ite]
  dsimp only
  split
  · exact ⟨rfl, .of calls pending h⟩
  · exact ⟨rfl, .of calls pending h⟩

theorem twins_lookup (f : FamilyHandle) (key : Span) (address : Nat) :
    Agrees Twins (lookup f key address) := by
  refine Agrees.bind (twins_note _ _) fun _ => Agrees.bind (twins_family f) fun fam => ?_
  refine Agrees.look (fun _ _ ⟨_, _, _⟩ => rfl) fun e => ?_
  refine Agrees.bind (agrees_require _) fun found => ?_
  refine Agrees.bind (twins_takePending _) fun status => Agrees.ite (Agrees.pure _) ?_
  cases (e.recordsOf fam.store).get? key.read with
  | none => exact Agrees.pure _
  | some value =>
    exact Agrees.bind (twins_lookups fun t => t.set address (some value)) fun _ => Agrees.pure _

theorem twins_lookupFound (address : Nat) : Agrees Twins (lookupFound address) := by
  refine Agrees.bind (twins_note _ _) fun _ => Agrees.look (fun _ _ ⟨_, _, _⟩ => rfl) fun e => ?_
  exact Agrees.bind (agrees_require _) fun found => Agrees.pure _

theorem twins_lookupValue (address : Nat) : Agrees Twins (lookupValue address) := by
  refine Agrees.bind (twins_note _ _) fun _ => Agrees.look (fun _ _ ⟨_, _, _⟩ => rfl) fun e => ?_
  refine Agrees.bind (agrees_require _) fun found => ?_
  refine Agrees.bind (twins_takePending _) fun status => Agrees.ite (Agrees.pure _) ?_
  exact Agrees.bind (agrees_require _) fun value => Agrees.pure _

theorem twins_lookupDeinit (address : Nat) : Agrees Twins (lookupDeinit address) := by
  refine Agrees.bind (twins_note _ _) fun _ => Agrees.get_bind fun e _ ⟨calls, pending, h⟩ => ?_
  rw [run_bind, run_bind]
  dsimp only
  cases e.lookups.get? address with
  | none => exact ⟨rfl, .of calls pending h⟩
  | some found => exact ⟨rfl, .of calls pending h⟩

/-! ## Starting an iteration -/

theorem twins_cursors (change : Option Int → Table Handle Cursor → Table Handle Cursor) :
    Agrees Twins (modify fun e : Engine =>
      { e with cursors := change e.failIterationAt e.cursors } : Run PUnit) :=
  Agrees.modify fun _ _ ⟨_, pending, h⟩ => .of _ pending h

theorem twins_iteratorInit (f : FamilyHandle) (start : Span) :
    Agrees Twins (iteratorInit f start) := by
  refine Agrees.bind (twins_note _ _) fun _ => Agrees.bind (twins_family f) fun fam => ?_
  refine Agrees.bind (twins_takePending _) fun status => Agrees.ite (Agrees.pure _) ?_
  refine Agrees.look (fun _ _ ⟨_, _, _⟩ => rfl) fun e => Agrees.bind twins_newHandle fun h => ?_
  refine Agrees.bind (twins_cursors fun failAt t => t.set h ⟨_, 0, none, _, failAt⟩) fun _ => ?_
  exact Agrees.pure _

end Run

end Engine

end FamilyStore
