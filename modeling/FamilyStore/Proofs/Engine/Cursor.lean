import FamilyStore.Proofs.Engine.SameCursors
import FamilyStore.Proofs.Table

/-!
The work of cursors, and the memory that they lend.

What each call does to the engine is stated for a cursor that exists. The memory that is lent
belongs to one cursor, which lends it for its present record only; all other memory has been taken
back and is poisoned.
-/

namespace FamilyStore.Engine

/-- Memory after a cursor has taken back what it lent. -/
def Cursor.takeBack (c : Cursor) (m : Memory) : Memory :=
  match c.current with
  | some (key, value) => (m.poison key).poison value
  | none => m

/-- The engine after work on one cursor. -/
def onCursor (e : Engine) (h : Handle) (c : Cursor) (new : List Call) (m : Memory) : Engine :=
  { e with calls := new ++ e.calls, cursors := e.cursors.set h c, memory := m }

theorem onCursor_self {e : Engine} {h : Handle} {c : Cursor} (hc : e.cursors.get? h = some c) :
    onCursor e h c [] e.memory = e := by
  unfold onCursor
  rw [Table.set_of_get? hc]
  rfl

theorem onCursor_onCursor (e : Engine) (h : Handle) (c c' : Cursor) (new new' : List Call)
    (m m' : Memory) : onCursor (onCursor e h c new m) h c' new' m' =
      onCursor e h c' (new' ++ new) m' := by
  unfold onCursor
  rw [Table.set_set, List.append_assoc]

/-- The engine without a cursor. -/
def withoutCursor (e : Engine) (h : Handle) (c : Cursor) : Engine :=
  { e with
    calls := ⟨.iteratorDeinit, .handle h⟩ :: e.calls
    cursors := e.cursors.erase h
    memory := c.takeBack e.memory }

/-- A new cursor, on the records that the family has now. -/
def newCursor (e : Engine) (fam : Family) (start : Span) : Cursor :=
  ⟨selected fam.config.funcs (e.recordsOf fam.store) start, 0, none, Status.success,
    e.failIterationAt⟩

/-- The engine when a call to make a cursor has been let through. -/
def admitted (e : Engine) (f : FamilyHandle) : Engine :=
  { e with
    calls := ⟨.iteratorInit, .family f⟩ :: e.calls
    pending := e.pending.erase .iteratorInit }

/-- The engine with a new cursor. -/
def withCursor (e : Engine) (f : FamilyHandle) (c : Cursor) : Engine :=
  { admitted e f with
    nextHandle := e.nextHandle + handleStep
    cursors := e.cursors.set e.nextHandle c }

namespace Run

variable {e : Engine} {h : Handle} {c : Cursor}

/-- All work of cursors notes its call and looks its cursor up. -/
theorem run_noted {α : Type} (hc : e.cursors.get? h = some c) (entry : EntryPoint)
    (f : Cursor → Run α) :
    (note entry (.handle h) >>= fun _ => cursor h >>= f).run e =
      (f c).run { e with calls := ⟨entry, .handle h⟩ :: e.calls } := by
  unfold note cursor
  rw [run_bind, run_modify]
  dsimp only
  rw [run_bind, run_bind, run_get]
  dsimp only
  rw [hc]
  rfl

theorem run_iteratorValid_of_fails (hc : e.cursors.get? h = some c) (hf : failsHere c = true) :
    (iteratorValid h).run e = (.ok false, onCursor e h { c with status := Status.ioError }
      [⟨.iteratorValid, .handle h⟩] e.memory) := by
  refine (run_noted hc _ _).trans ?_
  rw [run_ite, if_pos hf]
  rfl

theorem run_iteratorValid (hc : e.cursors.get? h = some c) (hf : failsHere c = false) :
    (iteratorValid h).run e = (.ok (decide (c.position < c.records.length)),
      onCursor e h c [⟨.iteratorValid, .handle h⟩] e.memory) := by
  refine (run_noted hc _ _).trans ?_
  rw [run_ite, if_neg (by rw [hf]; exact Bool.false_ne_true)]
  unfold onCursor
  rw [Table.set_of_get? hc]
  rfl

theorem run_iteratorNext (hc : e.cursors.get? h = some c) :
    (iteratorNext h).run e = (.ok (), onCursor e h
      { c with current := none, position := c.position + 1 } [⟨.iteratorNext, .handle h⟩]
      (c.takeBack e.memory)) := by
  refine (run_noted hc _ _).trans ?_
  unfold releaseCurrent onCursor Cursor.takeBack
  cases c.current with
  | none => rfl
  | some _ => rfl

/-- The first request for the present record puts it into new memory. -/
theorem run_iteratorGetCurrent (hc : e.cursors.get? h = some c) (hn : c.current = none)
    {r : Record} (hr : c.records[c.position]? = some r) :
    (iteratorGetCurrent h).run e =
      (.ok (⟨e.memory.next, r.1.length⟩, ⟨e.memory.next + 1, r.2.length⟩), onCursor e h
        { c with current := some (e.memory.next, e.memory.next + 1) }
        [⟨.iteratorGetCurrent, .handle h⟩] ((e.memory.alloc r.1).alloc r.2)) := by
  refine (run_noted hc _ _).trans ?_
  rw [hr]
  dsimp only
  unfold lend
  rw [hn]
  rfl

theorem run_iteratorStatus (hc : e.cursors.get? h = some c) :
    (iteratorStatus h).run e =
      (.ok c.status, onCursor e h c [⟨.iteratorStatus, .handle h⟩] e.memory) := by
  refine (run_noted hc _ _).trans ?_
  unfold onCursor
  rw [Table.set_of_get? hc]
  rfl

theorem run_iteratorDeinit (hc : e.cursors.get? h = some c) :
    (iteratorDeinit h).run e = (.ok (), withoutCursor e h c) := by
  refine (run_noted hc _ _).trans ?_
  unfold releaseCurrent withoutCursor Cursor.takeBack
  cases c.current with
  | none => rfl
  | some _ => rfl

theorem sameCursors_admitted (e : Engine) (f : FamilyHandle) : SameCursors [] e (admitted e f) :=
  Frame.trans (sameCursors_note (by decide) (.family f) e) (sameCursors_takePending .iteratorInit _)

/-- A cursor is made for a family that is in use, unless a failure is set up. -/
theorem run_iteratorInit_of_serves {f : FamilyHandle} {fam : Family} (hf : Serves e f fam)
    (start : Span) : (iteratorInit f start).run e =
      if pendingStatus e .iteratorInit = Status.success then
        (.ok (.ok e.nextHandle, selectionEvents fam.config.funcs (e.recordsOf fam.store) start),
          withCursor e f (newCursor e fam start))
      else (.ok (.error (pendingStatus e .iteratorInit), []), admitted e f) := by
  have hf' : Serves { e with calls := ⟨.iteratorInit, .family f⟩ :: e.calls } f fam := hf
  unfold iteratorInit note
  rw [run_bind, run_modify]
  dsimp only
  rw [run_bind, run_family hf']
  dsimp only
  rw [run_bind, run_takePending]
  dsimp only
  rw [run_ite]
  by_cases hp : pendingStatus e .iteratorInit = Status.success
  · rw [if_pos hp]
    exact if_neg (not_not_intro hp)
  · rw [if_neg hp]
    exact if_pos hp

theorem run_iteratorInit {f : FamilyHandle} {fam : Family} (hf : Serves e f fam)
    (hp : pendingStatus e .iteratorInit = Status.success) (start : Span) :
    (iteratorInit f start).run e =
      (.ok (.ok e.nextHandle, selectionEvents fam.config.funcs (e.recordsOf fam.store) start),
        withCursor e f (newCursor e fam start)) := by
  rw [run_iteratorInit_of_serves hf, if_pos hp]

/-- Making a cursor either fails quietly, or gives a new handle to a new cursor. -/
theorem iteratorInit_cases (f : FamilyHandle) (start : Span) (e : Engine) :
    ((∀ h events, ((iteratorInit f start).run e).1 ≠ .ok (.ok h, events)) ∧
      SameCursors [] e ((iteratorInit f start).run e).2) ∨
    ∃ fam, Serves e f fam ∧ (iteratorInit f start).run e =
      (.ok (.ok e.nextHandle, selectionEvents fam.config.funcs (e.recordsOf fam.store) start),
        withCursor e f (newCursor e fam start)) := by
  have hnote : SameCursors [] e { e with calls := ⟨.iteratorInit, .family f⟩ :: e.calls } :=
    sameCursors_note (by decide) (.family f) e
  cases hr : ((family f).run { e with calls := ⟨.iteratorInit, .family f⟩ :: e.calls }) with
  | mk r t =>
    have ht := run_family_snd f { e with calls := ⟨.iteratorInit, .family f⟩ :: e.calls }
    rw [hr] at ht
    dsimp only at ht
    subst ht
    cases r with
    | error failure =>
      have hrun : (iteratorInit f start).run e =
          (.error failure, { e with calls := ⟨.iteratorInit, .family f⟩ :: e.calls }) := by
        unfold iteratorInit note
        rw [run_bind, run_modify]
        dsimp only
        rw [run_bind, hr]
      rw [hrun]
      exact .inl ⟨fun _ _ h => by simp at h, hnote⟩
    | ok fam =>
      have hnoted := serves_of_run_family hr
      have hf : Serves e f fam := hnoted
      rw [run_iteratorInit_of_serves hf]
      by_cases hp : pendingStatus e .iteratorInit = Status.success
      · rw [if_pos hp]
        exact .inr ⟨fam, hf, rfl⟩
      · rw [if_neg hp]
        exact .inl ⟨fun _ _ h => by simp at h, sameCursors_admitted e f⟩

end Run

end FamilyStore.Engine
