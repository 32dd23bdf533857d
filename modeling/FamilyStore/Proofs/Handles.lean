import FamilyStore.Proofs.Operation

/-!
Asking for handles and preparing arguments, which leaves the store as it is.
-/

namespace FamilyStore.Store

variable {s : Store}

/-- A family handle is open, on a database handle that is open. -/
def Serves (s : Store) (id : FamilyId) (f : Family) (fh : Engine.FamilyHandle) : Prop :=
  s.families.get? id = some f ∧ f.handle = some fh ∧
    ∃ d, s.databases.get? f.database = some d ∧ d.isClosed = false

/-- The engine's family behind a family handle. -/
def engineFamily? (s : Store) (id : FamilyId) : Option Engine.Family :=
  ((s.families.get? id).bind Family.handle).bind s.engine.families.get?

/-- The records of a family. -/
def stored (s : Store) (id : FamilyId) : Engine.Records :=
  ((s.engineFamily? id).map fun fam => s.engine.recordsOf fam.store).getD .empty

/-- The data configuration of a family handle. -/
def config? (s : Store) (id : FamilyId) : Option DataConfig :=
  (s.families.get? id).map Family.config

/-- Whether a family handle is open, on a database handle that is open. -/
def isOpenFamily (s : Store) (id : FamilyId) : Bool :=
  (s.families.get? id).any fun f =>
    !f.isClosed && (s.databases.get? f.database).any fun d => !d.isClosed

theorem stored_eq {s : Store} {id : FamilyId} {fam : Engine.Family}
    (h : s.engineFamily? id = some fam) : s.stored id = s.engine.recordsOf fam.store := by
  unfold stored
  rw [h]
  rfl

theorem config?_of_get? {id : FamilyId} {f : Family} (h : s.families.get? id = some f) :
    s.config? id = some f.config := by
  unfold config?
  rw [h]
  rfl

theorem exists_serves {s : Store} {id : FamilyId} (h : s.isOpenFamily id = true) :
    ∃ f fh, Serves s id f fh := by
  obtain ⟨f, hf, hopen⟩ := (Option.any_eq_true _ _).1 h
  obtain ⟨hhandle, hdatabase⟩ := Bool.and_eq_true_iff.1 hopen
  obtain ⟨d, hd, ho⟩ := (Option.any_eq_true _ _).1 hdatabase
  have hclosed : d.isClosed = false := by simpa using ho
  cases hh : f.handle with
  | none =>
    rw [Family.isClosed, hh] at hhandle
    exact absurd hhandle (by simp)
  | some fh => exact ⟨f, fh, hf, hh, d, hd, hclosed⟩

/-- What the engine receives for a key, which must be there and not too long. -/
def Family.span (f : Family) (key : Value) : Except Failure Span :=
  match key with
  | .null => .error (.argument .nullKey)
  | _ =>
    match Slice.ofValue key with
    | .error failure => .error failure
    | .ok slice =>
      if f.config.maxKeySize < slice.length then
        .error (.store (.keyTooLarge slice.length f.config.maxKeySize))
      else .ok (slice.span key.contents)

/-- What the engine receives for a start key. -/
def Family.startSpan (f : Family) (start : Value) : Except Failure Span :=
  match start with
  | .null => .ok (Span.null 0)
  | _ => f.span start

theorem Family.startSpan_of_ne (f : Family) {start : Value} (h : start ≠ .null) :
    f.startSpan start = f.span start := by
  unfold startSpan
  split
  · exact absurd rfl h
  · rfl

namespace Run

theorem run_storeFamily {id : FamilyId} {f : Family} (hf : s.families.get? id = some f) :
    (family id).run s = (.ok f, s) := by
  unfold family
  rw [run_bind, run_get]
  dsimp only
  rw [hf]
  rfl

theorem run_storeFamily_none {id : FamilyId} (hf : s.families.get? id = none) :
    (family id).run s = (.error (.misuse .unknownHandle), s) := by
  unfold family
  rw [run_bind, run_get]
  dsimp only
  rw [hf]
  rfl

theorem run_database {id : DatabaseId} {d : Database} (hd : s.databases.get? id = some d) :
    (database id).run s = (.ok d, s) := by
  unfold database
  rw [run_bind, run_get]
  dsimp only
  rw [hd]
  rfl

theorem run_database_none {id : DatabaseId} (hd : s.databases.get? id = none) :
    (database id).run s = (.error (.misuse .unknownHandle), s) := by
  unfold database
  rw [run_bind, run_get]
  dsimp only
  rw [hd]
  rfl

theorem run_openFamily {id : FamilyId} {f : Family} {fh : Engine.FamilyHandle}
    (h : Serves s id f fh) : (openFamily id).run s = (.ok (f, fh), s) := by
  obtain ⟨hf, hh, d, hd, ho⟩ := h
  unfold openFamily
  rw [run_bind, run_storeFamily hf]
  dsimp only
  rw [hh]
  dsimp only
  rw [run_bind, run_database hd]
  dsimp only
  rw [run_ite, if_neg (by rw [ho]; exact Bool.false_ne_true)]
  rfl

/-- A family handle that is not open is refused. -/
theorem openFamily_cases (s : Store) (id : FamilyId) :
    (∃ failure, (openFamily id).run s = (.error failure, s)) ∨ ∃ f fh, Serves s id f fh := by
  unfold openFamily
  cases hf : s.families.get? id with
  | none =>
    rw [run_bind, run_storeFamily_none hf]
    exact .inl ⟨_, rfl⟩
  | some f =>
    rw [run_bind, run_storeFamily hf]
    dsimp only
    cases hh : f.handle with
    | none => exact .inl ⟨_, rfl⟩
    | some fh =>
      dsimp only
      cases hd : s.databases.get? f.database with
      | none =>
        rw [run_bind, run_database_none hd]
        exact .inl ⟨_, rfl⟩
      | some d =>
        rw [run_bind, run_database hd]
        dsimp only
        rw [run_ite]
        cases ho : d.isClosed with
        | true => exact .inl ⟨_, rfl⟩
        | false => exact .inr ⟨f, fh, hf, hh, d, hd, ho⟩

theorem run_keySpan (f : Family) (key : Value) (s : Store) :
    (keySpan f key).run s = (f.span key, s) := by
  have hrest : (do
      let slice ← sliceOf key
      if f.config.maxKeySize < slice.length then
        fail (.keyTooLarge slice.length f.config.maxKeySize)
      return slice.span key.contents : Run Span).run s =
      (match Slice.ofValue key with
        | .error failure => .error failure
        | .ok slice =>
          if f.config.maxKeySize < slice.length then
            .error (.store (.keyTooLarge slice.length f.config.maxKeySize))
          else .ok (slice.span key.contents), s) := by
    unfold sliceOf
    rw [run_bind, run_ofExcept]
    cases Slice.ofValue key with
    | error failure => rfl
    | ok slice =>
      dsimp only
      rw [run_ite]
      by_cases hlong : f.config.maxKeySize < slice.length
      · rw [if_pos hlong, if_pos hlong]
        rfl
      · rw [if_neg hlong, if_neg hlong]
        rfl
  cases key with
  | null => rfl
  | _ => exact hrest

end Run

end FamilyStore.Store
