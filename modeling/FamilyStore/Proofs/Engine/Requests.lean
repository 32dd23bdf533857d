import FamilyStore.Proofs.Engine.Exchange

/-!
What a request for a database comes to, step by step.

A status that is set up comes first. Otherwise the files decide, and nothing else does: to create a
database writes the mark of a database into its file, and to open one looks for the mark there.
-/

namespace FamilyStore.Engine

/-- The entry point of a request for a database. -/
def requestEntry (existing : Bool) : EntryPoint := if existing then .openExisting else .create

/-- What the files say to a request: a failure, a status, or the files that it leaves behind. -/
def verdict (files : Files) (existing : Bool) (path : String) :
    Except Failure (Except Status Files) :=
  if existing then
    if files.contains path then
      match files.read path with
      | .error fault => .error (.file fault)
      | .ok content =>
        if content = Run.databaseMark then .ok (.ok files) else .ok (.error Status.invalid)
    else .ok (.error Status.noEntry)
  else
    match files.write path Run.databaseMark with
    | .error fault => .error (.file fault)
    | .ok files' => .ok (.ok files')

/-- The engine with a new open database at a path. -/
def withDatabase (e : Engine) (path : String) : Engine :=
  { e with
    nextHandle := e.nextHandle + handleStep
    databases := e.databases.set e.nextHandle ⟨path, true, 1⟩
    stores := if e.stores.contains path then e.stores else e.stores.set path .empty }

/-- The engine with the files that a request leaves behind. A database that is created starts
without stores. -/
def settled (e : Engine) (existing : Bool) (path : String) (files : Files) : Engine :=
  { e with
    files := files
    stores := if existing then e.stores else e.stores.set path .empty }

namespace Run

variable {e : Engine}

/-- The call of a request for a database. -/
def request (existing : Bool) (config : DatabaseRecord) : Run (Except Status Handle) :=
  if existing then openExisting config else create config

/-- A request begins with the status that is set up for it. -/
theorem run_requested {α : Type} (entry : EntryPoint) {block : Handle} (hb : block ∈ e.configBlocks)
    (rest : Run (Except Status α)) :
    (note entry .nothing >>= fun _ => takePending entry >>= fun status =>
      if status ≠ Status.success then pure (.error status)
      else checkConfigBlock block >>= fun _ => rest).run e =
      if pendingStatus e entry ≠ Status.success then
        (.ok (.error (pendingStatus e entry)), requested e entry)
      else rest.run (requested e entry) := by
  rw [run_bind, run_note]
  dsimp only
  rw [run_bind, run_takePending]
  dsimp only
  rw [run_ite]
  congr 1
  rw [run_bind, run_checkConfigBlock (by exact hb)]
  rfl

theorem run_request (existing : Bool) {config : DatabaseRecord}
    (hb : config.configBlock ∈ e.configBlocks) : (request existing config).run e =
      let status := pendingStatus e (requestEntry existing)
      let e' := requested e (requestEntry existing)
      if status ≠ Status.success then (.ok (.error status), e')
      else match verdict e.files existing config.path with
        | .error failure => (.error failure, e')
        | .ok (.error status) => (.ok (.error status), e')
        | .ok (.ok files) => (.ok (.ok e.nextHandle),
            withDatabase (settled e' existing config.path files) config.path) := by
  cases existing with
  | false =>
    refine (run_requested .create hb _).trans ?_
    dsimp only [requestEntry, Bool.false_eq_true, if_false]
    congr 1
    rw [run_bind, run_get]
    dsimp only [verdict, requested, Bool.false_eq_true, if_false]
    rw [run_bind]
    cases e.files.write config.path databaseMark with
    | error fault => rfl
    | ok files => rfl
  | true =>
    refine (run_requested .openExisting hb _).trans ?_
    dsimp only [requestEntry, if_true]
    congr 1
    rw [run_bind, run_get]
    dsimp only [verdict, requested, if_true]
    rw [run_ite]
    cases e.files.contains config.path with
    | false => rfl
    | true =>
      rw [if_neg (by simp), if_pos rfl, run_bind]
      cases e.files.read config.path with
      | error fault => rfl
      | ok content =>
        dsimp only [ofFiles]
        rw [run_pure]
        dsimp only
        rw [run_ite]
        by_cases hmark : content = databaseMark
        · rw [if_neg (not_not_intro hmark), if_pos hmark]
          rfl
        · rw [if_pos hmark, if_neg hmark]
          rfl

end Run

end FamilyStore.Engine
