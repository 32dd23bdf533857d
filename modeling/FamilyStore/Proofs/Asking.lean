import FamilyStore.Proofs.Accounts.Databases
import FamilyStore.Proofs.Engine.Requests

/-!
What asking the engine for a database comes to, as an equation.

Of the files, the stores and the handles that exist, only the ones that the answer names change. A
status gives the configuration block back, and the engine then has the blocks that it had before.
-/

namespace FamilyStore

/-- What the engine answers a request: the status that is set up for it, or what the files say. -/
def Engine.answer (e : Engine) (existing : Bool) (path : String) :
    Except Failure (Except Status Files) :=
  let status := Run.pendingStatus e (requestEntry existing)
  if status ≠ Status.success then .ok (.error status) else verdict e.files existing path

namespace Store

/-- What the engine is asked for. -/
def requestTask (existing : Bool) : EngineTask := if existing then .openExisting else .create

/-- The engine when a request for a database has taken the status that is set up for it. -/
def petitioned (s : Store) (existing : Bool) : Engine :=
  Engine.Run.requested s.engine.withBlock (Engine.requestEntry existing)

/-- The handle with a database that has been created or opened. -/
def opened (s : Store) (b : DatabaseId) (d : Database) (text : String) (sizes : Sizes)
    (existing : Bool) (files : Files) : Store :=
  let e := Engine.settled (s.petitioned existing) existing (Files.upToZero text) files
  { s with
    engine := Engine.withDatabase e (Files.upToZero text)
    databases := s.databases.set b
      { d with phase := .opened e.nextHandle s.engine.nextHandle, site := some ⟨text, sizes⟩ }
    log := (if existing then .databaseOpened text else .databaseCreated text) :: s.log }

namespace Run

variable {s : Store} {b : DatabaseId}

theorem run_ask (b : DatabaseId) (d : Database) (text : String) (sizes : Sizes) (existing : Bool)
    (s : Store) : (ask b d text sizes existing).run s =
      match s.engine.answer existing (Files.upToZero text) with
      | .error failure => (.error failure, { s with engine := s.petitioned existing })
      | .ok (.error status) => (.error (statusFailure (requestTask existing) status),
          { s with engine := (s.petitioned existing).withoutBlock s.engine.nextHandle })
      | .ok (.ok files) => (.ok (), s.opened b d text sizes existing files) := by
  have hmem : s.engine.nextHandle ∈ s.engine.withBlock.configBlocks :=
    List.mem_append_right _ (List.mem_singleton.2 rfl)
  have hblock : (databaseRecord text sizes s.engine.nextHandle).configBlock ∈
    s.engine.withBlock.configBlocks := hmem
  have hcall := Engine.Run.run_request existing hblock
  have hdeinit : (Engine.Run.configDeinit s.engine.nextHandle).run (s.petitioned existing) = _ :=
    Engine.Run.run_configDeinit hmem
  unfold ask
  rw [run_bind, run_engine, Engine.Run.run_configInit]
  dsimp only
  rw [run_bind, run_engine]
  have hchoice : (if existing then Engine.Run.openExisting else Engine.Run.create)
      (databaseRecord text sizes s.engine.nextHandle) =
      Engine.Run.request existing (databaseRecord text sizes s.engine.nextHandle) := by
    cases existing with
    | false => rfl
    | true => rfl
  dsimp only
  rw [hchoice, hcall]
  have hrefuse : ∀ status, ((do
      engine (Engine.Run.configDeinit s.engine.nextHandle)
      throw (statusFailure (requestTask existing) status) : Run Unit)).run
        { s with engine := s.petitioned existing } =
      (.error (statusFailure (requestTask existing) status),
        { s with engine := (s.petitioned existing).withoutBlock s.engine.nextHandle }) := by
    intro status
    rw [run_bind, run_engine, hdeinit]
    rfl
  have hstatus : Engine.Run.pendingStatus s.engine.withBlock (Engine.requestEntry existing) =
    Engine.Run.pendingStatus s.engine (Engine.requestEntry existing) := rfl
  have hfiles : s.engine.withBlock.files = s.engine.files := rfl
  unfold Engine.answer
  dsimp only [databaseRecord]
  rw [hstatus, hfiles]
  by_cases hp : Engine.Run.pendingStatus s.engine (Engine.requestEntry existing) = Status.success
  · rw [if_neg (not_not_intro hp), if_neg (not_not_intro hp)]
    cases Engine.verdict s.engine.files existing (Files.upToZero text) with
    | error failure => rfl
    | ok result =>
      cases result with
      | error status => exact hrefuse status
      | ok files => rfl
  · rw [if_pos hp, if_pos hp]
    exact hrefuse _

end Run

theorem Reachable.exists_balanced {s : Store} (h : Reachable s) :
    ∃ lost, DatabasesBalanced s ∧ BlocksBalanced s lost := by
  induction h with
  | initial files => exact ⟨0, databasesBalanced_initial files, blocksBalanced_initial files⟩
  | step op hs ih =>
    obtain ⟨lost, hdatabases, hblocks⟩ := ih
    exact ⟨_, databases_perform hs.founded hdatabases hblocks op⟩

/-- The next handle of the engine is no configuration block. -/
theorem Reachable.fresh {s : Store} (h : Reachable s) :
    s.engine.nextHandle ∉ s.engine.configBlocks := by
  obtain ⟨_, -, hblocks⟩ := h.exists_balanced
  exact hblocks.fresh

end Store

end FamilyStore
