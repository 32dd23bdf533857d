import FamilyStore.Proofs.Accounts.SameCounts
import FamilyStore.Proofs.Founded
import FamilyStore.Proofs.Plain

/-!
Creating and opening databases.

Before the engine is asked for anything, the settings, the path and what lies at it are looked at;
that does nothing. Then a configuration block is made and the engine is asked for the database. A
status gives the block back; a failure of the file system does not.
-/

namespace FamilyStore

/-- Whether a failure comes from the file system. -/
def Failure.isFault : Failure → Bool
  | .file _ => true
  | _ => false

/-- A result is no failure of the file system. -/
def Faultless {α : Type} (r : Except Failure α) : Prop :=
  ∀ failure, r = .error failure → failure.isFault = false

theorem Failure.isFault_of_isPlain {failure : Failure} (h : failure.isPlain = true) :
    failure.isFault = false := by
  cases failure with
  | argument | store => rfl
  | ini | file | misuse | raised | libraryMissing => exact absurd h Bool.false_ne_true

theorem Plain.faultless {α : Type} {r : Except Failure α} (h : Plain r) : Faultless r :=
  fun failure heq => Failure.isFault_of_isPlain (h failure heq)

namespace Store

/-- What lies at a path: nothing may be missing for opening, and no file with bytes may be in the
way of creating. -/
def checkedPlace (files : Files) (path : PathArgument) (existing : Bool) : Except Failure Unit :=
  let found := path.inFiles?.filter files.contains
  if existing && found.isNone then .error (.store (.databaseNotFound path.shown))
  else if !existing && found.any fun place => 0 < files.sizeAt place then
    .error (.store (.databaseExists path.shown))
  else .ok ()

/-- Where a database is to lie and which sizes it is to have. -/
def aim (files : Files) (path : Value) (settings : Settings) (existing : Bool) :
    Except Failure (String × Sizes) := do
  let sizes ← settings.validate
  let path := (← PathArgument.ofValue path).absolute files.home
  checkedPlace files path existing
  let text ← Run.engineText path
  return (text, sizes)

theorem plain_aim (files : Files) (path : Value) (settings : Settings) (existing : Bool) :
    Plain (aim files path settings existing) := by
  refine .bind settings.plain_validate fun sizes => ?_
  refine .bind (PathArgument.plain_ofValue path) fun p => .bind ?_ fun _ => ?_
  · unfold checkedPlace
    dsimp only
    split
    · exact .error rfl
    · split
      · exact .error rfl
      · exact .ok _
  · exact .bind (Run.plain_engineText _) fun text => .ok _

namespace Run

variable {s : Store} {b : DatabaseId} {d : Database}

theorem run_checkPlace (path : PathArgument) (existing : Bool) (s : Store) :
    (checkPlace path existing).run s = (checkedPlace s.engine.files path existing, s) := by
  unfold checkPlace checkedPlace
  rw [run_bind, run_get]
  dsimp only
  rw [run_ite]
  split
  · rfl
  · rw [run_ite]
    split
    · rfl
    · rfl

/-- Asks the engine for the database of a handle. -/
def ask (b : DatabaseId) (d : Database) (text : String) (sizes : Sizes) (existing : Bool) :
    Run Unit := do
  let block ← engine Engine.Run.configInit
  let config := databaseRecord text sizes block
  let call := if existing then Engine.Run.openExisting else Engine.Run.create
  let result ← engine (call config)
  match result with
  | .error status =>
    engine (Engine.Run.configDeinit block)
    throw (statusFailure (if existing then .openExisting else .create) status)
  | .ok handle =>
    setDatabase b { d with phase := .opened handle block, site := some ⟨text, sizes⟩ }
    note [if existing then .databaseOpened text else .databaseCreated text]

/-- A fresh handle is opened where its path aims at. -/
theorem run_start (hd : s.databases.get? b = some d) (hp : d.phase = .fresh) (path : Value)
    (settings : Settings) (existing : Bool) : (start b path settings existing).run s =
      match aim s.engine.files path settings existing with
      | .error failure => (.error failure, s)
      | .ok (text, sizes) => (ask b d text sizes existing).run s := by
  unfold start aim
  rw [run_bind, run_database hd]
  dsimp only
  rw [run_ite, if_neg (not_not_intro hp), run_bind, run_ofExcept]
  cases settings.validate with
  | error failure => rfl
  | ok sizes =>
    dsimp only
    rw [run_bind, run_ofExcept]
    cases PathArgument.ofValue path with
    | error failure => rfl
    | ok p =>
      dsimp only
      rw [run_bind, run_get]
      dsimp only
      rw [run_bind, run_checkPlace]
      cases hc : checkedPlace s.engine.files (p.absolute s.engine.files.home) existing with
      | error failure =>
        show _ = match (checkedPlace s.engine.files (p.absolute s.engine.files.home) existing >>=
          fun _ => _ : Except Failure (String × Sizes)) with
          | .error failure => _
          | .ok (text, sizes) => _
        rw [hc]
        rfl
      | ok _ =>
        dsimp only
        rw [run_bind, run_ofExcept]
        show _ = match (checkedPlace s.engine.files (p.absolute s.engine.files.home) existing >>=
          fun _ => _ : Except Failure (String × Sizes)) with
          | .error failure => _
          | .ok (text, sizes) => _
        rw [hc]
        cases engineText (p.absolute s.engine.files.home) with
        | error failure => rfl
        | ok text => rfl

end Run

/-- What asking the engine for the database of a handle comes to. -/
inductive Asked (b : DatabaseId) (s : Store) : Except Failure Unit × Store → Prop
  /-- A status: the configuration block is given back. -/
  | refused {t : Store} {failure : Failure} (hn : failure.isFault = false)
      (hl : SameCounts [] s t) : Asked b s (.error failure, t)
  /-- A failure of the file system: the block stays. -/
  | faulted {t : Store} (fault : Files.Fault) (hl : SameCounts [.blocks] s t)
      (hb : t.engine.configBlocks = s.engine.configBlocks ++ [s.engine.nextHandle])
      (hn : s.engine.nextHandle < t.engine.nextHandle) :
      Asked b s (.error (.file fault), t)
  /-- A database, for a handle that was fresh. -/
  | opened {t : Store} {d d' : Database} {h : Engine.Handle} (hd : s.databases.get? b = some d)
      (hp : d.phase = .fresh) (ho : Engine.Opens h s.engine.withBlock t.engine)
      (hd' : t.databases = s.databases.set b d') (hp' : d'.phase = .opened h s.engine.nextHandle)
      (hs : d'.site.isSome = true) : Asked b s (.ok (), t)

namespace Run

theorem ask_asked (hd : s.databases.get? b = some d) (hp : d.phase = .fresh)
    (hfresh : s.engine.nextHandle ∉ s.engine.configBlocks) (text : String) (sizes : Sizes)
    (existing : Bool) : Asked b s ((ask b d text sizes existing).run s) := by
  have hmem : s.engine.nextHandle ∈ s.engine.withBlock.configBlocks :=
    List.mem_append_right _ (List.mem_singleton.2 rfl)
  have hcall : Engine.Answers s.engine.withBlock
      (((if existing then Engine.Run.openExisting else Engine.Run.create)
        (databaseRecord text sizes s.engine.nextHandle)).run s.engine.withBlock) := by
    cases existing with
    | true => exact Engine.Run.openExisting_answers hmem
    | false => exact Engine.Run.create_answers hmem
  unfold ask
  rw [run_bind, run_engine, Engine.Run.run_configInit]
  dsimp only
  rw [run_bind, run_engine]
  dsimp only
  generalize ((if existing then Engine.Run.openExisting else Engine.Run.create)
    (databaseRecord text sizes s.engine.nextHandle)).run s.engine.withBlock = answer at hcall ⊢
  have hblock := Engine.Run.sameResources_withBlock s.engine
  cases hcall with
  | fault fault he =>
    refine .faulted fault (SameCounts.of_engine (Frame.trans hblock he.of_nil) rfl rfl rfl) ?_ ?_
    · exact (he.same .blocks List.not_mem_nil).use
    · exact Nat.lt_of_lt_of_le (Nat.lt_add_of_pos_right (by decide)) he.nextHandle
  | status status he =>
    have hsame := (he.same .blocks List.not_mem_nil).use
    dsimp only
    rw [run_bind, run_engine, Engine.Run.run_configDeinit (by rw [hsame]; exact hmem)]
    refine .refused (Failure.isFault_of_isPlain (isPlain_statusFailure _ status))
      (SameCounts.of_engine ?_ rfl rfl rfl)
    have hall : Engine.SameResources [.blocks] s.engine _ :=
      Frame.trans (Frame.trans hblock he.of_nil)
        (Engine.Run.sameResources_withoutBlock _ s.engine.nextHandle)
    refine ⟨hall.nextHandle, fun r _ => ?_, hall.accumulators⟩
    by_cases hr : r = .blocks
    · subst hr
      refine ⟨?_, fun entry hm => absurd hm (by simp [Engine.Resource.entries])⟩
      show List.filter _ _ = s.engine.configBlocks
      rw [hsame]
      exact Engine.Run.filter_blocks hfresh
    · exact hall.same r (by simpa using hr)
  | opens ho => exact .opened hd hp ho rfl rfl rfl

theorem start_asked (hfresh : s.engine.nextHandle ∉ s.engine.configBlocks) (b : DatabaseId)
    (path : Value) (settings : Settings) (existing : Bool) :
    Asked b s ((start b path settings existing).run s) := by
  cases hd : s.databases.get? b with
  | none =>
    unfold start
    rw [run_bind, run_database_none hd]
    exact .refused rfl (Frame.refl s)
  | some d =>
    by_cases hp : d.phase = .fresh
    · rw [run_start hd hp]
      have hno := (plain_aim s.engine.files path settings existing).faultless
      cases haim : aim s.engine.files path settings existing with
      | error failure => exact .refused (hno failure haim) (Frame.refl s)
      | ok target => exact ask_asked hd hp hfresh target.1 target.2 existing
    · unfold start
      rw [run_bind, run_database hd]
      dsimp only
      rw [run_ite, if_pos hp]
      exact .refused rfl (Frame.refl s)

/-- A handle whose database cannot be opened is taken back. -/
theorem connect_eq (s : Store) (path : Value) (settings : Settings) (existing : Bool) :
    (connect path settings existing).run s =
      match (start s.databases.size path settings existing).run s.withFresh with
      | (.ok _, t) => (.ok s.databases.size, t)
      | (.error failure, t) =>
        (.error failure, { t with databases := t.databases.erase s.databases.size }) := by
  unfold connect
  rw [run_bind, run_newDatabase]
  dsimp only
  rw [run_bind, run_outcome]
  cases (start s.databases.size path settings existing).run s.withFresh with
  | mk r t =>
    cases r with
    | ok _ => rfl
    | error failure => rfl

end Run

/-- What a new handle on a database comes to. -/
inductive Connected (s : Store) : Except Failure DatabaseId × Store → Prop
  | refused {t : Store} {failure : Failure} (hn : failure.isFault = false)
      (hl : SameCounts [] s t) : Connected s (.error failure, t)
  | faulted {t : Store} (fault : Files.Fault) (hl : SameCounts [.blocks] s t)
      (hb : t.engine.configBlocks = s.engine.configBlocks ++ [s.engine.nextHandle])
      (hn : s.engine.nextHandle < t.engine.nextHandle) :
      Connected s (.error (.file fault), t)
  | opened {t : Store} (h : Asked s.databases.size s.withFresh (.ok (), t)) :
      Connected s (.ok s.databases.size, t)

namespace Run

theorem connect_connected (hn : s.databases.Numbered)
    (hfresh : s.engine.nextHandle ∉ s.engine.configBlocks) (path : Value) (settings : Settings)
    (existing : Bool) : Connected s ((connect path settings existing).run s) := by
  have hback : ∀ {parts t}, SameCounts parts s.withFresh t → .databases ∉ parts →
      SameCounts parts s { t with databases := t.databases.erase s.databases.size } := by
    intro parts t hl hp
    refine ⟨hl.engine, fun _ => ?_, hl.families, hl.iterators⟩
    show t.databases.erase s.databases.size = s.databases
    rw [hl.databases hp]
    exact Table.erase_set_of_none hn.get?_size _
  have hasked : Asked s.databases.size s.withFresh
      ((start s.databases.size path settings existing).run s.withFresh) :=
    start_asked (by exact hfresh) _ path settings existing
  rw [connect_eq]
  generalize (start s.databases.size path settings existing).run s.withFresh = answer at hasked ⊢
  cases hasked with
  | refused hno hl => exact .refused hno (hback hl List.not_mem_nil)
  | faulted fault hl hb hnext => exact .faulted fault (hback hl (by simp)) hb hnext
  | opened hd hp ho hd' hp' hs => exact .opened (.opened hd hp ho hd' hp' hs)

end Run

end Store

end FamilyStore
