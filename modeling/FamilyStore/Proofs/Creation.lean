import FamilyStore.DataFuncs.Builtin
import FamilyStore.Proofs.Opening

/-!
Creating a database destroys nothing.

A request that fails leaves all files and all records as they were. One that succeeds writes a
single file, and there was none, or an empty one; what lies elsewhere stays. This holds of paths
without a zero character. The engine reads a path only up to the first zero character, but what lies
there is not looked at before.
-/

namespace FamilyStore

/-! ## Files -/

namespace Files

variable {t t' : Files} {path : String} {content : Bytes} {place : Place}

/-- A file is written at the place of its path, where no directory is. -/
theorem exists_place_of_write (h : t.write path content = .ok t') :
    ∃ place, t.locate path = .ok place ∧ t.node? place ≠ some .directory ∧
      t' = { t with nodes := t.nodes.set place (.file content) } := by
  unfold write locateFile at h
  split at h
  · rename_i refusal heq
    exact absurd h (by simp)
  · rename_i place heq
    split at heq
    · split at heq
      · exact absurd heq (by simp)
      · exact absurd heq (by simp)
    · split at h
      · exact absurd h (by simp)
      · rename_i hnode
        exact ⟨place, heq, hnode, (Except.ok.inj h).symm⟩

theorem ne_root_of_node? (h : t.node? place ≠ some .directory) : place ≠ [] := by
  rintro rfl
  exact h rfl

/-- What lies at a place after a file was written. -/
theorem node?_write (h : t.write path content = .ok t') (hl : t.locate path = .ok place) :
    t'.node? place = some (.file content) ∧ ∀ q, q ≠ place → t'.node? q = t.node? q := by
  obtain ⟨p, hp, hnode, rfl⟩ := exists_place_of_write h
  obtain rfl := Except.ok.inj (hl.symm.trans hp)
  have hroot := ne_root_of_node? hnode
  unfold node?
  refine ⟨?_, fun q hq => ?_⟩
  · rw [if_neg hroot]
    exact Table.get?_set_self _ _ _
  · dsimp only
    rw [Table.get?_set_ne _ hq]

theorem find_eq (hl : t.locate path = .ok place) {node : Node} (hn : t.node? place = some node) :
    t.find path = .ok node := by
  unfold find
  rw [hl]
  dsimp only
  rw [hn]

/-- A path without a zero character leads to the entry at its place. -/
theorem contains_of_node (hz : hasZero path = false) (hl : t.locate path = .ok place) {node : Node}
    (hn : t.node? place = some node) : t.contains path = true := by
  unfold contains
  rw [hz, find_eq hl hn]
  rfl

theorem sizeAt_file (hl : t.locate path = .ok place) (hn : t.node? place = some (.file content)) :
    t.sizeAt path = content.length := by
  unfold sizeAt
  rw [find_eq hl hn]

end Files

/-! ## The engine -/

namespace Engine

variable {e e' : Engine}

/-- No file, no store and no record changes. -/
structure Intact (e e' : Engine) : Prop where
  files : e'.files = e.files
  stores : e'.stores = e.stores
  records : e'.records = e.records

instance : Frame Intact where
  refl _ := ⟨rfl, rfl, rfl⟩
  trans h h' := ⟨h'.files.trans h.files, h'.stores.trans h.stores, h'.records.trans h.records⟩

/-- The file at a path is written anew, and the path has no records yet. -/
structure Initialises (path : String) (e e' : Engine) : Prop where
  files : e.files.write path Run.databaseMark = .ok e'.files
  stores : e'.stores = e.stores.set path .empty
  records : e'.records = e.records

theorem Initialises.after {path : String} {e'' : Engine} (h : Intact e e')
    (hi : Initialises path e' e'') : Initialises path e e'' where
  files := by
    rw [← h.files]
    exact hi.files
  stores := by
    rw [← h.stores]
    exact hi.stores
  records := hi.records.trans h.records

/-- What a request to create a database means for files and records. -/
inductive Creates (path : String) (e : Engine) :
    Except Failure (Except Status Handle) × Engine → Prop
  | failed {e' : Engine} (failure : Failure) (h : Intact e e') : Creates path e (.error failure, e')
  | status {e' : Engine} (status : Status) (h : Intact e e') :
      Creates path e (.ok (.error status), e')
  | initialised {e' : Engine} {h : Handle} (hi : Initialises path e e') :
      Creates path e (.ok (.ok h), e')

namespace Run

theorem intact_configDeinit (h : Handle) : Within Intact (configDeinit h) := by
  have hnote : Within Intact (note .configDeinit (.handle h)) :=
    Within.modify fun _ => ⟨rfl, rfl, rfl⟩
  refine Within.bind hnote fun _ => Within.get_bind fun e => ?_
  rw [run_ite]
  split
  · exact Frame.refl e
  · exact ⟨rfl, rfl, rfl⟩

theorem creates_create (config : DatabaseRecord) (hb : config.configBlock ∈ e.configBlocks) :
    Creates config.path e ((create config).run e) := by
  unfold create
  rw [run_bind, run_note]
  dsimp only
  rw [run_bind, run_takePending]
  dsimp only
  rw [run_ite]
  split
  · exact .status _ ⟨rfl, rfl, rfl⟩
  · rw [run_bind, run_checkConfigBlock (by exact hb)]
    dsimp only
    rw [run_bind, run_get]
    dsimp only
    rw [run_bind]
    cases hw : e.files.write config.path databaseMark with
    | error fault => exact .failed _ ⟨rfl, rfl, rfl⟩
    | ok files =>
      have hthere : (e.stores.set config.path .empty).contains config.path = true := by
        rw [Table.contains, Table.get?_set_self]
        rfl
      refine .initialised ⟨hw, ?_, rfl⟩
      show (if (e.stores.set config.path .empty).contains config.path
        then e.stores.set config.path .empty else _) = _
      rw [if_pos hthere]

end Run

end Engine

/-! ## The store -/

namespace Store

variable {s : Store}

/-- A request with a settled path and sizes. -/
theorem Run.ask_creates (b : DatabaseId) (d : Database) (text : String) (sizes : Sizes) :
    (∃ t, (ask b d text sizes false).run s = (.ok (), t) ∧
      Engine.Initialises (Files.upToZero text) s.engine t.engine) ∨
    ∃ failure t, (ask b d text sizes false).run s = (.error failure, t) ∧
      Engine.Intact s.engine t.engine := by
  have hmem : s.engine.nextHandle ∈ s.engine.withBlock.configBlocks :=
    List.mem_append_right _ (List.mem_singleton.2 rfl)
  have hblock : Engine.Intact s.engine s.engine.withBlock := ⟨rfl, rfl, rfl⟩
  have hcall := Engine.Run.creates_create (databaseRecord text sizes s.engine.nextHandle) hmem
  unfold ask
  rw [run_bind, run_engine, Engine.Run.run_configInit]
  dsimp only
  rw [run_bind, run_engine, if_neg Bool.false_ne_true]
  dsimp only
  generalize (Engine.Run.create (databaseRecord text sizes s.engine.nextHandle)).run
    s.engine.withBlock = answer at hcall ⊢
  cases hcall with
  | failed failure h => exact .inr ⟨_, _, rfl, Frame.trans hblock h⟩
  | @status e' status h =>
    have hdeinit := Engine.Run.intact_configDeinit s.engine.nextHandle e'
    dsimp only
    rw [run_bind, run_engine]
    dsimp only
    generalize (Engine.Run.configDeinit s.engine.nextHandle).run e' = answer at hdeinit ⊢
    have hall : Engine.Intact s.engine answer.2 := Frame.trans hblock (Frame.trans h hdeinit)
    obtain ⟨r, e''⟩ := answer
    cases r with
    | error failure => exact .inr ⟨_, _, rfl, hall⟩
    | ok _ => exact .inr ⟨_, _, rfl, hall⟩
  | initialised hi => exact .inl ⟨_, rfl, hi.after hblock⟩

/-- Where a text aims at: the settings count first, then what lies at the path. -/
theorem aim_text (files : Files) (path : String) (settings : Settings) (existing : Bool) :
    aim files (.str path) settings existing = settings.validate >>= fun sizes =>
      checkedPlace files (.text (Files.absolutePath files.home path)) existing >>= fun _ =>
        .ok (Files.absolutePath files.home path, sizes) := by
  unfold aim
  cases settings.validate with
  | error failure => rfl
  | ok sizes => rfl

/-- Only a text aims at anything. -/
theorem aim_eq_ok {files : Files} {path : Value} {settings : Settings} {existing : Bool}
    {text : String} {sizes : Sizes} (h : aim files path settings existing = .ok (text, sizes)) :
    ∃ p, path = .str p ∧ text = Files.absolutePath files.home p ∧
      checkedPlace files (.text text) existing = .ok () := by
  obtain ⟨_, -, h⟩ := exists_of_bind_ok h
  obtain ⟨argument, hargument, h⟩ := exists_of_bind_ok h
  obtain ⟨_, hc, h⟩ := exists_of_bind_ok h
  obtain ⟨text', ht, h⟩ := exists_of_bind_ok h
  obtain ⟨rfl, -⟩ := Prod.mk.inj (Except.ok.inj h)
  unfold PathArgument.ofValue at hargument
  split at hargument
  · rename_i p haim
    obtain rfl := Except.ok.inj hargument
    obtain rfl := Except.ok.inj ht
    exact ⟨p, rfl, rfl, hc⟩
  · obtain rfl := Except.ok.inj hargument
    exact absurd ht (by simp [PathArgument.absolute, Run.engineText])
  · exact absurd hargument (by simp)

variable {files : Files} {text : String} {place : Files.Place}

/-- A file with bytes is in the way. -/
theorem checkedPlace_of_bytes (hz : Files.hasZero text = false)
    (hl : files.locate text = .ok place) {byte : UInt8} {bytes : Bytes}
    (hn : files.node? place = some (.file (byte :: bytes))) :
    checkedPlace files (.text text) false = .error (.store (.databaseExists text)) := by
  have hfound : (PathArgument.text text).inFiles?.filter files.contains = some text := by
    show (some text).filter files.contains = some text
    rw [Option.filter_some, if_pos (Files.contains_of_node hz hl hn)]
  unfold checkedPlace
  rw [hfound]
  dsimp only
  rw [if_neg (by simp), if_pos]
  · rfl
  · show (!false && decide (0 < files.sizeAt text)) = true
    rw [Files.sizeAt_file hl hn]
    simp

/-- Where nothing is in the way, there is nothing, or an empty file. -/
theorem node?_of_checkedPlace (hz : Files.hasZero text = false)
    (hc : checkedPlace files (.text text) false = .ok ()) (hl : files.locate text = .ok place)
    (hd : files.node? place ≠ some .directory) :
    files.node? place = none ∨ files.node? place = some (.file []) := by
  cases hn : files.node? place with
  | none => exact .inl rfl
  | some node =>
    cases node with
    | directory => exact absurd hn hd
    | file content =>
      cases content with
      | nil => exact .inr rfl
      | cons byte bytes =>
        rw [checkedPlace_of_bytes hz hl hn] at hc
        exact absurd hc (by simp)

/-- What a request to create a database comes to. -/
inductive CreationAsked (s : Store) (path : Value) (settings : Settings) :
    Except Failure DatabaseId × Store → Prop
  /-- The settings or the path are no good, or something is in the way. -/
  | refused {t : Store} {failure : Failure}
      (ha : aim s.engine.files path settings false = .error failure)
      (h : Engine.Intact s.engine t.engine) : CreationAsked s path settings (.error failure, t)
  /-- The engine was asked, in vain. -/
  | failed {t : Store} (failure : Failure) {target : String × Sizes}
      (ha : aim s.engine.files path settings false = .ok target)
      (h : Engine.Intact s.engine t.engine) : CreationAsked s path settings (.error failure, t)
  | created {t : Store} {target : String × Sizes}
      (ha : aim s.engine.files path settings false = .ok target)
      (hi : Engine.Initialises (Files.upToZero target.1) s.engine t.engine) :
      CreationAsked s path settings (.ok s.databases.size, t)

theorem Run.connect_asked (s : Store) (path : Value) (settings : Settings) :
    CreationAsked s path settings ((connect path settings false).run s) := by
  have hd : s.withFresh.databases.get? s.databases.size = some ⟨.fresh, none, 0⟩ :=
    Table.get?_set_self _ _ _
  have hfiles : s.withFresh.engine.files = s.engine.files := rfl
  rw [connect_eq, run_start hd rfl, hfiles]
  cases ha : aim s.engine.files path settings false with
  | error failure => exact .refused ha ⟨rfl, rfl, rfl⟩
  | ok target =>
    dsimp only
    rcases ask_creates (s := s.withFresh) s.databases.size ⟨.fresh, none, 0⟩ target.1 target.2 with
      ⟨t, hrun, hi⟩ | ⟨failure, t, hrun, hintact⟩
    · rw [hrun]
      exact .created ha hi
    · rw [hrun]
      exact .failed failure ha hintact

/-- A request to create a database that fails leaves all files and records. One that succeeds writes
one file, and all other places and the records of all other paths stay. Unless the path has a zero
character, there was no such file before, or it was empty; a file with bytes there makes the request
fail, if the settings are good. -/
theorem create_destroys_nothing (s : Store) (path : Value) (settings : Settings) :
    let t := s.perform (.connect path settings false)
    (∀ failure, t.1 = .error failure → Engine.Intact s.engine t.2.engine) ∧
    (∀ reply, t.1 = .ok reply → ∃ p text place, path = .str p ∧
      text = Files.absolutePath s.engine.files.home p ∧
      s.engine.files.locate (Files.upToZero text) = .ok place ∧
      (Files.hasZero text = false →
        s.engine.files.node? place = none ∨ s.engine.files.node? place = some (.file [])) ∧
      (∀ q, q ≠ place → t.2.engine.files.node? q = s.engine.files.node? q) ∧
      (∀ q, q ≠ Files.upToZero text → t.2.engine.stores.get? q = s.engine.stores.get? q) ∧
      t.2.engine.records = s.engine.records) ∧
    ∀ p text place byte bytes sizes, path = .str p →
      text = Files.absolutePath s.engine.files.home p → Files.hasZero text = false →
      settings.validate = .ok sizes → s.engine.files.locate text = .ok place →
      s.engine.files.node? place = some (.file (byte :: bytes)) →
      t.1 = .error (.store (.databaseExists text)) := by
  intro t
  have hasked := Run.connect_asked s path settings
  have hrun : t = _ := run_map _ _ s
  rw [hrun]
  generalize (Run.connect path settings false).run s = answer at hasked
  -- A file with bytes stops the request before the engine is asked, which leaves one of the cases.
  have hway : ∀ {p text place byte bytes sizes}, path = .str p →
      text = Files.absolutePath s.engine.files.home p → Files.hasZero text = false →
      settings.validate = .ok sizes → s.engine.files.locate text = .ok place →
      s.engine.files.node? place = some (.file (byte :: bytes)) →
      aim s.engine.files path settings false = .error (.store (.databaseExists text)) := by
    rintro p text place byte bytes sizes rfl rfl hz hv hl hn
    rw [aim_text, hv, checkedPlace_of_bytes hz hl hn]
    rfl
  cases hasked with
  | refused ha h =>
    refine ⟨fun _ _ => h, fun _ hok => absurd hok (by simp [Except.map]), ?_⟩
    intro p text place byte bytes sizes hp ht hz hv hl hn
    rw [hway hp ht hz hv hl hn] at ha
    exact congrArg Except.error (Except.error.inj ha).symm
  | failed failure ha h =>
    refine ⟨fun _ _ => h, fun _ hok => absurd hok (by simp [Except.map]), ?_⟩
    intro p text place byte bytes sizes hp ht hz hv hl hn
    rw [hway hp ht hz hv hl hn] at ha
    exact absurd ha (by simp)
  | @created t target ha hi =>
    refine ⟨fun _ herr => absurd herr (by simp [Except.map]), fun _ _ => ?_, ?_⟩
    · obtain ⟨p, hp, ht, hc⟩ := aim_eq_ok ha
      obtain ⟨place, hl, hd, -⟩ := Files.exists_place_of_write hi.files
      refine ⟨p, target.1, place, hp, ht, hl, fun hz => ?_, ?_, fun q hq => ?_, hi.records⟩
      · rw [Files.upToZero_eq_self hz] at hl
        exact node?_of_checkedPlace hz hc hl hd
      · exact (Files.node?_write hi.files hl).2
      · show t.engine.stores.get? q = _
        rw [hi.stores]
        exact Table.get?_set_ne _ hq _
    · intro p text place byte bytes sizes hp ht hz hv hl hn
      rw [hway hp ht hz hv hl hn] at ha
      exact absurd ha (by simp)

/-- A database with one record, whose handles are closed. -/
def leaveOne : List Operation :=
  [.connect (.str "db") .defaults false,
    .createFamily 0 (.ofInstance (DataFuncs.Builtin.funcs .default)) .null,
    .point 0 (.insert (.bytes [97]) (.bytes [1])), .closeFamily 0, .closeDatabase 0]

/-- A store with one record in it, on which nobody has a handle. -/
def oneLeft : Store := (Store.initial (.empty "/")).after leaveOne

/-- A database that exists is in the way of another one. -/
theorem database_in_the_way :
    (oneLeft.perform (.connect (.str "./db/") .defaults false)).1 =
      .error (.store (.databaseExists "/db")) := by
  have hl : (oneLeft.engine.files.locate "/db").toOption = some ["db"] := by decide +kernel
  have hn : oneLeft.engine.files.node? ["db"] = some (.file Engine.Run.databaseMark) := by
    decide +kernel
  have hp : "/db" = Files.absolutePath oneLeft.engine.files.home "./db/" := by decide +kernel
  have hz : Files.hasZero "/db" = false := by decide +kernel
  obtain ⟨-, -, hway⟩ := create_destroys_nothing oneLeft (.str "./db/") .defaults
  exact hway "./db/" "/db" ["db"] _ _ _ rfl hp hz rfl (eq_ok_of_toOption hl) hn

/-- A path with a zero character hides the database that the engine then destroys: its records are
gone, although nothing was closed or removed. -/
theorem zero_hides_database :
    (oneLeft.engine.files.node? ["db"] = some (.file Engine.Run.databaseMark) ∧
      (oneLeft.engine.stores.get? "/db").map Table.size = some 1) ∧
    (oneLeft.perform (.connect (.str "db\x00x") .defaults false)).1.toOption.isSome = true ∧
    ((oneLeft.perform (.connect (.str "db\x00x") .defaults false)).2.engine.stores.get? "/db").map
      Table.size = some 0 := by
  decide +kernel

end Store

end FamilyStore
