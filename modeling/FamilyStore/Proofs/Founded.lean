import FamilyStore.Proofs.SameFamilies
import FamilyStore.Proofs.Engine.Growth
import FamilyStore.Proofs.Engine.Points
import FamilyStore.Proofs.Handles

/-!
What family handles and database handles stand on.

An open database handle has an open database of the engine, which is its own. An open family handle
has a family of the engine, which is its own too, has the configuration of the handle, and belongs
to the database of the handle. All operations keep this up, and each changes the records of one
place at the most, and these under one key.
-/

namespace FamilyStore.Store

/-- Database and family handles have what they stand for in the engine, each its own. -/
structure Founded (s : Store) : Prop where
  housed : Engine.Housed s.engine
  databases : s.databases.Numbered
  opened : ∀ {b d h k}, s.databases.get? b = some d → d.phase = .opened h k → s.engine.IsOpen h
  apart : ∀ {b b' d d' h k k'}, s.databases.get? b = some d → s.databases.get? b' = some d' →
    d.phase = .opened h k → d'.phase = .opened h k' → b = b'
  stands : ∀ {id f fh}, s.families.get? id = some f → f.handle = some fh →
    (∃ fam, s.engine.families.get? fh = some fam ∧ fam.deleted = false ∧
      fam.config = f.config.record) ∧
    ∃ d, s.databases.get? f.database = some d ∧
      (d.phase = .closed ∨ ∃ k, d.phase = .opened fh.1 k)
  single : ∀ {id id' f f' fh}, s.families.get? id = some f → s.families.get? id' = some f' →
    f.handle = some fh → f'.handle = some fh → id = id'

theorem founded_initial (files : Files) : Founded (Store.initial files) where
  housed := Engine.housed_initial files
  databases := Table.numbered_empty
  opened h := absurd h (by simp [Store.initial, Table.get?_empty])
  apart h := absurd h (by simp [Store.initial, Table.get?_empty])
  stands h := absurd h (by simp [Store.initial, Table.get?_empty])
  single h := absurd h (by simp [Store.initial, Table.get?_empty])

/-- The stores of the engine have the records that they had, but for one key at the most. -/
def Edits (s s' : Store) : Prop :=
  ∀ σ, Engine.Edit (s.engine.recordsOf σ) (s'.engine.recordsOf σ)

/-- What an operation does to handles and records. -/
structure Keeps (s s' : Store) : Prop where
  founded : Founded s'
  edits : Edits s s'

namespace Founded

variable {s s' : Store} {b : DatabaseId} {d d' : Database}

theorem edits_of_grows (hf : Founded s) (he : Engine.Grows s.engine s'.engine) : Edits s s' :=
  fun σ => by
    rw [he.records hf.housed σ]
    exact .same

/-- The engine may grow, and families may get other lists of iterators. -/
theorem grows (hf : Founded s) (he : Engine.Grows s.engine s'.engine)
    (hd : s'.databases = s.databases)
    (hfront : ∀ id, (s'.families.get? id).map Family.front =
      (s.families.get? id).map Family.front) : Founded s' := by
  have hback : ∀ {id f'}, s'.families.get? id = some f' → ∃ f, s.families.get? id = some f ∧
      f.database = f'.database ∧ f.config = f'.config ∧ f.handle = f'.handle := by
    intro id f' hf'
    have h := hfront id
    rw [hf', Option.map_some] at h
    obtain ⟨f, hget, hfr⟩ := Option.map_eq_some_iff.1 h.symm
    have hfr' := Prod.mk.inj hfr
    have hrest := Prod.mk.inj hfr'.2
    exact ⟨f, hget, hfr'.1, hrest.1, hrest.2⟩
  refine ⟨he.housed hf.housed, ?_, ?_, ?_, ?_, ?_⟩
  · rw [hd]
    exact hf.databases
  · rw [hd]
    exact fun hb hp => he.isOpen (hf.opened hb hp)
  · rw [hd]
    exact hf.apart
  · intro id f' fh hf' hh
    obtain ⟨f, hget, hdb, hconfig, hhandle⟩ := hback hf'
    obtain ⟨⟨fam, hfam, hdel, hcfg⟩, d, hdd, hphase⟩ := hf.stands hget (hhandle.trans hh)
    refine ⟨⟨fam, he.families hf.housed hfam, hdel, hcfg.trans (by rw [hconfig])⟩, d, ?_, hphase⟩
    rw [hd, ← hdb]
    exact hdd
  · intro id id' f' g' fh hf' hg' hh hh'
    obtain ⟨f, hget, -, -, hhandle⟩ := hback hf'
    obtain ⟨g, hget', -, -, hhandle'⟩ := hback hg'
    exact hf.single hget hget' (hhandle.trans hh) (hhandle'.trans hh')

theorem sameFamilies (hf : Founded s) (hc : SameFamilies s s') : Keeps s s' :=
  ⟨hf.grows hc.engine.grows hc.databases hc.families, hf.edits_of_grows hc.engine.grows⟩

/-- The database of an open family is not the last one that was made without being opened. -/
theorem database_ne (hf : Founded s) {id : FamilyId} {f : Family} {fh : Engine.FamilyHandle}
    (hget : s.families.get? id = some f) (hh : f.handle = some fh)
    (hb : ∀ d, s.databases.get? b = some d → d.phase = .fresh) : f.database ≠ b := by
  rintro rfl
  obtain ⟨-, d, hd, hphase⟩ := hf.stands hget hh
  rcases hphase with hp | ⟨k, hp⟩
  · exact absurd ((hb d hd).symm.trans hp) (by simp)
  · exact absurd ((hb d hd).symm.trans hp) (by simp)

/-- A database handle that no family stands on is replaced. -/
theorem setDatabase (hf : Founded s) (he : Engine.Grows s.engine s'.engine)
    (hn : (s.databases.set b d').Numbered) (hd : s'.databases = s.databases.set b d')
    (hfam : s'.families = s.families)
    (hb : ∀ d, s.databases.get? b = some d → d.phase = .fresh)
    (hnew : ∀ h k, d'.phase = .opened h k → s.engine.nextHandle ≤ h ∧ s'.engine.IsOpen h) :
    Founded s' := by
  have hlt : ∀ {b d h k}, s.databases.get? b = some d → d.phase = .opened h k →
      h < s.engine.nextHandle := by
    intro b d h k hget hp
    obtain ⟨c, hc, -⟩ := hf.opened hget hp
    exact hf.housed.databases hc
  refine ⟨he.housed hf.housed, ?_, ?_, ?_, ?_, ?_⟩
  · rw [hd]
    exact hn
  · intro c e h k hc hp
    rw [hd] at hc
    rcases Table.of_get?_set hc with ⟨-, rfl⟩ | ⟨-, hc⟩
    · exact (hnew h k hp).2
    · exact he.isOpen (hf.opened hc hp)
  · intro c c' e e' h k k' hc hc' hp hp'
    rw [hd] at hc hc'
    rcases Table.of_get?_set hc with ⟨heq, rfl⟩ | ⟨-, hc⟩
    · rcases Table.of_get?_set hc' with ⟨heq', -⟩ | ⟨-, hc'⟩
      · exact heq.trans heq'.symm
      · exact absurd (hlt hc' hp') (Nat.not_lt.2 (hnew h k hp).1)
    · rcases Table.of_get?_set hc' with ⟨-, rfl⟩ | ⟨-, hc'⟩
      · exact absurd (hlt hc hp) (Nat.not_lt.2 (hnew h k' hp').1)
      · exact hf.apart hc hc' hp hp'
  · intro id f fh hget hh
    rw [hfam] at hget
    obtain ⟨⟨fam, hfam', hdel, hcfg⟩, c, hc, hphase⟩ := hf.stands hget hh
    refine ⟨⟨fam, he.families hf.housed hfam', hdel, hcfg⟩, c, ?_, hphase⟩
    rw [hd, Table.get?_set_ne _ (hf.database_ne hget hh hb)]
    exact hc
  · rw [hfam]
    exact hf.single

/-- The last database handle is taken back, if no family stands on it. -/
theorem dropDatabase (hf : Founded s) (hsize : s.databases.size = b + 1)
    (hno : ∀ id f fh, s.families.get? id = some f → f.handle = some fh → f.database ≠ b) :
    Founded { s with databases := s.databases.erase b } where
  housed := hf.housed
  databases := hf.databases.erase_last hsize
  opened hc hp := by
    rw [Table.get?_erase] at hc
    split at hc
    · exact absurd hc (by simp)
    · exact hf.opened hc hp
  apart hc hc' hp hp' := by
    rw [Table.get?_erase] at hc hc'
    split at hc
    · exact absurd hc (by simp)
    · split at hc'
      · exact absurd hc' (by simp)
      · exact hf.apart hc hc' hp hp'
  stands {id f fh} hget hh := by
    obtain ⟨hfam, c, hc, hphase⟩ := hf.stands hget hh
    refine ⟨hfam, c, ?_, hphase⟩
    rw [Table.get?_erase, if_neg (hno id f fh hget hh)]
    exact hc
  single := hf.single

end Founded

/-! ## Databases -/

/-- Databases and families of the engine may be made; handles stay. -/
structure Grown (s s' : Store) : Prop where
  engine : Engine.Grows s.engine s'.engine
  databases : s'.databases = s.databases
  families : s'.families = s.families

instance : Frame Grown where
  refl _ := ⟨Frame.refl _, rfl, rfl⟩
  trans h h' :=
    { engine := Frame.trans h.engine h'.engine
      databases := h'.databases.trans h.databases
      families := h'.families.trans h.families }

theorem SameHandles.grown {s s' : Store} (h : SameHandles [] s s') : Grown s s' :=
  ⟨h.engine.grows, h.databases, h.families⟩

/-- A database handle is opened, if anything happens to handles. -/
structure Starts (b : DatabaseId) (s s' : Store) : Prop where
  engine : Engine.Grows s.engine s'.engine
  families : s'.families = s.families
  databases : s'.databases = s.databases ∨ ∃ d' h k,
    s'.databases = s.databases.set b d' ∧ d'.phase = .opened h k ∧
    s.engine.nextHandle ≤ h ∧ s'.engine.IsOpen h

theorem Grown.starts {s s' : Store} (h : Grown s s') (b : DatabaseId) :
    Starts b s s' :=
  ⟨h.engine, h.families, .inl h.databases⟩

theorem Starts.after {s s' s'' : Store} {b : DatabaseId} (h : Grown s s')
    (h' : Starts b s' s'') : Starts b s s'' where
  engine := Frame.trans h.engine h'.engine
  families := h'.families.trans h.families
  databases := by
    have hdb := h'.databases
    rw [h.databases] at hdb
    refine hdb.imp id ?_
    rintro ⟨d', g, k, hset, hp, hle, ho⟩
    exact ⟨d', g, k, hset, hp, Nat.le_trans h.engine.nextHandle hle, ho⟩

namespace Run

theorem grown_checkPlace (path : PathArgument) (existing : Bool) :
    Within Grown (checkPlace path existing) := by
  refine Within.bind Within.get fun s => Within.guard (within_fail _) ?_
  exact Within.ite (within_fail _) (Within.pure _)

/-- The end of the opening of a database. -/
theorem starts_call (b : DatabaseId) (d : Database) (existing : Bool)
    (config : Engine.DatabaseRecord) (block : Engine.Handle) (text : String) (sizes : Sizes) :
    Within (Starts b) (do
      let result ← engine
        ((if existing then Engine.Run.openExisting else Engine.Run.create) config)
      match result with
      | .error status =>
        engine (Engine.Run.configDeinit block)
        throw (statusFailure (if existing then .openExisting else .create) status)
      | .ok handle =>
        setDatabase b { d with phase := .opened handle block, site := some ⟨text, sizes⟩ }
        note [if existing then .databaseOpened text else .databaseCreated text]) := by
  intro s
  have hcall : Within Engine.Grows
      ((if existing then Engine.Run.openExisting else Engine.Run.create) config) := by
    cases existing with
    | true => exact Engine.Run.grows_openExisting config
    | false => exact Engine.Run.grows_create config
  obtain ⟨r, e', hrun⟩ : ∃ r e',
      ((if existing then Engine.Run.openExisting else Engine.Run.create) config).run s.engine =
        (r, e') := ⟨_, _, rfl⟩
  have hgrown : Grown s { s with engine := e' } := ⟨hcall.of_run hrun, rfl, rfl⟩
  rw [run_bind, run_engine, hrun]
  cases r with
  | error failure => exact hgrown.starts b
  | ok result =>
    cases result with
    | error status =>
      refine (Frame.trans hgrown (?_ : Grown _ _)).starts b
      exact Within.bind ((sameHandles_engine (Engine.Run.sameCursors_configDeinit block)).mono
        fun _ _ h => h.grown) (fun _ => Within.throw _) _
    | ok h =>
      have hopen : s.engine.nextHandle ≤ h ∧ e'.IsOpen h := by
        cases existing with
        | true => exact Engine.Run.openExisting_isOpen hrun
        | false => exact Engine.Run.create_isOpen hrun
      exact ⟨hgrown.engine, rfl, .inr ⟨_, h, block, rfl, rfl, hopen.1, hopen.2⟩⟩

/-- Opening a database is for fresh handles only. -/
theorem starts_start (b : DatabaseId) (path : Value) (settings : Settings) (existing : Bool)
    (s : Store) : Grown s ((start b path settings existing).run s).2 ∨
      ∃ d, s.databases.get? b = some d ∧ d.phase = .fresh ∧
        Starts b s ((start b path settings existing).run s).2 := by
  unfold start
  cases hd : s.databases.get? b with
  | none =>
    rw [run_bind, run_database_none hd]
    exact .inl (Frame.refl s)
  | some d =>
    rw [run_bind, run_database hd]
    dsimp only
    rw [run_ite]
    by_cases hp : d.phase = .fresh
    · rw [if_neg (not_not_intro hp)]
      refine .inr ⟨d, rfl, hp, ?_⟩
      have hthen : ∀ {α : Type} {x : Run α} {f : α → Run Unit}, Within Grown x →
          (∀ a, Within (Starts b) (f a)) → Within (Starts b) (x >>= f) := fun hx hf =>
        hx.bind_of (fun _ _ h => h.starts b) (fun _ _ _ h h' => h'.after h) hf
      refine hthen (within_ofExcept _) (fun sizes => hthen (within_ofExcept _) fun p => ?_) s
      refine hthen Within.get fun s => hthen (grown_checkPlace _ _) fun _ => ?_
      refine hthen (within_ofExcept _) fun text => ?_
      refine hthen ((sameHandles_engine Engine.Run.sameCursors_configInit).mono
        fun _ _ h => h.grown) fun block => ?_
      exact starts_call b d existing _ block text sizes
    · rw [if_pos hp]
      exact .inl (Frame.refl s)

end Run

/-- A store with a new database handle. -/
def withFresh (s : Store) : Store :=
  { s with databases := s.databases.set s.databases.size ⟨.fresh, none, 0⟩ }

namespace Founded

variable {s s' : Store} {b : DatabaseId}

theorem size_setDatabase {d : Database} (hd : s.databases.get? b = some d) (d' : Database) :
    (s.databases.set b d').size = s.databases.size := by
  rw [← Table.length_keys, Table.keys_set_of_mem (Table.mem_keys_of_get? hd), Table.length_keys]

/-- A fresh handle may be opened. -/
theorem starts (hf : Founded s) {d : Database} (hd : s.databases.get? b = some d)
    (hp : d.phase = .fresh) (h : Starts b s s') :
    Founded s' ∧ s'.databases.size = s.databases.size := by
  rcases h.databases with hsame | ⟨d', g, k, hset, hphase, hle, ho⟩
  · exact ⟨hf.grows h.engine hsame fun _ => by rw [h.families], by rw [hsame]⟩
  · refine ⟨hf.setDatabase h.engine (hf.databases.set_old hd d') hset h.families ?_ ?_, ?_⟩
    · intro c hc
      rw [← Option.some.inj (hd.symm.trans hc)]
      exact hp
    · intro g' k' hp'
      obtain ⟨rfl, -⟩ := Phase.opened.inj (hphase.symm.trans hp')
      exact ⟨hle, ho⟩
    · rw [hset, size_setDatabase hd]

/-- A new handle. -/
theorem withFresh (hf : Founded s) : Founded s.withFresh := by
  refine hf.setDatabase (Frame.refl _) (hf.databases.set_size _) rfl rfl ?_ ?_
  · intro d hd
    rw [hf.databases.get?_size] at hd
    exact absurd hd (by simp)
  · exact fun h k hp => absurd hp (by simp)

end Founded

namespace Run

variable {s : Store}

theorem keeps_start (hf : Founded s) (b : DatabaseId) (path : Value) (settings : Settings)
    (existing : Bool) : Keeps s ((start b path settings existing).run s).2 := by
  rcases starts_start b path settings existing s with hg | ⟨d, hd, hp, hs⟩
  · exact ⟨hf.grows hg.engine hg.databases fun _ => by rw [hg.families],
      hf.edits_of_grows hg.engine⟩
  · exact ⟨(hf.starts hd hp hs).1, hf.edits_of_grows hs.engine⟩

theorem run_newDatabase (s : Store) : newDatabase.run s = (.ok s.databases.size, s.withFresh) := rfl

/-- A handle whose database cannot be opened is taken back. -/
theorem run_connect {path : Value} {settings : Settings} {existing : Bool} {t : Store}
    {r : Except Failure Unit}
    (hrun : (start s.databases.size path settings existing).run s.withFresh = (r, t)) :
    (r = .ok () ∧ (connect path settings existing).run s = (.ok s.databases.size, t)) ∨
    ∃ failure, (connect path settings existing).run s =
      (.error failure, { t with databases := t.databases.erase s.databases.size }) := by
  unfold connect
  rw [run_bind, run_newDatabase]
  dsimp only
  rw [run_bind, run_outcome, hrun]
  cases r with
  | ok _ => exact .inl ⟨rfl, rfl⟩
  | error failure => exact .inr ⟨failure, rfl⟩

theorem keeps_connect (hf : Founded s) (path : Value) (settings : Settings) (existing : Bool) :
    Keeps s ((connect path settings existing).run s).2 := by
  have hnew := hf.withFresh
  have hsize : s.withFresh.databases.size = s.databases.size + 1 := hf.databases.size_set _
  obtain ⟨r, t, hrun⟩ : ∃ r t,
      (start s.databases.size path settings existing).run s.withFresh = (r, t) := ⟨_, _, rfl⟩
  have hstart : Founded t ∧ t.databases.size = s.databases.size + 1 ∧
      t.families = s.families ∧ Engine.Grows s.engine t.engine := by
    have hs := starts_start s.databases.size path settings existing s.withFresh
    rw [hrun] at hs
    rcases hs with hg | ⟨d, hd, hp, hs⟩
    · exact ⟨hnew.grows hg.engine hg.databases fun _ => by rw [hg.families],
        by rw [hg.databases]; exact hsize, hg.families, hg.engine⟩
    · obtain ⟨hf', hsize'⟩ := hnew.starts hd hp hs
      exact ⟨hf', hsize'.trans hsize, hs.families, hs.engine⟩
  obtain ⟨hf', hsize', hfam, hgrows⟩ := hstart
  rcases run_connect hrun with ⟨-, hconnect⟩ | ⟨failure, hconnect⟩
  · rw [hconnect]
    exact ⟨hf', hf.edits_of_grows hgrows⟩
  · rw [hconnect]
    refine ⟨hf'.dropDatabase hsize' fun id f fh hget hh => ?_, hf.edits_of_grows hgrows⟩
    rw [hfam] at hget
    obtain ⟨-, d, hd, -⟩ := hf.stands hget hh
    exact hf.databases.ne_size hd

end Run

/-! ## The end of a database -/

/-- A database handle is closed. The other open handles keep their databases. -/
theorem Founded.shut {s s' : Store} {b : DatabaseId} {d : Database} (hf : Founded s)
    (hd : s.databases.get? b = some d) (hh : Engine.Housed s'.engine)
    (hopen : ∀ {c e g k}, c ≠ b → s.databases.get? c = some e → e.phase = .opened g k →
      s'.engine.IsOpen g)
    (hfam : s'.engine.families = s.engine.families)
    (hdb : s'.databases = s.databases.set b { d with phase := .closed })
    (hfams : s'.families = s.families) : Founded s' where
  housed := hh
  databases := by
    rw [hdb]
    exact hf.databases.set_old hd _
  opened hc hp := by
    rw [hdb] at hc
    rcases Table.of_get?_set hc with ⟨-, rfl⟩ | ⟨hne, hc⟩
    · exact absurd hp (by simp)
    · exact hopen hne hc hp
  apart hc hc' hp hp' := by
    rw [hdb] at hc hc'
    rcases Table.of_get?_set hc with ⟨-, rfl⟩ | ⟨-, hc⟩
    · exact absurd hp (by simp)
    · rcases Table.of_get?_set hc' with ⟨-, rfl⟩ | ⟨-, hc'⟩
      · exact absurd hp' (by simp)
      · exact hf.apart hc hc' hp hp'
  stands {id f fh} hget hhandle := by
    rw [hfams] at hget
    obtain ⟨hstands, c, hc, hphase⟩ := hf.stands hget hhandle
    rw [hfam]
    refine ⟨hstands, ?_⟩
    rw [hdb, Table.get?_set]
    split
    · exact ⟨_, rfl, .inl rfl⟩
    · exact ⟨c, hc, hphase⟩
  single := by
    rw [hfams]
    exact hf.single

/-- One database of the engine may be closed; handles stay. -/
structure Shuts (h : Engine.Handle) (s s' : Store) : Prop where
  engine : Engine.Closes h s.engine s'.engine
  databases : s'.databases = s.databases
  families : s'.families = s.families

instance {h : Engine.Handle} : Frame (Shuts h) where
  refl _ := ⟨Frame.refl _, rfl, rfl⟩
  trans c c' :=
    { engine := Frame.trans c.engine c'.engine
      databases := c'.databases.trans c.databases
      families := c'.families.trans c.families }

theorem SameHandles.shuts {s s' : Store} (hs : SameHandles [] s s') (h : Engine.Handle) :
    Shuts h s s' :=
  ⟨(hs.engine.sameParts.mono (by simp)).closes h, hs.databases, hs.families⟩

namespace Run

theorem keeps_closeDatabase {s : Store} (hf : Founded s) (b : DatabaseId) :
    Keeps s ((closeDatabase b).run s).2 := by
  unfold closeDatabase
  cases hd : s.databases.get? b with
  | none =>
    rw [run_bind, run_database_none hd]
    exact hf.sameFamilies (Frame.refl s)
  | some d =>
    rw [run_bind, run_database hd]
    dsimp only
    unfold setDatabase
    rw [run_bind, run_modify]
    dsimp only
    have hsame : Keeps s { s with databases := s.databases.set b { d with phase := .closed } } :=
      ⟨hf.shut hd hf.housed (fun _ hc hp => hf.opened hc hp) rfl rfl rfl, fun _ => .same⟩
    cases hp : d.phase with
    | fresh => exact hsame
    | closed => exact hsame
    | opened h block =>
      have hrest : ∀ {last : Run Unit}, Within (Shuts h) last → Within (Shuts h)
          (engine (Engine.Run.close h) >>= fun _ =>
            engine (Engine.Run.configDeinit block) >>= fun _ => last) := by
        intro last hlast
        refine Within.bind (within_engine (fun _ _ hc => ⟨hc, rfl, rfl⟩)
          (Engine.Run.closes_close h)) fun _ => ?_
        exact Within.bind ((sameHandles_engine (Engine.Run.sameCursors_configDeinit block)).mono
          fun _ _ hs => hs.shuts h) fun _ => hlast
      have hkeeps : ∀ t, Shuts h
          { s with databases := s.databases.set b { d with phase := .closed } } t → Keeps s t := by
        intro t hs
        refine ⟨hf.shut hd (hs.engine.housed hf.housed) (fun {c e g k} hne hc hp' => ?_)
          hs.engine.families hs.databases hs.families, fun σ => ?_⟩
        · have hgh : g ≠ h := by
            rintro rfl
            exact hne (hf.apart hc hd hp' hp)
          exact hs.engine.isOpen hgh (hf.opened hc hp')
        · unfold Engine.recordsOf
          rw [hs.engine.records]
          exact .same
      refine hkeeps _ (hrest ?_ _)
      cases d.site with
      | some site => exact (sameHandles_note _).mono fun _ _ hs => hs.shuts h
      | none => exact Within.pure _

end Run

/-! ## Families -/

/-- A new family handle, for a new family of an open database. -/
theorem Founded.addFamily {s s' : Store} {b : DatabaseId} {d : Database} {k : Engine.Handle}
    {fh : Engine.FamilyHandle} {f : Family} {σ : Engine.StoreId} (hf : Founded s)
    (he : Engine.Grows s.engine s'.engine) (hd : s.databases.get? b = some d)
    (hp : d.phase = .opened fh.1 k)
    (hfree : s.engine.families.get? fh = none)
    (hfam : s'.engine.families.get? fh = some ⟨fh.1, f.config.record, σ, false⟩)
    (hfb : f.database = b) (hfh : f.handle = some fh) (hdb : s'.databases = s.databases)
    (hfams : s'.families = s.families.set s.families.size f) : Founded s' := by
  have hnew : ∀ {id g}, s.families.get? id = some g → g.handle ≠ some fh := by
    intro id g hget hh
    obtain ⟨⟨fam, hfam, -⟩, -⟩ := hf.stands hget hh
    exact absurd (hfree.symm.trans hfam) (by simp)
  refine ⟨he.housed hf.housed, ?_, ?_, ?_, ?_, ?_⟩
  · rw [hdb]
    exact hf.databases
  · rw [hdb]
    exact fun hb hp => he.isOpen (hf.opened hb hp)
  · rw [hdb]
    exact hf.apart
  · intro id g gh hget hh
    rw [hfams] at hget
    rw [hdb]
    rcases Table.of_get?_set hget with ⟨-, rfl⟩ | ⟨-, hget⟩
    · obtain rfl := Option.some.inj (hfh.symm.trans hh)
      exact ⟨⟨_, hfam, rfl, rfl⟩, d, by rw [hfb]; exact hd, .inr ⟨k, hp⟩⟩
    · obtain ⟨⟨fam, hold, hdel, hcfg⟩, hrest⟩ := hf.stands hget hh
      exact ⟨⟨fam, he.families hf.housed hold, hdel, hcfg⟩, hrest⟩
  · intro id id' g g' gh hget hget' hh hh'
    rw [hfams] at hget hget'
    rcases Table.of_get?_set hget with ⟨heq, rfl⟩ | ⟨-, hget⟩
    · obtain rfl := Option.some.inj (hfh.symm.trans hh)
      rcases Table.of_get?_set hget' with ⟨heq', -⟩ | ⟨-, hget'⟩
      · exact heq.trans heq'.symm
      · exact absurd hh' (hnew hget')
    · rcases Table.of_get?_set hget' with ⟨-, rfl⟩ | ⟨-, hget'⟩
      · obtain rfl := Option.some.inj (hfh.symm.trans hh')
        exact absurd hh (hnew hget)
      · exact hf.single hget hget' hh hh'

/-- A family handle is closed. -/
theorem Founded.endFamily {s s' : Store} {id : FamilyId} {f : Family} {fh : Engine.FamilyHandle}
    (hf : Founded s) (hget : s.families.get? id = some f) (hh : f.handle = some fh)
    (he : Engine.Deletes fh s.engine s'.engine) (hdb : s'.databases = s.databases)
    (hfams : s'.families = s.families.set id { f with handle := none }) : Founded s' := by
  have hback : ∀ {id' g gh}, s'.families.get? id' = some g → g.handle = some gh →
      s.families.get? id' = some g ∧ gh ≠ fh := by
    intro id' g gh hg hgh
    rw [hfams] at hg
    rcases Table.of_get?_set hg with ⟨-, rfl⟩ | ⟨hne, hg⟩
    · exact absurd hgh (by simp)
    · refine ⟨hg, ?_⟩
      rintro rfl
      exact hne (hf.single hg hget hgh hh)
  refine ⟨he.housed hf.housed, ?_, ?_, ?_, ?_, ?_⟩
  · rw [hdb]
    exact hf.databases
  · rw [hdb]
    exact fun hb hp => he.isOpen (hf.opened hb hp)
  · rw [hdb]
    exact hf.apart
  · intro id' g gh hg hgh
    obtain ⟨hold, hne⟩ := hback hg hgh
    rw [he.families hne, hdb]
    exact hf.stands hold hgh
  · intro id' id'' g g' gh hg hg' hgh hgh'
    exact hf.single (hback hg hgh).1 (hback hg' hgh').1 hgh hgh'

namespace Run

variable {s : Store}

theorem openDatabase_cases (s : Store) (b : DatabaseId) :
    (∃ failure, (openDatabase b).run s = (.error failure, s)) ∨
    ∃ d h k sizes, s.databases.get? b = some d ∧ d.phase = .opened h k ∧
      (openDatabase b).run s = (.ok (h, sizes), s) := by
  unfold openDatabase
  cases hd : s.databases.get? b with
  | none =>
    rw [run_bind, run_database_none hd]
    exact .inl ⟨_, rfl⟩
  | some d =>
    rw [run_bind, run_database hd]
    dsimp only
    cases hp : d.phase with
    | fresh => exact .inl ⟨_, rfl⟩
    | closed => exact .inl ⟨_, rfl⟩
    | opened h k =>
      cases d.site with
      | none => exact .inl ⟨_, rfl⟩
      | some site => exact .inr ⟨d, h, k, site.sizes, rfl, hp, rfl⟩

/-- The end of the making of a family. -/
theorem keeps_familyCreate (hf : Founded s) {b : DatabaseId} {d : Database} {h k : Engine.Handle}
    (hd : s.databases.get? b = some d) (hp : d.phase = .opened h k) (config : DataConfig) :
    Keeps s ((do
      let family ← engine (Engine.Run.familyCreate h config.record)
      note [.familyCreated config.typeName config.maxKeySize]
      let s ← get
      let familyId := s.families.size
      setFamily familyId ⟨b, config, some family, [], 0⟩
      return familyId : Run FamilyId).run s).2 := by
  have hgrown : ∀ {e'}, Engine.Grows s.engine e' → Keeps s { s with engine := e' } := fun he =>
    ⟨hf.grows he rfl fun _ => rfl, hf.edits_of_grows he⟩
  rw [run_bind, run_engine]
  rcases Engine.Run.familyCreate_cases h config.record s.engine with
    ⟨failure, e', hrun, he⟩ | ⟨fh, e', σ, hrun, he, rfl, hfree, hfam⟩
  · rw [hrun]
    exact hgrown he
  · rw [hrun]
    exact ⟨hf.addFamily he hd hp (hfree hf.housed) (by exact hfam) rfl rfl rfl rfl,
      hf.edits_of_grows he⟩

theorem keeps_createFamily (hf : Founded s) (b : DatabaseId) (funcs : FuncsArgument)
    (maxKeySize : Value) : Keeps s ((createFamily b funcs maxKeySize).run s).2 := by
  unfold createFamily
  rw [run_bind]
  rcases openDatabase_cases s b with ⟨failure, hrun⟩ | ⟨d, h, k, sizes, hd, hp, hrun⟩
  · rw [hrun]
    exact hf.sameFamilies (Frame.refl s)
  · rw [hrun]
    dsimp only
    rw [run_bind, run_ofExcept]
    cases funcs.resolve with
    | error failure => exact hf.sameFamilies (Frame.refl s)
    | ok fs =>
      dsimp only
      rw [run_bind, run_ofExcept]
      split
      · rename_i config t heq
        obtain ⟨-, rfl⟩ := Prod.mk.inj heq
        exact keeps_familyCreate hf hd hp config
      · rename_i failure t heq
        obtain ⟨-, rfl⟩ := Prod.mk.inj heq
        exact hf.sameFamilies (Frame.refl s)

/-- How the end of a family handle goes. -/
inductive FamilyEnd (s : Store) (id : FamilyId) : Except Failure Unit × Store → Prop
  | unknown (failure : Failure) (hf : s.families.get? id = none) :
      FamilyEnd s id (.error failure, s)
  /-- The handle has been closed before. -/
  | already {f : Family} (hf : s.families.get? id = some f) (hh : f.handle = none) :
      FamilyEnd s id (.ok (), s)
  /-- An iterator over the family cannot be closed. -/
  | heldUp {f : Family} {fh : Engine.FamilyHandle} {failure : Failure} {t : Store}
      (hf : s.families.get? id = some f) (hh : f.handle = some fh)
      (hrun : (f.iterators.forM closeIterator).run s = (.error failure, t)) :
      FamilyEnd s id (.error failure, t)
  /-- The iterators are closed, and then the family. -/
  | reached {f g : Family} {fh : Engine.FamilyHandle} {t : Store} {r : Except Failure Unit}
      {e : Engine} {log : List Event} (hf : s.families.get? id = some f)
      (hh : f.handle = some fh) (hrun : (f.iterators.forM closeIterator).run s = (.ok (), t))
      (hg : t.families.get? id = some g) (hgh : g.handle = some fh)
      (hdelete : (Engine.Run.familyDelete fh).run t.engine = (r, e)) :
      FamilyEnd s id (r, { t with
        engine := e, families := t.families.set id { g with handle := none }, log := log })

theorem closeFamily_end (s : Store) (id : FamilyId) :
    FamilyEnd s id ((closeFamily id).run s) := by
  unfold closeFamily
  cases hget : s.families.get? id with
  | none =>
    rw [run_bind, run_storeFamily_none hget]
    exact .unknown _ hget
  | some f =>
    rw [run_bind, run_storeFamily hget]
    dsimp only
    cases hh : f.handle with
    | none => exact .already hget hh
    | some fh =>
      dsimp only
      rw [run_bind]
      obtain ⟨r, t, hrun⟩ : ∃ r t, (f.iterators.forM closeIterator).run s = (r, t) := ⟨_, _, rfl⟩
      have hc : SameFamilies s t := (sameFamilies_closeIterators f.iterators).of_run hrun
      rw [hrun]
      cases r with
      | error failure => exact .heldUp hget hh hrun
      | ok _ =>
        obtain ⟨g, hg, hsame⟩ := hc.exists_family hget
        obtain ⟨r, e, hdelete⟩ : ∃ r e, (Engine.Run.familyDelete fh).run t.engine = (r, e) :=
          ⟨_, _, rfl⟩
        dsimp only
        rw [run_bind, run_storeFamily hg]
        dsimp only
        unfold setFamily
        rw [run_bind, run_modify]
        dsimp only
        rw [run_bind, run_engine, hdelete]
        cases r with
        | error failure => exact .reached hget hh hrun hg (hsame.trans hh) hdelete
        | ok _ => exact .reached hget hh hrun hg (hsame.trans hh) hdelete

theorem keeps_closeFamily (hf : Founded s) (id : FamilyId) :
    Keeps s ((closeFamily id).run s).2 := by
  have hend := closeFamily_end s id
  generalize (closeFamily id).run s = answer at hend ⊢
  cases hend with
  | unknown | already => exact hf.sameFamilies (Frame.refl s)
  | heldUp _ _ hrun => exact hf.sameFamilies ((sameFamilies_closeIterators _).of_run hrun)
  | @reached f g fh t r e log _ _ hrun hg hgh hdelete =>
    have ht := hf.sameFamilies ((sameFamilies_closeIterators f.iterators).of_run hrun)
    have he := (Engine.Run.deletes_familyDelete fh).of_run hdelete
    refine ⟨ht.founded.endFamily hg hgh he rfl rfl, fun σ => ?_⟩
    have hsame : e.recordsOf σ = t.engine.recordsOf σ := by
      unfold Engine.recordsOf
      rw [he.records]
    show Engine.Edit _ (e.recordsOf σ)
    rw [hsame]
    exact ht.edits σ

end Run

/-! ## All operations -/

namespace Run

/-- A call touches the records of its family at the most, after its arguments were looked at. -/
theorem touches_engine {α β : Type} {work : Engine.Run α} {f : α → Run β}
    (hw : ∀ e, Engine.Touches e (work.run e).2)
    (hf : ∀ a, Within (fun s s' : Store => s'.engine = s.engine) (f a)) :
    Within (fun s s' : Store => Engine.Touches s.engine s'.engine) (engine work >>= f) := by
  intro s
  rw [run_bind, run_engine]
  obtain ⟨r, e', hrun⟩ : ∃ r e', work.run s.engine = (r, e') := ⟨_, _, rfl⟩
  have ht := hw s.engine
  rw [hrun] at ht ⊢
  cases r with
  | error failure => exact ht
  | ok a =>
    have hsame := hf a { s with engine := e' }
    dsimp only at hsame ⊢
    rw [hsame]
    exact ht

theorem touches_point (id : FamilyId) (call : PointCall) :
    Within (fun s s' : Store => Engine.Touches s.engine s'.engine) (call.run id) := by
  have hread : ∀ {α β : Type} {x : Run α} {f : α → Run β},
      Within (fun s s' : Store => s' = s) x →
      (∀ a, Within (fun s s' : Store => Engine.Touches s.engine s'.engine) (f a)) →
      Within (fun s s' : Store => Engine.Touches s.engine s'.engine) (x >>= f) := by
    intro α β x f hx hf
    refine hx.bind_of (fun s t h => ?_) (fun s t u h h' => ?_) hf
    · rw [h]
      exact .inl (Frame.refl _)
    · rw [← h]
      exact h'
  have hcheck : ∀ task status, Within (fun s s' : Store => s'.engine = s.engine)
      (checkStatus task status) := fun task status =>
    (within_checkStatus task status : Within (fun s s' : Store => s' = s) _).mono
      fun _ _ h => by rw [h]
  have hhandles : ∀ {α : Type} {x : Run α}, Within (SameHandles []) x →
      Within (fun s s' : Store => Engine.Touches s.engine s'.engine) x := fun hx =>
    hx.mono fun _ _ h => .inl h.engine
  cases call with
  | insert key value =>
    refine Within.map (hread (within_openFamily id) fun r =>
      hread (within_keySpan _ _) fun k => ?_) _
    refine hread (within_valueSpan _) fun v => ?_
    exact touches_engine (Engine.Run.touches_insert _ _ _) fun _ => hcheck _ _
  | update key delta =>
    refine Within.map (hread (within_openFamily id) fun r =>
      hread (within_keySpan _ _) fun k => ?_) _
    refine hread (within_valueSpan _) fun v => ?_
    refine touches_engine (Engine.Run.touches_update _ _ _) fun result => ?_
    intro s
    rw [run_bind, run_note]
    exact hcheck _ _ _
  | delete key =>
    refine Within.map (hread (within_openFamily id) fun r =>
      hread (within_keySpan _ _) fun k => ?_) _
    exact touches_engine (Engine.Run.touches_delete _ _) fun _ => hcheck _ _
  | lookup key => exact Within.map (hhandles (sameHandles_lookup id key)) _
  | get key default => exact Within.map (hhandles (sameHandles_getOr id key default)) _
  | contains key => exact Within.map (hhandles (sameHandles_contains id key)) _

/-- A point call leaves all handles alone. -/
theorem keeps_point {s : Store} (hf : Founded s) (id : FamilyId) (call : PointCall) :
    Keeps s ((call.run id).run s).2 := by
  have hhandles : SameHandles [.records] s ((call.run id).run s).2 :=
    sameHandles_point (by simp) id call s
  have htouch : Engine.Touches s.engine ((call.run id).run s).2.engine := touches_point id call s
  revert hhandles htouch
  generalize ((call.run id).run s).2 = t
  intro hhandles htouch
  obtain ⟨hh, hedits⟩ := hf.housed.touches htouch
  have hparts := hhandles.engine.sameParts
  have hfam : t.engine.families = s.engine.families := hparts.same .families (by decide)
  have hdb : t.engine.databases = s.engine.databases := hparts.same .databases (by decide)
  refine ⟨⟨hh, ?_, ?_, ?_, ?_, ?_⟩, hedits⟩
  · rw [hhandles.databases]
    exact hf.databases
  · rw [hhandles.databases]
    unfold Engine.IsOpen
    rw [hdb]
    exact hf.opened
  · rw [hhandles.databases]
    exact hf.apart
  · rw [hhandles.databases, hhandles.families, hfam]
    exact hf.stands
  · rw [hhandles.families]
    exact hf.single

end Run

theorem Keeps.map {α β : Type} {work : Run α} {s : Store} (h : Keeps s (work.run s).2)
    (f : α → β) : Keeps s ((f <$> work).run s).2 := by
  rw [run_map]
  exact h

/-- Every operation keeps handles on what they stand on, and edits records. -/
theorem perform_keeps {s : Store} (hf : Founded s) (op : Operation) : Keeps s (s.perform op).2 := by
  by_cases hc : op.keepsFamilies = true
  · exact hf.sameFamilies (sameFamilies_of_keepsFamilies hc s)
  · cases op with
    | newDatabase =>
      exact ⟨hf.withFresh, fun _ => .same⟩
    | start id path settings existing =>
      exact Keeps.map (Run.keeps_start hf id path settings existing) _
    | connect path settings existing =>
      exact Keeps.map (Run.keeps_connect hf path settings existing) _
    | createFamily id funcs maxKeySize =>
      exact Keeps.map (Run.keeps_createFamily hf id funcs maxKeySize) _
    | closeDatabase id =>
      exact Keeps.map (Run.keeps_closeDatabase hf id) _
    | point id call => exact Run.keeps_point hf id call
    | closeFamily id =>
      exact Keeps.map (Run.keeps_closeFamily hf id) _
    | _ => exact absurd rfl hc

/-- An open family handle stands for a family of the engine that is in use. -/
theorem Founded.exists_inUse {s : Store} (hf : Founded s) {id : FamilyId} {f : Family}
    {fh : Engine.FamilyHandle} (h : Serves s id f fh) :
    ∃ fam, Engine.Run.Serves s.engine fh fam ∧ fam.config = f.config.record ∧
      s.engineFamily? id = some fam := by
  obtain ⟨hget, hh, b, hb, hclosed⟩ := h
  obtain ⟨⟨fam, hfam, hdel, hconfig⟩, b', hb', hphase⟩ := hf.stands hget hh
  obtain rfl := Option.some.inj (hb.symm.trans hb')
  obtain ⟨k, hp⟩ : ∃ k, b.phase = .opened fh.1 k := by
    refine hphase.resolve_left fun hp => ?_
    rw [Database.isClosed, hp] at hclosed
    exact absurd hclosed (by simp)
  obtain ⟨d, hd, ho⟩ := hf.opened hb hp
  refine ⟨fam, ⟨hfam, hdel, d, ?_, ho⟩, hconfig, ?_⟩
  · rw [(hf.housed.families hfam).1]
    exact hd
  · unfold engineFamily?
    rw [hget, Option.bind_some, hh, Option.bind_some, hfam]

/-- The handle of an open family and the engine agree on its configuration. -/
theorem Founded.exists_configured {s : Store} (hf : Founded s) {id : FamilyId}
    (hopen : s.isOpenFamily id = true) {config : DataConfig}
    (hconfig : s.config? id = some config) :
    ∃ f fh fam, Serves s id f fh ∧ f.config = config ∧ Engine.Run.Serves s.engine fh fam ∧
      fam.config = config.record ∧ s.engineFamily? id = some fam := by
  obtain ⟨f, fh, hserves⟩ := exists_serves hopen
  obtain ⟨fam, hin, hrecord, hfam⟩ := hf.exists_inUse hserves
  obtain rfl := Option.some.inj ((config?_of_get? hserves.1).symm.trans hconfig)
  exact ⟨f, fh, fam, hserves, rfl, hin, hrecord, hfam⟩

theorem Reachable.founded {s : Store} (h : Reachable s) : Founded s := by
  induction h with
  | initial files => exact founded_initial files
  | step op _ ih => exact (perform_keeps ih op).founded

end FamilyStore.Store
