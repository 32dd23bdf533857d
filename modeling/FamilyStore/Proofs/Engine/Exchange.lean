import FamilyStore.Proofs.Engine.Growth
import FamilyStore.Proofs.Engine.Resources

/-!
How databases, families and cursors are given out and taken back.

For each call there is what it comes to: the thing that is given out is a new one, the thing that is
taken back is the one that was asked for, and all other resources are the same.
-/

namespace FamilyStore.Engine

/-- A database is given out: a new one, and open. -/
structure Opens (h : Handle) (e e' : Engine) : Prop where
  sameResources : SameResources [.databases] e e'
  handle : e.nextHandle ≤ h ∧ h < e'.nextHandle
  databases : ∃ path, e'.databases = e.databases.set h ⟨path, true, 1⟩
  calls : e'.subjects .close = e.subjects .close

theorem Opens.after {h : Handle} {e e' e'' : Engine} (he : SameResources [] e e')
    (hd : e'.databases = e.databases) (ho : Opens h e' e'') : Opens h e e'' where
  sameResources := Frame.trans he.of_nil ho.sameResources
  handle := ⟨Nat.le_trans he.nextHandle ho.handle.1, ho.handle.2⟩
  databases := by
    rw [← hd]
    exact ho.databases
  calls := ho.calls.trans ((he.same .databases (by simp)).calls .close (by simp [Resource.entries]))

/-- A family of a database is given out: a new one. -/
structure Makes (f : FamilyHandle) (e e' : Engine) : Prop where
  sameResources : SameResources [.families] e e'
  families : ∃ fam : Family, fam.deleted = false ∧ e'.families = e.families.set f fam
  calls : e'.subjects .familyDelete = e.subjects .familyDelete

/-- The engine with a new configuration block. -/
def withBlock (e : Engine) : Engine :=
  { e with
    calls := ⟨.configInit, .nothing⟩ :: e.calls
    nextHandle := e.nextHandle + handleStep
    configBlocks := e.configBlocks ++ [e.nextHandle] }

/-- The engine without a configuration block. -/
def withoutBlock (e : Engine) (h : Handle) : Engine :=
  { e with
    calls := ⟨.configDeinit, .handle h⟩ :: e.calls
    configBlocks := e.configBlocks.filter (· ≠ h) }

/-- What a request for a database comes to: a failure of the file system, a status, or a new
database. -/
inductive Answers (e : Engine) : Except Failure (Except Status Handle) × Engine → Prop
  | fault {e' : Engine} (fault : Files.Fault) (h : SameResources [] e e') :
      Answers e (.error (.file fault), e')
  | status {e' : Engine} (status : Status) (h : SameResources [] e e') :
      Answers e (.ok (.error status), e')
  | opens {e' : Engine} {h : Handle} (ho : Opens h e e') : Answers e (.ok (.ok h), e')

/-- The engine after an open database was closed. -/
def closed (e : Engine) (h : Handle) (d : Database) : Engine :=
  { e with
    calls := ⟨.close, .handle h⟩ :: e.calls
    databases := e.databases.set h { d with isOpen := false } }

/-- The engine after a family was deleted. -/
def deleted (e : Engine) (f : FamilyHandle) (fam : Family) : Engine :=
  { e with
    calls := ⟨.familyDelete, .family f⟩ :: e.calls
    families := e.families.set f { fam with deleted := true } }

/-- The engine when memory for the result of a lookup was set aside. -/
def settingAside (e : Engine) (address : Nat) : Engine :=
  { e with
    calls := ⟨.lookupInit, .lookup address⟩ :: e.calls
    lookups := e.lookups.set address none }

/-- The engine when the memory for the result of a lookup was given back. -/
def givingBack (e : Engine) (address : Nat) : Engine :=
  { e with
    calls := ⟨.lookupDeinit, .lookup address⟩ :: e.calls
    lookups := e.lookups.erase address }

namespace Run

variable {e : Engine} {h : Handle}

/-! ## Configuration blocks -/

theorem run_configInit (e : Engine) : configInit.run e = (.ok e.nextHandle, withBlock e) := rfl

theorem sameResources_withBlock (e : Engine) : SameResources [.blocks] e (withBlock e) :=
  sameResources_configInit (List.mem_singleton.2 rfl) e

theorem run_configDeinit (hb : h ∈ e.configBlocks) :
    (configDeinit h).run e = (.ok (), withoutBlock e h) := by
  have hc : (!e.configBlocks.contains h) = false := by simpa using hb
  unfold configDeinit
  rw [run_bind, run_note]
  dsimp only
  rw [run_bind, run_get]
  dsimp only
  rw [run_ite, hc, if_neg Bool.false_ne_true]
  rfl

theorem sameResources_withoutBlock (e : Engine) (h : Handle) :
    SameResources [.blocks] e (withoutBlock e h) := by
  have hnoted : SameResources [.blocks] e
      { e with calls := ⟨.configDeinit, .handle h⟩ :: e.calls } :=
    sameResources_note_plain rfl (.handle h) e
  refine Frame.trans hnoted (SameResources.of_parts rfl (Nat.le_refl _) id (.inr rfl) (.inr rfl)
    (.inr rfl) (.inl ?_) (.inr rfl))
  exact List.mem_singleton.2 rfl

/-- A block that was made last and is given back leaves the blocks as they were. -/
theorem filter_blocks {blocks : List Handle} (hn : h ∉ blocks) :
    (blocks ++ [h]).filter (· ≠ h) = blocks := by
  have hall : ∀ k ∈ blocks, decide (k ≠ h) = true := fun k hk =>
    decide_eq_true fun hkh => hn (hkh ▸ hk)
  rw [List.filter_append, List.filter_eq_self.2 hall]
  simp

/-! ## Databases -/

theorem run_checkConfigBlock (hb : h ∈ e.configBlocks) :
    (checkConfigBlock h).run e = (.ok (), e) := by
  have hc : (!e.configBlocks.contains h) = false := by simpa using hb
  unfold checkConfigBlock
  rw [run_bind, run_get]
  dsimp only
  rw [run_ite, hc, if_neg Bool.false_ne_true]
  rfl

theorem opens_newDatabase (path : String) (e : Engine) :
    Opens e.nextHandle e ((newDatabase path).run e).2 where
  sameResources := SameResources.of_parts rfl (Nat.le_add_right _ _) id
    (.inl (List.mem_singleton.2 rfl)) (.inr rfl) (.inr rfl) (.inr rfl) (.inr rfl)
  handle := ⟨Nat.le_refl _, Nat.lt_add_of_pos_right (by decide)⟩
  databases := ⟨path, rfl⟩
  calls := rfl

/-- The call is noted, and a status that is set up is taken. -/
def requested (e : Engine) (entry : EntryPoint) : Engine :=
  { e with calls := ⟨entry, .nothing⟩ :: e.calls, pending := e.pending.erase entry }

theorem sameResources_requested {parts : List Resource} {entry : EntryPoint}
    (hp : isPlain entry = true) (e : Engine) : SameResources parts e (requested e entry) :=
  Frame.trans (sameResources_note_plain hp .nothing e) (sameResources_takePending entry _)

theorem answers_after {e e' : Engine} {r : Except Failure (Except Status Handle) × Engine}
    (he : SameResources [] e e') (hd : e'.databases = e.databases) (h : Answers e' r) :
    Answers e r := by
  cases h with
  | fault fault h => exact .fault fault (Frame.trans he h)
  | status status h => exact .status status (Frame.trans he h)
  | opens ho => exact .opens (ho.after he hd)

/-- Both requests begin in one way. -/
theorem answers_of_rest {entry : EntryPoint} (hp : isPlain entry = true) {block : Handle}
    (hb : block ∈ e.configBlocks) {rest : Run (Except Status Handle)}
    (hrest : Answers (requested e entry) (rest.run (requested e entry))) :
    Answers e ((note entry .nothing >>= fun _ => takePending entry >>= fun status =>
      if status ≠ Status.success then pure (.error status)
      else checkConfigBlock block >>= fun _ => rest).run e) := by
  refine answers_after (sameResources_requested hp e) rfl ?_
  rw [run_bind, run_note]
  dsimp only
  rw [run_bind, run_takePending]
  dsimp only
  rw [run_ite]
  split
  · exact .status _ (Frame.refl _)
  · rw [run_bind, run_checkConfigBlock (by exact hb)]
    exact hrest

theorem create_answers {config : DatabaseRecord} (hb : config.configBlock ∈ e.configBlocks) :
    Answers e ((create config).run e) := by
  refine answers_of_rest rfl hb ?_
  rw [run_bind, run_get]
  dsimp only
  rw [run_bind]
  cases hw : (requested e .create).files.write config.path databaseMark with
  | error fault => exact .fault fault (Frame.refl _)
  | ok files =>
    have hwritten : SameResources [] (requested e .create) { requested e .create with
        files := files, stores := (requested e .create).stores.set config.path .empty } :=
      SameResources.of_rest rfl (Nat.le_refl _) id rfl rfl rfl rfl rfl
    exact answers_after hwritten rfl (.opens (opens_newDatabase config.path _))

theorem openExisting_answers {config : DatabaseRecord}
    (hb : config.configBlock ∈ e.configBlocks) : Answers e ((openExisting config).run e) := by
  refine answers_of_rest rfl hb ?_
  rw [run_bind, run_get]
  dsimp only
  rw [run_ite]
  split
  · exact .status _ (Frame.refl _)
  · rw [run_bind]
    cases (requested e .openExisting).files.read config.path with
    | error fault => exact .fault fault (Frame.refl _)
    | ok content =>
      dsimp only [ofFiles]
      rw [run_pure]
      dsimp only
      rw [run_ite]
      split
      · exact .status _ (Frame.refl _)
      · exact .opens (opens_newDatabase config.path _)

theorem run_close {d : Database} (hd : e.databases.get? h = some d) (ho : d.isOpen = true) :
    (close h).run e = (.ok (), closed e h d) := by
  unfold close
  rw [run_bind, run_note]
  dsimp only
  rw [run_bind, run_get]
  dsimp only
  rw [hd, run_bind, run_require_some]
  dsimp only
  rw [run_ite, ho, if_neg (by simp)]
  rfl

/-! ## Families -/

theorem sameResources_storeFor {parts : List Resource} (path : String) (index : Nat) :
    Within (SameResources parts) (storeFor path index) := by
  refine Within.get_bind fun e => ?_
  cases e.stores.get? path with
  | none => exact Frame.refl e
  | some byIndex =>
    rw [run_bind, run_require_some]
    dsimp only
    cases byIndex.get? index with
    | some σ => exact Frame.refl e
    | none => exact SameResources.of_rest rfl (Nat.le_refl _) id rfl rfl rfl rfl rfl

/-- The number of the next family is no matter for a database being in use. -/
theorem sameResources_nextFamily {parts : List Resource} {d : Database}
    (hd : e.databases.get? h = some d) (n : Nat) :
    SameResources parts e { e with databases := e.databases.set h { d with nextFamily := n } } := by
  refine ⟨Nat.le_refl _, fun r _ => ⟨?_, fun _ _ => rfl⟩, id⟩
  cases r with
  | databases =>
    refine ⟨?_, fun g c hc => ?_⟩
    · have hcount := Table.count_set_of_get? (fun d => d.isOpen) hd { d with nextFamily := n }
      exact Nat.add_right_cancel hcount
    · by_cases hg : g = h
      · rw [hg] at hc ⊢
        obtain rfl := Option.some.inj (hd.symm.trans hc)
        exact ⟨_, Table.get?_set_self _ _ _, rfl⟩
      · exact ⟨c, (Table.get?_set_ne _ hg _).trans hc, rfl⟩
  | families | cursors | blocks | lookups => rfl

/-- A family is made, or the request for one is refused. -/
theorem familyCreate_makes (h : Handle) (config : DataRecord) (e : Engine) :
    (∃ failure e', (familyCreate h config).run e = (.error failure, e') ∧ SameResources [] e e') ∨
    ∃ f e', (familyCreate h config).run e = (.ok f, e') ∧ Makes f e e' := by
  have hnote : ∀ {parts}, SameResources parts e
      { e with calls := ⟨.familyCreate, .handle h⟩ :: e.calls } :=
    sameResources_note_plain rfl (.handle h) e
  unfold familyCreate
  rw [run_bind, run_note]
  dsimp only
  rw [run_bind, run_get]
  dsimp only
  cases hd : e.databases.get? h with
  | none => exact .inl ⟨_, _, rfl, hnote⟩
  | some d =>
    rw [run_bind, run_require_some]
    dsimp only
    rw [run_bind, run_set]
    dsimp only
    have hset : ∀ {parts}, SameResources parts e { e with
        calls := ⟨.familyCreate, .handle h⟩ :: e.calls
        databases := e.databases.set h { d with nextFamily := d.nextFamily + 1 } } :=
      Frame.trans hnote (sameResources_nextFamily (by exact hd) _)
    rw [run_bind]
    obtain ⟨r, e', hrun⟩ : ∃ r e', (storeFor d.path d.nextFamily).run { e with
        calls := ⟨.familyCreate, .handle h⟩ :: e.calls
        databases := e.databases.set h { d with nextFamily := d.nextFamily + 1 } } = (r, e') :=
      ⟨_, _, rfl⟩
    have hstore : ∀ {parts}, SameResources parts e e' :=
      Frame.trans hset ((sameResources_storeFor _ _).of_run hrun)
    rw [hrun]
    cases r with
    | error failure => exact .inl ⟨failure, e', rfl, hstore⟩
    | ok σ =>
      have hsame : e'.families = e.families := (hstore.same .families List.not_mem_nil).use
      refine .inr ⟨(h, d.nextFamily), _, rfl, ?_, ⟨⟨h, config, σ, false⟩, rfl, ?_⟩, ?_⟩
      · refine Frame.trans hstore
          (SameResources.of_parts rfl (Nat.le_refl _) id (.inr rfl) (.inl ?_)
          (.inr rfl) (.inr rfl) (.inr rfl))
        exact List.mem_singleton.2 rfl
      · rw [← hsame]
      · have hfams := hstore.same .families List.not_mem_nil
        exact hfams.calls .familyDelete (by simp [Resource.entries])

/-- A family that is made is a new one. -/
theorem familyCreate_fresh {config : DataRecord} {f : FamilyHandle} {e' : Engine}
    (hrun : (familyCreate h config).run e = (.ok f, e')) (he : Housed e) :
    e.families.get? f = none := by
  rcases familyCreate_cases h config e with ⟨failure, e'', hfail, -⟩ |
    ⟨g, e'', σ, hok, -, -, hfree, -⟩
  · exact absurd (hfail.symm.trans hrun) error_ne_ok
  · obtain ⟨hfg, -⟩ := Prod.mk.inj (hok.symm.trans hrun)
    rw [← Except.ok.inj hfg]
    exact hfree he

theorem sameResources_familyCreate {parts : List Resource} (hf : .families ∈ parts) (h : Handle)
    (config : DataRecord) : Within (SameResources parts) (familyCreate h config) := by
  intro e
  have hsub : [Resource.families] ⊆ parts := by simpa using hf
  rcases familyCreate_makes h config e with ⟨failure, e', hrun, he⟩ | ⟨f, e', hrun, hm⟩
  · rw [hrun]
    exact he.of_nil
  · rw [hrun]
    exact hm.sameResources.mono hsub

theorem sameResources_familyDelete {parts : List Resource} (hf : .families ∈ parts)
    (f : FamilyHandle) : Within (SameResources parts) (familyDelete f) := by
  refine Within.bind (sameResources_note (not_mem_entries_of_mem hf (by simp [Resource.entries])) _)
    fun _ => Within.get_bind fun e => ?_
  cases e.families.get? f with
  | none => exact Frame.refl e
  | some fam =>
    rw [run_bind, run_require_some]
    dsimp only
    rw [run_ite]
    split
    · exact Frame.refl e
    · exact SameResources.of_parts rfl (Nat.le_refl _) id (.inr rfl) (.inl hf) (.inr rfl) (.inr rfl)
        (.inr rfl)

theorem run_familyDelete {f : FamilyHandle} {fam : Family} (hf : e.families.get? f = some fam)
    (hn : fam.deleted = false) : (familyDelete f).run e = (.ok (), deleted e f fam) := by
  unfold familyDelete
  rw [run_bind, run_note]
  dsimp only
  rw [run_bind, run_get]
  dsimp only
  rw [hf, run_bind, run_require_some]
  dsimp only
  rw [run_ite, hn, if_neg (by simp)]
  rfl

/-! ## Cursors -/

theorem sameResources_admitted {parts : List Resource} (e : Engine) (f : FamilyHandle) :
    SameResources parts e (admitted e f) :=
  Frame.trans (sameResources_note_plain rfl (.family f) e)
    (sameResources_takePending .iteratorInit _)

/-- A cursor is made, or the request for one is refused. -/
theorem iteratorInit_makes (f : FamilyHandle) (start : Span) (e : Engine) :
    ((∀ h events, ((iteratorInit f start).run e).1 ≠ .ok (.ok h, events)) ∧
      SameResources [] e ((iteratorInit f start).run e).2) ∨
    ∃ fam, Serves e f fam ∧ (iteratorInit f start).run e =
      (.ok (.ok e.nextHandle, selectionEvents fam.config.funcs (e.recordsOf fam.store) start),
        withCursor e f (newCursor e fam start)) := by
  rcases iteratorInit_cases f start e with ⟨hno, -⟩ | hmade
  · refine .inl ⟨hno, ?_⟩
    by_cases hs : ∃ fam, Serves e f fam
    · obtain ⟨fam, hs⟩ := hs
      have hp : pendingStatus e .iteratorInit ≠ Status.success := by
        intro hp
        have hrun := run_iteratorInit hs hp start
        exact hno _ _ (congrArg Prod.fst hrun)
      rw [run_iteratorInit_of_serves hs, if_neg hp]
      exact sameResources_admitted e f
    · unfold iteratorInit
      rw [run_asked_of_not fun fam h => hs ⟨fam, h⟩]
      exact sameResources_note_plain rfl (.family f) e
  · exact .inr hmade

end Run

end FamilyStore.Engine
