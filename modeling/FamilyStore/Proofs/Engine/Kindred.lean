import FamilyStore.Proofs.Engine.StrictOrder
import FamilyStore.Proofs.Similar

/-!
What the engine sees of data functions.

Data functions concur when they merge in the same way and when their comparisons, as the engine sees
them, are the same. Engines are kindred when their families have concurring data functions and they
differ in nothing else. Whatever is asked of kindred engines, they reply the same and stay kindred;
only what they say about comparisons that failed may differ.
-/

namespace FamilyStore

/-- Data functions that merge in the same way and, for the engine, compare in the same way. Names,
renderings and what becomes of failed comparisons in the log may be different. -/
structure DataFuncs.Concur (f g : DataFuncs) : Prop where
  merge : g.merge = f.merge
  mergeFinal : g.mergeFinal = f.mergeFinal
  rank : ∀ a b, f.rank a b = g.rank a b

theorem DataFuncs.Concur.refl (f : DataFuncs) : Concur f f := ⟨rfl, rfl, fun _ _ => rfl⟩

namespace Engine

/-- Families with concurring data functions. -/
inductive Family.Kindred (fam : Family) : Family → Prop
  | of {name : Bytes} {g : DataFuncs} (h : fam.config.funcs.Concur g) :
    Kindred fam { fam with config := { fam.config with typeName := name, funcs := g } }

/-- Engines whose families have concurring data functions, and that differ in nothing else. -/
inductive Kindred (e : Engine) : Engine → Prop
  | of {families : Table FamilyHandle Family}
    (h : e.families.Related Family.Kindred families) : Kindred e { e with families := families }

namespace Run

variable {α : Type}

theorem kindred_note (entry : EntryPoint) (subject : Subject) :
    Agrees Kindred (note entry subject) :=
  Agrees.modify fun _ _ ⟨h⟩ => .of h

theorem kindred_takePending (entry : EntryPoint) : Agrees Kindred (takePending entry) := by
  rintro e - ⟨h⟩
  exact ⟨rfl, .of h⟩

theorem kindred_newHandle : Agrees Kindred newHandle := by
  rintro e - ⟨h⟩
  exact ⟨rfl, .of h⟩

/-- A family is in use in both engines, or for one reason in neither. -/
theorem kindred_family (f : FamilyHandle) :
    Similar Kindred Family.Kindred (family f) (family f) := by
  refine Similar.get_bind fun e _ ⟨h⟩ => ?_
  dsimp only
  rcases h.get? f with ⟨hn, hn'⟩ | ⟨fam, fam', hf, hf', hfam⟩
  · rw [hn, hn']
    exact ⟨.error _, .of h⟩
  · rw [hf, hf', run_bind, run_bind, run_require_some, run_require_some]
    obtain ⟨hconcur⟩ := hfam
    refine Similar.guard (agrees_refuse _) ?_ e _ (.of h)
    refine Similar.bind_agrees (agrees_require _) fun d => ?_
    exact Similar.guard (agrees_refuse _) (Similar.pure (.of hconcur))

theorem kindred_setRecords (σ : StoreId) (R : Records) : Agrees Kindred (setRecords σ R) :=
  Agrees.modify fun _ _ ⟨h⟩ => .of h

/-! ## Writing, removing and updating -/

theorem kindred_insert (f : FamilyHandle) (key value : Span) :
    Agrees Kindred (insert f key value) := by
  refine Agrees.bind (kindred_note _ _) fun _ => ?_
  refine Agrees.bind_similar (kindred_family f) fun fam _ ⟨_⟩ => Similar.of_agrees ?_
  refine Agrees.bind (kindred_takePending _) fun status => Agrees.ite (Agrees.pure _) ?_
  refine Agrees.ite (Agrees.pure _) (Agrees.look (fun _ _ ⟨_⟩ => rfl) fun e => ?_)
  exact Agrees.bind (kindred_setRecords _ _) fun _ => Agrees.pure _

theorem kindred_delete (f : FamilyHandle) (key : Span) : Agrees Kindred (delete f key) := by
  refine Agrees.bind (kindred_note _ _) fun _ => ?_
  refine Agrees.bind_similar (kindred_family f) fun fam _ ⟨_⟩ => Similar.of_agrees ?_
  refine Agrees.bind (kindred_takePending _) fun status => Agrees.ite (Agrees.pure _) ?_
  refine Agrees.look (fun _ _ ⟨_⟩ => rfl) fun e => ?_
  exact Agrees.bind (kindred_setRecords _ _) fun _ => Agrees.pure _

/-- Merging does not tell families with concurring data functions apart. -/
theorem merge_kindred {fam fam' : Family} (h : fam.Kindred fam') : merge fam' = merge fam := by
  obtain ⟨hconcur⟩ := h
  funext key acc
  unfold merge DataFuncs.mergeInto DataFuncs.mergeFinalInto
  dsimp only
  rw [hconcur.merge, hconcur.mergeFinal]

theorem kindred_accumulators (change : Table Handle Accumulator → Table Handle Accumulator) :
    Agrees Kindred (modify fun e : Engine => { e with accumulators := change e.accumulators } :
      Run PUnit) :=
  Agrees.modify fun _ _ ⟨h⟩ => .of h

theorem kindred_merge (fam : Family) (key : Bytes) (acc : Handle) :
    Agrees Kindred (merge fam key acc) := by
  rintro e - @⟨families, h⟩
  cases ha : e.accumulators.get? acc with
  | none =>
    unfold merge
    rw [run_bind, run_bind, run_get, run_get]
    dsimp only
    rw [ha]
    exact ⟨rfl, .of h⟩
  | some a =>
    obtain ⟨o, ho⟩ : ∃ o, mergeOutcome fam.config.funcs (e.recordsOf fam.store) key a
        e.refuseResize = o := ⟨_, rfl⟩
    rw [run_merge ha ho, run_merge (e := { e with families := families }) ha ho]
    refine ⟨rfl, ?_⟩
    by_cases hs : o.status = Status.success
    · rw [if_pos hs, if_pos hs]
      exact .of h
    · rw [if_neg hs, if_neg hs]
      exact .of h

theorem kindred_update (f : FamilyHandle) (key delta : Span) :
    Agrees Kindred (update f key delta) := by
  have hrest : ∀ fam, Agrees Kindred (do
      let status ← takePending .update
      if status ≠ Status.success then return (status, [])
      if isTooLong fam key.read.length then return (Status.invalid, [])
      mergeDelta fam key.read delta.read) := fun fam => by
    refine Agrees.bind (kindred_takePending _) fun status => Agrees.ite (Agrees.pure _) ?_
    refine Agrees.ite (Agrees.pure _) (Agrees.bind kindred_newHandle fun acc => ?_)
    refine Agrees.bind (kindred_accumulators fun t => t.set acc _) fun _ => ?_
    refine Agrees.bind (kindred_merge _ _ _) fun result => ?_
    exact Agrees.bind (kindred_accumulators fun t => t.erase acc) fun _ => Agrees.pure _
  refine Agrees.bind (kindred_note _ _) fun _ => ?_
  refine Agrees.bind_similar (kindred_family f) fun fam fam' hfam => ?_
  have hsame : mergeDelta fam' = mergeDelta fam := by
    unfold mergeDelta
    rw [merge_kindred hfam]
  obtain ⟨hconcur⟩ := hfam
  show Similar Kindred Eq _ (do
      let status ← takePending .update
      if status ≠ Status.success then return (status, [])
      if isTooLong fam key.read.length then return (Status.invalid, [])
      mergeDelta { fam with config := { fam.config with typeName := _, funcs := _ } } key.read
        delta.read)
  rw [hsame]
  exact Similar.of_agrees (hrest fam)

/-! ## Looking up -/

theorem kindred_lookups (change : Table Nat (Option Bytes) → Table Nat (Option Bytes)) :
    Agrees Kindred (modify fun e : Engine => { e with lookups := change e.lookups } : Run PUnit) :=
  Agrees.modify fun _ _ ⟨h⟩ => .of h

theorem kindred_lookupInit (f : FamilyHandle) (address : Nat) :
    Agrees Kindred (lookupInit f address) := by
  refine Agrees.bind (kindred_note _ _) fun _ => ?_
  refine Agrees.bind_similar (kindred_family f) fun fam _ _ => Similar.of_agrees ?_
  refine Agrees.get_bind fun _ _ ⟨h⟩ => ?_
  rw [run_ite, run_ite]
  dsimp only
  split
  · exact ⟨rfl, .of h⟩
  · exact ⟨rfl, .of h⟩

theorem kindred_lookup (f : FamilyHandle) (key : Span) (address : Nat) :
    Agrees Kindred (lookup f key address) := by
  refine Agrees.bind (kindred_note _ _) fun _ => ?_
  refine Agrees.bind_similar (kindred_family f) fun fam _ ⟨_⟩ => Similar.of_agrees ?_
  refine Agrees.look (fun _ _ ⟨_⟩ => rfl) fun e => Agrees.bind (agrees_require _) fun found => ?_
  refine Agrees.bind (kindred_takePending _) fun status => Agrees.ite (Agrees.pure _) ?_
  cases (e.recordsOf fam.store).get? key.read with
  | none => exact Agrees.pure _
  | some value =>
    exact Agrees.bind (kindred_lookups fun t => t.set address (some value)) fun _ => Agrees.pure _

theorem kindred_lookupFound (address : Nat) : Agrees Kindred (lookupFound address) := by
  refine Agrees.bind (kindred_note _ _) fun _ => Agrees.look (fun _ _ ⟨_⟩ => rfl) fun e => ?_
  exact Agrees.bind (agrees_require _) fun found => Agrees.pure _

theorem kindred_lookupValue (address : Nat) : Agrees Kindred (lookupValue address) := by
  refine Agrees.bind (kindred_note _ _) fun _ => Agrees.look (fun _ _ ⟨_⟩ => rfl) fun e => ?_
  refine Agrees.bind (agrees_require _) fun found => ?_
  refine Agrees.bind (kindred_takePending _) fun status => Agrees.ite (Agrees.pure _) ?_
  exact Agrees.bind (agrees_require _) fun value => Agrees.pure _

theorem kindred_lookupDeinit (address : Nat) : Agrees Kindred (lookupDeinit address) := by
  refine Agrees.bind (kindred_note _ _) fun _ => Agrees.get_bind fun e _ ⟨h⟩ => ?_
  rw [run_bind, run_bind]
  dsimp only
  cases e.lookups.get? address with
  | none => exact ⟨rfl, .of h⟩
  | some found => exact ⟨rfl, .of h⟩

/-! ## Cursors -/

theorem kindred_cursors (change : Option Int → Table Handle Cursor → Table Handle Cursor) :
    Agrees Kindred (modify fun e : Engine =>
      { e with cursors := change e.failIterationAt e.cursors } : Run PUnit) :=
  Agrees.modify fun _ _ ⟨h⟩ => .of h

/-- A cursor is made for the same records; what is said about the comparisons may differ. -/
theorem similar_iteratorInit (f : FamilyHandle) (start : Span) :
    Similar Kindred (fun r r' => r.1 = r'.1) (iteratorInit f start) (iteratorInit f start) := by
  refine Similar.bind_agrees (kindred_note _ _) fun _ => ?_
  refine Similar.bind (kindred_family f) fun fam _ ⟨hconcur⟩ => ?_
  refine Similar.bind_agrees (kindred_takePending _) fun status => Similar.ite (Similar.pure rfl) ?_
  refine Similar.get_bind fun e _ h => ?_
  have hselected : ∀ R, selected fam.config.funcs R start = selected _ R start := fun R =>
    selected_congr hconcur.rank R start
  obtain ⟨h⟩ := h
  dsimp only
  rw [← hselected]
  refine Similar.bind_agrees kindred_newHandle (fun handle => ?_) e _ (.of h)
  refine Similar.bind_agrees
    (kindred_cursors fun failAt t => t.set handle ⟨_, 0, none, _, failAt⟩) fun _ => ?_
  exact Similar.pure rfl

theorem kindred_cursor (h : Handle) : Agrees Kindred (cursor h) :=
  Agrees.look (fun _ _ ⟨_⟩ => rfl) fun _ => agrees_require _

theorem kindred_setCursor (h : Handle) (c : Cursor) : Agrees Kindred (setCursor h c) :=
  kindred_cursors fun _ t => t.set h c

theorem kindred_iteratorValid (h : Handle) : Agrees Kindred (iteratorValid h) := by
  refine Agrees.bind (kindred_note _ _) fun _ => Agrees.bind (kindred_cursor h) fun c => ?_
  exact Agrees.ite (Agrees.bind (kindred_setCursor _ _) fun _ => Agrees.pure _) (Agrees.pure _)

theorem kindred_releaseCurrent (c : Cursor) : Agrees Kindred (releaseCurrent c) := by
  unfold releaseCurrent
  split
  · exact Agrees.modify fun _ _ ⟨h⟩ => .of h
  · exact Agrees.pure _

theorem kindred_iteratorNext (h : Handle) : Agrees Kindred (iteratorNext h) := by
  refine Agrees.bind (kindred_note _ _) fun _ => Agrees.bind (kindred_cursor h) fun c => ?_
  exact Agrees.bind (kindred_releaseCurrent c) fun _ => kindred_setCursor _ _

theorem kindred_lend (h : Handle) (c : Cursor) (r : Record) : Agrees Kindred (lend h c r) := by
  unfold lend
  split
  · exact Agrees.pure _
  · exact Agrees.get_bind fun _ _ ⟨h⟩ => ⟨rfl, .of h⟩

theorem kindred_iteratorGetCurrent (h : Handle) : Agrees Kindred (iteratorGetCurrent h) := by
  refine Agrees.bind (kindred_note _ _) fun _ => Agrees.bind (kindred_cursor h) fun c => ?_
  cases c.records[c.position]? with
  | none => exact agrees_refuse _
  | some r => exact Agrees.bind (kindred_lend h c r) fun _ => Agrees.pure _

theorem kindred_iteratorStatus (h : Handle) : Agrees Kindred (iteratorStatus h) := by
  refine Agrees.bind (kindred_note _ _) fun _ => Agrees.bind (kindred_cursor h) fun c => ?_
  exact Agrees.pure _

theorem kindred_iteratorDeinit (h : Handle) : Agrees Kindred (iteratorDeinit h) := by
  refine Agrees.bind (kindred_note _ _) fun _ => Agrees.bind (kindred_cursor h) fun c => ?_
  exact Agrees.bind (kindred_cursors fun _ t => t.erase h) fun _ => kindred_releaseCurrent c

/-! ## Databases -/

theorem kindred_configInit : Agrees Kindred configInit := by
  refine Agrees.bind (kindred_note _ _) fun _ => Agrees.bind kindred_newHandle fun h => ?_
  exact Agrees.bind (Agrees.modify fun _ _ ⟨h⟩ => .of h) fun _ => Agrees.pure _

theorem kindred_configDeinit (h : Handle) : Agrees Kindred (configDeinit h) := by
  refine Agrees.bind (kindred_note _ _) fun _ => Agrees.get_bind fun _ _ ⟨h⟩ => ?_
  rw [run_ite, run_ite]
  dsimp only
  split
  · exact ⟨rfl, .of h⟩
  · exact ⟨rfl, .of h⟩

theorem kindred_checkConfigBlock (h : Handle) : Agrees Kindred (checkConfigBlock h) :=
  Agrees.look (fun _ _ ⟨_⟩ => rfl) fun _ => Agrees.ite (agrees_refuse _) (Agrees.pure _)

theorem kindred_newDatabase (path : String) : Agrees Kindred (newDatabase path) := by
  refine Agrees.bind kindred_newHandle fun h => ?_
  exact Agrees.bind (Agrees.modify fun _ _ ⟨h⟩ => .of h) fun _ => Agrees.pure _

theorem kindred_ofFiles (r : Except Files.Fault α) : Agrees Kindred (ofFiles r) := by
  cases r with
  | ok a => exact Agrees.pure a
  | error fault => exact Agrees.throw _

theorem kindred_create (config : DatabaseRecord) : Agrees Kindred (create config) := by
  refine Agrees.bind (kindred_note _ _) fun _ => ?_
  refine Agrees.bind (kindred_takePending _) fun status => Agrees.ite (Agrees.pure _) ?_
  refine Agrees.bind (kindred_checkConfigBlock _) fun _ => Agrees.get_bind fun e _ ⟨h⟩ => ?_
  rw [run_bind, run_bind]
  dsimp only
  cases e.files.write config.path databaseMark with
  | error fault => exact ⟨rfl, .of h⟩
  | ok files => exact ⟨rfl, .of h⟩

theorem kindred_openExisting (config : DatabaseRecord) :
    Agrees Kindred (openExisting config) := by
  refine Agrees.bind (kindred_note _ _) fun _ => ?_
  refine Agrees.bind (kindred_takePending _) fun status => Agrees.ite (Agrees.pure _) ?_
  refine Agrees.bind (kindred_checkConfigBlock _) fun _ => ?_
  refine Agrees.look (fun _ _ ⟨_⟩ => rfl) fun e => Agrees.ite (Agrees.pure _) ?_
  refine Agrees.bind (kindred_ofFiles _) fun content => Agrees.ite (Agrees.pure _) ?_
  exact Agrees.bind (kindred_newDatabase _) fun _ => Agrees.pure _

theorem kindred_close (h : Handle) : Agrees Kindred (close h) := by
  refine Agrees.bind (kindred_note _ _) fun _ => Agrees.get_bind fun e _ ⟨hrel⟩ => ?_
  rw [run_bind, run_bind]
  dsimp only
  cases e.databases.get? h with
  | none => exact ⟨rfl, .of hrel⟩
  | some d =>
    rw [run_require_some, run_require_some]
    dsimp only
    rw [run_ite, run_ite]
    split
    · exact ⟨rfl, .of hrel⟩
    · exact ⟨rfl, .of hrel⟩

theorem kindred_registerThread (h : Handle) : Agrees Kindred (registerThread h) :=
  Agrees.bind (kindred_note _ _) fun _ => Agrees.modify fun _ _ ⟨h⟩ => .of h

theorem kindred_deregisterThread (h : Handle) : Agrees Kindred (deregisterThread h) :=
  Agrees.bind (kindred_note _ _) fun _ => Agrees.modify fun _ _ ⟨h⟩ => .of h

/-! ## Families -/

theorem kindred_storeFor (path : String) (index : Nat) : Agrees Kindred (storeFor path index) := by
  refine Agrees.get_bind fun e _ ⟨h⟩ => ?_
  rw [run_bind, run_bind]
  dsimp only
  cases e.stores.get? path with
  | none => exact ⟨rfl, .of h⟩
  | some byIndex =>
    rw [run_require_some, run_require_some]
    dsimp only
    cases byIndex.get? index with
    | none => exact ⟨rfl, .of h⟩
    | some σ => exact ⟨rfl, .of h⟩

/-- Families that are made with concurring data functions leave kindred engines behind. -/
theorem similar_familyCreate (h : Handle) (config : DataRecord) {g : DataFuncs}
    (hconcur : config.funcs.Concur g) (name : Bytes) :
    Similar Kindred Eq (familyCreate h config)
      (familyCreate h { config with typeName := name, funcs := g }) := by
  refine Similar.bind_agrees (kindred_note _ _) fun _ => Similar.get_bind fun e _ ⟨hrel⟩ => ?_
  dsimp only
  cases hd : e.databases.get? h with
  | none => exact ⟨.error _, .of hrel⟩
  | some d =>
    have hset : Agrees Kindred (do
        modify fun e : Engine => { e with
          databases := e.databases.set h { d with nextFamily := d.nextFamily + 1 } }
        storeFor d.path d.nextFamily) :=
      Agrees.bind (Agrees.modify fun _ _ ⟨h⟩ => .of h) fun _ => kindred_storeFor _ _
    have hmake : ∀ σ, Similar Kindred Eq
        (do
          modify fun e : Engine => { e with
            families := e.families.set (h, d.nextFamily) ⟨h, config, σ, false⟩ }
          return (h, d.nextFamily) : Run FamilyHandle)
        (do
          modify fun e : Engine => { e with
            families := e.families.set (h, d.nextFamily)
              ⟨h, { config with typeName := name, funcs := g }, σ, false⟩ }
          return (h, d.nextFamily)) := fun σ =>
      Similar.bind (Similar.modify fun _ _ ⟨h⟩ => .of (h.set _ (.of hconcur))) fun _ _ _ =>
        Similar.pure rfl
    exact Similar.bind_agrees hset hmake e _ (.of hrel)

theorem kindred_familyDelete (f : FamilyHandle) : Agrees Kindred (familyDelete f) := by
  refine Agrees.bind (kindred_note _ _) fun _ => Agrees.get_bind fun e _ ⟨h⟩ => ?_
  rw [run_bind, run_bind]
  dsimp only
  rcases h.get? f with ⟨hn, hn'⟩ | ⟨fam, fam', hf, hf', hfam⟩
  · rw [hn, hn']
    exact ⟨rfl, .of h⟩
  · rw [hf, hf', run_require_some, run_require_some]
    obtain ⟨hconcur⟩ := hfam
    dsimp only
    rw [run_ite, run_ite]
    split
    · exact ⟨rfl, .of h⟩
    · exact ⟨rfl, .of (h.set f (.of hconcur))⟩

end Run

end Engine

end FamilyStore
