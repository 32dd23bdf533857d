import FamilyStore.Engine.Cursors
import FamilyStore.Engine.Databases
import FamilyStore.Engine.Families
import FamilyStore.Engine.Lookups
import FamilyStore.Proofs.Work

/-!
Work of the engine that leaves cursors alone.

Everything but the work of cursors keeps them the same: no cursor changes, no memory is lent or
taken back, and the calls that are noted are not about the position of a cursor. Beyond that, such
work says which parts of the engine it may change; all others are as before.
-/

namespace FamilyStore.Engine

/-- How often a cursor was told to go on. -/
def stepsOf (calls : List Call) (h : Handle) : Nat := calls.count ⟨.iteratorNext, .handle h⟩

/-- The call that asks a cursor for its present record. -/
def asking (h : Handle) : Call := ⟨.iteratorGetCurrent, .handle h⟩

theorem next_ne_asking (h g : Handle) : Call.mk .iteratorNext (.handle h) ≠ asking g := by
  unfold asking
  simp

theorem stepsOf_append {h : Handle} {new : List Call} (calls : List Call)
    (hn : Call.mk .iteratorNext (.handle h) ∉ new) :
    stepsOf (new ++ calls) h = stepsOf calls h := by
  unfold stepsOf
  rw [List.count_append, List.count_eq_zero.2 hn, Nat.zero_add]

theorem asked_append {h : Handle} {new calls earlier : List Call} (hn : asking h ∉ new)
    (hs : asking h :: earlier <:+ new ++ calls) : asking h :: earlier <:+ calls := by
  induction new with
  | nil => exact hs
  | cons call new ih =>
    rcases List.suffix_cons_iff.1 hs with heq | hs
    · exact absurd (by rw [(List.cons.inj heq).1]; exact List.mem_cons_self) hn
    · exact ih (fun hm => hn (List.mem_cons_of_mem _ hm)) hs

theorem stepsOf_cons {entry : EntryPoint} (hn : entry ≠ .iteratorNext) (subject : Subject)
    (calls : List Call) (h : Handle) :
    stepsOf (⟨entry, subject⟩ :: calls) h = stepsOf calls h := by
  have hnew : Call.mk .iteratorNext (.handle h) ∉ [⟨entry, subject⟩] := fun hm =>
    hn (Call.mk.inj (List.mem_singleton.1 hm)).1.symm
  exact stepsOf_append calls hnew

theorem asked_cons {entry : EntryPoint} (hn : entry ≠ .iteratorGetCurrent) {subject : Subject}
    {h : Handle} {calls earlier : List Call}
    (hs : asking h :: earlier <:+ ⟨entry, subject⟩ :: calls) : asking h :: earlier <:+ calls := by
  have hnew : asking h ∉ [⟨entry, subject⟩] := fun hm =>
    hn (Call.mk.inj (List.mem_singleton.1 hm)).1.symm
  exact asked_append hnew hs

/-- A part of the engine that may change while cursors are the same. -/
inductive Part where
  /-- The failures that are set up. -/
  | settings
  | databases
  | families
  | stores
  | records
  deriving DecidableEq

/-- A part is the same in two states. A status that is pending may have been taken. -/
def Part.Same : Part → Engine → Engine → Prop
  | .settings, e, e' => e'.failIterationAt = e.failIterationAt ∧ e'.refuseResize = e.refuseResize ∧
      ∀ entry, e.pending.get? entry = none → e'.pending.get? entry = none
  | .databases, e, e' => e'.databases = e.databases
  | .families, e, e' => e'.families = e.families
  | .stores, e, e' => e'.stores = e.stores
  | .records, e, e' => e'.records = e.records

theorem Part.Same.refl (p : Part) (e : Engine) : p.Same e e := by
  cases p with
  | settings => exact ⟨rfl, rfl, fun _ h => h⟩
  | databases | families | stores | records => rfl

theorem Part.Same.trans {p : Part} {e e' e'' : Engine} (h : p.Same e e') (h' : p.Same e' e'') :
    p.Same e e'' := by
  cases p with
  | settings =>
    exact ⟨h'.1.trans h.1, h'.2.1.trans h.2.1, fun entry hn => h'.2.2 entry (h.2.2 entry hn)⟩
  | databases | families | stores | records => exact Eq.trans h' h

/-- Cursors are the same, and all parts but some. -/
structure SameCursors (parts : List Part) (e e' : Engine) : Prop where
  cursors : e'.cursors = e.cursors
  memory : e'.memory = e.memory
  nextHandle : e.nextHandle ≤ e'.nextHandle
  steps : ∀ h, stepsOf e'.calls h = stepsOf e.calls h
  asked : ∀ h earlier, asking h :: earlier <:+ e'.calls → asking h :: earlier <:+ e.calls
  same : ∀ p, p ∉ parts → p.Same e e'

namespace SameCursors

variable {parts : List Part} {e e' : Engine}

instance : Frame (SameCursors parts) where
  refl e := ⟨rfl, rfl, (Nat.le_refl _), fun _ => rfl, fun _ _ h => h, fun p _ => Part.Same.refl p e⟩
  trans h h' :=
    { cursors := h'.cursors.trans h.cursors
      memory := h'.memory.trans h.memory
      nextHandle := Nat.le_trans h.nextHandle h'.nextHandle
      steps := fun c => (h'.steps c).trans (h.steps c)
      asked := fun c earlier ha => h.asked c earlier (h'.asked c earlier ha)
      same := fun p hp => (h.same p hp).trans (h'.same p hp) }

/-- A change that leaves cursors, memory and calls alone, part by part. -/
theorem of_parts (hc : e'.cursors = e.cursors) (hm : e'.memory = e.memory)
    (hn : e.nextHandle ≤ e'.nextHandle) (hl : e'.calls = e.calls)
    (h₁ : .settings ∈ parts ∨ Part.settings.Same e e')
    (h₂ : .databases ∈ parts ∨ e'.databases = e.databases)
    (h₃ : .families ∈ parts ∨ e'.families = e.families)
    (h₄ : .stores ∈ parts ∨ e'.stores = e.stores)
    (h₅ : .records ∈ parts ∨ e'.records = e.records) : SameCursors parts e e' where
  cursors := hc
  memory := hm
  nextHandle := hn
  steps _ := by rw [hl]
  asked _ _ h := by rwa [hl] at h
  same p hp := by
    cases p with
    | settings => exact h₁.resolve_left hp
    | databases => exact h₂.resolve_left hp
    | families => exact h₃.resolve_left hp
    | stores => exact h₄.resolve_left hp
    | records => exact h₅.resolve_left hp

/-- A change of nothing that a part covers. -/
theorem of_rest (hc : e'.cursors = e.cursors) (hm : e'.memory = e.memory)
    (hn : e.nextHandle ≤ e'.nextHandle) (hl : e'.calls = e.calls)
    (h₁ : Part.settings.Same e e') (h₂ : e'.databases = e.databases)
    (h₃ : e'.families = e.families) (h₄ : e'.stores = e.stores)
    (h₅ : e'.records = e.records) : SameCursors parts e e' :=
  of_parts hc hm hn hl (.inr h₁) (.inr h₂) (.inr h₃) (.inr h₄) (.inr h₅)

/-- Calls that are not about the position of a cursor leave it as it is. -/
theorem of_calls (new : List Call)
    (h : ∀ c ∈ new, c.entry ≠ .iteratorNext ∧ c.entry ≠ .iteratorGetCurrent) :
    SameCursors parts e { e with calls := new ++ e.calls } where
  cursors := rfl
  memory := rfl
  nextHandle := Nat.le_refl _
  steps c := stepsOf_append _ fun hm => (h _ hm).1 rfl
  asked c _ hs := asked_append (fun hm => (h _ hm).2 rfl) hs
  same p _ := by
    cases p with
    | settings => exact ⟨rfl, rfl, fun _ h => h⟩
    | databases | families | stores | records => rfl

end SameCursors

namespace Run

variable {parts : List Part}

theorem sameCursors_note {entry : EntryPoint}
    (h : entry ≠ .iteratorNext ∧ entry ≠ .iteratorGetCurrent)
    (subject : Subject) : Within (SameCursors parts) (note entry subject) := by
  refine Within.modify fun e => SameCursors.of_calls [⟨entry, subject⟩] ?_
  intro c hc
  rw [List.mem_singleton] at hc
  rw [hc]
  exact h

theorem sameCursors_takePending (entry : EntryPoint) :
    Within (SameCursors parts) (takePending entry) := by
  intro e
  refine SameCursors.of_rest rfl rfl (Nat.le_refl _) rfl ⟨rfl, rfl, ?_⟩ rfl rfl rfl rfl
  intro other hn
  show (e.pending.erase entry).get? other = none
  rw [Table.get?_erase, hn, ite_self]

theorem sameCursors_newHandle : Within (SameCursors parts) newHandle := by
  intro e
  exact SameCursors.of_rest rfl rfl (Nat.le_add_right _ _) rfl ⟨rfl, rfl, fun _ h => h⟩ rfl rfl
    rfl rfl

theorem sameCursors_setRecords (h : .records ∈ parts) (σ : StoreId) (R : Records) :
    Within (SameCursors parts) (setRecords σ R) :=
  Within.modify fun _ =>
    SameCursors.of_parts rfl rfl (Nat.le_refl _) rfl (.inr ⟨rfl, rfl, fun _ h => h⟩)
    (.inr rfl) (.inr rfl) (.inr rfl) (.inl h)

/-! ## Databases and threads -/

theorem sameCursors_configInit : Within (SameCursors parts) configInit := by
  refine Within.bind (sameCursors_note (by decide) _) fun _ =>
    Within.bind sameCursors_newHandle fun h => ?_
  refine Within.bind (Within.modify fun e => ?_) fun _ => Within.pure h
  exact SameCursors.of_rest rfl rfl (Nat.le_refl _) rfl ⟨rfl, rfl, fun _ h => h⟩ rfl rfl rfl rfl

theorem sameCursors_configDeinit (h : Handle) : Within (SameCursors parts) (configDeinit h) := by
  refine Within.bind (sameCursors_note (by decide) _) fun _ => Within.get_bind fun e => ?_
  rw [run_ite]
  split
  · exact Frame.refl e
  · exact SameCursors.of_rest rfl rfl (Nat.le_refl _) rfl ⟨rfl, rfl, fun _ h => h⟩ rfl rfl rfl rfl

theorem sameCursors_checkConfigBlock (h : Handle) :
    Within (SameCursors parts) (checkConfigBlock h) :=
  Within.bind Within.get fun _ => Within.ite (within_refuse _) (Within.pure _)

theorem sameCursors_newDatabase (hd : .databases ∈ parts) (hs : .stores ∈ parts) (path : String) :
    Within (SameCursors parts) (newDatabase path) := by
  refine Within.bind sameCursors_newHandle fun h => Within.bind (Within.modify fun e => ?_) fun _ =>
    Within.pure h
  exact SameCursors.of_parts rfl rfl (Nat.le_refl _) rfl (.inr ⟨rfl, rfl, fun _ h => h⟩) (.inl hd)
    (.inr rfl) (.inl hs) (.inr rfl)

theorem sameCursors_ofFiles {α : Type} (r : Except Files.Fault α) :
    Within (SameCursors parts) (ofFiles r) := by
  cases r with
  | ok a => exact Within.pure a
  | error fault => exact Within.throw _

theorem sameCursors_create (hd : .databases ∈ parts) (hs : .stores ∈ parts)
    (config : DatabaseRecord) : Within (SameCursors parts) (create config) := by
  refine Within.bind (sameCursors_note (by decide) _) fun _ =>
    Within.bind (sameCursors_takePending _) fun status => ?_
  refine Within.ite (Within.pure _) (Within.bind (sameCursors_checkConfigBlock _) fun _ => ?_)
  refine Within.get_bind fun e => ?_
  have hfiles : Within (SameCursors parts) (ofFiles (e.files.write config.path databaseMark)) :=
    sameCursors_ofFiles _
  replace hfiles := hfiles e
  rw [run_bind]
  cases hr : (ofFiles (e.files.write config.path databaseMark)).run e with
  | mk r t =>
    rw [hr] at hfiles
    cases r with
    | error f => exact hfiles
    | ok files =>
      refine Frame.trans ?_ (Within.bind (sameCursors_newDatabase hd hs config.path)
        (fun h => Within.pure (Except.ok h)) _)
      exact SameCursors.of_parts rfl rfl (Nat.le_refl _) rfl
        (.inr ⟨rfl, rfl, fun _ h => h⟩) (.inr rfl) (.inr rfl) (.inl hs) (.inr rfl)

theorem sameCursors_openExisting (hd : .databases ∈ parts) (hs : .stores ∈ parts)
    (config : DatabaseRecord) : Within (SameCursors parts) (openExisting config) := by
  refine Within.bind (sameCursors_note (by decide) _) fun _ =>
    Within.bind (sameCursors_takePending _) fun status => ?_
  refine Within.ite (Within.pure _) (Within.bind (sameCursors_checkConfigBlock _) fun _ => ?_)
  refine Within.bind Within.get fun e => Within.ite (Within.pure _) ?_
  refine Within.bind (sameCursors_ofFiles _) fun content => Within.ite (Within.pure _) ?_
  exact Within.bind (sameCursors_newDatabase hd hs _) fun h => Within.pure _

theorem sameCursors_close (hd : .databases ∈ parts) (h : Handle) :
    Within (SameCursors parts) (close h) := by
  refine Within.bind (sameCursors_note (by decide) _) fun _ => Within.get_bind fun e => ?_
  cases hr : e.databases.get? h with
  | none => exact Frame.refl e
  | some database =>
    show SameCursors parts e ((do
      if !database.isOpen then refuse .databaseClosedTwice
      set { e with databases := e.databases.set h { database with isOpen := false } } :
        Engine.Run Unit).run e).2
    rw [run_ite]
    split
    · exact Frame.refl e
    · exact SameCursors.of_parts rfl rfl (Nat.le_refl _) rfl
        (.inr ⟨rfl, rfl, fun _ h => h⟩) (.inl hd) (.inr rfl) (.inr rfl) (.inr rfl)

theorem sameCursors_registerThread (h : Handle) : Within (SameCursors parts) (registerThread h) :=
  Within.bind (sameCursors_note (by decide) _) fun _ => Within.modify fun _ =>
    SameCursors.of_rest rfl rfl (Nat.le_refl _) rfl ⟨rfl, rfl, fun _ h => h⟩ rfl rfl rfl rfl

theorem sameCursors_deregisterThread (h : Handle) :
    Within (SameCursors parts) (deregisterThread h) :=
  Within.bind (sameCursors_note (by decide) _) fun _ => Within.modify fun _ =>
    SameCursors.of_rest rfl rfl (Nat.le_refl _) rfl ⟨rfl, rfl, fun _ h => h⟩ rfl rfl rfl rfl

/-! ## Families and their records -/

theorem sameCursors_storeFor (hs : .stores ∈ parts) (hr : .records ∈ parts) (path : String)
    (index : Nat) : Within (SameCursors parts) (storeFor path index) := by
  refine Within.get_bind fun e => ?_
  cases e.stores.get? path with
  | none => exact Frame.refl e
  | some byIndex =>
    rw [run_bind, run_require_some]
    dsimp only
    cases byIndex.get? index with
    | some σ => exact Frame.refl e
    | none =>
      exact SameCursors.of_parts rfl rfl (Nat.le_refl _) rfl
        (.inr ⟨rfl, rfl, fun _ h => h⟩) (.inr rfl) (.inr rfl) (.inl hs) (.inl hr)

theorem sameCursors_familyCreate (hd : .databases ∈ parts) (hf : .families ∈ parts)
    (hs : .stores ∈ parts) (hr : .records ∈ parts) (h : Handle) (config : DataRecord) :
    Within (SameCursors parts) (familyCreate h config) := by
  refine Within.bind (sameCursors_note (by decide) _) fun _ => Within.get_bind fun e => ?_
  cases e.databases.get? h with
  | none => exact Frame.refl e
  | some database =>
    have hrest : Within (SameCursors parts) (do
        let σ ← storeFor database.path database.nextFamily
        modify fun e => { e with
          families := e.families.set (h, database.nextFamily) ⟨h, config, σ, false⟩ }
        pure (h, database.nextFamily) : Engine.Run FamilyHandle) := by
      refine Within.bind (sameCursors_storeFor hs hr _ _) fun σ =>
        Within.bind (Within.modify fun e => ?_) fun _ => Within.pure _
      exact SameCursors.of_parts rfl rfl (Nat.le_refl _) rfl
        (.inr ⟨rfl, rfl, fun _ h => h⟩) (.inr rfl) (.inl hf) (.inr rfl) (.inr rfl)
    refine Frame.trans ?_ (hrest { e with
      databases := e.databases.set h { database with nextFamily := database.nextFamily + 1 } })
    exact SameCursors.of_parts rfl rfl (Nat.le_refl _) rfl (.inr ⟨rfl, rfl, fun _ h => h⟩) (.inl hd)
      (.inr rfl) (.inr rfl) (.inr rfl)

theorem sameCursors_familyDelete (hf : .families ∈ parts) (f : FamilyHandle) :
    Within (SameCursors parts) (familyDelete f) := by
  refine Within.bind (sameCursors_note (by decide) _) fun _ => Within.get_bind fun e => ?_
  cases e.families.get? f with
  | none => exact Frame.refl e
  | some fam =>
    show SameCursors parts e ((do
      if fam.deleted then refuse .familyDeletedTwice
      set { e with families := e.families.set f { fam with deleted := true } } :
        Engine.Run Unit).run e).2
    rw [run_ite]
    split
    · exact Frame.refl e
    · exact SameCursors.of_parts rfl rfl (Nat.le_refl _) rfl
        (.inr ⟨rfl, rfl, fun _ h => h⟩) (.inr rfl) (.inl hf) (.inr rfl) (.inr rfl)

theorem sameCursors_insert (h : .records ∈ parts) (f : FamilyHandle) (key value : Span) :
    Within (SameCursors parts) (insert f key value) := by
  refine Within.bind (sameCursors_note (by decide) _) fun _ =>
    Within.bind (within_family f) fun fam => ?_
  refine Within.bind (sameCursors_takePending _) fun status => Within.ite (Within.pure _) ?_
  refine Within.ite (Within.pure _) (Within.bind Within.get fun e => ?_)
  exact Within.bind (sameCursors_setRecords h _ _) fun _ => Within.pure _

theorem accumulatorEntry_sameCursors (c : AccumulatorCall) :
    accumulatorEntry c ≠ .iteratorNext ∧ accumulatorEntry c ≠ .iteratorGetCurrent := by
  cases c <;> exact ⟨by decide, by decide⟩

/-- What the merge of a delta into the record of a key comes to. -/
def mergeOutcome (funcs : DataFuncs) (records : Records) (key : Bytes) (a : Accumulator)
    (refuse : Bool) : MergeOutcome :=
  match records.get? key with
  | some old => funcs.mergeInto key (some old) a refuse
  | none => funcs.mergeFinalInto key a refuse

/-- The engine after a merge has asked for its accumulator and left its result there. -/
def afterMerge (e : Engine) (acc : Handle) (o : MergeOutcome) : Engine :=
  { e with
    calls := (o.calls.map fun c => Call.mk (accumulatorEntry c) (.handle acc)).reverse ++ e.calls
    accumulators := e.accumulators.set acc o.accumulator }

/-- A merge asks for its accumulator, and writes the record only if its callback went well. -/
theorem run_merge {e : Engine} {acc : Handle} {a : Accumulator}
    (ha : e.accumulators.get? acc = some a) {fam : Family} {key : Bytes} {o : MergeOutcome}
    (ho : mergeOutcome fam.config.funcs (e.recordsOf fam.store) key a e.refuseResize = o) :
    (merge fam key acc).run e = (.ok (o.status, o.events),
      if o.status = Status.success then
        { afterMerge e acc o with
          records := e.records.set fam.store
            ((e.recordsOf fam.store).set key o.accumulator.contents) }
      else afterMerge e acc o) := by
  subst ho
  unfold merge
  rw [run_bind, run_get]
  dsimp only
  rw [ha, require, run_bind, run_pure]
  dsimp only
  rw [run_bind, run_set]
  dsimp only
  rw [run_ite]
  by_cases hs : (mergeOutcome fam.config.funcs (e.recordsOf fam.store) key a e.refuseResize).status
      = Status.success
  · rw [if_pos hs]
    exact if_pos hs
  · rw [if_neg hs]
    exact if_neg hs

theorem sameCursors_afterMerge (e : Engine) (acc : Handle) (o : MergeOutcome) :
    SameCursors parts e (afterMerge e acc o) := by
  have hlast : SameCursors parts { e with
      calls :=
        (o.calls.map fun c => Call.mk (accumulatorEntry c) (.handle acc)).reverse ++ e.calls }
      (afterMerge e acc o) :=
    SameCursors.of_rest rfl rfl (Nat.le_refl _) rfl ⟨rfl, rfl, fun _ h => h⟩ rfl rfl rfl rfl
  refine Frame.trans (SameCursors.of_calls _ ?_) hlast
  intro call hm
  obtain ⟨c, -, rfl⟩ := List.mem_map.1 (List.mem_reverse.1 hm)
  exact accumulatorEntry_sameCursors c

theorem sameCursors_merge (h : .records ∈ parts) (fam : Family) (key : Bytes) (acc : Handle) :
    Within (SameCursors parts) (merge fam key acc) := by
  intro e
  cases ha : e.accumulators.get? acc with
  | none =>
    unfold merge
    rw [run_bind, run_get]
    dsimp only
    rw [ha]
    exact Frame.refl e
  | some a =>
    have ho : SameCursors parts e (afterMerge e acc
        (mergeOutcome fam.config.funcs (e.recordsOf fam.store) key a e.refuseResize)) :=
      sameCursors_afterMerge e acc _
    rw [run_merge ha rfl]
    split
    · refine Frame.trans ho ?_
      exact SameCursors.of_parts rfl rfl (Nat.le_refl _) rfl
        (.inr ⟨rfl, rfl, fun _ h => h⟩) (.inr rfl) (.inr rfl) (.inr rfl) (.inl h)
    · exact ho

theorem sameCursors_update (h : .records ∈ parts) (f : FamilyHandle) (key delta : Span) :
    Within (SameCursors parts) (update f key delta) := by
  have hacc : ∀ change : Engine → Table Handle Accumulator, Within (SameCursors parts)
      (modify (fun e => { e with accumulators := change e }) : Engine.Run Unit) := fun _ =>
    Within.modify fun _ => SameCursors.of_rest rfl rfl (Nat.le_refl _) rfl ⟨rfl, rfl, fun _ h => h⟩
      rfl rfl rfl rfl
  refine Within.bind (sameCursors_note (by decide) _) fun _ =>
    Within.bind (within_family f) fun fam => ?_
  refine Within.bind (sameCursors_takePending _) fun status => Within.ite (Within.pure _) ?_
  refine Within.ite (Within.pure _) (Within.bind sameCursors_newHandle fun acc => ?_)
  refine Within.bind (hacc _) fun _ => Within.bind (sameCursors_merge h _ _ _) fun result => ?_
  exact Within.bind (hacc _) fun _ => Within.pure _

theorem sameCursors_delete (h : .records ∈ parts) (f : FamilyHandle) (key : Span) :
    Within (SameCursors parts) (delete f key) := by
  refine Within.bind (sameCursors_note (by decide) _) fun _ =>
    Within.bind (within_family f) fun fam => ?_
  refine Within.bind (sameCursors_takePending _) fun status => Within.ite (Within.pure _) ?_
  refine Within.bind Within.get fun e => ?_
  exact Within.bind (sameCursors_setRecords h _ _) fun _ => Within.pure _

/-! ## Lookups -/

/-- Results of lookups may change in between. -/
theorem sameCursors_lookups (e : Engine) (t : Table Nat (Option Bytes)) :
    SameCursors parts e { e with lookups := t } :=
  SameCursors.of_rest rfl rfl (Nat.le_refl _) rfl ⟨rfl, rfl, fun _ h => h⟩ rfl rfl rfl rfl

theorem sameCursors_lookupInit (f : FamilyHandle) (address : Nat) :
    Within (SameCursors parts) (lookupInit f address) := by
  refine Within.bind (sameCursors_note (by decide) _) fun _ =>
    Within.bind (within_family f) fun _ => ?_
  refine Within.get_bind fun e => ?_
  rw [run_ite]
  split
  · exact Frame.refl e
  · exact sameCursors_lookups e _

theorem sameCursors_lookup (f : FamilyHandle) (key : Span) (address : Nat) :
    Within (SameCursors parts) (lookup f key address) := by
  refine Within.bind (sameCursors_note (by decide) _) fun _ =>
    Within.bind (within_family f) fun fam => ?_
  refine Within.bind Within.get fun e => Within.bind (within_require (e.lookups.get? address))
    fun _ => ?_
  refine Within.bind (sameCursors_takePending _) fun status => Within.ite (Within.pure _) ?_
  cases (e.recordsOf fam.store).get? key.read with
  | none => exact Within.bind (Within.pure ()) fun _ => Within.pure _
  | some value =>
    exact Within.bind (Within.modify fun e => sameCursors_lookups e _) fun _ => Within.pure _

theorem sameCursors_lookupFound (address : Nat) :
    Within (SameCursors parts) (lookupFound address) := by
  refine Within.bind (sameCursors_note (by decide) _) fun _ => Within.bind Within.get fun e => ?_
  exact Within.bind (within_require (e.lookups.get? address)) fun _ => Within.pure _

theorem sameCursors_lookupValue (address : Nat) :
    Within (SameCursors parts) (lookupValue address) := by
  refine Within.bind (sameCursors_note (by decide) _) fun _ => Within.bind Within.get fun e => ?_
  refine Within.bind (within_require _) fun found =>
    Within.bind (sameCursors_takePending _) fun status => ?_
  exact Within.ite (Within.pure _) (Within.bind (within_require _) fun value => Within.pure _)

theorem sameCursors_lookupDeinit (address : Nat) :
    Within (SameCursors parts) (lookupDeinit address) := by
  refine Within.bind (sameCursors_note (by decide) _) fun _ => Within.get_bind fun e => ?_
  cases e.lookups.get? address with
  | none => exact Frame.refl e
  | some _ => exact sameCursors_lookups e _

end Run

end FamilyStore.Engine
