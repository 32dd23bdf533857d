import FamilyStore.Proofs.Engine.Housed

/-!
What writing, updating, removing and looking up come to in the engine.

A call either leaves all records alone, or it changes those of its family, and these in one way. It
does its work when the family is in use, no failure is set up and the key is not too long.
-/

namespace FamilyStore.Engine

/-- The records of a family that is in use have changed in some way, and nothing else. -/
def Writes (f : FamilyHandle) (change : Records → Records) (e e' : Engine) : Prop :=
  ∃ fam, Run.Serves e f fam ∧ SameCursors [.records] e e' ∧
    e'.records = e.records.set fam.store (change (e.recordsOf fam.store))

namespace Run

variable {e : Engine} {f : FamilyHandle} {fam : Family}

/-- The engine when a call on a family has taken its pending status. -/
def asked (e : Engine) (entry : EntryPoint) (f : FamilyHandle) : Engine :=
  { e with calls := ⟨entry, .family f⟩ :: e.calls, pending := e.pending.erase entry }

theorem sameCursors_asked {parts : List Part} (e : Engine) (entry : EntryPoint)
    (h : entry ≠ .iteratorNext ∧ entry ≠ .iteratorGetCurrent) (f : FamilyHandle) :
    SameCursors parts e (asked e entry f) := by
  have hnote : SameCursors parts e _ := sameCursors_note h (.family f) e
  exact Frame.trans hnote (sameCursors_takePending entry _)

/-- All calls on a family that change records begin in one way. -/
theorem run_asked {α : Type} (hs : Serves e f fam) (entry : EntryPoint)
    (rest : Family → Status → Run α) :
    (note entry (.family f) >>= fun _ => family f >>= fun fam =>
      takePending entry >>= rest fam).run e =
    (rest fam (pendingStatus e entry)).run (asked e entry f) := by
  have hs' : Serves { e with calls := ⟨entry, .family f⟩ :: e.calls } f fam := hs
  rw [run_bind, run_note]
  dsimp only
  rw [run_bind, run_family hs']
  dsimp only
  rw [run_bind, run_takePending]
  rfl

/-- A family that is not in use is refused. -/
theorem run_asked_of_not {α : Type} (hs : ∀ fam, ¬ Serves e f fam) (entry : EntryPoint)
    (rest : Family → Run α) :
    ((note entry (.family f) >>= fun _ => family f >>= rest).run e).2 =
      { e with calls := ⟨entry, .family f⟩ :: e.calls } := by
  rw [run_bind, run_note]
  dsimp only
  rw [run_bind]
  obtain ⟨r, e', hrun⟩ : ∃ r e', (family f).run
      { e with calls := ⟨entry, .family f⟩ :: e.calls } = (r, e') := ⟨_, _, rfl⟩
  have hsame := run_family_snd f { e with calls := ⟨entry, .family f⟩ :: e.calls }
  rw [hrun] at hsame ⊢
  cases r with
  | ok fam => exact absurd (serves_of_run_family hrun) (hs fam)
  | error failure => exact hsame

/-! ## Writing and removing -/

/-- Writing reports a status, and writes the record if that is success. -/
theorem run_insert (hs : Serves e f fam) (key value : Span) :
    ∃ r e', (insert f key value).run e = (.ok r, e') ∧
      (pendingStatus e .insert = Status.success ∧ isTooLong fam key.length = false →
        r = Status.success ∧ Writes f (·.set key.read value.read) e e') ∧
      (¬ (pendingStatus e .insert = Status.success ∧ isTooLong fam key.length = false) →
        SameCursors [] e e') := by
  unfold insert
  rw [run_asked hs]
  by_cases hp : pendingStatus e .insert = Status.success
  · rw [run_ite, if_neg (not_not_intro hp), run_ite]
    cases hk : isTooLong fam key.length with
    | true =>
      exact ⟨_, _, rfl, fun h => absurd h.2 (by simp),
        fun _ => sameCursors_asked e .insert (by decide) f⟩
    | false =>
      refine ⟨_, _, rfl, fun _ => ⟨rfl, fam, hs, ?_, rfl⟩, fun h => absurd ⟨hp, rfl⟩ h⟩
      refine Frame.trans (sameCursors_asked e .insert (by decide) f) ?_
      exact sameCursors_setRecords (by decide) _ _ _
  · rw [run_ite, if_pos hp]
    exact ⟨_, _, rfl, fun h => absurd h.1 hp, fun _ => sameCursors_asked e .insert (by decide) f⟩

/-- The status that writing reports. -/
theorem insert_reply (hs : Serves e f fam) (key value : Span) :
    ((insert f key value).run e).1 = .ok (
      if pendingStatus e .insert ≠ Status.success then pendingStatus e .insert
      else if isTooLong fam key.length then Status.invalid else Status.success) := by
  unfold insert
  rw [run_asked hs, run_ite, run_ite]
  split
  · rfl
  · split
    · rfl
    · rfl

/-- Removing reports a status, and removes the record if that is success. -/
theorem run_delete (hs : Serves e f fam) (key : Span) :
    ∃ r e', (delete f key).run e = (.ok r, e') ∧
      (pendingStatus e .delete = Status.success →
        r = Status.success ∧ Writes f (·.erase key.read) e e') ∧
      (¬ pendingStatus e .delete = Status.success → SameCursors [] e e') := by
  unfold delete
  rw [run_asked hs]
  by_cases hp : pendingStatus e .delete = Status.success
  · rw [run_ite, if_neg (not_not_intro hp)]
    refine ⟨_, _, rfl, fun _ => ⟨rfl, fam, hs, ?_, rfl⟩, fun h => absurd hp h⟩
    refine Frame.trans (sameCursors_asked e .delete (by decide) f) ?_
    exact sameCursors_setRecords (by decide) _ _ _
  · rw [run_ite, if_pos hp]
    exact ⟨_, _, rfl, fun h => absurd h hp, fun _ => sameCursors_asked e .delete (by decide) f⟩

/-! ## Updating -/

/-- Accumulators may change in between. -/
theorem sameCursors_accumulators {parts : List Part} (e : Engine) (t : Table Handle Accumulator) :
    SameCursors parts e { e with accumulators := t } :=
  SameCursors.of_rest rfl rfl (Nat.le_refl _) rfl ⟨rfl, rfl, fun _ h => h⟩ rfl rfl rfl rfl

/-- Merges a delta in an accumulator that is made for it and given back. -/
def mergeDelta (fam : Family) (key delta : Bytes) : Run (Status × List Event) := do
  let acc ← newHandle
  modify fun e => { e with accumulators := e.accumulators.set acc ⟨delta⟩ }
  let result ← merge fam key acc
  modify fun e => { e with accumulators := e.accumulators.erase acc }
  return result

/-- The engine while it merges. -/
def merging (e : Engine) (delta : Bytes) : Engine :=
  { e with
    nextHandle := e.nextHandle + handleStep
    accumulators := e.accumulators.set e.nextHandle ⟨delta⟩ }

theorem sameCursors_merging {parts : List Part} (e : Engine) (delta : Bytes) :
    SameCursors parts e (merging e delta) :=
  Frame.trans (sameCursors_newHandle e) (sameCursors_accumulators _ _)

theorem run_mergeDelta (e : Engine) (fam : Family) (key delta : Bytes) {o : MergeOutcome}
    (ho : mergeOutcome fam.config.funcs (e.recordsOf fam.store) key ⟨delta⟩ e.refuseResize = o) :
    ∃ e', (mergeDelta fam key delta).run e = (.ok (o.status, o.events), e') ∧
      (o.status = Status.success → SameCursors [.records] e e' ∧ e'.records =
        e.records.set fam.store ((e.recordsOf fam.store).set key o.accumulator.contents)) ∧
      (o.status ≠ Status.success → SameCursors [] e e') := by
  have hmerge : (merge fam key e.nextHandle).run (merging e delta) = _ :=
    run_merge (Table.get?_set_self _ _ _) ho
  have hrun : ∀ e', (merge fam key e.nextHandle).run (merging e delta) =
      (.ok (o.status, o.events), e') → (mergeDelta fam key delta).run e =
      (.ok (o.status, o.events),
        { e' with accumulators := e'.accumulators.erase e.nextHandle }) := by
    intro e' h
    unfold mergeDelta
    rw [run_bind, run_newHandle]
    dsimp only
    rw [run_bind, run_modify]
    dsimp only
    rw [run_bind]
    unfold merging at h
    rw [h]
    rfl
  refine ⟨_, hrun _ hmerge, fun hs => ?_, fun hs => ?_⟩
  · rw [if_pos hs]
    refine ⟨Frame.trans (sameCursors_merging e delta) ?_, rfl⟩
    refine Frame.trans (sameCursors_afterMerge _ e.nextHandle o)
      (Frame.trans ?_ (sameCursors_accumulators _ _))
    exact SameCursors.of_parts rfl rfl (Nat.le_refl _) rfl
      (.inr ⟨rfl, rfl, fun _ h => h⟩) (.inr rfl) (.inr rfl) (.inr rfl) (.inl (by decide))
  · rw [if_neg hs]
    refine Frame.trans (sameCursors_merging e delta) ?_
    exact Frame.trans (sameCursors_afterMerge _ e.nextHandle o) (sameCursors_accumulators _ _)

/-- Updating reports what the merge comes to, and writes its result if that is success. -/
theorem run_update (hs : Serves e f fam) (key delta : Span) {o : MergeOutcome}
    (ho : mergeOutcome fam.config.funcs (e.recordsOf fam.store) key.read ⟨delta.read⟩
      e.refuseResize = o) :
    ∃ r e', (update f key delta).run e = (.ok r, e') ∧
      (pendingStatus e .update = Status.success ∧ isTooLong fam key.read.length = false →
        r = (o.status, o.events) ∧
        (o.status = Status.success → Writes f (·.set key.read o.accumulator.contents) e e') ∧
        (o.status ≠ Status.success → SameCursors [] e e')) ∧
      (¬ (pendingStatus e .update = Status.success ∧ isTooLong fam key.read.length = false) →
        SameCursors [] e e') := by
  have hupdate := run_asked hs .update fun fam status => do
    if status ≠ Status.success then return (status, [])
    if isTooLong fam key.read.length then return (Status.invalid, [])
    mergeDelta fam key.read delta.read
  by_cases hp : pendingStatus e .update = Status.success
  · rw [run_ite, if_neg (not_not_intro hp), run_ite] at hupdate
    cases hk : isTooLong fam key.read.length with
    | true =>
      rw [hk, if_pos rfl] at hupdate
      exact ⟨_, _, hupdate, fun h => absurd h.2 (by simp),
        fun _ => sameCursors_asked e .update (by decide) f⟩
    | false =>
      rw [hk, if_neg Bool.false_ne_true] at hupdate
      obtain ⟨e', hrun, hset, hcursors⟩ :=
      run_mergeDelta (asked e .update f) fam key.read delta.read ho
      rw [hrun] at hupdate
      refine ⟨_, e', hupdate, fun _ => ⟨rfl, fun h => ?_, fun h => ?_⟩, fun h => absurd ⟨hp, rfl⟩ h⟩
      · obtain ⟨hq, hrec⟩ := hset h
        exact ⟨fam, hs, Frame.trans (sameCursors_asked e .update (by decide) f) hq, hrec⟩
      · exact Frame.trans (sameCursors_asked e .update (by decide) f) (hcursors h)
  · rw [run_ite, if_pos hp] at hupdate
    exact ⟨_, _, hupdate, fun h => absurd h.1 hp, fun _ =>
      sameCursors_asked e .update (by decide) f⟩

/-- The status that updating reports. -/
theorem update_reply (hs : Serves e f fam) (key delta : Span) {o : MergeOutcome}
    (ho : mergeOutcome fam.config.funcs (e.recordsOf fam.store) key.read ⟨delta.read⟩
      e.refuseResize = o) :
    ((update f key delta).run e).1 = .ok (
      if pendingStatus e .update ≠ Status.success then (pendingStatus e .update, [])
      else if isTooLong fam key.read.length then (Status.invalid, [])
      else (o.status, o.events)) := by
  have hupdate := run_asked hs .update fun fam status => do
    if status ≠ Status.success then return (status, [])
    if isTooLong fam key.read.length then return (Status.invalid, [])
    mergeDelta fam key.read delta.read
  rw [run_ite, run_ite] at hupdate
  refine (congrArg Prod.fst hupdate).trans ?_
  split
  · rfl
  · split
    · rfl
    · obtain ⟨e', hrun, -⟩ := run_mergeDelta (asked e .update f) fam key.read delta.read ho
      rw [hrun]

/-! ## Looking up -/

theorem run_lookupInit (hs : Serves e f fam) {address : Nat}
    (ha : e.lookups.get? address = none) :
    (lookupInit f address).run e = (.ok (), { e with
      calls := ⟨.lookupInit, .lookup address⟩ :: e.calls
      lookups := e.lookups.set address none }) := by
  have hs' : Serves { e with calls := ⟨.lookupInit, .lookup address⟩ :: e.calls } f fam := hs
  have hc : e.lookups.contains address = false := by
    unfold Table.contains
    rw [ha]
    rfl
  unfold lookupInit
  rw [run_bind, run_note]
  dsimp only
  rw [run_bind, run_family hs']
  dsimp only
  rw [run_bind, run_get]
  dsimp only
  rw [run_ite, hc, if_neg Bool.false_ne_true]
  rfl

/-- A lookup finds what the records have under the key. -/
theorem run_lookup (hs : Serves e f fam) (key : Span) {address : Nat}
    (ha : e.lookups.get? address = some none)
    (hp : pendingStatus e .lookup = Status.success) :
    ∃ e', (lookup f key address).run e = (.ok Status.success, e') ∧ SameCursors [] e e' ∧
      e'.lookups.get? address = some ((e.recordsOf fam.store).get? key.read) := by
  have hs' : Serves { e with calls := ⟨.lookup, .lookup address⟩ :: e.calls } f fam := hs
  have hcursors : SameCursors [] e { e with
      calls := ⟨.lookup, .lookup address⟩ :: e.calls
      pending := e.pending.erase .lookup } :=
    Frame.trans (sameCursors_note (by decide) (.lookup address) e)
      (sameCursors_takePending .lookup _)
  unfold lookup
  rw [run_bind, run_note]
  dsimp only
  rw [run_bind, run_family hs']
  dsimp only
  rw [run_bind, run_get]
  dsimp only
  rw [ha, run_bind, run_require_some]
  dsimp only
  rw [run_bind, run_takePending]
  dsimp only
  rw [run_ite]
  have hgo : ¬ pendingStatus { e with calls := ⟨.lookup, .lookup address⟩ :: e.calls } .lookup ≠
      Status.success := not_not_intro hp
  rw [if_neg hgo]
  have hrecords : ({ e with calls := ⟨.lookup, .lookup address⟩ :: e.calls } : Engine).recordsOf
      fam.store = e.recordsOf fam.store := rfl
  rw [hrecords]
  cases (e.recordsOf fam.store).get? key.read with
  | none => exact ⟨_, rfl, hcursors, ha⟩
  | some value =>
    exact ⟨_, rfl, Frame.trans hcursors (sameCursors_lookups _ _), Table.get?_set_self _ _ _⟩

theorem run_lookupFound {address : Nat} {found : Option Bytes}
    (ha : e.lookups.get? address = some found) : (lookupFound address).run e =
      (.ok found.isSome, { e with calls := ⟨.lookupFound, .lookup address⟩ :: e.calls }) := by
  unfold lookupFound
  rw [run_bind, run_note]
  dsimp only
  rw [run_bind, run_get]
  dsimp only
  rw [ha, run_bind, run_require_some]
  rfl

theorem run_lookupValue {address : Nat} {value : Bytes}
    (ha : e.lookups.get? address = some (some value))
    (hp : pendingStatus e .lookupValue = Status.success) : (lookupValue address).run e =
      (.ok (.ok value), { e with
        calls := ⟨.lookupValue, .lookup address⟩ :: e.calls
        pending := e.pending.erase .lookupValue }) := by
  unfold lookupValue
  rw [run_bind, run_note]
  dsimp only
  rw [run_bind, run_get]
  dsimp only
  rw [ha, run_bind, run_require_some]
  dsimp only
  rw [run_bind, run_takePending]
  dsimp only
  have hgo : ¬ pendingStatus { e with calls := ⟨.lookupValue, .lookup address⟩ :: e.calls }
      .lookupValue ≠ Status.success := not_not_intro hp
  rw [run_ite, if_neg hgo]
  rfl

theorem run_lookupDeinit {address : Nat} {found : Option Bytes}
    (ha : e.lookups.get? address = some found) : (lookupDeinit address).run e =
      (.ok (), { e with
        calls := ⟨.lookupDeinit, .lookup address⟩ :: e.calls
        lookups := e.lookups.erase address }) := by
  unfold lookupDeinit
  rw [run_bind, run_note]
  dsimp only
  rw [run_bind, run_get]
  dsimp only
  rw [ha, run_bind, run_require_some]
  rfl

end Run

/-! ## What any call may do to records -/

/-- The records under one key at the most are changed. -/
inductive Edit (R : Records) : Records → Prop
  | same : Edit R R
  | set (k v : Bytes) : Edit R (R.set k v)
  | erase (k : Bytes) : Edit R (R.erase k)

theorem Edit.nodup {R R' : Records} (h : Edit R R') (hR : R.keys.Nodup) : R'.keys.Nodup := by
  cases h with
  | same => exact hR
  | set k v => exact Table.nodup_keys_set hR k v
  | erase k => exact Table.nodup_keys_erase hR k

/-- The records of one family at the most are changed, and these under one key. -/
def Touches (e e' : Engine) : Prop :=
  SameCursors [] e e' ∨ ∃ f change, (∀ R, Edit R (change R)) ∧ Writes f change e e'

namespace Run

theorem touches_of_not {α : Type} {e : Engine} {f : FamilyHandle} (hs : ∀ fam, ¬ Serves e f fam)
    (entry : EntryPoint) (h : entry ≠ .iteratorNext ∧ entry ≠ .iteratorGetCurrent)
    (rest : Family → Run α) :
    Touches e ((note entry (.family f) >>= fun _ => family f >>= rest).run e).2 := by
  rw [run_asked_of_not hs]
  exact .inl (sameCursors_note h (.family f) e)

theorem touches_insert (f : FamilyHandle) (key value : Span) (e : Engine) :
    Touches e ((insert f key value).run e).2 := by
  by_cases hs : ∃ fam, Serves e f fam
  · obtain ⟨fam, hs⟩ := hs
    obtain ⟨r, e', hrun, hset, hcursors⟩ := run_insert hs key value
    rw [hrun]
    by_cases hgo : pendingStatus e .insert = Status.success ∧ isTooLong fam key.length = false
    · exact .inr ⟨f, _, fun _ => .set _ _, (hset hgo).2⟩
    · exact .inl (hcursors hgo)
  · exact touches_of_not (fun fam h => hs ⟨fam, h⟩) .insert (by decide) _

theorem touches_delete (f : FamilyHandle) (key : Span) (e : Engine) :
    Touches e ((delete f key).run e).2 := by
  by_cases hs : ∃ fam, Serves e f fam
  · obtain ⟨fam, hs⟩ := hs
    obtain ⟨r, e', hrun, herase, hcursors⟩ := run_delete hs key
    rw [hrun]
    by_cases hgo : pendingStatus e .delete = Status.success
    · exact .inr ⟨f, _, fun _ => .erase _, (herase hgo).2⟩
    · exact .inl (hcursors hgo)
  · exact touches_of_not (fun fam h => hs ⟨fam, h⟩) .delete (by decide) _

theorem touches_update (f : FamilyHandle) (key delta : Span) (e : Engine) :
    Touches e ((update f key delta).run e).2 := by
  by_cases hs : ∃ fam, Serves e f fam
  · obtain ⟨fam, hs⟩ := hs
    obtain ⟨r, e', hrun, hgo, hcursors⟩ := run_update hs key delta rfl
    rw [hrun]
    by_cases hgo' : pendingStatus e .update = Status.success ∧
        isTooLong fam key.read.length = false
    · obtain ⟨-, hset, hhandles⟩ := hgo hgo'
      by_cases ho : (mergeOutcome fam.config.funcs (e.recordsOf fam.store) key.read ⟨delta.read⟩
          e.refuseResize).status = Status.success
      · exact .inr ⟨f, _, fun _ => .set _ _, hset ho⟩
      · exact .inl (hhandles ho)
    · exact .inl (hcursors hgo')
  · exact touches_of_not (fun fam h => hs ⟨fam, h⟩) .update (by decide) _

end Run

namespace Housed

variable {e e' : Engine}

theorem nodup_recordsOf (he : Housed e) (σ : StoreId) : (e.recordsOf σ).keys.Nodup := by
  unfold recordsOf
  cases hR : e.records.get? σ with
  | none => exact List.nodup_nil
  | some R => exact he.nodup hR

/-- The place of a family that is in use owns its store. -/
theorem owns_of_serves (he : Housed e) {f : FamilyHandle} {fam : Family}
    (hs : Run.Serves e f fam) : ∃ d, e.databases.get? f.1 = some d ∧
      e.Owns d.path f.2 fam.store := by
  obtain ⟨hf, -⟩ := hs
  obtain ⟨-, d, hd, -⟩ := he.families hf
  exact ⟨d, hd, owns hd hf⟩

theorem writes (he : Housed e) {f : FamilyHandle} {change : Records → Records}
    (hc : ∀ R, Edit R (change R)) (hw : Writes f change e e') :
    Housed e' ∧ ∀ σ, Edit (e.recordsOf σ) (e'.recordsOf σ) := by
  obtain ⟨fam, hs, hq, hrec⟩ := hw
  obtain ⟨d, -, howns⟩ := he.owns_of_serves hs
  refine ⟨he.edit hq.sameParts (he.owned howns) ((hc _).nodup (he.nodup_recordsOf _)) hrec,
    fun σ => ?_⟩
  by_cases hσ : σ = fam.store
  · have hnew : e'.recordsOf σ = change (e.recordsOf σ) := by
      unfold recordsOf
      rw [hrec, hσ, Table.get?_set_self]
      rfl
    rw [hnew]
    exact hc _
  · have hold : e'.recordsOf σ = e.recordsOf σ := by
      unfold recordsOf
      rw [hrec, Table.get?_set_ne _ hσ]
    rw [hold]
    exact .same

theorem touches (he : Housed e) (ht : Touches e e') :
    Housed e' ∧ ∀ σ, Edit (e.recordsOf σ) (e'.recordsOf σ) := by
  rcases ht with hq | ⟨f, change, hc, hw⟩
  · refine ⟨he.sameParts (hq.sameParts.mono (by simp)), fun σ => ?_⟩
    have hsame : e'.recordsOf σ = e.recordsOf σ := by
      unfold recordsOf
      rw [hq.same .records (by decide)]
    rw [hsame]
    exact .same
  · exact he.writes hc hw

end Housed

end FamilyStore.Engine
