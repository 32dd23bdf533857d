import FamilyStore.Proofs.Engine.Cursor
import FamilyStore.Proofs.Engine.Points

/-!
What the engine gives out and takes back.

Databases, families, cursors, configuration blocks and the memory for lookups are in use from one
call to another. Resources are the same after work by which nothing of that changes, but for some
of these resources: nothing is given out, nothing is taken back, and no call is noted that would
count as either.
-/

namespace FamilyStore.Engine

/-- What the calls of an entry point were about, the last one first. -/
def subjects (e : Engine) (entry : EntryPoint) : List Subject :=
  (e.calls.filter fun c => c.entry = entry).map Call.subject

theorem length_subjects (e : Engine) (entry : EntryPoint) :
    (e.subjects entry).length = e.callCount entry := by
  rw [subjects, callCount, List.length_map, List.countP_eq_length_filter]

section

variable {e e' : Engine} {entry : EntryPoint} {x : Subject}

theorem callCount_eq (h : e'.subjects entry = e.subjects entry) :
    e'.callCount entry = e.callCount entry := by
  rw [← length_subjects, h, length_subjects]

theorem callCount_cons (h : e'.subjects entry = x :: e.subjects entry) :
    e'.callCount entry = e.callCount entry + 1 := by
  rw [← length_subjects, h, List.length_cons, length_subjects]

/-- What was not over before may be ended by one call more: still all that calls have ended is over,
and each of it was ended once. -/
theorem ends_cons {isOver isOver' : Subject → Prop}
    (h : e'.subjects entry = x :: e.subjects entry) (honce : (e.subjects entry).Nodup)
    (hover : ∀ y ∈ e.subjects entry, isOver y) (hx : ¬ isOver x) (hx' : isOver' x)
    (hothers : ∀ y, y ≠ x → isOver y → isOver' y) :
    (e'.subjects entry).Nodup ∧ ∀ y ∈ e'.subjects entry, isOver' y := by
  have hnew : x ∉ e.subjects entry := fun hm => hx (hover x hm)
  rw [h]
  refine ⟨List.nodup_cons.2 ⟨hnew, honce⟩, fun y hy => ?_⟩
  rcases List.mem_cons.1 hy with rfl | hold
  · exact hx'
  · exact hothers y (ne_of_mem_of_not_mem hold hnew) (hover y hold)

end

/-- What the engine gives out and takes back. -/
inductive Resource where
  | databases
  | families
  | cursors
  | blocks
  | lookups
  deriving DecidableEq

/-- The entry points whose calls are counted for a resource. -/
def Resource.entries : Resource → List EntryPoint
  | .databases => [.close]
  | .families => [.familyDelete]
  | .cursors => [.iteratorDeinit]
  | .blocks => []
  | .lookups => [.lookupInit, .lookupDeinit]

/-- The same things of one kind are in use in two states. -/
def Resource.SameUse : Resource → Engine → Engine → Prop
  | .databases, e, e' => e'.liveDatabases = e.liveDatabases ∧
      ∀ h d, e.databases.get? h = some d →
        ∃ d', e'.databases.get? h = some d' ∧ d'.isOpen = d.isOpen
  | .families, e, e' => e'.families = e.families
  | .cursors, e, e' => e'.cursors.keys = e.cursors.keys
  | .blocks, e, e' => e'.configBlocks = e.configBlocks
  | .lookups, e, e' => e'.lookups.keys = e.lookups.keys

theorem Resource.SameUse.of_eq (r : Resource) {e e' : Engine} (hd : e'.databases = e.databases)
    (hf : e'.families = e.families) (hc : e'.cursors.keys = e.cursors.keys)
    (hb : e'.configBlocks = e.configBlocks) (hl : e'.lookups.keys = e.lookups.keys) :
    r.SameUse e e' := by
  cases r with
  | databases =>
    refine ⟨?_, fun h d hh => ⟨d, ?_, rfl⟩⟩
    · rw [liveDatabases, hd]
      rfl
    · rw [hd]
      exact hh
  | families => exact hf
  | cursors => exact hc
  | blocks => exact hb
  | lookups => exact hl

/-- Nothing happens to a resource, and no call is about giving it out or back. -/
structure Resource.Same (r : Resource) (e e' : Engine) : Prop where
  use : r.SameUse e e'
  calls : ∀ entry ∈ r.entries, e'.subjects entry = e.subjects entry

theorem Resource.Same.refl (r : Resource) (e : Engine) : r.Same e e :=
  ⟨.of_eq r rfl rfl rfl rfl rfl, fun _ _ => rfl⟩

theorem Resource.Same.trans {r : Resource} {e e' e'' : Engine} (h : r.Same e e')
    (h' : r.Same e' e'') : r.Same e e'' where
  use := by
    have hu := h.use
    have hu' := h'.use
    cases r with
    | databases =>
      refine ⟨hu'.1.trans hu.1, fun g d hd => ?_⟩
      obtain ⟨d', hd', ho⟩ := hu.2 g d hd
      obtain ⟨d'', hd'', ho'⟩ := hu'.2 g d' hd'
      exact ⟨d'', hd'', ho'.trans ho⟩
    | families | cursors | blocks | lookups => exact Eq.trans hu' hu
  calls entry hm := (h'.calls entry hm).trans (h.calls entry hm)

/-- Nothing is given out and nothing is taken back, but for some resources. -/
structure SameResources (parts : List Resource) (e e' : Engine) : Prop where
  nextHandle : e.nextHandle ≤ e'.nextHandle
  same : ∀ r, r ∉ parts → r.Same e e'
  /-- No accumulator is left behind. -/
  accumulators : e.accumulators.keys = [] → e'.accumulators.keys = []

namespace SameResources

variable {parts more : List Resource} {e e' : Engine}

instance : Frame (SameResources parts) where
  refl e := ⟨Nat.le_refl _, fun r _ => .refl r e, id⟩
  trans h h' :=
    { nextHandle := Nat.le_trans h.nextHandle h'.nextHandle
      same := fun r hr => (h.same r hr).trans (h'.same r hr)
      accumulators := fun ha => h'.accumulators (h.accumulators ha) }

theorem mono (h : SameResources parts e e') (hp : parts ⊆ more) : SameResources more e e' :=
  ⟨h.nextHandle, fun r hr => h.same r fun hm => hr (hp hm), h.accumulators⟩

theorem of_nil (h : SameResources [] e e') : SameResources parts e e' := h.mono (by simp)

/-- A change that is not about calls, resource by resource. -/
theorem of_parts (hcalls : e'.calls = e.calls) (hn : e.nextHandle ≤ e'.nextHandle)
    (ha : e.accumulators.keys = [] → e'.accumulators.keys = [])
    (hd : .databases ∈ parts ∨ e'.databases = e.databases)
    (hf : .families ∈ parts ∨ e'.families = e.families)
    (hc : .cursors ∈ parts ∨ e'.cursors.keys = e.cursors.keys)
    (hb : .blocks ∈ parts ∨ e'.configBlocks = e.configBlocks)
    (hl : .lookups ∈ parts ∨ e'.lookups.keys = e.lookups.keys) : SameResources parts e e' where
  nextHandle := hn
  same r hr := by
    refine ⟨?_, fun entry _ => by rw [subjects, hcalls]; rfl⟩
    cases r with
    | databases =>
      have hd := hd.resolve_left hr
      refine ⟨by rw [liveDatabases, hd]; rfl, fun h d hh => ⟨d, by rw [hd]; exact hh, rfl⟩⟩
    | families => exact hf.resolve_left hr
    | cursors => exact hc.resolve_left hr
    | blocks => exact hb.resolve_left hr
    | lookups => exact hl.resolve_left hr
  accumulators := ha

/-- A change of what is no resource. -/
theorem of_rest (hcalls : e'.calls = e.calls) (hn : e.nextHandle ≤ e'.nextHandle)
    (ha : e.accumulators.keys = [] → e'.accumulators.keys = [])
    (hd : e'.databases = e.databases) (hf : e'.families = e.families)
    (hc : e'.cursors.keys = e.cursors.keys) (hb : e'.configBlocks = e.configBlocks)
    (hl : e'.lookups = e.lookups) : SameResources parts e e' :=
  .of_parts hcalls hn ha (.inr hd) (.inr hf) (.inr hc) (.inr hb) (.inr (by rw [hl]))

theorem of_calls (new : List Call) (h : ∀ c ∈ new, ∀ r, r ∉ parts → c.entry ∉ r.entries) :
    SameResources parts e { e with calls := new ++ e.calls } where
  nextHandle := Nat.le_refl _
  same r hr := by
    refine ⟨.of_eq r rfl rfl rfl rfl rfl, fun entry hm => ?_⟩
    have hnone : new.filter (fun c => c.entry = entry) = [] := by
      rw [List.filter_eq_nil_iff]
      intro c hc hce
      exact h c hc r hr (by rw [of_decide_eq_true hce]; exact hm)
    rw [subjects, List.filter_append, hnone]
    rfl
  accumulators := id

end SameResources

namespace Run

variable {parts : List Resource}

theorem sameResources_note {entry : EntryPoint} (h : ∀ r, r ∉ parts → entry ∉ r.entries)
    (subject : Subject) : Within (SameResources parts) (note entry subject) :=
  Within.modify fun _ => SameResources.of_calls [⟨entry, subject⟩] fun c hc => by
    rw [List.mem_singleton.1 hc]
    exact h

/-- The entry points whose calls give nothing out or back. -/
def isPlain : EntryPoint → Bool
  | .close | .familyDelete | .iteratorDeinit | .lookupInit | .lookupDeinit => false
  | _ => true

theorem not_mem_entries {entry : EntryPoint} (h : isPlain entry = true) (r : Resource) :
    entry ∉ r.entries := by
  cases r <;> cases entry <;> simp_all [isPlain, Resource.entries]

theorem sameResources_note_plain {entry : EntryPoint} (h : isPlain entry = true)
    (subject : Subject) : Within (SameResources parts) (note entry subject) :=
  sameResources_note (fun r _ => not_mem_entries h r) subject

/-- A call counts for one resource at the most. -/
theorem not_mem_entries_of_mem {entry : EntryPoint} {q : Resource} (hq : q ∈ parts)
    (he : entry ∈ q.entries) (r : Resource) (hr : r ∉ parts) : entry ∉ r.entries := by
  intro hm
  refine hr ?_
  have heq : r = q := by cases r <;> cases q <;> simp_all [Resource.entries]
  rw [heq]
  exact hq

theorem sameResources_takePending (entry : EntryPoint) :
    Within (SameResources parts) (takePending entry) :=
  fun _ => SameResources.of_rest rfl (Nat.le_refl _) id rfl rfl rfl rfl rfl

theorem sameResources_newHandle : Within (SameResources parts) newHandle :=
  fun _ => SameResources.of_rest rfl (Nat.le_add_right _ _) id rfl rfl rfl rfl rfl

theorem sameResources_setRecords (σ : StoreId) (R : Records) :
    Within (SameResources parts) (setRecords σ R) :=
  Within.modify fun _ => SameResources.of_rest rfl (Nat.le_refl _) id rfl rfl rfl rfl rfl

/-! ## Databases and threads -/

theorem sameResources_configInit (hb : .blocks ∈ parts) :
    Within (SameResources parts) configInit := by
  refine Within.bind (sameResources_note_plain rfl _) fun _ =>
    Within.bind sameResources_newHandle fun h => ?_
  refine Within.bind (Within.modify fun e => ?_) fun _ => Within.pure h
  exact SameResources.of_parts rfl (Nat.le_refl _) id (.inr rfl) (.inr rfl) (.inr rfl) (.inl hb)
    (.inr rfl)

theorem sameResources_configDeinit (hb : .blocks ∈ parts) (h : Handle) :
    Within (SameResources parts) (configDeinit h) := by
  refine Within.bind (sameResources_note_plain rfl _) fun _ => Within.get_bind fun e => ?_
  rw [run_ite]
  split
  · exact Frame.refl e
  · exact SameResources.of_parts rfl (Nat.le_refl _) id (.inr rfl) (.inr rfl) (.inr rfl) (.inl hb)
      (.inr rfl)

theorem sameResources_checkConfigBlock (h : Handle) :
    Within (SameResources parts) (checkConfigBlock h) :=
  Within.bind Within.get fun _ => Within.ite (within_refuse _) (Within.pure _)

theorem sameResources_newDatabase (hd : .databases ∈ parts) (path : String) :
    Within (SameResources parts) (newDatabase path) := by
  refine Within.bind sameResources_newHandle fun h =>
    Within.bind (Within.modify fun e => ?_) fun _ => Within.pure h
  exact SameResources.of_parts rfl (Nat.le_refl _) id (.inl hd) (.inr rfl) (.inr rfl) (.inr rfl)
    (.inr rfl)

theorem sameResources_create (hd : .databases ∈ parts) (config : DatabaseRecord) :
    Within (SameResources parts) (create config) := by
  refine Within.bind (sameResources_note_plain rfl _) fun _ =>
    Within.bind (sameResources_takePending _) fun status => ?_
  refine Within.ite (Within.pure _) (Within.bind (sameResources_checkConfigBlock _) fun _ => ?_)
  refine Within.get_bind fun e => ?_
  cases e.files.write config.path databaseMark with
  | error fault => exact Frame.refl e
  | ok files =>
    refine Frame.trans ?_ (Within.bind (sameResources_newDatabase hd config.path)
      (fun h => Within.pure (Except.ok h)) _)
    exact SameResources.of_rest rfl (Nat.le_refl _) id rfl rfl rfl rfl rfl

theorem sameResources_openExisting (hd : .databases ∈ parts) (config : DatabaseRecord) :
    Within (SameResources parts) (openExisting config) := by
  refine Within.bind (sameResources_note_plain rfl _) fun _ =>
    Within.bind (sameResources_takePending _) fun status => ?_
  refine Within.ite (Within.pure _) (Within.bind (sameResources_checkConfigBlock _) fun _ => ?_)
  refine Within.get_bind fun e => ?_
  rw [run_ite]
  split
  · exact Frame.refl e
  · cases e.files.read config.path with
    | error fault => exact Frame.refl e
    | ok content =>
      exact Within.ite (Within.pure _)
        (Within.bind (sameResources_newDatabase hd _) fun h => Within.pure _) e

theorem sameResources_close (hd : .databases ∈ parts) (h : Handle) :
    Within (SameResources parts) (close h) := by
  refine Within.bind (sameResources_note (not_mem_entries_of_mem hd (by simp [Resource.entries])) _)
    fun _ => Within.get_bind fun e => ?_
  cases e.databases.get? h with
  | none => exact Frame.refl e
  | some d =>
    rw [run_bind, run_require_some]
    dsimp only
    rw [run_ite]
    split
    · exact Frame.refl e
    · exact SameResources.of_parts rfl (Nat.le_refl _) id (.inl hd) (.inr rfl) (.inr rfl) (.inr rfl)
        (.inr rfl)

theorem sameResources_registerThread (h : Handle) :
    Within (SameResources parts) (registerThread h) :=
  Within.bind (sameResources_note_plain rfl _) fun _ => Within.modify fun _ =>
    SameResources.of_rest rfl (Nat.le_refl _) id rfl rfl rfl rfl rfl

theorem sameResources_deregisterThread (h : Handle) :
    Within (SameResources parts) (deregisterThread h) :=
  Within.bind (sameResources_note_plain rfl _) fun _ => Within.modify fun _ =>
    SameResources.of_rest rfl (Nat.le_refl _) id rfl rfl rfl rfl rfl

/-! ## Records -/

theorem sameResources_insert (f : FamilyHandle) (key value : Span) :
    Within (SameResources parts) (insert f key value) := by
  refine Within.bind (sameResources_note_plain rfl _) fun _ =>
    Within.bind (within_family f) fun fam => ?_
  refine Within.bind (sameResources_takePending _) fun status => Within.ite (Within.pure _) ?_
  refine Within.ite (Within.pure _) (Within.bind Within.get fun e => ?_)
  exact Within.bind (sameResources_setRecords _ _) fun _ => Within.pure _

theorem sameResources_delete (f : FamilyHandle) (key : Span) :
    Within (SameResources parts) (delete f key) := by
  refine Within.bind (sameResources_note_plain rfl _) fun _ =>
    Within.bind (within_family f) fun fam => ?_
  refine Within.bind (sameResources_takePending _) fun status => Within.ite (Within.pure _) ?_
  exact Within.bind Within.get fun e => Within.bind (sameResources_setRecords _ _) fun _ =>
    Within.pure _

theorem keys_set_erase {t : Table Handle Accumulator} (ht : t.keys = []) (h : Handle)
    (a b : Accumulator) : (((t.set h a).set h b).erase h).keys = [] := by
  have hn : h ∉ t.keys := by simp [ht]
  rw [Table.set_set, Table.erase_set_of_none ((t.get?_eq_none_iff h).2 hn), ht]

/-- The accumulator of a merge is taken back, whatever comes of the merge. -/
theorem sameResources_mergeDelta (fam : Family) (key delta : Bytes) :
    Within (SameResources parts) (mergeDelta fam key delta) := by
  intro e
  have hacc : (merging e delta).accumulators.get? e.nextHandle = some ⟨delta⟩ :=
    Table.get?_set_self _ _ _
  obtain ⟨o, ho⟩ : ∃ o, mergeOutcome fam.config.funcs ((merging e delta).recordsOf fam.store) key
    ⟨delta⟩ (merging e delta).refuseResize = o := ⟨_, rfl⟩
  have hmerge := run_merge hacc ho
  have hcalls : ∀ c ∈ (o.calls.map fun c =>
      Call.mk (accumulatorEntry c) (.handle e.nextHandle)).reverse, ∀ r : Resource,
      r ∉ parts → c.entry ∉ r.entries := by
    intro c hc r _
    obtain ⟨a, -, rfl⟩ := List.mem_map.1 (List.mem_reverse.1 hc)
    exact not_mem_entries (by cases a <;> rfl) r
  have hempty : e.accumulators.keys = [] → (((e.accumulators.set e.nextHandle ⟨delta⟩).set
      e.nextHandle o.accumulator).erase e.nextHandle).keys = [] := fun ha =>
    keys_set_erase ha e.nextHandle _ _
  unfold mergeDelta
  rw [run_bind, run_newHandle]
  dsimp only
  rw [run_bind, run_modify]
  dsimp only
  rw [run_bind]
  unfold merging at hmerge
  rw [hmerge]
  refine Frame.trans (SameResources.of_calls _ hcalls) ?_
  by_cases hs : o.status = Status.success
  · rw [if_pos hs]
    exact SameResources.of_rest rfl (Nat.le_add_right _ _) hempty rfl rfl rfl rfl rfl
  · rw [if_neg hs]
    exact SameResources.of_rest rfl (Nat.le_add_right _ _) hempty rfl rfl rfl rfl rfl

theorem sameResources_update (f : FamilyHandle) (key delta : Span) :
    Within (SameResources parts) (update f key delta) := by
  refine Within.bind (sameResources_note_plain rfl _) fun _ =>
    Within.bind (within_family f) fun fam => ?_
  refine Within.bind (sameResources_takePending _) fun status => Within.ite (Within.pure _) ?_
  exact Within.ite (Within.pure _) (sameResources_mergeDelta fam key.read delta.read)

/-! ## Lookups -/

theorem sameResources_lookup (f : FamilyHandle) (key : Span) (address : Nat) :
    Within (SameResources parts) (lookup f key address) := by
  refine Within.bind (sameResources_note_plain rfl _) fun _ =>
    Within.bind (within_family f) fun fam => ?_
  refine Within.get_bind fun e => ?_
  cases ha : e.lookups.get? address with
  | none => exact Frame.refl e
  | some found =>
    have hset : ∀ value, SameResources parts { e with pending := e.pending.erase .lookup }
        { e with pending := e.pending.erase .lookup, lookups := e.lookups.set address value } :=
      fun value => SameResources.of_parts rfl (Nat.le_refl _) id (.inr rfl) (.inr rfl) (.inr rfl)
        (.inr rfl) (.inr (Table.keys_set_of_mem (Table.mem_keys_of_get? ha) value))
    rw [run_bind, run_require_some]
    dsimp only
    rw [run_bind, run_takePending]
    dsimp only
    have htaken : SameResources parts e { e with pending := e.pending.erase .lookup } :=
      sameResources_takePending .lookup e
    refine Frame.trans htaken ?_
    rw [run_ite]
    split
    · exact Frame.refl _
    · cases (e.recordsOf fam.store).get? key.read with
      | none => exact Frame.refl _
      | some value => exact hset (some value)

theorem sameResources_lookupInit (hl : .lookups ∈ parts) (f : FamilyHandle) (address : Nat) :
    Within (SameResources parts) (lookupInit f address) := by
  refine Within.bind (sameResources_note (not_mem_entries_of_mem hl (by simp [Resource.entries])) _)
    fun _ => Within.bind (within_family f) fun _ => Within.get_bind fun e => ?_
  rw [run_ite]
  split
  · exact Frame.refl e
  · exact SameResources.of_parts rfl (Nat.le_refl _) id (.inr rfl) (.inr rfl) (.inr rfl)
      (.inr rfl) (.inl hl)

theorem sameResources_lookupDeinit (hl : .lookups ∈ parts) (address : Nat) :
    Within (SameResources parts) (lookupDeinit address) := by
  refine Within.bind (sameResources_note (not_mem_entries_of_mem hl (by simp [Resource.entries])) _)
    fun _ => Within.get_bind fun e => ?_
  cases e.lookups.get? address with
  | none => exact Frame.refl e
  | some _ =>
    exact SameResources.of_parts rfl (Nat.le_refl _) id (.inr rfl) (.inr rfl) (.inr rfl)
      (.inr rfl) (.inl hl)

theorem sameResources_lookupFound (address : Nat) :
    Within (SameResources parts) (lookupFound address) := by
  refine Within.bind (sameResources_note_plain rfl _) fun _ => Within.bind Within.get fun e => ?_
  exact Within.bind (within_require (e.lookups.get? address)) fun _ => Within.pure _

theorem sameResources_lookupValue (address : Nat) :
    Within (SameResources parts) (lookupValue address) := by
  refine Within.bind (sameResources_note_plain rfl _) fun _ => Within.bind Within.get fun e => ?_
  refine Within.bind (within_require _) fun found =>
    Within.bind (sameResources_takePending _) fun status => ?_
  exact Within.ite (Within.pure _) (Within.bind (within_require _) fun value => Within.pure _)

/-! ## Cursors -/

/-- A cursor that is there may be replaced, and memory may change. -/
theorem sameResources_cursors {e : Engine} {h : Handle} (hm : h ∈ e.cursors.keys) (c : Cursor)
    (m : Memory) : SameResources parts e { e with cursors := e.cursors.set h c, memory := m } :=
  SameResources.of_rest rfl (Nat.le_refl _) id rfl rfl (Table.keys_set_of_mem hm c) rfl rfl

/-- Work of a cursor that begins with its call, and is refused when there is no such cursor. -/
theorem sameResources_noted {α : Type} {entry : EntryPoint} (h : Handle) (hp : isPlain entry = true)
    {f : Cursor → Run α}
    (hf : ∀ e c, e.cursors.get? h = some c → SameResources parts e ((f c).run e).2) :
    Within (SameResources parts) (note entry (.handle h) >>= fun _ => cursor h >>= f) := by
  intro e
  have hnoted : SameResources parts e { e with calls := ⟨entry, .handle h⟩ :: e.calls } :=
    sameResources_note_plain hp (.handle h) e
  refine Frame.trans hnoted ?_
  cases hc : e.cursors.get? h with
  | none =>
    unfold note cursor
    rw [run_bind, run_modify]
    dsimp only
    rw [run_bind, run_bind, run_get]
    dsimp only
    rw [hc]
    exact Frame.refl _
  | some c =>
    rw [run_noted hc]
    exact hf _ c hc

theorem sameResources_iteratorValid (h : Handle) :
    Within (SameResources parts) (iteratorValid h) := by
  refine sameResources_noted h rfl fun e c hc => ?_
  rw [run_ite]
  split
  · exact sameResources_cursors (Table.mem_keys_of_get? hc) _ e.memory
  · exact Frame.refl e

theorem sameResources_iteratorNext (h : Handle) :
    Within (SameResources parts) (iteratorNext h) := by
  refine sameResources_noted h rfl fun e c hc => ?_
  unfold releaseCurrent
  cases c.current with
  | none => exact sameResources_cursors (Table.mem_keys_of_get? hc) _ e.memory
  | some _ => exact sameResources_cursors (Table.mem_keys_of_get? hc) _ _

theorem sameResources_iteratorGetCurrent (h : Handle) :
    Within (SameResources parts) (iteratorGetCurrent h) := by
  refine sameResources_noted h rfl fun e c hc => ?_
  cases c.records[c.position]? with
  | none => exact Frame.refl e
  | some r =>
    unfold lend
    cases c.current with
    | some _ => exact Frame.refl e
    | none => exact sameResources_cursors (Table.mem_keys_of_get? hc) _ _

theorem sameResources_iteratorInit (hc : .cursors ∈ parts) (f : FamilyHandle) (start : Span) :
    Within (SameResources parts) (iteratorInit f start) := by
  refine Within.bind (sameResources_note_plain rfl _) fun _ =>
    Within.bind (within_family f) fun fam => ?_
  refine Within.bind (sameResources_takePending _) fun status => Within.ite (Within.pure _) ?_
  refine Within.bind Within.get fun e => Within.bind sameResources_newHandle fun h => ?_
  refine Within.bind (Within.modify fun e => ?_) fun _ => Within.pure _
  exact SameResources.of_parts rfl (Nat.le_refl _) id (.inr rfl) (.inr rfl) (.inl hc) (.inr rfl)
    (.inr rfl)

theorem sameResources_iteratorDeinit (hc : .cursors ∈ parts) (h : Handle) :
    Within (SameResources parts) (iteratorDeinit h) := by
  have hchange : ∀ (e : Engine) (t : Table Handle Cursor) (m : Memory),
      SameResources parts e { e with cursors := t, memory := m } := fun _ _ _ =>
    SameResources.of_parts rfl (Nat.le_refl _) id (.inr rfl) (.inr rfl) (.inl hc) (.inr rfl)
      (.inr rfl)
  refine Within.bind (sameResources_note (not_mem_entries_of_mem hc (by simp [Resource.entries])) _)
    fun _ => Within.bind (Within.bind Within.get fun _ => within_require _) fun c => ?_
  refine Within.bind (Within.modify fun e => hchange e _ e.memory) fun _ => ?_
  unfold releaseCurrent
  cases c.current with
  | none => exact Within.pure _
  | some _ => exact Within.modify fun e => hchange e e.cursors _

theorem sameResources_iteratorStatus (h : Handle) :
    Within (SameResources parts) (iteratorStatus h) :=
  sameResources_noted h rfl fun e _ _ => Frame.refl e

end Run

end FamilyStore.Engine
