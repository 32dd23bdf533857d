import FamilyStore.Proofs.Asking
import FamilyStore.Proofs.Engine.Spending
import FamilyStore.Proofs.Iteration.Lifetime
import FamilyStore.Proofs.Points.Calls

/-!
Calls for which a failure is set up.

A call takes statuses that are set up as it reaches the engine. If one of them is no success, the
call fails with it at once, gives back what it had asked for, and has done nothing else.
-/

namespace FamilyStore.Store

/-- Nothing has happened but that calls were noted, handles were passed over, and the status of one
entry point was taken. Of other entry points, at the most a success was taken. -/
structure Unwound (passed : Engine.Handle) (entry : Engine.EntryPoint) (s t : Store) : Prop where
  same : ∃ calls pending, t = { s with engine := { s.engine with
    calls := calls, nextHandle := s.engine.nextHandle + passed, pending := pending } }
  taken : t.engine.pending.get? entry = none
  others : ∀ x, x ≠ entry → t.engine.pending.get? x = s.engine.pending.get? x ∨
    (s.engine.pending.get? x = some Status.success ∧ t.engine.pending.get? x = none)

/-- What comes of a call for which statuses may be set up. -/
inductive Tried {α : Type} (passed : Engine.Handle) (s : Store) : Except Failure α × Store → Prop
  /-- Nothing but successes was taken, whatever else came of it. -/
  | went {r : Except Failure α} {t : Store}
      (h : ∀ x, t.engine.pending.get? x = s.engine.pending.get? x ∨
        Engine.Run.pendingStatus s.engine x = Status.success) :
      Tried passed s (r, t)
  | failed {t : Store} (task : EngineTask) (entry : Engine.EntryPoint)
      (hp : Engine.Run.pendingStatus s.engine entry ≠ Status.success)
      (h : Unwound passed entry s t) :
      Tried passed s (.error (Run.statusFailure task (Engine.Run.pendingStatus s.engine entry)), t)

namespace Tried

variable {α β : Type} {passed : Engine.Handle} {s t : Store} {r : Except Failure α}

theorem refl (s : Store) (r : Except Failure α) : Tried passed s (r, s) := .went fun _ => .inl rfl

/-- A status that was taken was a success, or the call failed with it. -/
theorem exists_task (h : Tried passed s (r, t)) {entry : Engine.EntryPoint} {c : Status}
    (hc : s.engine.pending.get? entry = some c) (hne : c ≠ Status.success)
    (ht : t.engine.pending.get? entry = none) :
    (∃ task, r = .error (Run.statusFailure task c)) ∧ Unwound passed entry s t := by
  have hstatus : Engine.Run.pendingStatus s.engine entry = c := by
    unfold Engine.Run.pendingStatus
    rw [hc]
    rfl
  cases h with
  | went h =>
    rcases h entry with hsame | hsuccess
    · rw [ht, hc] at hsame
      exact absurd hsame (by simp)
    · exact absurd (hstatus.symm.trans hsuccess) hne
  | failed task entry' hp h =>
    by_cases heq : entry = entry'
    · subst heq
      exact ⟨⟨task, by rw [hstatus]⟩, h⟩
    · rcases h.others entry heq with hsame | ⟨hsuccess, -⟩
      · rw [ht, hc] at hsame
        exact absurd hsame (by simp)
      · exact absurd (Option.some.inj (hc.symm.trans hsuccess)) hne

/-- The reply may be put into another form. -/
theorem map {answer : Except Failure α × Store} (h : Tried passed s answer) (f : α → β) :
    Tried passed s (answer.1.map f, answer.2) := by
  cases h with
  | went h => exact .went h
  | failed task entry hp h => exact .failed task entry hp h

end Tried

theorem Unwound.erase (s : Store) (calls : List Engine.Call) (passed : Engine.Handle)
    (entry : Engine.EntryPoint) : Unwound passed entry s { s with engine := { s.engine with
      calls := calls
      nextHandle := s.engine.nextHandle + passed
      pending := s.engine.pending.erase entry } } where
  same := ⟨_, _, rfl⟩
  taken := by
    rw [Table.get?_erase, if_pos rfl]
  others x hx := by
    rw [Table.get?_erase, if_neg hx]
    exact .inl rfl

/-- A success may have been taken before. -/
theorem Unwound.erase_after {s : Store} {first entry : Engine.EntryPoint}
    (hp : Engine.Run.pendingStatus s.engine first = Status.success) (calls : List Engine.Call)
    (passed : Engine.Handle) : Unwound passed entry s { s with engine := { s.engine with
      calls := calls
      nextHandle := s.engine.nextHandle + passed
      pending := (s.engine.pending.erase first).erase entry } } where
  same := ⟨_, _, rfl⟩
  taken := by
    rw [Table.get?_erase, if_pos rfl]
  others x hx := by
    dsimp only
    rw [Table.get?_erase, if_neg hx]
    by_cases hx' : x = first
    · subst hx'
      have hgone : (s.engine.pending.erase x).get? x = none := by
        rw [Table.get?_erase, if_pos rfl]
      cases hget : s.engine.pending.get? x with
      | none => exact .inl hgone
      | some c =>
        refine .inr ⟨?_, hgone⟩
        unfold Engine.Run.pendingStatus at hp
        rw [hget] at hp
        exact congrArg some hp
    · rw [Table.get?_erase, if_neg hx']
      exact .inl rfl

/-- At the most the statuses of some entry points are taken. -/
def Spends (entries : List Engine.EntryPoint) (s t : Store) : Prop :=
  Engine.Spends entries s.engine t.engine

instance {entries : List Engine.EntryPoint} : Frame (Spends entries) where
  refl s := Frame.refl s.engine
  trans h h' := Frame.trans (R := Engine.Spends entries) h h'

theorem Tried.of_spends {α : Type} {passed : Engine.Handle} (entries : List Engine.EntryPoint)
    {s t : Store} (h : Spends entries s t)
    (hp : ∀ x ∈ entries, Engine.Run.pendingStatus s.engine x = Status.success)
    (r : Except Failure α) : Tried passed s (r, t) := by
  refine .went fun x => ?_
  by_cases hx : x ∈ entries
  · exact .inr (hp x hx)
  · exact .inl (h x hx)

namespace Run

variable {α β : Type} {s : Store} {id : FamilyId} {f : Family} {fh : Engine.FamilyHandle}
  {fam : Engine.Family}

theorem spends_engine {entries : List Engine.EntryPoint} {work : Engine.Run α}
    (h : Within (Engine.Spends entries) work) : Within (Spends entries) (engine work) :=
  fun s => h s.engine

theorem spends_note {entries : List Engine.EntryPoint} (events : List Event) :
    Within (Spends entries) (note events) :=
  Within.modify fun s => Frame.refl (R := Engine.Spends entries) s.engine

/-! ## Calls on families -/

/-- A call on a family reaches the engine with a good key, or takes no status at all. -/
theorem tried_keyed (hf : Founded s) (id : FamilyId) (key : Value)
    (rest : Family × Engine.FamilyHandle → Span → Run α)
    (h : ∀ f fh fam span, Reaches s id key f fh fam span →
      Tried 0 s ((rest (f, fh) span).run s)) :
    Tried 0 s ((openFamily id >>= fun r => keySpan r.1 key >>= rest r).run s) := by
  rcases keyed_cases hf id key rest with ⟨failure, hrun⟩ | ⟨f, fh, fam, span, hreach, hrun⟩
  · rw [hrun]
    exact .refl s _
  · rw [hrun]
    exact h f fh fam span hreach

theorem tried_valued (value : Value) (rest : Span → Run α)
    (h : ∀ span, Tried 0 s ((rest span).run s)) :
    Tried 0 s ((valueSpan value >>= rest).run s) := by
  rcases valued_cases s value rest with ⟨failure, hrun⟩ | ⟨span, -, hrun⟩
  · rw [hrun]
    exact .refl s _
  · rw [hrun]
    exact h span

/-- Work of the engine that takes one status, and reports that one if it is a failure. -/
theorem tried_engine (task : EngineTask) (entry : Engine.EntryPoint) {work : Engine.Run β}
    {rest : β → Run α} (hs : Within (Spends [entry]) (engine work >>= rest))
    (hfail : Engine.Run.pendingStatus s.engine entry ≠ Status.success →
      ∃ b fh, work.run s.engine = (.ok b, Engine.Run.asked s.engine entry fh) ∧
        ∀ t, (rest b).run t =
          (.error (statusFailure task (Engine.Run.pendingStatus s.engine entry)), t)) :
    Tried 0 s ((engine work >>= rest).run s) := by
  by_cases hp : Engine.Run.pendingStatus s.engine entry = Status.success
  · exact .of_spends _ (hs s) (by simpa using hp) _
  · obtain ⟨b, fh, hwork, hrest⟩ := hfail hp
    rw [run_bind, run_engine, hwork]
    dsimp only
    rw [hrest]
    exact .failed task entry hp (.erase s _ 0 entry)

theorem tried_insert (hf : Founded s) (id : FamilyId) (key value : Value) :
    Tried 0 s ((insert id key value).run s) := by
  refine tried_keyed hf id key _ fun f fh fam k hreach => ?_
  refine tried_valued value _ fun v => tried_engine .insert .insert ?_ fun hp => ?_
  · exact Within.bind (spends_engine (Engine.Run.spends_insert (List.mem_singleton.2 rfl) _ _ _))
      fun _ => within_checkStatus _ _
  · exact ⟨_, fh, Engine.Run.insert_of_pending hreach.engine hp k v, run_checkStatus_of_ne hp _⟩

theorem tried_delete (hf : Founded s) (id : FamilyId) (key : Value) :
    Tried 0 s ((delete id key).run s) := by
  refine tried_keyed hf id key _ fun f fh fam k hreach => ?_
  refine tried_engine .delete .delete ?_ fun hp => ?_
  · exact Within.bind (spends_engine (Engine.Run.spends_delete (List.mem_singleton.2 rfl) _ _))
      fun _ => within_checkStatus _ _
  · exact ⟨_, fh, Engine.Run.delete_of_pending hreach.engine hp k, run_checkStatus_of_ne hp _⟩

theorem tried_update (hf : Founded s) (id : FamilyId) (key delta : Value) :
    Tried 0 s ((update id key delta).run s) := by
  refine tried_keyed hf id key _ fun f fh fam k hreach => ?_
  refine tried_valued delta _ fun v => tried_engine .update .update ?_ fun hp => ?_
  · refine Within.bind (spends_engine (Engine.Run.spends_update (List.mem_singleton.2 rfl) _ _ _))
      fun result => ?_
    exact Within.bind (spends_note _) fun _ => within_checkStatus _ _
  · exact ⟨_, fh, Engine.Run.update_of_pending hreach.engine hp k v,
      fun t => run_checkStatus_of_ne hp _ t⟩

theorem tried_range (hf : Founded s) (id : FamilyId) (start : Value) :
    Tried 0 s ((range id start).run s) := by
  rcases openFamily_cases s id with ⟨failure, hrun⟩ | ⟨f, fh, hserves⟩
  · unfold range
    rw [run_bind, hrun]
    exact .refl s _
  · obtain ⟨fam, hfam, -, -⟩ := hf.exists_inUse hserves
    rw [run_range hserves]
    cases f.startSpan start with
    | error failure => exact .refl s _
    | ok span =>
      refine tried_engine .startIteration .iteratorInit ?_ fun hp => ?_
      · refine Within.bind (spends_engine
          (Engine.Run.spends_iteratorInit (List.mem_singleton.2 rfl) _ _)) fun result => ?_
        refine Within.bind (spends_note _) fun _ => ?_
        cases result.1 with
        | error status => exact Within.throw _
        | ok cursor =>
          refine Within.bind Within.get fun s => Within.bind ?_ fun _ => ?_
          · exact Within.modify fun s => Frame.refl (R := Engine.Spends _) s.engine
          refine Within.bind (within_family id) fun f => Within.bind ?_ fun _ => Within.pure _
          exact Within.modify fun s => Frame.refl (R := Engine.Spends _) s.engine
      · refine ⟨(.error (Engine.Run.pendingStatus s.engine .iteratorInit), []), fh, ?_,
          fun _ => rfl⟩
        rw [Engine.Run.run_iteratorInit_of_serves hfam, if_neg hp]
        rfl

/-! ## Looking up -/

/-- The part of looking a key up that comes after the arguments have been checked. -/
def seek (fh : Engine.FamilyHandle) (span : Span) : Run (Option Bytes) := do
  let address := (← get).engine.freeLookup
  engine (Engine.Run.lookupInit fh address)
  ensuring (lookupIn fh span address) (engine (Engine.Run.lookupDeinit address))

/-- The store while a lookup goes on. -/
def seeking (s : Store) (calls : List Engine.Call) (pending : Table Engine.EntryPoint Status)
    (found : Option Bytes) : Store :=
  { s with engine :=
    { s.engine with
      calls := calls
      pending := pending
      lookups := s.engine.lookups.set s.engine.freeLookup found } }

/-- Memory that was set aside for a lookup is given back, whatever came of it. -/
theorem run_seek_of (hfam : Engine.Run.Serves s.engine fh fam) {span : Span}
    {r : Except Failure (Option Bytes)} {calls : List Engine.Call}
    {pending : Table Engine.EntryPoint Status} {found : Option Bytes}
    (h : (lookupIn fh span s.engine.freeLookup).run
        (seeking s (⟨.lookupInit, .lookup s.engine.freeLookup⟩ :: s.engine.calls)
          s.engine.pending none) = (r, seeking s calls pending found)) :
    (seek fh span).run s = (r, { s with engine := { s.engine with
      calls := ⟨.lookupDeinit, .lookup s.engine.freeLookup⟩ :: calls, pending := pending } }) := by
  have hnone := Engine.get?_freeLookup s.engine
  have hinit : (engine (Engine.Run.lookupInit fh s.engine.freeLookup)).run s = (.ok (),
      seeking s (⟨.lookupInit, .lookup s.engine.freeLookup⟩ :: s.engine.calls)
        s.engine.pending none) := by
    rw [run_engine, Engine.Run.run_lookupInit hfam hnone]
    rfl
  have hdeinit : (engine (Engine.Run.lookupDeinit s.engine.freeLookup)).run
      (seeking s calls pending found) = (.ok (), { s with engine := { s.engine with
        calls := ⟨.lookupDeinit, .lookup s.engine.freeLookup⟩ :: calls
        pending := pending } }) := by
    rw [run_engine, Engine.Run.run_lookupDeinit (Table.get?_set_self _ _ _)]
    dsimp only [seeking]
    rw [Table.erase_set_of_none hnone]
  unfold seek ensuring
  rw [run_bind, run_get]
  dsimp only
  rw [run_bind, hinit]
  dsimp only
  rw [run_bind, run_outcome, h]
  dsimp only
  rw [run_bind, hdeinit]
  exact run_ofExcept _ _

theorem run_lookup_seeking (hfam : Engine.Run.Serves s.engine fh fam) (span : Span)
    (calls : List Engine.Call) :
    (engine (Engine.Run.lookup fh span s.engine.freeLookup)).run
        (seeking s calls s.engine.pending none) =
      (.ok (Engine.Run.pendingStatus s.engine .lookup),
        seeking s (⟨.lookup, .lookup s.engine.freeLookup⟩ :: calls)
          (s.engine.pending.erase .lookup)
          (if Engine.Run.pendingStatus s.engine .lookup ≠ Status.success then none
            else (s.engine.recordsOf fam.store).get? span.read)) := by
  have hlookup := Engine.Run.run_lookup_eq
    (e := (seeking s calls s.engine.pending none).engine) hfam span (Table.get?_set_self _ _ _)
  have hstatus : Engine.Run.pendingStatus (seeking s calls s.engine.pending none).engine .lookup =
    Engine.Run.pendingStatus s.engine .lookup := rfl
  rw [hstatus] at hlookup
  rw [run_engine, hlookup]
  by_cases hp : Engine.Run.pendingStatus s.engine .lookup = Status.success
  · rw [if_neg (not_not_intro hp), if_neg (not_not_intro hp), hp]
    unfold seeking
    dsimp only
    rw [Table.set_set]
    rfl
  · rw [if_pos hp, if_pos hp]
    rfl

theorem run_lookupFound_seeking (calls : List Engine.Call)
    (pending : Table Engine.EntryPoint Status) (found : Option Bytes) :
    (engine (Engine.Run.lookupFound s.engine.freeLookup)).run (seeking s calls pending found) =
      (.ok found.isSome,
        seeking s (⟨.lookupFound, .lookup s.engine.freeLookup⟩ :: calls) pending found) := by
  rw [run_engine, Engine.Run.run_lookupFound (Table.get?_set_self _ _ _)]
  rfl

theorem run_lookupValue_seeking (calls : List Engine.Call)
    (pending : Table Engine.EntryPoint Status) (value : Bytes) :
    (engine (Engine.Run.lookupValue s.engine.freeLookup)).run
        (seeking s calls pending (some value)) =
      (.ok (if (pending.get? .lookupValue).getD Status.success ≠ Status.success then
          .error ((pending.get? .lookupValue).getD Status.success) else .ok value),
        seeking s (⟨.lookupValue, .lookup s.engine.freeLookup⟩ :: calls)
          (pending.erase .lookupValue) (some value)) := by
  have hvalue := Engine.Run.run_lookupValue_eq
    (e := (seeking s calls pending (some value)).engine) (Table.get?_set_self _ _ _)
  rw [run_engine, hvalue]
  rfl

/-- A lookup for which a failure is set up finds nothing. -/
theorem run_lookupIn_of_pending (hfam : Engine.Run.Serves s.engine fh fam) (span : Span)
    (calls : List Engine.Call) (hp : Engine.Run.pendingStatus s.engine .lookup ≠ Status.success) :
    ∃ calls', (lookupIn fh span s.engine.freeLookup).run
        (seeking s calls s.engine.pending none) =
      (.error (statusFailure .lookup (Engine.Run.pendingStatus s.engine .lookup)),
        seeking s calls' (s.engine.pending.erase .lookup) none) := by
  refine ⟨⟨.lookup, .lookup s.engine.freeLookup⟩ :: calls, ?_⟩
  unfold lookupIn
  rw [run_bind, run_lookup_seeking hfam, if_pos hp]
  dsimp only
  rw [run_bind, run_checkStatus_of_ne hp]

/-- What the engine finds decides what a lookup replies, and whether a second status is taken. -/
theorem run_lookupIn_of_success (hfam : Engine.Run.Serves s.engine fh fam) (span : Span)
    (calls : List Engine.Call) (hp : Engine.Run.pendingStatus s.engine .lookup = Status.success) :
    ∃ calls', (lookupIn fh span s.engine.freeLookup).run
        (seeking s calls s.engine.pending none) =
      match (s.engine.recordsOf fam.store).get? span.read with
      | none => (.ok none, seeking s calls' (s.engine.pending.erase .lookup) none)
      | some value =>
        (if Engine.Run.pendingStatus s.engine .lookupValue = Status.success then .ok (some value)
          else .error (statusFailure .readLookup
            (Engine.Run.pendingStatus s.engine .lookupValue)),
        seeking s calls' ((s.engine.pending.erase .lookup).erase .lookupValue) (some value)) := by
  unfold lookupIn
  rw [run_bind, run_lookup_seeking hfam, if_neg (not_not_intro hp), hp]
  dsimp only
  unfold checkStatus
  rw [if_pos rfl, run_bind, run_pure]
  dsimp only
  rw [run_bind, run_lookupFound_seeking]
  dsimp only
  cases (s.engine.recordsOf fam.store).get? span.read with
  | none =>
    refine ⟨⟨.lookupFound, .lookup s.engine.freeLookup⟩ ::
      ⟨.lookup, .lookup s.engine.freeLookup⟩ :: calls, ?_⟩
    rw [run_ite, if_neg (by simp)]
    rfl
  | some value =>
    -- The status for the value has not been taken with the one for the lookup.
    have hsame : ((s.engine.pending.erase .lookup).get? .lookupValue).getD Status.success =
        Engine.Run.pendingStatus s.engine .lookupValue := by
      rw [Table.get?_erase, if_neg (by decide)]
      rfl
    refine ⟨⟨.lookupValue, .lookup s.engine.freeLookup⟩ ::
      ⟨.lookupFound, .lookup s.engine.freeLookup⟩ ::
        ⟨.lookup, .lookup s.engine.freeLookup⟩ :: calls, ?_⟩
    rw [run_ite, if_pos Option.isSome_some, run_bind, run_lookupValue_seeking, hsame]
    dsimp only
    by_cases hv : Engine.Run.pendingStatus s.engine .lookupValue = Status.success
    · rw [if_neg (not_not_intro hv), if_pos hv]
      rfl
    · rw [if_pos hv, if_neg hv]
      rfl

theorem tried_seek (hfam : Engine.Run.Serves s.engine fh fam) (span : Span) :
    Tried 0 s ((seek fh span).run s) := by
  by_cases hp : Engine.Run.pendingStatus s.engine .lookup = Status.success
  · obtain ⟨calls, hrun⟩ := run_lookupIn_of_success hfam span
      (⟨.lookupInit, .lookup s.engine.freeLookup⟩ :: s.engine.calls) hp
    cases hfound : (s.engine.recordsOf fam.store).get? span.read with
    | none =>
      rw [hfound] at hrun
      rw [run_seek_of hfam hrun]
      refine .of_spends [.lookup] (fun x hx => ?_) (by simpa using hp) _
      rw [Table.get?_erase, if_neg (by simpa using hx)]
    | some value =>
      rw [hfound] at hrun
      rw [run_seek_of hfam hrun]
      by_cases hv : Engine.Run.pendingStatus s.engine .lookupValue = Status.success
      · refine .of_spends [.lookup, .lookupValue] (fun x hx => ?_)
          (by simp [hp, hv]) _
        rw [List.mem_pair, not_or] at hx
        rw [Table.get?_erase, if_neg hx.2, Table.get?_erase, if_neg hx.1]
      · rw [if_neg hv]
        exact .failed .readLookup .lookupValue hv (.erase_after hp _ 0)
  · obtain ⟨calls, hrun⟩ := run_lookupIn_of_pending hfam span
      (⟨.lookupInit, .lookup s.engine.freeLookup⟩ :: s.engine.calls) hp
    rw [run_seek_of hfam hrun]
    exact .failed .lookup .lookup hp (.erase s _ 0 _)

theorem tried_lookup (hf : Founded s) (id : FamilyId) (key : Value) :
    Tried 0 s ((lookup id key).run s) :=
  tried_keyed hf id key (fun r span => seek r.2 span) fun _ _ _ span hreach =>
    tried_seek hreach.engine span

theorem tried_getOr (hf : Founded s) (id : FamilyId) (key default : Value) :
    Tried 0 s ((getOr id key default).run s) := by
  have h := (tried_lookup hf id key).map fun found => (found.map Value.bytes).getD default
  unfold getOr
  rw [run_bind]
  generalize (lookup id key).run s = answer at h
  obtain ⟨r, t⟩ := answer
  cases r with
  | error failure => exact h
  | ok found =>
    cases found with
    | none => exact h
    | some value => exact h

theorem tried_contains (hf : Founded s) (id : FamilyId) (key : Value) :
    Tried 0 s ((contains id key).run s) := by
  have hfound : Tried 0 s ((do return (← lookup id key).isSome : Run Bool).run s) := by
    have h := (tried_lookup hf id key).map Option.isSome
    rw [run_bind]
    generalize (lookup id key).run s = answer at h
    obtain ⟨r, t⟩ := answer
    cases r with
    | error failure => exact h
    | ok found => exact h
  have hrest : Tried 0 s ((do
      let size ← ofExcept key.size
      let f ← family id
      if f.config.maxKeySize < size then return false
      return (← lookup id key).isSome : Run Bool).run s) := by
    rw [run_bind, run_ofExcept]
    cases key.size with
    | error failure => exact .refl s _
    | ok size =>
      dsimp only
      cases hget : s.families.get? id with
      | none =>
        rw [run_bind, run_storeFamily_none hget]
        exact .refl s _
      | some f =>
        rw [run_bind, run_storeFamily hget]
        dsimp only
        rw [run_ite]
        split
        · exact .refl s _
        · exact hfound
  cases key with
  | null => exact hfound
  | _ => exact hrest

theorem tried_point (hf : Founded s) (id : FamilyId) (call : PointCall) :
    Tried 0 s ((call.run id).run s) := by
  unfold PointCall.run
  cases call with
  | insert key value => exact run_map _ _ s ▸ (tried_insert hf id key value).map _
  | update key delta => exact run_map _ _ s ▸ (tried_update hf id key delta).map _
  | delete key => exact run_map _ _ s ▸ (tried_delete hf id key).map _
  | lookup key => exact run_map _ _ s ▸ (tried_lookup hf id key).map _
  | get key default => exact run_map _ _ s ▸ (tried_getOr hf id key default).map _
  | contains key => exact run_map _ _ s ▸ (tried_contains hf id key).map _

/-! ## Databases -/

/-- A request takes one status, and gives its configuration block back if that is a failure. -/
theorem tried_ask (hfresh : s.engine.nextHandle ∉ s.engine.configBlocks) (b : DatabaseId)
    (d : Database) (text : String) (sizes : Sizes) (existing : Bool) :
    Tried Engine.handleStep s ((ask b d text sizes existing).run s) := by
  rw [run_ask]
  by_cases hp : Engine.Run.pendingStatus s.engine (Engine.requestEntry existing) = Status.success
  · have hspends : ∀ {t : Store}, t.engine.pending =
        s.engine.pending.erase (Engine.requestEntry existing) →
        Spends [Engine.requestEntry existing] s t := by
      intro t ht x hx
      rw [ht, Table.get?_erase, if_neg (by simpa using hx)]
    split
    · exact .of_spends _ (hspends rfl) (by simpa using hp) _
    · exact .of_spends _ (hspends rfl) (by simpa using hp) _
    · exact .of_spends _ (hspends rfl) (by simpa using hp) _
  · have hanswer : s.engine.answer existing (Files.upToZero text) =
        .ok (.error (Engine.Run.pendingStatus s.engine (Engine.requestEntry existing))) :=
      if_pos hp
    rw [hanswer]
    dsimp only
    have hblocks : (s.petitioned existing).withoutBlock s.engine.nextHandle =
        { s.engine with
          calls := ((s.petitioned existing).withoutBlock s.engine.nextHandle).calls
          nextHandle := s.engine.nextHandle + Engine.handleStep
          pending := s.engine.pending.erase (Engine.requestEntry existing) } := by
      have hback := Engine.Run.filter_blocks hfresh
      unfold petitioned Engine.withoutBlock Engine.Run.requested Engine.withBlock
      dsimp only
      rw [hback]
    rw [hblocks]
    exact .failed (requestTask existing) _ hp (.erase s _ _ _)

theorem tried_start (hfresh : s.engine.nextHandle ∉ s.engine.configBlocks) (b : DatabaseId)
    (path : Value) (settings : Settings) (existing : Bool) :
    Tried Engine.handleStep s ((start b path settings existing).run s) := by
  cases hd : s.databases.get? b with
  | none =>
    unfold start
    rw [run_bind, run_database_none hd]
    exact .refl s _
  | some d =>
    by_cases hp : d.phase = .fresh
    · rw [run_start hd hp]
      cases aim s.engine.files path settings existing with
      | error failure => exact .refl s _
      | ok target => exact tried_ask hfresh b d target.1 target.2 existing
    · unfold start
      rw [run_bind, run_database hd]
      dsimp only
      rw [run_ite, if_pos hp]
      exact .refl s _

/-- A new handle is taken back when its database fails. -/
theorem tried_connect (hs : Reachable s) (path : Value) (settings : Settings) (existing : Bool) :
    Tried Engine.handleStep s ((connect path settings existing).run s) := by
  have hnone := hs.founded.databases.get?_size
  have h : Tried Engine.handleStep s.withFresh
      ((start s.databases.size path settings existing).run s.withFresh) :=
    tried_start (by exact hs.fresh) _ path settings existing
  rw [connect_eq]
  generalize (start s.databases.size path settings existing).run s.withFresh = answer at h
  cases h with
  | @went r t h =>
    cases r with
    | ok _ => exact .went h
    | error failure => exact .went h
  | failed task entry hp h =>
    obtain ⟨⟨calls, pending, rfl⟩, htaken, hothers⟩ := h
    refine .failed task entry hp ⟨⟨calls, pending, ?_⟩, htaken, hothers⟩
    unfold withFresh
    dsimp only
    rw [Table.erase_set_of_none hnone]

end Run

/-- Whether an operation is a call that may take a status before it works with databases, records
or cursors. -/
def Operation.isTried : Operation → Bool
  | .start .. | .connect .. | .point .. | .range .. => true
  | _ => false

/-- The handles that an operation uses up even if it fails: one for a configuration block. -/
def Operation.passed : Operation → Engine.Handle
  | .start .. | .connect .. => Engine.handleStep
  | _ => 0

theorem tried_perform {s : Store} (hs : Reachable s) {op : Operation} (h : op.isTried = true) :
    Tried op.passed s (s.perform op) := by
  unfold perform Operation.run
  cases op with
  | start b path settings existing =>
    exact run_map _ _ s ▸ (Run.tried_start hs.fresh b path settings existing).map _
  | connect path settings existing =>
    exact run_map _ _ s ▸ (Run.tried_connect hs path settings existing).map _
  | point id call => exact Run.tried_point hs.founded id call
  | range id start => exact run_map _ _ s ▸ (Run.tried_range hs.founded id start).map _
  | _ => exact absurd h (by simp [Operation.isTried])

end FamilyStore.Store
