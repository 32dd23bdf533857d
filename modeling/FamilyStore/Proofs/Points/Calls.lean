import FamilyStore.Proofs.Engine.Merging
import FamilyStore.Proofs.Founded
import FamilyStore.Proofs.Handles
import FamilyStore.Proofs.Points.Maps
import FamilyStore.Proofs.SameHandles
import FamilyStore.Proofs.Slices

/-!
What each point call comes to, while no failure is set up.

A call that its family takes replies as the map of the family says, and leaves the records of that
map behind. A call that the family does not take changes no records.
-/

namespace FamilyStore

/-! ## Arguments -/

/-- The engine receives exactly the bytes that an accepted value covers. -/
theorem Slice.ofValue_cases (v : Value) :
    (v.isAccepted = true ∧ ∃ slice, Slice.ofValue v = .ok slice ∧
      slice.length = v.contents.length ∧ (slice.span v.contents).length = v.contents.length ∧
      (slice.span v.contents).read = v.contents) ∨
    (v.isAccepted = false ∧ ∃ failure, Slice.ofValue v = .error failure) := by
  unfold Value.isAccepted
  cases v with
  | null => exact .inl ⟨rfl, Slice.absent, rfl, rfl, rfl, rfl⟩
  | buffer b =>
    show ((ofBuffer b).isOk = true ∧ ∃ slice, ofBuffer b = .ok slice ∧
      slice.length = b.contents.length ∧ (slice.span b.contents).length = b.contents.length ∧
      (slice.span b.contents).read = b.contents) ∨
      ((ofBuffer b).isOk = false ∧ ∃ failure, ofBuffer b = .error failure)
    by_cases hpiece : b.InOnePiece
    · obtain ⟨slice, hslice, hsliced⟩ := Buffer.exists_sliced hpiece
      rw [hslice, b.length_contents]
      exact .inl ⟨rfl, slice, rfl, hsliced.length_eq, hsliced.length_span _,
        hsliced.read_span_contents⟩
    · rw [Buffer.slice_of_not_inOnePiece hpiece]
      exact .inr ⟨rfl, _, rfl⟩
  | bool | int | float | str | list => exact .inr ⟨rfl, _, rfl⟩

theorem Slice.ofValue_of_isAccepted {v : Value} (h : v.isAccepted = true) :
    ∃ slice, Slice.ofValue v = .ok slice ∧ (slice.span v.contents).read = v.contents := by
  rcases ofValue_cases v with ⟨-, slice, hs, -, -, hread⟩ | ⟨hn, -⟩
  · exact ⟨slice, hs, hread⟩
  · exact absurd (h.symm.trans hn) (by simp)

namespace Store

/-- A key is handed to the engine if it is one within the limit. -/
theorem Family.span_cases (f : Family) (key : Value) :
    (key.isKey f.config.maxKeySize = true ∧ ∃ span, f.span key = .ok span ∧
      span.length = key.contents.length ∧ span.read = key.contents) ∨
    (key.isKey f.config.maxKeySize = false ∧ ∃ failure, f.span key = .error failure) := by
  have hslice := Slice.ofValue_cases key
  unfold Value.isKey
  cases key with
  | buffer b =>
    unfold span
    dsimp only
    rcases hslice with ⟨ha, slice, hs, hlen, hspan, hread⟩ | ⟨ha, failure, hs⟩
    · rw [hs, ha]
      dsimp only
      by_cases hlong : f.config.maxKeySize < slice.length
      · rw [if_pos hlong, decide_eq_false (by rw [← hlen]; exact Nat.not_le.2 hlong)]
        exact .inr ⟨rfl, _, rfl⟩
      · rw [if_neg hlong, decide_eq_true (by rw [← hlen]; exact Nat.not_lt.1 hlong)]
        exact .inl ⟨rfl, _, rfl, hspan, hread⟩
    · rw [hs, ha]
      exact .inr ⟨rfl, _, rfl⟩
  | null => exact .inr ⟨rfl, _, rfl⟩
  | bool | int | float | str | list => exact .inr ⟨rfl, _, rfl⟩

theorem Family.span_of_isKey {f : Family} {key : Value}
    (h : key.isKey f.config.maxKeySize = true) : ∃ span, f.span key = .ok span ∧
      span.length = key.contents.length ∧ span.read = key.contents := by
  rcases f.span_cases key with ⟨-, hspan⟩ | ⟨hn, -⟩
  · exact hspan
  · exact absurd (h.symm.trans hn) (by simp)

theorem Run.run_valueSpan (v : Value) (s : Store) : (Run.valueSpan v).run s =
    ((Slice.ofValue v).map fun slice => slice.span v.contents, s) := by
  unfold Run.valueSpan Run.sliceOf
  rw [run_bind, run_ofExcept]
  cases Slice.ofValue v with
  | ok slice => rfl
  | error failure => rfl

section

variable {α : Type} {s : Store} {id : FamilyId} {f : Family} {fh : Engine.FamilyHandle}
  {key value : Value} {span : Span} {slice : Slice}

/-- A call on an open family that takes the key. -/
theorem Run.run_keyed (h : Serves s id f fh) (hspan : f.span key = .ok span)
    (rest : Family × Engine.FamilyHandle → Span → Run α) :
    (openFamily id >>= fun r => keySpan r.1 key >>= rest r).run s = (rest (f, fh) span).run s := by
  rw [run_bind, run_openFamily h]
  dsimp only
  rw [run_bind, run_keySpan, hspan]

/-- A call with a value on an open family that takes key and value. -/
theorem Run.run_valued (h : Serves s id f fh) (hspan : f.span key = .ok span)
    (hslice : Slice.ofValue value = .ok slice)
    (rest : Family × Engine.FamilyHandle → Span → Span → Run α) :
    (openFamily id >>= fun r => keySpan r.1 key >>= fun k => valueSpan value >>= rest r k).run s =
      (rest (f, fh) span (slice.span value.contents)).run s := by
  rw [run_keyed h hspan, run_bind, run_valueSpan, hslice]
  rfl

/-- A call reaches the engine: its family handle is open and takes the key. -/
structure Reaches (s : Store) (id : FamilyId) (key : Value) (f : Family)
    (fh : Engine.FamilyHandle) (fam : Engine.Family) (span : Span) : Prop where
  serves : Serves s id f fh
  engine : Engine.Run.Serves s.engine fh fam
  config : fam.config = f.config.record
  stands : s.engineFamily? id = some fam
  read : span.read = key.contents

/-- A call on a family reaches the engine, or fails and has done nothing. -/
theorem Run.keyed_cases (hf : Founded s) (id : FamilyId) (key : Value)
    (rest : Family × Engine.FamilyHandle → Span → Run α) :
    (∃ failure, (openFamily id >>= fun r => keySpan r.1 key >>= rest r).run s =
      (.error failure, s)) ∨
    ∃ f fh fam span, Reaches s id key f fh fam span ∧
      (openFamily id >>= fun r => keySpan r.1 key >>= rest r).run s =
        (rest (f, fh) span).run s := by
  rcases openFamily_cases s id with ⟨failure, hrun⟩ | ⟨f, fh, hserves⟩
  · rw [run_bind, hrun]
    exact .inl ⟨failure, rfl⟩
  · obtain ⟨fam, hfam, hconfig, hstands⟩ := hf.exists_inUse hserves
    rcases f.span_cases key with ⟨-, span, hspan, -, hread⟩ | ⟨-, failure, hspan⟩
    · exact .inr ⟨f, fh, fam, span, ⟨hserves, hfam, hconfig, hstands, hread⟩,
        run_keyed hserves hspan rest⟩
    · rw [run_bind, run_openFamily hserves]
      dsimp only
      rw [run_bind, run_keySpan, hspan]
      exact .inl ⟨failure, rfl⟩

/-- A value is handed on with its bytes, or refused. -/
theorem Run.valued_cases (s : Store) (value : Value) (rest : Span → Run α) :
    (∃ failure, (valueSpan value >>= rest).run s = (.error failure, s)) ∨
    ∃ span, span.read = value.contents ∧ (valueSpan value >>= rest).run s = (rest span).run s := by
  rw [run_bind, run_valueSpan]
  rcases Slice.ofValue_cases value with ⟨-, slice, hslice, -, -, hread⟩ | ⟨-, failure, hslice⟩
  · rw [hslice]
    exact .inr ⟨_, hread, rfl⟩
  · rw [hslice]
    exact .inl ⟨failure, rfl⟩

end

end Store

/-! ## Records -/

namespace Engine

/-- The records of one store are given ones, and those of the others are as before. -/
def Replaces (σ : StoreId) (R : Records) (e e' : Engine) : Prop :=
  ∀ τ, e'.recordsOf τ = if τ = σ then R else e.recordsOf τ

theorem Writes.replaces {f : FamilyHandle} {fam : Family} {change : Records → Records}
    {e e' : Engine} (h : Writes f change e e') (hs : Run.Serves e f fam) :
    Replaces fam.store (change (e.recordsOf fam.store)) e e' := by
  obtain ⟨g, hg, -, hrecords⟩ := h
  obtain rfl := Option.some.inj (hg.1.symm.trans hs.1)
  intro τ
  unfold recordsOf
  rw [hrecords, Table.get?_set]
  split
  · rfl
  · rfl

theorem SameCursors.replaces {e e' : Engine} (h : SameCursors [] e e') (σ : StoreId) :
    Replaces σ (e.recordsOf σ) e e' := by
  have hrecords : e'.records = e.records := h.same .records (by decide)
  intro τ
  unfold recordsOf
  rw [hrecords]
  split
  · rename_i heq
    rw [heq]
  · rfl

/-- No failure is set up for the calls of a family. -/
structure Undisturbed (e : Engine) : Prop where
  pending : ∀ entry, e.pending.get? entry = none
  resize : e.refuseResize = false

theorem Undisturbed.pendingStatus {e : Engine} (h : Undisturbed e) (entry : EntryPoint) :
    Run.pendingStatus e entry = Status.success := by
  unfold Run.pendingStatus
  rw [h.pending]
  rfl

theorem Undisturbed.sameCursors {parts : List Part} (hp : .settings ∉ parts) {e e' : Engine}
    (h : Undisturbed e) (hq : SameCursors parts e e') : Undisturbed e' := by
  obtain ⟨-, hresize, hpending⟩ := hq.same .settings hp
  exact ⟨fun entry => hpending entry (h.pending entry), hresize.trans h.resize⟩

/-! ## Merges -/

/-- While lengths may change, a merge leaves exactly what the data functions gave. -/
theorem mergeOutcome_cases (funcs : DataFuncs) (R : Records) (key delta : Bytes) :
    (∃ bs, funcs.merged (R.get? key) key delta = .ok bs ∧
      (Run.mergeOutcome funcs R key ⟨delta⟩ false).status = Status.success ∧
      (Run.mergeOutcome funcs R key ⟨delta⟩ false).accumulator.contents = bs) ∨
    (∃ raised, funcs.merged (R.get? key) key delta = .error raised ∧
      (Run.mergeOutcome funcs R key ⟨delta⟩ false).status = raised.status) := by
  rcases mergeOutcome_fault_or funcs R key delta false with hfault | ⟨hstatus, hmerged⟩
  · rcases hfault.raised_or_refused with ⟨raised, hraised, hstatus⟩ | ⟨_, _, hrefused, _⟩
    · exact .inr ⟨raised, hraised, hstatus⟩
    · exact absurd hrefused Bool.false_ne_true
  · exact .inl ⟨_, hmerged, hstatus, rfl⟩

/-- No lookup is going on at the address of the next one. -/
theorem get?_freeLookup (e : Engine) : e.lookups.get? e.freeLookup = none := by
  have hmax : ∀ (l : List Nat) (m : Nat), m ≤ l.foldl max m ∧ ∀ a ∈ l, a ≤ l.foldl max m := by
    intro l
    induction l with
    | nil => exact fun m => ⟨Nat.le_refl m, fun a ha => absurd ha List.not_mem_nil⟩
    | cons b l ih =>
      intro m
      obtain ⟨hle, hall⟩ := ih (max m b)
      refine ⟨Nat.le_trans (Nat.le_max_left m b) hle, fun a ha => ?_⟩
      rcases List.mem_cons.1 ha with rfl | ha
      · exact Nat.le_trans (Nat.le_max_right m a) hle
      · exact hall a ha
  rw [Table.get?_eq_none_iff]
  intro hmem
  have hle := (hmax _ 0).2 _ hmem
  have hlt : e.lookups.keys.foldl max 0 < e.freeLookup := Nat.lt_succ_self _
  exact absurd hle (Nat.not_le.2 hlt)

end Engine

/-! ## Calls on a family handle -/

namespace Store

/-- A family handle is open, the engine has the family in use, and no failure is set up. -/
structure Ready (s : Store) (id : FamilyId) (f : Family) (fh : Engine.FamilyHandle)
    (fam : Engine.Family) : Prop where
  serves : Serves s id f fh
  engine : Engine.Run.Serves s.engine fh fam
  config : fam.config = f.config.record
  limit : f.config.maxKeySize < 2 ^ 64
  undisturbed : Engine.Undisturbed s.engine

namespace Run

/-- A status other than success fails. -/
theorem run_checkStatus_of_ne {status : Status} (h : status ≠ Status.success) (task : EngineTask)
    (t : Store) : (checkStatus task status).run t = (.error (statusFailure task status), t) := by
  unfold checkStatus
  rw [if_neg h]
  rfl

variable {s : Store} {id : FamilyId} {f : Family} {fh : Engine.FamilyHandle} {fam : Engine.Family}
  {key value delta : Value}

/-- The engine takes all keys that the handle takes. -/
theorem isTooLong_of_record (hconfig : fam.config = f.config.record)
    (hlimit : f.config.maxKeySize < 2 ^ 64) (hk : key.isKey f.config.maxKeySize = true) :
    Engine.Run.isTooLong fam key.contents.length = false := by
  obtain ⟨-, hle⟩ := Bool.and_eq_true_iff.1 hk
  have hsame : fam.config.maxKeySize.toNat = f.config.maxKeySize := by
    rw [hconfig]
    exact UInt64.toNat_ofNat_of_lt hlimit
  unfold Engine.Run.isTooLong
  rw [hsame]
  exact decide_eq_false (Nat.not_lt.2 (of_decide_eq_true hle))

theorem isTooLong_of_isKey (h : Ready s id f fh fam)
    (hk : key.isKey f.config.maxKeySize = true) :
    Engine.Run.isTooLong fam key.contents.length = false :=
  isTooLong_of_record h.config h.limit hk

/-- A call with a value is refused before it reaches the engine if the family does not take it. -/
theorem refused_of_not {α : Type} (h : Ready s id f fh fam)
    (hn : (key.isKey f.config.maxKeySize && value.isAccepted) = false)
    (rest : Family × Engine.FamilyHandle → Span → Span → Run α) :
    ((openFamily id >>= fun r => keySpan r.1 key >>= fun k =>
      valueSpan value >>= rest r k).run s).2 = s := by
  rw [run_bind, run_openFamily h.serves]
  dsimp only
  rw [run_bind, run_keySpan]
  rcases f.span_cases key with ⟨hk, span, hspan, -⟩ | ⟨-, failure, hspan⟩
  · rw [hspan]
    dsimp only
    rw [run_bind, run_valueSpan]
    rcases Slice.ofValue_cases value with ⟨hv, -⟩ | ⟨-, failure, hslice⟩
    · rw [hk, hv] at hn
      exact absurd hn (by simp)
    · rw [hslice]
      rfl
  · rw [hspan]

theorem insert_of_fits (h : Ready s id f fh fam) (hk : key.isKey f.config.maxKeySize = true)
    (hv : value.isAccepted = true) : ∃ t, (insert id key value).run s = (.ok (), t) ∧
      Engine.Replaces fam.store
        ((s.engine.recordsOf fam.store).set key.contents value.contents) s.engine t.engine := by
  obtain ⟨span, hspan, hlen, hread⟩ := Family.span_of_isKey hk
  obtain ⟨slice, hslice, hvalue⟩ := Slice.ofValue_of_isAccepted hv
  obtain ⟨r, e', hrun, hset, -⟩ :=
    Engine.Run.run_insert h.engine span (slice.span value.contents)
  have hgo : Engine.Run.isTooLong fam span.length = false := by
    rw [hlen]
    exact isTooLong_of_isKey h hk
  obtain ⟨rfl, hwrites⟩ := hset ⟨h.undisturbed.pendingStatus _, hgo⟩
  have hreplaces := hwrites.replaces h.engine
  rw [hread, hvalue] at hreplaces
  refine ⟨{ s with engine := e' }, ?_, hreplaces⟩
  unfold insert
  rw [run_valued h.serves hspan hslice, run_bind, run_engine, hrun]
  rfl

theorem insert_of_not (h : Ready s id f fh fam)
    (hn : (key.isKey f.config.maxKeySize && value.isAccepted) = false) :
    ((insert id key value).run s).2 = s := by
  exact refused_of_not h hn _

theorem delete_of_fits (h : Ready s id f fh fam) (hk : key.isKey f.config.maxKeySize = true) :
    ∃ t, (delete id key).run s = (.ok (), t) ∧ Engine.Replaces fam.store
      ((s.engine.recordsOf fam.store).erase key.contents) s.engine t.engine := by
  obtain ⟨span, hspan, -, hread⟩ := Family.span_of_isKey hk
  obtain ⟨r, e', hrun, herase, -⟩ := Engine.Run.run_delete h.engine span
  obtain ⟨rfl, hwrites⟩ := herase (h.undisturbed.pendingStatus _)
  have hreplaces := hwrites.replaces h.engine
  rw [hread] at hreplaces
  refine ⟨{ s with engine := e' }, ?_, hreplaces⟩
  unfold delete
  rw [run_keyed h.serves hspan, run_bind, run_engine, hrun]
  rfl

theorem delete_of_not (h : Ready s id f fh fam) (hn : key.isKey f.config.maxKeySize = false) :
    ((delete id key).run s).2 = s := by
  unfold delete
  rw [run_bind, run_openFamily h.serves]
  dsimp only
  rw [run_bind, run_keySpan]
  rcases f.span_cases key with ⟨hk, -⟩ | ⟨-, failure, hspan⟩
  · exact absurd (hk.symm.trans hn) (by simp)
  · rw [hspan]

/-- An update writes what the merge gave, or fails and writes nothing. -/
theorem update_of_fits (h : Ready s id f fh fam) (hk : key.isKey f.config.maxKeySize = true)
    (hv : delta.isAccepted = true) :
    (∃ bs t, f.config.funcs.merged ((s.engine.recordsOf fam.store).get? key.contents)
        key.contents delta.contents = .ok bs ∧ (update id key delta).run s = (.ok (), t) ∧
      Engine.Replaces fam.store
        ((s.engine.recordsOf fam.store).set key.contents bs) s.engine t.engine) ∨
    ∃ raised t, f.config.funcs.merged ((s.engine.recordsOf fam.store).get? key.contents)
        key.contents delta.contents = .error raised ∧
      (update id key delta).run s = (.error (statusFailure .update raised.status), t) ∧
      Engine.Replaces fam.store (s.engine.recordsOf fam.store) s.engine t.engine := by
  obtain ⟨span, hspan, -, hread⟩ := Family.span_of_isKey hk
  obtain ⟨slice, hslice, hdelta⟩ := Slice.ofValue_of_isAccepted hv
  obtain ⟨o, ho⟩ : ∃ o, Engine.Run.mergeOutcome f.config.funcs (s.engine.recordsOf fam.store)
      key.contents ⟨delta.contents⟩ false = o := ⟨_, rfl⟩
  have hmerge : Engine.Run.mergeOutcome fam.config.funcs (s.engine.recordsOf fam.store) span.read
      ⟨(slice.span delta.contents).read⟩ s.engine.refuseResize = o := by
    rw [hread, hdelta, h.undisturbed.resize, h.config]
    exact ho
  obtain ⟨r, e', hrun, hgo, -⟩ := Engine.Run.run_update h.engine span _ hmerge
  have hlong : Engine.Run.isTooLong fam span.read.length = false := by
    rw [hread]
    exact isTooLong_of_isKey h hk
  obtain ⟨rfl, hset, hcursors⟩ := hgo ⟨h.undisturbed.pendingStatus _, hlong⟩
  rw [hread] at hset
  have hcall : (update id key delta).run s = (checkStatus .update o.status).run
      { s with engine := e', log := o.events.reverse ++ s.log } := by
    unfold update
    rw [run_valued h.serves hspan hslice, run_bind, run_engine, hrun]
    dsimp only
    rw [run_bind, run_note]
  rcases ho ▸ Engine.mergeOutcome_cases f.config.funcs (s.engine.recordsOf fam.store) key.contents
    delta.contents with ⟨bs, hm, hstatus, hbs⟩ | ⟨raised, hm, hstatus⟩
  · have hreplaces := (hset hstatus).replaces h.engine
    rw [hbs] at hreplaces
    rw [hstatus] at hcall
    exact .inl ⟨bs, _, hm, hcall, hreplaces⟩
  · have hfail : o.status ≠ Status.success := by
      rw [hstatus]
      exact raised.status_ne_success
    have hreply := hcall.trans (run_checkStatus_of_ne hfail .update _)
    rw [hstatus] at hreply
    exact .inr ⟨raised, _, hm, hreply, (hcursors hfail).replaces _⟩

theorem update_of_not (h : Ready s id f fh fam)
    (hn : (key.isKey f.config.maxKeySize && delta.isAccepted) = false) :
    ((update id key delta).run s).2 = s := by
  exact refused_of_not h hn _

/-- A lookup gives back what it found. -/
theorem run_lookupIn (hs : Engine.Run.Serves s.engine fh fam)
    (hu : Engine.Undisturbed s.engine) (span : Span) {address : Nat}
    (ha : s.engine.lookups.get? address = some none) :
    ∃ e', (lookupIn fh span address).run s =
        (.ok ((s.engine.recordsOf fam.store).get? span.read), { s with engine := e' }) ∧
      e'.lookups.get? address = some ((s.engine.recordsOf fam.store).get? span.read) := by
  obtain ⟨e₁, hlookup, hcursors, hfound⟩ :=
    Engine.Run.run_lookup hs span ha (hu.pendingStatus _)
  have hu₁ : Engine.Undisturbed e₁ := hu.sameCursors (by decide) hcursors
  unfold lookupIn
  rw [run_bind, run_engine, hlookup]
  dsimp only
  unfold checkStatus
  rw [if_pos rfl, run_bind, run_pure]
  dsimp only
  rw [run_bind, run_engine]
  dsimp only
  rw [Engine.Run.run_lookupFound hfound]
  cases hvalue : (s.engine.recordsOf fam.store).get? span.read with
  | none => exact ⟨_, rfl, hfound.trans (congrArg some hvalue)⟩
  | some value =>
    rw [hvalue] at hfound
    have hread := Engine.Run.run_lookupValue
      (e := { e₁ with calls := ⟨.lookupFound, .lookup address⟩ :: e₁.calls }) hfound
      (hu₁.pendingStatus _)
    dsimp only
    rw [run_ite, if_pos Option.isSome_some, run_bind, run_engine]
    dsimp only
    rw [hread]
    exact ⟨_, rfl, hfound⟩

/-- Looking a key up gives the value of its record, if there is one. -/
theorem lookup_of_fits (h : Ready s id f fh fam) (hk : key.isKey f.config.maxKeySize = true) :
    ((lookup id key).run s).1 =
      .ok ((s.engine.recordsOf fam.store).get? key.contents) := by
  obtain ⟨span, hspan, -, hread⟩ := Family.span_of_isKey hk
  have hinit := Engine.Run.run_lookupInit h.engine (Engine.get?_freeLookup s.engine)
  unfold lookup
  rw [run_bind, run_openFamily h.serves]
  dsimp only
  rw [run_bind, run_keySpan, hspan]
  dsimp only
  rw [run_bind, run_get]
  dsimp only
  rw [run_bind, run_engine, hinit]
  dsimp only
  generalize ht : ({ s with engine := _ } : Store) = t
  have hrecords : t.engine.recordsOf fam.store = s.engine.recordsOf fam.store := by
    rw [← ht]
    rfl
  have hserves : Engine.Run.Serves t.engine fh fam := by
    rw [← ht]
    exact h.engine
  have hundisturbed : Engine.Undisturbed t.engine := by
    rw [← ht]
    exact ⟨h.undisturbed.pending, h.undisturbed.resize⟩
  have hstarted : t.engine.lookups.get? s.engine.freeLookup = some none := by
    rw [← ht]
    exact Table.get?_set_self _ _ _
  obtain ⟨e', hrun, hfound⟩ := run_lookupIn hserves hundisturbed span hstarted
  unfold ensuring
  rw [run_bind, run_outcome, hrun]
  dsimp only
  rw [run_bind, run_engine]
  dsimp only
  rw [Engine.Run.run_lookupDeinit hfound]
  dsimp only
  rw [run_ofExcept, hrecords, hread]

theorem getOr_of_fits (h : Ready s id f fh fam) (hk : key.isKey f.config.maxKeySize = true)
    (default : Value) : ((getOr id key default).run s).1 = .ok
      ((((s.engine.recordsOf fam.store).get? key.contents).map Value.bytes).getD default) := by
  obtain ⟨r, t, hrun⟩ : ∃ r t, (lookup id key).run s = (r, t) := ⟨_, _, rfl⟩
  have hlookup := lookup_of_fits h hk
  rw [hrun] at hlookup
  dsimp only at hlookup
  unfold getOr
  rw [run_bind, hrun, hlookup]
  cases (s.engine.recordsOf fam.store).get? key.contents with
  | none => rfl
  | some value => rfl

theorem contains_of_fits (h : Ready s id f fh fam) (hk : key.isKey f.config.maxKeySize = true) :
    ((contains id key).run s).1 =
      .ok ((s.engine.recordsOf fam.store).get? key.contents).isSome := by
  obtain ⟨r, t, hrun⟩ : ∃ r t, (lookup id key).run s = (r, t) := ⟨_, _, rfl⟩
  have hlookup := lookup_of_fits h hk
  rw [hrun] at hlookup
  dsimp only at hlookup
  obtain ⟨hbuffer, hle⟩ := Bool.and_eq_true_iff.1 hk
  cases key with
  | buffer b =>
    have hsize : ¬ f.config.maxKeySize < b.size :=
      Nat.not_lt.2 (b.length_contents ▸ of_decide_eq_true hle)
    unfold contains
    dsimp only
    rw [run_bind, run_ofExcept]
    dsimp only [Value.size]
    rw [run_bind, run_storeFamily h.serves.1]
    dsimp only
    rw [run_ite, if_neg hsize, run_bind, hrun, hlookup]
    rfl
  | null | bool | int | float | str | list =>
    exact absurd hk (by simp [Value.isKey, Value.isBuffer])

end Run

/-! ## Calls of any kind -/

variable {s : Store} {id : FamilyId} {f : Family} {fh : Engine.FamilyHandle} {fam : Engine.Family}

/-- A call that the family takes does to its records what it does to their map. -/
theorem point_of_fits (h : Ready s id f fh fam) (call : PointCall)
    (hfits : call.fits f.config.maxKeySize = true) :
    ((call.run id).run s).1 =
      (call.onMap f.config.funcs (Engine.contentOf (s.engine.recordsOf fam.store))).1 ∧
    ∃ R, Engine.Replaces fam.store R s.engine ((call.run id).run s).2.engine ∧
      Engine.contentOf R =
        (call.onMap f.config.funcs (Engine.contentOf (s.engine.recordsOf fam.store))).2 := by
  obtain ⟨hk, hv⟩ := Bool.and_eq_true_iff.1 hfits
  cases call with
  | insert key value =>
    dsimp only [PointCall.key, PointCall.argument] at hk hv
    obtain ⟨t, hrun, hreplaces⟩ := Run.insert_of_fits h hk hv
    unfold PointCall.run
    rw [run_map, hrun]
    exact ⟨rfl, _, hreplaces, Engine.contentOf_set _ _ _⟩
  | update key delta =>
    dsimp only [PointCall.key, PointCall.argument] at hk hv
    unfold PointCall.run PointCall.onMap
    dsimp only
    rw [run_map, Engine.lookup_contentOf]
    rcases Run.update_of_fits h hk hv with ⟨bs, t, hm, hrun, hreplaces⟩ |
      ⟨failure, t, hm, hrun, hreplaces⟩
    · rw [hrun, hm]
      exact ⟨rfl, _, hreplaces, Engine.contentOf_set _ _ _⟩
    · rw [hrun, hm]
      exact ⟨rfl, _, hreplaces, rfl⟩
  | delete key =>
    dsimp only [PointCall.key] at hk
    obtain ⟨t, hrun, hreplaces⟩ := Run.delete_of_fits h hk
    unfold PointCall.run
    rw [run_map, hrun]
    exact ⟨rfl, _, hreplaces, Engine.contentOf_erase _ _⟩
  | lookup key =>
    dsimp only [PointCall.key] at hk
    have hhandles : Within (SameHandles []) (Run.lookup id key) := Run.sameHandles_lookup id key
    unfold PointCall.run PointCall.onMap
    dsimp only
    rw [run_map, Run.lookup_of_fits h hk, Engine.lookup_contentOf]
    exact ⟨rfl, _, (hhandles s).engine.replaces _, rfl⟩
  | get key default =>
    dsimp only [PointCall.key] at hk
    have hhandles : Within (SameHandles []) (Run.getOr id key default) :=
      Run.sameHandles_getOr id key default
    unfold PointCall.run PointCall.onMap
    dsimp only
    rw [run_map, Run.getOr_of_fits h hk, Engine.lookup_contentOf]
    exact ⟨rfl, _, (hhandles s).engine.replaces _, rfl⟩
  | contains key =>
    dsimp only [PointCall.key] at hk
    have hhandles : Within (SameHandles []) (Run.contains id key) := Run.sameHandles_contains id key
    unfold PointCall.run PointCall.onMap
    dsimp only
    rw [run_map, Run.contains_of_fits h hk, Engine.lookup_contentOf]
    exact ⟨rfl, _, (hhandles s).engine.replaces _, rfl⟩

/-- A call that the family does not take leaves all records alone. -/
theorem point_of_not (h : Ready s id f fh fam) (call : PointCall)
    (hfits : call.fits f.config.maxKeySize = false) :
    Engine.Replaces fam.store (s.engine.recordsOf fam.store) s.engine
      ((call.run id).run s).2.engine := by
  have hsame : ∀ t, t = s → Engine.Replaces fam.store (s.engine.recordsOf fam.store) s.engine
      t.engine := by
    rintro t rfl
    exact Engine.SameCursors.replaces (Frame.refl _) _
  have hkey : ∀ {key : Value}, (key.isKey f.config.maxKeySize && Value.null.isAccepted) = false →
      key.isKey f.config.maxKeySize = false := fun hn => (Bool.and_true _).symm.trans hn
  cases call with
  | insert key value =>
    unfold PointCall.run
    rw [run_map]
    exact hsame _ (Run.insert_of_not h hfits)
  | update key delta =>
    unfold PointCall.run
    rw [run_map]
    exact hsame _ (Run.update_of_not h hfits)
  | delete key =>
    unfold PointCall.run
    rw [run_map]
    exact hsame _ (Run.delete_of_not h (hkey hfits))
  | lookup key =>
    have hhandles : Within (SameHandles []) (Run.lookup id key) := Run.sameHandles_lookup id key
    unfold PointCall.run
    rw [run_map]
    exact (hhandles s).engine.replaces _
  | get key default =>
    have hhandles : Within (SameHandles []) (Run.getOr id key default) :=
      Run.sameHandles_getOr id key default
    unfold PointCall.run
    rw [run_map]
    exact (hhandles s).engine.replaces _
  | contains key =>
    have hhandles : Within (SameHandles []) (Run.contains id key) := Run.sameHandles_contains id key
    unfold PointCall.run
    rw [run_map]
    exact (hhandles s).engine.replaces _

end Store

end FamilyStore
