import FamilyStore.Proofs.ClosedDatabase
import FamilyStore.Proofs.Failing
import FamilyStore.Proofs.Iteration.History
import FamilyStore.Proofs.Points.Refinement

/-!
Arguments are checked before the engine is asked for anything.

A call on an open family whose key or value cannot be used is refused, and the store is the same as
before, down to the failures that are set up in the engine. A key is refused for its length exactly
when it is usable and covers more bytes than its family allows. Asking whether a key is there comes
to a lookup, except for a key that is too long: it is not there, and the engine is not asked.
-/

namespace FamilyStore

/-! ## Usable values -/

/-- A value cannot be handed to the engine. -/
inductive Value.Unusable : Value → Prop
  /-- It is neither nothing nor a buffer. -/
  | noBuffer {v : Value} (hnull : v ≠ .null) (hbuffer : v.isBuffer = false) : Unusable v
  /-- It is a buffer of several items that do not lie next to each other. -/
  | scattered {b : Buffer} (hapart : ¬ b.InOnePiece) : Unusable (.buffer b)

/-- A value can be used, and covers more bytes than a limit. -/
def Value.IsOverlong (v : Value) (limit : Nat) : Prop :=
  v.isBuffer = true ∧ ¬ v.Unusable ∧ limit < v.contents.length

/-- A buffer is refused exactly if it lies in pieces. -/
theorem Slice.isOk_ofBuffer (b : Buffer) : (ofBuffer b).isOk = b.isContiguous := by
  cases hcontiguous : b.isContiguous with
  | true =>
    obtain ⟨slice, hslice, -⟩ := Buffer.exists_sliced (b.isContiguous_iff.1 hcontiguous)
    rw [hslice]
    rfl
  | false =>
    rw [Buffer.slice_of_not_inOnePiece (b.isContiguous_eq_false_iff.1 hcontiguous)]
    rfl

namespace Value

/-- The values that are not accepted are the unusable ones. -/
theorem isAccepted_eq_false_iff (v : Value) : v.isAccepted = false ↔ v.Unusable := by
  cases v with
  | null =>
    refine iff_of_false (by simp [isAccepted, Slice.ofValue, Except.isOk, Except.toBool]) ?_
    rintro ⟨hnull, -⟩
    exact hnull rfl
  | buffer b =>
    show (Slice.ofBuffer b).isOk = false ↔ _
    rw [Slice.isOk_ofBuffer, Buffer.isContiguous_eq_false_iff]
    constructor
    · exact .scattered
    · rintro (⟨-, hbuffer⟩ | hapart)
      · exact absurd hbuffer (by simp [isBuffer])
      · exact hapart
  | bool | int | float | str | list => exact iff_of_true rfl (.noBuffer (by simp) rfl)

theorem isAccepted_iff (v : Value) : v.isAccepted = true ↔ ¬ v.Unusable := by
  rw [← isAccepted_eq_false_iff, Bool.not_eq_false]

/-- The values that are no keys within a limit. -/
theorem isKey_eq_false_iff (v : Value) (limit : Nat) :
    v.isKey limit = false ↔ v = .null ∨ v.Unusable ∨ limit < v.contents.length := by
  unfold isKey
  rw [Bool.and_eq_false_iff, Bool.and_eq_false_iff, decide_eq_false_iff_not, Nat.not_le,
    isAccepted_eq_false_iff]
  constructor
  · rintro ((hbuffer | hunusable) | hlong)
    · by_cases hnull : v = .null
      · exact .inl hnull
      · exact .inr (.inl (.noBuffer hnull hbuffer))
    · exact .inr (.inl hunusable)
    · exact .inr (.inr hlong)
  · rintro (rfl | hunusable | hlong)
    · exact .inl (.inl rfl)
    · exact .inl (.inr hunusable)
    · exact .inr hlong

/-- The values from which no iteration can be started. -/
theorem canStart_eq_false_iff (v : Value) (limit : Nat) :
    v.canStart limit = false ↔ v.Unusable ∨ limit < v.contents.length := by
  by_cases hnull : v = .null
  · subst hnull
    refine iff_of_false (by simp [canStart]) ?_
    rintro (hunusable | hlong)
    · exact absurd ((isAccepted_eq_false_iff .null).2 hunusable) (by decide)
    · exact Nat.not_lt_zero _ hlong
  · have hkey : v.canStart limit = v.isKey limit := by
      unfold canStart
      split
      · exact absurd rfl hnull
      · rfl
    rw [hkey, isKey_eq_false_iff, or_iff_right hnull]

theorem not_isOverlong_of_isKey {v : Value} {limit : Nat} (h : v.isKey limit = true) :
    ¬ v.IsOverlong limit := by
  rintro ⟨-, -, hlong⟩
  exact absurd ((isKey_eq_false_iff v limit).2 (.inr (.inr hlong))) (by rw [h]; simp)

end Value

/-! ## Calls of the engine -/

namespace Engine.Run

theorem hears_takePending (entry : EntryPoint) : Within Hears (takePending entry) := by
  intro e
  rw [run_takePending]
  exact Nat.le_refl _

/-- To set memory aside for a lookup is a call. -/
theorem lt_calls_lookupInit (f : FamilyHandle) (address : Nat) (e : Engine) :
    e.calls.length < ((lookupInit f address).run e).2.calls.length := by
  have hrest : Within Hears (family f >>= fun _ => (get : Run Engine) >>= fun e => do
      if e.lookups.contains address then refuse .lookupStartedTwice
      set { e with lookups := e.lookups.set address none }) := by
    refine Within.bind (within_family f) fun _ => Within.get_bind fun e => ?_
    rw [run_ite]
    split
    · exact Nat.le_refl _
    · exact Nat.le_refl _
  exact Nat.lt_of_lt_of_le (Nat.lt_succ_self _)
    (hrest { e with calls := ⟨.lookupInit, .lookup address⟩ :: e.calls })

theorem hears_lookup (f : FamilyHandle) (key : Span) (address : Nat) :
    Within Hears (lookup f key address) := by
  refine Within.bind (hears_note _ _) fun _ => Within.bind (within_family f) fun fam => ?_
  refine Within.bind Within.get fun e => Within.bind (within_require _) fun _ => ?_
  refine Within.bind (hears_takePending _) fun status => Within.ite (Within.pure _) ?_
  cases (e.recordsOf fam.store).get? key.read with
  | none => exact Within.pure _
  | some value => exact Within.bind (Within.modify fun _ => Nat.le_refl _) fun _ => Within.pure _

theorem hears_lookupFound (address : Nat) : Within Hears (lookupFound address) :=
  Within.bind (hears_note _ _) fun _ => Within.bind Within.get fun _ =>
    Within.bind (within_require _) fun _ => Within.pure _

theorem hears_lookupValue (address : Nat) : Within Hears (lookupValue address) := by
  refine Within.bind (hears_note _ _) fun _ => Within.bind Within.get fun _ => ?_
  refine Within.bind (within_require _) fun found => Within.bind (hears_takePending _) fun _ => ?_
  exact Within.ite (Within.pure _) (Within.bind (within_require _) fun _ => Within.pure _)

theorem hears_lookupDeinit (address : Nat) : Within Hears (lookupDeinit address) := by
  refine Within.bind (hears_note _ _) fun _ => Within.get_bind fun e => ?_
  cases e.lookups.get? address with
  | none => exact Nat.le_refl _
  | some found => exact Nat.le_refl _

end Engine.Run

namespace Store

namespace Run

variable {s : Store} {α : Type}

theorem hears_lookupIn (fh : Engine.FamilyHandle) (span : Span) (address : Nat) :
    Within Hears (lookupIn fh span address) := by
  refine Within.bind (hears_engine (Engine.Run.hears_lookup fh span address)) fun status => ?_
  refine Within.bind (within_checkStatus _ _) fun _ => ?_
  refine Within.bind (hears_engine (Engine.Run.hears_lookupFound address)) fun found => ?_
  refine Within.ite (Within.bind (hears_engine (Engine.Run.hears_lookupValue address)) ?_)
    (Within.pure _)
  intro r
  cases r with
  | ok value => exact Within.pure _
  | error status => exact Within.throw _

/-- A lookup that goes as far as the engine is heard there. -/
theorem lt_calls_seek (fh : Engine.FamilyHandle) (span : Span) (s : Store) :
    s.engine.calls.length < ((seek fh span).run s).2.engine.calls.length := by
  have hinit := Engine.Run.lt_calls_lookupInit fh s.engine.freeLookup s.engine
  have hrest : Within Hears (ensuring (lookupIn fh span s.engine.freeLookup)
      (engine (Engine.Run.lookupDeinit s.engine.freeLookup))) :=
    within_ensuring (hears_lookupIn _ _ _) (hears_engine (Engine.Run.hears_lookupDeinit _))
  unfold seek
  rw [run_bind, run_get]
  dsimp only
  rw [run_bind, run_engine]
  generalize (Engine.Run.lookupInit fh s.engine.freeLookup).run s.engine = answer at hinit ⊢
  obtain ⟨r, e⟩ := answer
  cases r with
  | error failure => exact hinit
  | ok _ => exact Nat.lt_of_lt_of_le hinit (hrest { s with engine := e })

/-! ## What the engine reports -/

/-- A reply is a result, or tells the status that the engine reported. -/
def Reported (r : Except Failure α) : Prop :=
  ∀ failure, r = .error failure → ∃ task status, failure = statusFailure task status

theorem Reported.ok (a : α) : Reported (.ok a) := fun _ h => nomatch h

theorem Reported.status (task : EngineTask) (status : Status) :
    Reported (.error (statusFailure task status) : Except Failure α) :=
  fun _ h => ⟨task, status, (Except.error.inj h).symm⟩

theorem Reported.map {β : Type} {r : Except Failure α} (h : Reported r) (f : α → β) :
    Reported (r.map f) := by
  cases r with
  | ok a => exact .ok _
  | error failure => exact fun _ heq => h _ (congrArg Except.error (Except.error.inj heq))

/-- The length of a key is nothing that the engine reports. -/
theorem Reported.ne_keyTooLarge {r : Except Failure α} (h : Reported r) (length limit : Nat) :
    r ≠ .error (.store (.keyTooLarge length limit)) := by
  intro heq
  obtain ⟨task, status, hfailure⟩ := h _ heq
  unfold statusFailure at hfailure
  split at hfailure
  · exact nomatch hfailure
  · exact nomatch hfailure

theorem reported_checkStatus (task : EngineTask) (status : Status) (s : Store) :
    Reported ((checkStatus task status).run s).1 := by
  unfold checkStatus
  split
  · exact .ok _
  · exact .status _ _

variable {fh : Engine.FamilyHandle} {fam : Engine.Family}

theorem reported_seek (hfam : Engine.Run.Serves s.engine fh fam) (span : Span) :
    Reported ((seek fh span).run s).1 := by
  by_cases hp : Engine.Run.pendingStatus s.engine .lookup = Status.success
  · obtain ⟨calls, hrun⟩ := run_lookupIn_of_success hfam span
      (⟨.lookupInit, .lookup s.engine.freeLookup⟩ :: s.engine.calls) hp
    cases hfound : (s.engine.recordsOf fam.store).get? span.read with
    | none =>
      rw [hfound] at hrun
      rw [run_seek_of hfam hrun]
      exact .ok _
    | some value =>
      rw [hfound] at hrun
      rw [run_seek_of hfam hrun]
      dsimp only
      split
      · exact .ok _
      · exact .status _ _
  · obtain ⟨calls, hrun⟩ := run_lookupIn_of_pending hfam span
      (⟨.lookupInit, .lookup s.engine.freeLookup⟩ :: s.engine.calls) hp
    rw [run_seek_of hfam hrun]
    exact .status _ _

theorem reported_begin {id : FamilyId} {f : Family} (hserves : Serves s id f fh)
    (hfam : Engine.Run.Serves s.engine fh fam) (span : Span) :
    Reported ((begin id fh span).run s).1 := by
  by_cases hp : Engine.Run.pendingStatus s.engine .iteratorInit = Status.success
  · rw [run_begin hserves (Engine.Run.run_iteratorInit hfam hp span)]
    exact .ok _
  · unfold begin
    rw [run_bind, run_engine, Engine.Run.run_iteratorInit_of_serves hfam, if_neg hp]
    exact .status _ _

theorem reported_engine {β : Type} {work : Engine.Run β} {b : β}
    (hwork : (work.run s.engine).1 = .ok b) {rest : β → Run α}
    (hrest : ∀ t, Reported ((rest b).run t).1) : Reported ((engine work >>= rest).run s).1 := by
  rw [run_bind, run_engine, hwork]
  exact hrest _

end Run

/-! ## Checked calls -/

open Run

/-- How a call answers that looks at its arguments first. A call that does not fit is refused and
changes nothing; one that fits answers what the engine reports. -/
inductive Checked {α : Type} (limit : Nat) (key : Value) (fits : Bool) (s : Store) :
    Except Failure α × Store → Prop
  | refused (fault : ArgumentFault) (hfits : fits = false) (hshort : ¬ key.IsOverlong limit) :
      Checked limit key fits s (.error (.argument fault), s)
  | tooLong (hfits : fits = false) (hlong : key.IsOverlong limit) :
      Checked limit key fits s (.error (.store (.keyTooLarge key.contents.length limit)), s)
  | passed {r : Except Failure α} {t : Store} (hfits : fits = true)
      (hshort : ¬ key.IsOverlong limit) (hr : Reported r) : Checked limit key fits s (r, t)

namespace Checked

variable {α β : Type} {limit : Nat} {key : Value} {fits : Bool} {s : Store}
  {answer : Except Failure α × Store}

/-- The reply may be put into another form. -/
theorem map (h : Checked limit key fits s answer) (f : α → β) :
    Checked limit key fits s (answer.1.map f, answer.2) := by
  cases h with
  | refused fault hfits hshort => exact .refused fault hfits hshort
  | tooLong hfits hlong => exact .tooLong hfits hlong
  | passed hfits hshort hr => exact .passed hfits hshort (hr.map f)

/-- A call that does not fit is refused, and nothing happens. -/
theorem exists_error (h : Checked limit key fits s answer) (hfits : fits = false) :
    ∃ failure, answer = (.error failure, s) := by
  cases h with
  | refused fault _ _ => exact ⟨_, rfl⟩
  | tooLong _ _ => exact ⟨_, rfl⟩
  | passed hpassed _ _ => exact absurd (hpassed.symm.trans hfits) (by simp)

/-- A call is refused for the length of its key exactly when the key is usable and too long. -/
theorem keyTooLarge_iff (h : Checked limit key fits s answer) (n m : Nat) :
    answer.1 = .error (.store (.keyTooLarge n m)) ↔
      key.IsOverlong limit ∧ n = key.contents.length ∧ m = limit := by
  cases h with
  | refused fault _ hshort => exact iff_of_false nofun fun hlong => hshort hlong.1
  | tooLong _ hlong =>
    constructor
    · intro heq
      obtain ⟨hn, hm⟩ := StoreFault.keyTooLarge.inj
        (Failure.store.inj (Except.error.inj heq))
      exact ⟨hlong, hn.symm, hm.symm⟩
    · rintro ⟨-, rfl, rfl⟩
      rfl
  | passed _ hshort hr =>
    exact iff_of_false (hr.ne_keyTooLarge n m) fun hlong => hshort hlong.1

end Checked

section

variable {α : Type} {s : Store} {id : FamilyId} {f : Family} {fh : Engine.FamilyHandle}
  {fam : Engine.Family} {key value : Value}

/-- A key is handed on, or refused for its length, or for what it is. -/
theorem Family.checked_span (f : Family) (key : Value) :
    (key.isKey f.config.maxKeySize = true ∧ ∃ span, f.span key = .ok span) ∨
    (key.isKey f.config.maxKeySize = false ∧ key.IsOverlong f.config.maxKeySize ∧
      f.span key = .error (.store (.keyTooLarge key.contents.length f.config.maxKeySize))) ∨
    (key.isKey f.config.maxKeySize = false ∧ ¬ key.IsOverlong f.config.maxKeySize ∧
      ∃ fault, f.span key = .error (.argument fault)) := by
  rcases f.span_cases key with ⟨hkey, span, hspan, -⟩ | ⟨hno, -⟩
  · exact .inl ⟨hkey, span, hspan⟩
  right
  by_cases hnull : key = .null
  · subst hnull
    refine .inr ⟨hno, ?_, _, rfl⟩
    rintro ⟨hbuffer, -⟩
    exact absurd hbuffer (by simp [Value.isBuffer])
  have hsliced : ∀ slice, Slice.ofValue key = .ok slice → f.config.maxKeySize < slice.length →
      f.span key = .error (.store (.keyTooLarge slice.length f.config.maxKeySize)) := by
    intro slice hslice hlong
    unfold Family.span
    split
    · exact absurd rfl hnull
    · rw [hslice]
      exact if_pos hlong
  have hunsliced : ∀ failure, Slice.ofValue key = .error failure → f.span key = .error failure := by
    intro failure hslice
    unfold Family.span
    split
    · exact absurd rfl hnull
    · rw [hslice]
  rcases Slice.ofValue_cases key with ⟨haccepted, slice, hslice, hlength, -⟩ |
    ⟨hrefused, failure, hslice⟩
  · have husable := (Value.isAccepted_iff key).1 haccepted
    have hlong : f.config.maxKeySize < key.contents.length :=
      (((Value.isKey_eq_false_iff key _).1 hno).resolve_left hnull).resolve_left husable
    have hbuffer : key.isBuffer = true := by
      by_contra h
      exact husable (.noBuffer hnull (Bool.not_eq_true _ ▸ h))
    have hspan := hsliced slice hslice (hlength ▸ hlong)
    rw [hlength] at hspan
    exact .inl ⟨hno, ⟨hbuffer, husable, hlong⟩, hspan⟩
  · obtain ⟨fault, rfl⟩ := Slice.exists_argument hslice
    refine .inr ⟨hno, ?_, fault, hunsliced _ hslice⟩
    rintro ⟨-, husable, -⟩
    exact husable ((Value.isAccepted_eq_false_iff key).1 hrefused)

theorem checked_keyed {fits : Bool} (h : Serves s id f fh)
    (hkey : fits = true → key.isKey f.config.maxKeySize = true)
    (rest : Family × Engine.FamilyHandle → Span → Run α)
    (hrest : key.isKey f.config.maxKeySize = true → ∀ span,
      Checked f.config.maxKeySize key fits s ((rest (f, fh) span).run s)) :
    Checked f.config.maxKeySize key fits s
      ((openFamily id >>= fun r => keySpan r.1 key >>= rest r).run s) := by
  have hunfit : key.isKey f.config.maxKeySize = false → fits = false := fun hno =>
    Bool.eq_false_iff.2 fun hfits => absurd ((hkey hfits).symm.trans hno) (by simp)
  rw [run_bind, run_openFamily h]
  dsimp only
  rw [run_bind, run_keySpan]
  rcases f.checked_span key with ⟨hk, span, hspan⟩ | ⟨hno, hlong, hspan⟩ |
    ⟨hno, hshort, fault, hspan⟩
  · rw [hspan]
    exact hrest hk span
  · rw [hspan]
    exact .tooLong (hunfit hno) hlong
  · rw [hspan]
    exact .refused fault (hunfit hno) hshort

theorem checked_valued {limit : Nat} (hkey : key.isKey limit = true) {rest : Span → Run α}
    (hrest : ∀ span, Reported ((rest span).run s).1) :
    Checked limit key (key.isKey limit && value.isAccepted) s
      ((valueSpan value >>= rest).run s) := by
  have hshort := Value.not_isOverlong_of_isKey hkey
  rw [run_bind, run_valueSpan, hkey, Bool.true_and]
  rcases Slice.ofValue_cases value with ⟨haccepted, slice, hslice, -⟩ | ⟨hrefused, failure, hslice⟩
  · rw [hslice]
    exact .passed haccepted hshort (hrest _)
  · obtain ⟨fault, rfl⟩ := Slice.exists_argument hslice
    rw [hslice]
    exact .refused fault hrefused hshort

theorem checked_lookup (h : Serves s id f fh) (hfam : Engine.Run.Serves s.engine fh fam)
    (key : Value) : Checked f.config.maxKeySize key (key.isKey f.config.maxKeySize) s
      ((lookup id key).run s) :=
  checked_keyed h (fun hkey => hkey) (fun r span => seek r.2 span) fun hkey span =>
    .passed hkey (Value.not_isOverlong_of_isKey hkey) (reported_seek hfam span)

/-- Getting a value or a default comes to a lookup. -/
theorem run_getOr (id : FamilyId) (key default : Value) (s : Store) :
    (getOr id key default).run s =
      (((lookup id key).run s).1.map fun found => (found.map Value.bytes).getD default,
        ((lookup id key).run s).2) := by
  unfold getOr
  rw [run_bind]
  generalize (lookup id key).run s = answer
  obtain ⟨r, t⟩ := answer
  cases r with
  | error failure => rfl
  | ok found => cases found <;> rfl

/-- Point calls, but for the question whether a key is there. -/
def PointCall.isQuestion : PointCall → Bool
  | .contains _ => true
  | _ => false

theorem checked_point (h : Serves s id f fh) (hfam : Engine.Run.Serves s.engine fh fam)
    (call : PointCall) (hcall : call.isQuestion = false) :
    Checked f.config.maxKeySize call.key (call.fits f.config.maxKeySize) s
      ((call.run id).run s) := by
  have hleft : ∀ {a b : Bool}, (a && b) = true → a = true := fun h => (Bool.and_eq_true_iff.1 h).1
  cases call with
  | insert key value =>
    refine (run_map _ _ s).symm ▸ Checked.map (checked_keyed h hleft _ ?_) _
    intro hkey span
    refine checked_valued hkey fun v => ?_
    exact reported_engine (Engine.Run.insert_reply hfam span v) fun t => reported_checkStatus _ _ t
  | update key delta =>
    refine (run_map _ _ s).symm ▸ Checked.map (checked_keyed h hleft _ ?_) _
    intro hkey span
    refine checked_valued hkey fun v => ?_
    exact reported_engine (Engine.Run.update_reply hfam span v rfl) fun t => by
      rw [run_bind, run_note]
      exact reported_checkStatus _ _ _
  | delete key =>
    refine (run_map _ _ s).symm ▸ Checked.map (checked_keyed h hleft _ ?_) _
    intro hkey span
    obtain ⟨status, e, hrun, -⟩ := Engine.Run.run_delete hfam span
    have hfits : (PointCall.delete key).fits f.config.maxKeySize = true :=
      (Bool.and_true _).trans hkey
    refine .passed hfits (Value.not_isOverlong_of_isKey hkey) ?_
    exact reported_engine (congrArg Prod.fst hrun) fun t => reported_checkStatus _ _ t
  | lookup key =>
    have hfits : (PointCall.lookup key).fits f.config.maxKeySize = key.isKey f.config.maxKeySize :=
      Bool.and_true _
    rw [hfits]
    exact (run_map _ _ s).symm ▸ (checked_lookup h hfam key).map _
  | get key default =>
    have hfits : (PointCall.get key default).fits f.config.maxKeySize =
      key.isKey f.config.maxKeySize := Bool.and_true _
    have hvalue := (checked_lookup h hfam key).map fun found =>
      (found.map Value.bytes).getD default
    rw [hfits]
    exact (run_map _ _ s).symm ▸ (run_getOr id key default s ▸ hvalue).map _
  | contains key => exact absurd hcall (by simp [PointCall.isQuestion])

theorem checked_range (h : Serves s id f fh) (hfam : Engine.Run.Serves s.engine fh fam)
    (start : Value) : Checked f.config.maxKeySize start (start.canStart f.config.maxKeySize) s
      ((range id start).run s) := by
  rw [run_range h]
  by_cases hnull : start = .null
  · subst hnull
    refine .passed rfl ?_ (reported_begin h hfam _)
    rintro ⟨hbuffer, -⟩
    exact absurd hbuffer (by simp [Value.isBuffer])
  · have hcan : start.canStart f.config.maxKeySize = start.isKey f.config.maxKeySize := by
      unfold Value.canStart
      split
      · exact absurd rfl hnull
      · rfl
    rw [hcan, f.startSpan_of_ne hnull]
    rcases f.checked_span start with ⟨hk, span, hspan⟩ | ⟨hno, hlong, hspan⟩ |
      ⟨hno, hshort, fault, hspan⟩
    · rw [hspan]
      exact .passed hk (Value.not_isOverlong_of_isKey hk) (reported_begin h hfam span)
    · rw [hspan]
      exact .tooLong hno hlong
    · rw [hspan]
      exact .refused fault hno hshort

/-! ## Asking whether a key is there -/

/-- Of the reply to a lookup, whether something was found. -/
def Reply.presence : Reply → Reply
  | .found value? => .flag value?.isSome
  | r => r

/-- A key that is too long is not there. Every other key is looked up. -/
theorem run_contains (h : Serves s id f fh) (key : Value) :
    (contains id key).run s =
      if f.config.maxKeySize < key.contents.length then (.ok false, s)
      else (((lookup id key).run s).1.map Option.isSome, ((lookup id key).run s).2) := by
  have hfound : (do return (← lookup id key).isSome : Run Bool).run s =
      (((lookup id key).run s).1.map Option.isSome, ((lookup id key).run s).2) := by
    rw [run_bind]
    generalize (lookup id key).run s = answer
    obtain ⟨r, t⟩ := answer
    cases r with
    | error failure => rfl
    | ok found => rfl
  have hnone : key.contents = [] → ¬ f.config.maxKeySize < key.contents.length := by
    intro hempty
    rw [hempty]
    exact Nat.not_lt_zero _
  cases key with
  | null =>
    rw [if_neg (hnone rfl)]
    exact hfound
  | buffer b =>
    unfold contains
    dsimp only
    rw [run_bind, run_ofExcept]
    dsimp only [Value.size]
    rw [run_bind, run_storeFamily h.1]
    dsimp only
    rw [run_ite]
    exact if_congr (by rw [Value.contents, b.length_contents]) rfl hfound
  | bool | int | float | str | list =>
    rw [if_neg (hnone rfl)]
    unfold lookup
    rw [run_bind, run_openFamily h]
    rfl

/-- An overlong key is not asked for, and every other one is looked up. -/
theorem contains_reply (h : Serves s id f fh) (key : Value) :
    s.perform (.point id (.contains key)) =
      if f.config.maxKeySize < key.contents.length then (.ok (.flag false), s)
      else ((s.perform (.point id (.lookup key))).1.map Reply.presence,
        (s.perform (.point id (.lookup key))).2) := by
  have hlookup : s.perform (.point id (.lookup key)) =
      (((lookup id key).run s).1.map Reply.found, ((lookup id key).run s).2) := run_map _ _ s
  have hcontains : s.perform (.point id (.contains key)) =
      (((contains id key).run s).1.map Reply.flag, ((contains id key).run s).2) := run_map _ _ s
  rw [hlookup, hcontains, run_contains h]
  split
  · rfl
  · generalize (lookup id key).run s = answer
    obtain ⟨r, t⟩ := answer
    cases r with
    | error failure => rfl
    | ok found => rfl

/-- A lookup that does not fail has been heard by the engine. -/
theorem lt_calls_of_lookup (h : Serves s id f fh) {r : Reply}
    (hok : (s.perform (.point id (.lookup key))).1 = .ok r) :
    s.engine.calls.length < (s.perform (.point id (.lookup key))).2.engine.calls.length := by
  have hlookup : s.perform (.point id (.lookup key)) =
      (((lookup id key).run s).1.map Reply.found, ((lookup id key).run s).2) := run_map _ _ s
  rw [hlookup] at hok ⊢
  rcases f.span_cases key with ⟨-, span, hspan, -⟩ | ⟨-, failure, hspan⟩
  · have hrun : (lookup id key).run s = (seek fh span).run s :=
      run_keyed h hspan fun r span => seek r.2 span
    rw [hrun]
    exact lt_calls_seek fh span s
  · have hrun : (lookup id key).run s = (.error failure, s) := by
      unfold lookup
      rw [run_bind, run_openFamily h]
      dsimp only
      rw [run_bind, run_keySpan, hspan]
    rw [hrun] at hok
    exact nomatch hok

/-- Only a key that is too long is absent without a call of the engine. -/
theorem contains_unheard_iff (h : Serves s id f fh) (key : Value) :
    (s.perform (.point id (.contains key))).1 = .ok (.flag false) ∧
        (s.perform (.point id (.contains key))).2.engine.calls = s.engine.calls ↔
      f.config.maxKeySize < key.contents.length := by
  rw [contains_reply h key]
  split
  · rename_i hlong
    exact iff_of_true ⟨rfl, rfl⟩ hlong
  · rename_i hshort
    refine iff_of_false (fun ⟨hno, hcalls⟩ => ?_) hshort
    cases hr : (s.perform (.point id (.lookup key))).1 with
    | error failure =>
      rw [hr] at hno
      exact nomatch hno
    | ok r => exact Nat.lt_irrefl _ (hcalls ▸ lt_calls_of_lookup h hr)

/-- Asking for a key is not refused for the length of the key. -/
theorem contains_ne_keyTooLarge (h : Serves s id f fh)
    (hfam : Engine.Run.Serves s.engine fh fam) (key : Value) (n m : Nat) :
    (s.perform (.point id (.contains key))).1 ≠ .error (.store (.keyTooLarge n m)) := by
  rw [contains_reply h key]
  split
  · simp
  · rename_i hshort
    intro heq
    cases hr : (s.perform (.point id (.lookup key))).1 with
    | error failure =>
      rw [hr] at heq
      have hlookup : (s.perform (.point id (.lookup key))).1 =
          .error (.store (.keyTooLarge n m)) :=
        hr.trans (congrArg Except.error (Except.error.inj heq))
      have hlong := ((checked_point h hfam (.lookup key) rfl).keyTooLarge_iff n m).1 hlookup
      exact hshort hlong.1.2.2
    | ok r =>
      rw [hr] at heq
      exact nomatch heq

end

variable {s : Store} {id : FamilyId}

/-- A call on an open family with a key or a value that cannot be used is refused, and leaves the
whole store as it was: the engine is not called, and no failure that is set up there is taken. A
call is refused for the length of its key exactly when the key is usable and covers more bytes than
the limit, and the failure tells both numbers. Asking whether a key is there is never refused for
that: it answers no, without a call of the engine, exactly for keys beyond the limit, and for every
other key it comes to a lookup. -/
theorem arguments_checked_first (hs : Reachable s) (hopen : s.isOpenFamily id = true) :
    ∃ config, s.config? id = some config ∧
      (∀ call : PointCall, call.isQuestion = false →
        (call.key = .null ∨ call.key.Unusable ∨ config.maxKeySize < call.key.contents.length ∨
            call.argument.Unusable →
          ∃ failure, s.perform (.point id call) = (.error failure, s)) ∧
        ∀ n m, (s.perform (.point id call)).1 = .error (.store (.keyTooLarge n m)) ↔
          call.key.IsOverlong config.maxKeySize ∧ n = call.key.contents.length ∧
            m = config.maxKeySize) ∧
      (∀ start : Value,
        (start.Unusable ∨ config.maxKeySize < start.contents.length →
          ∃ failure, s.perform (.range id start) = (.error failure, s)) ∧
        ∀ n m, (s.perform (.range id start)).1 = .error (.store (.keyTooLarge n m)) ↔
          start.IsOverlong config.maxKeySize ∧ n = start.contents.length ∧
            m = config.maxKeySize) ∧
      ∀ key : Value,
        (config.maxKeySize < key.contents.length →
          s.perform (.point id (.contains key)) = (.ok (.flag false), s)) ∧
        (¬ config.maxKeySize < key.contents.length →
          s.perform (.point id (.contains key)) =
            ((s.perform (.point id (.lookup key))).1.map Reply.presence,
              (s.perform (.point id (.lookup key))).2)) ∧
        ((s.perform (.point id (.contains key))).1 = .ok (.flag false) ∧
          (s.perform (.point id (.contains key))).2.engine.calls = s.engine.calls ↔
            config.maxKeySize < key.contents.length) ∧
        ∀ n m, (s.perform (.point id (.contains key))).1 ≠
          .error (.store (.keyTooLarge n m)) := by
  obtain ⟨f, fh, hserves⟩ := exists_serves hopen
  obtain ⟨fam, hfam, -, -⟩ := hs.founded.exists_inUse hserves
  refine ⟨f.config, config?_of_get? hserves.1, fun call hcall => ?_, fun start => ?_, fun key => ?_⟩
  · have hchecked := checked_point hserves hfam call hcall
    refine ⟨fun hunfit => hchecked.exists_error ?_, hchecked.keyTooLarge_iff⟩
    unfold PointCall.fits
    rw [Bool.and_eq_false_iff, Value.isKey_eq_false_iff, Value.isAccepted_eq_false_iff]
    simpa only [or_assoc] using hunfit
  · have hchecked : Checked f.config.maxKeySize start (start.canStart f.config.maxKeySize) s
        (s.perform (.range id start)) := by
      have hrun : s.perform (.range id start) = (((Run.range id start).run s).1.map Reply.iterator,
          ((Run.range id start).run s).2) := run_map _ _ s
      exact hrun ▸ (checked_range hserves hfam start).map Reply.iterator
    exact ⟨fun hunfit => hchecked.exists_error ((Value.canStart_eq_false_iff start _).2 hunfit),
      hchecked.keyTooLarge_iff⟩
  · have hreply := contains_reply hserves key
    exact ⟨fun hlong => hreply.trans (if_pos hlong), fun hshort => hreply.trans (if_neg hshort),
      contains_unheard_iff hserves key, contains_ne_keyTooLarge hserves hfam key⟩

/-- A store with a failure set up for the next insertion. -/
def armed : Store := twoFamilies.after [.failNext .insert Status.ioError]

/-- A view of three words. -/
def threeWords : Value := .buffer (.view false (.row (List.replicate 12 7) 4 4))

/-- Three words make twelve bytes. They are refused where eight are allowed, and the failure stays
set up. -/
theorem words_counted_as_bytes :
    armed.isOpenFamily 0 = true ∧
    armed.perform (.point 0 (.insert threeWords (.bytes [1]))) =
      (.error (.store (.keyTooLarge 12 8)), armed) := by
  have hopen : armed.isOpenFamily 0 = true := by decide +kernel
  have hlimit : (armed.config? 0).all (fun c => c.maxKeySize == 8) = true := by decide +kernel
  have hs : Reachable armed := reachable_twoFamilies.after _
  obtain ⟨config, hc, hpoint, -⟩ := arguments_checked_first hs hopen
  have hmax : config.maxKeySize = 8 := by
    rw [hc] at hlimit
    exact beq_iff_eq.1 hlimit
  obtain ⟨hrefused, hlong⟩ := hpoint (.insert threeWords (.bytes [1])) rfl
  rw [hmax] at hrefused hlong
  have husable : ¬ threeWords.Unusable := (Value.isAccepted_iff _).1 (by decide)
  obtain ⟨failure, hreply⟩ := hrefused (.inr (.inr (.inl (by decide))))
  have hkey := (hlong 12 8).2 ⟨⟨rfl, husable, by decide⟩, rfl, rfl⟩
  rw [hreply] at hkey
  exact ⟨hopen, hreply.trans (Prod.ext hkey rfl)⟩

end Store

end FamilyStore
