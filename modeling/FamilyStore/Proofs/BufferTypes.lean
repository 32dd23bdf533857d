import FamilyStore.DataFuncs.Builtin
import FamilyStore.Proofs.SameFamilies
import FamilyStore.Proofs.Iteration.Order

/-!
What a buffer is made of does not matter, but for an empty start key.

Two buffers are alike if each lies in one piece and they hold the same bytes. The engine receives
spans of them that have the same length and read the same, and every call on one key asks for no
more than that. The start of an iteration also asks whether there is an address. An empty byte
string has one, any other empty buffer has none, and so the latter counts as no start key at all.
-/

namespace FamilyStore

/-! ## Alike arguments -/

/-- Two buffers hold the same bytes, each of them in one piece. -/
structure Buffer.Alike (a b : Buffer) : Prop where
  left : a.isContiguous = true
  right : b.isContiguous = true
  contents : a.contents = b.contents

/-- Two arguments are the same, or alike buffers. -/
inductive Value.Alike : Value → Value → Prop
  | refl (v : Value) : Alike v v
  | buffer {a b : Buffer} (h : a.Alike b) : Alike (.buffer a) (.buffer b)

/-- Two spans have the same length and read the same, wherever they lie. -/
structure Span.Alike (a b : Span) : Prop where
  length : a.length = b.length
  read : a.read = b.read

theorem Span.Alike.refl (a : Span) : a.Alike a := ⟨rfl, rfl⟩

namespace Store

/-- Two calls are the same but for alike arguments. -/
inductive PointCall.Alike : PointCall → PointCall → Prop
  | insert {key key' value value' : Value} (hk : key.Alike key') (hv : value.Alike value') :
    Alike (.insert key value) (.insert key' value')
  | update {key key' delta delta' : Value} (hk : key.Alike key') (hd : delta.Alike delta') :
    Alike (.update key delta) (.update key' delta')
  | delete {key key' : Value} (hk : key.Alike key') : Alike (.delete key) (.delete key')
  | lookup {key key' : Value} (hk : key.Alike key') : Alike (.lookup key) (.lookup key')
  | get {key key' : Value} (hk : key.Alike key') (default : Value) :
    Alike (.get key default) (.get key' default)
  | contains {key key' : Value} (hk : key.Alike key') : Alike (.contains key) (.contains key')

/-- Two operations are the same but for alike arguments, and where an iteration starts, both of them
name a start key or neither of them does. -/
inductive Operation.Alike : Operation → Operation → Prop
  | refl (op : Operation) : Alike op op
  | point (id : FamilyId) {call call' : PointCall} (h : call.Alike call') :
    Alike (.point id call) (.point id call')
  | range (id : FamilyId) {a b : Buffer} (h : a.Alike b)
    (hstart : (Value.buffer a).isStart = (Value.buffer b).isStart) :
    Alike (.range id (.buffer a)) (.range id (.buffer b))

end Store

namespace Buffer

variable {a b : Buffer}

/-- What the engine receives of a buffer in one piece. -/
def span (b : Buffer) : Span :=
  if (Value.buffer b).isStart then .ofBytes b.contents else .null 0

theorem span_of_isStart (h : (Value.buffer b).isStart = true) : b.span = .ofBytes b.contents :=
  if_pos h

theorem span_of_not (h : (Value.buffer b).isStart = false) : b.span = .null 0 :=
  if_neg (by rw [h]; exact Bool.false_ne_true)

/-- A buffer that is no start key is an empty one of another kind than byte strings. -/
theorem isStart_eq_false_iff :
    (Value.buffer b).isStart = false ↔ b.kind ≠ .bytes ∧ b.contents = [] := by
  rw [contents_eq_nil_iff]
  unfold Value.isStart
  rw [Bool.or_eq_false_iff, decide_eq_false_iff_not, bne_eq_false_iff_eq]

theorem span_length (b : Buffer) : b.span.length = b.size := by
  cases h : (Value.buffer b).isStart with
  | true =>
    rw [span_of_isStart h]
    exact b.length_contents
  | false =>
    rw [span_of_not h, contents_eq_nil_iff.1 (isStart_eq_false_iff.1 h).2]
    rfl

theorem span_read (b : Buffer) : b.span.read = b.contents := by
  cases h : (Value.buffer b).isStart with
  | true =>
    rw [span_of_isStart h]
    exact List.take_of_length_le (Nat.le_refl _)
  | false =>
    rw [span_of_not h, (isStart_eq_false_iff.1 h).2]
    rfl

/-- An empty buffer lies in one piece. -/
theorem isContiguous_of_empty (h : b.contents = []) : b.isContiguous = true :=
  b.isContiguous_iff.2 (inOnePiece_of_size_zero (contents_eq_nil_iff.1 h))

theorem Alike.size (h : a.Alike b) : a.size = b.size := by
  rw [← length_contents, ← length_contents, h.contents]

theorem Alike.span (h : a.Alike b) : a.span.Alike b.span where
  length := by rw [span_length, span_length, h.size]
  read := by rw [span_read, span_read, h.contents]

/-- Alike buffers that are both start keys, or both none, are handed over in the same way. -/
theorem Alike.span_eq (h : a.Alike b)
    (hstart : (Value.buffer a).isStart = (Value.buffer b).isStart) : a.span = b.span := by
  unfold Buffer.span
  rw [hstart, h.contents]

/-- Alike buffers are both start keys unless they are empty and of different kinds. -/
theorem Alike.isStart_eq (h : a.Alike b)
    (hkind : a.contents ≠ [] ∨ (a.kind = .bytes ↔ b.kind = .bytes)) :
    (Value.buffer a).isStart = (Value.buffer b).isStart := by
  rw [Bool.eq_iff_iff, ← not_iff_not, Bool.not_eq_true, Bool.not_eq_true, isStart_eq_false_iff,
    isStart_eq_false_iff, ← h.contents]
  rcases hkind with hne | hsame
  · exact iff_of_false (fun h => hne h.2) (fun h => hne h.2)
  · rw [Ne, hsame]

/-- A buffer in one piece becomes a slice, which the engine receives as its span. -/
theorem exists_slice (h : b.isContiguous = true) : ∃ slice, Slice.ofBuffer b = .ok slice ∧
    slice.length = b.size ∧ slice.span b.contents = b.span := by
  obtain ⟨slice, hslice, hsliced⟩ := exists_sliced (b.isContiguous_iff.1 h)
  refine ⟨slice, hslice, hsliced.length_eq, ?_⟩
  have hbytes : Span.mk (some b.contents) b.size = Span.ofBytes b.contents :=
    congrArg (Span.mk (some b.contents)) b.length_contents.symm
  cases hsliced with
  | empty hkind hsize =>
    rw [span_of_not (isStart_eq_false_iff.2 ⟨hkind, contents_eq_nil_iff.2 hsize⟩)]
    rfl
  | byteString hkind =>
    rw [span_of_isStart (by simp [Value.isStart, hkind])]
    exact hbytes
  | shared hsize | copied hsize =>
    rw [span_of_isStart (by simp [Value.isStart, hsize])]
    exact hbytes

end Buffer

/-! ## Work of the engine -/

namespace Engine.Run

variable {f : FamilyHandle} {key key' value value' delta delta' : Span}

theorem insert_congr (hk : key.Alike key') (hv : value.Alike value') :
    insert f key value = insert f key' value' := by
  unfold insert
  rw [hk.length, hk.read, hv.read]

theorem update_congr (hk : key.Alike key') (hd : delta.Alike delta') :
    update f key delta = update f key' delta' := by
  unfold update
  rw [hk.read, hd.read]

theorem delete_congr (hk : key.Alike key') : delete f key = delete f key' := by
  unfold delete
  rw [hk.read]

theorem lookup_congr (hk : key.Alike key') (address : Nat) :
    lookup f key address = lookup f key' address := by
  unfold lookup
  rw [hk.read]

/-- A family that is not in use is refused, whatever the start key is. -/
theorem iteratorInit_of_not {e : Engine} (hs : ∀ fam, ¬ Serves e f fam) :
    ∃ failure, ∀ start, ((iteratorInit f start).run e).1 = .error failure := by
  cases hr : (family f).run { e with calls := ⟨.iteratorInit, .family f⟩ :: e.calls } with
  | mk r t =>
    cases r with
    | ok fam =>
      have ht := run_family_snd f { e with calls := ⟨.iteratorInit, .family f⟩ :: e.calls }
      rw [hr] at ht
      dsimp only at ht
      subst ht
      exact absurd (serves_of_run_family hr) (hs fam)
    | error failure =>
      refine ⟨failure, fun start => ?_⟩
      unfold iteratorInit
      rw [run_bind, run_note]
      dsimp only
      rw [run_bind, hr]

end Engine.Run

/-! ## Calls on one key -/

namespace Store

variable {s : Store} {id : FamilyId} {key key' value value' : Value}

theorem Family.span_of_isContiguous (f : Family) {b : Buffer} (h : b.isContiguous = true) :
    f.span (.buffer b) =
      if f.config.maxKeySize < b.size then
        .error (.store (.keyTooLarge b.size f.config.maxKeySize))
      else .ok b.span := by
  obtain ⟨slice, hslice, hlength, hspan⟩ := Buffer.exists_slice h
  unfold Family.span Slice.ofValue
  dsimp only
  rw [hslice]
  dsimp only
  rw [hlength, ← hspan]
  rfl

namespace Run

/-- Two ways to prepare an argument fail in the same way, or they give alike spans. Neither changes
the store. -/
def PrepareAlike (x y : Run Span) : Prop :=
  ∀ s, (∃ failure, x.run s = (.error failure, s) ∧ y.run s = (.error failure, s)) ∨
    ∃ a b, x.run s = (.ok a, s) ∧ y.run s = (.ok b, s) ∧ a.Alike b

/-- What comes next sees no difference if it does not tell alike spans apart. -/
theorem PrepareAlike.bind_congr {α : Type} {x y : Run Span} (h : PrepareAlike x y)
    {rest rest' : Span → Run α} (hrest : ∀ a b : Span, a.Alike b → rest a = rest' b) :
    x >>= rest = y >>= rest' := by
  funext s
  show (x >>= rest).run s = (y >>= rest').run s
  rw [run_bind, run_bind]
  rcases h s with ⟨failure, hx, hy⟩ | ⟨a, b, hx, hy, hab⟩
  · rw [hx, hy]
  · rw [hx, hy]
    dsimp only
    rw [hrest a b hab]

theorem keySpan_alike (f : Family) (h : key.Alike key') :
    PrepareAlike (keySpan f key) (keySpan f key') := by
  intro s
  rw [run_keySpan, run_keySpan]
  cases h with
  | refl =>
    cases f.span key with
    | error failure => exact .inl ⟨failure, rfl, rfl⟩
    | ok a => exact .inr ⟨a, a, rfl, rfl, .refl a⟩
  | @buffer a b h =>
    rw [f.span_of_isContiguous h.left, f.span_of_isContiguous h.right, h.size]
    by_cases hlong : f.config.maxKeySize < b.size
    · rw [if_pos hlong, if_pos hlong]
      exact .inl ⟨_, rfl, rfl⟩
    · rw [if_neg hlong, if_neg hlong]
      exact .inr ⟨a.span, b.span, rfl, rfl, h.span⟩

theorem valueSpan_alike (h : value.Alike value') :
    PrepareAlike (valueSpan value) (valueSpan value') := by
  intro s
  rw [run_valueSpan, run_valueSpan]
  cases h with
  | refl =>
    cases Slice.ofValue value with
    | error failure => exact .inl ⟨failure, rfl, rfl⟩
    | ok slice => exact .inr ⟨_, _, rfl, rfl, .refl _⟩
  | @buffer a b h =>
    obtain ⟨slice, hslice, -, hspan⟩ := Buffer.exists_slice h.left
    obtain ⟨slice', hslice', -, hspan'⟩ := Buffer.exists_slice h.right
    unfold Slice.ofValue
    dsimp only
    rw [hslice, hslice']
    refine .inr ⟨a.span, b.span, ?_, ?_, h.span⟩
    · rw [← hspan]
      rfl
    · rw [← hspan']
      rfl

theorem insert_congr (hk : key.Alike key') (hv : value.Alike value') :
    insert id key value = insert id key' value' := by
  unfold insert
  refine bind_congr fun ⟨f, handle⟩ => ?_
  refine (keySpan_alike f hk).bind_congr fun k k' hk => ?_
  refine (valueSpan_alike hv).bind_congr fun v v' hv => ?_
  rw [Engine.Run.insert_congr hk hv]

theorem update_congr (hk : key.Alike key') (hd : value.Alike value') :
    update id key value = update id key' value' := by
  unfold update
  refine bind_congr fun ⟨f, handle⟩ => ?_
  refine (keySpan_alike f hk).bind_congr fun k k' hk => ?_
  refine (valueSpan_alike hd).bind_congr fun d d' hd => ?_
  rw [Engine.Run.update_congr hk hd]

theorem delete_congr (hk : key.Alike key') : delete id key = delete id key' := by
  unfold delete
  refine bind_congr fun ⟨f, handle⟩ => ?_
  refine (keySpan_alike f hk).bind_congr fun k k' hk => ?_
  rw [Engine.Run.delete_congr hk]

theorem lookupIn_congr {k k' : Span} (hk : k.Alike k') (handle : Engine.FamilyHandle)
    (address : Nat) : lookupIn handle k address = lookupIn handle k' address := by
  unfold lookupIn
  rw [Engine.Run.lookup_congr hk]

theorem lookup_congr (hk : key.Alike key') : lookup id key = lookup id key' := by
  unfold lookup
  refine bind_congr fun ⟨f, handle⟩ => ?_
  refine (keySpan_alike f hk).bind_congr fun k k' hk => ?_
  refine bind_congr fun s => ?_
  dsimp only
  rw [lookupIn_congr hk]

theorem contains_congr (hk : key.Alike key') : contains id key = contains id key' := by
  have hlookup : lookup id key = lookup id key' := lookup_congr hk
  cases hk with
  | refl => rfl
  | @buffer a b h =>
    unfold contains Value.size
    dsimp only
    rw [h.size, hlookup]

end Run

theorem PointCall.run_congr {call call' : PointCall} (h : call.Alike call') (id : FamilyId) :
    call.run id = call'.run id := by
  unfold PointCall.run
  cases h with
  | insert hk hv =>
    dsimp only
    rw [Run.insert_congr hk hv]
  | update hk hd =>
    dsimp only
    rw [Run.update_congr hk hd]
  | delete hk =>
    dsimp only
    rw [Run.delete_congr hk]
  | lookup hk =>
    dsimp only
    rw [Run.lookup_congr hk]
  | get hk default =>
    dsimp only [Run.getOr]
    rw [Run.lookup_congr hk]
  | contains hk =>
    dsimp only
    rw [Run.contains_congr hk]

/-! ## Start keys -/

namespace Run

variable {a b : Buffer}

theorem range_of_not (h : (Value.buffer a).isStart = false) :
    range id (.buffer a) = range id .null := by
  obtain ⟨-, hempty⟩ := Buffer.isStart_eq_false_iff.1 h
  have hkey : ∀ f, keySpan f (.buffer a) = pure (Span.null 0) := by
    intro f
    have hsize : ¬ f.config.maxKeySize < a.size := by
      rw [Buffer.contents_eq_nil_iff.1 hempty]
      exact Nat.not_lt_zero _
    funext s
    show (keySpan f _).run s = _
    rw [run_keySpan, f.span_of_isContiguous (Buffer.isContiguous_of_empty hempty), if_neg hsize,
      Buffer.span_of_not h]
    rfl
  unfold range
  refine bind_congr fun ⟨f, handle⟩ => ?_
  dsimp only
  rw [hkey]

theorem range_congr (h : a.Alike b)
    (hstart : (Value.buffer a).isStart = (Value.buffer b).isStart) :
    range id (.buffer a) = range id (.buffer b) := by
  unfold range
  refine bind_congr fun ⟨f, handle⟩ => ?_
  dsimp only
  have hspan : keySpan f (.buffer a) = keySpan f (.buffer b) := by
    funext s
    show (keySpan f _).run s = (keySpan f _).run s
    rw [run_keySpan, run_keySpan, f.span_of_isContiguous h.left, f.span_of_isContiguous h.right,
      h.size, h.span_eq hstart]
  rw [hspan]

/-- Whether an iteration starts does not depend on the start key that the engine receives. -/
theorem exists_begin_reply {f : Family} {fh : Engine.FamilyHandle} (hserves : Serves s id f fh) :
    ∃ reply, ∀ span, ((begin id fh span).run s).1 = reply := by
  -- The engine refuses a family that is not in use, or reports a failure that was set up. Neither
  -- of these looks at the start key.
  by_cases hs : ∃ fam, Engine.Run.Serves s.engine fh fam
  · obtain ⟨fam, hs⟩ := hs
    by_cases hp : Engine.Run.pendingStatus s.engine .iteratorInit = Status.success
    · exact ⟨.ok s.iterators.size, fun span =>
        congrArg Prod.fst (run_begin hserves (Engine.Run.run_iteratorInit hs hp span))⟩
    · refine ⟨.error (statusFailure .startIteration
        (Engine.Run.pendingStatus s.engine .iteratorInit)), fun span => ?_⟩
      unfold begin
      rw [run_bind, run_engine, Engine.Run.run_iteratorInit_of_serves hs, if_neg hp]
      rfl
  · obtain ⟨failure, hrefused⟩ := Engine.Run.iteratorInit_of_not fun fam h => hs ⟨fam, h⟩
    refine ⟨.error failure, fun span => ?_⟩
    unfold begin
    rw [run_bind, run_engine, hrefused]

theorem range_reply (h : a.Alike b) :
    ((range id (.buffer a)).run s).1 = ((range id (.buffer b)).run s).1 := by
  rcases openFamily_cases s id with ⟨failure, hrun⟩ | ⟨f, fh, hserves⟩
  · unfold range
    rw [run_bind, run_bind, hrun]
  · obtain ⟨reply, hreply⟩ := exists_begin_reply hserves
    rw [run_range hserves, run_range hserves, f.startSpan_of_ne (by simp),
      f.startSpan_of_ne (by simp), f.span_of_isContiguous h.left, f.span_of_isContiguous h.right,
      h.size]
    by_cases hlong : f.config.maxKeySize < b.size
    · rw [if_pos hlong, if_pos hlong]
    · rw [if_neg hlong, if_neg hlong]
      exact (hreply a.span).trans (hreply b.span).symm

end Run

/-! ## Operations -/

/-- Alike operations do the same. -/
theorem perform_congr {op op' : Operation} (h : op.Alike op') (s : Store) :
    s.perform op = s.perform op' := by
  unfold perform Operation.run
  cases h with
  | refl => rfl
  | point id h =>
    dsimp only
    rw [PointCall.run_congr h]
  | range id h hstart =>
    dsimp only
    rw [Run.range_congr h hstart]

/-- A start key that the engine receives with its address selects the records that are not below it,
among those that are selected without a start key. -/
theorem yields_of_isStart (hs : Reachable s) (he : Untroubled s.engine)
    (hopen : s.isOpenFamily id = true) {config : DataConfig}
    (hconfig : s.config? id = some config) :
    ∃ rs, s.Yields id .null rs ∧ ∀ b : Buffer, b.isContiguous = true →
      b.size ≤ config.maxKeySize → (Value.buffer b).isStart = true →
      s.Yields id (.buffer b) (rs.filter fun r => config.funcs.rank r.1 b.contents != .lt) := by
  obtain ⟨f, fh, fam, hserves, hsame, -, hrecord, hfam⟩ :=
    hs.founded.exists_configured hopen hconfig
  have hfuncs : fam.config.funcs = config.funcs := congrArg DataRecord.funcs hrecord
  have hall : f.startSpan .null = .ok (Span.null 0) := rfl
  refine ⟨_, yields_selected hs he hserves hfam hall, fun b hb hsize hstart => ?_⟩
  have hspan : f.startSpan (.buffer b) = .ok (Span.ofBytes b.contents) := by
    rw [f.startSpan_of_ne (by simp), f.span_of_isContiguous hb, hsame, if_neg (Nat.not_lt.2 hsize),
      Buffer.span_of_isStart hstart]
  have hyields := yields_selected hs he hserves hfam hspan
  have hread : (Span.ofBytes b.contents).read = b.contents :=
    List.take_of_length_le (Nat.le_refl _)
  unfold Engine.selected Engine.reaches at hyields
  rw [hread, hfuncs] at hyields
  rw [Engine.selected_of_isNull rfl, hfuncs]
  exact hyields

/-- Whatever buffers the arguments of a call on one key are, only the bytes that they hold count:
the call replies the same and leaves the same store. Whether an iteration starts, and what is stored
after that, does not depend on the buffer of the start key either. Nor do the records that it
visits, unless the start key is empty and a byte string in one case only: an empty byte string
leaves out the records below it, as every start key does, and any other empty buffer counts as no
start key. -/
theorem results_by_contents (s : Store) (id : FamilyId) :
    (∀ call call' : PointCall, call.Alike call' →
      s.perform (.point id call) = s.perform (.point id call')) ∧
    (∀ a b : Buffer, a.Alike b →
      (s.perform (.range id (.buffer a))).1 = (s.perform (.range id (.buffer b))).1 ∧
      (∀ τ, (s.perform (.range id (.buffer a))).2.engine.recordsOf τ =
        (s.perform (.range id (.buffer b))).2.engine.recordsOf τ) ∧
      (a.contents ≠ [] ∨ (a.kind = .bytes ↔ b.kind = .bytes) →
        s.perform (.range id (.buffer a)) = s.perform (.range id (.buffer b)))) ∧
    (∀ a : Buffer, a.contents = [] → a.kind ≠ .bytes →
      s.perform (.range id (.buffer a)) = s.perform (.range id .null)) ∧
    (Reachable s → Untroubled s.engine → s.isOpenFamily id = true →
      ∀ config, s.config? id = some config → ∃ rs, s.Yields id .null rs ∧
        ∀ a : Buffer, a.isContiguous = true → a.size ≤ config.maxKeySize →
          a.kind = .bytes ∨ a.contents ≠ [] → s.Yields id (.buffer a)
            (rs.filter fun r => config.funcs.rank r.1 a.contents != .lt)) := by
  refine ⟨fun call call' h => perform_congr (.point id h) s, fun a b h => ⟨?_, fun τ => ?_, ?_⟩,
    fun a hempty hkind => ?_, fun hs he hopen config hconfig => ?_⟩
  · show ((_ <$> Run.range id _).run s).1 = ((_ <$> Run.range id _).run s).1
    rw [run_map, run_map, Run.range_reply h]
  · have hkept : ∀ start, (s.perform (.range id start)).2.engine.records = s.engine.records := by
      intro start
      have hfronts : Within SameFamilies (Operation.range id start).run :=
        Within.map (Run.sameFamilies_range id start) _
      exact (hfronts s).engine.same .records (by decide)
    unfold Engine.recordsOf
    rw [hkept, hkept]
  · exact fun hkind => perform_congr (.range id h (h.isStart_eq hkind)) s
  · have hrange : Run.range id (.buffer a) = Run.range id .null :=
      Run.range_of_not (Buffer.isStart_eq_false_iff.2 ⟨hkind, hempty⟩)
    unfold perform Operation.run
    dsimp only
    rw [hrange]
  · obtain ⟨rs, hall, hstart⟩ := yields_of_isStart hs he hopen hconfig
    refine ⟨rs, hall, fun a hb hsize hkind => hstart a hb hsize ?_⟩
    rw [← Bool.not_eq_false, Buffer.isStart_eq_false_iff]
    rintro ⟨hk, hnil⟩
    exact hkind.elim hk fun hne => hne hnil

/-! ## An empty start key in descending order -/

/-- A run with a family in descending order and one record in it. -/
def writeReversed : List Operation :=
  [.connect (.str "db") .defaults false,
    .createFamily 0 (.ofInstance (DataFuncs.Builtin.funcs .reverse)) .null,
    .point 0 (.insert (.bytes [97]) (.bytes [1]))]

/-- The store after that run. -/
def reversed : Store := (Store.initial (.empty "/")).after writeReversed

theorem reachable_reversed : Reachable reversed := (Reachable.initial _).after writeReversed

/-- Views and mutable byte strings take the place of byte strings. -/
theorem views_for_byte_strings :
    reversed.perform (.point 0 (.lookup (.bytes [97]))) =
      reversed.perform (.point 0 (.lookup (.buffer (.view false (.row [97, 98] 1 2))))) ∧
    reversed.perform (.range 0 (.bytes [97])) =
      reversed.perform (.range 0 (.buffer (.mutable [97]))) ∧
    reversed.perform (.range 0 (.buffer (.mutable []))) =
      reversed.perform (.range 0 .null) ∧
    ∃ config rs, reversed.config? 0 = some config ∧ reversed.Yields 0 .null rs ∧
      reversed.Yields 0 (.bytes []) (rs.filter fun r => config.funcs.rank r.1 [] != .lt) := by
  have hopen : reversed.isOpenFamily 0 = true := by decide +kernel
  have hposition : reversed.engine.failIterationAt = none := by decide +kernel
  have hstart : Engine.Run.pendingStatus reversed.engine .iteratorInit = Status.success := by
    decide +kernel
  obtain ⟨config, hconfig⟩ : ∃ config, reversed.config? 0 = some config :=
    Option.isSome_iff_exists.1 (by decide +kernel)
  obtain ⟨hpoint, hrange, hnull, hyields⟩ := results_by_contents reversed 0
  obtain ⟨rs, hall, hfrom⟩ :=
    hyields reachable_reversed ⟨hstart, hposition⟩ hopen config hconfig
  refine ⟨hpoint _ _ (.lookup (.buffer ⟨rfl, rfl, rfl⟩)),
    (hrange _ _ ⟨rfl, rfl, rfl⟩).2.2 (.inl (by decide)), hnull _ rfl (by decide),
    config, rs, hconfig, hall, hfrom _ rfl (Nat.zero_le _) (.inl rfl)⟩

/-- Of two empty start keys, a byte string and a mutable one, the first leaves out every record and
the second none. -/
theorem empty_start_told_apart :
    Reachable reversed ∧ reversed.isOpenFamily 0 = true ∧
    Buffer.Alike (.bytes []) (.mutable []) ∧
    ((Run.scan 0 (.buffer (.bytes []))).run reversed).1 = .ok [] ∧
    ((Run.scan 0 (.buffer (.mutable []))).run reversed).1 = .ok [([97], [1])] := by
  have hnone : ((Run.scan 0 (.buffer (.bytes []))).run reversed).1.toOption = some [] := by
    decide +kernel
  have hall : ((Run.scan 0 (.buffer (.mutable []))).run reversed).1.toOption =
      some [([97], [1])] := by decide +kernel
  have hopen : reversed.isOpenFamily 0 = true := by decide +kernel
  exact ⟨reachable_reversed, hopen, ⟨rfl, rfl, rfl⟩,
    eq_ok_of_toOption hnone, eq_ok_of_toOption hall⟩

end Store

end FamilyStore
