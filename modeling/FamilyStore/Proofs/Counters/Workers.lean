import FamilyStore.Proofs.Counters.Arithmetic
import FamilyStore.Proofs.Points.Refinement

/-!
Counters that several workers update.

The calls of the workers come one at a time, in any order that keeps the order of each worker. Every
call takes the counter under a key from one number to another: up by its delta if it is an update of
that key with a delta of the right length, and else not at all. So what the counter comes to is the
sum of the deltas, whichever worker they are from and in whatever order they come.
-/

namespace FamilyStore.Store

/-! ## Interleavings -/

/-- Some workers do their work one step at a time, each of them in its own order. -/
inductive Interleaves {α : Type} : List (List α) → List α → Prop
  /-- Nobody has anything left to do. -/
  | done {workers : List (List α)} (h : ∀ w ∈ workers, w = []) : Interleaves workers []
  /-- One of the workers makes its next step. -/
  | step (before : List (List α)) {after : List (List α)} {a : α} {rest run : List α}
      (h : Interleaves (before ++ rest :: after) run) :
      Interleaves (before ++ (a :: rest) :: after) (a :: run)

/-- What is done in the end is what each of the workers does. -/
theorem Interleaves.perm {α : Type} {workers : List (List α)} {run : List α}
    (h : Interleaves workers run) : run.Perm workers.flatten := by
  induction h with
  | done h => rw [List.flatten_eq_nil_iff.2 h]
  | @step before after a rest run _ ih =>
    rw [List.flatten_append, List.flatten_cons] at ih ⊢
    rw [List.cons_append]
    exact (ih.cons a).trans List.perm_middle.symm

/-! ## Operations on a counter -/

/-- Whether a call gives a key another value than a merge does. -/
def PointCall.overwrites : PointCall → Bool
  | .insert _ _ | .delete _ => true
  | _ => false

/-- What workers do who update the counter under a key: any calls on some families, but that they
do not write or remove the counter itself, and registering their threads. -/
inductive Operation.Leaves (ids : Set FamilyId) (id : FamilyId) (k : Bytes) : Operation → Prop
  | point {j : FamilyId} {call : PointCall} (hj : j ∈ ids)
      (h : j = id → call.key.contents = k → call.overwrites = false) :
    Leaves ids id k (.point j call)
  | register (b : DatabaseId) : Leaves ids id k (.register b)
  | deregister (b : DatabaseId) : Leaves ids id k (.deregister b)

/-- The delta of an operation that counts: an update of the key, in a family with a limit for its
keys that takes the call, with as many bytes as a counter has. -/
def Operation.delta? (id : FamilyId) (k : Bytes) (limit : Nat) : Operation → Option Bytes
  | .point j (.update key delta) =>
    if j = id ∧ key.contents = k ∧ (PointCall.update key delta).fits limit = true ∧
        delta.contents.length = Counter.width then some delta.contents
    else none
  | _ => none

theorem Operation.of_delta? {id : FamilyId} {k δ : Bytes} {limit : Nat} {op : Operation}
    (h : op.delta? id k limit = some δ) :
    ∃ key delta, op = .point id (.update key delta) ∧ key.contents = k ∧
      (PointCall.update key delta).fits limit = true ∧ delta.contents = δ ∧
      δ.length = Counter.width := by
  unfold delta? at h
  split at h
  · split at h
    · rename_i key delta hcounts
      obtain ⟨rfl, hk, hfits, hlen⟩ := hcounts
      obtain rfl := Option.some.inj h
      exact ⟨key, delta, rfl, hk, hfits, rfl, hlen⟩
    · exact absurd h (by simp)
  · exact absurd h (by simp)

theorem Operation.delta?_of_fits {id : FamilyId} {k : Bytes} {limit : Nat} {key delta : Value}
    (hk : key.contents = k) (hfits : (PointCall.update key delta).fits limit = true)
    (hlen : delta.contents.length = Counter.width) :
    (Operation.point id (.update key delta)).delta? id k limit = some delta.contents :=
  if_pos ⟨rfl, hk, hfits, hlen⟩

/-! ## One operation -/

/-- A family of counters has a number under a key, and nothing disturbs its point calls. -/
structure Counting (ids : Set FamilyId) (id : FamilyId) (k : Bytes) (config : DataConfig)
    (s : Store) (n : Nat) : Prop where
  orderly : Orderly s ids
  member : id ∈ ids
  configured : s.config? id = some config
  counter : config.funcs = DataFuncs.Builtin.funcs .counter
  reading : Counter.reading ((s.content id).lookup k) = .ok n

variable {s : Store} {ids : Set FamilyId} {id : FamilyId} {k : Bytes} {config : DataConfig}
  {n : Nat}

theorem content_of_sameHandles {t : Store} (h : SameHandles [] s t) : t.content = s.content := by
  have hfamilies : t.engine.families = s.engine.families := h.engine.same .families (by decide)
  have hrecords : t.engine.records = s.engine.records := h.engine.same .records (by decide)
  funext j
  unfold content stored engineFamily? Engine.recordsOf
  rw [h.families, hfamilies, hrecords]

namespace Counting

/-- An update with as many bytes as a counter has adds them, and any other one is refused. -/
theorem update_of_fits (h : Counting ids id k config s n) {key delta : Value}
    (hk : key.contents = k) (hfits : (PointCall.update key delta).fits config.maxKeySize = true) :
    (delta.contents.length = Counter.width →
      (s.perform (.point id (.update key delta))).1 = .ok .done ∧
      ((s.perform (.point id (.update key delta))).2.content id).lookup k =
        some (Counter.encode (n + delta.contents.toNatLittle : Nat))) ∧
    (delta.contents.length ≠ Counter.width →
      (s.perform (.point id (.update key delta))).1 =
        .error (.store (.engine .update Status.invalid)) ∧
      ((s.perform (.point id (.update key delta))).2.content id).lookup k =
        (s.content id).lookup k) := by
  obtain ⟨hmaps, config', hconfig', hreply⟩ := h.orderly.point_refines h.member (.update key delta)
  obtain rfl := Option.some.inj (h.configured.symm.trans hconfig')
  rw [hreply hfits, hmaps id h.member, onMaps_of_fits h.configured hfits, Function.update_self]
  unfold PointCall.onMap
  dsimp only
  rw [h.counter, DataFuncs.merged_counter, hk]
  refine ⟨fun hlen => ?_, fun hlen => ?_⟩
  · rw [Counter.add_of_reading h.reading (if_pos hlen)]
    exact ⟨rfl, Finmap.lookup_insert _⟩
  · rw [Counter.add_of_ne h.reading hlen]
    exact ⟨rfl, rfl⟩

/-- A call that does not count leaves the value under the key alone. -/
theorem lookup_of_none (h : Counting ids id k config s n) {j : FamilyId} {call : PointCall}
    (hj : j ∈ ids) (hkeeps : j = id → call.key.contents = k → call.overwrites = false)
    (hnone : (Operation.point j call).delta? id k config.maxKeySize = none) :
    ((s.perform (.point j call)).2.content id).lookup k = (s.content id).lookup k := by
  obtain ⟨hmaps, -⟩ := h.orderly.point_refines hj call
  by_cases hsame : j = id ∧ call.key.contents = k
  · obtain ⟨rfl, hk⟩ := hsame
    cases hfits : call.fits config.maxKeySize with
    | false => rw [hmaps j hj, onMaps_of_not h.configured hfits]
    | true =>
      have hreads : (call.onMap config.funcs (s.content j)).2 = s.content j →
          ((s.perform (.point j call)).2.content j).lookup k = (s.content j).lookup k := by
        intro hr
        rw [hmaps j hj, onMaps_of_fits h.configured hfits, Function.update_self, hr]
      cases call with
      | insert key value => exact absurd (hkeeps rfl hk) (by simp [PointCall.overwrites])
      | delete key => exact absurd (hkeeps rfl hk) (by simp [PointCall.overwrites])
      | lookup | get | contains => exact hreads rfl
      | update key delta =>
        refine ((h.update_of_fits hk hfits).2 fun hlen => ?_).2
        exact absurd (hnone.symm.trans (Operation.delta?_of_fits hk hfits hlen)) (by simp)
  · rw [hmaps id h.member]
    refine lookup_onMaps id k ?_
    by_cases hid : id = j
    · exact .inr fun hk => hsame ⟨hid.symm, hk.symm⟩
    · exact .inl hid

/-- What an operation makes of the value under the key. -/
theorem lookup_perform (h : Counting ids id k config s n) {op : Operation}
    (hop : op.Leaves ids id k) : ((s.perform op).2.content id).lookup k =
      match op.delta? id k config.maxKeySize with
      | some δ => some (Counter.encode (n + δ.toNatLittle : Nat))
      | none => (s.content id).lookup k := by
  cases hδ : op.delta? id k config.maxKeySize with
  | some δ =>
    obtain ⟨key, delta, rfl, hk, hfits, rfl, hlen⟩ := Operation.of_delta? hδ
    exact ((h.update_of_fits hk hfits).1 hlen).2
  | none =>
    cases hop with
    | point hj hkeeps => exact h.lookup_of_none hj hkeeps hδ
    | register b =>
      have hhandles : SameHandles [] s (s.perform (.register b)).2 :=
        Within.map (Run.sameHandles_register b) _ s
      rw [content_of_sameHandles hhandles]
    | deregister b =>
      have hhandles : SameHandles [] s (s.perform (.deregister b)).2 :=
        Within.map (Run.sameHandles_deregister b) _ s
      rw [content_of_sameHandles hhandles]

/-- An operation takes the counter up by its delta, if it counts. -/
theorem perform (h : Counting ids id k config s n) {op : Operation} (hop : op.Leaves ids id k) :
    Counting ids id k config (s.perform op).2
      ((n + ((op.delta? id k config.maxKeySize).map Bytes.toNatLittle).getD 0) %
        Counter.modulus) := by
  have hhandles : SameHandles [.records] s (s.perform op).2 := by
    cases hop with
    | point => exact Run.sameHandles_point (by simp) _ _ s
    | register b => exact Within.map (Run.sameHandles_register b) _ s
    | deregister b => exact Within.map (Run.sameHandles_deregister b) _ s
  obtain ⟨horderly, hconfig, -⟩ :=
    h.orderly.of_sameHandles (perform_keeps h.orderly.founded op).founded hhandles
  refine ⟨horderly, h.member, hconfig ▸ h.configured, h.counter, ?_⟩
  rw [h.lookup_perform hop]
  cases op.delta? id k config.maxKeySize with
  | some δ => exact Counter.decode_encode _
  | none =>
    have hlt : n < Counter.modulus := Counter.lt_of_reading h.reading
    dsimp only [Option.map_none, Option.getD_none]
    rw [Nat.add_zero, Nat.mod_eq_of_lt hlt]
    exact h.reading

/-! ## Runs -/

/-- After a run the counter is the sum of what counted. -/
theorem after (h : Counting ids id k config s n) {run : List Operation}
    (hrun : ∀ op ∈ run, op.Leaves ids id k) :
    Counting ids id k config (s.after run)
      ((n + ((run.filterMap (Operation.delta? id k config.maxKeySize)).map
        Bytes.toNatLittle).sum) % Counter.modulus) := by
  induction run generalizing s n with
  | nil =>
    rw [List.filterMap_nil, List.map_nil, List.sum_nil, Nat.add_zero,
      Nat.mod_eq_of_lt (Counter.lt_of_reading h.reading)]
    exact h
  | cons op run ih =>
    have hrest := ih (h.perform (hrun op List.mem_cons_self))
      fun op' hop' => hrun op' (List.mem_cons_of_mem _ hop')
    rw [after_cons]
    rw [Nat.mod_add_mod] at hrest
    rw [List.filterMap_cons]
    cases hδ : op.delta? id k config.maxKeySize with
    | some δ =>
      rw [hδ] at hrest
      dsimp only
      rw [List.map_cons, List.sum_cons, ← Nat.add_assoc]
      exact hrest
    | none =>
      rw [hδ] at hrest
      exact hrest

/-- There is a value if there was one, or if anything counted. -/
theorem isSome_after (h : Counting ids id k config s n) {run : List Operation}
    (hrun : ∀ op ∈ run, op.Leaves ids id k) :
    (((s.after run).content id).lookup k).isSome = true ↔
      ((s.content id).lookup k).isSome = true ∨
        run.filterMap (Operation.delta? id k config.maxKeySize) ≠ [] := by
  induction run generalizing s n with
  | nil => simp [after_nil]
  | cons op run ih =>
    have hop := hrun op List.mem_cons_self
    have hrest := ih (h.perform hop) fun op' hop' => hrun op' (List.mem_cons_of_mem _ hop')
    rw [h.lookup_perform hop] at hrest
    rw [after_cons, hrest, List.filterMap_cons]
    cases op.delta? id k config.maxKeySize with
    | some δ => simp
    | none => exact Iff.rfl

/-- Each update on the way goes well if its delta has the right length, and is refused otherwise. -/
theorem replies (h : Counting ids id k config s n) {run : List Operation}
    (hrun : ∀ op ∈ run, op.Leaves ids id k) {t : Transition} (ht : t ∈ s.trace run)
    {key delta : Value} (hop : t.operation = .point id (.update key delta))
    (hk : key.contents = k) (hfits : (PointCall.update key delta).fits config.maxKeySize = true) :
    t.reply = if delta.contents.length = Counter.width then .ok .done
      else .error (.store (.engine .update Status.invalid)) := by
  obtain ⟨earlier, later, hsplit, hbefore, hperform, -⟩ := exists_of_mem_trace ht
  have hearlier : ∀ op ∈ earlier, op.Leaves ids id k := fun op hop => by
    refine hrun op ?_
    rw [hsplit]
    exact List.mem_append_left _ hop
  have hthen := h.after hearlier
  rw [hbefore] at hthen
  obtain ⟨hadds, hrefuses⟩ := hthen.update_of_fits hk hfits
  rw [hop] at hperform
  rw [hperform] at hadds hrefuses
  by_cases hlen : delta.contents.length = Counter.width
  · rw [if_pos hlen]
    exact (hadds hlen).1
  · rw [if_neg hlen]
    exact (hrefuses hlen).1

end Counting

/-- Some workers share a family of counters, in which a key has no value or one of eight bytes, and
no failure is set up. Each of them makes any calls on this family and on others at other places, but
that nobody writes or removes the counter itself; they register and deregister as they like. Then
the counter in the end is the one in the beginning, or zero, plus the sum of the deltas, up to a
multiple of two to the 64th, whichever order the calls come in and whoever makes them. An update
with a delta of the right length goes well; one with a delta of any other length is refused, and
does not count. Numbers are read as they were written, and byte strings of eight bytes are the only
ones that can be read. -/
theorem counter_sums (hs : Reachable s) (hu : Engine.Undisturbed s.engine)
    (hi : Independent s ids) (hid : id ∈ ids) (hconfig : s.config? id = some config)
    (hcounter : config.funcs = DataFuncs.Builtin.funcs .counter)
    (hstart : ∀ bs, (s.content id).lookup k = some bs → bs.length = 8)
    {workers : List (List Operation)} {run : List Operation} (hrun : Interleaves workers run)
    (hleaves : ∀ w ∈ workers, ∀ op ∈ w, op.Leaves ids id k) {ds : List Int}
    (hds : (workers.flatten.filterMap (Operation.delta? id k config.maxKeySize)).Perm
      (ds.map Counter.encode)) :
    (∃ n, Counter.reading ((s.content id).lookup k) = .ok n ∧
      Counter.reading (((s.after run).content id).lookup k) =
        .ok ((n + ds.sum) % 2 ^ 64).toNat) ∧
    ((((s.after run).content id).lookup k).isSome = true ↔
      ((s.content id).lookup k).isSome = true ∨ ds ≠ []) ∧
    (∀ t ∈ s.trace run, ∀ key delta : Value, t.operation = .point id (.update key delta) →
      key.contents = k → key.isKey config.maxKeySize = true → delta.isAccepted = true →
      t.reply = if delta.contents.length = 8 then .ok .done
        else .error (.store (.engine .update Status.invalid))) ∧
    (∀ n : Int, Counter.decode (Counter.encode n) = .ok (n % 2 ^ 64).toNat) ∧
    (∀ bs : Bytes, bs.length = 8 →
      ∃ n, Counter.decode bs = .ok n ∧ Counter.encode n = bs) ∧
    ∀ bs : Bytes, bs.length ≠ 8 →
      Counter.decode bs = .error (.argument (.counterLength bs.length)) := by
  have hperm := hrun.perm
  have hall : ∀ op ∈ run, op.Leaves ids id k := fun op hop => by
    obtain ⟨w, hw, hmem⟩ := List.mem_flatten.1 (hperm.mem_iff.1 hop)
    exact hleaves w hw op hmem
  obtain ⟨n, hn⟩ := Counter.exists_reading hstart
  have hcounting : Counting ids id k config s n :=
    ⟨⟨hs.founded, hu, hi⟩, hid, hconfig, hcounter, hn⟩
  have hdeltas := (hperm.filterMap (Operation.delta? id k config.maxKeySize)).trans hds
  refine ⟨⟨n, hn, ?_⟩, ?_, ?_, ?_, ?_, fun bs => Counter.decode_of_ne⟩
  · rw [(hcounting.after hall).reading, (hdeltas.map Bytes.toNatLittle).sum_eq]
    exact congrArg Except.ok (Counter.add_sum_mod n ds)
  · rw [hcounting.isSome_after hall]
    refine or_congr_right (not_congr ?_)
    rw [← List.length_eq_zero_iff, hdeltas.length_eq, List.length_map, List.length_eq_zero_iff]
  · intro t ht key delta hop hk hkey hdelta
    exact hcounting.replies hall ht hop hk (Bool.and_eq_true_iff.2 ⟨hkey, hdelta⟩)
  · intro n
    rw [Counter.decode_encode, Counter.modulus_eq]
  · intro bs hbs
    obtain ⟨n, hn, -, hencode⟩ := Counter.exists_decode hbs
    exact ⟨n, hn, hencode⟩

/-! ## Two workers -/

/-- A store with a family of counters, in which one counter is about to wrap around. -/
def brimming : Store :=
  (withFamily (DataFuncs.Builtin.funcs .counter)).afterPoints
    [(0, .insert (.bytes [1]) (.bytes (Counter.encode (-1))))]

/-- One worker adds to the counter, and fails to do so again. -/
def adds : List Operation :=
  [.register 0, .point 0 (.update (.bytes [1]) (.bytes (Counter.encode 5))),
    .point 0 (.update (.bytes [1]) (.bytes [5]))]

/-- Another worker writes a counter of its own, and takes from the first one. -/
def takes : List Operation :=
  [.point 0 (.insert (.bytes [2]) (.bytes [7])),
    .point 0 (.update (.bytes [1]) (.bytes (Counter.encode (-3))))]

/-- The two workers by turns. -/
def turns : List Operation :=
  [.register 0, .point 0 (.insert (.bytes [2]) (.bytes [7])),
    .point 0 (.update (.bytes [1]) (.bytes (Counter.encode 5))),
    .point 0 (.update (.bytes [1]) (.bytes (Counter.encode (-3)))),
    .point 0 (.update (.bytes [1]) (.bytes [5]))]

theorem interleaves_turns : Interleaves [adds, takes] turns :=
  .step [] <| .step [_] <| .step [] <| .step [_] <| .step [] <| .done (by simp)

theorem undisturbed_brimming : Engine.Undisturbed brimming.engine := by
  have hpending : brimming.engine.pending.entries = [] := by decide +kernel
  have hresize : brimming.engine.refuseResize = false := by decide +kernel
  refine ⟨fun entry => ?_, hresize⟩
  unfold Table.get?
  rw [hpending]
  rfl

/-- The counter wraps around once and is one in the end, and the delta that is too short does not
count. -/
theorem turns_add_up :
    Counter.reading (((brimming.after turns).content 0).lookup [1]) = .ok 1 ∧
    ∃ t ∈ brimming.trace turns, t.reply = .error (.store (.engine .update Status.invalid)) := by
  have hid : ((Run.createFamily 0 (.ofClass (DataFuncs.Builtin.funcs .counter)) .null).run
      single).1.toOption = some 0 := by decide +kernel
  obtain ⟨config, hconfig, hfuncs⟩ : ∃ config, brimming.config? 0 = some config ∧ _ :=
    exists_config_withFamily hid _
  have hreach : Reachable brimming := reachable_withFamily _ _
  have hopen : brimming.isOpenFamily 0 = true := by decide +kernel
  have hfacts : (brimming.config? 0).all (fun c => decide (c.maxKeySize < 2 ^ 64 ∧
      (Value.bytes [1]).isKey c.maxKeySize = true ∧
      ([adds, takes].flatten.filterMap (Operation.delta? 0 [1] c.maxKeySize)) =
        [5, -3].map Counter.encode)) = true := by decide +kernel
  have hstart : (brimming.content 0).lookup [1] = some (Counter.encode (-1)) := by decide +kernel
  rw [hconfig] at hfacts
  obtain ⟨hlimit, hkey, hdeltas⟩ := of_decide_eq_true hfacts
  have hcounts : ([adds, takes].flatten.filterMap
      (Operation.delta? 0 [1] config.maxKeySize)).Perm ([5, -3].map Counter.encode) :=
    .of_eq hdeltas
  have hindependent : Independent brimming {0} := by
    refine ⟨?_, ?_, ?_⟩
    · rintro id rfl
      exact hopen
    · rintro id rfl config' hconfig'
      obtain rfl := Option.some.inj (hconfig.symm.trans hconfig')
      exact hlimit
    · rintro id rfl id' rfl -
      rfl
  have hleaves : ∀ w ∈ [adds, takes], ∀ op ∈ w, op.Leaves {0} 0 [1] := by
    intro w hw op hop
    simp only [List.mem_cons, List.not_mem_nil, or_false] at hw
    rcases hw with rfl | rfl
    · simp only [adds, List.mem_cons, List.not_mem_nil, or_false] at hop
      rcases hop with rfl | rfl | rfl
      · exact .register 0
      · exact .point rfl fun _ _ => rfl
      · exact .point rfl fun _ _ => rfl
    · simp only [takes, List.mem_cons, List.not_mem_nil, or_false] at hop
      rcases hop with rfl | rfl
      · exact .point rfl fun _ h => absurd h (by decide)
      · exact .point rfl fun _ _ => rfl
  obtain ⟨⟨n, hn, hsum⟩, -, hreplies, -⟩ := counter_sums hreach undisturbed_brimming
    hindependent rfl hconfig hfuncs (fun bs hbs => by
      obtain rfl := Option.some.inj (hstart.symm.trans hbs)
      rfl) interleaves_turns hleaves hcounts
  have hlast : (brimming.trace turns)[4]? =
      some ⟨_, .point 0 (.update (.bytes [1]) (.bytes [5])), _, _⟩ := rfl
  refine ⟨?_, _, List.mem_of_getElem? hlast,
    hreplies _ (List.mem_of_getElem? hlast) (.bytes [1]) (.bytes [5]) rfl rfl hkey rfl⟩
  rw [hstart] at hn
  obtain rfl := Except.ok.inj ((Counter.decode_encode (-1)).symm.trans hn)
  exact hsum

end FamilyStore.Store
