import FamilyStore.Proofs.ArgumentChecks
import FamilyStore.Proofs.Engine.Mirror
import FamilyStore.Proofs.Engine.Merging
import FamilyStore.Proofs.Reopening.Writing
import FamilyStore.Proofs.SizeLimits

/-!
Iterating in descending order is iterating in ascending order, mirrored.

A family in ascending and a family in descending order that get the same calls keep the same map:
what a call leaves of a map depends on the limit for keys, and not on the comparison. So the one
gives out its records in the reversed order of the other; and from a start key on, each gives out
the record with that key first, and then the records on its own side of it.
-/

namespace FamilyStore

/-! ## Updates that overwrite -/

/-- An update puts its delta in the place of the value. -/
def DataFuncs.Overwrites (f : DataFuncs) : Prop :=
  ∀ old key delta, f.merged old key delta = .ok delta

theorem DataFuncs.overwrites_default : (Builtin.funcs .default).Overwrites := by
  intro old key delta
  cases old <;> rfl

theorem DataFuncs.overwrites_reverse : (Builtin.funcs .reverse).Overwrites := by
  intro old key delta
  cases old <;> rfl

/-- A merge that overwrites fails only where the engine refuses to change lengths. -/
theorem Engine.mergeOutcome_overwrites {f : DataFuncs} (h : f.Overwrites) (R : Records)
    (key delta : Bytes) (refuse : Bool) :
    (Run.mergeOutcome f R key ⟨delta⟩ refuse).status = Status.success ↔ refuse = false := by
  have hmerged := h (R.get? key) key delta
  rcases mergeOutcome_fault_or f R key delta refuse with hfault | ⟨hsuccess, -⟩
  · refine iff_of_false hfault.fits.1 ?_
    generalize (Run.mergeOutcome f R key ⟨delta⟩ refuse).status = status at hfault
    rcases hfault.raised_or_refused with ⟨raised, hraised, -⟩ | ⟨bs, -, hrefuse, -⟩
    · exact nomatch hraised.symm.trans hmerged
    · simp [hrefuse]
  · refine iff_of_true hsuccess ?_
    cases refuse with
    | false => rfl
    | true =>
      have hlost := status_mergeOutcome (R := R) (DataFuncs.MergeFault.of_merged hmerged)
      exact absurd (hlost.symm.trans hsuccess) (by decide)

namespace Store

/-! ## What one call leaves of a map -/

/-- Whether the engine carries out a call with good arguments, while no status is set up. -/
def PointCall.isCarriedOut (limit : Nat) (refuse : Bool) : PointCall → Bool
  | .insert key _ => decide (key.contents.length ≤ limit % 2 ^ 64)
  | .update key _ => decide (key.contents.length ≤ limit % 2 ^ 64) && !refuse
  | _ => true

/-- The map of a family after a call on it, while no status is set up. -/
def PointCall.leaves (config : DataConfig) (refuse : Bool) (m : Content) (call : PointCall) :
    Content :=
  if call.fits config.maxKeySize && call.isCarriedOut config.maxKeySize refuse then
    (call.onMap config.funcs m).2
  else m

/-- The comparison and the names of data functions play no part in it. -/
theorem PointCall.leaves_congr {config config' : DataConfig} (h : config.funcs.Overwrites)
    (h' : config'.funcs.Overwrites) (hlimit : config'.maxKeySize = config.maxKeySize)
    (refuse : Bool) (m : Content) (call : PointCall) :
    call.leaves config' refuse m = call.leaves config refuse m := by
  have hmap : (call.onMap config'.funcs m).2 = (call.onMap config.funcs m).2 := by
    cases call with
    | update key delta =>
      unfold onMap
      dsimp only
      rw [h, h']
    | insert | delete | lookup | get | contains => rfl
  unfold leaves
  rw [hlimit, hmap]

theorem PointCall.contentOf_onRecords (f : DataFuncs) (R : Engine.Records) (call : PointCall) :
    Engine.contentOf (call.onRecords f R) = (call.onMap f (Engine.contentOf R)).2 := by
  cases call with
  | insert key value => exact Engine.contentOf_set R _ _
  | update key delta =>
    unfold onRecords onMap
    dsimp only
    rw [Engine.lookup_contentOf]
    cases f.merged (R.get? key.contents) key.contents delta.contents with
    | ok bs => exact Engine.contentOf_set R _ _
    | error failure => rfl
  | delete key => exact Engine.contentOf_erase R _
  | lookup key | get key default | contains key => rfl

section

variable {s t : Store} {id : FamilyId} {f : Family} {fh : Engine.FamilyHandle}
  {fam : Engine.Family} {call : PointCall} {config : DataConfig}

theorem SameHandles.engineFamily?_eq (h : SameHandles [.records] s t) :
    t.engineFamily? = s.engineFamily? := by
  funext j
  unfold engineFamily?
  rw [h.families, h.engine.same .families (by decide)]

theorem SameRecords.content_eq (h : SameRecords s t) (hfam : t.engineFamily? = s.engineFamily?)
    (j : FamilyId) : t.content j = s.content j := by
  unfold content stored
  rw [hfam]
  cases s.engineFamily? j with
  | none => rfl
  | some fam => exact congrArg Engine.contentOf (h fam.store)

/-- A call changes the map of its family as it says if it replies, and no map if it fails. -/
theorem Wrote.content_eq {answer : Except Failure Reply × Store} (h : Wrote s id call answer)
    (hfam : answer.2.engineFamily? = s.engineFamily?) (hid : s.engineFamily? id = some fam)
    (hconfig : s.config? id = some config) :
    (∀ reply, answer.1 = .ok reply →
      answer.2.content id = (call.onMap config.funcs (s.content id)).2) ∧
    (∀ failure, answer.1 = .error failure → answer.2.content id = s.content id) := by
  have hcontent : s.content id = Engine.contentOf (s.engine.recordsOf fam.store) := by
    unfold content
    rw [stored_eq hid]
  rw [hcontent, ← PointCall.contentOf_onRecords]
  cases h with
  | failed h =>
    refine ⟨fun _ => nofun, fun _ _ => ?_⟩
    rw [h.content_eq hfam id, hcontent]
  | looked h hcall =>
    refine ⟨fun _ _ => ?_, fun _ => nofun⟩
    rw [h.content_eq hfam id, hcontent, hcall]
  | wrote hf hfam' h =>
    obtain rfl := Option.some.inj (hfam'.symm.trans hid)
    obtain rfl := Option.some.inj ((config?_of_get? hf).symm.trans hconfig)
    refine ⟨fun _ _ => ?_, fun _ => nofun⟩
    unfold content
    rw [stored_eq (hfam ▸ hid), h, if_pos rfl]

/-- A call leaves the maps of families with other records alone. -/
theorem Wrote.content_other {answer : Except Failure Reply × Store} {j : FamilyId}
    (h : Wrote s j call answer) (hfam : answer.2.engineFamily? = s.engineFamily?)
    (hid : s.engineFamily? id = some fam)
    (hapart : ∀ fam', s.engineFamily? j = some fam' → fam'.store ≠ fam.store) :
    answer.2.content id = s.content id := by
  cases h with
  | failed h => exact h.content_eq hfam id
  | looked h _ => exact h.content_eq hfam id
  | wrote _ hfam' h =>
    unfold content
    rw [stored_eq (hfam ▸ hid), stored_eq hid, h,
      if_neg fun heq => hapart _ hfam' heq.symm]

end

/-! ## Whether a call succeeds -/

/-- No failure is set up, except that accumulators may be bound to keep their lengths. -/
structure Unforced (e : Engine) : Prop where
  pending : ∀ entry, e.pending.get? entry = none
  position : e.failIterationAt = none

namespace Unforced

variable {e e' : Engine}

theorem pendingStatus (h : Unforced e) (entry : Engine.EntryPoint) :
    Engine.Run.pendingStatus e entry = Status.success := by
  unfold Engine.Run.pendingStatus
  rw [h.pending]
  rfl

theorem untroubled (h : Unforced e) : Untroubled e := ⟨h.pendingStatus _, h.position⟩

theorem sameCursors {parts : List Engine.Part} (hp : .settings ∉ parts) (h : Unforced e)
    (hq : Engine.SameCursors parts e e') : Unforced e' := by
  obtain ⟨hposition, -, hpending⟩ := hq.same .settings hp
  exact ⟨fun entry => hpending entry (h.pending entry), hposition.trans h.position⟩

end Unforced

section

variable {s t : Store} {id : FamilyId} {f : Family} {fh : Engine.FamilyHandle}
  {fam : Engine.Family} {config : DataConfig}

theorem delete_reply (h : Serves s id f fh) (hs : Engine.Run.Serves s.engine fh fam) {key : Value}
    (hk : key.isKey f.config.maxKeySize = true)
    (hp : Engine.Run.pendingStatus s.engine .delete = Status.success) :
    (s.perform (.point id (.delete key))).1 = .ok .done := by
  obtain ⟨span, hspan, -, -⟩ := Family.span_of_isKey hk
  obtain ⟨status, e, hrun, herase, -⟩ := Engine.Run.run_delete hs span
  obtain ⟨rfl, -⟩ := herase hp
  have hperform : s.perform (.point id (.delete key)) = _ := run_map _ _ s
  rw [hperform]
  unfold Run.delete
  rw [Run.run_keyed h hspan, run_bind, Run.run_engine, hrun]
  rfl

/-- A call that writes replies if it fits and is carried out, and fails otherwise. -/
theorem write_reply (h : Serves s id f fh) (hs : Engine.Run.Serves s.engine fh fam)
    (hc : fam.config = f.config.record) (hover : f.config.funcs.Overwrites)
    (hu : Unforced s.engine) (call : PointCall) :
    (∃ reply, (s.perform (.point id call)).1 = .ok reply ∧ (call.fits f.config.maxKeySize &&
      call.isCarriedOut f.config.maxKeySize s.engine.refuseResize) = true) ∨
    (∃ failure, (s.perform (.point id call)).1 = .error failure ∧
      (call.fits f.config.maxKeySize &&
        call.isCarriedOut f.config.maxKeySize s.engine.refuseResize) = false) ∨
    ∀ g m, (call.onMap g m).2 = m := by
  have hrefused : call.isQuestion = false → call.fits f.config.maxKeySize = false →
      ∃ failure, (s.perform (.point id call)).1 = .error failure ∧
        (call.fits f.config.maxKeySize &&
          call.isCarriedOut f.config.maxKeySize s.engine.refuseResize) = false := by
    intro hcall hfits
    obtain ⟨failure, hrun⟩ := (checked_point h hs call hcall).exists_error hfits
    refine ⟨failure, congrArg Prod.fst hrun, ?_⟩
    rw [hfits, Bool.false_and]
  cases call with
  | insert key value =>
    cases hfits : (PointCall.insert key value).fits f.config.maxKeySize with
    | false => exact .inr (.inl (hfits ▸ hrefused rfl hfits))
    | true =>
      obtain ⟨hk, hv⟩ := Bool.and_eq_true_iff.1 hfits
      dsimp only [PointCall.key, PointCall.argument] at hk hv
      rw [insert_by_length h hs hc hk hv (hu.pendingStatus _), Bool.true_and]
      dsimp only [PointCall.isCarriedOut]
      by_cases hlong : f.config.maxKeySize % 2 ^ 64 < key.contents.length
      · rw [if_pos hlong]
        exact .inr (.inl ⟨_, rfl, decide_eq_false (Nat.not_le.2 hlong)⟩)
      · rw [if_neg hlong]
        exact .inl ⟨_, rfl, decide_eq_true (Nat.not_lt.1 hlong)⟩
  | update key delta =>
    cases hfits : (PointCall.update key delta).fits f.config.maxKeySize with
    | false => exact .inr (.inl (hfits ▸ hrefused rfl hfits))
    | true =>
      obtain ⟨hk, hv⟩ := Bool.and_eq_true_iff.1 hfits
      dsimp only [PointCall.key, PointCall.argument] at hk hv
      rw [update_by_length h hs hc hk hv (hu.pendingStatus _) rfl, Bool.true_and]
      simp only [Engine.mergeOutcome_overwrites hover]
      dsimp only [PointCall.isCarriedOut]
      by_cases hlong : f.config.maxKeySize % 2 ^ 64 < key.contents.length
      · rw [if_pos hlong, decide_eq_false (Nat.not_le.2 hlong)]
        exact .inr (.inl ⟨_, rfl, rfl⟩)
      · rw [if_neg hlong, decide_eq_true (Nat.not_lt.1 hlong)]
        cases s.engine.refuseResize with
        | false => exact .inl ⟨_, rfl, rfl⟩
        | true => exact .inr (.inl ⟨_, rfl, rfl⟩)
  | delete key =>
    cases hfits : (PointCall.delete key).fits f.config.maxKeySize with
    | false => exact .inr (.inl (hfits ▸ hrefused rfl hfits))
    | true =>
      obtain ⟨hk, -⟩ := Bool.and_eq_true_iff.1 hfits
      exact .inl ⟨_, delete_reply h hs hk (hu.pendingStatus _), rfl⟩
  | lookup key | get key default | contains key => exact .inr (.inr fun _ _ => rfl)

/-- One call makes of the map of its family what it leaves of that map. -/
theorem content_point (h : Iterable s id config) (hover : config.funcs.Overwrites)
    (hu : Unforced s.engine) (call : PointCall) :
    (s.perform (.point id call)).2.content id =
      call.leaves config s.engine.refuseResize (s.content id) := by
  obtain ⟨f, fh, fam, hserves, rfl, hs, hrecord, hfam⟩ :=
    h.reachable.founded.exists_configured h.isOpen h.configured
  have hhandles : SameHandles [.records] s (s.perform (.point id call)).2 :=
    Run.sameHandles_point (by simp) id call s
  have hwrote : Wrote s id call (s.perform (.point id call)) :=
    Run.wrote_point h.reachable.founded id call
  obtain ⟨hok, herror⟩ := hwrote.content_eq hhandles.engineFamily?_eq hfam h.configured
  unfold PointCall.leaves
  rcases write_reply hserves hs hrecord hover hu call with ⟨reply, hreply, hgo⟩ |
    ⟨failure, hreply, hno⟩ | hlooks
  · rw [if_pos hgo]
    exact hok reply hreply
  · rw [if_neg (by rw [hno]; exact Bool.false_ne_true)]
    exact herror failure hreply
  · rw [hlooks, ite_self]
    cases hreply : (s.perform (.point id call)).1 with
    | ok reply => rw [hok reply hreply, hlooks]
    | error failure => exact herror failure hreply

/-- A call does nothing to the map of a family with other records. -/
theorem content_elsewhere (hs : Reachable s) {j : FamilyId}
    (hid : s.engineFamily? id = some fam)
    (hapart : ∀ fam', s.engineFamily? j = some fam' → fam'.store ≠ fam.store) (call : PointCall) :
    (s.perform (.point j call)).2.content id = s.content id := by
  have hhandles : SameHandles [.records] s (s.perform (.point j call)).2 :=
    Run.sameHandles_point (by simp) j call s
  have hwrote : Wrote s j call (s.perform (.point j call)) := Run.wrote_point hs.founded j call
  exact hwrote.content_other hhandles.engineFamily?_eq hid hapart

/-! ## Runs of calls -/

/-- The calls on one family, of calls on some families. -/
def callsOn (id : FamilyId) (calls : List (FamilyId × PointCall)) : List PointCall :=
  (calls.filter fun c => c.1 = id).map Prod.snd

theorem sameHandles_afterPoints (s : Store) (calls : List (FamilyId × PointCall)) :
    SameHandles [.records] s (s.afterPoints calls) := by
  induction calls generalizing s with
  | nil => exact Frame.refl s
  | cons c calls ih => exact Frame.trans (Run.sameHandles_point (by simp) c.1 c.2 s) (ih _)

/-- A family that can be iterated still can be after calls that change no more than records. -/
theorem Iterable.of_sameHandles (h : Iterable s id config) (hu : Unforced s.engine)
    (ht : Reachable t) (hhandles : SameHandles [.records] s t) : Iterable t id config where
  reachable := ht
  isOpen := by
    unfold isOpenFamily
    rw [hhandles.families, hhandles.databases]
    exact h.isOpen
  untroubled := (hu.sameCursors (by decide) hhandles.engine).untroubled
  configured := by
    rw [hhandles.config?_eq]
    exact h.configured

/-- The map of a family after a run is what the calls on this family make of it one by one, if all
other calls are on families with other records. -/
theorem content_afterPoints {calls : List (FamilyId × PointCall)} (h : Iterable s id config)
    (hover : config.funcs.Overwrites) (hu : Unforced s.engine)
    (hid : s.engineFamily? id = some fam)
    (hapart : ∀ c ∈ calls, c.1 ≠ id →
      ∀ fam', s.engineFamily? c.1 = some fam' → fam'.store ≠ fam.store) :
    (s.afterPoints calls).content id = (callsOn id calls).foldl
      (fun m call => call.leaves config s.engine.refuseResize m) (s.content id) := by
  induction calls generalizing s with
  | nil => rfl
  | cons c calls ih =>
    obtain ⟨j, call⟩ := c
    have hhandles : SameHandles [.records] s (s.perform (.point j call)).2 :=
      Run.sameHandles_point (by simp) j call s
    have hnext := h.of_sameHandles hu (h.reachable.step (.point j call)) hhandles
    have hrefuse : (s.perform (.point j call)).2.engine.refuseResize = s.engine.refuseResize :=
      (hhandles.engine.same .settings (by decide)).2.1
    have hrest := ih hnext (hu.sameCursors (by decide) hhandles.engine)
      (hhandles.engineFamily?_eq ▸ hid)
      (by rw [hhandles.engineFamily?_eq]; exact fun c hc => hapart c (List.mem_cons_of_mem _ hc))
    rw [hrefuse] at hrest
    refine hrest.trans ?_
    unfold callsOn
    by_cases hj : j = id
    · subst hj
      rw [content_point h hover hu call, List.filter_cons_of_pos (by simp)]
      rfl
    · rw [content_elsewhere h.reachable hid (hapart (j, call) List.mem_cons_self hj) call,
        List.filter_cons_of_neg (by simpa using hj)]

end

/-! ## The mirror -/

/-- The record that a map has under a key, if it has one. -/
def recordUnder (m : Content) (k : Bytes) : List Engine.Record := ((m.lookup k).map (k, ·)).toList

theorem own_stored (s : Store) (id : FamilyId) (k : Bytes) :
    (s.stored id).own k = recordUnder (s.content id) k := by
  unfold Engine.Records.own recordUnder Store.content
  rw [Engine.lookup_contentOf]

/-- Two families that differ in the direction of their order only: the same limit, the same map, and
nothing set up that could make a call fail on one of them. -/
structure Mirrored (s : Store) (id id' : FamilyId) (config config' : DataConfig) : Prop where
  ascending : Iterable s id config
  descending : Iterable s id' config'
  funcs : config.funcs = DataFuncs.Builtin.funcs .default
  funcs' : config'.funcs = DataFuncs.Builtin.funcs .reverse
  limit : config'.maxKeySize = config.maxKeySize
  unforced : Unforced s.engine
  content : s.content id' = s.content id

namespace Mirrored

variable {s t : Store} {id id' : FamilyId} {config config' : DataConfig}

/-- Calls that are the same for both families leave them mirrored. -/
theorem afterPoints (h : Mirrored s id id' config config') {calls : List (FamilyId × PointCall)}
    (hon : ∀ c ∈ calls, c.1 = id ∨ c.1 = id') (halike : callsOn id calls = callsOn id' calls) :
    Mirrored (s.afterPoints calls) id id' config config' := by
  have hhandles := sameHandles_afterPoints s calls
  have hreachable : Reachable (s.afterPoints calls) := h.ascending.reachable.after _
  refine ⟨h.ascending.of_sameHandles h.unforced hreachable hhandles,
    h.descending.of_sameHandles h.unforced hreachable hhandles, h.funcs, h.funcs', h.limit,
    h.unforced.sameCursors (by decide) hhandles.engine, ?_⟩
  obtain ⟨-, -, fam, -, -, hfam, -⟩ := h.ascending.exists_serves
  obtain ⟨-, -, fam', -, -, hfam', -⟩ := h.descending.exists_serves
  by_cases hstore : fam'.store = fam.store
  · -- Both handles stand for the same records, so there is one map only.
    unfold Store.content
    rw [stored_eq (hhandles.engineFamily?_eq ▸ hfam'), stored_eq (hhandles.engineFamily?_eq ▸ hfam),
      hstore]
  · have hover : config.funcs.Overwrites := h.funcs ▸ DataFuncs.overwrites_default
    have hover' : config'.funcs.Overwrites := h.funcs' ▸ DataFuncs.overwrites_reverse
    rw [content_afterPoints h.ascending hover h.unforced hfam ?_,
      content_afterPoints h.descending hover' h.unforced hfam' ?_, h.content, halike]
    · simp only [PointCall.leaves_congr hover hover' h.limit]
    · intro c hc hne g hg
      obtain rfl : c.1 = id := (hon c hc).resolve_right hne
      exact Option.some.inj (hfam.symm.trans hg) ▸ fun heq => hstore heq.symm
    · intro c hc hne g hg
      obtain rfl : c.1 = id' := (hon c hc).resolve_left hne
      exact Option.some.inj (hfam'.symm.trans hg) ▸ hstore

theorem rank (h : Mirrored s id id' config config') (a b : Bytes) :
    config'.funcs.rank a b = config.funcs.rank b a := by
  rw [h.funcs, h.funcs', DataFuncs.rank_builtin, DataFuncs.rank_builtin]
  rfl

theorem strict (h : Mirrored s id id' config config') (keys : List Bytes) :
    Engine.StrictlyOrders config.funcs keys := by
  rw [h.funcs]
  exact Engine.strictlyOrders_builtin .default keys

end Mirrored

variable {s : Store} {id id' : FamilyId} {config config' : DataConfig}

/-- Two families, one in ascending and one in descending order, that are alike otherwise and get the
same calls, in whatever way the calls on the one lie between those on the other, have the same map
afterwards. The second one gives out all its records in the reversed order of the first, each key
once. A key cuts this list in what is below it, the record with the key if there is one, and what
is above it: from that key on the first family gives out that record and what is above, and the
second one that record and, backwards, what is below. A key above the limit is refused by both. -/
theorem reverse_mirrors_ascending (h : Mirrored s id id' config config')
    {calls : List (FamilyId × PointCall)} (hon : ∀ c ∈ calls, c.1 = id ∨ c.1 = id')
    (halike : callsOn id calls = callsOn id' calls) :
    (s.afterPoints calls).content id' = (s.afterPoints calls).content id ∧
    ∃ rs, (s.afterPoints calls).Yields id .null rs ∧
      (s.afterPoints calls).Yields id' .null rs.reverse ∧
      (rs.map Prod.fst).Nodup ∧
      rs.Pairwise (fun r r' => r.1 < r'.1) ∧
      (∀ k v, (k, v) ∈ rs ↔ ((s.afterPoints calls).content id).lookup k = some v) ∧
      ∀ bs : Bytes,
        (bs.length ≤ config.maxKeySize → ∃ below above,
          rs = below ++ recordUnder ((s.afterPoints calls).content id) bs ++ above ∧
          (s.afterPoints calls).Yields id (.bytes bs)
            (recordUnder ((s.afterPoints calls).content id) bs ++ above) ∧
          (s.afterPoints calls).Yields id' (.bytes bs)
            (recordUnder ((s.afterPoints calls).content id) bs ++ below.reverse)) ∧
        (config.maxKeySize < bs.length → ∀ j, j = id ∨ j = id' →
          (s.afterPoints calls).perform (.range j (.bytes bs)) =
            (.error (.store (.keyTooLarge bs.length config.maxKeySize)), s.afterPoints calls)) := by
  have hm := h.afterPoints hon halike
  generalize s.afterPoints calls = t at hm ⊢
  have hn := hm.ascending.nodup
  have hn' := hm.descending.nodup
  have hsame : ∀ k, (t.stored id).get? k = (t.stored id').get? k := get?_of_content hm.content.symm
  have hall := hm.ascending.yields (show Value.null.canStart _ = true from rfl) rfl
  have hall' := hm.descending.yields (show Value.null.canStart _ = true from rfl) rfl
  have hreverse : Engine.selected config'.funcs (t.stored id') (.null 0) =
      (Engine.selected config.funcs (t.stored id) (.null 0)).reverse :=
    Engine.sorted_reverse hm.rank (hm.strict _) hn hn' hsame
  have hascending : (Engine.selected config.funcs (t.stored id) (.null 0)).Pairwise
      fun r r' => r.1 < r'.1 := by
    refine (Engine.selected_ascending (hm.strict _) hn (.null 0)).imp fun {r r'} hlt => ?_
    rw [hm.funcs, DataFuncs.rank_builtin] at hlt
    exact (Bytes.order_lt_iff _ _).1 hlt
  refine ⟨hm.content, _, hall, hreverse ▸ hall', Engine.nodup_selected _ hn _, hascending,
    fun k v => ?_, fun bs => ⟨fun hshort => ?_, fun hlong j hj => ?_⟩⟩
  · have hstored : (t.content id).lookup k = (t.stored id).get? k := Engine.lookup_contentOf _ k
    rw [Engine.mem_selected_iff, hstored, Table.get?_eq_some_iff hn]
    exact and_iff_left fun hnone => nomatch hnone
  · have hstart : (Value.bytes bs).canStart config.maxKeySize = true := decide_eq_true hshort
    have hyields := hm.ascending.yields hstart rfl
    have hyields' := hm.descending.yields (hm.limit ▸ hstart) rfl
    obtain ⟨below, above, hrs, hfrom, hfrom'⟩ :=
      Engine.selected_split hm.rank (hm.strict (bs :: _)) hn hn' hsame
    rw [own_stored] at hrs hfrom hfrom'
    exact ⟨below, above, hrs, hfrom ▸ hyields, hfrom' ▸ hyields'⟩
  · rcases hj with rfl | rfl
    · exact hm.ascending.refuses hlong
    · have hrefused := hm.descending.refuses (hm.limit.symm ▸ hlong)
      rwa [hm.limit] at hrefused

/-! ## Two families that are written alike -/

/-- Making a family leaves the configurations of the others alone. -/
theorem Run.config?_createFamily_of_ne {s t : Store} {b : DatabaseId} {funcs : FuncsArgument}
    {maxKeySize : Value} {new id : FamilyId}
    (h : (createFamily b funcs maxKeySize).run s = (.ok new, t)) (hne : id ≠ new) :
    t.config? id = s.config? id := by
  unfold createFamily at h
  obtain ⟨⟨handle, sizes⟩, s₁, hopen, h⟩ := exists_of_run_bind h
  obtain ⟨fs, s₂, hfs, h⟩ := exists_of_run_bind h
  obtain ⟨config, s₃, hmake, h⟩ := exists_of_run_bind h
  obtain ⟨fh, s₄, hengine, h⟩ := exists_of_run_bind h
  rw [run_ofExcept] at hfs hmake
  rw [run_engine] at hengine
  obtain ⟨_, s₅, hnote, h⟩ := exists_of_run_bind h
  rw [run_note] at hnote
  obtain ⟨hid, rfl⟩ := Prod.mk.inj h
  obtain rfl := Except.ok.inj hid
  have hs₁ : s₁ = s := by
    rcases openDatabase_cases s b with ⟨failure, hrun⟩ | ⟨d, h, k, sizes, -, -, hrun⟩
    · exact absurd (hrun.symm.trans hopen) error_ne_ok
    · exact (congrArg Prod.snd (hrun.symm.trans hopen)).symm
  have hs₅ : s₅.families = s.families := by
    rw [← (Prod.mk.inj hnote).2, ← (Prod.mk.inj hengine).2, ← (Prod.mk.inj hmake).2,
      ← (Prod.mk.inj hfs).2, hs₁]
  unfold config?
  dsimp only
  rw [Table.get?_set_ne _ hne, hs₅]

/-- The two families have the data functions that they were made with. -/
theorem exists_config_twoFamilies : ∃ config config', twoFamilies.config? 0 = some config ∧
    twoFamilies.config? 1 = some config' ∧ config.funcs = DataFuncs.Builtin.funcs .default ∧
    config'.funcs = DataFuncs.Builtin.funcs .reverse := by
  let opened : Store := (Store.initial (.empty "/")).after (openTwo.take 2)
  have hone : ((Run.createFamily 0 (.ofInstance (DataFuncs.Builtin.funcs .default)) (.int 8)).run
      opened).1.toOption = some 0 := by decide +kernel
  have htwo : ((Run.createFamily 1 (.ofInstance (DataFuncs.Builtin.funcs .reverse)) (.int 8)).run
      ((Run.createFamily 0 (.ofInstance (DataFuncs.Builtin.funcs .default)) (.int 8)).run
        opened).2).1.toOption = some 1 := by decide +kernel
  obtain ⟨config, hconfig, hfuncs⟩ := Run.config?_of_createFamily (run_eq_of_toOption hone)
  obtain ⟨config', hconfig', hfuncs'⟩ := Run.config?_of_createFamily (run_eq_of_toOption htwo)
  have hkept := Run.config?_createFamily_of_ne (run_eq_of_toOption htwo)
    (by decide : (0 : FamilyId) ≠ 1)
  have hcreate : ∀ (s : Store) (b : DatabaseId) (funcs : FuncsArgument) (limit : Value),
      (s.perform (.createFamily b funcs limit)).2 = ((Run.createFamily b funcs limit).run s).2 :=
    fun s b funcs limit => congrArg Prod.snd (run_map _ _ s)
  have hstore : twoFamilies = ((opened.perform (.createFamily 0
      (.ofInstance (DataFuncs.Builtin.funcs .default)) (.int 8))).2.perform (.createFamily 1
        (.ofInstance (DataFuncs.Builtin.funcs .reverse)) (.int 8))).2 := rfl
  rw [hstore, hcreate, hcreate]
  exact ⟨config, config', hkept.trans hconfig, hconfig', (Except.ok.inj hfuncs).symm,
    (Except.ok.inj hfuncs').symm⟩

/-- The same calls on both families, among them one with the empty key, one with a key that is too
long, and keys of which one is the beginning of another. -/
def writeAlike : List (FamilyId × PointCall) :=
  [(0, .insert (.bytes [97]) (.bytes [1])), (1, .insert (.bytes [97]) (.bytes [1])),
    (1, .update (.bytes [97, 98]) (.bytes [2])), (1, .insert (.bytes []) .null),
    (1, .insert (.bytes [0, 0, 0, 0, 0, 0, 0, 0, 0]) .null), (1, .delete (.bytes [97])),
    (0, .update (.bytes [97, 98]) (.bytes [2])), (0, .insert (.bytes []) .null),
    (0, .insert (.bytes [0, 0, 0, 0, 0, 0, 0, 0, 0]) .null), (0, .delete (.bytes [97])),
    (0, .insert (.bytes [97]) (.bytes [3])), (1, .insert (.bytes [97]) (.bytes [3]))]

/-- From a stored key on, both families give out its record first. -/
theorem stored_key_first :
    (∃ config config', Mirrored twoFamilies 0 1 config config') ∧
    ∃ below above, (twoFamilies.afterPoints writeAlike).Yields 0 (.bytes [97])
        (([97], [3]) :: above) ∧
      (twoFamilies.afterPoints writeAlike).Yields 1 (.bytes [97]) (([97], [3]) :: below) ∧
      ([], []) ∈ below ∧ ([97, 98], [2]) ∈ above := by
  obtain ⟨config, config', hconfig, hconfig', hfuncs, hfuncs'⟩ := exists_config_twoFamilies
  have hopen := independent_twoFamilies.isOpen
  have hunforced : Unforced twoFamilies.engine :=
    ⟨undisturbed_twoFamilies.pending, by decide +kernel⟩
  have hlimits : (twoFamilies.config? 0).all (fun c => (twoFamilies.config? 1).all fun c' =>
      c'.maxKeySize == c.maxKeySize && decide (1 ≤ c.maxKeySize)) = true := by decide +kernel
  rw [hconfig, hconfig'] at hlimits
  obtain ⟨hlimit, hshort⟩ := Bool.and_eq_true_iff.1 hlimits
  have hm : Mirrored twoFamilies 0 1 config config' :=
    ⟨⟨reachable_twoFamilies, hopen 0 (by simp), hunforced.untroubled, hconfig⟩,
      ⟨reachable_twoFamilies, hopen 1 (by simp), hunforced.untroubled, hconfig'⟩, hfuncs, hfuncs',
      beq_iff_eq.1 hlimit, hunforced, by decide +kernel⟩
  have hon : ∀ c ∈ writeAlike, c.1 = 0 ∨ c.1 = 1 := by
    intro c hc
    have hall : ∀ j ∈ writeAlike.map Prod.fst, j = 0 ∨ j = 1 := by decide
    exact hall c.1 (List.mem_map_of_mem hc)
  obtain ⟨-, rs, -, -, hnodup, hsorted, hmem, hfrom⟩ :=
    reverse_mirrors_ascending hm hon rfl
  obtain ⟨below, above, hrs, hyields, hyields'⟩ := (hfrom [97]).1 (of_decide_eq_true hshort)
  have hown : recordUnder ((twoFamilies.afterPoints writeAlike).content 0) [97] =
      [([97], [3])] := by
    decide +kernel
  have hempty : ([], []) ∈ rs := (hmem _ _).2 (by decide +kernel)
  have hlonger : ([97, 98], [2]) ∈ rs := (hmem _ _).2 (by decide +kernel)
  rw [hown] at hrs hyields hyields'
  rw [hrs] at hsorted hempty hlonger
  obtain ⟨hfirst, -, habove⟩ := List.pairwise_append.1 hsorted
  obtain ⟨-, -, hbelow⟩ := List.pairwise_append.1 hfirst
  refine ⟨⟨config, config', hm⟩, below.reverse, above, hyields, hyields', ?_, ?_⟩
  · rw [List.append_assoc, List.mem_append, List.mem_append, List.mem_singleton] at hempty
    rcases hempty with hin | heq | hin
    · exact List.mem_reverse.2 hin
    · exact absurd heq (by decide)
    · exact absurd (habove _ (List.mem_append_right _ List.mem_cons_self) _ hin) (by decide)
  · rw [List.append_assoc, List.mem_append, List.mem_append, List.mem_singleton] at hlonger
    rcases hlonger with hin | heq | hin
    · exact absurd (hbelow _ hin _ List.mem_cons_self) (by decide)
    · exact absurd heq (by decide)
    · exact hin

end Store

end FamilyStore
