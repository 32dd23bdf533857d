import FamilyStore.Proofs.Accounts.SameCounts
import FamilyStore.Proofs.Founded

/-!
The accounts of cursors and of lookups.

The engine has one cursor for each open iterator, and it was told to take a cursor back once for
each iterator that is closed. A lookup gives the memory for its result back before it ends, whatever
comes of it.
-/

namespace FamilyStore.Store

/-- How many iterators are open. -/
def openIterators (s : Store) : Nat := s.iterators.count fun i => !i.isClosed

/-- How many iterators are closed. -/
def closedIterators (s : Store) : Nat := s.iterators.count Iterator.isClosed

/-- Cursors of the engine and iterators. -/
structure CursorsBalanced (s : Store) : Prop where
  live : s.engine.liveCursors = s.openIterators
  calls : s.engine.callCount .iteratorDeinit = s.closedIterators
  once : (s.engine.subjects .iteratorDeinit).Nodup
  gone : ∀ x ∈ s.engine.subjects .iteratorDeinit, ∃ h, x = .handle h ∧ h < s.engine.nextHandle ∧
    h ∉ s.engine.cursors.keys
  distinct : s.engine.cursors.keys.Nodup

/-- No lookup and no merge has left anything in the engine. -/
structure LookupsBalanced (s : Store) : Prop where
  cleared : s.engine.lookups.keys = []
  calls : s.engine.callCount .lookupInit = s.engine.callCount .lookupDeinit
  accumulators : s.engine.accumulators.keys = []

theorem cursorsBalanced_initial (files : Files) : CursorsBalanced (Store.initial files) where
  live := rfl
  calls := rfl
  once := List.nodup_nil
  gone _ hx := absurd hx List.not_mem_nil
  distinct := List.nodup_nil

theorem lookupsBalanced_initial (files : Files) : LookupsBalanced (Store.initial files) :=
  ⟨rfl, rfl, rfl⟩

section

variable {s s' : Store} {parts : List Engine.Resource} {i : IteratorId} {it it' : Iterator}
  {h : Engine.Handle}

theorem openIterators_set (hi : s.iterators.get? i = some it)
    (hits : s'.iterators = s.iterators.set i it') :
    s'.openIterators + (!it.isClosed).toNat = s.openIterators + (!it'.isClosed).toNat := by
  unfold openIterators
  rw [hits]
  exact Table.count_set_of_get? (fun i => !i.isClosed) hi it'

theorem closedIterators_set (hi : s.iterators.get? i = some it)
    (hits : s'.iterators = s.iterators.set i it') :
    s'.closedIterators + it.isClosed.toNat = s.closedIterators + it'.isClosed.toNat := by
  unfold closedIterators
  rw [hits]
  exact Table.count_set_of_get? Iterator.isClosed hi it'

theorem isClosed_of_cursor (hh : it.cursor = some h) : it.isClosed = false := by
  rw [Iterator.isClosed, hh]
  rfl

namespace CursorsBalanced

theorem sameCounts (hb : CursorsBalanced s) (hl : SameCounts parts s s') (hn : .cursors ∉ parts) :
    CursorsBalanced s' := by
  have hsame := hl.engine.same .cursors hn
  have hkeys : s'.engine.cursors.keys = s.engine.cursors.keys := hsame.use
  have hcalls : s'.engine.subjects .iteratorDeinit = s.engine.subjects .iteratorDeinit :=
    hsame.calls .iteratorDeinit (by simp [Engine.Resource.entries])
  refine ⟨?_, ?_, ?_, ?_, ?_⟩
  · have hopen : s'.openIterators = s.openIterators := hl.iterators hn not
    rw [hopen, Engine.liveCursors, ← Table.length_keys, hkeys, Table.length_keys]
    exact hb.live
  · have hclosed : s'.closedIterators = s.closedIterators := hl.iterators hn id
    rw [hclosed, Engine.callCount_eq hcalls]
    exact hb.calls
  · rw [hcalls]
    exact hb.once
  · rw [hcalls, hkeys]
    intro x hx
    obtain ⟨g, hxg, hlt, hg⟩ := hb.gone x hx
    exact ⟨g, hxg, Nat.lt_of_lt_of_le hlt hl.engine.nextHandle, hg⟩
  · rw [hkeys]
    exact hb.distinct

/-- A new iterator has a new cursor. -/
theorem begun (hb : CursorsBalanced s) (hl : Linked s) {fh : Engine.FamilyHandle}
    {c : Engine.Cursor} (he : s'.engine = s.engine.withCursor fh c)
    (hits : s'.iterators = s.iterators.set s.iterators.size it')
    (hh : it'.cursor = some s.engine.nextHandle) : CursorsBalanced s' := by
  have hnew : s.engine.nextHandle ∉ s.engine.cursors.keys := by
    intro hm
    obtain ⟨c, hc⟩ := Table.exists_get?_of_mem_keys hm
    exact Nat.lt_irrefl _ (hl.handles hc)
  have hkeys : s'.engine.cursors.keys = s.engine.cursors.keys ++ [s.engine.nextHandle] := by
    rw [he]
    exact Table.keys_set_of_not_mem hnew c
  have hcalls : s'.engine.subjects .iteratorDeinit = s.engine.subjects .iteratorDeinit := by
    rw [he]
    rfl
  have hcount := fun p => Table.count_set_of_none p hl.iterators.get?_size it'
  refine ⟨?_, ?_, ?_, ?_, ?_⟩
  · have hopen := hcount fun i => !i.isClosed
    unfold openIterators
    rw [hits, hopen, isClosed_of_cursor hh, Engine.liveCursors, ← Table.length_keys, hkeys,
      List.length_append, Table.length_keys]
    exact congrArg (· + 1) hb.live
  · have hclosed := hcount Iterator.isClosed
    unfold closedIterators
    rw [hits, hclosed, isClosed_of_cursor hh, Engine.callCount_eq hcalls]
    exact hb.calls
  · rw [hcalls]
    exact hb.once
  · rw [hcalls, hkeys]
    intro x hx
    obtain ⟨g, hxg, hlt, hg⟩ := hb.gone x hx
    refine ⟨g, hxg, ?_, fun hm => ?_⟩
    · rw [he]
      exact Nat.lt_of_lt_of_le hlt (Nat.le_add_right _ _)
    · rcases List.mem_append.1 hm with hm | hm
      · exact hg hm
      · exact Nat.ne_of_lt hlt (List.mem_singleton.1 hm)
  · rw [hkeys, List.nodup_append]
    refine ⟨hb.distinct, by simp, fun g hg g' hg' => ?_⟩
    rw [List.mem_singleton.1 hg']
    rintro rfl
    exact hnew hg

/-- A cursor is taken back by one call more. -/
theorem ends (hb : CursorsBalanced s) (hl : Linked s) {c : Engine.Cursor}
    (hc : s.engine.cursors.get? h = some c) (he : s'.engine = s.engine.withoutCursor h c) :
    (s'.engine.subjects .iteratorDeinit).Nodup ∧ ∀ x ∈ s'.engine.subjects .iteratorDeinit,
      ∃ g, x = .handle g ∧ g < s'.engine.nextHandle ∧ g ∉ s'.engine.cursors.keys := by
  have hkeys : s'.engine.cursors.keys = s.engine.cursors.keys.filter (· ≠ h) := by
    rw [he]
    exact Table.keys_erase _ _
  have hnext : s'.engine.nextHandle = s.engine.nextHandle := by
    rw [he]
    rfl
  have hcalls : s'.engine.subjects .iteratorDeinit =
      .handle h :: s.engine.subjects .iteratorDeinit := by
    rw [he]
    rfl
  rw [hkeys, hnext]
  refine Engine.ends_cons hcalls hb.once hb.gone ?_ ⟨h, rfl, hl.handles hc, by simp⟩ ?_
  · rintro ⟨g, hg, -, hgone⟩
    obtain rfl := Engine.Subject.handle.inj hg
    exact hgone (Table.mem_keys_of_get? hc)
  · rintro _ - ⟨g, rfl, hlt, hg⟩
    exact ⟨g, rfl, hlt, fun hm => hg (List.mem_filter.1 hm).1⟩

/-- An open iterator is closed, and its cursor is taken back. -/
theorem closed (hb : CursorsBalanced s) (hl : Linked s) (hi : s.iterators.get? i = some it)
    (hh : it.cursor = some h) {c : Engine.Cursor} (hc : s.engine.cursors.get? h = some c)
    (he : s'.engine = s.engine.withoutCursor h c) (hits : s'.iterators = s.iterators.set i it')
    (hn : it'.cursor = none) : CursorsBalanced s' := by
  have hopen := openIterators_set hi hits
  have hclosed := closedIterators_set hi hits
  have hnow : it'.isClosed = true := by
    rw [Iterator.isClosed, hn]
    rfl
  simp only [isClosed_of_cursor hh, hnow, Bool.not_true, Bool.not_false, Bool.toNat_false,
    Bool.toNat_true] at hopen hclosed
  obtain ⟨honce, hgone⟩ := hb.ends hl hc he
  refine ⟨?_, ?_, honce, hgone, ?_⟩
  · have hsize : s'.engine.cursors.size + 1 = s.engine.cursors.size := by
      rw [he]
      exact Table.size_erase hb.distinct (Table.mem_keys_of_get? hc)
    have := hb.live
    unfold Engine.liveCursors at *
    omega
  · have hcalls : s'.engine.subjects .iteratorDeinit =
        .handle h :: s.engine.subjects .iteratorDeinit := by
      rw [he]
      rfl
    have := hb.calls
    have := Engine.callCount_cons hcalls
    omega
  · rw [he]
    show (s.engine.cursors.erase h).keys.Nodup
    rw [Table.keys_erase]
    exact hb.distinct.filter _

/-- Closing an iterator takes its cursor back, unless a view is held. -/
theorem closeIterator (hb : CursorsBalanced s) (hs : Sound s) (i : IteratorId) :
    CursorsBalanced ((Run.closeIterator i).run s).2 := by
  unfold Run.closeIterator
  cases hi : s.iterators.get? i with
  | none =>
    rw [run_bind, Run.run_iterator_none hi]
    exact hb
  | some it =>
    rw [run_bind, Run.run_iterator hi]
    dsimp only
    cases hh : it.cursor with
    | none => exact hb
    | some h =>
      obtain ⟨c, hc, -, -⟩ := hs.exists_cursor hi hh
      obtain ⟨r, t, rest, hrun, hmove, -⟩ := Run.releaseViews_spec it.views hs hi hh rfl
      have hviews : Within (SameCounts []) _ := Run.sameCounts_releaseViews i it.views
      have hcounts := hviews.of_run hrun
      have hbt := hb.sameCounts hcounts List.not_mem_nil
      dsimp only
      rw [run_bind, hrun]
      cases r with
      | error failure => exact hbt
      | ok _ =>
        have hnow : Table.get? (s.iterators.set i { it with views := rest }) i =
            some { it with views := rest } := Table.get?_set_self _ _ _
        dsimp only
        rw [run_bind, Run.run_iterator hnow]
        dsimp only
        unfold Run.setIterator
        rw [run_bind, run_modify]
        dsimp only
        rw [Run.run_engine, Engine.Run.run_iteratorDeinit hc]
        exact hbt.closed hmove.sound.linked hnow hh hc rfl rfl rfl

theorem closeIterators (ids : List IteratorId) : ∀ {s : Store}, CursorsBalanced s → Sound s →
    CursorsBalanced ((ids.forM Run.closeIterator).run s).2 := by
  induction ids with
  | nil => exact fun hb _ => hb
  | cons i ids ih =>
    intro s hb hs
    have hfirst := hb.closeIterator hs i
    obtain ⟨r, t, hrun, hmove, -⟩ := Run.closeIterator_spec hs i
    have hforM : (i :: ids).forM Run.closeIterator =
        (Run.closeIterator i >>= fun _ => ids.forM Run.closeIterator) := rfl
    rw [hrun] at hfirst
    rw [hforM, run_bind, hrun]
    cases r with
    | error failure => exact hfirst
    | ok _ => exact ih hfirst hmove.sound

end CursorsBalanced

/-- The end of a family closes its iterators; what comes then is no matter for cursors. -/
theorem balanced_closeFamily_cursors (hb : CursorsBalanced s) (hs : Sound s) (id : FamilyId) :
    CursorsBalanced ((Run.closeFamily id).run s).2 := by
  have hclosed : ∀ {ids : List IteratorId} {r t},
      (ids.forM Run.closeIterator).run s = (r, t) → CursorsBalanced t := by
    intro ids r t hrun
    have hall := CursorsBalanced.closeIterators ids hb hs
    rw [hrun] at hall
    exact hall
  have hend := Run.closeFamily_end s id
  generalize (Run.closeFamily id).run s = answer at hend ⊢
  cases hend with
  | unknown | already => exact hb
  | heldUp _ _ hrun => exact hclosed hrun
  | @reached f g fh t r e log _ _ hrun hg hgh hdelete =>
    have hfam : Engine.Resource.families ∈ [Engine.Resource.families] := by simp
    have hresources := (Engine.Run.sameResources_familyDelete hfam fh).of_run hdelete
    have hset := Run.sameCounts_families hfam t (t.families.set id { g with handle := none })
    refine (hclosed hrun).sameCounts (Frame.trans hset ?_) (by simp)
    exact SameCounts.of_engine hresources rfl rfl rfl

theorem balanced_range (hb : CursorsBalanced s) (hs : Sound s) (id : FamilyId) (start : Value) :
    CursorsBalanced ((Run.range id start).run s).2 := by
  rcases Run.openFamily_cases s id with ⟨failure, hrun⟩ | ⟨f, fh, hserves⟩
  · unfold Run.range
    rw [run_bind, hrun]
    exact hb
  · rw [Run.run_range hserves]
    cases f.startSpan start with
    | error failure => exact hb
    | ok span =>
      dsimp only
      rcases Engine.Run.iteratorInit_makes fh span s.engine with ⟨hno, hresources⟩ | ⟨fam, -, hinit⟩
      · unfold Run.begin
        rw [run_bind, Run.run_engine]
        have hsame : ∀ log, CursorsBalanced { s with
            engine := ((Engine.Run.iteratorInit fh span).run s.engine).2, log := log } := fun _ =>
          hb.sameCounts (SameCounts.of_engine hresources rfl rfl rfl) List.not_mem_nil
        cases hr : ((Engine.Run.iteratorInit fh span).run s.engine).1 with
        | error failure => exact hsame s.log
        | ok p =>
          obtain ⟨r, events⟩ := p
          cases r with
          | ok h => exact absurd hr (hno h events)
          | error status => exact hsame _
      · rw [Run.run_begin hserves hinit]
        exact hb.begun hs.linked rfl rfl rfl

/-- Every operation keeps the account of cursors. -/
theorem cursors_perform (hs : Sound s) (hb : CursorsBalanced s) (op : Operation) :
    CursorsBalanced (s.perform op).2 := by
  cases op with
  | range id start =>
    have hrun : s.perform (.range id start) = _ := run_map _ _ s
    rw [hrun]
    exact balanced_range hb hs id start
  | closeIterator i =>
    have hrun : s.perform (.closeIterator i) = _ := run_map _ _ s
    rw [hrun]
    exact hb.closeIterator hs i
  | closeFamily id =>
    have hrun : s.perform (.closeFamily id) = _ := run_map _ _ s
    rw [hrun]
    exact balanced_closeFamily_cursors hb hs id
  | _ => exact hb.sameCounts (Operation.sameCounts _ s) (by simp [Operation.resources])

/-! ## Lookups -/

theorem LookupsBalanced.sameCounts (hb : LookupsBalanced s) (hl : SameCounts parts s s')
    (hn : .lookups ∉ parts) : LookupsBalanced s' := by
  have hsame := hl.engine.same .lookups hn
  have hkeys : s'.engine.lookups.keys = s.engine.lookups.keys := hsame.use
  have hinit := hsame.calls .lookupInit (by simp [Engine.Resource.entries])
  have hdeinit := hsame.calls .lookupDeinit (by simp [Engine.Resource.entries])
  refine ⟨hkeys.trans hb.cleared, ?_, hl.engine.accumulators hb.accumulators⟩
  rw [Engine.callCount_eq hinit, Engine.callCount_eq hdeinit]
  exact hb.calls

/-- Memory that is set aside and given back later leaves nothing behind. -/
theorem LookupsBalanced.around (hb : LookupsBalanced s) {address : Nat} {e : Engine}
    (he : Engine.SameResources [] (s.engine.settingAside address) e) : e.lookups.keys = [address] ∧
      ∀ t : Store, t.engine = e.givingBack address → LookupsBalanced t := by
  have hsame := he.same .lookups List.not_mem_nil
  have hfree : address ∉ s.engine.lookups.keys := by simp [hb.cleared]
  have hkeys : e.lookups.keys = [address] := by
    have haside := Table.keys_set_of_not_mem hfree (none : Option Bytes)
    rw [hb.cleared, List.nil_append] at haside
    exact Eq.trans hsame.use haside
  refine ⟨hkeys, fun t ht => ⟨?_, ?_, ?_⟩⟩
  · rw [ht]
    show (e.lookups.erase address).keys = []
    rw [Table.keys_erase, hkeys]
    simp
  · have hinit : t.engine.subjects .lookupInit =
        .lookup address :: s.engine.subjects .lookupInit := by
      rw [ht]
      exact hsame.calls .lookupInit (by simp [Engine.Resource.entries])
    have hdeinit : t.engine.subjects .lookupDeinit =
        .lookup address :: s.engine.subjects .lookupDeinit := by
      have hold := hsame.calls .lookupDeinit (by simp [Engine.Resource.entries])
      rw [ht]
      exact congrArg (.lookup address :: ·) hold
    rw [Engine.callCount_cons hinit, Engine.callCount_cons hdeinit, hb.calls]
  · rw [ht]
    exact he.accumulators hb.accumulators

/-- A lookup gives back the memory that it sets aside, be it found or failed. -/
theorem balanced_lookup (hf : Founded s) (hb : LookupsBalanced s) (id : FamilyId) (key : Value) :
    LookupsBalanced ((Run.lookup id key).run s).2 := by
  unfold Run.lookup
  rcases Run.openFamily_cases s id with ⟨failure, hrun⟩ | ⟨f, fh, hserves⟩
  · rw [run_bind, hrun]
    exact hb
  · rw [run_bind, Run.run_openFamily hserves]
    dsimp only
    rw [run_bind, Run.run_keySpan]
    cases f.span key with
    | error failure => exact hb
    | ok span =>
      obtain ⟨fam, hfam, -, -⟩ := hf.exists_inUse hserves
      have hfree : s.engine.lookups.get? s.engine.freeLookup = none := by
        rw [Table.get?_eq_none_iff, hb.cleared]
        exact List.not_mem_nil
      dsimp only
      rw [run_bind, run_get]
      dsimp only
      rw [run_bind, Run.run_engine, Engine.Run.run_lookupInit hfam hfree]
      dsimp only
      unfold Run.ensuring
      rw [run_bind, Run.run_outcome]
      dsimp only
      -- Whatever the lookup comes to, the memory is in use until it is given back at the end.
      generalize hs₁ : ({ s with engine := _ } : Store) = s₁
      have hl : SameCounts [] s₁ ((Run.lookupIn fh span s.engine.freeLookup).run s₁).2 :=
        Run.sameCounts_lookupIn fh span _ s₁
      generalize (Run.lookupIn fh span s.engine.freeLookup).run s₁ = result at hl ⊢
      have he : Engine.SameResources [] (s.engine.settingAside s.engine.freeLookup)
        result.2.engine := by
        have hresources := hl.engine
        rw [← hs₁] at hresources
        exact hresources
      obtain ⟨hkeys, hback⟩ := hb.around he
      obtain ⟨found, hfound⟩ := Table.exists_get?_of_mem_keys (k := s.engine.freeLookup)
        (by rw [hkeys]; exact List.mem_singleton.2 rfl)
      rw [run_bind, Run.run_engine, Engine.Run.run_lookupDeinit hfound]
      dsimp only
      rw [Run.run_ofExcept]
      exact hback _ rfl

/-- To ask whether a key has a value is to look it up, unless the key is too long. -/
theorem balanced_contains (hf : Founded s) (hb : LookupsBalanced s) (id : FamilyId)
    (key : Value) : LookupsBalanced ((Run.contains id key).run s).2 := by
  have hlookup : LookupsBalanced ((do return (← Run.lookup id key).isSome : Run Bool).run s).2 := by
    have hmap : (do return (← Run.lookup id key).isSome : Run Bool) =
        Option.isSome <$> Run.lookup id key := by
      rw [map_eq_pure_bind]
    rw [hmap, run_map]
    exact balanced_lookup hf hb id key
  unfold Run.contains
  split
  · exact hlookup
  · rw [run_bind, Run.run_ofExcept]
    cases key.size with
    | error failure => exact hb
    | ok size =>
      dsimp only
      cases hfam : s.families.get? id with
      | none =>
        rw [run_bind, Run.run_storeFamily_none hfam]
        exact hb
      | some f =>
        rw [run_bind, Run.run_storeFamily hfam]
        dsimp only
        split
        · exact hb
        · exact hlookup

/-- Every operation keeps the account of lookups. -/
theorem lookups_perform (hf : Founded s) (hb : LookupsBalanced s) (op : Operation) :
    LookupsBalanced (s.perform op).2 := by
  have hwrite : ∀ {id : FamilyId} {call : PointCall}, Within (SameCounts []) (call.run id) →
      LookupsBalanced (s.perform (.point id call)).2 := fun hw =>
    hb.sameCounts (hw s) List.not_mem_nil
  have hthen : ∀ {α : Type} (id : FamilyId) (key : Value) (f : Option Bytes → α),
      LookupsBalanced ((f <$> Run.lookup id key).run s).2 := by
    intro α id key f
    rw [run_map]
    exact balanced_lookup hf hb id key
  cases op with
  | point id call =>
    cases call with
    | insert key value => exact hwrite (Within.map (Run.sameCounts_insert id key value) _)
    | update key delta => exact hwrite (Within.map (Run.sameCounts_update id key delta) _)
    | delete key => exact hwrite (Within.map (Run.sameCounts_delete id key) _)
    | lookup key => exact hthen id key _
    | get key default =>
      have hget : Run.getOr id key default =
          (fun found => (found.map Value.bytes).getD default) <$> Run.lookup id key := by
        unfold Run.getOr
        rw [map_eq_pure_bind]
        congr 1
        funext found
        cases found <;> rfl
      show LookupsBalanced ((Reply.value <$> Run.getOr id key default).run s).2
      rw [run_map, hget]
      exact hthen id key _
    | contains key =>
      show LookupsBalanced ((Reply.flag <$> Run.contains id key).run s).2
      rw [run_map]
      exact balanced_contains hf hb id key
  | _ => exact hb.sameCounts (Operation.sameCounts _ s) (by simp [Operation.resources])

end

end FamilyStore.Store
