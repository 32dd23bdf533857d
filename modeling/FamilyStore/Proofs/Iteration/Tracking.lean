import FamilyStore.Proofs.Iteration.Release

/-!
What families and iterators keep track of.

A family lists iterators that are there and belong to it. An iterator keeps track of views that are
there, and each of them shows a part of the record that the iterator lends.
-/

namespace FamilyStore.Store

variable {s s' : Store} {i : IteratorId} {it it' : Iterator} {h : Engine.Handle} {c : Engine.Cursor}

/-- Iterators stay with their families and families with their iterators, and no iterator keeps
track of a view that it did not keep track of before, in the same generation. -/
structure Follows (s s' : Store) : Prop where
  iterators : ∀ {i it'}, s'.iterators.get? i = some it' → ∃ it, s.iterators.get? i = some it ∧
    it'.family = it.family ∧ ∀ v ∈ it'.views, it'.generation = it.generation ∧ v ∈ it.views
  families : ∀ {id f'}, s'.families.get? id = some f' → ∀ i ∈ f'.iterators,
    ∃ f, s.families.get? id = some f ∧ i ∈ f.iterators

namespace Follows

/-- Neither iterators nor families change. -/
theorem of_same (hits : s'.iterators = s.iterators) (hfams : s'.families = s.families) :
    Follows s s' where
  iterators {i it'} hi := ⟨it', by rw [← hits]; exact hi, rfl, fun _ hv => ⟨rfl, hv⟩⟩
  families {id f'} hf i hi := ⟨f', by rw [← hfams]; exact hf, hi⟩

instance : Frame Follows where
  refl _ := of_same rfl rfl
  trans h h' :=
    { iterators := fun hi => by
        obtain ⟨it', hi', hfam', hviews'⟩ := h'.iterators hi
        obtain ⟨it, hold, hfam, hviews⟩ := h.iterators hi'
        refine ⟨it, hold, hfam'.trans hfam, fun v hv => ?_⟩
        obtain ⟨hgen', hv'⟩ := hviews' v hv
        obtain ⟨hgen, hv⟩ := hviews v hv'
        exact ⟨hgen'.trans hgen, hv⟩
      families := fun hf i hi => by
        obtain ⟨f', hf', hi'⟩ := h'.families hf i hi
        exact h.families hf' i hi' }

/-- One iterator changes. -/
theorem of_set (hi : s.iterators.get? i = some it) (hits : s'.iterators = s.iterators.set i it')
    (hfams : s'.families = s.families) (hfam : it'.family = it.family)
    (hviews : ∀ v ∈ it'.views, it'.generation = it.generation ∧ v ∈ it.views) : Follows s s' where
  iterators {j jt} hj := by
    rw [hits] at hj
    rcases Table.of_get?_set hj with ⟨hji, rfl⟩ | ⟨-, hj⟩
    · exact ⟨it, by rw [hji]; exact hi, hfam, hviews⟩
    · exact ⟨jt, hj, rfl, fun _ hv => ⟨rfl, hv⟩⟩
  families {id f'} hf i hi := ⟨f', by rw [← hfams]; exact hf, hi⟩

/-- One family changes, but for its list of iterators. -/
theorem of_setFamily {id : FamilyId} {f : Family} (hits : s'.iterators = s.iterators)
    (hfams : s'.families = s.families.set id f)
    (hold : ∀ i ∈ f.iterators, ∃ g, s.families.get? id = some g ∧ i ∈ g.iterators) :
    Follows s s' where
  iterators {i it'} hi := ⟨it', by rw [← hits]; exact hi, rfl, fun _ hv => ⟨rfl, hv⟩⟩
  families {id' f'} hf i hi := by
    rw [hfams] at hf
    rcases Table.of_get?_set hf with ⟨hid, rfl⟩ | ⟨-, hf⟩
    · rw [hid]
      exact hold i hi
    · exact ⟨f', hf, hi⟩

/-- To release views is to keep track of fewer. -/
theorem loosened (hi : s.iterators.get? i = some it) : Follows s (s.loosened i it) :=
  of_set hi rfl rfl rfl fun v hv => ⟨rfl, by
    rw [← s.loose_append_fast it.views]
    exact List.mem_append_right _ hv⟩

end Follows

theorem SameHandles.follows {parts : List Engine.Part} (h : SameHandles parts s s') :
    Follows s s' :=
  Follows.of_same h.iterators h.families

namespace Run

variable {α β : Type}

/-! ## Work that leaves iterators and families alone -/

theorem follows_engine (work : Engine.Run α) : Within Follows (engine work) :=
  fun _ => Follows.of_same rfl rfl

theorem follows_note (events : List Event) : Within Follows (note events) :=
  Within.modify fun _ => Follows.of_same rfl rfl

theorem follows_setDatabase (id : DatabaseId) (d : Database) :
    Within Follows (setDatabase id d) :=
  Within.modify fun _ => Follows.of_same rfl rfl

theorem follows_setView (id : ViewId) (v : View) : Within Follows (setView id v) :=
  Within.modify fun _ => Follows.of_same rfl rfl

theorem follows_tune (change : Engine → Engine) : Within Follows (tune change) :=
  Within.bind (Within.modify fun _ => Follows.of_same rfl rfl) fun _ => Within.pure _

theorem follows_newDatabase : Within Follows newDatabase :=
  Within.bind Within.get fun _ => Within.bind (follows_setDatabase _ _) fun _ => Within.pure _

theorem follows_checkPlace (path : PathArgument) (existing : Bool) :
    Within Follows (checkPlace path existing) := by
  refine Within.bind Within.get fun s => Within.guard (within_fail _) ?_
  exact Within.ite (within_fail _) (Within.pure _)

theorem follows_start (id : DatabaseId) (path : Value) (settings : Settings) (existing : Bool) :
    Within Follows (start id path settings existing) := by
  refine Within.bind (within_database id) fun d => Within.guard (within_fail _) ?_
  refine Within.bind (within_ofExcept _) fun sizes => Within.bind (within_ofExcept _) fun p => ?_
  refine Within.bind Within.get fun s => Within.bind (follows_checkPlace _ _) fun _ => ?_
  refine Within.bind (within_ofExcept _) fun text => Within.bind (follows_engine _) fun block => ?_
  refine Within.bind (follows_engine _) fun result => ?_
  cases result with
  | error status => exact Within.bind (follows_engine _) fun _ => Within.throw _
  | ok handle => exact Within.bind (follows_setDatabase _ _) fun _ => follows_note _

theorem follows_connect (path : Value) (settings : Settings) (existing : Bool) :
    Within Follows (connect path settings existing) := by
  refine Within.bind follows_newDatabase fun id => ?_
  refine Within.bind (within_outcome (follows_start id path settings existing)) fun result => ?_
  cases result with
  | ok _ => exact Within.pure _
  | error failure =>
    exact Within.bind (Within.modify fun _ => Follows.of_same rfl rfl) fun _ => Within.throw _

/-- A new family lists no iterators. -/
theorem follows_createFamily (id : DatabaseId) (funcs : FuncsArgument) (maxKeySize : Value) :
    Within Follows (createFamily id funcs maxKeySize) := by
  refine Within.bind (within_openDatabase id) fun r => Within.bind (within_ofExcept _) fun fs => ?_
  refine Within.bind (within_ofExcept _) fun config => Within.bind (follows_engine _) fun fam => ?_
  refine Within.bind (follows_note _) fun _ => ?_
  exact Within.get_bind fun s => Follows.of_setFamily rfl rfl fun i hi =>
    absurd hi List.not_mem_nil

theorem follows_closeDatabase (id : DatabaseId) : Within Follows (closeDatabase id) := by
  refine Within.bind (within_database id) fun d =>
    Within.bind (follows_setDatabase _ _) fun _ => ?_
  split
  · refine Within.bind (follows_engine _) fun _ => Within.bind (follows_engine _) fun _ => ?_
    split
    · exact follows_note _
    · exact Within.pure _
  · exact Within.pure _

theorem follows_releaseView (v : ViewId) : Within Follows (releaseView v) := by
  refine Within.bind (within_view v) fun vw => Within.ite (Within.pure _) ?_
  exact Within.guard (Within.throw _) (follows_setView _ _)

theorem follows_holdView (v : ViewId) : Within Follows (holdView v) := by
  refine Within.bind (within_view v) fun vw => Within.bind ?_ fun _ => follows_setView _ _
  exact Within.ite (Within.throw _) (Within.pure _)

theorem follows_unholdView (v : ViewId) : Within Follows (unholdView v) :=
  Within.bind (within_view v) fun _ => follows_setView _ _

/-! ## Iterators -/

/-- Work on an iterator that is there. -/
theorem follows_iterator (id : IteratorId) {f : Iterator → Run α}
    (hf : ∀ s it, s.iterators.get? id = some it → Follows s ((f it).run s).2) :
    Within Follows (iterator id >>= f) := by
  intro s
  cases hi : s.iterators.get? id with
  | none =>
    rw [run_bind, run_iterator_none hi]
    exact Frame.refl s
  | some it =>
    rw [run_bind, run_iterator hi]
    exact hf s it hi

/-- An iterator is changed in place, and work goes on. -/
theorem follows_changeIterator (id : IteratorId) {g : Iterator → Iterator}
    (hg : ∀ it, (g it).family = it.family ∧ (g it).generation = it.generation ∧
      (g it).views = it.views) {f : Iterator → Run α} (hf : ∀ it, Within Follows (f it)) :
    Within Follows (iterator id >>= fun it => setIterator id (g it) >>= fun _ => f it) :=
  follows_iterator id fun s it hi => by
    obtain ⟨hfam, hgen, hviews⟩ := hg it
    refine Frame.trans (?_ : Follows s { s with iterators := s.iterators.set id (g it) }) (hf it _)
    exact Follows.of_set hi rfl rfl hfam fun v hv => ⟨hgen, by rw [← hviews]; exact hv⟩

/-- An iterator begins a new generation once its views are released, and work goes on. -/
theorem follows_renew (hi : s.iterators.get? i = some it) {g : Iterator → Iterator}
    (hg : ∀ it, (g it).family = it.family ∧ (g it).views = it.views) {rest : Run α}
    (hrest : Within Follows rest) :
    Follows s ((releaseViews i it.views >>= fun _ => iterator i >>= fun it =>
      setIterator i (g it) >>= fun _ => rest).run s).2 := by
  rw [run_bind, run_releaseViews it.views hi rfl]
  cases hstuck : s.isStuck it with
  | true => exact Follows.loosened hi
  | false =>
    have hnow := iterators_loosened s i it
    obtain ⟨hfam, hviews⟩ := hg { it with views := s.fast it.views }
    rw [if_neg Bool.false_ne_true]
    dsimp only
    rw [run_bind, run_iterator hnow]
    refine Frame.trans (Follows.loosened hi) (Frame.trans (?_ : Follows _ { s.loosened i it with
      iterators := (s.loosened i it).iterators.set i (g { it with views := s.fast it.views }) })
      (hrest _))
    refine Follows.of_set hnow rfl rfl hfam fun v hv => ?_
    rw [hviews, fast_of_not_stuck hstuck] at hv
    exact absurd hv List.not_mem_nil

theorem follows_giveOut (id : IteratorId) (cursor : Engine.Handle) :
    Within Follows (giveOut id cursor) := by
  refine Within.bind (follows_engine _) fun x => ?_
  refine follows_changeIterator id (g := fun it => { it with positioned := true })
    (fun _ => ⟨rfl, rfl, rfl⟩) fun it => ?_
  exact Within.get_bind fun s => Follows.of_same rfl rfl

theorem follows_endIteration (id : IteratorId) (cursor : Engine.Handle) :
    Within Follows (endIteration id cursor) := by
  refine Within.bind (follows_engine _) fun status => ?_
  refine follows_iterator id fun s it hi => ?_
  have hset : ∀ p, Follows s { s with
      iterators := s.iterators.set id { it with progress := p } } := fun p =>
    Follows.of_set hi rfl rfl rfl fun v hv => ⟨rfl, hv⟩
  rw [run_ite]
  split
  · exact hset (.failed status)
  · exact hset .exhausted

theorem follows_goOn (id : IteratorId) (cursor : Engine.Handle) :
    Within Follows (goOn id cursor) := by
  refine Within.bind (follows_engine _) fun valid => Within.ite ?_ ?_
  · exact Within.bind (follows_giveOut id cursor) fun _ => Within.pure _
  · exact Within.bind (follows_endIteration id cursor) fun _ => Within.pure _

theorem follows_leaveRecord (id : IteratorId) (cursor : Engine.Handle) :
    Within Follows (leaveRecord id cursor) :=
  follows_iterator id fun _ _ hi =>
    follows_renew hi (g := fun it => { it with
      generation := it.generation + 1, positioned := false }) (fun _ => ⟨rfl, rfl⟩)
      (follows_engine _)

theorem follows_advance (id : IteratorId) : Within Follows (advance id) := by
  refine Within.bind (within_iterator id) fun it => ?_
  cases it.cursor with
  | none => exact within_fail _
  | some cursor =>
    refine Within.bind (within_family _) fun f => Within.guard (within_fail _) ?_
    cases it.progress with
    | failed status => exact within_fail _
    | exhausted => exact Within.pure _
    | running => exact Within.guard (follows_leaveRecord id cursor) (follows_goOn id cursor)

theorem follows_next (id : IteratorId) : Within Follows (next id) := by
  refine Within.bind (follows_advance id) fun r => ?_
  cases r with
  | some ρ => exact Within.bind (within_copyRecord ρ) fun _ => Within.pure _
  | none => exact Within.pure _

theorem follows_closeIterator (id : IteratorId) : Within Follows (closeIterator id) := by
  refine follows_iterator id fun s it hi => ?_
  cases it.cursor with
  | none => exact Frame.refl s
  | some cursor =>
    exact follows_renew hi (g := fun it => { it with
      cursor := none, generation := it.generation + 1, positioned := false }) (fun _ => ⟨rfl, rfl⟩)
      (follows_engine _)

theorem follows_closeIterators (ids : List IteratorId) :
    Within Follows (ids.forM closeIterator) := by
  induction ids with
  | nil => exact Within.pure _
  | cons id ids ih => exact Within.bind (follows_closeIterator id) fun _ => ih

theorem follows_closeFamily (id : FamilyId) : Within Follows (closeFamily id) := by
  intro s
  have hend := closeFamily_end s id
  generalize (closeFamily id).run s = answer at hend ⊢
  cases hend with
  | unknown | already => exact Frame.refl s
  | heldUp _ _ hrun => exact (follows_closeIterators _).of_run hrun
  | @reached f g fh t r e log _ _ hrun hg hgh hdelete =>
    refine Frame.trans ((follows_closeIterators _).of_run hrun) ?_
    exact Follows.of_setFamily rfl rfl fun i hi => ⟨g, hg, hi⟩

end Run

/-! ## What holds of what is kept track of -/

/-- A view shows a part of the record that an iterator lends. -/
def ShowsPart (s : Store) (it : Iterator) (vw : View) : Prop :=
  ∃ r, Lends s it r ∧ (vw.extent = (Run.freshView r.key).extent ∨
    vw.extent = (Run.freshView r.value).extent)

/-- Families list their own iterators, and iterators keep track of views of their record. -/
structure Tracked (s : Store) : Prop where
  listed : ∀ {id f i}, s.families.get? id = some f → i ∈ f.iterators →
    ∃ it, s.iterators.get? i = some it ∧ it.family = id
  views : ∀ {i it v}, s.iterators.get? i = some it → v ∈ it.views →
    ∃ vw, s.views.get? v = some vw ∧ ShowsPart s it vw

theorem tracked_initial (files : Files) : Tracked (Store.initial files) where
  listed hf := absurd hf (by simp [Store.initial, Table.get?_empty])
  views hi := absurd hi (by simp [Store.initial, Table.get?_empty])

/-- What is lent in a generation is lent as long as the generation lasts. -/
theorem Lends.ages {r : Record} (hl : Lends s it r) (ha : Ages s s' it it')
    (hg : it'.generation = it.generation) : Lends s' it' r := by
  obtain ⟨hpos, h, c, k, v, kv, hh, hc, hrest⟩ := hl
  obtain ⟨hpos', hcur, hsame⟩ := ha.same hg hpos
  exact ⟨hpos', h, c, k, v, kv, hcur.trans hh, hsame h c hh hc, hrest⟩

namespace Tracked

theorem follows (ht : Tracked s) (hl : Later s s') (hf : Follows s s') : Tracked s' where
  listed {id f' i} hf' hi := by
    obtain ⟨f, hget, hm⟩ := hf.families hf' i hi
    obtain ⟨it, hit, hid⟩ := ht.listed hget hm
    obtain ⟨it', hit', -⟩ := hl.iterators hit
    obtain ⟨jt, hjt, hfam, -⟩ := hf.iterators hit'
    obtain rfl := Option.some.inj (hit.symm.trans hjt)
    exact ⟨it', hit', hfam.trans hid⟩
  views {i it' v} hi' hv := by
    obtain ⟨it, hi, -, hviews⟩ := hf.iterators hi'
    obtain ⟨hg, hm⟩ := hviews v hv
    obtain ⟨vw, hw, r, hlends, hx⟩ := ht.views hi hm
    obtain ⟨vw', hw', hextent, -⟩ := hl.views hw
    obtain ⟨jt, hjt, ha⟩ := hl.iterators hi
    obtain rfl := Option.some.inj (hi'.symm.trans hjt)
    refine ⟨vw', hw', r, hlends.ages ha hg, ?_⟩
    rw [hextent]
    exact hx

/-- A new view is one of the record that is lent. -/
theorem viewed (ht : Tracked s) (hs : Sound s) (hi : s.iterators.get? i = some it) {r : Record}
    (hlends : Lends s it r) {x : Engine.Extent} (hx : x = r.key ∨ x = r.value) :
    Tracked (Sound.viewed s i it (Run.freshView x)) where
  listed {id f j} hf hj := by
    obtain ⟨jt, hjt, hid⟩ := ht.listed hf hj
    by_cases hji : j = i
    · rw [hji, hi] at hjt
      obtain rfl := Option.some.inj hjt
      exact ⟨{ it with views := s.views.size :: it.views },
        by rw [Sound.viewed, hji]; exact Table.get?_set_self _ _ _, hid⟩
    · exact ⟨jt, (Table.get?_set_ne _ hji _).trans hjt, hid⟩
  views {j jt v} hj hv := by
    have hold : ∀ {k kt}, s.iterators.get? k = some kt → v ∈ kt.views →
        ∃ vw, (Sound.viewed s i it (Run.freshView x)).views.get? v = some vw ∧
          ShowsPart s kt vw := fun hk hm => by
      obtain ⟨vw, hw, hshows⟩ := ht.views hk hm
      exact ⟨vw, (Table.get?_set_ne _ (hs.linked.views.ne_size hw) _).trans hw, hshows⟩
    rcases Table.of_get?_set hj with ⟨-, rfl⟩ | ⟨-, hj⟩
    · rcases List.mem_cons.1 hv with rfl | hv
      · refine ⟨_, Table.get?_set_self _ _ _, r, hlends, ?_⟩
        rcases hx with rfl | rfl
        · exact .inl rfl
        · exact .inr rfl
      · obtain ⟨vw, hw, hshows⟩ := hold hi hv
        exact ⟨vw, hw, hshows⟩
    · exact hold hj hv

/-- A new iterator is listed by its family and has no views. -/
theorem begun (ht : Tracked s) (hs : Sound s) {id : FamilyId} {f : Family}
    (hf : s.families.get? id = some f) (fh : Engine.FamilyHandle) (c : Engine.Cursor)
    (log : List Event) : Tracked { Sound.begun s id f fh c with log := log } where
  listed {id' f' j} hf' hj := by
    have hold : ∀ {g}, s.families.get? id' = some g → j ∈ g.iterators →
        ∃ jt, (Sound.begun s id f fh c).iterators.get? j = some jt ∧ jt.family = id' := by
      intro g hg hm
      obtain ⟨jt, hjt, hid⟩ := ht.listed hg hm
      exact ⟨jt, (Table.get?_set_ne _ (hs.linked.iterators.ne_size hjt) _).trans hjt, hid⟩
    rcases Table.of_get?_set hf' with ⟨rfl, rfl⟩ | ⟨-, hf'⟩
    · rcases List.mem_append.1 hj with hj | hj
      · exact hold hf hj
      · rw [List.mem_singleton.1 hj]
        exact ⟨_, Table.get?_set_self _ _ _, rfl⟩
    · exact hold hf' hj
  views {j jt v} hj hv := by
    rcases Table.of_get?_set hj with ⟨-, rfl⟩ | ⟨-, hj⟩
    · exact absurd hv List.not_mem_nil
    · obtain ⟨vw, hw, r, ⟨hpos, g, d, k, w, kv, hg, hd, hrest⟩, hx⟩ := ht.views hj hv
      refine ⟨vw, hw, r, ⟨hpos, g, d, k, w, kv, hg, ?_, hrest⟩, hx⟩
      exact (Table.get?_set_ne _ (Nat.ne_of_lt (hs.linked.handles hd)) _).trans hd

theorem viewPart (ht : Tracked s) (hs : Sound s) {part : Record → Engine.Extent}
    (hpart : ∀ r, part r = r.key ∨ part r = r.value) (ρ : RecordId) :
    Tracked ((Run.viewPart part ρ).run s).2 := by
  rcases Run.viewPart_cases hs part ρ with ⟨failure, hrun⟩ | ⟨r, it, hr, hi, hg, hrun⟩
  · rw [hrun]
    exact ht
  · obtain ⟨jt, hj, -, hlends⟩ := hs.placed ρ r hr
    obtain rfl := Option.some.inj (hi.symm.trans hj)
    rw [hrun]
    exact ht.viewed hs hi (hlends hg.symm) (hpart r)

theorem range (ht : Tracked s) (hs : Sound s) (id : FamilyId) (start : Value) :
    Tracked ((Run.range id start).run s).2 := by
  rcases Run.openFamily_cases s id with ⟨failure, hrun⟩ | ⟨f, fh, hserves⟩
  · unfold Run.range
    rw [run_bind, hrun]
    exact ht
  · rw [Run.run_range hserves]
    cases f.startSpan start with
    | error failure => exact ht
    | ok span =>
      dsimp only
      rcases Engine.Run.iteratorInit_cases fh span s.engine with ⟨hno, hcursors⟩ | ⟨fam, -, hinit⟩
      · have hsame : ∀ log, Tracked { s with
            engine := ((Engine.Run.iteratorInit fh span).run s.engine).2, log := log } := fun log =>
          have hq : SameIterators [] s { s with
              engine := ((Engine.Run.iteratorInit fh span).run s.engine).2, log := log } :=
            ⟨hcursors, fun hn => ⟨hn, fun _ _ hg => hg⟩, rfl, rfl, rfl⟩
          ht.follows hq.later (Follows.of_same rfl rfl)
        unfold Run.begin
        rw [run_bind, Run.run_engine]
        cases hr : ((Engine.Run.iteratorInit fh span).run s.engine).1 with
        | error failure => exact hsame s.log
        | ok p =>
          obtain ⟨r, events⟩ := p
          cases r with
          | ok h => exact absurd hr (hno h events)
          | error status => exact hsame _
      · rw [Run.run_begin hserves hinit]
        exact ht.begun hs hserves.1 fh _ _

/-- Every operation keeps up what is kept track of. -/
theorem perform (ht : Tracked s) (hs : Sound s) (op : Operation) : Tracked (s.perform op).2 := by
  have hfollows : Within Follows op.run → Tracked (s.perform op).2 := fun hw =>
    ht.follows (perform_spec hs op).1.later (hw s)
  cases op with
  | changeFiles | failNext | failIterationAt | refuseResize => exact hfollows (Run.follows_tune _)
  | newDatabase => exact hfollows (Within.map Run.follows_newDatabase _)
  | start => exact hfollows (Within.map (Run.follows_start _ _ _ _) _)
  | connect => exact hfollows (Within.map (Run.follows_connect _ _ _) _)
  | register id =>
    have hhandles : Within (SameHandles []) (Run.register id) := Run.sameHandles_register id
    exact hfollows (Within.map (hhandles.mono fun _ _ h => h.follows) _)
  | deregister id =>
    have hhandles : Within (SameHandles []) (Run.deregister id) := Run.sameHandles_deregister id
    exact hfollows (Within.map (hhandles.mono fun _ _ h => h.follows) _)
  | createFamily => exact hfollows (Within.map (Run.follows_createFamily _ _ _) _)
  | closeDatabase => exact hfollows (Within.map (Run.follows_closeDatabase _) _)
  | point id call =>
    have hhandles : Within (SameHandles [.records]) (call.run id) :=
      Run.sameHandles_point (by simp) id call
    exact hfollows (hhandles.mono fun _ _ h => h.follows)
  | range id key =>
    have hrun : s.perform (.range id key) = _ := run_map _ _ s
    rw [hrun]
    exact ht.range hs id key
  | closeFamily => exact hfollows (Within.map (Run.follows_closeFamily _) _)
  | advance => exact hfollows (Within.map (Run.follows_advance _) _)
  | next => exact hfollows (Within.map (Run.follows_next _) _)
  | closeIterator => exact hfollows (Within.map (Run.follows_closeIterator _) _)
  | isValid id => exact hfollows (Within.map (Run.within_isValid id) _)
  | copy id => exact hfollows (Within.map (Run.within_copyRecord id) _)
  | viewKey id =>
    have hrun : s.perform (.viewKey id) = _ := run_map _ _ s
    rw [hrun]
    exact ht.viewPart hs (fun _ => .inl rfl) id
  | viewValue id =>
    have hrun : s.perform (.viewValue id) = _ := run_map _ _ s
    rw [hrun]
    exact ht.viewPart hs (fun _ => .inr rfl) id
  | readView id => exact hfollows (Within.map (Run.within_readView id) _)
  | releaseView => exact hfollows (Within.map (Run.follows_releaseView _) _)
  | holdView => exact hfollows (Within.map (Run.follows_holdView _) _)
  | unholdView => exact hfollows (Within.map (Run.follows_unholdView _) _)

end Tracked

theorem Reachable.tracked (hs : Reachable s) : Tracked s := by
  induction hs with
  | initial files => exact tracked_initial files
  | step op hs ih => exact ih.perform hs.sound op

end FamilyStore.Store
