import FamilyStore.Proofs.Iteration.Blocked
import FamilyStore.Proofs.Points.Refinement

/-!
How a family is closed.

The iterators of the family are closed first, one after the other, in any order. Where a view is
held, the iterator stays as it is and the attempt ends: some iterators have been closed completely
by then, the others are where they were, and the family goes on as before. When no view is held all
iterators are closed, and then the engine is told to delete the family.
-/

namespace FamilyStore.Store

variable {s t u : Store} {i : IteratorId} {it : Iterator} {h : Engine.Handle}
  {ids : List IteratorId} {closes closes' : List Engine.Handle}

/-! ## Closing iterators -/

/-- A closed iterator. -/
def Iterator.ended (it : Iterator) : Iterator :=
  { it with cursor := none, generation := it.generation + 1, positioned := false, views := [] }

/-- An iterator is where it was, and keeps track of no other views than it did. -/
def Stays (s t : Store) (closes : List Engine.Handle) (i : IteratorId) (it : Iterator) : Prop :=
  ∃ vs, vs <:+ it.views ∧ t.iterators.get? i = some { it with views := vs } ∧
    ∀ h, it.cursor = some h → h ∉ closes ∧ t.engine.cursors.get? h = s.engine.cursors.get? h

/-- An iterator has been closed, and its cursor was given back. -/
def Ends (t : Store) (closes : List Engine.Handle) (i : IteratorId) (it : Iterator) : Prop :=
  ∃ h, it.cursor = some h ∧ h ∈ closes ∧ t.iterators.get? i = some it.ended

/-- Some of the iterators with given numbers have been closed, and their cursors were given back.
Nothing else has happened but that some views are released. -/
structure Closes (ids : List IteratorId) (s t : Store) (closes : List Engine.Handle) : Prop where
  databases : t.databases = s.databases
  families : t.families = s.families
  records : t.records = s.records
  engine : ∃ cursors memory, t.engine = { s.engine with
    calls := closes.map deinit ++ s.engine.calls, cursors := cursors, memory := memory }
  held : ∀ i, t.isHeld i = s.isHeld i
  iterators : ∀ {i it}, s.iterators.get? i = some it → Stays s t closes i it ∨ Ends t closes i it
  older : ∀ {i it}, t.iterators.get? i = some it → ∃ it, s.iterators.get? i = some it
  closed : ∀ h ∈ closes, ∃ i ∈ ids, ∃ it, s.iterators.get? i = some it ∧ it.cursor = some h

namespace Closes

theorem refl (ids : List IteratorId) (s : Store) : Closes ids s s [] where
  databases := rfl
  families := rfl
  records := rfl
  engine := ⟨s.engine.cursors, s.engine.memory, rfl⟩
  held _ := rfl
  iterators {_ it} hi := .inl ⟨it.views, List.suffix_refl _, hi, fun _ _ => ⟨by simp, rfl⟩⟩
  older hi := ⟨_, hi⟩
  closed _ hm := absurd hm List.not_mem_nil

theorem trans (hc : Closes ids s t closes) (hc' : Closes ids t u closes') :
    Closes ids s u (closes' ++ closes) where
  databases := hc'.databases.trans hc.databases
  families := hc'.families.trans hc.families
  records := hc'.records.trans hc.records
  engine := by
    obtain ⟨cursors, memory, he⟩ := hc.engine
    obtain ⟨cursors', memory', he'⟩ := hc'.engine
    refine ⟨cursors', memory', ?_⟩
    rw [he', he, List.map_append, List.append_assoc]
  held i := (hc'.held i).trans (hc.held i)
  iterators {i it} hi := by
    rcases hc.iterators hi with ⟨vs, hvs, hit, hcursor⟩ | ⟨h, hh, hm, hit⟩
    · rcases hc'.iterators hit with ⟨vs', hvs', hit', hcursor'⟩ | ⟨h, hh, hm, hit'⟩
      · refine .inl ⟨vs', hvs'.trans hvs, hit', fun h hh => ?_⟩
        obtain ⟨hn, hsame⟩ := hcursor h hh
        obtain ⟨hn', hsame'⟩ := hcursor' h hh
        exact ⟨by simp [hn, hn'], hsame'.trans hsame⟩
      · exact .inr ⟨h, hh, List.mem_append_left _ hm, hit'⟩
    · refine .inr ⟨h, hh, List.mem_append_right _ hm, ?_⟩
      rcases hc'.iterators hit with ⟨vs', hvs', hit', -⟩ | ⟨h', hh', -⟩
      · rw [hit', List.suffix_nil.1 hvs']
        rfl
      · exact absurd hh' (by simp [Iterator.ended])
  older hi := by
    obtain ⟨it', hi'⟩ := hc'.older hi
    exact hc.older hi'
  closed h hm := by
    rcases List.mem_append.1 hm with hm | hm
    · obtain ⟨i, hid, it', hi', hh'⟩ := hc'.closed h hm
      obtain ⟨it, hi⟩ := hc.older hi'
      rcases hc.iterators hi with ⟨vs, -, hit, -⟩ | ⟨g, -, -, hit⟩
      · obtain rfl := Option.some.inj (hi'.symm.trans hit)
        exact ⟨i, hid, it, hi, hh'⟩
      · obtain rfl := Option.some.inj (hi'.symm.trans hit)
        exact absurd hh' (by simp [Iterator.ended])
    · exact hc.closed h hm

theorem calls (hc : Closes ids s t closes) :
    t.engine.calls = closes.map deinit ++ s.engine.calls := by
  obtain ⟨cursors, memory, he⟩ := hc.engine
  rw [he]

theorem engineFamilies (hc : Closes ids s t closes) :
    t.engine.families = s.engine.families := by
  obtain ⟨cursors, memory, he⟩ := hc.engine
  rw [he]

theorem newer (hc : Closes ids s t closes) (hi : s.iterators.get? i = some it) :
    ∃ it', t.iterators.get? i = some it' := by
  rcases hc.iterators hi with ⟨vs, -, hit, -⟩ | ⟨h, -, -, hit⟩
  · exact ⟨_, hit⟩
  · exact ⟨_, hit⟩

/-- What stays has its course. -/
theorem course?_of_stays (hst : Stays s t closes i it) (hi : s.iterators.get? i = some it) :
    t.course? i = s.course? i := by
  obtain ⟨vs, -, hit, hcursor⟩ := hst
  unfold course?
  rw [hi, hit, Option.bind_some, Option.bind_some]
  cases hh : it.cursor with
  | none => rfl
  | some h =>
    rw [Option.bind_some, Option.bind_some, (hcursor h hh).2]
    rfl

theorem isOpen_of_stays (hst : Stays s t closes i it) : t.isOpen i = !it.isClosed := by
  obtain ⟨vs, -, hit, -⟩ := hst
  unfold isOpen
  rw [hit]
  rfl

theorem isOpen_of_ends (he : Ends t closes i it) : t.isOpen i = false := by
  obtain ⟨h, -, -, hit⟩ := he
  unfold isOpen
  rw [hit]
  rfl

/-- A closed iterator stays closed. -/
theorem isOpen_eq_false (hc : Closes ids s t closes) (hi : s.iterators.get? i = some it)
    (ho : s.isOpen i = false) : t.isOpen i = false := by
  rcases hc.iterators hi with hst | he
  · rw [isOpen_of_stays hst]
    rw [isOpen, hi] at ho
    exact ho
  · exact isOpen_of_ends he

end Closes

theorem isHeld_congr (hi : t.iterators.get? i = s.iterators.get? i)
    (hx : ∀ v, t.isExported v = s.isExported v) : t.isHeld i = s.isHeld i := by
  unfold isHeld
  rw [hi, funext hx]

theorem isHeld_of_no_views (hi : s.iterators.get? i = some it) (hv : it.views = []) :
    s.isHeld i = false := by
  unfold isHeld
  rw [hi, Option.any_some, hv]
  rfl

/-- To release what is not held leaves every iterator where it is. -/
theorem closes_loosened (hs : Reachable s) (hi : s.iterators.get? i = some it)
    (hh : it.cursor = some h) : Closes ids s (s.loosened i it) [] := by
  have hnow := Run.iterators_loosened s i it
  have ht : Tracked (s.loosened i it) :=
    hs.tracked.follows (hs.sound.loosened hi hh).later (Follows.loosened hi)
  have hother : ∀ {j}, j ≠ i → (s.loosened i it).iterators.get? j = s.iterators.get? j :=
    fun hj => Table.get?_set_ne _ hj _
  refine ⟨rfl, rfl, rfl, ⟨_, _, rfl⟩, fun j => ?_, fun {j jt} hj => .inl ?_, fun {j jt} hj => ?_,
    fun _ hm => absurd hm List.not_mem_nil⟩
  · by_cases hji : j = i
    · rw [hji, ht.isHeld hnow, hs.tracked.isHeld hi]
      have hsame : (s.loosened i it).isStuck { it with views := s.fast it.views } =
          (s.fast it.views).any s.holdsUp := by
        unfold isStuck
        rw [funext (holdsUp_loosened s i it)]
      rw [hsame]
      cases hstuck : s.isStuck it with
      | true => exact any_fast_of_stuck hstuck
      | false => rw [fast_of_not_stuck hstuck, List.any_nil]
    · exact isHeld_congr (hother hji) (isExported_loosened s i it)
  · by_cases hji : j = i
    · subst hji
      obtain rfl := Option.some.inj (hi.symm.trans hj)
      exact ⟨_, List.dropWhile_suffix _, hnow, fun _ _ => ⟨by simp, rfl⟩⟩
    · exact ⟨jt.views, List.suffix_refl _, (hother hji).trans hj, fun _ _ => ⟨by simp, rfl⟩⟩
  · by_cases hji : j = i
    · exact ⟨it, by rw [hji]; exact hi⟩
    · exact ⟨jt, (hother hji).symm.trans hj⟩

/-- To close an iterator without views leaves all other iterators where they are. -/
theorem closes_shut (hl : Linked s) (hi : s.iterators.get? i = some it) (hh : it.cursor = some h)
    (hv : it.views = []) (hm : i ∈ ids) (c : Engine.Cursor) :
    Closes ids s (Sound.shut s i it h c) [h] := by
  have hended : (Sound.shut s i it h c).iterators.get? i = some it.ended := by
    rw [Iterator.ended, ← hv]
    exact Table.get?_set_self _ _ _
  have hother : ∀ {j}, j ≠ i → (Sound.shut s i it h c).iterators.get? j = s.iterators.get? j :=
    fun hj => Table.get?_set_ne _ hj _
  refine ⟨rfl, rfl, rfl, ⟨_, _, rfl⟩, fun j => ?_, fun {j jt} hj => ?_, fun {j jt} hj => ?_,
    fun g hg => ⟨i, hm, it, hi, ?_⟩⟩
  · by_cases hji : j = i
    · rw [hji, isHeld_of_no_views hended rfl, isHeld_of_no_views hi hv]
    · exact isHeld_congr (hother hji) fun _ => rfl
  · by_cases hji : j = i
    · subst hji
      obtain rfl := Option.some.inj (hi.symm.trans hj)
      exact .inr ⟨h, hh, List.mem_singleton_self h, hended⟩
    · refine .inl ⟨jt.views, List.suffix_refl _, (hother hji).trans hj, fun g hg => ?_⟩
      have hne : g ≠ h := by
        rintro rfl
        exact hji (hl.apart hj hi hg hh)
      refine ⟨by simpa using hne, ?_⟩
      rw [Sound.shut, Engine.withoutCursor, Table.get?_erase, if_neg hne]
  · by_cases hji : j = i
    · exact ⟨it, by rw [hji]; exact hi⟩
    · exact ⟨jt, (hother hji).symm.trans hj⟩
  · rw [List.mem_singleton.1 hg]
    exact hh

/-- To close one iterator closes it completely, or is held up and leaves it where it is. -/
theorem closes_closeIterator (hs : Reachable s) (hi : s.iterators.get? i = some it)
    (hm : i ∈ ids) : ∃ t closes,
    (Run.closeIterator i).run s = (if s.isHeld i then .error heldUp else .ok (), t) ∧
      Reachable t ∧ Closes ids s t closes ∧ (s.isHeld i = false → t.isOpen i = false) := by
  cases hh : it.cursor with
  | none =>
    have hfree := isHeld_of_no_views hi (hs.sound.linked.closed hi hh)
    refine ⟨s, [], ?_, hs, .refl ids s, fun _ => ?_⟩
    · rw [hfree]
      exact Run.run_closeIterator_of_closed hi hh
    · unfold isOpen
      rw [hi, Option.any_some, Iterator.isClosed, hh]
      rfl
  | some h =>
    obtain ⟨c, hc, -, -⟩ := hs.sound.exists_cursor hi hh
    have hrun := Run.run_closeIterator hi hh hc
    rw [← hs.tracked.isHeld hi] at hrun
    have hstep : ∀ {r t}, (Run.closeIterator i).run s = (r, t) → Reachable t :=
      hs.of_run (.closeIterator i) (f := fun _ => .done) rfl
    cases hheld : s.isHeld i with
    | true =>
      rw [hheld, if_pos rfl] at hrun
      refine ⟨_, [], hrun, hstep hrun, closes_loosened hs hi hh, fun hno => ?_⟩
      exact absurd hno (Ne.symm Bool.false_ne_true)
    | false =>
      rw [hheld, if_neg Bool.false_ne_true] at hrun
      have hstuck := (hs.tracked.isHeld hi).symm.trans hheld
      have hnow := Run.iterators_loosened s i it
      rw [fast_of_not_stuck hstuck] at hnow
      have hlinked := (hs.sound.loosened hi hh).sound.linked
      have hshut := closes_shut hlinked hnow hh rfl hm c
      refine ⟨_, _, hrun, hstep hrun, (closes_loosened hs hi hh).trans hshut, fun _ => ?_⟩
      unfold isOpen Sound.shut
      rw [Table.get?_set_self]
      rfl

/-- To close iterators one after the other is held up by the first that keeps track of a view that
is held. -/
theorem closes_closeIterators (order : List IteratorId) : ∀ {s : Store}, Reachable s →
    (∀ i ∈ order, i ∈ ids ∧ ∃ it, s.iterators.get? i = some it) → ∃ t closes,
    (order.forM Run.closeIterator).run s =
        (if order.any s.isHeld then .error heldUp else .ok ⟨⟩, t) ∧
      Reachable t ∧ Closes ids s t closes ∧
      (order.any s.isHeld = false → ∀ i ∈ order, t.isOpen i = false) := by
  induction order with
  | nil =>
    intro s hs _
    exact ⟨s, [], rfl, hs, .refl ids s, fun _ i hm => absurd hm List.not_mem_nil⟩
  | cons i order ih =>
    intro s hs hall
    obtain ⟨hm, it, hi⟩ := hall i List.mem_cons_self
    obtain ⟨t, closes, hrun, ht, hc, hshut⟩ := closes_closeIterator hs hi hm
    have hforM : (i :: order).forM Run.closeIterator =
        (Run.closeIterator i >>= fun _ => order.forM Run.closeIterator) := rfl
    rw [hforM, run_bind, hrun, List.any_cons]
    cases hheld : s.isHeld i with
    | true =>
      refine ⟨t, closes, rfl, ht, hc, fun hno => ?_⟩
      exact absurd hno (by simp)
    | false =>
      have hthere : ∀ j ∈ order, j ∈ ids ∧ ∃ jt, t.iterators.get? j = some jt := by
        intro j hj
        obtain ⟨hjm, jt, hjt⟩ := hall j (List.mem_cons_of_mem _ hj)
        exact ⟨hjm, hc.newer hjt⟩
      obtain ⟨u, closes', hrun', hu, hc', hshut'⟩ := ih ht hthere
      rw [funext hc.held] at hrun' hshut'
      refine ⟨u, _, hrun', hu, hc.trans hc', fun hfree j hj => ?_⟩
      rcases List.mem_cons.1 hj with rfl | hj
      · obtain ⟨it', hit⟩ := hc.newer hi
        exact hc'.isOpen_eq_false hit (hshut hheld)
      · exact hshut' hfree j hj

/-- No cursor has been given back twice, so what is given back now is given back for the first time,
and once. -/
theorem nodup_of_calls (ht : Reachable t)
    (hcalls : t.engine.calls = closes.map deinit ++ s.engine.calls) :
    closes.Nodup ∧ ∀ h ∈ closes, deinit h ∉ s.engine.calls := by
  have hinj : Function.Injective deinit := fun g h heq => by
    have hsubject := congrArg Engine.Call.subject heq
    exact Engine.Subject.handle.inj hsubject
  have hcount : ∀ h, closes.count h + s.engine.calls.count (deinit h) ≤ 1 := by
    intro h
    have hle := ht.cursorsBalanced.count_deinit h
    rwa [hcalls, List.count_append, List.count_map_of_injective _ _ hinj] at hle
  refine ⟨List.nodup_iff_count_le_one.2 fun h => ?_, fun h hm hold => ?_⟩
  · have := hcount h
    omega
  · have := hcount h
    have := List.count_pos_iff.2 hm
    have := List.count_pos_iff.2 hold
    omega

/-! ## The end of a family handle -/

namespace Run

/-- Ends a family handle whose iterators have been closed. -/
def endFamily (id : FamilyId) (handle : Engine.FamilyHandle) : Run Unit := do
  let f ← family id
  setFamily id { f with handle := none }
  engine (Engine.Run.familyDelete handle)
  note [.familyClosed f.config.typeName]

/-- Closes a family handle, its iterators first, in some order. -/
def closeFamilyIn (id : FamilyId) (order : List IteratorId) : Run Unit := do
  let f ← family id
  match f.handle with
  | none => return ()
  | some handle =>
    order.forM closeIterator
    endFamily id handle

/-- A family is closed in the order in which it keeps track of its iterators. -/
theorem closeFamily_eq {id : FamilyId} {f : Family} (hf : s.families.get? id = some f) :
    (closeFamily id).run s = (closeFamilyIn id f.iterators).run s := by
  unfold closeFamily closeFamilyIn
  rw [run_bind, run_bind, run_storeFamily hf]
  rfl

theorem run_closeIterators_of_closed {order : List IteratorId}
    (hall : ∀ i ∈ order, ∃ it, s.iterators.get? i = some it ∧ it.cursor = none) :
    (order.forM closeIterator).run s = (.ok ⟨⟩, s) := by
  induction order with
  | nil => rfl
  | cons i order ih =>
    obtain ⟨it, hi, hn⟩ := hall i List.mem_cons_self
    have hforM : (i :: order).forM closeIterator =
        (closeIterator i >>= fun _ => order.forM closeIterator) := rfl
    rw [hforM, run_bind, run_closeIterator_of_closed hi hn]
    exact ih fun j hj => hall j (List.mem_cons_of_mem _ hj)

end Run

/-- The store when a family handle has been ended. -/
def familyEnded (s : Store) (id : FamilyId) (f : Family) (fh : Engine.FamilyHandle)
    (fam : Engine.Family) : Store :=
  { s with
    engine := s.engine.deleted fh fam
    families := s.families.set id { f with handle := none }
    log := .familyClosed f.config.typeName :: s.log }

theorem run_endFamily {id : FamilyId} {f : Family} {fh : Engine.FamilyHandle}
    {fam : Engine.Family} (hf : s.families.get? id = some f)
    (hfam : s.engine.families.get? fh = some fam) (hdel : fam.deleted = false) :
    (Run.endFamily id fh).run s = (.ok (), s.familyEnded id f fh fam) := by
  unfold Run.endFamily Run.setFamily
  rw [run_bind, Run.run_storeFamily hf]
  dsimp only
  rw [run_bind, run_modify]
  dsimp only
  rw [run_bind, Run.run_engine, Engine.Run.run_familyDelete (by exact hfam) hdel]
  rfl

/-! ## What is left of iterators -/

/-- Nothing is left of an iterator that was closed: its cursor was given back, and its records and
views can no longer be read. -/
structure Finished (history : List Transition) (t : Store) (closes : List Engine.Handle)
    (i : IteratorId) (it : Iterator) : Prop where
  isClosed : t.isOpen i = false
  cursor : ∀ h, it.cursor = some h → h ∈ closes
  records : ∀ ρ r, t.records.get? ρ = some r → r.iterator = i → Refuses t ρ
  views : ∀ w ∈ history, ∀ v, w.handsOut i v → t.isReleased v = true

/-- An iterator is still open, at the same position, and its record can be read as before. -/
structure Untouched (s t : Store) (closes : List Engine.Handle) (i : IteratorId) (it : Iterator) :
    Prop where
  isOpen : t.isOpen i = true
  cursor : ∀ h, it.cursor = some h → h ∉ closes
  course : t.course? i = s.course? i
  records : ∀ ρ r kv, s.records.get? ρ = some r → r.iterator = i → Reads s ρ kv → Reads t ρ kv

theorem cursor_of_isOpen_eq_false (hi : t.iterators.get? i = some it) (ho : t.isOpen i = false) :
    it.cursor = none := by
  rw [isOpen, hi, Option.any_some, Iterator.isClosed] at ho
  cases hh : it.cursor with
  | none => rfl
  | some h =>
    rw [hh] at ho
    exact absurd ho (by simp)

theorem finished_of_closed {s₀ : Store} (hs : Sound s₀) {ops : List Operation}
    (hmove : Move (s₀.after ops) t) (ho : t.isOpen i = false)
    (hcursor : ∀ h, it.cursor = some h → h ∈ closes) :
    Finished (s₀.trace ops) t closes i it where
  isClosed := ho
  cursor := hcursor
  records ρ r hr hri := by
    refine refuses_of_not_lent hmove.sound hr fun jt hj hlends => ?_
    rw [hri] at hj
    obtain ⟨-, h, -, -, -, -, hh, -⟩ := hlends
    rw [cursor_of_isOpen_eq_false hj ho] at hh
    exact absurd hh (by simp)
  views w hw v hout := by
    obtain ⟨vw, hvw, hlisted⟩ := mem_views_of_handsOut hs hw hout hmove.later
    refine (Option.any_eq_true _ _).2 ⟨vw, hvw, ?_⟩
    cases hn : vw.released with
    | true => rfl
    | false =>
      obtain ⟨jt, hj, hm⟩ := hlisted hn
      rw [hmove.sound.linked.closed hj (cursor_of_isOpen_eq_false hj ho)] at hm
      exact absurd hm List.not_mem_nil

/-- The cursor of an iterator that is closed has been given back. -/
theorem Closes.cursor (hc : Closes ids s t closes) (hi : s.iterators.get? i = some it)
    (ho : t.isOpen i = false) (hh : it.cursor = some h) : h ∈ closes := by
  rcases hc.iterators hi with hst | ⟨g, hg, hm, -⟩
  · rw [Closes.isOpen_of_stays hst, Iterator.isClosed, hh] at ho
    exact absurd ho (by simp)
  · obtain rfl := Option.some.inj (hh.symm.trans hg)
    exact hm

theorem Closes.untouched (hs : Sound s) (ht : Sound t) (hc : Closes ids s t closes)
    (hi : s.iterators.get? i = some it) (ho : t.isOpen i = true) :
    Untouched s t closes i it := by
  rcases hc.iterators hi with hst | he
  · have hcourse := Closes.course?_of_stays hst hi
    refine ⟨ho, ?_, hcourse, fun ρ r kv hr hri hreads => ?_⟩
    · obtain ⟨vs, -, -, hcursor⟩ := hst
      exact fun h hh => (hcursor h hh).1
    · obtain ⟨j, r', jt, κ, hr', hrj, hj, hg, hκ, hκg, hp, hkv⟩ := hreads.holds hs
      obtain rfl := Option.some.inj (hr.symm.trans hr')
      obtain rfl := hri.symm.trans hrj
      obtain rfl := Option.some.inj (hi.symm.trans hj)
      obtain ⟨vs, -, hit, -⟩ := hst
      have hholds : Holds t ρ i kv :=
        ⟨r, _, κ, by rw [hc.records]; exact hr, hri, hit, hg, hcourse.trans hκ, hκg, hp, hkv⟩
      exact hholds.reads ht
  · rw [Closes.isOpen_of_ends he] at ho
    exact absurd ho Bool.false_ne_true

/-! ## Closing a family -/

/-- An order in which a family may be closed: it has all iterators of the family that are open, and
no others than those that the family keeps track of. -/
structure Lists (s : Store) (f : Family) (order : List IteratorId) : Prop where
  own : ∀ i ∈ order, i ∈ f.iterators
  all : ∀ i ∈ f.iterators, s.isOpen i = true → i ∈ order

/-- A family takes calls, and replies what its map says. -/
structure Usable (s : Store) (id : FamilyId) (f : Family) (content : Content) : Prop where
  points : ∀ call : PointCall, call.fits f.config.maxKeySize = true →
    (s.perform (.point id call)).1 = (call.onMap f.config.funcs content).1
  ranges : ∀ start span, f.startSpan start = .ok span → ∃ j, ((Run.range id start).run s).1 = .ok j

theorem usable_of_serves (hs : Reachable s) (hu : Engine.Undisturbed s.engine) {id : FamilyId}
    {f : Family} {fh : Engine.FamilyHandle} (hserves : Serves s id f fh)
    (hlimit : f.config.maxKeySize < 2 ^ 64) : Usable s id f (s.content id) := by
  have hconfig : s.config? id = some f.config := config?_of_get? hserves.1
  have hopen : s.isOpenFamily id = true := by
    obtain ⟨hf, hh, d, hd, ho⟩ := hserves
    unfold isOpenFamily
    rw [hf, Option.any_some, Family.isClosed, hh, hd, Option.any_some, ho]
    rfl
  have horderly : Orderly s {id} := by
    refine ⟨hs.founded, hu, ?_, ?_, ?_⟩
    · rintro j rfl
      exact hopen
    · rintro j rfl config hc
      obtain rfl := Option.some.inj (hconfig.symm.trans hc)
      exact hlimit
    · rintro j rfl j' rfl -
      rfl
  refine ⟨fun call hfits => ?_, fun start span hspan => ?_⟩
  · obtain ⟨-, config, hc, hreply⟩ := horderly.point_refines rfl call
    obtain rfl := Option.some.inj (hconfig.symm.trans hc)
    exact hreply hfits
  · obtain ⟨fam, hfam, -, -⟩ := hs.founded.exists_inUse hserves
    have hinit := Engine.Run.run_iteratorInit hfam (hu.pendingStatus .iteratorInit) span
    refine ⟨s.iterators.size, ?_⟩
    rw [Run.run_range hserves, hspan]
    dsimp only
    rw [Run.run_begin hserves hinit]

/-- The end of a family handle once its iterators are closed. -/
theorem run_closeFamilyIn {id : FamilyId} {f : Family} {fh : Engine.FamilyHandle}
    {fam : Engine.Family} (hf : s.families.get? id = some f) (hh : f.handle = some fh)
    (hfam : s.engine.families.get? fh = some fam) (hdel : fam.deleted = false)
    {order : List IteratorId} {held : Bool} (hrun : (order.forM Run.closeIterator).run s =
      (if held then .error heldUp else .ok ⟨⟩, t)) (hc : Closes ids s t closes) :
    (Run.closeFamilyIn id order).run s =
      if held then (.error heldUp, t) else (.ok (), t.familyEnded id f fh fam) := by
  unfold Run.closeFamilyIn
  rw [run_bind, Run.run_storeFamily hf]
  dsimp only
  rw [hh]
  dsimp only
  rw [run_bind, hrun]
  cases held with
  | true => rfl
  | false =>
    exact run_endFamily (by rw [hc.families]; exact hf)
      (by rw [hc.engineFamilies]; exact hfam) hdel

/-- Every iterator of a family is closed when those of an order have been. -/
theorem isOpen_of_lists (hs : Reachable s) {id : FamilyId} {f : Family}
    (hf : s.families.get? id = some f) {order : List IteratorId} (ho : Lists s f order)
    (hc : Closes ids s t closes) (hshut : ∀ i ∈ order, t.isOpen i = false)
    (hi : s.iterators.get? i = some it) (hfam : it.family = id) : t.isOpen i = false := by
  cases hopen : s.isOpen i with
  | false => exact hc.isOpen_eq_false hi hopen
  | true =>
    have hclosed : it.isClosed = false := by
      rw [isOpen, hi, Option.any_some] at hopen
      simpa using hopen
    obtain ⟨g, hg, -, hm⟩ := hs.sound.linked.listed hi hclosed
    rw [hfam] at hg
    obtain rfl := Option.some.inj (hf.symm.trans hg)
    exact hshut i (ho.all i hm hopen)

/-- A family has been closed: all its iterators first, and their cursors were given back, and then
the engine was told to delete the family. -/
structure ClosedAll (s t : Store) (id : FamilyId) (f : Family) (fh : Engine.FamilyHandle)
    (closes : List Engine.Handle) : Prop where
  family : t.families.get? id = some { f with handle := none }
  iterators : ∀ i it, s.iterators.get? i = some it → it.family = id → t.isOpen i = false
  cursors : ∀ h, h ∈ closes ↔
    ∃ i it, s.iterators.get? i = some it ∧ it.family = id ∧ it.cursor = some h
  calls : t.engine.calls = ⟨.familyDelete, .family fh⟩ :: (closes.map deinit ++ s.engine.calls)
  first : ⟨.familyDelete, .family fh⟩ ∉ s.engine.calls

/-- A family could not be closed: a view of one of its iterators is held. The family is as it was,
and can be closed when no view is held any more. -/
structure HeldOpen (s t : Store) (id : FamilyId) (f : Family) (order : List IteratorId)
    (closes : List Engine.Handle) : Prop where
  held : ∃ i ∈ order, t.isHeld i = true
  calls : t.engine.calls = closes.map deinit ++ s.engine.calls
  families : t.families = s.families
  databases : t.databases = s.databases
  usable : Engine.Undisturbed s.engine → s.isOpenFamily id = true → f.config.maxKeySize < 2 ^ 64 →
    Usable t id f (s.content id)
  iterators : ∀ i it, s.iterators.get? i = some it → it.family = id → t.isOpen i = true →
    Untouched s t closes i it
  again : ∀ later g order', (t.after later).families.get? id = some g →
    Lists (t.after later) g order' → order'.any (t.after later).isHeld = false →
    ((Run.closeFamilyIn id order').run (t.after later)).1 = .ok ()

/-- What closing a family comes to, before and after the engine is told to delete it. -/
theorem exists_closes (hs : Reachable s) {id : FamilyId} {f : Family} {fh : Engine.FamilyHandle}
    (hf : s.families.get? id = some f) (hh : f.handle = some fh) {order : List IteratorId}
    (ho : Lists s f order) : ∃ t closes fam, Reachable t ∧ Move s t ∧
      Closes f.iterators s t closes ∧ s.engine.families.get? fh = some fam ∧ fam.deleted = false ∧
      (Run.closeFamilyIn id order).run s = (if order.any s.isHeld then (.error heldUp, t)
        else (.ok (), t.familyEnded id f fh fam)) ∧
      (order.any s.isHeld = false → ∀ i ∈ order, t.isOpen i = false) := by
  have hall : ∀ i ∈ order, i ∈ f.iterators ∧ ∃ it, s.iterators.get? i = some it := by
    intro i hi
    obtain ⟨it, hit, -⟩ := hs.tracked.listed hf (ho.own i hi)
    exact ⟨ho.own i hi, it, hit⟩
  obtain ⟨t, closes, hrun, ht, hc, hshut⟩ := closes_closeIterators order hs hall
  obtain ⟨r, t', hrun', hmove, -⟩ := Run.closeIterators_spec order hs.sound
  obtain ⟨-, rfl⟩ := Prod.mk.inj (hrun.symm.trans hrun')
  obtain ⟨⟨fam, hfam, hdel, -⟩, -⟩ := hs.founded.stands hf hh
  have hclose := run_closeFamilyIn hf hh hfam hdel hrun hc
  exact ⟨t, closes, fam, ht, hmove, hc, hfam, hdel, hclose, hshut⟩

/-- Closing a family succeeds when no view is held, in whatever order. -/
theorem closeFamilyIn_of_free (hs : Reachable s) {id : FamilyId} {f : Family}
    (hf : s.families.get? id = some f) {order : List IteratorId} (ho : Lists s f order)
    (hfree : order.any s.isHeld = false) :
    ((Run.closeFamilyIn id order).run s).1 = .ok () := by
  cases hh : f.handle with
  | none =>
    unfold Run.closeFamilyIn
    rw [run_bind, Run.run_storeFamily hf]
    dsimp only
    rw [hh]
    rfl
  | some fh =>
    obtain ⟨t, closes, fam, -, -, -, -, -, hrun, -⟩ := exists_closes hs hf hh ho
    rw [hrun, hfree, if_neg Bool.false_ne_true]

/-- The store after the end of a family handle is one that operations lead to. -/
theorem reachable_familyEnded (ht : Reachable t) {id : FamilyId} {f : Family}
    {fh : Engine.FamilyHandle} {fam : Engine.Family} (hf : t.families.get? id = some f)
    (hh : f.handle = some fh) (hfam : t.engine.families.get? fh = some fam)
    (hdel : fam.deleted = false) (hshut : ∀ i ∈ f.iterators, t.isOpen i = false) :
    Reachable (t.familyEnded id f fh fam) ∧ Move t (t.familyEnded id f fh fam) := by
  have hclosed : ∀ i ∈ f.iterators, ∃ it, t.iterators.get? i = some it ∧ it.cursor = none := by
    intro i hi
    obtain ⟨it, hit, -⟩ := ht.tracked.listed hf hi
    exact ⟨it, hit, cursor_of_isOpen_eq_false hit (hshut i hi)⟩
  have hnone : (f.iterators.forM Run.closeIterator).run t =
      (if false then .error heldUp else .ok ⟨⟩, t) := Run.run_closeIterators_of_closed hclosed
  have hrun : (Run.closeFamily id).run t = (.ok (), t.familyEnded id f fh fam) := by
    rw [Run.closeFamily_eq hf]
    exact run_closeFamilyIn hf hh hfam hdel hnone (.refl [] t)
  have hperform : t.perform (.closeFamily id) = _ := perform_eq (f := fun _ => .done) rfl hrun
  have hstep := ht.step (.closeFamily id)
  have hmove := (perform_spec ht.sound (.closeFamily id)).1
  rw [hperform] at hstep hmove
  exact ⟨hstep, hmove⟩

/-- The engine is told once at the most to delete a family, and not before its handle is ended. -/
theorem familyDelete_not_mem (hs : Reachable s) {fh : Engine.FamilyHandle} {fam : Engine.Family}
    (hfam : s.engine.families.get? fh = some fam) (hdel : fam.deleted = false) :
    ⟨.familyDelete, .family fh⟩ ∉ s.engine.calls := by
  intro hm
  obtain ⟨n, hb⟩ := hs.balanced
  obtain ⟨fh', fam', hx, hfam', hdel'⟩ := hb.families.gone _ (mem_subjects_of_mem_calls hm)
  obtain rfl := Engine.Subject.family.inj hx
  obtain rfl := Option.some.inj (hfam.symm.trans hfam')
  exact absurd (hdel.symm.trans hdel') Bool.false_ne_true

theorem content_of_closes {id : FamilyId} (hc : Closes ids s t closes) :
    t.content id = s.content id := by
  obtain ⟨cursors, memory, he⟩ := hc.engine
  unfold content stored engineFamily?
  rw [hc.families, he]
  rfl

/-- An attempt to close a family that is held up leaves it open, usable, and ready to be closed. -/
theorem heldOpen_of_closes (hs : Reachable s) (ht : Reachable t) {id : FamilyId} {f : Family}
    (hf : s.families.get? id = some f) {order : List IteratorId}
    (hheld : order.any s.isHeld = true) (hc : Closes ids s t closes) :
    HeldOpen s t id f order closes where
  held := by
    obtain ⟨i, hi, hx⟩ := List.any_eq_true.1 hheld
    exact ⟨i, hi, (hc.held i).trans hx⟩
  calls := hc.calls
  families := hc.families
  databases := hc.databases
  usable hu hopen hlimit := by
    obtain ⟨f', fh', hserves⟩ := exists_serves hopen
    obtain rfl := Option.some.inj (hf.symm.trans hserves.1)
    have hserves' : Serves t id f fh' := by
      unfold Serves
      rw [hc.families, hc.databases]
      exact hserves
    have hu' : Engine.Undisturbed t.engine := by
      obtain ⟨cursors, memory, he⟩ := hc.engine
      rw [he]
      exact ⟨hu.pending, hu.resize⟩
    rw [← content_of_closes hc]
    exact usable_of_serves ht hu' hserves' hlimit
  iterators i it hi _ ho := hc.untouched hs.sound ht.sound hi ho
  again later g order' hg hlists hfree :=
    closeFamilyIn_of_free (ht.after later) hg hlists hfree

/-- A family whose iterators could all be closed is closed. -/
theorem closedAll_of_closes (hs : Reachable s) {id : FamilyId} {f : Family}
    {fh : Engine.FamilyHandle} {fam : Engine.Family} (hf : s.families.get? id = some f)
    (hfam : s.engine.families.get? fh = some fam) (hdel : fam.deleted = false)
    (hc : Closes f.iterators s t closes)
    (hshut : ∀ i it, s.iterators.get? i = some it → it.family = id → t.isOpen i = false) :
    ClosedAll s (t.familyEnded id f fh fam) id f fh closes where
  family := Table.get?_set_self _ _ _
  iterators := hshut
  cursors h := by
    refine ⟨fun hm => ?_, fun ⟨i, it, hi, hid, hh⟩ => hc.cursor hi (hshut i it hi hid) hh⟩
    obtain ⟨i, hi, it, hit, hh⟩ := hc.closed h hm
    obtain ⟨jt, hjt, hid⟩ := hs.tracked.listed hf hi
    obtain rfl := Option.some.inj (hit.symm.trans hjt)
    exact ⟨i, it, hit, hid, hh⟩
  calls := congrArg (List.cons _) hc.calls
  first := familyDelete_not_mem hs hfam hdel

/-- A family is closed altogether, or can be closed later. Closing it, in whatever order, fails only
because a view of one of its iterators is held. If none is, all iterators are closed, their records
are stale, their views are released and their cursors are given back, each once, and then the engine
is told once to delete the family. If a view is held, the engine is not told so, the family is still
open and usable, each of its iterators is either closed completely or where it was, with its record
still readable; and a later attempt succeeds as soon as no view is held. So a closed family never
has an open iterator. -/
theorem family_closed_or_held {s₀ : Store} (h₀ : Reachable s₀) (ops : List Operation)
    {id : FamilyId} {f : Family} {fh : Engine.FamilyHandle}
    (hf : (s₀.after ops).families.get? id = some f) (hh : f.handle = some fh)
    {order : List IteratorId} (ho : Lists (s₀.after ops) f order) :
    let s := s₀.after ops
    (∀ j g, s.families.get? j = some g → g.isClosed = true →
      ∀ i it, s.iterators.get? i = some it → it.family = j → it.isClosed = true) ∧
    (Run.closeFamily id).run s = (Run.closeFamilyIn id f.iterators).run s ∧
    ∃ t closes,
      (Run.closeFamilyIn id order).run s =
        (if order.any s.isHeld then .error heldUp else .ok (), t) ∧
      Reachable t ∧ closes.Nodup ∧ (∀ h ∈ closes, deinit h ∉ s.engine.calls) ∧
      (∀ later, (∀ h, (t.after later).engine.calls.count (deinit h) ≤ 1) ∧
        ∀ fh', (t.after later).engine.calls.count ⟨.familyDelete, .family fh'⟩ ≤ 1) ∧
      (∀ i it, s.iterators.get? i = some it → it.family = id → t.isOpen i = false →
        Finished (s₀.trace ops) t closes i it) ∧
      (order.any s.isHeld = true → HeldOpen s t id f order closes) ∧
      (order.any s.isHeld = false → ClosedAll s t id f fh closes) := by
  intro s
  have hs : Reachable s := h₀.after ops
  have honce : ∀ {t}, Reachable t → ∀ later,
      (∀ h, (t.after later).engine.calls.count (deinit h) ≤ 1) ∧
        ∀ fh', (t.after later).engine.calls.count ⟨.familyDelete, .family fh'⟩ ≤ 1 := by
    intro t ht later
    obtain ⟨n, hb⟩ := (ht.after later).balanced
    exact ⟨fun h => hb.cursors.count_deinit h, fun fh' => count_le_of_nodup hb.families.once _⟩
  obtain ⟨t, closes, fam, ht, hmove, hc, hfam, hdel, hrun, hshut⟩ := exists_closes hs hf hh ho
  obtain ⟨hnodup, hfirst⟩ := nodup_of_calls ht hc.calls
  refine ⟨fun j g hg hclosed i it hi hid => ?_, Run.closeFamily_eq hf, ?_⟩
  · cases hopen : it.isClosed with
    | true => rfl
    | false =>
      obtain ⟨g', hg', ho', -⟩ := hs.sound.linked.listed hi hopen
      rw [hid] at hg'
      obtain rfl := Option.some.inj (hg.symm.trans hg')
      exact absurd (ho'.symm.trans hclosed) Bool.false_ne_true
  · cases hheld : order.any s.isHeld with
    | true =>
      rw [hheld, if_pos rfl] at hrun
      refine ⟨t, closes, hrun, ht, hnodup, hfirst, honce ht, fun i it hi _ hoff => ?_,
        fun _ => heldOpen_of_closes hs ht hf hheld hc, fun hno => ?_⟩
      · exact finished_of_closed h₀.sound hmove hoff fun h hh => hc.cursor hi hoff hh
      · exact absurd hno (Ne.symm Bool.false_ne_true)
    | false =>
      rw [hheld, if_neg Bool.false_ne_true] at hrun
      have hall : ∀ i it, s.iterators.get? i = some it → it.family = id → t.isOpen i = false :=
        fun i it hi hid => isOpen_of_lists hs hf ho hc (hshut hheld) hi hid
      have hlisted : ∀ i ∈ f.iterators, t.isOpen i = false := by
        intro i hi
        obtain ⟨it, hit, hid⟩ := hs.tracked.listed hf hi
        exact hall i it hit hid
      obtain ⟨hreach, hend⟩ := reachable_familyEnded ht (by rw [hc.families]; exact hf) hh
        (by rw [hc.engineFamilies]; exact hfam) hdel hlisted
      refine ⟨_, closes, hrun, hreach, hnodup, hfirst, honce hreach, fun i it hi hid hoff => ?_,
        fun hno => ?_, fun _ => closedAll_of_closes hs hf hfam hdel hc hall⟩
      · exact finished_of_closed h₀.sound (hmove.trans hend) hoff fun h hh =>
          hc.cursor hi (hall i it hi hid) hh
      · exact absurd hno Bool.false_ne_true

/-- A view of an iterator is held, and then a second iteration is started over the family. -/
def secondStarted : List Operation := holdKey ++ [.range 0 .null]

/-- The store after an attempt to close the family, the newer iterator first. -/
def onceTried : Store := ((Run.closeFamilyIn 0 [1, 0]).run (firstGiven.after secondStarted)).2

theorem exists_family_of_map (s : Store) (id : FamilyId) (ids : List IteratorId)
    (h : (s.families.get? id).map (fun f => (f.handle.isSome, f.iterators)) = some (true, ids)) :
    ∃ f fh, s.families.get? id = some f ∧ f.handle = some fh ∧ f.iterators = ids := by
  obtain ⟨f, hf, hpair⟩ := Option.map_eq_some_iff.1 h
  obtain ⟨hsome, hids⟩ := Prod.mk.inj hpair
  obtain ⟨fh, hh⟩ := Option.isSome_iff_exists.1 hsome
  exact ⟨f, fh, hf, hh, hids⟩

theorem lists_of_subset {f : Family} {order : List IteratorId} (hids : f.iterators = ids)
    (hown : order ⊆ ids) (hall : ids ⊆ order) : Lists s f order :=
  ⟨fun i hi => by rw [hids]; exact hown hi, fun i hi _ => by rw [hids] at hi; exact hall hi⟩

/-- The newer iterator is closed, and then a view is in the way of the older one, which stays where
it is. When the view is not held any more, the family can be closed. -/
theorem closed_when_let_go :
    (Run.closeFamilyIn 0 [1, 0]).run (firstGiven.after secondStarted) =
      (.error heldUp, onceTried) ∧
    (∃ closes it, Finished (firstGiven.trace secondStarted) onceTried closes 1 it ∧
      ∃ jt, Untouched (firstGiven.after secondStarted) onceTried closes 0 jt) ∧
    ((Run.closeFamilyIn 0 [0, 1]).run (onceTried.after [.unholdView 0])).1 = .ok () := by
  have hfirst : Reachable firstGiven := reachable_twoRecords.after _
  obtain ⟨f, fh, hf, hh, hids⟩ := exists_family_of_map (firstGiven.after secondStarted) 0 [0, 1]
    (by decide +kernel)
  have hlists : Lists (firstGiven.after secondStarted) f [1, 0] :=
    lists_of_subset hids (by decide) (by decide)
  have hheld : [1, 0].any (firstGiven.after secondStarted).isHeld = true := by decide +kernel
  obtain ⟨-, -, t, closes, hrun, -, -, -, -, hfinished, hopen, -⟩ :=
    family_closed_or_held hfirst secondStarted hf hh hlists
  have hrest := hopen hheld
  rw [hheld, if_pos rfl] at hrun
  have ht : onceTried = t := by
    rw [onceTried, hrun]
  rw [← ht] at hrun hrest hfinished
  have howned : ∀ i ∈ [0, 1],
      ((firstGiven.after secondStarted).iterators.get? i).map Iterator.family = some 0 := by
    decide +kernel
  obtain ⟨it, hit, hid⟩ := Option.map_eq_some_iff.1 (howned 1 (by decide))
  obtain ⟨jt, hjt, hjd⟩ := Option.map_eq_some_iff.1 (howned 0 (by decide))
  refine ⟨hrun, ⟨closes, it, hfinished 1 it hit hid (by decide +kernel), jt,
    hrest.iterators 0 jt hjt hjd (by decide +kernel)⟩, ?_⟩
  obtain ⟨g, gh, hg, -, hgs⟩ := exists_family_of_map (onceTried.after [.unholdView 0]) 0 [0, 1]
    (by decide +kernel)
  exact hrest.again _ g [0, 1] hg (lists_of_subset hgs (by decide) (by decide)) (by decide +kernel)

end FamilyStore.Store
