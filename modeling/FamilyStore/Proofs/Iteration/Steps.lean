import FamilyStore.Proofs.Iteration.Views

/-!
The steps of an iterator, as steps of its course.

Going on leaves the record that was given out, if there is one, and then either fails, gives out the
record at the new position, or comes to the end. It may be held up by a view of the record that is
to be left; then nothing happens to the course.
-/

namespace FamilyStore.Store

namespace Course

/-- The course behind the record that was given out last. -/
def leave (κ : Course) : Course :=
  if κ.positioned then
    { κ with position := κ.position + 1, positioned := false, generation := κ.generation + 1 }
  else κ

/-- Whether the iteration fails at the present position. -/
def fails (κ : Course) : Bool :=
  match κ.failAt with
  | some k => k ≤ κ.position
  | none => false

/-- Goes on from a course without a record to leave: the new course, and what is given out. -/
def settle (κ : Course) : Course × Except Failure (Option Engine.Record) :=
  if κ.fails then
    ({ κ with progress := .failed Status.ioError },
      .error (Run.statusFailure .iterate Status.ioError))
  else
    match κ.records[κ.position]? with
    | some kv => ({ κ with positioned := true }, .ok (some kv))
    | none => ({ κ with progress := .exhausted }, .ok none)

/-- Goes on: the new course, and what is given out. -/
def step (κ : Course) : Course × Except Failure (Option Engine.Record) :=
  match κ.progress with
  | .failed status => (κ, .error (.store (.iteratorStopped status)))
  | .exhausted => (κ, .ok none)
  | .running => κ.leave.settle

theorem settle_of_fails {κ : Course} (h : κ.fails = true) : κ.settle =
    ({ κ with progress := .failed Status.ioError },
      .error (Run.statusFailure .iterate Status.ioError)) := if_pos h

theorem settle_of_some {κ : Course} (h : κ.fails = false) {kv : Engine.Record}
    (hkv : κ.records[κ.position]? = some kv) :
    κ.settle = ({ κ with positioned := true }, .ok (some kv)) := by
  rw [settle, h, if_neg Bool.false_ne_true, hkv]

theorem settle_of_none {κ : Course} (h : κ.fails = false) (hkv : κ.records[κ.position]? = none) :
    κ.settle = ({ κ with progress := .exhausted }, .ok none) := by
  rw [settle, h, if_neg Bool.false_ne_true, hkv]

end Course

/-- What an iterator gives out is a new record, which can be read. -/
def Gives (s : Store) (i : IteratorId) :
    Except Failure (Option RecordId) → Except Failure (Option Engine.Record) → Prop
  | .error f, .error f' => f = f'
  | .ok none, .ok none => True
  | .ok (some ρ), .ok (some kv) => ∃ r it, s.records.get? ρ = some r ∧ r.iterator = i ∧
      s.iterators.get? i = some it ∧ it.generation = r.generation ∧
      (Run.copyRecord ρ).run s = (.ok kv, s)
  | _, _ => False

variable {s : Store} {i : IteratorId} {it : Iterator} {h : Engine.Handle} {c : Engine.Cursor}

/-- Only one iterator is concerned. -/
def Elsewhere (i : IteratorId) (s s' : Store) : Prop := ∀ j, j ≠ i → s'.course? j = s.course? j

theorem elsewhere_turned (hl : Linked s) (hi : s.iterators.get? i = some it)
    (hh : it.cursor = some h) (it' : Iterator) (c' : Engine.Cursor) (new : List Engine.Call)
    (m : Engine.Memory) : Elsewhere i s (s.turned i it' h c' new m) :=
  fun _ hj => course?_turned_ne hl hi hh hj new m

theorem Elsewhere.trans {s' s'' : Store} (h : Elsewhere i s s') (h' : Elsewhere i s' s'') :
    Elsewhere i s s'' := fun j hj => (h' j hj).trans (h j hj)

/-- There is no view of the record that an iterator is at. -/
def Unviewed (s : Store) (i : IteratorId) : Prop :=
  ∃ it, s.iterators.get? i = some it ∧ it.views = []

/-- Views are no part of a course. -/
theorem course?_views (hi : s.iterators.get? i = some it) (t : Table ViewId View)
    (vs : List ViewId) (j : IteratorId) :
    course? { s with views := t, iterators := s.iterators.set i { it with views := vs } } j =
      s.course? j := by
  unfold course?
  by_cases hji : j = i
  · rw [hji, hi, Table.get?_set_self]
    rfl
  · rw [Table.get?_set_ne _ hji]

namespace Run

/-- Leaving a record succeeds, or is held up by a view. -/
theorem leaveRecord_spec (hs : Sound s) (hi : s.iterators.get? i = some it)
    (hh : it.cursor = some h) (hc : s.engine.cursors.get? h = some c) :
    ∃ r s', (leaveRecord i h).run s = (r, s') ∧ Move s s' ∧ Elsewhere i s s' ∧
      (r = .error (.store .viewExported) ∧ s'.course? i = s.course? i ∧ it.views ≠ [] ∨
        r = .ok () ∧ s'.iterators.get? i =
            some { it with generation := it.generation + 1, positioned := false, views := [] } ∧
          s'.engine.cursors.get? h =
            some { c with current := none, position := c.position + 1 }) := by
  obtain ⟨r, t, rest, hrun, hmove, hr⟩ := releaseViews_spec it.views hs hi hh rfl
  unfold leaveRecord
  rw [run_bind, run_iterator hi]
  dsimp only
  rw [run_bind, hrun]
  rcases hr with ⟨rfl, rfl⟩ | ⟨rfl, hviews⟩
  · dsimp only
    have hnow : Table.get? (s.iterators.set i { it with views := [] }) i =
        some { it with views := [] } := Table.get?_set_self _ _ _
    have hleave := hmove.sound.leave hnow hh hc rfl
    rw [run_bind, run_iterator hnow]
    dsimp only
    rw [run_bind]
    unfold setIterator
    rw [run_modify]
    dsimp only
    rw [run_engine, Engine.Run.run_iteratorNext hc]
    refine ⟨_, _, rfl, hmove.trans hleave, ?_, .inr ⟨rfl, Table.get?_set_self _ _ _,
      Table.get?_set_self _ _ _⟩⟩
    intro j hj
    exact (course?_turned_ne hmove.sound.linked hnow hh hj _ _).trans (course?_views hi t [] j)
  · exact ⟨_, _, rfl, hmove, fun j _ => course?_views hi t rest j,
      .inl ⟨rfl, course?_views hi t rest i, hviews⟩⟩

/-- The part of going on that comes after the record that was given out has been left. -/
def goOn (id : IteratorId) (cursor : Engine.Handle) : Run (Option RecordId) := do
  if ← engine (Engine.Run.iteratorValid cursor) then
    return some (← giveOut id cursor)
  endIteration id cursor
  return none

/-- The iteration ends: with a failure when the cursor has one, and with the last record else. -/
theorem run_endIteration (c : Engine.Cursor) (new : List Engine.Call) {s₀ : Store}
    (hs₀ : s₀ = { s with engine := s.engine.onCursor h c new s.engine.memory })
    (hi : s.iterators.get? i = some it) :
    (endIteration i h).run s₀ =
      (if c.status ≠ Status.success then .error (statusFailure .iterate c.status) else .ok (),
        s.turned i { it with progress :=
            if c.status ≠ Status.success then .failed c.status else .exhausted } h c
          (⟨.iteratorStatus, .handle h⟩ :: new) s.engine.memory) := by
  have hc : s₀.engine.cursors.get? h = some c := by
    rw [hs₀]
    exact Table.get?_set_self _ _ _
  have hend : s₀.engine.onCursor h c [⟨.iteratorStatus, .handle h⟩] s₀.engine.memory =
      s.engine.onCursor h c (⟨.iteratorStatus, .handle h⟩ :: new) s.engine.memory := by
    rw [hs₀]
    exact Engine.onCursor_onCursor _ _ _ _ _ _ _ _
  have hi₀ : s₀.iterators.get? i = some it := by
    rw [hs₀]
    exact hi
  unfold endIteration
  rw [run_bind, run_engine, Engine.Run.run_iteratorStatus hc]
  dsimp only
  rw [hend, run_bind, run_iterator (by exact hi₀)]
  dsimp only
  rw [run_ite]
  unfold turned
  by_cases hst : c.status ≠ Status.success
  · rw [if_pos hst, if_pos hst, if_pos hst, hs₀]
    rfl
  · rw [if_neg hst, if_neg hst, if_neg hst, hs₀]
    rfl

theorem run_giveOut (hi : s.iterators.get? i = some it) (hn : c.current = none)
    {kv : Engine.Record} (hkv : c.records[c.position]? = some kv) {s₀ : Store}
    (hs₀ : s₀ = { s with
      engine := s.engine.onCursor h c [⟨.iteratorValid, .handle h⟩] s.engine.memory }) :
    (giveOut i h).run s₀ = (.ok s.records.size, Sound.gaveOut s i it h c kv) := by
  have hc : s₀.engine.cursors.get? h = some c := by
    rw [hs₀]
    exact Table.get?_set_self _ _ _
  unfold giveOut
  rw [run_bind, run_engine, Engine.Run.run_iteratorGetCurrent hc hn hkv, hs₀]
  dsimp only
  rw [run_bind, run_iterator (by exact hi)]
  dsimp only
  unfold setIterator
  rw [run_bind, run_modify]
  dsimp only
  rw [run_bind, run_get]
  dsimp only
  rw [run_bind, run_set]
  dsimp only
  rw [Engine.onCursor_onCursor]
  rfl

theorem goOn_spec (hs : Sound s) (hi : s.iterators.get? i = some it) (hh : it.cursor = some h)
    (hc : s.engine.cursors.get? h = some c) (hn : it.positioned = false)
    (hrun : it.progress = .running) :
    ∃ r s', (goOn i h).run s = (r, s') ∧ Move s s' ∧ Elsewhere i s s' ∧
      s'.course? i = some (courseOf it c).settle.1 ∧ Gives s' i r (courseOf it c).settle.2 ∧
      Unviewed s' i := by
  have hstatus := (hs.inStep hi hh hc).running hrun
  obtain ⟨hviews, hcur⟩ := hs.not_positioned hi hh hc hn
  unfold goOn
  rw [run_bind, run_engine]
  cases hf : Engine.Run.failsHere c with
  | true =>
    have hfails : (courseOf it c).fails = true := hf
    have hio : Status.ioError ≠ Status.success := by decide
    have hend := run_endIteration (h := h) (s := s) { c with status := Status.ioError }
      [⟨.iteratorValid, .handle h⟩] rfl hi
    rw [if_pos hio, if_pos hio] at hend
    rw [Engine.Run.run_iteratorValid_of_fails hc hf]
    dsimp only
    rw [run_ite, if_neg Bool.false_ne_true, run_bind, hend]
    refine ⟨_, _, rfl, hs.stop hi hh hc hn (by simp), elsewhere_turned hs.linked hi hh _ _ _ _,
      ?_, ?_, _, Table.get?_set_self _ _ _, hviews⟩
    · rw [course?_turned_self _ _ (by exact hh), Course.settle_of_fails hfails]
      rfl
    · rw [Course.settle_of_fails hfails]
      exact rfl
  | false =>
    have hfails : (courseOf it c).fails = false := hf
    rw [Engine.Run.run_iteratorValid hc hf]
    dsimp only
    rw [run_ite]
    cases hkv : c.records[c.position]? with
    | some kv =>
      have hlt : c.position < c.records.length := (List.getElem?_eq_some_iff.1 hkv).1
      have hsettle : (courseOf it c).settle =
          ({ courseOf it c with positioned := true }, .ok (some kv)) :=
        Course.settle_of_some hfails hkv
      have hmove := hs.give hi hh hc hn hrun hkv
      rw [if_pos (decide_eq_true hlt), run_bind, run_giveOut hi hcur hkv rfl, hsettle]
      have hrec : (Sound.gaveOut s i it h c kv).records.get? s.records.size =
          some (Sound.newRecord s i it kv) := Table.get?_set_self _ _ _
      have hiter : (Sound.gaveOut s i it h c kv).iterators.get? i =
          some { it with positioned := true } := Table.get?_set_self _ _ _
      refine ⟨_, _, rfl, hmove, elsewhere_turned hs.linked hi hh _ _ _ _,
        course?_turned_self _ _ hh, ⟨_, _, hrec, rfl, hiter, rfl, ?_⟩, _, hiter, hviews⟩
      obtain ⟨κ, kv', hκ, -, -, hkv', hcopy⟩ := hmove.sound.copy_present hrec hiter rfl
      have hκ' := hκ.symm.trans (course?_turned_self _ _ hh)
      obtain rfl := Option.some.inj hκ'
      obtain rfl := Option.some.inj (hkv.symm.trans hkv')
      exact hcopy
    | none =>
      have hge : ¬ c.position < c.records.length := Nat.not_lt.2 (List.getElem?_eq_none_iff.1 hkv)
      have hsettle : (courseOf it c).settle =
          ({ courseOf it c with progress := .exhausted }, .ok none) :=
        Course.settle_of_none hfails hkv
      have hend := run_endIteration (h := h) (s := s) c [⟨.iteratorValid, .handle h⟩] rfl hi
      rw [if_neg fun hne => hne hstatus, if_neg fun hne => hne hstatus] at hend
      rw [if_neg (by rw [decide_eq_false hge]; exact Bool.false_ne_true), run_bind, hend, hsettle]
      exact ⟨_, _, rfl, hs.stop hi hh hc hn (by simp), elsewhere_turned hs.linked hi hh _ _ _ _,
        course?_turned_self _ _ hh, trivial, _, Table.get?_set_self _ _ _, hviews⟩

/-- What going on means for an open iterator: it is held up by a view, or its course goes on. -/
theorem advance_spec (hs : Sound s) {κ : Course} (hκ : s.course? i = some κ) :
    ∃ r s', (advance i).run s = (r, s') ∧ Move s s' ∧ Elsewhere i s s' ∧
      (κ.progress ≠ .running → s' = s) ∧
      (r = .error (.store .viewExported) ∧ s'.course? i = some κ ∧ ¬ Unviewed s i ∨
        s'.course? i = some κ.step.1 ∧ Gives s' i r κ.step.2 ∧ (Unviewed s i → Unviewed s' i)) := by
  obtain ⟨it, h, c, hi, hh, hc, rfl⟩ := exists_of_course? hκ
  have hopen : it.isClosed = false := by
    rw [Iterator.isClosed, hh]
    rfl
  obtain ⟨f, hf, hfo, -⟩ := hs.linked.listed hi hopen
  have hprogress : (courseOf it c).progress = it.progress := rfl
  unfold advance
  rw [run_bind, run_iterator hi]
  dsimp only
  rw [hh]
  dsimp only
  rw [run_bind, run_storeFamily hf]
  dsimp only
  rw [run_ite, if_neg (by rw [hfo]; exact Bool.false_ne_true), Course.step, hprogress]
  cases hp : it.progress with
  | failed status =>
    exact ⟨_, _, rfl, hs.stay, fun _ _ => rfl, fun _ => rfl, .inr ⟨hκ, rfl, id⟩⟩
  | exhausted =>
    exact ⟨_, _, rfl, hs.stay, fun _ _ => rfl, fun _ => rfl, .inr ⟨hκ, trivial, id⟩⟩
  | running =>
    dsimp only
    rw [run_ite]
    by_cases hpos : it.positioned = true
    · obtain ⟨r, s', hleave, hmove, helse, hr⟩ := leaveRecord_spec hs hi hh hc
      rw [if_pos hpos, run_bind, hleave]
      rcases hr with ⟨rfl, hcourse, hviews⟩ | ⟨rfl, hi', hc'⟩
      · refine ⟨_, _, rfl, hmove, helse, fun hn => absurd rfl hn, .inl ⟨rfl, hcourse.trans hκ, ?_⟩⟩
        rintro ⟨it', hi', hnone⟩
        obtain rfl := Option.some.inj (hi.symm.trans hi')
        exact hviews hnone
      · obtain ⟨r, s'', hgo, hmove', helse', hcourse, hgives, hfree⟩ :=
          goOn_spec hmove.sound hi' hh hc' rfl hp
        have hkappa : (courseOf it c).leave = courseOf
            { it with generation := it.generation + 1, positioned := false, views := [] }
            { c with current := none, position := c.position + 1 } := by
          unfold Course.leave
          exact if_pos hpos
        rw [hkappa]
        exact ⟨r, s'', hgo, hmove.trans hmove', helse.trans helse', fun hn => absurd rfl hn,
          .inr ⟨hcourse, hgives, fun _ => hfree⟩⟩
    · obtain ⟨r, s', hgo, hmove, helse, hcourse, hgives, hfree⟩ :=
        goOn_spec hs hi hh hc (by simpa using hpos) hp
      have hkappa : (courseOf it c).leave = courseOf it c := if_neg hpos
      rw [if_neg hpos, hkappa]
      exact ⟨r, s', hgo, hmove, helse, fun hn => absurd rfl hn,
        .inr ⟨hcourse, hgives, fun _ => hfree⟩⟩

/-- An iterator without a course is closed. -/
theorem run_advance_of_closed (hs : Sound s) (hi : s.iterators.get? i = some it)
    (hκ : s.course? i = none) : (advance i).run s = (.error (.store .iteratorClosed), s) := by
  cases hh : it.cursor with
  | none =>
    unfold advance
    rw [run_bind, run_iterator hi]
    dsimp only
    rw [hh]
    rfl
  | some h =>
    obtain ⟨c, hc, -, -⟩ := hs.exists_cursor hi hh
    rw [course?_eq hi hh hc] at hκ
    exact absurd hκ (by simp)

/-- An iterator without a course does not go on. -/
theorem advance_of_closed (hs : Sound s) (hκ : s.course? i = none) :
    ∃ f, (advance i).run s = (.error f, s) := by
  cases hi : s.iterators.get? i with
  | none =>
    unfold advance
    rw [run_bind, run_iterator_none hi]
    exact ⟨_, rfl⟩
  | some it => exact ⟨_, run_advance_of_closed hs hi hκ⟩

theorem next_spec (hs : Sound s) {κ : Course} (hκ : s.course? i = some κ) :
    ∃ r s', (next i).run s = (r, s') ∧ Move s s' ∧ Elsewhere i s s' ∧
      (κ.progress ≠ .running → s' = s) ∧
      (r = .error (.store .viewExported) ∧ s'.course? i = some κ ∧ ¬ Unviewed s i ∨
        s'.course? i = some κ.step.1 ∧ r = κ.step.2 ∧ (Unviewed s i → Unviewed s' i)) := by
  obtain ⟨r, s', hrun, hmove, helse, hrest, hr⟩ := advance_spec hs hκ
  unfold next
  rw [run_bind, hrun]
  rcases hr with ⟨rfl, hcourse⟩ | ⟨hcourse, hgives, hfree⟩
  · exact ⟨_, _, rfl, hmove, helse, hrest, .inl ⟨rfl, hcourse⟩⟩
  · cases r with
    | error f =>
      cases hstep : κ.step.2 with
      | error f' =>
        rw [hstep] at hgives
        have hfailure : f = f' := hgives
        exact ⟨_, _, rfl, hmove, helse, hrest, .inr ⟨hcourse, by rw [hfailure], hfree⟩⟩
      | ok kv? =>
        rw [hstep] at hgives
        exact absurd hgives id
    | ok ρ? =>
      cases ρ? with
      | none =>
        cases hstep : κ.step.2 with
        | error f' =>
          rw [hstep] at hgives
          exact absurd hgives id
        | ok kv? =>
          rw [hstep] at hgives
          cases kv? with
          | none => exact ⟨_, _, rfl, hmove, helse, hrest, .inr ⟨hcourse, rfl, hfree⟩⟩
          | some kv => exact absurd hgives id
      | some ρ =>
        cases hstep : κ.step.2 with
        | error f' =>
          rw [hstep] at hgives
          exact absurd hgives id
        | ok kv? =>
          rw [hstep] at hgives
          cases kv? with
          | none => exact absurd hgives id
          | some kv =>
            obtain ⟨rec, it, -, -, -, -, hcopy⟩ := hgives
            dsimp only
            rw [run_bind, hcopy]
            exact ⟨_, _, rfl, hmove, helse, hrest, .inr ⟨hcourse, rfl, hfree⟩⟩

theorem next_of_closed (hs : Sound s) (hκ : s.course? i = none) :
    ∃ f, (next i).run s = (.error f, s) := by
  obtain ⟨f, hrun⟩ := advance_of_closed hs hκ
  unfold next
  rw [run_bind, hrun]
  exact ⟨f, rfl⟩

end Run

end FamilyStore.Store
