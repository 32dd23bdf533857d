import FamilyStore.Proofs.Iteration.Lifetime

/-!
The course of an iterator over any run.

An operation either goes on with an iterator, or leaves its course alone, or closes it. So the
course of an iterator that stays open is its first course, gone on with as often as operations went
on with it and were not held up.
-/

namespace FamilyStore.Store

/-- Whether an operation asks an iterator to go on. -/
def Operation.stepsOn (op : Operation) (i : IteratorId) : Bool :=
  match op with
  | .advance j | .next j => j == i
  | _ => false

/-- The failure of going on, or of closing, while a view is held. -/
def heldUp : Failure := .store .viewExported

/-- What a reply shows of the iteration: the record that was given out, if any. -/
def shown (s : Store) : Except Failure Reply → Except Failure (Option Engine.Record)
  | .error failure => .error failure
  | .ok (.next pair?) => .ok pair?
  | .ok (.record (some ρ)) => ((Run.copyRecord ρ).run s).1.map some
  | .ok _ => .ok none

theorem shown_of_gives {s : Store} {i : IteratorId} {r : Except Failure (Option RecordId)}
    {out : Except Failure (Option Engine.Record)} (h : Gives s i r out) :
    shown s (r.map .record) = out := by
  cases r with
  | error failure =>
    cases out with
    | error failure' => exact congrArg Except.error h
    | ok kv? => exact absurd h id
  | ok ρ? =>
    cases out with
    | error failure => exact absurd h (by cases ρ? <;> exact id)
    | ok kv? =>
      cases ρ? with
      | none =>
        cases kv? with
        | none => rfl
        | some kv => exact absurd h id
      | some ρ =>
        cases kv? with
        | none => exact absurd h id
        | some kv =>
          obtain ⟨r, it, -, -, -, -, hcopy⟩ := h
          show ((Run.copyRecord ρ).run s).1.map some = .ok (some kv)
          rw [hcopy]
          rfl

/-- What an operation means for the course of an iterator. -/
structure Passes (op : Operation) (s s' : Store) (reply : Except Failure Reply) (i : IteratorId)
    (κ : Course) : Prop where
  /-- Going on is held up, or gives out what the course says. -/
  goes : op.stepsOn i = true → reply = .error heldUp ∧ s'.course? i = some κ ∨
    s'.course? i = some κ.step.1 ∧ shown s' reply = κ.step.2
  /-- An iteration that is over does nothing any more. -/
  rests : op.stepsOn i = true → κ.progress ≠ .running → s' = s
  stays : op.stepsOn i = false → s'.course? i = some κ ∨ s'.course? i = none

theorem passes_of_closing {op : Operation} {s s' : Store} {reply : Except Failure Reply}
    {i : IteratorId} (hop : op.stepsOn i = false) {κ : Course} (hκ : s.course? i = some κ)
    (h : s'.course? i = s.course? i ∨ s'.course? i = none) : Passes op s s' reply i κ where
  goes hi := absurd (hop.symm.trans hi) Bool.false_ne_true
  rests hi := absurd (hop.symm.trans hi) Bool.false_ne_true
  stays _ := by
    rw [← hκ]
    exact h

theorem perform_eq {α : Type} {op : Operation} {work : Run α} {f : α → Reply}
    (hop : op.run = f <$> work) {s s' : Store} {r : Except Failure α}
    (hrun : work.run s = (r, s')) : s.perform op = (r.map f, s') := by
  unfold perform
  rw [hop, run_map, hrun]

theorem run_of_perform {α : Type} {op : Operation} {work : Run α} {f : α → Reply}
    (hf : Function.Injective f) (hop : op.run = f <$> work) {s s' : Store} {a : α}
    (h : s.perform op = (.ok (f a), s')) : work.run s = (.ok a, s') := by
  obtain ⟨r, s'', hrun⟩ : ∃ r s'', work.run s = (r, s'') := ⟨_, _, rfl⟩
  rw [perform_eq hop hrun] at h
  obtain ⟨hr, rfl⟩ := Prod.mk.inj h
  rw [hrun]
  cases r with
  | error failure => exact absurd hr (by simp [Except.map])
  | ok b => rw [hf (Except.ok.inj hr)]

/-- Work that is an operation leads to no other stores than operations do. -/
theorem Reachable.of_run {s s' : Store} (hs : Reachable s) (op : Operation) {α : Type}
    {work : Run α} {f : α → Reply} (hop : op.run = f <$> work) {r : Except Failure α}
    (hrun : work.run s = (r, s')) : Reachable s' := by
  have hstep := hs.step op
  rwa [perform_eq hop hrun] at hstep

/-- An operation that goes on with one iterator. -/
theorem perform_spec_of_step {α : Type} {op : Operation} {work : Run α} {f : α → Reply}
    (hop : op.run = f <$> work) {id : IteratorId} (hid : ∀ i, op.stepsOn i = (id == i))
    {s : Store} (hs : Sound s)
    (hopen : ∀ κ, s.course? id = some κ → ∃ r s', work.run s = (r, s') ∧ Move s s' ∧
      Elsewhere id s s' ∧ (κ.progress ≠ .running → s' = s) ∧
      (r = .error heldUp ∧ s'.course? id = some κ ∨
        s'.course? id = some κ.step.1 ∧ shown s' (r.map f) = κ.step.2))
    (hclosed : s.course? id = none → ∃ failure, work.run s = (.error failure, s)) :
    Move s (s.perform op).2 ∧ ∀ {i κ}, s.course? i = some κ →
      Passes op s (s.perform op).2 (s.perform op).1 i κ := by
  cases hκ : s.course? id with
  | none =>
    obtain ⟨failure, hrun⟩ := hclosed hκ
    rw [perform_eq hop hrun]
    refine ⟨hs.stay, fun {i κ} hi => ⟨fun hstep => ?_, fun _ _ => rfl, fun _ => .inl hi⟩⟩
    rw [hid, beq_iff_eq] at hstep
    rw [← hstep, hκ] at hi
    exact absurd hi (by simp)
  | some κ =>
    obtain ⟨r, s', hrun, hmove, helse, hrest, hr⟩ := hopen κ hκ
    rw [perform_eq hop hrun]
    refine ⟨hmove, fun {i κ'} hi => ?_⟩
    by_cases hid' : id = i
    · rw [← hid', hκ] at hi
      obtain rfl := Option.some.inj hi
      rw [← hid']
      refine ⟨fun _ => ?_, fun _ => hrest, fun hstep => ?_⟩
      · rcases hr with ⟨rfl, hc⟩ | hr
        · exact .inl ⟨rfl, hc⟩
        · exact .inr hr
      · rw [hid, beq_self_eq_true] at hstep
        exact absurd hstep (Ne.symm Bool.false_ne_true)
    · have hno : op.stepsOn i = false := by
        rw [hid]
        exact beq_false_of_ne hid'
      exact passes_of_closing hno hi (.inl (helse i fun h => hid' h.symm))

/-- Every operation is a move, and passes the course of every open iterator. -/
theorem perform_spec {s : Store} (hs : Sound s) (op : Operation) :
    Move s (s.perform op).2 ∧ ∀ {i κ}, s.course? i = some κ →
      Passes op s (s.perform op).2 (s.perform op).1 i κ := by
  by_cases hq : op.keepsIterators = true
  · have hiterators := sameIterators_of_keepsIterators hq s
    refine ⟨⟨hs.sameIterators hiterators, hiterators.later⟩, fun {i κ} hκ =>
      passes_of_closing ?_ hκ (.inl (hiterators.course? i))⟩
    cases op with
    | advance => exact absurd hq Bool.false_ne_true
    | next => exact absurd hq Bool.false_ne_true
    | _ => rfl
  · have hclose : ∀ {α : Type} {work : Run α} {f : α → Reply} {r : Except Failure α} {s' : Store},
        op.run = f <$> work → (∀ i, op.stepsOn i = false) → work.run s = (r, s') → Move s s' →
        (∀ i κ, s.course? i = some κ → s'.course? i = s.course? i ∨ s'.course? i = none) →
        Move s (s.perform op).2 ∧ ∀ {i κ}, s.course? i = some κ →
          Passes op s (s.perform op).2 (s.perform op).1 i κ := by
      intro α work f r s' hop hno hrun hmove hcourse
      rw [perform_eq hop hrun]
      exact ⟨hmove, fun {i κ} hκ => passes_of_closing (hno i) hκ (hcourse i κ hκ)⟩
    have hread : ∀ {α : Type} {work : Run α} {f : α → Reply},
        op.run = f <$> work → (∀ i, op.stepsOn i = false) →
        Within (fun s s' : Store => s' = s) work →
        Move s (s.perform op).2 ∧ ∀ {i κ}, s.course? i = some κ →
          Passes op s (s.perform op).2 (s.perform op).1 i κ := by
      intro α work f hop hno hwork
      have hsame : work.run s = ((work.run s).1, s) := Prod.ext rfl (hwork s)
      exact hclose hop hno hsame hs.stay fun _ _ _ => .inl rfl
    cases op with
    | range id key =>
      rcases Run.range_spec hs id key with ⟨failure, s', hrun, hiterators⟩ |
          ⟨f, fh, fam, span, s', -, -, -, hrun, hstarted⟩
      · exact hclose rfl (fun _ => rfl) hrun ⟨hs.sameIterators hiterators, hiterators.later⟩
          fun i _ _ => .inl (hiterators.course? i)
      · exact hclose rfl (fun _ => rfl) hrun hstarted.move
          fun i κ hκ => .inl ((hstarted.others hκ).trans hκ.symm)
    | closeFamily id =>
      obtain ⟨r, s', hrun, hmove, hclosing⟩ := Run.closeFamily_spec hs id
      exact hclose rfl (fun _ => rfl) hrun hmove fun i _ _ => hclosing i
    | closeIterator id =>
      obtain ⟨r, s', hrun, hmove, helse, -, hr⟩ := Run.closeIterator_spec hs id
      refine hclose rfl (fun _ => rfl) hrun hmove fun j _ _ => ?_
      by_cases hj : j = id
      · rw [hj]
        rcases hr with ⟨-, hn, -⟩ | ⟨-, he⟩
        · exact .inr hn
        · exact .inl he
      · exact .inl (helse j hj)
    | advance id =>
      refine perform_spec_of_step rfl (fun _ => rfl) hs (fun κ hκ => ?_)
        fun hκ => Run.advance_of_closed hs hκ
      obtain ⟨r, s', hrun, hmove, helse, hrest, hr⟩ := Run.advance_spec hs hκ
      exact ⟨r, s', hrun, hmove, helse, hrest,
        hr.imp (fun h => ⟨h.1, h.2.1⟩) fun h => ⟨h.1, shown_of_gives h.2.1⟩⟩
    | next id =>
      refine perform_spec_of_step rfl (fun _ => rfl) hs (fun κ hκ => ?_)
        fun hκ => Run.next_of_closed hs hκ
      obtain ⟨r, s', hrun, hmove, helse, hrest, hr⟩ := Run.next_spec hs hκ
      refine ⟨r, s', hrun, hmove, helse, hrest,
        hr.imp (fun h => ⟨h.1, h.2.1⟩) fun h => ⟨h.1, ?_⟩⟩
      rw [← h.2.1]
      cases r <;> rfl
    | isValid id => exact hread rfl (fun _ => rfl) (Run.within_isValid id)
    | copy id => exact hread rfl (fun _ => rfl) (Run.within_copyRecord id)
    | readView id => exact hread rfl (fun _ => rfl) (Run.within_readView id)
    | viewKey id =>
      obtain ⟨hmove, hc⟩ := Run.viewPart_move hs Record.key id
      exact hclose rfl (fun _ => rfl) rfl hmove fun i _ _ => .inl (hc i)
    | viewValue id =>
      obtain ⟨hmove, hc⟩ := Run.viewPart_move hs Record.value id
      exact hclose rfl (fun _ => rfl) rfl hmove fun i _ _ => .inl (hc i)
    | releaseView id =>
      obtain ⟨hmove, hc⟩ := Run.releaseView_move hs id
      exact hclose rfl (fun _ => rfl) rfl hmove fun i _ _ => .inl (hc i)
    | holdView id =>
      obtain ⟨hmove, hc⟩ := Run.holdView_move hs id
      exact hclose rfl (fun _ => rfl) rfl hmove fun i _ _ => .inl (hc i)
    | unholdView id =>
      obtain ⟨hmove, hc⟩ := Run.unholdView_move hs id
      exact hclose rfl (fun _ => rfl) rfl hmove fun i _ _ => .inl (hc i)
    | _ => exact absurd rfl hq

theorem Reachable.sound {s : Store} (h : Reachable s) : Sound s := by
  induction h with
  | initial files => exact sound_initial files
  | step op _ ih => exact (perform_spec ih op).1.sound

end FamilyStore.Store
