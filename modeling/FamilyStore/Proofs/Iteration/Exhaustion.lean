import FamilyStore.Proofs.Founded
import FamilyStore.Proofs.Iteration.Snapshot

/-!
Iterating until nothing is left.

An iterator that nobody interferes with is never held up. One step gives out the record that is next
and keeps the iterator as it should be; so the steps give out all records that were selected, one
after the other, and then nothing any more.
-/

namespace FamilyStore.Store

variable {s : Store} {i : IteratorId} {rs : List Engine.Record} {k : Nat}

/-- No failure of an iteration is set up, neither of its start nor at a position. -/
structure Untroubled (e : Engine) : Prop where
  start : Engine.Run.pendingStatus e .iteratorInit = Status.success
  position : e.failIterationAt = none

/-- Iterating from a start key on gives out these records, one with each step, and nothing behind
the last one. -/
def Yields (s : Store) (id : FamilyId) (start : Value) (rs : List Engine.Record) : Prop :=
  ∃ i s', s.perform (.range id start) = (.ok (.iterator i), s') ∧
    ∀ k, ((s'.after (List.replicate k (.next i))).perform (.next i)).1 = .ok (.next rs[k]?)

/-! ## Going on -/

/-- An iterator has made some steps over a snapshot, and nobody looks at its record. -/
structure Walking (s : Store) (i : IteratorId) (rs : List Engine.Record) (k : Nat) : Prop where
  sound : Sound s
  course : s.course? i = some (Course.atStep rs k)
  unviewed : Unviewed s i

/-- One step gives out the next record. -/
theorem Walking.step (h : Walking s i rs k) : (s.perform (.next i)).1 = .ok (.next rs[k]?) ∧
    Walking (s.perform (.next i)).2 i rs (k + 1) := by
  obtain ⟨r, s', hrun, hmove, -, -, hr⟩ := Run.next_spec h.sound h.course
  rw [perform_eq rfl hrun]
  rcases hr with ⟨-, -, hviewed⟩ | ⟨hcourse, rfl, hfree⟩
  · exact absurd h.unviewed hviewed
  · rw [Course.step_atStep] at hcourse ⊢
    exact ⟨rfl, hmove.sound, hcourse, hfree h.unviewed⟩

theorem Walking.after (h : Walking s i rs k) (n : Nat) :
    Walking (s.after (List.replicate n (.next i))) i rs (k + n) := by
  induction n generalizing s k with
  | zero => exact h
  | succ n ih =>
    have hsteps : k + (n + 1) = k + 1 + n := by omega
    rw [List.replicate_succ, after_cons, hsteps]
    exact ih h.step.2

/-- Going on again and again gives out all records, and then nothing. -/
theorem Walking.replies (h : Walking s i rs 0) (n : Nat) :
    ((s.after (List.replicate n (.next i))).perform (.next i)).1 = .ok (.next rs[n]?) := by
  have hn := h.after n
  rw [Nat.zero_add] at hn
  exact hn.step.1

/-! ## Starting -/

/-- An iteration over an open family starts if the start key is accepted, and then gives out what is
selected. -/
theorem yields_selected (hs : Reachable s) (he : Untroubled s.engine) {id : FamilyId} {f : Family}
    {fh : Engine.FamilyHandle} (hserves : Serves s id f fh) {fam : Engine.Family}
    (hfam : s.engineFamily? id = some fam) {start : Value} {span : Span}
    (hspan : f.startSpan start = .ok span) :
    s.Yields id start (Engine.selected fam.config.funcs (s.stored id) span) := by
  obtain ⟨fam', hin, -, hfam'⟩ := hs.founded.exists_inUse hserves
  obtain rfl := Option.some.inj (hfam.symm.trans hfam')
  have hinit := Engine.Run.run_iteratorInit hin he.start span
  obtain ⟨s', hbegin⟩ : ∃ s', (Run.begin id fh span).run s = (.ok s.iterators.size, s') :=
    ⟨_, Run.run_begin hserves hinit⟩
  have hrange : (Run.range id start).run s = (.ok s.iterators.size, s') := by
    rw [Run.run_range hserves, hspan]
    exact hbegin
  have hselection : s.selection id start =
      Engine.selected fam.config.funcs (s.stored id) span := by
    unfold selection
    rw [hserves.1, hfam]
    dsimp only
    rw [hspan]
  have hzero : ∀ records, Course.fresh records none = Course.atStep records 0 := fun records =>
    Course.walked_fresh records 0
  obtain ⟨-, hmove, -, hcourse, hfree⟩ := started_range hs.sound hrange
  rw [hselection, he.position, hzero] at hcourse
  exact ⟨s.iterators.size, s', perform_eq rfl hrange, Walking.replies ⟨hmove.sound, hcourse, hfree⟩⟩

end FamilyStore.Store
