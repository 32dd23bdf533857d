import FamilyStore.Proofs.Iteration.Ending

/-!
Iterations that fail.

An iterator that is to fail at some position gives out the records before it. Its next step fails
with the failure of the engine, and every step after that one only tells of it. When the position
lies behind the end, the iteration ends like any other. The position is the one that was set when
the iterator was made; whatever happens later, the iterator can be closed.
-/

namespace FamilyStore.Store

variable {s : Store} {i : IteratorId}

/-! ## What is shown is what was replied -/

/-- To copy a record fails only if the record is stale, or if there is none with that number. -/
theorem copyRecord_cases (hs : Sound s) (ρ : RecordId) :
    (∃ kv, (Run.copyRecord ρ).run s = (.ok kv, s)) ∨
      (Run.copyRecord ρ).run s = (.error (.store .staleResult), s) ∨
      ∃ m, (Run.copyRecord ρ).run s = (.error (.misuse m), s) := by
  cases hr : s.records.get? ρ with
  | none =>
    refine .inr (.inr ⟨.unknownHandle, ?_⟩)
    unfold Run.copyRecord
    rw [run_bind, Run.run_record_none hr]
  | some r =>
    obtain ⟨it, hi, -, -⟩ := hs.placed ρ r hr
    by_cases hg : it.generation = r.generation
    · exact .inl ⟨_, Run.run_copyRecord hr hi hg⟩
    · exact .inr (.inl (Run.run_stale hr hi hg).1)

/-- A failure that a reply shows is the failure that was replied, unless a record is missing. -/
theorem reply_of_shown (hs : Sound s) {reply : Except Failure Reply} {fault : StoreFault}
    (hne : fault ≠ .staleResult) (h : shown s reply = .error (.store fault)) :
    reply = .error (.store fault) := by
  cases reply with
  | error failure => exact congrArg Except.error (Except.error.inj h)
  | ok r =>
    cases r with
    | record ρ? =>
      cases ρ? with
      | none => exact absurd h (by simp [shown])
      | some ρ =>
        have hcopy : ((Run.copyRecord ρ).run s).1.map some = .error (.store fault) := h
        rcases copyRecord_cases hs ρ with ⟨kv, hrun⟩ | hrun | ⟨m, hrun⟩
        · rw [hrun] at hcopy
          exact absurd hcopy (by simp [Except.map])
        · rw [hrun] at hcopy
          exact absurd (Failure.store.inj (Except.error.inj hcopy)).symm hne
        · rw [hrun] at hcopy
          exact absurd (Except.error.inj hcopy) (by simp)
    | _ => exact absurd h (by simp [shown])

/-! ## Behind the last record -/

/-- An iterator that is at no record has no record that can be read. -/
theorem refuses_of_not_positioned (hs : Sound s) {κ : Course} (hκ : s.course? i = some κ)
    (hn : κ.positioned = false) {ρ : RecordId} {r : Record} (hr : s.records.get? ρ = some r)
    (hri : r.iterator = i) : Refuses s ρ := by
  obtain ⟨it, h, c, hi, -, -, rfl⟩ := exists_of_course? hκ
  refine refuses_of_not_lent hs hr fun jt hj hlends => ?_
  rw [hri] at hj
  obtain rfl := Option.some.inj (hi.symm.trans hj)
  exact absurd (hn.symm.trans hlends.1) Bool.false_ne_true

/-- An iterator that is at no record is not held up. -/
theorem isHeld_of_not_positioned (hs : Reachable s) {κ : Course} (hκ : s.course? i = some κ)
    (hn : κ.positioned = false) : s.isHeld i = false := by
  obtain ⟨it, h, c, hi, hh, -, rfl⟩ := exists_of_course? hκ
  exact (hs.tracked.isHeld hi).trans (isStuck_of_not_positioned hs.sound hi hh hn)

/-! ## The walk to a failure -/

namespace Course

variable {records : List Engine.Record} {k : Int} {j : Nat}

/-- Within reach each step gives out its record. -/
theorem outcome_of_lt (failAt : Option Int) (hj : j < reach records failAt) :
    ∃ kv, records[j]? = some kv ∧ outcome records failAt j = .ok (some kv) := by
  have hlen := Nat.lt_of_lt_of_le hj (reach_le records failAt)
  have hkv := List.getElem?_eq_getElem hlen
  refine ⟨_, hkv, ?_⟩
  unfold outcome
  rw [if_pos hj, hkv]

/-- Behind a position of failure that lies within the records each step fails. -/
theorem outcome_of_le (hj : reach records (some k) ≤ j) (hk : k ≤ records.length) :
    outcome records (some k) j = .error (.store (if j = reach records (some k) then
      .engine .iterate Status.ioError else .iteratorStopped Status.ioError)) := by
  have hstop : stop records (some k) = .failed Status.ioError := if_pos hk
  unfold outcome
  rw [if_neg (Nat.not_lt.2 hj), hstop]
  dsimp only
  split <;> rfl

/-- Behind the end each step tells of it, if the position of failure lies further on. -/
theorem outcome_of_gt (hj : reach records (some k) ≤ j) (hk : records.length < k) :
    outcome records (some k) j = .ok none := by
  have hstop : stop records (some k) = .exhausted := if_neg (Int.not_le.2 hk)
  unfold outcome
  rw [if_neg (Nat.not_lt.2 hj), hstop]

end Course

theorem Reachable.of_mem_trace (hs : Reachable s) {ops : List Operation} {t : Transition}
    (ht : t ∈ s.trace ops) : Reachable t.before ∧ Reachable t.after := by
  obtain ⟨earlier, later, -, hbefore, hperform, -⟩ := exists_of_mem_trace ht
  have hreach : Reachable t.before := hbefore ▸ hs.after earlier
  have hstep := hreach.step t.operation
  rw [hperform] at hstep
  exact ⟨hreach, hstep⟩

open Course in
/-- An iterator that is to fail at a position gives out the records before it, as many as there
are, one with each step that is not held up. If the position is at a record or right behind the
last one, the next step fails, once, with the failure of the engine; the records are stale then, and
all later steps only tell of the failure and change nothing. If the position is further on, the
iteration comes to its end as if no failure had been set up. It makes no difference where failures
are set up later. The cursor is given back, once, whenever the iterator is closed and no view holds
it up; and before the first record and after the last none does. -/
theorem failing_iteration {s₀ s₁ : Store} (h₀ : Reachable s₀) {k : Int}
    (hfail : s₀.engine.failIterationAt = some k) {id : FamilyId} {start : Value} {i : IteratorId}
    (hrange : (Run.range id start).run s₀ = (.ok i, s₁)) (ops : List Operation)
    (hopen : (s₁.after ops).isOpen i = true) :
    let records := s₀.selection id start
    let n := min k.toNat records.length
    let steps := s₁.stepsOf i ops
    let t := s₁.after ops
    (∀ j u, steps[j]? = some u →
      (j < n → ∃ kv, records[j]? = some kv ∧ u.shows = .ok (some kv)) ∧
      (n ≤ j → k ≤ records.length → u.reply = .error (.store
        (if j = n then .engine .iterate Status.ioError else .iteratorStopped Status.ioError))) ∧
      (n ≤ j → records.length < k → u.shows = .ok none) ∧
      (n < j → u.after = u.before)) ∧
    steps.countP Transition.gives = min steps.length n ∧
    (n < steps.length → ∀ ρ r, t.records.get? ρ = some r → r.iterator = i → Refuses t ρ) ∧
    (steps.length = 0 ∨ n < steps.length → t.isHeld i = false) ∧
    ∃ it h, t.iterators.get? i = some it ∧ it.cursor = some h ∧
      (t.isHeld i = false → ClosesOnce t i h) := by
  intro records n steps t
  have h₁ : Reachable s₁ := h₀.of_run (.range id start) (f := .iterator) rfl hrange
  have ht : Reachable t := h₁.after ops
  obtain ⟨hcourse, hstep⟩ := walk_of_range h₀.sound hrange hopen
  rw [hfail] at hcourse hstep
  have hoff : steps.length = 0 ∨ n < steps.length →
      (stepped records (some k) steps.length).positioned = false := by
    intro hlen
    refine decide_eq_false fun hat => ?_
    have hreach : reach records (some k) = n := rfl
    omega
  refine ⟨fun j u hu => ?_, countP_of_lt fun j u hu => ?_, fun hlen ρ r hr hri => ?_,
    fun hlen => isHeld_of_not_positioned ht hcourse (hoff hlen), ?_⟩
  · obtain ⟨hshown, hrest⟩ := hstep j u hu
    refine ⟨fun hj => ?_, fun hj hk => ?_, fun hj hk => hshown.trans (outcome_of_gt hj hk), hrest⟩
    · obtain ⟨kv, hkv, hout⟩ := outcome_of_lt (some k) hj
      exact ⟨kv, hkv, hshown.trans hout⟩
    · have hmem : u ∈ s₁.trace ops := (List.mem_filter.1 (List.mem_of_getElem? hu)).1
      refine reply_of_shown (h₁.of_mem_trace hmem).2.sound ?_ (hshown.trans (outcome_of_le hj hk))
      split <;> simp
  · have hshown := (hstep j u hu).1
    unfold Transition.gives
    rw [hshown]
    by_cases hj : j < n
    · obtain ⟨kv, -, hout⟩ := outcome_of_lt (some k) hj
      rw [hout, decide_eq_true hj]
    · rw [decide_eq_false hj]
      by_cases hk : k ≤ records.length
      · rw [outcome_of_le (Nat.le_of_not_lt hj) hk]
      · rw [outcome_of_gt (Nat.le_of_not_lt hj) (Int.not_le.1 hk)]
  · exact refuses_of_not_positioned ht.sound hcourse (hoff (.inr hlen)) hr hri
  · obtain ⟨it, h, c, hit, hh, -, -⟩ := exists_of_course? hcourse
    exact ⟨it, h, hit, hh, fun hfree =>
      closesOnce_of_free ht hit hh ((ht.tracked.isHeld hit).symm.trans hfree)⟩

/-- The store with two records, when iterations are to fail behind the first one. -/
def failingAfterOne : Store := twoRecords.after [.failIterationAt (some 1)]

/-- The same store when an iteration over the family has started. -/
def failingBegun : Store := ((Run.range 0 .null).run failingAfterOne).2

/-- Going on until after the failure; that no failure is set up any more comes too late. -/
def walkToFailure : List Operation :=
  [.next 0, .failIterationAt none, .next 0, .advance 0, .next 0]

/-- Of two records the first is given out; the second step fails, and the two that follow tell of
the failure. Then the iterator can be closed. -/
theorem first_of_two_then_failure :
    let steps := failingBegun.stepsOf 0 walkToFailure
    failingAfterOne.engine.failIterationAt = some 1 ∧ steps.length = 4 ∧
    steps.countP Transition.gives = 1 ∧
    (∀ j u, steps[j]? = some u → 1 ≤ j → u.reply = .error (.store
      (if j = 1 then .engine .iterate Status.ioError else .iteratorStopped Status.ioError))) ∧
    ∃ h, ClosesOnce (failingBegun.after walkToFailure) 0 h := by
  have hreach : Reachable failingAfterOne := reachable_twoRecords.after _
  have hfail : failingAfterOne.engine.failIterationAt = some 1 := by decide +kernel
  have hrange : (Run.range 0 .null).run failingAfterOne = (.ok 0, failingBegun) := by
    have h : ((Run.range 0 .null).run failingAfterOne).1.toOption = some 0 := by decide +kernel
    exact run_eq_of_toOption h
  have hopen : (failingBegun.after walkToFailure).isOpen 0 = true := by decide +kernel
  have hsteps : (failingBegun.stepsOf 0 walkToFailure).length = 4 := by decide +kernel
  have hselected : (failingAfterOne.selection 0 .null).length = 2 := by decide +kernel
  obtain ⟨heach, hcount, -, hheld, it, h, -, -, hcloses⟩ :=
    failing_iteration hreach hfail hrange walkToFailure hopen
  rw [hselected] at heach hcount hheld
  rw [hsteps] at hcount hheld
  exact ⟨hfail, hsteps, hcount, fun j u hu hj => (heach j u hu).2.1 hj (by decide),
    h, hcloses (hheld (.inr (by decide)))⟩

end FamilyStore.Store
