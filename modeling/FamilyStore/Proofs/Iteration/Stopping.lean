import FamilyStore.Proofs.Iteration.Steps

/-!
Where an iteration stops.

It gives out the records of its snapshot one after the other, as many as there are before the
position at which it is to fail. Then it stops: with a failure if that position is at a record or
right behind the last one, and with the end of the records else. It stops once; what comes after
says so and changes nothing.
-/

namespace FamilyStore.Store.Course

/-- How many records an iteration gives out. -/
def reach (records : List Engine.Record) (failAt : Option Int) : Nat :=
  match failAt with
  | some k => min k.toNat records.length
  | none => records.length

/-- How an iteration stops. -/
def stop (records : List Engine.Record) (failAt : Option Int) : Progress :=
  match failAt with
  | some k => if k ≤ records.length then .failed Status.ioError else .exhausted
  | none => .exhausted

/-- What the step with a number comes to, counted from zero. -/
def outcome (records : List Engine.Record) (failAt : Option Int) (k : Nat) :
    Except Failure (Option Engine.Record) :=
  if k < reach records failAt then .ok records[k]?
  else
    match stop records failAt with
    | .failed status =>
      if k = reach records failAt then .error (Run.statusFailure .iterate status)
      else .error (.store (.iteratorStopped status))
    | _ => .ok none

/-- The course of an iteration after some steps. -/
def stepped (records : List Engine.Record) (failAt : Option Int) (k : Nat) : Course where
  records := records
  failAt := failAt
  position := min (k - 1) (reach records failAt)
  positioned := decide (1 ≤ k ∧ k ≤ reach records failAt)
  progress := if reach records failAt < k then stop records failAt else .running
  generation := min (k - 1) (reach records failAt)

variable {records : List Engine.Record} {failAt : Option Int} {k : Nat}

theorem reach_le (records : List Engine.Record) (failAt : Option Int) :
    reach records failAt ≤ records.length := by
  unfold reach
  cases failAt with
  | none => exact Nat.le_refl _
  | some p => exact Nat.min_le_right _ _

theorem stepped_zero (records : List Engine.Record) (failAt : Option Int) :
    stepped records failAt 0 = fresh records failAt := by
  unfold stepped fresh
  rw [if_neg (Nat.not_lt_zero _), decide_eq_false (by omega), Nat.zero_sub, Nat.zero_min]

/-- Before it stops, an iteration leaves the record that it is at for the next position. -/
theorem leave_stepped (hk : k ≤ reach records failAt) :
    (stepped records failAt k).leave = ⟨records, failAt, k, false, .running, k⟩ := by
  unfold leave stepped
  dsimp only
  rw [if_neg (Nat.not_lt.2 hk)]
  cases k with
  | zero =>
    rw [if_neg (by simp)]
    simp
  | succ k =>
    rw [if_pos (by simpa using hk), Nat.add_sub_cancel, Nat.min_eq_left (Nat.le_of_succ_le hk)]

/-- An iteration fails at a position within its reach exactly if it is to stop there so. -/
theorem fails_iff (hk : k ≤ reach records failAt) :
    fails ⟨records, failAt, k, false, .running, k⟩ = true ↔
      k = reach records failAt ∧ stop records failAt = .failed Status.ioError := by
  unfold fails stop reach at *
  cases failAt with
  | none => simp
  | some p =>
    dsimp only at hk ⊢
    rw [decide_eq_true_iff]
    by_cases hp : p ≤ records.length
    · rw [if_pos hp]
      constructor
      · intro hle
        exact ⟨by omega, rfl⟩
      · rintro ⟨heq, -⟩
        omega
    · rw [if_neg hp]
      constructor
      · intro hle
        omega
      · rintro ⟨-, hno⟩
        exact absurd hno (by simp)

/-- An iteration that does not fail has come to the end of its records when it stops. -/
theorem reach_of_exhausted (h : stop records failAt ≠ .failed Status.ioError) :
    stop records failAt = .exhausted ∧ reach records failAt = records.length := by
  unfold stop reach at *
  cases failAt with
  | none => exact ⟨rfl, rfl⟩
  | some p =>
    dsimp only at h ⊢
    by_cases hp : p ≤ records.length
    · rw [if_pos hp] at h
      exact absurd rfl h
    · rw [if_neg hp]
      exact ⟨rfl, by omega⟩

theorem stop_ne_running (records : List Engine.Record) (failAt : Option Int) :
    stop records failAt ≠ .running := by
  unfold stop
  cases failAt with
  | none => simp
  | some p => dsimp only; split <;> simp

/-- The course after one step more. -/
theorem stepped_succ (hk : k ≤ reach records failAt) : stepped records failAt (k + 1) =
    ⟨records, failAt, k, decide (k < reach records failAt),
      if k < reach records failAt then .running else stop records failAt, k⟩ := by
  unfold stepped
  rw [Nat.add_sub_cancel, Nat.min_eq_left hk]
  by_cases hlt : k < reach records failAt
  · rw [if_pos hlt, if_neg (by omega), decide_eq_true hlt, decide_eq_true (by omega)]
  · rw [if_neg hlt, if_pos (by omega), decide_eq_false hlt, decide_eq_false (by omega)]

/-- Each step gives out the next record within reach. The first one behind stops the iteration, and
no later one does anything. -/
theorem step_stepped (records : List Engine.Record) (failAt : Option Int) (k : Nat) :
    (stepped records failAt k).step =
      (stepped records failAt (k + 1), outcome records failAt k) := by
  by_cases hk : k ≤ reach records failAt
  · have hprogress : (stepped records failAt k).progress = .running := if_neg (Nat.not_lt.2 hk)
    have hfails := fails_iff hk
    have hgo : (stepped records failAt k).step =
        (stepped records failAt k).leave.settle := by
      unfold step
      rw [hprogress]
    rw [hgo, leave_stepped hk, stepped_succ hk]
    unfold outcome
    by_cases hlt : k < reach records failAt
    · have hno : fails ⟨records, failAt, k, false, .running, k⟩ = false :=
        Bool.eq_false_iff.2 fun h => Nat.ne_of_lt hlt (hfails.1 h).1
      have hkv := List.getElem?_eq_getElem (Nat.lt_of_lt_of_le hlt (reach_le records failAt))
      rw [settle_of_some hno hkv, if_pos hlt, if_pos hlt, decide_eq_true hlt, hkv]
    · have heq : k = reach records failAt := Nat.le_antisymm hk (Nat.le_of_not_lt hlt)
      rw [if_neg hlt, if_neg hlt, decide_eq_false hlt]
      by_cases hstop : stop records failAt = .failed Status.ioError
      · rw [settle_of_fails (hfails.2 ⟨heq, hstop⟩), hstop]
        dsimp only
        rw [if_pos heq]
      · obtain ⟨hend, hlen⟩ := reach_of_exhausted hstop
        have hno : fails ⟨records, failAt, k, false, .running, k⟩ = false :=
          Bool.eq_false_iff.2 fun h => hstop (hfails.1 h).2
        have hnone : records[k]? = none := List.getElem?_eq_none (by omega)
        rw [settle_of_none hno hnone, hend]
  · have hlt : reach records failAt < k := Nat.lt_of_not_le hk
    have hprogress : (stepped records failAt k).progress = stop records failAt := if_pos hlt
    have hsame : stepped records failAt (k + 1) = stepped records failAt k := by
      unfold stepped
      rw [if_pos hlt, if_pos (by omega), decide_eq_false (by omega), decide_eq_false (by omega),
        Nat.min_eq_right (by omega), Nat.min_eq_right (by omega)]
    unfold step outcome
    rw [hprogress, hsame, if_neg (by omega)]
    cases hstop : stop records failAt with
    | running => exact absurd hstop (stop_ne_running records failAt)
    | exhausted => rfl
    | failed status =>
      dsimp only
      rw [if_neg (by omega)]

end FamilyStore.Store.Course
