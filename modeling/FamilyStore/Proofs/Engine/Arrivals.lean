import FamilyStore.Proofs.Engine.Points
import Mathlib.Data.Nat.Find

/-!
The order in which keys arrive.

Over a history of records, in which each step sets or erases one key at the most, a key that is
present has arrived when it was absent last. Records keep their keys in the order of arrival: giving
a key another value does not move it, and a key that is erased and set again goes to the end.
-/

namespace FamilyStore.Engine

variable (history : Nat → Records) {n : Nat} {k : Bytes}

/-- The last time, up to a given one, at which a key was absent. -/
def arrival (n : Nat) (k : Bytes) : Nat :=
  Nat.findGreatest (fun t => (history t).get? k = none) n

variable {history}

theorem arrival_of_absent (h : k ∉ (history n).keys) : arrival history n k = n := by
  have habsent : (history n).get? k = none := ((history n).get?_eq_none_iff k).2 h
  unfold arrival
  cases n with
  | zero => rfl
  | succ n => exact Nat.findGreatest_eq habsent

theorem arrival_lt (h : k ∈ (history (n + 1)).keys) : arrival history (n + 1) k < n + 1 := by
  have hpresent : ¬ (history (n + 1)).get? k = none := fun hn =>
    ((history (n + 1)).get?_eq_none_iff k).1 hn h
  unfold arrival
  rw [Nat.findGreatest_of_not hpresent]
  have hle : Nat.findGreatest (fun t => (history t).get? k = none) n ≤ n := Nat.findGreatest_le n
  omega

/-- As long as a key is present, its arrival stays what it was. -/
theorem arrival_succ (h : k ∈ (history (n + 1)).keys) :
    arrival history (n + 1) k = arrival history n k := by
  have hpresent : ¬ (history (n + 1)).get? k = none := fun hn =>
    ((history (n + 1)).get?_eq_none_iff k).1 hn h
  unfold arrival
  exact Nat.findGreatest_of_not hpresent

/-- Keys lie in the order of their arrival. -/
theorem keys_pairwise_arrival (hstart : (history 0).keys = [])
    (hstep : ∀ t, Edit (history t) (history (t + 1))) (n : Nat) :
    (history n).keys.Pairwise fun a b => arrival history n a < arrival history n b := by
  induction n with
  | zero =>
    rw [hstart]
    exact List.Pairwise.nil
  | succ n ih =>
    have hlater : ∀ {keys : List Bytes}, (∀ a ∈ keys, a ∈ (history (n + 1)).keys) →
        keys.Pairwise (fun a b => arrival history n a < arrival history n b) →
        keys.Pairwise fun a b => arrival history (n + 1) a < arrival history (n + 1) b :=
      fun hkeys hpair => hpair.imp_of_mem fun ha hb hab => by
        rw [arrival_succ (hkeys _ ha), arrival_succ (hkeys _ hb)]
        exact hab
    refine hlater (fun _ h => h) ?_
    obtain ⟨R, hR⟩ : ∃ R, history (n + 1) = R := ⟨_, rfl⟩
    have hedit := hstep n
    rw [hR] at hedit ⊢
    cases hedit with
    | same => exact ih
    | set k v =>
      by_cases hk : k ∈ (history n).keys
      · rw [Table.keys_set_of_mem hk]
        exact ih
      · rw [Table.keys_set_of_not_mem hk, List.pairwise_append]
        refine ⟨ih, List.pairwise_singleton _ _, fun a ha b hb => ?_⟩
        rw [List.mem_singleton.1 hb, arrival_of_absent hk]
        cases n with
        | zero =>
          rw [hstart] at ha
          exact absurd ha List.not_mem_nil
        | succ n => exact arrival_lt ha
    | erase k =>
      rw [Table.keys_erase]
      exact ih.sublist List.filter_sublist

end FamilyStore.Engine
