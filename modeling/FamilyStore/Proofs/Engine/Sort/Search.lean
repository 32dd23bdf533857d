import FamilyStore.Engine.Sort.Search
import Mathlib.Data.List.Basic

/-!
Halving and galloping find the place where a test turns.

If no element that fails the test comes before one that passes it, all elements in front of the
place pass, and all behind it fail. How the place is looked for makes no difference.
-/

namespace FamilyStore.Engine.Sort

variable {α : Type}

/-- No element that fails the test comes before one that passes it. -/
def Falls (test : α → Bool) (xs : List α) : Prop :=
  xs.Pairwise fun a b => test b = true → test a = true

/-- The test passes in front of a place and fails behind it. -/
def Splits (test : α → Bool) (n : Nat) (xs : List α) : Prop :=
  ∃ front back, xs = front ++ back ∧ front.length = n ∧
    (∀ a ∈ front, test a = true) ∧ ∀ a ∈ back, test a = false

section

variable {test : α → Bool} {xs front back : List α} {y : α} {n : Nat}

theorem splits_nil (test : α → Bool) : Splits test 0 [] :=
  ⟨[], [], rfl, rfl, fun _ ha => absurd ha List.not_mem_nil, fun _ ha => absurd ha List.not_mem_nil⟩

/-- All elements in front of one that passes the test pass it. -/
theorem Falls.pass (h : Falls test (front ++ y :: back)) (hy : test y = true) :
    ∀ a ∈ front, test a = true := fun a ha =>
  (List.pairwise_append.1 h).2.2 a ha y List.mem_cons_self hy

/-- All elements behind one that fails the test fail it. -/
theorem Falls.fail (h : Falls test (front ++ y :: back)) (hy : test y = false) :
    ∀ a ∈ back, test a = false := by
  intro a ha
  have hback := (List.pairwise_append.1 h).2.1
  have hpass := (List.pairwise_cons.1 hback).1 a ha
  cases ht : test a with
  | false => rfl
  | true => exact absurd (hy.symm.trans (hpass ht)) (by simp)

/-- The place behind an element that passes is one in what comes after it. -/
theorem Splits.behind (h : Falls test (front ++ y :: back)) (hy : test y = true)
    (hs : Splits test n back) : Splits test (front.length + 1 + n) (front ++ y :: back) := by
  obtain ⟨f, b, rfl, rfl, hf, hb⟩ := hs
  refine ⟨front ++ y :: f, b, by simp, by simp; omega, fun a ha => ?_, hb⟩
  rcases List.mem_append.1 ha with ha | ha
  · exact h.pass hy a ha
  · rcases List.mem_cons.1 ha with rfl | ha
    · exact hy
    · exact hf a ha

/-- The place before an element that fails is one in what comes before it. -/
theorem Splits.before (h : Falls test (front ++ y :: back)) (hy : test y = false)
    (hs : Splits test n front) : Splits test n (front ++ y :: back) := by
  obtain ⟨f, b, rfl, rfl, hf, hb⟩ := hs
  refine ⟨f, b ++ y :: back, by simp, rfl, hf, fun a ha => ?_⟩
  rcases List.mem_append.1 ha with ha | ha
  · exact hb a ha
  · rcases List.mem_cons.1 ha with rfl | ha
    · exact hy
    · exact h.fail hy a ha

/-- A list around one of its elements. -/
theorem append_of_drop (h : xs.drop n = y :: back) :
    xs = xs.take n ++ y :: back ∧ (xs.take n).length = n := by
  refine ⟨by rw [← h, List.take_append_drop], List.length_take_of_le ?_⟩
  have hlen := congrArg List.length h
  rw [List.length_drop, List.length_cons] at hlen
  omega

end

/-! ## Halving -/

/-- Halving without effects. -/
def halve (e : End) (test : α → Bool) (xs : List α) : Nat :=
  Id.run (halveM e (fun a => pure (test a)) xs)

section

variable {e : End} {test : α → Bool} {xs ys : List α} {y : α}

theorem halve_of_nil (h : xs.drop (e.middle xs.length) = []) : halve e test xs = 0 := by
  unfold halve
  rw [halveM]
  split
  · rfl
  · rename_i y ys heq
    exact absurd (h.symm.trans heq) (by simp)

theorem halve_of_cons (h : xs.drop (e.middle xs.length) = y :: ys) :
    halve e test xs = if test y then e.middle xs.length + 1 + halve e test ys
      else halve e test (xs.take (e.middle xs.length)) := by
  unfold halve
  rw [halveM]
  split
  · rename_i heq
    exact absurd (h.symm.trans heq) (by simp)
  · rename_i y' ys' heq
    obtain ⟨rfl, rfl⟩ := List.cons.inj (h.symm.trans heq)
    cases test y <;> simp

/-- Halving finds the place where the test turns. -/
theorem halve_splits (h : Falls test xs) : Splits test (halve e test xs) xs := by
  induction hn : xs.length using Nat.strongRecOn generalizing xs with
  | ind n ih =>
    cases hd : xs.drop (e.middle xs.length) with
    | nil =>
      have hnil : xs = [] := by
        have hle := List.drop_eq_nil_iff.1 hd
        refine List.eq_nil_of_length_eq_zero ?_
        cases e <;> simp only [End.middle] at hle <;> omega
      rw [halve_of_nil hd, hnil]
      exact splits_nil test
    | cons y ys =>
      obtain ⟨hsplit, hlen⟩ := append_of_drop hd
      have hlt : (xs.take (e.middle xs.length)).length + (ys.length + 1) = xs.length := by
        rw [← List.length_cons (a := y), ← List.length_append, ← hsplit]
      have hfalls := h
      rw [hsplit] at hfalls
      rw [halve_of_cons hd]
      cases hy : test y with
      | true =>
        have hback : Falls test ys := (List.pairwise_append.1 hfalls).2.1.of_cons
        have hs := (ih ys.length (by omega) hback rfl).behind hfalls hy
        rw [← hsplit, hlen] at hs
        rw [if_pos rfl]
        exact hs
      | false =>
        have hfront : Falls test (xs.take (e.middle xs.length)) := (List.pairwise_append.1 hfalls).1
        have hs := (ih _ (by omega) hfront rfl).before hfalls hy
        rw [← hsplit] at hs
        rw [if_neg Bool.false_ne_true]
        exact hs

end

/-! ## Galloping -/

/-- Looking at growing distances, without effects. -/
def stride (e : End) (test : α → Bool) (n : Nat) (xs : List α) : Nat :=
  Id.run (strideM e (fun a => pure (test a)) n xs)

/-- Galloping without effects. -/
def gallop (e : End) (test : α → Bool) (xs : List α) : Nat :=
  Id.run (gallopM e (fun a => pure (test a)) xs)

section

variable {e : End} {test : α → Bool} {xs ys : List α} {y : α} {n : Nat}

theorem stride_of_nil (h : xs.drop n = []) : stride e test n xs = halve e test xs := by
  unfold stride
  rw [strideM]
  split
  · rfl
  · rename_i y ys heq
    exact absurd (h.symm.trans heq) (by simp)

theorem stride_of_cons (h : xs.drop n = y :: ys) :
    stride e test n xs = if test y then n + 1 + stride e test (2 * n + 1) ys
      else halve e test (xs.take n) := by
  unfold stride
  rw [strideM]
  split
  · rename_i heq
    exact absurd (h.symm.trans heq) (by simp)
  · rename_i y' ys' heq
    obtain ⟨rfl, rfl⟩ := List.cons.inj (h.symm.trans heq)
    cases test y <;> simp [halve]

theorem stride_splits (n : Nat) (h : Falls test xs) : Splits test (stride e test n xs) xs := by
  induction hk : xs.length using Nat.strongRecOn generalizing xs n with
  | ind k ih =>
    cases hd : xs.drop n with
    | nil =>
      rw [stride_of_nil hd]
      exact halve_splits h
    | cons y ys =>
      obtain ⟨hsplit, hlen⟩ := append_of_drop hd
      have hlt : (xs.take n).length + (ys.length + 1) = xs.length := by
        rw [← List.length_cons (a := y), ← List.length_append, ← hsplit]
      have hfalls := h
      rw [hsplit] at hfalls
      rw [stride_of_cons hd]
      cases hy : test y with
      | true =>
        have hback : Falls test ys := (List.pairwise_append.1 hfalls).2.1.of_cons
        have hs := (ih ys.length (by omega) (2 * n + 1) hback rfl).behind hfalls hy
        rw [← hsplit, hlen] at hs
        rw [if_pos rfl]
        exact hs
      | false =>
        have hfront : Falls test (xs.take n) := (List.pairwise_append.1 hfalls).1
        have hs := (halve_splits (e := e) hfront).before hfalls hy
        rw [← hsplit] at hs
        rw [if_neg Bool.false_ne_true]
        exact hs

theorem gallop_cons (x : α) (xs : List α) :
    gallop e test (x :: xs) = if test x then 1 + stride e test 0 xs else 0 := by
  unfold gallop
  rw [gallopM]
  cases test x <;> simp [stride]

/-- Galloping finds the place where the test turns. -/
theorem gallop_splits (h : Falls test xs) : Splits test (gallop e test xs) xs := by
  cases xs with
  | nil => exact splits_nil test
  | cons x xs =>
    rw [gallop_cons]
    have hfalls : Falls test ([] ++ x :: xs) := h
    cases hx : test x with
    | true =>
      have hs := (stride_splits (e := e) 0 h.of_cons).behind hfalls hx
      rw [if_pos rfl, ← Nat.zero_add 1]
      exact hs
    | false =>
      rw [if_neg Bool.false_ne_true]
      exact (splits_nil test).before hfalls hx

end

end FamilyStore.Engine.Sort
