import FamilyStore.Engine.Sort
import FamilyStore.Proofs.Engine.Sort.Merge

/-!
Runs and the stack on which they wait.

The runs on the stack are neighbours in the list, and only neighbours are merged. So whatever the
comparison answers, sorting gives the elements that it was given; and if the comparison decides
between any two elements in favour of a strict order, the sorted list follows that order.
-/

namespace FamilyStore.Engine.Sort

variable {α : Type} {less : α → α → Bool}

/-! ## Cutting off a run -/

/-- Taking an element in, without effects. -/
def insert (less : α → α → Bool) (sorted : List α) (x : α) : List α :=
  Id.run (insertM (fun a b => pure (less a b)) sorted x)

theorem insert_eq {sorted : List α} {x : α} {n : Nat}
    (h : halve .front (fun a => !less x a) sorted = n) :
    insert less sorted x = sorted.take n ++ x :: sorted.drop n := by
  subst h
  rfl

theorem insert_perm (less : α → α → Bool) (sorted : List α) (x : α) :
    (insert less sorted x).Perm (sorted ++ [x]) := by
  rw [insert_eq rfl]
  refine List.perm_middle.trans ?_
  rw [List.take_append_drop]
  exact (List.perm_append_comm : ([x] ++ sorted).Perm (sorted ++ [x]))

/-- How long a run goes on, without effects. -/
def followers (less : α → α → Bool) (descending : Bool) (last : α) (xs : List α) : Nat :=
  Id.run (followersM (fun a b => pure (less a b)) descending last xs)

theorem followers_cons (descending : Bool) (last x : α) (xs : List α) :
    followers less descending last (x :: xs) =
      if less x last == descending then 1 + followers less descending x xs else 0 := by
  unfold followers
  rw [followersM]
  cases less x last <;> cases descending <;> rfl

/-- What a run and its elements behind it are, without effects. -/
def runAt (less : α → α → Bool) (x : α) (xs : List α) : Bool × Nat :=
  Id.run (runAtM (fun a b => pure (less a b)) x xs)

/-- The first comparison says which way a run goes. -/
theorem runAt_eq (x : α) (xs : List α) :
    runAt less x xs = ((runAt less x xs).1, followers less (runAt less x xs).1 x xs) := by
  cases xs with
  | nil => rfl
  | cons y ys =>
    have hrun : runAt less x (y :: ys) = (less y x, 1 + followers less (less y x) y ys) := rfl
    rw [hrun, followers_cons, beq_self_eq_true, if_pos rfl]

/-- A run follows an order if the comparison decides it, one way or the other. -/
theorem followers_pairwise {Q : α → α → Prop} [IsStrictOrder α Q] {descending : Bool} {x : α}
    {xs : List α} (h : (x :: xs).Pairwise fun a b => less b a = descending → Q a b) :
    (x :: xs.take (followers less descending x xs)).Pairwise Q := by
  induction xs generalizing x with
  | nil => exact List.pairwise_singleton Q x
  | cons y ys ih =>
    obtain ⟨hx, hys⟩ := List.pairwise_cons.1 h
    rw [followers_cons]
    cases hless : less y x == descending with
    | false =>
      rw [if_neg Bool.false_ne_true]
      exact List.pairwise_singleton Q x
    | true =>
      have hrest := ih hys
      have hxy : Q x y := hx y List.mem_cons_self (beq_iff_eq.1 hless)
      rw [if_pos rfl, Nat.add_comm, List.take_succ_cons]
      refine List.pairwise_cons.2 ⟨fun b hb => ?_, hrest⟩
      rcases List.mem_cons.1 hb with rfl | hb
      · exact hxy
      · exact trans_of Q hxy ((List.pairwise_cons.1 hrest).1 b hb)

theorem Apart.of_perm {R : α → α → Prop} {left left' right right' : List α}
    (h : Apart less R left right) (hl : left'.Perm left) (hr : right'.Perm right) :
    Apart less R left' right' := fun a ha b hb => h a (hl.mem_iff.1 ha) b (hr.mem_iff.1 hb)

theorem insert_pairwise {R : α → α → Prop} [IsStrictOrder α R] {sorted : List α} {x : α}
    (hs : sorted.Pairwise R) (ha : Apart less R sorted [x]) :
    (insert less sorted x).Pairwise R := by
  obtain ⟨n, hn⟩ : ∃ n, halve .front (fun a => !less x a) sorted = n := ⟨_, rfl⟩
  have hplace : Falls (fun a => !less x a) sorted → Splits (fun a => !less x a) n sorted :=
    fun hf => hn ▸ halve_splits hf
  obtain ⟨front, back, rfl, hlen, hfront, hback⟩ :=
    exists_split hplace hs fun a ha' => of_not (ha a ha' x (List.mem_singleton_self x))
  obtain ⟨hpf, hpb, -⟩ := List.pairwise_append.1 hs
  rw [insert_eq hn, ← hlen, List.take_left, List.drop_left]
  exact pairwise_around hpf hpb hfront hback

/-- Elements that are taken in one by one. -/
theorem foldl_insert_perm (ys sorted : List α) :
    (ys.foldl (insert less) sorted).Perm (sorted ++ ys) := by
  induction ys generalizing sorted with
  | nil => rw [List.append_nil]; exact .refl _
  | cons y ys ih =>
    have hinsert := (insert_perm less sorted y).append_right ys
    rw [List.append_assoc] at hinsert
    exact (ih _).trans hinsert

theorem foldl_insert_pairwise {R : α → α → Prop} [IsStrictOrder α R] {ys sorted : List α}
    (hs : sorted.Pairwise R) (hys : ys.Pairwise (Decides less R)) (ha : Apart less R sorted ys) :
    (ys.foldl (insert less) sorted).Pairwise R := by
  induction ys generalizing sorted with
  | nil => exact hs
  | cons y ys ih =>
    obtain ⟨hy, hys⟩ := List.pairwise_cons.1 hys
    have hnow : Apart less R sorted [y] := fun a ha' b hb => by
      rw [List.mem_singleton.1 hb]
      exact ha a ha' y List.mem_cons_self
    refine ih (insert_pairwise hs hnow) hys fun a ha' b hb => ?_
    rcases List.mem_append.1 ((insert_perm less sorted y).mem_iff.1 ha') with ha' | ha'
    · exact ha a ha' b (List.mem_cons_of_mem y hb)
    · rw [List.mem_singleton.1 ha']
      exact hy b hb

/-- A run in ascending order. -/
def turned (descending : Bool) (run : List α) : List α := if descending then run.reverse else run

theorem turned_perm (descending : Bool) (run : List α) : (turned descending run).Perm run := by
  cases descending with
  | true => exact List.reverse_perm run
  | false => exact .refl run

theorem turned_pairwise {R : α → α → Prop} [IsStrictOrder α R] (descending : Bool) {x : α}
    {xs : List α} (h : (x :: xs).Pairwise (Decides less R)) :
    (turned descending (x :: xs.take (followers less descending x xs))).Pairwise R := by
  unfold turned
  cases descending with
  | true =>
    have hswap : IsStrictOrder α (Function.swap R) := inferInstance
    rw [if_pos rfl, List.pairwise_reverse]
    exact followers_pairwise (Q := Function.swap R) (h.imp fun hd => hd.1)
  | false =>
    rw [if_neg Bool.false_ne_true]
    exact followers_pairwise (h.imp fun hd => hd.2)

/-! ## Merging neighbours -/

/-- Runs that come from others, the last one first, by merging neighbours. -/
inductive Merges (less : α → α → Bool) : List (List α) → List (List α) → Prop
  | refl (runs : List (List α)) : Merges less runs runs
  | step (front : List (List α)) (last below : List α) (back : List (List α)) (threshold : Nat)
      {runs : List (List α)}
      (rest : Merges less (front ++ (merge less threshold below last).1 :: back) runs) :
      Merges less (front ++ last :: below :: back) runs

/-- Runs that follow an order, the last one first, between which the comparison decides. -/
structure Arranged (less : α → α → Bool) (R : α → α → Prop) (runs : List (List α)) : Prop where
  inOrder : ∀ run ∈ runs, run.Pairwise R
  apart : runs.Pairwise fun last below => Apart less R below last

namespace Merges

variable {runs runs' : List (List α)}

theorem perm (h : Merges less runs runs') : runs'.flatten.Perm runs.flatten := by
  induction h with
  | refl runs => exact .refl _
  | step front last below back threshold rest ih =>
    refine ih.trans ?_
    rw [List.flatten_append, List.flatten_append, List.flatten_cons, List.flatten_cons,
      List.flatten_cons, ← List.append_assoc last]
    refine (List.Perm.append_right _ ?_).append_left _
    exact merge_perm.trans List.perm_append_comm

theorem arranged {R : α → α → Prop} [IsStrictOrder α R] (h : Merges less runs runs')
    (ha : Arranged less R runs) : Arranged less R runs' := by
  induction h with
  | refl runs => exact ha
  | step front last below back threshold rest ih =>
    obtain ⟨hruns, hapart⟩ := ha
    obtain ⟨hpf, hpb, hcross⟩ := List.pairwise_append.1 hapart
    obtain ⟨hlast, hpb⟩ := List.pairwise_cons.1 hpb
    obtain ⟨hbelow, hpb⟩ := List.pairwise_cons.1 hpb
    have hmem : ∀ {a}, a ∈ (merge less threshold below last).1 → a ∈ below ∨ a ∈ last := fun h =>
      List.mem_append.1 (merge_perm.mem_iff.1 h)
    have hmerged : (merge less threshold below last).1.Pairwise R :=
      merge_pairwise (hruns below (by simp)) (hruns last (by simp))
        (hlast below List.mem_cons_self)
    refine ih ⟨fun run hrun => ?_, List.pairwise_append.2 ⟨hpf, List.pairwise_cons.2 ⟨?_, hpb⟩, ?_⟩⟩
    · rcases List.mem_append.1 hrun with hrun | hrun
      · exact hruns run (List.mem_append_left _ hrun)
      · rcases List.mem_cons.1 hrun with rfl | hrun
        · exact hmerged
        · exact hruns run (by simp [hrun])
    · intro run hrun a ha b hb
      rcases hmem hb with hb | hb
      · exact hbelow run hrun a ha b hb
      · exact hlast run (List.mem_cons_of_mem below hrun) a ha b hb
    · intro run hrun run' hrun' a ha b hb
      rcases List.mem_cons.1 hrun' with rfl | hrun'
      · rcases hmem ha with ha | ha
        · exact hcross run hrun below (by simp) a ha b hb
        · exact hcross run hrun last List.mem_cons_self a ha b hb
      · exact hcross run hrun run' (by simp [hrun']) a ha b hb

end Merges

/-- The runs that wait. -/
def runsOf (waiting : List (Waiting α)) : List (List α) := waiting.map Waiting.run

/-- Merging runs that wait, without effects. -/
def settle (less : α → α → Bool) (power threshold : Nat) (waiting : List (Waiting α)) : Stack α :=
  Id.run (settleM (fun a b => pure (less a b)) power threshold waiting)

/-- Merging all runs that wait, without effects. -/
def collapse (less : α → α → Bool) (threshold : Nat) (waiting : List (Waiting α)) : List α :=
  Id.run (collapseM (fun a b => pure (less a b)) threshold waiting)

section

variable {last below lower : Waiting α} {rest : List (Waiting α)} {m m' : List α}
  {power threshold t t' : Nat}

theorem settle_cons (hm : merge less threshold below.run last.run = (m, t)) :
    settle less power threshold (last :: below :: rest) =
      if power < last.power then settle less power t (⟨m, below.power⟩ :: rest)
      else ⟨last :: below :: rest, threshold⟩ := by
  unfold settle
  rw [settleM]
  split
  · have hrun : Id.run (mergeM (fun a b => (pure (less a b) : Id Bool)) threshold below.run
        last.run) = (m, t) := hm
    rw [Id.run_bind, hrun]
  · rfl

theorem collapse_two : collapse less threshold [last, below] =
    (merge less threshold below.run last.run).1 := by
  unfold collapse
  rw [collapseM]
  rfl

/-- Of three runs the one in the middle goes to the shorter neighbour. -/
theorem collapse_cons (hm : merge less threshold lower.run below.run = (m, t))
    (hm' : merge less threshold below.run last.run = (m', t')) :
    collapse less threshold (last :: below :: lower :: rest) =
      if lower.run.length < last.run.length then
        collapse less t (last :: ⟨m, lower.power⟩ :: rest)
      else collapse less t' (⟨m', below.power⟩ :: lower :: rest) := by
  unfold collapse
  rw [collapseM]
  split
  · have hrun : Id.run (mergeM (fun a b => (pure (less a b) : Id Bool)) threshold lower.run
        below.run) = (m, t) := hm
    rw [Id.run_bind, hrun]
  · have hrun : Id.run (mergeM (fun a b => (pure (less a b) : Id Bool)) threshold below.run
        last.run) = (m', t') := hm'
    rw [Id.run_bind, hrun]

end

theorem settle_merges (power threshold : Nat) (waiting : List (Waiting α)) :
    Merges less (runsOf waiting) (runsOf (settle less power threshold waiting).waiting) := by
  induction hn : waiting.length using Nat.strongRecOn generalizing threshold waiting with
  | ind n ih =>
    rcases waiting with _ | ⟨last, _ | ⟨below, rest⟩⟩
    · unfold settle
      rw [settleM]
      · exact .refl _
      · simp
    · unfold settle
      rw [settleM]
      · exact .refl _
      · simp
    · obtain ⟨m, t, hm⟩ : ∃ m t, merge less threshold below.run last.run = (m, t) := ⟨_, _, rfl⟩
      have hrest := ih _ (by simp at hn ⊢; omega) t (⟨m, below.power⟩ :: rest) rfl
      rw [settle_cons hm]
      by_cases hp : power < last.power
      · rw [if_pos hp]
        refine .step [] last.run below.run (runsOf rest) threshold ?_
        rw [hm]
        exact hrest
      · rw [if_neg hp]
        exact .refl _

theorem collapse_merges (less : α → α → Bool) {waiting : List (Waiting α)} (hw : waiting ≠ [])
    (threshold : Nat) :
    Merges less (runsOf waiting) [collapse less threshold waiting] := by
  induction hn : waiting.length using Nat.strongRecOn generalizing threshold waiting with
  | ind n ih =>
    rcases waiting with _ | ⟨last, _ | ⟨below, _ | ⟨lower, rest⟩⟩⟩
    · exact absurd rfl hw
    · unfold collapse
      rw [collapseM]
      exact .refl _
    · rw [collapse_two]
      exact .step [] last.run below.run [] threshold (.refl _)
    · obtain ⟨m, t, hm⟩ : ∃ m t, merge less threshold lower.run below.run = (m, t) := ⟨_, _, rfl⟩
      obtain ⟨m', t', hm'⟩ : ∃ m t, merge less threshold below.run last.run = (m, t) := ⟨_, _, rfl⟩
      rw [collapse_cons hm hm']
      by_cases hlt : lower.run.length < last.run.length
      · rw [if_pos hlt]
        refine .step [last.run] below.run lower.run (runsOf rest) threshold ?_
        rw [hm]
        have hrest : Merges less (runsOf (last :: ⟨m, lower.power⟩ :: rest)) _ :=
          ih _ (by simp at hn ⊢; omega) (List.cons_ne_nil _ _) t rfl
        exact hrest
      · rw [if_neg hlt]
        refine .step [] last.run below.run (lower.run :: runsOf rest) threshold ?_
        rw [hm']
        have hrest : Merges less (runsOf (⟨m', below.power⟩ :: lower :: rest)) _ :=
          ih _ (by simp at hn ⊢; omega) (List.cons_ne_nil _ _) t' rfl
        exact hrest

/-- Putting a run on the stack, without effects. -/
def push (less : α → α → Bool) (total : Nat) (stack : Stack α) (run : List α) : Stack α :=
  Id.run (pushM (fun a b => pure (less a b)) total stack run)

/-- Cutting a list into runs, without effects. -/
def pushAll (less : α → α → Bool) (total least : Nat) (stack : Stack α) (xs : List α) : Stack α :=
  Id.run (pushAllM (fun a b => pure (less a b)) total least stack xs)

/-- A new run lies on the runs that were there, of which some have been merged. -/
theorem push_merges (less : α → α → Bool) (total : Nat) (stack : Stack α) (run : List α) :
    ∃ runs, Merges less (runsOf stack.waiting) runs ∧
      runsOf (push less total stack run).waiting = run :: runs := by
  obtain ⟨waiting, threshold⟩ := stack
  cases waiting with
  | nil => exact ⟨[], .refl _, rfl⟩
  | cons last below => exact ⟨_, settle_merges _ threshold (last :: below), rfl⟩

/-- The next run that is cut off, and what is left. -/
theorem pushAll_cons (less : α → α → Bool) (total least : Nat) (stack : Stack α) (x : α)
    (xs : List α) :
    ∃ front run rest, x :: xs = front ++ rest ∧ rest.length ≤ xs.length ∧ run.Perm front ∧
      (∀ R : α → α → Prop, IsStrictOrder α R → (x :: xs).Pairwise (Decides less R) →
        run.Pairwise R) ∧
      pushAll less total least stack (x :: xs) =
        pushAll less total least (push less total stack run) rest := by
  obtain ⟨d, hd⟩ : ∃ d, (runAt less x xs).1 = d := ⟨_, rfl⟩
  obtain ⟨n, hn⟩ : ∃ n, followers less d x xs = n := ⟨_, rfl⟩
  have hrun : runAt less x xs = (d, n) := by
    rw [runAt_eq, hd, hn]
  obtain ⟨k, hk⟩ : ∃ k, least - (x :: xs.take n).length = k := ⟨_, rfl⟩
  have hfront : (x :: xs.take n) ++ ((xs.drop n).take k ++ (xs.drop n).drop k) = x :: xs := by
    rw [List.take_append_drop, List.cons_append, List.take_append_drop]
  refine ⟨(x :: xs.take n) ++ (xs.drop n).take k,
    ((xs.drop n).take k).foldl (insert less) (turned d (x :: xs.take n)), (xs.drop n).drop k,
    ?_, ?_, ?_, ?_, ?_⟩
  · rw [List.append_assoc, hfront]
  · rw [List.length_drop, List.length_drop]
    omega
  · exact (foldl_insert_perm _ _).trans ((turned_perm d _).append_right _)
  · intro R hR h
    have hturned := turned_pairwise d h
    rw [hn] at hturned
    rw [← hfront] at h
    obtain ⟨-, hrest, hcross⟩ := List.pairwise_append.1 h
    refine foldl_insert_pairwise hturned (List.pairwise_append.1 hrest).1 fun a ha b hb => ?_
    exact hcross a ((turned_perm d _).mem_iff.1 ha) b (List.mem_append_left _ hb)
  · unfold pushAll
    rw [pushAllM, Id.run_bind]
    have hrun' : Id.run (runAtM (fun a b => (pure (less a b) : Id Bool)) x xs) = (d, n) := hrun
    rw [hrun']
    dsimp only
    rw [Id.run_bind, hk, List.idRun_foldlM]
    rfl

/-! ## Sorting -/

theorem pushAll_perm (less : α → α → Bool) (total least : Nat) (stack : Stack α) (xs : List α) :
    (runsOf (pushAll less total least stack xs).waiting).flatten.Perm
      ((runsOf stack.waiting).flatten ++ xs) := by
  induction hn : xs.length using Nat.strongRecOn generalizing stack xs with
  | ind n ih =>
    cases xs with
    | nil =>
      unfold pushAll
      rw [pushAllM, List.append_nil]
      exact .refl _
    | cons x xs =>
      obtain ⟨front, run, rest, hsplit, hlen, hrun, -, hpush⟩ :=
        pushAll_cons less total least stack x xs
      obtain ⟨runs, hmerges, hruns⟩ := push_merges less total stack run
      have hrest := ih rest.length (by rw [List.length_cons] at hn; omega)
        (push less total stack run) rest rfl
      rw [hruns, List.flatten_cons] at hrest
      rw [hpush, hsplit, ← List.append_assoc]
      refine hrest.trans (List.Perm.append_right rest ?_)
      exact List.perm_append_comm.trans (hmerges.perm.append hrun)

theorem pushAll_arranged {R : α → α → Prop} [hR : IsStrictOrder α R] (total least : Nat)
    {stack : Stack α} {xs : List α} (hs : Arranged less R (runsOf stack.waiting))
    (ha : Apart less R (runsOf stack.waiting).flatten xs) (hxs : xs.Pairwise (Decides less R)) :
    Arranged less R (runsOf (pushAll less total least stack xs).waiting) := by
  induction hn : xs.length using Nat.strongRecOn generalizing stack xs with
  | ind n ih =>
    cases xs with
    | nil =>
      unfold pushAll
      rw [pushAllM]
      exact hs
    | cons x xs =>
      obtain ⟨front, run, rest, hsplit, hlen, hrun, hsorted, hpush⟩ :=
        pushAll_cons less total least stack x xs
      obtain ⟨runs, hmerges, hruns⟩ := push_merges less total stack run
      have hrunR := hsorted R hR hxs
      rw [hsplit] at ha hxs
      obtain ⟨-, hrest, hcross⟩ := List.pairwise_append.1 hxs
      obtain ⟨hinorder, hapart⟩ := hmerges.arranged hs
      have hold : Apart less R runs.flatten (front ++ rest) := ha.of_perm hmerges.perm (.refl _)
      rw [hpush]
      refine ih rest.length (by rw [List.length_cons] at hn; omega) ?_ ?_ hrest rfl
      · rw [hruns]
        refine ⟨fun r hr => ?_, List.pairwise_cons.2 ⟨fun below hb a ha' b hb' => ?_, hapart⟩⟩
        · rcases List.mem_cons.1 hr with rfl | hr
          · exact hrunR
          · exact hinorder r hr
        · exact hold a (List.mem_flatten.2 ⟨below, hb, ha'⟩) b
            (List.mem_append_left rest (hrun.mem_iff.1 hb'))
      · rw [hruns, List.flatten_cons]
        intro a ha' b hb
        rcases List.mem_append.1 ha' with ha' | ha'
        · exact hcross a (hrun.mem_iff.1 ha') b hb
        · exact hold a ha' b (List.mem_append_right front hb)

/-- Sorting is collapsing the runs that a list is cut into. -/
theorem sort_eq (less : α → α → Bool) (xs : List α) : ∃ stack : Stack α,
    pushAll less xs.length (leastRun xs.length) ⟨[], worthwhile⟩ xs = stack ∧
      sort less xs = collapse less stack.threshold stack.waiting := ⟨_, rfl, rfl⟩

/-- Sorting by any comparison gives each element as often as it was there. -/
theorem sort_perm (less : α → α → Bool) (xs : List α) : (sort less xs).Perm xs := by
  obtain ⟨stack, hstack, hsort⟩ := sort_eq less xs
  have hperm := pushAll_perm less xs.length (leastRun xs.length) ⟨[], worthwhile⟩ xs
  rw [hstack] at hperm
  rw [hsort]
  by_cases hw : stack.waiting = []
  · rw [hw] at hperm ⊢
    unfold collapse
    rw [collapseM]
    exact hperm
  · have hcollapse := (collapse_merges less hw stack.threshold).perm
    rw [List.flatten_singleton] at hcollapse
    exact hcollapse.trans hperm

/-- Sorting follows every strict order that the comparison decides for the list. -/
theorem sort_pairwise {R : α → α → Prop} [IsStrictOrder α R] {xs : List α}
    (h : xs.Pairwise (Decides less R)) : (sort less xs).Pairwise R := by
  obtain ⟨stack, hstack, hsort⟩ := sort_eq less xs
  have hnone : Arranged less R (runsOf (⟨[], worthwhile⟩ : Stack α).waiting) :=
    ⟨fun _ hr => absurd hr List.not_mem_nil, List.Pairwise.nil⟩
  have harranged := pushAll_arranged xs.length (leastRun xs.length) hnone
    (fun _ ha => absurd ha List.not_mem_nil) h
  rw [hstack] at harranged
  rw [hsort]
  by_cases hw : stack.waiting = []
  · rw [hw]
    unfold collapse
    rw [collapseM]
    exact List.Pairwise.nil
  · exact ((collapse_merges less hw stack.threshold).arranged harranged).inOrder _ (by simp)

end FamilyStore.Engine.Sort
