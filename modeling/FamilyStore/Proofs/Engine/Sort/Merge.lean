import FamilyStore.Engine.Sort.Merge
import FamilyStore.Proofs.Engine.Sort.Search
import Mathlib.Order.RelClasses

/-!
Merging two neighbouring runs.

However joining goes about it, what it does is one of a few things: it takes one element after a
comparison, or it takes as many as galloping says and one more. So it loses no element, whatever the
comparison answers. When the comparison decides between any element of the left run and any of the
right one in favour of a strict order, and both runs follow that order, so does the merged run. The
order may tell elements apart that compare equal; then the left one comes first.
-/

namespace FamilyStore.Engine.Sort

variable {α : Type}

/-! ## Orders that a comparison decides -/

/-- The comparison tells which of two elements comes first in an order, `a` having been first. -/
def Decides (less : α → α → Bool) (R : α → α → Prop) (a b : α) : Prop :=
  (less b a = true → R b a) ∧ (less b a = false → R a b)

/-- The comparison decides between any two elements of neighbouring lists. -/
def Apart (less : α → α → Bool) (R : α → α → Prop) (left right : List α) : Prop :=
  ∀ a ∈ left, ∀ b ∈ right, Decides less R a b

/-- What follows from a test, turned round for its opposite. -/
theorem of_not {b : Bool} {p q : Prop} (h : (b = true → p) ∧ (b = false → q)) :
    ((!b) = true → q) ∧ ((!b) = false → p) := by
  cases b with
  | true => exact ⟨fun hn => absurd hn (by simp), fun _ => h.1 rfl⟩
  | false => exact ⟨fun _ => h.2 rfl, fun hn => absurd hn (by simp)⟩

/-- Where a test for one side of an element turns, all elements in front are on that side, and all
behind are on the other. -/
theorem exists_split {Q : α → α → Prop} [IsStrictOrder α Q] {test : α → Bool} {n : Nat}
    {xs : List α} (hs : Falls test xs → Splits test n xs) (hxs : xs.Pairwise Q) {b : α}
    (htest : ∀ a ∈ xs, (test a = true → Q a b) ∧ (test a = false → Q b a)) :
    ∃ front back, xs = front ++ back ∧ front.length = n ∧
      (∀ a ∈ front, Q a b) ∧ ∀ a ∈ back, Q b a := by
  have hfalls : Falls test xs := by
    refine hxs.imp_of_mem fun {a c} ha hc hac hpass => ?_
    have hab : Q a b := trans_of Q hac ((htest c hc).1 hpass)
    cases ht : test a with
    | true => rfl
    | false => exact absurd ((htest a ha).2 ht) (asymm_of Q hab)
  obtain ⟨front, back, rfl, hlen, hf, hb⟩ := hs hfalls
  refine ⟨front, back, rfl, hlen, fun a ha => ?_, fun a ha => ?_⟩
  · exact (htest a (List.mem_append_left back ha)).1 (hf a ha)
  · exact (htest a (List.mem_append_right front ha)).2 (hb a ha)

/-- An element between two lists keeps them in order. -/
theorem pairwise_around {Q : α → α → Prop} [IsStrictOrder α Q] {front back : List α} {b : α}
    (hf : front.Pairwise Q) (hb : back.Pairwise Q) (hfront : ∀ a ∈ front, Q a b)
    (hback : ∀ a ∈ back, Q b a) : (front ++ b :: back).Pairwise Q := by
  refine List.pairwise_append.2 ⟨hf, List.pairwise_cons.2 ⟨hback, hb⟩, fun a ha c hc => ?_⟩
  rcases List.mem_cons.1 hc with rfl | hc
  · exact hfront a ha
  · exact trans_of Q (hfront a ha) (hback c hc)

/-! ## Joining -/

/-- What joining a short and a long run may come to. -/
inductive Joins (longFirst : α → α → Bool) : List α → List α → List α → Prop
  | noShort (ys : List α) : Joins longFirst [] ys ys
  | last (x : α) (ys : List α) : Joins longFirst [x] ys (ys ++ [x])
  | noLong (xs : List α) : Joins longFirst xs [] xs
  | takeLong {x y : α} {xs ys zs : List α} (h : longFirst x y = true)
      (rest : Joins longFirst (x :: xs) ys zs) : Joins longFirst (x :: xs) (y :: ys) (y :: zs)
  | takeShort {x y : α} {xs ys zs : List α} (h : longFirst x y = false)
      (rest : Joins longFirst xs (y :: ys) zs) : Joins longFirst (x :: xs) (y :: ys) (x :: zs)
  | rushShort {y : α} {xs ys zs : List α} (n : Nat)
      (h : Falls (fun x => !longFirst x y) xs → Splits (fun x => !longFirst x y) n xs)
      (rest : Joins longFirst (xs.drop n) ys zs) :
      Joins longFirst xs (y :: ys) (xs.take n ++ y :: zs)
  | rushLong {x : α} {xs ys zs : List α} (n : Nat)
      (h : Falls (longFirst x) ys → Splits (longFirst x) n ys)
      (rest : Joins longFirst xs (ys.drop n) zs) :
      Joins longFirst (x :: xs) ys (ys.take n ++ x :: zs)

namespace Joins

variable {longFirst : α → α → Bool} {xs ys zs : List α}

/-- Joining loses nothing. -/
theorem perm (h : Joins longFirst xs ys zs) : zs.Perm (xs ++ ys) := by
  induction h with
  | noShort ys => exact .refl _
  | last x ys => exact List.perm_append_comm
  | noLong xs => rw [List.append_nil]
  | takeLong h rest ih => exact (ih.cons _).trans List.perm_middle.symm
  | takeShort h rest ih => exact ih.cons _
  | @rushShort y xs ys zs n h rest ih =>
    have hxs : (xs.take n ++ (xs.drop n ++ y :: ys)).Perm (xs ++ y :: ys) := by
      rw [← List.append_assoc, List.take_append_drop]
    exact (((ih.cons y).trans List.perm_middle.symm).append_left _).trans hxs
  | @rushLong x xs ys zs n h rest ih =>
    have hys : (x :: (xs ++ (ys.take n ++ ys.drop n))).Perm (x :: xs ++ ys) := by
      rw [List.take_append_drop, List.cons_append]
    refine (List.perm_middle.trans (List.Perm.cons x ?_)).trans hys
    have hrest := ih.append_left (ys.take n)
    refine hrest.trans ?_
    rw [← List.append_assoc, ← List.append_assoc]
    exact List.perm_append_comm.append_right _

/-- Joining follows an order that both runs follow, if the comparison decides between these and the
short run has the last element. -/
theorem pairwise {Q : α → α → Prop} [IsStrictOrder α Q] (h : Joins longFirst xs ys zs)
    (hxs : xs.Pairwise Q) (hys : ys.Pairwise Q)
    (hdec : ∀ x ∈ xs, ∀ y ∈ ys, (longFirst x y = true → Q y x) ∧ (longFirst x y = false → Q x y))
    (hlast : ∀ x ∈ xs.getLast?, ∀ y ∈ ys, Q y x) : zs.Pairwise Q := by
  induction h with
  | noShort ys => exact hys
  | noLong xs => exact hxs
  | last x ys =>
    refine List.pairwise_append.2 ⟨hys, List.pairwise_singleton Q x, fun y hy a ha => ?_⟩
    rw [List.mem_singleton.1 ha]
    exact hlast x rfl y hy
  | @takeLong x y xs ys zs h rest ih =>
    obtain ⟨hy, hys⟩ := List.pairwise_cons.1 hys
    have hyx : Q y x := (hdec x List.mem_cons_self y List.mem_cons_self).1 h
    refine List.pairwise_cons.2 ⟨fun b hb => ?_, ih hxs hys ?_ ?_⟩
    · rcases List.mem_append.1 (rest.perm.mem_iff.1 hb) with hb | hb
      · rcases List.mem_cons.1 hb with rfl | hb
        · exact hyx
        · exact trans_of Q hyx ((List.pairwise_cons.1 hxs).1 b hb)
      · exact hy b hb
    · exact fun a ha b hb => hdec a ha b (List.mem_cons_of_mem y hb)
    · exact fun a ha b hb => hlast a ha b (List.mem_cons_of_mem y hb)
  | @takeShort x y xs ys zs h rest ih =>
    obtain ⟨hx, hxs⟩ := List.pairwise_cons.1 hxs
    have hxy : Q x y := (hdec x List.mem_cons_self y List.mem_cons_self).2 h
    refine List.pairwise_cons.2 ⟨fun b hb => ?_, ih hxs hys ?_ ?_⟩
    · rcases List.mem_append.1 (rest.perm.mem_iff.1 hb) with hb | hb
      · exact hx b hb
      · rcases List.mem_cons.1 hb with rfl | hb
        · exact hxy
        · exact trans_of Q hxy ((List.pairwise_cons.1 hys).1 b hb)
    · exact fun a ha b hb => hdec a (List.mem_cons_of_mem x ha) b hb
    · intro a ha b hb
      refine hlast a ?_ b hb
      rw [List.getLast?_cons, ha]
      rfl
  | @rushShort y xs ys zs n h rest ih =>
    obtain ⟨hy, hys⟩ := List.pairwise_cons.1 hys
    obtain ⟨front, back, rfl, rfl, hfront, hback⟩ :=
      exists_split h hxs fun a ha => of_not (hdec a ha y List.mem_cons_self)
    rw [List.drop_left] at rest ih
    rw [List.take_left]
    obtain ⟨hpf, hpb, -⟩ := List.pairwise_append.1 hxs
    have hzs : zs.Pairwise Q := by
      refine ih hpb hys (fun a ha b hb => ?_) fun a ha b hb => ?_
      · exact hdec a (List.mem_append_right front ha) b (List.mem_cons_of_mem y hb)
      · refine hlast a ?_ b (List.mem_cons_of_mem y hb)
        rw [List.getLast?_append, ha]
        rfl
    refine pairwise_around hpf hzs hfront fun b hb => ?_
    rcases List.mem_append.1 (rest.perm.mem_iff.1 hb) with hb | hb
    · exact hback b hb
    · exact hy b hb
  | @rushLong x xs ys zs n h rest ih =>
    obtain ⟨hx, hxs⟩ := List.pairwise_cons.1 hxs
    obtain ⟨front, back, rfl, rfl, hfront, hback⟩ :=
      exists_split h hys fun y hy => hdec x List.mem_cons_self y hy
    rw [List.drop_left] at rest ih
    rw [List.take_left]
    obtain ⟨hpf, hpb, -⟩ := List.pairwise_append.1 hys
    have hzs : zs.Pairwise Q := by
      refine ih hxs hpb (fun a ha b hb => ?_) fun a ha b hb => ?_
      · exact hdec a (List.mem_cons_of_mem x ha) b (List.mem_append_right front hb)
      · refine hlast a ?_ b (List.mem_append_right front hb)
        rw [List.getLast?_cons, ha]
        rfl
    refine pairwise_around hpf hzs hfront fun b hb => ?_
    rcases List.mem_append.1 (rest.perm.mem_iff.1 hb) with hb | hb
    · exact hx b hb
    · exact hback b hb

end Joins

/-- Joining without effects. -/
def join (e : End) (longFirst : α → α → Bool) (pace : Pace) (threshold : Nat)
    (short long : List α) : List α × Nat :=
  Id.run (joinM e (fun a b => pure (longFirst a b)) pace threshold short long)

section

variable {e : End} {longFirst : α → α → Bool} {pace p : Pace} {threshold t n : Nat} {x x' y : α}
  {xs ys : List α}

theorem join_of_single {fromShort fromLong : Nat}
    (h : pace.decide threshold = (.single fromShort fromLong, t)) :
    (join e longFirst pace threshold (x :: x' :: xs) (y :: ys)).1 =
      if longFirst x y then
        y :: (join e longFirst (.single 0 (fromLong + 1)) t (x :: x' :: xs) ys).1
      else x :: (join e longFirst (.single (fromShort + 1) 0) t (x' :: xs) (y :: ys)).1 := by
  unfold join
  rw [joinM, h]
  cases longFirst x y <;> rfl

theorem join_of_short (h : pace.decide threshold = (p, t)) (hp : ∀ k l, p ≠ .single k l)
    (hs : p.isOnShort e = true) (hn : gallop e (fun a => !longFirst a y) (x :: x' :: xs) = n) :
    (join e longFirst pace threshold (x :: x' :: xs) (y :: ys)).1 =
      (x :: x' :: xs).take n ++
        y :: (join e longFirst (p.after n) t ((x :: x' :: xs).drop n) ys).1 := by
  subst hn
  unfold join
  rw [joinM, h]
  cases p with
  | single k l => exact absurd rfl (hp k l)
  | first | second | undecided =>
    dsimp only
    rw [if_pos hs]
    rfl

theorem join_of_long (h : pace.decide threshold = (p, t)) (hp : ∀ k l, p ≠ .single k l)
    (hs : p.isOnShort e = false) (hn : gallop e (longFirst x) (y :: ys) = n) :
    (join e longFirst pace threshold (x :: x' :: xs) (y :: ys)).1 =
      (y :: ys).take n ++
        x :: (join e longFirst (p.after n) t (x' :: xs) ((y :: ys).drop n)).1 := by
  subst hn
  unfold join
  rw [joinM, h]
  cases p with
  | single k l => exact absurd rfl (hp k l)
  | first | second | undecided =>
    dsimp only
    rw [if_neg (by rw [hs]; exact Bool.false_ne_true)]
    rfl

end

theorem join_joins (e : End) (longFirst : α → α → Bool) (pace : Pace) (threshold : Nat)
    (short long : List α) :
    Joins longFirst short long (join e longFirst pace threshold short long).1 := by
  induction hk : short.length + long.length using Nat.strongRecOn
    generalizing pace threshold short long with
  | ind k ih =>
    rcases short with _ | ⟨x, _ | ⟨x', xs⟩⟩
    · unfold join
      rw [joinM]
      exact .noShort long
    · unfold join
      rw [joinM]
      exact .last x long
    · rcases long with _ | ⟨y, ys⟩
      · unfold join
        rw [joinM]
        · exact .noLong _
        · simp
        · simp
      · obtain ⟨p, t, hp⟩ : ∃ p t, pace.decide threshold = (p, t) := ⟨_, _, rfl⟩
        have hrush : (∀ k l, p ≠ .single k l) → Joins longFirst (x :: x' :: xs) (y :: ys)
            (join e longFirst pace threshold (x :: x' :: xs) (y :: ys)).1 := by
          intro hne
          cases hs : p.isOnShort e with
          | true =>
            rw [join_of_short hp hne hs rfl]
            exact .rushShort _ gallop_splits (ih _ (by simp at hk ⊢; omega) _ _ _ _ rfl)
          | false =>
            rw [join_of_long hp hne hs rfl]
            exact .rushLong _ gallop_splits (ih _ (by simp at hk ⊢; omega) _ _ _ _ rfl)
        cases p with
        | single fromShort fromLong =>
          rw [join_of_single hp]
          cases hl : longFirst x y with
          | true =>
            rw [if_pos rfl]
            exact .takeLong hl (ih _ (by simp at hk ⊢; omega) _ _ _ _ rfl)
          | false =>
            rw [if_neg Bool.false_ne_true]
            exact .takeShort hl (ih _ (by simp at hk ⊢; omega) _ _ _ _ rfl)
        | first => exact hrush (by simp)
        | second taken => exact hrush (by simp)
        | undecided taken taken' => exact hrush (by simp)

/-! ## Merging -/

/-- Merging the middle of two runs, without effects. -/
def mergeMiddle (less : α → α → Bool) (threshold : Nat) (left right : List α) : List α :=
  (Id.run (mergeMiddleM (fun a b => pure (less a b)) threshold left right)).1

/-- Merging without effects. -/
def merge (less : α → α → Bool) (threshold : Nat) (left right : List α) : List α × Nat :=
  Id.run (mergeM (fun a b => pure (less a b)) threshold left right)

section

variable {less : α → α → Bool} {threshold : Nat} {left right : List α}

/-- The middle is joined from one end or from the other, behind an element that is taken unasked. -/
theorem mergeMiddle_cases (less : α → α → Bool) (threshold : Nat) (left right : List α) :
    (right = [] ∧ mergeMiddle less threshold left right = left) ∨
    (left = [] ∧ mergeMiddle less threshold left right = right) ∨
    (∃ y ys zs, right = y :: ys ∧ Joins (fun x y => less y x) left ys zs ∧
      mergeMiddle less threshold left right = y :: zs) ∨
    ∃ x xs zs, left.reverse = x :: xs ∧ Joins less right.reverse xs zs ∧
      mergeMiddle less threshold left right = (x :: zs).reverse := by
  unfold mergeMiddle mergeMiddleM
  by_cases hle : left.length ≤ right.length
  · rw [if_pos hle]
    cases right with
    | nil => exact .inl ⟨rfl, rfl⟩
    | cons y ys =>
      refine .inr (.inr (.inl
        ⟨y, ys, _, rfl, join_joins .front _ (.single 0 0) threshold left ys, ?_⟩))
      rfl
  · rw [if_neg hle]
    cases hrev : left.reverse with
    | nil => exact .inr (.inl ⟨List.reverse_eq_nil_iff.1 hrev, by simp [joinBehindFirstM]⟩)
    | cons x xs =>
      refine .inr (.inr (.inr ⟨x, xs, _, rfl,
        join_joins .back _ (.single 0 0) threshold right.reverse xs, ?_⟩))
      rfl

theorem mergeMiddle_perm : (mergeMiddle less threshold left right).Perm (left ++ right) := by
  rcases mergeMiddle_cases less threshold left right with ⟨rfl, h⟩ | ⟨rfl, h⟩ |
    ⟨y, ys, zs, rfl, hj, h⟩ | ⟨x, xs, zs, hleft, hj, h⟩
  · rw [h, List.append_nil]
  · rw [h, List.nil_append]
  · rw [h]
    exact (hj.perm.cons y).trans List.perm_middle.symm
  · rw [h]
    have hzs : (x :: zs).Perm (right.reverse ++ left.reverse) := by
      rw [hleft]
      exact (hj.perm.cons x).trans List.perm_middle.symm
    rw [← List.reverse_append] at hzs
    exact (List.reverse_perm _).trans (hzs.trans (List.reverse_perm _))

/-- Merging the middle follows an order if the first element is on the right and the last one on the
left. -/
theorem mergeMiddle_pairwise {R : α → α → Prop} [IsStrictOrder α R] (hl : left.Pairwise R)
    (hr : right.Pairwise R) (ha : Apart less R left right)
    (hfirst : ∀ y ∈ right.head?, ∀ x ∈ left, R y x)
    (hlast : ∀ x ∈ left.getLast?, ∀ y ∈ right, R y x) :
    (mergeMiddle less threshold left right).Pairwise R := by
  rcases mergeMiddle_cases less threshold left right with ⟨rfl, h⟩ | ⟨rfl, h⟩ |
    ⟨y, ys, zs, rfl, hj, h⟩ | ⟨x, xs, zs, hleft, hj, h⟩
  · rw [h]
    exact hl
  · rw [h]
    exact hr
  · obtain ⟨hy, hys⟩ := List.pairwise_cons.1 hr
    rw [h]
    refine List.pairwise_cons.2 ⟨fun b hb => ?_, hj.pairwise hl hys (fun a ha' b hb => ?_) ?_⟩
    · rcases List.mem_append.1 (hj.perm.mem_iff.1 hb) with hb | hb
      · exact hfirst y rfl b hb
      · exact hy b hb
    · exact ha a ha' b (List.mem_cons_of_mem y hb)
    · exact fun a ha' b hb => hlast a ha' b (List.mem_cons_of_mem y hb)
  · -- Seen from the back, everything is the other way round.
    have hswap : IsStrictOrder α (Function.swap R) := inferInstance
    have hl' : (x :: xs).Pairwise (Function.swap R) := by
      rw [← hleft]
      exact List.pairwise_reverse.2 hl
    obtain ⟨hx, hxs⟩ := List.pairwise_cons.1 hl'
    have hmem : ∀ a ∈ xs, a ∈ left := fun a ha' => by
      rw [← List.mem_reverse, hleft]
      exact List.mem_cons_of_mem x ha'
    have hzs : zs.Pairwise (Function.swap R) := by
      refine hj.pairwise (List.pairwise_reverse.2 hr) hxs (fun b hb a ha' => ?_)
        fun y hy a ha' => ?_
      · exact ha a (hmem a ha') b (List.mem_reverse.1 hb)
      · rw [List.getLast?_reverse] at hy
        exact hfirst y hy a (hmem a ha')
    rw [h, List.pairwise_reverse]
    refine List.pairwise_cons.2 ⟨fun b hb => ?_, hzs⟩
    rcases List.mem_append.1 (hj.perm.mem_iff.1 hb) with hb | hb
    · refine hlast x ?_ b (List.mem_reverse.1 hb)
      rw [← List.head?_reverse, hleft]
      rfl
    · exact hx b hb

/-! ### Whole runs -/

variable {x y : α} {ys : List α} {n k : Nat}

theorem merge_nil : (merge less threshold left []).1 = left := rfl

theorem merge_of_none (hn : gallop .front (fun a => !less y a) left = n)
    (h : (left.drop n).getLast? = none) :
    (merge less threshold left (y :: ys)).1 = left ++ y :: ys := by
  unfold merge mergeM
  rw [Id.run_bind]
  have hg : Id.run (gallopM .front (fun x => (fun b => !b) <$> (pure (less y x) : Id Bool))
    left) = n := hn
  rw [hg, h]
  rfl

theorem merge_of_some (hn : gallop .front (fun a => !less y a) left = n)
    (h : (left.drop n).getLast? = some x)
    (hk : gallop .back (fun b => !less b x) (y :: ys).reverse = k) :
    (merge less threshold left (y :: ys)).1 = left.take n ++
      mergeMiddle less threshold (left.drop n) ((y :: ys).take ((y :: ys).length - k)) ++
        (y :: ys).drop ((y :: ys).length - k) := by
  unfold merge mergeM
  rw [Id.run_bind]
  have hg : Id.run (gallopM .front (fun x => (fun b => !b) <$> (pure (less y x) : Id Bool))
    left) = n := hn
  rw [hg, h]
  dsimp only
  rw [Id.run_bind]
  have hg' : Id.run (gallopM .back (fun b => (fun b => !b) <$> (pure (less b x) : Id Bool))
    (y :: ys).reverse) = k := hk
  rw [hg']
  rfl

/-- Merging loses nothing. -/
theorem merge_perm : (merge less threshold left right).1.Perm (left ++ right) := by
  cases right with
  | nil => rw [merge_nil, List.append_nil]
  | cons y ys =>
    cases h : (left.drop (gallop .front (fun a => !less y a) left)).getLast? with
    | none => rw [merge_of_none rfl h]
    | some x =>
      rw [merge_of_some rfl h rfl]
      refine ((mergeMiddle_perm.append_left _).append_right _).trans ?_
      rw [← List.append_assoc, List.take_append_drop, List.append_assoc, List.take_append_drop]

/-- The middle of two runs, between the ends that are in their places. -/
theorem middle_pairwise {R : α → α → Prop} [IsStrictOrder α R] {front back low high : List α}
    (hl : (front ++ back).Pairwise R) (hr : (low ++ high).Pairwise R)
    (ha : Apart less R back low) (hx : back.getLast? = some x)
    (hfront : ∀ a ∈ front, ∀ b ∈ low ++ high, R a b) (hlow : ∀ b ∈ low, R b x)
    (hhigh : ∀ b ∈ high, R x b) (hfirst : ∀ b ∈ low.head?, ∀ a ∈ back, R b a) :
    (front ++ mergeMiddle less threshold back low ++ high).Pairwise R := by
  obtain ⟨hpf, hpb, hfb⟩ := List.pairwise_append.1 hl
  obtain ⟨hpl, hph, hlh⟩ := List.pairwise_append.1 hr
  have hmiddle : (mergeMiddle less threshold back low).Pairwise R := by
    refine mergeMiddle_pairwise hpb hpl ha hfirst fun x' hx' b hb => ?_
    obtain rfl := Option.some.inj (hx.symm.trans hx')
    exact hlow b hb
  have hbackhigh : ∀ a ∈ back, ∀ b ∈ high, R a b := by
    obtain ⟨init, rfl⟩ := List.getLast?_eq_some_iff.1 hx
    intro a ha' b hb
    rcases List.mem_append.1 ha' with ha' | ha'
    · have hax := (List.pairwise_append.1 hpb).2.2 a ha' x (List.mem_singleton_self x)
      exact trans_of R hax (hhigh b hb)
    · rw [List.mem_singleton.1 ha']
      exact hhigh b hb
  have hmem : ∀ {a}, a ∈ mergeMiddle less threshold back low → a ∈ back ∨ a ∈ low := fun h =>
    List.mem_append.1 (mergeMiddle_perm.mem_iff.1 h)
  refine List.pairwise_append.2 ⟨List.pairwise_append.2 ⟨hpf, hmiddle, ?_⟩, hph, ?_⟩
  · intro a ha' b hb
    rcases hmem hb with hb | hb
    · exact hfb a ha' b hb
    · exact hfront a ha' b (List.mem_append_left high hb)
  · intro a ha' b hb
    rcases List.mem_append.1 ha' with ha' | ha'
    · exact hfront a ha' b (List.mem_append_right low hb)
    · rcases hmem ha' with ha' | ha'
      · exact hbackhigh a ha' b hb
      · exact hlh a ha' b hb

/-- Merging two runs that follow an order follows it. -/
theorem merge_pairwise {R : α → α → Prop} [IsStrictOrder α R] (hl : left.Pairwise R)
    (hr : right.Pairwise R) (ha : Apart less R left right) :
    (merge less threshold left right).1.Pairwise R := by
  cases right with
  | nil =>
    rw [merge_nil]
    exact hl
  | cons y ys =>
    obtain ⟨n, hn⟩ : ∃ n, gallop .front (fun a => !less y a) left = n := ⟨_, rfl⟩
    have hbefore : Falls (fun a => !less y a) left → Splits (fun a => !less y a) n left :=
      fun hf => hn ▸ gallop_splits hf
    obtain ⟨front, back, rfl, hlen, hfront, hback⟩ :=
      exists_split hbefore hl fun a ha' => of_not (ha a ha' y List.mem_cons_self)
    obtain ⟨hpf, hpb, hfb⟩ := List.pairwise_append.1 hl
    have hdrop : (front ++ back).drop n = back := by rw [← hlen, List.drop_left]
    have hfr : ∀ a ∈ front, ∀ b ∈ y :: ys, R a b := by
      intro a ha' b hb
      rcases List.mem_cons.1 hb with rfl | hb
      · exact hfront a ha'
      · exact trans_of R (hfront a ha') ((List.pairwise_cons.1 hr).1 b hb)
    cases hx : back.getLast? with
    | none =>
      obtain rfl := List.getLast?_eq_none_iff.1 hx
      rw [merge_of_none hn (by rw [hdrop]; exact hx), List.append_nil]
      exact List.pairwise_append.2 ⟨hpf, hr, hfr⟩
    | some x =>
      have hxl : x ∈ front ++ back := List.mem_append_right front (List.mem_of_getLast? hx)
      obtain ⟨k, hk⟩ : ∃ k, gallop .back (fun b => !less b x) (y :: ys).reverse = k := ⟨_, rfl⟩
      have hswap : IsStrictOrder α (Function.swap R) := inferInstance
      have hrev : (y :: ys).reverse.Pairwise (Function.swap R) := List.pairwise_reverse.2 hr
      have hbehind : Falls (fun b => !less b x) (y :: ys).reverse →
          Splits (fun b => !less b x) k (y :: ys).reverse := fun hf => hk ▸ gallop_splits hf
      obtain ⟨high, low, hsplit, hlen', hhigh, hlow⟩ :=
        exists_split hbehind hrev fun b hb => of_not (ha x hxl b (List.mem_reverse.1 hb))
      have hright : y :: ys = low.reverse ++ high.reverse := by
        rw [← List.reverse_append, ← hsplit, List.reverse_reverse]
      have hsize : (y :: ys).length - k = low.reverse.length := by
        rw [hright, List.length_append, List.length_reverse, List.length_reverse, ← hlen']
        omega
      have hfirst : ∀ b ∈ low.reverse.head?, ∀ a ∈ back, R b a := by
        intro b hb a ha'
        have hhead : some y = some b := by
          have := congrArg List.head? hright
          rwa [List.head?_append, hb, List.head?_cons] at this
        rw [← Option.some.inj hhead]
        exact hback a ha'
      rw [merge_of_some hn (by rw [hdrop]; exact hx) hk, hdrop, hsize, ← hlen, List.take_left,
        hright, List.take_left, List.drop_left]
      rw [hright] at hr hfr
      refine middle_pairwise hl hr (fun a ha' b hb => ?_) hx hfr (fun b hb => ?_) (fun b hb => ?_)
        hfirst
      · refine ha a (List.mem_append_right front ha') b ?_
        rw [hright]
        exact List.mem_append_left _ hb
      · exact hlow b (List.mem_reverse.1 hb)
      · exact hhigh b (List.mem_reverse.1 hb)

end

end FamilyStore.Engine.Sort
