import FamilyStore.Engine.Sort.Search

/-!
Merging two neighbouring runs into one.

What is in its place already stays there: the start of the left run that belongs before the right
run, and the end of the right run that belongs behind the left one. The rest is joined from the
front if the left run is then not the longer one, and from the back otherwise. So there are always a
short run and a long one.

Joining takes elements one by one until one run has given a certain number of elements in a row, the
threshold. From then on it gallops through both runs in turn, as long as that takes `worthwhile`
elements at a time. The threshold sinks while galloping pays and rises when it stops to pay; it is
handed on from one merge to the next.

An element of the right run goes before one of the left run only if it is less, so elements that
compare equal keep their order.
-/

namespace FamilyStore.Engine.Sort

variable {m : Type → Type} [Monad m] {α : Type}

/-- How many elements at once make galloping worth its while. It is also the first threshold. -/
def worthwhile : Nat := 7

/-- What joining does next. -/
inductive Pace where
  /-- Takes one element, after so many in a row from the short and from the long run. -/
  | single (fromShort fromLong : Nat)
  /-- Gallops through the run that is galloped through first. -/
  | first
  /-- Gallops through the other run, after so many elements from the first. -/
  | second (taken : Nat)
  /-- Decides how to go on, after so many elements from the first run and from the other. -/
  | undecided (taken taken' : Nat)
  deriving DecidableEq, Repr

namespace Pace

/-- The pace that is decided on, and the threshold from then on. -/
def decide (threshold : Nat) : Pace → Pace × Nat
  | single fromShort fromLong =>
    (if threshold ≤ fromShort ∨ threshold ≤ fromLong then first else single fromShort fromLong,
      threshold)
  | undecided taken taken' =>
    if worthwhile ≤ taken ∨ worthwhile ≤ taken' then (first, max 1 (threshold - 1))
    else (single 0 0, threshold + 1)
  | pace => (pace, threshold)

/-- The pace after galloping through a run took so many elements. -/
def after (taken : Nat) : Pace → Pace
  | second before => undecided before taken
  | _ => second taken

/-- Whether the short run is the one to be galloped through: it is the first when runs are joined
from the front, and the other when they are joined from the back. -/
def isOnShort (e : End) : Pace → Bool
  | second _ => e = .back
  | _ => e = .front

end Pace

/-- Joins a short and a long run, each with the element first that is the first to be taken, and
gives the threshold at the end. `longFirst x y` tells whether `y` of the long run goes before `x` of
the short one. The last element of the short run goes behind the long run unasked. After galloping
through one run, the other one gives an element unasked. -/
def joinM (e : End) (longFirst : α → α → m Bool) (pace : Pace) (threshold : Nat) :
    List α → List α → m (List α × Nat)
  | [], ys => return (ys, threshold)
  | [x], ys => return (ys ++ [x], threshold)
  | xs, [] => return (xs, threshold)
  | x :: x' :: xs, y :: ys => do
    let (pace, threshold) := pace.decide threshold
    match pace with
    | .single fromShort fromLong =>
      if ← longFirst x y then
        let (joined, threshold) ←
          joinM e longFirst (.single 0 (fromLong + 1)) threshold (x :: x' :: xs) ys
        return (y :: joined, threshold)
      else
        let (joined, threshold) ←
          joinM e longFirst (.single (fromShort + 1) 0) threshold (x' :: xs) (y :: ys)
        return (x :: joined, threshold)
    | pace =>
      if pace.isOnShort e then
        let run := x :: x' :: xs
        let taken ← gallopM e (fun x => (!·) <$> longFirst x y) run
        let (joined, threshold) ←
          joinM e longFirst (pace.after taken) threshold (run.drop taken) ys
        return (run.take taken ++ y :: joined, threshold)
      else
        let run := y :: ys
        let taken ← gallopM e (longFirst x) run
        let (joined, threshold) ←
          joinM e longFirst (pace.after taken) threshold (x' :: xs) (run.drop taken)
        return (run.take taken ++ x :: joined, threshold)
termination_by xs ys => xs.length + ys.length

/-- Joins a short and a long run, of which the long one gives the first element unasked. -/
def joinBehindFirstM (e : End) (longFirst : α → α → m Bool) (threshold : Nat)
    (short long : List α) :
    m (List α × Nat) := do
  match long with
  | [] => return (short, threshold)
  | y :: ys =>
    let (joined, threshold) ← joinM e longFirst (.single 0 0) threshold short ys
    return (y :: joined, threshold)

/-- Merges the parts of two neighbouring runs that are not in their places. -/
def mergeMiddleM (less : α → α → m Bool) (threshold : Nat) (left right : List α) :
    m (List α × Nat) := do
  if left.length ≤ right.length then
    joinBehindFirstM .front (fun x y => less y x) threshold left right
  else
    let (joined, threshold) ← joinBehindFirstM .back less threshold right.reverse left.reverse
    return (joined.reverse, threshold)

/-- Merges two neighbouring runs, and gives the threshold at the end. -/
def mergeM (less : α → α → m Bool) (threshold : Nat) (left right : List α) :
    m (List α × Nat) := do
  match right with
  | [] => return (left, threshold)
  | y :: _ =>
    let before ← gallopM .front (fun x => (!·) <$> less y x) left
    match (left.drop before).getLast? with
    | none => return (left ++ right, threshold)
    | some x =>
      let behind ← gallopM .back (fun y => (!·) <$> less y x) right.reverse
      let size := right.length - behind
      let (merged, threshold) ←
        mergeMiddleM less threshold (left.drop before) (right.take size)
      return (left.take before ++ merged ++ right.drop size, threshold)

end FamilyStore.Engine.Sort
