/-!
Searching a list whose elements pass a test up to some place and fail it from there on.

Halving looks at the middle of what is left. Galloping looks at the front first, at growing
distances, and halves the last of them; it is the better the sooner the test fails. Both give the
number of elements in front of the place. If the test passes and fails in no order, they give some
number that is at most the length of the list.

The test may have effects, so that what was compared can be noted.
-/

namespace FamilyStore.Engine.Sort

variable {m : Type → Type} [Monad m] {α : Type}

/-- From which end of a sequence a list comes: a list from the back is the reverse of what lies in
the sequence. -/
inductive End where
  | front
  | back
  deriving DecidableEq, Repr

/-- The place in a list of `n` elements that counts as its middle. Two neighbours lie around the
middle of an even number; of these it is the one further behind in the sequence. -/
def End.middle (e : End) (n : Nat) : Nat :=
  match e with
  | .front => n / 2
  | .back => (n - 1) / 2

/-- How many elements at the start of a list pass a test, by halving. -/
def halveM (e : End) (test : α → m Bool) (xs : List α) : m Nat := do
  let middle := e.middle xs.length
  match h : xs.drop middle with
  | [] => return 0
  | y :: ys =>
    have hlen : ys.length + 1 = xs.length - middle := by
      rw [← List.length_cons, ← h, List.length_drop]
    if ← test y then
      return middle + 1 + (← halveM e test ys)
    else
      halveM e test (xs.take middle)
termination_by xs.length
decreasing_by
  · omega
  · rw [List.length_take]; omega

/-- How many elements at the start of a list pass a test. The first `stride` elements are passed
over, then twice as many and one more, and so on, until one fails. -/
def strideM (e : End) (test : α → m Bool) (stride : Nat) (xs : List α) : m Nat := do
  match h : xs.drop stride with
  | [] => halveM e test xs
  | y :: ys =>
    have hlen : ys.length + 1 = xs.length - stride := by
      rw [← List.length_cons, ← h, List.length_drop]
    if ← test y then
      return stride + 1 + (← strideM e test (2 * stride + 1) ys)
    else
      halveM e test (xs.take stride)
termination_by xs.length
decreasing_by omega

/-- How many elements at the start of a list pass a test, by galloping. -/
def gallopM (e : End) (test : α → m Bool) : List α → m Nat
  | [] => return 0
  | x :: xs => do
    if ← test x then return 1 + (← strideM e test 0 xs) else return 0

end FamilyStore.Engine.Sort
