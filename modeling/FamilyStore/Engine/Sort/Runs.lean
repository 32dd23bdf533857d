import FamilyStore.Engine.Sort.Merge

/-!
Cutting a list into runs, and merging the runs in a good order.

A run is the longest start of what is left that is strictly descending or nowhere descending; it is
turned round if it descends. A run that is too short takes further elements in one by one.

The runs wait on a stack. Between two neighbours there is a border, and its power says how deep the
border would lie in a merge tree that halves the list: the border that splits the whole list best
has the least power. A new run makes the runs below it merge as long as their border has a greater
power than its own.
-/

namespace FamilyStore.Engine.Sort

variable {m : Type → Type} [Monad m] {α : Type}

/-- Puts an element into a sorted list, behind the elements that it is not less than. -/
def insertM (less : α → α → m Bool) (sorted : List α) (x : α) : m (List α) := do
  let place ← halveM .front (fun y => (!·) <$> less x y) sorted
  return sorted.take place ++ x :: sorted.drop place

/-- How many elements at the start of a list, compared with the one before, are less exactly when
`descending` says so. `last` is the element before the list. -/
def followersM (less : α → α → m Bool) (descending : Bool) (last : α) : List α → m Nat
  | [] => return 0
  | x :: xs => do
    if (← less x last) == descending then return 1 + (← followersM less descending x xs)
    else return 0

/-- Whether the run that starts with an element descends, and how many elements it has behind that
one. -/
def runAtM (less : α → α → m Bool) (x : α) : List α → m (Bool × Nat)
  | [] => return (false, 0)
  | y :: ys => do
    let descending ← less y x
    return (descending, 1 + (← followersM less descending y ys))

/-- The least length of a run in a list of `n` elements: less than 65, and such that the runs are a
power of two or a little fewer. A list of less than 64 elements is one run. -/
def leastRun (n : Nat) : Nat :=
  let runs := Nat.pow 2 (n.log2 - 5)
  (n + runs - 1) / runs

/-- A run that waits, with the power of the border to the run below it. -/
structure Waiting (α : Type) where
  run : List α
  power : Nat

/-- The runs that wait, the last one first, and the threshold of the next merge. -/
structure Stack (α : Type) where
  waiting : List (Waiting α)
  threshold : Nat

/-- The power of the border between two neighbouring runs in a list of `total` elements, `before` of
which lie before the runs: the first binary place in which the middles of the two runs differ, as
parts of the whole. Twice the middles are whole numbers. -/
def borderPower (total before length length' : Nat) : Nat :=
  let middle := 2 * before + length
  let middle' := middle + length + length'
  (List.range (total.log2 + 1)).findIdx fun k =>
    (middle <<< k) / total != (middle' <<< k) / total

/-- Merges waiting runs as long as the border below the last one has a power greater than
`power`. -/
def settleM (less : α → α → m Bool) (power threshold : Nat) : List (Waiting α) → m (Stack α)
  | last :: below :: rest => do
    if power < last.power then
      let (merged, threshold) ← mergeM less threshold below.run last.run
      settleM less power threshold (⟨merged, below.power⟩ :: rest)
    else return ⟨last :: below :: rest, threshold⟩
  | waiting => return ⟨waiting, threshold⟩
termination_by waiting => waiting.length

/-- Puts a new run on the stack. -/
def pushM (less : α → α → m Bool) (total : Nat) (stack : Stack α) (run : List α) :
    m (Stack α) := do
  match stack.waiting with
  | [] => return ⟨[⟨run, 0⟩], stack.threshold⟩
  | last :: below =>
    let before := (below.flatMap (·.run)).length
    let power := borderPower total before last.run.length run.length
    let settled ← settleM less power stack.threshold (last :: below)
    return { settled with waiting := ⟨run, power⟩ :: settled.waiting }

/-- Cuts a list into runs and puts them on the stack. -/
def pushAllM (less : α → α → m Bool) (total least : Nat) (stack : Stack α) :
    List α → m (Stack α)
  | [] => return stack
  | x :: xs => do
    let (descending, followers) ← runAtM less x xs
    let natural := x :: xs.take followers
    let rest := xs.drop followers
    let missing := least - natural.length
    let run ← (rest.take missing).foldlM (insertM less)
      (if descending then natural.reverse else natural)
    pushAllM less total least (← pushM less total stack run) (rest.drop missing)
termination_by xs => xs.length

/-- Merges all waiting runs. The last run is left out once if the two below it are the shorter
pair. -/
def collapseM (less : α → α → m Bool) (threshold : Nat) : List (Waiting α) → m (List α)
  | [] => return []
  | [last] => return last.run
  | [last, below] => do
    return (← mergeM less threshold below.run last.run).1
  | last :: below :: lower :: rest => do
    if lower.run.length < last.run.length then
      let (merged, threshold) ← mergeM less threshold lower.run below.run
      collapseM less threshold (last :: ⟨merged, lower.power⟩ :: rest)
    else
      let (merged, threshold) ← mergeM less threshold below.run last.run
      collapseM less threshold (⟨merged, below.power⟩ :: lower :: rest)
termination_by waiting => waiting.length

end FamilyStore.Engine.Sort
