import FamilyStore.Failure

/-!
What callbacks raise in place of a result.

Where the engine calls a callback, its failures are caught. An escape passes: it wishes to end the
program, or it is raised where failures are no longer caught. It does not reach the engine either.
But a callback that is left in this way gives no result, and where the engine looks for one there is
a stray one.
-/

namespace FamilyStore

/-- Something raised in a callback that nobody catches, with the stray result of type `σ` that the
engine finds. -/
structure Escape (σ : Type) where
  /-- The name of the class of what was raised. -/
  className : String
  text : String
  stray : σ

/-- What a callback raises. -/
inductive Raised (σ : Type) where
  | failure (cause : Failure)
  | escape (e : Escape σ)

/-- A result, or what a callback raises in its place. -/
abbrev Attempt (σ α : Type) := Except (Raised σ) α

/-- The stray results of a merge. The merge has asked for its accumulator before, and what this
leaves behind is not the status of success. -/
abbrev StrayStatus := { n : Int32 // n ≠ 0 }

theorem one_isStray : (1 : Int32) ≠ 0 := by decide

/-- The stray status one. -/
def StrayStatus.one : StrayStatus := ⟨1, one_isStray⟩

namespace Attempt

variable {σ α : Type}

/-- Work that may fail, as part of a callback. -/
def ofExcept : Except Failure α → Attempt σ α
  | .ok a => .ok a
  | .error cause => .error (.failure cause)

end Attempt

end FamilyStore
