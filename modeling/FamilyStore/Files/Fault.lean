import FamilyStore.Failure.Kind
import FamilyStore.Status
import FamilyStore.Text.Quoted

/-!
Failures of the file system: an error number and the path it is about.
-/

namespace FamilyStore.Files

/-- Why the file system refused a path. -/
inductive Refusal where
  | noEntry
  | exists
  | notDirectory
  | isDirectory
  | nameTooLong
  deriving DecidableEq, Repr

/-- The error number of a refusal. -/
def Refusal.number : Refusal → Status
  | .noEntry => 2
  | .exists => 17
  | .notDirectory => 20
  | .isDirectory => 21
  | .nameTooLong => 36

/-- The kind of a refusal. -/
def Refusal.kind : Refusal → FailureKind
  | .noEntry => .fileNotFound
  | .exists => .fileExists
  | .notDirectory => .notDirectory
  | .isDirectory => .isDirectory
  | .nameTooLong => .fileSystem

/-- A refusal together with the path as it was given. -/
structure Fault where
  refusal : Refusal
  path : String
  deriving DecidableEq, Repr

/-- The wording of a failure of the file system. -/
def Fault.message (f : Fault) : String :=
  "[Errno " ++ toString f.refusal.number ++ "] " ++ Status.text f.refusal.number ++ ": "
    ++ Text.quote f.path

end FamilyStore.Files
