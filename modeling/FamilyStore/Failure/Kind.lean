/-!
The kinds of failure that a caller can tell apart.
-/

namespace FamilyStore

/-- The kind of a failure: what a caller can catch on its own. -/
inductive FailureKind where
  /-- A failure of the store with no kind of its own, such as a status of the engine. -/
  | store
  /-- A configuration that the store cannot work with. -/
  | configuration
  /-- A key longer than its family takes. -/
  | keyTooLarge
  | databaseExists
  | databaseNotFound
  /-- An iterator stepped after it was closed or after it failed. -/
  | iteratorState
  /-- A record read after its iterator went on. -/
  | staleResult
  | wrongType
  | badValue
  | badBuffer
  | badIndex
  | overflow
  | outOfMemory
  | undecodable
  | noAttribute
  | frozenField
  | runtime
  | missingKey
  | zeroDivision
  /-- A use of the engine that the engine itself refuses. -/
  | misuse
  | fileNotFound
  | fileExists
  | isDirectory
  | notDirectory
  | fileSystem
  | unparsableText
  | missingHeader
  | duplicateSection
  | duplicateOption
  | badReference
  | missingReference
  | deepReference
  deriving DecidableEq, Repr

/-- Whether a failure of this kind is one of the store's own and carries a code. -/
def FailureKind.isStore : FailureKind → Bool
  | store | configuration | keyTooLarge | databaseExists | databaseNotFound | iteratorState
  | staleResult => true
  | _ => false

end FamilyStore
