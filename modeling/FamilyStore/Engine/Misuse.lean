import FamilyStore.Failure.Kind

/-!
Uses of the engine that it refuses: each is an error of the caller, not of the data.
-/

namespace FamilyStore.Engine

/-- A use of the engine that breaks its rules. -/
inductive Misuse where
  | familyDeleted
  | databaseClosed
  | familyDeletedTwice
  | databaseClosedTwice
  | lookupStartedTwice
  /-- A database is created or opened with a configuration block that does not exist. -/
  | unknownConfigBlock
  /-- A handle that the engine has never given out or has already taken back. -/
  | unknownHandle
  /-- A cursor is read behind its last record. -/
  | pastEnd
  deriving DecidableEq, Repr

/-- The wording of a misuse. -/
def Misuse.message : Misuse → String
  | .familyDeleted => "column family used after column_family_delete"
  | .databaseClosed => "column family used after splinterdb_close"
  | .familyDeletedTwice => "column_family_delete called twice"
  | .databaseClosedTwice => "splinterdb_close called twice"
  | .lookupStartedTwice => "lookup result initialised twice"
  | .unknownConfigBlock => ""
  | .unknownHandle => "unknown handle"
  | .pastEnd => "list index out of range"

end FamilyStore.Engine
