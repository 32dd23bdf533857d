import FamilyStore.Failure.Kind
import FamilyStore.Status
import FamilyStore.Text.Quoted

/-!
Failures of the store itself. Each carries a code: the engine's status where there is one, and the
code of an invalid argument otherwise.
-/

namespace FamilyStore

/-- What the store asked the engine for when the engine reported a status. -/
inductive EngineTask where
  | create
  | openExisting
  | insert
  | update
  | delete
  | lookup
  | readLookup
  | startIteration
  | iterate
  deriving DecidableEq, Repr

/-- The wording of a failed task. -/
def EngineTask.context : EngineTask → String
  | .create => "failed to create database"
  | .openExisting => "failed to open database"
  | .insert => "failed to insert key-value pair"
  | .update => "failed to update key"
  | .delete => "failed to delete key"
  | .lookup => "failed to look up key"
  | .readLookup => "failed to read lookup result"
  | .startIteration => "failed to create iterator"
  | .iterate => "iteration failed"

/-- Why the store refused or gave up. -/
inductive StoreFault where
  /-- The engine reported a status other than success. -/
  | engine (task : EngineTask) (status : Status)
  | familyClosed
  | databaseClosed
  /-- A database handle opens one database in its life. -/
  | handleUsed
  | unreadableConfig (path : String)
  | noConfigSection (path heading : String)
  | unknownOption (name : String)
  | optionNotInteger (name raw : String)
  /-- A size is not a positive integer; `shown` is how the value is shown. -/
  | sizeNotPositive (field shown : String)
  | keySizeNotPositive (shown : String)
  | keySizeAboveLimit (size limit : String)
  | keyTooLarge (length limit : Nat)
  | databaseExists (path : String)
  | databaseNotFound (path : String)
  | iteratorClosed
  | iteratorFamilyClosed
  /-- An iterator that has failed with `status` goes no further. -/
  | iteratorStopped (status : Status)
  | viewExported
  | staleResult
  deriving DecidableEq, Repr

namespace StoreFault

/-- The kind of a store failure. -/
def kind : StoreFault → FailureKind
  | engine _ _ | familyClosed | databaseClosed | handleUsed => .store
  | unreadableConfig _ | noConfigSection _ _ | unknownOption _ | optionNotInteger _ _
  | sizeNotPositive _ _ | keySizeNotPositive _ | keySizeAboveLimit _ _ => .configuration
  | keyTooLarge _ _ => .keyTooLarge
  | databaseExists _ => .databaseExists
  | databaseNotFound _ => .databaseNotFound
  | iteratorClosed | iteratorFamilyClosed | iteratorStopped _ | viewExported => .iteratorState
  | staleResult => .staleResult

/-- The code that a store failure carries. -/
def code : StoreFault → Status
  | engine _ status | iteratorStopped status => status
  | databaseExists _ => Status.fileExists
  | databaseNotFound _ => Status.noEntry
  | _ => Status.invalid

/-- A status in words, behind what was attempted. -/
def statusMessage (context : String) (status : Status) (shown : String) : String :=
  let body := Status.text status ++ " (code: " ++ shown ++ ")"
  if context = "" then body else context ++ ": " ++ body

/-- The wording of a key that is too long. -/
def keyTooLargeMessage (length limit : String) : String :=
  "key of " ++ length ++ " bytes exceeds max key size of " ++ limit ++ " bytes"

/-- The wording of a store failure. -/
def message : StoreFault → String
  | engine task status => statusMessage task.context status (toString status)
  | familyClosed => "Column family is closed"
  | databaseClosed => "Database is closed"
  | handleUsed => "Database handle was already used"
  | unreadableConfig path => "could not read config file: " ++ path
  | noConfigSection path heading => "config file " ++ path ++ " has no [" ++ heading ++ "] section"
  | unknownOption name => "unknown config option: " ++ name
  | optionNotInteger name raw => name ++ " must be an integer, got " ++ Text.quote raw
  | sizeNotPositive field shown => field ++ " must be a positive integer, got " ++ shown
  | keySizeNotPositive shown => "max key size must be a positive integer, got " ++ shown
  | keySizeAboveLimit size limit =>
    "max key size " ++ size ++ " exceeds the database limit of " ++ limit
  | keyTooLarge length limit => keyTooLargeMessage (toString length) (toString limit)
  | databaseExists path => "database already exists at " ++ path
  | databaseNotFound path => "no database at " ++ path
  | iteratorClosed => "Iterator is closed"
  | iteratorFamilyClosed => "Column family is closed"
  | iteratorStopped status =>
    "Iterator stopped after an error (code: " ++ toString status ++ ")"
  | viewExported =>
    "a view of the current record is still exported; "
      ++ "drop it before advancing or closing the iterator"
  | staleResult => "iterator result used after the iterator moved"

end StoreFault

end FamilyStore
