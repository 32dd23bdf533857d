import FamilyStore.Failure

/-!
Events worth noting, and the records that a log keeps of them.
-/

namespace FamilyStore

/-- How much an event matters. -/
inductive Level where
  | debug
  | info
  | error
  deriving DecidableEq, Repr

/-- Who notes an event. -/
inductive Logger where
  | dataFuncs
  | handles
  | basicDemo
  | cursorDemo
  deriving DecidableEq, Repr

/-- The name of a logger. -/
def Logger.name : Logger → String
  | .dataFuncs => "splinterdb.data"
  | .handles => "splinterdb.splinterdb"
  | .basicDemo => "basic_operations"
  | .cursorDemo => "cursor_operations"

/-- Something worth noting. -/
inductive Event where
  | comparatorFailed (cause : Failure)
  | mergeFailed (cause : Failure)
  | finalMergeFailed (cause : Failure)
  | resizeRefused (length : Nat)
  | keyTextFailed (cause : Failure)
  | messageTextFailed (cause : Failure)
  | databaseCreated (path : String)
  | databaseOpened (path : String)
  | databaseClosed (path : String)
  | familyCreated (name : String) (maxKeySize : Nat)
  | familyClosed (name : String)
  /-- A line of a program's own. -/
  | remark (logger : Logger) (level : Level) (text : String)
  deriving DecidableEq, Repr

/-- What a log keeps of an event. A failure is kept by its kind and wording. -/
structure LogRecord where
  level : Level
  logger : Logger
  message : String
  cause : Option (FailureKind × String)
  deriving DecidableEq, Repr

namespace Event

/-- The record of an event with a failure behind it. -/
def caused (message : String) (cause : Failure) : LogRecord :=
  ⟨.error, .dataFuncs, message, some (cause.kind, cause.message)⟩

/-- The record of an event in the life of a handle. -/
def noted (message : String) : LogRecord := ⟨.debug, .handles, message, none⟩

/-- The record of an event. -/
def record : Event → LogRecord
  | comparatorFailed cause => caused "key comparator failed, falling back to bytewise order" cause
  | mergeFailed cause => caused "merge callback failed" cause
  | finalMergeFailed cause => caused "final merge callback failed" cause
  | resizeRefused length =>
    ⟨.error, .dataFuncs,
      "could not resize merge accumulator to " ++ toString length ++ " bytes", none⟩
  | keyTextFailed cause => caused "key_to_string callback failed" cause
  | messageTextFailed cause => caused "message_to_string callback failed" cause
  | databaseCreated path => noted ("created database at " ++ path)
  | databaseOpened path => noted ("opened database at " ++ path)
  | databaseClosed path => noted ("closed database at " ++ path)
  | familyCreated name size =>
    noted ("created column family " ++ Text.quote name ++ " with max key size " ++ toString size)
  | familyClosed name => noted ("closed column family " ++ Text.quote name)
  | remark logger level text => ⟨level, logger, text, none⟩

end Event

/-- Drops every record that is equal to the one directly before it. -/
def LogRecord.compact : List LogRecord → List LogRecord
  | [] => []
  | r :: rs =>
    match compact rs with
    | [] => [r]
    | s :: ss => if r = s then s :: ss else r :: s :: ss

/-- The records of some events, without immediate repetitions. -/
def Event.records (events : List Event) : List LogRecord :=
  LogRecord.compact (events.map Event.record)

end FamilyStore
