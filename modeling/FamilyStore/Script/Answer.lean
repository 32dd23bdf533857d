import FamilyStore.Failure.Report
import FamilyStore.Log
import FamilyStore.LookupResult
import FamilyStore.Script.Step

/-!
Answers of a script: what each step gave, and what it left in the log.
-/

namespace FamilyStore.Script

/-- A database handle as a script sees it. -/
structure DatabaseState where
  path : Option String
  closed : Bool
  text : String
  sizes : Option Sizes

/-- A family handle as a script sees it. -/
structure FamilyState where
  name : String
  maxKeySize : Nat
  closed : Bool
  text : String
  funcs : String
  databaseClosed : Bool

/-- A demonstration as a script sees it. -/
structure DemoState where
  program : Program
  path : String
  database : Option DatabaseState
  users : Option String
  counters : Option String

/-- The engine's call counters and its live objects. -/
structure Stats where
  /-- How often each entry point was called, the ones that never were left out. -/
  calls : List (Engine.EntryPoint × Nat)
  databases : Nat
  configBlocks : Nat
  families : Nat
  cursors : Nat
  lookups : Nat
  threads : Int

mutual

/-- What a step gave. -/
inductive Result where
  | nothing
  | value (v : Value)
  | text (s : String)
  | flag (b : Bool)
  | stats (s : Stats)
  | database (s : DatabaseState)
  | family (s : FamilyState)
  | iterator (closed : Bool)
  | record (valid : Bool) (text : String)
  | demo (s : DemoState)
  | lookup (r : LookupResult)
  /-- What a family held. -/
  | scanned (records : List (Bytes × Bytes))
  /-- What an iterator had left. -/
  | remaining (records : List (Bytes × Bytes))
  | pair (key value : Bytes)
  | advanced (key value : Bytes) (text : String)
  | stop
  | view (bytes : Bytes)
  | registered (steps : List Answer)
  | steps (steps : List Answer)
  | exit (code : Option Nat)

/-- The outcome of a step. -/
inductive Outcome where
  | result (r : Result)
  | failure (f : Failure)
  /-- The step names a handle that does not exist. -/
  | noHandle (name : Name)

/-- The answer to a step. -/
inductive Answer where
  | mk (outcome : Outcome) (log : List LogRecord)

end

end FamilyStore.Script
