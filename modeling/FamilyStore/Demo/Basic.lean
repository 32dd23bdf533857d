import FamilyStore.DataFuncs.Builtin
import FamilyStore.Store.Keeping

/-!
Demonstration programs: one shows the basic operations on two families, the other shows iteration.
Each sets a database up at its path, works with it, and cleans up; what it does shows in the log.
-/

namespace FamilyStore

/-- A demonstration program. -/
inductive Program where
  | basic
  | cursor
  deriving DecidableEq, Repr

/-- A demonstration under way, with the handles that it keeps. -/
structure Demo where
  program : Program
  path : String
  database : Option Store.DatabaseId
  users : Option Store.FamilyId
  counters : Option Store.FamilyId

namespace Program

/-- Who writes the lines of a program. -/
def logger : Program → Logger
  | basic => .basicDemo
  | cursor => .cursorDemo

/-- The name of the demonstration that a program runs. -/
def className : Program → String
  | basic => "BasicOperationsDemo"
  | cursor => "CursorOperationsDemo"

/-- The name of the database file of a program. -/
def fileName : Program → String
  | basic => "basic_output.db"
  | cursor => "cursor_output.db"

end Program

namespace Demo

open Store (Run)

/-- A demonstration that has not set its database up. -/
def new (program : Program) (path : String) : Demo := ⟨program, path, none, none, none⟩

/-- Writes a line. -/
def say (program : Program) (text : String) : Run Unit :=
  Store.Run.note [.remark program.logger .info text]

/-- Writes a line about a failure. -/
def complain (program : Program) (text : String) : Run Unit :=
  Store.Run.note [.remark program.logger .error text]

/-- The bytes of a text. -/
def textBytes (s : String) : Bytes := Text.Utf8.encode s.toList

/-- The bytes of a text as an argument. -/
def arg (s : String) : Value := .bytes (textBytes s)

/-- A byte string in a line. -/
def shown (s : String) : String := Text.quoteBytes (textBytes s)

/-- What is there, or the failure of using nothing. -/
def need {α : Type} (member : String) (found : Option α) : Run α :=
  match found with
  | some a => return a
  | none => throw (.argument (.noAttribute "NoneType" member))

/-- The settings of a program's database. The basic program keeps to 64 mebibytes of cache and one
gibibyte of disk. -/
def settings : Program → Settings
  | .basic => (Settings.defaults.set .cacheSize (.int (64 * 1024 * 1024))).set .diskSize
      (.int (1024 * 1024 * 1024))
  | .cursor => .defaults

/-- Removes what lies at the path of a demonstration. -/
def clearPlace (path : String) : Run Unit := do
  let files := (← get).engine.files
  if files.contains path then
    match files.remove path with
    | .ok files => modify fun s => { s with engine := { s.engine with files := files } }
    | .error fault => throw (.file fault)

/-- Creates the database of a demonstration; there must be an engine library. -/
def createDatabase (d : Demo) (hasLibrary : Bool) : Run Store.DatabaseId := do
  clearPlace d.path
  say d.program ("Creating database at: " ++ d.path)
  if !hasLibrary then throw .libraryMissing
  Store.Run.connect (.str d.path) (settings d.program) false

/-- Makes a family with built-in data functions. -/
def createFamily (db : Store.DatabaseId) (b : DataFuncs.Builtin) : Run Store.FamilyId :=
  Store.Run.createFamily db (.ofClass b.funcs) .null

/-- Closes what a demonstration has opened, families before the database. -/
def cleanup (d : Demo) : Run Unit := do
  [d.users, d.counters].forM fun family =>
    match family with
    | some id => Store.Run.closeFamily id
    | none => return ()
  match d.database with
  | some id => do
    say d.program "Closing database"
    Store.Run.closeDatabase id
  | none => return ()

/-- How far setting up came, and whether it failed. -/
abbrev SetupOutcome := Demo × Except Failure Unit

/-- Holds a database handle in the place of the one that it held. -/
def holdDatabase (d : Demo) (db : Store.DatabaseId) : Run Demo := do
  Store.Run.keepDatabase db
  d.database.forM Store.Run.letDatabaseGo
  return { d with database := some db }

/-- Holds the family of the users in the place of the one that it held. -/
def holdUsers (d : Demo) (users : Store.FamilyId) : Run Demo := do
  Store.Run.keepFamily users
  d.users.forM Store.Run.letFamilyGo
  return { d with users := some users }

/-- Holds the family of the counters in the place of the one that it held. -/
def holdCounters (d : Demo) (counters : Store.FamilyId) : Run Demo := do
  Store.Run.keepFamily counters
  d.counters.forM Store.Run.letFamilyGo
  return { d with counters := some counters }

/-- Lets go of everything that a demonstration holds. -/
def letAllGo (d : Demo) : Run Demo := do
  d.database.forM Store.Run.letDatabaseGo
  d.users.forM Store.Run.letFamilyGo
  d.counters.forM Store.Run.letFamilyGo
  return { d with database := none, users := none, counters := none }

/-- Makes the families of the basic program. -/
def setupFamilies (d : Demo) (db : Store.DatabaseId) : Run SetupOutcome := do
  say d.program "Creating column families"
  match ← Store.Run.outcome (createFamily db .default) with
  | .error f => return (d, .error f)
  | .ok users =>
    let d ← holdUsers d users
    match ← Store.Run.outcome (createFamily db .counter) with
    | .error f => return (d, .error f)
    | .ok counters => return (← holdCounters d counters, .ok ())

/-- Sets the database up, and for the basic program its families. -/
def setupParts (d : Demo) (hasLibrary : Bool) : Run SetupOutcome := do
  match ← Store.Run.outcome (createDatabase d hasLibrary) with
  | .error f => return (d, .error f)
  | .ok db =>
    let d ← holdDatabase d db
    match d.program with
    | .basic => setupFamilies d db
    | .cursor => return (d, .ok ())

/-- Sets a demonstration up. When the store fails, the basic program says so and cleans up. -/
def setup (d : Demo) (hasLibrary : Bool) : Run SetupOutcome := do
  let (d, result) ← setupParts d hasLibrary
  match result, d.program with
  | .error f, .basic =>
    if f.kind.isStore then
      complain d.program ("Failed to setup database: " ++ f.message)
      match ← Store.Run.outcome (cleanup d) with
      | .ok () => return (d, .error f)
      | .error g => return (d, .error g)
    return (d, .error f)
  | _, _ => return (d, result)

end Demo

end FamilyStore
