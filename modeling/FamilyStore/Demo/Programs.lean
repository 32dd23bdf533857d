import FamilyStore.Demo.Basic

/-!
What the demonstration programs show, and their main functions.
-/

namespace FamilyStore.Demo

open Store (Run)

/-- The users of the basic program. -/
def people : List (String × String) :=
  [("user:1", "alice"), ("user:2", "bob"), ("user:3", "carol")]

/-- A truth value in a line. -/
def truth (b : Bool) : String := if b then "True" else "False"

/-- A value that may be missing, in a line. -/
def shownValue : Option Bytes → String
  | some bs => Text.quoteBytes bs
  | none => "None"

/-- Writes, looks up and deletes records. -/
def showRecords (d : Demo) : Run Unit := do
  people.forM fun (key, value) => do
    say d.program ("Inserting: " ++ shown key ++ " -> " ++ shown value)
    Store.Run.insert (← need "insert" d.users) (arg key) (arg value)
  people.forM fun (key, _) => do
    let found ← Store.Run.lookup (← need "lookup" d.users) (arg key)
    say d.program ("Lookup " ++ shown key ++ ": found=" ++ truth found.isSome ++ " value="
      ++ shownValue found)
  say d.program "Deleting user:2"
  let users ← need "delete" d.users
  Store.Run.delete users (arg "user:2")
  let present ← Store.Run.contains users (arg "user:2")
  say d.program ("user:2 still present: " ++ truth present)

/-- Adds to a counter. -/
def count (d : Demo) (key : String) (n : Int) : Run Unit := do
  Store.Run.update (← need "update" d.counters) (arg key) (.bytes (Counter.encode n))

/-- Adds to counters without reading them first. -/
def showCounters (d : Demo) : Run Unit := do
  count d "page:home" 1
  count d "page:home" 1
  count d "page:home" 1
  count d "page:about" 5
  ["page:home", "page:about"].forM fun key => do
    let value ← Store.Run.getOr (← need "get" d.counters) (arg key) .null
    let n ← Store.Run.ofExcept (Counter.decodeValue value)
    say d.program ("Counter " ++ shown key ++ " = " ++ toString n)

/-- Steps through at most `fuel` further records and writes a line for each. -/
def narrate (d : Demo) (it : Store.IteratorId) : Nat → Run Unit
  | 0 => return ()
  | fuel + 1 => do
    match ← Store.Run.advance it with
    | none => return ()
    | some record =>
      let key ← Store.Run.readView (← Store.Run.viewKey record)
      let value ← Store.Run.readView (← Store.Run.viewValue record)
      say d.program ("Key: " ++ Text.quoteBytes key ++ ", Value: " ++ Text.quoteBytes value)
      narrate d it fuel

/-- A number in at least two digits. -/
def twoDigits (n : Nat) : String := if n < 10 then "0" ++ toString n else toString n

/-- Scans a family in ascending order, from a key on and as a whole. -/
def showForward (d : Demo) (family : Store.FamilyId) : Run Unit := do
  (List.range 10).forM fun n =>
    Store.Run.insert family (arg ("key:" ++ twoDigits n)) (arg ("value " ++ toString n))
  say d.program "Scanning from key:05"
  let it ← Store.Run.range family (arg "key:05")
  Store.Run.ensuring (do narrate d it ((← Store.Run.visited it) + 1))
    (Store.Run.closeIterator it)
  let kept ← Store.Run.scan family .null
  say d.program ("Copied " ++ toString kept.length ++ " records out of a full scan")

/-- Scans a family in descending order. -/
def showReverse (d : Demo) (family : Store.FamilyId) : Run Unit := do
  ["apple", "cherry", "banana"].forM fun name =>
    Store.Run.insert family (arg name) (arg "fruit")
  let it ← Store.Run.range family .null
  let line : Run Unit := do
    let keys := (← Store.Run.toList it).map fun r => Text.quoteBytes r.1
    say d.program ("Reverse order: [" ++ ", ".intercalate keys ++ "]")
  Store.Run.ensuring line (Store.Run.closeIterator it)

/-- Works with a new family, which is closed at the end. -/
def withFamily (d : Demo) (b : DataFuncs.Builtin) (work : Store.FamilyId → Run Unit) :
    Run Unit := do
  let db ← need "create_column_family" d.database
  let family ← createFamily db b
  Store.Run.ensuring (work family) (Store.Run.closeFamily family)

/-- Scans two families with different orders. -/
def showCursor (d : Demo) : Run Unit := do
  withFamily d .default (showForward d)
  withFamily d .reverse (showReverse d)
  say d.program "Cursor operations completed successfully!"

/-- What a program shows once it is set up. -/
def demonstrate (d : Demo) : Run Unit := do
  match d.program with
  | .basic =>
    showRecords d
    showCounters d
  | .cursor => showCursor d

/-- How a program ends: by itself, or with a code. -/
abbrev Exit := Option Nat

/-- A whole program, run in the directory in which work is done. -/
def run (program : Program) (hasLibrary : Bool) : Run Exit := do
  let home := (← get).engine.files.home
  let (d, result) ← setup (new program (home ++ "/" ++ program.fileName)) hasLibrary
  let shownAll : Run Unit := do
    Store.Run.ofExcept result
    demonstrate d
  match ← Store.Run.outcome shownAll with
  | .ok () =>
    cleanup d
    return none
  | .error f =>
    complain program ("Demo failed: " ++ f.message)
    cleanup d
    return some 1

end FamilyStore.Demo
