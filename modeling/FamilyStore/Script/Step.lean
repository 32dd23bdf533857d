import FamilyStore.DataFuncs.Argument
import FamilyStore.DataFuncs.Callbacks
import FamilyStore.Demo.Basic
import FamilyStore.Engine.EntryPoint
import FamilyStore.Value.Basic

/-!
Scripts: sequences of operations on the store by the names that earlier steps have given out.
-/

namespace FamilyStore.Script

/-- A name that a script gives to a handle. -/
abbrev Name := String

/-- Whether a step reads the key or the value of a record. -/
inductive Part where
  | key
  | value
  deriving DecidableEq, Repr

/-- A method of a demonstration. -/
inductive DemoMethod where
  | setup
  | showRecords
  | showCounters
  | showCursor
  | cleanup
  deriving DecidableEq, Repr

/-- An attribute of a demonstration that holds a handle. -/
inductive DemoAttribute where
  | database
  | users
  | counters
  deriving DecidableEq, Repr

/-- One step of a script. A step that makes a handle gives it the name `as_`, if there is one. -/
inductive Step where
  | writeFile (path : String) (data : Bytes)
  | fetchFile (path : String)
  | removeFile (path : String)
  | makeDirectory (path : String)
  /-- The next call of an entry point reports a status; names of no entry point have no effect. -/
  | failNext (entry : Option Engine.EntryPoint) (status : Status)
  | failIterationAt (position : Option Int)
  | failResize (on : Bool)
  | stats
  | start (existing : Bool) (path : Value) (fields : Option (List (String × Value)))
      (as_ : Option Name)
  | newDatabase (as_ : Option Name)
  | reuse (database : Name) (existing : Bool) (path : Value)
      (fields : Option (List (String × Value)))
  | register (database : Name)
  | deregister (database : Name)
  /-- Steps during which the thread is registered. -/
  | registered (database : Name) (steps : List Step)
  /-- Steps on a thread of their own. -/
  | thread (steps : List Step)
  /-- A step that also names handles for which it has no use. They must exist. -/
  | naming (handles : List Name) (step : Step)
  | state (handle : Name)
  | close (handle : Name)
  | enter (handle : Name)
  | leave (handle : Name)
  | drop (handle : Name)
  | family (database : Name) (funcs : FuncsArgument) (maxKeySize : Value) (as_ : Option Name)
  | insert (family : Name) (key value : Value)
  | update (family : Name) (key delta : Value)
  | delete (family : Name) (key : Value)
  | lookup (family : Name) (key : Value)
  | get (family : Name) (key default : Value)
  | contains (family : Name) (key : Value)
  | scan (family : Name) (start : Value)
  | debugText (family : Name) (slot : RenderSlot) (data : Bytes)
  | range (family : Name) (start : Value) (as_ : Option Name)
  | advance (iterator : Name) (as_ : Option Name)
  | next (iterator : Name)
  | toList (iterator : Name)
  | copy (record : Name)
  | view (record : Name) (part : Part) (as_ : Option Name)
  | readView (view : Name)
  | releaseView (view : Name)
  | hold (view : Name) (as_ : Option Name)
  | release (hold : Name)
  | runProgram (program : Program) (hasLibrary : Bool)
  | demo (program : Program) (path : String) (as_ : Option Name)
  | callDemo (demo : Name) (method : DemoMethod) (hasLibrary : Bool)
  | takeFromDemo (demo : Name) (attribute_ : DemoAttribute) (as_ : Option Name)

/-- The name that a step looks up, if it looks one up. -/
def Step.target? : Step → Option Name
  | reuse n _ _ _ | register n | deregister n | registered n _ | state n | close n | enter n
  | leave n | drop n | family n _ _ _ | insert n _ _ | update n _ _ | delete n _ | lookup n _
  | get n _ _ | contains n _ | scan n _ | debugText n _ _ | range n _ _ | advance n _ | next n
  | toList n | copy n | view n _ _ | readView n | releaseView n | hold n _ | release n
  | callDemo n _ _ | takeFromDemo n _ _ => some n
  | _ => none

/-- The names of handles in a step, in the order in which they are looked up. -/
def Step.handles : Step → List Name
  | naming names _ => names
  | step => step.target?.toList

/-- The name that a step gives to a new handle, if it gives one. -/
def Step.newName? : Step → Option Name
  | start _ _ _ as_ | newDatabase as_ | family _ _ _ as_ | range _ _ as_ | advance _ as_
  | view _ _ as_ | hold _ as_ | demo _ _ as_ | takeFromDemo _ _ as_ => as_
  | _ => none

end FamilyStore.Script
