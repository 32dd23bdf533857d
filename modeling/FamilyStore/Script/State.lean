import FamilyStore.Script.Answer
import FamilyStore.Script.HandleKind

/-!
The state of a script: the store, its demonstrations, and the names that are in use. A name keeps
what it stands for. It knows which name it was made from, so that dropping a handle drops everything
made from it first. Several names may stand for one handle; the last of them takes it along.
-/

namespace FamilyStore.Script

/-- What a name stands for. -/
inductive Target where
  | database (id : Store.DatabaseId)
  | family (id : Store.FamilyId)
  | iterator (id : Store.IteratorId)
  | record (id : Store.RecordId)
  | view (id : Store.ViewId)
  /-- A hold on the bytes of a view, until it is released. -/
  | hold (view : Store.ViewId) (active : Bool)
  | demo (id : Nat)
  deriving DecidableEq, Repr

/-- A name in use. -/
structure Binding where
  target : Target
  /-- The name that it was made from. -/
  source : Option Name

/-- The state of a script. -/
structure State where
  store : Store
  demos : Table Nat Demo
  /-- The names in use, in the order in which they were made. -/
  names : Table Name Binding

namespace State

/-- The state before the first step. -/
def initial (files : Files) : State := ⟨.initial files, .empty, .empty⟩

/-- The kind of what a name stands for. -/
def kindOf? (s : State) : Target → Option HandleKind
  | .database _ => some .database
  | .family _ => some .family
  | .iterator _ => some .iterator
  | .record _ => some .record
  | .view _ => some .view
  | .hold _ _ => some .hold
  | .demo id => (s.demos.get? id).map fun d => .demo d.program

/-- The failure of a step that cannot begin: its new name is in use, or the handle that it names is
of the wrong kind. -/
def fault? (s : State) (step : Step) : Option ArgumentFault :=
  match step.newName?.filter s.names.contains with
  | some name => some (.nameInUse name)
  | none => do
    let name ← step.target?
    let bound ← s.names.get? name
    let kind ← s.kindOf? bound.target
    step.fault? kind

/-- The outcome of a step that cannot begin. A missing handle comes before all else. -/
def refusal? (s : State) (step : Step) : Option Outcome :=
  match step.handles.find? fun n => !s.names.contains n with
  | some name => some (.noHandle name)
  | none => (s.fault? step).map fun fault => .failure (.argument fault)

end State

/-- Work of a script: it may fail, and what it did before stays done. -/
abbrev Run (α : Type) := ExceptT Failure (StateM State) α

namespace Run

/-- Work in the store. -/
def store {α : Type} (work : Store.Run α) : Run α := fun s =>
  let (result, store) := work.run s.store
  (result, { s with store := store })

/-- Work in the engine. -/
def engine {α : Type} (work : Engine.Run α) : Run α := store (Store.Run.engine work)

/-- Lets a name stand for a target. -/
def setName (name : Name) (target : Target) (source : Option Name) : Run Unit :=
  modify fun s => { s with names := s.names.set name ⟨target, source⟩ }

/-- One more name keeps a target. -/
def keep : Target → Run Unit
  | .database id => store (Store.Run.keepDatabase id)
  | .family id => store (Store.Run.keepFamily id)
  | _ => return ()

/-- Gives a new name to a target, which the name keeps from then on. -/
def bind (as_ : Option Name) (target : Target) (source : Option Name) : Run Unit :=
  match as_ with
  | some name => do
    keep target
    setName name target source
  | none => return ()

/-- A use of a handle that has no such use. -/
def unusable {α : Type} : Run α := throw (.misuse .unknownHandle)

/-- What a name stands for. -/
def target (name : Name) : Run Target := do
  match (← get).names.get? name with
  | some b => return b.target
  | none => unusable

/-- The database handle under a name. -/
def database (name : Name) : Run Store.DatabaseId := do
  match ← target name with
  | .database id => return id
  | _ => unusable

/-- The family handle under a name. -/
def family (name : Name) : Run Store.FamilyId := do
  match ← target name with
  | .family id => return id
  | _ => unusable

/-- The iterator under a name. -/
def iterator (name : Name) : Run Store.IteratorId := do
  match ← target name with
  | .iterator id => return id
  | _ => unusable

/-- The record under a name. -/
def record (name : Name) : Run Store.RecordId := do
  match ← target name with
  | .record id => return id
  | _ => unusable

/-- The view under a name. -/
def view (name : Name) : Run Store.ViewId := do
  match ← target name with
  | .view id => return id
  | _ => unusable

/-- The number and the state of the demonstration under a name. -/
def demo (name : Name) : Run (Nat × Demo) := do
  match ← target name with
  | .demo id =>
    match (← get).demos.get? id with
    | some d => return (id, d)
    | none => unusable
  | _ => unusable

/-- Lets go of a hold, once. -/
def releaseHold (name : Name) : Run Unit := do
  match (← get).names.get? name with
  | some ⟨.hold id true, source⟩ => do
    store (Store.Run.unholdView id)
    setName name (.hold id false) source
  | _ => return ()

/-- A name no longer keeps what it stood for. -/
def letGo (name : Name) : Target → Run Unit
  | .database id => store (Store.Run.letDatabaseGo id)
  | .family id => store (Store.Run.letFamilyGo id)
  | .iterator id => store (Store.Run.forgetIterator id)
  | .hold _ _ => releaseHold name
  | .demo id => do
    let (_, d) ← demo name
    let d ← store (Demo.letAllGo d)
    modify fun s => { s with demos := s.demos.set id d }
  | .record _ | .view _ => return ()

/-- Forgets the handle under a name. -/
def forget (name : Name) : Run Unit := do
  letGo name (← target name)
  modify fun s => { s with names := s.names.erase name }

/-- The names made from a name, in the order in which they were made. -/
def namesFrom (s : State) (name : Name) : List Name :=
  (s.names.entries.filter fun e => e.2.source == some name).map Prod.fst

/-- A name behind all names made from it, directly or not. Names form no cycle, so their number
bounds the depth. -/
def withDescendants (s : State) : Nat → Name → List Name
  | 0, name => [name]
  | fuel + 1, name => (namesFrom s name).flatMap (withDescendants s fuel) ++ [name]

/-- Drops a handle after everything made from it. -/
def drop (name : Name) : Run Unit := do
  let s ← get
  (withDescendants s s.names.size name).forM forget

end Run

end FamilyStore.Script
