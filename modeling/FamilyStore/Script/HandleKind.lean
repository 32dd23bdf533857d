import FamilyStore.Script.Step

/-!
Kinds of handle, and what a step asks of the handle that it names. A handle of another kind lacks
the member that the step uses, or does not do what the step does with it.
-/

namespace FamilyStore.Script

/-- The kind of a handle. -/
inductive HandleKind where
  | database
  | family
  | iterator
  | record
  | view
  | hold
  | demo (program : Program)
  deriving DecidableEq, Repr

/-- The name of a kind of handle in messages. -/
def HandleKind.name : HandleKind → String
  | database => "SplinterDB"
  | family => "ColumnFamily"
  | iterator => "RangeIterator"
  | record => "IteratorResult"
  | view => "memoryview"
  | hold => "pickle.PickleBuffer"
  | demo program => program.className

/-- The kinds of handle that a step can use, and the fault of using it on a kind with another
name. -/
structure Demand where
  kinds : List HandleKind
  fault : String → ArgumentFault

/-- The demand for a member that handles of the given kinds have. -/
def Demand.member (kinds : List HandleKind) (member : String) : Demand :=
  ⟨kinds, fun found => .noAttribute found member⟩

/-- The demand of a demonstration's method. -/
def DemoMethod.demand : DemoMethod → Demand
  | setup => .member [.demo .basic, .demo .cursor] "setup_database"
  | showRecords => .member [.demo .basic] "demonstrate_basic_operations"
  | showCounters => .member [.demo .basic] "demonstrate_counters"
  | showCursor => .member [.demo .cursor] "demonstrate_cursor"
  | cleanup => .member [.demo .basic, .demo .cursor] "cleanup"

/-- The demand of a demonstration's attribute. A family has its database as well. -/
def DemoAttribute.demand : DemoAttribute → Demand
  | database => .member [.demo .basic, .demo .cursor, .family] "db"
  | users => .member [.demo .basic] "users"
  | counters => .member [.demo .basic] "counters"

/-- What a step asks of the handle that it names, if it asks for anything. -/
def Step.demand? : Step → Option Demand
  | reuse _ _ _ _ => some (.member [.database] "_create_or_open")
  | register _ => some (.member [.database] "register_thread")
  | deregister _ => some (.member [.database] "deregister_thread")
  | registered _ _ => some (.member [.database] "registered_thread")
  | state _ => some (.member [.database, .family, .iterator, .record] "valid")
  | close _ => some (.member [.database, .family, .iterator] "close")
  | enter _ => some (.member [.database, .family, .iterator, .view] "__enter__")
  | leave _ => some (.member [.database, .family, .iterator, .view] "__exit__")
  | family _ _ _ _ => some (.member [.database] "create_column_family")
  | insert _ _ _ => some (.member [.family] "insert")
  | update _ _ _ => some (.member [.family] "update")
  | delete _ _ => some (.member [.family] "delete")
  | lookup _ _ => some (.member [.family] "lookup")
  | get _ _ _ => some (.member [.family] "get")
  | contains _ _ => some ⟨[.family, .iterator, .view], .noMembers⟩
  | scan _ _ | range _ _ _ => some (.member [.family] "range")
  | debugText _ _ _ => some (.member [.family] "_cf")
  | advance _ _ => some (.member [.iterator] "advance")
  | next _ => some ⟨[.iterator], .notIterator⟩
  | toList _ => some ⟨[.iterator, .view], .noItems⟩
  | copy _ => some (.member [.record] "copy")
  | view _ .key _ => some (.member [.record] "key")
  | view _ .value _ => some (.member [.record] "value")
  | readView _ => some (.member [.view] "tobytes")
  | releaseView _ | release _ => some (.member [.view, .hold] "release")
  | hold _ _ => some ⟨[.view, .hold], .noBytes⟩
  | callDemo _ method _ => some method.demand
  | takeFromDemo _ attribute_ _ => some attribute_.demand
  | _ => none

/-- The fault of a step that names a handle of a kind. -/
def Step.fault? (step : Step) (kind : HandleKind) : Option ArgumentFault :=
  match step.demand? with
  | some demand => if demand.kinds.contains kind then none else some (demand.fault kind.name)
  | none => none

end FamilyStore.Script
