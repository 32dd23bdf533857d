import FamilyStore.Proofs.Work
import FamilyStore.Store.Databases
import FamilyStore.Store.Iterators

/-!
Runs of the store: operations in any order, from the store before the first one.

An operation is what a caller does with a handle, or something that happens around the store:
files change, or a failure of the engine is set up. A number that stands for no handle is allowed;
the operation then fails. The transitions of a run keep what each operation replied, and the store
before and after it.
-/

namespace FamilyStore.Store

/-- A call on a family that is about one key. -/
inductive PointCall where
  | insert (key value : Value)
  | update (key delta : Value)
  | delete (key : Value)
  | lookup (key : Value)
  | get (key default : Value)
  | contains (key : Value)

/-- Something that a caller does with the store, or that happens around it. -/
inductive Operation where
  /-- The files are other ones from now on. -/
  | changeFiles (nodes : Table Files.Place Files.Node)
  /-- The next call of an entry point is to report a status. -/
  | failNext (entry : Engine.EntryPoint) (status : Status)
  | failIterationAt (position : Option Int)
  | refuseResize (on : Bool)
  | newDatabase
  | start (id : DatabaseId) (path : Value) (settings : Settings) (existing : Bool)
  | connect (path : Value) (settings : Settings) (existing : Bool)
  | register (id : DatabaseId)
  | deregister (id : DatabaseId)
  | createFamily (id : DatabaseId) (funcs : FuncsArgument) (maxKeySize : Value)
  | closeDatabase (id : DatabaseId)
  | point (id : FamilyId) (call : PointCall)
  | range (id : FamilyId) (key : Value)
  | closeFamily (id : FamilyId)
  | advance (id : IteratorId)
  | next (id : IteratorId)
  | closeIterator (id : IteratorId)
  | isValid (id : RecordId)
  | copy (id : RecordId)
  | viewKey (id : RecordId)
  | viewValue (id : RecordId)
  | readView (id : ViewId)
  | releaseView (id : ViewId)
  | holdView (id : ViewId)
  | unholdView (id : ViewId)

/-- What an operation replies. -/
inductive Reply where
  | done
  | found (value? : Option Bytes)
  | value (v : Value)
  | flag (b : Bool)
  | database (id : DatabaseId)
  | family (id : FamilyId)
  | iterator (id : IteratorId)
  | record (id? : Option RecordId)
  | next (pair? : Option (Bytes × Bytes))
  | pair (key value : Bytes)
  | view (id : ViewId)
  | bytes (bs : Bytes)

/-- A point call on a family. -/
def PointCall.run (id : FamilyId) : PointCall → Run Reply
  | .insert key value => (fun _ => .done) <$> Run.insert id key value
  | .update key delta => (fun _ => .done) <$> Run.update id key delta
  | .delete key => (fun _ => .done) <$> Run.delete id key
  | .lookup key => .found <$> Run.lookup id key
  | .get key default => .value <$> Run.getOr id key default
  | .contains key => .flag <$> Run.contains id key

/-- A change of the engine from outside. -/
def Run.tune (change : Engine → Engine) : Run Reply := do
  modify fun s => { s with engine := change s.engine }
  return .done

/-- The work of an operation. -/
def Operation.run : Operation → Run Reply
  | .changeFiles nodes => Run.tune fun e => { e with files := { e.files with nodes := nodes } }
  | .failNext entry status => Run.tune fun e => { e with pending := e.pending.set entry status }
  | .failIterationAt position => Run.tune fun e => { e with failIterationAt := position }
  | .refuseResize on => Run.tune fun e => { e with refuseResize := on }
  | .newDatabase => .database <$> Run.newDatabase
  | .start id path settings existing => (fun _ => .done) <$> Run.start id path settings existing
  | .connect path settings existing => .database <$> Run.connect path settings existing
  | .register id => (fun _ => .done) <$> Run.register id
  | .deregister id => (fun _ => .done) <$> Run.deregister id
  | .createFamily id funcs maxKeySize => .family <$> Run.createFamily id funcs maxKeySize
  | .closeDatabase id => (fun _ => .done) <$> Run.closeDatabase id
  | .point id call => call.run id
  | .range id key => .iterator <$> Run.range id key
  | .closeFamily id => (fun _ => .done) <$> Run.closeFamily id
  | .advance id => .record <$> Run.advance id
  | .next id => .next <$> Run.next id
  | .closeIterator id => (fun _ => .done) <$> Run.closeIterator id
  | .isValid id => .flag <$> (Run.record id >>= Run.isValid)
  | .copy id => (fun r => .pair r.1 r.2) <$> Run.copyRecord id
  | .viewKey id => .view <$> Run.viewKey id
  | .viewValue id => .view <$> Run.viewValue id
  | .readView id => .bytes <$> Run.readView id
  | .releaseView id => (fun _ => .done) <$> Run.releaseView id
  | .holdView id => (fun _ => .done) <$> Run.holdView id
  | .unholdView id => (fun _ => .done) <$> Run.unholdView id

/-- What an operation replies, and the store after it. -/
def perform (s : Store) (op : Operation) : Except Failure Reply × Store := op.run.run s

/-- The store after some operations. -/
def after (s : Store) (ops : List Operation) : Store := ops.foldl (fun s op => (s.perform op).2) s

/-- A store that operations can lead to. -/
inductive Reachable : Store → Prop where
  | initial (files : Files) : Reachable (.initial files)
  | step {s : Store} (op : Operation) (h : Reachable s) : Reachable (s.perform op).2

theorem after_nil (s : Store) : s.after [] = s := rfl

theorem after_cons (s : Store) (op : Operation) (ops : List Operation) :
    s.after (op :: ops) = (s.perform op).2.after ops := rfl

theorem after_append (s : Store) (ops ops' : List Operation) :
    s.after (ops ++ ops') = (s.after ops).after ops' :=
  List.foldl_append

theorem Reachable.after {s : Store} (h : Reachable s) (ops : List Operation) :
    Reachable (s.after ops) := by
  induction ops generalizing s with
  | nil => exact h
  | cons op ops ih => exact ih (h.step op)

/-- One operation of a run. -/
structure Transition where
  before : Store
  operation : Operation
  reply : Except Failure Reply
  after : Store

/-- What an operation makes of the store. -/
def transition (s : Store) (op : Operation) : Transition :=
  ⟨s, op, (s.perform op).1, (s.perform op).2⟩

/-- The transitions that operations make. -/
def trace (s : Store) : List Operation → List Transition
  | [] => []
  | op :: ops => ⟨s, op, (s.perform op).1, (s.perform op).2⟩ :: trace (s.perform op).2 ops

theorem trace_append (s : Store) (ops ops' : List Operation) :
    s.trace (ops ++ ops') = s.trace ops ++ (s.after ops).trace ops' := by
  induction ops generalizing s with
  | nil => rfl
  | cons op ops ih => exact congrArg (_ :: ·) (ih _)

/-- What is counted over a run is counted transition by transition. -/
theorem countP_trace_cons (p : Transition → Bool) (s : Store) (op : Operation)
    (ops : List Operation) : (s.trace (op :: ops)).countP p =
      (p (s.transition op)).toNat + ((s.perform op).2.trace ops).countP p := by
  rw [trace, List.countP_cons, Nat.add_comm]
  show _ = (p (s.transition op)).toNat + _
  cases hp : p (s.transition op) with
  | true => simp [show p ⟨s, op, (s.perform op).1, (s.perform op).2⟩ = true from hp]
  | false => simp [show p ⟨s, op, (s.perform op).1, (s.perform op).2⟩ = false from hp]

/-- A transition of a run stands between the operations before it and those after it. -/
theorem exists_of_mem_trace {s : Store} {ops : List Operation} {t : Transition}
    (h : t ∈ s.trace ops) : ∃ earlier later, ops = earlier ++ t.operation :: later ∧
      s.after earlier = t.before ∧ t.before.perform t.operation = (t.reply, t.after) ∧
      t.after.after later = s.after ops := by
  induction ops generalizing s with
  | nil => exact absurd h List.not_mem_nil
  | cons op ops ih =>
    rcases List.mem_cons.1 h with rfl | h
    · exact ⟨[], ops, rfl, rfl, rfl, rfl⟩
    · obtain ⟨earlier, later, hops, hbefore, hperform, hafter⟩ := ih h
      exact ⟨op :: earlier, later, congrArg (op :: ·) hops, hbefore, hperform, hafter⟩

end FamilyStore.Store
