import FamilyStore.Demo.Programs
import FamilyStore.Script.Observe

/-!
Running scripts, step by step.
-/

namespace FamilyStore.Script

namespace Run

/-- A failure of the file system as one of the step. -/
def ofFiles {α : Type} : Except Files.Fault α → Run α
  | .ok a => return a
  | .error fault => throw (.file fault)

/-- Refuses a path with a zero character, which leads nowhere. -/
def checkPath (path : String) : Run Unit := do
  if Files.hasZero path then throw (.argument .embeddedZero)

/-- The file system. -/
def files : Run Files := do
  return (← get).store.engine.files

/-- Changes the engine from outside. -/
def tune (change : Engine → Engine) : Run Unit :=
  modify fun s => { s with store := { s.store with engine := change s.store.engine } }

/-- Replaces the file system. -/
def setFiles (t : Files) : Run Unit := tune fun e => { e with files := t }

/-- The bytes of a file, if there is one. -/
def fetchFile (path : String) : Run Result := do
  let t ← files
  if !t.contains path then return .nothing
  return .value (.bytes (← ofFiles (t.read path)))

/-- The settings that a step gives, or the defaults. -/
def settingsOf : Option (List (String × Value)) → Run Settings
  | none => return .defaults
  | some fields => store (Store.Run.ofExcept (Settings.ofFields fields))

/-- A database handle on a database that is created or opened. -/
def start (existing : Bool) (path : Value) (fields : Option (List (String × Value)))
    (as_ : Option Name) : Run Result := do
  let settings ← settingsOf fields
  let id ← store (Store.Run.connect path settings existing)
  bind as_ (.database id) none
  return .database (← databaseState id)

/-- A family handle on a new family. A script keeps its log in writing: where the record of the
family has a size of too many digits, the step fails without the record and without a handle. -/
def createFamily (name : Name) (funcs : FuncsArgument) (maxKeySize : Value) :
    Run Store.FamilyId := do
  let id ← store (Store.Run.createFamily (← database name) funcs maxKeySize)
  let f ← store (Store.Run.family id)
  if f.config.show?.isNone then
    modify fun s => { s with store := { s.store with log := s.store.log.tail } }
    throw (.argument .tooManyDigits)
  return id

/-- Goes on to the next record and gives it a name. -/
def advance (name : Name) (as_ : Option Name) : Run Result := do
  let id ← iterator name
  match ← store (Store.Run.advance id) with
  | none => return .nothing
  | some recordId =>
    bind as_ (.record recordId) (some name)
    let (key, value) ← store (Store.Run.copyRecord recordId)
    return .advanced key value (← store (Store.Run.recordText recordId))

/-- A view of a part of a record. -/
def newView (name : Name) (part : Part) (as_ : Option Name) : Run Result := do
  let recordId ← record name
  let id ← store (match part with
    | .key => Store.Run.viewKey recordId
    | .value => Store.Run.viewValue recordId)
  bind as_ (.view id) (some name)
  return .view (← store (Store.Run.readView id))

/-- Calls a method of a demonstration. -/
def callDemo (name : Name) (method : DemoMethod) (hasLibrary : Bool) : Run Result := do
  let (id, d) ← demo name
  match method with
  | .setup =>
    let (d, result) ← store (Demo.setup d hasLibrary)
    modify fun s => { s with demos := s.demos.set id d }
    store (Store.Run.ofExcept result)
  | .cleanup => store (Demo.cleanup d)
  | .showRecords => store (Demo.showRecords d)
  | .showCounters => store (Demo.showCounters d)
  | .showCursor => store (Demo.showCursor d)
  let (_, d) ← demo name
  return .demo (← demoState d)

/-- The handle that a demonstration holds, or the database of a family. -/
def heldBy (name : Name) (which : DemoAttribute) : Run (Option Target) := do
  match ← target name with
  | .family id => do
    let f ← store (Store.Run.family id)
    return some (.database f.database)
  | _ => do
    let (_, d) ← demo name
    return match which with
      | .database => d.database.map Target.database
      | .users => d.users.map Target.family
      | .counters => d.counters.map Target.family

/-- Gives a name to a handle that another one holds. The name outlives the other handle. -/
def takeFromDemo (name : Name) (which : DemoAttribute) (as_ : Option Name) : Run Result := do
  match ← heldBy name which with
  | none => return .flag false
  | some target => do
    bind as_ target none
    return .flag true

/-- A new demonstration. -/
def newDemo (program : Program) (path : String) (as_ : Option Name) : Run Result := do
  let id := (← get).demos.size
  let d := Demo.new program path
  modify fun s => { s with demos := s.demos.set id d }
  bind as_ (.demo id) none
  return .demo (← demoState d)

/-- Registers the thread for a block of steps. The block keeps the database to its end. -/
def enterBlock (name : Name) : Run Store.DatabaseId := do
  let id ← database name
  store (Store.Run.register id)
  store (Store.Run.keepDatabase id)
  return id

/-- Ends a block of steps. -/
def leaveBlock (id : Store.DatabaseId) : Run Unit :=
  store (Store.Run.ensuring (Store.Run.deregister id) (Store.Run.letDatabaseGo id))

/-- A step that has no steps of its own. -/
def simple : Step → Run Result
  | .writeFile path data => do
    checkPath path
    setFiles (← ofFiles ((← files).write path data))
    return .nothing
  | .fetchFile path => fetchFile path
  | .removeFile path => do
    checkPath path
    setFiles (← ofFiles ((← files).remove path))
    return .nothing
  | .makeDirectory path => do
    checkPath path
    setFiles (← ofFiles ((← files).makeDirectory path))
    return .nothing
  | .failNext entry status => do
    match entry with
    | some entry => tune fun e => { e with pending := e.pending.set entry status }
    | none => pure ()
    return .nothing
  | .failIterationAt position => do
    tune fun e => { e with failIterationAt := position }
    return .nothing
  | .failResize on => do
    tune fun e => { e with refuseResize := on }
    return .nothing
  | .stats => do
    return .stats (.of (← get).store.engine)
  | .start existing path fields as_ => start existing path fields as_
  | .newDatabase as_ => do
    let id ← store Store.Run.newDatabase
    bind as_ (.database id) none
    return .database (← databaseState id)
  | .reuse name existing path fields => do
    let id ← database name
    let settings ← settingsOf fields
    store (Store.Run.start id path settings existing)
    return .database (← databaseState id)
  | .register name => do
    store (Store.Run.register (← database name))
    return .nothing
  | .deregister name => do
    store (Store.Run.deregister (← database name))
    return .nothing
  | .state name => observe name
  | .close name => do
    close name
    return .nothing
  | .enter name => enter name
  | .leave name => leave name
  | .drop name => do
    drop name
    return .nothing
  | .family name funcs maxKeySize as_ => do
    let id ← createFamily name funcs maxKeySize
    bind as_ (.family id) (some name)
    return .family (← familyState id)
  | .insert name key value => do
    store (Store.Run.insert (← family name) key value)
    return .nothing
  | .update name key delta => do
    store (Store.Run.update (← family name) key delta)
    return .nothing
  | .delete name key => do
    store (Store.Run.delete (← family name) key)
    return .nothing
  | .lookup name key => do
    return .lookup (.ofValue? (← store (Store.Run.lookup (← family name) key)))
  | .get name key default => do
    let v ← store (Store.Run.getOr (← family name) key default)
    return .value (← store (Store.Run.ofExcept v.answer))
  | .contains name key => do
    return .flag (← contains name key)
  | .scan name start => do
    return .scanned (← store (Store.Run.scan (← family name) start))
  | .debugText name slot data => do
    return .text (← store (Store.Run.debugText (← family name) slot data))
  | .range name start as_ => do
    let id ← store (Store.Run.range (← family name) start)
    bind as_ (.iterator id) (some name)
    return .nothing
  | .advance name as_ => advance name as_
  | .next name => do
    match ← store (Store.Run.next (← iterator name)) with
    | some (key, value) => return .pair key value
    | none => return .stop
  | .toList name => toList name
  | .copy name => do
    let (key, value) ← store (Store.Run.copyRecord (← record name))
    return .pair key value
  | .view name part as_ => newView name part as_
  | .readView name => do
    return .value (.bytes (← store (Store.Run.readView (← view name))))
  | .releaseView name => do
    release name
    return .nothing
  | .hold name as_ => do
    let id ← holdable name
    store (Store.Run.holdView id)
    bind as_ (.hold id true) (some name)
    return .nothing
  | .release name => do
    release name
    return .nothing
  | .runProgram program hasLibrary => do
    return .exit (← store (Demo.run program hasLibrary))
  | .demo program path as_ => newDemo program path as_
  | .callDemo name method hasLibrary => callDemo name method hasLibrary
  | .takeFromDemo name which as_ => takeFromDemo name which as_
  | .registered _ _ => unusable
  | .thread _ => unusable
  | .naming _ _ => unusable

end Run

/-- Empties the log and gives what was in it, the first event first. -/
def takeLog (s : State) : List Event × State :=
  (s.store.log.reverse, { s with store := { s.store with log := [] } })

/-- Runs work and collects what it leaves in the log. -/
def logged {α : Type} (work : Run α) (s : State) : Except Failure α × List LogRecord × State :=
  let (_, s) := takeLog s
  let (result, s) := work.run s
  let (events, s) := takeLog s
  (result, Event.records events, s)

/-- The answer to a step from its result. -/
def Answer.of (result : Except Failure Result) (log : List LogRecord) : Answer :=
  match result with
  | .ok r => .mk (.result r) log
  | .error f => .mk (.failure f) log

mutual

/-- Runs a step. -/
def runStep (step : Step) (s : State) : Answer × State :=
  match s.refusal? step with
  | some outcome => (.mk outcome [], s)
  | none =>
    match step with
    | .naming _ step => runStep step s
    | .thread steps =>
      let (answers, s) := runSteps steps s
      (.mk (.result (.steps answers)) [], s)
    | .registered name steps =>
      let (entered, log, s) := logged (Run.enterBlock name) s
      match entered with
      | .error f => (.mk (.failure f) log, s)
      | .ok id =>
        let (answers, s) := runSteps steps s
        let (left, log, s) := logged (Run.leaveBlock id) s
        (.of (left.map fun _ => .registered answers) log, s)
    | step =>
      let (result, log, s) := logged (Run.simple step) s
      (.of result log, s)

/-- Runs steps one after the other. -/
def runSteps (steps : List Step) (s : State) : List Answer × State :=
  match steps with
  | [] => ([], s)
  | step :: rest =>
    let (answer, s) := runStep step s
    let (answers, s) := runSteps rest s
    (answer :: answers, s)

end

/-- Runs a script in a directory that is empty: the answers of its steps and the engine's counters
at the end. -/
def run (home : String) (steps : List Step) : List Answer × Stats :=
  let (answers, s) := runSteps steps (.initial (.empty home))
  (answers, .of s.store.engine)

end FamilyStore.Script
