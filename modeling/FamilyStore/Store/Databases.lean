import FamilyStore.DataFuncs.Argument
import FamilyStore.Store.State

/-!
Database handles: creating and opening databases, registering threads, making families, closing.
-/

namespace FamilyStore.Store

/-- A path as a caller gives it: a text, or the bytes of one. -/
inductive PathArgument where
  | text (path : String)
  | bytes (path : Bytes)

namespace PathArgument

/-- The path that a value stands for. -/
def ofValue : Value → Except Failure PathArgument
  | .str s => .ok (.text s)
  | .buffer (.bytes bs) => .ok (.bytes bs)
  | v => .error (.argument (.notPath v.typeName))

/-- The characters whose numbers are the given bytes. -/
def characters (bs : Bytes) : String := String.ofList (bs.map fun b => Char.ofNat b.toNat)

/-- The bytes that are the numbers of characters. -/
def numbers (s : String) : Bytes := s.toList.map fun c => UInt8.ofNat c.toNat

/-- The normalised absolute path. Bytes are taken one by one, whatever text they stand for. -/
def absolute (home : String) : PathArgument → PathArgument
  | .text path => .text (Files.absolutePath home path)
  | .bytes path =>
    .bytes (numbers
      (Files.absolutePath (characters (Text.Utf8.encode home.toList)) (characters path)))

/-- The path as the file system takes it. Bytes that are no text lead nowhere. -/
def inFiles? : PathArgument → Option String
  | .text path => some path
  | .bytes path => (Text.Utf8.decode path).toOption.map String.ofList

/-- The path as messages show it. -/
def shown : PathArgument → String
  | .text path => path
  | .bytes path => Text.quoteBytes path

end PathArgument

namespace Run

/-- A new database handle. -/
def newDatabase : Run DatabaseId := do
  let s ← get
  let id := s.databases.size
  setDatabase id ⟨.fresh, none, 0⟩
  return id

/-- Refuses to create a database over a file that is not empty, and to open one where nothing is. -/
def checkPlace (path : PathArgument) (existing : Bool) : Run Unit := do
  let files := (← get).engine.files
  let found := path.inFiles?.filter files.contains
  if existing && found.isNone then fail (.databaseNotFound path.shown)
  if !existing && found.any fun place => 0 < files.sizeAt place then
    fail (.databaseExists path.shown)

/-- The path as the text that the engine takes. -/
def engineText : PathArgument → Except Failure String
  | .bytes _ => .error (.argument (.noAttribute "bytes" "encode"))
  | .text path => .ok path

/-- What the engine is told about a database. -/
def databaseRecord (path : String) (sizes : Sizes) (block : Engine.Handle) :
    Engine.DatabaseRecord where
  path := Files.upToZero path
  cacheSize := UInt64.ofNat sizes.cacheSize.1
  diskSize := UInt64.ofNat sizes.diskSize.1
  configBlock := block

/-- Creates or opens the database of a fresh handle. -/
def start (id : DatabaseId) (path : Value) (settings : Settings) (existing : Bool) :
    Run Unit := do
  let d ← database id
  if d.phase ≠ .fresh then fail .handleUsed
  let sizes ← ofExcept settings.validate
  let path := (← ofExcept (PathArgument.ofValue path)).absolute (← get).engine.files.home
  checkPlace path existing
  let text ← ofExcept (engineText path)
  let block ← engine Engine.Run.configInit
  let config := databaseRecord text sizes block
  let call := if existing then Engine.Run.openExisting else Engine.Run.create
  let result ← engine (call config)
  match result with
  | .error status =>
    engine (Engine.Run.configDeinit block)
    throw (statusFailure (if existing then .openExisting else .create) status)
  | .ok handle =>
    setDatabase id { d with phase := .opened handle block, site := some ⟨text, sizes⟩ }
    note [if existing then .databaseOpened text else .databaseCreated text]

/-- A new handle on a database that is created or opened. On failure there is no handle. -/
def connect (path : Value) (settings : Settings) (existing : Bool) : Run DatabaseId := do
  let id ← newDatabase
  match ← outcome (start id path settings existing) with
  | .ok () => return id
  | .error f =>
    modify fun s => { s with databases := s.databases.erase id }
    throw f

/-- The engine's database and the sizes of an open handle. -/
def openDatabase (id : DatabaseId) : Run (Engine.Handle × Sizes) := do
  let d ← database id
  match d.phase, d.site with
  | .opened handle _, some site => return (handle, site.sizes)
  | _, _ => fail .databaseClosed

/-- Registers the calling thread. -/
def register (id : DatabaseId) : Run Unit := do
  let (handle, _) ← openDatabase id
  engine (Engine.Run.registerThread handle)

/-- Takes the registration of the calling thread back. -/
def deregister (id : DatabaseId) : Run Unit := do
  let (handle, _) ← openDatabase id
  engine (Engine.Run.deregisterThread handle)

/-- Makes a family. Without a key size it takes keys as long as the database does. -/
def createFamily (id : DatabaseId) (funcs : FuncsArgument) (maxKeySize : Value) :
    Run FamilyId := do
  let (handle, sizes) ← openDatabase id
  let funcs ← ofExcept funcs.resolve
  let limit : Value := .int sizes.maxKeySize.1
  let size := match maxKeySize with
    | .null => limit
    | v => v
  let config ← ofExcept (DataConfig.make funcs size limit)
  let family ← engine (Engine.Run.familyCreate handle config.record)
  note [.familyCreated config.typeName config.maxKeySize]
  let s ← get
  let familyId := s.families.size
  setFamily familyId ⟨id, config, some family, [], 0⟩
  return familyId

/-- Closes a database handle. -/
def closeDatabase (id : DatabaseId) : Run Unit := do
  let d ← database id
  setDatabase id { d with phase := .closed }
  match d.phase with
  | .opened handle block =>
    engine (Engine.Run.close handle)
    engine (Engine.Run.configDeinit block)
    match d.site with
    | some site => note [.databaseClosed site.path]
    | none => return ()
  | _ => return ()

end Run

/-- A database handle as messages show it. -/
def Database.text (d : Database) : String :=
  let path := match d.site with
    | some site => Text.quote site.path
    | none => "None"
  "SplinterDB(path=" ++ path ++ ", " ++ (if d.isClosed then "closed" else "open") ++ ")"

end FamilyStore.Store
