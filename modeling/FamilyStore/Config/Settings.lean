import FamilyStore.Failure
import FamilyStore.Value.Text

/-!
Settings of a database and the sizes that come from them.

Settings are what a caller asks for, one value of any type per field. Sizes are settings that have
passed validation: a positive integer for every field.
-/

namespace FamilyStore

/-- The fields of a configuration, in the order in which they are checked and written. -/
inductive ConfigField where
  | cacheSize
  | diskSize
  | maxKeySize
  | maxValueSize
  deriving DecidableEq, Repr

namespace ConfigField

/-- All fields, in their order. -/
def all : List ConfigField := [cacheSize, diskSize, maxKeySize, maxValueSize]

/-- The name of a field in texts and files. -/
def name : ConfigField → String
  | cacheSize => "cache_size_bytes"
  | diskSize => "disk_size_bytes"
  | maxKeySize => "max_key_size"
  | maxValueSize => "max_value_size"

/-- The field with a given name. -/
def ofName? (name : String) : Option ConfigField := all.find? fun f => f.name == name

/-- The value of a field that is not set: a cache of one gibibyte, a disk of thirty, and the
largest keys and messages that the engine takes. -/
def default : ConfigField → Nat
  | cacheSize => 1024 * 1024 * 1024
  | diskSize => 30 * 1024 * 1024 * 1024
  | maxKeySize => 24
  | maxValueSize => 128

end ConfigField

/-- What a caller asks for: a value of any type for each field. -/
structure Settings where
  cacheSize : Value
  diskSize : Value
  maxKeySize : Value
  maxValueSize : Value

/-- The sizes of a database. -/
structure Sizes where
  cacheSize : Size
  diskSize : Size
  maxKeySize : Size
  maxValueSize : Size

namespace Settings

/-- The settings with every field at its default. -/
def defaults : Settings :=
  ⟨.int ConfigField.cacheSize.default, .int ConfigField.diskSize.default,
    .int ConfigField.maxKeySize.default, .int ConfigField.maxValueSize.default⟩

/-- The value of a field. -/
def get (s : Settings) : ConfigField → Value
  | .cacheSize => s.cacheSize
  | .diskSize => s.diskSize
  | .maxKeySize => s.maxKeySize
  | .maxValueSize => s.maxValueSize

/-- The settings with one field replaced. -/
def set (s : Settings) (field : ConfigField) (v : Value) : Settings :=
  match field with
  | .cacheSize => { s with cacheSize := v }
  | .diskSize => { s with diskSize := v }
  | .maxKeySize => { s with maxKeySize := v }
  | .maxValueSize => { s with maxValueSize := v }

/-- What makes settings, as messages show it. -/
def maker : String := "DBConfig.__init__()"

/-- Replaces one named field; a name that is no field fails. -/
def setNamed (s : Settings) (name : String) (v : Value) : Except Failure Settings :=
  match ConfigField.ofName? name with
  | some field => .ok (s.set field v)
  | none =>
    .error (.argument
      (if name = "self" then .repeatedReceiver maker else .unexpectedField maker name))

/-- The defaults with the named fields replaced. -/
def ofFields (fields : List (String × Value)) : Except Failure Settings :=
  fields.foldlM (fun s e => s.setNamed e.1 e.2) defaults

/-- The failure for a field whose value is no positive integer. -/
def sizeFailure (field : ConfigField) (v : Value) : Failure :=
  match v.show? with
  | some shown => .store (.sizeNotPositive field.name shown)
  | none => .argument .tooManyDigits

/-- The size that a field asks for. -/
def sizeOf (s : Settings) (field : ConfigField) : Except Failure Size :=
  match (s.get field).size? with
  | some size => .ok size
  | none => .error (sizeFailure field (s.get field))

/-- The sizes that the settings ask for. The first field that is no positive integer fails. -/
def validate (s : Settings) : Except Failure Sizes := do
  let cacheSize ← s.sizeOf .cacheSize
  let diskSize ← s.sizeOf .diskSize
  let maxKeySize ← s.sizeOf .maxKeySize
  let maxValueSize ← s.sizeOf .maxValueSize
  return ⟨cacheSize, diskSize, maxKeySize, maxValueSize⟩

/-- One field as messages show it. -/
def showField? (s : Settings) (field : ConfigField) : Option String :=
  ((s.get field).show?).map fun shown => field.name ++ "=" ++ shown

/-- The settings as messages show them; `none` when a number has too many digits. -/
def show? (s : Settings) : Option String :=
  (ConfigField.all.mapM s.showField?).map fun shown =>
    "DBConfig(" ++ ", ".intercalate shown ++ ")"

/-- Whether every field can be written. -/
def isWritable (s : Settings) : Bool := ConfigField.all.all fun f => (s.get f).isWritable

/-- Whether two settings have equal values in every field. -/
def equals (s t : Settings) : Bool := ConfigField.all.all fun f => (s.get f).equals (t.get f)

end Settings

/-- The size of a field. -/
def Sizes.get (s : Sizes) : ConfigField → Size
  | .cacheSize => s.cacheSize
  | .diskSize => s.diskSize
  | .maxKeySize => s.maxKeySize
  | .maxValueSize => s.maxValueSize

/-- Sizes as settings. -/
def Sizes.settings (s : Sizes) : Settings :=
  ⟨.int s.cacheSize.1, .int s.diskSize.1, .int s.maxKeySize.1, .int s.maxValueSize.1⟩

end FamilyStore
