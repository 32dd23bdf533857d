import FamilyStore.Config.Settings
import FamilyStore.Files.Tree
import FamilyStore.Ini.Interpolation
import FamilyStore.Ini.Reader
import FamilyStore.Ini.Writer
import FamilyStore.Text.Blocks
import FamilyStore.Text.Lines

/-!
Configuration files: one section with an option for each field.

Saving writes any settings. Loading takes missing options from the defaults, refuses options that
are no field, and validates what it has read; so it returns sizes.
-/

namespace FamilyStore.Config

/-- The name of the section with the fields. -/
def sectionName : String := "splinterdb"

/-- The value of a field as text that can be stored. -/
def storable (v : Value) : Except Failure String :=
  match v.plain? with
  | some text => .ok text
  | none => .error (.argument .tooManyDigits)

/-- Refuses a text whose percent signs could not be read back. -/
def checkPercent (text : String) : Except Failure Unit :=
  match Ini.strayPercent? text.toList with
  | some position => .error (.argument (.strayPercent text position))
  | none => .ok ()

/-- The options that a section of settings consists of. -/
def options (s : Settings) : Except Failure (List (Ini.Line × Ini.Line)) := do
  let texts ← ConfigField.all.mapM fun f => do
    let text ← storable (s.get f)
    return (f.name, text)
  texts.forM fun e => checkPercent e.2
  return texts.map fun e => (e.1.toList, e.2.toList)

/-- The text of the file that settings are saved to. -/
def save (s : Settings) : Except Failure String := do
  let written ← options s
  return String.ofList (Ini.writeSection sectionName.toList written)

/-- Saves settings to the file at a path. What the file held before is lost. -/
def saveTo (files : Files) (path : String) (s : Settings) : Except Failure Files := do
  let text ← save s
  if Files.hasZero path then throw (.argument .embeddedZero)
  (files.write path (Text.Utf8.encode text.toList)).mapError .file

/-- The document in a file. A fault of the lines before unreadable bytes wins over the bytes, and
those win over lines that say nothing. -/
def document (path : String) (content : Bytes) : Except Failure Ini.Document :=
  let (text, undecodable) := Text.readFile content
  match undecodable with
  | some cause =>
    match (Ini.Reader.start path).run 1 (Text.completeLines text) with
    | .error fault => .error (.ini fault)
    | .ok _ => .error (.argument (.undecodable cause))
  | none =>
    match (Ini.Reader.start path).run 1 (Text.lines text) with
    | .error fault => .error (.ini fault)
    | .ok reader =>
      match reader.finish with
      | .error fault => .error (.ini fault)
      | .ok document => .ok document

/-- Sets the field that an option names. -/
def setOption (s : Settings) (name value : Ini.Line) : Except Failure Settings :=
  match ConfigField.ofName? (String.ofList name) with
  | none => .error (.store (.unknownOption (String.ofList name)))
  | some field =>
    match Text.readInt? value with
    | some n => .ok (s.set field (.int n))
    | none => .error (.store (.optionNotInteger field.name (String.ofList value)))

/-- The settings that a document holds. -/
def settingsOf (path : String) (d : Ini.Document) : Except Failure Settings := do
  if !d.hasSection sectionName.toList then
    throw (.store (.noConfigSection path sectionName))
  match d.values sectionName.toList with
  | .error fault => throw (.ini fault)
  | .ok values => values.foldlM (fun s o => setOption s o.1 o.2) Settings.defaults

/-- The sizes in a file, which is given by its bytes, or by none when it cannot be opened. -/
def load (path : String) : Option Bytes → Except Failure Sizes
  | none => .error (.store (.unreadableConfig path))
  | some content => do
    let d ← document path content
    let settings ← settingsOf path d
    settings.validate

/-- The sizes in the file at a path. No file can have a path with a zero character. -/
def loadFrom (files : Files) (path : String) : Except Failure Sizes :=
  if Files.hasZero path then .error (.argument .embeddedZero)
  else load path (files.read path).toOption

end FamilyStore.Config
