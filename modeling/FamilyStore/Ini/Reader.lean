import FamilyStore.Ini.Document
import FamilyStore.Ini.Fault
import FamilyStore.Text.Lowercase

/-!
Reading a configuration document line by line.

A line that is indented deeper than the option before it goes on with the value of that option. A
blank line belongs to the value as well, a comment does not. Option names are lowered. A section or
an option that comes twice ends the reading, as does an option before the first section. Lines that
say nothing are collected and reported together at the end.
-/

namespace FamilyStore.Ini

/-- The state of reading. -/
structure Reader where
  /-- The name of the file, for messages. -/
  source : String
  document : Document
  /-- The section that the next option belongs to. -/
  heading : Option Line
  /-- The option that the next indented line goes on with. -/
  option : Option Line
  /-- The indentation of the last line that started something. -/
  indent : Nat
  /-- The unreadable lines with their numbers, the last one first. -/
  unreadable : List (Nat × Line)

namespace Reader

/-- The state before the first line. -/
def start (source : String) : Reader := ⟨source, .empty, none, none, 0, []⟩

/-- Adds a line to the value of an option. -/
def extend (r : Reader) (heading option value : Line) : Reader :=
  let options := (r.document.optionsOf heading).modify option fun lines => lines ++ [value]
  { r with document := r.document.setOptions heading options }

/-- A blank line or a comment. -/
def skip (r : Reader) (comment : Bool) : Reader :=
  match r.heading, r.option with
  | some heading, some option => if comment then r else r.extend heading option []
  | _, _ => r

/-- The start of a section. -/
def openSection (r : Reader) (number : Nat) (name : Line) : Except Fault Reader :=
  if r.document.hasSection name then
    .error (.duplicateSection r.source number (String.ofList name))
  else
    let document :=
      if name = defaultsName then r.document else r.document.setOptions name .empty
    .ok { r with document := document, heading := some name, option := none }

/-- A line that could not be read. -/
def reject (r : Reader) (number : Nat) (line : Line) : Reader :=
  { r with unreadable := (number, line) :: r.unreadable }

/-- An option of the section `heading`. -/
def openOption (r : Reader) (number : Nat) (line heading name value : Line) :
    Except Fault Reader :=
  let r := if name.isEmpty then r.reject number line else r
  let name := Text.lowercase name
  let options := r.document.optionsOf heading
  if options.contains name then
    .error (.duplicateOption r.source number (String.ofList heading) (String.ofList name))
  else
    .ok { r with
      document := r.document.setOptions heading (options.set name [value])
      option := if name.isEmpty then none else some name }

/-- A line that starts something new. -/
def begin (r : Reader) (number : Nat) (line stripped : Line) : Except Fault Reader :=
  let r := { r with indent := indentOf line }
  match Statement.ofLine stripped, r.heading with
  | .heading name, _ => r.openSection number name
  | _, none => .error (.missingHeader r.source number (String.ofList line))
  | .option name value, some heading => r.openOption number line heading name value
  | .unreadable, some _ => .ok (r.reject number line)

/-- Reads one line. -/
def step (r : Reader) (number : Nat) (line : Line) : Except Fault Reader :=
  let stripped := Text.strip line
  if stripped.isEmpty || isComment stripped then .ok (r.skip (isComment stripped))
  else
    match r.heading, r.option with
    | some heading, some option =>
      if r.indent < indentOf line then .ok (r.extend heading option stripped)
      else r.begin number line stripped
    | _, _ => r.begin number line stripped

/-- Reads lines, the first of which has the given number. -/
def run (r : Reader) (number : Nat) : List Line → Except Fault Reader
  | [] => .ok r
  | l :: ls =>
    match r.step number l with
    | .ok r => r.run (number + 1) ls
    | .error e => .error e

/-- The document that was read, unless lines were unreadable. -/
def finish (r : Reader) : Except Fault Document :=
  match r.unreadable.reverse with
  | [] => .ok r.document
  | lines => .error (.unparsable r.source (lines.map fun l => (l.1, String.ofList l.2)))

end Reader

end FamilyStore.Ini
