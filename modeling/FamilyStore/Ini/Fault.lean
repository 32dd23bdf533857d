import FamilyStore.Failure.Kind
import FamilyStore.Text.Quoted

/-!
What can be wrong with a configuration file, as opposed to the values in it.
-/

namespace FamilyStore.Ini

/-- A fault of a configuration file. Line numbers count from one; `line` is the text of a line. -/
inductive Fault where
  | duplicateSection (source : String) (number : Nat) (heading : String)
  | duplicateOption (source : String) (number : Nat) (heading option : String)
  /-- An option before the first section. -/
  | missingHeader (source : String) (number : Nat) (line : String)
  /-- Lines that are neither sections nor options. -/
  | unparsable (source : String) (lines : List (Nat × String))
  /-- A percent sign that starts no reference. -/
  | strayPercent (found : String)
  /-- A reference that is not closed, or that has no name. -/
  | badReference (found : String)
  /-- A reference to an option that does not exist. -/
  | missingReference (option heading reference raw : String)
  /-- References nested too deep, as in a cycle. -/
  | deepReference (option heading raw : String)
  deriving DecidableEq, Repr

namespace Fault

/-- The kind of a fault. -/
def kind : Fault → FailureKind
  | duplicateSection _ _ _ => .duplicateSection
  | duplicateOption _ _ _ _ => .duplicateOption
  | missingHeader _ _ _ => .missingHeader
  | unparsable _ _ => .unparsableText
  | strayPercent _ | badReference _ => .badReference
  | missingReference _ _ _ _ => .missingReference
  | deepReference _ _ _ => .deepReference

/-- How deep references may nest. -/
def depthLimit : Nat := 10

/-- A line number, padded to two places. -/
def lineNumber (n : Nat) : String :=
  if n < 10 then " " ++ toString n else toString n

/-- Where a line stands. -/
def place (source : String) (number : Nat) : String :=
  "While reading from " ++ Text.quote source ++ " [line " ++ lineNumber number ++ "]: "

/-- The wording of a fault. -/
def message : Fault → String
  | duplicateSection source number heading =>
    place source number ++ "section " ++ Text.quote heading ++ " already exists"
  | duplicateOption source number heading option =>
    place source number ++ "option " ++ Text.quote option ++ " in section " ++ Text.quote heading
      ++ " already exists"
  | missingHeader source number line =>
    "File contains no section headers.\nfile: " ++ Text.quote source ++ ", line: "
      ++ toString number ++ "\n" ++ Text.quote line
  | unparsable source lines =>
    "Source contains parsing errors: " ++ Text.quote source
      ++ String.join (lines.map fun l =>
        "\n\t[line " ++ lineNumber l.1 ++ "]: " ++ Text.quote l.2)
  | strayPercent found => "'%' must be followed by '%' or '(', found: " ++ Text.quote found
  | badReference found => "bad interpolation variable reference " ++ Text.quote found
  | missingReference option heading reference raw =>
    "Bad value substitution: option " ++ Text.quote option ++ " in section "
      ++ Text.quote heading ++ " contains an interpolation key " ++ Text.quote reference
      ++ " which is not a valid option name. Raw value: " ++ Text.quote raw
  | deepReference option heading raw =>
    "Recursion limit exceeded in value substitution: option " ++ Text.quote option
      ++ " in section " ++ Text.quote heading ++ " contains an interpolation key which "
      ++ "cannot be substituted in " ++ toString depthLimit ++ " steps. Raw value: "
      ++ Text.quote raw

end Fault

end FamilyStore.Ini
