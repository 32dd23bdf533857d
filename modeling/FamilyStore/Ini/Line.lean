import FamilyStore.Text.Blank

/-!
Lines of a configuration file, each on its own: what a line says when it neither goes on with the
option before it nor is blank or a comment.
-/

namespace FamilyStore.Ini

/-- A line, or any other piece of a configuration file. -/
abbrev Line := List Char

/-- What a line says. -/
inductive Statement where
  /-- The start of a section. -/
  | heading (name : Line)
  /-- An option and the first line of its value. -/
  | option (name value : Line)
  | unreadable
  deriving DecidableEq, Repr

/-- Whether a line without its blanks is a comment. -/
def isComment : Line → Bool
  | c :: _ => c = '#' || c = ';'
  | [] => false

/-- The name between an opening bracket at the start and the last closing bracket. -/
def heading? : Line → Option Line
  | '[' :: rest =>
    match (rest.reverse.dropWhile (· ≠ ']')).drop 1 with
    | [] => none
    | name => some name.reverse
  | _ => none

/-- Whether a character parts the name of an option from its value. -/
def isDelimiter (c : Char) : Bool := c = '=' || c = ':'

/-- The name before the first delimiter and the value after it. -/
def option? (s : Line) : Option (Line × Line) :=
  match s.dropWhile fun c => !isDelimiter c with
  | [] => none
  | _ :: value => some (Text.stripRight (s.takeWhile fun c => !isDelimiter c), Text.strip value)

/-- What a line without its blanks says. -/
def Statement.ofLine (s : Line) : Statement :=
  match heading? s with
  | some name => .heading name
  | none =>
    match option? s with
    | some (name, value) => .option name value
    | none => .unreadable

/-- How many blanks a line starts with. -/
def indentOf (line : Line) : Nat := (line.takeWhile Text.isBlank).length

end FamilyStore.Ini
