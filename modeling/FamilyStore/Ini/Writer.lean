import FamilyStore.Ini.Document

/-!
Writing a section of a configuration document.
-/

namespace FamilyStore.Ini

/-- A value with its lines after the first indented, so that they go on with it. -/
def indentLines (s : Line) : Line :=
  s.flatMap fun c => if c = '\n' then ['\n', '\t'] else [c]

/-- One option on a line of its own. -/
def writeOption (name value : Line) : Line :=
  name ++ [' ', '=', ' '] ++ indentLines value ++ ['\n']

/-- A section: its heading, its options, and an empty line. -/
def writeSection (heading : Line) (options : List (Line × Line)) : Line :=
  '[' :: heading ++ [']', '\n'] ++ options.flatMap (fun o => writeOption o.1 o.2) ++ ['\n']

end FamilyStore.Ini
