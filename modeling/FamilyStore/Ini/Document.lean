import FamilyStore.Ini.Line
import FamilyStore.Table

/-!
Configuration documents: sections of named options, and the defaults that all sections share.
-/

namespace FamilyStore.Ini

/-- The name of the section of defaults. -/
def defaultsName : Line := "DEFAULT".toList

/-- Options by name, each with the lines of its value. -/
abbrev Options := Table Line (List Line)

/-- A document: its defaults and its sections. -/
structure Document where
  defaults : Options
  sections : Table Line Options

namespace Document

/-- The document without options. -/
def empty : Document := ⟨.empty, .empty⟩

/-- The options of a section, or the defaults under their name. -/
def optionsOf (d : Document) (heading : Line) : Options :=
  if heading = defaultsName then d.defaults else (d.sections.get? heading).getD .empty

/-- Replaces the options of a section, or the defaults under their name. -/
def setOptions (d : Document) (heading : Line) (options : Options) : Document :=
  if heading = defaultsName then { d with defaults := options }
  else { d with sections := d.sections.set heading options }

/-- Whether the document has a section of that name. The defaults are no section. -/
def hasSection (d : Document) (heading : Line) : Bool := d.sections.contains heading

end Document

/-- The lines of a value as one text, without blanks at its end. -/
def joinLines (lines : List Line) : Line :=
  Text.stripRight (['\n'].intercalate lines)

/-- Raw texts of options by name. -/
abbrev RawOptions := Table Line Line

/-- Options with the lines of each value joined. -/
def Options.joined (options : Options) : RawOptions :=
  ⟨options.entries.map fun e => (e.1, joinLines e.2)⟩

/-- The options that hold in a section: the defaults, with the section's own values in their place
and the section's other options behind them. -/
def Document.effective (d : Document) (heading : Line) : RawOptions :=
  (d.optionsOf heading).joined.entries.foldl (fun t e => t.set e.1 e.2) d.defaults.joined

end FamilyStore.Ini
