/-!
Lines of text. A carriage return, a line feed, and one after the other all end a line and become a
single line feed. Every line but possibly the last keeps its line feed.
-/

namespace FamilyStore.Text

/-- Text with every line end written as one line feed. -/
def unifyLineEnds : List Char → List Char
  | [] => []
  | '\r' :: '\n' :: cs => '\n' :: unifyLineEnds cs
  | c :: cs => (if c = '\r' then '\n' else c) :: unifyLineEnds cs

/-- Puts a character in front of the first of some lines; after a line feed a new line starts. -/
def pushChar (c : Char) : List (List Char) → List (List Char)
  | [] => [[c]]
  | l :: ls => if c = '\n' then [c] :: l :: ls else (c :: l) :: ls

/-- The lines of a text. -/
def splitLines : List Char → List (List Char)
  | [] => []
  | c :: cs => pushChar c (splitLines cs)

/-- The lines of a text whose line ends may be of any kind. -/
def lines (s : List Char) : List (List Char) := splitLines (unifyLineEnds s)

/-- A text without a carriage return at its end. -/
def dropLastReturn (s : List Char) : List Char :=
  if s.getLast? == some '\r' then s.dropLast else s

/-- The lines that are complete when the text after `s` is unknown. A carriage return at the end is
not yet a line end, because a line feed may follow it. -/
def completeLines (s : List Char) : List (List Char) :=
  (lines (dropLastReturn s)).filter fun l => l.getLast? == some '\n'

end FamilyStore.Text
