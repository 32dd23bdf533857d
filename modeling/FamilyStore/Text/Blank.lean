import FamilyStore.Text.CodeRange

/-!
Blank characters: those of Unicode's bidirectional classes for white space and separators, and all
space separators. Stripping a line or a number removes exactly these.
-/

namespace FamilyStore.Text

/-- The code points of the blank characters. -/
def blankRanges : CodeRanges := [
  (9, 13), (28, 32), (133, 133), (160, 160), (5760, 5760), (8192, 8202),
  (8232, 8233), (8239, 8239), (8287, 8287), (12288, 12288)]

/-- Whether `c` is blank. -/
def isBlank (c : Char) : Bool := blankRanges.has c

/-- Text without the blanks at its start. -/
def stripLeft (s : List Char) : List Char := s.dropWhile isBlank

/-- Text without the blanks at its end. -/
def stripRight (s : List Char) : List Char := (s.reverse.dropWhile isBlank).reverse

/-- Text without the blanks at both ends. -/
def strip (s : List Char) : List Char := stripRight (stripLeft s)

end FamilyStore.Text
