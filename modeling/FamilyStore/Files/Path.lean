/-!
Texts of paths.

An absolute path is normalised by its text alone: empty names and single dots vanish, and two dots
take the name before them away. The engine reads a path as a text that ends with a zero character,
so it sees no more than what stands before the first one.
-/

namespace FamilyStore.Files

/-- Splits a text at its slashes. -/
def splitSlashes : List Char → List (List Char)
  | [] => [[]]
  | c :: cs =>
    match splitSlashes cs with
    | [] => [[c]]
    | n :: ns => if c = '/' then [] :: n :: ns else (c :: n) :: ns

/-- The names in a path, empty ones included. -/
def namesOf (path : String) : List String := (splitSlashes path.toList).map String.ofList

/-- The names in a path up to the last one that is not empty. Slashes at the end leave empty names
behind it. -/
def trimmedNamesOf (path : String) : List String :=
  ((namesOf path).reverse.dropWhile (· == "")).reverse

/-- Whether a path ends in a slash. -/
def endsInSlash (path : String) : Bool := path.toList.getLast? == some '/'

/-- Whether a path starts at the root. -/
def isAbsolute (path : String) : Bool := "/".isPrefixOf path

/-- The slashes that a normalised path starts with: one, or two if there are exactly two. -/
def leadingSlashes (path : String) : String :=
  if "///".isPrefixOf path then "/"
  else if "//".isPrefixOf path then "//"
  else if "/".isPrefixOf path then "/"
  else ""

/-- Takes one more name into a normalised list of names, the last name first. -/
def normaliseName (names : List String) (name : String) : List String :=
  if name = "" ∨ name = "." then names
  else if name = ".." then names.drop 1
  else name :: names

/-- A path without empty names, dots, and names that are left again. -/
def normalise (path : String) : String :=
  leadingSlashes path ++ "/".intercalate ((namesOf path).foldl normaliseName []).reverse

/-- A path as it is seen from a directory. -/
def join (directory path : String) : String :=
  if isAbsolute path then path
  else if endsInSlash directory then directory ++ path
  else directory ++ "/" ++ path

/-- The normalised absolute path of a path that may be relative to `home`. -/
def absolutePath (home path : String) : String := normalise (join home path)

/-- What the engine reads of a path: the text before the first zero character. -/
def upToZero (path : String) : String :=
  String.ofList (path.toList.takeWhile (· ≠ Char.ofNat 0))

/-- Whether a path has a zero character, which no file name can have. -/
def hasZero (path : String) : Bool := path.toList.contains (Char.ofNat 0)

theorem upToZero_eq_self {path : String} (h : hasZero path = false) : upToZero path = path := by
  have keep : ∀ cs : List Char, cs.contains (Char.ofNat 0) = false →
      cs.takeWhile (· ≠ Char.ofNat 0) = cs := by
    intro cs
    induction cs with
    | nil => intro _; rfl
    | cons c cs ih =>
      intro hc
      simp only [List.contains_cons, Bool.or_eq_false_iff, beq_eq_false_iff_ne] at hc
      rw [List.takeWhile_cons_of_pos (by simpa using hc.1.symm), ih hc.2]
  rw [upToZero, keep _ h, String.ofList_toList]

end FamilyStore.Files
