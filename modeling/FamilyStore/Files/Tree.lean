import FamilyStore.Files.Fault
import FamilyStore.Files.Path
import FamilyStore.Bytes
import FamilyStore.Table

/-!
A file system: files and directories by their names from the root, and the directory in which work
is done.

A path is walked name by name, and every name but the last must be that of a directory. A slash at
the end of a path asks for a directory, so no file can be made there.
-/

namespace FamilyStore

namespace Files

/-- An entry of a directory. -/
inductive Node where
  | file (content : Bytes)
  | directory
  deriving DecidableEq, Repr

/-- The place of an entry: the names on the way from the root. -/
abbrev Place := List String

/-- The longest name of an entry, in bytes. -/
def maxName : Nat := 255

/-- The longest path, in bytes. -/
def maxPath : Nat := 4095

end Files

open Files in
/-- A file system. -/
structure Files where
  /-- The absolute path of the directory in which work is done. -/
  home : String
  nodes : Table Place Node

namespace Files

/-- The place of the directory in which work is done. -/
def homePlace (home : String) : Place := (namesOf home).filter (· ≠ "")

/-- The places on the way to a place, itself included, all of them below `above`. -/
def placesTo (above : Place) : Place → List Place
  | [] => []
  | name :: names => (above ++ [name]) :: placesTo (above ++ [name]) names

/-- A file system in which nothing lies but the directory in which work is done. -/
def empty (home : String) : Files :=
  ⟨home, ⟨(placesTo [] (homePlace home)).map fun p => (p, .directory)⟩⟩

/-- The entry at a place. The root is a directory. -/
def node? (t : Files) (place : Place) : Option Node :=
  if place = [] then some .directory else t.nodes.get? place

/-- Goes on from a place by one name. -/
def enter (t : Files) (place : Place) (name : String) : Except Refusal Place :=
  match t.node? place with
  | none => .error .noEntry
  | some (.file _) => .error .notDirectory
  | some .directory =>
    if name = "" ∨ name = "." then .ok place
    else if name = ".." then .ok place.dropLast
    else if maxName < name.utf8ByteSize then .error .nameTooLong
    else .ok (place ++ [name])

/-- The place that names lead to from where a path starts. -/
def walk (t : Files) (path : String) (names : List String) : Except Refusal Place :=
  if path = "" then .error .noEntry
  else if maxPath < path.utf8ByteSize then .error .nameTooLong
  else names.foldlM t.enter (if isAbsolute path then [] else homePlace t.home)

/-- The place that a path leads to. There need not be an entry. -/
def locate (t : Files) (path : String) : Except Refusal Place := t.walk path (namesOf path)

/-- The place at which a path asks for a file. -/
def locateFile (t : Files) (path : String) : Except Refusal Place :=
  if endsInSlash path then
    match t.walk path ((trimmedNamesOf path).dropLast ++ [""]) with
    | .error r => .error r
    | .ok _ => .error .isDirectory
  else t.locate path

/-- The place at which a path asks for a directory; slashes at its end say nothing more. -/
def locateDirectory (t : Files) (path : String) : Except Refusal Place :=
  t.walk path (trimmedNamesOf path)

/-- The entry that a path leads to. -/
def find (t : Files) (path : String) : Except Refusal Node :=
  match t.locate path with
  | .error r => .error r
  | .ok place =>
    match t.node? place with
    | some node => .ok node
    | none => .error .noEntry

/-- Whether there is an entry at a path. A path with a zero character leads nowhere. -/
def contains (t : Files) (path : String) : Bool :=
  !hasZero path && (t.find path).toOption.isSome

/-- The size that a directory reports. -/
def directorySize : Nat := 4096

/-- The size of the entry at a path. -/
def sizeAt (t : Files) (path : String) : Nat :=
  match t.find path with
  | .ok (.file content) => content.length
  | .ok .directory => directorySize
  | .error _ => 0

/-- The bytes of the file at a path. -/
def read (t : Files) (path : String) : Except Fault Bytes :=
  match t.find path with
  | .ok (.file content) => .ok content
  | .ok .directory => .error ⟨.isDirectory, path⟩
  | .error r => .error ⟨r, path⟩

/-- Makes a file with the given bytes, or replaces the bytes of one. -/
def write (t : Files) (path : String) (content : Bytes) : Except Fault Files :=
  match t.locateFile path with
  | .error r => .error ⟨r, path⟩
  | .ok place =>
    match t.node? place with
    | some .directory => .error ⟨.isDirectory, path⟩
    | _ => .ok { t with nodes := t.nodes.set place (.file content) }

/-- Removes the file at a path. -/
def remove (t : Files) (path : String) : Except Fault Files :=
  match t.locate path with
  | .error r => .error ⟨r, path⟩
  | .ok place =>
    match t.node? place with
    | some (.file _) => .ok { t with nodes := t.nodes.erase place }
    | some .directory => .error ⟨.isDirectory, path⟩
    | none => .error ⟨.noEntry, path⟩

/-- Makes a directory. -/
def makeDirectory (t : Files) (path : String) : Except Fault Files :=
  match t.locateDirectory path with
  | .error r => .error ⟨r, path⟩
  | .ok place =>
    match t.node? place with
    | some _ => .error ⟨.exists, path⟩
    | none => .ok { t with nodes := t.nodes.set place .directory }

end Files

end FamilyStore
