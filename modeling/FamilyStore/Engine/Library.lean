import FamilyStore.Failure

/-!
Finding the engine's library. Each place is searched for every name that the library has on the
platform, before the next place is searched. A library that was loaded once stays loaded.
-/

namespace FamilyStore.Engine.Library

/-- The names of the library on a platform, the usual one first. -/
def names (platform : String) : List String :=
  if platform = "win32" then ["splinterdb.dll", "libsplinterdb.dll"]
  else if platform = "darwin" then ["libsplinterdb.dylib", "libsplinterdb.so"]
  else ["libsplinterdb.so", "libsplinterdb.so.1"]

/-- The places to search: first wherever the system looks by itself. -/
def places : List String := ["", "/usr/local/lib/", "/usr/lib/", "/opt/homebrew/lib/"]

/-- All candidates on a platform, in the order of the search. -/
def candidates (platform : String) : List String :=
  places.flatMap fun place => (names platform).map fun name => place ++ name

/-- The outcome of asking for the library: what came of it, and the names that were tried. -/
structure Request where
  outcome : Except Failure String
  tried : List String

/-- Searches for the library among the available ones. -/
def search (platform : String) (available : List String) : Request :=
  let missing := (candidates platform).takeWhile fun c => !available.contains c
  match (candidates platform).find? available.contains with
  | some found => ⟨.ok found, missing ++ [found]⟩
  | none => ⟨.error .libraryMissing, missing⟩

/-- Asks for the library, given the one that is loaded. -/
def request (platform : String) (available : List String) (loaded : Option String) :
    Request :=
  match loaded with
  | some name => ⟨.ok name, []⟩
  | none => search platform available

/-- Asks for the library a number of times. -/
def requests (platform : String) (available : List String) :
    Nat → Option String → List Request
  | 0, _ => []
  | n + 1, loaded =>
    let r := request platform available loaded
    r :: requests platform available n r.outcome.toOption

end FamilyStore.Engine.Library
