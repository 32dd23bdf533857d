import FamilyStore.Engine.Misuse
import FamilyStore.Failure.Argument
import FamilyStore.Failure.Store
import FamilyStore.Files.Fault
import FamilyStore.Ini.Fault

/-!
Failures: every way in which an operation can end without a result, by cause.
-/

namespace FamilyStore

/-- Why an operation ended without a result. -/
inductive Failure where
  | store (fault : StoreFault)
  | argument (fault : ArgumentFault)
  | ini (fault : Ini.Fault)
  | file (fault : Files.Fault)
  | misuse (fault : Engine.Misuse)
  /-- A failure that a caller's own callback chose, with its text. -/
  | raised (kind : FailureKind) (text : String)
  /-- No engine library could be loaded. -/
  | libraryMissing
  deriving DecidableEq, Repr

namespace Failure

/-- The kind of a failure. -/
def kind : Failure → FailureKind
  | store fault => fault.kind
  | argument fault => fault.kind
  | ini fault => fault.kind
  | file fault => fault.refusal.kind
  | misuse _ => .misuse
  | raised kind _ => kind
  | libraryMissing => .runtime

/-- The advice for a missing engine library. -/
def libraryAdvice : String :=
  "Could not load SplinterDB library. "
    ++ "Please ensure libsplinterdb is installed and in your library path. "
    ++ "On Linux: /usr/local/lib or set LD_LIBRARY_PATH. "
    ++ "On macOS: /usr/local/lib or /opt/homebrew/lib or set DYLD_LIBRARY_PATH."

/-- The wording of a failure. A missing key is shown quoted. -/
def message : Failure → String
  | store fault => fault.message
  | argument fault => fault.message
  | ini fault => fault.message
  | file fault => fault.message
  | misuse fault => fault.message
  | raised .missingKey text => Text.quote text
  | raised _ text => text
  | libraryMissing => libraryAdvice

end Failure

end FamilyStore
