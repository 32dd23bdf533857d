/-!
The release: its version and the names that it offers.
-/

namespace FamilyStore.Release

/-- The version. -/
def version : String := "0.1.0"

/-- The names that the release offers, in alphabetical order with capitals first. -/
def exports : List String := [
  "ColumnFamily", "ConfigurationError", "DBConfig", "DataConfig", "DataFuncs",
  "DatabaseExistsError", "DatabaseNotFoundError", "DefaultDataFuncs", "IteratorResult",
  "IteratorStateError", "KeyTooLargeError", "LookupResult", "NOT_FOUND", "RangeIterator",
  "ReverseDataFuncs", "Slice", "SplinterDB", "SplinterDBError", "StaleResultError",
  "Uint64AddDataFuncs", "default_config", "load_config_from_ini", "save_config_to_ini"]

end FamilyStore.Release
