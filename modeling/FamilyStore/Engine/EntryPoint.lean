/-!
The entry points of the engine.
-/

namespace FamilyStore.Engine

/-- A function of the engine. -/
inductive EntryPoint where
  | create
  | openExisting
  | close
  | registerThread
  | deregisterThread
  | configInit
  | configDeinit
  | familyCreate
  | familyDelete
  | insert
  | update
  | delete
  | lookupInit
  | lookup
  | lookupFound
  | lookupValue
  | lookupDeinit
  | iteratorInit
  | iteratorValid
  | iteratorNext
  | iteratorGetCurrent
  | iteratorStatus
  | iteratorDeinit
  | accumulatorData
  | accumulatorLength
  | accumulatorResize
  deriving DecidableEq, Repr

namespace EntryPoint

/-- All entry points. -/
def all : List EntryPoint := [create, openExisting, close, registerThread, deregisterThread,
  configInit, configDeinit, familyCreate, familyDelete, insert, update, delete, lookupInit, lookup,
  lookupFound, lookupValue, lookupDeinit, iteratorInit, iteratorValid, iteratorNext,
  iteratorGetCurrent, iteratorStatus, iteratorDeinit, accumulatorData, accumulatorLength,
  accumulatorResize]

/-- The name under which the engine's library has an entry point. -/
def name : EntryPoint → String
  | create => "splinterdb_create"
  | openExisting => "splinterdb_open"
  | close => "splinterdb_close"
  | registerThread => "splinterdb_register_thread"
  | deregisterThread => "splinterdb_deregister_thread"
  | configInit => "column_family_config_init"
  | configDeinit => "column_family_config_deinit"
  | familyCreate => "column_family_create"
  | familyDelete => "column_family_delete"
  | insert => "splinterdb_cf_insert"
  | update => "splinterdb_cf_update"
  | delete => "splinterdb_cf_delete"
  | lookupInit => "splinterdb_cf_lookup_result_init"
  | lookup => "splinterdb_cf_lookup"
  | lookupFound => "splinterdb_cf_lookup_found"
  | lookupValue => "splinterdb_cf_lookup_result_value"
  | lookupDeinit => "splinterdb_cf_lookup_result_deinit"
  | iteratorInit => "splinterdb_cf_iterator_init"
  | iteratorValid => "splinterdb_cf_iterator_valid"
  | iteratorNext => "splinterdb_cf_iterator_next"
  | iteratorGetCurrent => "splinterdb_cf_iterator_get_current"
  | iteratorStatus => "splinterdb_cf_iterator_status"
  | iteratorDeinit => "splinterdb_cf_iterator_deinit"
  | accumulatorData => "merge_accumulator_data"
  | accumulatorLength => "merge_accumulator_length"
  | accumulatorResize => "merge_accumulator_resize"

/-- The entry point with a given name. -/
def ofName? (name : String) : Option EntryPoint := all.find? fun e => e.name == name

end EntryPoint

end FamilyStore.Engine
