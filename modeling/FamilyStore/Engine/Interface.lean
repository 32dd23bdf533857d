import FamilyStore.Engine.EntryPoint

/-!
The binary interface of the engine: the types of its entry points, the layout of the records that
pass through them, and its constants. Words and addresses have eight bytes.
-/

namespace FamilyStore.Engine

/-- A record of the interface. -/
inductive RecordType where
  | slice
  | databaseConfig
  | family
  | lookupResult
  | dataConfig
  deriving DecidableEq, Repr

/-- The name of a record in the interface. -/
def RecordType.name : RecordType → String
  | .slice => "_CSlice"
  | .databaseConfig => "_CSplinterDBConfig"
  | .family => "_CColumnFamily"
  | .lookupResult => "_CLookupResult"
  | .dataConfig => "_CDataConfig"

/-- A type of the interface. -/
inductive NativeType where
  | void
  | bool
  | signed32
  | unsigned32
  | unsigned64
  /-- The address of a text that ends with a zero byte. -/
  | text
  /-- The address of anything. -/
  | address
  /-- A field of so many bytes. -/
  | bytes (length : Nat)
  /-- The address of a function. -/
  | callback
  | record (r : RecordType)
  | pointer (t : NativeType)
  deriving DecidableEq, Repr

namespace NativeType

/-- The name of a type. -/
def name : NativeType → String
  | void => "void"
  | bool => "bool"
  | signed32 => "i32"
  | unsigned32 => "u32"
  | unsigned64 => "u64"
  | text => "char*"
  | address => "void*"
  | bytes length => "char[" ++ toString length ++ "]"
  | callback => "function"
  | record r => r.name
  | pointer t => t.name ++ "*"

/-- The size of a field of a type that is no record. -/
def size : NativeType → Nat
  | void => 0
  | bool => 1
  | signed32 | unsigned32 => 4
  | bytes length => length
  | _ => 8

/-- Fields of a type start at multiples of this. -/
def alignment : NativeType → Nat
  | bytes _ => 1
  | t => max 1 t.size

end NativeType

/-- The type of a function: what it gives back and what it takes. -/
structure Signature where
  result : NativeType
  arguments : List NativeType
  deriving DecidableEq, Repr

/-- The largest key that the engine takes. -/
def maxKeySize : Nat := 24

/-- The largest message that the engine takes. -/
def maxMessageSize : Nat := 128

/-- The length of the field for the name of a family. -/
def maxTypeName : Nat := 64

/-- The size of the memory for the result of a lookup: six addresses. -/
def lookupBufferSize : Nat := 6 * NativeType.address.size

/-- The constants of the interface. -/
def constants : List (String × Int) := [
  ("MAX_KEY_SIZE", maxKeySize),
  ("MAX_MESSAGE_SIZE", maxMessageSize),
  ("MAX_TYPE_NAME", maxTypeName),
  ("LOOKUP_RESULT_BUFSIZE", lookupBufferSize),
  ("SDB_SUCCESS", 0)]

/-- The fields of a record, in their order. -/
def RecordType.fields : RecordType → List (String × NativeType)
  | slice => [("length", .unsigned64), ("data", .address)]
  | databaseConfig => [("filename", .text), ("cache_size", .unsigned64),
      ("disk_size", .unsigned64), ("data_cfg", .address), ("heap_handle", .address),
      ("heap_id", .address)]
  | family => [("id", .unsigned32), ("kvs", .address)]
  | lookupResult => [("opaque", .bytes lookupBufferSize)]
  | dataConfig => [("max_key_size", .unsigned64), ("type_name", .bytes maxTypeName),
      ("key_compare", .callback), ("merge_tuples", .callback), ("merge_tuples_final", .callback),
      ("key_to_string", .callback), ("message_to_string", .callback), ("context", .address)]

/-- A number rounded up to a multiple. -/
def alignUp (n alignment : Nat) : Nat := (n + alignment - 1) / alignment * alignment

/-- A field with its place in a record. -/
structure PlacedField where
  name : String
  type : NativeType
  offset : Nat
  deriving DecidableEq, Repr

/-- Places fields one after the other from an offset on, each at a multiple of its alignment. -/
def placeFields (offset : Nat) : List (String × NativeType) → List PlacedField
  | [] => []
  | (name, type) :: rest =>
    let start := alignUp offset type.alignment
    ⟨name, type, start⟩ :: placeFields (start + type.size) rest

/-- The layout of a record. -/
def RecordType.layout (r : RecordType) : List PlacedField := placeFields 0 r.fields

/-- The size of a record: the end of its last field, rounded up to the largest alignment. -/
def RecordType.size (r : RecordType) : Nat :=
  let stop := r.layout.foldl (fun n f => max n (f.offset + f.type.size)) 0
  alignUp stop (r.fields.foldl (fun n f => max n f.2.alignment) 1)

/-- All records. -/
def RecordType.all : List RecordType := [slice, databaseConfig, family, lookupResult, dataConfig]

/-- The callbacks of the interface. The first argument is always the family's context. -/
def callbacks : List (String × Signature) := [
  ("KEY_COMPARE_FUNC", ⟨.signed32, [.address, .address, .unsigned64, .address, .unsigned64]⟩),
  ("MERGE_TUPLES_FUNC",
    ⟨.signed32, [.address, .address, .unsigned64, .address, .unsigned64, .address]⟩),
  ("MERGE_TUPLES_FINAL_FUNC", ⟨.signed32, [.address, .address, .unsigned64, .address]⟩),
  ("TO_STRING_FUNC", ⟨.void, [.address, .address, .unsigned64, .address, .unsigned64]⟩)]

/-- What a name of the interface stands for. -/
inductive Declaration where
  | constant (value : Int)
  | record (r : RecordType)
  | callback (s : Signature)

/-- The declaration of a name. -/
def declaration? (name : String) : Option Declaration :=
  match constants.lookup name with
  | some value => some (.constant value)
  | none =>
    match RecordType.all.find? fun r => r.name == name with
    | some r => some (.record r)
    | none => (callbacks.lookup name).map .callback

/-- The type of an entry point. -/
def EntryPoint.signature : EntryPoint → Signature
  | create | openExisting =>
    ⟨.signed32, [.pointer (.record .databaseConfig), .pointer .address]⟩
  | close => ⟨.void, [.pointer .address]⟩
  | registerThread | deregisterThread => ⟨.void, [.address]⟩
  | configInit => ⟨.void, [.unsigned64, .pointer .address]⟩
  | configDeinit => ⟨.void, [.address]⟩
  | familyCreate =>
    ⟨.record .family, [.address, .unsigned64, .pointer (.record .dataConfig)]⟩
  | familyDelete => ⟨.void, [.record .family]⟩
  | insert | update => ⟨.signed32, [.record .family, .record .slice, .record .slice]⟩
  | delete => ⟨.signed32, [.record .family, .record .slice]⟩
  | lookupInit =>
    ⟨.void, [.record .family, .pointer (.record .lookupResult), .unsigned64, .text]⟩
  | lookup => ⟨.signed32, [.record .family, .record .slice, .pointer (.record .lookupResult)]⟩
  | lookupFound => ⟨.bool, [.pointer (.record .lookupResult)]⟩
  | lookupValue =>
    ⟨.signed32, [.pointer (.record .lookupResult), .pointer (.record .slice)]⟩
  | lookupDeinit => ⟨.void, [.pointer (.record .lookupResult)]⟩
  | iteratorInit => ⟨.signed32, [.record .family, .pointer .address, .record .slice]⟩
  | iteratorValid => ⟨.bool, [.address]⟩
  | iteratorNext => ⟨.void, [.address]⟩
  | iteratorGetCurrent =>
    ⟨.void, [.address, .pointer (.record .slice), .pointer (.record .slice)]⟩
  | iteratorStatus => ⟨.signed32, [.address]⟩
  | iteratorDeinit => ⟨.void, [.address]⟩
  | accumulatorData => ⟨.address, [.address]⟩
  | accumulatorLength => ⟨.unsigned64, [.address]⟩
  | accumulatorResize => ⟨.bool, [.address, .unsigned64]⟩

end FamilyStore.Engine
