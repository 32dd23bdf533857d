import FamilyStore.Failure.Kind
import FamilyStore.Text.Charset
import FamilyStore.Text.Decimal

/-!
Failures of arguments and results: values of a type, a size or a shape that an operation cannot
take. `found` is always the name of the type that was found.
-/

namespace FamilyStore

/-- What is wrong with an argument or a result. -/
inductive ArgumentFault where
  /-- Something other than a buffer where bytes are needed. -/
  | notBuffer (found : String)
  | nullKey
  /-- A read-only buffer whose bytes do not lie next to each other. -/
  | scatteredReadOnly
  /-- A writable buffer whose bytes do not lie next to each other. -/
  | scatteredWritable
  /-- A change of bytes that cannot change. -/
  | unchangeable (found : String)
  /-- A change of memory through a view that only reads. -/
  | readOnlyMemory
  /-- A change of the first byte where there is none. -/
  | noFirstByte
  /-- A change of the first item of a view that has none. -/
  | noFirstItem
  | notPath (found : String)
  /-- A path with a zero character. -/
  | embeddedZero
  /-- A name for a new handle that stands for a handle already. -/
  | nameInUse (name : String)
  | notInteger (found : String)
  /-- Two types without an order between them. -/
  | unorderable (left right : String)
  /-- Two types that an operator does not join. -/
  | unsupported (operator left right : String)
  | notConvertible (found : String)
  | textWithoutEncoding
  | noLength (found : String)
  | byteOutOfRange
  | negativeCount
  | tooLargeForIndex
  | tooLargeForStatus
  | byteStringTooLarge
  | outOfMemory
  | tooManyDigits
  /-- A counter is eight bytes long. -/
  | counterLength (length : Nat)
  | notDataFuncs (shown : String)
  /-- A class that leaves methods open has no instances. -/
  | abstractClass (name : String) (openMethods : List String)
  | notTruthValue (found : String)
  | noAttribute (found member : String)
  /-- A search in something that holds nothing. -/
  | noMembers (found : String)
  /-- A walk over something that has no items. -/
  | noItems (found : String)
  /-- A step of something that does not go on by itself. -/
  | notIterator (found : String)
  /-- A hold on the bytes of something that has none. -/
  | noBytes (found : String)
  | frozenField (name : String)
  | unexpectedField (owner name : String)
  /-- A constructor given its own receiver once more, by name. -/
  | repeatedReceiver (owner : String)
  /-- A constructor called with too few arguments; `missing` are the names of the others. -/
  | missingArguments (owner : String) (missing : List String)
  /-- A constructor called with too many arguments, itself included. -/
  | surplusArguments (owner allowed : String) (given : Nat)
  /-- A percent sign in an option's text that starts no reference. -/
  | strayPercent (text : String) (position : Nat)
  | undecodable (cause : Text.Undecodable)
  | viewReleased
  | holdReleased
  /-- A view that other objects still hold. -/
  | viewHeld (holders : Nat)
  deriving DecidableEq, Repr

namespace ArgumentFault

/-- The kind of an argument failure. -/
def kind : ArgumentFault → FailureKind
  | scatteredReadOnly | viewHeld _ => .badBuffer
  | embeddedZero | byteOutOfRange | negativeCount | tooManyDigits | counterLength _
  | strayPercent _ _ | viewReleased | holdReleased => .badValue
  | nameInUse _ => .missingKey
  | tooLargeForIndex | tooLargeForStatus | byteStringTooLarge => .overflow
  | outOfMemory => .outOfMemory
  | noAttribute _ _ => .noAttribute
  | frozenField _ => .frozenField
  | undecodable _ => .undecodable
  | noFirstByte | noFirstItem => .badIndex
  | _ => .wrongType

/-- A name between apostrophes. -/
def named (s : String) : String := "'" ++ s ++ "'"

/-- The wording of missing arguments. -/
def missingMessage (owner : String) : List String → String
  | [a] => owner ++ " missing 1 required positional argument: " ++ named a
  | names =>
    owner ++ " missing " ++ toString names.length ++ " required positional arguments: "
      ++ " and ".intercalate (names.map named)

/-- The wording of an argument failure. -/
def message : ArgumentFault → String
  | notBuffer found => "memoryview: a bytes-like object is required, not " ++ named found
  | nullKey => "key must be bytes-like, not None"
  | scatteredReadOnly => "memoryview: underlying buffer is not C-contiguous"
  | scatteredWritable => "underlying buffer is not C contiguous"
  | unchangeable found => named found ++ " object does not support item assignment"
  | readOnlyMemory => "cannot modify read-only memory"
  | noFirstByte => "bytearray index out of range"
  | noFirstItem => "index out of bounds on dimension 1"
  | notPath found => "expected str, bytes or os.PathLike object, not " ++ found
  | embeddedZero => "embedded null byte"
  | nameInUse name => Text.quote ("handle " ++ name ++ " exists")
  | notInteger found => named found ++ " object cannot be interpreted as an integer"
  | unorderable left right =>
    "'>' not supported between instances of " ++ named left ++ " and " ++ named right
  | unsupported operator left right =>
    "unsupported operand type(s) for " ++ operator ++ ": " ++ named left ++ " and " ++ named right
  | notConvertible found => "cannot convert " ++ named found ++ " object to bytes"
  | textWithoutEncoding => "string argument without an encoding"
  | noLength found => "object of type " ++ named found ++ " has no len()"
  | byteOutOfRange => "bytes must be in range(0, 256)"
  | negativeCount => "negative count"
  | tooLargeForIndex => "cannot fit 'int' into an index-sized integer"
  | tooLargeForStatus => "Python int too large to convert to C int"
  | byteStringTooLarge => "byte string is too large"
  | outOfMemory => ""
  | tooManyDigits =>
    "Exceeds the limit (" ++ toString Text.digitLimit ++ " digits) for integer string conversion; "
      ++ "use sys.set_int_max_str_digits() to increase the limit"
  | counterLength length => "uint64 counter must be 8 bytes, got " ++ toString length
  | notDataFuncs shown => "expected a DataFuncs instance or subclass, got " ++ shown
  | abstractClass name openMethods =>
    "Can't instantiate abstract class " ++ name ++ " with abstract method"
      ++ (if openMethods.length = 1 then " " else "s ") ++ ", ".intercalate openMethods
  | notTruthValue found => "__bool__ should return bool, returned " ++ found
  | noAttribute found member =>
    named found ++ " object has no attribute " ++ named member
  | noMembers found => "argument of type " ++ named found ++ " is not iterable"
  | noItems found => named found ++ " object is not iterable"
  | notIterator found => named found ++ " object is not an iterator"
  | noBytes found => "a bytes-like object is required, not " ++ named found
  | frozenField name => "cannot assign to field " ++ Text.quote name
  | unexpectedField owner name => owner ++ " got an unexpected keyword argument " ++ named name
  | repeatedReceiver owner => owner ++ " got multiple values for argument " ++ named "self"
  | missingArguments owner missing => missingMessage owner missing
  | surplusArguments owner allowed given =>
    owner ++ " takes " ++ allowed ++ " positional arguments but " ++ toString given
      ++ " were given"
  | strayPercent text position =>
    "invalid interpolation syntax in " ++ Text.quote text ++ " at position " ++ toString position
  | undecodable cause => cause.message
  | viewReleased => "operation forbidden on released memoryview object"
  | holdReleased => "operation forbidden on released PickleBuffer object"
  | viewHeld holders =>
    "memoryview has " ++ toString holders ++ " exported buffer" ++ (if holders = 1 then "" else "s")

end ArgumentFault

end FamilyStore
