import FamilyStore.Bytes

/-!
UTF-8. Writing is the standard's; reading names the first fault of a byte string that is no UTF-8:
where it starts, how many bytes it takes, and what is wrong with them.
-/

namespace FamilyStore.Text.Utf8

/-- The UTF-8 form of a text. -/
def encode (s : List Char) : Bytes := s.flatMap String.utf8EncodeChar

/-- What can be wrong with a byte string. -/
inductive Fault where
  /-- A byte that no character starts with. -/
  | invalidStart
  /-- A byte that does not continue the character before it. -/
  | invalidContinuation
  /-- The byte string ends inside a character. -/
  | unexpectedEnd
  deriving DecidableEq, Repr

/-- The wording of a fault. -/
def Fault.reason : Fault → String
  | .invalidStart => "invalid start byte"
  | .invalidContinuation => "invalid continuation byte"
  | .unexpectedEnd => "unexpected end of data"

/-- What a byte string that is not empty starts with. -/
inductive Lead where
  /-- A character of so many bytes. -/
  | char (c : Char) (width : Nat)
  /-- A fault of so many bytes. -/
  | fault (f : Fault) (width : Nat)

/-- Whether `b` continues a character. -/
def isContinuation (b : UInt8) : Bool := 128 ≤ b && b < 192

/-- The six bits that a continuation byte carries. -/
def payload (b : UInt8) : Nat := b.toNat % 64

/-- The bytes that may follow the first byte `a` of a character: those that give neither an
overlong form nor a surrogate nor a code point beyond the last one. -/
def mayFollow (a b : UInt8) : Bool :=
  if a = 0xE0 then 0xA0 ≤ b && b < 0xC0
  else if a = 0xED then 0x80 ≤ b && b < 0xA0
  else if a = 0xF0 then 0x90 ≤ b && b < 0xC0
  else if a = 0xF4 then 0x80 ≤ b && b < 0x90
  else isContinuation b

/-- The rest of a character of two bytes. -/
def leadTwo (a : UInt8) : Bytes → Lead
  | [] => .fault .unexpectedEnd 1
  | b :: _ =>
    if isContinuation b then .char (Char.ofNat (a.toNat % 32 * 64 + payload b)) 2
    else .fault .invalidContinuation 1

/-- The rest of a character of three bytes. -/
def leadThree (a : UInt8) : Bytes → Lead
  | [] => .fault .unexpectedEnd 1
  | [b] => if mayFollow a b then .fault .unexpectedEnd 2 else .fault .invalidContinuation 1
  | b :: c :: _ =>
    if !mayFollow a b then .fault .invalidContinuation 1
    else if !isContinuation c then .fault .invalidContinuation 2
    else .char (Char.ofNat (a.toNat % 16 * 4096 + payload b * 64 + payload c)) 3

/-- The rest of a character of four bytes. -/
def leadFour (a : UInt8) : Bytes → Lead
  | [] => .fault .unexpectedEnd 1
  | [b] => if mayFollow a b then .fault .unexpectedEnd 2 else .fault .invalidContinuation 1
  | [b, c] =>
    if !mayFollow a b then .fault .invalidContinuation 1
    else if !isContinuation c then .fault .invalidContinuation 2
    else .fault .unexpectedEnd 3
  | b :: c :: d :: _ =>
    if !mayFollow a b then .fault .invalidContinuation 1
    else if !isContinuation c then .fault .invalidContinuation 2
    else if !isContinuation d then .fault .invalidContinuation 3
    else .char
      (Char.ofNat (a.toNat % 8 * 262144 + payload b * 4096 + payload c * 64 + payload d)) 4

/-- What the byte string with first byte `a` and rest `bs` starts with. -/
def lead (a : UInt8) (bs : Bytes) : Lead :=
  if a < 0x80 then .char (Char.ofNat a.toNat) 1
  else if a < 0xC2 then .fault .invalidStart 1
  else if a < 0xE0 then leadTwo a bs
  else if a < 0xF0 then leadThree a bs
  else if a < 0xF5 then leadFour a bs
  else .fault .invalidStart 1

/-- The first fault of a byte string: its place, its width, and its kind. -/
structure Flaw where
  start : Nat
  width : Nat
  fault : Fault
  deriving DecidableEq, Repr

/-- Reads a byte string up to its end or its first flaw. `position` counts the bytes already seen,
and the next `skip` bytes belong to a character that has been read. -/
def readFrom (position skip : Nat) : Bytes → List Char × Option Flaw
  | [] => ([], none)
  | b :: bs =>
    match skip with
    | k + 1 => readFrom (position + 1) k bs
    | 0 =>
      match lead b bs with
      | .char c width =>
        let (cs, flaw) := readFrom (position + 1) (width - 1) bs
        (c :: cs, flaw)
      | .fault f width => ([], some ⟨position, width, f⟩)

/-- The characters before the first flaw of a byte string, and that flaw. -/
def read (bs : Bytes) : List Char × Option Flaw := readFrom 0 0 bs

/-- The text that a byte string is the UTF-8 form of, or its first flaw. -/
def decode (bs : Bytes) : Except Flaw (List Char) :=
  match read bs with
  | (cs, none) => .ok cs
  | (_, some flaw) => .error flaw

theorem encode_nil : encode [] = [] := rfl

theorem encode_cons (c : Char) (s : List Char) :
    encode (c :: s) = String.utf8EncodeChar c ++ encode s := rfl

theorem encode_append (s t : List Char) : encode (s ++ t) = encode s ++ encode t := by
  simp [encode]

end FamilyStore.Text.Utf8
