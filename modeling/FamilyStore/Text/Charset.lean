import FamilyStore.Text.Quoted
import FamilyStore.Text.Utf8

/-!
Character sets that a byte string can be read in, and the errors of reading.
-/

namespace FamilyStore.Text

/-- A character set with a fixed reading of byte strings. -/
inductive Charset where
  | latin1
  | ascii
  | utf8
  deriving DecidableEq, Repr

/-- The name of a character set in messages. -/
def Charset.name : Charset → String
  | .latin1 => "latin-1"
  | .ascii => "ascii"
  | .utf8 => "utf-8"

/-- Bytes that a character set cannot read. -/
structure Undecodable where
  charset : Charset
  /-- The position of the first of them. -/
  start : Nat
  /-- The unreadable bytes themselves. -/
  bytes : Bytes
  reason : String
  deriving DecidableEq, Repr

/-- The wording of an unreadable byte or run of bytes. -/
def Undecodable.message (e : Undecodable) : String :=
  let place :=
    match e.bytes with
    | [b] => "byte 0x" ++ String.ofList (hexDigits 2 b.toNat) ++ " in position " ++ toString e.start
    | _ => "bytes in position " ++ toString e.start ++ "-"
        ++ toString (e.start + e.bytes.length - 1)
  "'" ++ e.charset.name ++ "' codec can't decode " ++ place ++ ": " ++ e.reason

/-- The error for the flaw of a byte string. -/
def Utf8.Flaw.undecodable (flaw : Utf8.Flaw) (bs : Bytes) : Undecodable where
  charset := .utf8
  start := flaw.start
  bytes := (bs.drop flaw.start).take flaw.width
  reason := flaw.fault.reason

/-- Reads ASCII from the byte at `position` on. -/
def readAscii (position : Nat) : Bytes → Except Undecodable (List Char)
  | [] => .ok []
  | b :: bs =>
    if b < 128 then (readAscii (position + 1) bs).map (Char.ofNat b.toNat :: ·)
    else .error ⟨.ascii, position, [b], "ordinal not in range(128)"⟩

/-- Reads a byte string in a character set. -/
def Charset.decode : Charset → Bytes → Except Undecodable (List Char)
  | .latin1, bs => .ok (bs.map fun b => Char.ofNat b.toNat)
  | .ascii, bs => readAscii 0 bs
  | .utf8, bs => (Utf8.decode bs).mapError (·.undecodable bs)

end FamilyStore.Text
