import FamilyStore.Text.Charset

/-!
Reading a file of UTF-8 text block by block.

A character may reach over the end of a block; its first bytes are then carried to the next block.
So are the first two bytes of a surrogate, which become a fault only with what follows them. A block
with a fault yields nothing, and the position of the fault counts from the first of the carried
bytes. Carried bytes that are left at the end of the file are a fault of their own.
-/

namespace FamilyStore.Text

/-- The size of a block. -/
def blockSize : Nat := 8192

/-- A byte string in blocks; only the last may be shorter. -/
def blocks (bs : Bytes) : List Bytes :=
  if _h : bs.length ≤ blockSize then (if bs.isEmpty then [] else [bs])
  else bs.take blockSize :: blocks (bs.drop blockSize)
termination_by bs.length
decreasing_by
  have : 0 < blockSize := by decide
  rw [List.length_drop]; omega

/-- Whether a byte string is the first two of the three bytes that a surrogate would take. -/
def isHalfSurrogate : Bytes → Bool
  | [a, b] => a == 0xED && 0xA0 ≤ b && b < 0xC0
  | _ => false

/-- The text of a block with the bytes carried into it: its characters and the bytes to carry on,
or a fault. -/
def readBlock (bs : Bytes) : Except Undecodable (List Char × Bytes) :=
  match Utf8.read bs with
  | (cs, none) => .ok (cs, [])
  | (cs, some flaw) =>
    let rest := bs.drop flaw.start
    if flaw.fault = .unexpectedEnd ∨ isHalfSurrogate rest then .ok (cs, rest)
    else .error (flaw.undecodable bs)

/-- The text of some blocks up to the first fault, and that fault. -/
def readBlocks (carried : Bytes) : List Bytes → List Char × Option Undecodable
  | [] =>
    match Utf8.decode carried with
    | .ok cs => (cs, none)
    | .error flaw => ([], some (flaw.undecodable carried))
  | b :: bs =>
    match readBlock (carried ++ b) with
    | .error e => ([], some e)
    | .ok (cs, rest) =>
      let (tail, fault) := readBlocks rest bs
      (cs ++ tail, fault)

/-- The text of a file up to its first fault, and that fault. -/
def readFile (bs : Bytes) : List Char × Option Undecodable := readBlocks [] (blocks bs)

end FamilyStore.Text
