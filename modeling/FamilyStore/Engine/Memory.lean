import FamilyStore.Bytes

/-!
The engine's memory: blocks of bytes that are lent to callers.

An address is never used twice. A block that is taken back is not forgotten but poisoned: all its
bytes are overwritten, so that a caller who still reads it sees that it should not.
-/

namespace FamilyStore.Engine

/-- An address of a block. -/
abbrev Address := Nat

/-- The byte that taken-back blocks are filled with. -/
def poisonByte : UInt8 := 0xDD

/-- Blocks, the newest first. The address of a block is the number of blocks older than it. -/
structure Memory where
  blocks : List Bytes

/-- Bytes lent to a caller: the start of a block, and a length. -/
structure Extent where
  address : Address
  length : Nat
  deriving DecidableEq, Repr

namespace Memory

/-- The memory without blocks. -/
def empty : Memory := ⟨[]⟩

/-- The address of the next block. -/
def next (m : Memory) : Address := m.blocks.length

/-- Puts bytes into a new block, whose address is `next`. -/
def alloc (m : Memory) (bs : Bytes) : Memory := ⟨bs :: m.blocks⟩

/-- The place of an address in the list of blocks. -/
def indexOf (m : Memory) (a : Address) : Nat := m.blocks.length - 1 - a

/-- The bytes of a block. -/
def block (m : Memory) (a : Address) : Bytes := m.blocks.getD (m.indexOf a) []

/-- The bytes of an extent. -/
def read (m : Memory) (x : Extent) : Bytes := (m.block x.address).take x.length

/-- Overwrites all bytes of a block. -/
def poison (m : Memory) (a : Address) : Memory :=
  ⟨m.blocks.modify (m.indexOf a) fun bs => List.replicate bs.length poisonByte⟩

theorem next_alloc (m : Memory) (bs : Bytes) : (m.alloc bs).next = m.next + 1 := rfl

theorem next_poison (m : Memory) (a : Address) : (m.poison a).next = m.next := by
  simp [next, poison]

/-- A new block holds what was put into it. -/
theorem block_alloc_self (m : Memory) (bs : Bytes) : (m.alloc bs).block m.next = bs := by
  simp [block, alloc, indexOf, next]

/-- A new block leaves the others as they are. -/
theorem block_alloc_of_lt (m : Memory) (bs : Bytes) {a : Nat} (h : a < m.next) :
    (m.alloc bs).block a = m.block a := by
  have e : m.blocks.length + 1 - 1 - a = (m.blocks.length - 1 - a) + 1 := by
    have : a < m.blocks.length := h
    omega
  simp only [block, alloc, indexOf, List.length_cons]
  rw [e, List.getD_cons_succ]

/-- Poisoning a block leaves the others as they are. -/
theorem block_poison_ne (m : Memory) {a b : Nat} (ha : a < m.next) (hb : b < m.next)
    (h : b ≠ a) : (m.poison a).block b = m.block b := by
  have ha' : a < m.blocks.length := ha
  have hb' : b < m.blocks.length := hb
  have hne : m.blocks.length - 1 - a ≠ m.blocks.length - 1 - b := by omega
  simp only [block, poison, indexOf, List.length_modify, List.getD_eq_getElem?_getD,
    List.getElem?_modify, hne, if_false]
  simp

end Memory

end FamilyStore.Engine
