import FamilyStore.DataFuncs.Basic
import FamilyStore.Log
import FamilyStore.Slice
import FamilyStore.Text.Utf8

/-!
Data functions as the engine calls them. No failure reaches the engine: a comparison that fails
falls back to bytewise order, a merge that fails reports a status and leaves the accumulator as it
is, and a rendering that fails is empty. An escape is not caught. It leaves a comparison and a merge
with a stray result, and a rendering with nothing written.
-/

namespace FamilyStore

namespace Raised

/-- What is noted of what a callback raised: failures only. -/
def events {σ : Type} (failed : Failure → Event) : Raised σ → List Event
  | failure cause => [failed cause]
  | escape _ => []

/-- The escape among what a callback raises. -/
def escape? {σ : Type} : Raised σ → Option (Escape σ)
  | failure _ => none
  | escape e => some e

/-- The status that the engine receives of a merge that raised something: the one of an invalid
argument, or a stray one. -/
def status : Raised StrayStatus → Status
  | failure _ => Status.invalid
  | escape e => e.stray.1.toInt

/-- The integer that the engine receives of a comparison that raised something: bytewise order, or
a stray one. -/
def code (k₁ k₂ : Bytes) : Raised Int32 → Int32
  | failure _ => Returned.signCode (Bytes.order k₁ k₂)
  | escape e => e.stray

/-- What a rendering that raised something writes: a closing zero byte, or nothing. -/
def written : Raised Unit → Bytes
  | failure _ => [0]
  | escape _ => []

theorem status_ne_success (raised : Raised StrayStatus) : raised.status ≠ Status.success := by
  cases raised with
  | failure cause => exact (show Status.invalid ≠ Status.success by decide)
  | escape e =>
    intro h
    exact e.stray.2 (Int32.toInt_inj.1 h)

theorem fits_status (raised : Raised StrayStatus) : Status.fits raised.status = true := by
  cases raised with
  | failure cause => exact (show Status.fits Status.invalid = true by decide)
  | escape e =>
    have hle := Int32.le_toInt e.stray.1
    have hlt := Int32.toInt_lt e.stray.1
    unfold Status.fits status
    simp only [Bool.and_eq_true, decide_eq_true_eq]
    omega

end Raised

/-- What a comparison comes to. -/
structure CompareOutcome where
  /-- The integer that the engine receives. -/
  result : Int32
  events : List Event
  escaped : Option (Escape Int32)

namespace DataFuncs

/-- How two keys compare, as an integer of the engine, or what the comparison raised. -/
def tryRank (f : DataFuncs) (k₁ k₂ : Bytes) : Attempt Int32 Int32 := do
  let given ← f.compare k₁ k₂
  given.difference

/-- Compares two keys for the engine. -/
def compareKeys (f : DataFuncs) (k₁ k₂ : Bytes) : CompareOutcome :=
  match f.tryRank k₁ k₂ with
  | .ok n => ⟨n, [], none⟩
  | .error raised => ⟨raised.code k₁ k₂, raised.events .comparatorFailed, raised.escape?⟩

/-- How two keys lie to each other for the engine, which looks at the sign only. -/
def rank (f : DataFuncs) (k₁ k₂ : Bytes) : Ordering :=
  Ord.compare (f.compareKeys k₁ k₂).result.toInt 0

/-- What a comparison leaves in the log. -/
def rankEvents (f : DataFuncs) (k₁ k₂ : Bytes) : List Event := (f.compareKeys k₁ k₂).events

end DataFuncs

/-- The memory in which a merge finds its delta and leaves its result. -/
structure Accumulator where
  contents : Bytes
  deriving DecidableEq, Repr

namespace Accumulator

/-- Changes the length: bytes are cut off, or zeros are added. -/
def resize (a : Accumulator) (length : Nat) : Accumulator :=
  let kept := a.contents.take length
  ⟨kept ++ List.replicate (length - kept.length) 0⟩

/-- Overwrites the first bytes. -/
def overwrite (a : Accumulator) (bs : Bytes) : Accumulator :=
  ⟨bs ++ a.contents.drop bs.length⟩

theorem resize_length (a : Accumulator) (n : Nat) : (a.resize n).contents.length = n := by
  simp only [resize, List.length_append, List.length_replicate, List.length_take]
  omega

/-- Overwriting an accumulator of the right length leaves exactly the bytes written. -/
theorem overwrite_resize (a : Accumulator) (bs : Bytes) :
    (a.resize bs.length).overwrite bs = ⟨bs⟩ := by
  have h := a.resize_length bs.length
  simp [overwrite, h]

end Accumulator

/-- What a merge asks the engine for. -/
inductive AccumulatorCall where
  | data
  | length
  | resize
  deriving DecidableEq, Repr

/-- What a merge comes to. -/
structure MergeOutcome where
  status : Status
  accumulator : Accumulator
  events : List Event
  /-- The calls to the engine, in their order. -/
  calls : List AccumulatorCall
  escaped : Option (Escape StrayStatus)

namespace DataFuncs

/-- The calls that read an accumulator. -/
def readCalls : List AccumulatorCall := [.data, .length]

/-- Writes the result of a merge. The engine may refuse to change the length. -/
def writeResult (a : Accumulator) (refuse : Bool) (bs : Bytes) : MergeOutcome :=
  if refuse then
    ⟨Status.outOfMemory, a, [.resizeRefused bs.length], readCalls ++ [.resize], none⟩
  else
    ⟨Status.success, (a.resize bs.length).overwrite bs, [],
      readCalls ++ .resize :: (if bs.isEmpty then [] else [.data]), none⟩

/-- What a merge comes to whose callback gave or raised `result`. -/
def finishMerge (a : Accumulator) (refuse : Bool) (failed : Failure → Event)
    (result : Attempt StrayStatus Returned) : MergeOutcome :=
  match result >>= Returned.toBytes with
  | .ok bs => writeResult a refuse bs
  | .error raised => ⟨raised.status, a, raised.events failed, readCalls, raised.escape?⟩

section

variable {a : Accumulator} {refuse : Bool} {failed : Failure → Event}
  {result : Attempt StrayStatus Returned}

theorem finishMerge_of_error {raised : Raised StrayStatus}
    (h : result >>= Returned.toBytes = .error raised) : finishMerge a refuse failed result =
      ⟨raised.status, a, raised.events failed, readCalls, raised.escape?⟩ := by
  unfold finishMerge
  rw [h]

theorem finishMerge_of_ok {bs : Bytes} (h : result >>= Returned.toBytes = .ok bs) :
    finishMerge a refuse failed result = writeResult a refuse bs := by
  unfold finishMerge
  rw [h]

/-- An accumulator that may change its length has exactly the bytes of the result. -/
theorem writeResult_accumulator (a : Accumulator) (bs : Bytes) :
    (writeResult a false bs).accumulator = ⟨bs⟩ := a.overwrite_resize bs

end

/-- Merges the delta in an accumulator into the value of a key. -/
def mergeInto (f : DataFuncs) (key : Bytes) (old : Option Bytes) (a : Accumulator)
    (refuse : Bool) : MergeOutcome :=
  finishMerge a refuse .mergeFailed (f.merge key old a.contents)

/-- Resolves the delta in an accumulator for a key without a value. -/
def mergeFinalInto (f : DataFuncs) (key : Bytes) (a : Accumulator) (refuse : Bool) :
    MergeOutcome :=
  finishMerge a refuse .finalMergeFailed (f.mergeFinal key a.contents)

end DataFuncs

/-- What is rendered: a key or a message. -/
inductive RenderSlot where
  | key
  | message
  deriving DecidableEq, Repr

/-- The UTF-8 form of a glyph; half of a surrogate pair becomes a question mark. -/
def Glyph.encode : Glyph → Bytes
  | .char c => String.utf8EncodeChar c
  | .unpaired => [63]

/-- What is left of the encoding of a rendering when it is cut to a length. -/
def Rendering.encode (length : Nat) : Rendering → Attempt Unit Bytes
  | .text glyphs => .ok ((glyphs.flatMap Glyph.encode).take length)
  | .other typeName => .error (.failure (.argument (.noAttribute typeName "encode")))
  | .encoder cut => cut length

/-- What a rendering comes to: the bytes it writes, and its events. -/
structure RenderOutcome where
  written : Bytes
  events : List Event
  escaped : Option (Escape Unit)

/-- The contents of a buffer after a rendering has been written to its start. -/
def RenderOutcome.over (o : RenderOutcome) (buffer : Bytes) : Bytes :=
  o.written ++ buffer.drop o.written.length

namespace DataFuncs

/-- Renders bytes as a key or as a message. -/
def rendering (f : DataFuncs) : RenderSlot → Bytes → Attempt Unit Rendering
  | .key => f.keyText
  | .message => f.messageText

/-- The event of a rendering that failed. -/
def renderFailed : RenderSlot → Failure → Event
  | .key => .keyTextFailed
  | .message => .messageTextFailed

/-- Renders bytes for a buffer of a maximum length: as much of the text as fits, and a closing zero
byte. Nothing is written where there is no buffer, or one of length zero. -/
def render (f : DataFuncs) (slot : RenderSlot) (data : Bytes) (hasBuffer : Bool)
    (maxLength : Nat) : RenderOutcome :=
  if !hasBuffer || maxLength = 0 then ⟨[], [], none⟩
  else
    match f.rendering slot data >>= Rendering.encode (maxLength - 1) with
    | .ok bs => ⟨bs ++ [0], [], none⟩
    | .error raised => ⟨raised.written, raised.events (renderFailed slot), raised.escape?⟩

end DataFuncs

end FamilyStore
