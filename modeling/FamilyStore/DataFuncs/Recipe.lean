import FamilyStore.DataFuncs.Builtin
import FamilyStore.Text.Charset

/-!
Recipes: data functions of a caller, described by rules. A recipe starts from a built-in and
replaces some of its functions.
-/

namespace FamilyStore

/-- A rule for comparing keys. -/
inductive CompareRule where
  /-- By length, then bytewise. -/
  | lengthFirst
  /-- Bytewise, with ASCII capitals as small letters. -/
  | caseless
  /-- The built-in order times a value. -/
  | times (v : Value)
  | raises (kind : FailureKind) (text : String)
  | escapes (e : Escape Int32)
  /-- Fails for keys that contain a block of bytes, else as the built-in does. -/
  | poisonedBy (block : Bytes)
  | always (v : Value)

/-- A rule for merging a delta into a stored value. -/
inductive MergeRule where
  /-- The old value with the delta behind it; there must be an old value. -/
  | append
  /-- The old value, or nothing, with the delta behind it. -/
  | appendToAny
  /-- Key, old value and delta with bars between them. -/
  | trace
  /-- The larger of old value and delta. -/
  | larger
  /-- The delta from its last byte to its first. -/
  | reversed
  | raises (kind : FailureKind) (text : String)
  | escapes (e : Escape StrayStatus)
  | always (v : Value)

/-- A rule for resolving a delta without a stored value. -/
inductive FinalRule where
  /-- The delta with some bytes in front of it. -/
  | behind (head : Bytes)
  | raises (kind : FailureKind) (text : String)
  | escapes (e : Escape StrayStatus)
  | always (v : Value)

/-- A rule for rendering a key or a message. -/
inductive TextRule where
  /-- The text in a character set, between angle brackets. -/
  | decoded (charset : Text.Charset)
  /-- A text with half of a surrogate pair between two letters. -/
  | surrogate
  | raises (kind : FailureKind) (text : String)
  | escapes (e : Escape Unit)
  | always (v : Value)

/-- Data functions described by rules. -/
structure Recipe where
  className : String
  base : DataFuncs.Builtin
  /-- The name that replaces the one of the built-in, if any; it may be that there is none. -/
  name : Option (Option String)
  compare : Option CompareRule
  merge : Option MergeRule
  mergeFinal : Option FinalRule
  keyText : Option TextRule
  messageText : Option TextRule

namespace CompareRule

/-- Compares two keys by a rule. -/
def apply (rule : CompareRule) (base : DataFuncs.Builtin) (k₁ k₂ : Bytes) :
    Attempt Int32 Returned :=
  match rule with
  | lengthFirst =>
    .ok (DataFuncs.rankValue ((compare k₁.length k₂.length).then (Bytes.order k₁ k₂)))
  | caseless => .ok (DataFuncs.rankValue (Bytes.order k₁.asciiLower k₂.asciiLower))
  | times v => Attempt.ofExcept ((v.timesSign (base.rank k₁ k₂)).map Returned.value)
  | raises kind text => .error (.failure (.raised kind text))
  | escapes e => .error (.escape e)
  | poisonedBy block =>
    if Bytes.containsBlock block k₁ || Bytes.containsBlock block k₂ then
      .error (.failure (.raised .runtime "poisoned key"))
    else .ok (DataFuncs.rankValue (base.rank k₁ k₂))
  | always v => .ok (.value v)

end CompareRule

namespace MergeRule

/-- The byte that stands for an absent value in a trace. -/
def absentMark : Bytes := [126]

/-- Merges a delta by a rule. -/
def apply (rule : MergeRule) (key : Bytes) (old : Option Bytes) (delta : Bytes) :
    Attempt StrayStatus Returned :=
  match rule with
  | append =>
    match old with
    | none => .error (.failure (.argument (.unsupported "+" "NoneType" "bytes")))
    | some value => .ok (.bytes (value ++ delta))
  | appendToAny => .ok (.bytes (old.getD [] ++ delta))
  | trace => .ok (.bytes (key ++ [124] ++ old.getD absentMark ++ [124] ++ delta))
  | larger =>
    match old with
    | none => .ok (.bytes delta)
    | some value => .ok (.bytes (if Bytes.order value delta = .lt then delta else value))
  | reversed => .ok (.value (.buffer (.mutable delta.reverse)))
  | raises kind text => .error (.failure (.raised kind text))
  | escapes e => .error (.escape e)
  | always v => .ok (.value v)

end MergeRule

/-- Resolves a delta by a rule. -/
def FinalRule.apply (rule : FinalRule) (delta : Bytes) : Attempt StrayStatus Returned :=
  match rule with
  | behind head => .ok (.bytes (head ++ delta))
  | raises kind text => .error (.failure (.raised kind text))
  | escapes e => .error (.escape e)
  | always v => .ok (.value v)

/-- A value as a rendering. -/
def Rendering.ofValue : Value → Rendering
  | .str s => .ofString s
  | v => .other v.typeName

/-- Renders bytes by a rule. -/
def TextRule.apply (rule : TextRule) (data : Bytes) : Attempt Unit Rendering :=
  match rule with
  | decoded charset =>
    match charset.decode data with
    | .ok cs => .ok (.text ((('<' :: cs) ++ ['>']).map Glyph.char))
    | .error cause => .error (.failure (.argument (.undecodable cause)))
  | surrogate => .ok (.text [.char 'a', .unpaired, .char 'b'])
  | raises kind text => .error (.failure (.raised kind text))
  | escapes e => .error (.escape e)
  | always v => .ok (.ofValue v)

/-- The data functions that a recipe describes. Resolving a delta without a stored value merges it
with no old value, unless the recipe has a rule for that. -/
def Recipe.funcs (r : Recipe) : DataFuncs :=
  let base := r.base.funcs
  let merge : Bytes → Option Bytes → Bytes → Attempt StrayStatus Returned :=
    match r.merge with
    | some rule => rule.apply
    | none => base.merge
  { className := r.className
    name := r.name.getD base.name
    compare :=
      match r.compare with
      | some rule => rule.apply r.base
      | none => base.compare
    merge := merge
    mergeFinal :=
      match r.mergeFinal with
      | some rule => fun _ delta => rule.apply delta
      | none => fun key delta => merge key none delta
    keyText :=
      match r.keyText with
      | some rule => rule.apply
      | none => base.keyText
    messageText :=
      match r.messageText with
      | some rule => rule.apply
      | none => base.messageText }

end FamilyStore
