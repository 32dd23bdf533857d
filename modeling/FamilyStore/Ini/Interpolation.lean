import FamilyStore.Ini.Document
import FamilyStore.Ini.Fault
import FamilyStore.Text.Lowercase

/-!
References between options. In a value, `%(name)s` stands for the value of the option `name` and
`%%` for a percent sign; no other percent sign is allowed. References may nest to a fixed depth.
-/

namespace FamilyStore.Ini

/-- A piece of a raw value. A faulty piece is always the last one and holds the rest of the
value. -/
inductive Piece where
  | char (c : Char)
  | reference (name : Line)
  | stray (rest : Line)
  | unclosed (rest : Line)
  deriving DecidableEq, Repr

/-- The text up to a closing bracket with an `s` behind it, and the text behind that. -/
def closeBracket? : (s : Line) → Option (Line × { rest : Line // rest.length < s.length })
  | [] => none
  | c :: cs =>
    if c = ')' then
      match cs with
      | 's' :: rest => some ([], ⟨rest, by simp only [List.length_cons]; omega⟩)
      | _ => none
    else
      (closeBracket? cs).map fun p =>
        (c :: p.1, ⟨p.2.1, by have := p.2.2; simp only [List.length_cons]; omega⟩)

/-- Splits a reference after its opening bracket: its name, which is not empty, and what follows. -/
def closeReference? (s : Line) : Option (Line × { rest : Line // rest.length < s.length }) :=
  (closeBracket? s).filter fun p => !p.1.isEmpty

/-- The pieces of a raw value. -/
def pieces (s : Line) : List Piece :=
  match s with
  | [] => []
  | '%' :: '%' :: rest => .char '%' :: pieces rest
  | '%' :: '(' :: rest =>
    match closeReference? rest with
    | some (name, ⟨after, _⟩) => .reference (Text.lowercase name) :: pieces after
    | none => [.unclosed ('%' :: '(' :: rest)]
  | c :: rest => if c = '%' then [.stray (c :: rest)] else .char c :: pieces rest
termination_by s.length
decreasing_by
  all_goals simp only [List.length_cons]; omega

/-- Where a value stands: the option and section that messages name, and all raw values. -/
structure Place where
  heading : Line
  option : Line
  raw : Line
  options : RawOptions

/-- The value of one piece, where `expand` is the value of the text of another option. -/
def Piece.value (at_ : Place) (expand : Line → Except Fault Line) : Piece → Except Fault Line
  | .char c => .ok [c]
  | .stray rest => .error (.strayPercent (String.ofList rest))
  | .unclosed rest => .error (.badReference (String.ofList rest))
  | .reference name =>
    match at_.options.get? name with
    | none => .error (.missingReference (String.ofList at_.option) (String.ofList at_.heading)
        (String.ofList name) (String.ofList at_.raw))
    | some text => if text.contains '%' then expand text else .ok text

/-- The values of some pieces, one after the other. -/
def valueOfPieces (value : Piece → Except Fault Line) : List Piece → Except Fault Line
  | [] => .ok []
  | p :: ps =>
    match value p with
    | .error e => .error e
    | .ok s =>
      match valueOfPieces value ps with
      | .error e => .error e
      | .ok t => .ok (s ++ t)

/-- The value of a raw text in which references may nest `depth` deep. -/
def expand (at_ : Place) : Nat → Line → Except Fault Line
  | 0, _ => .error (.deepReference (String.ofList at_.option) (String.ofList at_.heading)
      (String.ofList at_.raw))
  | depth + 1, s => valueOfPieces (Piece.value at_ (expand at_ depth)) (pieces s)

/-- The value of an option of a section. -/
def valueOf (heading : Line) (options : RawOptions) (option raw : Line) : Except Fault Line :=
  expand ⟨heading, option, raw, options⟩ Fault.depthLimit raw

/-- The values of some options, the first fault ending the work. -/
def valuesOf (heading : Line) (options : RawOptions) :
    List (Line × Line) → Except Fault (List (Line × Line))
  | [] => .ok []
  | (name, raw) :: rest =>
    match valueOf heading options name raw with
    | .error e => .error e
    | .ok value =>
      match valuesOf heading options rest with
      | .error e => .error e
      | .ok values => .ok ((name, value) :: values)

/-- The options that hold in a section, with all references resolved. -/
def Document.values (d : Document) (heading : Line) : Except Fault (List (Line × Line)) :=
  valuesOf heading (d.effective heading) (d.effective heading).entries

/-- Removes the pairs of percent signs. -/
def dropPercentPairs : Line → Line
  | [] => []
  | '%' :: '%' :: rest => dropPercentPairs rest
  | c :: rest => c :: dropPercentPairs rest

/-- Removes the references that are well formed. -/
def dropReferences (s : Line) : Line :=
  match s with
  | [] => []
  | '%' :: '(' :: rest =>
    match closeReference? rest with
    | some (_, ⟨after, _⟩) => dropReferences after
    | none => '%' :: dropReferences ('(' :: rest)
  | c :: rest => c :: dropReferences rest
termination_by s.length
decreasing_by
  all_goals simp only [List.length_cons]; omega

/-- The position of a percent sign that keeps a value from being stored, if there is one. -/
def strayPercent? (s : Line) : Option Nat :=
  let bare := dropReferences (dropPercentPairs s)
  if bare.contains '%' then some (bare.takeWhile (· ≠ '%')).length else none

end FamilyStore.Ini
