import DeviceSleep.Text.Numeral

/-! Places in a tree of settings, written as a name followed by further names after points and by
indices in brackets. -/
namespace DeviceSleep
set_option autoImplicit false

/-- One step down from a value. -/
inductive Step where
  | child (name : String)
  /-- From the front, or from the end if negative. -/
  | index (position : Int)
deriving DecidableEq, Repr

/-- A name in the outermost table, and the steps down from its value. -/
structure KeyPath where
  name : String
  steps : List Step
deriving DecidableEq, Repr

namespace KeyPath

/-- It leads to an item of a list. -/
def isItem (path : KeyPath) : Bool :=
  match path.steps.getLast? with
  | some (.index _) => true
  | _ => false

/-! ## Reading -/

/-- Names are made of letters, digits, spaces, underscores and hyphens. -/
def isNameChar (c : Char) : Bool := c.isAlphanum || c == ' ' || c == '_' || c == '-'

/-- The number in brackets, between blanks, and what follows the closing bracket. -/
def bracket? (cs : List Char) : Option (Int × List Char) :=
  let isBlank (c : Char) := c == ' ' || c == '\t'
  let (negative, body) :=
    match cs.dropWhile isBlank with
    | '-' :: rest => (true, rest)
    | rest => (false, rest)
  match (body.dropWhile Char.isDigit).dropWhile isBlank with
  | ']' :: rest => do
    let n ← Text.digits? 10 (body.takeWhile Char.isDigit)
    let position : Int := if negative then -(n : Int) else n
    if Int64.minValue.toInt ≤ position ∧ position ≤ Int64.maxValue.toInt then some (position, rest)
    else none
  | _ => none

/-- The steps behind the first name; `fuel` bounds their number. -/
def steps? : Nat → List Char → Option (List Step)
  | _, [] => some []
  | 0, _ => none
  | fuel + 1, '.' :: rest =>
    let name := rest.takeWhile isNameChar
    if name.isEmpty then none
    else (steps? fuel (rest.dropWhile isNameChar)).map (.child (String.ofList name) :: ·)
  | fuel + 1, '[' :: rest => do
    let (position, rest) ← bracket? rest
    let more ← steps? fuel rest
    return .index position :: more
  | _ + 1, _ => none

/-- Reads a path; a text that is none is a name as a whole. -/
def ofText (s : String) : KeyPath :=
  let cs := s.toList
  let name := cs.takeWhile isNameChar
  match (if name.isEmpty then none else steps? cs.length (cs.dropWhile isNameChar)) with
  | some steps => ⟨String.ofList name, steps⟩
  | none => ⟨s, []⟩

end KeyPath

end DeviceSleep
