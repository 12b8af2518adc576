import DeviceSleep.Pattern.Escape
import DeviceSleep.Text.Split

/-! Sets of characters in brackets: characters, ranges, sets with names and further brackets, joined or
put against one another by doubled signs. -/
namespace DeviceSleep.Pattern
set_option autoImplicit false

/-- A set whose closing bracket has not come yet. -/
structure OpenSet where
  negated : Bool
  /-- Nothing has come but hyphens, which stand for themselves there. -/
  fresh : Bool
  /-- What stands before the last doubled sign. -/
  left : Option SetContent
  /-- What has come behind it, last first. -/
  items : List SetContent

namespace OpenSet

/-- The set as far as it has come. -/
def content (s : OpenSet) : SetContent :=
  let right :=
    match s.items with
    | [] => .nothing
    | [item] => item
    | items => .union items.reverse
  match s.left with
  | none => right
  | some left => .combined left right

def add (item : SetContent) (s : OpenSet) : OpenSet :=
  { s with fresh := false, items := item :: s.items }

/-- Begins the right side of a doubled sign. -/
def turn (s : OpenSet) : OpenSet := ⟨s.negated, false, some s.content, []⟩

end OpenSet

/-- A set that has just been opened, and what follows; a circumflex negates it. -/
def openSet (loose : Bool) (cs : List Char) : OpenSet × List Char :=
  match gap loose cs with
  | '^' :: rest => (⟨true, true, none, []⟩, rest)
  | rest => (⟨false, true, none, []⟩, rest)

/-! ## Items -/

def setNames : List String :=
  ["alnum", "alpha", "ascii", "blank", "cntrl", "digit", "graph", "lower", "print", "punct", "space",
   "upper", "word", "xdigit"]

/-- A set with a name, between colons and without its opening bracket; a circumflex negates it. -/
def named? (cs : List Char) : Option (SetContent × List Char) :=
  setNames.findSome? fun name =>
    let body := name.toList ++ [':', ']']
    ((Text.after? (':' :: body) cs).map fun rest => (.named false, rest)).or
      ((Text.after? (':' :: '^' :: body) cs).map fun rest => (.named true, rest))

/-- One character of a set, or what a backslash makes of it. -/
def member? (loose : Bool) : List Char → Option (Escaped × List Char)
  | [] => none
  | '\\' :: rest => escape? loose rest
  | c :: rest => some (.glyph ⟨c, false⟩, rest)

/-- A member by itself; a place is no member. -/
def single? : Escaped → Option SetContent
  | .glyph g => some (.glyph g)
  | .shorthand letter => some (.shorthand letter)
  | .place _ => none

/-- Two members as a range, which must not run backwards. -/
def range? : Escaped → Escaped → Option SetContent
  | .glyph first, .glyph last =>
    if first.char ≤ last.char then some (.range first last) else none
  | _, _ => none

/-- A member or a range. A hyphen before a closing bracket or another hyphen makes no range. -/
def item? (loose : Bool) (cs : List Char) : Option (SetContent × List Char) := do
  let (first, rest) ← member? loose cs
  match gap loose rest with
  | '-' :: behind =>
    if peek loose behind = some ']' ∨ peek loose behind = some '-' then
      return (← single? first, '-' :: behind)
    else
      let (last, rest) ← member? loose (gap loose behind)
      return (← range? first last, rest)
  | rest => return (← single? first, rest)

/-! ## Sets -/

/-- The signs that, doubled, put two sets against each other. -/
def setSigns : List Char := ['&', '-', '~']

/-- Reads on in a set, inside those that are open around it; `fuel` bounds the number of steps. -/
def set? (loose : Bool) : Nat → OpenSet → List OpenSet → List Char → Option (Pattern × List Char)
  | 0, _, _, _ => none
  | fuel + 1, s, outer, cs =>
    match gap loose cs with
    | [] => none
    | c :: rest =>
      if s.fresh && (c == '-' || c == ']' && s.items.isEmpty) then
        let s := { s.add (.glyph ⟨c, false⟩) with fresh := c == '-' }
        set? loose fuel s outer rest
      else if c = '[' then
        match named? rest with
        | some (item, rest) => set? loose fuel (s.add item) outer rest
        | none =>
          let (inner, rest) := openSet loose rest
          set? loose fuel inner (s :: outer) rest
      else if c = ']' then
        match outer with
        | [] => some (.set s.negated s.content, rest)
        | around :: outer =>
          set? loose fuel (around.add (.nested s.negated s.content)) outer rest
      else if setSigns.contains c && rest.head? == some c then
        set? loose fuel s.turn outer (rest.drop 1)
      else do
        let (item, rest) ← item? loose (c :: rest)
        set? loose fuel (s.add item) outer rest

end DeviceSleep.Pattern
