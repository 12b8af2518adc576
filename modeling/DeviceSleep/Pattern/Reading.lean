import DeviceSleep.Pattern.Bracket
import DeviceSleep.Text.Alphanumeric

/-! Reading a written pattern: alternatives between bars, parts one after the other, marks that repeat
the part before them, and groups in parentheses, which may have a name or flags. Nothing is repeated
a given number of times, so an opening brace outside a set is refused. -/
namespace DeviceSleep.Pattern
set_option autoImplicit false

/-! ## What opens a group -/

inductive Opening where
  /-- Flags for the rest of the group around. -/
  | flags (change : FlagChange)
  /-- A group with flags of its own. -/
  | group (change : FlagChange)
  | named (name : List Char)
deriving DecidableEq, Repr

def isName : List Char → Bool
  | [] => false
  | c :: cs =>
    (c == '_' || Text.isAlphabetic c) &&
      cs.all fun c => ['_', '.', '[', ']'].contains c || Text.isAlphanumeric c

/-- The name of a group, and what follows the angle that closes it. -/
def name? (cs : List Char) : Option (Opening × List Char) :=
  let name := cs.takeWhile (· ≠ '>')
  match cs.dropWhile (· ≠ '>') with
  | _ :: rest => if isName name then some (.named name, rest) else none
  | [] => none

def flagLetters : List Char := ['i', 'm', 's', 'U', 'u', 'R', 'x']

/-- Reads flags up to a colon or a parenthesis. Behind a hyphen they are taken back, at least one; no
flag comes twice. `change` holds those that have come. -/
def flags? (change : FlagChange) (back fresh : Bool) : List Char → Option (Opening × List Char)
  | [] => none
  | c :: rest =>
    if c = ':' then if back && fresh then none else some (.group change, rest)
    else if c = ')' then
      if back && fresh || change.isEmpty then none else some (.flags change, rest)
    else if c = '-' then if back then none else flags? change true true rest
    else if flagLetters.contains c && (change.lookup c).isNone then
      flags? (change ++ [(c, !back)]) back false rest
    else none

/-- Reads what stands behind an opening parenthesis. -/
def opening? : List Char → Option (Opening × List Char)
  | '?' :: 'P' :: '<' :: rest => name? rest
  | '?' :: '<' :: rest => name? rest
  | '?' :: rest => flags? [] false false rest
  | rest => some (.group [], rest)

/-! ## Groups -/

/-- A group whose end has not come yet. -/
structure OpenGroup where
  /-- Blanks and comments do not count. -/
  loose : Bool
  /-- The alternatives that are complete, last first. -/
  choices : List Pattern
  /-- The parts of the alternative under way, last first. -/
  parts : List Pattern

namespace OpenGroup

/-- The alternative under way. -/
def current (g : OpenGroup) : Pattern :=
  match g.parts with
  | [] => .nothing
  | [part] => part
  | parts => .sequence parts.reverse

/-- The group as far as it has come. -/
def content (g : OpenGroup) : Pattern :=
  match g.choices with
  | [] => g.current
  | choices => .choice (g.current :: choices).reverse

def add (part : Pattern) (g : OpenGroup) : OpenGroup := { g with parts := part :: g.parts }

/-- Begins another alternative. -/
def turn (g : OpenGroup) : OpenGroup := ⟨g.loose, g.current :: g.choices, []⟩

/-- Changes the flags of what follows. -/
def change (flags : FlagChange) (g : OpenGroup) : OpenGroup :=
  { g.add (.flags flags) with loose := (flags.lookup 'x').getD g.loose }

/-- A group inside with flags of its own. -/
def inner (flags : FlagChange) (g : OpenGroup) : OpenGroup :=
  ⟨(flags.lookup 'x').getD g.loose, [], []⟩

/-- Repeats the last part, which must be there and must be more than flags. -/
def repeatLast? (g : OpenGroup) : Option OpenGroup :=
  match g.parts with
  | [] => none
  | .flags _ :: _ => none
  | part :: parts => some { g with parts := .repeated part :: parts }

end OpenGroup

def ofEscaped : Escaped → Pattern
  | .glyph g => .glyph g
  | .place p => .place p
  | .shorthand letter => .shorthand letter

/-- One part that is no group, set or repetition. -/
def part? (loose : Bool) (c : Char) (rest : List Char) : Option (Pattern × List Char) :=
  if c = '\\' then (escape? loose rest).map fun (e, rest) => (ofEscaped e, rest)
  else if c = '.' then some (.any, rest)
  else if c = '^' then some (.place .lineStart, rest)
  else if c = '$' then some (.place .lineEnd, rest)
  else if c = '\x7b' then none
  else some (.glyph ⟨c, false⟩, rest)

/-- The rest behind a mark that keeps a repetition short. -/
def behindLazy : List Char → List Char
  | '?' :: rest => rest
  | rest => rest

/-- Reads on in a group, inside those that are open around it, each with the flags of the one inside.
No name may come twice; `fuel` bounds the number of steps. -/
def group? :
    Nat → List (List Char) → OpenGroup → List (FlagChange × OpenGroup) → List Char → Option Pattern
  | 0, _, _, _, _ => none
  | fuel + 1, names, g, outer, cs =>
    match gap g.loose cs with
    | [] => if outer.isEmpty then some g.content else none
    | c :: rest =>
      if c = '(' then
        match opening? (gap g.loose rest) with
        | none => none
        | some (.flags change, rest) => group? fuel names (g.change change) outer rest
        | some (.group change, rest) =>
          group? fuel names (g.inner change) ((change, g) :: outer) rest
        | some (.named name, rest) =>
          if names.contains name then none
          else group? fuel (name :: names) (g.inner []) (([], g) :: outer) rest
      else if c = ')' then
        match outer with
        | [] => none
        | (change, around) :: outer =>
          group? fuel names (around.add (.group change g.content)) outer rest
      else if c = '|' then group? fuel names g.turn outer rest
      else if c = '[' then do
        let (s, rest) := openSet g.loose rest
        let (p, rest) ← set? g.loose (rest.length + 1) s [] rest
        group? fuel names (g.add p) outer rest
      else if c = '?' ∨ c = '*' ∨ c = '+' then do
        let g ← g.repeatLast?
        group? fuel names g outer (behindLazy rest)
      else do
        let (p, rest) ← part? g.loose c rest
        group? fuel names (g.add p) outer rest

/-- Reads a pattern. -/
def parse? (cs : List Char) : Option Pattern := group? (cs.length + 1) [] ⟨false, [], []⟩ [] cs

end DeviceSleep.Pattern
