import DeviceSleep.Pattern
import DeviceSleep.Text.Blank
import DeviceSleep.Text.Numeral

/-! The smallest parts of a written pattern: gaps that do not count, and what stands behind a
backslash. -/
namespace DeviceSleep.Pattern
set_option autoImplicit false

/-! ## Gaps -/

/-- The rest behind blanks and comments. A comment goes from a number sign to the end of its line. -/
def skipGap (inComment : Bool) : List Char → List Char
  | [] => []
  | c :: cs =>
    if inComment then skipGap (c != '\n') cs
    else if Text.isBlank c then skipGap false cs
    else if c = '#' then skipGap true cs
    else c :: cs

/-- The rest behind a gap, in a pattern that is written loosely. -/
def gap (loose : Bool) (cs : List Char) : List Char := if loose then skipGap false cs else cs

/-- The first character that is no blank; a number sign before it is passed over as well. -/
def peekGap (inComment : Bool) : List Char → Option Char
  | [] => none
  | c :: cs =>
    if Text.isBlank c then peekGap inComment cs
    else if c = '#' && !inComment then peekGap true cs
    else some c

/-- The character that comes next, found without reading on. -/
def peek (loose : Bool) (cs : List Char) : Option Char :=
  if loose then (peekGap false cs).or cs.head? else cs.head?

/-! ## Behind a backslash -/

inductive Escaped where
  | glyph (g : Glyph)
  | place (p : Place)
  | shorthand (letter : Char)
deriving DecidableEq, Repr

/-- A number of hexadecimal digits, which continue a value; gaps may lie between. -/
def hex? (loose : Bool) (value : Nat) : Nat → List Char → Option (Nat × List Char)
  | 0, cs => some (value, gap loose cs)
  | places + 1, cs =>
    match gap loose cs with
    | [] => none
    | c :: rest => (Text.digitIn? 16 c).bind fun d => hex? loose (value * 16 + d) places rest

/-- The letters before hexadecimal digits, with the number of these. -/
def hexLengths : List (Char × Nat) := [('x', 2), ('u', 4), ('U', 8)]

/-- The letters of control characters. -/
def controls : List (Char × Char) :=
  [('a', '\x07'), ('f', '\x0c'), ('t', '\t'), ('n', '\n'), ('r', '\r'), ('v', '\x0b')]

def places : List (Char × Place) :=
  [('A', .textStart), ('z', .textEnd), ('b', .wordEdge), ('B', .noWordEdge), ('<', .wordStart),
   ('>', .wordEnd)]

def shorthands : List Char := ['d', 's', 'w', 'D', 'S', 'W']

/-- The character of a number, if it has one. -/
def scalar? (n : Nat) : Option Char := if n.isValidChar then some (Char.ofNat n) else none

/-- Whether a character stands for itself behind a backslash: signs do, letters and digits do not. -/
def isSign (c : Char) : Bool := c.toNat < 0x80 && !c.isAlphanum

/-- Reads what stands behind a backslash. Properties of characters cannot be asked for, and nothing
refers back to a group. -/
def escape? (loose : Bool) : List Char → Option (Escaped × List Char)
  | [] => none
  | c :: rest =>
    match hexLengths.lookup c with
    | some length => do
      let (n, rest) ← hex? loose 0 length rest
      let char ← scalar? n
      return (.glyph ⟨char, c == 'x'⟩, rest)
    | none =>
      match places.lookup c with
      | some p => some (.place p, rest)
      | none =>
        if shorthands.contains c then some (.shorthand c, rest)
        else ((controls.lookup c).or (if isSign c then some c else none)).map fun char =>
          (.glyph ⟨char, false⟩, rest)

end DeviceSleep.Pattern
