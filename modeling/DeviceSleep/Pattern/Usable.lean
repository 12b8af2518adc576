import DeviceSleep.Pattern

/-! Which patterns can be used. A pattern is about the characters of Unicode unless it is set to be about
bytes. Of Unicode nothing is known beyond the order of its characters: neither letter case nor which
characters are digits, blanks or letters of words. About bytes, a pattern may only fit texts, so it
cannot name or leave room for a byte above 127. Besides, its parts must not lie too deep. -/
namespace DeviceSleep
set_option autoImplicit false

/-- The flags that decide what can be used. -/
structure PatternMode where
  unicode : Bool
  /-- Letter case does not count. -/
  anyCase : Bool
deriving DecidableEq, Repr

namespace PatternMode

def initial : PatternMode := ⟨true, false⟩

def change (flags : FlagChange) (m : PatternMode) : PatternMode :=
  ⟨(flags.lookup 'u').getD m.unicode, (flags.lookup 'i').getD m.anyCase⟩

/-- A class by its letter; a capital one means all that is not in it. -/
def allowsShorthand (m : PatternMode) (letter : Char) : Bool := !m.unicode && letter.isLower

/-- A character in a set. -/
def allowsMember (m : PatternMode) (g : Glyph) : Bool :=
  if m.unicode then !m.anyCase else g.char.toNat < 0x80

/-- A character by itself. -/
def allowsGlyph (m : PatternMode) (g : Glyph) : Bool :=
  if m.unicode then !m.anyCase else !(g.asByte && 0x80 ≤ g.char.toNat)

/-- All that is not in a set. -/
def allowsNegation (m : PatternMode) (negated : Bool) : Bool := m.unicode || !negated

end PatternMode

namespace SetContent

/-! ## Sets -/

mutual

def usable (m : PatternMode) : SetContent → Bool
  | nothing => true
  | glyph g => m.allowsMember g
  | range first last => m.allowsMember first && m.allowsMember last
  | named negated => m.allowsNegation negated && !(m.unicode && m.anyCase)
  | shorthand letter => m.allowsShorthand letter
  | nested negated content => m.allowsNegation negated && usable m content
  | union contents => usableAll m contents
  | combined left right => usable m left && usable m right

def usableAll (m : PatternMode) : List SetContent → Bool
  | [] => true
  | content :: contents => usable m content && usableAll m contents

end

mutual

/-- How deep brackets, unions and operations lie in one another. -/
def depth : SetContent → Nat
  | nothing => 0
  | glyph _ => 0
  | range _ _ => 0
  | named _ => 0
  | shorthand _ => 0
  | nested _ content => depth content + 1
  | union contents => depthAll contents + 1
  | combined left right => max (depth left) (depth right) + 1

def depthAll : List SetContent → Nat
  | [] => 0
  | content :: contents => max (depth content) (depthAll contents)

end

end SetContent

namespace Pattern

/-! ## Patterns -/

mutual

/-- The flags in force behind a pattern; `none` if it cannot be used under those before it. -/
def after? (m : PatternMode) : Pattern → Option PatternMode
  | nothing => some m
  | flags change => some (m.change change)
  | glyph g => if m.allowsGlyph g then some m else none
  | any => if m.unicode then some m else none
  | place p => if m.unicode && p.aboutWords then none else some m
  | shorthand letter => if m.allowsShorthand letter then some m else none
  | set negated content => if m.allowsNegation negated && content.usable m then some m else none
  | repeated p => after? m p
  | group change p => (after? (m.change change) p).map fun _ => m
  | sequence ps => afterAll? m ps
  | choice ps => afterAll? m ps

def afterAll? (m : PatternMode) : List Pattern → Option PatternMode
  | [] => some m
  | p :: ps => (after? m p).bind fun m => afterAll? m ps

end

mutual

/-- How deep the parts lie in one another. -/
def depth : Pattern → Nat
  | nothing => 0
  | flags _ => 0
  | glyph _ => 0
  | any => 0
  | place _ => 0
  | shorthand _ => 0
  | set _ content => content.depth + 1
  | repeated p => depth p + 1
  | group _ p => depth p + 1
  | sequence ps => depthAll ps + 1
  | choice ps => depthAll ps + 1

def depthAll : List Pattern → Nat
  | [] => 0
  | p :: ps => max (depth p) (depthAll ps)

end

def deepest : Nat := 250

def usable (p : Pattern) : Bool := (after? .initial p).isSome && p.depth ≤ deepest

end Pattern

end DeviceSleep
