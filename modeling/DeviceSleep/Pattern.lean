/-! Patterns that describe texts. Nothing is compared with a pattern here; what counts is whether it can
be used. So a pattern keeps of its text only what that depends on: how its parts lie in one another,
which characters it names, and under which flags. -/
namespace DeviceSleep
set_option autoImplicit false

/-- A character that stands for itself. -/
structure Glyph where
  char : Char
  /-- It is given by two hexadecimal digits, which mean a byte where a pattern is about bytes. -/
  asByte : Bool
deriving DecidableEq, Repr

/-- Where in a text something may stand. -/
inductive Place where
  | lineStart
  | lineEnd
  | textStart
  | textEnd
  | wordEdge
  | noWordEdge
  | wordStart
  | wordEnd
deriving DecidableEq, Repr

namespace Place

/-- The places for which one has to know what a word is. -/
def aboutWords : Place → Bool
  | lineStart | lineEnd | textStart | textEnd => false
  | wordEdge | noWordEdge | wordStart | wordEnd => true

end Place

/-- Flags that are set or taken back, by their letters. -/
abbrev FlagChange := List (Char × Bool)

/-- What stands between the brackets of a set of characters. -/
inductive SetContent where
  | nothing
  | glyph (g : Glyph)
  | range (first last : Glyph)
  /-- A set with a name, or all that is not in it. -/
  | named (negated : Bool)
  /-- Digits, blanks or letters of words; by a capital letter all others. -/
  | shorthand (letter : Char)
  | nested (negated : Bool) (content : SetContent)
  | union (contents : List SetContent)
  /-- What two sets have in common, or what one has and the other has not. -/
  | combined (left right : SetContent)
deriving Repr

inductive Pattern where
  | nothing
  /-- Flags for all that follows in the same group. -/
  | flags (change : FlagChange)
  | glyph (g : Glyph)
  /-- Any character. -/
  | any
  | place (p : Place)
  | shorthand (letter : Char)
  | set (negated : Bool) (content : SetContent)
  | repeated (p : Pattern)
  /-- A pattern with flags of its own. -/
  | group (change : FlagChange) (p : Pattern)
  | sequence (ps : List Pattern)
  | choice (ps : List Pattern)
deriving Repr

end DeviceSleep
