import DeviceSleep.Text.Numeral

/-! JSON texts, on one line or indented by two blanks for each level. The members of an object keep
their order. -/
namespace DeviceSleep
set_option autoImplicit false

inductive Json where
  | null
  | bool (value : Bool)
  | num (value : Nat)
  | text (value : String)
  | list (items : List Json)
  | object (members : List (String × Json))
deriving Repr

namespace Json

/-! ## Texts -/

/-- The short escapes. -/
def escapes : List (Char × Char) :=
  [('"', '"'), ('\\', '\\'), ('\x08', 'b'), ('\x0C', 'f'), ('\n', 'n'), ('\r', 'r'), ('\t', 't')]

/-- A character inside quotes: quotes, backslashes and control characters are escaped. -/
def writeChar (c : Char) : List Char :=
  match escapes.lookup c with
  | some e => ['\\', e]
  | none =>
    if c < ' ' then
      ['\\', 'u', '0', '0', Text.hexDigit (c.toNat / 16), Text.hexDigit (c.toNat % 16)]
    else [c]

def writeText (s : String) : List Char := '"' :: s.toList.flatMap writeChar ++ ['"']

/-! ## Values -/

def writeNull : List Char := "null".toList

def writeBool (b : Bool) : List Char := (if b then "true" else "false").toList

def writeNat (n : Nat) : List Char := Nat.toDigits 10 n

/-- The start of a line at a level. -/
def newLine (level : Nat) : List Char := '\n' :: List.replicate (2 * level) ' '

mutual

/-- On one line, without blanks. -/
def compact : Json → List Char
  | .null => writeNull
  | .bool b => writeBool b
  | .num n => writeNat n
  | .text s => writeText s
  | .list items => '[' :: compactItems items ++ [']']
  | .object members => '\x7b' :: compactMembers members ++ ['\x7d']

def compactItems : List Json → List Char
  | [] => []
  | [item] => compact item
  | item :: next :: rest => compact item ++ ',' :: compactItems (next :: rest)

def compactMembers : List (String × Json) → List Char
  | [] => []
  | [(name, value)] => writeText name ++ ':' :: compact value
  | (name, value) :: next :: rest =>
    writeText name ++ ':' :: compact value ++ ',' :: compactMembers (next :: rest)

end

mutual

/-- A line for each item and member; empty lists and objects stay on one line. -/
def pretty (level : Nat) : Json → List Char
  | .null => writeNull
  | .bool b => writeBool b
  | .num n => writeNat n
  | .text s => writeText s
  | .list [] => ['[', ']']
  | .list items => '[' :: prettyItems (level + 1) items ++ newLine level ++ [']']
  | .object [] => ['\x7b', '\x7d']
  | .object members => '\x7b' :: prettyMembers (level + 1) members ++ newLine level ++ ['\x7d']

def prettyItems (level : Nat) : List Json → List Char
  | [] => []
  | [item] => newLine level ++ pretty level item
  | item :: next :: rest =>
    newLine level ++ pretty level item ++ ',' :: prettyItems level (next :: rest)

def prettyMembers (level : Nat) : List (String × Json) → List Char
  | [] => []
  | [(name, value)] => newLine level ++ writeText name ++ ':' :: ' ' :: pretty level value
  | (name, value) :: next :: rest =>
    newLine level ++ writeText name ++ ':' :: ' ' :: pretty level value ++
      ',' :: prettyMembers level (next :: rest)

end

end Json

end DeviceSleep
