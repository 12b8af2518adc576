import DeviceSleep.Text.CaseTable

/-! Lowercasing of whole texts. One character has two lowercase letters, and a capital sigma has one
form inside a word and another at its end; every other character is mapped by itself. -/
namespace DeviceSleep.Text
set_option autoImplicit false

/-- The lowercase letters of one character, wherever it stands. -/
def lowerChar (c : Char) : List Char :=
  if c = 'İ' then ['i', '\u0307'] else [Char.ofNat (CaseTable.lower c.toNat)]

/-- Whether a word goes on: past the characters that do not interrupt it comes a cased letter. -/
def wordContinues : List Char → Bool
  | [] => false
  | c :: cs => if CaseTable.isIgnorable c then wordContinues cs else CaseTable.isCased c

/-- Lowercases a text; `afterCased` tells whether a word is under way before it. -/
def lowerFrom (afterCased : Bool) : List Char → List Char
  | [] => []
  | c :: cs =>
    let letters :=
      if c = 'Σ' then (if afterCased && !wordContinues cs then ['ς'] else ['σ']) else lowerChar c
    let after := if CaseTable.isIgnorable c then afterCased else CaseTable.isCased c
    letters ++ lowerFrom after cs

def lowercase (cs : List Char) : List Char := lowerFrom false cs

/-- The same on strings. -/
def lower (s : String) : String := String.ofList (lowercase s.toList)

end DeviceSleep.Text
