import DeviceSleep.Toml.Node
import DeviceSleep.Toml.Quoted
import DeviceSleep.Toml.Scalar

/-! TOML keys and values. Arrays and inline tables nest to a limited depth, and dotted keys have a
limited number of parts. -/
namespace DeviceSleep.Toml
set_option autoImplicit false

/-- A dotted key has fewer parts, and arrays and inline tables lie fewer deep. -/
def nestingLimit : Nat := 80

/-! ## Keys -/

def isBareKeyChar (c : Char) : Bool := c.isAlphanum || c == '_' || c == '-'

/-- One part of a key, bare or quoted. -/
def keyPart : List Char → Option (String × List Char)
  | '"' :: rest => (basic rest).map fun r => (String.ofList r.1, r.2)
  | '\'' :: rest => (literal rest).map fun r => (String.ofList r.1, r.2)
  | cs =>
    let name := cs.takeWhile isBareKeyChar
    if name.isEmpty then none else some (String.ofList name, cs.dropWhile isBareKeyChar)

/-- The parts of a key with points between them; `limit` bounds their number. -/
def keyParts : Nat → List Char → Option (List String × List Char)
  | 0, _ => none
  | limit + 1, cs => do
    let (name, rest) ← keyPart (spaces cs)
    match spaces rest with
    | '.' :: more => (keyParts limit more).map fun r => (name :: r.1, r.2)
    | rest => some ([name], rest)

def key (cs : List Char) : Option (List String × List Char) := keyParts (nestingLimit - 1) cs

/-! ## Values -/

mutual

/-- Reads a value. `fuel` bounds the steps and `depth` the nesting that is still allowed. -/
def value (fuel depth : Nat) (cs : List Char) : Option (Tree × List Char) :=
  match fuel with
  | 0 => none
  | fuel + 1 =>
    match cs with
    | '"' :: '"' :: '"' :: rest =>
      (basicLines (afterOpening rest)).map fun r => (.text (String.ofList r.1), r.2)
    | '"' :: rest => (basic rest).map fun r => (.text (String.ofList r.1), r.2)
    | '\'' :: '\'' :: '\'' :: rest =>
      (literalLines (afterOpening rest)).map fun r => (.text (String.ofList r.1), r.2)
    | '\'' :: rest => (literal rest).map fun r => (.text (String.ofList r.1), r.2)
    | '[' :: rest =>
      match depth with
      | 0 => none
      | depth + 1 => (items fuel depth rest).map fun r => (.list r.1, r.2)
    | '\x7b' :: rest =>
      match depth with
      | 0 => none
      | depth + 1 =>
        match spaces rest with
        | '\x7d' :: rest => some (.table [], rest)
        | rest => do
          let (pairs, rest) ← members fuel depth rest
          let entries ← Node.ofPairs pairs
          return (.table (Node.trees entries), rest)
    | cs => scalar cs

/-- Reads the values of an array up to its closing bracket. -/
def items (fuel depth : Nat) (cs : List Char) : Option (List Tree × List Char) :=
  match fuel with
  | 0 => none
  | fuel + 1 => do
    match ← trivia false cs with
    | ']' :: rest => return ([], rest)
    | cs =>
      let (v, rest) ← value fuel depth cs
      match ← trivia false rest with
      | ',' :: rest =>
        let (vs, rest) ← items fuel depth rest
        return (v :: vs, rest)
      | ']' :: rest => return ([v], rest)
      | _ => none

/-- Reads the members of an inline table up to its closing brace, one at least. -/
def members (fuel depth : Nat) (cs : List Char) :
    Option (List (List String × Tree) × List Char) :=
  match fuel with
  | 0 => none
  | fuel + 1 => do
    let (path, rest) ← key cs
    match rest with
    | '=' :: rest =>
      let (v, rest) ← value fuel depth (spaces rest)
      match spaces rest with
      | ',' :: rest =>
        let (more, rest) ← members fuel depth rest
        return ((path, v) :: more, rest)
      | '\x7d' :: rest => return ([(path, v)], rest)
      | _ => none
    | _ => none

end

end DeviceSleep.Toml
