import DeviceSleep.Decimal.Shortest
import DeviceSleep.Text.Numeral
import DeviceSleep.Text.Word
import DeviceSleep.Tree

/-! How values are read as fields of a record. What a field holds is the same wherever a
configuration comes from; how freely a value may be written is not, and is given by a set of rules:
a file of its own is taken at its word, an exchanged value too, and layered settings, which may come
from an environment of texts, are converted. -/
namespace DeviceSleep
set_option autoImplicit false

structure Rules where
  /-- The value leaves an optional field unset. -/
  isUnset : Tree → Bool
  bool? : Tree → Option Bool
  /-- A natural number up to a limit. -/
  natural? : Nat → Tree → Option Nat
  text? : Tree → Option String
  /-- One of several names. -/
  choice? : List String → Tree → Option String
  /-- The fields of a record, given the names of all it may have, in order. -/
  fields? : List String → Tree → Option (List (String × Tree))

namespace Tree

def items? : Tree → Option (List Tree)
  | list items => some items
  | _ => none

def entries? : Tree → Option (List (String × Tree))
  | table entries => some entries
  | _ => none

/-- The items of a list, all read in the same way. -/
def listOf? {α : Type} (read : Tree → Option α) (t : Tree) : Option (List α) :=
  t.items?.bind fun items => items.mapM read

end Tree

namespace Rules

/-! ## Values taken at their word -/

def exactBool? : Tree → Option Bool
  | .bool b => some b
  | _ => none

def exactNatural? (limit : Nat) : Tree → Option Nat
  | .int n => if 0 ≤ n ∧ n ≤ limit then some n.toNat else none
  | _ => none

def exactText? : Tree → Option String
  | .text s => some s
  | _ => none

/-- A name, or a table whose only key is the name and whose value is as `empty` says. -/
def nameIn? (empty : Tree → Bool) (names : List String) : Tree → Option String
  | .text s => if names.contains s then some s else none
  | .table [(s, t)] => if names.contains s && empty t then some s else none
  | _ => none

/-- An empty table or list. -/
def isHollow : Tree → Bool
  | .table [] => true
  | .list [] => true
  | _ => false

def isNil : Tree → Bool
  | .nil => true
  | _ => false

/-- A table, or a list of the first few fields in order. -/
def recordFields? (names : List String) : Tree → Option (List (String × Tree))
  | .table entries => some entries
  | .list items => some (names.zip items)
  | _ => none

/-- A configuration file of its own. -/
def file : Rules where
  isUnset _ := false
  bool? := exactBool?
  natural? := exactNatural?
  text? := exactText?
  choice? := nameIn? isHollow
  fields? := recordFields?

/-- A value exchanged with another program: it can say that a field is unset, and has no field too
many. -/
def exchange : Rules where
  isUnset := isNil
  bool? := exactBool?
  natural? := exactNatural?
  text? := exactText?
  choice? := nameIn? isNil
  fields? names t :=
    match t with
    | .list items => if items.length ≤ names.length then some (names.zip items) else none
    | t => recordFields? names t

/-! ## Values converted -/

/-- The greatest number of 64 bits. -/
def wordLimit : Nat := UInt64.size - 1

def yesWords : List String := ["true", "on", "yes"]

def noWords : List String := ["false", "off", "no"]

def looseBool? : Tree → Option Bool
  | .bool b => some b
  | .int n => some (n != 0)
  | .real x => some (!x.isZero)
  | .text s =>
    let word := Text.lower s
    if (yesWords ++ ["1"]).contains word then some true
    else if (noWords ++ ["0"]).contains word then some false
    else none
  | _ => none

/-- A number before its field's range is looked at. -/
def looseNumber? : Tree → Option Nat
  | .bool b => some (if b then 1 else 0)
  | .int n => if 0 ≤ n then some n.toNat else none
  | .real x => some (x.toNatUpTo wordLimit)
  | .text s =>
    let word := Text.lower s
    if yesWords.contains word then some 1
    else if noWords.contains word then some 0
    else Text.unsigned? 10 wordLimit word.toList
  | _ => none

def looseNatural? (limit : Nat) (t : Tree) : Option Nat :=
  (looseNumber? t).filter (· ≤ limit)

def looseText? : Tree → Option String
  | .bool b => some (if b then "true" else "false")
  | .int n => some (toString n)
  | .real x => some (Decimal.text x)
  | .text s => some s
  | .time s => some s
  | _ => none

/-- A name in any letter case, as a text or as the only key of a table. -/
def looseChoice? (names : List String) : Tree → Option String
  | .text s => names.find? fun name => Text.sameWord name s
  | .table [(s, _)] => names.find? fun name => Text.sameWord name s
  | _ => none

/-- Settings gathered from several places. -/
def layered : Rules where
  isUnset := isNil
  bool? := looseBool?
  natural? := looseNatural?
  text? := looseText?
  choice? := looseChoice?
  fields? := recordFields?

end Rules

/-- The fields of a record that is being read. -/
abbrev Fields := List (String × Tree)

namespace Fields

def required {α : Type} (fields : Fields) (name : String) (read : Tree → Option α) : Option α :=
  (fields.lookup name).bind read

/-- A field that has a default. -/
def withDefault {α : Type} (fields : Fields) (name : String) (default : α)
    (read : Tree → Option α) : Option α :=
  match fields.lookup name with
  | none => some default
  | some t => read t

/-- A field that may be unset. -/
def optional {α : Type} (fields : Fields) (name : String) (rules : Rules)
    (read : Tree → Option α) : Option (Option α) :=
  match fields.lookup name with
  | none => some none
  | some t => if rules.isUnset t then some none else (read t).map some

end Fields

end DeviceSleep
