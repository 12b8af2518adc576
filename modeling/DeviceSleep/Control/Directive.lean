import DeviceSleep.Event
import DeviceSleep.Pattern.Reading
import DeviceSleep.Pattern.Usable
import DeviceSleep.Text.Alphanumeric
import DeviceSleep.Text.Blank
import DeviceSleep.Text.Numeral
import DeviceSleep.Text.Split

/-! Which events are shown. A setting is a list of directives between commas. Each gives a level, for
every part of the program or for those whose names begin in some way, for every event or for those
with some fields. Of the directives that concern an event the most particular one decides. -/
namespace DeviceSleep
set_option autoImplicit false

structure Directive where
  /-- Events up to this rank are shown. -/
  limit : Nat
  /-- How the name of the reporting part must begin. -/
  target : Option (List Char)
  /-- The stretch of work in which an event must fall. This program marks none. -/
  span : Option (List Char)
  /-- The fields that an event must have. Values are only compared with those of a stretch of work, so
  no event meets a field with a value. -/
  fields : List (List Char × Option (List Char))
deriving DecidableEq, Repr

namespace Directive

/-- Shows every event of the ranks up to a limit. -/
def upTo (limit : Nat) : Directive := ⟨limit, none, none, []⟩

/-! ## Levels -/

def levelNames : List (String × Nat) :=
  [("off", 0), ("error", 1), ("warn", 2), ("info", 3), ("debug", 4), ("trace", 5)]

/-- A rank, by its name in any letter case or as a number. -/
def level? (cs : List Char) : Option Nat :=
  match Text.unsigned? 10 (UInt64.size - 1) cs with
  | some n => if n ≤ Level.trace.rank then some n else none
  | none => levelNames.lookup (String.ofList (cs.map Char.toLower))

/-! ## Reading -/

/-- How far the reading has come, with the place where the piece under way begins. -/
inductive Stage where
  | start
  /-- A level or a target. -/
  | word (first : Nat)
  | span (first : Nat)
  | field (first : Nat)
  /-- Behind the braces. -/
  | fielded
  /-- Behind the brackets. -/
  | spanned
  | level (first : Nat)
deriving DecidableEq, Repr

/-- What may begin a word. -/
def opens (c : Char) : Bool := ['-', ':', '_'].contains c || Text.isAlphanumeric c

/-- Why a directive is not read. -/
inductive Fault where
  /-- It is none. -/
  | refused
  /-- A piece of it would begin or end inside a character. -/
  | torn
deriving DecidableEq, Repr

/-- The piece of a text between two numbers of bytes. -/
def piece (text : List Char) (first last : Nat) : Except Fault (List Char) :=
  match Text.between? first last text with
  | some cs => .ok cs
  | none => .error .torn

/-- The piece of a text behind a number of bytes. -/
def pieceFrom (text : List Char) (first : Nat) : Except Fault (List Char) :=
  match Text.cutAt? first text with
  | some (_, cs) => .ok cs
  | none => .error .torn

/-- Whether a field can be compared with a value: with a number, or else by a pattern. -/
def isValue (cs : List Char) : Bool :=
  Text.isNumber cs || (Pattern.parse? cs).any Pattern.usable

/-- A field with the value behind an equals sign, if there is one. -/
def fieldOf (cs : List Char) : Except Fault (List Char × Option (List Char)) :=
  match Text.pieces '=' cs with
  | name :: value :: _ => if isValue value then .ok (name, some value) else .error .refused
  | _ => .ok (cs, none)

/-- Takes the character that stands behind `i` bytes. -/
def step (text : List Char) (d : Directive) (i : Nat) (c : Char) :
    Stage → Except Fault (Stage × Directive)
  | .start =>
    if c = '[' then .ok (.span (i + 1), d)
    else if opens c then .ok (.word i, d)
    else .error .refused
  | .word first =>
    if c = '=' then do return (.level (i + 1), { d with target := some (← piece text first i) })
    else if c = '[' then do return (.span (i + 1), { d with target := some (← piece text first i) })
    else .ok (.word first, d)
  | .span first =>
    if c = ']' then do return (.spanned, { d with span := some (← piece text first i) })
    else if c = '\x7b' then do
      let name ← piece text first i
      return (.field (i + 1), { d with span := if name.isEmpty then none else some name })
    else .ok (.span first, d)
  | .field first =>
    if c = '\x7d' then do
      let field ← piece text first i
      if field.isEmpty then .error .refused
      else return (.fielded, { d with fields := d.fields ++ [← fieldOf field] })
    else .ok (.field first, d)
  | .fielded => if c = ']' then .ok (.spanned, d) else .error .refused
  | .spanned => if c = '=' then .ok (.level (i + 1), d) else .error .refused
  | .level first => .ok (.level first, d)

/-- Takes the end of the text. A word by itself is a level if it can be one. -/
def finish (text : List Char) (d : Directive) : Stage → Except Fault Directive
  | .word first => do
    let word ← pieceFrom text first
    match level? word with
    | some n => return { d with limit := n }
    | none => return { d with target := some word }
  | .level first => do
    let word ← pieceFrom text first
    if word.isEmpty then return d
    else
      match level? word with
      | some n => return { d with limit := n }
      | none => .error .refused
  | .spanned => .ok d
  | _ => .error .refused

/-- Takes the characters that begin behind `i` bytes, and then the end of the text. -/
def scan (text : List Char) (d : Directive) (i : Nat) (stage : Stage) :
    List Char → Except Fault Directive
  | [] => finish text d stage
  | c :: cs => do
    let (stage, d) ← step text d i c stage
    scan text d (i + c.utf8Size) stage cs

/-- Reads a directive; without a level it shows everything. Blanks at the ends are passed over, but the
places of the pieces are then counted from the beginning of the text with its blanks. -/
def read (text : List Char) : Except Fault Directive :=
  scan text (upTo Level.trace.rank) 0 .start (Text.trim text)

def readAll (setting : String) : Except Fault (List Directive) :=
  ((Text.pieces ',' setting.toList).filter (!·.isEmpty)).mapM read

/-- What is shown without a setting, or with one that cannot be read: notes for the user. -/
def standard : List Directive := [upTo Level.info.rank]

/-- The directives of a setting; `none` if its reading breaks off. -/
def ofSetting (setting : Option String) : Option (List Directive) :=
  match setting.map readAll with
  | none => some standard
  | some (.ok directives) => some directives
  | some (.error .refused) => some standard
  | some (.error .torn) => none

/-! ## Deciding -/

/-- The one field that every event has. -/
def textField : List Char := "message".toList

def concerns (d : Directive) (e : Event) : Bool :=
  d.span.isNone && d.fields.all (· == (textField, none)) &&
    d.target.all fun start => (Text.after? start e.origin.path.toList).isSome

/-- Whether a directive is at least as particular as another: by a longer target, or else by more
fields. -/
def atLeast (d other : Directive) : Bool :=
  let size (target : Option (List Char)) : Nat := target.elim 0 (·.length + 1)
  size other.target < size d.target ||
    size other.target == size d.target && other.fields.length ≤ d.fields.length

/-- The most particular of several directives, of equals the last. -/
def choose : List Directive → Option Directive
  | [] => none
  | d :: ds =>
    match choose ds with
    | none => some d
    | some later => if later.atLeast d then some later else some d

def shows (directives : List Directive) (e : Event) : Bool :=
  (choose (directives.filter (·.concerns e))).any fun d => e.level.rank ≤ d.limit

end Directive

end DeviceSleep
