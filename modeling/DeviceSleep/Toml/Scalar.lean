import DeviceSleep.Decimal.Binary64
import DeviceSleep.Text.Numeral
import DeviceSleep.Toml.Blank
import DeviceSleep.Toml.Moment
import DeviceSleep.Tree

/-! Unquoted TOML values: booleans, integers, fractions, dates and times. A value is one word of
letters, digits and a few marks; only a date and a time may be two words with a space between. -/
namespace DeviceSleep.Toml
set_option autoImplicit false

/-! ## Digits -/

/-- Digits in groups with single underscores between them, without the underscores. -/
def grouped? (ok : Char → Bool) : List Char → Option (List Char)
  | [] => none
  | [c] => if ok c then some [c] else none
  | c :: '_' :: rest => if ok c then (grouped? ok rest).map (c :: ·) else none
  | c :: rest => if ok c then (grouped? ok rest).map (c :: ·) else none

/-- Grouped digits of a radix and their value. -/
def groupedValue? (radix : Nat) (cs : List Char) : Option Nat := do
  let digits ← grouped? (fun c => (Text.digitIn? radix c).isSome) cs
  Text.digits? radix digits

/-- A sign, if there is one: whether it is a minus, and what follows. -/
def signed : List Char → Bool × List Char
  | '-' :: rest => (true, rest)
  | '+' :: rest => (false, rest)
  | cs => (false, cs)

/-- A decimal number without a needless zero in front. -/
def whole? : List Char → Option Nat
  | ['0'] => some 0
  | '0' :: _ => none
  | cs => groupedValue? 10 cs

/-! ## Numbers -/

/-- An integer of 64 bits. -/
def integer? (cs : List Char) : Option Int := do
  let n : Int ←
    match cs with
    | '0' :: 'x' :: digits => (groupedValue? 16 digits).map fun n => (n : Int)
    | '0' :: 'o' :: digits => (groupedValue? 8 digits).map fun n => (n : Int)
    | '0' :: 'b' :: digits => (groupedValue? 2 digits).map fun n => (n : Int)
    | cs =>
      let (negative, digits) := signed cs
      (whole? digits).map fun n => if negative then -(n : Int) else n
  if Int64.minValue.toInt ≤ n ∧ n ≤ Int64.maxValue.toInt then some n else none

/-- The part of a fraction from its `e` on: the power of ten. -/
def power? : List Char → Option Int
  | [] => some 0
  | c :: rest =>
    if c = 'e' ∨ c = 'E' then
      let (negative, digits) := signed rest
      (groupedValue? 10 digits).map fun n => if negative then -(n : Int) else n
    else none

/-- The digits of a fraction and the power of ten by which they count. -/
def decimal? (cs : List Char) : Option (Nat × Int) := do
  let isWhole (c : Char) := c.isDigit || c == '_'
  let front := cs.takeWhile isWhole
  let n ← whole? front
  match cs.dropWhile isWhole with
  | '.' :: rest =>
    let places ← grouped? Char.isDigit (rest.takeWhile isWhole)
    let p ← power? (rest.dropWhile isWhole)
    let fraction ← Text.digits? 10 places
    return (n * Nat.pow 10 places.length + fraction, p - places.length)
  | [] => none
  | rest =>
    let p ← power? rest
    return (n, p)

/-- A fraction; one that is too large is refused, except below zero. -/
def real? (cs : List Char) : Option Binary64 :=
  let (negative, body) := signed cs
  if body = "inf".toList then some (.infinite negative)
  else if body = "nan".toList then some .nan
  else do
    let (digits, scale) ← decimal? body
    let x := Binary64.ofDecimal negative digits scale
    if x = .infinite false then none else some x

/-! ## Words -/

def isWordChar (c : Char) : Bool :=
  c.isAlphanum || c == '_' || c == '+' || c == '-' || c == '.' || c == ':'

/-- The value of a word. -/
def word? (cs : List Char) : Option Tree :=
  if cs = "true".toList then some (.bool true)
  else if cs = "false".toList then some (.bool false)
  else
    match integer? cs, real? cs, moment? cs with
    | some n, _, _ => some (.int n)
    | none, some x, _ => some (.real x)
    | none, none, some t => some (.time (String.ofList t))
    | none, none, none => none

/-- Reads an unquoted value. Behind a date one space may stand before a time. -/
def scalar (cs : List Char) : Option (Tree × List Char) :=
  let word := cs.takeWhile isWordChar
  let rest := cs.dropWhile isWordChar
  let second := (rest.drop 1).takeWhile isWordChar
  if isDate word ∧ rest.head? = some ' ' ∧ second.head?.any Char.isDigit then
    (time? true second).map fun t =>
      (.time (String.ofList (word ++ 'T' :: t)), (rest.drop 1).dropWhile isWordChar)
  else (word? word).map fun v => (v, rest)

end DeviceSleep.Toml
