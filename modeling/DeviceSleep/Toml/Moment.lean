import DeviceSleep.Text.Numeral

/-! Dates and times, read into their standard form: a `T` between date and time, no zeros at the end
of a fraction, which has nine places at most, and an offset of hours and minutes. -/
namespace DeviceSleep.Toml
set_option autoImplicit false

/-! ## Dates -/

def isLeap (year : Nat) : Bool := year % 4 == 0 && (year % 100 != 0 || year % 400 == 0)

def monthLength (year month : Nat) : Nat :=
  if month = 2 then (if isLeap year then 29 else 28)
  else if month = 4 ∨ month = 6 ∨ month = 9 ∨ month = 11 then 30
  else 31

/-- A decimal number of fixed length. -/
def field? (cs : List Char) : Option Nat :=
  if cs.all Char.isDigit then Text.digits? 10 cs else none

/-- Year, month and day; the text is its own standard form. -/
def isDate : List Char → Bool
  | [y₀, y₁, y₂, y₃, '-', m₀, m₁, '-', d₀, d₁] =>
    match field? [y₀, y₁, y₂, y₃], field? [m₀, m₁], field? [d₀, d₁] with
    | some year, some month, some day =>
      1 ≤ month && month ≤ 12 && 1 ≤ day && day ≤ monthLength year month
    | _, _, _ => false
  | _ => false

/-! ## Times -/

/-- A decimal number of fixed length and up to a limit. -/
def within? (limit : Nat) (cs : List Char) : Option Nat := (field? cs).filter (· ≤ limit)

/-- A difference from universal time, of less than a day; there is no negative zero. -/
def offset? : List Char → Option (List Char)
  | [] => some []
  | [z] => if z = 'Z' ∨ z = 'z' then some ['Z'] else none
  | [sign, h₀, h₁, ':', m₀, m₁] => do
    let hours ← within? 23 [h₀, h₁]
    let minutes ← within? 59 [m₀, m₁]
    if sign = '+' ∨ sign = '-' then
      some [if hours = 0 ∧ minutes = 0 then '+' else sign, h₀, h₁, ':', m₀, m₁]
    else none
  | _ => none

def trimZeros (cs : List Char) : List Char := (cs.reverse.dropWhile (· == '0')).reverse

/-- The part of a time behind its seconds: a fraction, and an offset if one may stand there. -/
def timeTail? (withOffset : Bool) (cs : List Char) : Option (List Char) := do
  let (fraction, rest) ←
    match cs with
    | '.' :: rest =>
      let places := rest.takeWhile Char.isDigit
      if places.isEmpty then none
      else
        let kept := trimZeros (places.take 9)
        some (if kept.isEmpty then [] else '.' :: kept, rest.dropWhile Char.isDigit)
    | rest => some ([], rest)
  let tail ← if withOffset then offset? rest else if rest.isEmpty then some [] else none
  return fraction ++ tail

/-- Hours, minutes and seconds, and what follows them. A minute may have a leap second. -/
def time? (withOffset : Bool) : List Char → Option (List Char)
  | h₀ :: h₁ :: ':' :: m₀ :: m₁ :: ':' :: s₀ :: s₁ :: rest =>
    match within? 23 [h₀, h₁], within? 59 [m₀, m₁], within? 60 [s₀, s₁] with
    | some _, some _, some _ =>
      (timeTail? withOffset rest).map ([h₀, h₁, ':', m₀, m₁, ':', s₀, s₁] ++ ·)
    | _, _, _ => none
  | _ => none

/-! ## Both -/

/-- The signs that may stand between a date and a time. -/
def dateEnds : List Char := ['T', 't', ' ']

/-- A date, a time, or both. -/
def moment? (cs : List Char) : Option (List Char) :=
  if isDate cs then some cs
  else
    match time? false cs with
    | some t => some t
    | none =>
      let date := cs.take 10
      match cs.drop 10 with
      | c :: rest =>
        if isDate date ∧ dateEnds.contains c then
          (time? true rest).map (date ++ 'T' :: ·)
        else none
      | [] => none

end DeviceSleep.Toml
