/-! Numerals: reading natural numbers up to a limit, writing them in hexadecimal, and telling which
texts are numbers with a fraction. -/
namespace DeviceSleep.Text
set_option autoImplicit false

def lowerHexDigits : List Char :=
  ['0', '1', '2', '3', '4', '5', '6', '7', '8', '9', 'a', 'b', 'c', 'd', 'e', 'f']

/-- The value of a digit in either case. -/
def digit? (c : Char) : Option Nat :=
  if '0' ≤ c ∧ c ≤ '9' then some (c.toNat - '0'.toNat)
  else if 'a' ≤ c ∧ c ≤ 'f' then some (c.toNat - 'a'.toNat + 10)
  else if 'A' ≤ c ∧ c ≤ 'F' then some (c.toNat - 'A'.toNat + 10)
  else none

/-- The value of a digit that the radix has. -/
def digitIn? (radix : Nat) (c : Char) : Option Nat :=
  (digit? c).filter (· < radix)

/-- Continues a numeral whose digits so far have the value `value`. -/
def readDigits (radix : Nat) (value : Nat) : List Char → Option Nat
  | [] => some value
  | c :: cs => (digitIn? radix c).bind fun d => readDigits radix (value * radix + d) cs

/-- One or more digits. -/
def digits? (radix : Nat) : List Char → Option Nat
  | [] => none
  | cs => readDigits radix 0 cs

/-- One or more digits after at most one plus sign, with a value up to the limit. -/
def unsigned? (radix limit : Nat) (cs : List Char) : Option Nat :=
  let body :=
    match cs with
    | '+' :: rest => rest
    | rest => rest
  (digits? radix body).filter (· ≤ limit)

/-! ## Fractions -/

/-- Digits, with at most one point before, between or behind them. -/
def isDecimal (cs : List Char) : Bool :=
  let whole := cs.takeWhile Char.isDigit
  match cs.dropWhile Char.isDigit with
  | [] => !whole.isEmpty
  | c :: fraction => c == '.' && fraction.all Char.isDigit && !(whole.isEmpty && fraction.isEmpty)

/-- The rest behind a sign, if there is one. -/
def unsignedPart : List Char → List Char
  | '+' :: rest => rest
  | '-' :: rest => rest
  | rest => rest

/-- The numbers that have no digits. -/
def unwrittenNumbers : List (List Char) := ["inf".toList, "infinity".toList, "nan".toList]

/-- A number with an exponent, or with none; or one without digits, in any letter case. A sign may stand
before it. -/
def isNumber (cs : List Char) : Bool :=
  let body := (unsignedPart cs).map Char.toLower
  let exponent := (body.dropWhile (· ≠ 'e')).drop 1
  unwrittenNumbers.contains body ||
    isDecimal (body.takeWhile (· ≠ 'e')) &&
      (!body.contains 'e' ||
        !(unsignedPart exponent).isEmpty && (unsignedPart exponent).all Char.isDigit)

/-! ## Hexadecimal -/

def hexDigit (n : Nat) : Char := lowerHexDigits.getD n '?'

/-- The digits of a number from the least one on; a number of `2 ^ (4 * places)` or more loses its
upper digits. -/
def hexDigitsUp : Nat → Nat → List Char
  | 0, _ => []
  | places + 1, n => if n = 0 then [] else hexDigit (n % 16) :: hexDigitsUp places (n / 16)

/-- The fewest hexadecimal digits of a 32-bit number, `0` for zero. -/
def hex32 (n : UInt32) : List Char :=
  if n = 0 then ['0'] else (hexDigitsUp 8 n.toNat).reverse

/-- Exactly two hexadecimal digits. -/
def hexByte (b : UInt8) : List Char := [hexDigit (b.toNat / 16), hexDigit (b.toNat % 16)]

/-- Exactly four hexadecimal digits, capital where a letter. -/
def hexUnit (n : Nat) : List Char :=
  [hexDigit (n / 4096 % 16), hexDigit (n / 256 % 16), hexDigit (n / 16 % 16),
    hexDigit (n % 16)].map Char.toUpper

end DeviceSleep.Text
