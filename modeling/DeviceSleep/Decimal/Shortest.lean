import DeviceSleep.Decimal.Binary64

/-! The shortest decimal text of a binary number: the fewest digits that round back to it, and of two
such decimals the nearer one. All digits stand before or after a point, without an exponent. -/
namespace DeviceSleep.Decimal
set_option autoImplicit false

/-- The value of a finite number as a quotient. -/
def ratio (mantissa : Nat) (exponent : Int) : Nat × Nat :=
  if 0 ≤ exponent then (mantissa * Nat.pow 2 exponent.toNat, 1)
  else (mantissa, Nat.pow 2 (-exponent).toNat)

/-- How often a quotient below one must be multiplied by ten to reach one. -/
def leadingZeros : Nat → Nat → Nat → Nat
  | 0, _, _ => 0
  | fuel + 1, num, den => if den ≤ num then 0 else leadingZeros fuel (num * 10) den + 1

/-- The power of ten at the first digit of a positive quotient. -/
def magnitude (num den : Nat) : Int :=
  if den ≤ num then (Nat.toDigits 10 (num / den)).length - 1
  else -(leadingZeros 400 num den : Int)

/-- The quotient divided by a power of ten, as a quotient. -/
def scaled (num den : Nat) (scale : Int) : Nat × Nat :=
  if 0 ≤ scale then (num, den * Nat.pow 10 scale.toNat)
  else (num * Nat.pow 10 (-scale).toNat, den)

/-- The decimal with `count` digits that rounds back to the number, if there is one: of two the nearer,
and of two equally near the greater. After the digits 99…9 it is a power of ten. -/
def candidate? (x : Binary64) (num den : Nat) (count : Nat) : Option (Nat × Int) :=
  let scale := magnitude num den - count + 1
  let (n, d) := scaled num den scale
  let below := n / d
  let above := below + 1
  let fits (digits : Nat) : Bool := Binary64.ofDecimal false digits scale == x
  let nearerBelow : Bool := 2 * (n % d) < d
  match fits below, fits above with
  | true, true => some (if nearerBelow then below else above, scale)
  | true, false => some (below, scale)
  | false, true => some (above, scale)
  | false, false => none

/-- The same decimal without zeros at the end of its digits. -/
def trimmed (digits : Nat) (scale : Int) : Nat × Int :=
  if h : digits ≠ 0 ∧ digits % 10 = 0 then trimmed (digits / 10) (scale + 1) else (digits, scale)
termination_by digits
decreasing_by omega

/-- The shortest decimal `digits * 10 ^ scale` of a positive number. -/
def shortest (mantissa : Nat) (exponent : Int) : Nat × Int :=
  let (num, den) := ratio mantissa exponent
  let counts := (List.range 17).map (· + 1)
  let (digits, scale) :=
    (counts.findSome? (candidate? (.finite false mantissa exponent) num den)).getD (num, 0)
  trimmed digits scale

/-- All digits of `digits * 10 ^ scale`, with a point only where a fraction follows. -/
def positional (digits : Nat) (scale : Int) : List Char :=
  let cs := Nat.toDigits 10 digits
  if 0 ≤ scale then cs ++ List.replicate scale.toNat '0'
  else
    let places := (-scale).toNat
    let padded := List.replicate (places + 1 - cs.length) '0' ++ cs
    let whole := padded.take (padded.length - places)
    whole ++ '.' :: padded.drop (padded.length - places)

def render : Binary64 → List Char
  | .nan => "NaN".toList
  | .infinite negative => (if negative then "-inf" else "inf").toList
  | .finite negative mantissa exponent =>
    let body :=
      if mantissa = 0 then ['0']
      else
        let (digits, scale) := shortest mantissa exponent
        positional digits scale
    if negative then '-' :: body else body

def text (x : Binary64) : String := String.ofList (render x)

end DeviceSleep.Decimal
