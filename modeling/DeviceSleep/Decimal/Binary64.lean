/-! Binary floating-point numbers of 64 bits as exact values. A decimal fraction is rounded to the
nearest of them, ties to the even mantissa, in integer arithmetic throughout. -/
namespace DeviceSleep
set_option autoImplicit false

/-- A finite number is `mantissa * 2 ^ exponent`, negated if so marked; zero has two signs. -/
inductive Binary64 where
  | nan
  | infinite (negative : Bool)
  | finite (negative : Bool) (mantissa : Nat) (exponent : Int)
deriving DecidableEq, Repr

namespace Binary64

/-- The least exponent, that of the numbers nearest to zero. -/
def leastExponent : Int := -1074

/-- The greatest exponent of a mantissa of 53 bits. -/
def greatestExponent : Int := 971

/-- The quotient of two numbers to the nearest integer, a half to the even one. -/
def roundDiv (num den : Nat) : Nat :=
  let q := num / den
  let twice := 2 * (num % den)
  if twice < den then q
  else if twice = den then q + q % 2
  else q + 1

/-- The quotient `num / (den * 2 ^ e)` to the nearest integer. -/
def scaledRound (num den : Nat) (e : Int) : Nat :=
  if 0 ≤ e then roundDiv num (den * Nat.pow 2 e.toNat)
  else roundDiv (num * Nat.pow 2 (-e).toNat) den

/-- The exponent at which the quotient has a mantissa of 53 bits, or the least one. -/
def exponentOf (num den : Nat) : Int :=
  let guess : Int := (Nat.log2 num : Int) - (Nat.log2 den : Int) - 52
  let small :=
    if 0 ≤ guess then num < den * Nat.pow 2 guess.toNat * Nat.pow 2 52
    else num * Nat.pow 2 (-guess).toNat < den * Nat.pow 2 52
  max leastExponent (if small then guess - 1 else guess)

/-- The number nearest to a positive quotient. -/
def ofRatio (negative : Bool) (num den : Nat) : Binary64 :=
  let e := exponentOf num den
  let m := scaledRound num den e
  let (m, e) := if m = Nat.pow 2 53 then (Nat.pow 2 52, e + 1) else (m, e)
  if greatestExponent < e then infinite negative else finite negative m e

/-- The number nearest to `digits * 10 ^ scale`. The largest finite number is below `10 ^ 309`, and
what is below `10 ^ (-330)` rounds to zero. -/
def ofDecimal (negative : Bool) (digits : Nat) (scale : Int) : Binary64 :=
  if digits = 0 then finite negative 0 leastExponent
  else
    let top : Int := (Nat.toDigits 10 digits).length + scale
    if 310 < top then infinite negative
    else if top < -330 then finite negative 0 leastExponent
    else if 0 ≤ scale then ofRatio negative (digits * Nat.pow 10 scale.toNat) 1
    else ofRatio negative digits (Nat.pow 10 (-scale).toNat)

def isZero : Binary64 → Bool
  | finite _ 0 _ => true
  | _ => false

/-- The nearest natural number up to a limit, a half away from zero; what is negative, or no number,
counts as zero. -/
def toNatUpTo (limit : Nat) : Binary64 → Nat
  | nan => 0
  | infinite negative => if negative then 0 else limit
  | finite true _ _ => 0
  | finite false m e =>
    if 0 ≤ e then min limit (m * Nat.pow 2 (min e 100).toNat)
    else
      let den := Nat.pow 2 (-e).toNat
      min limit ((2 * m + den) / (2 * den))

end Binary64

end DeviceSleep
