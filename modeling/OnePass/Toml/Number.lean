import OnePass.Toml.Text

/-
  Numbers.

  Single underscores may stand between digits. A decimal
  integer has no leading zeros and may have a sign; integers
  in other bases have no sign. Integers lie in the range of
  64 bits. A number with a fraction or an exponent is read
  as a double: a positive one may not be so large that it
  would be rounded to infinity.

  Key definitions include:
    * `Toml.Reader.integer`
    * `Toml.Reader.float`
    * `Toml.roundsToInfinity`
-/

------------------------------------------------------------
-- Digits
------------------------------------------------------------

namespace OnePass

namespace Toml

namespace Reader

/- The digits of one or more, with underscores left out. -/
def digits (accepts : Char → Bool) : Reader (List Char) := do
  let first ← satisfy accepts
  let next : Reader Char := do
    let _ ← optional (char '_')
    satisfy accepts
  return first :: (← many next)

/- An optional sign: whether it is a minus. -/
def sign : Reader Bool := do
  match ← optional (satisfy fun c => c = '+' || c = '-') with
  | some found => return found = '-'
  | none => return false

/- A decimal integer: whether it is negative, and its digits. -/
def signedDigits : Reader (Bool × List Char) := do
  let negative ← sign
  match ← peek with
  | some '0' =>
      char '0'
      return (negative, ['0'])
  | _ => return (negative, ← digits Char.isDigit)

end Reader

end Toml

end OnePass

------------------------------------------------------------
-- Integers
------------------------------------------------------------

namespace OnePass

namespace Toml

/- The integers that fit into 64 bits. -/
def fitsInteger (number : Int) : Bool :=
  -9223372036854775808 ≤ number &&
    number ≤ 9223372036854775807

/- An octal digit. -/
def isOctalDigit (char : Char) : Bool :=
  '0' ≤ char && char ≤ '7'

/- A binary digit. -/
def isBinaryDigit (char : Char) : Bool :=
  char = '0' || char = '1'

namespace Reader

/- A number in the range of integers. -/
def inRange (number : Int) : Reader Int :=
  if fitsInteger number then return number else failure

/- An integer in a base that its first characters name. -/
def basedInteger
    (mark : String)
    (base : Nat)
    (accepts : Char → Bool) : Reader Int := do
  word mark
  inRange (numberOf base (← digits accepts))

/- A decimal integer. -/
def decimalInteger : Reader Int := do
  let (negative, digits) ← signedDigits
  let magnitude : Int := numberOf 10 digits
  inRange (if negative then -magnitude else magnitude)

/- An integer. -/
def integer : Reader Int :=
  basedInteger "0x" 16 isHexDigit <|>
    basedInteger "0o" 8 isOctalDigit <|>
    basedInteger "0b" 2 isBinaryDigit <|>
    decimalInteger

end Reader

end Toml

end OnePass

------------------------------------------------------------
-- Floats
------------------------------------------------------------

namespace OnePass

namespace Toml

/-
  The least number that is rounded to infinity: it lies half
  a step above the largest double, and the tie goes up.
-/
def infinityThreshold : Nat :=
  (Nat.pow 2 54 - 1) * Nat.pow 2 970

/-
  The number `mantissa * 10 ^ exponent` is rounded to
  infinity. The threshold lies between 10 ^ 308 and
  10 ^ 309, so that most numbers are decided by their
  length.
-/
def roundsToInfinity
    (mantissa : Nat)
    (exponent : Int) : Bool :=
  let length : Int := (Nat.toDigits 10 mantissa).length
  if mantissa = 0 || length + exponent ≤ 308 then
    false
  else if 310 ≤ length + exponent then
    true
  else if 0 ≤ exponent then
    infinityThreshold ≤ mantissa * Nat.pow 10 exponent.toNat
  else
    infinityThreshold * Nat.pow 10 (-exponent).toNat ≤ mantissa

namespace Reader

/- The exponent of a number. -/
def exponent : Reader Int := do
  let _ ← satisfy fun c => c = 'e' || c = 'E'
  let negative ← sign
  let magnitude : Int := numberOf 10 (← digits Char.isDigit)
  return if negative then -magnitude else magnitude

/- The digits after the point. -/
def fraction : Reader (List Char) := do
  char '.'
  digits Char.isDigit

/- A decimal number with a fraction, an exponent or both. -/
def finiteFloat : Reader Unit := do
  let (negative, whole) ← signedDigits
  let decimals ← optional fraction
  let scale ← optional exponent
  if decimals.isNone && scale.isNone then
    failure
  let places := decimals.getD []
  let mantissa := numberOf 10 (whole ++ places)
  let power := scale.getD 0 - places.length
  if !negative && roundsToInfinity mantissa power then
    failure

/- Infinity, or a value that is no number. -/
def specialFloat : Reader Unit := do
  let _ ← sign
  word "inf" <|> word "nan"

/- A number that is no integer, as it is written. -/
def float : Reader String := do
  return String.ofList (← taken (finiteFloat <|> specialFloat))

end Reader

end Toml

end OnePass
