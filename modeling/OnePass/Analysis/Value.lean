import OnePass.Analysis.State
import OnePass.Event

/-
  The types of expressions.

  The type of a complete expression follows from the types
  of its parts and from the names in scope. Finding it never
  changes the state.

  Key definitions include:
    * `Analysis.number?`
    * `Analysis.fitsByte`
    * `Analysis.callType`
    * `Analysis.valueType`
-/

------------------------------------------------------------
-- Byte Literals
------------------------------------------------------------

namespace OnePass

namespace Analysis

/- The largest value of a byte. -/
def byteMax : Nat := 255

/- A product, if 64 bits are enough for it. -/
def product? (left right : UInt64) : Option UInt64 :=
  if left.toNat * right.toNat < UInt64.size then
    some (left * right)
  else
    none

/- A sum, if 64 bits are enough for it. -/
def sum? (left right : UInt64) : Option UInt64 :=
  if left.toNat + right.toNat < UInt64.size then
    some (left + right)
  else
    none

/- The value of a decimal digit. -/
def digit? (char : Char) : Option UInt64 :=
  if char.isDigit then
    some (char.toNat - '0'.toNat).toUInt64
  else
    none

/- A number with one more digit at its end. -/
def withDigit?
    (value : UInt64)
    (char : Char) : Option UInt64 := do
  let shifted ← product? value 10
  sum? shifted (← digit? char)

/- What follows an optional plus sign. -/
def unsigned : List Char → List Char
| '+' :: rest => rest
| all => all

/-
  The number that digits denote, after an optional plus sign.
  There is none if there are no digits, if anything else is
  among them, or if 64 bits are not enough.
-/
def number? (text : String) : Option UInt64 :=
  let digits := unsigned text.toList
  if digits.isEmpty then
    none
  else
    digits.foldlM withDigit? 0

/- The text denotes a value of a byte. -/
def fitsByte (text : String) : Bool :=
  match number? text with
  | some value => value.toNat ≤ byteMax
  | none => false

end Analysis

end OnePass

------------------------------------------------------------
-- Calls
------------------------------------------------------------

namespace OnePass

namespace Analysis

/-
  As many arguments as parameters, each of a type that may
  be used for its parameter.
-/
def fits
    (arguments parameters : List Ty) : Bool :=
  arguments.length = parameters.length &&
    (arguments.zip parameters).all
      (fun (argument, parameter) => argument.castsTo parameter)

/- The type of a call: what the callee returns. -/
def callType
    (symbols : Symbols)
    (callee : Identifier)
    (arguments : List (Typed Ty))
    (span : Span) : Except Stop Ty :=
  match symbols.signature? callee.name with
  | none => reject (.undefinedFunction callee.name) span
  | some signature =>
      if fits (arguments.map Typed.ty) signature.parameters then
        .ok signature.returns
      else
        reject
          (.prototypeMismatch callee.name signature.parameters)
          span

end Analysis

end OnePass

------------------------------------------------------------
-- Expressions
------------------------------------------------------------

namespace OnePass

namespace Analysis

/- The type of a complete expression. -/
def valueType
    (symbols : Symbols) :
    ValueEvent Ty → Except Stop Ty
| .call callee arguments span =>
    callType symbols callee arguments span
| .identifier name =>
    (symbols.valueType name.name name.span).mapError .finding
| .numberLiteral _ _ => .ok .int
| .byteLiteral digits span =>
    if fitsByte digits then
      .ok .byte
    else
      reject (.byteOutOfRange digits) span
| .stringLiteral _ => .ok .string
| .boolLiteral _ _ => .ok .bool
| .cast target operand span =>
    if operand.ty.castsExplicitlyTo target then
      .ok target
    else
      reject .typeMismatch span
| .numeric left _ right span => do
    requireNumeral left.ty span
    requireNumeral right.ty span
    guarded (left.ty.widen right.ty)
| .relational left _ right span => do
    requireNumeral left.ty span
    requireNumeral right.ty span
    return .bool
| .logical left _ right span => do
    requireCast left.ty .bool span
    requireCast right.ty .bool span
    return .bool
| .negation operand span => do
    requireCast operand.ty .bool span
    return .bool

end Analysis

end OnePass
