import OnePass.Fault

/-
  The closed set of value types and their casts.

  A byte may stand wherever an int is expected; every other
  change of type has to be written, and may be written only
  between the two numeral types.

  Key definitions include:
    * `Ty`
    * `Ty.isNumeral`
    * `Ty.castsTo`
    * `Ty.castsExplicitlyTo`
    * `Ty.widen`
    * `Ty.renderList`
-/

------------------------------------------------------------
-- Types
------------------------------------------------------------

namespace OnePass

/-
  The type of a value, or of what a function returns. Only
  a function result can be `void`.
-/
inductive Ty where
  | int
  | byte
  | bool
  | string
  | void
deriving DecidableEq, Repr

namespace Ty

/- The types of arithmetic and of comparisons. -/
def isNumeral : Ty → Bool
| int | byte => true
| bool | string | void => false

/- The type of no value. -/
def isVoid : Ty → Bool
| void => true
| int | byte | bool | string => false

end Ty

end OnePass

------------------------------------------------------------
-- Casts
------------------------------------------------------------

namespace OnePass

namespace Ty

/-
  A value of type `source` may be used, without a written
  cast, where `target` is expected.
-/
def castsTo
    (source target : Ty) : Bool :=
  source = target || (source = byte && target = int)

/-
  A value of type `source` may be cast to `target` in
  writing.
-/
def castsExplicitlyTo
    (source target : Ty) : Bool :=
  source = target || (source.isNumeral && target.isNumeral)

/-
  The type of an arithmetic result: an int as soon as one
  side is an int. Both sides have to be numerals.
-/
def widen
    (left right : Ty) : Except Fault Ty :=
  if left.isNumeral && right.isNumeral then
    .ok (if left = int || right = int then int else byte)
  else
    .error .widenedNonNumeral

end Ty

end OnePass

------------------------------------------------------------
-- Written Forms
------------------------------------------------------------

namespace OnePass

namespace Ty

/- The name shown in diagnostics and summaries. -/
def name : Ty → String
| int => "INT"
| byte => "BYTE"
| bool => "BOOL"
| string => "STRING"
| void => "VOID"

/- A parenthesized, comma separated list of names. -/
def renderList (types : List Ty) : String :=
  "(" ++ ",".intercalate (types.map name) ++ ")"

end Ty

end OnePass
