/-
  Misuse of an operation.

  Some operations of the tables and of the analysis state
  may only be used after a check, or in matched pairs. A
  fault names the rule that was broken. It is not a finding
  about the checked program.

  Key definitions include:
    * `Fault`
    * `Fault.message`
-/

------------------------------------------------------------
-- Faults
------------------------------------------------------------

namespace OnePass

inductive Fault where
  /- The outer scope is never closed. -/
  | outerScopeClosed
  /- A function name is declared once. -/
  | functionRedeclared (name : String)
  /- A visible variable name is not declared again. -/
  | variableVisible (name : String)
  /- A loop is left only after it was entered. -/
  | noOpenLoop
  /- Only numeral types have a common wider type. -/
  | widenedNonNumeral
deriving DecidableEq, Repr

namespace Fault

/- The text shown for a fault. -/
def message : Fault → String
| outerScopeClosed => "Cannot exit the outer scope"
| functionRedeclared name =>
    "function '" ++ name ++ "' declared twice"
| variableVisible name =>
    "'" ++ name ++ "' is already visible"
| noOpenLoop => "loop exited more often than entered"
| widenedNonNumeral =>
    "assertion failed: self.is_numeral() && other.is_numeral()"

end Fault

end OnePass
