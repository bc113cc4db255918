import OnePass.Symbols.Basic

/-
  The state of an analysis.

  An analysis knows the variables in scope, the functions
  declared so far, the function whose body is being read and
  how many loops are open around the place at hand. It stops
  at its first finding. A fault is kept apart from a
  finding: it says that events came in an order that no
  program brings about.

  Key definitions include:
    * `Analysis.State`
    * `Analysis.Stop`
    * `Analysis.requireCast`
    * `Analysis.requireNumeral`
-/

------------------------------------------------------------
-- States
------------------------------------------------------------

namespace OnePass

namespace Analysis

structure State where
  symbols : Symbols
  /- Number of loops whose body is being read. -/
  loops : Nat
deriving DecidableEq, Repr

namespace State

/- The state before anything is read. -/
def initial : State where
  symbols := .initial
  loops := 0

/- Number of open scopes inside the outer one. -/
def depth (state : State) : Nat :=
  state.symbols.depth

/- The function whose body is being read. -/
def current? (state : State) : Option Signature :=
  state.symbols.current?

/- The functions of the program, in order of declaration. -/
def declared (state : State) : List Signature :=
  state.symbols.functions.declared

end State

end Analysis

end OnePass

------------------------------------------------------------
-- Stops
------------------------------------------------------------

namespace OnePass

namespace Analysis

/- Why an event is not accepted. -/
inductive Stop where
  | finding (diagnostic : Diagnostic)
  | fault (fault : Fault)
deriving DecidableEq, Repr

/- Something is wrong with the program at this place. -/
def reject
    {α : Type}
    (cause : Cause)
    (span : Span) : Except Stop α :=
  .error (.finding (.pointAt cause span))

/- The outcome of an operation that may be misused. -/
def guarded
    {α : Type}
    (result : Except Fault α) : Except Stop α :=
  result.mapError .fault

end Analysis

end OnePass

------------------------------------------------------------
-- Type Requirements
------------------------------------------------------------

namespace OnePass

namespace Analysis

/- A value may be used where `target` is expected. -/
def requireCast
    (source target : Ty)
    (span : Span) : Except Stop Unit :=
  if source.castsTo target then
    .ok ()
  else
    reject .typeMismatch span

/- A value takes part in arithmetic and comparisons. -/
def requireNumeral
    (ty : Ty)
    (span : Span) : Except Stop Unit :=
  if ty.isNumeral then
    .ok ()
  else
    reject .typeMismatch span

end Analysis

end OnePass
