import OnePass.Analysis.Effect
import OnePass.Analysis.Value
import OnePass.Parser.Program
import OnePass.Token.Lexer

/-
  Analysis of programs.

  The analysis is a receiver of the events of the parser: a
  program is checked while it is read, in one pass. Events
  can also be performed one by one, in any order; one that
  is not accepted leaves the state as it was.

  Key definitions include:
    * `Analysis.receiver`
    * `Analysis.perform`
    * `Analysis.replay`
    * `analyze`
    * `analyzeText`
-/

------------------------------------------------------------
-- Receiving Events
------------------------------------------------------------

namespace OnePass

namespace Analysis

/- The receiver that checks a program. -/
def receiver : Receiver State Ty Stop where
  value event := fun state =>
    match valueType state.symbols event with
    | .ok ty => .ok ty state
    | .error stop => .error stop state
  effect event := fun state =>
    match step state event with
    | .ok next => .ok () next
    | .error stop => .error stop state

/-
  Perform one event. The answer holds a type if the event is
  an expression.
-/
def perform
    (state : State) :
    Event Ty → Except Stop (Option Ty × State)
| .value event => do
    return (some (← valueType state.symbols event), state)
| .effect event => do
    return (none, ← step state event)

/- What became of one event, and the state after it. -/
structure Performed where
  result : Except Diagnostic (Option Ty)
  state : State

/-
  Perform events one after the other, going on after a
  finding and stopping at the first fault. The last answer
  is the state at the end.
-/
def replay
    (state : State) :
    List (Event Ty) → List Performed × Option Fault × State
| [] => ([], none, state)
| event :: events =>
    match perform state event with
    | .ok (answer, next) =>
        let (later, final) := replay next events
        (⟨.ok answer, next⟩ :: later, final)
    | .error (.finding diagnostic) =>
        let (later, final) := replay state events
        (⟨.error diagnostic, state⟩ :: later, final)
    | .error (.fault fault) => ([], some fault, state)

end Analysis

end OnePass

------------------------------------------------------------
-- Whole Programs
------------------------------------------------------------

namespace OnePass

namespace Analysis

/- Why the analysis of a program stops. -/
def Stop.ofFailure : Parser.Failure Stop → Stop
| .misfit misfit => .finding (.pointAt .malformed misfit.span)
| .refused stop => stop

end Analysis

/-
  The functions that a program declares, in the order of
  their declaration, or what is wrong with it.
-/
def analyze
    (tokens : List Token) :
    Except Analysis.Stop (List Signature) :=
  match parse Analysis.receiver tokens .initial with
  | (.ok _, state) => .ok state.declared
  | (.error failure, _) => .error (.ofFailure failure)

/- As `analyze`, on source text. -/
def analyzeText
    (source : String) :
    Except Analysis.Stop (List Signature) :=
  match tokenize source with
  | .ok tokens => analyze tokens
  | .error diagnostic => .error (.finding diagnostic)

end OnePass
