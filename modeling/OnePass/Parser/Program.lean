import OnePass.Parser.Statement

/-
  Functions and whole programs.

  A program is any number of functions. Reading stops at
  the first token that does not fit, the first construct
  nested too deeply, or the first event that the receiver
  refuses.

  Key definitions include:
    * `Parser.maxNesting`
    * `Parser.function`
    * `Parser.program`
    * `Parser.Misfit`
    * `Parser.Failure`
    * `parse`
-/

------------------------------------------------------------
-- Functions
------------------------------------------------------------

namespace OnePass

namespace Parser

variable {σ τ ε : Type}

/-
  The most levels of statements and factors that may be open
  at once.
-/
def maxNesting : Nat := 128

/- Everything of a function that stands before its body. -/
def signature
    (receiver : Receiver σ τ ε) : Rule σ ε Unit := do
  let returns ← returnType
  let name ← identifier
  effect receiver (.functionHeader returns name)
  let _ ← expect .leftParen
  let formals ← commaList declarator
  effect receiver (.functionSignature returns name formals)
  let _ ← expect .rightParen

/-
  The statements of a function, in braces. Statements and
  factors may be nested up to the limit.
-/
def functionBody
    (receiver : Receiver σ τ ε)
    (limit : Nat) : Rule σ ε Unit := do
  let _ ← expect .leftBrace
  statementList (statement receiver limit)
  let stop ← expect .rightBrace
  effect receiver (.functionEnd stop)

/- A function with its body. -/
def function
    (receiver : Receiver σ τ ε)
    (limit : Nat) : Rule σ ε Unit := do
  signature receiver
  functionBody receiver limit

/- One more function, unless all input is read. -/
def functionStep
    (receiver : Receiver σ τ ε)
    (limit : Nat) :
    Unit → Rule σ ε (Option Unit) := fun _ => do
  match ← peek with
  | none => return none
  | some _ => return some (← function receiver limit)

/- All functions of a program, up to the end of input. -/
def program
    (receiver : Receiver σ τ ε)
    (limit : Nat) : Rule σ ε Unit := do
  iterate (functionStep receiver limit) ()
  effect receiver .programEnd

end Parser

end OnePass

------------------------------------------------------------
-- Parsing
------------------------------------------------------------

namespace OnePass

namespace Parser

/-
  Where tokens cannot be read on: the place and the text of
  the token, which are empty at the end of input.
-/
structure Misfit where
  obstacle : Obstacle
  span : Span
  near : String
deriving DecidableEq, Repr

/- Why a program is not accepted. -/
inductive Failure (ε : Type) where
  | misfit (misfit : Misfit)
  | refused (reason : ε)
deriving DecidableEq, Repr

/- The place just after the last token. -/
def endSpan (tokens : List Token) : Span :=
  match tokens.getLast? with
  | some last => ⟨last.span.stop, last.span.stop, last.span.line⟩
  | none => ⟨0, 0, 1⟩

/- The obstacle met at the start of the unread tokens. -/
def misfitAt
    (tokens rest : List Token)
    (obstacle : Obstacle) : Misfit :=
  match rest with
  | next :: _ => ⟨obstacle, next.span, next.text⟩
  | [] => ⟨obstacle, endSpan tokens, ""⟩

end Parser

/-
  Read a program, announcing its constructs to a receiver
  that starts in the given state. The final state of the
  receiver is kept also when the program is not accepted.
-/
def parse
    {σ τ ε : Type}
    (receiver : Receiver σ τ ε)
    (tokens : List Token)
    (state : σ) :
    Except (Parser.Failure ε) Unit × σ :=
  match
    Parser.program receiver Parser.maxNesting
      ⟨tokens, state⟩ with
  | .ok _ cursor => (.ok (), cursor.state)
  | .error (.refused reason) cursor =>
      (.error (.refused reason), cursor.state)
  | .error (.stuck obstacle) cursor =>
      (.error
        (.misfit
          (Parser.misfitAt tokens cursor.rest obstacle)),
        cursor.state)

end OnePass
