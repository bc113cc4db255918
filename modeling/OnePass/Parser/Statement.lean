import OnePass.Parser.Expression

/-
  Statements.

  A statement spends one level of the nesting budget that it
  is read with; the statements and expressions inside it
  share what is left. Events inside a statement are
  announced as soon as they are known, so some come before
  the token that closes their construct is read.

  Key definitions include:
    * `Parser.statementList`
    * `Parser.statementForm`
    * `Parser.statement`
-/

------------------------------------------------------------
-- Lists And Branches
------------------------------------------------------------

namespace OnePass

namespace Parser

variable {σ τ ε : Type}

/- One more statement, unless a closing brace is next. -/
def statementStep
    (statement : Rule σ ε Unit) :
    Unit → Rule σ ε (Option Unit) := fun _ => do
  match ← peek with
  | none => return none
  | some .rightBrace => return none
  | some _ => return some (← statement)

/- One or more statements, up to a closing brace. -/
def statementList
    (statement : Rule σ ε Unit) : Rule σ ε Unit := do
  statement
  iterate (statementStep statement) ()

/- Statements in braces, in a scope of their own. -/
def block
    (receiver : Receiver σ τ ε)
    (statement : Rule σ ε Unit) : Rule σ ε Unit := do
  let _ ← expect .leftBrace
  effect receiver .openScope
  statementList statement
  effect receiver .closeScope
  let _ ← expect .rightBrace

/- The body of a branch or loop, in a scope of its own. -/
def branch
    (receiver : Receiver σ τ ε)
    (statement : Rule σ ε Unit) : Rule σ ε Unit := do
  effect receiver .openScope
  statement
  effect receiver .closeScope

/- An expression in parentheses that decides a branch. -/
def condition
    (receiver : Receiver σ τ ε)
    (expression : Rule σ ε (Typed τ)) : Rule σ ε Unit := do
  let _ ← expect .leftParen
  effect receiver (.condition (← expression))
  let _ ← expect .rightParen

end Parser

end OnePass

------------------------------------------------------------
-- Control Flow
------------------------------------------------------------

namespace OnePass

namespace Parser

variable {σ τ ε : Type}

/- The other branch of a conditional, if there is one. -/
def otherBranch
    (receiver : Receiver σ τ ε)
    (statement : Rule σ ε Unit) : Rule σ ε Unit := do
  if ← accept .kwElse then
    branch receiver statement

/-
  A conditional. An `else` belongs to the nearest `if`
  before it that has none yet.
-/
def ifStatement
    (receiver : Receiver σ τ ε)
    (expression : Rule σ ε (Typed τ))
    (statement : Rule σ ε Unit) : Rule σ ε Unit := do
  let _ ← expect .kwIf
  condition receiver expression
  branch receiver statement
  otherBranch receiver statement

/- A loop. -/
def whileStatement
    (receiver : Receiver σ τ ε)
    (expression : Rule σ ε (Typed τ))
    (statement : Rule σ ε Unit) : Rule σ ε Unit := do
  let _ ← expect .kwWhile
  condition receiver expression
  effect receiver .openLoop
  branch receiver statement
  effect receiver .closeLoop

/-
  A return. Without a value its extent takes in the
  semicolon, with a value it ends with the value.
-/
def returnStatement
    (receiver : Receiver σ τ ε)
    (expression : Rule σ ε (Typed τ)) : Rule σ ε Unit := do
  let start ← expect .kwReturn
  if (← peek) = some .semicolon then
    let stop ← nextSpan
    effect receiver (.returnVoid (start.cover stop))
  else
    let result ← expression
    effect receiver
      (.returnValue result (start.cover result.span))
  let _ ← expect .semicolon

/- A word that is a statement by itself. -/
def jump
    (receiver : Receiver σ τ ε)
    (kind : Kind)
    (event : Span → EffectEvent τ) : Rule σ ε Unit := do
  let start ← expect kind
  let stop ← expect .semicolon
  effect receiver (event (start.cover stop))

end Parser

end OnePass

------------------------------------------------------------
-- Variables And Calls
------------------------------------------------------------

namespace OnePass

namespace Parser

variable {σ τ ε : Type}

/- A new value for a variable. -/
def assignment
    (receiver : Receiver σ τ ε)
    (expression : Rule σ ε (Typed τ)) : Rule σ ε Unit := do
  let name ← identifier
  let _ ← expect .assign
  let result ← expression
  let stop ← expect .semicolon
  effect receiver
    (.assignment name result (name.span.cover stop))

/- A call whose result is not used. -/
def callStatement
    (receiver : Receiver σ τ ε)
    (expression : Rule σ ε (Typed τ)) : Rule σ ε Unit := do
  let _ ← call receiver expression
  let _ ← expect .semicolon

/- A type and a name, the way they are declared. -/
def declarator : Rule σ ε Formal := do
  let isConst ← accept .kwConst
  let ty ← valueType
  let name ← identifier
  return { isConst, ty, name }

/- The first value of a variable, if it has one. -/
def initializer
    (expression : Rule σ ε (Typed τ)) :
    Rule σ ε (Option (Typed τ)) := do
  if ← accept .assign then
    return some (← expression)
  else
    return none

/- A variable, with or without a first value. -/
def declaration
    (receiver : Receiver σ τ ε)
    (expression : Rule σ ε (Typed τ)) : Rule σ ε Unit := do
  let start ← nextSpan
  let formal ← declarator
  effect receiver
    (.declarationStart formal.isConst formal.ty formal.name)
  let first ← initializer expression
  let stop ← expect .semicolon
  effect receiver
    (.declaration formal.isConst formal.ty formal.name
      first (start.cover stop))

end Parser

end OnePass

------------------------------------------------------------
-- Statements
------------------------------------------------------------

namespace OnePass

namespace Parser

variable {σ τ ε : Type}

/-
  A statement, given how the expressions and statements
  inside it are read. The first token decides which form it
  has, and a name is told apart by the token after it.
-/
def statementForm
    (receiver : Receiver σ τ ε)
    (expression : Rule σ ε (Typed τ))
    (inner : Rule σ ε Unit) : Rule σ ε Unit := do
  match ← lookahead with
  | (some .leftBrace, _) => block receiver inner
  | (some .kwIf, _) => ifStatement receiver expression inner
  | (some .kwWhile, _) =>
      whileStatement receiver expression inner
  | (some .kwReturn, _) => returnStatement receiver expression
  | (some .kwBreak, _) =>
      jump receiver .kwBreak .breakStatement
  | (some .kwContinue, _) =>
      jump receiver .kwContinue .continueStatement
  | (some .identifier, some .assign) =>
      assignment receiver expression
  | (some .identifier, some .leftParen) =>
      callStatement receiver expression
  | (some kind, _) =>
      if kind = .kwConst || kind.isTypeName then
        declaration receiver expression
      else
        unexpected
  | (none, _) => unexpected

/- A statement, read within a nesting budget. -/
def statement
    (receiver : Receiver σ τ ε) : Nat → Rule σ ε Unit
| 0 => throw (.stuck .tooDeep)
| budget + 1 =>
    statementForm receiver (expression receiver budget)
      (statement receiver budget)

end Parser

end OnePass
