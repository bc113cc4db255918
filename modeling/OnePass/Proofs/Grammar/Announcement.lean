import OnePass.Proofs.Grammar.Tree

/-
  What a tree announces to a receiver.

  A tree is announced bottom-up and from left to right: the
  parts of a construct come before the construct. The
  attribute of an expression is what the receiver answers,
  and its extent is read off the tree.

  Key definitions include:
    * `Grammar.Expr.span`
    * `Grammar.Expr.announce`
    * `Grammar.Stmt.announce`
    * `Grammar.Program.announce`
-/

------------------------------------------------------------
-- Extents
------------------------------------------------------------

namespace OnePass

namespace Grammar

/- From the callee to the closing parenthesis. -/
def Call.span : Call → Span
| bare callee _ right => callee.span.cover right.span
| applied callee _ _ right => callee.span.cover right.span

/- From the first token of an expression to its last. -/
def Expr.span {layer : Nat} : Expr layer → Span
| .negation word operand => word.span.cover operand.span
| .cast left _ _ operand => left.span.cover operand.span
| .paren left _ right => left.span.cover right.span
| .call parts => parts.span
| .name leaf => leaf.span
| .string leaf => leaf.span
| .number digits => digits.span
| .byte digits suffix => digits.span.cover suffix.span
| .bool word => word.token.span
| .lift operand => operand.span
| .binary left _ right => left.span.cover right.span

namespace Declarator

/- The place of the first token. -/
def startSpan (declarator : Declarator) : Span :=
  match declarator.isConst with
  | some word => word.span
  | none => declarator.ty.token.span

/- What is declared, as a formal parameter. -/
def formal (declarator : Declarator) : Formal where
  isConst := declarator.isConst.isSome
  ty := declarator.ty.meaning
  name := declarator.name.identifier

end Declarator

/- The formal parameters, in source order. -/
def Function.formalList
    (function : Function) : List Formal :=
  (function.formals.elim [] Separated.toList).map
    Declarator.formal

end Grammar

end OnePass

------------------------------------------------------------
-- Expressions
------------------------------------------------------------

namespace OnePass

namespace Grammar

variable {σ τ ε : Type}

mutual

/- Announce an expression, for its attribute. -/
def Expr.announce
    {layer : Nat}
    (receiver : Receiver σ τ ε) :
    Expr layer → EStateM ε σ τ
| .negation word operand => do
    let inner ← operand.announce receiver
    receiver.value
      (.negation ⟨inner, operand.span⟩
        (word.span.cover operand.span))
| .cast left target _ operand => do
    let inner ← operand.announce receiver
    receiver.value
      (.cast target.meaning ⟨inner, operand.span⟩
        (left.span.cover operand.span))
| .paren _ inner _ => inner.announce receiver
| .call parts => parts.announce receiver
| .name leaf => receiver.value (.identifier leaf.identifier)
| .string leaf => receiver.value (.stringLiteral leaf.span)
| .number digits =>
    receiver.value (.numberLiteral digits.text digits.span)
| .byte digits suffix =>
    receiver.value
      (.byteLiteral digits.text
        (digits.span.cover suffix.span))
| .bool word =>
    receiver.value
      (.boolLiteral word.meaning word.token.span)
| .lift operand => operand.announce receiver
| .binary left operator right => do
    let before ← left.announce receiver
    let after ← right.announce receiver
    receiver.value
      (operator.meaning.event ⟨before, left.span⟩
        ⟨after, right.span⟩ (left.span.cover right.span))

/- Announce a call, for its attribute. -/
def Call.announce
    (receiver : Receiver σ τ ε) :
    Call → EStateM ε σ τ
| .bare callee left right =>
    receiver.value
      (.call callee.identifier []
        (Call.bare callee left right).span)
| .applied callee left arguments right => do
    let values ← announceArguments receiver arguments
    receiver.value
      (.call callee.identifier values
        (Call.applied callee left arguments right).span)

/- Announce arguments, for their attributes and extents. -/
def announceArguments
    (receiver : Receiver σ τ ε) :
    Separated (Expr topLayer) → EStateM ε σ (List (Typed τ))
| .one item => do
    return [⟨← item.announce receiver, item.span⟩]
| .more items _ item => do
    let before ← announceArguments receiver items
    return before ++ [⟨← item.announce receiver, item.span⟩]

end

/- Announce an expression, for its attribute and extent. -/
def Expr.value
    {layer : Nat}
    (receiver : Receiver σ τ ε)
    (expr : Expr layer) : EStateM ε σ (Typed τ) := do
  return ⟨← expr.announce receiver, expr.span⟩

end Grammar

end OnePass

------------------------------------------------------------
-- Statements And Programs
------------------------------------------------------------

namespace OnePass

namespace Grammar

variable {σ τ ε : Type}

/- Announce a condition. -/
def Condition.announce
    (receiver : Receiver σ τ ε)
    (condition : Condition) : EStateM ε σ Unit := do
  receiver.effect
    (.condition (← condition.value.value receiver))

/- Announce the first value of a variable, if it has one. -/
def announceInitializer
    (receiver : Receiver σ τ ε) :
    Option Initializer → EStateM ε σ (Option (Typed τ))
| none => return none
| some initializer => do
    return some (← initializer.value.value receiver)

/- Announce what is inside a scope, and the scope around it. -/
def inScope
    (receiver : Receiver σ τ ε)
    (inside : EStateM ε σ Unit) : EStateM ε σ Unit := do
  receiver.effect .openScope
  inside
  receiver.effect .closeScope

mutual

/- Announce a statement. -/
def Stmt.announce
    (receiver : Receiver σ τ ε) :
    Stmt → EStateM ε σ Unit
| .block _ body _ => inScope receiver (body.announce receiver)
| .declaration declarator initializer stop => do
    let formal := declarator.formal
    receiver.effect
      (.declarationStart formal.isConst formal.ty formal.name)
    let value ← announceInitializer receiver initializer
    receiver.effect
      (.declaration formal.isConst formal.ty formal.name value
        (declarator.startSpan.cover stop.span))
| .assignment name _ value stop => do
    let result ← value.value receiver
    receiver.effect
      (.assignment name.identifier result
        (name.span.cover stop.span))
| .call parts _ => do
    let _ ← parts.announce receiver
| .returnVoid word stop =>
    receiver.effect (.returnVoid (word.span.cover stop.span))
| .returnValue word value _ => do
    let result ← value.value receiver
    receiver.effect
      (.returnValue result (word.span.cover value.span))
| .ifThen _ condition branch => do
    condition.announce receiver
    inScope receiver (branch.announce receiver)
| .ifElse _ condition branch _ otherwise => do
    condition.announce receiver
    inScope receiver (branch.announce receiver)
    inScope receiver (otherwise.announce receiver)
| .whileLoop _ condition body => do
    condition.announce receiver
    receiver.effect .openLoop
    inScope receiver (body.announce receiver)
    receiver.effect .closeLoop
| .jump word stop =>
    receiver.effect
      (word.meaning.event (word.token.span.cover stop.span))

/- Announce statements one after the other. -/
def Stmts.announce
    (receiver : Receiver σ τ ε) :
    Stmts → EStateM ε σ Unit
| .one statement => statement.announce receiver
| .more statement statements => do
    statement.announce receiver
    statements.announce receiver

end

/- Announce a function. -/
def Function.announce
    (receiver : Receiver σ τ ε)
    (function : Function) : EStateM ε σ Unit := do
  let name := function.name.identifier
  receiver.effect
    (.functionHeader function.returns.meaning name)
  receiver.effect
    (.functionSignature function.returns.meaning name
      function.formalList)
  function.body.announce receiver
  receiver.effect (.functionEnd function.stop.span)

/- Announce functions one after the other. -/
def announceFunctions
    (receiver : Receiver σ τ ε) :
    List Function → EStateM ε σ Unit
| [] => return ()
| function :: functions => do
    function.announce receiver
    announceFunctions receiver functions

/- Announce a program. -/
def Program.announce
    (receiver : Receiver σ τ ε)
    (program : Program) : EStateM ε σ Unit := do
  announceFunctions receiver program.functions
  receiver.effect .programEnd

end Grammar

end OnePass
